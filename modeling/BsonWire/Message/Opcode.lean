/-!
# Opcodes

The opcode of a message says how its body is laid out. The numbers are an open set: those without
a meaning are kept, and their bodies are not read.
-/

namespace BsonWire

/-- The kind of a message. -/
inductive Opcode where
  /-- The answer of a server to the legacy requests. -/
  | reply
  /-- A bare text. -/
  | message
  | update
  | insert
  /-- A number that is set aside and never sent. -/
  | reserved
  | query
  | getMore
  | delete
  | killCursors
  | command
  | commandReply
  /-- A message of another kind in an envelope. -/
  | compressed
  /-- The extensible message, a list of sections. -/
  | msg
  /-- A number without a meaning. -/
  | unknown (code : Int32)
  deriving DecidableEq, Repr

namespace Opcode

/-- The number of an opcode on the wire. -/
def code : Opcode → Int32
  | reply => 1
  | message => 1000
  | update => 2001
  | insert => 2002
  | reserved => 2003
  | query => 2004
  | getMore => 2005
  | delete => 2006
  | killCursors => 2007
  | command => 2010
  | commandReply => 2011
  | compressed => 2012
  | msg => 2013
  | unknown code => code

/-- The opcode that a number stands for. -/
def ofCode (code : Int32) : Opcode :=
  match code.toInt with
  | 1 => reply
  | 1000 => message
  | 2001 => update
  | 2002 => insert
  | 2003 => reserved
  | 2004 => query
  | 2005 => getMore
  | 2006 => delete
  | 2007 => killCursors
  | 2010 => command
  | 2011 => commandReply
  | 2012 => compressed
  | 2013 => msg
  | _ => unknown code

/-- The name of an opcode in reports. -/
def name : Opcode → String
  | reply => "Reply"
  | message => "Message"
  | update => "Update document"
  | insert => "Insert document"
  | reserved => "Reserved"
  | query => "Query"
  | getMore => "Get More"
  | delete => "Delete document"
  | killCursors => "Kill Cursors"
  | command => "Command Request"
  | commandReply => "Command Reply"
  | compressed => "Compressed Data"
  | msg => "Extensible Message Format"
  | unknown _ => "Unknown"

theorem code_ofCode (code : Int32) : (ofCode code).code = code := by
  unfold ofCode
  split
  case h_14 => rfl
  all_goals (rename_i h; exact Int32.toInt_inj.1 h.symm)

end Opcode

end BsonWire
