/-!
# Flag words

Some bodies carry a word of flags. The word is kept whole, so that bits without a meaning survive;
the bits with one are listed here, word by word, lowest first.
-/

namespace BsonWire

/-- A bit with a meaning. -/
structure Flag where
  /-- The name of the flag. -/
  name : String
  /-- Its place in the word, from the lowest bit on. -/
  bit : Nat
  deriving DecidableEq, Repr

namespace Flag

/-- Whether a word has the flag. -/
def isSet (flag : Flag) (word : UInt32) : Bool := word.toNat.testBit flag.bit

/-- The flags of a reply. -/
def reply : List Flag :=
  [⟨"cursor_not_found", 0⟩, ⟨"query_failure", 1⟩, ⟨"shard_config_stale", 2⟩, ⟨"await_capable", 3⟩]

/-- The flags of an update. -/
def update : List Flag := [⟨"upsert", 0⟩, ⟨"multi_update", 1⟩]

/-- The flags of an insert. -/
def insert : List Flag := [⟨"continue_on_error", 0⟩]

/-- The flags of a query; its lowest bit is reserved. -/
def query : List Flag :=
  [⟨"tailable_cursor", 1⟩, ⟨"slave_ok", 2⟩, ⟨"oplog_replay", 3⟩, ⟨"no_cursor_timeout", 4⟩,
    ⟨"await_data", 5⟩, ⟨"exhaust", 6⟩, ⟨"partial", 7⟩]

/-- The flags of a delete. -/
def delete : List Flag := [⟨"single_remove", 0⟩]

/-- The flag of an extensible message that ends with a checksum. -/
def checksumPresent : Flag := ⟨"checksum_present", 0⟩

/-- The flags of an extensible message. -/
def msg : List Flag := [checksumPresent, ⟨"more_to_come", 1⟩, ⟨"exhaust_allowed", 16⟩]

/-- The names of the flags that a word has, of those with a meaning. -/
def namesIn (known : List Flag) (word : UInt32) : List String :=
  (known.filter (·.isSet word)).map (·.name)

end Flag

end BsonWire
