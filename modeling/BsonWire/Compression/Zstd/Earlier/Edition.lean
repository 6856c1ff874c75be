/-!
# Earlier editions

The format had seven editions before it was fixed, each with a mark of its own. The last four of
them are still read.
-/

namespace BsonWire.Zstd.Earlier

/-- The editions that are read. -/
inductive Edition where
  | fourth
  | fifth
  | sixth
  | seventh
  deriving DecidableEq, Repr

namespace Edition

/-- The mark of the frames of an edition. -/
def mark : Edition → Nat
  | fourth => 0xFD2FB524
  | fifth => 0xFD2FB525
  | sixth => 0xFD2FB526
  | seventh => 0xFD2FB527

/-- The edition whose mark a number is. -/
def ofMark? (mark : Nat) : Option Edition :=
  [fourth, fifth, sixth, seventh].find? (·.mark = mark)

end Edition

end BsonWire.Zstd.Earlier
