/-!
# The room for a block

A block of an earlier edition is made in what is left of a buffer. Literals are put there eight at a
time, so behind those of a sequence there has to be room for eight bytes more.
-/

namespace BsonWire.Zstd.Earlier

/-- The room for the contents of a block. -/
structure Room where
  /-- The number of bytes there may be with those before the block. -/
  ceiling : Nat

/-- Whether there is room for a sequence behind a number of bytes. -/
def Room.fits (room : Room) (size literalLength matchLength : Nat) : Bool :=
  size + literalLength + 8 ≤ room.ceiling && size + literalLength + matchLength ≤ room.ceiling

end BsonWire.Zstd.Earlier
