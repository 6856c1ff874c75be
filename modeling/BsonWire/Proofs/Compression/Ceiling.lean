import BsonWire.Compression.Standard

/-!
# The ceiling of codecs

What a codec gives back is never longer than the ceiling it is given, and a payload that it refuses
as a bomb has shown to hold more (`BsonWire.Codec.KeepsCeiling`). What undoes a format need not be
looked at for this. A stream is drained up to one byte more than the ceiling, so it makes no
difference what it gives (`BsonWire.Codec.keepsCeiling_ofStream`). A block records a size, which is
compared with the ceiling beforehand. Here one thing has to be known: that a block which is unpacked
comes to the size that it records (`BsonWire.BlockFormat.Exact`,
`BsonWire.Codec.keepsCeiling_ofBlocks`). Snappy blocks do (`BsonWire.Snappy.exact_format`).
-/

namespace BsonWire

/-- **A codec keeps its ceiling**, whatever the payload. -/
structure Codec.KeepsCeiling (codec : Codec) : Prop where
  /-- Contents are not longer than the ceiling. -/
  size_le : ∀ payload limit contents, codec.decompress payload limit = .ok contents →
    contents.size ≤ limit
  /-- A bomb names the ceiling, and a number of bytes above it. -/
  lt_of_bomb : ∀ payload limit actual named,
    codec.decompress payload limit = .error (.bomb actual named) → named = limit ∧ limit < actual

/-! ### Streams -/

/-- **Bounded draining**: a fault, or a bomb of one byte more than the ceiling, or contents that are
not longer. -/
theorem readBounded_cases (drain : Drain) (limit : Nat) :
    (∃ reason, readBounded drain limit = .error (.failed reason)) ∨
      readBounded drain limit = .error (.bomb (limit + 1) limit) ∨
      ∃ contents, readBounded drain limit = .ok contents ∧ contents.size ≤ limit := by
  rw [readBounded]
  split
  · exact .inl ⟨_, rfl⟩
  · split
    · rename_i contents _ hle
      exact .inr (.inr ⟨contents, rfl, hle⟩)
    · exact .inr (.inl rfl)

/-- **Any stream keeps the ceiling** when it is drained. -/
theorem Codec.keepsCeiling_ofStream (drain : ByteArray → Drain) : (ofStream drain).KeepsCeiling := by
  refine ⟨fun payload limit contents h => ?_, fun payload limit actual named h => ?_⟩
  all_goals
    rw [ofStream] at h
    obtain ⟨_, hread⟩ | hread | ⟨_, hread, hle⟩ := readBounded_cases (drain payload) limit <;>
      cases hread.symm.trans h
  · exact hle
  · exact ⟨rfl, Nat.lt_succ_self limit⟩

/-! ### Blocks -/

/-- **Blocks are exact**: one that is unpacked comes to the size that it records. -/
def BlockFormat.Exact (format : BlockFormat) : Prop :=
  ∀ block size contents, format.size block = .ok size → format.unpack block = .ok contents →
    contents.size = size

/-- **Bounded unpacking**: something is wrong with a block, or it records more than the ceiling, or
it records no more and is unpacked. -/
theorem Codec.decompress_ofBlocks_cases (format : BlockFormat) (block : ByteArray) (limit : Nat) :
    (∃ reason, (ofBlocks format).decompress block limit = .error (.failed reason)) ∨
      ∃ size, format.size block = .ok size ∧
        ((limit < size ∧ (ofBlocks format).decompress block limit = .error (.bomb size limit)) ∨
          (size ≤ limit ∧ ∃ contents, format.unpack block = .ok contents ∧
            (ofBlocks format).decompress block limit = .ok contents)) := by
  rw [ofBlocks]
  dsimp only
  cases hsize : format.size block with
  | error reason => exact .inl ⟨reason, rfl⟩
  | ok size =>
    dsimp only
    by_cases hlt : limit < size
    · exact .inr ⟨size, rfl, .inl ⟨hlt, if_pos hlt⟩⟩
    · rw [if_neg hlt]
      cases hunpack : format.unpack block with
      | error reason => exact .inl ⟨reason, rfl⟩
      | ok contents => exact .inr ⟨size, rfl, .inr ⟨Nat.not_lt.mp hlt, contents, rfl, rfl⟩⟩

/-- **Exact blocks keep the ceiling**, since they hold what they record. -/
theorem Codec.keepsCeiling_ofBlocks {format : BlockFormat} (hexact : format.Exact) :
    (ofBlocks format).KeepsCeiling := by
  refine ⟨fun block limit contents h => ?_, fun block limit actual named h => ?_⟩
  all_goals
    obtain ⟨_, hread⟩ | ⟨size, hsize, ⟨hlt, hread⟩ | ⟨hle, _, hunpack, hread⟩⟩ :=
      decompress_ofBlocks_cases format block limit <;> cases hread.symm.trans h
  · rwa [hexact block size contents hsize hunpack]
  · exact ⟨rfl, hlt⟩

/-! ### Snappy blocks -/

namespace Snappy

/-- **The elements of a block** come to the size that is asked for, or to nothing. -/
theorem size_of_elements {block out contents : ByteArray} {size i : Nat}
    (h : elements block size i out = some contents) : contents.size = size := by
  fun_induction elements block size i out with
  | case1 _ _ _ _ _ _ _ _ _ ih => exact ih h
  | case5 _ _ _ hsize =>
    cases h
    exact hsize
  | _ => cases h

theorem header_of_size_eq_zero {block : ByteArray} (h : block.size = 0) : header block = none := by
  have hvarint : readVarint block 0 0 0 = none := by
    rw [readVarint, if_neg (by omega)]
  rw [header, hvarint]

/-- The size that is recorded is the one that the elements have to come to. -/
theorem size_of_header {block : ByteArray} {recorded start : Nat}
    (h : header block = some (recorded, start)) : size block = .ok recorded := by
  have hne : block.size ≠ 0 := by
    intro hempty
    rw [header_of_size_eq_zero hempty] at h
    cases h
  rw [size, if_neg hne, h]

theorem exact_format : format.Exact := by
  intro block declared contents hsize hunpack
  change size block = .ok declared at hsize
  change unpack block = .ok contents at hunpack
  rw [unpack] at hunpack
  cases hheader : header block with
  | none =>
    rw [hheader] at hunpack
    cases hunpack
  | some front =>
    obtain ⟨recorded, start⟩ := front
    rw [size_of_header hheader] at hsize
    cases hsize
    rw [hheader] at hunpack
    dsimp only at hunpack
    cases helements : elements block declared start .empty with
    | none =>
      rw [helements] at hunpack
      cases hunpack
    | some out =>
      rw [helements] at hunpack
      cases hunpack
      exact size_of_elements helements

end Snappy

/-! ### All formats -/

/-- **All codecs keep their ceiling**, whatever the streams give, if blocks are exact. -/
theorem Codecs.keepsCeiling {snappy : BlockFormat} (hexact : snappy.Exact)
    {zlib zstd : ByteArray → Drain} {compressor : Compressor} {codec : Codec}
    (h : ofFormats snappy zlib zstd compressor = some codec) : codec.KeepsCeiling := by
  cases compressor with
  | snappy =>
    cases h
    exact Codec.keepsCeiling_ofBlocks hexact
  | zlib =>
    cases h
    exact Codec.keepsCeiling_ofStream zlib
  | zstd =>
    cases h
    exact Codec.keepsCeiling_ofStream zstd
  | noop | unknown => cases h

end BsonWire
