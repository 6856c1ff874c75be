import BsonWire.Compression.Zstd.Huffman

/-!
# Streams of Huffman words

Coded literals are one stream of words, or four, each of which gives a quarter of them. Words are
decoded **singly** or **in pairs**. In pairs, two words are taken at once wherever the bits that the
table is looked at with are enough for both; the last literal may then take the bits of a word that
is not there.

A stream on its own has to end with its last word. Four streams that all have eight bytes are
decoded **together**, and then nothing is asked of their ends: bits may be left over, and a stream
that needs more bits takes those of the bytes before it. Only while all four still have words to
give may none of them stray too far.
-/

namespace BsonWire.Zstd

/-- How the words of a table are decoded. -/
inductive WordMode where
  | singly
  | inPairs
  deriving DecidableEq, Repr

/-- What is known of the time that decoding takes with words of a given length: to make the table,
and for each 256 literals. -/
structure WordCost where
  table : Nat
  each : Nat

/-- What is known of the time that decoding singly and in pairs takes. -/
structure WordCosts where
  /-- The costs by the number of sixteenths of a byte that a literal takes. -/
  costs : Array (WordCost × WordCost)
  /-- Decoding in pairs has to be quicker by one part in so many. -/
  margin : Nat

/-- The costs of decoding singly and in pairs. -/
def wordCosts : WordCosts where
  costs := #[
    (⟨0, 0⟩, ⟨1, 1⟩), (⟨0, 0⟩, ⟨1, 1⟩), (⟨150, 216⟩, ⟨381, 119⟩), (⟨170, 205⟩, ⟨514, 112⟩),
    (⟨177, 199⟩, ⟨539, 110⟩), (⟨197, 194⟩, ⟨644, 107⟩), (⟨221, 192⟩, ⟨735, 107⟩),
    (⟨256, 189⟩, ⟨881, 106⟩), (⟨359, 188⟩, ⟨1167, 109⟩), (⟨582, 187⟩, ⟨1570, 114⟩),
    (⟨688, 187⟩, ⟨1712, 122⟩), (⟨825, 186⟩, ⟨1965, 136⟩), (⟨976, 185⟩, ⟨2131, 150⟩),
    (⟨1180, 186⟩, ⟨2070, 175⟩), (⟨1377, 185⟩, ⟨1731, 202⟩), (⟨1412, 185⟩, ⟨1695, 202⟩)]
  margin := 32

/-- The quicker mode for four streams that give `count` literals and take `size` bytes with their
table. -/
def WordCosts.quicker (known : WordCosts) (count size : Nat) : WordMode :=
  let sixteenths := if count ≤ size then 15 else size * 16 / count
  let (one, two) := known.costs[sixteenths]?.getD (⟨0, 0⟩, ⟨1, 1⟩)
  let cost (c : WordCost) : Nat := c.table + c.each * (count / 256)
  if cost two + cost two / known.margin < cost one then .inPairs else .singly

/-! ### Four streams -/

/-- Four streams of words. -/
structure FourStreams where
  data : ByteArray
  /-- Where the streams start. -/
  starts : List Nat
  /-- Where the streams end. -/
  stops : List Nat
  /-- The numbers of literals that the streams give. -/
  counts : List Nat

/-- Four streams, with the sizes of the first three in front. Each gives a quarter of the literals,
rounded up, and the last what is left. -/
def FourStreams.read (data : ByteArray) (count : Nat) : Except String FourStreams :=
  let quarter := (count + 3) / 4
  let start₁ := 6
  let start₂ := start₁ + Bytes.number data 0 2
  let start₃ := start₂ + Bytes.number data 2 2
  let start₄ := start₃ + Bytes.number data 4 2
  if data.size < 10 ∨ data.size ≤ start₄ ∨ count < 3 * quarter then .error "invalid streams"
  else
    .ok ⟨data, [start₁, start₂, start₃, start₄], [start₂, start₃, start₄, data.size],
      [quarter, quarter, quarter, count - 3 * quarter]⟩

namespace HuffmanTable

/-! ### Words -/

/-- Decodes literals singly and puts them behind `out`. -/
def decodeSingly (table : HuffmanTable) (bits : BackwardBits) (out : ByteArray) :
    (count : Nat) → ByteArray × BackwardBits
  | 0 => (out, bits)
  | count + 1 =>
    let (byte, width) := table.cell (bits.peek table.width)
    decodeSingly table (bits.skip width) (out.push byte) count

/-- Decodes literals in pairs and puts them behind `out`. -/
def decodeInPairs (table : HuffmanTable) (bits : BackwardBits) (out : ByteArray) :
    (count : Nat) → ByteArray × BackwardBits
  | 0 => (out, bits)
  | 1 =>
    let next := bits.peek table.width
    let (byte, width) := table.cell next
    match table.second? next with
    | none => (out.push byte, bits.skip width)
    | some (_, both) =>
      -- The bits of the second word are taken with the first, as far as there are any.
      (out.push byte, if 0 < bits.left then bits.skip (min both bits.left.toNat) else bits)
  | count + 2 =>
    let next := bits.peek table.width
    let (byte, width) := table.cell next
    match table.second? next with
    | none => decodeInPairs table (bits.skip width) (out.push byte) (count + 1)
    | some (other, both) => decodeInPairs table (bits.skip both) ((out.push byte).push other) count

/-- Decodes literals and puts them behind `out`. -/
def decode (table : HuffmanTable) (mode : WordMode) (bits : BackwardBits) (out : ByteArray)
    (count : Nat) : ByteArray × BackwardBits :=
  match mode with
  | .singly => table.decodeSingly bits out count
  | .inPairs => table.decodeInPairs bits out count

/-- Decodes a stream of its own, all of whose bits the literals have to take. -/
def decodeStream (table : HuffmanTable) (mode : WordMode) (data : ByteArray) (out : ByteArray)
    (count : Nat) : Except String ByteArray :=
  match BackwardBits.ofBytes? data with
  | none => .error "missing literals"
  | some bits =>
    let (out, bits) := table.decode mode bits out count
    if bits.left = 0 then .ok out else .error "invalid literals"

/-- Decodes four streams one after the other. -/
def decodeApart (table : HuffmanTable) (mode : WordMode) (streams : FourStreams) :
    Except String ByteArray :=
  ((streams.starts.zip streams.stops).zip streams.counts).foldlM (fun out ((start, stop), count) =>
    table.decodeStream mode (streams.data.extract start stop) out count) .empty

/-! ### Four streams together -/

/-- One of four streams that are decoded together. -/
structure Lane where
  /-- The bits of the stream and of all bytes before it. -/
  bits : BackwardBits
  /-- Where the eight bytes start that the next bits are taken from. -/
  place : Nat
  /-- The number of literals that the stream has still to give. -/
  count : Nat

/-- The stream that ends before a place. -/
def Lane.before (data : ByteArray) (stop count : Nat) : Lane :=
  let last := (Bytes.byteAt data (stop - 1)).toNat
  let left := if last = 0 then 8 * stop else 8 * (stop - 1) + Nat.log2 last
  ⟨⟨data, left⟩, stop - 8, count⟩

/-- Looks at the table a number of times. The first number is that of the literals given. -/
def lookUp (table : HuffmanTable) (mode : WordMode) (bits : BackwardBits) (given : Nat) :
    (times : Nat) → Nat × BackwardBits
  | 0 => (given, bits)
  | times + 1 =>
    let next := bits.peek table.width
    match mode, table.second? next with
    | .inPairs, some (_, both) => lookUp table mode (bits.skip both) (given + 2) times
    | _, _ => lookUp table mode (bits.skip (table.cell next).2) (given + 1) times

/-- The stream after a round, in which the table is looked at five times. -/
def Lane.advance (table : HuffmanTable) (mode : WordMode) (lane : Lane) : Lane :=
  let (given, bits) := table.lookUp mode lane.bits 0 5
  ⟨bits, ((bits.left - 57) / 8).toNat, lane.count - given⟩

/-- Rounds for all streams, until the last of them has given as many literals as wanted. -/
def advanceAll (table : HuffmanTable) (mode : WordMode) (wanted : Nat) (lanes : List Lane) :
    (fuel : Nat) → List Lane
  | 0 => lanes
  | fuel + 1 =>
    let before := (lanes.getLast?.map (·.count)).getD 0
    let lanes := lanes.map (·.advance table mode)
    let given := before - (lanes.getLast?.map (·.count)).getD 0
    if given < wanted then advanceAll table mode (wanted - given) lanes fuel else lanes

/-- The number of rounds that are safe whatever the words: a round takes seven bytes of a stream at
most, and gives five literals, or ten in pairs. -/
def safeRounds (mode : WordMode) (lanes : List Lane) : Nat :=
  let bytes := (lanes.head?.map (·.place)).getD 0
  match mode with
  | .singly => min (bytes / 7) ((lanes.getLast?.map (·.count)).getD 0 / 5)
  | .inPairs => lanes.foldl (fun rounds lane => min rounds (lane.count / 10)) (bytes / 7)

/-- Whether the places of streams are in order. -/
def inOrder : List Lane → Bool
  | a :: b :: lanes => a.place ≤ b.place && inOrder (b :: lanes)
  | _ => true

/-- Four streams when they are no longer decoded together: a stream is nearly through, or two have
crossed. -/
def runTogether (table : HuffmanTable) (mode : WordMode) (lanes : List Lane) :
    (fuel : Nat) → List Lane
  | 0 => lanes
  | fuel + 1 =>
    let rounds := safeRounds mode lanes
    if rounds = 0 ∨ ¬ inOrder lanes then lanes
    else runTogether table mode (advanceAll table mode (5 * rounds) lanes rounds) fuel

/-- Decodes four streams together. None may take its bits from before where it starts, but for the
last eight bytes, while they are decoded together. -/
def decodeTogether (table : HuffmanTable) (mode : WordMode) (streams : FourStreams) :
    Except String ByteArray :=
  let lanes := (streams.stops.zip streams.counts).map fun (stop, count) =>
    Lane.before streams.data stop count
  let after := table.runTogether mode lanes ((streams.counts.head?).getD 0 + 1)
  if (after.zip streams.starts).any fun (lane, start) => lane.place + 8 < start then
    .error "invalid literals"
  else .ok (lanes.foldl (fun out lane => (table.decode mode lane.bits out lane.count).1) .empty)

/-- Decodes four streams. -/
def decodeFour (table : HuffmanTable) (mode : WordMode) (data : ByteArray) (count : Nat) :
    Except String ByteArray := do
  let streams ← FourStreams.read data count
  if table.width = usualWidth ∧ streams.counts.all (0 < ·) ∧
      (streams.starts.zip streams.stops).all fun (start, stop) => start + 8 ≤ stop then
    table.decodeTogether mode streams
  else
    table.decodeApart mode streams

end HuffmanTable

end BsonWire.Zstd
