/-
**Bits.** Reading bytes bit by bit, the lowest bit of each byte first.

* `Bits.number?` — a number of some bits, the lowest first.
* `PrefixCode` — a code whose words are told apart while they are read, given by the lengths of its
  words alone.
-/

namespace Forwarder.Archive

/-- Bytes, and how many of their bits have been read. -/
structure Bits where
  bytes : ByteArray
  position : Nat

namespace Bits

/-- The next bit. -/
def next? (b : Bits) : Option (Nat × Bits) :=
  if h : b.position / 8 < b.bytes.size then
    some (b.bytes[b.position / 8].toNat / Nat.pow 2 (b.position % 8) % 2,
      { b with position := b.position + 1 })
  else none

/-- The number written by the next bits, the lowest first. -/
def number? : Nat → Bits → Option (Nat × Bits)
  | 0, b => some (0, b)
  | n + 1, b =>
    match b.next? with
    | none => none
    | some (bit, b) => (number? n b).map fun (rest, b) => (bit + 2 * rest, b)

/-- The bits from the next whole byte on. -/
def aligned (b : Bits) : Bits :=
  { b with position := (b.position + 7) / 8 * 8 }

end Bits

/-- A code by the lengths of its words: of words of one length, those of smaller symbols come first,
and longer words continue where shorter ones end. -/
structure PrefixCode where
  /-- How many words there are of length one, two, and so on. -/
  counts : List Nat
  /-- The symbols in the order of their words. -/
  symbols : Array Nat

namespace PrefixCode

/-- The longest word. -/
def maxLength : Nat :=
  15

/-- The code in which the symbol at each position has a word of the length given there; no length
means no word. -/
def ofLengths (lengths : List Nat) : PrefixCode :=
  let sizes := (List.range maxLength).map (· + 1)
  ⟨sizes.map fun size => lengths.count size,
    (sizes.flatMap fun size =>
      lengths.zipIdx.filterMap fun (length, symbol) => if length = size then some symbol else none)
      |>.toArray⟩

/-- Reads a word of which `code` has been read and is not among the shorter ones; `first` is the
first word of the next length and `index` the symbol that belongs to it. -/
def readFrom (symbols : Array Nat) :
    List Nat → (code first index : Nat) → Bits → Option (Nat × Bits)
  | [], _, _, _, _ => none
  | count :: counts, code, first, index, b =>
    match b.next? with
    | none => none
    | some (bit, b) =>
      let code := code + bit
      if code < first + count then (symbols[index + (code - first)]?).map (·, b)
      else readFrom symbols counts (2 * code) (2 * (first + count)) (index + count) b

/-- The symbol of the next word. -/
def read (c : PrefixCode) (b : Bits) : Option (Nat × Bits) :=
  readFrom c.symbols c.counts 0 0 0 b

end PrefixCode

end Forwarder.Archive
