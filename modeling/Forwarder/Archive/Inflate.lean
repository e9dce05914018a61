/-
**Inflating.** The bytes behind a compressed form in which single bytes and repetitions of earlier
stretches are written in prefix codes.

* `inflate?` — the bytes that a compressed form stands for.
-/

import Forwarder.Archive.Bits

namespace Forwarder.Archive

/-- What has been read: the bits to come, and the bytes so far. -/
structure Inflating where
  bits : Bits
  out : ByteArray

/-- The least value of each class of numbers, with the count of bits that tell the numbers of a
class apart. -/
abbrev NumberClasses :=
  List (Nat × Nat)

/-- Classes one after the other from a start, by their counts of bits. -/
def classesFrom : Nat → List Nat → NumberClasses
  | _, [] => []
  | start, bits :: rest => (start, bits) :: classesFrom (start + Nat.pow 2 bits) rest

/-- The lengths of repetitions. The longest has a class of its own. -/
def lengthClasses : NumberClasses :=
  (classesFrom 3 ([0, 0, 0, 0] ++ [0, 1, 2, 3, 4, 5].flatMap (List.replicate 4))).take 28 ++
    [(258, 0)]

/-- The distances of repetitions. -/
def distanceClasses : NumberClasses :=
  classesFrom 1 ([0, 0] ++ (List.range 14).flatMap (List.replicate 2))

/-- A number of a class. -/
def readNumber (classes : NumberClasses) (index : Nat) (b : Bits) : Option (Nat × Bits) :=
  match classes[index]? with
  | none => none
  | some (least, count) => (b.number? count).map fun (n, b) => (least + n, b)

/-- The bytes with some more, each the one that stands a distance before it. -/
def repeated (distance : Nat) : Nat → ByteArray → Option ByteArray
  | 0, out => some out
  | n + 1, out =>
    if h : 0 < distance ∧ distance ≤ out.size then
      have : out.size - distance < out.size := by omega
      repeated distance n (out.push out[out.size - distance])
    else none

/-- A repetition, from the symbol of its length. -/
def readRepetition (distances : PrefixCode) (symbol : Nat) (s : Inflating) : Option Inflating :=
  match readNumber lengthClasses (symbol - 257) s.bits with
  | none => none
  | some (length, b) =>
    match distances.read b with
    | none => none
    | some (index, b) =>
      match readNumber distanceClasses index b with
      | none => none
      | some (distance, b) => (repeated distance length s.out).map fun out => ⟨b, out⟩

/-- Bytes and repetitions up to the symbol that ends a block. -/
def readSymbols (symbols distances : PrefixCode) : Nat → Inflating → Option Inflating
  | 0, _ => none
  | n + 1, s =>
    match symbols.read s.bits with
    | none => none
    | some (symbol, b) =>
      if symbol < 256 then readSymbols symbols distances n ⟨b, s.out.push symbol.toUInt8⟩
      else if symbol = 256 then some ⟨b, s.out⟩
      else
        match readRepetition distances symbol ⟨b, s.out⟩ with
        | none => none
        | some s => readSymbols symbols distances n s

/-! ### The codes of blocks -/

/-- The lengths of words in the code of blocks that bring none of their own. -/
def standardLengths : List Nat :=
  List.replicate 144 8 ++ List.replicate 112 9 ++ List.replicate 24 7 ++ List.replicate 8 8

/-- The order in which the lengths of the code for lengths are written. -/
def lengthOrder : List Nat :=
  [16, 17, 18, 0, 8, 7, 9, 6, 10, 5, 11, 4, 12, 3, 13, 2, 14, 1, 15]

/-- Some numbers of three bits. -/
def readThrees : Nat → Bits → Option (List Nat × Bits)
  | 0, b => some ([], b)
  | n + 1, b =>
    match b.number? 3 with
    | none => none
    | some (first, b) => (readThrees n b).map fun (rest, b) => (first :: rest, b)

/-- Lengths of words, last first, until there are enough of them. A symbol may stand for the length
before it or for none, several times. -/
def readLengths (code : PrefixCode) (count : Nat) :
    Nat → List Nat → Bits → Option (List Nat × Bits)
  | 0, _, _ => none
  | n + 1, lengths, b =>
    if count ≤ lengths.length then some ((lengths.reverse).take count, b)
    else
      match code.read b with
      | none => none
      | some (symbol, b) =>
        let times (least bits length : Nat) : Option (List Nat × Bits) :=
          match b.number? bits with
          | none => none
          | some (more, b) =>
            readLengths code count n (List.replicate (least + more) length ++ lengths) b
        if symbol < 16 then readLengths code count n (symbol :: lengths) b
        else if symbol = 16 then
          match lengths with
          | [] => none
          | last :: _ => times 3 2 last
        else if symbol = 17 then times 3 3 0
        else times 11 7 0

/-- The codes that a block brings: for symbols and for distances. -/
def readCodes (b : Bits) : Option ((PrefixCode × PrefixCode) × Bits) := do
  let (literals, b) ← b.number? 5
  let (distances, b) ← b.number? 5
  let (written, b) ← b.number? 4
  let (threes, b) ← readThrees (written + 4) b
  let table := lengthOrder.zip threes
  let code := PrefixCode.ofLengths ((List.range 19).map fun i => (table.lookup i).getD 0)
  let count := literals + 257 + (distances + 1)
  let (lengths, b) ← readLengths code count (count + 1) [] b
  return ((.ofLengths (lengths.take (literals + 257)), .ofLengths (lengths.drop (literals + 257))), b)

/-! ### Blocks -/

/-- Bytes that are written as they are. -/
def readPlain (s : Inflating) : Option Inflating :=
  let b := s.bits.aligned
  match b.number? 16 with
  | none => none
  | some (size, b) =>
    match b.number? 16 with
    | none => none
    | some (_, b) =>
      let start := b.position / 8
      if start + size ≤ b.bytes.size then
        some ⟨{ b with position := b.position + 8 * size },
          s.out ++ b.bytes.extract start (start + size)⟩
      else none

/-- One block, by its kind. -/
def readBlock (bound kind : Nat) (s : Inflating) : Option Inflating :=
  if kind = 0 then readPlain s
  else if kind = 1 then
    readSymbols (.ofLengths standardLengths) (.ofLengths (List.replicate 30 5)) bound s
  else if kind = 2 then
    match readCodes s.bits with
    | none => none
    | some ((symbols, distances), b) => readSymbols symbols distances bound ⟨b, s.out⟩
  else none

/-- All blocks up to the one that is marked as the last. -/
def readBlocks (bound : Nat) : Nat → Inflating → Option ByteArray
  | 0, _ => none
  | n + 1, s =>
    match s.bits.number? 1 with
    | none => none
    | some (last, b) =>
      match b.number? 2 with
      | none => none
      | some (kind, b) =>
        match readBlock bound kind ⟨b, s.out⟩ with
        | none => none
        | some s => if last = 1 then some s.out else readBlocks bound n s

/-- The bytes that a compressed form stands for. Each symbol and each block takes a bit at least. -/
def inflate? (bytes : ByteArray) : Option ByteArray :=
  let bound := 8 * bytes.size + 1
  readBlocks bound bound ⟨⟨bytes, 0⟩, .empty⟩

end Forwarder.Archive
