/-
**Bytes as text.** The characters that bytes stand for, whatever the bytes are. A byte that is no
part of a well-formed character is replaced.

* `ofBytes` — the text of some bytes.
-/

namespace Forwarder.Text

/-- The character that stands for a byte which is no part of a character. -/
def replacement : Char :=
  '\ufffd'

/-- A byte that continues a character. -/
def isContinuation (byte : UInt8) : Bool :=
  0x80 ≤ byte.toNat && byte.toNat < 0xC0

/-- How many bytes a character takes that starts with a byte, and the bits of its number that this
byte holds. -/
def lead? (byte : UInt8) : Option (Nat × Nat) :=
  let n := byte.toNat
  if n < 0x80 then some (1, n)
  else if 0xC0 ≤ n ∧ n < 0xE0 then some (2, n - 0xC0)
  else if 0xE0 ≤ n ∧ n < 0xF0 then some (3, n - 0xE0)
  else if 0xF0 ≤ n ∧ n < 0xF8 then some (4, n - 0xF0)
  else none

/-- The least number that takes so many bytes. -/
def leastOf : Nat → Nat
  | 2 => 0x80
  | 3 => 0x800
  | 4 => 0x10000
  | _ => 0

/-- The character at the start of some bytes, and how many of them it takes. It has to be written
as shortly as possible. -/
def firstChar? : List UInt8 → Option (Char × Nat)
  | [] => none
  | byte :: rest =>
    match lead? byte with
    | none => none
    | some (size, bits) =>
      let more := rest.take (size - 1)
      let n := more.foldl (fun n b => 64 * n + (b.toNat - 0x80)) bits
      if more.length + 1 = size ∧ more.all isContinuation ∧ leastOf size ≤ n ∧ n.isValidChar then
        some (Char.ofNat n, size)
      else none

/-- The characters of some bytes; `skipped` of them belong to the character before. -/
def charsOf : Nat → List UInt8 → List Char
  | _, [] => []
  | skipped + 1, _ :: rest => charsOf skipped rest
  | 0, byte :: rest =>
    match firstChar? (byte :: rest) with
    | some (c, size) => c :: charsOf (size - 1) rest
    | none => replacement :: charsOf 0 rest

/-- The text of some bytes. -/
def ofBytes (bytes : List UInt8) : String :=
  String.ofList (charsOf 0 bytes)

end Forwarder.Text
