/-
**Archives as bytes.** The entries of an archive file, by the directory at its end.

* `entries?` — the entries that hold texts, in the order of the directory.
-/

import Forwarder.Archive.Inflate

namespace Forwarder.Archive

/-- The number at an offset, in some bytes, the lowest first. -/
def numberAt (bytes : ByteArray) (offset count : Nat) : Nat :=
  (((⟨bytes, 8 * offset⟩ : Bits).number? (8 * count)).map (·.1)).getD 0

/-- The text of some bytes. -/
def textAt? (bytes : ByteArray) (offset count : Nat) : Option String :=
  String.fromUTF8? (bytes.extract offset (offset + count))

/-- The bytes that mark the end of the directory. -/
def endMark : Nat :=
  0x06054b50

/-- The bytes that mark an entry of the directory. -/
def entryMark : Nat :=
  0x02014b50

/-- How many bytes the end of the directory takes. -/
def endSize : Nat :=
  22

/-- The offset of the end of the directory, sought backwards from an offset. -/
def findEnd? (bytes : ByteArray) : Nat → Option Nat
  | 0 => if numberAt bytes 0 4 = endMark then some 0 else none
  | n + 1 => if numberAt bytes (n + 1) 4 = endMark then some (n + 1) else findEnd? bytes n

/-- The bytes of an entry, from where it starts. -/
def body? (bytes : ByteArray) (start method size : Nat) : Option ByteArray :=
  let first := start + 30 + numberAt bytes (start + 26) 2 + numberAt bytes (start + 28) 2
  let stored := bytes.extract first (first + size)
  if method = 0 then some stored else if method = 8 then inflate? stored else none

/-- An entry of the directory that holds a text. -/
def entryAt? (bytes : ByteArray) (offset : Nat) : Option (String × String) := do
  let name ← textAt? bytes (offset + 46) (numberAt bytes (offset + 28) 2)
  let body ← body? bytes (numberAt bytes (offset + 42) 4) (numberAt bytes (offset + 10) 2)
    (numberAt bytes (offset + 20) 4)
  let text ← String.fromUTF8? body
  return (name, text)

/-- Some entries of the directory, from an offset. Entries that hold no text are left out. -/
def entriesFrom (bytes : ByteArray) : Nat → Nat → Option (List (String × String))
  | 0, _ => some []
  | n + 1, offset =>
    if numberAt bytes offset 4 = entryMark then
      let size := 46 + numberAt bytes (offset + 28) 2 + numberAt bytes (offset + 30) 2 +
        numberAt bytes (offset + 32) 2
      (entriesFrom bytes n (offset + size)).map fun rest => (entryAt? bytes offset).toList ++ rest
    else none

/-- The entries of an archive. There are none if the bytes are no archive. -/
def entries? (bytes : ByteArray) : Option (List (String × String)) :=
  if bytes.size < endSize then none
  else
    match findEnd? bytes (bytes.size - endSize) with
    | none => none
    | some offset =>
      entriesFrom bytes (numberAt bytes (offset + 10) 2) (numberAt bytes (offset + 16) 4)

end Forwarder.Archive
