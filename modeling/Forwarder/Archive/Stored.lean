/-
**Archives that store.** The bytes of an archive whose entries are kept as they are, one after the
other, with a directory of all entries behind them.

The sizes and the check sum of an entry follow its body; an entry whose name ends in a slash is a
directory and has no body.

* `checkSum` — the cyclic check sum of bytes.
* `storedBytes` — the bytes of an archive.
* `storedSize` — how many they are.
-/

namespace Forwarder.Archive

/-! ### Check sums -/

/-- The remainder behind one more bit. -/
def sumBit (sum : UInt32) : UInt32 :=
  if sum &&& 1 = 1 then (sum >>> 1) ^^^ 0xEDB88320 else sum >>> 1

/-- The remainder behind one more byte. -/
def sumByte (sum : UInt32) (byte : UInt8) : UInt32 :=
  (List.range 8).foldl (fun sum _ => sumBit sum) (sum ^^^ byte.toUInt32)

/-- The cyclic check sum of bytes. -/
def checkSum (bytes : List UInt8) : UInt32 :=
  bytes.foldl sumByte 0xFFFFFFFF ^^^ 0xFFFFFFFF

/-! ### Records -/

/-- A number in some bytes, the lowest first. -/
def little (width n : Nat) : List UInt8 :=
  (List.range width).map fun i => UInt8.ofNat (n / Nat.pow 256 i)

/-- Numbers of two bytes each. -/
def shorts (numbers : List Nat) : List UInt8 :=
  numbers.flatMap (little 2)

/-- Numbers of four bytes each. -/
def longs (numbers : List Nat) : List UInt8 :=
  numbers.flatMap (little 4)

/-- The bytes of a text. -/
def bytesOf (text : String) : List UInt8 :=
  text.toUTF8.toList

/-- The entry is a directory. -/
def isFolder (name : String) : Bool :=
  name.endsWith "/"

/-- A character that old readers of archives may take for another one. -/
def isAmbiguous (c : Char) : Bool :=
  c.toNat < 0x20 || c.toNat > 0x7d || c == '\\'

/-- The flags of an entry: whether its sizes follow its body, and whether its name needs to be read
as Unicode. -/
def flags (name : String) : Nat :=
  (if isFolder name then 0 else 0x8) + (if name.toList.any isAmbiguous then 0x800 else 0)

/-- The version of the format. -/
def version : Nat :=
  20

/-- What stands behind the body of an entry. -/
def trailer (name : String) (body : List UInt8) : List UInt8 :=
  if isFolder name then []
  else longs [0x08074b50, (checkSum body).toNat, body.length, body.length]

/-- An entry where it is stored. -/
def storedEntry (name body : String) : List UInt8 :=
  let bytes := bytesOf body
  longs [0x04034b50] ++ shorts [version, flags name, 0, 0, 0] ++ longs [0, 0, 0] ++
    shorts [name.utf8ByteSize, 0] ++ bytesOf name ++ bytes ++ trailer name bytes

/-- The line of the directory for an entry that is stored at an offset. -/
def directoryEntry (offset : Nat) (name body : String) : List UInt8 :=
  let bytes := bytesOf body
  longs [0x02014b50] ++ shorts [version, version, flags name, 0, 0, 0] ++
    longs [(checkSum bytes).toNat, bytes.length, bytes.length] ++
    shorts [name.utf8ByteSize, 0, 0, 0, 0] ++ longs [0, offset] ++ bytesOf name

/-- The lines of the directory for entries that are stored from an offset on. -/
def directory (offset : Nat) : List (String × String) → List UInt8
  | [] => []
  | (name, body) :: entries =>
    directoryEntry offset name body ++
      directory (offset + (storedEntry name body).length) entries

/-- The bytes of an archive. -/
def storedBytes (entries : List (String × String)) : List UInt8 :=
  let stored := entries.flatMap fun (name, body) => storedEntry name body
  let lines := directory 0 entries
  stored ++ lines ++ longs [0x06054b50] ++
    shorts [0, 0, entries.length, entries.length] ++ longs [lines.length, stored.length] ++
    shorts [0]

/-- The number of bytes that an entry takes, with its line of the directory. -/
def entrySize (name body : String) : Nat :=
  (if isFolder name then 76 else 92) + 2 * name.utf8ByteSize + body.utf8ByteSize

/-- The number of bytes of an archive. -/
def storedSize (entries : List (String × String)) : Nat :=
  entries.foldl (fun n (name, body) => n + entrySize name body) 22

end Forwarder.Archive
