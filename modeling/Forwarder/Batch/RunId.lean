/-
**Names of runs.** A run is named by a random identifier of 16 bytes.

* `runIdOf` — the identifier as a text.
-/

import Forwarder.Text.Quoted

namespace Forwarder

/-- The marks of a random identifier: its version and its variant take the place of six bits. -/
def markedByte (position : Nat) (byte : UInt8) : UInt8 :=
  if position = 6 then byte % 0x10 + 0x40
  else if position = 8 then byte % 0x40 + 0x80
  else byte

/-- The digits of one byte, with the line that stands before some of them. -/
def byteDigits (position : Nat) (byte : UInt8) : String :=
  (if [4, 6, 8, 10].contains position then "-" else "") ++ Text.hexDigits 2 byte.toNat

/-- The identifier of 16 random bytes. -/
def runIdOf (bytes : List UInt8) : String :=
  String.join (bytes.zipIdx.map fun (byte, position) =>
    byteDigits position (markedByte position byte))

end Forwarder
