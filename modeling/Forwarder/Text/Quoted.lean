/-
**Quoted texts.** How messages show a text they were given: between double quotes, with a backslash
before quotes and backslashes, short escapes for the common controls and numbered escapes for
everything that cannot be printed.
-/

import Forwarder.Text.Printable

namespace Forwarder.Text

/-- `n` in lower-case hexadecimal digits, padded with zeros to the given width. -/
def hexDigits (width n : Nat) : String :=
  let digits := Nat.toDigits 16 n
  String.ofList (List.replicate (width - digits.length) '0' ++ digits)

/-- One character as it stands inside the quotes. -/
def quotedChar (c : Char) : String :=
  if c == '"' then "\\\""
  else if c == '\\' then "\\\\"
  else if isPrintable c then c.toString
  else match c.toNat with
    | 7 => "\\a"
    | 8 => "\\b"
    | 9 => "\\t"
    | 10 => "\\n"
    | 11 => "\\v"
    | 12 => "\\f"
    | 13 => "\\r"
    | n =>
      if n < 0x20 || n == 0x7f then "\\x" ++ hexDigits 2 n
      else if n < 0x10000 then "\\u" ++ hexDigits 4 n
      else "\\U" ++ hexDigits 8 n

/-- A text between double quotes, with all that could be misread escaped. -/
def quoted (s : String) : String :=
  "\"" ++ String.join (s.toList.map quotedChar) ++ "\""

end Forwarder.Text
