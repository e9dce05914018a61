/-
**Templates.** Messages with places for texts: `%s` takes the next text and `%%` is a percent sign.
A place without a text and a text without a place are both told in the message.
-/

import Forwarder.Text.Pieces

namespace Forwarder.Text

/-- What is said about texts that no place takes. -/
def extraTexts (args : List String) : String :=
  if args.isEmpty then ""
  else "%!(EXTRA " ++ join ", " (args.map ("string=" ++ ·)) ++ ")"

/-- Fills the places of a template from left to right. -/
def fillChars : List Char → List String → String
  | [], args => extraTexts args
  | '%' :: '%' :: rest, args => "%" ++ fillChars rest args
  | '%' :: 's' :: rest, [] => "%!s(MISSING)" ++ fillChars rest []
  | '%' :: 's' :: rest, arg :: args => arg ++ fillChars rest args
  | c :: rest, args => c.toString ++ fillChars rest args

/-- A template with its places filled. -/
def fill (template : String) (args : List String) : String :=
  fillChars template.toList args

end Forwarder.Text
