/-
**Comparing texts.** Texts are ordered by their code points, which is also the order of their UTF-8
bytes. Keywords, file extensions and option names are compared without regard to case: they are all
ASCII, so only the characters whose lower-case partner is ASCII matter, the capital letters, the capital
I with a dot and the Kelvin sign, and every other character stands for itself.

* `sorted` — a list of texts in order.
* `sortedUnique` — the same with each text once.
* `lower` — a text in lower case.
-/

namespace Forwarder.Text

/-- The texts in order. -/
def sorted (texts : List String) : List String :=
  texts.mergeSort fun a b => decide (a ≤ b)

/-- Drops a text that repeats the one before it. -/
def dropRepeats : List String → List String
  | a :: b :: rest => if a = b then dropRepeats (b :: rest) else a :: dropRepeats (b :: rest)
  | texts => texts

/-- The texts in order, each once. -/
def sortedUnique (texts : List String) : List String :=
  dropRepeats (sorted texts)

/-- Pairs in the order of their first parts. -/
def sortedByKey {α : Type} (entries : List (String × α)) : List (String × α) :=
  entries.mergeSort fun a b => decide (a.1 ≤ b.1)

/-- The lower-case partner of a character, as far as that partner is ASCII. -/
def lowerChar (c : Char) : Char :=
  if c == '\u0130' then 'i' else if c == '\u212a' then 'k' else c.toLower

/-- A text with every character in lower case, as far as that is ASCII. -/
def lower (s : String) : String :=
  String.ofList (s.toList.map lowerChar)

end Forwarder.Text
