/-
**Pieces of a text.** Splitting at a separator, joining with one, and the ends of a text.

* `pieces` — the parts between the occurrences of a character; there is always at least one.
* `joinWith` — joins parts with a separator; it undoes `pieces` (`joinWith_pieces`).
* `afterLast`, `beforeLast` — what follows and what precedes the last occurrence of a character.
-/

namespace Forwarder.Text

/-- The parts of a text between the occurrences of `mark`. -/
def pieces (mark : Char) : List Char → List (List Char)
  | [] => [[]]
  | c :: rest =>
    if c = mark then [] :: pieces mark rest
    else match pieces mark rest with
      | [] => [[c]]
      | part :: parts => (c :: part) :: parts

/-- The parts in one text, with `mark` between them. -/
def joinWith (mark : Char) : List (List Char) → List Char
  | [] => []
  | [part] => part
  | part :: parts => part ++ mark :: joinWith mark parts

theorem pieces_ne_nil (mark : Char) (cs : List Char) : pieces mark cs ≠ [] := by
  cases cs with
  | nil => simp [pieces]
  | cons c rest =>
    by_cases same : c = mark
    · simp [pieces, same]
    · simp only [pieces, same, if_false]
      split <;> simp

/-- Joining the pieces with the character they were split at gives the text back. -/
theorem joinWith_pieces (mark : Char) (cs : List Char) : joinWith mark (pieces mark cs) = cs := by
  induction cs with
  | nil => rfl
  | cons c rest ih =>
    cases split : pieces mark rest with
    | nil => exact absurd split (pieces_ne_nil mark rest)
    | cons part parts =>
      rw [split] at ih
      by_cases same : c = mark
      · simp [pieces, same, split, joinWith, ih]
      · simp only [pieces, same, if_false, split]
        cases parts with
        | nil => simpa [joinWith] using ih
        | cons next more => simpa [joinWith] using ih

/-- The parts of a text between the occurrences of a character. -/
def split (mark : Char) (s : String) : List String :=
  (pieces mark s.toList).map String.ofList

/-- The lines of a text; a final line feed opens an empty last line. -/
def lines (s : String) : List String :=
  split '\n' s

/-- What follows the last occurrence of `mark`, and everything if there is none. -/
def afterLast (mark : Char) (cs : List Char) : List Char :=
  (cs.reverse.takeWhile (· != mark)).reverse

/-- What precedes the last occurrence of `mark`, and nothing if there is none. -/
def beforeLast (mark : Char) (cs : List Char) : List Char :=
  ((cs.reverse.dropWhile (· != mark)).drop 1).reverse

/-- A text without the slashes at its end. -/
def dropSlashes (cs : List Char) : List Char :=
  (cs.reverse.dropWhile (· == '/')).reverse

/-- The text ends in `ending`. -/
def endsIn (s ending : String) : Bool :=
  ending.toList.isSuffixOf s.toList

/-- The text begins with `start`. -/
def startsBy (s start : String) : Bool :=
  start.toList.isPrefixOf s.toList

/-- The text without its ending, where it has that ending. -/
def dropEnding (s ending : String) : String :=
  if endsIn s ending then String.ofList (s.toList.take (s.length - ending.length)) else s

/-- Some part of the text, anywhere in it, is `part`. -/
def holdsPart (part : List Char) : List Char → Bool
  | [] => part.isEmpty
  | c :: rest => part.isPrefixOf (c :: rest) || holdsPart part rest

/-- `part` occurs in the text. -/
def contains (s part : String) : Bool :=
  holdsPart part.toList s.toList

/-- Texts in one, with `mark` between them. -/
def join (mark : String) (parts : List String) : String :=
  String.intercalate mark parts

/-- A text written `n` times. -/
def times (n : Nat) (s : String) : String :=
  String.join (List.replicate n s)

end Forwarder.Text
