/-
**Scanning loses nothing and knows where it is.** The tokens of a text, comments and white space included, make
it up, as far as it makes sense. Each of them is what the first rule matches that matches anything at its place,
and its line and its column are counted from the text in front of it. Where no rule matches, scanning stops, and
the failure is reported for this place.

* `Position.behind` — line and column, by the newlines of a text and the characters behind the last one.
* `Token.Stands` — a token between two stretches of text.
* `drop_length_lt` — every lexeme covers something, so that scanning comes to an end (`lexeme?_stop`).
* **`scan_exact`** — the tokens of a text, and where it stops making sense.
-/

import Forwarder.Proofs.Source.Rules
import Forwarder.Proofs.Source.Scanning
import Forwarder.Source.Parse
import Mathlib.Data.List.Induction

namespace Forwarder.Source

/-! ### Places -/

/-- The place behind a text: one line more than it has newlines, and one column more than there are
characters behind the last newline. -/
def Position.behind (cs : List Char) : Position :=
  ⟨1 + cs.count '\n', 1 + (cs.reverse.takeWhile (· != '\n')).length⟩

theorem Position.advance_start (cs : List Char) : Position.start.advance cs = Position.behind cs := by
  induction cs using List.reverseRecOn with
  | nil => rfl
  | append_singleton cs c ih =>
    rw [Position.advance_append, ih]
    show (Position.behind cs).step c = _
    by_cases newline : c = '\n'
    · simp [Position.step, Position.behind, newline, Nat.add_assoc]
    · simp [Position.step, Position.behind, newline, Nat.add_assoc]

/-- The place where scanning stops is the one behind the tokens. -/
theorem pos_scanWithin (bound : Nat) (pos : Position) (cs : List Char) :
    (scanWithin bound pos cs).2.pos = pos.advance (charsOf (scanWithin bound pos cs).1) := by
  induction bound generalizing pos cs with
  | zero => rfl
  | succ bound ih =>
    rw [scanWithin]
    split
    · rfl
    · simp only [charsOf_cons, String.toList_ofList, Position.advance_append, ih]

/-! ### Lexemes -/

section Lexemes

variable {cs : List Char} {kind : TokenKind} {n : Nat}

theorem isSolid_pattern (kind : TokenKind) : kind.pattern.isSolid = true := by
  cases kind <;> rfl

/-- The rule of a kind matches what the kind covers, and it matches nothing if the kind covers nothing. -/
theorem matched?_pattern (kind : TokenKind) (cs : List Char) :
    kind.pattern.matched? cs = (kind.extent? cs).map fun n => (cs.take n, cs.drop n) :=
  (covers_pattern kind).matched? cs

/-- **The first kind** that covers anything. -/
theorem lexeme?_eq_some (lexed : lexeme? cs = some (kind, n)) :
    ∃ earlier later, TokenKind.order = earlier ++ kind :: later ∧
      (∀ other ∈ earlier, other.pattern.matched? cs = none) ∧
      kind.pattern.matched? cs = some (cs.take n, cs.drop n) := by
  obtain ⟨earlier, found, later, order, extent, none_⟩ := List.findSome?_eq_some_iff.mp lexed
  obtain ⟨m, extent, same⟩ := Option.map_eq_some_iff.mp extent
  cases same
  refine ⟨earlier, later, order, fun other member => ?_, ?_⟩
  · rw [matched?_pattern, Option.map_eq_none_iff.mp (none_ other member)]
    rfl
  · rw [matched?_pattern, extent]
    rfl

theorem lexeme?_eq_none (none_ : lexeme? cs = none) (kind : TokenKind) :
    kind.pattern.matched? cs = none := by
  have isKind : kind ∈ TokenKind.order := by cases kind <;> decide
  rw [matched?_pattern, Option.map_eq_none_iff.mp (List.findSome?_eq_none_iff.mp none_ kind isKind)]
  rfl

/-- What a lexeme covers is not empty. -/
theorem take_ne_nil (lexed : lexeme? cs = some (kind, n)) : cs.take n ≠ [] := by
  obtain ⟨-, -, -, -, matched⟩ := lexeme?_eq_some lexed
  exact (Text.split_of_matched? matched).2 (isSolid_pattern kind)

theorem drop_length_lt (lexed : lexeme? cs = some (kind, n)) : (cs.drop n).length < cs.length := by
  have some_ := List.length_pos_iff.mpr (take_ne_nil lexed)
  rw [List.length_take] at some_
  rw [List.length_drop]
  omega

theorem lexeme?_nil : lexeme? [] = none := by
  decide

/-- Scanning stops where no kind covers anything. -/
theorem lexeme?_stop {bound : Nat} (enough : cs.length ≤ bound) (pos : Position) :
    lexeme? (scanWithin bound pos cs).2.rest = none := by
  induction bound generalizing pos cs with
  | zero =>
    rw [List.eq_nil_of_length_eq_zero (Nat.eq_zero_of_le_zero enough)]
    exact lexeme?_nil
  | succ bound ih =>
    rw [scanWithin]
    split
    · next none_ => exact none_
    · next kind n lexed => exact ih (Nat.le_of_lt_succ (Nat.lt_of_lt_of_le (drop_length_lt lexed) enough)) _

end Lexemes

/-! ### Tokens -/

/-- The token stands behind the first text and in front of the second one. It is not empty, its place is the
one behind the first text, and it is matched by the rule of its kind, while the rules in front of that one do
not match there. -/
structure Token.Stands (token : Token) (before after : List Char) : Prop where
  some_ : token.text.toList ≠ []
  placed : token.pos = Position.behind before
  first : ∃ earlier later, TokenKind.order = earlier ++ token.kind :: later ∧
    (∀ kind ∈ earlier, kind.pattern.matched? (token.text.toList ++ after) = none) ∧
    token.kind.pattern.matched? (token.text.toList ++ after) = some (token.text.toList, after)

/-- A scanned token stands between the tokens in front of it and the rest of the text. -/
theorem stands_of_scan {cs : List Char} {front back : List Token} {token : Token} {stop : Stop}
    (scanned : scan cs = (front ++ token :: back, stop)) :
    token.Stands (charsOf front) (charsOf back ++ stop.rest) := by
  obtain ⟨here, n, lexed, text, behind, placed⟩ := scanWithin_split scanned
  refine ⟨text ▸ take_ne_nil lexed, placed.trans (Position.advance_start _), ?_⟩
  rw [text, behind, List.take_append_drop]
  exact lexeme?_eq_some lexed

/-- What is reported for a text that stops making sense. -/
def invalid (rest : List Char) : String :=
  "lexer: invalid input text " ++ invalidText rest

/-- **Scanning loses nothing and knows where it is.** A text is made up of tokens and of a rest. Each token is
what the first rule that matches anything matches at its place, and its place is counted from the text in
front of it. If there is no rest, then the tokens that carry meaning are those of the text. If there is one,
then no rule matches there, and this place is the one for which the failure is reported. -/
theorem scan_exact (text : String) :
    ∃ tokens rest, scan text.toList = (tokens, ⟨Position.behind (charsOf tokens), rest⟩) ∧
      charsOf tokens ++ rest = text.toList ∧
      (∀ front token back, tokens = front ++ token :: back →
        token.Stands (charsOf front) (charsOf back ++ rest)) ∧
      (rest = [] ∧ lex text.toList = .ok (meaningful tokens, Position.behind text.toList) ∨
        rest ≠ [] ∧ (∀ kind : TokenKind, kind.pattern.matched? rest = none) ∧
          lex text.toList = .error (Position.behind (charsOf tokens), invalid rest) ∧
          parse text = .error ⟨Position.behind (charsOf tokens), invalid rest⟩) := by
  have chars : charsOf (scan text.toList).1 ++ (scan text.toList).2.rest = text.toList :=
    charsOf_scanWithin _ _ _
  have stopped : lexeme? (scan text.toList).2.rest = none := lexeme?_stop (Nat.le_refl _) _
  have placed : (scan text.toList).2.pos = Position.behind (charsOf (scan text.toList).1) :=
    (pos_scanWithin _ _ _).trans (Position.advance_start _)
  rcases scanned : scan text.toList with ⟨tokens, pos, rest⟩
  rw [scanned] at chars stopped placed
  dsimp only at chars stopped placed
  subst placed
  refine ⟨tokens, rest, rfl, chars, fun front token back split => ?_, ?_⟩
  · exact stands_of_scan (scanned.trans (by rw [split]))
  · have lexed : lex text.toList =
        if rest.isEmpty then .ok (meaningful tokens, Position.behind (charsOf tokens))
        else .error (Position.behind (charsOf tokens), invalid rest) := by
      rw [lex, scanned]
      rfl
    cases rest with
    | nil =>
      rw [List.append_nil] at chars
      exact .inl ⟨rfl, chars ▸ lexed⟩
    | cons c rest =>
      have failed : lex text.toList = .error (Position.behind (charsOf tokens), invalid (c :: rest)) := lexed
      refine .inr ⟨List.cons_ne_nil c rest, lexeme?_eq_none stopped, failed, ?_⟩
      rw [parse, failed]

end Forwarder.Source
