/-
**The tokens of a text.** A scanned text is the texts of its tokens one after the other, and every
token stands where the first kind with an extent put it.

* `charsOf` — the characters of some tokens.
* **`scanWithin_split`** — a scanned token, with what follows it.
* `lexeme?_of_isIdentStart` — an identifier is told from its first character, and goes on as far as it
  can (`delimits_of_identifier`).
* `isWordChar_of_lexeme?` — a lexeme that is no number does not run into the word behind it.
* `looksNumeric_of_lexeme?` — a number is told from its first characters.
-/

import Forwarder.Decoration.HeaderPattern
import Forwarder.Source.Lexeme

namespace Forwarder.Source

open HeaderPattern (delimits)
open Text (isLetter isNumeral isGap isWordChar)

/-- The characters of some tokens. -/
def charsOf (tokens : List Token) : List Char :=
  tokens.flatMap (·.text.toList)

@[simp] theorem charsOf_nil : charsOf [] = [] :=
  rfl

@[simp] theorem charsOf_cons (token : Token) (tokens : List Token) :
    charsOf (token :: tokens) = token.text.toList ++ charsOf tokens :=
  rfl

@[simp] theorem charsOf_append (front back : List Token) :
    charsOf (front ++ back) = charsOf front ++ charsOf back :=
  List.flatMap_append

/-- The tokens that carry meaning. -/
def meaningful (tokens : List Token) : List Token :=
  tokens.filter (!·.kind.separates)

/-! ### Scanning -/

theorem length_scanWithin_le (bound : Nat) (pos : Position) (cs : List Char) :
    (scanWithin bound pos cs).1.length ≤ bound := by
  induction bound generalizing pos cs with
  | zero => exact Nat.le_refl 0
  | succ bound ih =>
    rw [scanWithin]
    split
    · exact Nat.zero_le _
    · exact Nat.succ_le_succ (ih _ _)

theorem charsOf_scanWithin (bound : Nat) (pos : Position) (cs : List Char) :
    charsOf (scanWithin bound pos cs).1 ++ (scanWithin bound pos cs).2.rest = cs := by
  induction bound generalizing pos cs with
  | zero => rfl
  | succ bound ih =>
    rw [scanWithin]
    split
    · rfl
    · simp only [charsOf_cons, String.toList_ofList, List.append_assoc, ih, List.take_append_drop]

/-- **A scanned token.** It is the lexeme at its place, and the tokens after it are the rest of the
text there. -/
theorem scanWithin_split {bound : Nat} {pos : Position} {cs : List Char} {front back : List Token}
    {token : Token} {stop : Stop}
    (scanned : scanWithin bound pos cs = (front ++ token :: back, stop)) :
    ∃ here n, lexeme? here = some (token.kind, n) ∧ token.text.toList = here.take n ∧
      charsOf back ++ stop.rest = here.drop n ∧ token.pos = pos.advance (charsOf front) := by
  induction front generalizing bound pos cs with
  | nil =>
    cases bound with
    | zero => cases scanned
    | succ bound =>
      rw [scanWithin] at scanned
      split at scanned
      · cases scanned
      · next kind n lexed =>
        have others := charsOf_scanWithin bound (pos.advance (cs.take n)) (cs.drop n)
        cases scanned
        exact ⟨cs, n, lexed, by simp, others, rfl⟩
  | cons first front ih =>
    cases bound with
    | zero => cases scanned
    | succ bound =>
      rw [scanWithin] at scanned
      split at scanned
      · cases scanned
      · next kind n lexed =>
        obtain ⟨tokens, more⟩ := Prod.mk.inj scanned
        obtain ⟨same, tokens⟩ := List.cons.inj tokens
        obtain ⟨here, m, isLexeme, text, behind, placed⟩ := ih (Prod.ext tokens more)
        refine ⟨here, m, isLexeme, text, behind, ?_⟩
        rw [placed, ← same, charsOf_cons, String.toList_ofList, Position.advance_append]

/-- The tokens of a text that makes sense up to its end. -/
theorem lex_eq_ok {text : List Char} {tokens : List Token} {finish : Position}
    (lexed : lex text = .ok (tokens, finish)) :
    tokens = meaningful (scan text).1 ∧ charsOf (scan text).1 = text := by
  have chars : charsOf (scan text).1 ++ (scan text).2.rest = text := charsOf_scanWithin _ _ _
  simp only [lex] at lexed
  split at lexed
  · next ended =>
    cases lexed
    rw [List.isEmpty_iff.mp ended, List.append_nil] at chars
    exact ⟨rfl, chars⟩
  · cases lexed

/-- A text has no more tokens than characters. -/
theorem length_le_of_lex {text : List Char} {tokens : List Token} {finish : Position}
    (lexed : lex text = .ok (tokens, finish)) : tokens.length ≤ text.length := by
  obtain ⟨rfl, -⟩ := lex_eq_ok lexed
  exact Nat.le_trans (List.length_filter_le _ _) (length_scanWithin_le _ _ _)

/-! ### Runs of characters -/

section Runs

variable {test : Char → Bool} {cs : List Char}

theorem take_runLength : cs.take (runLength test cs) = cs.takeWhile test :=
  calc
    cs.take (runLength test cs)
      = (cs.takeWhile test ++ cs.dropWhile test).take (cs.takeWhile test).length := by
        rw [List.takeWhile_append_dropWhile, runLength]
    _ = cs.takeWhile test := List.take_left

theorem drop_runLength : cs.drop (runLength test cs) = cs.dropWhile test :=
  calc
    cs.drop (runLength test cs)
      = (cs.takeWhile test ++ cs.dropWhile test).drop (cs.takeWhile test).length := by
        rw [List.takeWhile_append_dropWhile, runLength]
    _ = cs.dropWhile test := List.drop_left

/-- What follows a run does not continue it. -/
theorem test_eq_false_of_drop_runLength {c : Char}
    (next : (cs.drop (runLength test cs)).head? = some c) : test c = false := by
  rw [drop_runLength] at next
  have stops := List.head?_dropWhile_not test cs
  rw [next] at stops
  exact stops

end Runs

/-! ### Characters -/

theorem isAlpha_iff_toNat {c : Char} : c.isAlpha = true ↔
    (0x41 ≤ c.toNat ∧ c.toNat ≤ 0x5a) ∨ 0x61 ≤ c.toNat ∧ c.toNat ≤ 0x7a := by
  show (decide (c.val ≥ 0x41 ∧ c.val ≤ 0x5a) || (decide (c.val ≥ 0x61) && decide (c.val ≤ 0x7a))) =
    true ↔ _
  simp only [Bool.or_eq_true, Bool.and_eq_true, decide_eq_true_eq, ge_iff_le, UInt32.le_iff_toNat_le]
  exact Iff.rfl

theorem isDigit_iff_toNat {c : Char} : c.isDigit = true ↔ 0x30 ≤ c.toNat ∧ c.toNat ≤ 0x39 := by
  show (decide (c.val ≥ 0x30) && decide (c.val ≤ 0x39)) = true ↔ _
  simp only [Bool.and_eq_true, decide_eq_true_eq, ge_iff_le, UInt32.le_iff_toNat_le]
  exact Iff.rfl

theorem toNat_lt_of_isAlphanum {c : Char} (alphanum : c.isAlphanum = true) : c.toNat < 0x80 := by
  rw [Char.isAlphanum, Bool.or_eq_true, isAlpha_iff_toNat, isDigit_iff_toNat] at alphanum
  omega

theorem isIdentPart_of_isWordChar {c : Char} (word : isWordChar c = true) :
    isIdentPart c = true := by
  rw [isWordChar, Bool.or_eq_true] at word
  rcases word with alphanum | underscore
  · have ascii := toNat_lt_of_isAlphanum alphanum
    rw [Char.isAlphanum] at alphanum
    rw [isIdentPart, Text.isLetter_of_ascii c ascii, Text.isNumeral_of_ascii c ascii, alphanum]
    rfl
  · simp [isIdentPart, underscore]

theorem isWordChar_of_isGap {c : Char} (gap : isGap c = true) : isWordChar c = false := by
  simp only [isGap, Bool.or_eq_true, beq_iff_eq] at gap
  rcases gap with (((rfl | rfl) | rfl) | rfl) | rfl <;> rfl

/-! ### Lexemes -/

theorem extent?_of_lexeme? {cs : List Char} {kind : TokenKind} {n : Nat}
    (lexed : lexeme? cs = some (kind, n)) : kind.extent? cs = some n := by
  obtain ⟨other, -, found⟩ := List.exists_of_findSome?_eq_some lexed
  obtain ⟨m, extent, same⟩ := Option.map_eq_some_iff.mp found
  cases same
  exact extent

/-- What is covered up to a mark ends in the mark. -/
theorem take_of_through? {mark cs : List Char} {n : Nat} (found : through? mark cs = some n) :
    ∃ front, cs.take n = front ++ mark := by
  induction cs generalizing n with
  | nil =>
    rw [through?] at found
    split at found
    · next empty =>
      cases found
      exact ⟨[], by simp [List.isEmpty_iff.mp empty]⟩
    · cases found
  | cons c cs ih =>
    rw [through?] at found
    split at found
    · next isPrefix =>
      cases found
      exact ⟨[], (List.prefix_iff_eq_take.mp (List.isPrefixOf_iff_prefix.mp isPrefix)).symm⟩
    · obtain ⟨m, inner, rfl⟩ := Option.map_eq_some_iff.mp found
      obtain ⟨front, same⟩ := ih inner
      exact ⟨c :: front, by rw [List.take_succ_cons, same, List.cons_append]⟩

/-- A literal ends in its quote. -/
theorem take_of_closing? {quote : Char} {cs : List Char} {n : Nat}
    (found : closing? quote cs = some n) : ∃ front, cs.take n = front ++ [quote] := by
  induction cs using closing?.induct quote generalizing n with
  | case1 => cases found
  | case2 rest =>
    rw [closing?, if_pos rfl] at found
    cases found
  | case3 c rest newline ih =>
    rw [closing?, if_neg newline] at found
    obtain ⟨m, inner, rfl⟩ := Option.map_eq_some_iff.mp found
    obtain ⟨front, same⟩ := ih inner
    exact ⟨'\\' :: c :: front, by rw [List.take_succ_cons, List.take_succ_cons, same]; rfl⟩
  | case4 rest noEscape =>
    rw [closing?, if_pos rfl] at found
    · cases found
      exact ⟨[], rfl⟩
    · exact noEscape
  | case5 c rest noEscape other stops =>
    rw [closing?, if_neg other, if_pos stops] at found
    · cases found
    · exact noEscape
  | case6 c rest noEscape other goesOn ih =>
    rw [closing?, if_neg other, if_neg goesOn] at found
    · obtain ⟨m, inner, rfl⟩ := Option.map_eq_some_iff.mp found
      obtain ⟨front, same⟩ := ih inner
      exact ⟨c :: front, by rw [List.take_succ_cons, same, List.cons_append]⟩
    · exact noEscape

/-- An identifier goes on as far as it can. -/
theorem delimits_of_identifier {cs : List Char} {n : Nat}
    (lexed : lexeme? cs = some (.identifier, n)) : delimits (cs.drop n).head? = true := by
  have extent : identifierExtent? cs = some n := extent?_of_lexeme? lexed
  rw [identifierExtent?.eq_def] at extent
  split at extent
  · next first rest =>
    split at extent
    · cases extent
      rw [Nat.add_comm, List.drop_succ_cons]
      cases next : (rest.drop (runLength isIdentPart rest)).head? with
      | none => rfl
      | some c =>
        have stops := test_eq_false_of_drop_runLength next
        cases word : isWordChar c with
        | false => simp [delimits, word]
        | true =>
          rw [isIdentPart_of_isWordChar word] at stops
          cases stops
    · cases extent
  · cases extent

/-- **A lexeme that is no number does not run into a word.** If a word character follows it, then its
last character is none. -/
theorem isWordChar_of_lexeme? {cs : List Char} {kind : TokenKind} {n : Nat} {c : Char}
    (lexed : lexeme? cs = some (kind, n)) (next : (cs.drop n).head? = some c)
    (word : isWordChar c = true) (other : kind ≠ .number) :
    ∃ x, (cs.take n).getLast? = some x ∧ isWordChar x = false := by
  have extent := extent?_of_lexeme? lexed
  cases kind with
  | comment =>
    simp only [TokenKind.extent?] at extent
    rw [commentExtent?.eq_def] at extent
    split at extent
    · next rest =>
      cases extent
      rw [Nat.add_comm, List.drop_succ_cons, List.drop_succ_cons] at next
      have newline : c = '\n' := by simpa using test_eq_false_of_drop_runLength next
      rw [newline] at word
      cases word
    · next rest =>
      obtain ⟨m, found, rfl⟩ := Option.map_eq_some_iff.mp extent
      obtain ⟨front, same⟩ := take_of_through? found
      have ends : ('/' :: '*' :: rest).take (m + 2) = ('/' :: '*' :: front ++ ['*']) ++ ['/'] := by
        simp [same]
      exact ⟨_, ends ▸ List.getLast?_concat, by decide⟩
    · cases extent
  | textBlock =>
    simp only [TokenKind.extent?] at extent
    rw [textBlockExtent?.eq_def] at extent
    split at extent
    · next rest =>
      obtain ⟨m, found, rfl⟩ := Option.map_eq_some_iff.mp extent
      obtain ⟨front, same⟩ := take_of_through? found
      have ends : ('"' :: '"' :: '"' :: rest).take (m + 3) =
          ('"' :: '"' :: '"' :: front ++ ['"', '"']) ++ ['"'] := by
        simp [same]
      exact ⟨_, ends ▸ List.getLast?_concat, by decide⟩
    · cases extent
  | string =>
    simp only [TokenKind.extent?] at extent
    rw [stringExtent?.eq_def] at extent
    split at extent
    · next rest =>
      obtain ⟨m, found, rfl⟩ := Option.map_eq_some_iff.mp extent
      obtain ⟨front, same⟩ := take_of_closing? found
      have ends : ('"' :: rest).take (m + 1) = ('"' :: front) ++ ['"'] := by simp [same]
      exact ⟨_, ends ▸ List.getLast?_concat, by decide⟩
    · cases extent
  | character =>
    simp only [TokenKind.extent?] at extent
    rw [characterExtent?.eq_def] at extent
    split at extent
    · cases extent
    · next rest _ =>
      obtain ⟨m, found, rfl⟩ := Option.map_eq_some_iff.mp extent
      obtain ⟨front, same⟩ := take_of_closing? found
      have ends : ('\'' :: rest).take (m + 1) = ('\'' :: front) ++ ['\''] := by simp [same]
      exact ⟨_, ends ▸ List.getLast?_concat, by decide⟩
    · cases extent
  | annotationDecl =>
    simp only [TokenKind.extent?, annotationDeclExtent?] at extent
    split at extent
    · next ends =>
      cases extent
      rw [Bool.and_eq_true, next] at ends
      simp [word] at ends
    · cases extent
  | identifier =>
    have ends := delimits_of_identifier lexed
    rw [next] at ends
    simp [delimits, word] at ends
  | ellipsis =>
    simp only [TokenKind.extent?] at extent
    rw [ellipsisExtent?.eq_def] at extent
    split at extent
    · next rest =>
      cases extent
      have ends : ('.' :: '.' :: '.' :: rest).take 3 = ['.', '.'] ++ ['.'] := by simp
      exact ⟨_, ends ▸ List.getLast?_concat, by decide⟩
    · cases extent
  | number => exact absurd rfl other
  | punctuation =>
    simp only [TokenKind.extent?] at extent
    rw [punctuationExtent?.eq_def] at extent
    split at extent
    · next mark rest =>
      split at extent
      · next isMark =>
        cases extent
        have marks : punctuationMarks.all (!isWordChar ·) = true := by decide
        have unlike := List.all_eq_true.mp marks mark (by simpa using isMark)
        exact ⟨mark, rfl, by simpa using unlike⟩
      · cases extent
    · cases extent
  | whitespace =>
    simp only [TokenKind.extent?] at extent
    rw [whitespaceExtent?.eq_def] at extent
    split at extent
    · next first rest =>
      split at extent
      · next isFirst =>
        cases extent
        rw [Nat.add_comm, List.take_succ_cons, take_runLength]
        have last := List.getLast?_eq_some_getLast (List.cons_ne_nil first (rest.takeWhile isGap))
        refine ⟨_, last, isWordChar_of_isGap ?_⟩
        rcases List.mem_cons.mp (List.mem_of_getLast? last) with same | member
        · exact (congrArg isGap same).trans isFirst
        · exact List.all_eq_true.mp List.all_takeWhile _ member
      · cases extent
    · cases extent

/-! ### Identifiers -/

theorem ne_of_isIdentStart {c mark : Char} (start : isIdentStart c = true)
    (other : isIdentStart mark = false) : c ≠ mark := by
  rintro rfl
  rw [start] at other
  cases other

/-- **An identifier** is told from its first character. -/
theorem lexeme?_of_isIdentStart {c : Char} (start : isIdentStart c = true) (rest : List Char) :
    lexeme? (c :: rest) = some (.identifier, 1 + runLength isIdentPart rest) := by
  have slash : c ≠ '/' := ne_of_isIdentStart start (by decide)
  have quote : c ≠ '"' := ne_of_isIdentStart start (by decide)
  have tick : c ≠ '\'' := ne_of_isIdentStart start (by decide)
  have atSign : c ≠ '@' := ne_of_isIdentStart start (by decide)
  have comment : commentExtent? (c :: rest) = none := by
    rw [commentExtent?.eq_def]
    split <;> simp_all
  have textBlock : textBlockExtent? (c :: rest) = none := by
    rw [textBlockExtent?.eq_def]
    split <;> simp_all
  have string : stringExtent? (c :: rest) = none := by
    rw [stringExtent?.eq_def]
    split <;> simp_all
  have character : characterExtent? (c :: rest) = none := by
    rw [characterExtent?.eq_def]
    split <;> simp_all
  have annotationDecl : annotationDeclExtent? (c :: rest) = none := by
    simp [annotationDeclExtent?, Ne.symm atSign]
  simp [lexeme?, TokenKind.order, TokenKind.extent?, comment, textBlock, string, character,
    annotationDecl, identifierExtent?, start]

/-! ### Numbers -/

/-- The text begins like a number: with a digit, or with a point and a digit. -/
def beginsNumeric : List Char → Bool
  | [] => false
  | c :: rest => c.isDigit || c == '.' && rest.head?.any Char.isDigit

/-- The text looks like a number from its beginning. -/
def looksNumeric (text : String) : Bool :=
  beginsNumeric text.toList

theorem beginsNumeric_of_digit {c : Char} {rest : List Char} (digit : c.isDigit = true) :
    beginsNumeric (c :: rest) = true := by
  simp [beginsNumeric, digit]

theorem le_numberTail (letters : String) (n : Nat) (cs : List Char) :
    n ≤ numberTail letters n cs := by
  simp only [numberTail]
  omega

theorem beginsNumeric_of_hexNumber? {cs : List Char} {n : Nat} (found : hexNumber? cs = some n) :
    beginsNumeric (cs.take n) = true := by
  rw [hexNumber?.eq_def] at found
  split at found
  · next x rest =>
    split at found
    · dsimp only at found
      split at found
      · cases found
      · obtain rfl := Option.some.inj found
        rw [Nat.add_assoc, Nat.add_comm, List.take_succ_cons]
        exact beginsNumeric_of_digit rfl
    · cases found
  · cases found

theorem beginsNumeric_of_decimalNumber? {cs : List Char} {n : Nat}
    (found : decimalNumber? cs = some n) : beginsNumeric (cs.take n) = true := by
  rw [decimalNumber?.eq_def] at found
  split at found
  · next c rest =>
    split at found
    · next digit =>
      obtain rfl := Option.some.inj found
      obtain ⟨m, more⟩ := Nat.exists_eq_add_of_le (le_numberTail "lLfFdD" _ (c :: rest))
      rw [more, Nat.add_assoc, Nat.add_assoc, Nat.add_comm 1, List.take_succ_cons]
      exact beginsNumeric_of_digit digit
    · cases found
  · cases found

theorem beginsNumeric_of_pointNumber? {cs : List Char} {n : Nat}
    (found : pointNumber? cs = some n) : beginsNumeric (cs.take n) = true := by
  rw [pointNumber?.eq_def] at found
  split at found
  · next rest =>
    dsimp only at found
    split at found
    · cases found
    · next some_ =>
      obtain rfl := Option.some.inj found
      cases rest with
      | nil => exact absurd rfl some_
      | cons c rest =>
        have digit : c.isDigit = true := by
          cases isDigit : c.isDigit with
          | true => rfl
          | false => exact absurd (by simp [runLength, isDigit]) some_
        obtain ⟨m, more⟩ := Nat.exists_eq_add_of_le
          (le_numberTail "fFdD" (1 + runLength Char.isDigit (c :: rest)) ('.' :: c :: rest))
        have two : runLength Char.isDigit (c :: rest) = runLength Char.isDigit rest + 1 := by
          simp [runLength, digit]
        rw [more, two, show 1 + (runLength Char.isDigit rest + 1) + m =
          runLength Char.isDigit rest + m + 1 + 1 by omega, List.take_succ_cons, List.take_succ_cons]
        simp [beginsNumeric, digit]
  · cases found

/-- A number can be told from its beginning. -/
theorem looksNumeric_of_lexeme? {cs : List Char} {n : Nat} {text : String}
    (lexed : lexeme? cs = some (.number, n)) (same : text.toList = cs.take n) :
    looksNumeric text = true := by
  have extent : numberExtent? cs = some n := extent?_of_lexeme? lexed
  rw [looksNumeric, same]
  simp only [numberExtent?, Option.orElse_eq_orElse, Option.orElse_eq_or,
    Option.or_eq_some_iff] at extent
  rcases extent with found | ⟨-, found | ⟨-, found⟩⟩
  · exact beginsNumeric_of_hexNumber? found
  · exact beginsNumeric_of_decimalNumber? found
  · exact beginsNumeric_of_pointNumber? found

end Forwarder.Source
