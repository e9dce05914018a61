/-
**The rules of the lexer.** Every kind of token is described by a regular expression. The extents of the kinds
are what these expressions match first at the start of a text.

* `TokenKind.pattern` — the expressions, in the notation of which each is cited.
* `covers_closing`, `covers_through` — the rest of a literal, and the rest of what has a mark at its end.
* **`covers_pattern`** — a kind covers what its expression matches.
-/

import Forwarder.Proofs.Text.Regex
import Forwarder.Source.Lexeme

namespace Forwarder.Source

open Text (Covers Regex Single Zipper covers_bounded covers_plus covers_star isGap shrinks_one single_one
  single_text)

/-! ### Expressions -/

/-- `(?s:.)` -/
def anything : Regex :=
  .one fun _ => true

/-- One of these characters. -/
def oneIn (set : String) : Regex :=
  .one set.toList.contains

/-- `(\\.|[^"\\\n])`, for the one or the other quote. -/
def literalPart (quote : Char) : Regex :=
  .alt (.seq (.text ['\\']) (.one (· != '\n'))) (.one fun c => c != quote && c != '\\' && c != '\n')

/-- `[0-9_]` -/
def isDigitChar (c : Char) : Bool :=
  c.isDigit || c == '_'

/-- `[eE][+-]?[0-9]+` -/
def exponent : Regex :=
  .seq (oneIn "eE") (.seq (oneIn "+-").opt (.plus (.one Char.isDigit)))

/-- `([eE][+-]?[0-9]+)?[lLfFdD]?`, for these letters. -/
def numberEnd (letters : String) : Regex :=
  .seq exponent.opt (oneIn letters).opt

/-- `0[xX][0-9a-fA-F_]+[lL]?` -/
def hexNumber : Regex :=
  .seq (.text ['0']) (.seq (oneIn "xX") (.seq (.plus (.one isHexChar)) (oneIn "lL").opt))

/-- `[0-9][0-9_]*(\.[0-9_]*)?([eE][+-]?[0-9]+)?[lLfFdD]?` -/
def decimalNumber : Regex :=
  .seq (.one Char.isDigit) (.seq (.star (.one isDigitChar))
    (.seq (.opt (.seq (.text ['.']) (.star (.one isDigitChar)))) (numberEnd "lLfFdD")))

/-- `\.[0-9]+([eE][+-]?[0-9]+)?[fFdD]?` -/
def pointNumber : Regex :=
  .seq (.text ['.']) (.seq (.plus (.one Char.isDigit)) (numberEnd "fFdD"))

/-- The rule of a kind of token. -/
def TokenKind.pattern : TokenKind → Regex
  /- `//[^\n]*|/\*(?s:.*?)\*/` -/
  | .comment => .alt (.seq (.text ['/', '/']) (.star (.one (· != '\n'))))
      (.seq (.text ['/', '*']) (.seq anything.lazily (.text ['*', '/'])))
  /- `"""(?s:.*?)"""` -/
  | .textBlock => .seq (.text ['"', '"', '"']) (.seq anything.lazily (.text ['"', '"', '"']))
  /- `"(\\.|[^"\\\n])*"` -/
  | .string => .seq (.text ['"']) (.seq (literalPart '"').star (.text ['"']))
  /- `'(\\.|[^'\\\n])+'` -/
  | .character => .seq (.text ['\'']) (.seq (literalPart '\'').plus (.text ['\'']))
  /- `@interface\b` -/
  | .annotationDecl => .seq (.text "@interface".toList) .boundary
  /- `[\p{L}_$][\p{L}\p{N}_$]*` -/
  | .identifier => .seq (.one isIdentStart) (.star (.one isIdentPart))
  /- `\.\.\.` -/
  | .ellipsis => .text ['.', '.', '.']
  | .number => .alt hexNumber (.alt decimalNumber pointNumber)
  /- `[-+*/%=!<>&|^~?:;,.@(){}\[\]]` -/
  | .punctuation => .one punctuationMarks.contains
  /- `\s+` -/
  | .whitespace => .plus (.one isGap)

/-! ### Runs -/

theorem covers_run (test : Char → Bool) : Covers (.star (.one test)) fun cs => some (runLength test cs) :=
  covers_star

theorem covers_someRun (test : Char → Bool) : Covers (.plus (.one test)) fun cs =>
    if runLength test cs = 0 then none else some (runLength test cs) :=
  covers_plus

/-! ### Up to a mark -/

/-- As little as possible up to a mark: up to its first occurrence. -/
theorem covers_through (mark : List Char) : Covers (.seq anything.lazily (.text mark)) (through? mark) := by
  refine single_one.lazily_seq shrinks_one single_text.covers fun cs => ?_
  cases cs with
  | nil => cases mark <;> rfl
  | cons c cs =>
    rw [through?]
    cases mark.isPrefixOf (c :: cs) with
    | true => rfl
    | false => simp [Nat.add_comm]

/-! ### Literals -/

/-- How much the next character of a literal covers; behind a backslash it is two characters. -/
def literalLength? (quote : Char) : List Char → Option Nat
  | [] => none
  | '\\' :: c :: _ => if c != '\n' then some 2 else none
  | c :: _ => if c != quote && c != '\\' && c != '\n' then some 1 else none

theorem literalLength?_plain {c : Char} (plain : c ≠ '\\') (quote : Char) (cs : List Char) :
    literalLength? quote (c :: cs) = if c != quote && c != '\\' && c != '\n' then some 1 else none := by
  rw [literalLength?]
  exact fun _ _ isEscape => absurd isEscape plain

theorem single_literalPart (quote : Char) : Single (literalPart quote) (literalLength? quote) := by
  rintro ⟨behind, ahead⟩
  cases ahead with
  | nil => rfl
  | cons c cs =>
    by_cases escape : c = '\\'
    · subst escape
      cases cs with
      | nil => simp [literalPart, literalLength?, Regex.ends]
      | cons next cs =>
        by_cases newline : next = '\n' <;>
          simp [literalPart, literalLength?, Regex.ends, newline, Zipper.advance]
    · have noEscape : (Regex.seq (.text ['\\']) (.one (· != '\n'))).ends ⟨behind, c :: cs⟩ = [] := by
        simp [Regex.ends, Ne.symm escape]
      rw [literalPart, Regex.ends, noEscape, List.nil_append, single_one, literalLength?_plain escape]
      rfl

theorem shrinks_literal (quote : Char) (cs : List Char) (n : Nat)
    (covered : literalLength? quote cs = some n) : (cs.drop n).length < cs.length := by
  rw [literalLength?.eq_def] at covered
  split at covered
  · cases covered
  · split at covered <;> cases covered
    simp only [List.length_drop, List.length_cons]
    omega
  · split at covered <;> cases covered
    simp

theorem closing?_plain {c : Char} (plain : c ≠ '\\') (quote : Char) (cs : List Char) :
    closing? quote (c :: cs) = if c = quote then some 1 else
      if c = '\n' then none else (closing? quote cs).map (· + 1) := by
  rw [closing?]
  · simp [plain]
  · exact fun _ _ isEscape => absurd isEscape plain

/-- The rest of a literal goes on behind its next character, or it is the quote. -/
theorem closing?_turn {quote : Char} (noEscape : quote ≠ '\\') (cs : List Char) :
    closing? quote cs =
      ((literalLength? quote cs).bind fun n => (closing? quote (cs.drop n)).map (n + ·)).or
        (if [quote].isPrefixOf cs then some 1 else none) := by
  cases cs with
  | nil => rfl
  | cons c cs =>
    by_cases escape : c = '\\'
    · subst escape
      cases cs with
      | nil => simp [closing?, literalLength?, noEscape, Ne.symm noEscape]
      | cons next cs =>
        by_cases newline : next = '\n' <;>
          simp [closing?, literalLength?, newline, noEscape, Nat.add_comm]
    · rw [closing?_plain escape, literalLength?_plain escape]
      by_cases isQuote : c = quote
      · simp [isQuote]
      · by_cases newline : c = '\n'
        · subst newline
          simp [isQuote, Ne.symm isQuote]
        · simp [isQuote, Ne.symm isQuote, newline, escape, Nat.add_comm]

/-- The rest of a literal, up to the first quote that is not taken by a backslash. -/
theorem covers_closing {quote : Char} (noEscape : quote ≠ '\\') :
    Covers (.seq (literalPart quote).star (.text [quote])) (closing? quote) :=
  (single_literalPart quote).star_seq (shrinks_literal quote) single_text.covers (closing?_turn noEscape)

/-! ### Numbers -/

theorem oneOf_eq (set : String) (cs : List Char) :
    oneOf set cs = (if cs.head?.any set.toList.contains then some 1 else none).getD 0 := by
  cases cs with
  | nil => rfl
  | cons c cs =>
    rw [oneOf, List.head?_cons, Option.any_some]
    split_ifs <;> rfl

theorem covers_oneIn (set : String) : Covers (oneIn set).opt fun cs => some (oneOf set cs) :=
  single_one.covers.opt.of_eq fun cs => congrArg some (oneOf_eq set cs).symm

/-- A sign is taken if there is one; where it stands, there are no digits without it. -/
theorem covers_signed : Covers (.seq (oneIn "+-").opt (.plus (.one Char.isDigit))) fun cs =>
    if runLength Char.isDigit (cs.drop (oneOf "+-" cs)) = 0 then none
    else some (oneOf "+-" cs + runLength Char.isDigit (cs.drop (oneOf "+-" cs))) := by
  refine (Single.opt_seq single_one (covers_someRun _) fun cs n covered => ?_).of_eq fun cs => ?_
  · have noDigits : ("+-".toList.all fun mark => !mark.isDigit) = true := by decide
    split_ifs at covered with isSign
    cases cs with
    | nil => cases isSign
    | cons c cs =>
      have other : c.isDigit = false := by
        simpa using List.all_eq_true.mp noDigits c (by simpa using isSign)
      simp [runLength, other]
  · rw [← oneOf_eq]
    split_ifs <;> rfl

theorem covers_exponent : Covers exponent.opt fun cs => some (exponentLength cs) := by
  refine (single_one.seq covers_signed).opt.of_eq fun cs => ?_
  cases cs with
  | nil => rfl
  | cons e rest =>
    have marks : "eE".toList.contains e = (e = 'e' || e = 'E' : Bool) := by
      rw [show "eE".toList = ['e', 'E'] by decide]
      simp
    rw [exponentLength, List.head?_cons, Option.any_some, marks]
    split_ifs
    · rw [Option.bind_some, List.drop_succ_cons, List.drop_zero]
      by_cases none_ : runLength Char.isDigit (rest.drop (oneOf "+-" rest)) = 0
      · rw [if_pos none_, if_pos none_]
        rfl
      · rw [if_neg none_, if_neg none_]
        exact congrArg some (Nat.add_assoc 1 _ _).symm
    · rfl

theorem covers_numberEnd (letters : String) :
    Covers (numberEnd letters) fun cs => some (numberTail letters 0 cs) := by
  refine (covers_exponent.both (covers_oneIn letters)).of_eq fun cs => ?_
  simp [numberTail]

theorem covers_fraction : Covers (Regex.seq (.text ['.']) (.star (.one isDigitChar))).opt
    fun cs => some (fractionLength cs) := by
  refine (single_text.covers.before (covers_run _)).opt.of_eq fun cs => ?_
  by_cases isPrefix : ['.'] <+: cs
  · obtain ⟨rest, rfl⟩ := isPrefix
    rfl
  · rw [if_neg (by simpa using isPrefix), fractionLength]
    · rfl
    · rintro rest rfl
      exact isPrefix ⟨rest, rfl⟩

theorem numberTail_eq (letters : String) (n : Nat) (cs : List Char) :
    numberTail letters n cs = n + numberTail letters 0 (cs.drop n) := by
  simp [numberTail, Nat.add_assoc]

theorem covers_hexNumber : Covers hexNumber hexNumber? := by
  refine (single_one.seq ((covers_someRun isHexChar).before (covers_oneIn "lL"))).led
    (fun rest => ?_) fun cs other => ?_
  · cases rest with
    | nil => rfl
    | cons x rest =>
      have marks : "xX".toList.contains x = (x = 'x' || x = 'X' : Bool) := by
        rw [show "xX".toList = ['x', 'X'] by decide]
        simp
      show hexNumber? ('0' :: x :: rest) = _
      rw [hexNumber?, List.head?_cons, Option.any_some, marks]
      split_ifs
      · rw [Option.bind_some, List.drop_succ_cons, List.drop_zero]
        by_cases none_ : runLength isHexChar rest = 0
        · rw [if_pos none_, if_pos none_]
          rfl
        · rw [if_neg none_, if_neg none_]
          refine congrArg some ?_
          simp only [List.length_singleton]
          omega
      · rfl
  · rw [hexNumber?]
    rintro x rest rfl
    exact other ⟨_, rfl⟩

theorem covers_decimalNumber : Covers decimalNumber decimalNumber? := by
  have later := (covers_run isDigitChar).both (covers_fraction.both (covers_numberEnd "lLfFdD"))
  refine (single_one.covers.before later).of_eq fun cs => ?_
  cases cs with
  | nil => rfl
  | cons c rest =>
    have whole : (c :: rest).drop (1 + runLength isDigitChar rest) =
        rest.drop (runLength isDigitChar rest) := by
      rw [Nat.add_comm, List.drop_succ_cons]
    rw [decimalNumber?, List.head?_cons, Option.any_some]
    split_ifs
    · show _ = some (numberTail "lLfFdD" (1 + runLength isDigitChar rest +
        fractionLength ((c :: rest).drop (1 + runLength isDigitChar rest))) (c :: rest))
      rw [whole, Option.map_some, List.drop_succ_cons, List.drop_zero, numberTail_eq _ (1 + _ + _),
        ← List.drop_drop, whole]
      simp only [Nat.add_assoc]
    · rfl

theorem covers_pointNumber : Covers pointNumber pointNumber? := by
  refine ((covers_someRun _).before (covers_numberEnd "fFdD")).led (fun rest => ?_) fun cs other => ?_
  · show pointNumber? ('.' :: rest) = _
    rw [pointNumber?]
    by_cases none_ : runLength Char.isDigit rest = 0
    · rw [if_pos none_, if_pos none_]
      rfl
    · rw [if_neg none_, if_neg none_, numberTail_eq, Nat.add_comm 1, List.drop_succ_cons]
      refine congrArg some ?_
      simp only [List.length_singleton]
      omega
  · rw [pointNumber?]
    rintro rest rfl
    exact other ⟨rest, rfl⟩

theorem covers_number : Covers TokenKind.number.pattern numberExtent? := by
  refine (covers_hexNumber.alt (covers_decimalNumber.alt covers_pointNumber)).of_eq fun cs => ?_
  rw [numberExtent?]
  cases hexNumber? cs <;> cases decimalNumber? cs <;> rfl

/-! ### Kinds -/

/-- A comment to the end of the line. -/
def lineComment? : List Char → Option Nat
  | '/' :: '/' :: rest => some (2 + runLength (· != '\n') rest)
  | _ => none

/-- A comment up to its closing mark. -/
def blockComment? : List Char → Option Nat
  | '/' :: '*' :: rest => (through? ['*', '/'] rest).map (· + 2)
  | _ => none

theorem covers_lineComment :
    Covers (.seq (.text ['/', '/']) (.star (.one (· != '\n')))) lineComment? := by
  refine (covers_run _).led (fun rest => ?_) fun cs other => ?_
  · exact congrArg some (Nat.add_comm 2 _)
  · rw [lineComment?]
    rintro rest rfl
    exact other ⟨rest, rfl⟩

theorem covers_blockComment :
    Covers (.seq (.text ['/', '*']) (.seq anything.lazily (.text ['*', '/']))) blockComment? := by
  refine (covers_through _).led (fun rest => rfl) fun cs other => ?_
  rw [blockComment?]
  rintro rest rfl
  exact other ⟨rest, rfl⟩

theorem covers_comment : Covers TokenKind.comment.pattern commentExtent? := by
  refine (covers_lineComment.alt covers_blockComment).of_eq fun cs => ?_
  rw [commentExtent?.eq_def]
  split
  · rfl
  · next rest => exact Option.none_or
  · next noLine noBlock => rw [lineComment?, blockComment?, Option.none_or] <;> assumption

theorem covers_textBlock : Covers TokenKind.textBlock.pattern textBlockExtent? := by
  refine (covers_through _).led (fun rest => rfl) fun cs other => ?_
  rw [textBlockExtent?]
  rintro rest rfl
  exact other ⟨rest, rfl⟩

theorem covers_string : Covers TokenKind.string.pattern stringExtent? := by
  refine (covers_closing (by decide)).led (fun rest => rfl) fun cs other => ?_
  rw [stringExtent?]
  rintro rest rfl
  exact other ⟨rest, rfl⟩

theorem covers_character : Covers TokenKind.character.pattern characterExtent? := by
  refine ((single_literalPart _).seq (covers_closing (by decide))).seq_assoc.led
    (fun rest => ?_) fun cs other => ?_
  · show characterExtent? ('\'' :: rest) = _
    cases rest with
    | nil => rfl
    | cons c rest =>
      by_cases isQuote : c = '\''
      · subst isQuote
        rfl
      · have goesOn : characterExtent? ('\'' :: c :: rest) = (closing? '\'' (c :: rest)).map (· + 1) := by
          rw [characterExtent?]
          rintro rest' same
          exact isQuote (List.cons.inj same).1
        rw [goesOn, closing?_turn (by decide), if_neg (by simpa using Ne.symm isQuote), Option.or_none]
        rfl
  · rw [characterExtent?]
    · rintro rest rfl
      exact other ⟨_, rfl⟩
    · rintro rest rfl
      exact other ⟨_, rfl⟩

theorem covers_identifier : Covers TokenKind.identifier.pattern identifierExtent? := by
  refine (single_one.covers.before covers_star).of_eq fun cs => ?_
  cases cs with
  | nil => rfl
  | cons c cs => cases start : isIdentStart c <;> simp [identifierExtent?, start, runLength]

theorem covers_ellipsis : Covers TokenKind.ellipsis.pattern ellipsisExtent? := by
  refine single_text.covers.of_eq fun cs => ?_
  by_cases isPrefix : ['.', '.', '.'] <+: cs
  · obtain ⟨rest, rfl⟩ := isPrefix
    rfl
  · rw [if_neg (by simpa using isPrefix), ellipsisExtent?]
    rintro rest rfl
    exact isPrefix ⟨rest, rfl⟩

theorem covers_punctuation : Covers TokenKind.punctuation.pattern punctuationExtent? := by
  refine single_one.covers.of_eq fun cs => ?_
  cases cs <;> rfl

theorem covers_whitespace : Covers TokenKind.whitespace.pattern whitespaceExtent? := by
  refine covers_plus.of_eq fun cs => ?_
  cases cs with
  | nil => rfl
  | cons c cs => cases gap : isGap c <;> simp [whitespaceExtent?, gap, runLength, Nat.add_comm]

/-- **A kind of token** covers what its rule matches first. -/
theorem covers_pattern (kind : TokenKind) : Covers kind.pattern kind.extent? := by
  cases kind with
  | comment => exact covers_comment
  | textBlock => exact covers_textBlock
  | string => exact covers_string
  | character => exact covers_character
  | annotationDecl => exact covers_bounded rfl
  | identifier => exact covers_identifier
  | ellipsis => exact covers_ellipsis
  | number => exact covers_number
  | punctuation => exact covers_punctuation
  | whitespace => exact covers_whitespace

/-- A comment ends at the first mark that ends it. -/
example : TokenKind.comment.pattern.matched? "/*a*/b*/".toList = some ("/*a*/".toList, "b*/".toList) := by
  decide

end Forwarder.Source
