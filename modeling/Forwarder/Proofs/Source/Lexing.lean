/-
**Texts with known tokens.** A text that is put together from names, marks and white space has the
tokens that were put in, as long as no two of its parts run into each other.

* `Shape` — kind and text of a token; its place does not matter here.
* `Lexes` — a text has tokens of these shapes.
* **`Lexes.lex`** — such a text is split into tokens of these shapes.
* `Spelt`, `Closed` — a stretch has tokens of these shapes, in front of any text that does not
  continue its last word, or in front of any text at all.
* `isName` — names of letters, decimal digits, underscores and dollar signs; `isIdentifier` — the
  texts of identifiers.
-/

import Forwarder.Proofs.Source.Scanning
import Forwarder.TypeName

namespace Forwarder.Source

open Text (isLetter isNumeral isDecimal isGap)

/-! ### Characters of names -/

theorem isNumeral_of_isDecimal {c : Char} (decimal : isDecimal c = true) : isNumeral c = true := by
  rw [isDecimal] at decimal
  rw [isNumeral]
  split at decimal
  · next ascii => rwa [if_pos ascii]
  · next ascii =>
    rw [if_neg ascii]
    have within : Text.decimalRanges.all (fun range =>
        Text.numeralRanges.any fun wider => wider.1 ≤ range.1 && range.2 ≤ wider.2) = true := by
      decide
    obtain ⟨range, member, low, high⟩ := Text.Ranges.holds_iff.mp decimal
    obtain ⟨wider, isRange, covers⟩ := List.any_eq_true.mp (List.all_eq_true.mp within range member)
    simp only [Bool.and_eq_true, decide_eq_true_eq] at covers
    exact Text.Ranges.holds_iff.mpr ⟨wider, isRange, by omega, by omega⟩

theorem isIdentPart_of_isNamePart {c : Char} (part : TypeName.isNamePart c = true) :
    isIdentPart c = true := by
  rw [TypeName.isNamePart, TypeName.isNameStart, Bool.or_eq_true] at part
  rw [isIdentPart]
  rcases part with start | decimal
  · simp only [Bool.or_eq_true] at start ⊢
    rcases start with (letter | underscore) | dollar
    · exact .inl (.inl (.inl letter))
    · exact .inl (.inr underscore)
    · exact .inr dollar
  · simp [isNumeral_of_isDecimal decimal]

/-- A name: a letter, an underscore or a dollar sign, and then also decimal digits. -/
def isName (name : String) : Bool :=
  match name.toList with
  | [] => false
  | c :: cs => TypeName.isNameStart c && cs.all TypeName.isNamePart

/-- The text of an identifier, in which any numerals may follow, not only decimal digits. -/
def isIdentifier (name : String) : Bool :=
  match name.toList with
  | [] => false
  | c :: cs => isIdentStart c && cs.all isIdentPart

theorem begins_iff {first later : Char → Bool} {text : List Char} :
    (match text with
      | [] => false
      | c :: cs => first c && cs.all later) = true ↔
    ∃ c cs, text = c :: cs ∧ first c = true ∧ ∀ x ∈ cs, later x = true := by
  cases text with
  | nil =>
    constructor
    · intro impossible
      cases impossible
    · rintro ⟨_, _, impossible, _⟩
      cases impossible
  | cons c cs =>
    simp only [Bool.and_eq_true, List.all_eq_true]
    constructor
    · rintro ⟨isFirst, others⟩
      exact ⟨c, cs, rfl, isFirst, others⟩
    · rintro ⟨_, _, same, isFirst, others⟩
      cases same
      exact ⟨isFirst, others⟩

theorem isName_iff {name : String} : isName name = true ↔ ∃ c cs, name.toList = c :: cs ∧
    TypeName.isNameStart c = true ∧ ∀ x ∈ cs, TypeName.isNamePart x = true :=
  begins_iff

theorem isIdentifier_iff {name : String} : isIdentifier name = true ↔ ∃ c cs,
    name.toList = c :: cs ∧ isIdentStart c = true ∧ ∀ x ∈ cs, isIdentPart x = true :=
  begins_iff

theorem isIdentPart_of_isIdentStart {c : Char} (start : isIdentStart c = true) :
    isIdentPart c = true := by
  simp only [isIdentStart, isIdentPart, Bool.or_eq_true] at start ⊢
  rcases start with (letter | underscore) | dollar
  · exact .inl (.inl (.inl letter))
  · exact .inl (.inr underscore)
  · exact .inr dollar

theorem isIdentPart_of_isIdentifier {name : String} (named : isIdentifier name = true) :
    ∀ c ∈ name.toList, isIdentPart c = true := by
  obtain ⟨first, others, text, start, parts⟩ := isIdentifier_iff.mp named
  rw [text]
  exact List.forall_mem_cons.mpr ⟨isIdentPart_of_isIdentStart start, parts⟩

theorem ne_nil_of_isIdentifier {name : String} (named : isIdentifier name = true) :
    name.toList ≠ [] := by
  obtain ⟨first, others, text, -⟩ := isIdentifier_iff.mp named
  rw [text]
  exact List.cons_ne_nil _ _

theorem isIdentifier_of_isName {name : String} (named : isName name = true) :
    isIdentifier name = true := by
  obtain ⟨c, cs, text, start, parts⟩ := isName_iff.mp named
  exact isIdentifier_iff.mpr ⟨c, cs, text, start, fun x member =>
    isIdentPart_of_isNamePart (parts x member)⟩

/-! ### Shapes -/

/-- Kind and text of a token. -/
abbrev Shape :=
  TokenKind × String

/-- Kind and text, without the place. -/
def Token.shape (token : Token) : Shape :=
  (token.kind, token.text)

namespace Shape

/-- A name as a token. -/
def word (text : String) : Shape :=
  (.identifier, text)

/-- A mark as a token. -/
def mark (text : String) : Shape :=
  (.punctuation, text)

/-- The three points. -/
def ellipsis : Shape :=
  (.ellipsis, "...")

end Shape

/-- A text has tokens of these shapes, white space and comments aside. -/
inductive Lexes : List Char → List Shape → Prop
  | nil : Lexes [] []
  | token {cs : List Char} {kind : TokenKind} {n : Nat} {shapes : List Shape}
      (lexed : lexeme? cs = some (kind, n)) (some_ : 0 < n) (kept : kind.separates = false)
      (rest : Lexes (cs.drop n) shapes) : Lexes cs ((kind, String.ofList (cs.take n)) :: shapes)
  | skipped {cs : List Char} {kind : TokenKind} {n : Nat} {shapes : List Shape}
      (lexed : lexeme? cs = some (kind, n)) (some_ : 0 < n) (separates : kind.separates = true)
      (rest : Lexes (cs.drop n) shapes) : Lexes cs shapes

namespace Lexes

variable {cs rest : List Char} {shapes : List Shape}

theorem scanWithin (lexes : Lexes cs shapes) : ∀ (bound : Nat) (pos : Position),
    cs.length ≤ bound → (Source.scanWithin bound pos cs).2.rest = [] ∧
      (meaningful (Source.scanWithin bound pos cs).1).map Token.shape = shapes := by
  induction lexes with
  | nil =>
    intro bound pos _
    cases bound <;> exact ⟨rfl, rfl⟩
  | @token cs kind n shapes lexed some_ kept _ ih =>
    intro bound pos enough
    cases bound with
    | zero =>
      rw [List.length_eq_zero_iff.mp (Nat.le_zero.mp enough)] at lexed
      cases lexed
    | succ bound =>
      have shorter : (cs.drop n).length ≤ bound := by
        rw [List.length_drop]
        omega
      obtain ⟨ended, others⟩ := ih bound (pos.advance (cs.take n)) shorter
      simp only [Source.scanWithin, lexed]
      refine ⟨ended, ?_⟩
      rw [meaningful, List.filter_cons, if_pos (by simpa using kept), List.map_cons, ← meaningful,
        others]
      rfl
  | @skipped cs kind n shapes lexed some_ separates _ ih =>
    intro bound pos enough
    cases bound with
    | zero =>
      rw [List.length_eq_zero_iff.mp (Nat.le_zero.mp enough)] at lexed
      cases lexed
    | succ bound =>
      have shorter : (cs.drop n).length ≤ bound := by
        rw [List.length_drop]
        omega
      obtain ⟨ended, others⟩ := ih bound (pos.advance (cs.take n)) shorter
      simp only [Source.scanWithin, lexed]
      refine ⟨ended, ?_⟩
      rw [meaningful, List.filter_cons, if_neg (by simpa using separates), ← meaningful, others]

/-- **Such a text is split into tokens of these shapes.** -/
theorem lex (lexes : Lexes cs shapes) :
    ∃ tokens finish, Source.lex cs = .ok (tokens, finish) ∧ tokens.map Token.shape = shapes := by
  obtain ⟨ended, tokens⟩ := lexes.scanWithin cs.length Position.start (Nat.le_refl _)
  refine ⟨meaningful (scan cs).1, (scan cs).2.pos, ?_, tokens⟩
  rw [Source.lex, scan]
  simp only [ended]
  rfl

/-! ### White space and comments -/

theorem lexeme?_of_isGap {c : Char} (isSpace : isGap c = true) (rest : List Char) :
    lexeme? (c :: rest) = some (.whitespace, 1 + runLength isGap rest) := by
  simp only [isGap, Bool.or_eq_true, beq_iff_eq] at isSpace
  rcases isSpace with (((rfl | rfl) | rfl) | rfl) | rfl <;> rfl

/-- White space at the start may be left out. -/
theorem dropGaps (lexes : Lexes cs shapes) : Lexes (cs.dropWhile isGap) shapes := by
  cases cs with
  | nil => exact lexes
  | cons c rest =>
    by_cases isSpace : isGap c = true
    · have spaces := lexeme?_of_isGap isSpace rest
      cases lexes with
      | token lexed some_ kept more =>
        rw [spaces] at lexed
        cases lexed
        cases kept
      | skipped lexed some_ separates more =>
        rw [spaces] at lexed
        cases lexed
        rw [Nat.add_comm, List.drop_succ_cons, drop_runLength] at more
        rwa [List.dropWhile_cons, if_pos isSpace]
    · rwa [List.dropWhile_cons, if_neg isSpace]

/-- White space in front adds nothing. -/
theorem gap {c : Char} (lexes : Lexes rest shapes) (isSpace : isGap c = true) :
    Lexes (c :: rest) shapes := by
  refine .skipped (lexeme?_of_isGap isSpace rest) (by omega) rfl ?_
  rw [Nat.add_comm, List.drop_succ_cons, drop_runLength]
  exact lexes.dropGaps

/-- A comment on a line of its own adds nothing. -/
theorem comment {line : List Char} (lexes : Lexes rest shapes) (inLine : '\n' ∉ line) :
    Lexes ('/' :: '/' :: line ++ '\n' :: rest) shapes := by
  have whole : (line ++ '\n' :: rest).takeWhile (· != '\n') = line := by
    have holds : ∀ c ∈ line, (c != '\n') = true := by
      intro c member
      simp only [bne_iff_ne, ne_eq]
      rintro rfl
      exact inLine member
    rw [List.takeWhile_append_of_pos holds]
    simp
  have run : runLength (· != '\n') (line ++ '\n' :: rest) = line.length := by
    rw [runLength, whole]
  have lexed : lexeme? ('/' :: '/' :: line ++ '\n' :: rest) = some (.comment, 2 + line.length) := by
    show some (TokenKind.comment, 2 + runLength (· != '\n') (line ++ '\n' :: rest)) = _
    rw [run]
  refine .skipped lexed (by omega) rfl ?_
  have ended : ('/' :: '/' :: line ++ '\n' :: rest).drop (2 + line.length) = '\n' :: rest := by
    rw [Nat.add_comm]
    exact List.drop_left
  rw [ended]
  exact lexes.gap rfl

end Lexes

/-! ### Parts of texts -/

/-- No word that ends here is continued by the text. -/
def Breaks (rest : List Char) : Prop :=
  ∀ c ∈ rest.head?, isIdentPart c = false

/-- The text has tokens of these shapes in front of whatever does not continue its last word. -/
def Spelt (text : String) (shapes : List Shape) : Prop :=
  ∀ rest more, Breaks rest → Lexes rest more → Lexes (text.toList ++ rest) (shapes ++ more)

/-- The text has tokens of these shapes, whatever follows it. -/
def Closed (text : String) (shapes : List Shape) : Prop :=
  ∀ rest more, Lexes rest more → Lexes (text.toList ++ rest) (shapes ++ more)

/-- The marks that are tokens by themselves, whatever follows them. -/
def marks : List String :=
  ["<", ">", ",", "?", "&", "[", "]", "(", ")", "\x7b", "\x7d", ";", "="]

/-- The text begins with a character that continues no word. -/
def Opens (text : String) : Prop :=
  ∃ c cs, text.toList = c :: cs ∧ isIdentPart c = false

section Parts

variable {first second name : String} {shapes more : List Shape}

theorem opens_mark {text : String} (isMark : text ∈ marks) : Opens text := by
  simp only [marks, List.mem_cons, List.not_mem_nil, or_false] at isMark
  rcases isMark with rfl | rfl | rfl | rfl | rfl | rfl | rfl | rfl | rfl | rfl | rfl | rfl | rfl <;>
    exact ⟨_, _, rfl, by decide⟩

theorem Opens.append (opens : Opens first) : Opens (first ++ second) := by
  obtain ⟨c, cs, text, other⟩ := opens
  exact ⟨c, cs ++ second.toList, by rw [String.toList_append, text, List.cons_append], other⟩

theorem Closed.spelt (closed : Closed first shapes) : Spelt first shapes :=
  fun rest more _ lexes => closed rest more lexes

theorem Closed.append (left : Closed first shapes) (right : Closed second more) :
    Closed (first ++ second) (shapes ++ more) := by
  intro rest others lexes
  rw [String.toList_append, List.append_assoc, List.append_assoc]
  exact left _ _ (right rest others lexes)

theorem Closed.then_spelt (left : Closed first shapes) (right : Spelt second more) :
    Spelt (first ++ second) (shapes ++ more) := by
  intro rest others breaks lexes
  rw [String.toList_append, List.append_assoc, List.append_assoc]
  exact left _ _ (right rest others breaks lexes)

theorem Opens.breaks (opens : Opens second) (rest : List Char) : Breaks (second.toList ++ rest) := by
  obtain ⟨c, cs, text, other⟩ := opens
  rw [text]
  rintro _ ⟨⟩
  exact other

theorem Spelt.append (left : Spelt first shapes) (opens : Opens second)
    (right : Spelt second more) : Spelt (first ++ second) (shapes ++ more) := by
  intro rest others breaks lexes
  rw [String.toList_append, List.append_assoc, List.append_assoc]
  exact left _ _ (opens.breaks rest) (right rest others breaks lexes)

theorem Spelt.then_closed (left : Spelt first shapes) (opens : Opens second)
    (right : Closed second more) : Closed (first ++ second) (shapes ++ more) := by
  intro rest others lexes
  rw [String.toList_append, List.append_assoc, List.append_assoc]
  exact left _ _ (opens.breaks rest) (right rest others lexes)

/-- **The tokens of a whole text.** -/
theorem Spelt.lex (spelt : Spelt first shapes) : ∃ tokens finish,
    Source.lex first.toList = .ok (tokens, finish) ∧ tokens.map Token.shape = shapes := by
  have whole := spelt [] [] (by rintro _ ⟨⟩) .nil
  rw [List.append_nil, List.append_nil] at whole
  exact whole.lex

/-! ### Single tokens -/

theorem Closed.empty : Closed "" [] :=
  fun _ _ lexes => lexes

theorem Closed.space : Closed " " [] :=
  fun _ _ lexes => lexes.gap rfl

theorem opens_space : Opens " " :=
  ⟨' ', [], rfl, by decide⟩

theorem Closed.mark {text : String} (isMark : text ∈ marks) : Closed text [Shape.mark text] := by
  intro rest others lexes
  simp only [marks, List.mem_cons, List.not_mem_nil, or_false] at isMark
  rcases isMark with rfl | rfl | rfl | rfl | rfl | rfl | rfl | rfl | rfl | rfl | rfl | rfl | rfl <;>
    exact Lexes.token (n := 1) rfl (by decide) rfl lexes

/-- A mark with a space behind it. -/
theorem Closed.mark_space (text : String) (isMark : text ∈ marks) : Closed (text ++ " ") [Shape.mark text] :=
  (Closed.mark isMark).append Closed.space

/-- A mark between two spaces. -/
theorem Closed.mark_between (text : String) (isMark : text ∈ marks) :
    Closed (" " ++ text ++ " ") [Shape.mark text] :=
  (Closed.space.append (Closed.mark isMark)).append Closed.space

theorem Closed.ellipsis : Closed "..." [Shape.ellipsis] :=
  fun _ _ lexes => Lexes.token (n := 3) rfl (by decide) rfl lexes

/-- An identifier, up to where it is not continued. -/
theorem Spelt.identifier (isWord : isIdentifier name = true) : Spelt name [Shape.word name] := by
  intro rest others breaks lexes
  obtain ⟨c, cs, text, start, parts⟩ := isIdentifier_iff.mp isWord
  have run : runLength isIdentPart (cs ++ rest) = cs.length := by
    rw [runLength, List.takeWhile_append_of_pos parts]
    cases rest with
    | nil => simp
    | cons next _ => simp [breaks next rfl]
  have lexed := lexeme?_of_isIdentStart start (cs ++ rest)
  rw [run, Nat.add_comm] at lexed
  have dropped : (c :: (cs ++ rest)).drop (cs.length + 1) = rest := List.drop_left
  have taken : String.ofList ((c :: (cs ++ rest)).take (cs.length + 1)) = name := by
    rw [List.take_succ_cons, List.take_left, ← text, String.ofList_toList]
  have whole := Lexes.token lexed (by omega) rfl (dropped.symm ▸ lexes)
  rw [taken] at whole
  rw [text]
  exact whole

theorem Spelt.word (isWord : isName name = true) : Spelt name [Shape.word name] :=
  Spelt.identifier (isIdentifier_of_isName isWord)

/-- A word with a space behind it. -/
theorem Closed.keyword (word : String) (isWord : isName word = true) :
    Closed (word ++ " ") [Shape.word word] :=
  (Spelt.word isWord).then_closed opens_space Closed.space

theorem not_isDigit_of_isIdentStart {c : Char} (start : isIdentStart c = true) :
    c.isDigit = false := by
  apply Bool.eq_false_iff.mpr
  intro digit
  have ascii : c.toNat < 0x80 := toNat_lt_of_isAlphanum (by simp [Char.isAlphanum, digit])
  simp only [isIdentStart, Text.isLetter_of_ascii c ascii, Bool.or_eq_true, beq_iff_eq] at start
  rcases start with (alpha | rfl) | rfl
  · rw [isAlpha_iff_toNat] at alpha
    rw [isDigit_iff_toNat] at digit
    omega
  · cases digit
  · cases digit

theorem lexeme?_point {c : Char} (start : isIdentStart c = true) (rest : List Char) :
    lexeme? ('.' :: c :: rest) = some (.punctuation, 1) := by
  have point : c ≠ '.' := ne_of_isIdentStart start (by decide)
  have digit : c.isDigit = false := not_isDigit_of_isIdentStart start
  have ellipsis : ellipsisExtent? ('.' :: c :: rest) = none := by
    rw [ellipsisExtent?.eq_def]
    split <;> simp_all
  have number : numberExtent? ('.' :: c :: rest) = none := by
    have run : runLength Char.isDigit (c :: rest) = 0 := by
      simp [runLength, digit]
    have behindPoint : pointNumber? ('.' :: c :: rest) = none := by
      rw [pointNumber?]
      simp only [run, if_true]
    show (none <|> none <|> pointNumber? ('.' :: c :: rest)) = none
    rw [behindPoint]
    rfl
  have punctuation : punctuationExtent? ('.' :: c :: rest) = some 1 := rfl
  show TokenKind.order.findSome? _ = _
  rw [TokenKind.order, List.findSome?_cons_of_isNone rfl, List.findSome?_cons_of_isNone rfl,
    List.findSome?_cons_of_isNone rfl, List.findSome?_cons_of_isNone rfl,
    List.findSome?_cons_of_isNone rfl, List.findSome?_cons_of_isNone rfl]
  simp only [List.findSome?_cons, TokenKind.extent?, ellipsis, number, punctuation, Option.map]

/-- An identifier behind a point. -/
theorem Spelt.behindPoint (isWord : isIdentifier name = true) :
    Spelt ("." ++ name) [Shape.mark ".", Shape.word name] := by
  intro rest others breaks lexes
  have named := Spelt.identifier isWord rest others breaks lexes
  obtain ⟨c, cs, text, start, -⟩ := isIdentifier_iff.mp isWord
  rw [text] at named
  have whole := Lexes.token (lexeme?_point start (cs ++ rest)) (by decide) rfl named
  rw [String.toList_append, text]
  exact whole

theorem Spelt.point (isWord : isName name = true) :
    Spelt ("." ++ name) [Shape.mark ".", Shape.word name] :=
  Spelt.behindPoint (isIdentifier_of_isName isWord)

theorem opens_point : Opens ("." ++ name) :=
  ⟨'.', name.toList, by rw [String.toList_append]; rfl, by decide⟩

end Parts

end Forwarder.Source
