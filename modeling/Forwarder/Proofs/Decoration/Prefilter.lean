/-
**Which declarations the header pattern hides.** A text that is read as a declaration has the clause
`implements … Decorator<…>` in its header, and comments and white space do not keep the pattern from
finding it. The pattern also asks for the word `class`, which the header of an interface lacks.

* `gap_of_separators` — what separates two tokens is a gap of the pattern.
* `implements_of_tokens` — the tokens of a header, found in the text.
* **`matchesDecorator_of_specs`** — a text with a class that implements an applied `Decorator` matches.
* `Decoration.Hidden` — a text declares an interface, and no word `class` stands in front of a header.
* **`Decoration.hidden_exact`** — among the texts that are read as declarations, exactly these do not
  match, and exactly their files are passed over.
-/

import Forwarder.Batch.Extraction
import Forwarder.Proofs.Computed
import Forwarder.Proofs.Decoration.Extract
import Forwarder.Proofs.Decoration.HeaderPattern
import Forwarder.Proofs.Source.Inner

namespace Forwarder

open Grammar (EndsIn)
open HeaderPattern
open Source
open Text (isGap isWordChar)

/-! ### Tokens in a text -/

theorem split_of_filter {α : Type} {keeps : α → Bool} {all front back : List α} {value : α}
    (filtered : all.filter keeps = front ++ value :: back) :
    ∃ before after, all = before ++ value :: after ∧ before.filter keeps = front ∧
      keeps value = true ∧ after.filter keeps = back := by
  obtain ⟨before, rest, rfl, isFront, isRest⟩ := List.filter_eq_append_iff.mp filtered
  obtain ⟨skipped, after, rfl, dropped, kept, isBack⟩ := List.filter_eq_cons_iff.mp isRest
  refine ⟨before ++ skipped, after, (List.append_assoc ..).symm, ?_, kept, isBack⟩
  rw [List.filter_append, List.filter_eq_nil_iff.mpr dropped, List.append_nil, isFront]

section Scanned

variable {cs : List Char} {all front back : List Token} {token : Token} {stop : Stop}

/-- **The start of a word** is one for the pattern too, unless a number stands directly in front. -/
theorem delimits_before (scanned : scan cs = (front ++ token :: back, stop)) {c : Char}
    (first : token.text.toList.head? = some c) (word : isWordChar c = true)
    (ends : EndsIn unnumeric (meaningful front)) : delimits (charsOf front).getLast? = true := by
  rcases List.eq_nil_or_concat front with rfl | ⟨others, last, rfl⟩
  · rfl
  rw [List.concat_eq_append] at scanned ends ⊢
  rw [List.append_assoc] at scanned
  obtain ⟨here, n, lexed, isText, next, -⟩ := scanWithin_split scanned
  have follows : (here.drop n).head? = some c := by
    rw [← next]
    simp [first]
  have unnumbered : last.kind ≠ .number := by
    intro number
    have kept : meaningful [last] = [last] := by simp [meaningful, number, TokenKind.separates]
    have fits : unnumeric.Holds last := by
      refine ends last ?_
      rw [meaningful, List.filter_append, ← meaningful, ← meaningful, kept, List.getLast?_concat]
    rcases fits with kind | text
    · simp [unnumeric, number] at kind
    · rw [number] at lexed
      simp [unnumeric, looksNumeric_of_lexeme? lexed isText] at text
  obtain ⟨x, isLast, other⟩ := isWordChar_of_lexeme? lexed follows word unnumbered
  rw [← isText] at isLast
  simp [delimits, isLast, other]

/-- An identifier ends where the pattern sees the end of a word. -/
theorem delimits_after (scanned : scan cs = (front ++ token :: back, stop)) {c : Char}
    (first : token.text.toList.head? = some c) (start : isIdentStart c = true) :
    delimits (charsOf back ++ stop.rest).head? = true := by
  obtain ⟨here, n, lexed, isText, next, -⟩ := scanWithin_split scanned
  rw [next]
  cases here with
  | nil =>
    rw [isText] at first
    simp at first
  | cons d here =>
    cases n with
    | zero =>
      rw [isText] at first
      cases first
    | succ n =>
      rw [isText, List.take_succ_cons] at first
      obtain rfl : d = c := Option.some.inj first
      rw [lexeme?_of_isIdentStart start] at lexed
      obtain ⟨-, same⟩ := Prod.mk.inj (Option.some.inj lexed)
      rw [← same]
      exact delimits_of_identifier (lexeme?_of_isIdentStart start here)

/-- A separating token in front of a gap belongs to it. -/
theorem gap_of_separator {here : List Char} {kind : TokenKind} {n : Nat}
    (lexed : lexeme? here = some (kind, n)) (separates : kind.separates = true)
    (isOpen : (gaps (here.drop n)).1.gap = true) : (gaps here).1.gap = true := by
  have extent := extent?_of_lexeme? lexed
  cases kind with
  | comment =>
    simp only [TokenKind.extent?] at extent
    rw [commentExtent?.eq_def] at extent
    split at extent
    · next rest =>
      cases extent
      rw [Nat.add_comm, List.drop_succ_cons, List.drop_succ_cons, drop_runLength] at isOpen
      rw [← rest.takeWhile_append_dropWhile (p := (· != '\n'))]
      have stops := List.head?_dropWhile_not (· != '\n') rest
      have noBreak : ∀ c ∈ rest.takeWhile (· != '\n'), c ≠ '\n' := fun c member => by
        simpa using List.all_eq_true.mp List.all_takeWhile c member
      cases after : rest.dropWhile (· != '\n') with
      | nil =>
        rw [after] at isOpen
        cases isOpen
      | cons c after' =>
        rw [after] at stops isOpen
        obtain rfl : c = '\n' := by simpa using stops
        exact gap_of_lineComment noBreak isOpen
    · next rest =>
      obtain ⟨m, found, rfl⟩ := Option.map_eq_some_iff.mp extent
      obtain ⟨inner, same⟩ := take_of_through? found
      rw [List.drop_succ_cons, List.drop_succ_cons] at isOpen
      rw [← rest.take_append_drop m, same, List.append_assoc]
      exact gap_of_blockComment isOpen
    · cases extent
  | whitespace =>
    simp only [TokenKind.extent?] at extent
    rw [whitespaceExtent?.eq_def] at extent
    split at extent
    · next first rest =>
      split at extent
      · next isFirst =>
        cases extent
        rw [Nat.add_comm, List.drop_succ_cons, drop_runLength] at isOpen
        refine gap_of_isGap isFirst ?_
        rw [← rest.takeWhile_append_dropWhile (p := isGap)]
        exact gap_append_of_isGap (fun c member => List.all_eq_true.mp List.all_takeWhile c member)
          isOpen
      · cases extent
    · cases extent
  | _ => cases separates

/-- **What separates two tokens is a gap** of the pattern, if it is one from the second token on. -/
theorem gap_of_separators {separators : List Token}
    (scanned : scan cs = (front ++ (separators ++ back), stop))
    (separate : ∀ token ∈ separators, token.kind.separates = true)
    (isOpen : (gaps (charsOf back ++ stop.rest)).1.gap = true) :
    (gaps (charsOf (separators ++ back) ++ stop.rest)).1.gap = true := by
  induction separators generalizing front with
  | nil => exact isOpen
  | cons first separators ih =>
    obtain ⟨here, n, lexed, isText, next, -⟩ := scanWithin_split scanned
    have later : scan cs = ((front ++ [first]) ++ (separators ++ back), stop) := by
      simpa using scanned
    have others := ih later
      fun token member => separate token (List.mem_cons_of_mem _ member)
    rw [List.append_eq] at next
    rw [next] at others
    have gap := gap_of_separator lexed (separate first List.mem_cons_self) others
    rwa [List.cons_append, charsOf_cons, List.append_assoc, next, isText,
      List.take_append_drop]

/-- The end of a stretch behind a word that ends in `c`. -/
theorem getLast?_behind (front word back : List Char) {c : Char} (last : word.getLast? = some c) :
    (front ++ (word ++ back)).getLast? = lastOf (some c) back := by
  rw [List.getLast?_append, List.getLast?_append, last, lastOf, Option.or_assoc]
  rfl

/-- **The tokens of a class header, found in the text.** If its words do not directly follow numbers,
they are words for the pattern. -/
theorem classImplements_of_tokens {tokens : List Token} {finish : Position}
    (lexed : lex cs = .ok (tokens, finish)) {start before middle after : List Token}
    {keyword mark name bracket : Token}
    (split : tokens = start ++ keyword :: (before ++ mark :: (middle ++ name :: bracket :: after)))
    (begins : EndsIn unnumeric start) (isKeyword : keyword.text = "class")
    (first : EndsIn unnumeric (keyword :: before)) (isMark : mark.text = "implements")
    (second : EndsIn unnumeric (mark :: middle)) (isName : name.text = "Decorator")
    (isBracket : bracket.text = "<") : ClassImplements cs := by
  rw [lex] at lexed
  have chars := charsOf_scanWithin cs.length Position.start cs
  rw [← scan] at chars
  generalize scanned : scan cs = outcome at lexed chars
  obtain ⟨all, stop⟩ := outcome
  simp only at lexed
  split at lexed
  case isFalse => cases lexed
  next ended =>
    obtain ⟨filtered, -⟩ := Prod.mk.inj (Except.ok.inj lexed)
    have ended := List.isEmpty_iff.mp ended
    rw [ended, List.append_nil] at chars
    obtain ⟨A, _, rfl, isStart, keyword_, kept⟩ := split_of_filter (filtered.trans split)
    obtain ⟨B, _, rfl, isBefore, mark_, kept⟩ := split_of_filter kept
    obtain ⟨C, _, rfl, isMiddle, name_, kept⟩ := split_of_filter kept
    obtain ⟨D, E, rfl, separators, -, -⟩ := List.filter_eq_cons_iff.mp kept
    have atMark : scan cs = ((A ++ keyword :: B) ++ mark :: (C ++ name :: (D ++ bracket :: E)),
        stop) := by simpa using scanned
    have atName : scan cs = ((A ++ keyword :: B ++ mark :: C) ++ name :: (D ++ bracket :: E),
        stop) := by simpa using scanned
    have atGap : scan cs = ((A ++ keyword :: B ++ mark :: C ++ [name]) ++ (D ++ bracket :: E),
        stop) := by simpa using scanned
    have toMark : meaningful (A ++ keyword :: B) = start ++ keyword :: before := by
      rw [meaningful, List.filter_append, List.filter_cons, if_pos keyword_, isStart, isBefore]
    have toName : meaningful (A ++ keyword :: B ++ mark :: C) =
        (start ++ keyword :: before) ++ mark :: middle := by
      rw [meaningful, List.filter_append, ← meaningful, toMark, List.filter_cons, if_pos mark_, isMiddle]
    have beforeMark := delimits_before atMark (by rw [isMark]; decide) (by decide : isWordChar 'i' = true)
      (toMark ▸ first.append (.inr (List.cons_ne_nil _ _)))
    have beforeName := delimits_before atName (by rw [isName]; decide) (by decide : isWordChar 'D' = true)
      (toName ▸ second.append (.inr (List.cons_ne_nil _ _)))
    have afterKeyword := delimits_after scanned (by rw [isKeyword]; decide)
      (by decide : isIdentStart 'c' = true)
    have afterMark := delimits_after atMark (by rw [isMark]; decide)
      (by decide : isIdentStart 'i' = true)
    rw [ended, List.append_nil] at afterKeyword afterMark
    have gap := gap_of_separators atGap (fun token member => by simpa using separators token member)
      (by simp [isBracket, gaps])
    rw [ended, List.append_nil] at gap
    rw [charsOf_append, charsOf_cons, isKeyword, getLast?_behind _ _ _ (by decide : _ = some 's')]
      at beforeMark
    rw [charsOf_append, charsOf_cons, isMark, getLast?_behind _ _ _ (by decide : _ = some 's')]
      at beforeName
    refine ⟨charsOf A, charsOf (B ++ mark :: (C ++ name :: (D ++ bracket :: E))), ?_, ?_, afterKeyword,
      charsOf B, charsOf C, charsOf (D ++ bracket :: E), ?_, beforeMark, beforeName, ?_, gap⟩
    · rw [← chars]
      simp [isKeyword]
    · exact delimits_before scanned (by rw [isKeyword]; decide) (by decide : isWordChar 'c' = true)
        (by rw [meaningful, isStart]; exact begins)
    · simp [isMark, isName]
    · cases isEmpty : charsOf C with
      | nil =>
        rw [isEmpty] at beforeName
        cases beforeName
      | cons c others =>
        rw [charsOf_append, isEmpty] at afterMark
        exact afterMark

end Scanned

/-! ### Classes -/

section Classes

variable {text : String} {u : CompilationUnit} {spec : TypeSpec} {ref : TypeRef}

/-- The rest of the pattern stands in every text with a class, at any depth, that implements an applied
`Decorator`. -/
theorem classImplements_of_specs (parsed : parse text = .ok u) (declared : spec ∈ u.specs)
    (isClass : spec.header.kind = .classKind) (implements : ref ∈ spec.header.implemented)
    (applies : ref.AppliesName "Decorator") : ClassImplements text.toList := by
  obtain ⟨tokens, finish, lexed, spelled⟩ := spells_of_parse parsed
  obtain ⟨start, _, back, rfl, begins, isSpec⟩ := exposes_specs spelled declared
  obtain ⟨keyword, before, mark, middle, name, bracket, after, rfl, isKeyword, first, isMark, second,
    isName, isBracket⟩ := header_spells isSpec implements applies
  rw [isClass] at isKeyword
  have split : start ++ (keyword :: (before ++ mark :: (middle ++ name :: bracket :: after)) ++ back) =
      start ++ keyword :: (before ++ mark :: (middle ++ name :: bracket :: (after ++ back))) := by
    simp
  exact classImplements_of_tokens lexed split begins isKeyword first isMark second isName isBracket

/-- **The pattern covers every decorating class.** A text that can be parsed matches as soon as one of the
classes that it declares, at its top or inside other types, implements an applied `Decorator`. Nothing is
asked of its package, of its imports or of the comments and the white space in it, and the `Decorator` may
be qualified, annotated or a diamond. -/
theorem matchesDecorator_of_specs (parsed : parse text = .ok u) (declared : spec ∈ u.specs)
    (isClass : spec.header.kind = .classKind) (implements : ref ∈ spec.header.implemented)
    (applies : ref.AppliesName "Decorator") : matchesDecorator text = true :=
  matchesDecorator_iff.mpr (classImplements_of_specs parsed declared isClass implements applies)

/-- A class in the body of an enum constant, with comments in its header. -/
def innerText : String :=
  "enum E \x7b X(1) \x7b class A implements B, q.Decorator /*<*/ // <\n <Map> \x7b\x7d \x7d \x7d"

theorem matchesDecorator_of_specs_innerText : ∃ u spec ref, parse innerText = .ok u ∧ spec ∈ u.specs ∧
    spec.header.kind = .classKind ∧ ref ∈ spec.header.implemented ∧ ref.AppliesName "Decorator" ∧
    matchesDecorator innerText = true := by
  have found : ∃ u, parse innerText = .ok u ∧ ∃ spec ∈ u.specs,
      spec.header.kind = .classKind ∧ ∃ ref ∈ spec.header.implemented, ref.AppliesName "Decorator" :=
    exists_parse rfl (by decide +kernel)
  obtain ⟨u, parsed, spec, declared, isClass, ref, implements, applies⟩ := found
  exact ⟨u, spec, ref, parsed, declared, isClass, implements, applies,
    matchesDecorator_of_specs parsed declared isClass implements applies⟩

end Classes

/-! ### Declarations -/

namespace Decoration

variable {file text : String} {d : Decoration}

/-- The text declares an interface, and no word `class` stands in front of a header in it. -/
def Hidden (text : String) : Prop :=
  ∃ u decl, parse text = .ok u ∧ u.topLevelClass? = some decl ∧
    decl.spec.header.kind = .interfaceKind ∧ ¬ClassImplements text.toList

theorem kind_of_topLevelClass? {u : CompilationUnit} {decl : TypeDecl}
    (found : u.topLevelClass? = some decl) :
    decl ∈ u.types ∧ (decl.spec.header.kind = .classKind ∨ decl.spec.header.kind = .interfaceKind) := by
  have kind := List.find?_some found
  rw [Bool.or_eq_true, beq_iff_eq, beq_iff_eq] at kind
  exact ⟨List.mem_of_find?_eq_some found, kind⟩

/-- **A class declaration is never hidden.** -/
theorem classImplements_of_extract {u : CompilationUnit} {decl : TypeDecl}
    (parsed : parse text = .ok u) (extracted : extract file u = .present d)
    (found : u.topLevelClass? = some decl) (isClass : decl.spec.header.kind = .classKind) :
    ClassImplements text.toList := by
  obtain ⟨other, -, capability, target, -, same, -, isCapability, isTarget, -, -⟩ :=
    extract_eq_present extracted
  obtain rfl : decl = other := Option.some.inj (found.symm.trans same)
  have named : capability.simpleName = "Decorator" := by simpa using List.find?_some isCapability
  have some_ : capability.typeArguments ≠ [] := by
    intro none
    simp [target?, none] at isTarget
  refine classImplements_of_specs parsed (mem_specs_of_types (kind_of_topLevelClass? found).1) isClass
    (List.mem_of_find?_eq_some isCapability) ?_
  rw [← named]
  exact TypeRef.appliesName_of_typeArguments some_

/-- **Exactly which declarations are hidden.** A text that is read as a declaration fails to match
exactly if it declares an interface and no word `class` stands in front of a header in it; and exactly
then a file that holds it is passed over as if it were no declaration. -/
theorem hidden_exact (accepted : read file text = .present d) :
    (matchesDecorator text = true ↔ ¬Hidden text) ∧
      ∀ (r : Reader) (disk : Disk) (path : String), (r.readText disk path).1 = .ok text →
        ((r.extract disk path).1 = .empty ↔ Hidden text) := by
  obtain ⟨u, parsed, extracted⟩ := read_eq_present accepted
  obtain ⟨decl, _, _, _, _, found, _⟩ := extract_eq_present extracted
  have exact : matchesDecorator text = true ↔ ¬Hidden text := by
    rw [matchesDecorator_iff]
    constructor
    · rintro matches_ ⟨_, _, _, _, _, unmatched⟩
      exact unmatched matches_
    · intro visible
      rcases (kind_of_topLevelClass? found).2 with isClass | isInterface
      · exact classImplements_of_extract parsed extracted found isClass
      · exact Classical.byContradiction fun unmatched =>
          visible ⟨u, decl, parsed, found, isInterface, unmatched⟩
  refine ⟨exact, fun r disk path readable => ?_⟩
  rw [Reader.extract, Reader.isDecoratable]
  generalize r.readText disk path = outcome at readable
  obtain ⟨result, after⟩ := outcome
  obtain rfl : result = .ok text := readable
  simp only
  cases matches_ : matchesDecorator text with
  | false =>
    refine ⟨fun _ => Classical.byContradiction fun visible => ?_, fun _ => rfl⟩
    rw [exact.mpr visible] at matches_
    cases matches_
  | true =>
    refine ⟨fun empty => ?_, fun hidden => absurd hidden (exact.mp matches_)⟩
    simp only at empty
    split at empty
    · cases empty
    · exact absurd empty read_ne_empty

/-- A class that implements `Decorator` with the argument `Map`. -/
def classText : String :=
  "package p; import java.util.Map; class A implements Decorator<Map> \x7b\x7d"

theorem hidden_exact_classText :
    (read "A.java" classText).isPresent = true ∧ ¬Hidden classText := by
  have accepted : read "A.java" classText = .present ⟨"A", "p", "java.util.Map", [], [], "A.java"⟩ :=
    read_of_chars rfl (by decide)
  exact ⟨by rw [accepted]; rfl, (hidden_exact accepted).1.mp (by decide)⟩

/-- An interface in place of the class. -/
def interfaceText : String :=
  "package p; import java.util.Map; interface A implements Decorator<Map> \x7b\x7d"

/-- A declaration that is read although its text does not match. -/
theorem interface_hidden :
    (read "A.java" interfaceText).value? =
        some ⟨"A", "p", "java.util.Map", [], [], "A.java"⟩ ∧
      matchesDecorator interfaceText = false := by
  have accepted : read "A.java" interfaceText = .present ⟨"A", "p", "java.util.Map", [], [], "A.java"⟩ :=
    read_of_chars rfl (by decide +kernel)
  exact ⟨by rw [accepted]; rfl, by decide +kernel⟩

end Decoration

end Forwarder
