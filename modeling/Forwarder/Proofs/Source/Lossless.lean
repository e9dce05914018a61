/-
**Reading loses nothing.** A file that is read is written back with the tokens of its text, except for
the semicolons that stand between its types and belong to none of them. The keyword of an unfinished wildcard
is not among these tokens a second time, although the wildcard holds it.

* `Symbol.isCalm` — the constructs that have no semicolon outside of groups.
* `tokens_of_spells` — a construct is written with the tokens that spell it.
* `isStatement_packageDecl`, `isStatement_importDecl` — what stands in front of the types ends with
  semicolons that are not stray.
* **`parse_lossless`** — a file is written with the tokens of its text, less the stray semicolons; with the
  keywords of unfinished wildcards it has one more for each of them.
* `keyword_doubled` — such a file.
-/

import Forwarder.Proofs.Computed
import Forwarder.Proofs.Grammar.Nesting
import Forwarder.Proofs.Source.Leftover

namespace Forwarder.Source

open Grammar

/-! ### Constructs -/

/-- The constructs that have no semicolon outside of groups. -/
def Symbol.isCalm : Symbol → Bool
  | .compilationUnit | .packageDecl | .importDecl | .member | .memberDecl | .methodDecl | .fieldDecl
  | .enumConstant | .balanced => false
  | _ => true

theorem bend_production (s : Symbol) : (productions s).bend Symbol.isCalm = some (.flat s.isCalm) := by
  cases s <;> decide

/-- An identifier is no mark. -/
theorem ofText_of_isIdentifier {text : String} (named : isIdentifier text = true) :
    Bend.ofText text = .flat true := by
  have marks : ∀ mark ∈ ";" :: (openers ++ closers), isIdentifier mark = false := by decide
  have other : text ∉ ";" :: (openers ++ closers) := fun member => by
    rw [marks text member] at named
    cases named
  rw [Bend.ofText_of_not_mem (List.not_mem_of_not_mem_cons other),
    bne_iff_ne.mpr (List.ne_of_not_mem_cons other)]

section Spelled

variable {s : Symbol} {value : s.Value} {ts : List Token}

theorem tokens_of_spells (spelled : s.Spells value ts) : s.tokens false value = textsOf ts :=
  Language.write_of_spells (tokens_production false) reversible_production spelled

theorem fits_of_spells (spelled : s.Spells value ts) (named : AllFit Identified ts) :
    (Bend.flat s.isCalm).Fits (s.tokens false value) := by
  rw [tokens_of_spells spelled]
  exact Language.Spells.fits_flat (fun _ fits => ofText_of_isIdentifier (fits rfl)) bend_production
    spelled named

/-- The identifiers of what is spelled, where it does not leave them to other constructs. -/
theorem identified_of_spells (spelled : s.Spells value ts) (named : AllFit Identified ts) :
    (productions s).Yields (fun _ _ => True) Identified value :=
  (productions s).yields_of_spells (fun _ _ _ _ _ => trivial) value ts named spelled.rule

end Spelled

/-! ### In front of the types -/

/-- Texts that are neither marks of groups nor semicolons. -/
def Plain (texts : List String) : Prop :=
  ∀ text ∈ texts, Bend.ofText text = .flat true

theorem Plain.marked {α : Type} {mark : String} {texts : α → List String} {values : List α}
    (isPlain : Bend.ofText mark = .flat true) (each : ∀ value ∈ values, Plain (texts value)) :
    Plain (markedTexts mark texts values) := by
  intro text member
  obtain ⟨value, isValue, within⟩ := List.mem_flatMap.mp member
  rcases List.mem_cons.mp within with rfl | within
  · exact isPlain
  · exact each value isValue text within

theorem isStatement_packageDecl {name : DottedName} {ts : List Token}
    (spelled : Symbol.Spells .packageDecl name ts) (named : AllFit Identified ts) :
    IsStatement (packageTokens name) := by
  have yields := identified_of_spells spelled named
  simp only [productions, DeclRule.packageDecl, DeclRule.ident, DeclRule.moreSegments,
    Rule.Yields] at yields
  obtain ⟨⟨⟨⟩, head, tail, ⟨⟩⟩, rfl, -, isHead, ⟨-, isTail⟩, -⟩ := yields
  have more : Plain (markedTexts "." (fun segment => [segment]) tail) := by
    refine .marked (by decide) fun segment member => ?_
    have yields := (isTail segment member).after
    simp only [Rule.Yields] at yields
    exact List.forall_mem_singleton.mpr (ofText_of_isIdentifier (yields rfl))
  exact ⟨"package" :: head :: markedTexts "." (fun segment => [segment]) tail, rfl,
    List.cons_ne_nil _ _, List.forall_mem_cons.mpr ⟨by decide,
      List.forall_mem_cons.mpr ⟨ofText_of_isIdentifier (isHead rfl), more⟩⟩⟩

theorem isStatement_importDecl {i : ImportDecl} {ts : List Token}
    (spelled : Symbol.Spells .importDecl i ts) (named : AllFit Identified ts) :
    IsStatement i.tokens := by
  have yields := identified_of_spells spelled named
  simp only [productions, DeclRule.importDecl, DeclRule.ident, Rule.Yields] at yields
  obtain ⟨⟨⟨⟩, isStatic, head, tail, ⟨⟩⟩, rfl, -, -, isHead, ⟨-, isTail⟩, -⟩ := yields
  have more : Plain (markedTexts "." (fun segment => [segment.getD "*"]) tail) := by
    refine .marked (by decide) fun segment member => ?_
    have yields := (isTail segment member).after
    simp only [DeclRule.importSegment, DeclRule.ident, Rule.Yields] at yields
    obtain ⟨name | ⟨⟩, rfl, inner⟩ := yields
    · simp only [Choice.Yields, Rule.Yields] at inner
      exact List.forall_mem_singleton.mpr (ofText_of_isIdentifier (inner rfl))
    · exact List.forall_mem_singleton.mpr (by decide : Bend.ofText "*" = .flat true)
  have keyword : Plain (if isStatic then ["static"] else []) := by
    cases isStatic with
    | false => exact List.forall_mem_nil _
    | true => exact List.forall_mem_singleton.mpr (by decide)
  exact ⟨"import" :: (if isStatic then ["static"] else []) ++
    head :: markedTexts "." (fun segment => [segment.getD "*"]) tail, rfl, List.cons_ne_nil _ _,
    List.forall_mem_append.mpr ⟨List.forall_mem_cons.mpr ⟨by decide, keyword⟩,
      List.forall_mem_cons.mpr ⟨ofText_of_isIdentifier (isHead rfl), more⟩⟩⟩

/-! ### Types and stray semicolons -/

/-- The semicolons between types are stray, and the types have none. -/
theorem withoutStrayFrom_items {packageDecl : Option DottedName} {imports : List ImportDecl}
    {items : List TopLevel} {ts : List Token} (all : SpellsAll TopLevelSpells items ts)
    (named : AllFit Identified ts) {before : Option String} (ended : isStray 0 before ";" = true) :
    withoutStrayFrom 0 before (items.flatMap (TopLevel.tokens false)) =
      (CompilationUnit.mk packageDecl imports items).types.flatMap (TypeDecl.tokens false) := by
  induction items generalizing ts before with
  | nil => rfl
  | cons item items ih =>
    obtain ⟨front, back, rfl, one, others⟩ := all
    obtain ⟨first, second⟩ := named.of_append
    rw [List.flatMap_cons]
    cases item with
    | type decl =>
      have last : (decl.tokens false).getLast?.or before = some "\x7d" := by
        rw [TypeDecl.tokens, TypeSpec.tokens, ← List.append_assoc, ← List.append_assoc,
          List.getLast?_concat, Option.some_or]
      have fits := fits_of_spells one first 0 before (items.flatMap (TopLevel.tokens false)) (.inl rfl)
      calc withoutStrayFrom 0 before (decl.tokens false ++ items.flatMap (TopLevel.tokens false))
        _ = decl.tokens false ++ withoutStrayFrom 0 ((decl.tokens false).getLast?.or before)
              (items.flatMap (TopLevel.tokens false)) := fits
        _ = _ := by
          rw [last, ih others second (by decide)]
          rfl
    | semicolon => exact (withoutStrayFrom_stray ended _).trans (ih others second (by decide))

theorem withoutStray_of_spells {u : CompilationUnit} {ts : List Token}
    (spelled : Symbol.Spells .compilationUnit u ts) (named : AllFit Identified ts) :
    withoutStray (u.allTokens false) = u.tokens false := by
  obtain ⟨front, middle, back, rfl, isPackage, isImports, isItems⟩ := compilationUnit_parts spelled
  obtain ⟨first, others⟩ := named.of_append
  obtain ⟨second, third⟩ := others.of_append
  have head : u.packageDecl.elim [] packageTokens = u.packageDecl.toList.flatMap packageTokens := by
    cases u.packageDecl with
    | none => rfl
    | some name => exact (List.append_nil _).symm
  obtain ⟨behindPackage, stray, rest⟩ := withoutStrayFrom_statements
    (isPackage.forall_mem (fun _ _ fit one => isStatement_packageDecl one fit) first)
    (by decide : isStray 0 none ";" = true)
    (u.imports.flatMap ImportDecl.tokens ++ u.items.flatMap (TopLevel.tokens false))
  obtain ⟨behindImports, strayToo, more⟩ := withoutStrayFrom_statements
    (isImports.forall_mem (fun _ _ fit one => isStatement_importDecl one fit) second) stray
    (u.items.flatMap (TopLevel.tokens false))
  rw [withoutStray, CompilationUnit.allTokens, CompilationUnit.tokens, CompilationUnit.headTokens, head,
    List.append_assoc, rest, more, withoutStrayFrom_items isItems third strayToo, List.append_assoc]

/-! ### Files -/

/-- **Reading loses nothing, and doubles nothing but the keywords of unfinished wildcards.** Some tokens make
up a text that is read. Without comments and white space they are those that its declarations are written
with, one after the other and each with its fixed words and marks; without stray semicolons too, they are
those of the package, the imports and the types. This leaves out the keywords that unfinished wildcards hold:
with them, a file has one token too many for each such wildcard, so it has the tokens of its text exactly if
it has no such wildcard. -/
theorem parse_lossless {text : String} {u : CompilationUnit} (parsed : parse text = .ok u) :
    charsOf (scan text.toList).1 = text.toList ∧
      u.allTokens false = textsOf (meaningful (scan text.toList).1) ∧
      u.tokens false = withoutStray (textsOf (meaningful (scan text.toList).1)) ∧
      (u.tokens false).Sublist (u.tokens true) ∧
      (u.tokens true).length = (u.tokens false).length + u.typeRefs.countP TypeRef.isUnfinished ∧
      (u.tokens true = withoutStray (textsOf (meaningful (scan text.toList).1)) ↔
        ∀ ref ∈ u.typeRefs, ref.isUnfinished = false) := by
  obtain ⟨tokens, finish, lexed, spelled⟩ := spells_of_parse parsed
  have named := identified_of_lex lexed
  have all : u.allTokens false = textsOf tokens := tokens_of_spells spelled
  have less : u.tokens false = withoutStray (textsOf tokens) :=
    all ▸ (withoutStray_of_spells spelled named).symm
  have leftover := u.leftover
  obtain ⟨rfl, chars⟩ := lex_eq_ok lexed
  exact ⟨chars, all, less, leftover.sublist, leftover.length, less ▸ leftover.eq_iff⟩

/-- Two semicolons of this text are stray; the others belong to the package, to an argument, to a member
or stand between members. -/
theorem parse_lossless_stray :
    ∃ u, parse "package a;;@B(\x7b;\x7d) class C<T> \x7b T d = 1; ; /* e */ C() \x7b\x7d \x7d;" = .ok u ∧
      u.tokens true = ["package", "a", ";", "@", "B", "(", "\x7b", ";", "\x7d", ")", "class", "C", "<", "T", ">",
        "\x7b", "T", "d", "=", "1", ";", ";", "C", "(", ")", "\x7b", "\x7d", "\x7d"] := by
  obtain ⟨u, parsed, finished⟩ :
      ∃ u, parse "package a;;@B(\x7b;\x7d) class C<T> \x7b T d = 1; ; /* e */ C() \x7b\x7d \x7d;" = .ok u ∧
        ∀ ref ∈ u.typeRefs, ref.isUnfinished = false :=
    exists_parse rfl (by decide +kernel)
  obtain ⟨-, -, -, -, -, same⟩ := parse_lossless parsed
  rw [String.toList_ofList] at same
  exact ⟨u, parsed, (same.mpr finished).trans (by decide)⟩

/-- The keyword of this text is that of a wildcard and the name of the field, too. -/
theorem keyword_doubled :
    ∃ u, parse "class A \x7b ? extends; \x7d" = .ok u ∧
      u.tokens true = ["class", "A", "\x7b", "?", "extends", "extends", ";", "\x7d"] ∧
      withoutStray (textsOf (meaningful (scan "class A \x7b ? extends; \x7d".toList).1)) =
        ["class", "A", "\x7b", "?", "extends", ";", "\x7d"] := by
  obtain ⟨u, parsed, doubled⟩ : ∃ u, parse "class A \x7b ? extends; \x7d" = .ok u ∧
      u.tokens true = ["class", "A", "\x7b", "?", "extends", "extends", ";", "\x7d"] :=
    exists_parse rfl (by decide +kernel)
  exact ⟨u, parsed, doubled, by rw [String.toList_ofList]; decide +kernel⟩

end Forwarder.Source
