/-
**The types of a source file are level.** The identifiers of a text hold no bracket, comma, blank or
parenthesis, so in the types that are read every argument list is closed, and the names around them are
flat.

* `identified_of_lex`, `isFlat_of_lex` — the identifiers among the tokens of a text.
* `TypeRef.Level`, `MethodDecl.Level`, `TypeSpec.Level` — what this means for the constructs that declare
  methods.
* `level_production` — every production keeps to it.
* **`level_of_parse`** — so does every file that is read.
-/

import Forwarder.Proofs.Grammar.Yield
import Forwarder.Proofs.Source.Derivation
import Forwarder.Proofs.Source.Erasure

open Forwarder.TypeName (IsFlat IsLevel Calm Nested isPlainChar)

namespace Forwarder.Source

open Grammar (Rule Choice AllFit)

/-! ### Identifiers -/

theorem isPlainChar_of_isIdentPart {c : Char} (part : isIdentPart c = true) :
    isPlainChar c = true := by
  by_contra other
  rw [isPlainChar] at other
  simp only [Bool.and_eq_true, bne_iff_ne, not_and_or, not_not] at other
  rcases other with (((rfl | rfl) | rfl) | rfl) | rfl <;> exact absurd part (by decide)

theorem isIdentifier_of_lexeme? {cs : List Char} {n : Nat}
    (lexed : lexeme? cs = some (.identifier, n)) : isIdentifier (String.ofList (cs.take n)) = true := by
  have extent : identifierExtent? cs = some n := extent?_of_lexeme? lexed
  unfold identifierExtent? at extent
  split at extent
  · next first rest =>
    split at extent
    · next start =>
      cases extent
      refine isIdentifier_iff.mpr ⟨first, rest.takeWhile isIdentPart, ?_, start, fun c member => ?_⟩
      · rw [String.toList_ofList, Nat.add_comm, List.take_succ_cons, take_runLength]
      · exact List.all_eq_true.mp List.all_takeWhile c member
    · cases extent
  · cases extent

/-- A token that is an identifier has the text of one. -/
def Identified (kind : TokenKind) (text : String) : Prop :=
  kind = .identifier → isIdentifier text = true

theorem identified_of_lex {cs : List Char} {tokens : List Token} {finish : Position}
    (lexed : lex cs = .ok (tokens, finish)) : AllFit Identified tokens := by
  obtain ⟨rfl, -⟩ := lex_eq_ok lexed
  intro token member isIdent
  obtain ⟨front, back, split⟩ := List.append_of_mem (List.mem_filter.mp member).1
  obtain ⟨here, n, lexed, text, -⟩ := scanWithin_split
    (Prod.ext split rfl : scan cs = (front ++ token :: back, (scan cs).2))
  have isText : token.text = String.ofList (here.take n) := by
    rw [← text, String.ofList_toList]
  rw [isText]
  exact isIdentifier_of_lexeme? (isIdent ▸ lexed)

theorem isFlat_of_isIdentifier {name : String} (named : isIdentifier name = true) :
    IsFlat name.toList := by
  exact ⟨fun c member => isPlainChar_of_isIdentPart (isIdentPart_of_isIdentifier named c member),
    ne_nil_of_isIdentifier named⟩

/-- A token that is an identifier is flat. -/
def FlatName (kind : TokenKind) (text : String) : Prop :=
  kind = .identifier → IsFlat text.toList

theorem isFlat_of_lex {cs : List Char} {tokens : List Token} {finish : Position}
    (lexed : lex cs = .ok (tokens, finish)) : AllFit FlatName tokens :=
  fun token member isIdent => isFlat_of_isIdentifier (identified_of_lex lexed token member isIdent)

/-! ### Texts -/

theorem plain_brackets (dims : Nat) : ∀ c ∈ (brackets dims).toList, isPlainChar c = true := by
  induction dims with
  | zero => exact List.forall_mem_nil _
  | succ dims ih =>
    rw [brackets_succ, String.toList_append]
    exact List.forall_mem_append.mpr ⟨List.all_eq_true.mp (by decide), ih⟩

theorem calm_brackets (dims : Nat) : Calm (brackets dims).toList :=
  TypeName.calm_of_plain (plain_brackets dims)

theorem isFlat_join {parts : List String} (each : ∀ part ∈ parts, IsFlat part.toList)
    (some_ : parts ≠ []) : IsFlat (Text.join "." parts).toList := by
  induction parts with
  | nil => exact absurd rfl some_
  | cons part parts ih =>
    obtain ⟨first, others⟩ := List.forall_mem_cons.mp each
    cases parts with
    | nil => simpa [Text.join] using first
    | cons next parts =>
      rw [Text.join, String.intercalate_cons_cons, String.toList_append, String.toList_append,
        List.append_assoc]
      refine first.append (List.forall_mem_append.mpr ⟨List.all_eq_true.mp (by decide), ?_⟩)
      exact (ih others (List.cons_ne_nil _ _)).plain

theorem nested_join {parts : List String} (each : ∀ part ∈ parts, Nested part.toList) :
    Nested (Text.join ", " parts).toList := by
  induction parts with
  | nil => exact Calm.nil.toNested
  | cons part parts ih =>
    obtain ⟨first, others⟩ := List.forall_mem_cons.mp each
    cases parts with
    | nil => simpa [Text.join] using first
    | cons next parts =>
      rw [Text.join, String.intercalate_cons_cons, String.toList_append, String.toList_append]
      exact (first.append (TypeName.nested_of_free (by simp))).append (ih others)

theorem nested_renderArgs {args : List TypeRef} (each : ∀ arg ∈ args, IsLevel arg.render.toList) :
    Nested (renderArgs args).toList := by
  rw [renderArgs_eq]
  exact nested_join (List.forall_mem_map.mpr fun arg member => (each arg member).toNested)

/-! ### Constructs -/

/-- The text of a segment is level, and so are its type arguments. -/
structure TypeSegment.Level (segment : TypeSegment) : Prop where
  render : IsLevel segment.render.toList
  args : ∀ arg ∈ segment.args, IsLevel arg.render.toList

/-- The text of a type is level, and so are the type arguments of its last segment. -/
structure TypeRef.Level (type : TypeRef) : Prop where
  render : IsLevel type.render.toList
  args : ∀ arg ∈ type.typeArguments, IsLevel arg.render.toList

theorem TypeSegment.level_applied {name : String} {args : List TypeRef} (flat : IsFlat name.toList)
    (each : ∀ arg ∈ args, IsLevel arg.render.toList) : (TypeSegment.applied name args).Level := by
  refine ⟨?_, each⟩
  simp only [TypeSegment.render, String.toList_append]
  rw [List.append_assoc, List.append_assoc]
  exact flat.isLevel.append (nested_renderArgs each).bracketed

theorem calm_renderMore {segments : List TypeSegment} (each : ∀ segment ∈ segments, segment.Level) :
    Calm (renderMore segments).toList := by
  induction segments with
  | nil => exact .nil
  | cons segment segments ih =>
    obtain ⟨first, others⟩ := List.forall_mem_cons.mp each
    rw [renderMore, String.toList_append, String.toList_append]
    have point : Calm ".".toList := TypeName.calm_of_plain (List.all_eq_true.mp (by decide))
    exact (point.append first.render.toCalm).append (ih others)

namespace TypeRef

theorem isLevel_wildcard (annotations : List AnnotationUse) (dims : Nat) :
    IsLevel (wildcard annotations dims).render.toList := by
  simp only [render, String.toList_append]
  exact (TypeName.isFlat_of_all (by decide) (by decide)).isLevel.append (calm_brackets dims)

theorem isLevel_unfinished (annotations : List AnnotationUse) (bound : Bound) (dims : Nat) :
    IsLevel (unfinished annotations bound dims).render.toList :=
  isLevel_wildcard annotations dims

theorem isLevel_bounded {type : TypeRef} (level : IsLevel type.render.toList)
    (annotations : List AnnotationUse) (bound : Bound) (dims : Nat) :
    IsLevel (bounded annotations bound type dims).render.toList := by
  have keyword : Calm bound.keyword.toList := by
    cases bound <;> exact TypeName.calm_of_plain (List.all_eq_true.mp (by decide))
  have space : Calm " ".toList := ⟨TypeName.nested_of_free (by simp), by decide⟩
  have sign : IsLevel ['?'] := (TypeName.isFlat_of_all (by decide) (by decide)).isLevel
  have mark : IsLevel "? ".toList := sign.append space
  simp only [render, String.toList_append]
  exact (((mark.append keyword).append space).append level.toCalm).append (calm_brackets dims)

theorem isLevel_named {first : TypeSegment} {others : List TypeSegment}
    (each : ∀ segment ∈ first :: others, segment.Level) (annotations : List AnnotationUse) (dims : Nat) :
    IsLevel (named annotations first others dims).render.toList := by
  obtain ⟨level, more⟩ := List.forall_mem_cons.mp each
  simp only [render, String.toList_append]
  exact (level.render.append (calm_renderMore more)).append (calm_brackets dims)

/-- A reference whose names are identifiers is level. -/
theorem Worded.isLevel {type : TypeRef} (worded : type.Worded) : IsLevel type.render.toList := by
  refine TypeRef.holds (P := fun type => type.Worded → IsLevel type.render.toList)
    (Q := fun segment => segment.Worded → segment.Level) ?_ ?_ ?_ ?_ ?_ ?_ type worded
  · exact fun annotations dims _ => isLevel_wildcard annotations dims
  · exact fun annotations bound dims _ => isLevel_unfinished annotations bound dims
  · exact fun annotations bound type dims ih worded =>
      isLevel_bounded (ih (worded_bounded.mp worded)) annotations bound dims
  · intro annotations first others dims ihFirst ihOthers worded
    obtain ⟨ofFirst, ofOthers⟩ := List.forall_mem_cons.mp (worded_named.mp worded)
    exact isLevel_named (List.forall_mem_cons.mpr ⟨ihFirst ofFirst, fun segment member =>
      ihOthers segment member (ofOthers segment member)⟩) annotations dims
  · exact fun name worded => ⟨(isFlat_of_isIdentifier worded.name).isLevel, List.forall_mem_nil _⟩
  · exact fun name args ih worded => TypeSegment.level_applied (isFlat_of_isIdentifier worded.name)
      fun arg member => ih arg member (worded.args arg member)

end TypeRef

/-- A segment whose names are identifiers is level. -/
theorem TypeSegment.Worded.level {segment : TypeSegment} (worded : segment.Worded) : segment.Level := by
  have flat := isFlat_of_isIdentifier worded.name
  cases segment with
  | plain name => exact ⟨flat.isLevel, List.forall_mem_nil _⟩
  | applied name args =>
    exact TypeSegment.level_applied flat fun arg member => (worded.args arg member).isLevel

/-- The parameter types of a method and its result are level, and its name is flat. -/
structure MethodDecl.Level (m : MethodDecl) : Prop where
  name : IsFlat m.name.toList
  params : ∀ p ∈ m.params, IsLevel p.typeText.toList
  returns : IsLevel m.returnText.toList

/-- What is declared is level, if it is a method. -/
def MemberDecl.Level : MemberDecl → Prop
  | .method m => m.Level
  | _ => True

/-- The same for a member. -/
def Member.Level : Member → Prop
  | .empty _ => True
  | .declared _ _ decl => decl.Level

/-- The supertypes and the members of a type are level. -/
structure TypeSpec.Level (t : TypeSpec) : Prop where
  supertypes : ∀ ref ∈ t.supertypes, ref.Level
  members : ∀ member ∈ t.members, member.Level

/-- The names of the package and of the imports of a file are flat. -/
structure CompilationUnit.FlatNames (u : CompilationUnit) : Prop where
  package : ∀ name ∈ u.packageDecl, IsFlat name.render.toList
  imports : ∀ i ∈ u.imports, ∀ segment ∈ i.segments, IsFlat segment.toList

/-- The names of a file are flat, and its types are level. -/
structure CompilationUnit.Level (u : CompilationUnit) : Prop where
  package : ∀ name ∈ u.packageDecl, IsFlat name.render.toList
  imports : ∀ i ∈ u.imports, ∀ segment ∈ i.segments, IsFlat segment.toList
  types : ∀ decl ∈ u.types, decl.spec.Level

theorem CompilationUnit.Level.flatNames {u : CompilationUnit} (level : u.Level) : u.FlatNames :=
  ⟨level.package, level.imports⟩

/-- What is level of each construct. -/
def Symbol.Level : (s : Symbol) → s.Value → Prop
  | .compilationUnit, u => u.Level
  | .packageDecl, name => IsFlat name.render.toList
  | .importDecl, i => ∀ segment ∈ i.segments, IsFlat segment.toList
  | .typeDecl, decl => decl.spec.Level
  | .typeSpec, spec => spec.Level
  | .typeRef, type => type.Level
  | .typeSegment, segment => segment.Level
  | .typeArgs, args => ∀ arg ∈ args, arg.Level
  | .wildcard, bound => ∀ p ∈ bound, ∀ type ∈ p.2, type.Level
  | .parameterList, params => ∀ p ∈ params, IsLevel p.typeText.toList
  | .formalParameter, p => IsLevel p.typeText.toList
  | .classBody, members => ∀ member ∈ members, member.Level
  | .member, m => m.Level
  | .memberDecl, decl => decl.Level
  | .methodDecl, m => m.Level
  | _, _ => True

/-- A value of the rule whose parts are level. -/
abbrev LevelBy {α : Type} (rule : DeclRule α) (value : α) : Prop :=
  rule.Yields Symbol.Level FlatName value

theorem sym_level {s : Symbol} {value : s.Value} (level : LevelBy (DeclRule.sym s) value) :
    s.Level value := by
  simpa only [LevelBy, DeclRule.sym, Rule.Yields] using level

theorem group_yields {good : (s : Symbol) → s.Value → Prop} {fits : TokenKind → String → Prop}
    {α : Type} {rule : DeclRule α} {values : List α} {opening closing : String}
    (yields : (DeclRule.group opening closing rule).Yields good fits values) :
    ∀ value ∈ values, rule.Yields good fits value := by
  simp only [DeclRule.group, Rule.Yields] at yields
  obtain ⟨_, rfl, -, inner, -⟩ := yields
  exact inner.2

/-! ### Productions -/

theorem level_typeSegment {segment : TypeSegment} (level : LevelBy DeclRule.typeSegment segment) :
    segment.Level := by
  simp only [LevelBy, DeclRule.typeSegment, DeclRule.ident, DeclRule.sym, Rule.Yields] at level
  obtain ⟨⟨name, args⟩, rfl, isName, isArgs⟩ := level
  have flat : IsFlat name.toList := isName rfl
  cases args with
  | none => exact ⟨flat.isLevel, List.forall_mem_nil _⟩
  | some args =>
    have each : ∀ arg ∈ args, arg.Level := isArgs args rfl
    exact TypeSegment.level_applied flat fun arg member => (each arg member).render

theorem level_typeRef {type : TypeRef} (level : LevelBy DeclRule.typeRef type) : type.Level := by
  simp only [LevelBy, DeclRule.typeRef, DeclRule.typeCore, DeclRule.sym, Rule.Yields] at level
  obtain ⟨⟨annotations, (_ | ⟨bound, _ | type⟩) | ⟨first, others⟩, dims⟩, rfl, -, core, -⟩ := level
  · exact ⟨TypeRef.isLevel_wildcard annotations dims, List.forall_mem_nil _⟩
  · exact ⟨TypeRef.isLevel_unfinished annotations bound dims, List.forall_mem_nil _⟩
  · simp only [Choice.Yields, Rule.Yields] at core
    have inner : type.Level := core _ rfl _ rfl
    exact ⟨TypeRef.isLevel_bounded inner.render annotations bound dims, List.forall_mem_nil _⟩
  · simp only [Choice.Yields, Rule.Yields] at core
    obtain ⟨isFirst, -, isOthers⟩ := core
    have more : ∀ segment ∈ others, segment.Level := fun segment member =>
      sym_level (isOthers segment member).after
    have all : ∀ segment ∈ first :: others, segment.Level :=
      List.forall_mem_cons.mpr ⟨isFirst, more⟩
    refine ⟨TypeRef.isLevel_named all annotations dims, ?_⟩
    simp only [TypeRef.typeArguments, TypeRef.segments]
    split
    · exact List.forall_mem_nil _
    · next segment last => exact (all segment (List.mem_of_getLast? last)).args

theorem level_formalParameter {p : FormalParameter} (level : LevelBy DeclRule.formalParameter p) :
    IsLevel p.typeText.toList := by
  simp only [LevelBy, DeclRule.formalParameter, DeclRule.sym, Rule.Yields] at level
  obtain ⟨⟨modifiers, type, variadic, name, dims⟩, rfl, -, isType, -⟩ := level
  rw [FormalParameter.typeText, String.toList_append]
  exact (TypeRef.Level.render isType).append (calm_brackets dims)

theorem level_methodDecl {m : MethodDecl} (level : LevelBy DeclRule.methodDecl m) : m.Level := by
  simp only [LevelBy, DeclRule.methodDecl, DeclRule.ident, DeclRule.sym, Rule.Yields] at level
  obtain ⟨_, rfl, -, isReturned, isName, isParams, -⟩ := level
  refine ⟨isName rfl, isParams, ?_⟩
  rw [MethodDecl.returnText, String.toList_append]
  exact (TypeRef.Level.render isReturned).append (calm_brackets _)

theorem level_memberDecl {decl : MemberDecl} (level : LevelBy DeclRule.memberDecl decl) :
    decl.Level := by
  simp only [LevelBy, DeclRule.memberDecl, DeclRule.sym, Rule.Yields] at level
  obtain ⟨body | spec | m | constructor | field | constant, rfl, inner⟩ := level
  · trivial
  · trivial
  · simp only [Choice.Yields, Rule.Yields] at inner
    exact inner
  · trivial
  · trivial
  · trivial

theorem level_member {member : Member} (level : LevelBy DeclRule.member member) : member.Level := by
  simp only [LevelBy, DeclRule.member, DeclRule.sym, Rule.Yields] at level
  obtain ⟨⟨pos, ⟨⟩ | ⟨modifiers, decl⟩⟩, rfl, inner⟩ := level
  · trivial
  · simp only [Choice.Yields, Rule.Yields] at inner
    exact inner.2

theorem level_typeSpec {spec : TypeSpec} (level : LevelBy DeclRule.typeSpec spec) : spec.Level := by
  simp only [LevelBy, DeclRule.typeSpec, Rule.Yields] at level
  obtain ⟨_, rfl, -, -, -, -, isExtended, isImplemented, -, isBody⟩ := level
  refine ⟨List.forall_mem_append.mpr ⟨fun ref member => ?_, fun ref member => ?_⟩, sym_level isBody⟩
  · exact sym_level (isExtended.clause ref member)
  · exact sym_level (isImplemented.clause ref member)

theorem level_importDecl {i : ImportDecl} (level : LevelBy DeclRule.importDecl i) :
    ∀ segment ∈ i.segments, IsFlat segment.toList := by
  simp only [LevelBy, DeclRule.importDecl, DeclRule.ident, Rule.Yields] at level
  obtain ⟨⟨⟨⟩, isStatic, head, tail, ⟨⟩⟩, rfl, -, -, isHead, ⟨-, isTail⟩, -⟩ := level
  refine List.forall_mem_cons.mpr ⟨isHead rfl, List.forall_mem_map.mpr fun segment member => ?_⟩
  have level := (isTail segment member).after
  simp only [DeclRule.importSegment, DeclRule.ident, Rule.Yields] at level
  obtain ⟨name | ⟨⟩, rfl, inner⟩ := level
  · simp only [Choice.Yields, Rule.Yields] at inner
    exact inner rfl
  · have star : IsFlat "*".toList := TypeName.isFlat_of_all (by decide) (by decide)
    exact star

theorem level_packageDecl {name : DottedName} (level : LevelBy DeclRule.packageDecl name) :
    IsFlat name.render.toList := by
  simp only [LevelBy, DeclRule.packageDecl, DeclRule.ident, DeclRule.moreSegments, Rule.Yields] at level
  obtain ⟨⟨⟨⟩, head, tail, ⟨⟩⟩, rfl, -, isHead, ⟨-, isTail⟩, -⟩ := level
  refine isFlat_join (List.forall_mem_cons.mpr ⟨isHead rfl, fun segment member => ?_⟩)
    (List.cons_ne_nil _ _)
  have level := (isTail segment member).after
  simp only [Rule.Yields] at level
  exact level rfl

theorem level_compilationUnit {u : CompilationUnit} (level : LevelBy DeclRule.compilationUnit u) :
    u.Level := by
  simp only [LevelBy, DeclRule.compilationUnit, DeclRule.sym, Rule.Yields] at level
  obtain ⟨_, rfl, isPackage, ⟨-, isImports⟩, -, isItems⟩ := level
  refine ⟨isPackage, isImports, fun decl member => ?_⟩
  have level := isItems _ (mem_types_iff.mp member)
  simp only [DeclRule.topLevel, DeclRule.sym, Rule.Yields] at level
  obtain ⟨other | ⟨⟩, same, inner⟩ := level
  · cases same
    simp only [Choice.Yields, Rule.Yields] at inner
    exact inner
  · cases same

/-- **Every production** keeps types level. -/
theorem level_production (s : Symbol) (value : s.Value) (level : LevelBy (productions s) value) :
    s.Level value := by
  cases s with
  | compilationUnit => exact level_compilationUnit level
  | packageDecl => exact level_packageDecl level
  | importDecl => exact level_importDecl level
  | typeSpec => exact level_typeSpec level
  | typeRef => exact level_typeRef level
  | typeSegment => exact level_typeSegment level
  | formalParameter => exact level_formalParameter level
  | member => exact level_member level
  | memberDecl => exact level_memberDecl level
  | methodDecl => exact level_methodDecl level
  | typeArgs => exact fun arg member => sym_level ((Rule.Yields.enclosed level).2 arg member)
  | parameterList => exact fun p member => sym_level ((Rule.Yields.enclosed level).2 p member)
  | classBody => exact fun m member => sym_level (group_yields level m member)
  | typeDecl =>
    simp only [LevelBy, productions, DeclRule.typeDecl, DeclRule.sym, Rule.Yields] at level
    obtain ⟨_, rfl, -, isSpec⟩ := level
    exact isSpec
  | wildcard =>
    have inner := Rule.Yields.after level
    simp only [DeclRule.sym, Rule.Yields] at inner
    rintro ⟨bound, _⟩ rfl type rfl
    exact (inner bound type rfl).2
  | modifier | annotationUse | typeParam | arrayDim | constructorDecl | fieldDecl | enumConstant
  | block | tokenGroup | balanced | chunk => trivial

/-- **The types of a file that is read are level.** -/
theorem level_of_parse {text : String} {u : CompilationUnit} (parsed : parse text = .ok u) :
    u.Level := by
  obtain ⟨tokens, finish, lexed, spelled⟩ := spells_of_parse parsed
  exact Grammar.Language.Spells.holds level_production spelled (isFlat_of_lex lexed)

end Forwarder.Source
