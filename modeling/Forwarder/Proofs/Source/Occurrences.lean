/-
**The type references of a file.** All the references that a file holds, wherever they stand and however
deep, and what reading them off tokens makes sure of.

* `CompilationUnit.typeRefs` — the references of a file, those inside others included.
* `holds_production` — what holds of the references in the nonterminals of a production holds of those in
  what it reads, except for the reference that the production itself makes.
* `dims_of_reading_bounded` — a bounded wildcard is read without dimensions behind it, because its bound
  takes them.
* **`tidy_of_parse`** — the references of a file that is read are tidy.
-/

import Forwarder.Proofs.Grammar.Stepwise
import Forwarder.Proofs.Source.Levels
import Forwarder.Proofs.Source.References

namespace Forwarder.Source

open Grammar

/-! ### References in declarations -/

/-- The types in the signature of a method. -/
def MethodDecl.types (m : MethodDecl) : List TypeRef :=
  m.typeParams.flatMap TypeParam.bounds ++ [m.returns] ++ m.params.map FormalParameter.type ++ m.throws

/-- The types of parameters that may be missing. -/
def componentTypes (params : Option (List FormalParameter)) : List TypeRef :=
  (params.getD []).map FormalParameter.type

/-- The types in the signature of a constructor. -/
def ConstructorDecl.types (c : ConstructorDecl) : List TypeRef :=
  c.typeParams.flatMap TypeParam.bounds ++ componentTypes c.params ++ c.throws

/-- The types in the head of a type declaration. -/
def TypeHeader.types (h : TypeHeader) : List TypeRef :=
  h.typeParams.flatMap TypeParam.bounds ++ componentTypes h.components ++
    (h.extended ++ h.implemented ++ h.permitted)

mutual

/-- The types in a member. -/
def Member.types : Member → List TypeRef
  | .empty _ => []
  | .declared _ _ decl => decl.types

/-- The types in what a member declares. -/
def MemberDecl.types : MemberDecl → List TypeRef
  | .initializer _ => []
  | .type header members => header.types ++ membersTypes members
  | .method method => method.types
  | .constructor constructor => constructor.types
  | .field field => [field.type]
  | .enumConstant _ _ body _ => bodyTypes body

/-- The types in members. -/
def membersTypes : List Member → List TypeRef
  | [] => []
  | member :: others => member.types ++ membersTypes others

/-- The types in a body that may be missing. -/
def bodyTypes : Option (List Member) → List TypeRef
  | none => []
  | some members => membersTypes members

end

theorem membersTypes_eq (members : List Member) :
    membersTypes members = members.flatMap Member.types := by
  induction members with
  | nil => rfl
  | cons first others ih => rw [membersTypes, ih, List.flatMap_cons]

/-- The types in a type declaration, in its head and in its body. -/
def TypeSpec.types (t : TypeSpec) : List TypeRef :=
  t.header.types ++ membersTypes t.members

/-- **The references of a file**, those inside others included. -/
def CompilationUnit.typeRefs (u : CompilationUnit) : List TypeRef :=
  (u.types.flatMap fun decl => decl.spec.types).flatMap TypeRef.parts

/-- The types in a construct. -/
def Symbol.types : (s : Symbol) → s.Value → List TypeRef
  | .compilationUnit, u => u.types.flatMap fun decl => decl.spec.types
  | .typeDecl, decl => decl.spec.types
  | .typeSpec, spec => spec.types
  | .typeParam, p => p.bounds
  | .typeRef, type => [type]
  | .typeSegment, segment => segment.args
  | .typeArgs, args => args
  | .wildcard, bound => (bound.bind Prod.snd).toList
  | .parameterList, params => params.map FormalParameter.type
  | .formalParameter, p => [p.type]
  | .classBody, members => membersTypes members
  | .member, m => m.types
  | .memberDecl, decl => decl.types
  | .methodDecl, m => m.types
  | .constructorDecl, c => c.types
  | .fieldDecl, f => [f.type]
  | .enumConstant, (_, _, body, _) => bodyTypes body
  | _, _ => []

/-! ### What productions keep -/

/-- The types and all references inside them have the property. -/
def Everywhere (P : TypeRef → Prop) (types : List TypeRef) : Prop :=
  ∀ type ∈ types, ∀ part ∈ type.parts, P part

/-- The references in a construct have the property `P`, and the names of segments have `Q`. No more type
arguments stand together than can be read. -/
def Symbol.Holds (P : TypeRef → Prop) (Q : String → Prop) : (s : Symbol) → s.Value → Prop
  | .typeSegment, segment =>
    Q segment.name ∧ segment.args.length ≤ maxIterations ∧ Everywhere P segment.args
  | .typeArgs, args => args.length ≤ maxIterations ∧ Everywhere P args
  | s, value => Everywhere P (s.types value)

section Holds

variable {P : TypeRef → Prop} {Q : String → Prop} {fits : TokenKind → String → Prop}

/-- A value of the rule whose nonterminals have these properties. -/
abbrev HoldsBy (P : TypeRef → Prop) (Q : String → Prop) (fits : TokenKind → String → Prop) {α : Type}
    (rule : DeclRule α) (value : α) : Prop :=
  rule.Yields (Symbol.Holds P Q) fits value

theorem Everywhere.append {first second : List TypeRef} (one : Everywhere P first)
    (two : Everywhere P second) : Everywhere P (first ++ second) :=
  List.forall_mem_append.mpr ⟨one, two⟩

theorem everywhere_flatMap {α : Type} {types : α → List TypeRef} {items : List α}
    (each : ∀ item ∈ items, Everywhere P (types item)) : Everywhere P (items.flatMap types) :=
  List.forall_mem_flatMap.mpr each

theorem sym_holds {s : Symbol} {value : s.Value} (yields : HoldsBy P Q fits (DeclRule.sym s) value) :
    s.Holds P Q value := by
  simpa only [DeclRule.sym, Rule.Yields] using yields

theorem typeRef_everywhere {type : TypeRef} (holds : Symbol.Holds P Q .typeRef type) :
    ∀ part ∈ type.parts, P part :=
  List.forall_mem_singleton.mp holds

theorem typeParams_holds {params : List TypeParam}
    (yields : HoldsBy P Q fits DeclRule.typeParams params) :
    Everywhere P (params.flatMap TypeParam.bounds) :=
  everywhere_flatMap fun param member => sym_holds (Rule.Yields.bracketed yields param member)

theorem typeClause_holds {keyword mark : String} {types : List TypeRef}
    (yields : HoldsBy P Q fits (Rule.clause keyword mark (DeclRule.sym .typeRef)) types) :
    Everywhere P types :=
  fun type member => typeRef_everywhere (sym_holds (Rule.Yields.clause yields type member))

theorem componentTypes_holds {params : Option (List FormalParameter)}
    (each : ∀ inner ∈ params, HoldsBy P Q fits (DeclRule.sym .parameterList) inner) :
    Everywhere P (componentTypes params) := by
  cases params with
  | none => exact List.forall_mem_nil _
  | some params => exact sym_holds (each params rfl)

theorem methodDecl_holds {m : MethodDecl} (yields : HoldsBy P Q fits DeclRule.methodDecl m) :
    Everywhere P m.types := by
  simp only [HoldsBy, DeclRule.methodDecl, DeclRule.ident, Rule.Yields] at yields
  obtain ⟨_, rfl, isTypeParams, isReturns, -, isParams, -, isThrows, -⟩ := yields
  exact (((typeParams_holds isTypeParams).append (sym_holds isReturns)).append
    (sym_holds isParams)).append (typeClause_holds isThrows)

theorem constructorDecl_holds {c : ConstructorDecl}
    (yields : HoldsBy P Q fits DeclRule.constructorDecl c) : Everywhere P c.types := by
  simp only [HoldsBy, DeclRule.constructorDecl, DeclRule.ident, Rule.Yields] at yields
  obtain ⟨_, rfl, isTypeParams, -, isParams, isThrows, -⟩ := yields
  exact ((typeParams_holds isTypeParams).append (componentTypes_holds isParams)).append
    (typeClause_holds isThrows)

theorem typeSpec_holds {spec : TypeSpec} (yields : HoldsBy P Q fits DeclRule.typeSpec spec) :
    Everywhere P spec.types := by
  simp only [HoldsBy, DeclRule.typeSpec, DeclRule.ident, Rule.Yields] at yields
  obtain ⟨_, rfl, -, -, isTypeParams, isComponents, isExtended, isImplemented, isPermitted, isBody⟩ :=
    yields
  have head := (typeParams_holds isTypeParams).append (componentTypes_holds isComponents)
  have clauses := ((typeClause_holds isExtended).append (typeClause_holds isImplemented)).append
    (typeClause_holds isPermitted)
  exact (head.append clauses).append (sym_holds isBody)

theorem memberDecl_holds {decl : MemberDecl} (yields : HoldsBy P Q fits DeclRule.memberDecl decl) :
    Everywhere P decl.types := by
  simp only [HoldsBy, DeclRule.memberDecl, DeclRule.sym, Rule.Yields] at yields
  obtain ⟨body | spec | m | constructor | field | ⟨name, args, body, separator⟩, rfl, inner⟩ := yields
  · exact List.forall_mem_nil _
  all_goals
    simp only [Choice.Yields, Rule.Yields] at inner
    exact inner

theorem member_holds {member : Member} (yields : HoldsBy P Q fits DeclRule.member member) :
    Everywhere P member.types := by
  simp only [HoldsBy, DeclRule.member, DeclRule.sym, Rule.Yields] at yields
  obtain ⟨⟨pos, ⟨⟩ | ⟨modifiers, decl⟩⟩, rfl, inner⟩ := yields
  · exact List.forall_mem_nil _
  · simp only [Choice.Yields, Rule.Yields] at inner
    exact inner.2

theorem compilationUnit_holds {u : CompilationUnit}
    (yields : HoldsBy P Q fits DeclRule.compilationUnit u) :
    Everywhere P (u.types.flatMap fun decl => decl.spec.types) := by
  simp only [HoldsBy, DeclRule.compilationUnit, Rule.Yields] at yields
  obtain ⟨_, rfl, -, -, -, isItems⟩ := yields
  refine everywhere_flatMap fun decl member => ?_
  have yields := isItems _ (mem_types_iff.mp member)
  simp only [DeclRule.topLevel, DeclRule.sym, Rule.Yields] at yields
  obtain ⟨other | ⟨⟩, same, inner⟩ := yields
  · cases same
    simp only [Choice.Yields, Rule.Yields] at inner
    exact inner
  · cases same

theorem typeSegment_holds {segment : TypeSegment}
    (named : ∀ name, fits .identifier name → Q name)
    (yields : HoldsBy P Q fits DeclRule.typeSegment segment) :
    Symbol.Holds P Q .typeSegment segment := by
  simp only [HoldsBy, DeclRule.typeSegment, DeclRule.ident, DeclRule.sym, Rule.Yields] at yields
  obtain ⟨⟨name, _ | args⟩, rfl, isName, isArgs⟩ := yields
  · exact ⟨named name isName, Nat.zero_le _, List.forall_mem_nil _⟩
  · exact ⟨named name isName, isArgs args rfl⟩

theorem dims_lt {dims : Nat} (yields : HoldsBy P Q fits DeclRule.dims dims) : dims < maxIterations := by
  simp only [HoldsBy, DeclRule.dims, Rule.Yields] at yields
  obtain ⟨values, rfl, few, -⟩ := yields
  exact few

/-- The names in a reference have the property `Q`, its lists are short, and what is inside it has `P`. -/
theorem typeRef_holds {type : TypeRef} (yields : HoldsBy P Q fits DeclRule.typeRef type) :
    (∀ segment ∈ type.segments, Q segment.name) ∧ type.Short ∧ (P type → ∀ part ∈ type.parts, P part) := by
  simp only [HoldsBy, DeclRule.typeRef, DeclRule.typeCore, DeclRule.sym, Rule.Yields] at yields
  obtain ⟨⟨annotations, (_ | ⟨bound, _ | type⟩) | ⟨first, others⟩, dims⟩, rfl, -, core, isDims⟩ := yields
  · exact ⟨List.forall_mem_nil _, dims_lt isDims, List.forall_mem_singleton.mpr⟩
  · exact ⟨List.forall_mem_nil _, dims_lt isDims, List.forall_mem_singleton.mpr⟩
  · simp only [Choice.Yields, Rule.Yields] at core
    exact ⟨List.forall_mem_nil _, dims_lt isDims, fun whole =>
      forall_mem_parts_bounded.mpr ⟨whole, core type (List.mem_singleton_self type)⟩⟩
  · simp only [Choice.Yields, Rule.Yields] at core
    obtain ⟨isFirst, few, isOthers⟩ := core
    have each : ∀ segment ∈ first :: others, Symbol.Holds P Q .typeSegment segment :=
      List.forall_mem_cons.mpr ⟨isFirst, fun segment member =>
        sym_holds (isOthers segment member).after⟩
    exact ⟨fun segment member => (each segment member).1,
      ⟨few, dims_lt isDims, fun segment member => (each segment member).2.1⟩, fun whole =>
      forall_mem_parts_named.mpr ⟨whole, fun segment member => (each segment member).2.2⟩⟩

/-- **Productions make no reference but one.** What holds of the references in the nonterminals of a
production holds of those in its value, except that a reference itself has to be looked at. -/
theorem holds_production (named : ∀ name, fits .identifier name → Q name) (s : Symbol)
    (value : s.Value) (yields : HoldsBy P Q fits (productions s) value)
    (whole : ∀ type : TypeRef, (⟨s, value⟩ : (s : Symbol) × s.Value) = ⟨.typeRef, type⟩ →
      (∀ segment ∈ type.segments, Q segment.name) → type.Short → P type) : s.Holds P Q value := by
  cases s with
  | compilationUnit => exact compilationUnit_holds yields
  | typeSpec => exact typeSpec_holds yields
  | typeRef =>
    obtain ⟨names, short, inner⟩ := typeRef_holds yields
    exact List.forall_mem_singleton.mpr (inner (whole value rfl names short))
  | typeSegment => exact typeSegment_holds named yields
  | member => exact member_holds yields
  | memberDecl => exact memberDecl_holds yields
  | methodDecl => exact methodDecl_holds yields
  | constructorDecl => exact constructorDecl_holds yields
  | typeDecl =>
    simp only [HoldsBy, productions, DeclRule.typeDecl, DeclRule.sym, Rule.Yields] at yields
    obtain ⟨_, rfl, -, isSpec⟩ := yields
    exact isSpec
  | typeParam =>
    simp only [HoldsBy, productions, DeclRule.typeParam, DeclRule.ident, Rule.Yields] at yields
    obtain ⟨_, rfl, -, -, isBounds⟩ := yields
    exact typeClause_holds isBounds
  | wildcard =>
    have inner := Rule.Yields.after yields
    simp only [DeclRule.sym, Rule.Yields] at inner
    obtain _ | ⟨bound, _ | type⟩ := value
    · exact List.forall_mem_nil _
    · exact List.forall_mem_nil _
    · exact (inner bound type rfl).2
  | typeArgs =>
    obtain ⟨few, each⟩ := Rule.Yields.enclosed yields
    exact ⟨few, fun arg member => typeRef_everywhere (sym_holds (each arg member))⟩
  | parameterList =>
    refine List.forall_mem_map.mpr fun p member => ?_
    have holds : Symbol.Holds P Q .formalParameter p :=
      sym_holds ((Rule.Yields.enclosed yields).2 p member)
    exact List.forall_mem_singleton.mp holds
  | formalParameter =>
    simp only [HoldsBy, productions, DeclRule.formalParameter, DeclRule.sym, Rule.Yields] at yields
    obtain ⟨_, rfl, -, isType, -⟩ := yields
    exact isType
  | classBody =>
    show Everywhere P (membersTypes value)
    rw [membersTypes_eq]
    exact everywhere_flatMap fun m member => sym_holds (group_yields yields m member)
  | fieldDecl =>
    simp only [HoldsBy, productions, DeclRule.fieldDecl, DeclRule.sym, Rule.Yields] at yields
    obtain ⟨_, rfl, isType, -⟩ := yields
    exact isType
  | enumConstant =>
    simp only [HoldsBy, productions, DeclRule.enumConstant, DeclRule.sym, Rule.Yields] at yields
    obtain ⟨name, args, _ | body, separator⟩ := value
    · exact List.forall_mem_nil _
    · exact yields.2.2.1 body rfl
  | packageDecl | importDecl | modifier | annotationUse | arrayDim | block | tokenGroup | balanced
  | chunk => exact List.forall_mem_nil _

end Holds

/-! ### Dimensions of wildcards -/

section Dimensions

variable {finish : Position} {bound : Nat} {ts rest : List Token}

/-- A repetition stops where no further reading succeeds. -/
theorem not_matched_of_repeatedReading {α : Type} {step : List Token → Grammar.Reading α} {limit : Nat}
    {values : List α} (matched : repeatedReading step limit ts = .matched values rest) (value : α)
    (left : List Token) : step rest ≠ .matched value left := by
  induction limit generalizing ts values with
  | zero => cases matched
  | succ limit ih =>
    rw [repeatedReading] at matched
    split at matched
    · obtain ⟨others, -, more⟩ := Reading.map_eq_matched matched
      exact ih more
    · next stopped =>
      cases matched
      obtain rfl := Reading.optional_eq_none stopped
      intro one
      rw [one] at stopped
      cases stopped
    · cases matched
    · cases matched

theorem seq_eq_matched {α β : Type} {first : DeclRule α} {second : DeclRule β} {value : α × β}
    {symbol : (s : Symbol) → List Token → Grammar.Reading s.Value}
    (matched : (Rule.seq first second).reading symbol finish ts = .matched value rest) :
    ∃ middle, first.reading symbol finish ts = .matched value.1 middle ∧
      second.reading symbol finish middle = .matched value.2 rest := by
  rw [Rule.reading] at matched
  split at matched
  · cases matched
  · cases matched
  · next middle one =>
    split at matched
    · cases matched
    · cases matched
    · next two =>
      cases matched
      exact ⟨middle, one, two⟩

/-- Where both of two rules are kept, both are read. -/
theorem kept_eq_matched {α β : Type} {first : DeclRule α} {second : DeclRule β} {a : α} {b : β}
    {symbol : (s : Symbol) → List Token → Grammar.Reading s.Value}
    (matched : (Rule.kept first second).reading symbol finish ts = .matched (some (a, some b)) rest) :
    ∃ middle, second.reading symbol finish middle = .matched b rest := by
  rw [Rule.reading] at matched
  split at matched
  · cases matched
  · cases (givenUp_eq_matched matched).1
  · split at matched
    · cases (givenUp_eq_matched matched).1
    · cases (givenUp_eq_matched matched).1
    · next middle _ _ _ two =>
      cases matched
      exact ⟨_, two⟩

/-- Array dimensions are read as far as there are any. -/
theorem not_dim_of_dims {dims : Nat}
    (matched : DeclRule.dims.reading (declarations.reading finish (bound + 1)) finish ts =
      .matched dims rest) (value : Unit) (left : List Token) :
    declarations.reading finish (bound + 1) .arrayDim rest ≠ .matched value left := by
  simp only [DeclRule.dims, Rule.reading] at matched
  obtain ⟨values, -, repeated⟩ := Reading.map_eq_matched matched
  exact not_matched_of_repeatedReading repeated value left

/-- Where no dimension stands, none is counted. -/
theorem dims_eq_zero {dims : Nat}
    (matched : DeclRule.dims.reading (declarations.reading finish bound) finish ts =
      .matched dims rest)
    (none_ : ∀ value left, declarations.reading finish bound .arrayDim ts ≠ .matched value left) :
    dims = 0 := by
  simp only [DeclRule.dims, Rule.reading] at matched
  obtain ⟨values, rfl, repeated⟩ := Reading.map_eq_matched matched
  cases values with
  | nil => rfl
  | cons value values =>
    obtain ⟨less, middle, one, -⟩ := repeatedReading_eq_cons repeated
    exact absurd one (none_ value middle)

/-- What a reference names is read, and behind it its dimensions. -/
theorem typeRef_eq_matched {type : TypeRef}
    (matched : declarations.reading finish bound .typeRef ts = .matched type rest) :
    ∃ less start middle core, bound = less + 2 ∧
      DeclRule.typeCore.reading (declarations.reading finish (less + 1)) finish start =
        .matched core middle ∧
      DeclRule.dims.reading (declarations.reading finish (less + 1)) finish middle =
        .matched type.dims rest ∧
      ∀ annotations direction inner dims, type = .bounded annotations direction inner dims →
        core = .inl (some (direction, some inner)) := by
  cases bound with
  | zero => cases matched
  | succ bound =>
    rw [Language.reading] at matched
    obtain ⟨⟨annotations, core, dims⟩, same, whole⟩ := Reading.map_eq_matched matched
    obtain ⟨start, -, two⟩ := seq_eq_matched whole
    obtain ⟨middle, isCore, isDims⟩ := seq_eq_matched two
    cases bound with
    | zero => cases isCore
    | succ less =>
      refine ⟨less, start, middle, core, rfl, isCore, ?_, ?_⟩
      · obtain (_ | ⟨_, _ | _⟩) | ⟨_, _⟩ := core <;> rwa [same]
      · rintro _ direction inner _ rfl
        obtain (_ | ⟨_, _ | _⟩) | ⟨_, _⟩ := core <;> cases same
        rfl

/-- **A bounded wildcard is read without dimensions**: those behind it are read as its bound's. -/
theorem dims_of_reading_bounded {annotations : List AnnotationUse} {direction : Bound}
    {type : TypeRef} {dims : Nat}
    (matched : declarations.reading finish bound .typeRef ts =
      .matched (.bounded annotations direction type dims) rest) : dims = 0 := by
  obtain ⟨less, start, middle, core, rfl, isCore, isDims, isBounded⟩ := typeRef_eq_matched matched
  obtain rfl := isBounded _ _ _ _ rfl
  have wildcard : declarations.reading finish (less + 1) .wildcard start =
      .matched (some (direction, some type)) middle := by
    simp only [DeclRule.typeCore, Rule.reading, Choice.reading] at isCore
    split at isCore
    · next value rest one =>
      cases isCore
      exact one
    · obtain ⟨_, impossible, -⟩ := Reading.map_eq_matched isCore
      cases impossible
    · split at isCore
      · cases isCore
      · obtain ⟨_, impossible, -⟩ := Reading.map_eq_matched isCore
        cases impossible
  rw [Language.reading] at wildcard
  obtain ⟨⟨⟨⟩, behind⟩, rfl, marked⟩ := Reading.map_eq_matched wildcard
  obtain ⟨_, -, bounded⟩ := seq_eq_matched marked
  obtain ⟨_, inner⟩ := kept_eq_matched bounded
  obtain ⟨depth, _, _, _, rfl, -, innerDims, -⟩ := typeRef_eq_matched inner
  exact dims_eq_zero isDims (not_dim_of_dims innerDims)

end Dimensions

/-! ### References that are read -/

/-- **The references of a file that is read are tidy.** -/
theorem tidy_of_parse {text : String} {u : CompilationUnit} (parsed : parse text = .ok u) :
    ∀ ref ∈ u.typeRefs, ref.Tidy := by
  obtain ⟨tokens, finish, lexed, read⟩ := parse_eq_ok parsed
  have named : ∀ name, Identified .identifier name → isIdentifier name = true := fun _ fits => fits rfl
  have names : Symbol.Holds (fun ref => (∀ segment ∈ ref.segments, isIdentifier segment.name = true) ∧ ref.Short)
      (fun name => isIdentifier name = true) .compilationUnit u := by
    refine (Language.spells_of_read read).holds (fun s value yields => ?_) (identified_of_lex lexed)
    exact holds_production named s value yields fun _ _ each short => ⟨each, short⟩
  have dims : Symbol.Holds TypeRef.Undimensioned (fun _ => True) .compilationUnit u := by
    refine Language.holds_of_reading (fun bound s ts value rest matched yields => ?_) _ _ _ _ _
      ((declarations.read_eq_ok_iff _ _ _ _).mp read)
    refine holds_production (fun _ _ => trivial) s value yields ?_
    rintro type ⟨⟩ - - _ _ _ _ rfl
    exact dims_of_reading_bounded matched
  intro ref within
  obtain ⟨type, member, isPart⟩ := List.mem_flatMap.mp within
  have tidy : type.Tidy := fun part inner =>
    ⟨(names type member part inner).1, (names type member part inner).2, dims type member part inner⟩
  exact tidy.part isPart

end Forwarder.Source
