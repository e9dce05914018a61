/-
**Reading generated files.** The tokens of a generated file are read as the declarations it was
generated from: nothing is taken for another kind of member, and no type for another type.

* `MethodDef.Matches`, `FieldDef.Matches`, … — a declaration that was read is the generated one.
* `reads_block`, `reads_params`, … — the parts of a declaration.
* `FieldDef.reads`, `ConstructorDef.reads`, `MethodDef.reads` — the members of a class.
* **`CompilationUnit.parse_render`** — the text of a sound file is accepted, and read as that file, if it has
  fewer tokens than a rule can be repeated.
-/

import Forwarder.Proofs.Emit.Tokens

namespace Forwarder.Emit

open Grammar Source

section Groups

variable {finish : Position} {bound : Nat} {after : List Shape} {shape : Shape}

/-! ### Bodies -/

theorem refused_tokenGroup (other : shape.2 ≠ "(") :
    Refused (declarations.reading finish bound .tokenGroup) (shape :: after) := by
  refine symbol_refused Glimpse.fits_exactly 1 ?_
  show ((View.refusedIf !(shape.2 == "(")).before _ == View.refuses) = true
  rw [beq_eq_false_iff_ne.mpr other]
  rfl

theorem refused_block (other : shape.2 ≠ "\x7b") :
    Refused (declarations.reading finish bound .block) (shape :: after) := by
  refine symbol_refused Glimpse.fits_exactly 1 ?_
  show ((View.refusedIf !(shape.2 == "\x7b")).before _ == View.refuses) = true
  rw [beq_eq_false_iff_ne.mpr other]
  rfl

/-- A token or a group of tokens can be read as one, whatever follows, if these are fewer tokens than a
rule can be repeated. -/
def Balances (finish : Position) (item : List Shape) : Prop :=
  item ≠ [] ∧ ∀ bound following, 2 * item.length ≤ bound + 1 → item.length < maxIterations →
    Reads (declarations.reading finish bound .balanced) item following fun _ => True

theorem balances_token (free : shape.2 ∉ groupMarks) : Balances finish [shape] := by
  refine ⟨List.cons_ne_nil _ _, fun bound following enough _ => ?_⟩
  rw [List.length_singleton] at enough
  obtain ⟨bound, rfl⟩ : ∃ less, bound = less + 1 := ⟨bound - 1, by omega⟩
  have notParens : shape.2 ≠ "(" := fun same => free (same ▸ by decide)
  have notBraces : shape.2 ≠ "\x7b" := fun same => free (same ▸ by decide)
  have token : Reads ((Rule.other ["(", ")", "\x7b", "\x7d"] : DeclRule String).reading
      (declarations.reading finish bound) finish) [shape] following (· = shape.2) :=
    Reads.other free
  exact (Reads.later (refused_tokenGroup notParens).call.declines
    (Reads.later (refused_block notBraces).call.declines token.last) false).choice.shaped
      fun _ _ => trivial

/-- Groups of tokens up to a closing mark. -/
theorem reads_items {items : List (List Shape)} {closing : Shape}
    (each : ∀ item ∈ items, Balances finish item)
    (enough : 2 * items.flatten.length ≤ bound + 1) (few : items.flatten.length < maxIterations)
    (refused : Refused (declarations.reading finish bound .balanced) (closing :: after)) :
    Reads ((Rule.many (DeclRule.sym .balanced)).reading (declarations.reading finish bound) finish)
      items.flatten (closing :: after) fun _ => True := by
  have read : ∀ item ∈ items, ∀ following, True →
      Reads ((DeclRule.sym .balanced).reading (declarations.reading finish bound) finish) (id item)
        following fun _ => True := by
    intro item member following _
    have within := (List.sublist_flatten_of_mem member).length_le
    exact ((each item member).2 bound following (by omega) (by omega)).call
  have count : items.length ≤ (items.flatMap id).length :=
    count_le_flatMap fun item member => (each item member).1
  rw [List.flatMap_id] at count
  have all := Reads.many (fun _ => True) (fun _ _ => True) items read (fun _ _ _ => trivial) trivial
    refused.call.declines (by omega)
  rw [List.flatMap_id] at all
  exact Reads.imp all fun _ _ => trivial

/-- Nested tokens are a sequence of tokens and groups. -/
theorem Nested.items (finish : Position) {shapes : List Shape} (nested : Nested shapes) :
    ∃ items : List (List Shape), items.flatten = shapes ∧ ∀ item ∈ items, Balances finish item := by
  induction nested with
  | nil => exact ⟨[], rfl, List.forall_mem_nil _⟩
  | @token shape others free _ ih =>
    obtain ⟨items, rfl, each⟩ := ih
    exact ⟨[shape] :: items, rfl, List.forall_mem_cons.mpr ⟨balances_token free, each⟩⟩
  | @parens inner others _ _ ihInner ih =>
    obtain ⟨innerItems, rfl, innerEach⟩ := ihInner
    obtain ⟨items, rfl, each⟩ := ih
    refine ⟨(Shape.mark "(" :: innerItems.flatten ++ [Shape.mark ")"]) :: items, by simp, ?_⟩
    refine List.forall_mem_cons.mpr ⟨⟨List.cons_ne_nil _ _, fun bound following enough few => ?_⟩,
      each⟩
    have length : (Shape.mark "(" :: innerItems.flatten ++ [Shape.mark ")"]).length =
        innerItems.flatten.length + 2 := by simp
    obtain ⟨bound, rfl⟩ : ∃ less, bound = less + 2 := ⟨bound - 2, by omega⟩
    have inside : Reads ((Rule.many (DeclRule.sym .balanced)).reading
        (declarations.reading finish bound) finish) innerItems.flatten
        (Shape.mark ")" :: following) fun _ => True :=
      reads_items innerEach (by omega) (by omega) (symbol_refused Glimpse.fits_exactly 3 (by decide))
    have group : Reads ((DeclRule.sym .tokenGroup).reading (declarations.reading finish (bound + 1))
        finish) ([Shape.mark "("] ++ (innerItems.flatten ++ [Shape.mark ")"])) following
        fun _ => True :=
      (Reads.word.seq (inside.seq Reads.word)).shaped fun _ _ => trivial
    exact (group.here false).choice.shaped fun _ _ => trivial

/-- **The body of a declaration.** -/
theorem reads_block {body : List Statement} (sound : ∀ statement ∈ body, statement.Sound)
    (enough : 2 * (bodyShapes body).length ≤ bound)
    (few : (bodyShapes body).length < maxIterations) :
    Reads (declarations.reading finish bound .block) (bodyShapes body) after fun _ => True := by
  have nested : Nested (body.flatMap Statement.shapes) :=
    .flatMap fun statement member => Statement.nested (sound statement member)
  obtain ⟨items, flat, each⟩ := nested.items finish
  rw [bodyShapes, List.length_append, List.length_cons] at enough few
  obtain ⟨bound, rfl⟩ : ∃ less, bound = less + 1 := ⟨bound - 1, by omega⟩
  have inside : Reads ((Rule.many (DeclRule.sym .balanced)).reading
      (declarations.reading finish bound) finish) (body.flatMap Statement.shapes)
      (Shape.mark "\x7d" :: after) fun _ => True := by
    rw [← flat] at enough few ⊢
    exact reads_items each (by omega) (by omega) (symbol_refused Glimpse.fits_exactly 3 (by decide))
  have group : Reads (DeclRule.block.reading (declarations.reading finish bound) finish)
      ([Shape.mark "\x7b"] ++ (body.flatMap Statement.shapes ++ [Shape.mark "\x7d"])) after
      fun _ => True :=
    (Reads.word.seq (inside.seq Reads.word)).shaped fun _ _ => trivial
  exact group

end Groups

/-! ### Parts of signatures -/

/-- The parameter is the generated one. -/
def Param.Matches (p : Param) (v : FormalParameter) : Prop :=
  v.modifiers = [] ∧ v.typeText = p.type ∧ v.name = p.name ∧ v.variadic = p.variadic

/-- The modifiers are keywords with these texts. -/
def modifiersMatch (modifiers : List String) (read : List Modifier) : Prop :=
  List.Forall₂ (fun text modifier => ∃ k : Keyword, modifier = .keyword k ∧ k.text = text) modifiers
    read

theorem map_eq_of_forall₂ {α : Type} {render : α → String} {texts : List String} {values : List α}
    (same : List.Forall₂ (fun text value => render value = text) texts values) :
    values.map render = texts := by
  induction same with
  | nil => rfl
  | cons first _ ih => rw [List.map_cons, first, ih]

theorem shapes_cases {text : String} (isType : IsType text) :
    (∃ others, shapesOf text = Shape.mark "?" :: others) ∨
      ∃ name others, shapesOf text = Shape.word name :: others ∧
        (others = [] ∨ ∃ mark more, others = mark :: more ∧ mark ∈ innerMarks) := by
  obtain ⟨type, clean, rfl⟩ := isType
  rw [shapesOf_eq (type.spelt clean)]
  exact type.shapes_cases clean

section Parts

variable {finish : Position} {bound : Nat} {after : List Shape}

/-- What may follow a parameter. -/
def EndsParameter (after : List Shape) : Prop :=
  ∃ shape others, after = shape :: others ∧ shape ∈ [Shape.mark ",", Shape.mark ")"]

theorem two_le_paramShapes (params : List Param) : 2 ≤ (paramShapes params).length := by
  simp

theorem Param.reads {p : Param} (sound : p.Sound) (ends : EndsParameter after)
    (enough : 3 * p.shapes.length ≤ bound) (few : p.shapes.length < maxIterations) :
    Reads (declarations.reading finish bound .formalParameter) p.shapes after p.Matches := by
  obtain ⟨isType, isWord⟩ := sound
  have length : p.shapes.length = (shapesOf p.type).length +
      ((if p.variadic then [Shape.ellipsis] else []) ++ [Shape.word p.name]).length := by
    rw [Param.shapes, List.length_append]
  have some_ : 0 < ((if p.variadic then [Shape.ellipsis] else []) ++ [Shape.word p.name]).length := by
    rw [List.length_append]
    exact Nat.lt_of_lt_of_le Nat.zero_lt_one (Nat.le_add_left _ _)
  obtain ⟨bound, rfl⟩ : ∃ less, bound = less + 2 := ⟨bound - 2, by omega⟩
  have stops : NotAhead "[" after ∧ EndsType (Shape.word p.name :: after) := by
    obtain ⟨shape, others, rfl, isStop⟩ := ends
    simp only [List.mem_cons, List.not_mem_nil, or_false] at isStop
    rcases isStop with rfl | rfl <;>
      exact ⟨⟨_, _, rfl, by decide⟩, .name isWord (by decide)⟩
  have modifiers : Reads ((Rule.many (DeclRule.sym .modifier)).reading
      (declarations.reading finish (bound + 1)) finish) [] (p.shapes ++ after) (· = []) :=
    Reads.none_ (((startsType_type isType).append _).append _ |>.refused 2 (by decide)).call.declines
  have name : Reads (DeclRule.ident.reading (declarations.reading finish (bound + 1)) finish)
      [Shape.word p.name] (dimShapes 0 ++ after) (· = p.name) := Reads.token
  have dims : Reads (DeclRule.dims.reading (declarations.reading finish (bound + 1)) finish)
      (dimShapes 0) after (· = 0) := reads_dims stops.1 maxIterations_pos
  have variadic : Reads ((DeclRule.flag (Rule.word "...")).reading
      (declarations.reading finish (bound + 1)) finish) (if p.variadic then [Shape.ellipsis] else [])
      (([Shape.word p.name] ++ dimShapes 0) ++ after) (· = p.variadic) := by
    cases p.variadic with
    | true => exact (Reads.present Reads.word).shaped (by rintro _ ⟨_, rfl, _⟩; rfl)
    | false =>
      have other : (Shape.word p.name).2 ≠ "..." := ne_of_isName isWord (by decide)
      exact (Reads.missing (Refused.word other).declines).shaped (by rintro _ rfl; rfl)
  have type : Reads ((DeclRule.sym .typeRef).reading (declarations.reading finish (bound + 1)) finish)
      (shapesOf p.type) (((if p.variadic then [Shape.ellipsis] else []) ++
        ([Shape.word p.name] ++ dimShapes 0)) ++ after) fun value => value.render = p.type := by
    refine (reads_type isType ?_ (by omega) (by omega)).call
    cases p.variadic with
    | true => exact .mark (by decide)
    | false => exact stops.2
  refine (modifiers.seq (type.seq (variadic.seq (name.seq dims)))).shaped ?_
  rintro ⟨_, _, _, _, _⟩ ⟨rfl, same, rfl, rfl, rfl⟩
  exact ⟨rfl, by rw [FormalParameter.typeText, same]; exact String.append_empty, rfl, rfl⟩

theorem reads_params {params : List Param} (sound : ∀ p ∈ params, p.Sound)
    (enough : 3 * (paramShapes params).length ≤ bound)
    (few : (paramShapes params).length < maxIterations) :
    Reads (declarations.reading finish bound .parameterList) (paramShapes params) after
      (List.Forall₂ Param.Matches params) := by
  have length : (paramShapes params).length =
      (separatedShapes (Shape.mark ",") Param.shapes params).length + 2 := by simp
  have count := count_le_separatedShapes (Shape.mark ",") Param.shapes params
  obtain ⟨bound, rfl⟩ : ∃ less, bound = less + 1 := ⟨bound - 1, by omega⟩
  refine Reads.enclosed EndsParameter (by decide) ?_ (fun _ => ⟨_, _, rfl, by decide⟩)
    (fun _ => ⟨_, _, rfl, by decide⟩) (symbol_refused Glimpse.fits_exactly 4 (by decide)).call
    (by omega)
  intro p member following ends
  have shorter := length_le_separatedShapes (Shape.mark ",") Param.shapes member
  exact (Param.reads (sound p member) ends (by omega) (by omega)).call

theorem reads_typeParams {params : List String} (sound : ∀ param ∈ params, IsParam param)
    (enough : 3 * (typeParamShapes params).length ≤ bound)
    (few : (typeParamShapes params).length < maxIterations) (ends : NotAhead "<" after) :
    Reads (DeclRule.typeParams.reading (declarations.reading finish bound) finish)
      (typeParamShapes params) after fun values => values.map (·.render) = params := by
  have read : Reads (DeclRule.typeParams.reading (declarations.reading finish bound) finish)
      (typeParamShapes params) after
      (List.Forall₂ (fun text (value : TypeParam) => value.render = text) params) := by
    have count : params.length ≤ (typeParamShapes params).length :=
      count_le_bracketedShapes (Shape.mark "<") (Shape.mark ">") shapesOf params
    refine Reads.bracketed EndsParam (by decide) ?_ (fun _ => ⟨_, _, rfl, by decide⟩)
      (fun _ => ⟨_, _, rfl, by decide⟩) ends.refused_word (by omega)
    intro param member following ends
    have shorter : (shapesOf param).length < (typeParamShapes params).length :=
      length_le_bracketedShapes (Shape.mark "<") (Shape.mark ">") shapesOf member
    exact (reads_param (sound param member) ends (by omega) (by omega)).call
  exact read.imp fun values same => map_eq_of_forall₂ same

theorem reads_noTypeParams (starts : StartsType after) :
    Reads (DeclRule.typeParams.reading (declarations.reading finish bound) finish) [] after
      (· = []) :=
  (reads_typeParams (List.forall_mem_nil _) (Nat.zero_le _) maxIterations_pos
    (starts.notAhead (by decide) (by decide))).imp fun _ none_ => List.map_eq_nil_iff.mp none_

theorem reads_types {keyword : String} {types : List String} (sound : ∀ type ∈ types, IsType type)
    (enough : 3 * (typesShapes keyword types).length ≤ bound)
    (few : (typesShapes keyword types).length < maxIterations) (ends : NotAhead keyword after)
    (comma : NotAhead "," after) (endsType : EndsType after) :
    Reads ((DeclRule.typeClause keyword).reading (declarations.reading finish bound) finish)
      (typesShapes keyword types) after fun values => values.map (·.render) = types := by
  have read : Reads ((DeclRule.typeClause keyword).reading (declarations.reading finish bound)
      finish) (typesShapes keyword types) after
      (List.Forall₂ (fun text (value : TypeRef) => value.render = text) types) := by
    have count : types.length ≤ (typesShapes keyword types).length :=
      count_le_clauseShapes (Shape.word keyword) (Shape.mark ",") shapesOf types
    refine Reads.clause EndsType ?_ (fun _ => .mark (by decide)) endsType ends.refused_word
      comma.refused_behind (by omega)
    intro type member following ends
    have shorter : (shapesOf type).length < (typesShapes keyword types).length :=
      length_le_clauseShapes (Shape.word keyword) (Shape.mark ",") shapesOf member
    exact (reads_type (sound type member) ends (by omega) (by omega)).call
  exact read.imp fun values same => map_eq_of_forall₂ same

/-- What the declaration of a member may start with, after its modifiers. -/
def memberStarts : List Glimpse :=
  typeStarts ++ [.exactly (Shape.mark "<")]

/-- The first token may start a member. -/
abbrev StartsMember : List Shape → Prop :=
  StartsIn memberStarts

theorem startsMember_of_startsType {shapes : List Shape} (starts : StartsType shapes) :
    StartsMember shapes := by
  obtain ⟨shape, others, glimpse, same, isStart, fits⟩ := starts
  exact ⟨shape, others, glimpse, same, List.mem_append_left _ isStart, fits⟩

theorem startsMember_typeParams {params : List String} {others : List Shape}
    (starts : StartsType others) : StartsMember (typeParamShapes params ++ others) := by
  cases params with
  | nil => exact startsMember_of_startsType starts
  | cons first more => exact ⟨_, _, .exactly (Shape.mark "<"), rfl, by decide, rfl⟩

theorem find_keyword {text : String} (isKeyword : text ∈ Keyword.all.map Keyword.text) :
    ∃ k, Keyword.all.find? (·.text == text) = some k ∧ k.text = text := by
  cases found : Keyword.all.find? (·.text == text) with
  | none =>
    obtain ⟨k, member, same⟩ := List.mem_map.mp isKeyword
    have other := List.find?_eq_none.mp found k member
    rw [same] at other
    simp at other
  | some k =>
    have same := List.find?_some found
    exact ⟨k, rfl, beq_iff_eq.mp same⟩

/-- The modifiers in front of a declaration. -/
theorem reads_modifiers {modifiers : List String} (sound : areModifiers modifiers)
    (few : modifiers.length < maxIterations)
    (refused : Refused (declarations.reading finish (bound + 1) .modifier) after) :
    Reads ((Rule.many (DeclRule.sym .modifier)).reading (declarations.reading finish (bound + 1))
      finish) (modifiers.map Shape.word) after (modifiersMatch modifiers) := by
  have each : ∀ text ∈ modifiers, ∀ following, True →
      Reads ((DeclRule.sym .modifier).reading (declarations.reading finish (bound + 1)) finish)
        [Shape.word text] following fun modifier =>
          ∃ k : Keyword, modifier = .keyword k ∧ k.text = text := by
    intro text member following _
    have isKeyword := sound text member
    obtain ⟨k, found, same⟩ := find_keyword isKeyword
    have notAnnotation : Refused ((DeclRule.sym .annotationUse).reading
        (declarations.reading finish bound) finish) ([Shape.word text] ++ following) := by
      refine (symbol_refused Glimpse.fits_exactly 1 ?_).call
      have all : (Keyword.all.map Keyword.text).all (fun text =>
          declarations.refuses (.exactly (Shape.word text)) 1 .annotationUse) = true := by decide
      exact List.all_eq_true.mp all text isKeyword
    have picked : Reads ((Rule.pick Keyword.all Keyword.text : DeclRule Keyword).reading
        (declarations.reading finish bound) finish) [Shape.word text] following (· = k) :=
      Reads.pick found
    refine (Reads.later notAnnotation.declines picked.here false).choice.shaped ?_
    rintro _ ⟨_, rfl, _, rfl, rfl⟩
    exact ⟨_, rfl, same⟩
  have all := Reads.many (fun _ => True) _ modifiers each (fun _ _ _ => trivial) trivial
    refused.call.declines few
  rw [← List.map_eq_flatMap] at all
  exact all

/-- A member with its modifiers. -/
theorem reads_member {modifiers : List String} {shapes : List Shape} {holds : MemberDecl → Prop}
    (sound : areModifiers modifiers) (few : modifiers.length < maxIterations)
    (starts : StartsMember (shapes ++ after))
    (decl : Reads (declarations.reading finish (bound + 1) .memberDecl) shapes after holds) :
    Reads (declarations.reading finish (bound + 2) .member) (modifiers.map Shape.word ++ shapes)
      after fun v => ∃ pos read decl, v = .declared pos read decl ∧ modifiersMatch modifiers read ∧
        holds decl := by
  have notEmpty : NotAhead ";" ((modifiers.map Shape.word ++ shapes) ++ after) := by
    cases modifiers with
    | nil => exact starts.notAhead (by decide) (by decide)
    | cons first others =>
      have isWord := isName_of_keyword (sound first List.mem_cons_self)
      exact ⟨_, _, rfl, ne_of_isName isWord (by decide)⟩
  have refused : Refused (declarations.reading finish (bound + 1) .modifier) (shapes ++ after) :=
    starts.refused 2 (by decide)
  have front := reads_modifiers sound few refused
  have whole := (Reads.later notEmpty.refused_word.declines (front.seq decl.call).last false).choice
  refine whole.located.shaped ?_
  rintro ⟨pos, _⟩ ⟨⟨read, decl⟩, rfl, same, good⟩
  exact ⟨pos, read, decl, rfl, same, good⟩

/-- What a member may declare that is no block and no type. -/
abbrev PlainMember :=
  MethodDecl ⊕ ConstructorDecl ⊕ FieldDecl ⊕ Symbol.Value .enumConstant

/-- The alternatives for such a member. -/
def plainMembers : Choice Symbol.Value PlainMember :=
  .or (DeclRule.sym .methodDecl) (.or (DeclRule.sym .constructorDecl)
    (.or (DeclRule.sym .fieldDecl) (.last (DeclRule.sym .enumConstant))))

/-- The declaration of such a member. -/
def plainMember : PlainMember → MemberDecl
  | .inl method => .method method
  | .inr (.inl constructor) => .constructor constructor
  | .inr (.inr (.inl field)) => .field field
  | .inr (.inr (.inr (name, args, body, separator))) => .enumConstant name args body separator

/-- A member that begins with a type or type parameters is no block and no type. -/
theorem reads_memberDecl {shapes : List Shape} {holds : PlainMember → Prop}
    (starts : StartsMember (shapes ++ after))
    (plain : ∀ blamed, Reads (plainMembers.reading (declarations.reading finish bound) finish blamed)
      shapes after holds) :
    Reads (declarations.reading finish (bound + 1) .memberDecl) shapes after
      fun decl => ∃ inner, decl = plainMember inner ∧ holds inner := by
  have noBlock : Refused ((DeclRule.sym .block).reading (declarations.reading finish bound) finish)
      (shapes ++ after) := (starts.refused 1 (by decide)).call
  have noType : Refused ((DeclRule.sym .typeSpec).reading (declarations.reading finish bound) finish)
      (shapes ++ after) := (starts.refused 1 (by decide)).call
  refine (Reads.later noBlock.declines (Reads.later noType.declines plain) false).choice.shaped ?_
  rintro _ ⟨_, rfl, inner, rfl, good⟩
  refine ⟨inner, ?_, good⟩
  rcases inner with method | constructor | field | ⟨name, args, body, separator⟩ <;> rfl

/-- The method is the generated one, in everything but the tokens of its body. -/
structure MethodDef.Signature (m : MethodDef) (v : MethodDecl) : Prop where
  typeParams : v.typeParams.map (·.render) = m.typeParams
  returns : v.returnText = m.returns
  name : v.name = m.name
  params : List.Forall₂ Param.Matches m.params v.params
  throws : v.throws.map (·.render) = m.throws
  body : v.body.isSome = true

/-- The tokens of a method after its modifiers. -/
def MethodDef.declShapes (m : MethodDef) : List Shape :=
  typeParamShapes m.typeParams ++ (shapesOf m.returns ++ ([Shape.word m.name] ++
    (paramShapes m.params ++ (typesShapes "throws" m.throws ++ bodyShapes m.body))))

theorem MethodDef.length_declShapes (m : MethodDef) : m.declShapes.length =
    (typeParamShapes m.typeParams).length + (shapesOf m.returns).length + 1 +
      (paramShapes m.params).length + (typesShapes "throws" m.throws).length +
      (bodyShapes m.body).length := by
  simp only [MethodDef.declShapes, List.length_append, List.length_cons, List.length_nil]
  omega

theorem MethodDef.startsMember {m : MethodDef} (sound : m.Sound) : StartsMember m.declShapes :=
  startsMember_typeParams ((startsType_type sound.returns).append _)

theorem MethodDef.reads_decl {m : MethodDef} (sound : m.Sound)
    (enough : 3 * m.declShapes.length ≤ bound) (few : m.declShapes.length < maxIterations) :
    Reads (declarations.reading finish bound .methodDecl) m.declShapes after m.Signature := by
  rw [MethodDef.length_declShapes] at enough few
  obtain ⟨bound, rfl⟩ : ∃ less, bound = less + 2 := ⟨bound - 2, by omega⟩
  have body : Reads (DeclRule.methodBody.reading (declarations.reading finish (bound + 1)) finish)
      (bodyShapes m.body) after fun value => value.isSome = true := by
    refine ((reads_block sound.body (by omega) (by omega)).call.here false).choice.shaped ?_
    rintro _ ⟨_, rfl, _⟩
    rfl
  have noDefault : Reads (DeclRule.defaultValue.reading (declarations.reading finish (bound + 1))
      finish) [] (bodyShapes m.body ++ after) (· = none) :=
    Reads.missing (Refused.behind (by decide : (Shape.mark "\x7b").2 ≠ "default")).declines
  have throws : Reads ((DeclRule.typeClause "throws").reading (declarations.reading finish (bound + 1))
      finish) (typesShapes "throws" m.throws) (([] ++ bodyShapes m.body) ++ after)
      fun values => values.map (·.render) = m.throws :=
    reads_types sound.throws (by omega) (by omega) ⟨_, _, rfl, by decide⟩ ⟨_, _, rfl, by decide⟩
      (.mark (by decide))
  have notArray : NotAhead "["
      ((typesShapes "throws" m.throws ++ ([] ++ bodyShapes m.body)) ++ after) := by
    cases m.throws with
    | nil => exact ⟨_, _, rfl, by decide⟩
    | cons => exact ⟨_, _, rfl, by decide⟩
  have dims : Reads (DeclRule.dims.reading (declarations.reading finish (bound + 1)) finish)
      (dimShapes 0) ((typesShapes "throws" m.throws ++ ([] ++ bodyShapes m.body)) ++ after)
      (· = 0) := reads_dims notArray maxIterations_pos
  have params : Reads ((DeclRule.sym .parameterList).reading (declarations.reading finish (bound + 1))
      finish) (paramShapes m.params) ((dimShapes 0 ++ (typesShapes "throws" m.throws ++
        ([] ++ bodyShapes m.body))) ++ after) (List.Forall₂ Param.Matches m.params) :=
    (reads_params sound.params (by omega) (by omega)).call
  have name : Reads (DeclRule.ident.reading (declarations.reading finish (bound + 1)) finish)
      [Shape.word m.name] ((paramShapes m.params ++ (dimShapes 0 ++ (typesShapes "throws" m.throws ++
        ([] ++ bodyShapes m.body)))) ++ after) (· = m.name) := Reads.token
  have returns : Reads ((DeclRule.sym .typeRef).reading (declarations.reading finish (bound + 1))
      finish) (shapesOf m.returns) (([Shape.word m.name] ++ (paramShapes m.params ++ (dimShapes 0 ++
        (typesShapes "throws" m.throws ++ ([] ++ bodyShapes m.body))))) ++ after)
      fun value => value.render = m.returns :=
    (reads_type sound.returns (.name sound.name (by decide)) (by omega) (by omega)).call
  have typeParams : Reads (DeclRule.typeParams.reading (declarations.reading finish (bound + 1))
      finish) (typeParamShapes m.typeParams) ((shapesOf m.returns ++ ([Shape.word m.name] ++
        (paramShapes m.params ++ (dimShapes 0 ++ (typesShapes "throws" m.throws ++
          ([] ++ bodyShapes m.body)))))) ++ after) fun values =>
            values.map (·.render) = m.typeParams :=
    reads_typeParams sound.typeParams (by omega) (by omega)
      ((((startsType_type sound.returns).append _).append _).notAhead (by decide) (by decide))
  refine (typeParams.seq (returns.seq (name.seq (params.seq (dims.seq (throws.seq
    (noDefault.seq body))))))).shaped ?_
  rintro ⟨_, _, _, _, _, _, _, _⟩ ⟨sameParams, same, rfl, matching, rfl, sameThrows, rfl, isSome⟩
  exact ⟨sameParams, by rw [MethodDecl.returnText, same]; exact String.append_empty, rfl, matching,
    sameThrows, isSome⟩

/-! ### Members -/

/-- The member is the generated method, with a body. -/
def MethodDef.Matches (m : MethodDef) (v : Member) : Prop :=
  ∃ pos modifiers decl, v = .declared pos modifiers (.method decl) ∧
    modifiersMatch m.modifiers modifiers ∧ m.Signature decl

/-- **A method is read as a method.** -/
theorem MethodDef.reads {m : MethodDef} (sound : m.Sound) (enough : 3 * m.shapes.length + 2 ≤ bound)
    (few : m.shapes.length < maxIterations) :
    Reads (declarations.reading finish bound .member) m.shapes after m.Matches := by
  have length : m.shapes.length = m.modifiers.length + m.declShapes.length := by
    rw [MethodDef.shapes, ← MethodDef.declShapes, List.length_append, List.length_map]
  obtain ⟨bound, rfl⟩ : ∃ less, bound = less + 2 := ⟨bound - 2, by omega⟩
  have starts := (MethodDef.startsMember sound).append after
  have decl : Reads ((DeclRule.sym .methodDecl).reading (declarations.reading finish bound) finish)
      m.declShapes after m.Signature := (MethodDef.reads_decl sound (by omega) (by omega)).call
  refine (reads_member sound.modifiers (by omega) starts (reads_memberDecl starts decl.here)).imp ?_
  rintro _ ⟨pos, modifiers, _, rfl, same, _, rfl, method, rfl, good⟩
  exact ⟨pos, modifiers, method, rfl, same, good⟩

/-- The constructor is the generated one, in everything but the tokens of its body. -/
structure ConstructorDef.Signature (c : ConstructorDef) (v : ConstructorDecl) : Prop where
  typeParams : v.typeParams = []
  name : v.name = c.name
  params : ∃ params, v.params = some params ∧ List.Forall₂ Param.Matches c.params params
  throws : v.throws = []

/-- The member is the generated constructor. -/
def ConstructorDef.Matches (c : ConstructorDef) (v : Member) : Prop :=
  ∃ pos modifiers decl, v = .declared pos modifiers (.constructor decl) ∧
    modifiersMatch c.modifiers modifiers ∧ c.Signature decl

/-- The tokens of a constructor after its modifiers. -/
def ConstructorDef.declShapes (c : ConstructorDef) : List Shape :=
  [Shape.word c.name] ++ (paramShapes c.params ++ bodyShapes c.body)

theorem ConstructorDef.length_declShapes (c : ConstructorDef) :
    c.declShapes.length = 1 + (paramShapes c.params).length + (bodyShapes c.body).length := by
  simp only [ConstructorDef.declShapes, List.length_append, List.length_cons, List.length_nil]
  omega

/-- A constructor is no method: no name follows its own. -/
theorem ConstructorDef.declines_method {c : ConstructorDef} (sound : c.Sound) (enough : 4 ≤ bound) :
    Declines (declarations.reading finish bound .methodDecl) (c.declShapes ++ after) := by
  obtain ⟨bound, rfl⟩ : ∃ less, bound = less + 1 := ⟨bound - 1, by omega⟩
  have type : Reads ((DeclRule.sym .typeRef).reading (declarations.reading finish bound) finish)
      [Shape.word c.name] ((paramShapes c.params ++ bodyShapes c.body) ++ after)
      fun value => value.render = c.name := by
    have shapes := shapesOf_eq (Spelt.word sound.name.1)
    rw [← shapes]
    refine (reads_type (IsTypeText.name sound.name) (.mark (by decide)) ?_ ?_).call
    · rw [shapes]
      exact Nat.le_of_succ_le_succ enough
    · rw [shapes]
      exact (by decide : 1 < maxIterations)
  have noName : Refused (DeclRule.ident.reading (declarations.reading finish bound) finish)
      ((paramShapes c.params ++ bodyShapes c.body) ++ after) :=
    Refused.token (by decide)
  have stuck : Stuck (declarations.reading finish (bound + 1) .methodDecl)
      ([] ++ [Shape.word c.name]) ((paramShapes c.params ++ bodyShapes c.body) ++ after) :=
    (Stuck.seq_second (reads_noTypeParams (sound.name.startsType _))
      (Stuck.seq_first type noName.seq)).shaped
  exact stuck.declines (show 1 ≤ State.lookahead by decide)

theorem ConstructorDef.reads_decl {c : ConstructorDef} (sound : c.Sound)
    (enough : 3 * c.declShapes.length ≤ bound) (few : c.declShapes.length < maxIterations) :
    Reads (declarations.reading finish bound .constructorDecl) c.declShapes after c.Signature := by
  rw [ConstructorDef.length_declShapes] at enough few
  obtain ⟨bound, rfl⟩ : ∃ less, bound = less + 1 := ⟨bound - 1, by omega⟩
  have body : Reads ((DeclRule.sym .block).reading (declarations.reading finish bound) finish)
      (bodyShapes c.body) after fun _ => True := (reads_block sound.body (by omega) (by omega)).call
  have throws : Reads ((DeclRule.typeClause "throws").reading (declarations.reading finish bound)
      finish) (typesShapes "throws" []) (bodyShapes c.body ++ after)
      fun values => values.map (·.render) = [] :=
    reads_types (List.forall_mem_nil _) (Nat.zero_le _) maxIterations_pos ⟨_, _, rfl, by decide⟩
      ⟨_, _, rfl, by decide⟩ (.mark (by decide))
  have params : Reads ((DeclRule.sym .parameterList).reading (declarations.reading finish bound)
      finish) (paramShapes c.params) ((typesShapes "throws" [] ++ bodyShapes c.body) ++ after)
      (List.Forall₂ Param.Matches c.params) := (reads_params sound.params (by omega) (by omega)).call
  have name : Reads (DeclRule.ident.reading (declarations.reading finish bound) finish)
      [Shape.word c.name] ((paramShapes c.params ++ (typesShapes "throws" [] ++
        bodyShapes c.body)) ++ after) (· = c.name) := Reads.token
  refine ((reads_noTypeParams (sound.name.startsType _)).seq
    (name.seq (params.present.seq (throws.seq body)))).shaped ?_
  rintro ⟨_, _, _, _, _⟩ ⟨rfl, rfl, ⟨params, rfl, matching⟩, noThrows, _⟩
  exact ⟨rfl, rfl, ⟨params, rfl, matching⟩, List.map_eq_nil_iff.mp noThrows⟩

/-- **A constructor is read as a constructor.** -/
theorem ConstructorDef.reads {c : ConstructorDef} (sound : c.Sound)
    (enough : 3 * c.shapes.length + 2 ≤ bound) (few : c.shapes.length < maxIterations) :
    Reads (declarations.reading finish bound .member) c.shapes after c.Matches := by
  have length : c.shapes.length = c.modifiers.length + c.declShapes.length := by
    rw [ConstructorDef.shapes, ← ConstructorDef.declShapes, List.length_append, List.length_map]
  have declLength := c.length_declShapes
  have paramsLength := two_le_paramShapes c.params
  obtain ⟨bound, rfl⟩ : ∃ less, bound = less + 2 := ⟨bound - 2, by omega⟩
  have starts : StartsMember (c.declShapes ++ after) :=
    startsMember_of_startsType (sound.name.startsType _)
  have decl : Reads ((DeclRule.sym .constructorDecl).reading (declarations.reading finish bound)
      finish) c.declShapes after c.Signature := 
    (ConstructorDef.reads_decl sound (by omega) (by omega)).call
  have notMethod : Declines ((DeclRule.sym .methodDecl).reading (declarations.reading finish bound)
      finish) (c.declShapes ++ after) := ConstructorDef.declines_method sound (by omega)
  refine (reads_member sound.modifiers (by omega) starts (reads_memberDecl starts
    (Reads.later notMethod decl.here))).imp ?_
  rintro _ ⟨pos, modifiers, _, rfl, same, _, rfl, _, rfl, constructor, rfl, good⟩
  exact ⟨pos, modifiers, constructor, rfl, same, good⟩

/-- The field is the generated one. -/
structure FieldDef.Signature (f : FieldDef) (v : FieldDecl) : Prop where
  type : v.type.render = f.type
  name : v.name = f.name
  rest : v.rest = []

/-- The member is the generated field. -/
def FieldDef.Matches (f : FieldDef) (v : Member) : Prop :=
  ∃ pos modifiers field, v = .declared pos modifiers (.field field) ∧
    modifiersMatch f.modifiers modifiers ∧ f.Signature field

/-- The tokens of a field after its modifiers. -/
def FieldDef.declShapes (f : FieldDef) : List Shape :=
  shapesOf f.type ++ [Shape.word f.name, Shape.mark ";"]

/-- A field is no method: there are no parameters behind its name, and its type is short enough to
find out. -/
theorem FieldDef.declines_method {f : FieldDef} (sound : f.Sound)
    (enough : 3 * (shapesOf f.type).length < bound) (few : (shapesOf f.type).length < maxIterations) :
    Declines (declarations.reading finish bound .methodDecl) (f.declShapes ++ after) := by
  obtain ⟨bound, rfl⟩ : ∃ less, bound = less + 1 := ⟨bound - 1, by omega⟩
  have noParams : Refused ((DeclRule.sym .parameterList).reading (declarations.reading finish bound)
      finish) (Shape.mark ";" :: after) := (symbol_refused Glimpse.fits_exactly 1 (by decide)).call
  have name : Reads (DeclRule.ident.reading (declarations.reading finish bound) finish)
      [Shape.word f.name] (Shape.mark ";" :: after) (· = f.name) := Reads.token
  have type : Reads ((DeclRule.sym .typeRef).reading (declarations.reading finish bound) finish)
      (shapesOf f.type) ([Shape.word f.name] ++ (Shape.mark ";" :: after))
      fun value => value.render = f.type :=
    (reads_type sound.type (.name sound.name.1 (by decide)) (by omega) few).call
  have stuck : Stuck (declarations.reading finish (bound + 1) .methodDecl)
      ([] ++ (shapesOf f.type ++ [Shape.word f.name])) (Shape.mark ";" :: after) :=
    (Stuck.seq_second (reads_noTypeParams (((startsType_type sound.type).append _).append _))
      (Stuck.seq_second type (Stuck.seq_first name noParams.seq))).shaped
  have near : ([] ++ (shapesOf f.type ++ [Shape.word f.name])).length ≤ State.lookahead := by
    rw [List.nil_append, List.length_append]
    exact sound.near
  have same : f.declShapes ++ after =
      [] ++ (shapesOf f.type ++ [Shape.word f.name]) ++ Shape.mark ";" :: after := by
    simp [FieldDef.declShapes]
  rw [same]
  exact stuck.declines near

/-- What follows the name of a constructor. -/
def constructorRest : DeclRule (Option (List FormalParameter) × List TypeRef × List Balanced) :=
  .seq (.opt (DeclRule.sym .parameterList))
    (.seq (DeclRule.typeClause "throws") (DeclRule.sym .block))

theorem refused_constructorRest {shape : Shape} {glimpse : Glimpse}
    (inside : glimpse ∈ Glimpse.plainWord :: innerMarks.map Glimpse.exactly)
    (fits : glimpse.Fits reserved shape) :
    Refused (constructorRest.reading (declarations.reading finish bound) finish)
      (shape :: after) := by
  have own : ∀ literal ∈ constructorRest.literals, literal ∈ reserved := by decide
  have all : (Glimpse.plainWord :: innerMarks.map Glimpse.exactly).all (fun glimpse =>
      constructorRest.view (declarations.refuses glimpse 1) glimpse == .refuses) = true := by decide
  exact Refused.of_view mem_reserved own fits 1 (beq_iff_eq.mp (List.all_eq_true.mp all glimpse inside))

/-- A field is no constructor: there are no parameters and no body behind the first name. -/
theorem FieldDef.declines_constructor {f : FieldDef} (sound : f.Sound) :
    Declines (declarations.reading finish (bound + 1) .constructorDecl) (f.declShapes ++ after) := by
  have noParams : Reads (DeclRule.typeParams.reading (declarations.reading finish bound) finish) []
      (f.declShapes ++ after) (· = []) :=
    reads_noTypeParams (((startsType_type sound.type).append _).append _)
  have shapes := shapes_cases sound.type
  rcases shapes with ⟨others, isWildcard⟩ | ⟨name, others, isName, behind⟩
  · have noName : Refused (DeclRule.ident.reading (declarations.reading finish bound) finish)
        (f.declShapes ++ after) := by
      rw [FieldDef.declShapes, isWildcard]
      exact Refused.token (by decide)
    have stuck : Stuck (declarations.reading finish (bound + 1) .constructorDecl) []
        (f.declShapes ++ after) := (Stuck.seq_first noParams noName.seq).shaped
    exact stuck.declines (Nat.zero_le _)
  · have noBody : Refused (constructorRest.reading (declarations.reading finish bound) finish)
        ((others ++ [Shape.word f.name, Shape.mark ";"]) ++ after) := by
      rcases behind with rfl | ⟨mark, more, rfl, isMark⟩
      · exact refused_constructorRest (by decide : Glimpse.plainWord ∈ _) sound.name.fits
      · exact refused_constructorRest (List.mem_cons_of_mem _ (List.mem_map_of_mem isMark))
          Glimpse.fits_exactly
    have first : Reads (DeclRule.ident.reading (declarations.reading finish bound) finish)
        [Shape.word name] ((others ++ [Shape.word f.name, Shape.mark ";"]) ++ after) (· = name) :=
      Reads.token
    have same : f.declShapes ++ after =
        [] ++ [Shape.word name] ++ ((others ++ [Shape.word f.name, Shape.mark ";"]) ++ after) := by
      rw [FieldDef.declShapes, isName]
      rfl
    rw [same] at noParams ⊢
    have stuck : Stuck (declarations.reading finish (bound + 1) .constructorDecl)
        ([] ++ [Shape.word name]) ((others ++ [Shape.word f.name, Shape.mark ";"]) ++ after) :=
      (Stuck.seq_second noParams (Stuck.seq_first first noBody)).shaped
    exact stuck.declines (show 1 ≤ State.lookahead by decide)

theorem FieldDef.reads_decl {f : FieldDef} (sound : f.Sound)
    (enough : 3 * (shapesOf f.type).length < bound) (few : (shapesOf f.type).length < maxIterations) :
    Reads (declarations.reading finish bound .fieldDecl) f.declShapes after f.Signature := by
  obtain ⟨bound, rfl⟩ : ∃ less, bound = less + 1 := ⟨bound - 1, by omega⟩
  have semicolon : Reads ((Rule.word ";" : DeclRule Unit).reading
      (declarations.reading finish bound) finish) [Shape.mark ";"] after fun _ => True := Reads.word
  have rest : Reads ((Rule.many (DeclRule.sym .chunk)).reading (declarations.reading finish bound)
      finish) [] ([Shape.mark ";"] ++ after) (· = []) :=
    Reads.none_ (symbol_refused Glimpse.fits_exactly 2 (by decide)).call.declines
  have name : Reads (DeclRule.ident.reading (declarations.reading finish bound) finish)
      [Shape.word f.name] (([] ++ [Shape.mark ";"]) ++ after) (· = f.name) := Reads.token
  have type : Reads ((DeclRule.sym .typeRef).reading (declarations.reading finish bound) finish)
      (shapesOf f.type) (([Shape.word f.name] ++ ([] ++ [Shape.mark ";"])) ++ after)
      fun value => value.render = f.type :=
    (reads_type sound.type (.name sound.name.1 (by decide)) (by omega) few).call
  refine (type.seq (name.seq (rest.seq semicolon))).shaped ?_
  rintro ⟨_, _, _, _⟩ ⟨same, rfl, rfl, _⟩
  exact ⟨same, rfl, rfl⟩

/-- **A field is read as a field.** -/
theorem FieldDef.reads {f : FieldDef} (sound : f.Sound) (enough : 3 * f.shapes.length + 2 ≤ bound)
    (few : f.shapes.length < maxIterations) :
    Reads (declarations.reading finish bound .member) f.shapes after f.Matches := by
  have length : f.shapes.length = f.modifiers.length + ((shapesOf f.type).length + 2) := by
    simp [FieldDef.shapes]
  obtain ⟨bound, rfl⟩ : ∃ less, bound = less + 3 := ⟨bound - 3, by omega⟩
  have starts : StartsMember (f.declShapes ++ after) :=
    startsMember_of_startsType (((startsType_type sound.type).append _).append _)
  have decl : Reads ((DeclRule.sym .fieldDecl).reading (declarations.reading finish (bound + 1))
      finish) f.declShapes after f.Signature := (FieldDef.reads_decl sound (by omega) (by omega)).call
  have notMethod : Declines ((DeclRule.sym .methodDecl).reading
      (declarations.reading finish (bound + 1)) finish) (f.declShapes ++ after) :=
    FieldDef.declines_method sound (by omega) (by omega)
  have notConstructor : Declines ((DeclRule.sym .constructorDecl).reading
      (declarations.reading finish (bound + 1)) finish) (f.declShapes ++ after) :=
    FieldDef.declines_constructor sound
  refine (reads_member sound.modifiers (by omega) starts (reads_memberDecl starts
    (Reads.later notMethod (Reads.later notConstructor decl.here)))).imp ?_
  rintro _ ⟨pos, modifiers, _, rfl, same, _, rfl, _, rfl, _, rfl, field, rfl, good⟩
  exact ⟨pos, modifiers, field, rfl, same, good⟩

/-! ### Classes -/

/-- The members are the fields, the constructors and the methods, in this order. -/
def ClassDef.Body (c : ClassDef) (members : List Member) : Prop :=
  ∃ fields constructors methods, members = fields ++ (constructors ++ methods) ∧
    List.Forall₂ FieldDef.Matches c.fields fields ∧
    List.Forall₂ ConstructorDef.Matches c.constructors constructors ∧
    List.Forall₂ MethodDef.Matches c.methods methods

/-- The type is the generated class. -/
structure ClassDef.Matches (c : ClassDef) (t : TypeDecl) : Prop where
  modifiers : modifiersMatch c.modifiers t.modifiers
  kind : t.spec.header.kind = .classKind
  name : t.spec.header.name = c.name
  typeParams : t.spec.header.typeParams.map (·.render) = c.typeParams
  components : t.spec.header.components = none
  extended : t.spec.header.extended.map (·.render) = [c.superclass]
  implemented : t.spec.header.implemented.map (·.render) = c.interfaces
  permitted : t.spec.header.permitted = []
  members : c.Body t.spec.members

/-- The tokens of the members, each with what it is to be read as. -/
def ClassDef.entries (c : ClassDef) : List (List Shape × (Member → Prop)) :=
  c.fields.map (fun f => (f.shapes, f.Matches)) ++
    (c.constructors.map (fun constructor => (constructor.shapes, constructor.Matches)) ++
      c.methods.map (fun m => (m.shapes, m.Matches)))

theorem ClassDef.flatMap_entries (c : ClassDef) :
    c.entries.flatMap Prod.fst = c.memberShapes.flatten := by
  simp [ClassDef.entries, ClassDef.memberShapes, List.flatMap_def, Function.comp_def]

/-- There are tokens, and they are read as such a member. -/
def ReadsMember (finish : Position) (entry : List Shape × (Member → Prop)) : Prop :=
  entry.1 ≠ [] ∧ ∀ bound after, 3 * entry.1.length + 2 ≤ bound → entry.1.length < maxIterations →
    Reads (declarations.reading finish bound .member) entry.1 after entry.2

theorem ClassDef.readsMember (finish : Position) {c : ClassDef} (sound : c.Sound) :
    ∀ entry ∈ c.entries, ReadsMember finish entry := by
  intro entry isEntry
  simp only [ClassDef.entries, List.mem_append, List.mem_map] at isEntry
  rcases isEntry with ⟨f, member, rfl⟩ | ⟨constructor, member, rfl⟩ | ⟨m, member, rfl⟩
  · exact ⟨by simp [FieldDef.shapes], fun _ _ enough few =>
      FieldDef.reads (sound.fields f member) enough few⟩
  · exact ⟨by simp [ConstructorDef.shapes], fun _ _ enough few =>
      ConstructorDef.reads (sound.constructors constructor member) enough few⟩
  · exact ⟨by simp [MethodDef.shapes], fun _ _ enough few =>
      MethodDef.reads (sound.methods m member) enough few⟩

/-- A list related to two lists in a row is two lists in a row. -/
theorem exists_append_of_forall₂ {α β : Type} {R : α → β → Prop} {first second : List α}
    {values : List β} (related : List.Forall₂ R (first ++ second) values) :
    ∃ front back, values = front ++ back ∧ List.Forall₂ R first front ∧
      List.Forall₂ R second back := by
  induction first generalizing values with
  | nil => exact ⟨[], values, rfl, .nil, related⟩
  | cons a first ih =>
    cases related with
    | cons head tail =>
      obtain ⟨front, back, rfl, isFront, isBack⟩ := ih tail
      exact ⟨_ :: front, back, rfl, .cons head isFront, isBack⟩

/-- The tokens of the members between braces. -/
def ClassDef.bodyShapes (c : ClassDef) : List Shape :=
  [Shape.mark "\x7b"] ++ (c.memberShapes.flatten ++ [Shape.mark "\x7d"])

/-- The members of a class between braces. -/
theorem ClassDef.reads_body {c : ClassDef} (sound : c.Sound)
    (enough : 3 * c.bodyShapes.length ≤ bound) (few : c.bodyShapes.length < maxIterations) :
    Reads (declarations.reading finish bound .classBody) c.bodyShapes after c.Body := by
  have length : c.bodyShapes.length = c.memberShapes.flatten.length + 2 := by
    simp [ClassDef.bodyShapes]
  obtain ⟨bound, rfl⟩ : ∃ less, bound = less + 1 := ⟨bound - 1, by omega⟩
  have readable := ClassDef.readsMember finish sound
  have each : ∀ entry ∈ c.entries, ∀ following, True →
      Reads ((DeclRule.sym .member).reading (declarations.reading finish bound) finish) entry.1
        following entry.2 := by
    intro entry isEntry following _
    have within := length_le_flatMap Prod.fst isEntry
    rw [c.flatMap_entries] at within
    exact ((readable entry isEntry).2 _ _ (by omega) (by omega)).call
  have noMember : Refused ((DeclRule.sym .member).reading (declarations.reading finish bound) finish)
      ([Shape.mark "\x7d"] ++ after) := (symbol_refused Glimpse.fits_exactly 5 (by decide)).call
  have count : c.entries.length ≤ (c.entries.flatMap Prod.fst).length :=
    count_le_flatMap fun entry isEntry => (readable entry isEntry).1
  rw [c.flatMap_entries] at count
  have members := Reads.many (fun _ => True) Prod.snd c.entries each (fun _ _ _ => trivial) trivial
    noMember.declines (by omega)
  rw [c.flatMap_entries] at members
  have whole : Reads (declarations.reading finish (bound + 1) .classBody) c.bodyShapes after
      (List.Forall₂ Prod.snd c.entries) :=
    (Reads.word.seq (members.seq Reads.word)).shaped fun _ both => both.2.1
  refine whole.imp ?_
  intro values all
  obtain ⟨fields, others, rfl, isFields, isOthers⟩ := exists_append_of_forall₂ all
  obtain ⟨constructors, methods, rfl, isConstructors, isMethods⟩ := exists_append_of_forall₂ isOthers
  rw [List.forall₂_map_left_iff] at isFields isConstructors isMethods
  exact ⟨fields, constructors, methods, rfl, isFields, isConstructors, isMethods⟩

/-- The tokens of a class after its modifiers, clause by clause. -/
def ClassDef.specShapes (c : ClassDef) : List Shape :=
  [Shape.word "class"] ++ ([Shape.word c.name] ++ (typeParamShapes c.typeParams ++ ([] ++
    (typesShapes "extends" [c.superclass] ++ (typesShapes "implements" c.interfaces ++
      (typesShapes "permits" [] ++ c.bodyShapes))))))

theorem ClassDef.shapes_eq (c : ClassDef) :
    c.shapes = c.modifiers.map Shape.word ++ c.specShapes := by
  simp [ClassDef.shapes, ClassDef.specShapes, ClassDef.bodyShapes, clauseShapes, separatedShapes]

theorem ClassDef.length_specShapes (c : ClassDef) : c.specShapes.length = 2 +
    (typeParamShapes c.typeParams).length + (typesShapes "extends" [c.superclass]).length +
    (typesShapes "implements" c.interfaces).length + c.bodyShapes.length := by
  simp only [ClassDef.specShapes, List.length_append, List.length_cons, List.length_nil]
  show _ + (_ + (_ + (_ + (_ + (_ + (0 + _)))))) = _
  omega

theorem fits_extends : (Glimpse.exactly (Shape.word "extends")).Fits reserved (Shape.word "extends") :=
  Glimpse.fits_exactly

/-- A class after its modifiers. -/
theorem ClassDef.reads_spec {c : ClassDef} (sound : c.Sound)
    (enough : 3 * c.specShapes.length ≤ bound) (few : c.specShapes.length < maxIterations) :
    Reads (declarations.reading finish bound .typeSpec) c.specShapes after
      fun spec => ∀ pos modifiers, modifiersMatch c.modifiers modifiers →
        c.Matches ⟨pos, modifiers, spec⟩ := by
  rw [ClassDef.length_specShapes] at enough few
  obtain ⟨bound, rfl⟩ : ∃ less, bound = less + 1 := ⟨bound - 1, by omega⟩
  have body : Reads ((DeclRule.sym .classBody).reading (declarations.reading finish bound) finish)
      c.bodyShapes after c.Body := (ClassDef.reads_body sound (by omega) (by omega)).call
  have permits : Reads ((DeclRule.typeClause "permits").reading (declarations.reading finish bound)
      finish) (typesShapes "permits" []) (c.bodyShapes ++ after)
      fun values => values.map (·.render) = [] :=
    reads_types (List.forall_mem_nil _) (Nat.zero_le _) maxIterations_pos ⟨_, _, rfl, by decide⟩
      ⟨_, _, rfl, by decide⟩ (.mark (by decide))
  have implements : Reads ((DeclRule.typeClause "implements").reading
      (declarations.reading finish bound) finish) (typesShapes "implements" c.interfaces)
      ((typesShapes "permits" [] ++ c.bodyShapes) ++ after)
      fun values => values.map (·.render) = c.interfaces :=
    reads_types sound.interfaces (by omega) (by omega) ⟨_, _, rfl, by decide⟩ ⟨_, _, rfl, by decide⟩
      (.mark (by decide))
  have extends_ : Reads ((DeclRule.typeClause "extends").reading (declarations.reading finish bound)
      finish) (typesShapes "extends" [c.superclass]) ((typesShapes "implements" c.interfaces ++
        (typesShapes "permits" [] ++ c.bodyShapes)) ++ after)
      fun values => values.map (·.render) = [c.superclass] := by
    have isType : ∀ type ∈ [c.superclass], IsType type :=
      List.forall_mem_singleton.mpr sound.superclass
    cases c.interfaces with
    | nil =>
      exact reads_types isType (by omega) (by omega) ⟨_, _, rfl, by decide⟩ ⟨_, _, rfl, by decide⟩
        (.mark (by decide))
    | cons =>
      exact reads_types isType (by omega) (by omega) ⟨_, _, rfl, by decide⟩ ⟨_, _, rfl, by decide⟩
        (.mark (by decide))
  have noComponents : Reads ((Rule.opt (DeclRule.sym .parameterList)).reading
      (declarations.reading finish bound) finish) [] ((typesShapes "extends" [c.superclass] ++
        (typesShapes "implements" c.interfaces ++ (typesShapes "permits" [] ++ c.bodyShapes))) ++
          after) (· = none) :=
    Reads.missing (symbol_refused fits_extends 1 (by decide)).call.declines
  have typeParams : Reads (DeclRule.typeParams.reading (declarations.reading finish bound) finish)
      (typeParamShapes c.typeParams) (([] ++ (typesShapes "extends" [c.superclass] ++
        (typesShapes "implements" c.interfaces ++ (typesShapes "permits" [] ++ c.bodyShapes)))) ++
          after) fun values => values.map (·.render) = c.typeParams :=
    reads_typeParams sound.typeParams (by omega) (by omega) ⟨_, _, rfl, by decide⟩
  have name : Reads (DeclRule.ident.reading (declarations.reading finish bound) finish)
      [Shape.word c.name] ((typeParamShapes c.typeParams ++ ([] ++ (typesShapes "extends"
        [c.superclass] ++ (typesShapes "implements" c.interfaces ++ (typesShapes "permits" [] ++
          c.bodyShapes))))) ++ after) (· = c.name) := Reads.token
  have kind : Reads ((Rule.pick TypeKind.all TypeKind.keyword : DeclRule TypeKind).reading
      (declarations.reading finish bound) finish) [Shape.word "class"] (([Shape.word c.name] ++
        (typeParamShapes c.typeParams ++ ([] ++ (typesShapes "extends" [c.superclass] ++
          (typesShapes "implements" c.interfaces ++ (typesShapes "permits" [] ++
            c.bodyShapes)))))) ++ after) (· = .classKind) := Reads.pick (by decide)
  refine (kind.seq (name.seq (typeParams.seq (noComponents.seq (extends_.seq (implements.seq
    (permits.seq body))))))).shaped ?_
  rintro ⟨_, _, _, _, _, _, _, _⟩ ⟨rfl, rfl, sameParams, rfl, sameSuper, sameInterfaces, noPermits,
    members⟩ pos modifiers same
  exact ⟨same, rfl, rfl, sameParams, rfl, sameSuper, sameInterfaces,
    List.map_eq_nil_iff.mp noPermits, members⟩

/-- **A class is read as a class.** -/
theorem ClassDef.reads {c : ClassDef} (sound : c.Sound) (enough : 3 * c.shapes.length < bound)
    (few : c.shapes.length < maxIterations) :
    Reads (declarations.reading finish bound .typeDecl) c.shapes after c.Matches := by
  rw [c.shapes_eq] at enough few ⊢
  rw [List.length_append, List.length_map] at enough few
  obtain ⟨bound, rfl⟩ : ∃ less, bound = less + 2 := ⟨bound - 2, by
    rw [c.length_specShapes] at enough
    omega⟩
  have spec := (ClassDef.reads_spec sound (by omega) (by omega) :
    Reads (declarations.reading finish (bound + 1) .typeSpec) c.specShapes after _)
  have noModifier : Refused (declarations.reading finish (bound + 1) .modifier)
      (c.specShapes ++ after) := symbol_refused Glimpse.fits_exactly 2 (by decide)
  refine ((reads_modifiers sound.modifiers (by omega) noModifier).seq spec.call).located.shaped ?_
  rintro ⟨pos, modifiers, spec⟩ ⟨same, good⟩
  exact good pos modifiers same

/-! ### Files -/

/-- The import is that of the name. -/
def importMatches (name : String) (v : ImportDecl) : Prop :=
  v.isStatic = false ∧ v.onDemand = false ∧ v.name = name

/-- The file is the generated one. -/
structure CompilationUnit.Matches (u : CompilationUnit) (v : Source.CompilationUnit) : Prop where
  packageName : v.packageName = some u.packageName
  imports : List.Forall₂ importMatches u.imports v.imports
  items : v.items = v.types.map .type
  types : List.Forall₂ ClassDef.Matches u.classes v.types

/-- A dotted name has a token for each of its names. -/
theorem tail_few {front back : List Shape} {head : Shape} {tail : List String}
    (few : (front ++ ([head] ++ ((tail.flatMap fun part => [Shape.mark ".", Shape.word part]) ++
      back))).length < maxIterations) : tail.length < maxIterations := by
  have count : tail.length ≤
      (tail.flatMap fun part => [Shape.mark ".", Shape.word part]).length :=
    count_le_flatMap fun _ _ => List.cons_ne_nil _ _
  simp only [List.length_append] at few
  omega

theorem reads_package {name : String} (dotted : IsDotted name)
    (few : (packageShapes name).length < maxIterations) :
    Reads (declarations.reading finish (bound + 1) .packageDecl) (packageShapes name) after
      fun value => value.render = name := by
  obtain ⟨head, tail, names, rfl⟩ := dotted
  rw [packageShapes, shapesOf_eq (spelt_dotted names), dottedShapes, List.append_assoc] at few ⊢
  have tailFew := tail_few few
  have more : Reads (DeclRule.moreSegments.reading (declarations.reading finish bound) finish)
      (tail.flatMap fun part => [Shape.mark ".", Shape.word part]) ([Shape.mark ";"] ++ after)
      (List.Forall₂ (fun part value => value = part) tail) :=
    Reads.more (fun _ => True) tail (fun _ _ _ _ => Reads.token) (fun _ => trivial) trivial
      (Refused.behind (by decide)).declines tailFew
  refine (Reads.word.seq (Reads.token.seq (more.seq Reads.word))).shaped ?_
  rintro ⟨_, _, values, _⟩ ⟨_, rfl, same, _⟩
  have sameTail : values.map id = tail := map_eq_of_forall₂ same
  rw [← sameTail, List.map_id]
  rfl

theorem importMatches_of_tail {head : String} {tail : List String} {values : List (Option String)}
    (same : List.Forall₂ (fun part value => value = some part) tail values) :
    importMatches (Text.join "." (head :: tail)) ⟨false, head, values⟩ := by
  have values_eq : values = tail.map some := by
    induction same with
    | nil => rfl
    | cons first _ ih => rw [List.map_cons, first, ih]
  subst values_eq
  refine ⟨rfl, ?_, ?_⟩
  · rw [ImportDecl.onDemand, List.getLast?_map]
    cases tail.getLast? <;> rfl
  · rw [ImportDecl.name, ImportDecl.segments, List.map_map]
    exact congrArg (fun tail => Text.join "." (head :: tail)) (List.map_id tail)

theorem reads_import {name : String} (isImport : IsImport name)
    (few : (importShapes name).length < maxIterations) :
    Reads (declarations.reading finish (bound + 1) .importDecl) (importShapes name) after
      (importMatches name) := by
  obtain ⟨head, tail, names, notStatic, rfl⟩ := isImport
  rw [importShapes, shapesOf_eq (spelt_dotted names), dottedShapes, List.append_assoc] at few ⊢
  have tailFew := tail_few few
  have segment : ∀ part ∈ tail, ∀ following, True → Reads (DeclRule.importSegment.reading
      (declarations.reading finish bound) finish) [Shape.word part] following
      fun value => value = some part := by
    intro part _ following _
    refine (Reads.token.here false).choice.shaped ?_
    rintro _ ⟨_, rfl, rfl⟩
    rfl
  have more : Reads ((Rule.many (DeclRule.importSegment.after ".")).reading
      (declarations.reading finish bound) finish)
      (tail.flatMap fun part => [Shape.mark ".", Shape.word part]) ([Shape.mark ";"] ++ after)
      (List.Forall₂ (fun part value => value = some part) tail) :=
    Reads.more (fun _ => True) tail segment (fun _ => trivial) trivial
      (Refused.behind (by decide)).declines tailFew
  have notFlagged : Reads ((DeclRule.flag (.word "static")).reading
      (declarations.reading finish bound) finish) [] (([Shape.word head] ++
        ((tail.flatMap fun part => [Shape.mark ".", Shape.word part]) ++ [Shape.mark ";"])) ++ after)
      (· = false) := by
    refine (Reads.missing (Refused.word notStatic).declines).shaped ?_
    rintro _ rfl
    rfl
  refine (Reads.word.seq (notFlagged.seq (Reads.token.seq (more.seq Reads.word)))).shaped ?_
  rintro ⟨_, _, _, values, _⟩ ⟨_, rfl, rfl, same, _⟩
  exact importMatches_of_tail same

/-- A class begins with a modifier or its keyword. -/
theorem ClassDef.head_shape {c : ClassDef} (sound : c.Sound) :
    ∃ text others, c.shapes = Shape.word text :: others ∧
      text ∈ "class" :: Keyword.all.map Keyword.text := by
  have modifiers := sound.modifiers
  rw [ClassDef.shapes]
  cases same : c.modifiers with
  | nil => exact ⟨"class", _, rfl, List.mem_cons_self⟩
  | cons first others =>
    rw [same] at modifiers
    exact ⟨first, _, rfl, List.mem_cons_of_mem _ (modifiers first List.mem_cons_self)⟩

/-- The types of a file are no imports. -/
theorem declines_import {classes : List ClassDef} (sound : ∀ c ∈ classes, c.Sound) :
    Declines ((DeclRule.sym .importDecl).reading (declarations.reading finish (bound + 1)) finish)
      (classes.flatMap ClassDef.shapes ++ []) := by
  cases classes with
  | nil =>
    intro ts isEnd
    rw [List.map_eq_nil_iff.mp isEnd]
    exact .inl rfl
  | cons first others =>
    obtain ⟨text, more, shapes, isHead⟩ := ClassDef.head_shape (sound first List.mem_cons_self)
    rw [List.flatMap_cons, shapes]
    have all : ("class" :: Keyword.all.map Keyword.text).all (fun text =>
        declarations.refuses (.exactly (Shape.word text)) 1 .importDecl) = true := by decide
    have refused : Refused (declarations.reading finish (bound + 1) .importDecl)
        (Shape.word text :: (more ++ others.flatMap ClassDef.shapes ++ [])) :=
      symbol_refused Glimpse.fits_exactly 1 (List.all_eq_true.mp all text isHead)
    exact refused.call.declines

/-- The types of a file. -/
theorem reads_topLevels {classes : List ClassDef} (sound : ∀ c ∈ classes, c.Sound)
    (enough : 3 * (classes.flatMap ClassDef.shapes).length < bound + 2)
    (few : (classes.flatMap ClassDef.shapes).length < maxIterations) :
    Reads ((Rule.many DeclRule.topLevel).reading (declarations.reading finish (bound + 2)) finish)
      (classes.flatMap ClassDef.shapes) []
      fun items => ∃ types, items = types.map TopLevel.type ∧
        List.Forall₂ ClassDef.Matches classes types := by
  have each : ∀ c ∈ classes, ∀ following, True → Reads (DeclRule.topLevel.reading
      (declarations.reading finish (bound + 2)) finish) c.shapes following
      fun item => ∃ type, item = .type type ∧ c.Matches type := by
    intro c member following _
    have within := length_le_flatMap ClassDef.shapes member
    have read : Reads ((DeclRule.sym .typeDecl).reading (declarations.reading finish (bound + 2))
        finish) c.shapes following c.Matches :=
      (ClassDef.reads (sound c member) (by omega) (by omega)).call
    refine (read.here false).choice.shaped ?_
    rintro _ ⟨type, rfl, good⟩
    exact ⟨type, rfl, good⟩
  have count : classes.length ≤ (classes.flatMap ClassDef.shapes).length := by
    refine count_le_flatMap fun c member => ?_
    obtain ⟨_, _, shapes, _⟩ := ClassDef.head_shape (sound c member)
    rw [shapes]
    exact List.cons_ne_nil _ _
  refine (Reads.many (fun _ => True) _ classes each (fun _ _ _ => trivial) trivial
    declines_topLevel_nil (by omega)).imp ?_
  intro items all
  clear sound enough few each count
  induction all with
  | nil => exact ⟨[], rfl, .nil⟩
  | cons first _ ih =>
    obtain ⟨type, rfl, good⟩ := first
    obtain ⟨types, rfl, goods⟩ := ih
    exact ⟨type :: types, rfl, .cons good goods⟩

theorem types_of_items (packageDecl : Option DottedName) (imports : List ImportDecl)
    (types : List TypeDecl) :
    (⟨packageDecl, imports, types.map .type⟩ : Source.CompilationUnit).types = types := by
  rw [Source.CompilationUnit.types, List.filterMap_map]
  exact List.filterMap_some

/-- The tokens of a file are read as that file. -/
theorem CompilationUnit.reads {u : CompilationUnit} (sound : u.Sound)
    (enough : 3 * u.shapes.length + 2 ≤ bound) (few : u.shapes.length < maxIterations) :
    Reads (declarations.reading finish bound .compilationUnit) u.shapes [] u.Matches := by
  have length : u.shapes.length = (packageShapes u.packageName).length +
      ((u.imports.flatMap importShapes).length + (u.classes.flatMap ClassDef.shapes).length) := by
    rw [CompilationUnit.shapes, List.length_append, List.length_append]
  have named : 0 < (packageShapes u.packageName).length :=
    List.length_pos_iff.mpr (List.cons_ne_nil _ _)
  have count : u.imports.length ≤ (u.imports.flatMap importShapes).length :=
    count_le_flatMap fun _ _ => List.cons_ne_nil _ _
  obtain ⟨bound, rfl⟩ : ∃ less, bound = less + 3 := ⟨bound - 3, by omega⟩
  have items := (reads_topLevels sound.classes (by omega) (by omega) : Reads ((Rule.many
    DeclRule.topLevel).reading (declarations.reading finish (bound + 2)) finish) _ _ _)
  have imports : Reads ((Rule.many (DeclRule.sym .importDecl)).reading
      (declarations.reading finish (bound + 2)) finish) (u.imports.flatMap importShapes)
      (u.classes.flatMap ClassDef.shapes ++ []) (List.Forall₂ importMatches u.imports) := by
    refine Reads.many (fun _ => True) _ u.imports (fun name member _ _ => ?_) (fun _ _ _ => trivial)
      trivial (declines_import sound.classes) (by omega)
    have within := length_le_flatMap importShapes member
    exact (reads_import (sound.imports name member) (by omega)).call
  have package : Reads ((DeclRule.sym .packageDecl).reading (declarations.reading finish (bound + 2))
      finish) (packageShapes u.packageName)
      ((u.imports.flatMap importShapes ++ u.classes.flatMap ClassDef.shapes) ++ [])
      fun value => value.render = u.packageName :=
    (reads_package sound.packageName (by omega)).call
  refine (package.present.seq (imports.seq items)).shaped ?_
  rintro ⟨_, imports, _⟩ ⟨⟨name, rfl, sameName⟩, sameImports, types, rfl, sameTypes⟩
  have types_eq := types_of_items (some name) imports types
  exact ⟨congrArg some sameName, sameImports, by rw [types_eq], by rw [types_eq]; exact sameTypes⟩

/-- **A generated file is read as that file.** -/
theorem CompilationUnit.parse_render {u : CompilationUnit} (sound : u.Sound)
    (few : ∀ tokens finish, lex u.render.toList = .ok (tokens, finish) →
      tokens.length < maxIterations) :
    ∃ v, Source.parse u.render = .ok v ∧ u.Matches v := by
  obtain ⟨tokens, finish, lexed, shapes⟩ := (CompilationUnit.spelt sound).lex
  have length : u.shapes.length = tokens.length := by
    rw [← shapes, List.length_map]
  have enough : 3 * u.shapes.length + 2 ≤ nesting tokens.length := by
    rw [length, nesting]
    omega
  have reads : Reads (declarations.reading finish (nesting tokens.length) .compilationUnit) u.shapes
      [] u.Matches :=
    CompilationUnit.reads sound enough (length ▸ few tokens finish lexed)
  obtain ⟨v, good, matched⟩ := reads tokens [] shapes rfl
  rw [List.append_nil] at matched
  have read := (declarations.read_eq_ok_iff .compilationUnit tokens finish v).mpr matched
  refine ⟨v, ?_, good⟩
  rw [Source.parse, lexed]
  simp only [read]

end Parts

end Forwarder.Emit
