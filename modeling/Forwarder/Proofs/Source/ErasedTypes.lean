/-
**Erased types.** Erasure counts brackets in the text of a type and knows nothing of types. In the text of a
type that is read it leaves what the type is without its type arguments: the names of its segments with points
between them, and its array dimensions. No parenthesis and no comma is among that, so a key can be taken apart
into the name of its method and the erased types of its parameters.

* `ErasedType` — a type without type arguments; `ErasedType.ofText_render` finds it again from its text.
* `TypeRef.erased`, `FormalParameter.erased` — what is left of a type and of a parameter.
* **`TypeRef.Worded.eraseType_render`** — erasure of the text of a type is erasure of the type.
* **`Method.Takes.signature_eq_iff`** — what a key tells of a method that takes such parameters.
* **`erasure_exact`** — both for the types of files that are read.
-/

import Forwarder.Proofs.Computed
import Forwarder.Proofs.Source.Occurrences
import Forwarder.Proofs.Source.Renaming

open Forwarder.TypeName (IsFlat Nested eraseType eraseType_append eraseType_plain isPlainChar)

namespace Forwarder

namespace Source

/-! ### Types without type arguments -/

/-- A type without type arguments: the names of its segments, and its array dimensions. -/
@[ext]
structure ErasedType where
  names : List String
  dims : Nat
deriving DecidableEq, Repr

namespace ErasedType

/-- The type as it is written. -/
def render (e : ErasedType) : String :=
  Text.join "." e.names ++ brackets e.dims

/-- The type with more array dimensions. -/
def widen (extra : Nat) (e : ErasedType) : ErasedType :=
  { e with dims := e.dims + extra }

theorem render_widen (e : ErasedType) (extra : Nat) :
    (e.widen extra).render = e.render ++ brackets extra := by
  rw [render, render, widen, brackets_add, String.append_assoc]

/-- The type that is written so. -/
def ofText (text : String) : ErasedType where
  names := Text.split '.' (String.ofList (text.toList.takeWhile (· != '[')))
  dims := text.toList.count '['

/-- There are names, and all of them are identifiers. -/
structure IsNamed (e : ErasedType) : Prop where
  some_ : e.names ≠ []
  named : ∀ name ∈ e.names, isIdentifier name = true

variable {e : ErasedType}

theorem IsNamed.widen (isNamed : e.IsNamed) (extra : Nat) : (e.widen extra).IsNamed :=
  ⟨isNamed.some_, isNamed.named⟩

theorem IsNamed.isFlat (isNamed : e.IsNamed) : IsFlat e.render.toList := by
  have names : IsFlat (Text.join "." e.names).toList :=
    isFlat_join (fun name member => isFlat_of_isIdentifier (isNamed.named name member)) isNamed.some_
  rw [render, String.toList_append]
  exact names.append (plain_brackets e.dims)

theorem count_brackets (dims : Nat) : (brackets dims).toList.count '[' = dims := by
  induction dims with
  | zero => rfl
  | succ dims ih =>
    rw [brackets_succ, String.toList_append, List.count_append, ih, Nat.add_comm]
    rfl

theorem head_brackets (dims : Nat) : ∀ c ∈ (brackets dims).toList.head?, (c != '[') = false := by
  cases dims with
  | zero => rintro _ ⟨⟩
  | succ dims =>
    rw [brackets_succ, String.toList_append]
    rintro _ ⟨⟩
    rfl

/-- **The text tells the type**: no name holds a point or a bracket. -/
theorem ofText_render (isNamed : e.IsNamed) : ofText e.render = e := by
  have absent {c : Char} (other : isIdentPart c = false) : ∀ name ∈ e.names, c ∉ name.toList := by
    intro name member within
    rw [isIdentPart_of_isIdentifier (isNamed.named name member) c within] at other
    cases other
  have text : e.render = Text.join (String.singleton '.') e.names ++ brackets e.dims := rfl
  have opening : '[' ∉ (Text.join (String.singleton '.') e.names).toList :=
    Text.not_mem_join (by decide) (absent (by decide))
  have kept : ∀ c ∈ (Text.join (String.singleton '.') e.names).toList, (c != '[') = true :=
    fun c member => bne_iff_ne.mpr fun same => opening (same ▸ member)
  have names : (ofText e.render).names = e.names := by
    rw [ofText, text, String.toList_append, Text.takeWhile_run kept (head_brackets _),
      String.ofList_toList, Text.split_join (absent (by decide)) isNamed.some_]
  have dims : (ofText e.render).dims = e.dims := by
    rw [ofText, text, String.toList_append, List.count_append, count_brackets,
      List.count_eq_zero.mpr opening, Nat.zero_add]
  exact ErasedType.ext names dims

end ErasedType

/-! ### Texts and types -/

/-- The type without its type arguments. -/
def TypeRef.erased (type : TypeRef) : ErasedType :=
  ⟨type.segments.map (·.name), type.dims⟩

theorem TypeRef.Worded.isNamed_erased {type : TypeRef} (worded : type.Worded)
    (named : type.isWildcard = false) : type.erased.IsNamed := by
  cases type with
  | wildcard | unfinished | bounded => cases named
  | named annotations first others dims =>
    exact ⟨List.cons_ne_nil _ _, List.forall_mem_map.mpr fun segment member =>
      (worded_named.mp worded segment member).name⟩

/-- The name is left of a segment. -/
theorem TypeSegment.Worded.eraseType_render {segment : TypeSegment} (worded : segment.Worded) :
    eraseType segment.render = segment.name := by
  cases segment with
  | plain name => exact eraseType_plain (isFlat_of_isIdentifier worded.name).plain
  | applied name args =>
    have flat : IsFlat name.toList := isFlat_of_isIdentifier worded.name
    have nested : Nested (renderArgs args).toList :=
      nested_renderArgs fun arg member => (worded.args arg member).isLevel
    rw [TypeSegment.render, String.append_assoc, String.append_assoc,
      eraseType_append flat.isLevel.toNested, eraseType_plain flat.plain, ← String.append_assoc,
      TypeName.eraseType_bracketed nested]
    exact String.append_empty

theorem eraseType_renderMore {segments : List TypeSegment}
    (worded : ∀ segment ∈ segments, segment.Worded) : eraseType (renderMore segments) =
      String.join (segments.map fun segment => "." ++ segment.name) := by
  induction segments with
  | nil => rfl
  | cons segment segments ih =>
    obtain ⟨here, others⟩ := List.forall_mem_cons.mp worded
    have point : ∀ c ∈ ".".toList, isPlainChar c = true := List.all_eq_true.mp (by decide)
    have nestedPoint : Nested ".".toList := (TypeName.calm_of_plain point).toNested
    have pointed : Nested ("." ++ segment.render).toList := by
      rw [String.toList_append]
      exact nestedPoint.append here.level.render.toNested
    rw [renderMore, eraseType_append pointed, ih others, eraseType_append nestedPoint,
      eraseType_plain point, here.eraseType_render, List.map_cons, String.join_cons]

/-- **Erasure of the text of a type** is erasure of the type. -/
theorem TypeRef.Worded.eraseType_render {type : TypeRef} (worded : type.Worded)
    (named : type.isWildcard = false) : eraseType type.render = type.erased.render := by
  cases type with
  | wildcard | unfinished | bounded => cases named
  | named annotations first others dims =>
    obtain ⟨ofFirst, ofOthers⟩ := List.forall_mem_cons.mp (worded_named.mp worded)
    have nestedFirst : Nested first.render.toList := ofFirst.level.render.toNested
    have nestedMore : Nested (renderMore others).toList :=
      (calm_renderMore fun segment member => (ofOthers segment member).level).toNested
    have nested : Nested (first.render ++ renderMore others).toList := by
      rw [String.toList_append]
      exact nestedFirst.append nestedMore
    have joined : Text.join "." ((first :: others).map (·.name)) =
        first.name ++ String.join (others.map fun segment => "." ++ segment.name) := by
      rw [List.map_cons, join_point, List.map_map]
      rfl
    rw [TypeRef.render, eraseType_append nested, eraseType_append nestedFirst,
      ofFirst.eraseType_render, eraseType_renderMore ofOthers, eraseType_plain (plain_brackets dims),
      ← joined]
    rfl

/-! ### Parameters -/

namespace FormalParameter

/-- The parameter in the description of its method. -/
def described (p : FormalParameter) : Parameter :=
  ⟨p.typeText, p.name, p.variadic⟩

/-- The type of the parameter without type arguments. The dimensions behind its name count, and a variadic
parameter is an array. -/
def erased (p : FormalParameter) : ErasedType :=
  p.type.erased.widen (p.dims + if p.variadic then 1 else 0)

/-- The names in the type of the parameter are identifiers, and it is no wildcard. -/
structure IsTyped (p : FormalParameter) : Prop where
  worded : p.type.Worded
  named : p.type.isWildcard = false

variable {p : FormalParameter}

theorem IsTyped.isNamed (typed : p.IsTyped) : p.erased.IsNamed :=
  (typed.worded.isNamed_erased typed.named).widen _

theorem IsTyped.erased_described (typed : p.IsTyped) : p.described.erased = p.erased.render := by
  have text : eraseType p.typeText = p.type.erased.render ++ brackets p.dims := by
    rw [typeText, eraseType_append typed.worded.isLevel.toNested,
      typed.worded.eraseType_render typed.named, eraseType_plain (plain_brackets p.dims)]
  have mark : (if p.variadic then "[]" else "") = brackets (if p.variadic then 1 else 0) := by
    split_ifs <;> rfl
  rw [Parameter.erased, described, text, mark, erased, ErasedType.render_widen, brackets_add,
    String.append_assoc]

end FormalParameter

end Source

/-! ### Keys -/

namespace Method

open Source

/-- The parameters in the description of the method are these. -/
def Takes (m : Method) (params : List FormalParameter) : Prop :=
  m.params = params.map FormalParameter.described

variable {m n : Method} {params others : List FormalParameter}

theorem Takes.erased (takes : m.Takes params) (typed : ∀ p ∈ params, p.IsTyped) :
    m.params.map (·.erased) = params.map (·.erased.render) := by
  rw [takes, List.map_map]
  exact List.map_congr_left fun p member => (typed p member).erased_described

theorem Takes.hasFlatParams (takes : m.Takes params) (typed : ∀ p ∈ params, p.IsTyped) :
    m.HasFlatParams := by
  rw [HasFlatParams, takes]
  refine List.forall_mem_map.mpr fun p member => ?_
  rw [(typed p member).erased_described]
  exact (typed p member).isNamed.isFlat

/-- The erased types of parameters are found again from their texts. -/
theorem map_ofText (typed : ∀ p ∈ params, p.IsTyped) :
    (params.map (·.erased.render)).map ErasedType.ofText = params.map (·.erased) := by
  rw [List.map_map]
  exact List.map_congr_left fun p member => ErasedType.ofText_render (typed p member).isNamed

/-- **A key tells the name and the erased types of the parameters**, and nothing else. -/
theorem Takes.signature_eq_iff (takes : m.Takes params) (takes' : n.Takes others)
    (typed : ∀ p ∈ params, p.IsTyped) (typed' : ∀ p ∈ others, p.IsTyped) :
    m.signature = n.signature ↔ m.name = n.name ∧ params.map (·.erased) = others.map (·.erased) := by
  constructor
  · intro same
    obtain ⟨names, texts⟩ :=
      (takes.hasFlatParams typed).eq_of_signature_eq (takes'.hasFlatParams typed') same
    rw [takes.erased typed, takes'.erased typed'] at texts
    refine ⟨names, ?_⟩
    rw [← map_ofText typed, texts, map_ofText typed']
  · rintro ⟨names, types⟩
    have texts : params.map (·.erased.render) = others.map (·.erased.render) := by
      have written := congrArg (List.map ErasedType.render) types
      rwa [List.map_map, List.map_map] at written
    rw [signature, signature, names, takes.erased typed, takes'.erased typed', texts]

end Method

/-! ### Types that are read -/

namespace Source

/-- The type stands in a file that is read. -/
def TypeRef.IsRead (type : TypeRef) : Prop :=
  ∃ source u, parse source = .ok u ∧ type ∈ u.typeRefs

theorem TypeRef.IsRead.worded {type : TypeRef} (isRead : type.IsRead) : type.Worded := by
  obtain ⟨source, u, parsed, member⟩ := isRead
  exact (tidy_of_parse parsed type member).worded

/-- **Erasure of texts is erasure of types.** Erasing the text of a type that is read, unless it is a
wildcard, leaves its qualified name and a pair of brackets for each dimension. Two methods whose parameters
have such types have one key exactly if they agree in their names and in the erased types of their
parameters, in order. -/
theorem erasure_exact :
    (∀ type : TypeRef, type.IsRead → type.isWildcard = false →
      eraseType type.render = type.qualifiedName ++ brackets type.dims) ∧
    ∀ (m n : Method) (params others : List FormalParameter), m.Takes params → n.Takes others →
      (∀ p ∈ params ++ others, p.type.IsRead ∧ p.type.isWildcard = false) →
      (m.signature = n.signature ↔
        m.name = n.name ∧ params.map (·.erased) = others.map (·.erased)) := by
  refine ⟨fun type isRead named => isRead.worded.eraseType_render named, ?_⟩
  intro m n params others takes takes' each
  have typed : ∀ p ∈ params ++ others, p.IsTyped := fun p member =>
    ⟨(each p member).1.worded, (each p member).2⟩
  obtain ⟨ofParams, ofOthers⟩ := List.forall_mem_append.mp typed
  exact takes.signature_eq_iff takes' ofParams ofOthers

/-- Types of a file, found by their texts. -/
theorem exists_isRead {source : String} {texts : List String} {cs : List Char}
    (isSource : source = String.ofList cs) (found : (parseChars cs).any (fun u =>
      ∀ text ∈ texts, ∃ type ∈ u.typeRefs, type.render = text ∧ type.isWildcard = false) = true) :
    ∀ text ∈ texts, ∃ type : TypeRef, type.render = text ∧ type.IsRead ∧ type.isWildcard = false := by
  obtain ⟨u, parsed, each⟩ := exists_parse isSource found
  intro text member
  obtain ⟨type, within, isText, named⟩ := each text member
  exact ⟨type, isText, ⟨source, u, parsed, within⟩, named⟩

/-- Map entries with type arguments on two segments, and integers, as many as there are: in another file the
same method has other type arguments, and its dimensions stand in other places. -/
theorem erasure_exact_put :
    let put : Method := ⟨"put", [⟨"u.Map<K, ? super V[]>.Entry<E>[]", "all", false⟩, ⟨"int", "ns", true⟩],
      "void", .publicly, false, false, true, [], [], "A"⟩
    let twin : Method := ⟨"put", [⟨"u.Map.Entry<?>[]", "all", false⟩, ⟨"int[]", "ns", false⟩],
      "void", .packagePrivate, false, false, false, [], [], "B"⟩
    put.signature = "put(u.Map.Entry[],int[])" ∧ put.signature = twin.signature ∧
      ∃ params others : List FormalParameter, put.Takes params ∧ twin.Takes others ∧
        (∀ p ∈ params ++ others, p.type.IsRead ∧ p.type.isWildcard = false) ∧
        (∀ p ∈ params ++ others,
          eraseType p.type.render = p.type.qualifiedName ++ brackets p.type.dims) ∧
        params.map (·.erased) = others.map (·.erased) := by
  intro put twin
  have key : put.signature = "put(u.Map.Entry[],int[])" := by decide
  have same : put.signature = twin.signature := by decide
  have inFirst := @exists_isRead
    "interface A \x7bvoid put(u.Map<K, ? super V[]>.Entry<E>[] all, int... ns);\x7d"
    ["u.Map<K, ? super V[]>.Entry<E>[]", "int"] _ rfl (by decide +kernel)
  have inSecond := @exists_isRead "class B \x7bvoid put(u.Map.Entry<?> all[], int[] ns) \x7b\x7d\x7d"
    ["u.Map.Entry<?>", "int[]"] _ rfl (by decide +kernel)
  obtain ⟨⟨entries, isEntries, ofEntries⟩, second⟩ := List.forall_mem_cons.mp inFirst
  obtain ⟨counts, isCounts, ofCounts⟩ := List.forall_mem_singleton.mp second
  obtain ⟨⟨all, isAll, ofAll⟩, second⟩ := List.forall_mem_cons.mp inSecond
  obtain ⟨numbers, isNumbers, ofNumbers⟩ := List.forall_mem_singleton.mp second
  let params : List FormalParameter := [⟨[], entries, false, "all", 0⟩, ⟨[], counts, true, "ns", 0⟩]
  let others : List FormalParameter := [⟨[], all, false, "all", 1⟩, ⟨[], numbers, false, "ns", 0⟩]
  have takes : put.Takes params := by
    simp [put, params, Method.Takes, FormalParameter.described, FormalParameter.typeText, isEntries,
      isCounts, brackets, Text.times]
  have takes' : twin.Takes others := by
    simp [twin, others, Method.Takes, FormalParameter.described, FormalParameter.typeText, isAll,
      isNumbers, brackets, Text.times]
  have each : ∀ p ∈ params ++ others, p.type.IsRead ∧ p.type.isWildcard = false := by
    simp only [params, others, List.forall_mem_append, List.forall_mem_cons]
    exact ⟨⟨ofEntries, ofCounts, List.forall_mem_nil _⟩, ofAll, ofNumbers, List.forall_mem_nil _⟩
  exact ⟨key, same, params, others, takes, takes', each,
    fun p member => erasure_exact.1 p.type (each p member).1 (each p member).2,
    ((erasure_exact.2 put twin params others takes takes' each).mp same).2⟩

end Source

end Forwarder
