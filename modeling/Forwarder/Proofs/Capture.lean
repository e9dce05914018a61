/-
**Type arguments and the type parameters of methods.** A generic method has type parameters of its own.
Where type arguments are put in for the type variables around it, these are left alone, but they are not
renamed either: a name inside an argument that the method declares itself is captured.

* `Method.typeParamNames_substituted` — the type parameters of a method keep their names.
* `Referent` — what a name in a type of a method stands for.
* `Method.Receives` — the names that arguments bring into the types of a method.
* **`Method.referents_substituted_iff`** — the names keep their meaning exactly if none is captured.
* **`Forwarding.capture_exact`** — so it is for what a type inherits and for forwarding methods, and
  `captured_put` — a method where a name is captured.
-/

import Forwarder.Forwarding
import Forwarder.Proofs.Composition

open Forwarder.Source (Declares isName isName_iff not_isBlank_of_isNamePart)
open Forwarder.TypeName (Substitution identifiers substitute typeParamNames)

namespace Forwarder

/-! ### The type parameters of a method -/

/-- A type parameter gets the name that is put for its own. -/
theorem Source.Declares.mapIdentifiers {name text : String} (declares : Declares name text)
    {f : String → String} (replaced : isName (f name) = true) :
    Declares (f name) (TypeName.mapIdentifiers f text) := by
  obtain ⟨isWord, rest, chars, blank⟩ := declares
  have parts : TypeName.Parts rest := by
    constructor
    · intro c isFirst
      by_contra part
      have other := not_isBlank_of_isNamePart (by simpa using part)
      rw [blank c isFirst] at other
      cases other
    · intro isPoint
      exact absurd (blank '.' isPoint) (by decide)
  refine ⟨replaced, TypeName.rewriteFrom f none [] rest, ?_, ?_⟩
  · rw [TypeName.mapIdentifiers, String.toList_ofList, chars,
      TypeName.rewriteFrom_free isWord (by simp) parts.1 parts.2 none]
  · cases rest with
    | nil => simp [TypeName.rewriteFrom]
    | cons c rest =>
      rw [TypeName.rewriteFrom_mark (TypeName.isNameStart_of_isNamePart (parts.1 c rfl))]
      exact blank

namespace Method

variable {m : Method}

/-- The texts of the type parameters begin with their names. -/
def DeclaresNames (m : Method) : Prop :=
  ∀ text ∈ m.typeParams, ∃ name, Declares name text

/-- **The type parameters of a method keep their names.** -/
theorem typeParamNames_substituted (declares : m.DeclaresNames) (mapping : Substitution) :
    typeParamNames (m.substituted mapping).typeParams = typeParamNames m.typeParams := by
  show typeParamNames (m.typeParams.map _) = _
  rw [typeParamNames, typeParamNames, List.filterMap_map]
  refine List.filterMap_congr fun text isParam => ?_
  obtain ⟨name, declared⟩ := declares text isParam
  have isOwn : name ∈ typeParamNames m.typeParams :=
    List.mem_filterMap.mpr ⟨text, isParam, declared.fields_head⟩
  have kept : mapping.apply (typeParamNames m.typeParams) name = name := by
    rw [Substitution.apply, if_pos (List.contains_iff_mem.mpr isOwn)]
  rw [Function.comp_apply, declared.fields_head]
  have renamed := declared.mapIdentifiers (kept.symm ▸ declared.1)
  rw [kept] at renamed
  exact renamed.fields_head

end Method

/-! ### What names stand for -/

/-- What a name in a type of a method stands for. -/
inductive Referent
  /-- A type parameter of the method. -/
  | own (name : String)
  /-- A type variable or a type that is declared around it. -/
  | outer (name : String)
deriving DecidableEq, Repr

namespace Referent

/-- What a name stands for where these type parameters are declared. -/
def ofName (declared : List String) (name : String) : Referent :=
  if name ∈ declared then own name else outer name

/-- What the names of a type stand for. -/
def ofType (declared : List String) (type : String) : List Referent :=
  (identifiers type).map (ofName declared)

/-- The meaning of a name with type arguments. What is declared around a method is replaced, by what is
declared around it as well. -/
def resolve (mapping : Substitution) : Referent → List Referent
  | own name => [own name]
  | outer name => (identifiers (mapping.apply [] name)).map outer

theorem ofName_eq_outer_iff {declared : List String} {name : String} :
    ofName declared name = outer name ↔ name ∉ declared := by
  unfold ofName
  split_ifs with isOwn <;> simp [isOwn]

end Referent

/-- Lists that are put together from pieces of the same lengths. -/
theorem flatMap_inj {α β : Type} {f g : α → List β} {items : List α}
    (lengths : ∀ a ∈ items, (f a).length = (g a).length) :
    items.flatMap f = items.flatMap g ↔ ∀ a ∈ items, f a = g a := by
  induction items with
  | nil => simp
  | cons a items ih =>
    obtain ⟨first, others⟩ := List.forall_mem_cons.mp lengths
    rw [List.flatMap_cons, List.flatMap_cons, List.forall_mem_cons, ← ih others]
    constructor
    · exact fun same => List.append_inj same first
    · rintro ⟨same, sames⟩
      rw [same, sames]

namespace Referent

variable {mapping : Substitution} {declared : List String} {name : String}

theorem resolve_ofName (mapping : Substitution) (declared : List String) (name : String) :
    (ofName declared name).resolve mapping = if name ∈ declared then [own name]
      else (identifiers (mapping.apply declared name)).map outer := by
  unfold ofName
  split_ifs with isOwn
  · rfl
  · rw [resolve, Substitution.apply, Substitution.apply, if_neg (by simp),
      if_neg (by simpa using isOwn)]

/-- The type parameters of the method are left alone. -/
theorem ofName_apply_own (isWord : isName name = true) (isOwn : name ∈ declared) :
    (identifiers (mapping.apply declared name)).map (ofName declared) =
      (ofName declared name).resolve mapping := by
  rw [resolve_ofName, if_pos isOwn, Substitution.apply, if_pos (List.contains_iff_mem.mpr isOwn),
    TypeName.identifiers_name isWord]
  simp [ofName, isOwn]

/-- **A type keeps its meaning** exactly if no name that is put into it is declared by the method. -/
theorem ofType_substitute_iff (mapping : Substitution) (declared : List String) (type : String) :
    ofType declared (substitute mapping declared type) =
        (ofType declared type).flatMap (resolve mapping) ↔
      ∀ name ∈ identifiers type, name ∉ declared →
        ∀ X ∈ identifiers (mapping.apply declared name), X ∉ declared := by
  rw [ofType, ofType, substitute, TypeName.identifiers_mapIdentifiers, List.map_flatMap,
    List.flatMap_map, flatMap_inj fun name listed => ?_]
  · refine forall₂_congr fun name listed => ?_
    by_cases isOwn : name ∈ declared
    · simp [ofName_apply_own (TypeName.isName_of_mem_identifiers listed) isOwn, isOwn]
    · rw [resolve_ofName, if_neg isOwn, List.map_inj_left]
      simp only [ofName_eq_outer_iff, isOwn, not_false_eq_true, true_imp_iff]
  · by_cases isOwn : name ∈ declared
    · rw [ofName_apply_own (TypeName.isName_of_mem_identifiers listed) isOwn]
    · rw [resolve_ofName, if_neg isOwn, List.length_map, List.length_map]

end Referent

namespace Method

variable {m : Method}

/-- The types of a method, its type parameters with their bounds first. -/
def types (m : Method) : List String :=
  m.typeParams ++ m.params.map (·.type) ++ m.throws ++ [m.returns]

/-- What the names in the types of a method stand for. -/
def referents (m : Method) : List (List Referent) :=
  m.types.map (Referent.ofType (typeParamNames m.typeParams))

/-- What they are to stand for with type arguments. -/
def resolved (m : Method) (mapping : Substitution) : List (List Referent) :=
  m.referents.map (·.flatMap (Referent.resolve mapping))

/-- A type argument that is put into a type of the method holds the name. -/
def Receives (m : Method) (mapping : Substitution) (X : String) : Prop :=
  ∃ type ∈ m.types, ∃ name ∈ identifiers type, name ∉ typeParamNames m.typeParams ∧
    ∃ text ∈ mapping.lookup name, X ∈ identifiers text

instance (m : Method) (mapping : Substitution) : DecidablePred (m.Receives mapping) := fun X =>
  inferInstanceAs (Decidable (∃ type ∈ m.types, ∃ name ∈ identifiers type,
    name ∉ typeParamNames m.typeParams ∧ ∃ text ∈ mapping.lookup name, X ∈ identifiers text))

theorem types_substituted (m : Method) (mapping : Substitution) : (m.substituted mapping).types =
    m.types.map (substitute mapping (typeParamNames m.typeParams)) := by
  simp [types, substituted]

/-- **The names of a method keep their meaning** exactly if none that an argument brings along is a type
parameter of the method. -/
theorem referents_substituted_iff (declares : m.DeclaresNames) (mapping : Substitution) :
    (m.substituted mapping).referents = m.resolved mapping ↔
      ∀ X, m.Receives mapping X → X ∉ typeParamNames m.typeParams := by
  rw [referents, typeParamNames_substituted declares, types_substituted, resolved, referents,
    List.map_map, List.map_map, List.map_inj_left]
  simp only [Function.comp_apply, Referent.ofType_substitute_iff]
  constructor
  · rintro clean X ⟨type, isType, name, listed, other, text, found, member⟩
    refine clean type isType name listed other X ?_
    rw [Substitution.apply, if_neg (by simpa using other), Option.mem_def.mp found]
    exact member
  · intro clean type isType name listed other X member
    rw [Substitution.apply, if_neg (by simpa using other)] at member
    cases found : mapping.lookup name with
    | none =>
      rw [found, Option.getD_none,
        TypeName.identifiers_name (TypeName.isName_of_mem_identifiers listed)] at member
      rwa [List.mem_singleton.mp member]
    | some text =>
      rw [found, Option.getD_some] at member
      exact clean X ⟨type, isType, name, listed, other, text, found, member⟩

end Method

/-! ### Forwarding methods -/

namespace Forwarding

/-- A forwarding method has the types of its method with the type arguments of the declaration. A chained
one returns the declared class instead. -/
theorem types_override (d : Decoration) (s : Surface) (m : Method) :
    (override d s m).typeParams = (m.substituted (typeArguments d s)).typeParams ∧
    (override d s m).params.map (·.type) = (m.substituted (typeArguments d s)).params.map (·.type) ∧
    (override d s m).throws = (m.substituted (typeArguments d s)).throws ∧
    (override d s m).returns = if m.isVoid = false ∧ chains s m = true then declaredType d
      else (m.substituted (typeArguments d s)).returns := by
  unfold override
  by_cases isVoid : m.isVoid = true
  · simp [isVoid, Method.substituted]
  · by_cases chained : chains s m = true <;> simp [isVoid, chained, Method.substituted]

/-- **Where names are captured**, both in what a type inherits with its type arguments and in a
forwarding method with those of the declaration. A name in an argument that is put in is a type parameter
of the result exactly if it is one of the method, and exactly if there is none such all names keep their
meaning. -/
theorem capture_exact (m : Method) (declares : m.DeclaresNames) (s : Surface) (args : List String)
    (d : Decoration) :
    (∀ mapping ∈ [Substitution.ofArguments (typeParamNames s.typeParams) args [], typeArguments d s],
      (∀ X, m.Receives mapping X → (X ∉ typeParamNames (m.substituted mapping).typeParams ↔
        X ∉ typeParamNames m.typeParams)) ∧
      ((m.substituted mapping).referents = m.resolved mapping ↔
        ∀ X, m.Receives mapping X → X ∉ typeParamNames m.typeParams)) ∧
    (m ∈ s.methods →
      m.substituted (.ofArguments (typeParamNames s.typeParams) args []) ∈ s.inherited args) ∧
    (override d s m).typeParams = (m.substituted (typeArguments d s)).typeParams ∧
    (override d s m).params.map (·.type) = (m.substituted (typeArguments d s)).params.map (·.type) ∧
    (override d s m).throws = (m.substituted (typeArguments d s)).throws ∧
    (override d s m).returns = if m.isVoid = false ∧ chains s m = true then declaredType d
      else (m.substituted (typeArguments d s)).returns := by
  refine ⟨fun mapping _ => ⟨fun X _ => ?_, m.referents_substituted_iff declares mapping⟩,
    fun declared => List.mem_map_of_mem declared, types_override d s m⟩
  rw [Method.typeParamNames_substituted declares]

/-- A method of a type with the parameter `T` that takes a `T` and something of a type of its own. -/
def putMethod (own : String) : Method :=
  ⟨"put", [⟨"T", "value", false⟩, ⟨own, "other", false⟩], "void", .publicly, false, false, true, [own],
    [], "p.S"⟩

/-- The type that declares the method. -/
def putSurface (own : String) : Surface :=
  ⟨"p.S", ["T"], [], [putMethod own]⟩

/-- A declaration that gives its own type parameter `X` to the type. -/
def putDecoration : Decoration :=
  ⟨"A", "p", "p.S", ["X"], ["X"], "A.java"⟩

theorem capture_exact_put :
    (putMethod "U").Receives (.ofArguments ["T"] ["X"] []) "X" ∧
    ((putMethod "U").substituted (.ofArguments ["T"] ["X"] [])).referents =
      (putMethod "U").resolved (.ofArguments ["T"] ["X"] []) ∧
    (putMethod "U").Receives (typeArguments putDecoration (putSurface "U")) "X" ∧
    ((putMethod "U").substituted (typeArguments putDecoration (putSurface "U"))).referents =
      (putMethod "U").resolved (typeArguments putDecoration (putSurface "U")) := by
  have declares : (putMethod "U").DeclaresNames :=
    List.forall_mem_singleton.mpr ⟨"U", by decide, [], by decide, by simp⟩
  have captured := (capture_exact (putMethod "U") declares (putSurface "U") ["X"] putDecoration).1
  have clean {mapping : Substitution} (notOwn : ¬(putMethod "U").Receives mapping "U") (X : String)
      (received : (putMethod "U").Receives mapping X) : X ∉ typeParamNames (putMethod "U").typeParams := by
    intro isOwn
    obtain rfl : X = "U" := List.mem_singleton.mp isOwn
    exact notOwn received
  refine ⟨by decide, (captured _ List.mem_cons_self).2.mpr (clean (by decide)), by decide, ?_⟩
  exact (captured _ (List.mem_cons_of_mem _ List.mem_cons_self)).2.mpr (clean (by decide))

/-- **A name is captured.** The method declares an `X` itself, and the `X` of the argument becomes this
one, in what is inherited and in the forwarding method. -/
theorem captured_put :
    (putMethod "X").Receives (.ofArguments ["T"] ["X"] []) "X" ∧
    "X" ∈ typeParamNames ((putMethod "X").substituted (.ofArguments ["T"] ["X"] [])).typeParams ∧
    ((putMethod "X").substituted (.ofArguments ["T"] ["X"] [])).referents ≠
      (putMethod "X").resolved (.ofArguments ["T"] ["X"] []) ∧
    (putMethod "X").Receives (typeArguments putDecoration (putSurface "X")) "X" ∧
    "X" ∈ typeParamNames (override putDecoration (putSurface "X") (putMethod "X")).typeParams := by
  decide

end Forwarding

end Forwarder
