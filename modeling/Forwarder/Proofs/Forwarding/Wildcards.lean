/-
**Wildcards in a generated class.** The type arguments of a declaration may be wildcards. They are put for
the names of type parameters wherever these stand, and a wildcard is a type only inside of an argument
list.

* `Source.TypeRef.Worded.sheltered_iff` — a type argument is a wildcard, or has wildcards inside of argument
  lists alone.
* `Method.types`, `Emit.MethodDef.types` — the types of a method and of a generated one.
* `Forwarding.sheltered_override_iff` — when the wildcards of a forwarding method stay inside of argument
  lists.
* **`Forwarding.wildcards_exact`** — so they do in a generated class exactly if no name outside of argument
  lists stands for a wildcard.
* `wildcard_returned` — a method whose value is of a wildcard.
-/

import Forwarder.Proofs.Capture
import Forwarder.Proofs.Decoration.Texts
import Forwarder.Proofs.Forwarding.Signatures

open Forwarder.TypeName (Covered IsWordText Nested Sheltered outerNames)

namespace Forwarder

/-! ### Type arguments -/

/-- A text with wildcards inside of argument lists alone is no wildcard. -/
theorem TypeName.Sheltered.head? {type : String} (sheltered : Sheltered type) :
    type.toList.head? ≠ some '?' := by
  intro begins
  obtain ⟨back, split⟩ := List.head?_eq_some_iff.mp begins
  exact absurd (sheltered [] back split) (Nat.lt_irrefl 0)

namespace Source

theorem covered_of_isIdentifier {name : String} (named : isIdentifier name = true) :
    Covered name.toList := by
  have parts := isIdentPart_of_isIdentifier named
  refine TypeName.covered_of_plain (fun c member => isPlainChar_of_isIdentPart (parts c member)) ?_
  exact fun question => absurd (parts '?' question) (by decide)

theorem TypeSegment.Worded.covered {segment : TypeSegment} (worded : segment.Worded) :
    Covered segment.render.toList := by
  cases segment with
  | plain name => exact covered_of_isIdentifier worded.name
  | applied name args =>
    have inner := nested_renderArgs fun arg member => (worded.args arg member).isLevel
    simp only [render, String.toList_append]
    rw [List.append_assoc, List.append_assoc]
    exact (covered_of_isIdentifier worded.name).append inner.covered

namespace TypeRef

theorem covered_renderMore {segments : List TypeSegment}
    (each : ∀ segment ∈ segments, segment.Worded) : Covered (renderMore segments).toList := by
  induction segments with
  | nil => exact TypeName.covered_of_plain (List.forall_mem_nil _) List.not_mem_nil
  | cons segment segments ih =>
    obtain ⟨first, others⟩ := List.forall_mem_cons.mp each
    rw [renderMore, String.toList_append, String.toList_append]
    have point : Covered ".".toList :=
      TypeName.covered_of_plain (List.all_eq_true.mp (by decide)) (by decide)
    exact (point.append first.covered).append (ih others)

theorem covered_brackets (dims : Nat) : Covered (brackets dims).toList := by
  induction dims with
  | zero => exact TypeName.covered_of_plain (List.forall_mem_nil _) List.not_mem_nil
  | succ dims ih =>
    rw [brackets_succ, String.toList_append]
    exact (TypeName.covered_of_plain (List.all_eq_true.mp (by decide)) (by decide)).append ih

/-- What is no wildcard has them inside of argument lists alone. -/
theorem Worded.covered {type : TypeRef} (worded : type.Worded) (named : type.isWildcard = false) :
    Covered type.render.toList := by
  cases type with
  | wildcard | unfinished | bounded => cases named
  | named annotations first others dims =>
    obtain ⟨ofFirst, ofOthers⟩ := List.forall_mem_cons.mp (worded_named.mp worded)
    simp only [render, String.toList_append]
    exact (ofFirst.covered.append (covered_renderMore ofOthers)).append (covered_brackets dims)

theorem Worded.sheltered_iff {type : TypeRef} (worded : type.Worded) :
    Sheltered type.render ↔ type.render.toList.head? ≠ some '?' := by
  refine ⟨TypeName.Sheltered.head?, fun other => ?_⟩
  cases isWildcard : type.isWildcard with
  | false => exact (worded.covered isWildcard).sheltered
  | true =>
    cases type with
    | wildcard | unfinished | bounded => exact absurd (by simp [render]) other
    | named => cases isWildcard

end TypeRef

end Source

/-- The type arguments of a declaration that is read close their argument lists. -/
theorem Decoration.Worded.nested {d : Decoration} (worded : d.Worded) :
    ∀ arg ∈ d.typeArgs, Nested arg.toList := by
  intro arg member
  obtain ⟨type, isWorded, rfl⟩ := worded.typeArgs arg member
  exact isWorded.isLevel.toNested

/-! ### Forwarding methods -/

/-- The types that a method returns, takes and throws. -/
def Method.valueTypes (m : Method) : List String :=
  m.returns :: (m.params.map (·.type) ++ m.throws)

/-- The types that a generated method returns, takes and throws. -/
def Emit.MethodDef.valueTypes (g : Emit.MethodDef) : List String :=
  g.returns :: (g.params.map (·.type) ++ g.throws)

namespace Forwarding

open Emit (ClassDef CompilationUnit)

variable {d : Decoration} {s : Surface} {m : Method}

/-- The types of a method that its forwarding method takes over. A chained one returns the declared class
instead. -/
def keptTypes (s : Surface) (m : Method) : List String :=
  (if m.isVoid = false ∧ chains s m = true then [] else [m.returns]) ++
    (m.params.map (·.type) ++ m.throws)

theorem keptTypes_subset : keptTypes s m ⊆ m.valueTypes := by
  rw [keptTypes, Method.valueTypes]
  split_ifs
  · exact List.subset_cons_self _ _
  · exact List.Subset.refl _

theorem valueTypes_override (d : Decoration) (s : Surface) (m : Method) :
    (override d s m).valueTypes =
      (if m.isVoid = false ∧ chains s m = true then [declaredType d] else []) ++
        (keptTypes s m).map (TypeName.mapIdentifiers (resolved d s m)) := by
  obtain ⟨-, params, throws, returns⟩ := types_override d s m
  rw [Emit.MethodDef.valueTypes, params, throws, returns, keptTypes]
  split_ifs <;> simp [Method.substituted, TypeName.substitute, resolved, Function.comp_def]

theorem covered_parameterized {name : String} {args : List String} (covered : Covered name.toList)
    (nested : ∀ arg ∈ args, Nested arg.toList) : Covered (parameterized name args).toList := by
  rw [parameterized]
  split
  · exact covered
  · simp only [String.toList_append]
    rw [List.append_assoc, List.append_assoc]
    exact covered.append (Source.nested_join nested).covered

/-- The class that is declared, and the type that is decorated, have wildcards inside of argument lists
alone. -/
theorem sheltered_declaredType (worded : d.Worded) : Sheltered (declaredType d) :=
  (covered_parameterized (Source.covered_of_isIdentifier worded.className) fun name member =>
    (Source.covered_of_isIdentifier (worded.typeParams name member)).toNested).sheltered

theorem sheltered_delegateType (worded : d.Worded) : Sheltered (delegateType d) :=
  (covered_parameterized (Source.covered_of_isIdentifier worded.simpleName) worded.nested).sheltered

/-- What stands for a name is a wildcard, or has them inside of argument lists alone. -/
theorem sheltered_resolved_iff (worded : d.Worded) {name : String} (word : IsWordText name) :
    Sheltered (resolved d s m name) ↔ (resolved d s m name).toList.head? ≠ some '?' := by
  have plain {text : String} (word : IsWordText text) : Sheltered text := by
    have none_ : '?' ∉ text.toList := fun question => absurd (word '?' question) (by decide)
    exact (TypeName.covered_of_plain (fun c member =>
      TypeName.isPlainChar_of_isNamePart (word c member)) none_).sheltered
  have object : Sheltered "Object" := plain (List.all_eq_true.mp (by decide))
  have argument : ∀ arg ∈ d.typeArgs, Sheltered arg ↔ arg.toList.head? ≠ some '?' := by
    intro arg member
    obtain ⟨type, isWorded, rfl⟩ := worded.typeArgs arg member
    exact isWorded.sheltered_iff
  rcases TypeName.Substitution.apply_cases (typeArguments d s) (TypeName.typeParamNames m.typeParams) name
    with same | ⟨-, entry⟩
  · rw [resolved, same]
    exact ⟨TypeName.Sheltered.head?, fun _ => plain word⟩
  · rcases TypeName.Substitution.ofArguments_mem (P := fun arg =>
      Sheltered arg ↔ arg.toList.head? ≠ some '?') ⟨TypeName.Sheltered.head?, fun _ => object⟩ argument _
      entry with absurd | ⟨-, holds⟩
    · cases absurd
    · exact holds

/-- **The wildcards of a forwarding method** stay inside of argument lists exactly if no name outside of
them, in a type that is taken over, stands for a wildcard. -/
theorem sheltered_override_iff (worded : d.Worded) (sheltered : ∀ type ∈ m.valueTypes, Sheltered type) :
    (∀ type ∈ (override d s m).valueTypes, Sheltered type) ↔
      ∀ type ∈ keptTypes s m, ∀ name ∈ outerNames type,
        (resolved d s m name).toList.head? ≠ some '?' := by
  have declared : ∀ type ∈ (if m.isVoid = false ∧ chains s m = true then [declaredType d] else []),
      Sheltered type := by
    split_ifs
    · exact List.forall_mem_singleton.mpr (sheltered_declaredType worded)
    · exact List.forall_mem_nil _
  rw [valueTypes_override, List.forall_mem_append, and_iff_right declared, List.forall_mem_map]
  refine forall₂_congr fun type member => ?_
  rw [TypeName.sheltered_mapIdentifiers (closedTexts_resolved worded.nested m)
    (sheltered type (keptTypes_subset member))]
  exact forall₂_congr fun name isName =>
    sheltered_resolved_iff worded (TypeName.isWordText_of_mem_outerNames isName)

/-- **Where wildcards go.** A declaration that is read and the surface of its type, in which wildcards
stand inside of argument lists alone, give a class. Its accessor has them there alone, and so has a
forwarding method exactly if no name outside of argument lists, in a type that is taken over, stands for
a wildcard. -/
theorem wildcards_exact {file text : String} (accepted : Decoration.read file text = .present d)
    (described : s.name = d.decorated)
    (sheltered : ∀ m ∈ s.methods, ∀ type ∈ m.valueTypes, Sheltered type) :
    ∃ (unit : CompilationUnit) (c : ClassDef),
      synthesize d (some s) = .ok ⟨packageName d, d.implName, unit.render⟩ ∧ unit.classes = [c] ∧
      c.methods = accessor d :: (forwarded s).map (override d s) ∧
      (∀ type ∈ (accessor d).valueTypes, Sheltered type) ∧
      ∀ m ∈ forwarded s, ((∀ type ∈ (override d s m).valueTypes, Sheltered type) ↔
        ∀ type ∈ keptTypes s m, ∀ name ∈ outerNames type,
          (resolved d s m name).toList.head? ≠ some '?') := by
  have worded := Decoration.worded_of_read accepted
  refine ⟨unit d (overrides d s), implClass d (overrides d s), synthesize_eq_ok worded.isValid described, rfl, rfl,
    List.forall_mem_singleton.mpr (sheltered_delegateType worded), fun m member => ?_⟩
  have ofSurface : m ∈ s.methods :=
    (List.mem_filter.mp ((Method.unseen_sublist _ _).mem member)).1
  exact sheltered_override_iff worded (sheltered m ofSurface)

/-- A declaration that decorates piles of anything of a kind `T`. -/
def itemsText : String :=
  "package p; import q.Pile; abstract class Items<T> implements Decorator<Pile<? extends T>> \x7b\x7d"

/-- What it says. -/
def items : Decoration :=
  ⟨"Items", "p", "q.Pile", ["T"], ["? extends T"], "Items.java"⟩

theorem read_items : Decoration.read "Items.java" itemsText = .present items :=
  Decoration.read_of_chars rfl (by decide +kernel)

/-- A method that takes a number and has a value of this type. -/
def getMethod (returns : String) : Method :=
  ⟨"get", [⟨"int", "index", false⟩], returns, .publicly, false, false, true, [], [], "q.Pile"⟩

/-- Piles with this method alone. -/
def pileSurface (returns : String) : Surface :=
  ⟨"q.Pile", ["E"], [], [getMethod returns]⟩

theorem wildcards_exact_optional :
    Decoration.read "Items.java" itemsText = .present items ∧
      (pileSurface "Optional<E>").name = items.decorated ∧
      (∀ m ∈ (pileSurface "Optional<E>").methods, ∀ type ∈ m.valueTypes, Sheltered type) ∧
      ∃ (unit : CompilationUnit) (c : ClassDef),
        synthesize items (some (pileSurface "Optional<E>")) =
          .ok ⟨packageName items, items.implName, unit.render⟩ ∧ unit.classes = [c] ∧
        ∀ g ∈ c.methods, ∀ type ∈ g.valueTypes, Sheltered type := by
  have sheltered : ∀ m ∈ (pileSurface "Optional<E>").methods, ∀ type ∈ m.valueTypes, Sheltered type := by
    decide
  have noWildcard : ∀ m ∈ forwarded (pileSurface "Optional<E>"),
      ∀ type ∈ keptTypes (pileSurface "Optional<E>") m, ∀ name ∈ outerNames type,
        (resolved items (pileSurface "Optional<E>") m name).toList.head? ≠ some '?' := by
    decide
  obtain ⟨unit, c, synthesized, classes, methods, ofAccessor, each⟩ :=
    wildcards_exact read_items rfl sheltered
  refine ⟨read_items, rfl, sheltered, unit, c, synthesized, classes, ?_⟩
  rw [methods]
  exact List.forall_mem_cons.mpr ⟨ofAccessor, List.forall_mem_map.mpr fun m member =>
    (each m member).mpr (noWildcard m member)⟩

/-- **A wildcard is returned.** The value of the method is of the type `E`, and the forwarding method
returns a `? extends T`. -/
theorem wildcard_returned :
    Decoration.read "Items.java" itemsText = .present items ∧
      (pileSurface "E").name = items.decorated ∧
      (∀ m ∈ (pileSurface "E").methods, ∀ type ∈ m.valueTypes, Sheltered type) ∧
      ∃ (unit : CompilationUnit) (c : ClassDef),
        synthesize items (some (pileSurface "E")) =
          .ok ⟨packageName items, items.implName, unit.render⟩ ∧ unit.classes = [c] ∧
        ∃ g ∈ c.methods, g.name = "get" ∧ g.returns = "? extends T" ∧ ¬Sheltered g.returns :=
  ⟨read_items, rfl, by decide, unit items (overrides items (pileSurface "E")),
    implClass items (overrides items (pileSurface "E")),
    synthesize_eq_ok (by decide) rfl, rfl, override items (pileSurface "E") (getMethod "E"),
    List.mem_cons_of_mem _ (List.mem_map_of_mem (by decide)), by decide⟩

end Forwarding

end Forwarder
