/-
**Substitution in texts and in references.** Type arguments are put for type variables in the texts of types,
by a scanner of names that knows nothing of types. It does what a substitution in the references does: every
reference that is one name alone gives way to what is put for the name, with its own dimensions behind it, and
nothing is put into what has been put.

The two differ where a mapped name has type arguments itself, since the text then has another name in front
of them; such names have to be protected. The scanner also meets the keywords of wildcards.

* `TypeRef.substituted` — the substitution in references.
* `TypeRef.appliedNames` — the names that have type arguments.
* **`TypeRef.renames_substituted`** — the text of a reference is rewritten to that of the substituted one.
* **`substitute_render`** — substitution in the text of a reference is substitution in the reference.
-/

import Forwarder.Proofs.Source.Identifiers
import Forwarder.Proofs.Source.Renaming

open Forwarder.TypeName (Renames Substitution isBetween)

namespace Forwarder.Source

/-! ### References -/

/-- The name of a reference that is one name alone, from its segments. -/
def loneName? : TypeSegment → List TypeSegment → Option String
  | .plain name, [] => some name
  | _, _ => none

mutual

/-- The reference with other references put for names, at every depth. A reference that is one name alone is
replaced, and its dimensions are put behind; all other names stay. -/
def TypeRef.substituted (put : String → Option TypeRef) : TypeRef → TypeRef
  | .wildcard annotations dims => .wildcard annotations dims
  | .unfinished annotations bound dims => .unfinished annotations bound dims
  | .bounded annotations bound type dims => .bounded annotations bound (type.substituted put) dims
  | .named annotations first others dims =>
    match (loneName? first others).bind put with
    | some type => type.widen dims
    | none => .named annotations (first.substituted put) (moreSubstituted put others) dims

/-- The segment with references put for the names in its arguments. -/
def TypeSegment.substituted (put : String → Option TypeRef) : TypeSegment → TypeSegment
  | .plain name => .plain name
  | .applied name args => .applied name (argsSubstituted put args)

/-- The same for segments. -/
def moreSubstituted (put : String → Option TypeRef) : List TypeSegment → List TypeSegment
  | [] => []
  | segment :: others => segment.substituted put :: moreSubstituted put others

/-- The same for type arguments. -/
def argsSubstituted (put : String → Option TypeRef) : List TypeRef → List TypeRef
  | [] => []
  | type :: others => type.substituted put :: argsSubstituted put others

end

section Substituted

variable {put : String → Option TypeRef}

theorem moreSubstituted_eq (segments : List TypeSegment) :
    moreSubstituted put segments = segments.map (TypeSegment.substituted put) := by
  induction segments with
  | nil => rfl
  | cons first others ih => rw [moreSubstituted, ih, List.map_cons]

theorem argsSubstituted_eq (args : List TypeRef) :
    argsSubstituted put args = args.map (TypeRef.substituted put) := by
  induction args with
  | nil => rfl
  | cons first others ih => rw [argsSubstituted, ih, List.map_cons]

theorem TypeSegment.substituted_eq (segment : TypeSegment) :
    segment.substituted put = segment.withArgs (argsSubstituted put segment.args) := by
  cases segment <;> rfl

/-! ### Names with type arguments -/

/-- The name of a segment that has type arguments. -/
def TypeSegment.appliedName? : TypeSegment → Option String
  | .plain _ => none
  | .applied name _ => some name

/-- The names in a reference that have type arguments, at any depth. -/
def TypeRef.appliedNames (type : TypeRef) : List String :=
  type.parts.flatMap fun part => part.segments.filterMap TypeSegment.appliedName?

/-- The segment has a name, and if it has type arguments, nothing is put for this name. -/
structure TypeSegment.Fits (put : String → Option TypeRef) (segment : TypeSegment) : Prop where
  isName : isName segment.name = true
  kept : ∀ name ∈ segment.appliedName?, put name = none

/-- All segments in the reference are of this kind, at any depth. -/
def TypeRef.Fits (put : String → Option TypeRef) (type : TypeRef) : Prop :=
  ∀ part ∈ type.parts, ∀ segment ∈ part.segments, segment.Fits put

theorem fits_bounded {annotations : List AnnotationUse} {bound : Bound} {type : TypeRef} {dims : Nat}
    (fits : (TypeRef.bounded annotations bound type dims).Fits put) : type.Fits put :=
  (forall_mem_parts_bounded.mp fits).2

theorem fits_named {annotations : List AnnotationUse} {first : TypeSegment} {others : List TypeSegment}
    {dims : Nat} (fits : (TypeRef.named annotations first others dims).Fits put) :
    ∀ segment ∈ first :: others, segment.Fits put ∧ ∀ arg ∈ segment.args, arg.Fits put := by
  obtain ⟨here, inside⟩ := forall_mem_parts_named.mp fits
  exact fun segment member => ⟨here segment member, inside segment member⟩

/-! ### Their texts -/

/-- The dimensions of a replaced reference stand behind what is put for it. -/
theorem render_substituted_plain (annotations : List AnnotationUse) (name : String) (dims : Nat) :
    ((TypeRef.named annotations (.plain name) [] dims).substituted put).render =
      ((put name).map (·.render)).getD name ++ brackets dims := by
  have substituted : (TypeRef.named annotations (.plain name) [] dims).substituted put =
      match put name with
      | some type => type.widen dims
      | none => .named annotations (.plain name) [] dims := by
    rw [TypeRef.substituted]
    rfl
  rw [substituted]
  cases put name with
  | none => exact TypeRef.render_plain annotations name dims
  | some type => exact type.render_widen dims

section Rewritten

variable {f : String → String}

/-- Arguments that are rewritten one by one. -/
theorem renames_args {args : List TypeRef}
    (each : ∀ arg ∈ args, Renames f arg.render (arg.substituted put).render) :
    Renames f (renderArgs args) (renderArgs (argsSubstituted put args)) := by
  rw [renderArgs_eq, renderArgs_eq, argsSubstituted_eq, List.map_map]
  refine Renames.join (by decide : isBetween ", " = true) ?_
  rw [List.forall₂_map_left_iff, List.forall₂_map_right_iff, List.forall₂_same]
  exact each

/-- Segments whose arguments are rewritten. -/
theorem turnsInto_more {segments : List TypeSegment} (fits : ∀ segment ∈ segments, segment.Fits put)
    (each : ∀ segment ∈ segments,
      Renames f (renderArgs segment.args) (renderArgs (argsSubstituted put segment.args))) :
    List.Forall₂ (TypeSegment.TurnsInto f) segments (moreSubstituted put segments) := by
  rw [moreSubstituted_eq, List.forall₂_map_right_iff, List.forall₂_same]
  intro segment member
  rw [segment.substituted_eq]
  exact TypeSegment.turnsInto (fits segment member).isName (each segment member)

/-- A reference by its segments, if the arguments of all segments are rewritten. -/
theorem renames_named (puts : ∀ name, f name = ((put name).map (·.render)).getD name)
    {first : TypeSegment} {others : List TypeSegment} (fits : ∀ segment ∈ first :: others, segment.Fits put)
    (each : ∀ segment ∈ first :: others,
      Renames f (renderArgs segment.args) (renderArgs (argsSubstituted put segment.args)))
    (annotations : List AnnotationUse) (dims : Nat) :
    Renames f (TypeRef.named annotations first others dims).render
      ((TypeRef.named annotations first others dims).substituted put).render := by
  obtain ⟨fitsFirst, fitsOthers⟩ := List.forall_mem_cons.mp fits
  obtain ⟨ofFirst, ofOthers⟩ := List.forall_mem_cons.mp each
  have turns := turnsInto_more fitsOthers ofOthers
  match first, others with
  | .plain name, [] =>
    rw [render_substituted_plain, ← puts name]
    exact renames_plain fitsFirst.isName annotations dims
  | .plain name, segment :: segments => exact renames_qualified fitsFirst.isName turns _ _ dims
  | .applied name args, segments =>
    have isWord : isName name = true := fitsFirst.isName
    have applied := renames_applied (f := f) isWord ofFirst turns annotations dims
    rw [puts name, fitsFirst.kept name rfl] at applied
    exact applied

/-- **A reference whose names are replaced** has the text of the substituted one, if the text of what is put
for a name is put for the name. -/
theorem TypeRef.renames_substituted (puts : ∀ name, f name = ((put name).map (·.render)).getD name)
    (keyword : ∀ bound : Bound, f bound.keyword = bound.keyword) (type : TypeRef) :
    type.Fits put → Renames f type.render (type.substituted put).render := by
  refine TypeRef.holds
    (P := fun type => type.Fits put → Renames f type.render (type.substituted put).render)
    (Q := fun segment => (∀ arg ∈ segment.args, arg.Fits put) →
      Renames f (renderArgs segment.args) (renderArgs (argsSubstituted put segment.args)))
    ?_ ?_ ?_ ?_ ?_ ?_ type
  · intro _ dims _
    exact renames_brackets (Renames.marks (by decide)) dims
  · intro _ _ dims _
    exact renames_brackets (Renames.marks (by decide)) dims
  · intro annotations bound type dims ih fits
    exact renames_bounded (keyword bound) (ih (fits_bounded fits)) annotations dims
  · intro annotations first others dims ihFirst ihOthers fits
    have each := List.forall_mem_cons.mpr ⟨ihFirst, ihOthers⟩
    refine renames_named puts (fun segment member => (fits_named fits segment member).1)
      (fun segment member => each segment member (fits_named fits segment member).2) annotations dims
  · exact fun _ _ => Renames.empty
  · intro name args ih fits
    exact renames_args fun arg member => ih arg member (fits arg member)

end Rewritten

end Substituted

/-! ### Mappings -/

/-- The texts of the references that are put for names. -/
def texts (mapping : List (String × TypeRef)) : Substitution :=
  mapping.map fun entry => (entry.1, entry.2.render)

/-- What is put for a name: its entry, unless it is protected. -/
def replacement? (mapping : List (String × TypeRef)) (skip : List String) (name : String) : Option TypeRef :=
  if skip.contains name then none else mapping.lookup name

theorem lookup_texts (mapping : List (String × TypeRef)) (name : String) :
    (texts mapping).lookup name = (mapping.lookup name).map (·.render) := by
  induction mapping with
  | nil => rfl
  | cons entry others ih =>
    have step : texts (entry :: others) = (entry.1, entry.2.render) :: texts others := rfl
    rw [step, List.lookup_cons, List.lookup_cons]
    cases name == entry.1 with
    | true => rfl
    | false => exact ih

/-- A name that is not mapped is kept. -/
theorem replacement?_eq_none {mapping : List (String × TypeRef)} {skip : List String} {name : String}
    (kept : name ∈ mapping.map (·.1) → name ∈ skip) : replacement? mapping skip name = none := by
  rw [replacement?]
  split_ifs with skipped
  · rfl
  · refine List.lookup_eq_none_iff.mpr fun entry member => ?_
    rw [bne_iff_ne]
    rintro rfl
    exact skipped (List.contains_iff_mem.mpr (kept (List.mem_map_of_mem member)))

theorem apply_texts (mapping : List (String × TypeRef)) (skip : List String) (name : String) :
    (texts mapping).apply skip name = ((replacement? mapping skip name).map (·.render)).getD name := by
  rw [Substitution.apply, replacement?, lookup_texts]
  split_ifs <;> rfl

/-- **Substitution in the text of a reference** is substitution in the reference. The names in it are letters,
decimal digits, underscores and dollar signs; neither of the keywords of wildcards is a mapped name, and the
mapped names that have type arguments in the reference are protected. -/
theorem substitute_render (type : TypeRef) (mapping : List (String × TypeRef)) (skip : List String)
    (named : ∀ name ∈ type.identifiers, isName name = true)
    (keyword : ∀ bound : Bound, bound.keyword ∉ mapping.map (·.1))
    (kept : ∀ name ∈ type.appliedNames, name ∈ mapping.map (·.1) → name ∈ skip) :
    TypeName.substitute (texts mapping) skip type.render =
      (type.substituted (replacement? mapping skip)).render := by
  have fits : type.Fits (replacement? mapping skip) := fun part isPart segment member =>
    { isName := forall_mem_identifiers.mp named part isPart segment member
      kept := fun name isApplied => replacement?_eq_none (kept name
        (List.mem_flatMap.mpr ⟨part, isPart, List.mem_filterMap.mpr ⟨segment, member, isApplied⟩⟩)) }
  have keeps (bound : Bound) : (texts mapping).apply skip bound.keyword = bound.keyword := by
    rw [apply_texts, replacement?_eq_none fun mapped => (keyword bound mapped).elim]
    rfl
  exact (type.renames_substituted (apply_texts mapping skip) keeps fits).mapIdentifiers

/-- In `java.util.Map<K, ? extends List<V[]>>[]` an array is put for `V` and `V` for `K`, while `List` is
protected. -/
theorem substitute_render_map :
    let list := TypeSegment.applied "List" [.named [] (.plain "V") [] 1]
    let map := TypeSegment.applied "Map" [.named [] (.plain "K") [] 0,
      .bounded [] .upper (.named [] list [] 0) 0]
    let type := TypeRef.named [] (.plain "java") [.plain "util", map] 1
    let mapping := [("K", .named [] (.plain "V") [] 0), ("V", .named [] (.plain "String") [] 1),
      ("List", .wildcard [] 0)]
    (∀ name ∈ type.identifiers, isName name = true) ∧
      (∀ bound : Bound, bound.keyword ∉ mapping.map (·.1)) ∧
      (∀ name ∈ type.appliedNames, name ∈ mapping.map (·.1) → name ∈ ["List"]) ∧
      TypeName.substitute (texts mapping) ["List"] "java.util.Map<K, ? extends List<V[]>>[]" =
        "java.util.Map<V, ? extends List<String[][]>>[]" := by
  intro list map type mapping
  have named : ∀ name ∈ type.identifiers, isName name = true := by decide
  have keyword : ∀ bound : Bound, bound.keyword ∉ mapping.map (·.1) := by
    rintro (_ | _) <;> decide
  have kept : ∀ name ∈ type.appliedNames, name ∈ mapping.map (·.1) → name ∈ ["List"] := by decide
  exact ⟨named, keyword, kept, substitute_render type mapping ["List"] named keyword kept⟩

end Forwarder.Source
