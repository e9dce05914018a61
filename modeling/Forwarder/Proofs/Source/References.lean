/-
**References inside references.** What a reference is made of, and the forms it has without its
annotations.

* `TypeRef.holds` — induction over references and segments.
* `TypeRef.parts` — a reference and those inside it, at any depth.
* `TypeRef.Worded` — all names are identifiers; `TypeRef.Brief` — no list in it is too long to be read;
  `TypeRef.Tidy` — both, and no dimension stands behind a bounded wildcard.
* `TypeRef.bare` — the reference without annotations; `TypeRef.settled` — without unfinished wildcards.
* `TypeRef.canonical` — the reference that its canonical text spells, with dimensions behind it; a tidy
  one is the bare one, settled (**`TypeRef.Tidy.canonical_zero`**).
-/

import Forwarder.Grammar.Rule
import Forwarder.Proofs.Source.Lexing
import Forwarder.Source.TypeRef

namespace Forwarder.Source

open Grammar (maxIterations)

/-! ### Induction -/

/-- A property of all references, proved together with one of all segments. -/
theorem TypeRef.holds {P : TypeRef → Prop} {Q : TypeSegment → Prop}
    (wildcard : ∀ annotations dims, P (.wildcard annotations dims))
    (unfinished : ∀ annotations bound dims, P (.unfinished annotations bound dims))
    (bounded : ∀ annotations bound type dims, P type → P (.bounded annotations bound type dims))
    (named : ∀ annotations first others dims, Q first → (∀ segment ∈ others, Q segment) →
      P (.named annotations first others dims))
    (plain : ∀ name, Q (.plain name))
    (applied : ∀ name args, (∀ type ∈ args, P type) → Q (.applied name args)) (type : TypeRef) :
    P type :=
  @TypeRef.rec P Q (fun segments => ∀ segment ∈ segments, Q segment)
    (fun args => ∀ type ∈ args, P type) wildcard unfinished bounded named plain applied
    (List.forall_mem_nil _) (fun _ _ first others => List.forall_mem_cons.mpr ⟨first, others⟩)
    (List.forall_mem_nil _) (fun _ _ first others => List.forall_mem_cons.mpr ⟨first, others⟩) type

/-! ### Parts -/

mutual

/-- The reference and those inside it. -/
def TypeRef.parts : TypeRef → List TypeRef
  | .wildcard annotations dims => [.wildcard annotations dims]
  | .unfinished annotations bound dims => [.unfinished annotations bound dims]
  | .bounded annotations bound type dims => .bounded annotations bound type dims :: type.parts
  | .named annotations first others dims =>
    .named annotations first others dims :: (first.parts ++ moreParts others)

/-- The references inside a segment. -/
def TypeSegment.parts : TypeSegment → List TypeRef
  | .plain _ => []
  | .applied _ args => argParts args

/-- The references inside segments. -/
def moreParts : List TypeSegment → List TypeRef
  | [] => []
  | segment :: others => segment.parts ++ moreParts others

/-- Type arguments and the references inside them. -/
def argParts : List TypeRef → List TypeRef
  | [] => []
  | type :: others => type.parts ++ argParts others

end

theorem moreParts_eq (segments : List TypeSegment) :
    moreParts segments = segments.flatMap TypeSegment.parts := by
  induction segments with
  | nil => rfl
  | cons first others ih => rw [moreParts, ih, List.flatMap_cons]

theorem argParts_eq (args : List TypeRef) : argParts args = args.flatMap TypeRef.parts := by
  induction args with
  | nil => rfl
  | cons first others ih => rw [argParts, ih, List.flatMap_cons]

theorem TypeSegment.parts_eq (segment : TypeSegment) :
    segment.parts = segment.args.flatMap TypeRef.parts := by
  cases segment with
  | plain => rfl
  | applied _ args => exact argParts_eq args

section Parts

variable {holds : TypeRef → Prop}

theorem forall_mem_parts_bounded {annotations : List AnnotationUse} {bound : Bound} {type : TypeRef}
    {dims : Nat} : (∀ part ∈ (TypeRef.bounded annotations bound type dims).parts, holds part) ↔
      holds (.bounded annotations bound type dims) ∧ ∀ part ∈ type.parts, holds part := by
  rw [TypeRef.parts, List.forall_mem_cons]

theorem forall_mem_parts_named {annotations : List AnnotationUse} {first : TypeSegment}
    {others : List TypeSegment} {dims : Nat} :
    (∀ part ∈ (TypeRef.named annotations first others dims).parts, holds part) ↔
      holds (.named annotations first others dims) ∧
        ∀ segment ∈ first :: others, ∀ arg ∈ segment.args, ∀ part ∈ arg.parts, holds part := by
  simp only [TypeRef.parts, moreParts_eq, TypeSegment.parts_eq, List.forall_mem_cons,
    List.forall_mem_append, List.mem_flatMap]
  constructor
  · rintro ⟨whole, ofFirst, ofOthers⟩
    exact ⟨whole, fun arg isArg part within => ofFirst part ⟨arg, isArg, within⟩,
      fun segment member arg isArg part within => ofOthers part ⟨segment, member, arg, isArg, within⟩⟩
  · rintro ⟨whole, ofFirst, ofOthers⟩
    exact ⟨whole, fun part ⟨arg, isArg, within⟩ => ofFirst arg isArg part within,
      fun part ⟨segment, member, arg, isArg, within⟩ => ofOthers segment member arg isArg part within⟩

end Parts

theorem TypeRef.self_mem_parts (type : TypeRef) : type ∈ type.parts := by
  cases type with
  | wildcard | unfinished | bounded | named => exact List.mem_cons_self

/-- What is inside a part is inside the whole. -/
theorem TypeRef.parts_subset {type part : TypeRef} (member : part ∈ type.parts) :
    part.parts ⊆ type.parts := by
  refine TypeRef.holds (P := fun type => ∀ part ∈ type.parts, part.parts ⊆ type.parts)
    (Q := fun segment => ∀ arg ∈ segment.args, ∀ part ∈ arg.parts, part.parts ⊆ arg.parts)
    ?_ ?_ ?_ ?_ ?_ ?_ type part member
  · intro annotations dims
    exact List.forall_mem_singleton.mpr fun _ within => within
  · intro annotations bound dims
    exact List.forall_mem_singleton.mpr fun _ within => within
  · intro annotations bound type dims ih
    exact forall_mem_parts_bounded.mpr ⟨fun _ within => within, fun part member _ within =>
      List.mem_cons_of_mem _ (ih part member within)⟩
  · intro annotations first others dims ihFirst ihOthers
    refine forall_mem_parts_named.mpr ⟨fun _ within => within, fun segment isSegment arg isArg part
      member inner within => ?_⟩
    have inArg := List.forall_mem_cons.mpr ⟨ihFirst, ihOthers⟩ segment isSegment arg isArg part member
      within
    exact (forall_mem_parts_named.mp fun _ isPart => isPart).2 segment isSegment arg isArg inner inArg
  · exact fun _ => List.forall_mem_nil _
  · exact fun _ _ ih => ih

/-! ### Names -/

/-- All names in a reference are identifiers. -/
def TypeRef.Worded (type : TypeRef) : Prop :=
  ∀ part ∈ type.parts, ∀ segment ∈ part.segments, isIdentifier segment.name = true

/-- The same for a segment and what is inside it. -/
structure TypeSegment.Worded (segment : TypeSegment) : Prop where
  name : isIdentifier segment.name = true
  args : ∀ arg ∈ segment.args, arg.Worded

theorem worded_bounded {annotations : List AnnotationUse} {bound : Bound} {type : TypeRef}
    {dims : Nat} : (TypeRef.bounded annotations bound type dims).Worded ↔ type.Worded :=
  forall_mem_parts_bounded.trans (and_iff_right (List.forall_mem_nil _))

theorem worded_named {annotations : List AnnotationUse} {first : TypeSegment}
    {others : List TypeSegment} {dims : Nat} :
    (TypeRef.named annotations first others dims).Worded ↔
      ∀ segment ∈ first :: others, segment.Worded := by
  refine forall_mem_parts_named.trans ⟨?_, fun each => ⟨?_, ?_⟩⟩
  · rintro ⟨names, args⟩ segment member
    exact ⟨names segment member, args segment member⟩
  · exact fun segment member => (each segment member).name
  · exact fun segment member => (each segment member).args

/-! ### Lengths -/

/-- No more segments, type arguments and dimensions than a repetition can read. -/
def TypeRef.Short : TypeRef → Prop
  | .wildcard _ dims | .unfinished _ _ dims | .bounded _ _ _ dims => dims < maxIterations
  | .named _ first others dims =>
    others.length < maxIterations ∧ dims < maxIterations ∧
      ∀ segment ∈ first :: others, segment.args.length ≤ maxIterations

/-- All parts of a reference are short. -/
def TypeRef.Brief (type : TypeRef) : Prop :=
  ∀ part ∈ type.parts, part.Short

/-! ### Tidy references -/

/-- A bounded wildcard leaves the dimensions to its bound. -/
def TypeRef.Undimensioned (type : TypeRef) : Prop :=
  ∀ annotations bound inner dims, type = .bounded annotations bound inner dims → dims = 0

/-- The names are identifiers, the lists are short, and dimensions are left to the bound. -/
structure TypeRef.Neat (type : TypeRef) : Prop where
  names : ∀ segment ∈ type.segments, isIdentifier segment.name = true
  short : type.Short
  undimensioned : type.Undimensioned

/-- All parts of a reference are neat. -/
def TypeRef.Tidy (type : TypeRef) : Prop :=
  ∀ part ∈ type.parts, part.Neat

theorem TypeRef.Tidy.part {type part : TypeRef} (tidy : type.Tidy) (member : part ∈ type.parts) :
    part.Tidy :=
  fun inner within => tidy inner (TypeRef.parts_subset member within)

theorem TypeRef.Tidy.worded {type : TypeRef} (tidy : type.Tidy) : type.Worded :=
  fun part member => (tidy part member).names

theorem TypeRef.Tidy.brief {type : TypeRef} (tidy : type.Tidy) : type.Brief :=
  fun part member => (tidy part member).short

/-! ### Without annotations -/

mutual

/-- The reference without annotations, at any depth. -/
def TypeRef.bare : TypeRef → TypeRef
  | .wildcard _ dims => .wildcard [] dims
  | .unfinished _ bound dims => .unfinished [] bound dims
  | .bounded _ bound type dims => .bounded [] bound type.bare dims
  | .named _ first others dims => .named [] first.bare (moreBare others) dims

/-- The segment without annotations in its arguments. -/
def TypeSegment.bare : TypeSegment → TypeSegment
  | .plain name => .plain name
  | .applied name args => .applied name (argsBare args)

/-- The same for segments. -/
def moreBare : List TypeSegment → List TypeSegment
  | [] => []
  | segment :: others => segment.bare :: moreBare others

/-- The same for type arguments. -/
def argsBare : List TypeRef → List TypeRef
  | [] => []
  | type :: others => type.bare :: argsBare others

end

theorem moreBare_eq (segments : List TypeSegment) :
    moreBare segments = segments.map TypeSegment.bare := by
  induction segments with
  | nil => rfl
  | cons first others ih => rw [moreBare, ih, List.map_cons]

theorem argsBare_eq (args : List TypeRef) : argsBare args = args.map TypeRef.bare := by
  induction args with
  | nil => rfl
  | cons first others ih => rw [argsBare, ih, List.map_cons]

mutual

/-- The reference that is read off its canonical text with so many dimensions behind it. The dimensions
behind a bounded wildcard are read as those of its bound. -/
def TypeRef.canonical (extra : Nat) : TypeRef → TypeRef
  | .wildcard _ dims | .unfinished _ _ dims => .wildcard [] (dims + extra)
  | .bounded _ bound type dims => .bounded [] bound (type.canonical (dims + extra)) 0
  | .named _ first others dims => .named [] first.canonical (moreCanonical others) (dims + extra)

/-- The same for a segment. -/
def TypeSegment.canonical : TypeSegment → TypeSegment
  | .plain name => .plain name
  | .applied name args => .applied name (argsCanonical args)

/-- The same for segments. -/
def moreCanonical : List TypeSegment → List TypeSegment
  | [] => []
  | segment :: others => segment.canonical :: moreCanonical others

/-- The same for type arguments. -/
def argsCanonical : List TypeRef → List TypeRef
  | [] => []
  | type :: others => type.canonical 0 :: argsCanonical others

end

theorem moreCanonical_eq (segments : List TypeSegment) :
    moreCanonical segments = segments.map TypeSegment.canonical := by
  induction segments with
  | nil => rfl
  | cons first others ih => rw [moreCanonical, ih, List.map_cons]

theorem argsCanonical_eq (args : List TypeRef) :
    argsCanonical args = args.map (TypeRef.canonical 0) := by
  induction args with
  | nil => rfl
  | cons first others ih => rw [argsCanonical, ih, List.map_cons]

/-! ### Without unfinished wildcards -/

mutual

/-- The reference with a wildcard without a bound in place of every unfinished one. -/
def TypeRef.settled : TypeRef → TypeRef
  | .wildcard annotations dims | .unfinished annotations _ dims => .wildcard annotations dims
  | .bounded annotations bound type dims => .bounded annotations bound type.settled dims
  | .named annotations first others dims => .named annotations first.settled (moreSettled others) dims

/-- The same for a segment. -/
def TypeSegment.settled : TypeSegment → TypeSegment
  | .plain name => .plain name
  | .applied name args => .applied name (argsSettled args)

/-- The same for segments. -/
def moreSettled : List TypeSegment → List TypeSegment
  | [] => []
  | segment :: others => segment.settled :: moreSettled others

/-- The same for type arguments. -/
def argsSettled : List TypeRef → List TypeRef
  | [] => []
  | type :: others => type.settled :: argsSettled others

end

theorem moreSettled_eq (segments : List TypeSegment) :
    moreSettled segments = segments.map TypeSegment.settled := by
  induction segments with
  | nil => rfl
  | cons first others ih => rw [moreSettled, ih, List.map_cons]

theorem argsSettled_eq (args : List TypeRef) : argsSettled args = args.map TypeRef.settled := by
  induction args with
  | nil => rfl
  | cons first others ih => rw [argsSettled, ih, List.map_cons]

/-- A wildcard with the keyword of a bound and no type after it. -/
def TypeRef.isUnfinished : TypeRef → Bool
  | .unfinished .. => true
  | _ => false

/-- No part of the reference is unfinished. -/
def TypeRef.Finished (type : TypeRef) : Prop :=
  ∀ part ∈ type.parts, part.isUnfinished = false

theorem finished_bounded {annotations : List AnnotationUse} {bound : Bound} {type : TypeRef} {dims : Nat} :
    (TypeRef.bounded annotations bound type dims).Finished ↔ type.Finished :=
  forall_mem_parts_bounded.trans (and_iff_right (Eq.refl false))

theorem finished_named {annotations : List AnnotationUse} {first : TypeSegment} {others : List TypeSegment}
    {dims : Nat} : (TypeRef.named annotations first others dims).Finished ↔
      ∀ segment ∈ first :: others, ∀ arg ∈ segment.args, arg.Finished :=
  forall_mem_parts_named.trans (and_iff_right (Eq.refl false))

/-- **Nothing is settled** exactly if nothing is unfinished. -/
theorem TypeRef.bare_settled_eq_iff (type : TypeRef) : type.bare.settled = type.bare ↔ type.Finished := by
  refine TypeRef.holds (P := fun type => type.bare.settled = type.bare ↔ type.Finished)
    (Q := fun segment => segment.bare.settled = segment.bare ↔ ∀ arg ∈ segment.args, arg.Finished)
    ?_ ?_ ?_ ?_ ?_ ?_ type
  · exact fun _ _ => iff_of_true rfl (List.forall_mem_singleton.mpr rfl)
  · refine fun _ _ _ => iff_of_false (by rintro ⟨⟩) fun finished => ?_
    cases finished _ (List.mem_singleton_self _)
  · intro annotations bound type dims ih
    rw [TypeRef.bare, TypeRef.settled, TypeRef.bounded.injEq]
    refine Iff.trans ?_ finished_bounded.symm
    exact ⟨fun same => ih.mp same.2.2.1, fun finished => ⟨rfl, rfl, ih.mpr finished, rfl⟩⟩
  · intro annotations first others dims ihFirst ihOthers
    have more : moreSettled (moreBare others) = moreBare others ↔
        ∀ segment ∈ others, segment.bare.settled = segment.bare := by
      rw [moreSettled_eq, moreBare_eq, List.map_map, List.map_inj_left]
      rfl
    rw [TypeRef.bare, TypeRef.settled, TypeRef.named.injEq, more]
    refine Iff.trans ?_ finished_named.symm
    constructor
    · rintro ⟨-, ofFirst, ofOthers, -⟩
      exact List.forall_mem_cons.mpr ⟨ihFirst.mp ofFirst, fun segment member =>
        (ihOthers segment member).mp (ofOthers segment member)⟩
    · intro finished
      obtain ⟨ofFirst, ofOthers⟩ := List.forall_mem_cons.mp finished
      exact ⟨rfl, ihFirst.mpr ofFirst, fun segment member =>
        (ihOthers segment member).mpr (ofOthers segment member), rfl⟩
  · exact fun _ => iff_of_true rfl (List.forall_mem_nil _)
  · intro name args ih
    rw [TypeSegment.bare, TypeSegment.settled, TypeSegment.applied.injEq, and_iff_right rfl, argsSettled_eq,
      argsBare_eq, List.map_map, List.map_inj_left]
    exact forall₂_congr ih

/-! ### Canonical references -/

/-- **The canonical text of a tidy reference spells the reference without annotations**, and with wildcards
in place of unfinished ones. -/
theorem TypeRef.Tidy.canonical_zero {type : TypeRef} (tidy : type.Tidy) :
    type.canonical 0 = type.bare.settled := by
  refine TypeRef.holds (P := fun type => type.Tidy → type.canonical 0 = type.bare.settled)
    (Q := fun segment => (∀ arg ∈ segment.args, arg.Tidy) → segment.canonical = segment.bare.settled)
    ?_ ?_ ?_ ?_ ?_ ?_ type tidy
  · exact fun _ _ _ => rfl
  · exact fun _ _ _ _ => rfl
  · intro annotations bound type dims ih tidy
    obtain ⟨neat, inner⟩ := forall_mem_parts_bounded.mp tidy
    obtain rfl := neat.undimensioned _ _ _ _ rfl
    rw [TypeRef.canonical, ih inner, TypeRef.bare, TypeRef.settled]
  · intro annotations first others dims ihFirst ihOthers tidy
    obtain ⟨-, each⟩ := forall_mem_parts_named.mp tidy
    obtain ⟨ofFirst, ofOthers⟩ := List.forall_mem_cons.mp each
    rw [TypeRef.canonical, TypeRef.bare, TypeRef.settled, ihFirst ofFirst, moreCanonical_eq, moreBare_eq,
      moreSettled_eq, List.map_map,
      List.map_congr_left fun segment member => ihOthers segment member (ofOthers segment member)]
    rfl
  · exact fun _ _ => rfl
  · intro name args ih tidy
    rw [TypeSegment.canonical, TypeSegment.bare, TypeSegment.settled, argsCanonical_eq, argsBare_eq,
      argsSettled_eq, List.map_map, List.map_congr_left fun type member => ih type member (tidy type member)]
    rfl

/-- A canonical form has no unfinished wildcards. -/
theorem TypeRef.settled_canonical (type : TypeRef) (extra : Nat) :
    (type.canonical extra).settled = type.canonical extra := by
  refine TypeRef.holds (P := fun type => ∀ extra, (type.canonical extra).settled = type.canonical extra)
    (Q := fun segment => segment.canonical.settled = segment.canonical) ?_ ?_ ?_ ?_ ?_ ?_ type extra
  · exact fun _ _ _ => rfl
  · exact fun _ _ _ _ => rfl
  · intro annotations bound type dims ih extra
    rw [TypeRef.canonical, TypeRef.settled, ih]
  · intro annotations first others dims ihFirst ihOthers extra
    have same : others.map (TypeSegment.settled ∘ TypeSegment.canonical) = others.map TypeSegment.canonical :=
      List.map_congr_left ihOthers
    rw [TypeRef.canonical, TypeRef.settled, ihFirst, moreCanonical_eq, moreSettled_eq, List.map_map, same]
  · exact fun _ => rfl
  · intro name args ih
    have same : args.map (TypeRef.settled ∘ TypeRef.canonical 0) = args.map (TypeRef.canonical 0) :=
      List.map_congr_left fun type member => ih type member 0
    rw [TypeSegment.canonical, TypeSegment.settled, argsCanonical_eq, argsSettled_eq, List.map_map, same]

theorem brief_bounded {annotations : List AnnotationUse} {bound : Bound} {type : TypeRef} {dims : Nat} :
    (TypeRef.bounded annotations bound type dims).Brief ↔ dims < maxIterations ∧ type.Brief :=
  forall_mem_parts_bounded

theorem brief_named {annotations : List AnnotationUse} {first : TypeSegment} {others : List TypeSegment}
    {dims : Nat} : (TypeRef.named annotations first others dims).Brief ↔
      (TypeRef.named annotations first others dims).Short ∧
        ∀ segment ∈ first :: others, ∀ arg ∈ segment.args, arg.Brief :=
  forall_mem_parts_named

theorem TypeSegment.args_canonical (segment : TypeSegment) :
    segment.canonical.args = segment.args.map (TypeRef.canonical 0) := by
  cases segment with
  | plain => rfl
  | applied _ args => exact argsCanonical_eq args

/-- The canonical form of a tidy reference is no longer than it. -/
theorem TypeRef.Tidy.brief_canonical {type : TypeRef} (tidy : type.Tidy) : (type.canonical 0).Brief := by
  refine TypeRef.holds (P := fun type => type.Tidy → (type.canonical 0).Brief)
    (Q := fun segment => (∀ arg ∈ segment.args, arg.Tidy) → ∀ arg ∈ segment.canonical.args, arg.Brief)
    ?_ ?_ ?_ ?_ ?_ ?_ type tidy
  · exact fun _ _ tidy => List.forall_mem_singleton.mpr (tidy _ (List.mem_singleton_self _)).short
  · exact fun _ _ _ tidy => List.forall_mem_singleton.mpr (tidy _ (List.mem_singleton_self _)).short
  · intro annotations bound type dims ih tidy
    obtain ⟨neat, inner⟩ := forall_mem_parts_bounded.mp tidy
    obtain rfl := neat.undimensioned _ _ _ _ rfl
    exact brief_bounded.mpr ⟨neat.short, ih inner⟩
  · intro annotations first others dims ihFirst ihOthers tidy
    obtain ⟨neat, each⟩ := forall_mem_parts_named.mp tidy
    obtain ⟨fewOthers, fewDims, fewArgs⟩ := neat.short
    have canonical : first.canonical :: moreCanonical others = (first :: others).map TypeSegment.canonical := by
      rw [moreCanonical_eq, List.map_cons]
    rw [TypeRef.canonical, brief_named, canonical]
    refine ⟨⟨?_, fewDims, ?_⟩, List.forall_mem_map.mpr fun segment member => ?_⟩
    · rwa [moreCanonical_eq, List.length_map]
    · rw [canonical]
      refine List.forall_mem_map.mpr fun segment member => ?_
      rw [segment.args_canonical, List.length_map]
      exact fewArgs segment member
    · exact List.forall_mem_cons.mpr ⟨ihFirst, ihOthers⟩ segment member (each segment member)
  · exact fun _ _ => List.forall_mem_nil _
  · intro name args ih tidy
    rw [TypeSegment.args_canonical]
    exact List.forall_mem_map.mpr fun arg member => ih arg member (tidy arg member)

end Forwarder.Source
