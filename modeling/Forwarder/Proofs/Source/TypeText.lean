/-
**Types as text.** The canonical text of a type reference is split into the tokens it was put together
from, and these are read as a reference with the same text.

* `reserved` — the texts that the grammar asks for; `IsPlain` — names that are none of them.
* `TypeRef.Clean` — a reference all of whose names are plain, and that gives no arguments to a name
  from a given set.
* `TypeRef.shapes` — the tokens of the canonical text; **`TypeRef.spelt`**.
* `EndsType` — what may follow a type without continuing it.
* **`TypeRef.Worded.reads`** — the tokens of a reference are read as its canonical form;
  `TypeRef.reads` — as a reference with its text.
-/

import Forwarder.Proofs.Grammar.Recognition
import Forwarder.Proofs.Source.References
import Forwarder.Source.Parse

namespace Forwarder.Source

open Grammar

/-! ### Literals of the grammar -/

/-- All nonterminals. -/
def Symbol.all : List Symbol :=
  [compilationUnit, packageDecl, importDecl, typeDecl, typeSpec, modifier, annotationUse, typeParam,
    typeRef, typeSegment, typeArgs, wildcard, arrayDim, parameterList, formalParameter, classBody,
    member, memberDecl, methodDecl, constructorDecl, fieldDecl, enumConstant, block, tokenGroup,
    balanced, chunk]

theorem Symbol.mem_all (s : Symbol) : s ∈ Symbol.all := by
  cases s <;> decide

/-- The texts that the grammar asks for. -/
def reserved : List String :=
  Symbol.all.flatMap fun s => (productions s).literals

theorem mem_reserved (s : Symbol) (text : String) (asked : text ∈ (productions s).literals) :
    text ∈ reserved :=
  List.mem_flatMap.mpr ⟨s, s.mem_all, asked⟩

/-- A name that is not taken for anything else. -/
def IsPlain (name : String) : Prop :=
  isName name = true ∧ name ∉ reserved

instance (name : String) : Decidable (IsPlain name) :=
  inferInstanceAs (Decidable (_ ∧ _))

/-! ### Clean references -/

/-- The segment gives type arguments to one of these names. -/
def TypeSegment.Applies (vars : String → Prop) : TypeSegment → Prop
  | .plain _ => False
  | .applied name _ => vars name

mutual

/-- All names are plain, and none of the names `vars` that may stand for a variable is given
arguments. -/
def TypeRef.Clean (vars : String → Prop) : TypeRef → Prop
  | .wildcard _ _ | .unfinished _ _ _ => True
  | .bounded _ _ type _ => type.Clean vars
  | .named _ first others _ => ¬first.Applies vars ∧ first.Clean vars ∧ moreClean vars others

/-- The same for a segment and what is inside it. -/
def TypeSegment.Clean (vars : String → Prop) : TypeSegment → Prop
  | .plain name => IsPlain name
  | .applied name args => IsPlain name ∧ argsClean vars args

/-- The same for the segments after the first. -/
def moreClean (vars : String → Prop) : List TypeSegment → Prop
  | [] => True
  | segment :: others => segment.Clean vars ∧ moreClean vars others

/-- The same for type arguments. -/
def argsClean (vars : String → Prop) : List TypeRef → Prop
  | [] => True
  | type :: others => type.Clean vars ∧ argsClean vars others

end

theorem moreClean_iff {vars : String → Prop} {segments : List TypeSegment} :
    moreClean vars segments ↔ ∀ segment ∈ segments, segment.Clean vars := by
  induction segments with
  | nil => simp [moreClean]
  | cons first others ih => rw [moreClean, ih, List.forall_mem_cons]

theorem argsClean_iff {vars : String → Prop} {args : List TypeRef} :
    argsClean vars args ↔ ∀ type ∈ args, type.Clean vars := by
  induction args with
  | nil => simp [argsClean]
  | cons first others ih => rw [argsClean, ih, List.forall_mem_cons]

/-- Fewer variables leave a reference clean. -/
theorem TypeRef.clean_mono {vars others : String → Prop} (fewer : ∀ name, others name → vars name)
    (type : TypeRef) : type.Clean vars → type.Clean others := by
  refine TypeRef.holds (P := fun type => type.Clean vars → type.Clean others)
    (Q := fun segment => segment.Clean vars → segment.Clean others) ?_ ?_ ?_ ?_ ?_ ?_ type
  · exact fun _ _ _ => trivial
  · exact fun _ _ _ _ => trivial
  · exact fun _ _ _ _ ih clean => ih clean
  · rintro _ first others _ ihFirst ihOthers ⟨free, cleanFirst, cleanOthers⟩
    refine ⟨?_, ihFirst cleanFirst, moreClean_iff.mpr fun segment member =>
      ihOthers segment member (moreClean_iff.mp cleanOthers segment member)⟩
    cases first with
    | plain => exact id
    | applied name => exact fun applies => free (fewer name applies)
  · exact fun _ plain => plain
  · rintro _ _ ih ⟨plain, cleanArgs⟩
    exact ⟨plain, argsClean_iff.mpr fun type member =>
      ih type member (argsClean_iff.mp cleanArgs type member)⟩

theorem IsPlain.isIdentifier {name : String} (plain : IsPlain name) : isIdentifier name = true :=
  isIdentifier_of_isName plain.1

theorem TypeRef.worded_of_clean {vars : String → Prop} (type : TypeRef) :
    type.Clean vars → type.Worded := by
  refine TypeRef.holds (P := fun type => type.Clean vars → type.Worded)
    (Q := fun segment => segment.Clean vars → segment.Worded) ?_ ?_ ?_ ?_ ?_ ?_ type
  · exact fun _ _ _ => List.forall_mem_singleton.mpr (List.forall_mem_nil _)
  · exact fun _ _ _ _ => List.forall_mem_singleton.mpr (List.forall_mem_nil _)
  · exact fun _ _ _ _ ih clean => worded_bounded.mpr (ih clean)
  · rintro _ first others _ ihFirst ihOthers ⟨-, cleanFirst, cleanOthers⟩
    exact worded_named.mpr (List.forall_mem_cons.mpr ⟨ihFirst cleanFirst, fun segment member =>
      ihOthers segment member (moreClean_iff.mp cleanOthers segment member)⟩)
  · exact fun _ clean => ⟨clean.isIdentifier, List.forall_mem_nil _⟩
  · exact fun _ _ ih clean => ⟨clean.1.isIdentifier, fun type member =>
      ih type member (argsClean_iff.mp clean.2 type member)⟩

section Decidable

variable (vars : String → Prop) [DecidablePred vars]

instance (segment : TypeSegment) : Decidable (segment.Applies vars) :=
  match segment with
  | .plain _ => inferInstanceAs (Decidable False)
  | .applied name _ => inferInstanceAs (Decidable (vars name))

mutual

/-- Whether a reference is clean can be computed. -/
def TypeRef.decideClean : (type : TypeRef) → Decidable (type.Clean vars)
  | .wildcard _ _ | .unfinished _ _ _ => inferInstanceAs (Decidable True)
  | .bounded _ _ type _ => type.decideClean
  | .named _ first others _ =>
    have : Decidable (first.Clean vars) := first.decideClean
    have : Decidable (moreClean vars others) := decideMoreClean others
    inferInstanceAs (Decidable (¬first.Applies vars ∧ first.Clean vars ∧ moreClean vars others))

/-- The same for a segment. -/
def TypeSegment.decideClean : (segment : TypeSegment) → Decidable (segment.Clean vars)
  | .plain name => inferInstanceAs (Decidable (IsPlain name))
  | .applied name args =>
    have : Decidable (argsClean vars args) := decideArgsClean args
    inferInstanceAs (Decidable (IsPlain name ∧ argsClean vars args))

/-- The same for the segments after the first. -/
def decideMoreClean : (segments : List TypeSegment) → Decidable (moreClean vars segments)
  | [] => inferInstanceAs (Decidable True)
  | segment :: others =>
    have : Decidable (segment.Clean vars) := segment.decideClean
    have : Decidable (moreClean vars others) := decideMoreClean others
    inferInstanceAs (Decidable (segment.Clean vars ∧ moreClean vars others))

/-- The same for type arguments. -/
def decideArgsClean : (args : List TypeRef) → Decidable (argsClean vars args)
  | [] => inferInstanceAs (Decidable True)
  | type :: others =>
    have : Decidable (type.Clean vars) := type.decideClean
    have : Decidable (argsClean vars others) := decideArgsClean others
    inferInstanceAs (Decidable (type.Clean vars ∧ argsClean vars others))

end

instance (type : TypeRef) : Decidable (type.Clean vars) :=
  type.decideClean vars

end Decidable

/-! ### Shapes -/

/-- The tokens of array dimensions. -/
def dimShapes (dims : Nat) : List Shape :=
  (List.replicate dims ()).flatMap fun _ => [Shape.mark "[", Shape.mark "]"]

mutual

/-- The tokens of the canonical text of a reference. -/
def TypeRef.shapes : TypeRef → List Shape
  | .wildcard _ dims | .unfinished _ _ dims => [Shape.mark "?"] ++ dimShapes dims
  | .bounded _ bound type dims =>
    [Shape.mark "?", Shape.word bound.keyword] ++ type.shapes ++ dimShapes dims
  | .named _ first others dims => first.shapes ++ moreShapes others ++ dimShapes dims

/-- The tokens of a segment. -/
def TypeSegment.shapes : TypeSegment → List Shape
  | .plain name => [Shape.word name]
  | .applied name args => [Shape.word name, Shape.mark "<"] ++ argShapes args ++ [Shape.mark ">"]

/-- The tokens of the segments after the first. -/
def moreShapes : List TypeSegment → List Shape
  | [] => []
  | segment :: others => (Shape.mark "." :: segment.shapes) ++ moreShapes others

/-- The tokens of type arguments. -/
def argShapes : List TypeRef → List Shape
  | [] => []
  | [type] => type.shapes
  | type :: others => type.shapes ++ Shape.mark "," :: argShapes others

end

theorem moreShapes_eq (segments : List TypeSegment) :
    moreShapes segments = segments.flatMap fun segment => Shape.mark "." :: segment.shapes := by
  induction segments with
  | nil => rfl
  | cons first others ih => rw [moreShapes, ih, List.flatMap_cons]

theorem argShapes_eq (args : List TypeRef) :
    argShapes args = separatedShapes (Shape.mark ",") TypeRef.shapes args := by
  induction args with
  | nil => rfl
  | cons first others ih =>
    cases others with
    | nil => simp [argShapes, separatedShapes]
    | cons second others =>
      rw [argShapes, ih]
      · simp [separatedShapes]
      · exact List.cons_ne_nil _ _

theorem length_dimShapes (dims : Nat) : (dimShapes dims).length = 2 * dims := by
  rw [dimShapes, List.length_flatMap]
  simp [Nat.mul_comm]

theorem length_lt_moreShapes {segments : List TypeSegment} {segment : TypeSegment}
    (member : segment ∈ segments) : segment.shapes.length < (moreShapes segments).length := by
  have within := length_le_flatMap (fun segment => Shape.mark "." :: segment.shapes) member
  rwa [List.length_cons, ← moreShapes_eq] at within

theorem count_le_moreShapes (segments : List TypeSegment) :
    segments.length ≤ (moreShapes segments).length := by
  rw [moreShapes_eq]
  exact count_le_flatMap fun _ _ => List.cons_ne_nil _ _

theorem length_le_argShapes {args : List TypeRef} {type : TypeRef} (member : type ∈ args) :
    type.shapes.length ≤ (argShapes args).length := by
  rw [argShapes_eq]
  exact length_le_separatedShapes _ _ member

theorem count_le_argShapes (args : List TypeRef) : args.length ≤ (argShapes args).length + 1 := by
  rw [argShapes_eq]
  exact count_le_separatedShapes _ _ args

/-! ### Texts -/

theorem brackets_add (first second : Nat) :
    brackets (first + second) = brackets first ++ brackets second := by
  rw [brackets, Text.times, ← List.replicate_append_replicate, String.join_append]
  rfl

theorem brackets_succ (dims : Nat) : brackets (dims + 1) = "[]" ++ brackets dims := by
  rw [brackets, Text.times, List.replicate_succ, String.join_cons]
  rfl

theorem dimShapes_succ (dims : Nat) :
    dimShapes (dims + 1) = [Shape.mark "[", Shape.mark "]"] ++ dimShapes dims := by
  rw [dimShapes, List.replicate_succ, List.flatMap_cons]
  rfl

theorem dimShapes_add (first second : Nat) :
    dimShapes (first + second) = dimShapes first ++ dimShapes second := by
  rw [dimShapes, ← List.replicate_append_replicate, List.flatMap_append]
  rfl

theorem renderArgs_eq (args : List TypeRef) :
    renderArgs args = Text.join ", " (args.map (·.render)) := by
  induction args with
  | nil => rfl
  | cons first others ih =>
    cases others with
    | nil => exact String.intercalate_singleton.symm
    | cons second others =>
      rw [renderArgs, ih]
      · exact String.intercalate_cons_cons.symm
      · exact List.cons_ne_nil _ _

theorem renderMore_eq (segments : List TypeSegment) :
    renderMore segments = String.join (segments.map fun segment => "." ++ segment.render) := by
  induction segments with
  | nil => rfl
  | cons first others ih => rw [renderMore, ih, List.map_cons, String.join_cons]

/-- The canonical form has the canonical text. -/
theorem TypeRef.render_canonical (type : TypeRef) (extra : Nat) :
    (type.canonical extra).render = type.render ++ brackets extra := by
  refine TypeRef.holds
    (P := fun type => ∀ extra, (type.canonical extra).render = type.render ++ brackets extra)
    (Q := fun segment => segment.canonical.render = segment.render) ?_ ?_ ?_ ?_ ?_ ?_ type extra
  · intro annotations dims extra
    rw [TypeRef.canonical, TypeRef.render, TypeRef.render, brackets_add, String.append_assoc]
  · intro annotations bound dims extra
    rw [TypeRef.canonical, TypeRef.render, TypeRef.render, brackets_add, String.append_assoc]
  · intro annotations bound type dims ih extra
    rw [TypeRef.canonical, TypeRef.render, TypeRef.render, ih, brackets_add,
      show brackets 0 = "" from rfl, String.append_empty]
    simp only [String.append_assoc]
  · intro annotations first others dims ihFirst ihOthers extra
    have sameOthers : renderMore (moreCanonical others) = renderMore others := by
      rw [renderMore_eq, renderMore_eq, moreCanonical_eq, List.map_map]
      exact congrArg String.join (List.map_congr_left fun segment member =>
        congrArg ("." ++ ·) (ihOthers segment member))
    rw [TypeRef.canonical, TypeRef.render, TypeRef.render, ihFirst, sameOthers, brackets_add]
    simp only [String.append_assoc]
  · exact fun _ => rfl
  · intro name args ih
    have sameArgs : renderArgs (argsCanonical args) = renderArgs args := by
      rw [renderArgs_eq, renderArgs_eq, argsCanonical_eq, List.map_map]
      refine congrArg (Text.join ", ") (List.map_congr_left fun type member => ?_)
      exact (ih type member 0).trans String.append_empty
    rw [TypeSegment.canonical, TypeSegment.render, TypeSegment.render, sameArgs]

/-- An unfinished wildcard has the text of one without a bound. -/
theorem TypeRef.render_settled (type : TypeRef) : type.settled.render = type.render := by
  refine TypeRef.holds (P := fun type => type.settled.render = type.render)
    (Q := fun segment => segment.settled.render = segment.render) ?_ ?_ ?_ ?_ ?_ ?_ type
  · exact fun _ _ => rfl
  · exact fun _ _ _ => rfl
  · intro annotations bound type dims ih
    rw [TypeRef.settled, TypeRef.render, TypeRef.render, ih]
  · intro annotations first others dims ihFirst ihOthers
    have sameOthers : renderMore (moreSettled others) = renderMore others := by
      rw [renderMore_eq, renderMore_eq, moreSettled_eq, List.map_map]
      exact congrArg String.join (List.map_congr_left fun segment member =>
        congrArg ("." ++ ·) (ihOthers segment member))
    rw [TypeRef.settled, TypeRef.render, TypeRef.render, ihFirst, sameOthers]
  · exact fun _ => rfl
  · intro name args ih
    have sameArgs : renderArgs (argsSettled args) = renderArgs args := by
      rw [renderArgs_eq, renderArgs_eq, argsSettled_eq, List.map_map]
      exact congrArg (Text.join ", ") (List.map_congr_left ih)
    rw [TypeSegment.settled, TypeSegment.render, TypeSegment.render, sameArgs]

/-! ### Few tokens -/

/-- The canonical form has the same tokens. -/
theorem TypeRef.shapes_canonical (type : TypeRef) (extra : Nat) :
    (type.canonical extra).shapes = type.shapes ++ dimShapes extra := by
  refine TypeRef.holds
    (P := fun type => ∀ extra, (type.canonical extra).shapes = type.shapes ++ dimShapes extra)
    (Q := fun segment => segment.canonical.shapes = segment.shapes) ?_ ?_ ?_ ?_ ?_ ?_ type extra
  · intro annotations dims extra
    rw [TypeRef.canonical, TypeRef.shapes, TypeRef.shapes, dimShapes_add, List.append_assoc]
  · intro annotations bound dims extra
    rw [TypeRef.canonical, TypeRef.shapes, TypeRef.shapes, dimShapes_add, List.append_assoc]
  · intro annotations bound type dims ih extra
    rw [TypeRef.canonical, TypeRef.shapes, TypeRef.shapes, ih, dimShapes_add,
      show dimShapes 0 = [] from rfl, List.append_nil]
    simp only [List.append_assoc]
  · intro annotations first others dims ihFirst ihOthers extra
    have sameOthers : moreShapes (moreCanonical others) = moreShapes others := by
      rw [moreShapes_eq, moreShapes_eq, moreCanonical_eq, List.flatMap_map]
      exact List.flatMap_congr fun segment member => congrArg (Shape.mark "." :: ·) (ihOthers segment member)
    rw [TypeRef.canonical, TypeRef.shapes, TypeRef.shapes, ihFirst, sameOthers, dimShapes_add]
    simp only [List.append_assoc]
  · exact fun _ => rfl
  · intro name args ih
    have sameArgs : argShapes (argsCanonical args) = argShapes args := by
      have each : ∀ type ∈ args, (type.canonical 0).shapes = type.shapes := fun type member =>
        (ih type member 0).trans (List.append_nil _)
      rw [argShapes_eq, argShapes_eq, argsCanonical_eq]
      exact separatedShapes_map each
    rw [TypeSegment.canonical, TypeSegment.shapes, TypeSegment.shapes, sameArgs]

/-- A reference of few tokens is brief. -/
theorem TypeRef.brief_of_few (type : TypeRef) : type.shapes.length < maxIterations → type.Brief := by
  refine TypeRef.holds (P := fun type => type.shapes.length < maxIterations → type.Brief)
    (Q := fun segment => segment.shapes.length < maxIterations →
      segment.args.length ≤ maxIterations ∧ ∀ arg ∈ segment.args, arg.Brief) ?_ ?_ ?_ ?_ ?_ ?_ type
  · intro annotations dims few
    refine List.forall_mem_singleton.mpr (show dims < maxIterations from ?_)
    rw [TypeRef.shapes, List.length_append, length_dimShapes] at few
    omega
  · intro annotations bound dims few
    refine List.forall_mem_singleton.mpr (show dims < maxIterations from ?_)
    rw [TypeRef.shapes, List.length_append, length_dimShapes] at few
    omega
  · intro annotations bound type dims ih few
    rw [TypeRef.shapes, List.length_append, List.length_append, length_dimShapes] at few
    exact brief_bounded.mpr ⟨by omega, ih (by omega)⟩
  · intro annotations first others dims ihFirst ihOthers few
    rw [TypeRef.shapes, List.length_append, List.length_append, length_dimShapes] at few
    have inside : ∀ segment ∈ first :: others,
        segment.args.length ≤ maxIterations ∧ ∀ arg ∈ segment.args, arg.Brief := by
      refine List.forall_mem_cons.mpr ⟨ihFirst (by omega), fun segment member => ihOthers segment member ?_⟩
      have shorter := length_lt_moreShapes member
      omega
    have count := count_le_moreShapes others
    exact brief_named.mpr ⟨⟨by omega, by omega, fun segment member => (inside segment member).1⟩,
      fun segment member => (inside segment member).2⟩
  · exact fun _ _ => ⟨Nat.zero_le _, List.forall_mem_nil _⟩
  · intro name args ih few
    simp only [TypeSegment.shapes, List.length_append, List.length_cons, List.length_nil] at few
    have count := count_le_argShapes args
    refine ⟨show args.length ≤ maxIterations by omega, fun arg (member : arg ∈ args) => ih arg member ?_⟩
    have shorter := length_le_argShapes member
    omega

/-- Texts with a mark between them. -/
theorem Spelt.join {ι : Type} {between : String} {mark : Shape} {text : ι → String}
    {shapes : ι → List Shape} (opens : Opens between) (closed : Closed between [mark])
    {items : List ι} (each : ∀ item ∈ items, Spelt (text item) (shapes item)) :
    Spelt (Text.join between (items.map text)) (separatedShapes mark shapes items) := by
  induction items with
  | nil => exact Closed.empty.spelt
  | cons first others ih =>
    have firstSpelt := each first List.mem_cons_self
    cases others with
    | nil => simpa [Text.join, separatedShapes] using firstSpelt
    | cons second others =>
      have othersSpelt := ih fun item member => each item (List.mem_cons_of_mem _ member)
      have joined : Text.join between ((first :: second :: others).map text) =
          text first ++ (between ++ Text.join between ((second :: others).map text)) := by
        rw [List.map_cons, List.map_cons, Text.join, String.intercalate_cons_cons,
          String.append_assoc]
        rfl
      rw [joined]
      exact firstSpelt.append opens.append (closed.then_spelt othersSpelt)

theorem closed_comma : Closed ", " [Shape.mark ","] :=
  Closed.mark_space "," (by decide)

theorem opens_comma : Opens ", " :=
  ⟨',', [' '], rfl, by decide⟩

theorem Spelt.then_brackets {text : String} {shapes : List Shape} (spelt : Spelt text shapes)
    (dims : Nat) : Spelt (text ++ brackets dims) (shapes ++ dimShapes dims) := by
  induction dims generalizing text shapes with
  | zero =>
    rw [show brackets 0 = "" from rfl, show dimShapes 0 = [] from rfl, String.append_empty,
      List.append_nil]
    exact spelt
  | succ dims ih =>
    have pair : Closed "[]" [Shape.mark "[", Shape.mark "]"] :=
      ((Closed.mark (by decide : "[" ∈ marks)).append (Closed.mark (by decide : "]" ∈ marks)) :)
    have opens : Opens "[]" := ⟨'[', [']'], rfl, by decide⟩
    rw [brackets_succ, dimShapes_succ, ← String.append_assoc, ← List.append_assoc]
    exact ih (spelt.then_closed opens pair).spelt

theorem Spelt.then_more {text : String} {shapes : List Shape} (spelt : Spelt text shapes)
    {segments : List TypeSegment}
    (each : ∀ segment ∈ segments,
      Spelt ("." ++ segment.render) (Shape.mark "." :: segment.shapes)) :
    Spelt (text ++ renderMore segments) (shapes ++ moreShapes segments) := by
  induction segments generalizing text shapes with
  | nil => simpa [renderMore, moreShapes] using spelt
  | cons first others ih =>
    have firstSpelt := each first List.mem_cons_self
    rw [renderMore, moreShapes, ← String.append_assoc, ← List.append_assoc]
    exact ih (spelt.append opens_point firstSpelt) fun segment member =>
      each segment (List.mem_cons_of_mem _ member)

/-- The text of type arguments, behind what they are given to. -/
theorem Spelt.then_args {text : String} {shapes : List Shape} (spelt : Spelt text shapes)
    {args : List TypeRef} (each : ∀ type ∈ args, Spelt type.render type.shapes) :
    Spelt (text ++ "<" ++ renderArgs args ++ ">")
      (shapes ++ [Shape.mark "<"] ++ argShapes args ++ [Shape.mark ">"]) := by
  have opened := spelt.then_closed (opens_mark (by decide : "<" ∈ marks)) (Closed.mark (by decide))
  have joined := Spelt.join opens_comma closed_comma each
  rw [renderArgs_eq, argShapes_eq]
  exact ((opened.then_spelt joined).then_closed (opens_mark (by decide : ">" ∈ marks))
    (Closed.mark (by decide))).spelt

/-- **The canonical text of a reference has its tokens.** -/
theorem TypeRef.Worded.spelt {type : TypeRef} (worded : type.Worded) :
    Spelt type.render type.shapes := by
  refine TypeRef.holds (P := fun type => type.Worded → Spelt type.render type.shapes)
    (Q := fun segment => segment.Worded → Spelt segment.render segment.shapes ∧
      Spelt ("." ++ segment.render) (Shape.mark "." :: segment.shapes)) ?_ ?_ ?_ ?_ ?_ ?_ type worded
  · intro _ dims _
    exact (Closed.mark (by decide : "?" ∈ marks)).spelt.then_brackets dims
  · intro _ _ dims _
    exact (Closed.mark (by decide : "?" ∈ marks)).spelt.then_brackets dims
  · intro _ bound type dims ih worded
    have question : Closed "? " [Shape.mark "?"] := Closed.mark_space "?" (by decide)
    have keyword : Spelt bound.keyword [Shape.word bound.keyword] :=
      Spelt.word (by cases bound <;> decide)
    have front := (question.then_spelt keyword).then_closed opens_space Closed.space
    exact (front.then_spelt (ih (worded_bounded.mp worded))).then_brackets dims
  · intro _ first others dims ihFirst ihOthers worded
    obtain ⟨isFirst, isOthers⟩ := List.forall_mem_cons.mp (worded_named.mp worded)
    refine ((ihFirst isFirst).1.then_more fun segment member => ?_).then_brackets dims
    exact (ihOthers segment member (isOthers segment member)).2
  · intro name worded
    exact ⟨Spelt.identifier worded.name, Spelt.behindPoint worded.name⟩
  · intro name args ih worded
    have each := fun type member => ih type member (worded.args type member)
    refine ⟨(Spelt.identifier worded.name).then_args each, ?_⟩
    have pointed := (Spelt.behindPoint worded.name).then_args each
    rw [TypeSegment.render, ← String.append_assoc, ← String.append_assoc, ← String.append_assoc]
    exact pointed

theorem TypeRef.spelt {vars : String → Prop} (type : TypeRef) (clean : type.Clean vars) :
    Spelt type.render type.shapes :=
  (type.worded_of_clean clean).spelt

/-! ### What the next token decides -/

section Refusals

variable {finish : Position} {bound : Nat} {shape : Shape} {after : List Shape} {glimpse : Glimpse}

/-- A nonterminal that one look at the next token refuses. -/
theorem symbol_refused {s : Symbol} (fits : glimpse.Fits reserved shape) (depth : Nat)
    (refused : declarations.refuses glimpse depth s = true) :
    Refused (declarations.reading finish bound s) (shape :: after) := by
  have view : (Rule.call s : DeclRule s.Value).view (declarations.refuses glimpse depth) glimpse =
      .refuses := by
    rw [Rule.view, refused]
    rfl
  exact Refused.of_view mem_reserved (fun _ member => (List.not_mem_nil member).elim) fits depth view

/-- At the end of the tokens there is no further type. -/
theorem declines_topLevel_nil :
    Declines (DeclRule.topLevel.reading (declarations.reading finish (bound + 2)) finish) [] := by
  have modifiers : repeatedReading ((DeclRule.sym .modifier).reading (declarations.reading finish (bound + 1))
      finish) maxIterations [] = .matched [] [] :=
    repeatedReading_of_refused (.inl (by cases bound <;> rfl)) 999999
  have decl : (DeclRule.sym .typeDecl).reading (declarations.reading finish (bound + 2)) finish [] =
      .failed [] := by
    have parts : (Rule.seq (Rule.many (DeclRule.sym .modifier)) (DeclRule.sym .typeSpec)).reading
        (declarations.reading finish (bound + 1)) finish [] = .failed [] := by
      simp only [Rule.reading, modifiers]
      rfl
    exact congrArg (Grammar.Reading.map _) (congrArg (Grammar.Reading.map _) parts)
  intro ts isEnd
  rw [List.map_eq_nil_iff.mp isEnd]
  refine .inr ⟨[], ?_, rfl⟩
  simp only [DeclRule.topLevel, Rule.reading, Choice.reading, decl]
  rfl

/-- One of these glimpses is one of the first token. -/
def StartsIn (starts : List Glimpse) (shapes : List Shape) : Prop :=
  ∃ shape others glimpse, shapes = shape :: others ∧ glimpse ∈ starts ∧ glimpse.Fits reserved shape

/-- The next token has another text than this one. -/
def NotAhead (text : String) (ahead : List Shape) : Prop :=
  ∃ shape others, ahead = shape :: others ∧ shape.2 ≠ text

theorem NotAhead.append {text : String} {ahead : List Shape} (other : NotAhead text ahead)
    (after : List Shape) : NotAhead text (ahead ++ after) := by
  obtain ⟨shape, others, rfl, differs⟩ := other
  exact ⟨shape, others ++ after, rfl, differs⟩

namespace StartsIn

variable {starts : List Glimpse} {shapes : List Shape}

theorem append (begins : StartsIn starts shapes) (after : List Shape) :
    StartsIn starts (shapes ++ after) := by
  obtain ⟨shape, others, glimpse, rfl, isStart, fits⟩ := begins
  exact ⟨shape, others ++ after, glimpse, rfl, isStart, fits⟩

/-- A nonterminal that starts with none of these is refused. -/
theorem refused (begins : StartsIn starts shapes) {s : Symbol} (depth : Nat)
    (refuses : starts.all (fun glimpse => declarations.refuses glimpse depth s) = true) :
    Refused (declarations.reading finish bound s) shapes := by
  obtain ⟨shape, others, glimpse, rfl, isStart, fits⟩ := begins
  exact symbol_refused fits depth (List.all_eq_true.mp refuses glimpse isStart)

theorem notAhead (begins : StartsIn starts shapes) {text : String} (asked : text ∈ reserved)
    (others : starts.all (fun glimpse => !glimpse.mayBe text) = true) : NotAhead text shapes := by
  obtain ⟨shape, more, glimpse, rfl, isStart, fits⟩ := begins
  have other := List.all_eq_true.mp others glimpse isStart
  exact ⟨shape, more, rfl, beq_eq_false_iff_ne.mp (fits.text_ne asked (by simpa using other))⟩

end StartsIn

/-- What a type may start with. -/
def typeStarts : List Glimpse :=
  [.plainWord, .exactly (Shape.mark "?")]

/-- The first token may start a type. -/
abbrev StartsType : List Shape → Prop :=
  StartsIn typeStarts

end Refusals

theorem IsPlain.fits {name : String} (plain : IsPlain name) :
    Glimpse.plainWord.Fits reserved (Shape.word name) :=
  ⟨rfl, plain.2⟩

theorem IsPlain.startsType {name : String} (plain : IsPlain name) (others : List Shape) :
    StartsType (Shape.word name :: others) :=
  ⟨_, others, .plainWord, rfl, by decide, plain.fits⟩

theorem startsType_question (others : List Shape) : StartsType (Shape.mark "?" :: others) :=
  ⟨_, others, .exactly (Shape.mark "?"), rfl, by decide, rfl⟩

theorem TypeSegment.head_plain {vars : String → Prop} {segment : TypeSegment}
    (clean : segment.Clean vars) :
    ∃ name others, segment.shapes = Shape.word name :: others ∧ IsPlain name := by
  cases segment with
  | plain name => exact ⟨name, [], rfl, clean⟩
  | applied name args => exact ⟨name, _, rfl, clean.1⟩

theorem TypeSegment.startsType {vars : String → Prop} {segment : TypeSegment}
    (clean : segment.Clean vars) : StartsType segment.shapes := by
  obtain ⟨name, others, shapes, plain⟩ := segment.head_plain clean
  rw [shapes]
  exact plain.startsType others

theorem TypeRef.startsType {vars : String → Prop} {type : TypeRef} (clean : type.Clean vars) :
    StartsType type.shapes := by
  cases type with
  | wildcard => exact startsType_question _
  | unfinished => exact startsType_question _
  | bounded => exact startsType_question _
  | named _ first others dims => exact ((first.startsType clean.2.1).append _).append _

/-- The marks that may stand behind the first name of a type. -/
def innerMarks : List Shape :=
  [Shape.mark "<", Shape.mark ".", Shape.mark "["]

/-- A type is a wildcard, or a name with such a mark behind it or nothing. -/
theorem TypeRef.shapes_cases {vars : String → Prop} {type : TypeRef} (clean : type.Clean vars) :
    (∃ others, type.shapes = Shape.mark "?" :: others) ∨
      ∃ name others, type.shapes = Shape.word name :: others ∧
        (others = [] ∨ ∃ mark more, others = mark :: more ∧ mark ∈ innerMarks) := by
  cases type with
  | wildcard => exact .inl ⟨_, rfl⟩
  | unfinished => exact .inl ⟨_, rfl⟩
  | bounded => exact .inl ⟨_, rfl⟩
  | named _ first others dims =>
    refine .inr ?_
    cases first with
    | applied name args => exact ⟨name, _, rfl, .inr ⟨_, _, rfl, by decide⟩⟩
    | plain name =>
      refine ⟨name, _, rfl, ?_⟩
      cases others with
      | cons => exact .inr ⟨_, _, rfl, by decide⟩
      | nil =>
        cases dims with
        | zero => exact .inl rfl
        | succ dims =>
          rw [dimShapes_succ]
          exact .inr ⟨_, _, rfl, by decide⟩

/-- The marks that may follow a type, and the keyword that may. -/
def typeStops : List Shape :=
  [Shape.mark ",", Shape.mark ">", Shape.mark "&", Shape.mark "\x7b", Shape.mark "(", Shape.ellipsis,
    Shape.word "implements"]

/-- The marks that may follow the name of something with a type. -/
def nameStops : List Shape :=
  [Shape.mark "(", Shape.mark ",", Shape.mark ")", Shape.mark ";"]

/-- What may follow a type without continuing it: a mark, or a name with a mark behind it. Such a
name may be a keyword, which continues a wildcard only in front of a type. -/
inductive EndsType : List Shape → Prop
  | mark {shape : Shape} {others : List Shape} (stops : shape ∈ typeStops) : EndsType (shape :: others)
  | name {name : String} {shape : Shape} {others : List Shape} (isWord : isName name = true)
      (stops : shape ∈ nameStops) : EndsType (Shape.word name :: shape :: others)

theorem ne_of_isName {name text : String} (isWord : isName name = true)
    (other : isName text = false) : name ≠ text := by
  rintro rfl
  rw [isWord] at other
  cases other

/-- A type is not continued by the next token. -/
theorem EndsType.head {after : List Shape} (ends : EndsType after) :
    ∃ shape others, after = shape :: others ∧ shape.2 ≠ "." ∧ shape.2 ≠ "[" ∧ shape.2 ≠ "<" := by
  cases ends with
  | @mark shape others stops =>
    refine ⟨shape, others, rfl, ?_⟩
    have all : typeStops.all (fun shape => shape.2 != "." && shape.2 != "[" && shape.2 != "<") := by
      decide
    have this := List.all_eq_true.mp all shape stops
    simp only [Bool.and_eq_true, bne_iff_ne] at this
    exact ⟨this.1.1, this.1.2, this.2⟩
  | @name name shape others isWord stops =>
    exact ⟨_, _, rfl, ne_of_isName isWord (by decide), ne_of_isName isWord (by decide),
      ne_of_isName isWord (by decide)⟩

section Reading

variable {finish : Position} {bound : Nat} {after : List Shape}

/-- The keyword of a bound is the next token. -/
def BoundAhead (ahead : List Shape) : Prop :=
  ¬(NotAhead "extends" ahead ∧ NotAhead "super" ahead)

/-- A wildcard is not continued by what may follow a type, but the keyword of a bound may be kept. -/
theorem EndsType.reads_unbound (ends : EndsType after) :
    Reads ((Rule.kept (.pick Bound.all Bound.keyword) (DeclRule.sym .typeRef)).reading
      (declarations.reading finish bound) finish) [] after
      fun value => value = none ∨ BoundAhead after ∧ ∃ direction, value = some (direction, none) := by
  cases ends with
  | @mark shape others stops =>
    have none_ : typeStops.all (fun shape => (Bound.all.find? (·.keyword == shape.2)).isNone) := by
      decide
    have isNone := Option.isNone_iff_eq_none.mp (List.all_eq_true.mp none_ shape stops)
    exact (Reads.notKept (Refused.pick isNone).declines).imp fun _ => .inl
  | @name name shape others isWord stops =>
    have notType : nameStops.all (fun shape =>
        declarations.refuses (.exactly shape) 3 .typeRef) = true := by decide
    have refused : Refused ((DeclRule.sym .typeRef).reading (declarations.reading finish bound)
        finish) (shape :: others) :=
      symbol_refused Glimpse.fits_exactly 3 (List.all_eq_true.mp notType shape stops)
    cases found : Bound.all.find? (·.keyword == name) with
    | some value =>
      have picked : Reads ((Rule.pick Bound.all Bound.keyword : DeclRule Bound).reading
          (declarations.reading finish bound) finish) [Shape.word name] (shape :: others)
          (· = value) := Reads.pick found
      have isKeyword : name = value.keyword := (by simpa using List.find?_some found : _ = name).symm
      have ahead : BoundAhead (Shape.word name :: shape :: others) := by
        rintro ⟨⟨_, _, same, notUpper⟩, ⟨_, _, same', notLower⟩⟩
        obtain ⟨rfl, -⟩ := List.cons_eq_cons.mp same
        obtain ⟨rfl, -⟩ := List.cons_eq_cons.mp same'
        cases value with
        | upper => exact notUpper isKeyword
        | lower => exact notLower isKeyword
      refine (Reads.keptAlone picked refused (show 1 ≤ State.lookahead by decide)).imp ?_
      rintro (_ | ⟨direction, inner⟩) alone
      · exact .inl rfl
      · obtain rfl : inner = none := alone _ rfl
        exact .inr ⟨ahead, direction, rfl⟩
    | none =>
      have isNone : Bound.all.find? (·.keyword == (Shape.word name).2) = none := found
      exact (Reads.notKept (Refused.pick isNone).declines).imp fun _ => .inl

theorem NotAhead.refused_word {text : String} (other : NotAhead text after) :
    Refused ((Rule.word text : DeclRule Unit).reading (declarations.reading finish bound) finish)
      after := by
  obtain ⟨shape, others, rfl, differs⟩ := other
  exact Refused.word differs

theorem NotAhead.refused_behind {α : Type} {rule : DeclRule α} {text : String}
    (other : NotAhead text after) :
    Refused ((rule.after text).reading (declarations.reading finish bound) finish) after :=
  other.refused_word.seq.shaped

theorem dimShapes_ahead {text : String} (other : "[" ≠ text) (ends : NotAhead text after)
    (dims : Nat) : NotAhead text (dimShapes dims ++ after) := by
  cases dims with
  | zero => exact ends
  | succ dims =>
    rw [dimShapes_succ]
    exact ⟨_, _, rfl, other⟩

/-- Array dimensions are counted. -/
theorem reads_dims (ends : NotAhead "[" after) {dims : Nat} (few : dims < maxIterations) :
    Reads (DeclRule.dims.reading (declarations.reading finish (bound + 1)) finish)
      (dimShapes dims) after (· = dims) := by
  have opening : Refused ((Rule.word "[" : DeclRule Unit).reading (declarations.reading finish bound)
      finish) after := ends.refused_word
  have refused : Refused ((DeclRule.sym .arrayDim).reading (declarations.reading finish (bound + 1))
      finish) after := opening.seq.shaped
  have pair : ∀ following, Reads ((DeclRule.sym .arrayDim).reading
      (declarations.reading finish (bound + 1)) finish) [Shape.mark "[", Shape.mark "]"] following
      fun _ => True :=
    fun following => (Reads.word.seq Reads.word).shaped fun _ _ => trivial
  refine (Reads.many (fun _ => True) (fun _ _ => True) (List.replicate dims ())
    (fun _ _ following _ => pair following) (fun _ _ _ => trivial) trivial refused.declines
    (by rwa [List.length_replicate])).shaped ?_
  intro values same
  rw [← same.length_eq, List.length_replicate]

theorem map_render_congr {args values : List TypeRef}
    (same : List.Forall₂ (fun type value => value.render = type.render) args values) :
    values.map (·.render) = args.map (·.render) := by
  induction same with
  | nil => rfl
  | cons first _ ih => rw [List.map_cons, List.map_cons, first, ih]

theorem eq_map_of_forall₂ {α β : Type} {f : α → β} {items : List α} {values : List β}
    (same : List.Forall₂ (fun item value => value = f item) items values) :
    values = items.map f := by
  induction same with
  | nil => rfl
  | cons first _ ih => rw [List.map_cons, first, ih]

/-- A reference is read as one with the same text, with dimensions behind it. -/
def TypeRef.ReadBack (finish : Position) (type : TypeRef) : Prop :=
  ∀ extra bound after, EndsType after → 3 * type.shapes.length ≤ bound →
    (type.shapes ++ dimShapes extra).length < maxIterations →
    Reads (declarations.reading finish bound .typeRef) (type.shapes ++ dimShapes extra) after
      fun value => value.render = type.render ++ brackets extra

theorem TypeRef.ReadBack.whole {type : TypeRef} (readBack : type.ReadBack finish)
    (ends : EndsType after) (enough : 3 * type.shapes.length ≤ bound)
    (few : type.shapes.length < maxIterations) :
    Reads (declarations.reading finish bound .typeRef) type.shapes after
      fun value => value.render = type.render := by
  have reads := readBack 0 bound after ends enough
  rw [show dimShapes 0 = [] from rfl, List.append_nil, show brackets 0 = "" from rfl,
    String.append_empty] at reads
  exact reads few

/-- The value of a reading in front of tokens of these shapes. It is the expected one, but the keyword of a
bound behind it may leave a wildcard unfinished. -/
structure TypeRef.ReadAs (after : List Shape) (expected value : TypeRef) : Prop where
  settled : value.settled = expected
  eq : ¬BoundAhead after → value = expected

/-- A reference is read as its canonical form, with dimensions behind it. -/
def TypeRef.ReadsCanonical (finish : Position) (type : TypeRef) : Prop :=
  ∀ extra bound after, EndsType after → 3 * type.shapes.length ≤ bound → (type.canonical extra).Brief →
    Reads (declarations.reading finish bound .typeRef) (type.shapes ++ dimShapes extra) after
      (TypeRef.ReadAs after (type.canonical extra))

/-- A segment is read as its canonical form. -/
def TypeSegment.ReadsCanonical (finish : Position) (segment : TypeSegment) : Prop :=
  ∀ bound after, NotAhead "<" after → 3 * segment.shapes.length ≤ bound + 1 →
    segment.canonical.args.length ≤ maxIterations → (∀ arg ∈ segment.canonical.args, arg.Brief) →
    Reads (declarations.reading finish bound .typeSegment) segment.shapes after
      (· = segment.canonical)

theorem TypeRef.ReadsCanonical.whole {type : TypeRef} (reads : type.ReadsCanonical finish)
    (ends : EndsType after) (enough : 3 * type.shapes.length ≤ bound) (brief : (type.canonical 0).Brief) :
    Reads (declarations.reading finish bound .typeRef) type.shapes after
      (TypeRef.ReadAs after (type.canonical 0)) := by
  have whole := reads 0 bound after ends enough brief
  rw [show dimShapes 0 = [] from rfl, List.append_nil] at whole
  exact whole

theorem readsCanonical_plain (name : String) :
    (TypeSegment.plain name).ReadsCanonical finish := by
  intro bound after ends enough _ _
  have some_ : 3 ≤ bound + 1 := enough
  obtain ⟨bound, rfl⟩ : ∃ less, bound = less + 1 := ⟨bound - 1, by omega⟩
  have noArgs : Refused ((DeclRule.sym .typeArgs).reading (declarations.reading finish bound)
      finish) after := by
    obtain ⟨bound, rfl⟩ : ∃ less, bound = less + 1 := ⟨bound - 1, by omega⟩
    have opening : Refused ((Rule.word "<" : DeclRule Unit).reading
        (declarations.reading finish bound) finish) after := ends.refused_word
    exact opening.seq.shaped
  refine (Reads.token.seq (Reads.missing noArgs.declines)).shaped ?_
  rintro ⟨_, _⟩ ⟨rfl, rfl⟩
  rfl

/-- The type ends, and no wildcard is left unfinished. -/
def EndsFully (after : List Shape) : Prop :=
  EndsType after ∧ ¬BoundAhead after

theorem EndsFully.mark {shape : Shape} {others : List Shape} (stops : shape ∈ typeStops)
    (notBound : shape.2 ∉ Bound.all.map Bound.keyword) : EndsFully (shape :: others) := by
  refine ⟨.mark stops, fun ahead => ahead ⟨⟨_, _, rfl, ?_⟩, ⟨_, _, rfl, ?_⟩⟩⟩
  · exact fun same => notBound (same ▸ by decide)
  · exact fun same => notBound (same ▸ by decide)

theorem readsCanonical_applied {name : String} {args : List TypeRef}
    (each : ∀ type ∈ args, type.ReadsCanonical finish) :
    (TypeSegment.applied name args).ReadsCanonical finish := by
  intro bound after _ enough few brief
  rw [TypeSegment.args_canonical, List.length_map] at few
  rw [TypeSegment.args_canonical, List.forall_mem_map] at brief
  have length : (TypeSegment.applied name args).shapes.length = (argShapes args).length + 3 := by
    simp [TypeSegment.shapes]
  rw [length] at enough
  obtain ⟨bound, rfl⟩ : ∃ less, bound = less + 2 := ⟨bound - 2, by omega⟩
  have argsRead : Reads ((DeclRule.sym .typeArgs).reading (declarations.reading finish (bound + 1))
      finish) (Shape.mark "<" :: argShapes args ++ [Shape.mark ">"]) after
      (List.Forall₂ (fun type value => value = type.canonical 0) args) := by
    rw [argShapes_eq]
    refine Reads.enclosed EndsFully (by decide) ?_ (fun _ => .mark (by decide) (by decide))
      (fun _ => .mark (by decide) (by decide)) (symbol_refused Glimpse.fits_exactly 3 (by decide)) few
    intro type member following ends
    have shorter := length_le_argShapes member
    exact ((each type member).whole ends.1 (by omega) (brief type member)).imp fun _ same => same.eq ends.2
  have front : (TypeSegment.applied name args).shapes =
      [Shape.word name] ++ (Shape.mark "<" :: argShapes args ++ [Shape.mark ">"]) := rfl
  rw [front]
  refine (Reads.token.seq argsRead.present).shaped ?_
  rintro ⟨_, _⟩ ⟨rfl, values, rfl, same⟩
  rw [eq_map_of_forall₂ same, TypeSegment.canonical, argsCanonical_eq]

theorem EndsType.notAhead_point (ends : EndsType after) : NotAhead "." after := by
  obtain ⟨shape, others, rfl, point, _⟩ := ends.head
  exact ⟨shape, others, rfl, point⟩

theorem EndsType.notAhead_bracket (ends : EndsType after) : NotAhead "[" after := by
  obtain ⟨shape, others, rfl, _, bracket, _⟩ := ends.head
  exact ⟨shape, others, rfl, bracket⟩

theorem EndsType.notAhead_angle (ends : EndsType after) : NotAhead "<" after := by
  obtain ⟨shape, others, rfl, _, _, angle⟩ := ends.head
  exact ⟨shape, others, rfl, angle⟩

/-- The reference without annotations that names this. -/
def TypeRef.ofCore (dims : Nat) :
    Option (Bound × Option TypeRef) ⊕ TypeSegment × List TypeSegment → TypeRef
  | .inl none => .wildcard [] dims
  | .inl (some (bound, none)) => .unfinished [] bound dims
  | .inl (some (bound, some type)) => .bounded [] bound type dims
  | .inr (first, others) => .named [] first others dims

/-- A reference is read if what it names is. -/
theorem reads_ofCore {core : List Shape}
    {holds : Option (Bound × Option TypeRef) ⊕ TypeSegment × List TypeSegment → Prop} {dims : Nat}
    (few : dims < maxIterations) (starts : NotAhead "@" core) (ends : NotAhead "[" after)
    (coreReads : Reads (DeclRule.typeCore.reading (declarations.reading finish (bound + 1)) finish)
      core (dimShapes dims ++ after) holds) :
    Reads (declarations.reading finish (bound + 2) .typeRef) (core ++ dimShapes dims) after
      fun value => ∃ named, holds named ∧ value = TypeRef.ofCore dims named := by
  have refused : Refused (declarations.reading finish (bound + 1) .annotationUse)
      ((core ++ dimShapes dims) ++ after) := by
    have marked : Refused ((Rule.word "@" : DeclRule Unit).reading
        (declarations.reading finish bound) finish) ((core ++ dimShapes dims) ++ after) :=
      ((starts.append _).append _).refused_word
    exact marked.seq.shaped
  have noAnnotations : Reads ((Rule.many (DeclRule.sym .annotationUse)).reading
      (declarations.reading finish (bound + 1)) finish) [] ((core ++ dimShapes dims) ++ after)
      (· = []) :=
    Reads.none_ refused.call.declines
  refine (noAnnotations.seq (coreReads.seq (reads_dims ends few))).shaped ?_
  rintro ⟨_, named, _⟩ ⟨rfl, good, rfl⟩
  refine ⟨named, good, ?_⟩
  match named with
  | .inl none => rfl
  | .inl (some (_, none)) => rfl
  | .inl (some (_, some _)) => rfl
  | .inr (_, _) => rfl

/-- A wildcard is read, and what may follow a type behind it. -/
theorem reads_wildcard {dims : Nat} (few : dims < maxIterations) (ends : EndsType after) :
    Reads (declarations.reading finish (bound + 2) .typeRef) ([Shape.mark "?"] ++ dimShapes dims) after
      (TypeRef.ReadAs after (.wildcard [] dims)) := by
  have unbound : Reads ((Rule.kept (.pick Bound.all Bound.keyword) (DeclRule.sym .typeRef)).reading
      (declarations.reading finish bound) finish) [] (dimShapes dims ++ after)
      fun value => value = none ∨ BoundAhead after ∧ ∃ direction, value = some (direction, none) := by
    cases dims with
    | zero => exact ends.reads_unbound
    | succ more =>
      rw [dimShapes_succ]
      have isNone : Bound.all.find? (·.keyword == (Shape.mark "[").2) = none := by decide
      exact (Reads.notKept (Refused.pick isNone).declines).imp fun _ => .inl
  have question : Reads ((DeclRule.sym .wildcard).reading (declarations.reading finish (bound + 1)) finish)
      [Shape.mark "?"] (dimShapes dims ++ after)
      fun value => value = none ∨ BoundAhead after ∧ ∃ direction, value = some (direction, none) :=
    (Reads.word.seq unbound).shaped fun _ both => both.2
  refine (reads_ofCore few ⟨_, _, rfl, by decide⟩ ends.notAhead_bracket (question.here false).choice).imp ?_
  rintro _ ⟨_, ⟨_, rfl, rfl | ⟨ahead, direction, rfl⟩⟩, rfl⟩
  · exact ⟨rfl, fun _ => rfl⟩
  · exact ⟨rfl, fun other => absurd ahead other⟩

theorem readsCanonical_wildcard (annotations : List AnnotationUse) (dims : Nat) :
    (TypeRef.wildcard annotations dims).ReadsCanonical finish := by
  intro extra bound after ends enough brief
  rw [TypeRef.shapes, List.length_append, List.length_singleton] at enough
  obtain ⟨bound, rfl⟩ : ∃ less, bound = less + 2 := ⟨bound - 2, by omega⟩
  rw [TypeRef.shapes, List.append_assoc, ← dimShapes_add]
  exact reads_wildcard (brief _ (List.mem_singleton_self _)) ends

theorem readsCanonical_unfinished (annotations : List AnnotationUse) (direction : Bound) (dims : Nat) :
    (TypeRef.unfinished annotations direction dims).ReadsCanonical finish :=
  readsCanonical_wildcard annotations dims

theorem readsCanonical_bounded {annotations : List AnnotationUse} {direction : Bound}
    {type : TypeRef} {dims : Nat} (inner : type.ReadsCanonical finish) :
    (TypeRef.bounded annotations direction type dims).ReadsCanonical finish := by
  intro extra bound after ends enough brief
  rw [TypeRef.canonical, brief_bounded] at brief
  rw [TypeRef.shapes, List.length_append, List.length_append] at enough
  simp only [List.length_cons, List.length_nil] at enough
  obtain ⟨bound, rfl⟩ : ∃ less, bound = less + 2 := ⟨bound - 2, by omega⟩
  -- The dimensions are those of the bound, which reads as far as it can.
  have typeRead := inner (dims + extra) bound after ends (by omega) brief.2
  have picked : Reads ((Rule.pick Bound.all Bound.keyword : DeclRule Bound).reading
      (declarations.reading finish bound) finish) [Shape.word direction.keyword]
      ((type.shapes ++ dimShapes (dims + extra)) ++ after) (· = direction) :=
    Reads.pick (by cases direction <;> decide)
  have question : Reads ((DeclRule.sym .wildcard).reading (declarations.reading finish (bound + 1))
      finish) ([Shape.mark "?"] ++ ([Shape.word direction.keyword] ++ (type.shapes ++
        dimShapes (dims + extra)))) (dimShapes 0 ++ after)
        fun value => ∃ inner, value = some (direction, some inner) ∧
          TypeRef.ReadAs after (type.canonical (dims + extra)) inner := by
    refine (Reads.word.seq (picked.kept typeRead.call)).shaped ?_
    rintro ⟨_, _⟩ ⟨-, _, inner, rfl, rfl, same⟩
    exact ⟨inner, rfl, same⟩
  have front : (TypeRef.bounded annotations direction type dims).shapes ++ dimShapes extra =
      ([Shape.mark "?"] ++ ([Shape.word direction.keyword] ++ (type.shapes ++
        dimShapes (dims + extra)))) ++ dimShapes 0 := by
    simp [TypeRef.shapes, dimShapes_add, show dimShapes 0 = [] from rfl]
  rw [front]
  refine (reads_ofCore maxIterations_pos ⟨_, _, rfl, by decide⟩ ends.notAhead_bracket
    (question.here false).choice).imp ?_
  rintro _ ⟨_, ⟨_, rfl, inner, rfl, same⟩, rfl⟩
  rw [TypeRef.canonical]
  refine ⟨?_, fun notAhead => ?_⟩
  · rw [TypeRef.ofCore, TypeRef.settled, same.settled]
  · rw [TypeRef.ofCore, same.eq notAhead]

theorem TypeSegment.shapes_head (segment : TypeSegment) :
    ∃ others, segment.shapes = Shape.word segment.name :: others := by
  cases segment with
  | plain name => exact ⟨[], rfl⟩
  | applied name args => exact ⟨_, rfl⟩

/-- A mark is not ahead where a segment begins. -/
theorem TypeSegment.Worded.notAhead {segment : TypeSegment} (worded : segment.Worded)
    {text : String} (isMark : isIdentifier text = false) : NotAhead text segment.shapes := by
  obtain ⟨others, shapes⟩ := segment.shapes_head
  refine ⟨_, others, shapes, ?_⟩
  rintro (same : segment.name = text)
  rw [← same, worded.name] at isMark
  cases isMark

theorem readsCanonical_named {annotations : List AnnotationUse} {first : TypeSegment}
    {others : List TypeSegment} {dims : Nat} (worded : first.Worded)
    (firstReads : first.ReadsCanonical finish)
    (each : ∀ segment ∈ others, segment.ReadsCanonical finish) :
    (TypeRef.named annotations first others dims).ReadsCanonical finish := by
  intro extra bound after ends enough brief
  rw [TypeRef.canonical, brief_named] at brief
  obtain ⟨⟨fewOthers, fewDims, fewArgs⟩, briefArgs⟩ := brief
  rw [moreCanonical_eq, List.length_map] at fewOthers
  have canonical : first.canonical :: moreCanonical others = (first :: others).map TypeSegment.canonical := by
    rw [moreCanonical_eq, List.map_cons]
  rw [canonical, List.forall_mem_map] at fewArgs briefArgs
  rw [TypeRef.shapes, List.length_append, List.length_append] at enough
  have some_ : 0 < first.shapes.length := by
    obtain ⟨_, shapes⟩ := first.shapes_head
    rw [shapes]
    exact Nat.succ_pos _
  obtain ⟨bound, rfl⟩ : ∃ less, bound = less + 2 := ⟨bound - 2, by omega⟩
  have notApplied := dimShapes_ahead (by decide) ends.notAhead_angle (dims + extra)
  have notPointed := dimShapes_ahead (by decide) ends.notAhead_point (dims + extra)
  have moreRead : Reads ((Rule.many ((DeclRule.sym .typeSegment).after ".")).reading
      (declarations.reading finish (bound + 1)) finish) (moreShapes others)
      (dimShapes (dims + extra) ++ after)
      (List.Forall₂ (fun segment value => value = segment.canonical) others) := by
    rw [moreShapes_eq]
    have goesOn (following : List Shape) : NotAhead "<" (Shape.mark "." :: following) :=
      ⟨_, _, rfl, by decide⟩
    refine Reads.more (NotAhead "<") others ?_ goesOn notApplied
      notPointed.refused_behind.declines fewOthers
    intro segment member following next
    have shorter := length_lt_moreShapes member
    exact each segment member (bound + 1) following next (by omega) (fewArgs segment (.tail _ member))
      (briefArgs segment (.tail _ member))
  have firstRead : Reads ((DeclRule.sym .typeSegment).reading
      (declarations.reading finish (bound + 1)) finish) first.shapes
      (moreShapes others ++ (dimShapes (dims + extra) ++ after)) (· = first.canonical) := by
    refine firstReads (bound + 1) _ ?_ (by omega) (fewArgs first (.head _)) (briefArgs first (.head _))
    cases others with
    | nil => exact notApplied
    | cons => exact ⟨_, _, rfl, by decide⟩
  have notWildcard : Refused ((DeclRule.sym .wildcard).reading
      (declarations.reading finish (bound + 1)) finish)
      ((first.shapes ++ moreShapes others) ++ (dimShapes (dims + extra) ++ after)) := by
    have marked : Refused ((Rule.word "?" : DeclRule Unit).reading
        (declarations.reading finish bound) finish)
        ((first.shapes ++ moreShapes others) ++ (dimShapes (dims + extra) ++ after)) :=
      (((worded.notAhead (by decide)).append _).append _).refused_word
    exact marked.seq.shaped
  have coreRead := ((firstRead.seq moreRead).last)
  rw [TypeRef.shapes, List.append_assoc, ← dimShapes_add]
  refine (reads_ofCore fewDims ((worded.notAhead (by decide)).append _) ends.notAhead_bracket
    (Reads.later notWildcard.declines coreRead false).choice).imp ?_
  rintro _ ⟨_, ⟨⟨_, values⟩, rfl, rfl, sameMore⟩, rfl⟩
  obtain rfl : values = others.map TypeSegment.canonical := eq_map_of_forall₂ sameMore
  rw [← moreCanonical_eq]
  exact ⟨TypeRef.settled_canonical (.named annotations first others dims) extra, fun _ => rfl⟩

/-- **The tokens of a reference are read as its canonical form.** -/
theorem TypeRef.Worded.reads {type : TypeRef} (worded : type.Worded) :
    type.ReadsCanonical finish := by
  refine TypeRef.holds (P := fun type => type.Worded → type.ReadsCanonical finish)
    (Q := fun segment => segment.Worded → segment.ReadsCanonical finish) ?_ ?_ ?_ ?_ ?_ ?_ type worded
  · exact fun annotations dims _ => readsCanonical_wildcard annotations dims
  · exact fun annotations direction dims _ => readsCanonical_unfinished annotations direction dims
  · exact fun _ _ _ _ ih worded => readsCanonical_bounded (ih (worded_bounded.mp worded))
  · intro _ first others _ ihFirst ihOthers worded
    obtain ⟨isFirst, isOthers⟩ := List.forall_mem_cons.mp (worded_named.mp worded)
    exact readsCanonical_named isFirst (ihFirst isFirst) fun segment member =>
      ihOthers segment member (isOthers segment member)
  · exact fun name _ => readsCanonical_plain name
  · exact fun name args ih worded => readsCanonical_applied fun type member =>
      ih type member (worded.args type member)

/-- **The tokens of a reference are read as a reference with its text.** -/
theorem TypeRef.reads {vars : String → Prop} (type : TypeRef) (clean : type.Clean vars) :
    type.ReadBack finish := by
  intro extra bound after ends enough few
  have brief : (type.canonical extra).Brief := TypeRef.brief_of_few _ (by rwa [type.shapes_canonical])
  refine ((type.worded_of_clean clean).reads extra bound after ends enough brief).imp fun value same => ?_
  rw [← value.render_settled, same.settled, type.render_canonical]

end Reading

/-! ### Type parameters -/

/-- The name is plain and the bounds are clean. -/
def TypeParam.Clean (vars : String → Prop) (param : TypeParam) : Prop :=
  IsPlain param.name ∧ ∀ type ∈ param.bounds, type.Clean vars

instance (vars : String → Prop) [DecidablePred vars] (param : TypeParam) :
    Decidable (param.Clean vars) :=
  inferInstanceAs (Decidable (_ ∧ ∀ type ∈ param.bounds, type.Clean vars))

theorem TypeParam.Clean.mono {vars others : String → Prop} {param : TypeParam}
    (clean : param.Clean vars) (fewer : ∀ name, others name → vars name) : param.Clean others :=
  ⟨clean.1, fun type member => type.clean_mono fewer (clean.2 type member)⟩

/-- The tokens of the canonical text of a type parameter. -/
def TypeParam.shapes (param : TypeParam) : List Shape :=
  [Shape.word param.name] ++
    clauseShapes (Shape.word "extends") (Shape.mark "&") TypeRef.shapes param.bounds

theorem TypeParam.spelt {vars : String → Prop} {param : TypeParam} (clean : param.Clean vars) :
    Spelt param.render param.shapes := by
  obtain ⟨plain, cleanBounds⟩ := clean
  rw [TypeParam.render, TypeParam.shapes]
  cases bounds : param.bounds with
  | nil => simpa [clauseShapes] using Spelt.word plain.1
  | cons first others =>
    rw [bounds] at cleanBounds
    have ampersand : Closed " & " [Shape.mark "&"] := Closed.mark_between "&" (by decide)
    have keyword : Closed " extends " [Shape.word "extends"] :=
      (Closed.space.append (Closed.keyword "extends" (by decide)) :)
    have joined := Spelt.join ⟨' ', ['&', ' '], rfl, by decide⟩ ampersand
      fun type member => TypeRef.spelt type (cleanBounds type member)
    exact ((Spelt.word plain.1).then_closed ⟨' ', "extends ".toList, rfl, by decide⟩
      keyword).then_spelt joined

/-- What may follow a type parameter. -/
def EndsParam (after : List Shape) : Prop :=
  ∃ shape others, after = shape :: others ∧ shape ∈ [Shape.mark ",", Shape.mark ">"]

section Params

variable {finish : Position} {bound : Nat} {after : List Shape}

/-- The tokens of a type parameter are read as one with its text. -/
theorem TypeParam.reads {vars : String → Prop} {param : TypeParam} (clean : param.Clean vars)
    (ends : EndsParam after) (enough : 3 * param.shapes.length ≤ bound)
    (few : param.shapes.length < maxIterations) :
    Reads (declarations.reading finish bound .typeParam) param.shapes after
      fun value => value.render = param.render := by
  obtain ⟨plain, cleanBounds⟩ := clean
  have length : param.shapes.length = 1 +
      (clauseShapes (Shape.word "extends") (Shape.mark "&") TypeRef.shapes param.bounds).length := by
    rw [TypeParam.shapes, List.length_append]
    rfl
  obtain ⟨bound, rfl⟩ : ∃ less, bound = less + 1 := ⟨bound - 1, by omega⟩
  have noAnnotations : Reads ((Rule.many (DeclRule.sym .annotationUse)).reading
      (declarations.reading finish bound) finish) [] (param.shapes ++ after) (· = []) :=
    Reads.none_ (symbol_refused plain.fits 1 (by decide)).declines
  have stops : NotAhead "extends" after ∧ NotAhead "&" after ∧ EndsType after := by
    obtain ⟨shape, others, rfl, isStop⟩ := ends
    simp only [List.mem_cons, List.not_mem_nil, or_false] at isStop
    rcases isStop with rfl | rfl <;>
      exact ⟨⟨_, _, rfl, by decide⟩, ⟨_, _, rfl, by decide⟩, .mark (by decide)⟩
  have boundsRead : Reads ((Rule.clause "extends" "&" (DeclRule.sym .typeRef)).reading
      (declarations.reading finish bound) finish)
      (clauseShapes (Shape.word "extends") (Shape.mark "&") TypeRef.shapes param.bounds) after
      (List.Forall₂ (fun type value => value.render = type.render) param.bounds) := by
    have few' : param.bounds.length < maxIterations := by
      have count := count_le_clauseShapes (Shape.word "extends") (Shape.mark "&") TypeRef.shapes param.bounds
      omega
    refine Reads.clause EndsType ?_ (fun _ => .mark (by decide)) stops.2.2
      stops.1.refused_word stops.2.1.refused_behind (Nat.le_of_lt few')
    intro type member following next
    have shorter := length_le_clauseShapes (Shape.word "extends") (Shape.mark "&") TypeRef.shapes
      member
    exact (type.reads (cleanBounds type member)).whole next (by omega) (by omega)
  refine (noAnnotations.seq (Reads.token.seq boundsRead)).shaped ?_
  rintro ⟨_, _, values⟩ ⟨rfl, rfl, same⟩
  have isEmpty : values.isEmpty = param.bounds.isEmpty := by
    revert same
    generalize param.bounds = bounds
    rintro ⟨⟩ <;> rfl
  simp only [TypeParam.render, isEmpty, map_render_congr same]

end Params

end Forwarder.Source
