/-
**Canonical texts read back.** The canonical text of a reference, put into a declaration of its own, is
read as that reference without its annotations, unless there is an unfinished wildcard in it: its keyword is
not in the text.

* `Decorates.text`, `Decorates.unit` — a class that implements a type with one argument, as text and as
  it is read.
* `reads_decorates` — the tokens of this text are read as this class.
* **`parse_decorates`** — for every reference of every file that is read, which makes the canonical text
  tell references apart up to annotations and unfinished wildcards.
* `unfinished_not_told` — two references that it does not tell apart.
-/

import Forwarder.Proofs.Computed
import Forwarder.Proofs.Source.Occurrences
import Forwarder.Proofs.Source.TypeText

namespace Forwarder.Source

open Grammar

namespace Decorates

/-- The type with the one argument. -/
def type (arg : TypeRef) : TypeRef :=
  .named [] (.applied "Decorator" [arg]) [] 0

/-- A class that implements it. -/
def text (arg : TypeRef) : String :=
  "class T implements Decorator<" ++ arg.render ++ "> \x7b\x7d"

/-- What is declared in this text, at its place. -/
def unit (pos : Position) (arg : TypeRef) : CompilationUnit :=
  ⟨none, [], [.type ⟨pos, [], ⟨⟨.classKind, "T", [], none, [], [type arg], []⟩, []⟩⟩]⟩

/-- The tokens of the text. -/
def shapes (arg : TypeRef) : List Shape :=
  [Shape.word "class", Shape.word "T", Shape.word "implements"] ++ (type arg).shapes ++
    [Shape.mark "\x7b", Shape.mark "\x7d"]

end Decorates

open Decorates

variable {arg : TypeRef}

theorem worded_type (worded : arg.Worded) : (type arg).Worded := by
  refine worded_named.mpr (List.forall_mem_singleton.mpr ⟨?_, ?_⟩)
  · show isIdentifier "Decorator" = true
    decide
  · exact List.forall_mem_singleton.mpr worded

theorem brief_type (brief : arg.Brief) : (type arg).Brief := by
  have short : (type arg).Short := by
    refine ⟨maxIterations_pos, maxIterations_pos, List.forall_mem_singleton.mpr ?_⟩
    exact maxIterations_pos
  refine brief_named.mpr ⟨short, List.forall_mem_singleton.mpr (List.forall_mem_singleton.mpr brief)⟩

theorem render_type (arg : TypeRef) :
    (type arg).render = "Decorator" ++ "<" ++ arg.render ++ ">" := by
  rw [type, TypeRef.render, TypeSegment.render, renderMore, renderArgs, String.append_empty,
    show brackets 0 = "" from rfl, String.append_empty]

theorem text_eq (arg : TypeRef) :
    text arg = "class T implements " ++ (type arg).render ++ " \x7b\x7d" := by
  have front : "class T implements Decorator<" = "class T implements " ++ ("Decorator" ++ "<") := by
    decide
  have back : "> \x7b\x7d" = ">" ++ " \x7b\x7d" := by decide
  show "class T implements Decorator<" ++ arg.render ++ "> \x7b\x7d" = _
  rw [render_type, front, back]
  simp only [String.append_assoc]

theorem spelt_text (worded : arg.Worded) : Spelt (text arg) (shapes arg) := by
  have front : Closed "class T implements " [Shape.word "class", Shape.word "T", Shape.word "implements"] :=
    (((Closed.keyword "class" (by decide)).append (Closed.keyword "T" (by decide))).append
      (Closed.keyword "implements" (by decide)) :)
  have braces : Closed " \x7b\x7d" [Shape.mark "\x7b", Shape.mark "\x7d"] :=
    ((Closed.space.append (Closed.mark (by decide : "\x7b" ∈ marks))).append
      (Closed.mark (by decide : "\x7d" ∈ marks)) :)
  have opens : Opens " \x7b\x7d" := ⟨' ', ['\x7b', '\x7d'], rfl, by decide⟩
  rw [text_eq]
  exact (front.then_spelt (worded_type worded).spelt).append opens braces.spelt

section Reading

variable {finish : Position} {bound : Nat} {after : List Shape}

/-- The class after its modifiers, of which there are none. -/
theorem reads_spec (worded : arg.Worded) (brief : (arg.canonical 0).Brief) (enough : 3 * (shapes arg).length ≤ bound) :
    Reads (declarations.reading finish bound .typeSpec) (shapes arg) after
      (· = ⟨⟨.classKind, "T", [], none, [], [type (arg.canonical 0)], []⟩, []⟩) := by
  have length : (shapes arg).length = (type arg).shapes.length + 5 := by
    simp [shapes]
  obtain ⟨bound, rfl⟩ : ∃ less, bound = less + 2 := ⟨bound - 2, by omega⟩
  have noMember : Refused ((DeclRule.sym .member).reading (declarations.reading finish bound) finish)
      ([Shape.mark "\x7d"] ++ after) := (symbol_refused Glimpse.fits_exactly 5 (by decide)).call
  have body : Reads ((DeclRule.sym .classBody).reading (declarations.reading finish (bound + 1)) finish)
      ([Shape.mark "\x7b"] ++ ([] ++ [Shape.mark "\x7d"])) after (· = []) :=
    (Reads.word.seq ((Reads.none_ noMember.declines).seq Reads.word)).shaped fun _ both => both.2.1
  have absent {keyword : String} {shape : Shape} {others : List Shape} (other : shape.2 ≠ keyword) :
      Reads ((DeclRule.typeClause keyword).reading (declarations.reading finish (bound + 1)) finish) []
        (shape :: others) (· = []) :=
    Reads.noClause (Refused.word other)
  have implemented : Reads ((DeclRule.typeClause "implements").reading
      (declarations.reading finish (bound + 1)) finish)
      (clauseShapes (Shape.word "implements") (Shape.mark ",") TypeRef.shapes [type arg])
      (([] ++ ([Shape.mark "\x7b"] ++ ([] ++ [Shape.mark "\x7d"]))) ++ after)
      (List.Forall₂ (fun type value => value = type.canonical 0) [type arg]) := by
    refine Reads.clause EndsFully ?_ (fun _ => .mark (by decide) (by decide))
      (.mark (by decide) (by decide)) (NotAhead.refused_word ⟨_, _, rfl, by decide⟩)
      (NotAhead.refused_behind ⟨_, _, rfl, by decide⟩) maxIterations_pos
    intro other member following ends
    obtain rfl := List.mem_singleton.mp member
    refine Reads.call (((worded_type worded).reads.whole ends.1 (by omega) (brief_type brief)).imp ?_)
    exact fun _ same => same.eq ends.2
  have noComponents : Reads ((Rule.opt (DeclRule.sym .parameterList)).reading
      (declarations.reading finish (bound + 1)) finish) []
      (([] ++ (clauseShapes (Shape.word "implements") (Shape.mark ",") TypeRef.shapes [type arg] ++
        ([] ++ ([Shape.mark "\x7b"] ++ ([] ++ [Shape.mark "\x7d"]))))) ++ after) (· = none) :=
    Reads.missing (Refused.word (by decide)).seq.shaped.declines
  have kind : Reads ((Rule.pick TypeKind.all TypeKind.keyword : DeclRule TypeKind).reading
      (declarations.reading finish (bound + 1)) finish) [Shape.word "class"]
      (([Shape.word "T"] ++ ([] ++ ([] ++ ([] ++ (clauseShapes (Shape.word "implements")
        (Shape.mark ",") TypeRef.shapes [type arg] ++
        ([] ++ ([Shape.mark "\x7b"] ++ ([] ++ [Shape.mark "\x7d"])))))))) ++ after) (· = .classKind) :=
    Reads.pick (by decide)
  have split : shapes arg = [Shape.word "class"] ++ ([Shape.word "T"] ++ ([] ++ ([] ++ ([] ++
      (clauseShapes (Shape.word "implements") (Shape.mark ",") TypeRef.shapes [type arg] ++
        ([] ++ ([Shape.mark "\x7b"] ++ ([] ++ [Shape.mark "\x7d"])))))))) := by
    simp [shapes, clauseShapes, separatedShapes]
  rw [split]
  refine (kind.seq (Reads.token.seq ((Reads.noBrackets (Refused.word (by decide))).seq
    (noComponents.seq ((absent (by decide)).seq (implemented.seq ((absent (by decide)).seq
      body))))))).shaped ?_
  rintro ⟨_, _, _, _, _, types, _, _⟩ ⟨rfl, rfl, rfl, rfl, rfl, same, rfl, rfl⟩
  obtain rfl : types = [type (arg.canonical 0)] := eq_map_of_forall₂ same
  rfl

/-- **The tokens of the text are read as the class**, with the argument in canonical form. -/
theorem reads_decorates (worded : arg.Worded) (brief : (arg.canonical 0).Brief)
    (enough : 3 * (shapes arg).length + 3 ≤ bound) :
    Reads (declarations.reading finish bound .compilationUnit) (shapes arg) []
      fun u => ∃ pos, u = unit pos (arg.canonical 0) := by
  obtain ⟨bound, rfl⟩ : ∃ less, bound = less + 3 := ⟨bound - 3, by omega⟩
  have notHere {s : Symbol} (depth : Nat)
      (refuses : declarations.refuses (.exactly (Shape.word "class")) depth s = true) (less : Nat)
      (following : List Shape) :
      Refused (declarations.reading finish less s) (shapes arg ++ following) := by
    obtain ⟨others, front⟩ : ∃ others, shapes arg = Shape.word "class" :: others := ⟨_, rfl⟩
    rw [front]
    exact symbol_refused Glimpse.fits_exactly depth refuses
  have each : ∀ item ∈ [()], ∀ following, True → Reads (DeclRule.topLevel.reading
      (declarations.reading finish (bound + 2)) finish) (shapes arg) following
      fun item => ∃ pos, [item] = (unit pos (arg.canonical 0)).items := by
    intro _ _ following _
    have noModifiers : Reads ((Rule.many (DeclRule.sym .modifier)).reading
        (declarations.reading finish (bound + 1)) finish) [] (shapes arg ++ following) (· = []) :=
      Reads.none_ (notHere 2 (by decide) _ _).call.declines
    have decl : Reads ((DeclRule.sym .typeDecl).reading (declarations.reading finish (bound + 2))
        finish) ([] ++ shapes arg) following
        fun decl => ∃ pos, [TopLevel.type decl] = (unit pos (arg.canonical 0)).items := by
      refine (noModifiers.seq (reads_spec worded brief (by omega)).call).located.shaped ?_
      rintro ⟨pos, _, _⟩ ⟨rfl, rfl⟩
      exact ⟨pos, rfl⟩
    refine (decl.here false).choice.shaped ?_
    rintro _ ⟨decl, rfl, isDecl⟩
    exact isDecl
  have items := Reads.many (fun _ => True) (fun _ item => ∃ pos, [item] =
    (unit pos (arg.canonical 0)).items) [()] each (fun _ _ _ => trivial) trivial declines_topLevel_nil
    (by decide)
  rw [List.flatMap_singleton] at items
  have noImports : Reads ((Rule.many (DeclRule.sym .importDecl)).reading
      (declarations.reading finish (bound + 2)) finish) [] (shapes arg ++ []) (· = []) :=
    Reads.none_ (notHere 1 (by decide) _ _).call.declines
  have noPackage : Reads ((Rule.opt (DeclRule.sym .packageDecl)).reading
      (declarations.reading finish (bound + 2)) finish) [] (([] ++ shapes arg) ++ []) (· = none) :=
    Reads.missing (notHere 1 (by decide) _ _).call.declines
  refine (noPackage.seq (noImports.seq items)).shaped ?_
  rintro ⟨_, _, _⟩ ⟨rfl, rfl, all⟩
  cases all with
  | cons one none_ =>
    cases none_
    obtain ⟨pos, same⟩ := one
    exact ⟨pos, congrArg (CompilationUnit.mk none []) same⟩

end Reading

/-- The text is accepted, and declares the class. -/
theorem parse_text (worded : arg.Worded) (brief : (arg.canonical 0).Brief) :
    ∃ pos, parse (text arg) = .ok (unit pos (arg.canonical 0)) := by
  obtain ⟨tokens, finish, lexed, shapes_⟩ := (spelt_text worded).lex
  have enough : 3 * (shapes arg).length + 3 ≤ nesting tokens.length := by
    rw [← shapes_, List.length_map, nesting]
    omega
  obtain ⟨u, ⟨pos, rfl⟩, matched⟩ := reads_decorates worded brief enough tokens [] shapes_ rfl
  rw [List.append_nil] at matched
  have read := (declarations.read_eq_ok_iff .compilationUnit tokens finish _).mpr matched
  refine ⟨pos, ?_⟩
  rw [parse, lexed]
  simp only [read]

/-- A tidy reference is written as the bare one is, settled or not. -/
theorem TypeRef.Tidy.render_bare {type : TypeRef} (tidy : type.Tidy) :
    type.bare.settled.render = type.render := by
  rw [← tidy.canonical_zero, type.render_canonical, show brackets 0 = "" from rfl, String.append_empty]

theorem unit_injective {first second : Position} {one two : TypeRef}
    (same : unit first one = unit second two) : one = two := by
  have types : [type one] = [type two] :=
    congrArg (fun u => u.types.flatMap fun decl => decl.spec.supertypes) same
  have args : [one] = [two] := congrArg (fun types => types.flatMap TypeRef.typeArguments) types
  exact List.singleton_inj.mp args

theorem mem_typeRefs_unit (pos : Position) (arg : TypeRef) : arg ∈ (unit pos arg).typeRefs := by
  have types : (unit pos arg).types.flatMap (fun decl => decl.spec.types) = [type arg] := rfl
  have inner : arg ∈ (type arg).parts :=
    (forall_mem_parts_named.mp fun _ isPart => isPart).2 (.applied "Decorator" [arg]) List.mem_cons_self arg
      (List.mem_singleton_self arg) arg arg.self_mem_parts
  rw [CompilationUnit.typeRefs, types, List.flatMap_singleton]
  exact inner

/-- **Canonical texts read back.** For every reference anywhere in a file that is read, the declaration
of a class that implements a type with that argument is accepted; it has the one argument, which is the
reference without annotations and with a wildcard without a bound in place of an unfinished one. So it is the
reference without annotations exactly if nothing in it is unfinished, and two references of two such files
are written alike exactly if they differ in annotations and in keywords of unfinished wildcards alone. -/
theorem parse_decorates {source : String} {u : CompilationUnit} (parsed : parse source = .ok u)
    {ref : TypeRef} (member : ref ∈ u.typeRefs) :
    (∃ pos, parse (text ref) = .ok (unit pos ref.bare.settled)) ∧
      (ref.bare.settled = ref.bare ↔ ∀ part ∈ ref.parts, part.isUnfinished = false) ∧
      ∀ {otherSource : String} {v : CompilationUnit} {other : TypeRef},
        parse otherSource = .ok v → other ∈ v.typeRefs →
        (other.render = ref.render ↔ other.bare.settled = ref.bare.settled) := by
  have readBack {source : String} {u : CompilationUnit} {ref : TypeRef} (parsed : parse source = .ok u)
      (member : ref ∈ u.typeRefs) : ∃ pos, parse (text ref) = .ok (unit pos ref.bare.settled) := by
    have tidy := tidy_of_parse parsed ref member
    rw [← tidy.canonical_zero]
    exact parse_text tidy.worded tidy.brief_canonical
  obtain ⟨pos, read⟩ := readBack parsed member
  refine ⟨⟨pos, read⟩, ref.bare_settled_eq_iff, fun {_ _ other} parsedOther memberOther =>
    ⟨fun same => ?_, fun same => ?_⟩⟩
  · obtain ⟨otherPos, readOther⟩ := readBack parsedOther memberOther
    have sameText : text other = text ref := congrArg
      (fun arg => "class T implements Decorator<" ++ arg ++ "> \x7b\x7d") same
    rw [sameText, read] at readOther
    exact (unit_injective (Except.ok.inj readOther)).symm
  · rw [← (tidy_of_parse parsed ref member).render_bare, ← same,
      (tidy_of_parse parsedOther other memberOther).render_bare]

/-- A reference with annotations inside, and the same one without them in another file. -/
theorem parse_decorates_annotated :
    ∃ u v ref other, parse "class A \x7b Map<@C(1) ? super @D E[], F.G<?>> f; \x7d" = .ok u ∧
      ref ∈ u.typeRefs ∧ parse "interface B extends H<Map<? super E[], F.G<?>>> \x7b\x7d" = .ok v ∧
      other ∈ v.typeRefs ∧ ref.render = "Map<? super E[], F.G<?>>" ∧
      other.bare.settled = ref.bare.settled ∧ ∃ pos, parse (text ref) = .ok (unit pos ref.bare) := by
  obtain ⟨u, parsed, ref, member, written, finished⟩ :
      ∃ u, parse "class A \x7b Map<@C(1) ? super @D E[], F.G<?>> f; \x7d" = .ok u ∧
        ∃ ref ∈ u.typeRefs, ref.render = "Map<? super E[], F.G<?>>" ∧
          ∀ part ∈ ref.parts, part.isUnfinished = false :=
    exists_parse rfl (by decide +kernel)
  obtain ⟨v, parsedOther, other, memberOther, writtenOther⟩ :
      ∃ v, parse "interface B extends H<Map<? super E[], F.G<?>>> \x7b\x7d" = .ok v ∧
        ∃ ref ∈ v.typeRefs, ref.render = "Map<? super E[], F.G<?>>" :=
    exists_parse rfl (by decide +kernel)
  obtain ⟨readBack, exact_, alike⟩ := parse_decorates parsed member
  rw [exact_.mpr finished] at readBack
  exact ⟨u, v, ref, other, parsed, member, parsedOther, memberOther, written,
    (alike parsedOther memberOther).mp (writtenOther.trans written.symm), readBack⟩

theorem TypeRef.isUnfinished_bare (type : TypeRef) : type.bare.isUnfinished = type.isUnfinished := by
  cases type <;> rfl

/-- The type of the first field is unfinished, and its text declares the type of the second one. -/
theorem unfinished_not_told :
    ∃ u ref other, parse "class A \x7b ? extends; ? f; \x7d" = .ok u ∧ ref ∈ u.typeRefs ∧
      other ∈ u.typeRefs ∧ other.render = ref.render ∧ other.bare ≠ ref.bare ∧
      ∀ pos, parse (text ref) ≠ .ok (unit pos ref.bare) := by
  obtain ⟨u, parsed, ref, member, unfinished, written, other, memberOther, finished, writtenOther⟩ :
      ∃ u, parse "class A \x7b ? extends; ? f; \x7d" = .ok u ∧
        ∃ ref ∈ u.typeRefs, ref.isUnfinished = true ∧ ref.render = "?" ∧
          ∃ other ∈ u.typeRefs, other.isUnfinished = false ∧ other.render = "?" :=
    exists_parse rfl (by decide +kernel)
  obtain ⟨v, parsedText, allFinished⟩ : ∃ v, parse "class T implements Decorator<?> \x7b\x7d" = .ok v ∧
      ∀ part ∈ v.typeRefs, part.isUnfinished = false :=
    exists_parse rfl (by decide +kernel)
  refine ⟨u, ref, other, parsed, member, memberOther, writtenOther.trans written.symm, fun same => ?_,
    fun pos readBack => ?_⟩
  · have told := other.isUnfinished_bare
    rw [same, ref.isUnfinished_bare, unfinished, finished] at told
    cases told
  · have isText : text ref = "class T implements Decorator<?> \x7b\x7d" :=
      (congrArg (fun arg => "class T implements Decorator<" ++ arg ++ "> \x7b\x7d") written).trans
        (by decide)
    rw [isText] at readBack
    obtain rfl := Except.ok.inj (parsedText.symm.trans readBack)
    have told := allFinished _ (mem_typeRefs_unit pos ref.bare)
    rw [ref.isUnfinished_bare, unfinished] at told
    cases told

end Forwarder.Source
