/-
**What unfinished wildcards leave over.** The keyword of an unfinished wildcard was read once more behind
it, so a file that is written with these keywords has one token too many for each such wildcard, and no
other token.

* `unfinishedIn` — how many wildcards in these types, and in the types inside them, are unfinished.
* `Leftover` — of two lists of texts the longer one has as many more as there are unfinished wildcards.
* `TypeRef.leftover`, `Member.leftover`, … — so it is with each construct, written without the keywords
  and with them.
* **`CompilationUnit.leftover`** — and with a file.
-/

import Forwarder.Proofs.Source.Occurrences
import Forwarder.Proofs.Source.Written

namespace Forwarder.Source

open Grammar

/-! ### Counting -/

/-- How many wildcards in the types are unfinished, at any depth. -/
def unfinishedIn (types : List TypeRef) : Nat :=
  (types.flatMap TypeRef.parts).countP TypeRef.isUnfinished

theorem unfinishedIn_append (first second : List TypeRef) :
    unfinishedIn (first ++ second) = unfinishedIn first + unfinishedIn second := by
  rw [unfinishedIn, List.flatMap_append, List.countP_append, unfinishedIn, unfinishedIn]

theorem unfinishedIn_bounded (annotations : List AnnotationUse) (bound : Bound) (type : TypeRef)
    (dims : Nat) : unfinishedIn [.bounded annotations bound type dims] = unfinishedIn [type] := by
  simp only [unfinishedIn, List.flatMap_singleton, TypeRef.parts]
  exact List.countP_cons_of_neg (by simp only [TypeRef.isUnfinished, Bool.false_eq_true, not_false_eq_true])

theorem unfinishedIn_named (annotations : List AnnotationUse) (first : TypeSegment)
    (others : List TypeSegment) (dims : Nat) :
    unfinishedIn [.named annotations first others dims] =
      unfinishedIn (first.args ++ others.flatMap TypeSegment.args) := by
  have parts : TypeSegment.parts = fun segment => segment.args.flatMap TypeRef.parts :=
    funext TypeSegment.parts_eq
  simp only [unfinishedIn, List.flatMap_singleton, TypeRef.parts, List.flatMap_append,
    List.flatMap_assoc, moreParts_eq, parts]
  exact List.countP_cons_of_neg (by simp only [TypeRef.isUnfinished, Bool.false_eq_true, not_false_eq_true])

/-- Of two lists of texts, the second one is the first with as many texts more as wildcards in the types
are unfinished. -/
structure Leftover (types : List TypeRef) (less all : List String) : Prop where
  sublist : less.Sublist all
  length : all.length = less.length + unfinishedIn types

namespace Leftover

variable {types others : List TypeRef} {less all lessToo allToo : List String}

/-- Where nothing is left over, the texts are the same. -/
theorem eq_iff (leftover : Leftover types less all) :
    all = less ↔ ∀ part ∈ types.flatMap TypeRef.parts, part.isUnfinished = false := by
  have none_ : unfinishedIn types = 0 ↔ ∀ part ∈ types.flatMap TypeRef.parts, part.isUnfinished = false := by
    simp only [unfinishedIn, List.countP_eq_zero, Bool.not_eq_true]
  rw [← none_]
  constructor
  · intro same
    have length := leftover.length
    rw [same] at length
    omega
  · intro none_
    have length := leftover.length
    rw [none_, Nat.add_zero] at length
    exact (leftover.sublist.eq_of_length length.symm).symm

theorem of_eq (leftover : Leftover types less all) (same : unfinishedIn others = unfinishedIn types) :
    Leftover others less all :=
  ⟨leftover.sublist, same ▸ leftover.length⟩

/-- Texts without types. -/
theorem texts (texts : List String) : Leftover [] texts texts :=
  ⟨.refl texts, rfl⟩

theorem append (first : Leftover types less all) (second : Leftover others lessToo allToo) :
    Leftover (types ++ others) (less ++ lessToo) (all ++ allToo) := by
  refine ⟨first.sublist.append second.sublist, ?_⟩
  rw [List.length_append, List.length_append, first.length, second.length, unfinishedIn_append]
  omega

theorem behind (front : List String) (leftover : Leftover types less all) :
    Leftover types (front ++ less) (front ++ all) :=
  (texts front).append leftover

theorem cons (text : String) (leftover : Leftover types less all) :
    Leftover types (text :: less) (text :: all) :=
  leftover.behind [text]

theorem before (leftover : Leftover types less all) (back : List String) :
    Leftover types (less ++ back) (all ++ back) := by
  simpa only [List.append_nil] using leftover.append (texts back)

section Lists

variable {α : Type} {inner : α → List TypeRef} {short long : α → List String} {values : List α}

theorem flatMap (each : ∀ value ∈ values, Leftover (inner value) (short value) (long value)) :
    Leftover (values.flatMap inner) (values.flatMap short) (values.flatMap long) := by
  induction values with
  | nil => exact texts []
  | cons value values ih =>
    obtain ⟨first, rest⟩ := List.forall_mem_cons.mp each
    exact first.append (ih rest)

theorem marked (mark : String)
    (each : ∀ value ∈ values, Leftover (inner value) (short value) (long value)) :
    Leftover (values.flatMap inner) (markedTexts mark short values) (markedTexts mark long values) :=
  flatMap fun value member => (each value member).cons mark

theorem separated (mark : String)
    (each : ∀ value ∈ values, Leftover (inner value) (short value) (long value)) :
    Leftover (values.flatMap inner) (separatedTexts mark short values)
      (separatedTexts mark long values) := by
  cases values with
  | nil => exact texts []
  | cons value values =>
    obtain ⟨first, rest⟩ := List.forall_mem_cons.mp each
    exact first.append (marked mark rest)

theorem enclosed (opening closing : String)
    (each : ∀ value ∈ values, Leftover (inner value) (short value) (long value)) :
    Leftover (values.flatMap inner) (enclosedTexts opening closing short values)
      (enclosedTexts opening closing long values) :=
  ((separated "," each).cons opening).before [closing]

theorem bracketed (opening closing : String)
    (each : ∀ value ∈ values, Leftover (inner value) (short value) (long value)) :
    Leftover (values.flatMap inner) (bracketedTexts opening closing short values)
      (bracketedTexts opening closing long values) := by
  cases values with
  | nil => exact texts []
  | cons value values => exact enclosed opening closing each

theorem clause (keyword mark : String)
    (each : ∀ value ∈ values, Leftover (inner value) (short value) (long value)) :
    Leftover (values.flatMap inner) (clauseTexts keyword mark short values)
      (clauseTexts keyword mark long values) := by
  cases values with
  | nil => exact texts []
  | cons value values => exact (separated mark each).cons keyword

end Lists

end Leftover

/-! ### Types -/

/-- A reference, written without the keywords of unfinished wildcards and with them. -/
theorem TypeRef.leftover (type : TypeRef) : Leftover [type] (type.tokens false) (type.tokens true) := by
  refine TypeRef.holds (P := fun type => Leftover [type] (type.tokens false) (type.tokens true))
    (Q := fun segment => Leftover segment.args (segment.tokens false) (segment.tokens true))
    ?_ ?_ ?_ ?_ ?_ ?_ type
  · exact fun _ _ => (Leftover.texts _).of_eq rfl
  · intro annotations bound dims
    have keyword : Leftover [.unfinished annotations bound dims] [] [bound.keyword] :=
      ⟨List.nil_sublist _, rfl⟩
    exact ((keyword.cons "?").behind _).before _
  · intro annotations bound type dims ih
    rw [TypeRef.tokens, TypeRef.tokens]
    exact ((ih.behind _).before _).of_eq (unfinishedIn_bounded annotations bound type dims)
  · intro annotations first others dims ihFirst ihOthers
    rw [TypeRef.tokens, TypeRef.tokens, moreTokens_eq, moreTokens_eq]
    exact (((ihFirst.behind _).append (.marked "." ihOthers)).before _).of_eq
      (unfinishedIn_named annotations first others dims)
  · exact fun name => .texts [name]
  · intro name args ih
    have each := Leftover.separated "," ih
    rw [List.flatMap_singleton'] at each
    rw [TypeSegment.tokens, TypeSegment.tokens, argTokens_eq, argTokens_eq]
    exact ((each.before [">"]).cons "<").cons name

/-- References that stand for themselves. -/
theorem Leftover.types {types : List TypeRef} {short long : List String}
    (leftover : Leftover (types.flatMap fun type => [type]) short long) : Leftover types short long := by
  rwa [List.flatMap_singleton'] at leftover

theorem leftover_clause (keyword mark : String) (types : List TypeRef) :
    Leftover types (clauseTexts keyword mark (TypeRef.tokens false) types)
      (clauseTexts keyword mark (TypeRef.tokens true) types) :=
  (Leftover.clause keyword mark fun type _ => type.leftover).types

theorem TypeParam.leftover (p : TypeParam) : Leftover p.bounds (p.tokens false) (p.tokens true) :=
  ((leftover_clause "extends" "&" p.bounds).cons p.name).behind _

theorem leftover_typeParams (params : List TypeParam) :
    Leftover (params.flatMap TypeParam.bounds) (typeParamTokens false params)
      (typeParamTokens true params) :=
  .bracketed "<" ">" fun p _ => p.leftover

/-! ### Members -/

theorem FormalParameter.leftover (p : FormalParameter) :
    Leftover [p.type] (p.tokens false) (p.tokens true) :=
  ((p.type.leftover.behind _).before _).before _

theorem leftover_params (params : List FormalParameter) :
    Leftover (params.map FormalParameter.type) (paramTokens false params) (paramTokens true params) := by
  rw [← List.flatMap_pure_eq_map]
  exact .enclosed "(" ")" fun p _ => p.leftover

theorem leftover_components (params : Option (List FormalParameter)) :
    Leftover (componentTypes params) (params.elim [] (paramTokens false))
      (params.elim [] (paramTokens true)) := by
  cases params with
  | none => exact .texts []
  | some params => exact leftover_params params

theorem MethodDecl.leftover (m : MethodDecl) : Leftover m.types (m.tokens false) (m.tokens true) := by
  have head := ((leftover_typeParams m.typeParams).append m.returns.leftover).append
    ((leftover_params m.params).cons m.name)
  exact (((head.before _).append (leftover_clause "throws" "," m.throws)).before _).before _

theorem ConstructorDecl.leftover (c : ConstructorDecl) :
    Leftover c.types (c.tokens false) (c.tokens true) := by
  have head := (leftover_typeParams c.typeParams).append ((leftover_components c.params).cons c.name)
  exact (head.append (leftover_clause "throws" "," c.throws)).before _

theorem FieldDecl.leftover (f : FieldDecl) : Leftover [f.type] (f.tokens false) (f.tokens true) :=
  (f.type.leftover.before _).before _

theorem TypeHeader.leftover (h : TypeHeader) : Leftover h.types (h.tokens false) (h.tokens true) := by
  have head := ((leftover_typeParams h.typeParams).behind [h.kind.keyword, h.name]).append
    (leftover_components h.components)
  have clauses := ((head.append (leftover_clause "extends" "," h.extended)).append
    (leftover_clause "implements" "," h.implemented)).append (leftover_clause "permits" "," h.permitted)
  refine Eq.subst (motive := fun types => Leftover types _ _) ?_ clauses
  simp only [TypeHeader.types, List.append_assoc]

mutual

/-- A member. -/
theorem Member.leftover : ∀ m : Member, Leftover m.types (m.tokens false) (m.tokens true)
  | .empty _ => .texts [";"]
  | .declared _ _ decl => decl.leftover.behind _

/-- What a member declares. -/
theorem MemberDecl.leftover : ∀ decl : MemberDecl,
    Leftover decl.types (decl.tokens false) (decl.tokens true)
  | .initializer body => .texts (braceTokens body)
  | .type header members =>
    (header.leftover.append ((leftover_members members).cons "\x7b")).before _
  | .method m => m.leftover
  | .constructor c => c.leftover
  | .field f => f.leftover
  | .enumConstant _ _ body _ => ((leftover_body body).behind _).before _

/-- Members one after the other. -/
theorem leftover_members : ∀ members : List Member,
    Leftover (membersTypes members) (membersTokens false members) (membersTokens true members)
  | [] => .texts []
  | member :: others => member.leftover.append (leftover_members others)

/-- A body that may be missing. -/
theorem leftover_body : ∀ body : Option (List Member),
    Leftover (bodyTypes body) (bodyTokens false body) (bodyTokens true body)
  | none => .texts []
  | some members => ((leftover_members members).before _).cons "\x7b"

end

/-! ### Files -/

theorem TypeDecl.leftover (decl : TypeDecl) :
    Leftover decl.spec.types (decl.tokens false) (decl.tokens true) :=
  ((decl.spec.header.leftover.append ((leftover_members decl.spec.members).cons "\x7b")).before _).behind _

/-- **A file has one token too many for each unfinished wildcard.** -/
theorem CompilationUnit.leftover (u : CompilationUnit) :
    Leftover (u.types.flatMap fun decl => decl.spec.types) (u.tokens false) (u.tokens true) :=
  (Leftover.flatMap fun decl _ => decl.leftover).behind _

end Forwarder.Source
