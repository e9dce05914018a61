/-
**Which texts are declarations.** The conditions on a source file, stated apart from the steps that check
them, and the outcome of reading for every text: the declaration if the file keeps all conditions, and
otherwise the reason that belongs to the first one that it breaks.

The decorated type has the name of the first import that ends in the simple name of the type argument. In the
language this is the named type only if that import is a single-type one, or contributes just the qualified name
that is written.

* `IsFirst` — the first item of a list with a property.
* `Source.CompilationUnit.Heads`, `Decorates`, `Wraps`, `Resolves` — the parts of a file that count.
* `Rejection.Breaks`, `Rejection.IsDue` — a file breaks the condition behind a rejection, and no earlier
  one.
* `extract_cases` — what is extracted from a file.
* **`read_exact`** — what is read from a text.
* `ImportDecl.IsSingle` — the imports that name one type.
* `CompilationUnit.Names` — what the language makes of the type argument.
* **`decorated_first_import`** — the name of the decorated type, and when it is the name of that type.
* **`decorated_displaced`** — a qualifier, a static import and an on-demand import that lead to another
  type.
-/

import Forwarder.Proofs.Computed
import Forwarder.Proofs.Decoration.Texts
import Forwarder.Proofs.Forwarding.Coverage

namespace Forwarder

/-! ### First items -/

section First

variable {α : Type} {holds : α → Prop} {items : List α} {item : α}

/-- The first item with the property. -/
def IsFirst (holds : α → Prop) (items : List α) (item : α) : Prop :=
  holds item ∧ ∃ before after, items = before ++ item :: after ∧ ∀ other ∈ before, ¬holds other

theorem find?_eq_some_iff_isFirst {test : α → Bool} (decides : ∀ item, test item = true ↔ holds item) :
    items.find? test = some item ↔ IsFirst holds items item := by
  rw [List.find?_eq_some_iff_append, IsFirst, decides]
  simp only [Bool.not_eq_true', ← Bool.not_eq_true, decides]

theorem find?_eq_none_iff {test : α → Bool} (decides : ∀ item, test item = true ↔ holds item) :
    items.find? test = none ↔ ∀ item ∈ items, ¬holds item := by
  simp only [List.find?_eq_none, decides]

theorem IsFirst.mem (first : IsFirst holds items item) : item ∈ items := by
  obtain ⟨-, before, after, rfl, -⟩ := first
  exact List.mem_append_right before List.mem_cons_self

/-- The first image is the image of the first item. -/
theorem IsFirst.of_map {β : Type} {f : α → β} {holds : β → Prop} {value : β}
    (first : IsFirst holds (items.map f) value) :
    ∃ item, IsFirst (fun item => holds (f item)) items item ∧ f item = value := by
  obtain ⟨here, _, _, split, none⟩ := first
  obtain ⟨before, rest, rfl, rfl, same⟩ := List.map_eq_append_iff.mp split
  obtain ⟨item, after, rfl, rfl, -⟩ := List.map_eq_cons_iff.mp same
  exact ⟨item, ⟨here, before, after, rfl, fun other member => none _ (List.mem_map_of_mem member)⟩, rfl⟩

end First

/-- Repetitions do not matter for the first name with a property. -/
theorem find?_firstOccurrences (test : String → Bool) (names : List String) :
    (Source.firstOccurrences names).find? test = names.find? test := by
  induction names with
  | nil => rfl
  | cons name names ih =>
    rw [Source.firstOccurrences, List.find?_cons, List.find?_cons, ← ih]
    cases found : test name with
    | true => rfl
    | false =>
      have ignored : (fun other => decide ((other != name) = true ∧ test other = true)) = test := by
        funext other
        by_cases same : other = name
        · simp [same, found]
        · simp [same]
      simp only [List.find?_filter, ignored]

/-! ### Parts of a file -/

namespace Source

/-- A class or interface type: a name with no dimensions behind it. The names of the primitive types are
keywords, so a name that begins with one of them does not name such a type. -/
def TypeRef.NamesType (type : TypeRef) : Prop :=
  ∃ annotations first others, type = .named annotations first others 0 ∧ first.name ∉ primitiveNames

theorem TypeRef.isNamed_iff {type : TypeRef} : type.isNamed = true ↔ type.NamesType := by
  rw [TypeRef.isNamed, TypeRef.NamesType]
  cases type with
  | wildcard annotations dims => simp [TypeRef.segments]
  | unfinished annotations bound dims => simp [TypeRef.segments]
  | bounded annotations bound type dims => simp [TypeRef.segments]
  | named annotations first others dims =>
    simp [TypeRef.segments, TypeRef.isArray, TypeRef.dims, isPrimitive, Nat.pos_iff_ne_zero]

/-- The name ends in a point and the simple name. -/
def EndsInName (simpleName name : String) : Prop :=
  ∃ front, name = front ++ "." ++ simpleName

theorem endsIn_iff {simpleName name : String} :
    Text.endsIn name ("." ++ simpleName) = true ↔ EndsInName simpleName name := by
  rw [Text.endsIn, List.isSuffixOf_iff_suffix]
  constructor
  · rintro ⟨front, same⟩
    exact ⟨String.ofList front, String.toList_inj.mp (by simp [← same])⟩
  · rintro ⟨front, rfl⟩
    exact ⟨front.toList, by simp⟩

namespace CompilationUnit

variable {u : CompilationUnit} {decl : TypeDecl} {ref target : TypeRef} {name : String}

/-- The declaration is a class or an interface. -/
def IsHead (decl : TypeDecl) : Prop :=
  decl.spec.header.kind = .classKind ∨ decl.spec.header.kind = .interfaceKind

/-- The first class or interface at the top of the file. -/
def Heads (u : CompilationUnit) (decl : TypeDecl) : Prop :=
  IsFirst IsHead u.types decl

/-- The first type with the simple name `Decorator` that this class or interface implements. -/
def Decorates (u : CompilationUnit) (ref : TypeRef) : Prop :=
  ∃ decl, u.Heads decl ∧
    IsFirst (fun ref => ref.simpleName = "Decorator") decl.spec.header.implemented ref

/-- The first type argument of this `Decorator`, if it is a class or interface type. -/
def Wraps (u : CompilationUnit) (target : TypeRef) : Prop :=
  ∃ ref others, u.Decorates ref ∧ ref.typeArguments = target :: others ∧ target.NamesType

/-- The first imported name, in the order of the file, that ends in a point and the simple name of this
argument. Here a static import has the full name of a member, and an on-demand import the name of a
package. -/
def Resolves (u : CompilationUnit) (name : String) : Prop :=
  ∃ target, u.Wraps target ∧ IsFirst (EndsInName target.simpleName) (u.imports.map (·.target)) name

theorem topLevelClass?_eq_some : u.topLevelClass? = some decl ↔ u.Heads decl :=
  find?_eq_some_iff_isFirst fun decl => by simp [IsHead]

theorem topLevelClass?_eq_none : u.topLevelClass? = none ↔ ∀ decl ∈ u.types, ¬IsHead decl :=
  find?_eq_none_iff fun decl => by simp [IsHead]

theorem capability?_eq_some (heads : u.Heads decl) :
    Decoration.capability? decl.spec = some ref ↔ u.Decorates ref := by
  rw [Decoration.capability?, find?_eq_some_iff_isFirst (fun ref => beq_iff_eq)]
  constructor
  · exact fun first => ⟨decl, heads, first⟩
  · rintro ⟨other, heads', first⟩
    obtain rfl : other = decl := Option.some.inj
      ((topLevelClass?_eq_some.mpr heads').symm.trans (topLevelClass?_eq_some.mpr heads))
    exact first

/-- What is decorated is found step by step. -/
theorem Decorates.unique {other : TypeRef} (decorates : u.Decorates ref) (again : u.Decorates other) :
    ref = other := by
  obtain ⟨decl, heads, _⟩ := id decorates
  exact Option.some.inj
    (((capability?_eq_some heads).mpr decorates).symm.trans ((capability?_eq_some heads).mpr again))

theorem target?_eq_some (decorates : u.Decorates ref) :
    Decoration.target? ref = some target ↔ u.Wraps target := by
  constructor
  · intro found
    rw [Decoration.target?] at found
    split at found
    · cases found
    · next type others arguments =>
      split at found
      · next named =>
        cases found
        exact ⟨ref, others, decorates, arguments, TypeRef.isNamed_iff.mp named⟩
      · cases found
  · rintro ⟨again, others, decorates', arguments, named⟩
    obtain rfl := decorates.unique decorates'
    rw [Decoration.target?, arguments]
    exact if_pos (TypeRef.isNamed_iff.mpr named)

theorem target?_eq_none :
    Decoration.target? ref = none ↔
      ∀ target others, ref.typeArguments = target :: others → ¬target.NamesType := by
  rw [Decoration.target?]
  cases arguments : ref.typeArguments with
  | nil => simp
  | cons type others => simp [← TypeRef.isNamed_iff]

theorem Wraps.unique {other : TypeRef} (wraps : u.Wraps target) (again : u.Wraps other) :
    target = other := by
  obtain ⟨ref, _, decorates, _, _⟩ := id wraps
  exact Option.some.inj
    (((target?_eq_some decorates).mpr wraps).symm.trans ((target?_eq_some decorates).mpr again))

theorem importOf?_eq_some (wraps : u.Wraps target) :
    Decoration.importOf? u.importNames target.simpleName = some name ↔ u.Resolves name := by
  rw [Decoration.importOf?, importNames, find?_firstOccurrences,
    find?_eq_some_iff_isFirst (fun name => endsIn_iff)]
  constructor
  · exact fun first => ⟨target, wraps, first⟩
  · rintro ⟨other, wraps', first⟩
    obtain rfl := wraps.unique wraps'
    exact first

theorem importOf?_eq_none {simpleName : String} :
    Decoration.importOf? u.importNames simpleName = none ↔
      ∀ i ∈ u.imports, ¬EndsInName simpleName i.target := by
  rw [Decoration.importOf?, importNames, find?_firstOccurrences,
    find?_eq_none_iff (fun name => endsIn_iff)]
  exact List.forall_mem_map

/-- The first type argument, computed. -/
def wrapped? (u : CompilationUnit) : Option TypeRef :=
  (u.topLevelClass?.bind fun decl => Decoration.capability? decl.spec).bind Decoration.target?

theorem wraps_of_wrapped? (found : u.wrapped? = some target) : u.Wraps target := by
  rw [wrapped?, Option.bind_eq_some_iff] at found
  obtain ⟨ref, isCapability, isTarget⟩ := found
  obtain ⟨decl, isDecl, isCapability⟩ := Option.bind_eq_some_iff.mp isCapability
  have decorates := (capability?_eq_some (topLevelClass?_eq_some.mp isDecl)).mp isCapability
  exact (target?_eq_some decorates).mp isTarget

end CompilationUnit

end Source

open Source

/-! ### Conditions -/

namespace Rejection

variable {u : CompilationUnit} {decl : TypeDecl} {ref target : TypeRef} {r other : Rejection}

/-- The file breaks the condition behind the rejection. From the third condition on, a condition is about
something that the earlier ones ask for. -/
inductive Breaks (u : CompilationUnit) : Rejection → Prop
  | noTopLevelClass (none : ∀ decl ∈ u.types, ¬CompilationUnit.IsHead decl) :
    Breaks u .noTopLevelClass
  | noPackage (none : u.packageDecl = none) : Breaks u .noPackage
  | notDecorator {decl : TypeDecl} (heads : u.Heads decl)
      (none : ∀ ref ∈ decl.spec.header.implemented, ¬ref.simpleName = "Decorator") :
    Breaks u (.notDecorator decl.spec.header.name)
  | noTypeArguments {ref : TypeRef} (decorates : u.Decorates ref)
      (none : ∀ target others, ref.typeArguments = target :: others → ¬target.NamesType) :
    Breaks u .noTypeArguments
  | unresolvedType {target : TypeRef} (wraps : u.Wraps target)
      (none : ∀ i ∈ u.imports, ¬EndsInName target.simpleName i.target) :
    Breaks u (.unresolvedType target.simpleName)

/-- The place of a condition in the order of the conditions. -/
def rank : Rejection → Nat
  | noTopLevelClass => 0
  | noPackage => 1
  | notDecorator _ => 2
  | noTypeArguments => 3
  | unresolvedType _ => 4

/-- The file keeps as many of the first conditions. -/
def Keeps (u : CompilationUnit) (count : Nat) : Prop :=
  ∀ r : Rejection, r.Breaks u → count ≤ r.rank

/-- The condition behind the rejection is the first one that the file breaks. -/
def IsDue (u : CompilationUnit) (r : Rejection) : Prop :=
  r.Breaks u ∧ Keeps u r.rank

theorem breaks_noTopLevelClass : noTopLevelClass.Breaks u ↔ u.topLevelClass? = none := by
  rw [CompilationUnit.topLevelClass?_eq_none]
  constructor
  · rintro ⟨none⟩
    exact none
  · exact .noTopLevelClass

theorem breaks_noPackage : noPackage.Breaks u ↔ u.packageName = none := by
  rw [CompilationUnit.packageName, Option.map_eq_none_iff]
  constructor
  · rintro ⟨⟩
    assumption
  · exact .noPackage

theorem breaks_notDecorator {name : String} (heads : u.Heads decl) :
    (notDecorator name).Breaks u ↔
      name = decl.spec.header.name ∧ Decoration.capability? decl.spec = none := by
  rw [Decoration.capability?, find?_eq_none_iff (fun ref => beq_iff_eq)]
  constructor
  · intro breaks
    cases breaks with
    | notDecorator heads' none =>
      obtain rfl := Option.some.inj ((CompilationUnit.topLevelClass?_eq_some.mpr heads).symm.trans
        (CompilationUnit.topLevelClass?_eq_some.mpr heads'))
      exact ⟨rfl, none⟩
  · rintro ⟨rfl, none⟩
    exact .notDecorator heads none

theorem breaks_noTypeArguments (decorates : u.Decorates ref) :
    noTypeArguments.Breaks u ↔ Decoration.target? ref = none := by
  rw [CompilationUnit.target?_eq_none]
  constructor
  · intro breaks
    cases breaks with
    | noTypeArguments decorates' none => exact decorates.unique decorates' ▸ none
  · exact .noTypeArguments decorates

theorem breaks_unresolvedType {simpleName : String} (wraps : u.Wraps target) :
    (unresolvedType simpleName).Breaks u ↔ simpleName = target.simpleName ∧
      Decoration.importOf? u.importNames target.simpleName = none := by
  rw [CompilationUnit.importOf?_eq_none]
  constructor
  · intro breaks
    cases breaks with
    | unresolvedType wraps' none =>
      obtain rfl := wraps.unique wraps'
      exact ⟨rfl, none⟩
  · rintro ⟨rfl, none⟩
    exact .unresolvedType wraps none

theorem Keeps.succ {count : Nat} (keeps : Keeps u count)
    (next : ∀ r : Rejection, r.rank = count → ¬r.Breaks u) : Keeps u (count + 1) :=
  fun r breaks => Nat.lt_of_le_of_ne (keeps r breaks) fun same => next r same.symm breaks

/-- At most one rejection is due. -/
theorem IsDue.unique (due : r.IsDue u) (again : other.IsDue u) : r = other := by
  obtain ⟨breaks, first⟩ := due
  obtain ⟨breaks', first'⟩ := again
  have same : r.rank = other.rank := Nat.le_antisymm (first other breaks') (first' r breaks)
  cases breaks <;> cases breaks' <;> try first | rfl | cases same
  · next decl heads _ _ heads' none =>
    rw [((breaks_notDecorator heads).mp (.notDecorator heads' none)).1]
  · next target wraps _ _ wraps' none =>
    rw [((breaks_unresolvedType wraps).mp (.unresolvedType wraps' none)).1]

/-- A rejection is a validation error with its reason as the message. -/
theorem coded_failure (r : Rejection) : r.failure.code = .rejected ∧
    r.failure.coded?.map (·.message) = some r.reason := by
  cases r <;> exact ⟨rfl, rfl⟩

end Rejection

/-! ### Outcomes -/

namespace Decoration

open CompilationUnit

@[simp] theorem required_none {α : Type} (r : Rejection) :
    required (none : Option α) r = .failed r.failure :=
  rfl

@[simp] theorem required_some {α : Type} (value : α) (r : Rejection) :
    required (some value) r = .present value :=
  rfl

/-- **What is extracted from a file**: a declaration whose decorated type is the import that resolves it,
if the file keeps all conditions, and otherwise the rejection that is due. -/
theorem extract_cases (file : String) (u : CompilationUnit) :
    (∃ r : Rejection, r.IsDue u ∧ extract file u = .failed r.failure) ∨
      ∃ d, (∀ r : Rejection, ¬r.Breaks u) ∧ extract file u = .present d ∧ u.Resolves d.decorated := by
  rw [extract]
  have keeps : Rejection.Keeps u 0 := fun _ _ => Nat.zero_le _
  cases isDecl : u.topLevelClass? with
  | none => exact .inl ⟨.noTopLevelClass, ⟨Rejection.breaks_noTopLevelClass.mpr isDecl, keeps⟩, rfl⟩
  | some decl =>
  have heads := topLevelClass?_eq_some.mp isDecl
  have keeps := keeps.succ fun r same breaks => by
    cases r with
    | noTopLevelClass => simp [Rejection.breaks_noTopLevelClass, isDecl] at breaks
    | _ => cases same
  cases isPackage : u.packageName with
  | none => exact .inl ⟨.noPackage, ⟨Rejection.breaks_noPackage.mpr isPackage, keeps⟩, rfl⟩
  | some packageName =>
  have keeps := keeps.succ fun r same breaks => by
    cases r with
    | noPackage => simp [Rejection.breaks_noPackage, isPackage] at breaks
    | _ => cases same
  cases isCapability : capability? decl.spec with
  | none =>
    exact .inl ⟨.notDecorator decl.spec.header.name,
      ⟨(Rejection.breaks_notDecorator heads).mpr ⟨rfl, isCapability⟩, keeps⟩,
      by simp [isCapability, Attempt.bind]⟩
  | some ref =>
  have decorates := (capability?_eq_some heads).mp isCapability
  have keeps := keeps.succ fun r same breaks => by
    cases r with
    | notDecorator name => simp [Rejection.breaks_notDecorator heads, isCapability] at breaks
    | _ => cases same
  cases isTarget : target? ref with
  | none =>
    exact .inl ⟨.noTypeArguments, ⟨(Rejection.breaks_noTypeArguments decorates).mpr isTarget, keeps⟩,
      by simp [isCapability, isTarget, Attempt.bind]⟩
  | some target =>
  have wraps := (target?_eq_some decorates).mp isTarget
  have keeps := keeps.succ fun r same breaks => by
    cases r with
    | noTypeArguments => simp [Rejection.breaks_noTypeArguments decorates, isTarget] at breaks
    | _ => cases same
  cases isImport : importOf? u.importNames target.simpleName with
  | none =>
    exact .inl ⟨.unresolvedType target.simpleName,
      ⟨(Rejection.breaks_unresolvedType wraps).mpr ⟨rfl, isImport⟩, keeps⟩,
      by simp [isCapability, isTarget, isImport, Attempt.bind]⟩
  | some decorated =>
  refine .inr ⟨⟨decl.spec.header.name, packageName, decorated,
    decl.spec.header.typeParams.map (·.render), target.typeArguments.map (·.render), file⟩,
    fun r breaks => ?_, by simp [isCapability, isTarget, isImport, Attempt.bind],
    (importOf?_eq_some wraps).mp isImport⟩
  have beyond := keeps r breaks
  cases r with
  | unresolvedType simpleName =>
    simp [Rejection.breaks_unresolvedType wraps, isImport] at breaks
  | _ => simp [Rejection.rank] at beyond

section Read

variable {file text : String} {u : CompilationUnit} {d : Decoration}

theorem read_of_error {e : ParseFailure} (refused : parse text = .error e) :
    read file text = .failed (e.failure file) := by
  simp only [read, parseFile, refused]

theorem read_of_ok (parsed : parse text = .ok u) : read file text = extract file u := by
  simp only [read, parseFile, parsed]

/-- The decorated type of a declaration is the import that resolves it. -/
theorem resolves_of_read (parsed : parse text = .ok u) (accepted : read file text = .present d) :
    u.Resolves d.decorated := by
  rw [read_of_ok parsed] at accepted
  rcases extract_cases file u with ⟨r, -, failed⟩ | ⟨other, -, present, resolves⟩
  · rw [failed] at accepted
    cases accepted
  · rw [present] at accepted
    cases accepted
    exact resolves

/-- What the text of a file that can be parsed is read as. -/
theorem read_of_ok_cases (file : String) (parsed : parse text = .ok u) :
    (∀ failure, read file text = .failed failure ↔
        ∃ r : Rejection, r.IsDue u ∧ failure = r.failure) ∧
      ((∃ d, read file text = .present d) ↔ ∀ r : Rejection, ¬r.Breaks u) := by
  rw [read_of_ok parsed]
  rcases extract_cases file u with ⟨r, due, failed⟩ | ⟨d, keeps, present, -⟩
  · rw [failed]
    refine ⟨fun failure => ⟨?_, ?_⟩, ⟨?_, fun keeps => absurd due.1 (keeps r)⟩⟩
    · rintro ⟨⟩
      exact ⟨r, due, rfl⟩
    · rintro ⟨other, again, rfl⟩
      rw [due.unique again]
    · rintro ⟨_, ⟨⟩⟩
  · rw [present]
    refine ⟨fun failure => ⟨?_, ?_⟩, ⟨fun _ => keeps, fun _ => ⟨d, rfl⟩⟩⟩
    · rintro ⟨⟩
    · rintro ⟨r, due, -⟩
      exact absurd due.1 (keeps r)

/-- **Reading is exact.** A text is read as something for every name of its file. It is a syntax error
exactly if the text cannot be parsed. Otherwise it is a validation error exactly if the file breaks a
condition, with the reason that belongs to the first one, and a declaration exactly if the file keeps all
of them. The decorated type of a declaration is the first import that resolves it, and the declaration is
valid: a file is generated from it and from any surface of its decorated type. -/
theorem read_exact (file text : String) :
    read file text ≠ .empty ∧
      ((∃ failure, read file text = .failed failure ∧ failure.code = .malformed) ↔
        ∃ e, parse text = .error e) ∧
      ∀ u, parse text = .ok u →
        (∀ failure, read file text = .failed failure ↔ ∃ r : Rejection, r.IsDue u ∧ failure = r.failure ∧
          failure.code = .rejected ∧ failure.coded?.map (·.message) = some r.reason) ∧
        ((∃ d, read file text = .present d) ↔ ∀ r : Rejection, ¬r.Breaks u) ∧
        ∀ d, read file text = .present d → u.Resolves d.decorated ∧ d.isValid = true ∧
          ∀ s : Surface, s.name = d.decorated → ∃ unit, Forwarding.synthesize d (some s) = .ok unit := by
  refine ⟨read_ne_empty, ⟨?_, ?_⟩, fun u parsed => ⟨fun failure => ?_, ?_, fun d accepted => ?_⟩⟩
  · rintro ⟨failure, failed, isMalformed⟩
    cases parsed : parse text with
    | error e => exact ⟨e, rfl⟩
    | ok u =>
      obtain ⟨r, -, rfl⟩ := ((read_of_ok_cases file parsed).1 failure).mp failed
      rw [r.coded_failure.1] at isMalformed
      cases isMalformed
  · rintro ⟨e, refused⟩
    exact ⟨_, read_of_error refused, rfl⟩
  · rw [(read_of_ok_cases file parsed).1]
    constructor
    · rintro ⟨r, due, rfl⟩
      exact ⟨r, due, rfl, r.coded_failure⟩
    · rintro ⟨r, due, rfl, -⟩
      exact ⟨r, due, rfl⟩
  · exact (read_of_ok_cases file parsed).2
  · have valid := (worded_of_read accepted).isValid
    exact ⟨resolves_of_read parsed accepted, valid,
      fun s described => ⟨_, Forwarding.synthesize_eq_ok valid described⟩⟩

end Read

end Decoration

namespace Source

/-- A single-type import is neither static nor on-demand. -/
def ImportDecl.IsSingle (i : ImportDecl) : Prop :=
  i.isStatic = false ∧ i.onDemand = false

instance (i : ImportDecl) : Decidable i.IsSingle :=
  inferInstanceAs (Decidable (_ ∧ _))

theorem ImportDecl.target_of_isSingle {i : ImportDecl} (single : i.IsSingle) : i.target = i.name := by
  simp only [ImportDecl.target, ImportDecl.name, single.2, Bool.false_eq_true, if_false]

/-- The type is written with a qualifier. -/
def TypeRef.HasQualifier (type : TypeRef) : Prop :=
  1 < type.segments.length

instance (type : TypeRef) : Decidable type.HasQualifier :=
  inferInstanceAs (Decidable (_ < _))

/-- The type has this name in the file: the name that is written, if it has a qualifier, and otherwise that
of a single-type import. -/
def CompilationUnit.Names (u : CompilationUnit) (type : TypeRef) (name : String) : Prop :=
  if type.HasQualifier then name = type.qualifiedName
  else ∃ i ∈ u.imports, i.IsSingle ∧ name = i.name

instance (u : CompilationUnit) (type : TypeRef) (name : String) : Decidable (u.Names type name) :=
  inferInstanceAs (Decidable (if type.HasQualifier then name = type.qualifiedName
    else ∃ i ∈ u.imports, i.IsSingle ∧ name = i.name))

end Source

namespace Decoration

open Source

variable {file text : String} {d : Decoration}

/-- **The decorated type is the first import with the simple name.** Of the type argument only the simple
name counts, and of the imports every one, a static import with the full name of its member and an
on-demand import with the name of its package. So a qualified argument is decorated exactly if its name is
what that first import contributes. An argument without a qualifier gets the name of a single-type import
exactly if the first import is one, or if one has the same name. -/
theorem decorated_first_import (accepted : read file text = .present d) :
    ∃ u target i, parse text = .ok u ∧ u.Wraps target ∧
      IsFirst (fun i => EndsInName target.simpleName i.target) u.imports i ∧ d.decorated = i.target ∧
      (u.Names target d.decorated ↔
        if target.HasQualifier then i.target = target.qualifiedName
        else i.IsSingle ∨ ∃ other ∈ u.imports, other.IsSingle ∧ i.target = other.name) := by
  obtain ⟨u, parsed, -⟩ := read_eq_present accepted
  obtain ⟨target, wraps, first⟩ := resolves_of_read parsed accepted
  obtain ⟨i, firstImport, same⟩ := first.of_map
  refine ⟨u, target, i, parsed, wraps, firstImport, same.symm, ?_⟩
  rw [CompilationUnit.Names, ← same]
  by_cases qualified : target.HasQualifier
  · rw [if_pos qualified, if_pos qualified]
  · rw [if_neg qualified, if_neg qualified]
    constructor
    · exact .inr
    · rintro (single | other)
      · exact ⟨i, firstImport.mem, single, ImportDecl.target_of_isSingle single⟩
      · exact other

/-- A static import in front of the single-type import of the same simple name. -/
def staticText : String :=
  "package p; import static a.B.Map; import java.util.Map; class A implements Decorator<Map> \x7b\x7d"

theorem decorated_first_import_staticText : ∃ d, read "A.java" staticText = .present d ∧
    ∃ u target i, parse staticText = .ok u ∧ u.Wraps target ∧
      IsFirst (fun i => EndsInName target.simpleName i.target) u.imports i ∧ d.decorated = i.target ∧
      (u.Names target d.decorated ↔
        if target.HasQualifier then i.target = target.qualifiedName
        else i.IsSingle ∨ ∃ other ∈ u.imports, other.IsSingle ∧ i.target = other.name) := by
  have accepted : read "A.java" staticText = .present ⟨"A", "p", "a.B.Map", [], [], "A.java"⟩ :=
    read_of_chars rfl (by decide +kernel)
  exact ⟨_, accepted, decorated_first_import accepted⟩

/-- A qualified argument, and an import of another type with its simple name. -/
def qualifiedText : String :=
  "package p; import a.Map; class A implements Decorator<java.util.Map> \x7b\x7d"

/-- An on-demand import of the members of a type, in front of the single-type import. -/
def onDemandText : String :=
  "package p; import a.Map.*; import java.util.Map; class A implements Decorator<Map> \x7b\x7d"

/-- The text is read as a declaration that decorates a type of this name, which is not the one that the
text names. -/
def Displaces (text name : String) : Prop :=
  ∃ u target d, parse text = .ok u ∧ u.Wraps target ∧ read "A.java" text = .present d ∧
    d.decorated = name ∧ ¬u.Names target d.decorated

theorem displaces_of_chars {name : String} {cs : List Char} (isText : text = String.ofList cs)
    (computed : (parseChars cs).any (fun u =>
      (extract "A.java" u).value? = some ⟨"A", "p", name, [], [], "A.java"⟩ ∧
        ∃ target ∈ u.wrapped?, ¬u.Names target name) = true) : Displaces text name := by
  obtain ⟨u, parsed, extracted, target, found, other⟩ := exists_parse isText computed
  have accepted := (read_eq_extract parsed).trans (Attempt.eq_present_of_value? extracted)
  exact ⟨u, target, _, parsed, CompilationUnit.wraps_of_wrapped? found, accepted, rfl, other⟩

/-- **Other types that are decorated.** A qualifier is ignored, and a static or an on-demand import is
taken for the import of a type. -/
theorem decorated_displaced : Displaces qualifiedText "a.Map" ∧ Displaces staticText "a.B.Map" ∧
    Displaces onDemandText "a.Map" :=
  ⟨displaces_of_chars rfl (by decide +kernel), displaces_of_chars rfl (by decide +kernel),
    displaces_of_chars rfl (by decide +kernel)⟩

end Decoration

end Forwarder
