/-
**Tame declarations have tame surfaces.** The texts of a method are those of its declaration with names
qualified and type variables replaced. So they are tame if the identifiers of all files are that the type
is loaded from, and if the texts are that it is described with. A text is harmless if all of its identifiers are
made of letters from `A` to `Z`, digits and underscores, and none is `implements`. Then it is tame.

* `Scope.Tame` — what surrounds the names in a declaration is tame.
* `Surface.Tame` — the texts of the methods of a type are tame.
* **`Library.tame_loadWithin`** — a surface that is loaded from tame files is tame.
* **`TypeLoader.atFirst_cases`**, `TypeLoader.tame_atFirst` — the surfaces that a run begins with.
* `HeaderPattern.names` — the identifiers in a text.
* **`IsHarmless.isTame`** — a harmless text is tame.
* `Decoration.IsHarmless`, `Surface.IsHarmless` — the texts of a declaration, and those of methods, are harmless.
-/

import Forwarder.Proofs.Loading.RunLoader
import Forwarder.Proofs.Loading.Texts
import Forwarder.Proofs.Source.Identifiers

namespace Forwarder

open Source

/-! ### Names -/

/-- What surrounds the names in a declaration is tame. -/
structure Scope.Tame (s : Scope) : Prop where
  package : IsTame s.packageName
  imports : ∀ entry ∈ s.imports, IsTame entry.2
  onDemand : ∀ package ∈ s.onDemand, IsTame package

namespace Scope

variable {s : Scope} {lib : Library} {vars : List String} {simple : String}

theorem tame_of {u : CompilationUnit} (tame : u.Tame) (decl : TypeDecl) : (Scope.of u decl).Tame := by
  refine ⟨?_, List.forall_mem_map.mpr fun i member => ?_, List.forall_mem_map.mpr fun i member => ?_⟩
  · rw [Scope.of]
    cases declared : u.packageName with
    | none => exact .empty
    | some name => exact tame.package name declared
  · exact .join (by decide) (ImportDecl.tame_segments (tame.imports i (List.mem_filter.mp member).1))
  · exact ImportDecl.tame_target (tame.imports i (List.mem_filter.mp member).1)

namespace Tame

/-- The qualified name of a tame one. -/
theorem qualify (tame : s.Tame) (ofName : IsTame simple) : IsTame (s.qualify lib vars simple) := by
  rcases s.qualify_cases lib vars simple with same | ⟨package, isPackage, within⟩ | imported
  · rwa [same]
  · rw [within]
    refine IsTame.around ?_ ofName (by decide)
    rcases isPackage with ⟨rfl, -⟩ | onDemand
    · exact tame.package
    · exact tame.onDemand package onDemand
  · have entry := tame.imports _ (mem_of_lookup_eq_some imported)
    exact entry

theorem qualifyType (tame : s.Tame) {type : String} (ofType : IsTame type) :
    IsTame (s.qualifyType lib vars type) :=
  ofType.mapIdentifiers fun _ => tame.qualify

theorem typeArguments (tame : s.Tame) {ref : TypeRef} (ofRef : ∀ name ∈ ref.identifiers, IsTame name) :
    ∀ text ∈ s.typeArguments lib ref, IsTame text :=
  List.forall_mem_map.mpr fun arg member =>
    tame.qualifyType (tame_render arg (tame_of_typeArguments ofRef member))

end Tame

end Scope

/-! ### Methods -/

/-- The texts of a method are tame. -/
structure Method.Tame (m : Method) : Prop where
  name : IsTame m.name
  params : ∀ p ∈ m.params, IsTame p.type ∧ IsTame p.name
  returns : IsTame m.returns
  typeParams : ∀ param ∈ m.typeParams, IsTame param
  throws : ∀ type ∈ m.throws, IsTame type

/-- The texts of the methods of a type are tame. -/
def Surface.Tame (s : Surface) : Prop :=
  ∀ m ∈ s.methods, m.Tame

/-- A declared method with its types qualified. -/
theorem Scope.Tame.method {s : Scope} (tame : s.Tame) {m : MethodMember}
    (ofMethod : ∀ name ∈ m.method.identifiers, IsTame name) (lib : Library) (declaredIn : String) :
    (s.method lib declaredIn m).Tame := by
  simp only [MethodDecl.identifiers, List.forall_mem_cons, List.forall_mem_append,
    List.forall_mem_flatMap] at ofMethod
  obtain ⟨ofName, ⟨⟨ofTypeParams, ofReturns⟩, ofParams⟩, ofThrows⟩ := ofMethod
  refine ⟨ofName, List.forall_mem_map.mpr fun p isParam => ?_, ?_,
    List.forall_mem_map.mpr fun p isParam => ?_, List.forall_mem_map.mpr fun type isThrown => ?_⟩
  · have ofParam := ofParams p isParam
    exact ⟨tame.qualifyType (p.tame_typeText ofParam), (List.forall_mem_cons.mp ofParam).1⟩
  · exact tame.qualifyType (tame_brackets (tame_render _ ofReturns) _)
  · exact tame.qualifyType (p.tame_render (ofTypeParams p isParam))
  · exact tame.qualifyType (tame_render type (ofThrows type isThrown))

/-- A method with tame texts for the type variables around it. -/
theorem Method.Tame.substituted {m : Method} (tame : m.Tame) {mapping : TypeName.Substitution}
    (each : ∀ entry ∈ mapping, IsTame entry.2) : (m.substituted mapping).Tame where
  name := tame.name
  params := List.forall_mem_map.mpr fun p isParam =>
    ⟨(tame.params p isParam).1.substitute each _, (tame.params p isParam).2⟩
  returns := tame.returns.substitute each _
  typeParams := List.forall_mem_map.mpr fun param isParam => (tame.typeParams param isParam).substitute each _
  throws := List.forall_mem_map.mpr fun type isThrown => (tame.throws type isThrown).substitute each _

/-- Tame arguments are put in the place of type parameters. -/
theorem tame_ofArguments {args : List String} (each : ∀ arg ∈ args, IsTame arg) (names : List String) :
    ∀ entry ∈ TypeName.Substitution.ofArguments names args [], IsTame entry.2 := by
  intro entry member
  rcases TypeName.Substitution.ofArguments_mem (by decide) each entry member with nothing | ⟨-, tame⟩
  · cases nothing
  · exact tame

/-- What a subtype inherits. -/
theorem Surface.Tame.inherited {s : Surface} (tame : s.Tame) {args : List String}
    (each : ∀ arg ∈ args, IsTame arg) : ∀ m ∈ s.inherited args, m.Tame :=
  List.forall_mem_map.mpr fun m isMethod => (tame m isMethod).substituted (tame_ofArguments each _)

theorem tame_rootMethods : ∀ m ∈ rootMethods, m.Tame := by
  intro m member
  simp only [rootMethods, List.mem_cons, List.not_mem_nil, or_false] at member
  rcases member with rfl | rfl | rfl <;>
    exact ⟨by decide, by decide, by decide, by decide, by decide⟩

/-! ### Loading -/

namespace Library

variable {lib : Library}

/-- The files that declarations are found in are tame. -/
def IsTame (lib : Library) : Prop :=
  ∀ name u decl, lib.declaration name = .ok (u, decl) → u.Tame

section Declared

variable (lib) {u : CompilationUnit} {decl : TypeDecl} {load : LoadStep}

/-- One more supertype. -/
theorem tame_addSupertype {s : Scope} (tame : s.Tame)
    (loads : ∀ name t surface after, load name t = (.ok surface, after) → surface.Tame) {ref : TypeRef}
    (ofRef : ∀ name ∈ ref.identifiers, Forwarder.IsTame name) {g : Gathered}
    (before : ∀ m ∈ g.methods, m.Tame) : ∀ m ∈ (lib.addSupertype s load g ref).methods, m.Tame := by
  cases addSupertype_adds lib s load g ref with
  | root _ _ _ methods => rwa [methods]
  | known _ _ _ _ methods => rwa [methods]
  | failed _ _ _ _ _ _ _ _ _ methods => rwa [methods]
  | loaded _ _ t _ surface after loaded _ _ methods =>
    rw [methods]
    exact List.forall_mem_append.mpr
      ⟨before, (loads _ t surface after loaded).inherited (tame.typeArguments ofRef)⟩

/-- All supertypes of a declaration. -/
theorem tame_foldl {s : Scope} (tame : s.Tame)
    (loads : ∀ name t surface after, load name t = (.ok surface, after) → surface.Tame)
    (refs : List TypeRef) (each : ∀ ref ∈ refs, ∀ name ∈ ref.identifiers, Forwarder.IsTame name) :
    ∀ g : Gathered, (∀ m ∈ g.methods, m.Tame) →
      ∀ m ∈ (refs.foldl (lib.addSupertype s load) g).methods, m.Tame := by
  induction refs with
  | nil => exact fun _ => id
  | cons ref refs ih =>
    obtain ⟨first, others⟩ := List.forall_mem_cons.mp each
    exact fun g before => ih others _ (tame_addSupertype lib tame loads first before)

theorem tame_surfaceOf (tame : u.Tame) (isType : decl ∈ u.types)
    (loads : ∀ name t surface after, load name t = (.ok surface, after) → surface.Tame)
    (name : String) (t : Trace) : (lib.surfaceOf load name u decl t).1.Tame := by
  have ofType := tame.types decl isType
  simp only [TypeSpec.identifiers, List.forall_mem_cons, List.forall_mem_append,
    List.forall_mem_flatMap] at ofType
  obtain ⟨-, ⟨-, ofSupertypes⟩, ofMethods⟩ := ofType
  have scope := Scope.tame_of tame decl
  have own : ∀ m ∈ decl.spec.methods.map ((Scope.of u decl).method lib name), m.Tame :=
    List.forall_mem_map.mpr fun m isMethod => scope.method (ofMethods m isMethod) lib name
  have gathered := tame_foldl lib scope loads decl.spec.supertypes ofSupertypes
    ⟨[], _, t.ask (lib.searchedOwn (Scope.of u decl) decl.spec)⟩ own
  intro m member
  rcases List.mem_append.mp ((Method.unseen_sublist _ _).mem member) with inside | rooted
  · exact gathered m inside
  · split at rooted
    · cases rooted
    · exact tame_rootMethods m rooted

end Declared

/-- **A surface that is loaded from tame files** is tame. -/
theorem tame_loadWithin (tame : lib.IsTame) (bound : Nat) : ∀ (name : String) (t : Trace)
    (surface : Surface) (after : Trace), lib.loadWithin bound name t = (.ok surface, after) →
      surface.Tame := by
  induction bound with
  | zero =>
    intro name t surface after loaded
    cases loaded
  | succ bound ih =>
    intro name t surface after loaded
    rw [loadWithin] at loaded
    split at loaded
    · cases loaded
    · next u decl declared =>
      obtain ⟨_, -, -, isType⟩ := SourceLoader.declaration_eq_ok.mp declared
      have ofSurface := tame_surfaceOf lib (tame name u decl declared) (List.mem_of_find?_eq_some isType) ih
        name (t.visit name)
      cases loaded
      exact ofSurface

end Library

/-! ### Loaders -/

section Loaders

variable {d : Disk} {dirs roots : List String} {name : String} {surface : Surface}

/-- What is loaded from a source path whose files are tame. -/
theorem SourceLoader.tame_load (tame : ((ofRoots roots).library d).IsTame)
    (loaded : ((ofRoots roots).load d name).1 = .ok surface) : surface.Tame := by
  have isSurface : (((ofRoots roots).library d).loadWithin ((ofRoots roots).bound d) name .start).1 =
      .ok surface := loaded
  exact Library.tame_loadWithin tame _ name .start surface _ (Prod.ext isSurface rfl)

/-- What is loaded from directories is described there, under the name that was asked for. -/
theorem DescriptorLoader.find?_of_load (loaded : ((ofDirs dirs).load d name).1 = .ok surface) :
    ∃ surfaces, surfacesIn d dirs = .ok surfaces ∧ surfaces.find? (·.name == name) = some surface := by
  have described : (ofDirs dirs).described d = surfacesIn d dirs := rfl
  rw [load, described] at loaded
  cases isDescribed : surfacesIn d dirs with
  | error failure =>
    rw [isDescribed] at loaded
    cases loaded
  | ok surfaces =>
    rw [isDescribed] at loaded
    dsimp only at loaded
    split at loaded
    · next found =>
      cases loaded
      exact ⟨surfaces, rfl, found⟩
    · cases loaded

theorem DescriptorLoader.mem_of_load (loaded : ((ofDirs dirs).load d name).1 = .ok surface) :
    ∃ surfaces, surfacesIn d dirs = .ok surfaces ∧ surface ∈ surfaces := by
  obtain ⟨surfaces, described, found⟩ := find?_of_load loaded
  exact ⟨surfaces, described, List.mem_of_find?_eq_some found⟩

namespace TypeLoader

/-- What the source path alone finds. -/
theorem load_of_loadFirst {last : Option Failure}
    (found : (loadFirst d false name last [.sources (.ofRoots roots)]).1 = .ok surface) :
    ((SourceLoader.ofRoots roots).load d name).1 = .ok surface := by
  rw [loadFirst, load, if_neg Bool.false_ne_true] at found
  generalize (SourceLoader.ofRoots roots).load d name = outcome at found ⊢
  obtain ⟨result, after⟩ := outcome
  cases result with
  | ok s =>
    cases found
    rfl
  | error failure =>
    dsimp only at found
    split at found
    · cases found
    · cases found

/-- **A surface that a run begins with** is described in a directory or comes from the source path. -/
theorem atFirst_cases (loaded : atFirst d dirs roots name = .ok surface) :
    ((DescriptorLoader.ofDirs dirs).load d name).1 = .ok surface ∨
      ((SourceLoader.ofRoots roots).load d name).1 = .ok surface := by
  rw [atFirst, TypeLoader.described] at loaded
  split at loaded
  · exact .inr (load_of_loadFirst loaded)
  · simp only [List.cons_append, List.nil_append] at loaded
    rw [loadFirst, load, if_neg Bool.false_ne_true] at loaded
    cases isLoaded : (DescriptorLoader.ofDirs dirs).load d name with
    | mk result after =>
      rw [isLoaded] at loaded
      cases result with
      | ok s =>
        cases loaded
        exact .inl rfl
      | error failure =>
        dsimp only at loaded
        split at loaded
        · exact .inr (load_of_loadFirst loaded)
        · cases loaded

/-- It is tame, if the files of the source path and the descriptions are. -/
theorem tame_atFirst (sources : ((SourceLoader.ofRoots roots).library d).IsTame)
    (described : ∀ surfaces, DescriptorLoader.surfacesIn d dirs = .ok surfaces →
      ∀ s ∈ surfaces, s.Tame)
    (loaded : atFirst d dirs roots name = .ok surface) : surface.Tame := by
  rcases atFirst_cases loaded with fromDirectory | fromSource
  · obtain ⟨surfaces, isDescribed, member⟩ := DescriptorLoader.mem_of_load fromDirectory
    exact described surfaces isDescribed surface member
  · exact SourceLoader.tame_load sources fromSource

end TypeLoader

end Loaders

open Text (isWordChar)
open Forwarder.TypeName (isNamePart isNameStart)

namespace HeaderPattern

/-- The identifiers in a text. -/
def names (cs : List Char) : List (List Char) :=
  (cs.splitOnP fun c => !isNamePart c).map (·.dropWhile fun c => !isNameStart c)

/-- A name that generated text may hold. -/
def IsHarmlessName (name : List Char) : Prop :=
  (∀ c ∈ name, isWordChar c = true) ∧ name ≠ "implements".toList

instance (name : List Char) : Decidable (IsHarmlessName name) :=
  decidable_of_iff (name.all isWordChar = true ∧ name ≠ "implements".toList)
    (and_congr_left fun _ => List.all_eq_true)

variable {c : Char} {cs : List Char}

theorem not_isNameStart_of_isDigit (digit : c.isDigit = true) : isNameStart c = false := by
  have ascii := Source.toNat_lt_of_isAlphanum (c := c) (by rw [Char.isAlphanum, digit, Bool.or_true])
  have noLetter : c.isAlpha = false := by
    rw [Bool.eq_false_iff, Ne, Source.isAlpha_iff_toNat]
    rw [Source.isDigit_iff_toNat] at digit
    omega
  rw [isNameStart, Text.isLetter_of_ascii c ascii, noLetter, Bool.false_or, Bool.or_eq_false_iff]
  constructor <;> refine beq_false_of_ne fun same => ?_ <;> rw [same] at digit <;> exact absurd digit (by decide)

/-- What does not start an identifier makes no difference in front. -/
theorem tame_dropWhile : Tame (cs.dropWhile fun c => !isNameStart c) ↔ Tame cs := by
  induction cs with
  | nil => rfl
  | cons c cs ih =>
    rw [List.dropWhile_cons]
    split_ifs with other
    · rw [ih, tame_cons (by simpa using other)]
    · rfl

/-- A single name that is harmless is tame. -/
theorem tame_of_harmlessName (harmless : IsHarmlessName (cs.dropWhile fun c => !isNameStart c)) : Tame cs := by
  obtain ⟨word, other⟩ := harmless
  have starts : ∀ c ∈ (cs.dropWhile fun c => !isNameStart c).head?, isNameStart c = true := by
    intro c first
    have := List.head?_dropWhile_not (fun c => !isNameStart c) cs
    rw [first] at this
    simpa using this
  rw [← tame_dropWhile]
  generalize (cs.dropWhile fun c => !isNameStart c) = name at *
  have whole : words name = [name] := by
    rw [words, List.splitOnP_eq_singleton (by simpa using word), List.map_singleton]
    cases name with
    | nil => rfl
    | cons c rest =>
      have noDigit : c.isDigit = false := by
        refine Bool.eq_false_iff.mpr fun digit => ?_
        have start := starts c rfl
        rw [not_isNameStart_of_isDigit digit] at start
        cases start
      rw [List.dropWhile_cons, if_neg (by rw [noDigit]; exact Bool.false_ne_true)]
  rw [Tame, whole, List.mem_singleton]
  exact Ne.symm other

/-- **A text with harmless names** is tame. -/
theorem tame_of_names (cs : List Char) (harmless : ∀ name ∈ names cs, IsHarmlessName name) : Tame cs := by
  by_cases inName : ∀ c ∈ cs, isNamePart c = true
  · have single : names cs = [cs.dropWhile fun c => !isNameStart c] := by
      rw [names, List.splitOnP_eq_singleton (by simpa using inName), List.map_singleton]
    exact tame_of_harmlessName (harmless _ (single ▸ List.mem_singleton_self _))
  · push Not at inName
    obtain ⟨c, member, other⟩ := inName
    obtain ⟨front, back, split⟩ := List.append_of_mem member
    have mark : isWordChar c = false :=
      Bool.eq_false_iff.mpr fun word => other (isNamePart_of_isWordChar word)
    have both : names cs = names front ++ names back := by
      rw [split, names, List.splitOnP_append_cons _ _ (by simpa using other), List.map_append]
      rfl
    have shorter : front.length < cs.length ∧ back.length < cs.length := by
      rw [split, List.length_append, List.length_cons]
      omega
    rw [both, List.forall_mem_append] at harmless
    rw [split]
    exact (tame_append_cons mark).mpr ⟨tame_of_names front harmless.1, tame_of_names back harmless.2⟩
termination_by cs.length

end HeaderPattern

/-- All identifiers in the text are harmless. -/
def IsHarmless (text : String) : Prop :=
  ∀ name ∈ HeaderPattern.names text.toList, HeaderPattern.IsHarmlessName name

instance (text : String) : Decidable (IsHarmless text) :=
  inferInstanceAs (Decidable (∀ name ∈ HeaderPattern.names text.toList, _))

/-- **A harmless text** is tame. -/
theorem IsHarmless.isTame {text : String} (harmless : IsHarmless text) : IsTame text :=
  HeaderPattern.tame_of_names _ harmless

/-! ### Declarations and methods -/

/-- The texts of a declaration. -/
def Decoration.texts (d : Decoration) : List String :=
  d.className :: d.packageName :: d.decorated :: (d.typeParams ++ d.typeArgs)

/-- The identifiers in the texts of the declaration are harmless. -/
def Decoration.IsHarmless (d : Decoration) : Prop :=
  ∀ text ∈ d.texts, Forwarder.IsHarmless text

theorem Decoration.IsHarmless.tame {d : Decoration} (harmless : d.IsHarmless) : d.Tame := by
  simp only [IsHarmless, texts, List.forall_mem_cons, List.forall_mem_append] at harmless
  obtain ⟨className, packageName, decorated, typeParams, typeArgs⟩ := harmless
  exact ⟨className.isTame, packageName.isTame, decorated.isTame,
    fun param isParam => (typeParams param isParam).isTame, fun arg isArg => (typeArgs arg isArg).isTame⟩

/-- The texts of a method. -/
def Method.texts (m : Method) : List String :=
  m.name :: m.returns :: (m.params.flatMap fun p => [p.type, p.name]) ++ m.typeParams ++ m.throws

/-- The identifiers in the texts of the methods are harmless. -/
def Surface.IsHarmless (s : Surface) : Prop :=
  ∀ m ∈ s.methods, ∀ text ∈ m.texts, Forwarder.IsHarmless text

instance (s : Surface) : Decidable s.IsHarmless :=
  inferInstanceAs (Decidable (∀ m ∈ s.methods, _))

theorem Method.tame_of_harmless {m : Method} (harmless : ∀ text ∈ m.texts, IsHarmless text) : m.Tame := by
  simp only [texts, List.cons_append, List.forall_mem_cons, List.forall_mem_append,
    List.forall_mem_flatMap] at harmless
  obtain ⟨name, returns, ⟨params, typeParams⟩, throws⟩ := harmless
  exact ⟨name.isTame, fun p isParam => ⟨(params p isParam).1.isTame, (params p isParam).2.1.isTame⟩,
    returns.isTame, fun param isParam => (typeParams param isParam).isTame,
    fun type isThrown => (throws type isThrown).isTame⟩

theorem Surface.IsHarmless.tame {s : Surface} (harmless : s.IsHarmless) : s.Tame :=
  fun m isMethod => Method.tame_of_harmless (harmless m isMethod)

end Forwarder
