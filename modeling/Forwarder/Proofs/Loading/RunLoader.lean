/-
**The loader of a run answers as it would at the beginning.** Descriptors are read when the first type is
asked for, before anything was written. The source path is left alone. So every surface is the one that a
loader would give that starts on the first disk, whether it is remembered or not.

* `DescriptorLoader.Faithful` — what was read is what the directories described at the beginning.
* `TypeLoader.FaithfulOn`, `TypeLoader.Faithful` — the loader of a run, with everything it remembers.
* **`TypeLoader.FaithfulOn.load_eq`** — the surface of a type, whatever was loaded before.
* `TypeLoader.load_of_holds`, `TypeLoader.load_sharing` — types that are found, and the first of all types.
-/

import Forwarder.Loading.TypeLoader
import Forwarder.Proofs.Computed
import Forwarder.Proofs.Loading.Undisturbed

namespace Forwarder

variable {inside : String → Prop} {d e : Disk} {dirs roots : List String}

/-! ### Descriptors -/

namespace DescriptorLoader

variable {l : DescriptorLoader}

/-- The directories were read as they were at the beginning, or they still describe the same. -/
structure Faithful (d : Disk) (dirs : List String) (e : Disk) (l : DescriptorLoader) : Prop where
  isDirs : l.dirs = dirs
  surfaces : l.surfaces = some (surfacesIn d dirs) ∨
    l.surfaces = none ∧ surfacesIn e dirs = surfacesIn d dirs

theorem faithful_ofDirs (same : surfacesIn e dirs = surfacesIn d dirs) :
    (ofDirs dirs).Faithful d dirs e :=
  ⟨rfl, .inr ⟨rfl, same⟩⟩

/-- The surface of a type. What was read once counts from then on. -/
theorem Faithful.load_eq (faithful : l.Faithful d dirs e) (name : String) :
    (l.load e name).1 = ((ofDirs dirs).load d name).1 ∧
      ∀ f, (l.load e name).2.Faithful d dirs f := by
  obtain ⟨rfl, surfaces⟩ := faithful
  have described : l.described e = surfacesIn d l.dirs := by
    rw [DescriptorLoader.described]
    rcases surfaces with known | ⟨none_, same⟩
    · rw [known, Option.getD_some]
    · rw [none_, Option.getD_none, same]
  rw [load, described]
  exact ⟨rfl, fun f => ⟨rfl, .inl rfl⟩⟩

theorem filesIn_atClock (d : Disk) (now : Nat) (dir : String) :
    filesIn (d.atClock now) dir = filesIn d dir := by
  simp only [filesIn, Disk.place_atClock]
  rfl

theorem surfacesOf_atClock (d : Disk) (now : Nat) (path : String) :
    surfacesOf (d.atClock now) path = surfacesOf d path := by
  simp only [surfacesOf, Disk.readFile_atClock]

theorem surfacesOfAll_atClock (d : Disk) (now : Nat) (paths : List String) :
    surfacesOfAll (d.atClock now) paths = surfacesOfAll d paths := by
  induction paths with
  | nil => rfl
  | cons path paths ih => simp only [surfacesOfAll, surfacesOf_atClock, ih]

theorem surfacesIn_atClock (d : Disk) (now : Nat) (dirs : List String) :
    surfacesIn (d.atClock now) dirs = surfacesIn d dirs := by
  induction dirs with
  | nil => rfl
  | cons dir dirs ih => simp only [surfacesIn, filesIn_atClock, surfacesOfAll_atClock, ih]

end DescriptorLoader

/-! ### The source path -/

namespace SourceLoader

/-- The surface of a type when no other type is gone into. -/
def loadOwn (l : SourceLoader) (d : Disk) (name : String) : Except Failure Surface × SourceLoader :=
  let (surface, t) := (l.library d).loadWithin 1 name .start
  (surface, l.remember d t)

theorem load_eq_loadOwn {l : SourceLoader} {name : String}
    (base : (l.library d).IsBase name) : l.load d name = l.loadOwn d name := by
  rw [load, loadOwn, bound, base.loadWithin]

end SourceLoader

/-! ### The chain -/

namespace TypeLoader

/-- The loaders in front of the source path. -/
inductive Describes (d : Disk) (dirs : List String) (e : Disk) : List TypeLoader → Prop
  | nothing (none_ : dirs.isEmpty = true) : Describes d dirs e []
  | directories {l : DescriptorLoader} (some_ : ¬dirs.isEmpty = true)
      (faithful : l.Faithful d dirs e) : Describes d dirs e [.descriptors l]

/-- The loaders that a run starts with. -/
def described (dirs : List String) : List TypeLoader :=
  if dirs.isEmpty then [] else [descriptors (.ofDirs dirs)]

theorem describes_described
    (same : DescriptorLoader.surfacesIn e dirs = DescriptorLoader.surfacesIn d dirs) :
    Describes d dirs e (described dirs) := by
  rw [described]
  split
  · next none_ => exact .nothing none_
  · next some_ => exact .directories some_ (DescriptorLoader.faithful_ofDirs same)

/-- The surface of a type at the beginning. -/
def atFirst (d : Disk) (dirs roots : List String) (name : String) : Except Failure Surface :=
  (loadFirst d false name none (described dirs ++ [.sources (.ofRoots roots)])).1

/-- A chain that has come from the first one. -/
def FaithfulChainOn (inside : String → Prop) (d : Disk) (dirs roots : List String) (e : Disk)
    (chain : List TypeLoader) : Prop :=
  ∃ front l, chain = front ++ [.sources l] ∧ Describes d dirs e front ∧
    SourceLoader.FaithfulOn inside d roots l ∧ l.reader.Genuine

/-- The same for all names that are looked for below the roots. -/
abbrev FaithfulChain (d : Disk) (dirs roots : List String) (e : Disk) (chain : List TypeLoader) : Prop :=
  FaithfulChainOn IsRelativeName d dirs roots e chain

/-- The source path alone finds what it would find at the beginning. -/
theorem sources_eq (closes : Library.ClosesAlways inside) {l : SourceLoader}
    (faithful : SourceLoader.FaithfulOn inside d roots l) (genuine : l.reader.Genuine)
    (undisturbed : Disk.UndisturbedOn inside d e roots) {name : String} (within : inside name)
    (last : Option Failure) :
    ∃ l' : SourceLoader, SourceLoader.FaithfulOn inside d roots l' ∧ l'.reader.Genuine ∧
      loadFirst e false name last [.sources l] =
        ((loadFirst d false name last [.sources (.ofRoots roots)]).1, [.sources l']) := by
  obtain ⟨answer, still⟩ := faithful.load_eq closes genuine undisturbed within
  refine ⟨_, still, SourceLoader.genuine_load genuine e name, ?_⟩
  simp only [loadFirst, load, Bool.false_eq_true, if_false]
  generalize l.load e name = found at answer ⊢
  generalize (SourceLoader.ofRoots roots).load d name = first at answer ⊢
  obtain ⟨result, l'⟩ := found
  obtain ⟨result', l''⟩ := first
  obtain rfl : result = result' := answer
  cases result with
  | ok surface => rfl
  | error failure =>
    dsimp only
    split <;> rfl

/-- **The chain** finds what it would find at the beginning. -/
theorem FaithfulChainOn.load_eq (closes : Library.ClosesAlways inside) {chain : List TypeLoader}
    (faithful : FaithfulChainOn inside d dirs roots e chain)
    (undisturbed : Disk.UndisturbedOn inside d e roots) {name : String} (within : inside name) :
    (loadFirst e false name none chain).1 = atFirst d dirs roots name ∧
      ∀ f, FaithfulChainOn inside d dirs roots f (loadFirst e false name none chain).2 := by
  obtain ⟨front, l, rfl, describes, faithful, genuine⟩ := faithful
  cases describes with
  | nothing none_ =>
    obtain ⟨l', still, genuine', answer⟩ := sources_eq closes faithful genuine undisturbed within none
    rw [atFirst, described, if_pos none_, List.nil_append, List.nil_append, answer]
    exact ⟨rfl, fun f => ⟨[], l', rfl, .nothing none_, still, genuine'⟩⟩
  | @directories k some_ read =>
    obtain ⟨answer, known⟩ := read.load_eq name
    rw [atFirst, described, if_neg some_]
    simp only [List.cons_append, List.nil_append]
    rw [loadFirst, loadFirst, load, load]
    simp only [Bool.false_eq_true, if_false]
    generalize k.load e name = found at answer known ⊢
    generalize (DescriptorLoader.ofDirs dirs).load d name = first at answer ⊢
    obtain ⟨result, k'⟩ := found
    obtain ⟨result', k''⟩ := first
    obtain rfl : result = result' := answer
    cases result with
    | ok surface => exact ⟨rfl, fun f => ⟨_, l, rfl, .directories some_ (known f), faithful, genuine⟩⟩
    | error failure =>
      obtain ⟨l', still, genuine', answer⟩ :=
        sources_eq closes faithful genuine undisturbed within (some failure)
      dsimp only
      rw [answer]
      cases failure.hasCode .unresolved with
      | false => exact ⟨rfl, fun f => ⟨_, l, rfl, .directories some_ (known f), faithful, genuine⟩⟩
      | true => exact ⟨rfl, fun f => ⟨_, l', rfl, .directories some_ (known f), still, genuine'⟩⟩

/-! ### The loader -/

/-- The loader of a run that began on the disk `d`, on the disk `e` that it has come to, as far as some
names go. What it remembers was loaded, so the descriptors have been read. -/
def FaithfulOn (inside : String → Prop) (d : Disk) (dirs roots : List String) (e : Disk)
    (loader : TypeLoader) : Prop :=
  ∃ chain surfaces, loader = .caching (.chain chain) surfaces ∧
    FaithfulChainOn inside d dirs roots e chain ∧
    ∀ name surface, inside name → surfaces.get? name = some surface →
      atFirst d dirs roots name = .ok surface ∧ ∀ f, FaithfulChainOn inside d dirs roots f chain

/-- The same for all names that are looked for below the roots. -/
abbrev Faithful (d : Disk) (dirs roots : List String) (e : Disk) (loader : TypeLoader) : Prop :=
  FaithfulOn IsRelativeName d dirs roots e loader

theorem faithful_sharing {reader : Reader} (faithful : reader.Faithful d) (genuine : reader.Genuine)
    (same : DescriptorLoader.surfacesIn e dirs = DescriptorLoader.surfacesIn d dirs)
    (roots : List String) : FaithfulOn inside d dirs roots e (sharing reader dirs roots) :=
  ⟨_, .empty, rfl, ⟨described dirs, _, rfl, describes_described same,
    SourceLoader.faithful_sharing faithful roots, genuine⟩, fun _ _ _ found => by cases found⟩

/-- **The surface of a type** is the one that is found at the beginning. -/
theorem FaithfulOn.load_eq (closes : Library.ClosesAlways inside) {loader : TypeLoader}
    (faithful : FaithfulOn inside d dirs roots e loader)
    (undisturbed : Disk.UndisturbedOn inside d e roots) {name : String} (within : inside name) :
    (loader.load e false name).1 = atFirst d dirs roots name ∧
      ∀ f, FaithfulOn inside d dirs roots f (loader.load e false name).2 := by
  obtain ⟨chain, surfaces, rfl, faithful, remembered⟩ := faithful
  rw [load]
  cases known : surfaces.get? name with
  | some surface =>
    obtain ⟨answer, still⟩ := remembered name surface within known
    exact ⟨answer.symm, fun f => ⟨chain, surfaces, rfl, still f, remembered⟩⟩
  | none =>
    obtain ⟨answer, still⟩ := faithful.load_eq closes undisturbed within
    simp only [load]
    generalize loadFirst e false name none chain = outcome at answer still ⊢
    obtain ⟨result, chain'⟩ := outcome
    cases result with
    | error failure =>
      exact ⟨answer, fun f => ⟨chain', surfaces, rfl, still f, fun other surface within' isKnown =>
        ⟨(remembered other surface within' isKnown).1, still⟩⟩⟩
    | ok surface =>
      refine ⟨answer, fun f =>
        ⟨chain', _, rfl, still f, fun other surface' within' isKnown => ⟨?_, still⟩⟩⟩
      rw [Cache.get?_set] at isKnown
      split at isKnown
      · next isName =>
        cases isKnown
        rw [isName]
        exact answer.symm
      · exact (remembered other surface' within' isKnown).1

/-- The surface of a type whose source is looked for below the roots. -/
theorem Faithful.load_eq {loader : TypeLoader} (faithful : loader.Faithful d dirs roots e)
    (undisturbed : d.Undisturbed e roots) {name : String} (relative : IsRelativeName name) :
    (loader.load e false name).1 = atFirst d dirs roots name ∧
      ∀ f, (loader.load e false name).2.Faithful d dirs roots f :=
  FaithfulOn.load_eq Library.closesAlways_relative faithful undisturbed relative

/-! ### Types that are found or not -/

/-- The loader that is asked first has a declaration of the type. -/
def holds (d : Disk) (name : String) : TypeLoader → Bool
  | .sources l => ((l.library d).declaration name).toOption.isSome
  | .descriptors _ => false
  | .chain (first :: _) => first.holds d name
  | .chain [] => false
  | .caching next _ => next.holds d name

/-- A type that the first loader declares is loaded. -/
theorem load_of_holds {name : String} : ∀ loader : TypeLoader, loader.holds d name = true →
    ∃ s, (loader.load d false name).1 = .ok s
  | .sources l, found => by
    rw [holds] at found
    obtain ⟨p, declared⟩ := Option.isSome_iff_exists.mp found
    exact SourceLoader.load_of_declaration (eq_ok_of_toOption declared)
  | .chain (first :: others), found => by
    obtain ⟨s, loaded⟩ := load_of_holds first found
    refine ⟨s, ?_⟩
    rw [load, loadFirst]
    generalize first.load d false name = outcome at loaded ⊢
    obtain ⟨result, after⟩ := outcome
    obtain rfl : result = .ok s := loaded
    rfl
  | .caching next surfaces, found => by
    obtain ⟨s, loaded⟩ := load_of_holds next found
    rw [load]
    cases surfaces.get? name with
    | some surface => exact ⟨surface, rfl⟩
    | none =>
      generalize next.load d false name = outcome at loaded ⊢
      obtain ⟨result, after⟩ := outcome
      obtain rfl : result = .ok s := loaded
      exact ⟨s, rfl⟩

variable {reader : Reader} {name : String}

/-- A type at the beginning of a run without descriptors, if it has no supertypes. -/
theorem atFirst_of_base (base : ((SourceLoader.ofRoots roots).library d).IsBase name) :
    atFirst d [] roots name =
      match ((SourceLoader.ofRoots roots).loadOwn d name).1 with
      | .ok s => .ok s
      | .error failure =>
        .error (if failure.hasCode .unresolved then .typeNotFound name (some failure) else failure) := by
  rw [atFirst, described, List.isEmpty_nil, if_pos rfl, List.nil_append, loadFirst, load]
  simp only [Bool.false_eq_true, if_false]
  rw [SourceLoader.load_eq_loadOwn base]
  generalize (SourceLoader.ofRoots roots).loadOwn d name = outcome
  obtain ⟨result, after⟩ := outcome
  cases result with
  | ok s => rfl
  | error failure =>
    dsimp only
    cases failure.hasCode .unresolved <;> rfl

/-- A type that no source declares at the beginning. -/
theorem atFirst_of_unresolved {failure : Failure}
    (undeclared : ((SourceLoader.ofRoots roots).library d).declaration name = .error failure)
    (unresolved : failure.hasCode .unresolved = true) :
    atFirst d [] roots name = .error (.typeNotFound name (some failure)) := by
  have own : ((SourceLoader.ofRoots roots).loadOwn d name).1 = .error failure := by
    rw [SourceLoader.loadOwn, Library.loadWithin, undeclared]
  rw [atFirst_of_base (Library.isBase_of_undeclared undeclared), own]
  dsimp only
  rw [if_pos unresolved]

/-- The first type that a run without descriptors asks for, if it has no supertypes. -/
theorem load_sharing (base : ((SourceLoader.sharing reader roots).library d).IsBase name) :
    (sharing reader [] roots).load d false name =
      match (SourceLoader.sharing reader roots).loadOwn d name with
      | (.ok s, l) => (.ok s, .caching (.chain [.sources l]) (Cache.empty.set name s))
      | (.error failure, l) =>
        (.error (if failure.hasCode .unresolved then .typeNotFound name (some failure) else failure),
          .caching (.chain [.sources l]) .empty) := by
  have unknown : (Cache.empty : Cache Surface).get? name = none := rfl
  rw [← SourceLoader.load_eq_loadOwn base]
  simp only [sharing, List.isEmpty_nil, if_true, List.nil_append, load, loadFirst, Bool.false_eq_true,
    if_false, unknown]
  generalize (SourceLoader.sharing reader roots).load d name = outcome
  obtain ⟨result, l⟩ := outcome
  cases result with
  | ok s => rfl
  | error failure =>
    dsimp only
    cases failure.hasCode .unresolved <;> rfl

end TypeLoader

end Forwarder
