/-
**Loading ends.** A type is loaded by loading those of its supertypes that have not been visited, each of them
in the same way, and nothing tells how deep this goes. But every name is visited before its declaration is looked
for, found or not, and is not loaded again. Only a supertype with a source of its own leads further, and
different ones have different sources. So on a finite source path the search comes to an end, whether supertypes
run in cycles, meet again or have no source. A bound on the depth changes nothing if it allows for every source
below every root and for two more types: the first, which need not have a name that a supertype can have, and
the last, which need not have a source.

* `Library.Calls` — the types that are loaded while supertypes are gathered.
* `Library.Loads` — what loading a type comes to if there is no bound.
* **`Library.Loads.unique`**, **`Library.Loads.nodup`** — it comes to one thing, and visits no name twice.
* **`Library.loads_loadWithin`** — it does come to something: what it comes to within any large bound.
* `Cache.OfFiles`, `Reader.OfFiles` — what is remembered was made from files.
* `SourceLoader.Located` — places are remembered below the roots, under the paths of their names.
* `Disk.sourcePairs` — the sources below the roots, each with its root.
* `SourceLoader.exists_declared` — there are no more declared supertypes than these.
* **`SourceLoader.load_ends`** — loading from a source path, after whatever has been loaded before.
-/

import Mathlib.Data.Finset.Card
import Mathlib.Data.Finset.Image
import Mathlib.Tactic.SplitIfs
import Forwarder.Proofs.Loading.Agreement
import Forwarder.Proofs.Loading.Described
import Forwarder.Proofs.Loading.Names

namespace Forwarder

open Source

namespace Library

variable (lib : Library)

/-! ### Calls -/

/-- The types that are loaded while supertypes are gathered, each with the trace at this time: those
that are not the root type and have not been visited. -/
inductive Calls (scope : Scope) (load : LoadStep) : Gathered → List TypeRef → String → Trace → Prop
  | here {g : Gathered} {ref : TypeRef} {refs : List TypeRef} {name : String} {t : Trace}
      (isName : scope.qualifySupertype lib ref.qualifiedName = name)
      (isTrace : g.trace.ask (scope.searchedSupertype lib ref.qualifiedName) = t)
      (other : name ≠ rootType) (fresh : name ∉ t.visited) : Calls scope load g (ref :: refs) name t
  | later {g : Gathered} {ref : TypeRef} {refs : List TypeRef} {name : String} {t : Trace}
      (call : Calls scope load (lib.addSupertype scope load g ref) refs name t) :
      Calls scope load g (ref :: refs) name t

/-- What is gathered for a declaration before its supertypes are looked at. -/
def gatheredOwn (name : String) (u : CompilationUnit) (decl : TypeDecl) (t : Trace) : Gathered :=
  ⟨[], decl.spec.methods.map ((Scope.of u decl).method lib name),
    t.ask (lib.searchedOwn (Scope.of u decl) decl.spec)⟩

/-- The types that are loaded for a declaration. -/
def CallsFor (load : LoadStep) (name : String) (u : CompilationUnit) (decl : TypeDecl) (t : Trace) :
    String → Trace → Prop :=
  lib.Calls (Scope.of u decl) load (lib.gatheredOwn name u decl t) decl.spec.supertypes

/-- **Loading a type** comes to this outcome, however deep the search goes. -/
inductive Loads : String → Trace → Except Failure Surface × Trace → Prop
  | missing {name : String} {t : Trace} {failure : Failure}
      (declared : lib.declaration name = .error failure) : Loads name t (.error failure, t.visit name)
  | declared {name : String} {t : Trace} {u : CompilationUnit} {decl : TypeDecl} (load : LoadStep)
      (declared : lib.declaration name = .ok (u, decl))
      (calls : ∀ S t', lib.CallsFor load name u decl (t.visit name) S t' → Loads S t' (load S t')) :
      Loads name t (.ok (lib.surfaceOf load name u decl (t.visit name)).1,
        (lib.surfaceOf load name u decl (t.visit name)).2)

variable {lib} {scope : Scope} {load other : LoadStep} {g : Gathered} {ref : TypeRef} {refs : List TypeRef}
  {name S : String} {t t' : Trace} {u : CompilationUnit} {decl : TypeDecl}
  {outcome outcome' : Except Failure Surface × Trace}

/-! ### One supertype -/

/-- What a supertype adds depends on how it is loaded, if it is. -/
theorem addSupertype_of_calls
    (same : ∀ S t, lib.Calls scope load g [ref] S t → lib.Calls scope other g [ref] S t → load S t = other S t) :
    lib.addSupertype scope load g ref = lib.addSupertype scope other g ref := by
  unfold addSupertype
  dsimp only
  split_ifs with root visited
  · rfl
  · rfl
  · have fresh := fun member => visited (List.contains_iff_mem.mpr member)
    rw [same _ _ (.here rfl rfl root fresh) (.here rfl rfl root fresh)]

/-- A supertype is loaded or not; what was visited then are the names of the trace that it leaves. -/
theorem visited_addSupertype (lib : Library) (scope : Scope) (load : LoadStep) (g : Gathered) (ref : TypeRef) :
    (lib.addSupertype scope load g ref).trace.visited = g.trace.visited ∨
      ∃ S t, lib.Calls scope load g [ref] S t ∧ t.visited = g.trace.visited ∧
        (lib.addSupertype scope load g ref).trace.visited = (load S t).2.visited := by
  unfold addSupertype
  dsimp only
  split_ifs with root visited
  · exact .inl rfl
  · exact .inl rfl
  · have fresh := fun member => visited (List.contains_iff_mem.mpr member)
    refine .inr ⟨_, _, .here rfl rfl root fresh, rfl, ?_⟩
    split <;> next loaded => rw [loaded]; try rfl

theorem Calls.of_first (call : lib.Calls scope load g [ref] S t) : lib.Calls scope load g (ref :: refs) S t := by
  cases call with
  | here isName isTrace other fresh => exact .here isName isTrace other fresh
  | later call => cases call

/-! ### All supertypes -/

/-- What supertypes add depends on how those of them are loaded that are. -/
theorem foldl_of_calls
    (same : ∀ S t, lib.Calls scope load g refs S t → lib.Calls scope other g refs S t → load S t = other S t) :
    refs.foldl (lib.addSupertype scope load) g = refs.foldl (lib.addSupertype scope other) g := by
  induction refs generalizing g with
  | nil => rfl
  | cons ref refs ih =>
    have first : lib.addSupertype scope load g ref = lib.addSupertype scope other g ref :=
      addSupertype_of_calls fun S t call call' => same S t call.of_first call'.of_first
    rw [List.foldl_cons, List.foldl_cons, ← first]
    exact ih fun S t call call' => same S t (.later call) (.later (first ▸ call'))

theorem surfaceOf_of_calls
    (same : ∀ S t', lib.CallsFor load name u decl t S t' → lib.CallsFor other name u decl t S t' →
      load S t' = other S t') :
    lib.surfaceOf load name u decl t = lib.surfaceOf other name u decl t := by
  have gathered := foldl_of_calls same
  simp only [gatheredOwn] at gathered
  simp only [surfaceOf, gathered]

/-- A type is loaded when all that was visited before is still known. -/
theorem Calls.grown (grows : ∀ name t, ∀ X ∈ t.visited, X ∈ (load name t).2.visited)
    (call : lib.Calls scope load g refs S t) : ∀ X ∈ g.trace.visited, X ∈ t.visited := by
  induction call with
  | here _ isTrace _ _ => exact fun X old => isTrace ▸ old
  | later _ ih => exact fun X old => ih X (grown_addSupertype lib scope grows _ _ X old)

/-- No name is visited twice while supertypes are gathered. -/
theorem nodup_foldl
    (keeps : ∀ S t, lib.Calls scope load g refs S t → t.visited.Nodup → (load S t).2.visited.Nodup)
    (nodup : g.trace.visited.Nodup) :
    (refs.foldl (lib.addSupertype scope load) g).trace.visited.Nodup := by
  induction refs generalizing g with
  | nil => exact nodup
  | cons ref refs ih =>
    refine ih (fun S t call => keeps S t (.later call)) ?_
    rcases visited_addSupertype lib scope load g ref with same | ⟨S, t, call, same, after⟩
    · rwa [same]
    · rw [after]
      exact keeps S t call.of_first (same ▸ nodup)

/-- A type that is loaded is one of the supertypes, and has not been visited. -/
theorem Calls.spec (call : lib.Calls scope load g refs S t) : S ≠ rootType ∧ S ∉ t.visited ∧
    ∃ ref ∈ refs, scope.qualifySupertype lib ref.qualifiedName = S := by
  induction call with
  | here isName _ other fresh => exact ⟨other, fresh, _, List.mem_cons_self, isName⟩
  | later _ ih =>
    obtain ⟨other, fresh, ref, member, isName⟩ := ih
    exact ⟨other, fresh, ref, List.mem_cons_of_mem _ member, isName⟩

/-- For a declaration only types are loaded that it extends. -/
theorem CallsFor.extends_ (declared : lib.declaration name = .ok (u, decl))
    (call : lib.CallsFor load name u decl t S t') : lib.Extends name S := by
  obtain ⟨other, -, ref, member, isName⟩ := Calls.spec call
  exact ⟨u, decl, declared, ref, member, isName, other⟩

/-! ### Loading -/

namespace Loads

/-- **Loading comes to one thing.** -/
theorem unique (loads : lib.Loads name t outcome) (loads' : lib.Loads name t outcome') : outcome = outcome' := by
  induction loads generalizing outcome' with
  | missing declared =>
    cases loads' with
    | missing declared' =>
      obtain rfl := Except.error.inj (declared.symm.trans declared')
      rfl
    | declared _ declared' _ =>
      rw [declared] at declared'
      cases declared'
  | declared load declared calls ih =>
    cases loads' with
    | missing declared' =>
      rw [declared] at declared'
      cases declared'
    | declared load' declared' calls' =>
      obtain ⟨rfl, rfl⟩ := Prod.mk.inj (Except.ok.inj (declared.symm.trans declared'))
      rw [surfaceOf_of_calls fun S t call call' => ih S t call (calls' S t call')]

/-- **No name is visited twice.** -/
theorem nodup (loads : lib.Loads name t outcome) (fresh : name ∉ t.visited) (nodup : t.visited.Nodup) :
    outcome.2.visited.Nodup := by
  induction loads with
  | missing => exact List.nodup_cons.mpr ⟨fresh, nodup⟩
  | declared load _ _ ih =>
    exact nodup_foldl (fun S t call => ih S t call (Calls.spec call).2.1) (List.nodup_cons.mpr ⟨fresh, nodup⟩)

end Loads

/-! ### Bounds -/

/-- **A large bound changes nothing.** If all declared supertypes are among `names`, it is enough if types can
be open for each of them that has not been visited, for the one that is loaded and for one that has no
declaration. -/
theorem loads_loadWithin {names : List String}
    (all : ∀ X S, lib.Extends X S → (∃ p, lib.declaration S = .ok p) → S ∈ names) (bound : Nat) (name : String)
    (t : Trace) (some_ : 0 < bound)
    (enough : (∃ p, lib.declaration name = .ok p) → unvisited names (t.visit name) + 2 ≤ bound) :
    lib.Loads name t (lib.loadWithin bound name t) := by
  induction bound generalizing name t with
  | zero => exact absurd some_ (Nat.lt_irrefl 0)
  | succ bound ih =>
    rw [loadWithin]
    cases declared : lib.declaration name with
    | error failure => exact .missing declared
    | ok p =>
      obtain ⟨u, decl⟩ := p
      have room := enough ⟨(u, decl), declared⟩
      refine .declared (lib.loadWithin bound) declared fun S t' call => ih S t' (by omega) fun isDeclared => ?_
      have member := all name S (call.extends_ declared) isDeclared
      have fewer := unvisited_visit_lt member (Calls.spec call).2.1
      have less : unvisited names t' ≤ unvisited names (t.visit name) :=
        unvisited_le names (Calls.grown (grown_loadWithin lib bound) call)
      omega

end Library

/-! ### What was made from files -/

namespace Cache

variable {α : Type} {cache : Cache α} {d : Disk}

/-- All kept values were made from files, and not from directories. -/
def OfFiles (cache : Cache α) : Prop :=
  ∀ item ∈ cache.items, ∃ stamp size, item.2.madeFrom = some (.file stamp size)

theorem OfFiles.delete (ofFiles : cache.OfFiles) (key : String) : (cache.delete key).OfFiles :=
  fun item member => ofFiles item (List.mem_filter.mp member).1

/-- Whatever is found belongs to a file that is there. -/
theorem OfFiles.getFor? (ofFiles : cache.OfFiles) (d : Disk) (key path : String) :
    (cache.getFor? d key path).2.OfFiles ∧
      ((cache.getFor? d key path).1.isSome = true → d.isFile path = true) := by
  unfold Cache.getFor?
  split
  · exact ⟨ofFiles, fun found => absurd found Bool.false_ne_true⟩
  · next item found =>
    split_ifs with current
    · refine ⟨ofFiles, fun _ => ?_⟩
      obtain ⟨stamp, size, isMade⟩ := ofFiles _ (mem_of_lookup_eq_some found)
      have madeFrom : item.madeFrom = some (.file stamp size) := isMade
      cases state : d.fingerprint path with
      | error fault =>
        simp only [isCurrent, madeFrom, state] at current
        cases current
      | ok present =>
        simp only [isCurrent, madeFrom, state, beq_iff_eq] at current
        obtain ⟨place, file, isAt, -⟩ := Disk.fileAt_of_fingerprint (current ▸ state)
        exact Disk.isFile_iff.mpr ⟨place, file, isAt⟩
    · exact ⟨ofFiles.delete key, fun found => absurd found Bool.false_ne_true⟩

theorem OfFiles.kept (ofFiles : cache.OfFiles) {path : String} (isFile : d.isFile path = true) (value : α) :
    (Reader.kept cache d path value).OfFiles := by
  obtain ⟨place, file, isAt⟩ := Disk.isFile_iff.mp isFile
  rw [Reader.kept, Cache.setFor, isAt.fingerprint]
  exact List.forall_mem_append.mpr ⟨ofFiles.delete path, List.forall_mem_singleton.mpr ⟨_, _, rfl⟩⟩

end Cache

namespace Reader

variable {r : Reader} {d : Disk} {path : String}

/-- All that is remembered was made from files. -/
structure OfFiles (r : Reader) : Prop where
  units : r.units.OfFiles
  contents : r.contents.OfFiles

/-- A text is read from a file. -/
theorem OfFiles.readText (ofFiles : r.OfFiles) (d : Disk) (path : String) :
    (r.readText d path).2.OfFiles ∧ (∀ text, (r.readText d path).1 = .ok text → d.isFile (Path.clean path) = true) := by
  unfold Reader.readText
  split
  · exact ⟨ofFiles, nofun⟩
  · next clean isReadable =>
    obtain ⟨rfl, -⟩ := readable_eq_ok isReadable
    obtain ⟨still, here⟩ := ofFiles.contents.getFor? d (Path.clean path) (Path.clean path)
    split
    · next found =>
      rw [found] at still here
      exact ⟨⟨ofFiles.units, still⟩, fun _ _ => here rfl⟩
    · next found =>
      rw [found] at still
      split
      · exact ⟨⟨ofFiles.units, still⟩, nofun⟩
      · next text read =>
        obtain ⟨place, file, isAt, -⟩ := Disk.fileAt_of_readFile read
        have isFile := Disk.isFile_iff.mpr ⟨place, file, isAt⟩
        exact ⟨⟨ofFiles.units, still.kept isFile text⟩, fun _ _ => isFile⟩

/-- Declarations are read from a file. -/
theorem OfFiles.parseFile (ofFiles : r.OfFiles) (d : Disk) (path : String) :
    (r.parseFile d path).2.OfFiles ∧ (∀ u, (r.parseFile d path).1 = .ok u → d.isFile (Path.clean path) = true) := by
  unfold Reader.parseFile
  split
  · exact ⟨ofFiles, nofun⟩
  · next clean isReadable =>
    obtain ⟨rfl, -⟩ := readable_eq_ok isReadable
    obtain ⟨still, here⟩ := ofFiles.units.getFor? d (Path.clean path) (Path.clean path)
    split
    · next found =>
      rw [found] at still here
      exact ⟨⟨still, ofFiles.contents⟩, fun _ _ => here rfl⟩
    · next units found =>
      rw [found] at still
      have reader : OfFiles { r with units } := ⟨still, ofFiles.contents⟩
      obtain ⟨after, isFile⟩ := reader.readText d (Path.clean path)
      rw [Path.clean_clean] at isFile
      split
      · next read =>
        rw [read] at after
        exact ⟨after, nofun⟩
      · next text r' read =>
        rw [read] at after isFile
        split
        · exact ⟨after, nofun⟩
        · next u parsed => exact ⟨⟨after.units.kept (isFile text rfl) u, after.contents⟩, fun _ _ => isFile text rfl⟩

theorem ofFiles_served (requests : List (Disk × Request)) : (served requests).OfFiles := by
  refine List.foldlRecOn (motive := OfFiles) _ _ ⟨List.forall_mem_nil _, List.forall_mem_nil _⟩
    fun r ofFiles (d, request) _ => ?_
  cases request with
  | read path => exact (ofFiles.readText d path).1
  | parse path => exact (ofFiles.parseFile d path).1
  | forget path => exact ⟨ofFiles.units.delete _, ofFiles.contents.delete _⟩
  | clear => exact ⟨List.forall_mem_nil _, List.forall_mem_nil _⟩

end Reader

/-! ### Where sources are -/

namespace Disk

open SourceLoader (entryText relativePath)

variable {d : Disk} {roots : List String} {root relative : String}

/-- The paths below a root of the sources in it: of the entries of an archive, and of the files below a
directory. -/
def sourcesBelow (d : Disk) (root : String) : List String :=
  (if isArchivePath root then (d.listingOf root).toOption.getD [] else []) ++
    d.entries.filterMap fun (place, entry) =>
      match below? (d.spot root) place, entry with
      | some rest, .file _ =>
        if Text.endsIn (Text.join "/" rest) ".java" then some (Text.join "/" rest) else none
      | _, _ => none

/-- The sources below the roots, each with its root. -/
def sourcePairs (d : Disk) (roots : List String) : Finset (String × String) :=
  (roots.flatMap fun root => (d.sourcesBelow root).map (root, ·)).toFinset

theorem mem_sourcePairs : (root, relative) ∈ d.sourcePairs roots ↔ root ∈ roots ∧ relative ∈ d.sourcesBelow root := by
  simp [sourcePairs]

/-- A file below a root, with a path that leads through names. -/
theorem mem_sourcesBelow_of_file (names : ∀ c ∈ Path.written relative, Path.IsEntryName c)
    (isJava : Text.endsIn relative ".java" = true) (isFile : d.isFile (Path.join [root, relative]) = true) :
    relative ∈ d.sourcesBelow root := by
  obtain ⟨place, file, isPlace, isAt⟩ := isFile_iff.mp isFile
  have some_ : relative ≠ "" := by
    rintro rfl
    exact (names "" (by decide)).some_ rfl
  have goes : place = d.spot root ++ Path.written relative := by
    rw [spot_of_place isPlace, d.spot_join root (Path.isAbsolute_of_names names) some_, Path.goal_names names]
  have isEntry := file?_eq_some.mp isAt
  have inner : place ≠ [] := by
    rintro rfl
    cases isEntry
  rw [Disk.entry?, if_neg inner] at isEntry
  refine List.mem_append_right _ (List.mem_filterMap.mpr ⟨_, mem_of_lookup_eq_some isEntry, ?_⟩)
  have isBelow : below? (d.spot root) place = some (Path.written relative) := by
    rw [goes, below?, if_pos (List.isPrefixOf_iff_prefix.mpr (List.prefix_append _ _)), List.drop_left]
  simp only [isBelow, Path.join_written]
  exact if_pos isJava

/-- The name of an entry has the ending that it has without its first slash. -/
theorem endsIn_of_entryName {name ending : String} (ends : Text.endsIn (entryName name) ending = true) :
    Text.endsIn name ending = true := by
  rw [entryName] at ends
  split at ends
  · next rest chars =>
    rw [Text.endsIn, String.toList_ofList, List.isSuffixOf_iff_suffix] at ends
    rw [Text.endsIn, List.isSuffixOf_iff_suffix, chars]
    exact ends.trans (List.suffix_cons _ _)
  · exact ends

/-- An entry of an archive. -/
theorem mem_sourcesBelow_of_entry {text : String} (isArchive : isArchivePath root = true)
    (isJava : Text.endsIn relative ".java" = true) (read : entryText d root relative = .ok text) :
    relative ∈ d.sourcesBelow root := by
  refine List.mem_append_left _ ?_
  rw [if_pos isArchive, listingOf]
  cases opened : d.openArchive root with
  | error failure =>
    rw [entryText, opened] at read
    cases read
  | ok entries =>
    rw [entryText, opened] at read
    dsimp only at read
    split at read
    · next name text found =>
      have isName := List.find?_some found
      refine List.mem_map.mpr ⟨_, List.mem_filter.mpr ⟨List.mem_of_find?_eq_some found, ?_⟩, beq_iff_eq.mp isName⟩
      exact endsIn_of_entryName (beq_iff_eq.mp isName ▸ isJava)
    · cases read

end Disk

namespace SourceLoader

open Disk (listingOf)

variable {l : SourceLoader} {d : Disk} {roots : List String} {name relative : String} {place : SourcePlace}

/-- The place is below one of the roots, under the path. -/
def IsBelow (roots : List String) (relative : String) : SourcePlace → Prop
  | .file path => ∃ root ∈ roots, path = Path.join [root, relative]
  | .entry archive entry => archive ∈ roots ∧ isArchivePath archive = true ∧ entry = relative

theorem IsBelow.cons {root : String} (isBelow : IsBelow roots relative place) :
    IsBelow (root :: roots) relative place := by
  cases place with
  | file path =>
    obtain ⟨other, member, isPath⟩ := isBelow
    exact ⟨other, List.mem_cons_of_mem _ member, isPath⟩
  | entry archive entry => exact isBelow.imp_left (List.mem_cons_of_mem _)

/-- The loader has these roots, and remembers places below them, under the paths of their names. -/
structure Located (roots : List String) (l : SourceLoader) : Prop where
  isRoots : l.roots = roots
  found : ∀ name place, l.found.get? name = some (some place) → IsBelow roots (relativePath name) place

/-- A listing is remembered beside the places. -/
theorem Located.listing (located : Located roots l) (d : Disk) (archive : String) :
    Located roots (l.listing d archive).2 := by
  unfold SourceLoader.listing
  split
  · exact located
  · split <;> exact ⟨located.isRoots, located.found⟩

/-- A search finds places below the roots that are searched. -/
theorem Located.search (d : Disk) (relative : String) (some_ : List String) : ∀ l : SourceLoader,
    Located roots l → Located roots (l.search d relative some_).2 ∧
      ∀ place, (l.search d relative some_).1 = .ok (some place) → IsBelow some_ relative place := by
  induction some_ with
  | nil =>
    refine fun l located => ⟨located, fun place isPlace => ?_⟩
    cases isPlace
  | cons root others ih =>
    intro l located
    rw [SourceLoader.search]
    split
    · next isArchive =>
      rw [Bool.and_eq_true] at isArchive
      have listed := located.listing d root
      generalize l.listing d root = outcome at listed ⊢
      obtain ⟨failure | names, l⟩ := outcome
      · exact ⟨listed, fun place isPlace => by cases isPlace⟩
      · dsimp only
        split
        · refine ⟨listed, fun place isPlace => ?_⟩
          cases isPlace
          exact ⟨List.mem_cons_self, isArchive.1, rfl⟩
        · exact (ih l listed).imp_right fun below place isPlace => (below place isPlace).cons
    · dsimp only
      split
      · refine ⟨located, fun place isPlace => ?_⟩
        cases isPlace
        exact ⟨root, List.mem_cons_self, rfl⟩
      · exact (ih l located).imp_right fun below place isPlace => (below place isPlace).cons

/-- **A type is located** below the roots, under the path of its name. -/
theorem Located.locate (located : Located roots l) (d : Disk) (name : String) :
    Located roots (l.locate d name).2 ∧
      ∀ place, (l.locate d name).1 = .ok (some place) → IsBelow roots (relativePath name) place := by
  have searched := located.search d (relativePath name) roots l
  rw [SourceLoader.locate]
  cases known : l.found.get? name with
  | some place =>
    refine ⟨located, fun other isPlace => ?_⟩
    cases isPlace
    exact located.found name other known
  | none =>
    dsimp only
    rw [located.isRoots]
    generalize l.search d (relativePath name) roots = outcome at searched ⊢
    obtain ⟨failure | place, l⟩ := outcome
    · exact ⟨searched.1, fun place isPlace => by cases isPlace⟩
    · refine ⟨⟨searched.1.isRoots, fun other place' isKnown => ?_⟩, fun place' isPlace => ?_⟩
      · rw [Cache.get?_set] at isKnown
        split at isKnown
        · next isName =>
          cases isKnown
          exact isName ▸ searched.2 place' rfl
        · exact searched.1.found other place' isKnown
      · cases isPlace
        exact searched.2 place' rfl

/-- The files of types are parsed, and what they lead to is remembered. -/
theorem Located.afterVisit (located : Located roots l) (d : Disk) (name : String) :
    Located roots (afterVisit d l name) := by
  obtain ⟨still, -⟩ := located.locate d name
  unfold SourceLoader.afterVisit
  split
  · next place after found =>
    rw [found] at still
    unfold unitAt
    cases place with
    | file path => exact ⟨still.isRoots, still.found⟩
    | entry archive name =>
      dsimp only
      split <;> exact still
  · next found =>
    rw [found] at still
    exact still

theorem Located.load (located : Located roots l) (d : Disk) (name : String) : Located roots (l.load d name).2 := by
  unfold SourceLoader.load remember
  refine List.foldlRecOn (motive := Located roots) _ _ ?_ fun l located name _ => located.afterVisit d name
  exact List.foldlRecOn (motive := Located roots) _ _ located fun l located name _ => (located.locate d name).1

/-- **After any loads** places are remembered below the roots, and units that were made from files. -/
theorem located_afterSharing (reader : Reader) (roots : List String) (history : List (Disk × String)) :
    Located roots (afterSharing reader roots history) :=
  List.foldlRecOn (motive := Located roots) _ _ ⟨rfl, nofun⟩ fun _ located (d, name) _ => located.load d name

theorem ofFiles_afterSharing {reader : Reader} (ofFiles : reader.OfFiles) (roots : List String)
    (history : List (Disk × String)) : (afterSharing reader roots history).reader.OfFiles :=
  List.foldlRecOn (motive := fun l : SourceLoader => l.reader.OfFiles) _ _ ofFiles
    fun _ ofFiles (d, name) _ => holds_load (fun _ path ofFiles => (ofFiles.parseFile d path).1) ofFiles name

/-! ### Declared supertypes -/

theorem endsIn_relativePath (name : String) : Text.endsIn (relativePath name) ".java" = true := by
  rw [Text.endsIn, relativePath, String.toList_append, List.isSuffixOf_iff_suffix]
  exact List.suffix_append _ _

/-- **A declared type has a source below the roots**, if its name is made of parts. -/
theorem source_of_declared (located : Located roots l) (ofFiles : l.reader.OfFiles) (isName : IsPathName name)
    {p : CompilationUnit × TypeDecl} (declared : (l.library d).declaration name = .ok p) :
    ∃ root, (root, relativePath name) ∈ d.sourcePairs roots := by
  obtain ⟨u, decl⟩ := p
  obtain ⟨place, isPlace, read, -⟩ := declaration_eq_ok.mp declared
  have isBelow := (located.locate d name).2 place isPlace
  cases place with
  | file path =>
    obtain ⟨root, member, rfl⟩ := isBelow
    have isFile := (ofFiles.parseFile d _).2 u read
    rw [Path.clean_join root (relativePath_ne_empty name)] at isFile
    exact ⟨root, Disk.mem_sourcePairs.mpr ⟨member,
      Disk.mem_sourcesBelow_of_file (isEntryName_relativePath isName) (endsIn_relativePath name) isFile⟩⟩
  | entry archive entry =>
    obtain ⟨member, isArchive, rfl⟩ := isBelow
    have isUnit : (l.unitAt d (.entry archive (relativePath name))).1 = .ok u := read
    rw [unitAt] at isUnit
    split at isUnit
    · cases isUnit
    · next text isText =>
      exact ⟨archive, Disk.mem_sourcePairs.mpr ⟨member,
        Disk.mem_sourcesBelow_of_entry isArchive (endsIn_relativePath name) isText⟩⟩

/-- **There are no more declared supertypes than sources.** -/
theorem exists_declared (located : Located roots l) (ofFiles : l.reader.OfFiles) (genuine : l.reader.Genuine) :
    ∃ names : List String, names.length ≤ (d.sourcePairs roots).card ∧
      ∀ X S, (l.library d).Extends X S → (∃ p, (l.library d).declaration S = .ok p) → S ∈ names := by
  classical
  let isSource (name : String) : Prop := IsPathName name ∧ ∃ root, (root, relativePath name) ∈ d.sourcePairs roots
  refine ⟨((l.namesIn d).toFinset.filter isSource).toList, ?_, fun X S edge isDeclared => ?_⟩
  · rw [Finset.length_toList]
    have below : ((l.namesIn d).toFinset.filter isSource).image relativePath ⊆ (d.sourcePairs roots).image Prod.snd :=
      fun path member => by
        obtain ⟨name, isName, rfl⟩ := Finset.mem_image.mp member
        obtain ⟨-, -, root, pair⟩ := Finset.mem_filter.mp isName
        exact Finset.mem_image.mpr ⟨_, pair, rfl⟩
    have injective : Set.InjOn relativePath ((l.namesIn d).toFinset.filter isSource) :=
      fun name isName other isOther same => by
        obtain ⟨-, isName, -⟩ := Finset.mem_filter.mp isName
        obtain ⟨-, isOther, -⟩ := Finset.mem_filter.mp isOther
        exact relativePath_inj isName isOther same
    calc ((l.namesIn d).toFinset.filter isSource).card
        = (((l.namesIn d).toFinset.filter isSource).image relativePath).card :=
          (Finset.card_image_of_injOn injective).symm
      _ ≤ ((d.sourcePairs roots).image Prod.snd).card := Finset.card_le_card below
      _ ≤ (d.sourcePairs roots).card := Finset.card_image_le
  · have isName := Library.isPathName_of_extends (fun X u decl => parsed_of_declaration genuine) edge isDeclared
    obtain ⟨p, declared⟩ := isDeclared
    exact Finset.mem_toList.mpr (Finset.mem_filter.mpr ⟨List.mem_toFinset.mpr (mem_namesIn_of_extends edge), isName,
      source_of_declared located ofFiles isName declared⟩)

/-! ### Loading -/

/-- **Loading ends**, after whatever has been read and loaded before, and for every type: however deep the
search may go, it comes to what the loader answers and to the names that it remembers, and to nothing else.
Every name is visited at most once. And if the search is bounded, it comes to the same whenever the bound
allows for two types more than there are sources below the roots. -/
theorem load_ends (requests : List (Disk × Reader.Request)) (roots : List String) (history : List (Disk × String))
    (d : Disk) (name : String) :
    let l := afterSharing (Reader.served requests) roots history
    ∃ t, (l.library d).Loads name .start ((l.load d name).1, t) ∧ (l.load d name).2 = l.remember d t ∧
      (∀ outcome, (l.library d).Loads name .start outcome → outcome = ((l.load d name).1, t)) ∧
      t.visited.Nodup ∧
      ∀ bound, (d.sourcePairs roots).card + 2 ≤ bound →
        (l.library d).loadWithin bound name .start = ((l.load d name).1, t) := by
  have located := located_afterSharing (Reader.served requests) roots history
  have ofFiles := ofFiles_afterSharing (Reader.ofFiles_served requests) roots history
  have genuine := genuine_afterSharing (Reader.genuine_served requests) roots history
  intro l
  obtain ⟨names, few, all⟩ := exists_declared (d := d) located ofFiles genuine
  have within (bound : Nat) (large : names.length + 2 ≤ bound) :
      (l.library d).Loads name .start ((l.library d).loadWithin bound name .start) :=
    Library.loads_loadWithin all bound name .start (by omega) fun _ =>
      (Nat.add_le_add_right (List.length_filter_le _ _) 2).trans large
  have loads : (l.library d).Loads name .start ((l.library d).loadWithin (l.bound d) name .start) :=
    Library.loads_loadWithin (fun _ _ edge _ => mem_namesIn_of_extends edge) (l.bound d) name .start
      (Nat.lt_of_lt_of_le Nat.two_pos (Nat.le_of_add_left_le (l.length_namesIn_le d))) fun _ =>
        (Nat.add_le_add_right (List.length_filter_le _ _) 2).trans (l.length_namesIn_le d)
  refine ⟨((l.library d).loadWithin (l.bound d) name .start).2, loads, rfl, fun outcome other => ?_, ?_,
    fun bound large => ?_⟩
  · exact other.unique loads
  · exact loads.nodup List.not_mem_nil List.nodup_nil
  · exact (within bound (by omega)).unique loads

/-- Two classes that inherit from each other leave room for two more types. -/
example : (ringDisk.sourcePairs ["."]).card + 2 = 4 := by decide

end SourceLoader

end Forwarder
