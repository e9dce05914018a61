/-
**The supertypes of a loaded type are those it can reach.** A source path holds finitely many
declarations, so the bound on the depth of the search is never met: the search answers as if there
were none.

* `SourceLoader.texts_of_unitAt` — declarations come from what is remembered or from a text on the disk.
* `SourceLoader.namesIn` — all names that can become supertypes.
* `SourceLoader.length_namesIn_le` — they are fewer than the bound.
* `SourceLoader.Declares` — a type has a source that is read and that declares it.
* **`SourceLoader.load_exact`** — a type is loaded exactly if it is declared, with the root type at the
  end of its supertypes and what it reaches before that.
-/

import Forwarder.Loading.SourceLoader
import Forwarder.Proofs.Computed
import Forwarder.Proofs.Disk.Tree
import Forwarder.Proofs.Loading.Search
import Forwarder.Proofs.Source.Derivation

namespace Forwarder

open Relation (ReflTransGen TransGen)
open Source

/-! ### Texts on a disk -/

namespace Disk

variable {d : Disk} {path : String} {file : File}

/-- A file that can be opened is an entry of the disk. -/
theorem mem_of_openFile (opened : d.openFile path = .ok file) :
    ∃ place, (place, Entry.file file) ∈ d.entries := by
  rw [openFile] at opened
  split at opened
  · cases opened
  · cases opened
  · next looked =>
    cases opened
    rw [lookUp] at looked
    split at looked
    · cases looked
    · next resolved =>
      cases looked
      rw [resolve] at resolved
      split at resolved
      · cases resolved
      · next place _ =>
        split at resolved
        · cases resolved
        · next found =>
          cases resolved
          unfold entry? at found
          split at found
          · cases found
          · exact ⟨place, mem_of_lookup_eq_some found⟩

end Disk

namespace Cache

variable {α : Type} {cache : Cache α} {d : Disk} {key path : String} {value : α}

/-- A kept value that is found is among the kept ones. -/
theorem mem_of_getFor? {after : Cache α} (found : cache.getFor? d key path = (some value, after)) :
    ∃ kept, (key, kept) ∈ cache.items ∧ kept.value = value := by
  rw [getFor?] at found
  split at found
  · cases found
  · next item isItem =>
    split at found
    · cases found
      exact ⟨item, mem_of_lookup_eq_some isItem, rfl⟩
    · cases found

end Cache

namespace SourceLoader

variable {l : SourceLoader} {d : Disk}

theorem mem_texts_of_readFile {path text : String} (read : d.readFile path = .ok text) :
    text ∈ texts d := by
  rw [Disk.readFile] at read
  split at read
  · cases read
  · next file opened =>
    cases read
    obtain ⟨place, member⟩ := Disk.mem_of_openFile opened
    exact List.mem_flatMap.mpr ⟨_, member, List.mem_cons_self⟩

theorem mem_texts_of_entryText {archive name text : String}
    (read : entryText d archive name = .ok text) : text ∈ texts d := by
  rw [entryText] at read
  split at read
  · cases read
  · next entries opened =>
    split at read
    · next entry found =>
      cases read
      rw [Disk.openArchive] at opened
      split at opened
      · cases opened
      · next file isFile =>
        split at opened
        · next entries' listed =>
          cases opened
          obtain ⟨place, member⟩ := Disk.mem_of_openFile isFile
          refine List.mem_flatMap.mpr ⟨_, member, List.mem_cons_of_mem _ ?_⟩
          rw [listed]
          exact List.mem_map.mpr ⟨_, List.mem_of_find?_eq_some found, rfl⟩
        · cases opened
    · cases read

/-! ### Where declarations come from -/

/-- The texts that are remembered, and those on the disk. -/
def knownTexts (l : SourceLoader) (d : Disk) : List String :=
  (l.reader.contents.items.map fun (_, kept) => kept.value) ++ texts d

/-- The declarations that are remembered, and those in the known texts. -/
def knownUnits (l : SourceLoader) (d : Disk) : List CompilationUnit :=
  (l.reader.units.items.map fun (_, kept) => kept.value) ++
    (l.knownTexts d).filterMap fun text => (parse text).toOption

theorem parse_of_parseFile {file text : String} {u : CompilationUnit}
    (parsed : parseFile file text = .ok u) : parse text = .ok u := by
  rw [parseFile] at parsed
  split at parsed
  · next parsed' =>
    cases parsed
    exact parsed'
  · cases parsed

theorem mem_knownUnits_of_parse {text : String} {u : CompilationUnit}
    (known : text ∈ l.knownTexts d) (parsed : parse text = .ok u) : u ∈ l.knownUnits d :=
  List.mem_append_right _ (List.mem_filterMap.mpr ⟨text, known, by rw [parsed]; rfl⟩)

theorem mem_knownTexts_of_readText {r : Reader} {path text : String} {after : Reader}
    (read : r.readText d path = (.ok text, after)) (same : r.contents = l.reader.contents) :
    text ∈ l.knownTexts d := by
  rw [Reader.readText] at read
  split at read
  · cases read
  · split at read
    · next found =>
      cases read
      obtain ⟨kept, member, rfl⟩ := Cache.mem_of_getFor? found
      exact List.mem_append_left _ (List.mem_map.mpr ⟨_, same ▸ member, rfl⟩)
    · split at read
      · cases read
      · next opened =>
        cases read
        exact List.mem_append_right _ (mem_texts_of_readFile opened)

theorem mem_knownUnits_of_parseFile {path : String} {u : CompilationUnit} {after : Reader}
    (parsed : l.reader.parseFile d path = (.ok u, after)) : u ∈ l.knownUnits d := by
  rw [Reader.parseFile] at parsed
  split at parsed
  · cases parsed
  · split at parsed
    · next found =>
      cases parsed
      obtain ⟨kept, member, rfl⟩ := Cache.mem_of_getFor? found
      exact List.mem_append_left _ (List.mem_map.mpr ⟨_, member, rfl⟩)
    · split at parsed
      · cases parsed
      · next read =>
        split at parsed
        · cases parsed
        · next unit parsed' =>
          cases parsed
          exact mem_knownUnits_of_parse (mem_knownTexts_of_readText read rfl)
            (parse_of_parseFile parsed')

/-- **Declarations come from what is known.** -/
theorem mem_knownUnits_of_unitAt {place : SourcePlace} {u : CompilationUnit}
    (found : (l.unitAt d place).1 = .ok u) : u ∈ l.knownUnits d := by
  cases place with
  | file path =>
    rw [unitAt] at found
    exact mem_knownUnits_of_parseFile (Prod.ext found rfl)
  | entry archive name =>
    rw [unitAt] at found
    split at found
    · cases found
    · next text read =>
      exact mem_knownUnits_of_parse (List.mem_append_right _ (mem_texts_of_entryText read))
        (parse_of_parseFile found)

/-! ### The bound -/

/-- The supertypes of the types of a file, as its imports and package name them. -/
def supertypesIn (lib : Library) (u : CompilationUnit) : List String :=
  u.types.flatMap fun decl =>
    decl.spec.supertypes.map fun ref => (Scope.of u decl).qualifySupertype lib ref.qualifiedName

/-- All names that can become supertypes. -/
def namesIn (l : SourceLoader) (d : Disk) : List String :=
  (l.knownUnits d).flatMap (supertypesIn (l.library d))

theorem length_supertypesIn (lib : Library) (u : CompilationUnit) :
    (supertypesIn lib u).length = u.supertypeCount := by
  simp only [supertypesIn, List.length_flatMap, List.length_map, CompilationUnit.supertypeCount]

theorem total_append (front back : List Nat) : total (front ++ back) = total front + total back := by
  induction front with
  | nil => rw [List.nil_append, total, Nat.zero_add]
  | cons count front ih => rw [List.cons_append, total, total, ih, Nat.add_assoc]

theorem length_flatMap_eq_total {α β : Type} (f : α → List β) (items : List α) :
    (items.flatMap f).length = total (items.map fun item => (f item).length) := by
  induction items with
  | nil => rfl
  | cons item items ih => rw [List.flatMap_cons, List.length_append, ih, List.map_cons, total]

theorem total_parsed_le (known : List String) :
    total ((known.filterMap fun text => (parse text).toOption).map fun u => u.supertypeCount) ≤
      total (known.map String.length) := by
  induction known with
  | nil => exact Nat.le_refl 0
  | cons text known ih =>
    rw [List.map_cons, total]
    cases parsed : parse text with
    | error e =>
      rw [List.filterMap_cons_none (by rw [parsed]; rfl)]
      omega
    | ok u =>
      have here := supertypeCount_le_of_parse parsed
      rw [List.filterMap_cons_some (b := u) (by rw [parsed]; rfl), List.map_cons, total]
      omega

/-- **The bound exceeds the number of supertypes**, and allows for two more types. -/
theorem length_namesIn_le (l : SourceLoader) (d : Disk) : (l.namesIn d).length + 2 ≤ l.bound d := by
  have texts := total_parsed_le (l.knownTexts d)
  rw [namesIn, length_flatMap_eq_total]
  simp only [length_supertypesIn, knownUnits, knownTexts, bound, List.map_append, total_append,
    List.map_map, Function.comp_def] at texts ⊢
  omega

theorem length_namesIn_lt (l : SourceLoader) (d : Disk) : (l.namesIn d).length < l.bound d :=
  Nat.lt_of_succ_lt (l.length_namesIn_le d)

/-! ### Loading -/

/-- A type has a source that is read and that declares it under its simple name. -/
def Declares (l : SourceLoader) (d : Disk) (name : String) : Prop :=
  ∃ place u decl, (l.locate d name).1 = .ok (some place) ∧ (l.unitAt d place).1 = .ok u ∧
    u.findType? (TypeName.simpleName name) = some decl

theorem declaration_eq_ok {lib : Library} {name : String} {u : CompilationUnit} {decl : TypeDecl} :
    lib.declaration name = .ok (u, decl) ↔ ∃ place, lib.locate name = .ok (some place) ∧
      lib.unitAt place = .ok u ∧ u.findType? (TypeName.simpleName name) = some decl := by
  rw [Library.declaration]
  constructor
  · intro declared
    split at declared
    · cases declared
    · cases declared
    · next place located =>
      split at declared
      · cases declared
      · next u' read =>
        split at declared
        · cases declared
        · next found =>
          cases declared
          exact ⟨place, located, read, found⟩
  · rintro ⟨place, located, read, found⟩
    simp only [located, read, found]

theorem declares_iff {name : String} :
    l.Declares d name ↔ ∃ p, (l.library d).declaration name = .ok p := by
  constructor
  · rintro ⟨place, u, decl, located, read, found⟩
    exact ⟨(u, decl), declaration_eq_ok.mpr ⟨place, located, read, found⟩⟩
  · rintro ⟨⟨u, decl⟩, declared⟩
    obtain ⟨place, located, read, found⟩ := declaration_eq_ok.mp declared
    exact ⟨place, u, decl, located, read, found⟩

/-- Every supertype is among the names counted. -/
theorem mem_namesIn_of_extends {X S : String} (edge : (l.library d).Extends X S) :
    S ∈ l.namesIn d := by
  obtain ⟨u, decl, declared, ref, member, rfl, -⟩ := edge
  obtain ⟨place, -, read, found⟩ := declaration_eq_ok.mp declared
  exact List.mem_flatMap.mpr ⟨u, mem_knownUnits_of_unitAt read, List.mem_flatMap.mpr
    ⟨decl, List.mem_of_find?_eq_some found, List.mem_map.mpr ⟨ref, member, rfl⟩⟩⟩

theorem unvisited_start_lt_bound (l : SourceLoader) (d : Disk) (name : String) :
    Library.unvisited (l.namesIn d) (Trace.start.visit name) < l.bound d :=
  Nat.lt_of_le_of_lt (List.length_filter_le _ _) (l.length_namesIn_lt d)

/-- The search of a load is exact. -/
theorem searched_load (l : SourceLoader) (d : Disk) (name : String) : (l.library d).Searched name .start
    ((l.library d).loadWithin (l.bound d) name .start) :=
  Library.searched_loadWithin (fun _ _ => mem_namesIn_of_extends) (l.bound d) name .start
    List.not_mem_nil (l.unvisited_start_lt_bound d name)

/-- **The closure of supertypes is exact.** Loading succeeds exactly for the types whose own source is
found, is read and declares them. The supertypes then are the types that can be reached through one or
more declarations, in whatever way these share supertypes or run in cycles, and at their end the root
type. -/
theorem load_exact (l : SourceLoader) (d : Disk) (name : String) :
    match (l.load d name).1 with
    | .error _ => ¬l.Declares d name
    | .ok s => l.Declares d name ∧ s.supertypes.Nodup ∧ s.supertypes.getLast? = some rootType ∧
        ∀ S, S ∈ s.supertypes ↔ S = rootType ∨ TransGen (l.library d).Extends name S := by
  have searched := l.searched_load d name
  simp only [load]
  generalize (l.library d).loadWithin (l.bound d) name .start = outcome at searched ⊢
  obtain ⟨result, after⟩ := outcome
  have result_ := searched.result
  cases result with
  | error failure => exact fun declares => (declares_iff.mp declares).elim result_.1
  | ok s =>
    obtain ⟨declared, supertypes, nodup, last⟩ := result_
    refine ⟨declares_iff.mpr declared, nodup, last, fun S => (supertypes S).trans ?_⟩
    refine or_congr_right ⟨?_, fun path => ?_⟩
    · rintro ⟨X, member, new, edge⟩
      exact .tail' (searched.reached X member new) edge
    · have visited {X : String} (path : ReflTransGen (l.library d).Extends name X) :
          X ∈ after.visited := by
        induction path with
        | refl => exact searched.self
        | tail _ edge ih => exact searched.closed _ ih List.not_mem_nil _ edge
      obtain ⟨X, path, edge⟩ := TransGen.tail'_iff.mp path
      exact ⟨X, visited path, List.not_mem_nil, edge⟩

end SourceLoader

end Forwarder
