/-
**A source path that is left alone answers the same from load to load.** The loader remembers where types
were found, which entries archives have, and what was parsed. As long as the files that it may look at stay
as they are, all of this is what the disk held at the beginning, and so is what it finds afresh. When the output
directory and the roots of the source path are disjoint, no file that a run writes is one of these, and no
directory that it makes opens a way to one.

* `Disk.sources` — the library of a disk when nothing is remembered.
* `Disk.UndisturbedOn`, `Disk.Undisturbed` — the files that a source path may lead to are the same on another
  disk.
* `SourceLoader.FaithfulOn`, `SourceLoader.Faithful` — what is remembered is what the disk held.
* **`SourceLoader.FaithfulOn.load_eq`** — the surface of a type is the one that a loader would give that
  starts on the disk.
* `Disk.Apart` — neither of two paths names a place at or below the other.
* `IsUpfront` — an archive is named by a path that leads up before it leads down.
* **`Disk.Grown.undisturbed`** — what is written below the output directory leaves the source path alone.
-/

import Forwarder.Proofs.Disk.Growth
import Forwarder.Proofs.Files.Reader
import Forwarder.Proofs.Loading.Names
import Forwarder.Proofs.Loading.Retention

namespace Forwarder

open Source

namespace Cache

variable {α : Type}

theorem get?_set (cache : Cache α) (changed key : String) (value : α) :
    (cache.set changed value).get? key = if key = changed then some value else cache.get? key := by
  rw [get?, get?, set, item?_keep]
  split <;> rfl

end Cache

open SourceLoader (entryText relativePath)

/-! ### What the disk answers -/

namespace Disk

variable {d e : Disk} {roots : List String} {relative name : String} {place : SourcePlace}

/-- The names of the source entries of an archive. -/
def listingOf (d : Disk) (archive : String) : Except Failure (List String) :=
  match d.openArchive archive with
  | .error failure => .error failure
  | .ok entries =>
    .ok ((entries.filter fun (name, _) => Text.endsIn name ".java").map (entryName ·.1))

/-- The first place below the roots that holds a source. -/
def sourceBelow (d : Disk) (relative : String) : List String → Except Failure (Option SourcePlace)
  | [] => .ok none
  | root :: roots =>
    if isArchivePath root && d.isFile root then
      match d.listingOf root with
      | .error failure => .error failure
      | .ok names =>
        if names.contains relative then .ok (some (.entry root relative))
        else d.sourceBelow relative roots
    else if d.isFile (Path.join [root, relative]) then
      .ok (some (.file (Path.join [root, relative])))
    else d.sourceBelow relative roots

/-- The library of a source path of which nothing is remembered. -/
def sources (d : Disk) (roots : List String) : Library where
  locate name := d.sourceBelow (relativePath name) roots
  unitAt
    | .file path => d.unitOf path
    | .entry archive name =>
      match entryText d archive name with
      | .error failure => .error failure
      | .ok text => parseFile (SourcePlace.entry archive name).render text

/-- The places that a source path may lead to for a type, all of them files. -/
def MayHold (d : Disk) (roots : List String) (relative : String) : SourcePlace → Prop
  | .file path => (∃ root ∈ roots, path = Path.join [root, relative]) ∧ d.isFile path = true
  | .entry archive name => archive ∈ roots ∧ isArchivePath archive = true ∧
      d.isFile archive = true ∧ name = relative

theorem mayHold_of_sourceBelow (found : d.sourceBelow relative roots = .ok (some place)) :
    d.MayHold roots relative place := by
  induction roots with
  | nil => cases found
  | cons root roots ih =>
    have further (held : d.MayHold roots relative place) : d.MayHold (root :: roots) relative place := by
      cases place with
      | file path =>
        obtain ⟨⟨other, member, isPath⟩, isFile⟩ := held
        exact ⟨⟨other, List.mem_cons_of_mem _ member, isPath⟩, isFile⟩
      | entry archive name => exact held.imp_left (List.mem_cons_of_mem _)
    rw [sourceBelow] at found
    split at found
    · next isArchive =>
      rw [Bool.and_eq_true] at isArchive
      split at found
      · cases found
      · split at found
        · cases found
          exact ⟨List.mem_cons_self, isArchive.1, isArchive.2, rfl⟩
        · exact further (ih found)
    · split at found
      · next isFile =>
        cases found
        exact ⟨⟨root, List.mem_cons_self, rfl⟩, isFile⟩
      · exact further (ih found)

/-- Whatever a source path may lead to for some names is the same file on both disks, or no file on
either. -/
structure UndisturbedOn (inside : String → Prop) (d e : Disk) (roots : List String) : Prop where
  archives : ∀ root ∈ roots, isArchivePath root = true → d.SameAt e root
  files : ∀ root ∈ roots, ∀ name, inside name → d.SameAt e (Path.join [root, relativePath name])

/-- The same for all names that are looked for below the roots. -/
abbrev Undisturbed (d e : Disk) (roots : List String) : Prop :=
  UndisturbedOn IsRelativeName d e roots

theorem UndisturbedOn.refl {inside : String → Prop} (d : Disk) (roots : List String) :
    UndisturbedOn inside d d roots :=
  ⟨fun root _ _ => .refl d root, fun _ _ _ _ => .refl d _⟩

namespace SameAt

variable {archive : String}

theorem openArchive (same : d.SameAt e archive) (isFile : d.isFile archive = true) :
    e.openArchive archive = d.openArchive archive := by
  rw [Disk.openArchive, Disk.openArchive, same.openFile isFile]

theorem entryText (same : d.SameAt e archive) (isFile : d.isFile archive = true) (name : String) :
    entryText e archive name = entryText d archive name := by
  rw [SourceLoader.entryText, SourceLoader.entryText, same.openArchive isFile]

end SameAt

end Disk

/-! ### What is remembered -/

namespace SourceLoader

open Disk (UndisturbedOn)

variable {inside : String → Prop} {d e : Disk} {roots : List String} {l : SourceLoader} {name : String}
  {place : SourcePlace}

theorem relativePath_ne_empty (name : String) : relativePath name ≠ "" := by
  intro empty
  have chars := congrArg String.toList empty
  simp [relativePath] at chars

/-- What is remembered is what the disk held, as far as it is about some names. -/
structure FaithfulOn (inside : String → Prop) (d : Disk) (roots : List String) (l : SourceLoader) : Prop where
  isRoots : l.roots = roots
  reader : l.reader.Faithful d
  listings : ∀ archive names, l.listings.get? archive = some names → d.listingOf archive = .ok names
  found : ∀ name place, inside name → l.found.get? name = some place →
    d.sourceBelow (relativePath name) roots = .ok place

/-- The same for all names that are looked for below the roots. -/
abbrev Faithful (d : Disk) (roots : List String) (l : SourceLoader) : Prop :=
  FaithfulOn IsRelativeName d roots l

theorem faithful_sharing {reader : Reader} (faithful : reader.Faithful d) (roots : List String) :
    FaithfulOn inside d roots (sharing reader roots) where
  isRoots := rfl
  reader := faithful
  listings _ _ found := by cases found
  found _ _ _ found := by cases found

namespace FaithfulOn

/-- The entries of an archive. -/
theorem listing_eq (faithful : FaithfulOn inside d roots l) {archive : String} (same : d.SameAt e archive)
    (isFile : d.isFile archive = true) :
    (l.listing e archive).1 = d.listingOf archive ∧ FaithfulOn inside d roots (l.listing e archive).2 := by
  rw [listing]
  cases known : l.listings.get? archive with
  | some names => exact ⟨(faithful.listings archive names known).symm, faithful⟩
  | none =>
    dsimp only
    rw [same.openArchive isFile, Disk.listingOf]
    cases opened : d.openArchive archive with
    | error failure => exact ⟨rfl, faithful⟩
    | ok entries =>
      refine ⟨rfl, faithful.isRoots, faithful.reader, fun other names isKnown => ?_, faithful.found⟩
      rw [Cache.get?_set] at isKnown
      split at isKnown
      · next isArchive =>
        cases isKnown
        rw [isArchive, Disk.listingOf, opened]
      · exact faithful.listings other names isKnown

/-- Whatever is searched for, only listings are remembered. -/
theorem search (undisturbed : UndisturbedOn inside d e roots) (relative : String) (some_ : List String)
    (among : ∀ root ∈ some_, root ∈ roots) : ∀ l : SourceLoader, FaithfulOn inside d roots l →
      FaithfulOn inside d roots (l.search e relative some_).2 := by
  induction some_ with
  | nil => exact fun l faithful => faithful
  | cons root others ih =>
    intro l faithful
    obtain ⟨member, members⟩ := List.forall_mem_cons.mp among
    rw [SourceLoader.search]
    split
    · next isArchive =>
      obtain ⟨isPath, isFile⟩ := Bool.and_eq_true_iff.mp isArchive
      have same := undisturbed.archives root member isPath
      have still := (faithful.listing_eq same (same.isFile ▸ isFile)).2
      generalize l.listing e root = outcome at still ⊢
      obtain ⟨answer, l⟩ := outcome
      cases answer with
      | error failure => exact still
      | ok names =>
        dsimp only
        split
        · exact still
        · exact ih members l still
    · dsimp only
      split
      · exact faithful
      · exact ih members l faithful

/-- The answer of a search below some of the roots. -/
theorem search_eq (undisturbed : UndisturbedOn inside d e roots) {name : String}
    (within : inside name) (some_ : List String) (among : ∀ root ∈ some_, root ∈ roots) :
    ∀ l : SourceLoader, FaithfulOn inside d roots l →
      (l.search e (relativePath name) some_).1 = d.sourceBelow (relativePath name) some_ := by
  induction some_ with
  | nil => exact fun l faithful => rfl
  | cons root others ih =>
    intro l faithful
    obtain ⟨member, members⟩ := List.forall_mem_cons.mp among
    rw [SourceLoader.search, Disk.sourceBelow]
    have sameFile := undisturbed.files root member name within
    by_cases isArchive : (isArchivePath root && e.isFile root) = true
    · obtain ⟨isPath, isFile⟩ := Bool.and_eq_true_iff.mp isArchive
      have same := undisturbed.archives root member isPath
      rw [same.isFile] at isFile
      obtain ⟨answer, still⟩ := faithful.listing_eq same isFile
      rw [if_pos isArchive, if_pos (Bool.and_eq_true_iff.mpr ⟨isPath, isFile⟩), ← answer]
      generalize l.listing e root = outcome at still ⊢
      obtain ⟨answer, l⟩ := outcome
      cases answer with
      | error failure => rfl
      | ok names =>
        dsimp only
        split
        · rfl
        · exact ih members l still
    · have noArchive : ¬(isArchivePath root && d.isFile root) = true := by
        rw [Bool.and_eq_true] at isArchive ⊢
        exact fun both => isArchive ⟨both.1, (undisturbed.archives root member both.1).isFile ▸ both.2⟩
      dsimp only
      rw [if_neg isArchive, if_neg noArchive, sameFile.isFile]
      split
      · rfl
      · exact ih members l faithful

/-- The place of a type. -/
theorem locate_eq (faithful : FaithfulOn inside d roots l) (undisturbed : UndisturbedOn inside d e roots)
    {name : String} (within : inside name) :
    (l.locate e name).1 = (d.sources roots).locate name := by
  rw [SourceLoader.locate]
  cases known : l.found.get? name with
  | some place => exact (faithful.found name place within known).symm
  | none =>
    dsimp only
    have answer := search_eq undisturbed within roots (fun _ => id) l faithful
    have isAnswer : d.sourceBelow (relativePath name) roots = (d.sources roots).locate name := rfl
    rw [faithful.isRoots, ← isAnswer, ← answer]
    generalize l.search e (relativePath name) roots = outcome
    obtain ⟨failure | place, l⟩ := outcome <;> rfl

/-- Whatever is located, what is remembered stays what the disk held. -/
theorem locate (faithful : FaithfulOn inside d roots l) (undisturbed : UndisturbedOn inside d e roots)
    (name : String) :
    FaithfulOn inside d roots (l.locate e name).2 := by
  have answer (within : inside name) :=
    search_eq undisturbed within roots (fun _ => id) l faithful
  have still := search undisturbed (relativePath name) roots (fun _ => id) l faithful
  rw [SourceLoader.locate]
  cases known : l.found.get? name with
  | some place => exact faithful
  | none =>
    dsimp only
    rw [faithful.isRoots]
    generalize l.search e (relativePath name) roots = outcome at answer still ⊢
    obtain ⟨result, l⟩ := outcome
    cases result with
    | error failure => exact still
    | ok place =>
      refine ⟨still.isRoots, still.reader, still.listings, fun other place' within isKnown => ?_⟩
      rw [Cache.get?_set] at isKnown
      split at isKnown
      · next isName =>
        cases isKnown
        subst isName
        exact (answer within).symm
      · exact still.found other place' within isKnown

/-- The declarations at the place of a type. -/
theorem unitAt_eq (faithful : FaithfulOn inside d roots l) (undisturbed : UndisturbedOn inside d e roots)
    (within : inside name) (held : d.MayHold roots (relativePath name) place) :
    (l.unitAt e place).1 = (d.sources roots).unitAt place ∧
      FaithfulOn inside d roots (l.unitAt e place).2 := by
  cases place with
  | file path =>
    obtain ⟨⟨root, member, rfl⟩, isFile⟩ := held
    have same := undisturbed.files root member name within
    have isClean := Path.clean_join root (relativePath_ne_empty name)
    obtain ⟨answer, still⟩ := Reader.parseFile_eq faithful.reader (isClean.symm ▸ same.sameFile isFile)
    exact ⟨answer.trans (same.unitOf isFile isClean), faithful.isRoots, still, faithful.listings,
      faithful.found⟩
  | entry archive name =>
    obtain ⟨member, isArchive, isFile, rfl⟩ := held
    simp only [unitAt, Disk.sources, (undisturbed.archives archive member isArchive).entryText isFile]
    cases entryText d archive (relativePath name) with
    | error failure => exact ⟨rfl, faithful⟩
    | ok text => exact ⟨rfl, faithful⟩

/-- **The library of a load** is the one of the disk. -/
theorem agree (faithful : FaithfulOn inside d roots l) (undisturbed : UndisturbedOn inside d e roots) :
    Library.AgreeOn inside (l.library e) (d.sources roots) where
  locate name within := faithful.locate_eq undisturbed within
  declaration name within := by
    have located : (l.library e).locate name = (d.sources roots).locate name :=
      faithful.locate_eq undisturbed within
    rw [Library.declaration, Library.declaration, located]
    split
    · rfl
    · rfl
    · next place isPlace =>
      have same : (l.library e).unitAt place = (d.sources roots).unitAt place :=
        (faithful.unitAt_eq undisturbed within (Disk.mayHold_of_sourceBelow isPlace)).1
      rw [same]

theorem afterVisit (faithful : FaithfulOn inside d roots l) (undisturbed : UndisturbedOn inside d e roots)
    (within : inside name) : FaithfulOn inside d roots (afterVisit e l name) := by
  rw [SourceLoader.afterVisit]
  have answer := faithful.locate_eq undisturbed within
  have still := faithful.locate undisturbed name
  generalize l.locate e name = outcome at answer still ⊢
  obtain ⟨result, l⟩ := outcome
  rcases result with failure | _ | place
  · exact still
  · exact still
  · exact (still.unitAt_eq undisturbed within (Disk.mayHold_of_sourceBelow answer.symm)).2

/-- What a search has asked for and visited is remembered as it was. -/
theorem remember (faithful : FaithfulOn inside d roots l) (undisturbed : UndisturbedOn inside d e roots)
    {t : Trace} (within : ∀ X ∈ t.visited, inside X) : FaithfulOn inside d roots (l.remember e t) := by
  rw [SourceLoader.remember]
  refine List.foldlRecOn (motive := fun l : SourceLoader => FaithfulOn inside d roots l) _ _ ?_
    fun l still name member => still.afterVisit undisturbed (within name member)
  exact List.foldlRecOn (motive := fun l : SourceLoader => FaithfulOn inside d roots l) _ _ faithful
    fun l still name _ => still.locate undisturbed name

/-- **The surface of a type** is the one that a loader gives that starts on the disk. -/
theorem load_eq (closes : Library.ClosesAlways inside) (faithful : FaithfulOn inside d roots l)
    (genuine : l.reader.Genuine)
    (undisturbed : UndisturbedOn inside d e roots) (within : inside name) :
    (l.load e name).1 = ((ofRoots roots).load d name).1 ∧ FaithfulOn inside d roots (l.load e name).2 := by
  have closed := closes (l.library e) fun X u decl declared => parsed_of_declaration genuine declared
  have fresh : FaithfulOn inside d roots (ofRoots roots) := faithful_sharing (Reader.faithful_fresh d) roots
  have agree : Library.AgreeOn inside (l.library e) ((ofRoots roots).library d) := by
    have first := faithful.agree undisturbed
    have second := fresh.agree (.refl d roots)
    exact ⟨fun name within => (first.locate name within).trans (second.locate name within).symm,
      fun name within =>
        (first.declaration name within).trans (second.declaration name within).symm⟩
  constructor
  · have same := agree.loadWithin_eq closed (fun _ _ => mem_namesIn_of_extends)
      (fun _ _ => mem_namesIn_of_extends) (l.length_namesIn_lt e)
      ((ofRoots roots).length_namesIn_lt d) within .start
    rw [load, load, same]
  · have searched := l.searched_load e name
    exact faithful.remember undisturbed fun X visited =>
      closed.reached within (searched.reached X visited List.not_mem_nil)

end FaithfulOn

end SourceLoader

open SourceLoader (relativePath_ne_empty)

/-! ### Paths of sources -/

section Sources

variable {name : String}

/-- The path of a source is relative. -/
theorem isAbsolute_relativePath (relative : IsRelativeName name) :
    Path.isAbsolute (relativePath name) = false := by
  rw [Bool.eq_false_iff]
  intro absolute
  obtain ⟨rest, chars⟩ := Path.isAbsolute_iff.mp absolute
  rw [relativePath, String.toList_append, Path.slash_eq, Text.toList_join_split] at chars
  cases isName : name.toList with
  | nil =>
    rw [isName] at chars
    cases chars
  | cons c cs =>
    rw [IsRelativeName, isName] at relative
    obtain ⟨noPoint, noSlash⟩ := relative c rfl
    rw [isName, List.map_cons, if_neg noPoint] at chars
    exact noSlash (List.cons.inj chars).1

/-- The path of a source never leads up: it has one point only. -/
theorem down_relativePath (name : String) : ∀ c ∈ Path.written (relativePath name), c ≠ ".." := by
  rintro _ member rfl
  obtain ⟨part, isPart, same⟩ := List.mem_map.mp member
  have points := (Text.sublist_of_mem_pieces isPart).count_le '.'
  have none_ := List.count_eq_zero.mpr (Text.not_mem_join_split (by decide : '.' ≠ '/') name)
  have two : part = ['.', '.'] := by
    rw [← String.toList_ofList (l := part), same]
    rfl
  rw [relativePath, String.toList_append, List.count_append, Path.slash_eq, none_, two] at points
  exact absurd points (by decide)

end Sources

/-! ### Disjoint places -/

/-- The places that two paths name are disjoint: neither is the other or above it. -/
def Disk.Apart (d : Disk) (path other : String) : Prop :=
  ¬d.spot path <+: d.spot other ∧ ¬d.spot other <+: d.spot path

instance (d : Disk) (path other : String) : Decidable (d.Apart path other) :=
  inferInstanceAs (Decidable (_ ∧ _))

/-- If the path is one of an archive, its parent components stand at its start. -/
def IsUpfront (root : String) : Prop :=
  isArchivePath root = true → Path.Direct (Path.written root)

instance (root : String) : Decidable (IsUpfront root) :=
  inferInstanceAs (Decidable (_ → _))

namespace Disk

variable {d e : Disk} {out root : String} {roots : List String}

/-- What is below the one place is no file that is written below the other. -/
theorem Apart.not_isUnitPlace (apart : d.Apart out root) {place : Place}
    (below : d.spot root <+: place) : ¬IsUnitPlace (d.spot out) place := by
  rintro ⟨front, name, rfl, -⟩
  rw [List.append_assoc] at below
  rcases List.prefix_or_prefix_of_prefix below (List.prefix_append _ _) with above | above
  · exact apart.2 above
  · exact apart.1 above

/-- **Writing below the output directory** leaves the source path alone. -/
theorem Grown.undisturbed (grown : Grown (d.spot out) d e) (tree : d.IsTree)
    (apart : ∀ root ∈ roots, d.Apart out root) (upfront : ∀ root ∈ roots, IsUpfront root) :
    d.Undisturbed e roots where
  archives root member isArchive :=
    grown.sameAt tree (upfront root member isArchive)
      ((apart root member).not_isUnitPlace (List.prefix_refl _))
  files root member name relative := by
    have some_ := relativePath_ne_empty name
    refine grown.sameAt tree ?_ ((apart root member).not_isUnitPlace ?_)
    · rw [← Path.clean_join root some_]
      exact Path.direct_clean _
    · rw [d.spot_join root (isAbsolute_relativePath relative) some_]
      exact prefix_goal (down_relativePath name)

end Disk

end Forwarder
