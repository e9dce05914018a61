/-
**What a loader answers does not depend on what it was asked before.** It remembers surfaces, the places of
types, the names in archives, parsed files and the descriptions of all directories. As long as the files stay
as they are, every answer is the one of a loader that was asked for nothing yet. That answer is determined by
the files alone: the first thing that is wrong with the descriptors, or else the first descriptor of the type,
or else the source in the first root that has one.

* `collected` — lists are gathered until something fails.
* `DescriptorLoader.Describes`, `Misdescribes` — what directories describe, or what is wrong with them first.
* `Disk.Offers`, `Disk.Breaks`, `Disk.LeadsTo` — what a root holds, and the first root that holds a source.
* `TypeLoader.Answers` — the answer of a loader to one name.
* `TypeLoader.answers_iff` — a loader that was asked for nothing gives this answer and no other.
* **`TypeLoader.answersTo_eq`** — a loader gives these answers to all names that it is asked for.
* `TypeLoader.broken_archive_answers` — an archive that cannot be opened hides the sources behind it.
-/

import Forwarder.Proofs.Decoration.Exact
import Forwarder.Proofs.Loading.Described

namespace Forwarder

open Source (CompilationUnit TypeDecl)

/-! ### Gathering -/

section Collected

variable {α β : Type} {f : α → Except Failure (List β)} {items : List α}

/-- The results of all items one after the other, or the first failure. -/
def collected (f : α → Except Failure (List β)) : List α → Except Failure (List β)
  | [] => .ok []
  | item :: items =>
    match f item with
    | .error failure => .error failure
    | .ok found =>
      match collected f items with
      | .error failure => .error failure
      | .ok more => .ok (found ++ more)

theorem collected_eq_ok {found : List β} : collected f items = .ok found ↔
    ∃ founds, List.Forall₂ (fun item found => f item = .ok found) items founds ∧ found = founds.flatten := by
  induction items generalizing found with
  | nil =>
    constructor
    · intro isFound
      cases isFound
      exact ⟨[], .nil, rfl⟩
    · rintro ⟨_, ⟨⟩, rfl⟩
      rfl
  | cons item items ih =>
    constructor
    · intro isFound
      rw [collected] at isFound
      split at isFound
      · cases isFound
      next first isFirst =>
      split at isFound
      · cases isFound
      next more areMore =>
      cases isFound
      obtain ⟨founds, each, rfl⟩ := ih.mp areMore
      exact ⟨first :: founds, .cons isFirst each, rfl⟩
    · rintro ⟨_, each, rfl⟩
      cases each with
      | cons isFirst others =>
        rw [collected, isFirst, ih.mpr ⟨_, others, rfl⟩]
        rfl

theorem collected_eq_error {failure : Failure} : collected f items = .error failure ↔
    ∃ item, IsFirst (fun item => ¬∃ found, f item = .ok found) items item ∧ f item = .error failure := by
  induction items with
  | nil =>
    constructor
    · intro failed
      cases failed
    · rintro ⟨item, first, -⟩
      cases first.mem
  | cons item items ih =>
    cases result : f item with
    | error other =>
      have noneFound : ¬∃ found, f item = .ok found := by
        rintro ⟨found, isFound⟩
        rw [result] at isFound
        cases isFound
      rw [collected, result]
      constructor
      · intro failed
        cases failed
        exact ⟨item, ⟨noneFound, [], items, rfl, List.forall_mem_nil _⟩, result⟩
      · rintro ⟨other', ⟨-, before, after, split, noneBefore⟩, failed⟩
        cases before with
        | nil =>
          cases split
          rw [result] at failed
          exact failed
        | cons first before =>
          cases split
          exact absurd noneFound (noneBefore item List.mem_cons_self)
    | ok found =>
      have some_ : ¬¬∃ found, f item = .ok found := not_not_intro ⟨found, result⟩
      have step : collected f (item :: items) = .error failure ↔ collected f items = .error failure := by
        rw [collected, result]
        dsimp only
        cases collected f items with
        | error failure => exact Iff.rfl
        | ok more => exact ⟨fun failed => (by cases failed), fun failed => (by cases failed)⟩
      rw [step, ih]
      refine exists_congr fun other => and_congr_left fun _ => ?_
      constructor
      · rintro ⟨here, before, after, rfl, noneBefore⟩
        exact ⟨here, item :: before, after, rfl, List.forall_mem_cons.mpr ⟨some_, noneBefore⟩⟩
      · rintro ⟨here, before, after, split, noneBefore⟩
        cases before with
        | nil =>
          cases split
          exact absurd here some_
        | cons first before =>
          cases split
          exact ⟨here, before, after, rfl, (List.forall_mem_cons.mp noneBefore).2⟩

end Collected

/-! ### Descriptors -/

namespace DescriptorLoader

variable {d : Disk} {dir path : String} {dirs paths : List String} {found : List Surface} {failure : Failure}

/-- The directory holds these descriptor files, in order of their paths. -/
structure Lists (d : Disk) (dir : String) (paths : List String) : Prop where
  isDir : d.isDir dir = true
  ordered : paths.Pairwise (· ≤ ·)
  complete : paths.Perm ((namesOf d (d.spot dir)).map fun name => Path.join [dir, name])

theorem lists_iff : Lists d dir paths ↔ filesIn d dir = .ok paths := by
  rw [filesIn_eq_ok]
  constructor
  · rintro ⟨isDir, ordered, complete⟩
    obtain ⟨place, isPlace, isThere⟩ := Disk.isDir_iff.mp isDir
    obtain rfl := Disk.spot_of_place isPlace
    refine ⟨isPlace, isThere, ?_⟩
    exact (complete.trans (List.mergeSort_perm _ _).symm).eq_of_pairwise' ordered (Text.pairwise_sorted _)
  · rintro ⟨isPlace, isThere, rfl⟩
    exact ⟨Disk.isDir_iff.mpr ⟨_, isPlace, isThere⟩, Text.pairwise_sorted _, List.mergeSort_perm _ _⟩

/-- Why a directory cannot be listed. -/
def unlisted (d : Disk) (dir : String) : Failure :=
  let refusal := match d.place dir with
    | .error refusal => refusal
    | .ok _ => .notDirectory
  .fileSystem "read descriptor directory" dir (some (.system (Disk.fault "open" dir refusal)))

theorem filesIn_eq_error : filesIn d dir = .error failure ↔ d.isDir dir = false ∧ failure = unlisted d dir := by
  rw [← Bool.not_eq_true, Disk.isDir_iff, filesIn, unlisted]
  cases isPlace : d.place dir with
  | error refusal =>
    have noPlace : ¬∃ place, Except.error refusal = Except.ok place ∧ d.isDirAt place = true := by
      rintro ⟨place, other, -⟩
      cases other
    rw [and_iff_right noPlace]
    exact ⟨fun same => (Except.error.inj same).symm, fun same => congrArg Except.error same.symm⟩
  | ok place =>
    have isOnly : (∃ other, Except.ok (ε := Refusal) place = .ok other ∧ d.isDirAt other = true) ↔
        d.isDirAt place = true := by
      constructor
      · rintro ⟨other, same, isThere⟩
        cases same
        exact isThere
      · exact fun isThere => ⟨place, rfl, isThere⟩
    rw [isOnly]
    dsimp only
    split_ifs with isThere
    · exact ⟨fun other => (by cases other), fun absent => absurd isThere absent.1⟩
    · rw [and_iff_right isThere]
      exact ⟨fun same => (Except.error.inj same).symm, fun same => congrArg Except.error same.symm⟩

/-- The file holds descriptors, of these types in this order. -/
def Documents (d : Disk) (path : String) (found : List Surface) : Prop :=
  ∃ text, d.readFile path = .ok text ∧ Descriptor.decode text = .ok found

/-- What is wrong with a descriptor file: it cannot be read, or one of its documents is no descriptor. -/
inductive IsSpoilt (d : Disk) (path : String) : Failure → Prop
  | unread {fault : SystemFault} (refused : d.readFile path = .error fault) :
      IsSpoilt d path (.fileSystem "open descriptor" path (some (.system fault)))
  | undecoded {text : String} {fault : Descriptor.Fault} (read : d.readFile path = .ok text)
      (isFault : Descriptor.decode text = .error fault) :
      IsSpoilt d path (.caused .configuration
        ("invalid type descriptor " ++ path ++ ": " ++ fault.message) (some (.plain fault.message)))

theorem documents_iff : Documents d path found ↔ surfacesOf d path = .ok found := by
  rw [Documents, surfacesOf]
  cases d.readFile path with
  | error fault => simp
  | ok text => cases decoded : Descriptor.decode text <;> simp [decoded]

theorem isSpoilt_iff : IsSpoilt d path failure ↔ surfacesOf d path = .error failure := by
  rw [surfacesOf]
  constructor
  · rintro (refused | ⟨read, isFault⟩)
    · rw [refused]
    · rw [read]
      dsimp only
      rw [isFault]
  · intro failed
    split at failed
    · next fault refused =>
      cases failed
      exact .unread refused
    · next text read =>
      split at failed
      · cases failed
      · next fault isFault =>
        cases failed
        exact .undecoded read isFault

/-- The surfaces of one directory. -/
def surfacesUnder (d : Disk) (dir : String) : Except Failure (List Surface) :=
  (filesIn d dir).bind (surfacesOfAll d)

/-- The descriptor files in the directory hold these types, in order of their paths. -/
def Holds (d : Disk) (dir : String) (found : List Surface) : Prop :=
  ∃ paths founds, Lists d dir paths ∧ List.Forall₂ (Documents d) paths founds ∧ found = founds.flatten

/-- What is wrong with a directory: it cannot be listed, or the first bad file in it. -/
inductive IsSpoiltUnder (d : Disk) (dir : String) : Failure → Prop
  | unlisted (noDir : d.isDir dir = false) : IsSpoiltUnder d dir (unlisted d dir)
  | spoilt {paths : List String} {path : String} {failure : Failure} (lists : Lists d dir paths)
      (first : IsFirst (fun path => ¬∃ found, Documents d path found) paths path)
      (isSpoilt : IsSpoilt d path failure) : IsSpoiltUnder d dir failure

theorem surfacesOfAll_eq_collected (d : Disk) (paths : List String) :
    surfacesOfAll d paths = collected (surfacesOf d) paths := by
  induction paths with
  | nil => rfl
  | cons path paths ih =>
    rw [surfacesOfAll, collected, ih]
    cases surfacesOf d path with
    | error failure => rfl
    | ok found => cases collected (surfacesOf d) paths <;> rfl

theorem holds_iff : Holds d dir found ↔ surfacesUnder d dir = .ok found := by
  have sameFiles : Documents d = fun path found => surfacesOf d path = .ok found :=
    funext fun _ => funext fun _ => propext documents_iff
  rw [Holds, sameFiles, surfacesUnder]
  constructor
  · rintro ⟨paths, founds, lists, each, rfl⟩
    rw [lists_iff.mp lists]
    exact (surfacesOfAll_eq_collected d paths).trans (collected_eq_ok.mpr ⟨founds, each, rfl⟩)
  · intro held
    cases isListed : filesIn d dir with
    | error failure =>
      rw [isListed] at held
      cases held
    | ok paths =>
      rw [isListed] at held
      obtain ⟨founds, each, rfl⟩ := collected_eq_ok.mp ((surfacesOfAll_eq_collected d paths).symm.trans held)
      exact ⟨paths, founds, lists_iff.mpr isListed, each, rfl⟩

theorem isSpoiltUnder_iff : IsSpoiltUnder d dir failure ↔ surfacesUnder d dir = .error failure := by
  rw [surfacesUnder]
  constructor
  · rintro (noDir | ⟨lists, first, isSpoilt⟩)
    · rw [filesIn_eq_error.mpr ⟨noDir, rfl⟩]
      rfl
    · rw [lists_iff.mp lists]
      refine (surfacesOfAll_eq_collected d _).trans (collected_eq_error.mpr ⟨_, ?_, isSpoilt_iff.mp isSpoilt⟩)
      simpa only [documents_iff] using first
  · intro failed
    cases isListed : filesIn d dir with
    | error other =>
      rw [isListed] at failed
      obtain ⟨noDir, rfl⟩ := filesIn_eq_error.mp isListed
      cases failed
      exact .unlisted noDir
    | ok paths =>
      rw [isListed] at failed
      obtain ⟨path, first, isFailed⟩ :=
        collected_eq_error.mp ((surfacesOfAll_eq_collected d paths).symm.trans failed)
      have firstSpoilt : IsFirst (fun path => ¬∃ found, Documents d path found) paths path := by
        simpa only [documents_iff] using first
      exact .spoilt (lists_iff.mpr isListed) firstSpoilt (isSpoilt_iff.mpr isFailed)

/-- The directories describe these types: directory after directory, in each file after file, and in each
of these document after document. -/
def Describes (d : Disk) (dirs : List String) (found : List Surface) : Prop :=
  ∃ founds, List.Forall₂ (Holds d) dirs founds ∧ found = founds.flatten

/-- What is wrong with the first directory with which anything is wrong. -/
def Misdescribes (d : Disk) (dirs : List String) (failure : Failure) : Prop :=
  ∃ dir, IsFirst (fun dir => ¬∃ found, Holds d dir found) dirs dir ∧ IsSpoiltUnder d dir failure

theorem surfacesIn_eq_collected (d : Disk) (dirs : List String) :
    surfacesIn d dirs = collected (surfacesUnder d) dirs := by
  induction dirs with
  | nil => rfl
  | cons dir dirs ih =>
    rw [surfacesIn, collected, ih, surfacesUnder]
    cases filesIn d dir with
    | error failure => rfl
    | ok paths =>
      simp only [Except.bind]
      cases surfacesOfAll d paths with
      | error failure => rfl
      | ok found => cases collected (surfacesUnder d) dirs <;> rfl

theorem describes_iff : Describes d dirs found ↔ surfacesIn d dirs = .ok found := by
  have sameDirs : Holds d = fun dir found => surfacesUnder d dir = .ok found :=
    funext fun _ => funext fun _ => propext holds_iff
  rw [surfacesIn_eq_collected, collected_eq_ok, Describes, sameDirs]

theorem misdescribes_iff : Misdescribes d dirs failure ↔ surfacesIn d dirs = .error failure := by
  rw [surfacesIn_eq_collected, collected_eq_error, Misdescribes]
  simp only [holds_iff, isSpoiltUnder_iff]

end DescriptorLoader

/-! ### The source path -/

namespace Disk

open SourceLoader (relativePath)

variable {d : Disk} {relative root name : String} {roots : List String} {failure : Failure}
  {answer : Except Failure (Option SourcePlace)}

/-- What a root holds of a source: its place, or nothing. An archive that cannot be opened says neither. -/
def offer (d : Disk) (relative root : String) : Except Failure (Option SourcePlace) :=
  if isArchivePath root && d.isFile root then
    (d.listingOf root).map fun names => if relative ∈ names then some (.entry root relative) else none
  else
    .ok (if d.isFile (Path.join [root, relative]) then some (.file (Path.join [root, relative])) else none)

/-- The first root that says anything else than that it does not hold the source decides. -/
inductive Leads (d : Disk) (relative : String) (roots : List String) :
    Except Failure (Option SourcePlace) → Prop
  | nowhere (nothing : ∀ root ∈ roots, d.offer relative root = .ok none) : Leads d relative roots (.ok none)
  | first {root : String} (decides : IsFirst (fun root => d.offer relative root ≠ .ok none) roots root) :
      Leads d relative roots (d.offer relative root)

/-- A root that does not hold the source is passed. -/
theorem sourceBelow_of_nothing (nothing : d.offer relative root = .ok none) (roots : List String) :
    d.sourceBelow relative (root :: roots) = d.sourceBelow relative roots := by
  rw [offer] at nothing
  rw [sourceBelow]
  split_ifs at nothing ⊢ with isArchive isFile
  · cases listed : d.listingOf root with
    | error failure =>
      rw [listed] at nothing
      cases nothing
    | ok names =>
      rw [listed] at nothing
      have noEntry : relative ∉ names := by
        intro isEntry
        rw [Except.map, if_pos isEntry] at nothing
        cases nothing
      dsimp only
      rw [if_neg (mt List.contains_iff_mem.mp noEntry)]
  · cases nothing
  · rfl

/-- Any other root decides. -/
theorem sourceBelow_of_decides (decides : d.offer relative root ≠ .ok none) (roots : List String) :
    d.sourceBelow relative (root :: roots) = d.offer relative root := by
  rw [offer] at decides ⊢
  rw [sourceBelow]
  split_ifs at decides ⊢ with isArchive isFile
  · cases listed : d.listingOf root with
    | error failure => rfl
    | ok names =>
      rw [listed] at decides
      have isEntry : relative ∈ names := by
        by_contra noEntry
        rw [Except.map, if_neg noEntry] at decides
        exact decides rfl
      dsimp only [Except.map]
      rw [if_pos isEntry, if_pos (List.contains_iff_mem.mpr isEntry)]
  · rfl
  · exact absurd rfl decides

theorem leads_sourceBelow (d : Disk) (relative : String) (roots : List String) :
    d.Leads relative roots (d.sourceBelow relative roots) := by
  induction roots with
  | nil => exact .nowhere (List.forall_mem_nil _)
  | cons root roots ih =>
    by_cases nothing : d.offer relative root = .ok none
    · rw [sourceBelow_of_nothing nothing]
      generalize d.sourceBelow relative roots = answer at ih ⊢
      cases ih with
      | nowhere others => exact .nowhere (List.forall_mem_cons.mpr ⟨nothing, others⟩)
      | first decides =>
        obtain ⟨here, before, after, rfl, passed⟩ := decides
        exact .first ⟨here, root :: before, after, rfl, List.forall_mem_cons.mpr ⟨not_not_intro nothing, passed⟩⟩
    · rw [sourceBelow_of_decides nothing]
      exact .first ⟨nothing, [], roots, rfl, List.forall_mem_nil _⟩

theorem sourceBelow_of_leads (leads : d.Leads relative roots answer) :
    d.sourceBelow relative roots = answer := by
  induction roots with
  | nil =>
    cases leads with
    | nowhere => rfl
    | first decides => cases decides.mem
  | cons root roots ih =>
    cases leads with
    | nowhere nothing =>
      obtain ⟨here, others⟩ := List.forall_mem_cons.mp nothing
      rw [sourceBelow_of_nothing here, ih (.nowhere others)]
    | first decides =>
      obtain ⟨here, before, after, split, passed⟩ := decides
      cases before with
      | nil =>
        cases split
        exact sourceBelow_of_decides here _
      | cons other before =>
        cases split
        obtain ⟨first, others⟩ := List.forall_mem_cons.mp passed
        rw [sourceBelow_of_nothing (not_not.mp first), ih (.first ⟨here, before, after, rfl, others⟩)]

/-- **The first root that holds a source.** -/
theorem leads_iff : d.Leads relative roots answer ↔ d.sourceBelow relative roots = answer :=
  ⟨sourceBelow_of_leads, fun same => same ▸ leads_sourceBelow d relative roots⟩

/-- The source path declares the type: where the roots lead to, there is a file of the language with a
declaration of that name. -/
def Declares (d : Disk) (roots : List String) (name : String) : Prop :=
  ∃ place u decl, d.Leads (relativePath name) roots (.ok (some place)) ∧
    (d.sources roots).unitAt place = .ok u ∧ u.findType? (TypeName.simpleName name) = some decl

/-- Why the source path declares no such type. -/
inductive Lacks (d : Disk) (roots : List String) (name : String) : Failure → Prop
  | absent (leads : d.Leads (relativePath name) roots (.ok none)) : Lacks d roots name (.typeNotFound name none)
  | broken {failure : Failure} (leads : d.Leads (relativePath name) roots (.error failure)) :
      Lacks d roots name (.typeNotFound name (some failure))
  | unread {place : SourcePlace} {failure : Failure}
      (leads : d.Leads (relativePath name) roots (.ok (some place)))
      (isUnread : (d.sources roots).unitAt place = .error failure) :
      Lacks d roots name ((Failure.typeNotFound name (some failure)).withContext "source" (.text place.render))
  | undeclared {place : SourcePlace} {u : CompilationUnit}
      (leads : d.Leads (relativePath name) roots (.ok (some place)))
      (isUnit : (d.sources roots).unitAt place = .ok u)
      (isUndeclared : u.findType? (TypeName.simpleName name) = none) :
      Lacks d roots name ((Failure.typeNotFound name none).withContext "source" (.text place.render))

theorem declares_iff : d.Declares roots name ↔ ∃ p, (d.sources roots).declaration name = .ok p := by
  constructor
  · rintro ⟨place, u, decl, leads, isUnit, isDeclared⟩
    exact ⟨(u, decl), SourceLoader.declaration_eq_ok.mpr ⟨place, leads_iff.mp leads, isUnit, isDeclared⟩⟩
  · rintro ⟨⟨u, decl⟩, declared⟩
    obtain ⟨place, located, isUnit, isDeclared⟩ := SourceLoader.declaration_eq_ok.mp declared
    exact ⟨place, u, decl, leads_iff.mpr located, isUnit, isDeclared⟩

theorem lacks_iff : d.Lacks roots name failure ↔ (d.sources roots).declaration name = .error failure := by
  have isLocated : (d.sources roots).locate name = d.sourceBelow (relativePath name) roots := rfl
  rw [Library.declaration, isLocated]
  constructor
  · rintro (leads | leads | ⟨leads, isUnread⟩ | ⟨leads, isUnit, isUndeclared⟩)
    · rw [leads_iff.mp leads]
    · rw [leads_iff.mp leads]
    · rw [leads_iff.mp leads]
      dsimp only
      rw [isUnread]
    · rw [leads_iff.mp leads]
      dsimp only
      rw [isUnit]
      dsimp only
      rw [isUndeclared]
  · intro failed
    have leads := leads_sourceBelow d (relativePath name) roots
    generalize d.sourceBelow (relativePath name) roots = answer at failed leads
    rcases answer with failure | _ | place
    · cases failed
      exact .broken leads
    · cases failed
      exact .absent leads
    · dsimp only at failed
      split at failed
      · next isUnread =>
        cases failed
        exact .unread leads isUnread
      · next isUnit =>
        split at failed
        · next isUndeclared =>
          cases failed
          exact .undeclared leads isUnit isUndeclared
        · cases failed

/-- Whatever is lacking is a type that is not found. -/
theorem Lacks.unresolved (lacks : d.Lacks roots name failure) : failure.hasCode .unresolved = true := by
  cases lacks <;> rfl

end Disk

namespace SourceLoader

variable {d : Disk} {roots : List String} {name : String} {failure : Failure}

/-- A loader that was asked for nothing looks at the disk as it is. -/
theorem declaration_ofRoots (d : Disk) (roots : List String) (name : String) :
    ((ofRoots roots).library d).declaration name = (d.sources roots).declaration name := by
  have faithful : FaithfulOn (fun _ => True) d roots (ofRoots roots) :=
    faithful_sharing (Reader.faithful_fresh d) roots
  exact (faithful.agree (.refl d roots)).declaration name trivial

theorem load_of_lacks (lacks : d.Lacks roots name failure) :
    ((ofRoots roots).load d name).1 = .error failure := by
  have undeclared := (declaration_ofRoots d roots name).trans (Disk.lacks_iff.mp lacks)
  unfold load bound
  rw [Library.loadWithin, undeclared]

theorem load_of_declares (declares : d.Declares roots name) :
    ∃ s, ((ofRoots roots).load d name).1 = .ok s := by
  obtain ⟨p, declared⟩ := Disk.declares_iff.mp declares
  exact load_of_declaration ((declaration_ofRoots d roots name).trans declared)

end SourceLoader

/-! ### Answers -/

namespace TypeLoader

variable {d : Disk} {dirs roots : List String} {name : String} {found : List Surface} {s : Surface}
  {failure : Failure} {result : Except Failure Surface}

/-- The answer of a loader to the name of a type. -/
inductive Answers (d : Disk) (dirs roots : List String) (name : String) : Except Failure Surface → Prop
  /-- Something is wrong with the descriptors. -/
  | misdescribed {failure : Failure} (isWrong : DescriptorLoader.Misdescribes d dirs failure) :
      Answers d dirs roots name (.error failure)
  /-- The first descriptor of the type counts. -/
  | described {found : List Surface} {s : Surface} (describes : DescriptorLoader.Describes d dirs found)
      (first : IsFirst (·.name = name) found s) : Answers d dirs roots name (.ok s)
  /-- Without a descriptor, the source path counts. -/
  | declared {found : List Surface} {s : Surface} (describes : DescriptorLoader.Describes d dirs found)
      (others : ∀ s ∈ found, s.name ≠ name) (declares : d.Declares roots name)
      (loaded : ((SourceLoader.ofRoots roots).load d name).1 = .ok s) : Answers d dirs roots name (.ok s)
  /-- Neither of them has the type. -/
  | unknown {found : List Surface} {failure : Failure} (describes : DescriptorLoader.Describes d dirs found)
      (others : ∀ s ∈ found, s.name ≠ name) (lacks : d.Lacks roots name failure) :
      Answers d dirs roots name (.error (.typeNotFound name (some failure)))

/-- There is always an answer. -/
theorem exists_answers (d : Disk) (dirs roots : List String) (name : String) :
    ∃ result, Answers d dirs roots name result := by
  cases isDescribed : DescriptorLoader.surfacesIn d dirs with
  | error failure => exact ⟨_, .misdescribed (DescriptorLoader.misdescribes_iff.mpr isDescribed)⟩
  | ok found =>
    have describes := DescriptorLoader.describes_iff.mpr isDescribed
    have decides (s : Surface) : (s.name == name) = true ↔ s.name = name := beq_iff_eq
    cases first : found.find? (·.name == name) with
    | some s => exact ⟨_, .described describes ((find?_eq_some_iff_isFirst decides).mp first)⟩
    | none =>
      have others := (find?_eq_none_iff decides).mp first
      cases declared : (d.sources roots).declaration name with
      | ok p =>
        have declares := Disk.declares_iff.mpr ⟨p, declared⟩
        obtain ⟨s, loaded⟩ := SourceLoader.load_of_declares declares
        exact ⟨_, .declared describes others declares loaded⟩
      | error failure => exact ⟨_, .unknown describes others (Disk.lacks_iff.mpr declared)⟩

/-- The last loader of a chain has the source path. -/
theorem loadFirst_sources (d : Disk) (name : String) (last : Option Failure) (l : SourceLoader) :
    (loadFirst d false name last [.sources l]).1 =
      match (l.load d name).1 with
      | .ok s => .ok s
      | .error failure =>
        .error (if failure.hasCode .unresolved then .typeNotFound name (some failure) else failure) := by
  rw [loadFirst, load, if_neg Bool.false_ne_true]
  generalize l.load d name = outcome
  obtain ⟨failure | s, l⟩ := outcome
  · dsimp only
    split_ifs <;> rfl
  · rfl

/-- What is described first is found first. -/
theorem atFirst_of_described (describes : DescriptorLoader.Describes d dirs found) (first : IsFirst (·.name = name) found s)
    (roots : List String) : atFirst d dirs roots name = .ok s := by
  have some_ : ¬dirs.isEmpty = true := fun none_ => by
    rw [List.isEmpty_iff.mp none_] at describes
    obtain ⟨_, each, rfl⟩ := describes
    cases each
    cases first.mem
  have isFound : ((DescriptorLoader.ofDirs dirs).load d name).1 = .ok s := by
    have isDescribed : (DescriptorLoader.ofDirs dirs).described d = .ok found :=
      DescriptorLoader.describes_iff.mp describes
    have isFirst : found.find? (·.name == name) = some s :=
      (find?_eq_some_iff_isFirst fun _ => beq_iff_eq).mpr first
    rw [DescriptorLoader.load, isDescribed]
    dsimp only
    rw [isFirst]
  rw [atFirst, described, if_neg some_]
  simp only [List.cons_append, List.nil_append]
  rw [loadFirst, load, if_neg Bool.false_ne_true]
  generalize (DescriptorLoader.ofDirs dirs).load d name = outcome at isFound ⊢
  obtain ⟨result, l⟩ := outcome
  obtain rfl : result = .ok s := isFound
  rfl

/-- What is not described is looked for on the source path. -/
theorem atFirst_of_undescribed (describes : DescriptorLoader.Describes d dirs found) (others : ∀ s ∈ found, s.name ≠ name)
    (roots : List String) :
    ∃ last, atFirst d dirs roots name = (loadFirst d false name last [.sources (.ofRoots roots)]).1 := by
  rw [atFirst, described]
  split_ifs with none_
  · exact ⟨none, rfl⟩
  · have isUnfound : ((DescriptorLoader.ofDirs dirs).load d name).1 = .error (.typeNotFound name none) := by
      have isDescribed : (DescriptorLoader.ofDirs dirs).described d = .ok found :=
        DescriptorLoader.describes_iff.mp describes
      have noFirst : found.find? (·.name == name) = none := (find?_eq_none_iff fun _ => beq_iff_eq).mpr others
      rw [DescriptorLoader.load, isDescribed]
      dsimp only
      rw [noFirst]
    refine ⟨some (.typeNotFound name none), ?_⟩
    simp only [List.cons_append, List.nil_append]
    rw [loadFirst, load, if_neg Bool.false_ne_true]
    generalize (DescriptorLoader.ofDirs dirs).load d name = outcome at isUnfound ⊢
    obtain ⟨result, l⟩ := outcome
    obtain rfl : result = .error (.typeNotFound name none) := isUnfound
    rfl

theorem atFirst_of_answers (answers : Answers d dirs roots name result) :
    atFirst d dirs roots name = result := by
  cases answers with
  | misdescribed isWrong => exact atFirst_of_misdescribed (DescriptorLoader.misdescribes_iff.mp isWrong) roots name
  | described describes first => exact atFirst_of_described describes first roots
  | declared describes others declares loaded =>
    obtain ⟨last, isLast⟩ := atFirst_of_undescribed describes others roots
    rw [isLast, loadFirst_sources, loaded]
  | unknown describes others lacks =>
    obtain ⟨last, isLast⟩ := atFirst_of_undescribed describes others roots
    rw [isLast, loadFirst_sources, SourceLoader.load_of_lacks lacks]
    dsimp only
    rw [if_pos lacks.unresolved]

/-- **The answer of a loader that was asked for nothing yet**, and no other. -/
theorem answers_iff : Answers d dirs roots name result ↔
    ((ofPaths dirs roots).load d false name).1 = result := by
  rw [load_ofPaths]
  refine ⟨atFirst_of_answers, ?_⟩
  rintro rfl
  obtain ⟨result, answers⟩ := exists_answers d dirs roots name
  rwa [atFirst_of_answers answers]

/-! ### Any number of names -/

/-- The answers to the names, one after the other. -/
def answersTo (d : Disk) : TypeLoader → List String → List (Except Failure Surface)
  | _, [] => []
  | loader, name :: names => (loader.load d false name).1 :: answersTo d (loader.load d false name).2 names

/-- A faithful loader answers as at the beginning. -/
theorem FaithfulOn.answersTo_eq_map {loader : TypeLoader}
    (faithful : FaithfulOn (fun _ => True) d dirs roots d loader) (names : List String) :
    answersTo d loader names = names.map (atFirst d dirs roots) := by
  induction names generalizing loader with
  | nil => rfl
  | cons name names ih =>
    obtain ⟨answer, still⟩ := faithful.load_eq Library.closesAlways_all (.refl d roots) trivial
    rw [answersTo, List.map_cons, answer, ih (still d)]

end TypeLoader

namespace Reader

variable {d : Disk} {r : Reader}

/-- Whatever a reader is asked for, it keeps only what the files of the disk hold. -/
theorem Faithful.respond (faithful : r.Faithful d) (request : Request) :
    (r.respond d request).2.Faithful d := by
  cases request with
  | read path => exact (readText_eq faithful ⟨rfl, rfl⟩).2
  | parse path => exact (parseFile_eq faithful ⟨rfl, rfl⟩).2
  | forget path => exact ⟨faithful.units.delete _, faithful.contents.delete _⟩
  | clear => exact faithful_fresh d

theorem faithful_served (d : Disk) (requests : List Request) :
    (served (requests.map (d, ·))).Faithful d := by
  rw [served, List.foldl_map]
  exact List.foldlRecOn (motive := (Faithful d)) _ _ (faithful_fresh d)
    fun _ faithful request _ => faithful.respond request

end Reader

namespace TypeLoader

/-- **What a loader answers does not depend on what it was asked before.**

* A loader that shares a reader with others gives each name the answer of a loader that was asked for nothing
  and has read nothing.
* That answer is what is wrong with the descriptors first; else the first descriptor of the type; else what
  the source says to which the first root leads that holds it or cannot be opened; else a failure which says
  that this type is not found, and why. -/
theorem answersTo_eq (d : Disk) (requests : List Reader.Request) (dirs roots names : List String) :
    answersTo d (sharing (.served (requests.map (d, ·))) dirs roots) names =
        names.map (fun name => ((ofPaths dirs roots).load d false name).1) ∧
      ∀ name result, ((ofPaths dirs roots).load d false name).1 = result ↔
        Answers d dirs roots name result := by
  refine ⟨?_, fun name result => answers_iff.symm⟩
  have faithful : FaithfulOn (fun _ => True) d dirs roots d (sharing (.served (requests.map (d, ·))) dirs roots) :=
    faithful_sharing (Reader.faithful_served d requests) (Reader.genuine_served _) rfl roots
  rw [faithful.answersTo_eq_map]
  exact List.map_congr_left fun name _ => (load_ofPaths d dirs roots name).symm

/-- A directory of sources, and a file which has the name of an archive and is none. -/
def brokenArchive : Disk :=
  (SourceLoader.diskOf [(["s", "p"], "A", "package p; public interface A \x7b int f(); \x7d")]).put
    ["bad.jar"] (.file ⟨.text "junk", .given 0⟩)

/-- An archive that cannot be opened hides the sources behind it. The directory alone holds the source, and
it alone leads to the type. With the archive in front of it, the type is not found. -/
theorem broken_archive_answers :
    let relative := SourceLoader.relativePath "p.A"
    let failure := Failure.plain "zip: not a valid zip file"
    brokenArchive.offer relative "bad.jar" = .error failure ∧
      brokenArchive.offer relative "s" = .ok (some (.file "s/p/A.java")) ∧
      (∃ s, ((ofPaths [] ["s"]).load brokenArchive false "p.A").1 = .ok s) ∧
      ((ofPaths [] ["bad.jar", "s"]).load brokenArchive false "p.A").1 =
        .error (.typeNotFound "p.A" (some (.typeNotFound "p.A" (some failure)))) := by
  intro relative failure
  have isBroken : brokenArchive.offer relative "bad.jar" = .error failure := by rfl
  have isHeld : brokenArchive.offer relative "s" = .ok (some (.file "s/p/A.java")) :=
    eq_ok_of_toOption (by decide)
  have found : (((ofPaths [] ["s"]).load brokenArchive false "p.A").1.toOption).isSome = true := by
    decide +kernel
  obtain ⟨s, isFound⟩ := Option.isSome_iff_exists.mp found
  have leads : brokenArchive.Leads relative ["bad.jar", "s"] (.error failure) := by
    rw [← isBroken]
    have decides : brokenArchive.offer relative "bad.jar" ≠ .ok none := fun nothing =>
      nomatch isBroken.symm.trans nothing
    exact .first ⟨decides, [], ["s"], rfl, List.forall_mem_nil _⟩
  exact ⟨isBroken, isHeld, ⟨s, eq_ok_of_toOption isFound⟩,
    answers_iff.mp (.unknown ⟨[], .nil, rfl⟩ (List.forall_mem_nil _) (.broken leads))⟩

end TypeLoader

end Forwarder
