/-
**A described type is loaded again.** Whatever can be loaded can be described: its name is qualified, and
the result of a method is a type and never nothing. So the descriptor of a type, put into a directory of
descriptors, stands for the sources that it was made from.

* `Library.keeps_results` — loading keeps to results that are types.
* `SourceLoader.describable_of_load`, `TypeLoader.describable_of_load` — what is loaded can be described.
* `DescriptorLoader.IsFedWith` — a document is in a directory, and no other one describes that type.
* `DescriptorLoader.find?_of_fed` — then the directories describe what the document does.
* **`Surface.described_again`** — documents are read back, everything that is loaded has one, and units are
  made from it as from the sources.
-/

import Forwarder.Command.Execute
import Forwarder.Proofs.Descriptor
import Forwarder.Proofs.Files.Freshness
import Forwarder.Proofs.Loading.Descriptors
import Forwarder.Proofs.Loading.Tame

open Forwarder.TypeName (IsFlat IsLevel)

namespace Forwarder

open Source

/-! ### Results -/

namespace Library

/-- **Loading keeps to results that are types**, if the sources are level. -/
theorem keeps_results {lib : Library}
    (level : ∀ X u decl, lib.declaration X = .ok (u, decl) → u.Level) :
    lib.Keeps (fun _ => True) fun _ kept _ => ∀ m ∈ kept, IsLevel m.returns.toList where
  closed _ _ _ _ := trivial
  own X u decl _ declared := by
    obtain ⟨_, -, -, found⟩ := SourceLoader.declaration_eq_ok.mp declared
    have isLevel := level X u decl declared
    refine List.forall_mem_map.mpr fun m isMethod => ?_
    exact Scope.isLevel_qualifyType isLevel.flatNames
      (Scope.level_of_methods isLevel (List.mem_of_find?_eq_some found) isMethod).returns
  rooted _ _ _ _ _ _ := by
    have flat : ∀ m ∈ rootMethods, m.returns.toList.all TypeName.isPlainChar = true ∧
        m.returns.toList ≠ [] := by
      decide
    exact fun m isRoot => (TypeName.isFlat_of_all (flat m isRoot).1 (flat m isRoot).2).isLevel
  append _ _ _ _ _ first second := List.forall_mem_append.mpr ⟨first, second⟩
  inherited X u decl _ declared ref isSuper _ kept _ each := by
    obtain ⟨_, -, -, found⟩ := SourceLoader.declaration_eq_ok.mp declared
    exact List.forall_mem_map.mpr fun m isKept => (each m isKept).substitute
      (isLevel_argumentsFor (level X u decl declared) (List.mem_of_find?_eq_some found) isSuper) _
  picked _ _ _ each := fun m isPicked => each m ((Method.unseen_sublist [] _).mem isPicked)

end Library

/-! ### What is loaded can be described -/

namespace Reader

/-- A reader after some requests, each on the disk as it was then. -/
def served (requests : List (Disk × Request)) : Reader :=
  requests.foldl (fun r (d, request) => (r.respond d request).2) fresh

theorem Genuine.respond {r : Reader} (genuine : r.Genuine) (d : Disk) (request : Request) :
    (r.respond d request).2.Genuine := by
  cases request with
  | read path =>
    rw [Genuine, Reader.respond, units_readText]
    exact genuine
  | parse path => exact genuine.parseFile d path
  | forget path => exact Cache.All.delete genuine _
  | clear => exact List.forall_mem_nil _

theorem genuine_served (requests : List (Disk × Request)) : (served requests).Genuine :=
  List.foldlRecOn (motive := Genuine) _ _ (List.forall_mem_nil _)
    fun _ genuine (d, request) _ => genuine.respond d request

end Reader

namespace SourceLoader

variable {l : SourceLoader} {d : Disk} {name : String} {s : Surface}

/-- The loader of a source path that shares a reader, after some loads, each from the disk as it was then. -/
def afterSharing (reader : Reader) (roots : List String) (history : List (Disk × String)) : SourceLoader :=
  history.foldl (fun l (d, name) => (l.load d name).2) (.sharing reader roots)

theorem genuine_afterSharing {reader : Reader} (genuine : reader.Genuine) (roots : List String)
    (history : List (Disk × String)) : (afterSharing reader roots history).reader.Genuine :=
  List.foldlRecOn (motive := fun l : SourceLoader => l.reader.Genuine) _ _ genuine
    fun _ genuine (d, name) _ => genuine_load genuine d name

theorem name_of_load (loaded : (l.load d name).1 = .ok s) : s.name = name :=
  Library.name_of_loadWithin
    (Prod.ext loaded rfl : (l.library d).loadWithin (l.bound d) name .start = (.ok s, _))

/-- **What a source path holds** can be described. -/
theorem describable_of_load (genuine : l.reader.Genuine) (dotted : TypeName.isDotted name = true)
    (loaded : (l.load d name).1 = .ok s) : s.IsDescribable where
  name := by rwa [name_of_load loaded]
  returns m isMethod empty := by
    have isLevel := keeps_load (Library.keeps_results fun X u decl => level_of_declaration genuine)
      trivial loaded m isMethod
    rw [empty] at isLevel
    exact isLevel.some_ rfl

end SourceLoader

namespace DescriptorLoader

variable {d e : Disk} {dirs paths : List String} {found : List Surface}

theorem describable_of_surfacesOf {path : String} (described : surfacesOf d path = .ok found) :
    ∀ s ∈ found, s.IsDescribable := by
  obtain ⟨_, _, -, decoded⟩ := exists_fileAt described
  exact Descriptor.describable_of_decode decoded

theorem describable_of_surfacesOfAll (described : surfacesOfAll d paths = .ok found) :
    ∀ s ∈ found, s.IsDescribable := by
  induction paths generalizing found with
  | nil =>
    cases described
    exact List.forall_mem_nil _
  | cons path paths ih =>
    rw [surfacesOfAll] at described
    split at described
    · cases described
    next first isFirst =>
    split at described
    · cases described
    next more areMore =>
    cases described
    exact List.forall_mem_append.mpr ⟨describable_of_surfacesOf isFirst, ih areMore⟩

/-- **What is described in directories** can be described again. -/
theorem describable_of_surfacesIn (described : surfacesIn d dirs = .ok found) :
    ∀ s ∈ found, s.IsDescribable := by
  induction dirs generalizing found with
  | nil =>
    cases described
    exact List.forall_mem_nil _
  | cons dir dirs ih =>
    rw [surfacesIn] at described
    split at described
    · cases described
    split at described
    · cases described
    next first isFirst =>
    split at described
    · cases described
    next more areMore =>
    cases described
    exact List.forall_mem_append.mpr ⟨describable_of_surfacesOfAll isFirst, ih areMore⟩

/-! ### Feeding a document back -/

variable {s : Surface} {name document : String}

/-- A descriptor file holds the document, or descriptors of other types than the one named. -/
def Allows (e : Disk) (name document path : String) : Prop :=
  e.readFile path = .ok document ∨ ∃ other found, e.readFile path = .ok other ∧
    Descriptor.decode other = .ok found ∧ ∀ t ∈ found, t.name ≠ name

/-- The directories can be read, a descriptor file in one of them holds the document, and no other file
describes the named type. -/
structure IsFedWith (e : Disk) (dirs : List String) (name document : String) : Prop where
  holds : ∃ dir ∈ dirs, ∃ paths, filesIn e dir = .ok paths ∧ ∃ path ∈ paths, e.readFile path = .ok document
  allows : ∀ dir ∈ dirs, ∃ paths, filesIn e dir = .ok paths ∧ ∀ path ∈ paths, Allows e name document path

/-- The surfaces describe the named type in no other way. -/
def Settles (s : Surface) (found : List Surface) : Prop :=
  ∀ t ∈ found, t.name = s.name → t = s

theorem surfacesOf_eq_decode {path text : String} (read : e.readFile path = .ok text)
    (decoded : Descriptor.decode text = .ok found) : surfacesOf e path = .ok found := by
  rw [surfacesOf, read]
  dsimp only
  rw [decoded]

theorem settles_surfacesOf (decoded : Descriptor.decode document = .ok [s]) {path : String}
    (allows : Allows e s.name document path) :
    ∃ found, surfacesOf e path = .ok found ∧ Settles s found := by
  rcases allows with read | ⟨other, found, read, isDecoded, others⟩
  · refine ⟨[s], surfacesOf_eq_decode read decoded, fun t member _ => ?_⟩
    exact List.mem_singleton.mp member
  · exact ⟨found, surfacesOf_eq_decode read isDecoded, fun t member same => absurd same (others t member)⟩

theorem settles_surfacesOfAll (decoded : Descriptor.decode document = .ok [s])
    (allows : ∀ path ∈ paths, Allows e s.name document path) :
    ∃ found, surfacesOfAll e paths = .ok found ∧ Settles s found ∧
      ((∃ path ∈ paths, e.readFile path = .ok document) → s ∈ found) := by
  induction paths with
  | nil => exact ⟨[], rfl, List.forall_mem_nil _, fun ⟨_, member, _⟩ => nomatch member⟩
  | cons path paths ih =>
    obtain ⟨here, others⟩ := List.forall_mem_cons.mp allows
    obtain ⟨first, isFirst, settled⟩ := settles_surfacesOf decoded here
    obtain ⟨more, areMore, settled', held⟩ := ih others
    refine ⟨first ++ more, ?_, List.forall_mem_append.mpr ⟨settled, settled'⟩, ?_⟩
    · rw [surfacesOfAll, isFirst, areMore]
    · rintro ⟨other, member, read⟩
      rcases List.mem_cons.mp member with rfl | later
      · rw [surfacesOf_eq_decode read decoded] at isFirst
        cases isFirst
        exact List.mem_cons_self
      · exact List.mem_append_right _ (held ⟨other, later, read⟩)

theorem settles_surfacesIn (decoded : Descriptor.decode document = .ok [s])
    (allows : ∀ dir ∈ dirs, ∃ paths, filesIn e dir = .ok paths ∧
      ∀ path ∈ paths, Allows e s.name document path) :
    ∃ found, surfacesIn e dirs = .ok found ∧ Settles s found ∧
      ((∃ dir ∈ dirs, ∃ paths, filesIn e dir = .ok paths ∧
        ∃ path ∈ paths, e.readFile path = .ok document) → s ∈ found) := by
  induction dirs with
  | nil => exact ⟨[], rfl, List.forall_mem_nil _, fun ⟨_, member, _⟩ => nomatch member⟩
  | cons dir dirs ih =>
    obtain ⟨⟨paths, arePaths, each⟩, others⟩ := List.forall_mem_cons.mp allows
    obtain ⟨first, isFirst, settled, held⟩ := settles_surfacesOfAll decoded each
    obtain ⟨more, areMore, settled', held'⟩ := ih others
    refine ⟨first ++ more, ?_, List.forall_mem_append.mpr ⟨settled, settled'⟩, ?_⟩
    · rw [surfacesIn, arePaths]
      dsimp only
      rw [isFirst, areMore]
    · rintro ⟨other, member, paths', arePaths', file⟩
      rcases List.mem_cons.mp member with rfl | later
      · rw [arePaths] at arePaths'
        cases arePaths'
        exact List.mem_append_left _ (held file)
      · exact List.mem_append_right _ (held' ⟨other, later, paths', arePaths', file⟩)

/-- **A document that is fed back** decides what the directories say about its type. -/
theorem load_of_fed (decoded : Descriptor.decode document = .ok [s])
    (fed : IsFedWith e dirs s.name document) : ((ofDirs dirs).load e s.name).1 = .ok s := by
  obtain ⟨found, areFound, settled, held⟩ := settles_surfacesIn decoded fed.allows
  have isFound : found.find? (·.name == s.name) = some s := by
    cases first : found.find? (·.name == s.name) with
    | none => exact absurd (List.find?_eq_none.mp first s (held fed.holds)) (by simp)
    | some t =>
      have same : t.name = s.name := beq_iff_eq.mp (List.find?_some (p := fun t : Surface => t.name == s.name) first)
      rw [settled t (List.mem_of_find?_eq_some first) same]
  have described : (ofDirs dirs).described e = .ok found := areFound
  rw [load, described]
  dsimp only
  rw [isFound]

end DescriptorLoader

/-! ### The loader -/

namespace TypeLoader

variable {d e : Disk} {dirs roots : List String} {name : String} {s : Surface}

theorem load_ofPaths (d : Disk) (dirs roots : List String) (name : String) :
    ((ofPaths dirs roots).load d false name).1 = atFirst d dirs roots name := by
  have unknown : (Cache.empty : Cache Surface).get? name = none := rfl
  have isChain : ofPaths dirs roots =
      .caching (.chain (described dirs ++ [.sources (.ofRoots roots)])) .empty := rfl
  rw [isChain, load, unknown, load, atFirst]
  dsimp only
  generalize loadFirst d false name none _ = outcome
  obtain ⟨result, chain⟩ := outcome
  cases result <;> rfl

/-- **What a loader finds** can be described. -/
theorem describable_of_load (dotted : TypeName.isDotted name = true)
    (loaded : ((ofPaths dirs roots).load d false name).1 = .ok s) : s.IsDescribable := by
  rw [load_ofPaths] at loaded
  rcases atFirst_cases loaded with fromDirectory | fromSource
  · obtain ⟨surfaces, described, member⟩ := DescriptorLoader.mem_of_load fromDirectory
    exact DescriptorLoader.describable_of_surfacesIn described s member
  · exact SourceLoader.describable_of_load (l := .ofRoots roots) (List.forall_mem_nil _) dotted fromSource

theorem name_of_load (loaded : ((ofPaths dirs roots).load d false name).1 = .ok s) : s.name = name := by
  rw [load_ofPaths] at loaded
  rcases atFirst_cases loaded with fromDirectory | fromSource
  · obtain ⟨surfaces, -, found⟩ := DescriptorLoader.find?_of_load fromDirectory
    exact beq_iff_eq.mp (List.find?_some (p := fun t : Surface => t.name == name) found)
  · exact SourceLoader.name_of_load fromSource

theorem load_of_fed {document : String} (decoded : Descriptor.decode document = .ok [s])
    (fed : DescriptorLoader.IsFedWith e dirs s.name document) (roots : List String) :
    ((ofPaths dirs roots).load e false s.name).1 = .ok s := by
  have some_ : ¬dirs.isEmpty = true := by
    obtain ⟨dir, member, -⟩ := fed.holds
    simpa using List.ne_nil_of_mem member
  have found := DescriptorLoader.load_of_fed decoded fed
  rw [load_ofPaths, atFirst, described, if_neg some_]
  simp only [List.cons_append, List.nil_append]
  rw [loadFirst, load, if_neg Bool.false_ne_true]
  generalize (DescriptorLoader.ofDirs dirs).load e s.name = outcome at found ⊢
  obtain ⟨result, l⟩ := outcome
  obtain rfl : result = .ok s := found
  rfl

/-- The unit that is made for a declaration from the surface of a type. -/
def unitOf (loader : TypeLoader) (d : Disk) (name : String) (decoration : Decoration) :
    Except Failure GeneratedUnit :=
  (loader.load d false name).1.bind fun s => Forwarding.synthesize decoration (some s)

end TypeLoader

/-! ### Descriptors and sources -/

/-- **A described type is loaded again.**

* A surface with a qualified name, whose methods tell what they return, is read back from its document.
* Every surface that a source path gives for a qualified name is one of these, whatever was read and loaded
  before.
* What is printed as the descriptor of a type may be put into a directory of descriptors that describe other
  types. There the type is found as it was, and every declaration gets the unit that it would get from the
  sources, or the same failure. -/
theorem Surface.described_again (s : Surface) :
    (s.IsDescribable → s.IsReadBack → Descriptor.decode s.descriptor = .ok [s]) ∧
    (∀ (requests : List (Disk × Reader.Request)) (roots : List String) (history : List (Disk × String))
      (d : Disk) (name : String), TypeName.isDotted name = true →
      ((SourceLoader.afterSharing (.served requests) roots history).load d name).1 = .ok s →
      s.IsDescribable) ∧
    (∀ (config : Config) (name : String) (d : Disk), TypeName.isDotted name = true →
      ((TypeLoader.ofPaths config.descriptorDirs config.sourcePath).load d false name).1 = .ok s →
      s.IsReadBack →
      (describeCommand config name d).printed = .regular s.descriptor ∧
      ∀ (e : Disk) (dirs roots : List String),
        DescriptorLoader.IsFedWith e dirs name (describeCommand config name d).printed.out →
        ((TypeLoader.ofPaths dirs roots).load e false name).1 = .ok s ∧
        ∀ decoration : Decoration, (TypeLoader.ofPaths dirs roots).unitOf e name decoration =
          (TypeLoader.ofPaths config.descriptorDirs config.sourcePath).unitOf d name decoration) := by
  refine ⟨Descriptor.decode_descriptor, ?_, ?_⟩
  · intro requests roots history d name dotted loaded
    exact SourceLoader.describable_of_load
      (SourceLoader.genuine_afterSharing (Reader.genuine_served requests) roots history) dotted loaded
  · intro config name d dotted loaded readBack
    obtain rfl := TypeLoader.name_of_load loaded
    have decoded := Descriptor.decode_descriptor (TypeLoader.describable_of_load dotted loaded) readBack
    have printed : (describeCommand config s.name d).printed = .regular s.descriptor := by
      rw [describeCommand, loaded]
    refine ⟨printed, fun e dirs roots fed => ?_⟩
    rw [printed] at fed
    have again := TypeLoader.load_of_fed decoded fed roots
    refine ⟨again, fun decoration => ?_⟩
    rw [TypeLoader.unitOf, TypeLoader.unitOf, again, loaded]

/-- A type with one method. -/
def counter : Surface :=
  ⟨"u.A", [], ["java.lang.Object"], [⟨"f", [], "int", .publicly, false, false, true, [], [], "u.A"⟩]⟩

/-- Its source, in a directory of sources. -/
def counterDisk : Disk :=
  SourceLoader.diskOf [(["lib", "u"], "A", "package u; interface A \x7b int f(); \x7d")]

/-- A directory that holds one descriptor. -/
def shelfOf (document : String) : Disk :=
  ⟨[(["types"], .dir), (["types", "a.yaml"], .file ⟨.text document, .given 0⟩)], [], 0⟩

theorem isFedWith_shelfOf (name document : String) :
    DescriptorLoader.IsFedWith (shelfOf document) ["types"] name document := by
  have files : DescriptorLoader.filesIn (shelfOf document) "types" = .ok ["types/a.yaml"] := by
    refine DescriptorLoader.filesIn_eq_ok.mpr ⟨rfl, rfl, ?_⟩
    exact (Text.sorted_of_pairwise (List.pairwise_singleton _ _)).symm
  have read : (shelfOf document).readFile "types/a.yaml" = .ok document := rfl
  refine ⟨⟨"types", List.mem_singleton_self _, _, files, _, List.mem_singleton_self _, read⟩, ?_⟩
  exact List.forall_mem_singleton.mpr ⟨_, files, List.forall_mem_singleton.mpr (.inl read)⟩

/-- The type is described from its source, and the descriptor alone stands for the source. -/
theorem described_again_counter :
    let config := { Config.standard 1 with sourcePath := ["lib"] }
    let l := SourceLoader.afterSharing (.served [(counterDisk, .parse "lib/u/A.java")]) ["lib"]
      [(counterDisk, "u.B")]
    counter.IsReadBack ∧ (l.load counterDisk "u.A").1 = .ok counter ∧ counter.IsDescribable ∧
      Descriptor.decode counter.descriptor = .ok [counter] ∧
      ((TypeLoader.ofPaths ["types"] []).load
        (shelfOf (describeCommand config "u.A" counterDisk).printed.out) false "u.A").1 = .ok counter ∧
      ∀ decoration : Decoration,
        (TypeLoader.ofPaths ["types"] []).unitOf
            (shelfOf (describeCommand config "u.A" counterDisk).printed.out) "u.A" decoration =
          (TypeLoader.ofPaths [] ["lib"]).unitOf counterDisk "u.A" decoration := by
  intro config l
  obtain ⟨decodes, isDescribable, again⟩ := counter.described_again
  have isText : counter.descriptor = String.ofList _ := rfl
  have readBack : counter.IsReadBack := by
    rw [Surface.IsReadBack, isText, Yaml.documents, Yaml.tokens, Yaml.Scanner.start, Yaml.Cursor.start,
      String.toList_ofList]
    decide +kernel
  have loaded : (l.load counterDisk "u.A").1 = .ok counter := eq_ok_of_toOption (by decide +kernel)
  have describable := isDescribable _ _ _ counterDisk "u.A" (by decide) loaded
  have found : ((TypeLoader.ofPaths [] ["lib"]).load counterDisk false "u.A").1 = .ok counter :=
    eq_ok_of_toOption (by decide +kernel)
  obtain ⟨-, fed⟩ := again config "u.A" counterDisk (by decide) found readBack
  obtain ⟨same, units⟩ := fed _ ["types"] [] (isFedWith_shelfOf "u.A" _)
  exact ⟨readBack, loaded, describable, decodes describable readBack, same, units⟩

end Forwarder
