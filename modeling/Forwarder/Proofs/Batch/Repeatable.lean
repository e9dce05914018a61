/-
**What may be generated again.** A run is repeatable if it does not reach its own sources, and if all that
it reads is harmless. Then its units are passed over where they are left, so that everything that was read by
the run is read again as it was.

* `climbs_target` — the path of a unit does not climb.
* `Disk.heldAt_of_content`, `Disk.heldAt_of_unmatched` — what a file comes to when it is read again.
* `Config.IsHarmless`, **`Config.IsRepeatable`** — projects that can be generated again.
* `Outcome.IsInReach` — what a run has made can be looked up.
* `Completes.isInert` — the units of a run are passed over.
* **`Completes.heldAt_eq`** — after the run every file comes to what it came to before.
* `Completes.surfacesIn_eq`, `Completes.atFirst_eq` — so do the descriptors and the surfaces of types.
* `Completes.unitAt?_eq`, `Completes.alike_resultAt?` — so do the units of declarations, and their results.
-/

import Forwarder.Proofs.Batch.Completion
import Forwarder.Proofs.Batch.Rescan
import Forwarder.Proofs.Files.Freshness
import Forwarder.Proofs.Files.Level
import Forwarder.Proofs.Forwarding.Tame
import Forwarder.Proofs.Loading.Descriptors
import Forwarder.Proofs.Loading.Tame

namespace Forwarder

open Disk (Grown)
open Forwarder.Path (ofComponents)

variable {config : Config} {d e : Disk}

/-! ### Paths that do not climb -/

theorem isInfix_of_holdsPart {part cs : List Char} (holds : Text.holdsPart part cs = true) : part <:+: cs := by
  induction cs with
  | nil =>
    obtain rfl := List.isEmpty_iff.mp holds
    exact List.infix_rfl
  | cons c cs ih =>
    rw [Text.holdsPart, Bool.or_eq_true] at holds
    rcases holds with here | later
    · exact (List.isPrefixOf_iff_prefix.mp here).isInfix
    · exact List.infix_cons (ih later)

/-- A name with a single point at most has no two in a row. -/
theorem neverClimbs_of_count {name : String} (few : name.toList.count '.' ≤ 1) : NeverClimbs name := by
  rw [NeverClimbs, ← Bool.not_eq_true]
  intro holds
  have isPart : ['.', '.'] <:+: name.toList := isInfix_of_holdsPart holds
  exact absurd (isPart.sublist.count_le '.') (Nat.not_le.mpr (Nat.lt_succ_of_le few))

/-- The name of the file of a unit has one point, and that is not the one of a descriptor. -/
theorem isDescriptorFile_fileName {u : GeneratedUnit} (free : '/' ∉ u.className.toList) :
    isDescriptorFile u.fileName = false := by
  have isText : u.fileName.toList = u.className.toList ++ '.' :: "java".toList := by
    rw [GeneratedUnit.fileName, String.toList_append]
    rfl
  have noSlash : '/' ∉ u.className.toList ++ '.' :: "java".toList :=
    fun slash => (List.mem_append.mp slash).elim free (by decide)
  have ending : Path.extension u.fileName = ".java" := by
    have point : (u.className.toList ++ '.' :: "java".toList).contains '.' = true :=
      List.contains_iff_mem.mpr (List.mem_append_right _ List.mem_cons_self)
    rw [Path.extension, isText, Text.afterLast_free noSlash, if_pos point,
      Text.afterLast_concat (by decide : '.' ∉ "java".toList)]
    decide
  rw [isDescriptorFile, ending]
  decide

theorem neverClimbs_fileName {u : GeneratedUnit} (single : '.' ∉ u.className.toList) :
    NeverClimbs u.fileName := by
  refine neverClimbs_of_count ?_
  rw [GeneratedUnit.fileName, String.toList_append, List.count_append, List.count_eq_zero.mpr single]
  decide

/-- Where a unit is written does not climb, unless the output root does. -/
theorem climbs_target {out : Output} {u : GeneratedUnit} (level : ∀ name ∈ d.spot out.root, NeverClimbs name)
    (single : '.' ∉ u.className.toList) : climbs (ofComponents true (out.target d u)) = false := by
  refine climbs_ofComponents fun name member => ?_
  rcases List.mem_append.mp member with above | isFile
  · rcases List.mem_append.mp above with isRoot | isFolder
    · exact level name isRoot
    · refine neverClimbs_of_count ?_
      rw [List.count_eq_zero.mpr (GeneratedUnit.noPoint_of_written (List.mem_filter.mp isFolder).1)]
      exact Nat.zero_le 1
  · rw [List.mem_singleton.mp isFile]
    exact neverClimbs_fileName single

/-! ### Files that are read again -/

namespace Disk

variable {place : Place} {file : File}

/-- What is read under the absolute path of a place is the text of the file there. -/
theorem text_of_textOf (proper : d.IsProper) (isFile : d.file? place = some file) {text : String}
    (isText : d.textOf (ofComponents true place) = .ok text) : text = file.content.asText := by
  have placed := proper.place_absolute (file?_eq_some.mp isFile)
  cases isReadable : Reader.readable d (ofComponents true place) with
  | error failure =>
    rw [textOf, isReadable] at isText
    cases isText
  | ok clean =>
    have read := Reader.readFile_of_textOf isReadable isText
    rw [(readable_eq_ok isReadable).1,
      Path.clean_ofComponents (proper.normal (file?_eq_some.mp isFile))] at read
    obtain ⟨other, found, ⟨leads, isFound⟩, rfl⟩ := fileAt_of_readFile read
    rw [leads] at placed
    cases refused : refusedPath? (ofComponents true place) with
    | some refusal =>
      rw [refused] at placed
      cases placed
    | none =>
      rw [refused] at placed
      cases placed
      rw [Option.some.inj (isFound.symm.trans isFile)]

theorem heldAt_of_none (nothing : d.file? place = none) : d.heldAt place = .empty := by
  rw [heldAt, nothing, Option.isSome_none, if_neg Bool.false_ne_true]

theorem heldAt_of_file (isFile : d.file? place = some file) :
    d.heldAt place = d.extractionOf (ofComponents true place) := by
  rw [heldAt, isFile, Option.isSome_some, if_pos rfl]

/-- A file that holds the same comes to the same. -/
theorem heldAt_of_content (proper : d.IsProper) (proper' : e.IsProper)
    (same : (e.file? place).map (·.content) = (d.file? place).map (·.content)) :
    e.heldAt place = d.heldAt place := by
  cases isFile : d.file? place with
  | none =>
    rw [isFile, Option.map_none, Option.map_eq_none_iff] at same
    rw [heldAt_of_none isFile, heldAt_of_none same]
  | some file =>
    rw [isFile, Option.map_some, Option.map_eq_some_iff] at same
    obtain ⟨other, isOther, same⟩ := same
    have sameText : e.textOf (ofComponents true place) = d.textOf (ofComponents true place) :=
      textOf_eq proper' proper isOther isFile (by rw [same])
    rw [heldAt_of_file isFile, heldAt_of_file isOther, extractionOf, extractionOf, sameText]

/-- Nothing is declared where no file is that can be read and looks like a declaration. -/
theorem heldAt_of_unmatched (proper : d.IsProper) (level : climbs (ofComponents true place) = false)
    (allowed : refusedPath? (ofComponents true place) = none)
    (unmatched : ∀ file, d.file? place = some file →
      HeaderPattern.matchesDecorator file.content.asText = false) : d.heldAt place = .empty := by
  cases isFile : d.file? place with
  | none => exact heldAt_of_none isFile
  | some file =>
    rw [heldAt_of_file isFile]
    exact extractionOf_of_unmatched proper isFile level allowed (unmatched file isFile)

end Disk

/-! ### Projects that can be generated again -/

/-- The identifiers in what a run reads are harmless: those of the files that it looks at, those of the
sources of types, and those in the descriptions of types. -/
structure Config.IsHarmless (config : Config) (d : Disk) : Prop where
  scanned : ∀ place file u, d.IsLookedAt config.sourceDirs place → d.file? place = some file →
    Source.parse file.content.asText = .ok u → ∀ name ∈ u.identifiers, Forwarder.IsHarmless name
  sources : ∀ name u decl,
    ((SourceLoader.ofRoots config.sourcePath).library d).declaration name = .ok (u, decl) →
      ∀ identifier ∈ u.identifiers, Forwarder.IsHarmless identifier
  described : ∀ surfaces, DescriptorLoader.surfacesIn d config.descriptorDirs = .ok surfaces →
    ∀ s ∈ surfaces, s.IsHarmless

/-- Without descriptors it is enough that the files are harmless, and the entries of archives. -/
theorem Config.isHarmless_of_texts (proper : d.IsProper) (undescribed : config.descriptorDirs = [])
    (harmless : ∀ text ∈ SourceLoader.texts d, ∀ u, Source.parse text = .ok u →
      ∀ name ∈ u.identifiers, Forwarder.IsHarmless name) : config.IsHarmless d where
  scanned place file u _ isFile :=
    harmless _ (List.mem_flatMap.mpr ⟨_, proper.file?_eq_some_iff.mp isFile, List.mem_cons_self⟩) u
  sources name u decl declared := by
    obtain ⟨_, -, read, -⟩ := SourceLoader.declaration_eq_ok.mp declared
    -- Nothing is remembered yet, so the declaration was read from a text.
    obtain ⟨text, isText, parsed⟩ := List.mem_filterMap.mp (SourceLoader.mem_knownUnits_of_unitAt read)
    exact harmless text isText u (eq_ok_of_toOption parsed)
  described surfaces described := by
    rw [undescribed] at described
    cases described
    exact List.forall_mem_nil _

/-- A run that writes its units, and a project that it may write them into. -/
structure Config.IsRepeatable (config : Config) (d : Disk) : Prop where
  wet : config.dryRun = false
  proper : d.IsProper
  separate : config.IsSeparate d
  /-- No file below the output directory looks like a declaration. -/
  unmatched : ∀ place file, d.spot config.outputDir <+: place → d.file? place = some file →
    HeaderPattern.matchesDecorator file.content.asText = false
  /-- No directory on the way to the output directory has two points in a row in its name. -/
  level : ∀ name ∈ d.spot config.outputDir, NeverClimbs name
  harmless : config.IsHarmless d

/-- The absolute paths of what a run has made can be looked up: of its outputs, and of all directories that
are new, those of refused units among them. -/
structure Outcome.IsInReach (o : Outcome) (d : Disk) : Prop where
  outputs : ∀ r ∈ o.summary.results, r.failure = none →
    Disk.refusedPath? (ofComponents true (o.disk.spot r.output)) = none
  folders : ∀ place, d.entry? place = none → o.disk.isDirAt place = true →
    Disk.refusedPath? (ofComponents true place) = none

namespace Config.IsRepeatable

variable (repeatable : config.IsRepeatable d)

include repeatable

/-- The declaration in a file that is looked at is tame. -/
theorem tame_of_extractionOf {files : List String} (scanned : d.scan config.sourceDirs = .ok files)
    {path : String} (member : path ∈ files) {decoration : Decoration}
    (present : d.extractionOf path = .present decoration) : decoration.Tame := by
  obtain ⟨place, file, isFile, asked, rfl⟩ := (Disk.mem_scan repeatable.proper scanned).mp member
  rw [Disk.extractionOf] at present
  split at present
  · cases present
  · next text isText =>
    split_ifs at present
    obtain ⟨u, parsed, extracted⟩ := Decoration.read_eq_present present
    rw [Disk.text_of_textOf repeatable.proper isFile isText] at parsed
    have harmless := repeatable.harmless.scanned place file u asked isFile parsed
    exact Decoration.tame_of_extract
      (Source.CompilationUnit.tame_of_identifiers fun name isName => (harmless name isName).isTame) extracted

/-- The surfaces that a run begins with are tame. -/
theorem tame_atFirst {name : String} {surface : Surface}
    (loaded : TypeLoader.atFirst d config.descriptorDirs config.sourcePath name = .ok surface) :
    surface.Tame := by
  refine TypeLoader.tame_atFirst (fun name u decl declared => ?_) (fun surfaces described s member => ?_)
    loaded
  · have harmless := repeatable.harmless.sources name u decl declared
    exact Source.CompilationUnit.tame_of_identifiers fun identifier isName => (harmless identifier isName).isTame
  · exact (repeatable.harmless.described surfaces described s member).tame

end Config.IsRepeatable

/-! ### What the first run leaves -/

/-- A unit that is passed over when it is scanned. -/
structure GeneratedUnit.IsInert (u : GeneratedUnit) : Prop where
  unmatched : HeaderPattern.matchesDecorator u.source = false
  single : '.' ∉ u.className.toList
  free : '/' ∉ u.className.toList

theorem isIdentifier_of_extractionOf {path : String} {decoration : Decoration}
    (present : d.extractionOf path = .present decoration) :
    Source.isIdentifier decoration.className = true := by
  rw [Disk.extractionOf] at present
  split at present
  · cases present
  · split_ifs at present
    exact (Decoration.worded_of_read present).className

/-- A unit that is made of what is tame does not look like a declaration. -/
theorem unmatched_of_synthesize {decoration : Decoration} (tame : decoration.Tame) {surface : Surface}
    (ofSurface : surface.Tame) {u : GeneratedUnit}
    (made : Forwarding.synthesize decoration (some surface) = .ok u) :
    HeaderPattern.matchesDecorator u.source = false := by
  rw [eq_of_synthesize made]
  dsimp only
  exact Forwarding.unmatched_unit tame ofSurface

/-- The unit of a tame declaration is passed over. -/
theorem Decoration.Tame.isInert {decoration : Decoration} (tame : decoration.Tame)
    (named : Source.isIdentifier decoration.className = true) {surface : Surface} (ofSurface : surface.Tame)
    {u : GeneratedUnit} (made : Forwarding.synthesize decoration (some surface) = .ok u) : u.IsInert := by
  have outside {c : Char} (noPart : Source.isIdentPart c = false) (noImpl : c ∉ "Impl".toList) :
      c ∉ decoration.implName.toList := by
    rw [Decoration.implName, String.toList_append, List.mem_append, not_or]
    refine ⟨fun member => ?_, noImpl⟩
    rw [Source.isIdentPart_of_isIdentifier named c member] at noPart
    cases noPart
  have isName : u.className = decoration.implName := by rw [eq_of_synthesize made]
  refine ⟨unmatched_of_synthesize tame ofSurface made, ?_, ?_⟩
  · rw [isName]
    exact outside (by decide) (by decide)
  · rw [isName]
    exact outside (by decide) (by decide)

/-! ### Related lists -/

section Related

variable {α β γ : Type} {R : α → β → Prop} {S : α → γ → Prop} {T : β → γ → Prop}

theorem exists_of_forall₂ {xs : List α} {ys : List β} (related : List.Forall₂ R xs ys) :
    ∀ y ∈ ys, ∃ x ∈ xs, R x y := by
  induction related with
  | nil => exact List.forall_mem_nil _
  | @cons x y _ _ first _ ih =>
    refine List.forall_mem_cons.mpr ⟨⟨x, List.mem_cons_self, first⟩, fun other member => ?_⟩
    obtain ⟨x, isItem, holds⟩ := ih other member
    exact ⟨x, List.mem_cons_of_mem _ isItem, holds⟩

/-- What two lists have in common with a third one relates them. -/
theorem forall₂_of_common {xs : List α} {ys : List β} {zs : List γ} (related : List.Forall₂ R xs ys)
    (related' : List.Forall₂ S xs zs) (common : ∀ x ∈ xs, ∀ y z, R x y → S x z → T y z) :
    List.Forall₂ T ys zs := by
  induction related generalizing zs with
  | nil =>
    cases related'
    exact .nil
  | cons first _ ih =>
    cases related' with
    | cons first' others =>
      obtain ⟨here, rest⟩ := List.forall_mem_cons.mp common
      exact .cons (here _ _ first first') (ih others rest)

end Related

theorem alike_resultOf {path : String} {decoration : Decoration} {first second : Except Failure String}
    (alike : AlikeResult first second) :
    (resultOf path decoration first).Alike (resultOf path decoration second) := by
  cases alike with
  | ok output => exact ⟨rfl, rfl, rfl, rfl, .none⟩
  | error alike => exact ⟨rfl, rfl, rfl, rfl, .some alike⟩

/-! ### What the run reads again -/

namespace Disk.Completes

variable {files : List String} {shop : Workshop} {o : Outcome} {products : List Product} {place : Place}
  (completes : d.Completes config files shop o products) (repeatable : config.IsRepeatable d)

include completes repeatable

/-- The units of the run are passed over. -/
theorem isInert : ∀ p ∈ products, ∀ u, p.unit? = some u → u.IsInert := by
  intro p member u isUnit
  obtain ⟨entry, isEntry, isUnit', -⟩ := exists_of_forall₂ (completes.makes repeatable.separate) p member
  obtain ⟨path, isFile, rfl⟩ := List.mem_map.mp (List.mem_filter.mp isEntry).1
  rw [isUnit'] at isUnit
  cases present : d.extractionOf path with
  | empty => rw [present] at isUnit; cases isUnit
  | failed failure => rw [present] at isUnit; cases isUnit
  | present decoration =>
    rw [present, Disk.unitOf?, Disk.unitAt?] at isUnit
    split at isUnit
    · cases isUnit
    · next surface loaded =>
      have made := eq_ok_of_toOption isUnit
      have tame := repeatable.tame_of_extractionOf completes.scanned isFile present
      exact tame.isInert (isIdentifier_of_extractionOf present) (repeatable.tame_atFirst loaded) made

/-- What the run leaves at a place is passed over there, and it is no descriptor. -/
theorem left {text : String} (isLeft : lastText? config.output d place products = some text) :
    d.spot config.outputDir <+: place ∧ climbs (ofComponents true place) = false ∧
      HeaderPattern.matchesDecorator text = false ∧
      (∃ front name, place = front ++ [name] ∧ isDescriptorFile name = false) ∧
      ∃ r ∈ o.summary.results, r.failure = none ∧ o.disk.spot r.output = place := by
  obtain ⟨p, member, isText⟩ := exists_of_lastText? isLeft
  obtain ⟨done, u, isUnit, rfl, rfl⟩ := Product.textAt?_eq_some.mp isText
  have inert := completes.isInert repeatable p member u isUnit
  have isResult : p.result ∈ o.summary.results := by
    obtain ⟨s, isSummary, -⟩ := completes.counted
    rw [isSummary]
    exact List.mem_map_of_mem member
  have spot := completes.spot_output repeatable.wet repeatable.proper.isGrounded member done isUnit
  refine ⟨?_, climbs_target repeatable.level inert.single, inert.unmatched,
    ⟨_, u.fileName, rfl, isDescriptorFile_fileName inert.free⟩,
    p.result, isResult, Option.isNone_iff_eq_none.mp done, spot⟩
  rw [Output.target, List.append_assoc]
  exact List.prefix_append _ _

/-- Where the run leaves nothing, the files hold what they held before. -/
theorem content_of_unleft (nothing : lastText? config.output d place products = none) :
    (o.disk.file? place).map (·.content) = (d.file? place).map (·.content) := by
  rw [completes.content repeatable.wet repeatable.proper.isGrounded, nothing, Option.map_none, Option.none_or]

theorem spot_eq (path : String) : o.disk.spot path = d.spot path := by
  have cwd := (completes.grown repeatable.proper.isGrounded).cwd
  rw [Disk.spot, Disk.spot, Disk.start, Disk.start, cwd]

/-- The system takes the absolute path of everything that is new. -/
theorem allowed_of_new (inReach : o.IsInReach d) (place : Place) (entry : Entry)
    (missing : d.entry? place = none) (found : o.disk.entry? place = some entry) :
    Disk.refusedPath? (ofComponents true place) = none := by
  cases entry with
  | dir => exact inReach.folders place missing (Disk.isDirAt_iff.mpr found)
  | file file =>
    have isFile : o.disk.file? place = some file := Disk.file?_eq_some.mpr found
    cases isLeft : lastText? config.output d place products with
    | none =>
      have same := completes.content_of_unleft repeatable isLeft
      rw [isFile, Disk.file?, missing] at same
      cases same
    | some text =>
      obtain ⟨-, -, -, -, r, isResult, isNone, rfl⟩ := completes.left repeatable isLeft
      exact inReach.outputs r isResult isNone

/-- **Every file comes to what it came to before.** -/
theorem heldAt_eq (inReach : o.IsInReach d) (place : Place) :
    o.disk.heldAt place = d.heldAt place := by
  have proper := repeatable.proper
  have proper' := completes.isProper repeatable.wet proper
  cases isLeft : lastText? config.output d place products with
  | none => exact Disk.heldAt_of_content proper proper' (completes.content_of_unleft repeatable isLeft)
  | some text =>
    obtain ⟨below, level, unmatched, -, r, isResult, isNone, rfl⟩ := completes.left repeatable isLeft
    have content := completes.content repeatable.wet proper.isGrounded (o.disk.spot r.output)
    rw [isLeft, Option.map_some, Option.some_or, Option.map_eq_some_iff] at content
    obtain ⟨file, isFile, isText⟩ := content
    have allowed := inReach.outputs r isResult isNone
    have still : o.disk.heldAt (o.disk.spot r.output) = .empty := by
      refine Disk.heldAt_of_unmatched proper' level allowed fun other isOther => ?_
      obtain rfl : file = other := Option.some.inj (isFile.symm.trans isOther)
      rw [isText]
      exact unmatched
    rw [still, Disk.heldAt_of_unmatched proper level allowed fun other =>
      repeatable.unmatched _ other below]

/-- **The descriptors describe what they described before.** If they could not be read, no unit was
made. -/
theorem surfacesIn_eq : DescriptorLoader.surfacesIn o.disk config.descriptorDirs =
    DescriptorLoader.surfacesIn d config.descriptorDirs := by
  have proper := repeatable.proper
  cases described : DescriptorLoader.surfacesIn d config.descriptorDirs with
  | ok surfaces =>
    refine DescriptorLoader.surfacesIn_eq proper (completes.isProper repeatable.wet proper)
      (completes.grown proper.isGrounded) (fun place name isDescriptor => ?_) described
    refine completes.content_of_unleft repeatable (Option.eq_none_iff_forall_ne_some.mpr fun text isLeft => ?_)
    obtain ⟨-, -, -, ⟨front, other, same, noDescriptor⟩, -⟩ := completes.left repeatable isLeft
    obtain ⟨-, rfl⟩ := List.append_singleton_inj.mp same
    rw [isDescriptor] at noDescriptor
    cases noDescriptor
  | error failure =>
    have unitless : ∀ p ∈ products, p.unit? = none := by
      intro p member
      obtain ⟨⟨path, attempt⟩, -, isUnit, -⟩ :=
        exists_of_forall₂ (completes.makes repeatable.separate) p member
      rw [isUnit]
      cases attempt with
      | empty => rfl
      | failed failure => rfl
      | present decoration =>
        rw [Disk.unitOf?, Disk.unitAt?, TypeLoader.atFirst_of_misdescribed described]
    rw [completes.made] at unitless
    rw [completes.disk, disk_of_unitless _ shop unitless, completes.atStart, described]

/-- The surfaces of types are those that they were before. -/
theorem atFirst_eq {name : String} (relative : IsRelativeName name) :
    TypeLoader.atFirst o.disk config.descriptorDirs config.sourcePath name =
      TypeLoader.atFirst d config.descriptorDirs config.sourcePath name := by
  have separate := repeatable.separate
  have grown := completes.grown separate.tree.isGrounded
  exact TypeLoader.atFirst_eq (grown.undisturbed separate.tree separate.apart separate.upfront)
    (completes.surfacesIn_eq repeatable) relative

theorem isSeparate : config.IsSeparate o.disk where
  tree := (completes.isProper repeatable.wet repeatable.proper).toIsTree
  apart root member := by
    rw [Disk.Apart, completes.spot_eq repeatable, completes.spot_eq repeatable]
    exact repeatable.separate.apart root member
  upfront := repeatable.separate.upfront

/-- The unit of a declaration is the one that it had before. -/
theorem unitAt?_eq {decoration : Decoration} (placeable : decoration.IsPlaceable) :
    o.disk.unitAt? config decoration = d.unitAt? config decoration := by
  rw [Disk.unitAt?, Disk.unitAt?, completes.atFirst_eq repeatable placeable.decorated]

/-- The output of a declaration is the one that it had before, but for the time. -/
theorem alike_outputAt {decoration : Decoration} (placeable : decoration.IsPlaceable) (now later : Nat) :
    AlikeResult (o.disk.outputAt config now decoration) (d.outputAt config later decoration) := by
  rw [Disk.outputAt, Disk.outputAt, completes.atFirst_eq repeatable placeable.decorated]
  cases TypeLoader.atFirst d config.descriptorDirs config.sourcePath decoration.decorated with
  | error failure => exact .refl _
  | ok surface =>
    dsimp only
    cases made : Forwarding.synthesize decoration (some surface) with
    | error failure => exact .refl _
    | ok u =>
      have grounded := repeatable.proper.isGrounded
      have free := slash_not_mem_of_synthesize placeable made
      have grown := (completes.grown grounded).trans (Disk.grown_atClock _ o.disk now)
      have same : (config.output.write (o.disk.atClock now) u).path =
          (config.output.write (d.atClock now) u).path := Output.write_eq grown grounded free
      dsimp only
      rw [same]
      exact Output.write_atClock grounded free now later

/-- The result of a file is the one that it had before, but for the time. -/
theorem alike_resultAt? {path : String} {attempt : Attempt Decoration}
    (placeable : ∀ decoration, attempt = .present decoration → decoration.IsPlaceable) {now later : Nat}
    {r s : FileResult} (isResult : o.disk.resultAt? config now path attempt = some r)
    (isResult' : d.resultAt? config later path attempt = some s) : r.Alike s := by
  cases attempt with
  | empty => cases isResult
  | failed failure =>
    cases isResult
    cases isResult'
    exact ⟨rfl, rfl, rfl, rfl, .some (.same failure)⟩
  | present decoration =>
    cases isResult
    cases isResult'
    exact alike_resultOf (completes.alike_outputAt repeatable (placeable decoration rfl) now later)

end Disk.Completes

end Forwarder
