/-
**A reader never serves stale data.** Files are written, removed and created again while a reader is at
work, and what it keeps survives all of that. A kept value counts only while its file is in the state that
it was made from. As long as that state tells the contents of a file apart, every answer is the one of a
reader that keeps nothing.

* `Disk.TellApart` — different contents of a file differ in their time or in their size.
* `Reader.Request`, `Reader.Step` — what is asked of a reader, and what happens between the requests.
* `Cache.Sound` — what a cache takes for current, on any of the disks, is what the file holds there.
* `Reader.respond_eq` — the reply to one request.
* **`Reader.replies_eq_plainReplies`** — the replies to a whole history of requests and changes.
-/

import Forwarder.Proofs.Files.Reader

namespace Forwarder

open Source (CompilationUnit)

/-! ### Contents that can be told apart -/

namespace Disk

variable {d e : Disk} {disks : List Disk} {path text : String}

/-- Two different contents that a path leads to, on any two of the disks, were written at different times
or differ in their size. -/
def TellApart (disks : List Disk) : Prop :=
  ∀ d ∈ disks, ∀ e ∈ disks, ∀ path place place' file file',
    d.FileAt path place file → e.FileAt path place' file' →
      file.content.asText ≠ file'.content.asText →
        file.stamp ≠ file'.stamp ∨ file.content.size ≠ file'.content.size

/-- A file in the same state holds the same text. -/
theorem TellApart.readFile (apart : TellApart disks) (known : d ∈ disks) (present : e ∈ disks)
    (same : e.fingerprint path = d.fingerprint path) (read : d.readFile path = .ok text) :
    e.readFile path = .ok text := by
  obtain ⟨place, file, isAt, rfl⟩ := fileAt_of_readFile read
  obtain ⟨place', file', isAt', stamps, sizes⟩ := fileAt_of_fingerprint (same.trans isAt.fingerprint)
  have texts : file.content.asText = file'.content.asText := by
    by_contra different
    rcases apart d known e present path place place' file file' isAt isAt' different with other | other
    · exact other stamps.symm
    · exact other sizes.symm
  rw [isAt'.readFile, texts]

/-- All files of a disk. -/
def files (d : Disk) : List File :=
  d.entries.filterMap fun (_, entry) =>
    match entry with
    | .file file => some file
    | .dir => none

theorem FileAt.mem_files {place : Place} {file : File} (isAt : d.FileAt path place file) :
    file ∈ d.files := by
  have isFile := file?_eq_some.mp isAt.2
  unfold entry? at isFile
  split at isFile
  · cases isFile
  · exact List.mem_filterMap.mpr ⟨_, mem_of_lookup_eq_some isFile, rfl⟩

/-- It is enough to compare all files of the disks with each other. -/
theorem tellApart_of_files
    (each : ∀ d ∈ disks, ∀ e ∈ disks, ∀ file ∈ d.files, ∀ file' ∈ e.files,
      file.content.asText ≠ file'.content.asText →
        file.stamp ≠ file'.stamp ∨ file.content.size ≠ file'.content.size) :
    TellApart disks :=
  fun d known e present _ _ _ file file' isAt isAt' =>
    each d known e present file isAt.mem_files file' isAt'.mem_files

end Disk

/-! ### What a cache takes for current -/

namespace Cache

variable {α : Type} {cache : Cache α} {d : Disk} {disks : List Disk} {key : String}
  {holds : Disk → String → α → Prop}

/-- On each of the disks, a value that was made from the state that its file has there is one that the file
should have there. -/
def Sound (disks : List Disk) (holds : Disk → String → α → Prop) (cache : Cache α) : Prop :=
  ∀ d ∈ disks, ∀ key item, cache.item? key = some item →
    isCurrent d key item.madeFrom = true → holds d key item.value

theorem sound_empty (disks : List Disk) (holds : Disk → String → α → Prop) :
    (empty : Cache α).Sound disks holds :=
  fun _ _ _ _ found => by cases found

theorem Sound.delete (sound : cache.Sound disks holds) (dropped : String) :
    (cache.delete dropped).Sound disks holds := by
  intro d present key item found current
  rw [item?_delete] at found
  split_ifs at found
  exact sound d present key item found current

/-- The value that is found for a file is one that the file should have. Nothing is kept that was not kept
before. -/
theorem Sound.getFor? (sound : cache.Sound disks holds) (present : d ∈ disks) (key : String) :
    (∀ value, (cache.getFor? d key key).1 = some value → holds d key value) ∧
      (cache.getFor? d key key).2.Sound disks holds := by
  rw [Cache.getFor?]
  cases found : cache.item? key with
  | none => exact ⟨fun _ other => (by cases other), sound⟩
  | some item =>
    dsimp only
    by_cases current : isCurrent d key item.madeFrom = true
    · rw [if_pos current]
      exact ⟨fun value same => by cases same; exact sound d present key item found current, sound⟩
    · rw [if_neg current]
      exact ⟨fun _ other => (by cases other), sound.delete key⟩

/-- A value may be kept that the file should have on every disk on which it is in the present state. -/
theorem Sound.kept (sound : cache.Sound disks holds) {value : α}
    (good : ∀ e ∈ disks, e.fingerprint key = d.fingerprint key → holds e key value) :
    (Reader.kept cache d key value).Sound disks holds := by
  rw [Reader.kept, setFor]
  cases present : d.fingerprint key with
  | error fault => exact sound
  | ok state =>
    intro e isDisk other item found current
    rw [item?_keep] at found
    split_ifs at found with isKey
    · cases found
      subst isKey
      refine good e isDisk ?_
      cases there : e.fingerprint other with
      | error fault => simp only [isCurrent, there, Bool.false_eq_true] at current
      | ok now =>
        simp only [isCurrent, there, beq_iff_eq] at current
        rw [present, current]
    · exact sound e isDisk other item found current

end Cache

/-! ### Requests -/

namespace Reader

/-- What is asked of a reader. -/
inductive Request
  | read (path : String)
  | parse (path : String)
  | forget (path : String)
  | clear
deriving DecidableEq, Repr

/-- What a reader replies. -/
inductive Reply
  | text (result : Except Failure String)
  | unit (result : Except Failure CompilationUnit)
  | done

/-- The reply to a request, and the reader after it. -/
def respond (r : Reader) (d : Disk) : Request → Reply × Reader
  | .read path => (.text (r.readText d path).1, (r.readText d path).2)
  | .parse path => (.unit (r.parseFile d path).1, (r.parseFile d path).2)
  | .forget path => (.done, r.forget path)
  | .clear => (.done, r.clear)

/-- The reply without a cache: the text is read from its file, and the unit is parsed from that text. -/
def plainReply (d : Disk) : Request → Reply
  | .read path => .text (fresh.readText d path).1
  | .parse path => .unit ((fresh.readText d path).1.bind (Source.parseFile (Path.clean path)))
  | .forget _ | .clear => .done

/-- One step of a history: files change in any way, or the reader is asked for something. -/
inductive Step
  | change (after : Disk)
  | ask (request : Request)

/-- The replies of a reader to all requests of a history that begins on the disk. -/
def replies (r : Reader) (d : Disk) : List Step → List Reply
  | [] => []
  | .change after :: rest => r.replies after rest
  | .ask request :: rest => (r.respond d request).1 :: (r.respond d request).2.replies d rest

/-- The replies without a cache. -/
def plainReplies (d : Disk) : List Step → List Reply
  | [] => []
  | .change after :: rest => plainReplies after rest
  | .ask request :: rest => plainReply d request :: plainReplies d rest

/-- All disks of a history that begins on the disk. -/
def disksOf (d : Disk) : List Step → List Disk
  | [] => [d]
  | .change after :: rest => d :: disksOf after rest
  | .ask _ :: rest => disksOf d rest

theorem mem_disksOf (d : Disk) (history : List Step) : d ∈ disksOf d history := by
  induction history with
  | nil => exact List.mem_singleton_self d
  | cons step rest ih =>
    cases step with
    | change after => exact List.mem_cons_self
    | ask request => exact ih

/-! ### Sound readers -/

variable {r : Reader} {d : Disk} {disks : List Disk} {path : String}

/-- What is taken for current, on any of the disks, is what the files hold there. -/
structure Sound (disks : List Disk) (r : Reader) : Prop where
  units : r.units.Sound disks HoldsUnit
  contents : r.contents.Sound disks HoldsText

theorem sound_fresh (disks : List Disk) : fresh.Sound disks :=
  ⟨Cache.sound_empty disks _, Cache.sound_empty disks _⟩

theorem textOf_eq (d : Disk) (path : String) : (fresh.readText d path).1 = d.textOf path :=
  (readText_eq (faithful_fresh d) ⟨rfl, rfl⟩).1

/-- The text of a file that can be read, under its clean path. -/
theorem textOf_clean {clean : String} (isReadable : readable d path = .ok clean) :
    d.textOf clean = d.textOf path := by
  rw [Disk.textOf, Disk.textOf, isReadable, (readable_eq_ok isReadable).2]

theorem readFile_of_textOf {clean text : String} (isReadable : readable d path = .ok clean)
    (isText : d.textOf path = .ok text) : d.readFile clean = .ok text := by
  rw [Disk.textOf, isReadable] at isText
  dsimp only at isText
  split at isText
  · cases isText
  · next read =>
    cases isText
    exact read

/-- **The text of a file** is the present one. -/
theorem Sound.readText (sound : r.Sound disks) (apart : Disk.TellApart disks) (present : d ∈ disks)
    (path : String) :
    (r.readText d path).1 = d.textOf path ∧ (r.readText d path).2.Sound disks := by
  rw [Reader.readText, Disk.textOf]
  cases isReadable : readable d path with
  | error failure => exact ⟨rfl, sound⟩
  | ok clean =>
    obtain ⟨good, still⟩ := sound.contents.getFor? present clean
    dsimp only
    generalize r.contents.getFor? d clean clean = found at good still ⊢
    obtain ⟨known, contents⟩ := found
    cases known with
    | some text =>
      have read : d.readFile clean = .ok text := good text rfl
      rw [read]
      exact ⟨rfl, sound.units, still⟩
    | none =>
      cases read : d.readFile clean with
      | error fault => exact ⟨rfl, sound.units, still⟩
      | ok text =>
        exact ⟨rfl, sound.units, still.kept fun e isDisk same => apart.readFile present isDisk same read⟩

/-- **The unit of a file** is parsed from its present text. -/
theorem Sound.parseFile (sound : r.Sound disks) (apart : Disk.TellApart disks) (present : d ∈ disks)
    (path : String) :
    (r.parseFile d path).1 = (d.textOf path).bind (Source.parseFile (Path.clean path)) ∧
      (r.parseFile d path).2.Sound disks := by
  rw [Reader.parseFile]
  cases isReadable : readable d path with
  | error failure =>
    rw [Disk.textOf, isReadable]
    exact ⟨rfl, sound⟩
  | ok clean =>
    obtain ⟨rfl, -⟩ := readable_eq_ok isReadable
    obtain ⟨good, still⟩ := sound.units.getFor? present (Path.clean path)
    dsimp only
    generalize r.units.getFor? d (Path.clean path) (Path.clean path) = found at good still ⊢
    obtain ⟨known, units⟩ := found
    cases known with
    | some u =>
      obtain ⟨text, read, parsed⟩ := good u rfl
      rw [Disk.textOf, isReadable]
      simp only [read, Except.bind, parsed]
      exact ⟨trivial, still, sound.contents⟩
    | none =>
      have rest : Sound disks { r with units } := ⟨still, sound.contents⟩
      obtain ⟨answer, after⟩ := rest.readText apart present (Path.clean path)
      rw [textOf_clean isReadable] at answer
      dsimp only
      generalize Reader.readText { r with units } d (Path.clean path) = outcome at answer after ⊢
      obtain ⟨result, r'⟩ := outcome
      rw [← answer]
      cases result with
      | error failure => exact ⟨rfl, after⟩
      | ok text =>
        have read := readFile_of_textOf isReadable answer.symm
        dsimp only [Except.bind]
        cases parsed : Source.parseFile (Path.clean path) text with
        | error failure => exact ⟨rfl, after⟩
        | ok u =>
          refine ⟨rfl, after.units.kept fun e isDisk same => ?_, after.contents⟩
          exact ⟨text, apart.readFile present isDisk same read, parsed⟩

/-- **One request.** A sound reader replies what the disk holds, and stays sound. -/
theorem respond_eq (sound : r.Sound disks) (apart : Disk.TellApart disks) (present : d ∈ disks)
    (request : Request) :
    (r.respond d request).1 = plainReply d request ∧ (r.respond d request).2.Sound disks := by
  cases request with
  | read path =>
    obtain ⟨answer, still⟩ := sound.readText apart present path
    exact ⟨by rw [respond, plainReply, answer, textOf_eq], still⟩
  | parse path =>
    obtain ⟨answer, still⟩ := sound.parseFile apart present path
    exact ⟨by rw [respond, plainReply, answer, textOf_eq], still⟩
  | forget path =>
    exact ⟨rfl, sound.units.delete (Path.clean path), sound.contents.delete (Path.clean path)⟩
  | clear => exact ⟨rfl, sound_fresh disks⟩

/-- A sound reader replies what a reader would reply that keeps nothing. -/
theorem Sound.replies_eq (history : List Step) (sound : r.Sound disks)
    (apart : Disk.TellApart disks) (all : ∀ e ∈ disksOf d history, e ∈ disks) :
    r.replies d history = plainReplies d history := by
  induction history generalizing r d with
  | nil => rfl
  | cons step rest ih =>
    cases step with
    | change after => exact ih sound fun e later => all e (List.mem_cons_of_mem d later)
    | ask request =>
      obtain ⟨answer, still⟩ := respond_eq sound apart (all d (mem_disksOf d _)) request
      rw [replies, plainReplies, answer, ih still all]

/-- **A reader never serves stale data.** Files may be written, removed and created again in any way between
the requests, as long as different contents of a path can be told apart. Every text is what reading the
present file gives, and every unit is what parsing that text gives, with the same failures. -/
theorem replies_eq_plainReplies (d : Disk) (history : List Step)
    (apart : Disk.TellApart (disksOf d history)) :
    fresh.replies d history = plainReplies d history :=
  (sound_fresh _).replies_eq history apart fun _ member => member

/-- A class is rewritten at the same size, taken away and put back while it is read and parsed. -/
theorem replies_of_rewritten_class :
    let place := ["w", "A.java"]
    let first := (Disk.bare ["w"]).put place (.file ⟨.text "class A{}", .given 1⟩)
    let second := (Disk.bare ["w"]).put place (.file ⟨.text "class B{}", .given 2⟩)
    let history : List Step := [.ask (.read "A.java"), .ask (.parse "./A.java"), .change second,
      .ask (.parse "A.java"), .change (Disk.bare ["w"]), .ask (.read "A.java"), .change first,
      .ask (.forget "A.java"), .ask (.read "A.java"), .ask .clear, .ask (.parse "A.java")]
    Disk.TellApart (disksOf first history) ∧
      fresh.replies first history = plainReplies first history := by
  intro place first second history
  have apart : Disk.TellApart (disksOf first history) := Disk.tellApart_of_files (by decide)
  exact ⟨apart, replies_eq_plainReplies first history apart⟩

end Reader

end Forwarder
