/-
**The order of the workers makes no difference.** Whatever the number of workers and however their steps
are interleaved, every file comes to the declaration that it holds on the disk. Taking the files one after
the other is one such order.

* `Disk.extractionOf` — what extracting a file comes to, from the disk alone.
* `FileRead.Sound`, `Task.Sound`, `Pool.Sound` — what is true of a reading, a file and all files at any
  time; each step keeps to it.
* **`Pool.Yields.declared_eq`** — extraction in any order.
* **`Pool.yields_extractAll`** — extraction one after the other is extraction in some order.
-/

import Forwarder.Batch.Pool
import Forwarder.Proofs.Files.Reader
import Forwarder.Proofs.Loading.Retention

namespace Forwarder

open Relation (ReflTransGen)

/-- What extracting the file at a path comes to. -/
def Disk.extractionOf (d : Disk) (path : String) : Attempt Decoration :=
  match d.textOf path with
  | .error failure => .failed (.unreadable path (some failure))
  | .ok text =>
    if HeaderPattern.matchesDecorator text then Decoration.read path text else .empty

theorem Disk.extractionOf_atClock (d : Disk) (now : Nat) (path : String) :
    (d.atClock now).extractionOf path = d.extractionOf path := by
  rw [extractionOf, extractionOf, textOf_atClock]

variable {d : Disk} {path : String} {contents : Cache String}

/-! ### Texts alone -/

namespace Reader

/-- Extracting leaves the units alone. -/
theorem units_extract (r : Reader) (d : Disk) (path : String) :
    (r.extract d path).2.units = r.units := by
  have tested := units_readText r d path
  rw [extract, isDecoratable]
  generalize r.readText d path = outcome at tested ⊢
  obtain ⟨answer, s⟩ := outcome
  cases answer with
  | error failure => exact tested
  | ok text =>
    dsimp only at tested ⊢
    cases HeaderPattern.matchesDecorator text with
    | false => exact tested
    | true =>
      have read := units_readText s d path
      dsimp only
      generalize s.readText d path = outcome at read ⊢
      obtain ⟨answer, t⟩ := outcome
      cases answer <;> exact read.trans tested

theorem units_extractAll (r : Reader) (d : Disk) (files : List String) :
    (r.extractAll d files).reader.units = r.units := by
  induction files generalizing r with
  | nil => rfl
  | cons path files ih => exact (ih _).trans (units_extract r d path)

end Reader

/-! ### One reading -/

namespace FileRead

/-- What a reading has found so far is true of the disk. -/
def Sound (d : Disk) (path : String) : FileRead → Prop
  | asked => True
  | looked clean item => Reader.readable d path = .ok clean ∧ ∀ held ∈ item,
      ∃ state, held.madeFrom = some state ∧ d.fingerprint clean = .ok state ∧
        Reader.HoldsText d clean held.value
  | fetched clean text => Reader.readable d path = .ok clean ∧ d.readFile clean = .ok text
  | done answer => answer = d.textOf path

/-- **One step of a reading.** -/
theorem Sound.next {reading : FileRead} (sound : reading.Sound d path)
    (faithful : contents.Faithful d (Reader.HoldsText d)) :
    (reading.next d path contents).1.Sound d path ∧
      (reading.next d path contents).2.Faithful d (Reader.HoldsText d) := by
  cases reading with
  | asked =>
    rw [FileRead.next]
    cases readable : Reader.readable d path with
    | error failure => exact ⟨by rw [Sound, Disk.textOf, readable], faithful⟩
    | ok clean => exact ⟨⟨readable, fun held isHeld => faithful clean held isHeld⟩, faithful⟩
  | looked clean item =>
    obtain ⟨readable, held⟩ := sound
    cases item with
    | none =>
      rw [FileRead.next]
      cases read : d.readFile clean with
      | error fault =>
        refine ⟨?_, faithful⟩
        rw [Sound, Disk.textOf, readable]
        simp only [read]
      | ok text => exact ⟨⟨readable, read⟩, faithful⟩
    | some item =>
      obtain ⟨state, madeFrom, present, good⟩ := held item rfl
      have current : Cache.isCurrent d clean item.madeFrom = true := by
        simp only [Cache.isCurrent, madeFrom, present, beq_self_eq_true]
      rw [FileRead.next, if_pos current]
      refine ⟨?_, faithful⟩
      have read : d.readFile clean = .ok item.value := good
      rw [Sound, Disk.textOf, readable]
      simp only [read]
  | fetched clean text =>
    obtain ⟨readable, read⟩ := sound
    refine ⟨?_, faithful.kept rfl read⟩
    rw [FileRead.next, Sound, Disk.textOf, readable]
    simp only [read]
  | done answer => exact ⟨sound, faithful⟩

end FileRead

/-! ### One file -/

namespace Task

/-- What the work on a file has found so far is true of the disk. -/
def Sound (d : Disk) (path : String) : Task → Prop
  | waiting => True
  | testing reading => reading.Sound d path
  | extracting reading => reading.Sound d path ∧
      ∃ text, d.textOf path = .ok text ∧ HeaderPattern.matchesDecorator text = true
  | finished attempt => attempt = d.extractionOf path

theorem sound_tested {answer : Except Failure String} (isText : answer = d.textOf path) :
    (tested path answer).Sound d path := by
  cases answer with
  | error failure => rw [tested, Sound, Disk.extractionOf, ← isText]
  | ok text =>
    rw [tested]
    by_cases isMatch : HeaderPattern.matchesDecorator text = true
    · rw [if_pos isMatch]
      exact ⟨trivial, text, isText.symm, isMatch⟩
    · rw [if_neg isMatch, Sound, Disk.extractionOf, ← isText]
      simp only [isMatch]
      rfl

theorem extracted_eq {answer : Except Failure String} (isText : answer = d.textOf path)
    (isMatch : ∃ text, d.textOf path = .ok text ∧ HeaderPattern.matchesDecorator text = true) :
    extracted path answer = d.extractionOf path := by
  obtain ⟨text, read, isMatch⟩ := isMatch
  rw [isText, Disk.extractionOf, read]
  simp only [extracted, isMatch, if_true]

/-- **One step of the work on a file.** -/
theorem Sound.next {task : Task} (sound : task.Sound d path)
    (faithful : contents.Faithful d (Reader.HoldsText d)) :
    (task.next d path contents).1.Sound d path ∧
      (task.next d path contents).2.Faithful d (Reader.HoldsText d) := by
  cases task with
  | waiting => exact ⟨sound, faithful⟩
  | testing reading =>
    have sound : reading.Sound d path := sound
    cases reading with
    | done answer => exact ⟨sound_tested sound, faithful⟩
    | _ => exact FileRead.Sound.next sound faithful
  | extracting reading =>
    obtain ⟨sound, isMatch⟩ := sound
    cases reading with
    | done answer => exact ⟨extracted_eq sound isMatch, faithful⟩
    | _ => exact (FileRead.Sound.next sound faithful).imp_left fun sound => ⟨sound, isMatch⟩
  | finished attempt => exact ⟨sound, faithful⟩

end Task

/-! ### All files -/

namespace Pool

variable {workers : Int} {files : List String} {pool next : Pool}

/-- What is shared, and what was found for each file, is true of the disk. -/
structure Sound (d : Disk) (files : List String) (pool : Pool) : Prop where
  contents : pool.contents.Faithful d (Reader.HoldsText d)
  files : pool.tasks.map (·.1) = files
  tasks : ∀ entry ∈ pool.tasks, entry.2.Sound d entry.1

theorem sound_waiting (d : Disk) (files : List String) : (waiting files).Sound d files where
  contents := Cache.faithful_empty d _
  files := by simp [waiting, Function.comp_def]
  tasks entry member := by
    obtain ⟨path, -, rfl⟩ := List.mem_map.mp member
    trivial

/-- **One step of one worker.** -/
theorem Sound.step (sound : pool.Sound d files) (step : Step workers d pool next) :
    next.Sound d files := by
  obtain ⟨faithful, isFiles, tasks⟩ := sound
  cases step with
  | begin inTurn free =>
    refine ⟨faithful, by simpa using isFiles, ?_⟩
    rw [List.forall_mem_append, List.forall_mem_cons] at tasks ⊢
    exact ⟨tasks.1, trivial, tasks.2.2⟩
  | work underWay =>
    rw [List.forall_mem_append, List.forall_mem_cons] at tasks
    obtain ⟨before, here, after⟩ := tasks
    obtain ⟨sound, faithful⟩ := Task.Sound.next here faithful
    refine ⟨faithful, by simpa using isFiles, ?_⟩
    rw [List.forall_mem_append, List.forall_mem_cons]
    exact ⟨before, sound, after⟩

/-- All steps, in whatever order. -/
theorem Sound.steps (sound : pool.Sound d files) (steps : ReflTransGen (Step workers d) pool next) :
    next.Sound d files := by
  induction steps with
  | refl => exact sound
  | tail _ step ih => exact ih.step step

/-- **In any order** every file comes to what it holds on the disk, and what the workers leave behind is
what the disk holds. -/
theorem Yields.declared_eq {e : Extraction} (yields : Yields workers d files e) :
    e.declared = files.map (fun path => (path, d.extractionOf path)) ∧ e.reader.Faithful d := by
  obtain ⟨steps, noUnits⟩ := yields
  obtain ⟨faithful, isFiles, tasks⟩ := (sound_waiting d files).steps steps
  refine ⟨?_, ?_, faithful⟩
  · have each : ∀ entry ∈ e.declared, entry.2 = d.extractionOf entry.1 := fun entry member =>
      tasks _ (List.mem_map_of_mem member)
    have paths : e.declared.map (·.1) = files := by
      rw [← isFiles, finished, List.map_map]
      rfl
    rw [← paths, List.map_map]
    refine (List.map_id _).symm.trans (List.map_congr_left fun entry member => ?_)
    exact Prod.ext rfl (each entry member)
  · rw [noUnits]
    exact Cache.faithful_empty d _

/-! ### One after the other -/

variable {before after : List (String × Task)}

/-- One step of a reading, in either of its two rounds. -/
theorem step_reading {wrap : FileRead → Task} (isWrap : wrap = .testing ∨ wrap = .extracting)
    {reading after_ : FileRead} {contents' : Cache String}
    (next : reading.next d path contents = (after_, contents'))
    (notDone : ∀ answer, reading ≠ .done answer) :
    Step workers d ⟨contents, before ++ (path, wrap reading) :: after⟩
      ⟨contents', before ++ (path, wrap after_) :: after⟩ := by
  have underWay : (wrap reading).isUnderWay = true := by
    rcases isWrap with rfl | rfl <;> rfl
  have wrapped : (wrap reading).next d path contents = (wrap after_, contents') := by
    rcases isWrap with rfl | rfl <;> cases reading <;>
      first | exact absurd rfl (notDone _) | (simp only [Task.next, next])
  have work : Step workers d ⟨contents, before ++ (path, wrap reading) :: after⟩
      ⟨((wrap reading).next d path contents).2,
        before ++ (path, ((wrap reading).next d path contents).1) :: after⟩ := .work underWay
  rwa [wrapped] at work

/-- A reading that missed the cache goes to the disk. -/
theorem steps_missed {wrap : FileRead → Task} (isWrap : wrap = .testing ∨ wrap = .extracting)
    (path clean : String) (r : Reader) (contents : Cache String) :
    let outcome : Except Failure String × Reader :=
      match d.readFile clean with
      | .error fault => (.error (Reader.readFailure clean fault), { r with contents })
      | .ok text => (.ok text, { r with contents := Reader.kept contents d clean text })
    ReflTransGen (Step workers d) ⟨contents, before ++ (path, wrap (.looked clean none)) :: after⟩
      ⟨outcome.2.contents, before ++ (path, wrap (.done outcome.1)) :: after⟩ := by
  cases read : d.readFile clean with
  | error fault =>
    exact .single (step_reading isWrap (by rw [FileRead.next, read]) (by simp))
  | ok text =>
    exact .head (step_reading isWrap (by rw [FileRead.next, read]) (by simp))
      (.single (step_reading isWrap rfl (by simp)))

/-- A reading goes on to its end while all others wait. -/
theorem steps_reading {wrap : FileRead → Task} (isWrap : wrap = .testing ∨ wrap = .extracting)
    (path : String) (r : Reader) :
    ReflTransGen (Step workers d) ⟨r.contents, before ++ (path, wrap .asked) :: after⟩
      ⟨(r.readText d path).2.contents,
        before ++ (path, wrap (.done (r.readText d path).1)) :: after⟩ := by
  rw [Reader.readText]
  cases readable : Reader.readable d path with
  | error failure =>
    exact .single (step_reading isWrap (by rw [FileRead.next, readable]) (by simp))
  | ok clean =>
    refine .head (step_reading isWrap (by rw [FileRead.next, readable]) (by simp)) ?_
    dsimp only
    rw [Cache.getFor?]
    cases r.contents.item? clean with
    | none => exact steps_missed isWrap path clean r r.contents
    | some item =>
      dsimp only
      by_cases current : Cache.isCurrent d clean item.madeFrom = true
      · rw [if_pos current]
        exact .single (step_reading isWrap (by rw [FileRead.next, if_pos current]) (by simp))
      · rw [if_neg current]
        exact .head (step_reading isWrap (by rw [FileRead.next, if_neg current]) (by simp))
          (steps_missed isWrap path clean r _)

/-- The work on a file goes on behind the end of a reading. -/
theorem step_done {task task' : Task} (underWay : task.isUnderWay = true)
    (next : task.next d path contents = (task', contents)) :
    Step workers d ⟨contents, before ++ (path, task) :: after⟩
      ⟨contents, before ++ (path, task') :: after⟩ := by
  have work : Step workers d ⟨contents, before ++ (path, task) :: after⟩
      ⟨(task.next d path contents).2, before ++ (path, (task.next d path contents).1) :: after⟩ :=
    .work underWay
  rwa [next] at work

/-- A file is worked on to its end while all others wait. -/
theorem steps_file (inTurn : ∀ entry ∈ before, entry.2 ≠ .waiting)
    (idle : ∀ entry ∈ before ++ after, entry.2.isUnderWay = false) (path : String) (r : Reader) :
    ReflTransGen (Step workers d) ⟨r.contents, before ++ (path, .waiting) :: after⟩
      ⟨(r.extract d path).2.contents,
        before ++ (path, .finished (r.extract d path).1) :: after⟩ := by
  have free : (load (before ++ after) : Int) < max 1 workers := by
    have none_ : load (before ++ after) = 0 := List.countP_eq_zero.mpr fun entry member =>
      Bool.eq_false_iff.mp (idle entry member)
    rw [none_]
    omega
  refine .head (.begin inTurn free) ((steps_reading (.inl rfl) path r).trans ?_)
  rw [Reader.extract, Reader.isDecoratable]
  generalize r.readText d path = outcome
  obtain ⟨answer, r⟩ := outcome
  cases answer with
  | error failure => exact .single (step_done rfl rfl)
  | ok text =>
    dsimp only
    cases isMatch : HeaderPattern.matchesDecorator text with
    | false => exact .single (step_done rfl (by simp [Task.next, Task.tested, isMatch]))
    | true =>
      have again : (Task.testing (.done (.ok text))).next d path r.contents =
          (.extracting .asked, r.contents) := by simp [Task.next, Task.tested, isMatch]
      dsimp only
      refine .head (step_done rfl again) ((steps_reading (.inr rfl) path r).trans ?_)
      generalize r.readText d path = outcome
      obtain ⟨answer, r⟩ := outcome
      cases answer <;> exact .single (step_done rfl rfl)

/-- **One after the other** is one of the orders. -/
theorem yields_extractAll (workers : Int) (d : Disk) (files : List String) :
    Yields workers d files (Reader.fresh.extractAll d files) := by
  have along (before : List (String × Attempt Decoration)) (r : Reader) :
      ReflTransGen (Step workers d)
        ⟨r.contents, (finished ⟨before, r⟩).tasks ++ (waiting files).tasks⟩
        (finished ⟨before ++ (r.extractAll d files).declared, (r.extractAll d files).reader⟩) := by
    induction files generalizing before r with
    | nil => simpa [waiting, finished, Reader.extractAll] using ReflTransGen.refl
    | cons path files ih =>
      have ended : ∀ entry ∈ (finished ⟨before, r⟩).tasks, ∃ attempt, entry.2 = .finished attempt := by
        intro entry member
        obtain ⟨⟨_, attempt⟩, -, rfl⟩ := List.mem_map.mp member
        exact ⟨attempt, rfl⟩
      have begun : ∀ entry ∈ (finished ⟨before, r⟩).tasks, entry.2 ≠ .waiting := by
        intro entry member isWaiting
        obtain ⟨attempt, isFinished⟩ := ended entry member
        cases isFinished.symm.trans isWaiting
      have idle : ∀ entry ∈ (finished ⟨before, r⟩).tasks ++ (waiting files).tasks,
          entry.2.isUnderWay = false := by
        intro entry member
        rcases List.mem_append.mp member with member | member
        · obtain ⟨attempt, isFinished⟩ := ended entry member
          rw [isFinished, Task.isUnderWay]
          all_goals simp
        · obtain ⟨_, -, rfl⟩ := List.mem_map.mp member
          rfl
      refine (steps_file begun idle path r).trans ?_
      simpa [finished, waiting, Reader.extractAll] using
        ih (before ++ [(path, (r.extract d path).1)]) (r.extract d path).2
  exact ⟨along [] .fresh, Reader.units_extractAll _ d files⟩

end Pool

end Forwarder
