/-
**Writing in steps leaves no traces.** A file under a temporary name is there only between two steps: it is
given its own name, or it is removed when anything fails. So writing in steps leaves what writing at once
leaves, or it fails and nothing is left of it but directories.

* `Disk.drop_put` — what was put where nothing was can be removed again.
* `Disk.replaceInSteps_or` — nothing has changed, or all is up to the renaming.
* `Disk.dug_makeDirsInSteps` — the directories that are made.
* **`Disk.writeInSteps_cases`** — what is left, whatever fails.
* **`Disk.exists_writeInSteps`** — writing at once is writing in steps none of which fails.
-/

import Forwarder.Files.Steps
import Forwarder.Proofs.Disk.Rewriting
import Mathlib.Data.Finset.Preimage
import Mathlib.Data.Fintype.EquivFin

namespace Forwarder.Disk

open Forwarder.Path (goal IsEntryName Normal ofComponents)

variable {d e : Disk} {here place : Place} {absolute : Bool} {front : List String} {name : String}
  {t : Treatment}

/-! ### Putting and removing -/

theorem drop_put (nothing : d.entry? place = none) (entry : Entry) : (d.put place entry).drop place = d := by
  have some_ : place ≠ [] := by
    rintro rfl
    cases nothing
  unfold entry? at nothing
  rw [if_neg some_, List.lookup_eq_none_iff] at nothing
  have kept : d.entries.filter (·.1 != place) = d.entries := by
    refine List.filter_eq_self.mpr fun entry member => ?_
    rw [bne_comm]
    exact bne_iff_ne.mpr (bne_iff_ne.mp (nothing entry member))
  simp only [drop, put, kept, List.filter_append]
  simp

theorem put_put (d : Disk) (place : Place) (first second : Entry) :
    (d.put place first).put place second = d.put place second := by
  simp [put, List.filter_append, List.filter_filter]

theorem isDirAt_put_new (nothing : d.entry? here = none) (entry : Entry) (isDir : d.isDirAt place = true) :
    (d.put here entry).isDirAt place = true := by
  have some_ : here ≠ [] := by
    rintro rfl
    cases nothing
  have away : place ≠ here := by
    rintro rfl
    rw [isDirAt_iff, nothing] at isDir
    cases isDir
  rw [isDirAt_iff] at isDir ⊢
  rw [entry?_put d here place entry some_, if_neg away, isDir]

/-- What is put where nothing was does not stand in the way. -/
theorem place_put (nothing : d.entry? here = none) (entry : Entry) {path : String}
    (found : d.place path = .ok place) : (d.put here entry).place path = .ok place := by
  have some_ : here ≠ [] := by
    rintro rfl
    cases nothing
  refine place_mono (d := d) rfl (fun _ => isDirAt_put_new nothing entry) (fun q none_ => ?_) found
  rw [entry?_put d here q entry some_] at none_
  split_ifs at none_
  exact none_

/-! ### The last step -/

/-- A file under a temporary name is renamed as if its text were written at once. -/
theorem rename_cases (normal : Normal absolute front) (isName : IsEntryName name) {temporary : String}
    (cwd : d.isDirAt d.cwd = true) (stands : d.place (ofComponents absolute front) = .ok here)
    (isDir : d.isDirAt here = true) (nothing : d.entry? (here ++ [temporary]) = none) (text shown : String) :
    let file : File := ⟨.text text, .tick d.clock⟩
    let path := ofComponents absolute (front ++ [name])
    let renamed := (d.put (here ++ [temporary]) (.file file)).rename (here ++ [temporary]) file shown path
    if blocked? path name = none ∧ d.isDirAt (here ++ [name]) = false then
      renamed = .ok (d.put (here ++ [name]) (.file file))
    else ∃ fault, renamed = .error fault := by
  intro file path renamed
  have some_ : here ++ [temporary] ≠ [] := List.append_ne_nil_of_right_ne_nil _ (List.cons_ne_nil _ _)
  have stands' := place_put nothing (.file file) stands
  have named := resolve_name normal isName (isDirAt_put_new nothing (.file file) cwd) stands'
    (isDirAt_put_new nothing (.file file) isDir)
  rw [entry?_put d _ _ _ some_] at named
  have aimed := target_name normal isName stands'
  simp only [renamed, path, rename, named, aimed, drop_put nothing]
  cases blocked? (ofComponents absolute (front ++ [name])) name with
  | some refusal => exact ⟨_, rfl⟩
  | none =>
    rw [isDirAt]
    by_cases same : here ++ [name] = here ++ [temporary]
    · -- The file has its own name from the start.
      rw [if_pos same, same, nothing]
      exact rfl
    rw [if_neg same]
    rcases d.entry? (here ++ [name]) with _ | _ | old
    · exact rfl
    · exact ⟨_, rfl⟩
    · exact rfl

/-- **Nothing has changed, or all is up to the last step.** The former happens if a step is refused or if
the temporary name is taken. -/
theorem replaceInSteps_or {dir : String} (stands : d.place dir = .ok here) (t : Treatment)
    (path text : String) :
    let file : File := ⟨.text text, .tick d.clock⟩
    let place := here ++ [t.name]
    let outcome := d.replaceInSteps t dir path text
    (∃ failure, outcome = (some failure, d) ∧
        ¬((∀ step, t.refusal step = none) ∧ d.entry? place = none)) ∨
      d.entry? place = none ∧ ∃ shown, outcome =
        match (d.put place (.file file)).rename place file shown path with
        | .error fault => (some (.system fault), d)
        | .ok renamed => (none, { renamed with clock := d.clock + 1 }) := by
  intro file place outcome
  have refused {step : WriteStep} {failure : Failure} (refusal : t.refusal step = some failure) :
      ¬((∀ step, t.refusal step = none) ∧ d.entry? place = none) := by
    rintro ⟨fair, -⟩
    rw [fair] at refusal
    cases refusal
  simp only [outcome, replaceInSteps, stands]
  cases create : t.refusal .create with
  | some failure => exact .inl ⟨_, rfl, refused create⟩
  | none =>
    cases nothing : d.entry? (here ++ [t.name]) with
    | some entry => exact .inl ⟨_, rfl, fun unrefused => Option.some_ne_none entry unrefused.2⟩
    | none =>
      cases fill : t.refusal .fill with
      | some failure =>
        exact .inl ⟨failure, congrArg _ (drop_put nothing _), fun unrefused => refused fill ⟨unrefused.1, nothing⟩⟩
      | none =>
        simp only [put_put, drop_put nothing]
        cases later : (t.refusal .flush).or ((t.refusal .close).or (t.refusal .rename)) with
        | some failure =>
          refine .inl ⟨failure, rfl, fun unrefused => ?_⟩
          rw [unrefused.1, unrefused.1, unrefused.1] at later
          cases later
        | none =>
          exact .inr ⟨trivial, (if Text.endsIn dir "/" then dir else dir ++ "/") ++ t.name, rfl⟩

/-- **The text is there, or nothing has changed.** The latter happens only if a step is refused, if the
temporary name is taken, or if no file can have the name. -/
theorem replaceInSteps_cases (normal : Normal absolute front) (isName : IsEntryName name)
    (cwd : d.isDirAt d.cwd = true)
    (stands : d.place (ofComponents absolute front) = .ok here) (isDir : d.isDirAt here = true)
    (text : String) :
    let path := ofComponents absolute (front ++ [name])
    let outcome := d.replaceInSteps t (ofComponents absolute front) path text
    let nameable := blocked? path name = none ∧ d.isDirAt (here ++ [name]) = false
    (∃ failure, outcome = (some failure, d) ∧
      ((∀ step, t.refusal step = none) → d.entry? (here ++ [t.name]) = none → ¬nameable)) ∨
      nameable ∧ outcome = (none, d.withText (here ++ [name]) text) := by
  intro path outcome nameable
  rcases replaceInSteps_or stands t path text with ⟨failure, failed, unfair⟩ | ⟨nothing, shown, isOutcome⟩
  · exact .inl ⟨failure, failed, fun fair free => absurd ⟨fair, free⟩ unfair⟩
  have renamed := rename_cases normal isName cwd stands isDir nothing text shown
  dsimp only at renamed isOutcome
  by_cases isNameable : nameable
  · rw [if_pos isNameable] at renamed
    rw [renamed] at isOutcome
    exact .inr ⟨isNameable, isOutcome⟩
  · rw [if_neg isNameable] at renamed
    obtain ⟨fault, isRefused⟩ := renamed
    rw [isRefused] at isOutcome
    exact .inl ⟨_, isOutcome, fun _ _ => isNameable⟩

/-! ### Directories -/

theorem take_rungs (absolute : Bool) (front back : List String) (count : Nat) :
    (rungs absolute front back).take count = rungs absolute front (back.take count) := by
  induction back generalizing front count with
  | nil => rw [List.take_nil, rungs, List.take_nil]
  | cons c rest ih =>
    cases count with
    | zero => rfl
    | succ count => rw [rungs, List.take_succ_cons, List.take_succ_cons, rungs, ih]

theorem take_stations (here : Place) (components : List String) (count : Nat) :
    (stations here components).take count = stations here (components.take count) := by
  induction components generalizing here count with
  | nil => rw [List.take_nil, stations, List.take_nil]
  | cons c rest ih =>
    cases count with
    | zero => rfl
    | succ count => rw [stations, List.take_succ_cons, List.take_succ_cons, stations, ih]

/-- Making only the first directories makes directories above the goal. -/
theorem dug_makeEach_take (normal : Normal absolute front) (grounded : d.IsGrounded) (count : Nat) :
    Dug (· <+: goal (d.ground absolute) front) d
      (d.makeEach ((Path.ancestors (ofComponents absolute front)).take count)).2 := by
  have isDir : d.isDirAt (d.ground absolute) = true := grounded _ (ground_above d absolute)
  have stands : d.place (ofComponents absolute []) = .ok (d.ground absolute) := by
    rw [place_ofComponents .nil grounded.cwd]
    cases absolute <;> rfl
  have first : Normal absolute ([] ++ front.take count) :=
    (Normal.of_append (List.take_append_drop count front ▸ normal)).1
  have along := makeEach_rungs first grounded stands isDir fun _ => ground_above d absolute
  rw [ancestors_eq_rungs normal, take_rungs]
  refine along.dug.mono fun place member nothing => ?_
  rw [← take_stations] at member
  refine (mem_stations normal (List.mem_of_mem_take member)).resolve_right fun isAbove => ?_
  rw [isDirAt_iff.mp (grounded place (isAbove.trans (ground_above d absolute)))] at nothing
  cases nothing

/-- All directories are made if nothing but the system fails. -/
theorem makeDirsInSteps_none (d : Disk) (dir : String) :
    (d.makeDirsInSteps none dir).2 = (d.makeDirs dir).2 := by
  unfold makeDirsInSteps
  rfl

/-- **The directories that are made**, whatever fails. -/
theorem dug_makeDirsInSteps (normal : Normal absolute front) (grounded : d.IsGrounded)
    (room : Option (Nat × Failure)) :
    Dug (· <+: goal (d.ground absolute) front) d
      (d.makeDirsInSteps room (ofComponents absolute front)).2 := by
  cases room with
  | none =>
    rw [makeDirsInSteps_none]
    exact (makeDirs_along normal grounded).2.1
  | some limit => exact dug_makeEach_take normal grounded limit.1

/-! ### The whole file -/

/-- **Writing in steps** fails and leaves nothing but directories, or it leaves the written file. The former
happens only if a step is refused, if the temporary name is taken, or if no file can have the name. -/
theorem writeInSteps_cases (normal : Normal absolute front) (isName : IsEntryName name)
    (grounded : d.IsGrounded) (text : String) :
    let path := ofComponents absolute (front ++ [name])
    let here := goal (d.ground absolute) front
    ((∃ failure, (d.writeInSteps t path text).1 = .error failure) ∧
        Dug (· <+: here) d (d.writeInSteps t path text).2 ∧
        (t.room = none → (∀ step, t.refusal step = none) → d.entry? (here ++ [t.name]) = none →
          ¬d.Fits absolute front name)) ∨
      d.Fits absolute front name ∧ d.writeInSteps t path text = (.ok (), d.written absolute front name text) := by
  intro path here
  have both := normal.concat isName
  rw [writeInSteps, checkedPath_ofComponents both, written, prepared, foldersOf]
  by_cases climbs_ : climbs (ofComponents absolute (front ++ [name])) = true
  · rw [if_pos climbs_]
    refine .inl ⟨⟨_, rfl⟩, .refl _ d, fun _ _ _ fits => ?_⟩
    rw [fits.level] at climbs_
    cases climbs_
  rw [if_neg climbs_, if_neg climbs_]
  have dug := dug_makeDirsInSteps normal grounded t.room
  simp only [Path.dir_ofComponents both]
  cases limit : t.room with
  | some limit =>
    rw [limit] at dug
    exact .inl ⟨⟨_, rfl⟩, dug, fun noLimit => by cases noLimit⟩
  | none =>
    rw [limit] at dug
    have along := makeDirs_along normal grounded
    simp only [makeDirsInSteps] at dug ⊢
    rw [makeDirs_closed normal grounded] at along dug ⊢
    obtain ⟨-, -, reached⟩ := along
    cases free : d.firstObstacle? absolute [] (d.ground absolute) front with
    | some obstacle =>
      refine .inl ⟨⟨_, rfl⟩, dug, fun _ _ _ fits => ?_⟩
      rw [fits.free] at free
      cases free
    | none =>
      obtain ⟨stands, isDir⟩ := reached free
      generalize d.withFolders (d.passed absolute [] (d.ground absolute) front) = made at *
      have sameDir : made.isDirAt (here ++ [name]) = d.isDirAt (here ++ [name]) := by
        rw [isDirAt, isDirAt, dug.entry?_name]
      have cwd := (dug.isGrounded grounded).cwd
      dsimp only [Option.map_none]
      rcases replaceInSteps_cases normal isName cwd stands isDir text with
        ⟨failure, failed, unfair⟩ | ⟨⟨allowed, noDir⟩, done⟩
      · rw [failed]
        refine .inl ⟨⟨_, rfl⟩, dug, fun _ fair unused fits => ?_⟩
        exact unfair fair (dug.entry?_name.trans unused) ⟨fits.allowed, sameDir.trans fits.noDir⟩
      · rw [done]
        exact .inr ⟨⟨Bool.eq_false_iff.mpr climbs_, free, allowed, sameDir.symm.trans noDir⟩, rfl⟩

/-- A temporary name that is not taken. -/
theorem exists_free (d : Disk) (here : Place) :
    ∃ ending, d.entry? (here ++ [(Treatment.fair ending).name]) = none := by
  let taken (n : Nat) : Place := here ++ [(Treatment.fair (String.ofList (List.replicate n '0'))).name]
  have different : Function.Injective taken := by
    intro n m same
    have names := List.singleton_inj.mp (List.append_cancel_left same)
    have lengths := congrArg String.length names
    simpa [Treatment.name, Treatment.fair] using lengths
  obtain ⟨n, free⟩ := Infinite.exists_notMem_finset
    ((d.entries.map (·.1)).toFinset.preimage taken different.injOn)
  rw [Finset.mem_preimage, List.mem_toFinset] at free
  refine ⟨String.ofList (List.replicate n '0'), ?_⟩
  cases found : d.entry? (taken n) with
  | none => rfl
  | some entry =>
    unfold entry? at found
    rw [if_neg (List.append_ne_nil_of_right_ne_nil _ (List.cons_ne_nil _ _))] at found
    exact absurd (List.mem_map_of_mem (mem_of_lookup_eq_some found)) free

/-- The system lets no file be made. -/
def barred (failure : Failure) : Treatment :=
  ⟨"", none, fun _ => some failure⟩

/-- Where no file can be made, the directories above it can be. -/
theorem writeInSteps_barred (normal : Normal absolute front) (isName : IsEntryName name)
    (grounded : d.IsGrounded) (text : String) (failure : Failure) :
    (d.writeInSteps (barred failure) (ofComponents absolute (front ++ [name])) text).2 =
      d.prepared absolute front name := by
  have both := normal.concat isName
  rw [writeInSteps, checkedPath_ofComponents both, prepared, foldersOf]
  by_cases climbs_ : climbs (ofComponents absolute (front ++ [name])) = true
  · rw [if_pos climbs_, if_pos climbs_]
    rfl
  rw [if_neg climbs_, if_neg climbs_]
  have along := makeDirs_along normal grounded
  simp only [Path.dir_ofComponents both, makeDirsInSteps, barred]
  rw [makeDirs_closed normal grounded] at along ⊢
  cases free : d.firstObstacle? absolute [] (d.ground absolute) front with
  | some obstacle => rfl
  | none =>
    obtain ⟨stands, -⟩ := along.2.2 free
    simp only [Option.map_none, replaceInSteps, stands]

/-- **Writing at once** is writing in steps, none of which is refused if it succeeds. -/
theorem exists_writeInSteps (normal : Normal absolute front) (isName : IsEntryName name)
    (grounded : d.IsGrounded) (text : String) :
    let path := ofComponents absolute (front ++ [name])
    ∃ t, (d.writeInSteps t path text).2 = (d.write path text).2 := by
  intro path
  rw [write_closed normal isName grounded]
  cases writable : d.writeFailure? absolute front name with
  | some failure => exact ⟨barred failure, writeInSteps_barred normal isName grounded text failure⟩
  | none =>
    obtain ⟨fits, -⟩ := writable_iff.mp writable
    obtain ⟨ending, unused⟩ := d.exists_free (goal (d.ground absolute) front)
    rcases writeInSteps_cases (t := .fair ending) normal isName grounded text with ⟨-, -, unfit⟩ | ⟨-, done⟩
    · exact absurd fits (unfit rfl (fun _ => rfl) unused)
    · exact ⟨.fair ending, congrArg Prod.snd done⟩

end Forwarder.Disk
