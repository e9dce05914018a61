/-
**What units leave behind.** A unit that is written leaves its source in its own file, and nothing in any
other. So after all units every file holds the last source that was written to it, or what it held before;
and a second writing finds the directories that the first one has made.

* `Output.content_write`, `content_generate` — the files after one unit.
* `Product.Places` — a product has a unit, and its output is the path of it.
* `lastText?` — the last source that was written to a place.
* **`content_generateAll`** — the files after all units.
* `Output.Settled`, `settled_generateAll` — every unit has been written, as far as it can be.
* **`isDirAt_generateAll`** — no directory is made for units that are settled.
-/

import Forwarder.Proofs.Batch.Products
import Forwarder.Proofs.Disk.Proper

namespace Forwarder

open Disk (Grown)
open Forwarder.Path (ofComponents)

variable {config : Config} {d e : Disk} {out : Output} {u v : GeneratedUnit} {place : Place}

/-! ### One unit -/

namespace Output

/-- The path of a unit depends on its package and its class alone. -/
theorem pathOf_congr (samePackage : u.packageName = v.packageName)
    (sameClass : u.className = v.className) : out.pathOf u = out.pathOf v := by
  simp only [pathOf, front, GeneratedUnit.folders, GeneratedUnit.fileName, samePackage, sameClass]

/-- Units at one place have one path. -/
theorem pathOf_of_target (same : out.target d u = out.target d v) : out.pathOf u = out.pathOf v := by
  rw [target, target, List.append_assoc, List.append_assoc, List.append_cancel_left_eq] at same
  rw [pathOf, pathOf, front, front, List.append_assoc, List.append_assoc, same]

theorem target_of_cwd (same : e.cwd = d.cwd) (u : GeneratedUnit) : out.target e u = out.target d u := by
  simp only [target, Disk.spot, Disk.start, same]

/-- **A unit that is written** is found under its path. -/
theorem fileAt_write (wet : out.dryRun = false) (free : '/' ∉ u.className.toList)
    (grounded : d.IsGrounded) {path : String} (done : (out.write d u).path = .ok path) :
    ∃ file, (out.write d u).disk.FileAt path (out.target d u) file ∧ file.content = .text u.source := by
  obtain ⟨placed, wrote, after⟩ := write_of_ok wet done
  rcases place_exact out free with ⟨failure, unplaced⟩ | placed'
  · rw [unplaced] at placed
    cases placed
  · obtain rfl : path = out.pathOf u := Except.ok.inj (placed.symm.trans placed')
    have leads := leadsBelow out free d
    have found := Disk.fileAt_write leads.normal leads.isName grounded wrote
    rw [goal_front] at found
    rw [after]
    exact found

/-- The disk after a unit with a path. -/
theorem disk_write (wet : out.dryRun = false) {path : String} (placed : out.place u = .ok path) :
    (out.write d u).disk = (d.write path u.source).2 ∧
      ((out.write d u).path.isOk = true ↔ (d.write path u.source).1 = .ok ()) := by
  simp only [write, placed, wet, Bool.false_eq_true, if_false]
  generalize d.write path u.source = outcome
  obtain ⟨result, after⟩ := outcome
  cases result with
  | ok => exact ⟨rfl, fun _ => rfl, fun _ => rfl⟩
  | error failure => exact ⟨rfl, fun done => absurd done Bool.false_ne_true, fun done => by cases done⟩

/-- The files at other places stay when a unit is written, and all files do when it cannot be. -/
theorem file?_write (wet : out.dryRun = false) (free : '/' ∉ u.className.toList)
    (grounded : d.IsGrounded)
    (away : (out.write d u).path.isOk = true → place ≠ out.target d u) :
    (out.write d u).disk.file? place = d.file? place := by
  rcases place_exact out free with ⟨failure, unplaced⟩ | placed
  · rw [write_of_unplaced unplaced]
  · have leads := leadsBelow out free d
    obtain ⟨after, done⟩ := disk_write (d := d) wet placed
    rw [done, target, ← goal_front] at away
    rw [after]
    exact Disk.file?_write leads.normal leads.isName grounded away

/-- The disk stays proper. -/
theorem isProper_write (wet : out.dryRun = false) (free : '/' ∉ u.className.toList) (proper : d.IsProper) :
    (out.write d u).disk.IsProper := by
  rcases place_exact out free with ⟨failure, unplaced⟩ | placed
  · rwa [write_of_unplaced unplaced]
  · have leads := leadsBelow out free d
    rw [(disk_write wet placed).1]
    exact proper.write leads.normal leads.isName u.source

end Output

/-! ### Products -/

/-- The product is that of a unit, and its output is the path of the unit. -/
structure Product.Places (p : Product) (out : Output) (u : GeneratedUnit) : Prop where
  unit : p.unit? = some u
  free : '/' ∉ u.className.toList
  output : p.result.output = out.pathOf u

theorem Product.Places.source {p : Product} (places : p.Places out u) : p.source = u.source := by
  rw [Product.source, places.unit]
  rfl

/-- A declaration that is done has a unit, which was written. -/
theorem places_productOf (wet : out.dryRun = false) {shop : Workshop} {path : String}
    {decoration : Decoration} (placeable : decoration.IsPlaceable)
    (done : (productOf out shop path decoration).isDone = true) :
    ∃ u surface, Forwarding.synthesize decoration (some surface) = .ok u ∧
      (productOf out shop path decoration).Places out u ∧
      (out.write shop.disk u).path = .ok (productOf out shop path decoration).result.output ∧
      (generate out shop decoration).shop.disk = (out.write shop.disk u).disk := by
  rcases generate_cases out shop decoration with ⟨-, nothing⟩ | ⟨u, surface, isUnit, made, written⟩
  · obtain ⟨failure, failed⟩ := nothing.path
    rw [productOf, failed] at done
    cases done
  · have free := slash_not_mem_of_synthesize placeable made
    have isOutput : ∃ output, (out.write shop.disk u).path = .ok output := by
      rw [productOf, isDone_resultOf, written.path] at done
      cases wrote : (out.write shop.disk u).path with
      | ok output => exact ⟨output, rfl⟩
      | error failure =>
        rw [wrote] at done
        cases done
    obtain ⟨output, wrote⟩ := isOutput
    have isResult : (productOf out shop path decoration).result.output = output := by
      rw [productOf, written.path, wrote]
      rfl
    have placed := (Output.write_of_ok wet wrote).1
    rcases Output.place_exact out free with ⟨failure, unplaced⟩ | placed'
    · rw [unplaced] at placed
      cases placed
    · refine ⟨u, surface, made, ⟨isUnit, free, ?_⟩, ?_, written.disk⟩
      · rw [isResult]
        exact Except.ok.inj (placed.symm.trans placed')
      · rw [isResult, wrote]

/-- A unit that is written was made from a declaration, which is that of the file. -/
theorem made_productsOf (wet : out.dryRun = false) (declared : List (String × Attempt Decoration))
    (placeable : ∀ entry ∈ declared, ∀ decoration, entry.2 = .present decoration →
      decoration.IsPlaceable) :
    ∀ shop : Workshop, ∀ p ∈ productsOf out shop declared, p.isDone = true →
      ∃ decoration surface u, (p.result.path, .present decoration) ∈ declared ∧
        Forwarding.synthesize decoration (some surface) = .ok u ∧ p.Places out u := by
  induction declared with
  | nil => exact fun _ => List.forall_mem_nil _
  | cons entry declared ih =>
    intro shop
    obtain ⟨first, others⟩ := List.forall_mem_cons.mp placeable
    have later {shop : Workshop} (p : Product) (member : p ∈ productsOf out shop declared)
        (done : p.isDone = true) : ∃ decoration surface u,
          (p.result.path, .present decoration) ∈ entry :: declared ∧
            Forwarding.synthesize decoration (some surface) = .ok u ∧ p.Places out u := by
      obtain ⟨decoration, surface, u, isEntry, made⟩ := ih others shop p member done
      exact ⟨decoration, surface, u, List.mem_cons_of_mem _ isEntry, made⟩
    obtain ⟨path, attempt⟩ := entry
    cases attempt with
    | empty => exact later
    | failed failure => exact List.forall_mem_cons.mpr ⟨fun done => (by cases done), later⟩
    | present decoration =>
      refine List.forall_mem_cons.mpr ⟨fun done => ?_, later⟩
      obtain ⟨u, surface, made, places, -⟩ := places_productOf wet (first decoration rfl) done
      refine ⟨decoration, surface, u, ?_, made, places⟩
      rw [productOf, resultOf_path]
      exact List.mem_cons_self

/-! ### Growth -/

/-- One declaration changes the disk below the output root only. -/
theorem grown_generate {shop : Workshop} (grounded : d.IsGrounded)
    (grown : Grown (d.spot out.root) d shop.disk) {decoration : Decoration}
    (placeable : decoration.IsPlaceable) :
    Grown (d.spot out.root) d (generate out shop decoration).shop.disk := by
  rcases generate_cases out shop decoration with ⟨-, nothing⟩ | ⟨u, _, -, made, written⟩
  · exact nothing.disk ▸ grown
  · rw [written.disk]
    exact Output.grown_write grown grounded (slash_not_mem_of_synthesize placeable made)

/-- All declarations change the disk below the output root only. -/
theorem grown_generateAll (grounded : d.IsGrounded) (declared : List (String × Attempt Decoration))
    (placeable : ∀ entry ∈ declared, ∀ decoration, entry.2 = .present decoration →
      decoration.IsPlaceable) :
    ∀ shop : Workshop, Grown (d.spot out.root) d shop.disk →
      Grown (d.spot out.root) d (generateAll out shop declared).shop.disk := by
  induction declared with
  | nil => exact fun _ => id
  | cons entry declared ih =>
    intro shop grown
    obtain ⟨first, others⟩ := List.forall_mem_cons.mp placeable
    obtain ⟨path, attempt⟩ := entry
    cases attempt with
    | empty => exact ih others shop grown
    | failed failure => exact ih others shop grown
    | present decoration => exact ih others _ (grown_generate grounded grown (first decoration rfl))

/-- All declarations keep the disk proper. -/
theorem isProper_generateAll (wet : out.dryRun = false) (declared : List (String × Attempt Decoration))
    (placeable : ∀ entry ∈ declared, ∀ decoration, entry.2 = .present decoration →
      decoration.IsPlaceable) :
    ∀ shop : Workshop, shop.disk.IsProper → (generateAll out shop declared).shop.disk.IsProper := by
  induction declared with
  | nil => exact fun _ => id
  | cons entry declared ih =>
    intro shop proper
    obtain ⟨first, others⟩ := List.forall_mem_cons.mp placeable
    obtain ⟨path, attempt⟩ := entry
    cases attempt with
    | empty => exact ih others shop proper
    | failed failure => exact ih others shop proper
    | present decoration =>
      refine ih others _ ?_
      rcases generate_cases out shop decoration with ⟨-, nothing⟩ | ⟨u, _, -, made, written⟩
      · exact nothing.disk ▸ proper
      · rw [written.disk]
        exact Output.isProper_write wet (slash_not_mem_of_synthesize (first decoration rfl) made) proper

/-- What a path leads to when a declaration comes to its turn, it leads to in the end. -/
theorem place_generateAll (grounded : d.IsGrounded) (declared : List (String × Attempt Decoration))
    (placeable : ∀ entry ∈ declared, ∀ decoration, entry.2 = .present decoration →
      decoration.IsPlaceable) {shop : Workshop} (grown : Grown (d.spot out.root) d shop.disk)
    {path : String} (found : shop.disk.place path = .ok place) :
    (generateAll out shop declared).shop.disk.place path = .ok place := by
  have further : Grown (shop.disk.spot out.root) shop.disk (generateAll out shop declared).shop.disk :=
    grown_generateAll (grown.isGrounded grounded) declared placeable shop (Grown.refl _ _)
  exact further.place_eq found

/-! ### Texts -/

/-- The source that the product has left at a place. -/
def Product.textAt? (out : Output) (d : Disk) (place : Place) (p : Product) : Option String :=
  if p.isDone then (p.unit?.filter fun u => out.target d u = place).map (·.source) else none

/-- The source that the last of the products has left at a place. -/
def lastText? (out : Output) (d : Disk) (place : Place) : List Product → Option String
  | [] => none
  | p :: later => (lastText? out d place later).or (p.textAt? out d place)

theorem Product.textAt?_eq_some {p : Product} {text : String} :
    p.textAt? out d place = some text ↔
      p.isDone = true ∧ ∃ u, p.unit? = some u ∧ out.target d u = place ∧ u.source = text := by
  rw [textAt?]
  by_cases done : p.isDone = true
  · simp [done, Option.filter_eq_some_iff, and_assoc]
  · simp [done]

theorem lastText?_append (products later : List Product) : lastText? out d place (products ++ later) =
    (lastText? out d place later).or (lastText? out d place products) := by
  induction products with
  | nil => rw [List.nil_append, lastText?, Option.or_none]
  | cons p products ih => rw [List.cons_append, lastText?, lastText?, ih, Option.or_assoc]

theorem lastText?_eq_none {products : List Product} :
    lastText? out d place products = none ↔ ∀ p ∈ products, p.textAt? out d place = none := by
  induction products with
  | nil => simp [lastText?]
  | cons p products ih => rw [lastText?, Option.or_eq_none_iff, ih, List.forall_mem_cons, and_comm]

/-- What was left at a place is the source of one of the products. -/
theorem exists_of_lastText? {products : List Product} {text : String}
    (left : lastText? out d place products = some text) :
    ∃ p ∈ products, p.textAt? out d place = some text := by
  induction products with
  | nil => cases left
  | cons p products ih =>
    rw [lastText?, Option.or_eq_some_iff] at left
    rcases left with later | ⟨-, here⟩
    · obtain ⟨q, member, isText⟩ := ih later
      exact ⟨q, List.mem_cons_of_mem _ member, isText⟩
    · exact ⟨p, List.mem_cons_self, here⟩

/-- **The files after one unit** hold its source, or what they held before. -/
theorem content_generate (wet : out.dryRun = false) (grounded : d.IsGrounded) {shop : Workshop}
    (grown : Grown (d.spot out.root) d shop.disk) {decoration : Decoration}
    (placeable : decoration.IsPlaceable) (path : String) (place : Place) :
    ((generate out shop decoration).shop.disk.file? place).map (·.content) =
      (((productOf out shop path decoration).textAt? out d place).map .text).or
        ((shop.disk.file? place).map (·.content)) := by
  have sameTarget : ∀ u, out.target shop.disk u = out.target d u := Output.target_of_cwd grown.cwd
  cases left : (productOf out shop path decoration).textAt? out d place with
  | some text =>
    obtain ⟨done, u, isUnit, rfl, rfl⟩ := Product.textAt?_eq_some.mp left
    obtain ⟨v, _, -, places, wrote, written⟩ := places_productOf wet placeable done
    obtain rfl : u = v := Option.some.inj (isUnit.symm.trans places.unit)
    obtain ⟨file, isAt, isText⟩ := Output.fileAt_write wet places.free (grown.isGrounded grounded) wrote
    rw [sameTarget, ← written] at isAt
    rw [isAt.2, Option.map_some, isText]
    rfl
  | none =>
    rw [Option.map_none, Option.none_or]
    rcases generate_cases out shop decoration with ⟨-, nothing⟩ | ⟨u, _, isUnit, made, written⟩
    · rw [nothing.disk]
    · rw [written.disk, Output.file?_write wet (slash_not_mem_of_synthesize placeable made)
        (grown.isGrounded grounded)]
      rintro wrote rfl
      have done : (productOf out shop path decoration).isDone = true := by
        rw [productOf, isDone_resultOf, written.path, wrote]
      have isText : (productOf out shop path decoration).textAt? out d
          (out.target shop.disk u) = some u.source :=
        Product.textAt?_eq_some.mpr ⟨done, u, isUnit, (sameTarget u).symm, rfl⟩
      rw [isText] at left
      cases left

/-- **The files after all units** hold the last source that was written to them, or what they held
before. -/
theorem content_generateAll (wet : out.dryRun = false) (grounded : d.IsGrounded)
    (declared : List (String × Attempt Decoration))
    (placeable : ∀ entry ∈ declared, ∀ decoration, entry.2 = .present decoration →
      decoration.IsPlaceable) (place : Place) :
    ∀ shop : Workshop, Grown (d.spot out.root) d shop.disk →
      ((generateAll out shop declared).shop.disk.file? place).map (·.content) =
        ((lastText? out d place (productsOf out shop declared)).map .text).or
          ((shop.disk.file? place).map (·.content)) := by
  induction declared with
  | nil => exact fun _ _ => rfl
  | cons entry declared ih =>
    intro shop grown
    obtain ⟨first, others⟩ := List.forall_mem_cons.mp placeable
    obtain ⟨path, attempt⟩ := entry
    cases attempt with
    | empty => exact ih others shop grown
    | failed failure =>
      rw [productsOf, lastText?, Product.textAt?, if_neg (by exact Bool.false_ne_true), Option.or_none]
      exact ih others shop grown
    | present decoration =>
      have grown' := grown_generate grounded grown (first decoration rfl)
      have here := content_generate wet grounded grown (first decoration rfl) path place
      rw [productsOf, lastText?, Option.map_or, Option.or_assoc, ← here]
      exact ih others _ grown'

/-! ### Writing again -/

/-- The unit has been written, as far as it can be. -/
def Output.Settled (out : Output) (d : Disk) (u : GeneratedUnit) : Prop :=
  ∀ path, out.place u = .ok path →
    d.Settled (Path.isAbsolute out.root) (out.front u) u.fileName

namespace Output.Settled

theorem mono (settled : out.Settled d u) (free : '/' ∉ u.className.toList) (grounded : d.IsGrounded)
    (grown : Grown (d.spot out.root) d e) : out.Settled e u :=
  fun path placed => (settled path placed).mono grown grounded (leadsBelow out free d)

/-- **A unit that was tried** is settled. -/
theorem of_write (wet : out.dryRun = false) (free : '/' ∉ u.className.toList) (grounded : d.IsGrounded) :
    out.Settled (out.write d u).disk u := by
  intro path placed
  rcases place_exact out free with ⟨failure, unplaced⟩ | placed'
  · rw [unplaced] at placed
    cases placed
  · rw [(disk_write wet placed').1]
    exact Disk.settled_write grounded (leadsBelow out free d) u.source

/-- **No directory is made** for a settled unit. -/
theorem isDirAt_write (settled : out.Settled d u) (wet : out.dryRun = false)
    (free : '/' ∉ u.className.toList) (grounded : d.IsGrounded) (place : Place) :
    (out.write d u).disk.isDirAt place = d.isDirAt place := by
  rcases place_exact out free with ⟨failure, unplaced⟩ | placed
  · rw [write_of_unplaced unplaced]
  · have leads := leadsBelow out free d
    rw [(disk_write wet placed).1, pathOf, (settled _ placed).write leads.normal leads.isName grounded]
    cases writable : d.writeFailure? (Path.isAbsolute out.root) (out.front u) u.fileName with
    | some failure => rfl
    | none =>
      obtain ⟨⟨-, -, -, noDir⟩, -⟩ := Disk.writable_iff.mp writable
      have entry := Disk.entry?_withText d
        (Path.goal (d.ground (Path.isAbsolute out.root)) (out.front u) ++ [u.fileName]) place u.source
        (List.append_ne_nil_of_right_ne_nil _ (List.cons_ne_nil _ _))
      dsimp only
      rw [Disk.isDirAt, entry]
      split_ifs with same
      · rw [same, noDir]
        rfl
      · rfl

end Output.Settled

/-- The products that have a unit have it settled. -/
def IsSettled (out : Output) (d : Disk) (products : List Product) : Prop :=
  ∀ p ∈ products, ∀ u, p.unit? = some u → '/' ∉ u.className.toList ∧ out.Settled d u

theorem IsSettled.mono {products : List Product} (settled : IsSettled out d products)
    (grounded : d.IsGrounded) (grown : Grown (d.spot out.root) d e) : IsSettled out e products :=
  fun p member u isUnit => ⟨(settled p member u isUnit).1,
    (settled p member u isUnit).2.mono (settled p member u isUnit).1 grounded grown⟩

/-- **All units** are settled once they have been tried. -/
theorem settled_generateAll (wet : out.dryRun = false) (grounded : d.IsGrounded)
    (declared : List (String × Attempt Decoration))
    (placeable : ∀ entry ∈ declared, ∀ decoration, entry.2 = .present decoration →
      decoration.IsPlaceable) :
    ∀ shop : Workshop, Grown (d.spot out.root) d shop.disk →
      IsSettled out (generateAll out shop declared).shop.disk (productsOf out shop declared) := by
  induction declared with
  | nil => exact fun _ _ => List.forall_mem_nil _
  | cons entry declared ih =>
    intro shop grown
    obtain ⟨first, others⟩ := List.forall_mem_cons.mp placeable
    obtain ⟨path, attempt⟩ := entry
    cases attempt with
    | empty => exact ih others shop grown
    | failed failure =>
      exact List.forall_mem_cons.mpr ⟨fun u isUnit => (by cases isUnit), ih others shop grown⟩
    | present decoration =>
      have grown' := grown_generate grounded grown (first decoration rfl)
      refine List.forall_mem_cons.mpr ⟨fun u isUnit => ?_, ih others _ grown'⟩
      rcases generate_cases out shop decoration with ⟨nothing, -⟩ | ⟨v, _, isUnit', made, written⟩
      · exact absurd (nothing.symm.trans isUnit) (by simp)
      · obtain rfl : v = u := Option.some.inj (isUnit'.symm.trans isUnit)
        have free := slash_not_mem_of_synthesize (first decoration rfl) made
        have settled : out.Settled (out.write shop.disk v).disk v :=
          .of_write wet free (grown.isGrounded grounded)
        rw [← written.disk] at settled
        exact ⟨free, settled.mono free (grown'.isGrounded grounded)
          (grown_generateAll (grown'.isGrounded grounded) declared others _ (Grown.refl _ _))⟩

/-- **No directory is made** for units that are settled. -/
theorem isDirAt_generateAll (wet : out.dryRun = false) (place : Place)
    (declared : List (String × Attempt Decoration))
    (placeable : ∀ entry ∈ declared, ∀ decoration, entry.2 = .present decoration →
      decoration.IsPlaceable) :
    ∀ shop : Workshop, shop.disk.IsGrounded → IsSettled out shop.disk (productsOf out shop declared) →
      (generateAll out shop declared).shop.disk.isDirAt place = shop.disk.isDirAt place := by
  induction declared with
  | nil => exact fun _ _ _ => rfl
  | cons entry declared ih =>
    intro shop grounded settled
    obtain ⟨first, others⟩ := List.forall_mem_cons.mp placeable
    obtain ⟨path, attempt⟩ := entry
    cases attempt with
    | empty => exact ih others shop grounded settled
    | failed failure => exact ih others shop grounded (List.forall_mem_cons.mp settled).2
    | present decoration =>
      obtain ⟨here, rest⟩ := List.forall_mem_cons.mp settled
      have grown : Grown (shop.disk.spot out.root) shop.disk (generate out shop decoration).shop.disk :=
        grown_generate grounded (Grown.refl _ _) (first decoration rfl)
      have later := ih others _ (grown.isGrounded grounded) (IsSettled.mono rest grounded grown)
      rw [generateAll, Generation.after, later]
      rcases generate_cases out shop decoration with ⟨-, nothing⟩ | ⟨u, _, isUnit, -, written⟩
      · rw [nothing.disk]
      · obtain ⟨free, isSettled⟩ := here u isUnit
        rw [written.disk, isSettled.isDirAt_write wet free grounded]

end Forwarder
