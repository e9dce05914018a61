/-
**Each key once.** Of several methods with one key the first is picked, past keys already seen.

* `Method.unseen_sublist` — the picked methods stay in order.
* `Method.mem_signature_unseen`, `Method.unseen_nodup` — every key that was not seen is picked, once.
* `Method.find?_of_mem_unseen` — the method picked for a key is the first one with it.
* `Method.unseen_of_known` — behind a method with its key, a method makes no difference.
* `Method.unseen_append_congr`, `Method.unseen_map_congr` — what is picked from a longer list, or after a
  change under which common keys stay common, depends on what was picked before alone.
-/

import Forwarder.Method

namespace Forwarder.Method

variable {seen : List String} {methods : List Method}

theorem unseen_cons (seen : List String) (m : Method) (methods : List Method) :
    unseen seen (m :: methods) =
      if m.signature ∈ seen then unseen seen methods
      else m :: unseen (m.signature :: seen) methods := by
  simp only [unseen, List.contains_iff_mem]

theorem unseen_sublist (seen : List String) (methods : List Method) :
    (unseen seen methods).Sublist methods := by
  induction methods generalizing seen with
  | nil => exact List.Sublist.refl _
  | cons m methods ih =>
    rw [unseen_cons]
    split
    · exact (ih seen).cons m
    · exact (ih _).cons_cons m

/-- The keys picked are those that occur and were not seen. -/
theorem mem_signature_unseen (key : String) :
    key ∈ (unseen seen methods).map signature ↔ key ∈ methods.map signature ∧ key ∉ seen := by
  induction methods generalizing seen with
  | nil => simp [unseen]
  | cons m methods ih =>
    rw [unseen_cons]
    split
    · next known =>
      rw [ih, List.map_cons, List.mem_cons]
      constructor
      · exact fun ⟨member, fresh⟩ => ⟨.inr member, fresh⟩
      · rintro ⟨rfl | member, fresh⟩
        · exact absurd known fresh
        · exact ⟨member, fresh⟩
    · next unknown =>
      rw [List.map_cons, List.mem_cons, ih, List.map_cons, List.mem_cons, List.mem_cons, not_or]
      constructor
      · rintro (rfl | ⟨member, _, fresh⟩)
        · exact ⟨.inl rfl, unknown⟩
        · exact ⟨.inr member, fresh⟩
      · rintro ⟨rfl | member, fresh⟩
        · exact .inl rfl
        · by_cases same : key = m.signature
          · exact .inl same
          · exact .inr ⟨member, same, fresh⟩

/-- No key is picked twice. -/
theorem unseen_nodup (seen : List String) (methods : List Method) :
    ((unseen seen methods).map signature).Nodup := by
  induction methods generalizing seen with
  | nil => exact List.nodup_nil
  | cons m methods ih =>
    rw [unseen_cons]
    split
    · exact ih seen
    · rw [List.map_cons, List.nodup_cons, mem_signature_unseen]
      exact ⟨fun ⟨_, fresh⟩ => fresh List.mem_cons_self, ih _⟩

/-- The method picked for a key is the first one with that key. -/
theorem find?_of_mem_unseen {m : Method} (picked : m ∈ unseen seen methods) :
    methods.find? (·.signature == m.signature) = some m := by
  induction methods generalizing seen with
  | nil => exact absurd picked List.not_mem_nil
  | cons first methods ih =>
    have fresh : m.signature ∉ seen :=
      ((mem_signature_unseen m.signature).mp (List.mem_map_of_mem picked)).2
    rw [unseen_cons] at picked
    split at picked
    · next known =>
      have other : first.signature ≠ m.signature := fun same => fresh (same ▸ known)
      rw [List.find?_cons_of_neg (by simpa using other)]
      exact ih picked
    · rcases List.mem_cons.mp picked with rfl | later
      · exact List.find?_cons_of_pos (by simp)
      · have other : m.signature ∉ first.signature :: seen :=
          ((mem_signature_unseen m.signature).mp (List.mem_map_of_mem later)).2
        rw [List.mem_cons, not_or] at other
        rw [List.find?_cons_of_neg (by simpa using fun same => other.1 same.symm)]
        exact ih later

/-! ### Keys that are known -/

/-- A method whose key was seen is not picked. -/
theorem unseen_of_seen {n : Method} (known : n.signature ∈ seen) (front back : List Method) :
    unseen seen (front ++ n :: back) = unseen seen (front ++ back) := by
  induction front generalizing seen with
  | nil => rw [List.nil_append, unseen_cons, if_pos known, List.nil_append]
  | cons m front ih =>
    rw [List.cons_append, List.cons_append, unseen_cons, unseen_cons, ih known,
      ih (List.mem_cons_of_mem _ known)]

/-- Behind a method with its key, a method is not picked. -/
theorem unseen_of_known {m n : Method} (same : n.signature = m.signature) {front : List Method}
    (known : m ∈ front) {back : List Method} :
    unseen seen (front ++ n :: back) = unseen seen (front ++ back) := by
  induction front generalizing seen with
  | nil => exact absurd known List.not_mem_nil
  | cons first front ih =>
    rw [List.cons_append, List.cons_append, unseen_cons, unseen_cons]
    rcases List.mem_cons.mp known with rfl | later
    · by_cases isSeen : m.signature ∈ seen
      · rw [if_pos isSeen, if_pos isSeen, unseen_of_seen (same ▸ isSeen)]
      · rw [if_neg isSeen, if_neg isSeen, unseen_of_seen (same ▸ List.mem_cons_self)]
    · rw [ih later, ih later]

/-! ### Picking again -/

/-- The key of the method is not among these. -/
def isFresh (seen : List String) (m : Method) : Bool :=
  !seen.contains m.signature

/-- Only which keys were seen matters. -/
theorem unseen_congr {first second : List String} (same : ∀ key, key ∈ first ↔ key ∈ second)
    (methods : List Method) : unseen first methods = unseen second methods := by
  induction methods generalizing first second with
  | nil => rfl
  | cons m methods ih =>
    have more : ∀ key, key ∈ m.signature :: first ↔ key ∈ m.signature :: second := by
      simp [same]
    rw [unseen_cons, unseen_cons, ih same, ih more]
    simp only [same]

/-- Further keys that were seen are left out afterwards. -/
theorem unseen_append_seen (extra seen : List String) (methods : List Method) :
    unseen (extra ++ seen) methods = (unseen seen methods).filter (isFresh extra) := by
  induction methods generalizing seen with
  | nil => rfl
  | cons m methods ih =>
    have later := ih (m.signature :: seen)
    rw [unseen_cons, unseen_cons]
    by_cases known : m.signature ∈ seen
    · rw [if_pos known, if_pos (List.mem_append_right _ known), ih]
    rw [if_neg known]
    by_cases isExtra : m.signature ∈ extra
    · rw [if_pos (List.mem_append_left _ isExtra), List.filter_cons_of_neg (by simpa [isFresh]),
        ← later]
      refine unseen_congr (fun key => ?_) methods
      simp only [List.mem_append, List.mem_cons]
      constructor
      · exact Or.imp_right Or.inr
      · rintro (before | rfl | before)
        · exact .inl before
        · exact .inl isExtra
        · exact .inr before
    · rw [if_neg (by simp [known, isExtra]), List.filter_cons_of_pos (by simpa [isFresh]), ← later]
      congr 1
      refine unseen_congr (fun key => ?_) methods
      simp only [List.mem_append, List.mem_cons, or_left_comm]

theorem unseen_singleton (key : String) (methods : List Method) :
    unseen [key] methods = (unseen [] methods).filter (isFresh [key]) :=
  unseen_append_seen [key] [] methods

/-- Keys may as well be left out beforehand. -/
theorem unseen_filter (keys seen : List String) (methods : List Method) :
    unseen seen (methods.filter (isFresh keys)) = (unseen seen methods).filter (isFresh keys) := by
  induction methods generalizing seen with
  | nil => rfl
  | cons m methods ih =>
    by_cases fresh : m.isFresh keys = true
    · rw [List.filter_cons_of_pos fresh, unseen_cons, unseen_cons]
      split
      · exact ih seen
      · rw [List.filter_cons_of_pos fresh, ih]
    · rw [List.filter_cons_of_neg fresh, ih, unseen_cons]
      split
      · rfl
      · -- The key of `m` is seen on one side only, but it is left out on both.
        rw [List.filter_cons_of_neg fresh, ← List.singleton_append, unseen_append_seen,
          List.filter_filter]
        refine List.filter_congr fun other _ => ?_
        by_cases same : other.signature = m.signature
        · simp [isFresh, same] at fresh ⊢
          exact fresh
        · simp [isFresh, same]

/-- Methods with different keys are all picked. -/
theorem unseen_eq_self {methods : List Method} (nodup : (methods.map signature).Nodup)
    (fresh : ∀ m ∈ methods, m.signature ∉ seen) : unseen seen methods = methods := by
  induction methods generalizing seen with
  | nil => rfl
  | cons m methods ih =>
    rw [List.map_cons, List.nodup_cons] at nodup
    obtain ⟨here, others⟩ := List.forall_mem_cons.mp fresh
    rw [unseen_cons, if_neg here, ih nodup.2]
    intro n member
    rw [List.mem_cons, not_or]
    exact ⟨fun same => nodup.1 (same ▸ List.mem_map_of_mem member), others n member⟩

theorem unseen_idem (methods : List Method) :
    unseen [] (unseen [] methods) = unseen [] methods :=
  unseen_eq_self (unseen_nodup [] methods) fun _ _ => List.not_mem_nil

/-- Two lists one after the other. -/
theorem unseen_append (first second : List Method) : unseen [] (first ++ second) =
    unseen [] first ++ (unseen [] second).filter (isFresh ((unseen [] first).map signature)) := by
  have general (seen : List String) : unseen seen (first ++ second) =
      unseen seen first ++ unseen (first.map signature ++ seen) second := by
    induction first generalizing seen with
    | nil => rfl
    | cons m first ih =>
      rw [List.cons_append, unseen_cons, unseen_cons]
      by_cases known : m.signature ∈ seen
      · rw [if_pos known, if_pos known, ih]
        congr 1
        refine unseen_congr (fun key => ?_) second
        simp only [List.map_cons, List.cons_append, List.mem_cons, List.mem_append]
        constructor
        · exact .inr
        · rintro (rfl | before)
          · exact .inr known
          · exact before
      · rw [if_neg known, if_neg known, ih, List.cons_append]
        congr 2
        refine unseen_congr (fun key => ?_) second
        simp only [List.map_cons, List.cons_append, List.mem_cons, List.mem_append, or_left_comm]
  rw [general, ← unseen_append_seen, List.append_nil, List.append_nil]
  congr 1
  refine unseen_congr (fun key => ?_) second
  rw [mem_signature_unseen]
  simp

theorem unseen_append_congr {first second first' second' : List Method}
    (one : unseen [] first = unseen [] first') (two : unseen [] second = unseen [] second') :
    unseen [] (first ++ second) = unseen [] (first' ++ second') := by
  rw [unseen_append, unseen_append, one, two]

/-- Methods with one key keep a common key. -/
def Steady (change : Method → Method) (methods : List Method) : Prop :=
  ∀ m ∈ methods, ∀ n ∈ methods, m.signature = n.signature →
    (change m).signature = (change n).signature

/-- **Picking before a steady change** does not matter. -/
theorem unseen_map_unseen {change : Method → Method} {methods : List Method}
    (steady : Steady change methods) :
    unseen [] ((unseen [] methods).map change) = unseen [] (methods.map change) := by
  induction methods with
  | nil => rfl
  | cons m methods ih =>
    have others := ih fun x isX y isY =>
      steady x (List.mem_cons_of_mem _ isX) y (List.mem_cons_of_mem _ isY)
    rw [unseen_cons, if_neg List.not_mem_nil, List.map_cons, List.map_cons, unseen_cons, unseen_cons,
      if_neg List.not_mem_nil, if_neg List.not_mem_nil, unseen_singleton, unseen_singleton,
      unseen_singleton, ← others, ← unseen_filter [(change m).signature],
      ← unseen_filter [(change m).signature], List.filter_map, List.filter_map, List.filter_filter]
    congr 3
    refine List.filter_congr fun n member => ?_
    -- What has the key of `m` has its key after the change as well, so one test covers the other.
    by_cases same : n.signature = m.signature
    · have isMethod : n ∈ methods := (unseen_sublist _ _).mem member
      have changed := steady n (List.mem_cons_of_mem _ isMethod) m List.mem_cons_self same
      simp [isFresh, changed]
    · simp [isFresh, same]

theorem unseen_map_congr {change : Method → Method} {first second : List Method}
    (steadyFirst : Steady change first) (steadySecond : Steady change second)
    (same : unseen [] first = unseen [] second) :
    unseen [] (first.map change) = unseen [] (second.map change) := by
  rw [← unseen_map_unseen steadyFirst, same, unseen_map_unseen steadySecond]

end Forwarder.Method
