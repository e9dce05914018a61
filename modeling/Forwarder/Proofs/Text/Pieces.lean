/-
**Pieces of texts.** Splitting undoes joining when no part holds the mark, so a joined text gives back
what it was made of.

* `pieces_joinWith`, `joinWith_inj` — the parts are found again; `join_inj` for texts.
* `pieces_concat` — the pieces of two texts with the mark between them.
* `split_join` — the same for texts.
* `afterLast_concat`, `beforeLast_concat` — the ends of a text with a mark in it.
* `takeWhile_run`, `dropWhile_run` — a text at whose front there is a run of characters of one kind.
* `utf8ByteSize_join_replicate`, `utf8ByteSize_times` — the sizes of repeated texts, with and without a mark
  between them.
-/

import Mathlib.Data.List.Basic
import Forwarder.Text.Pieces

namespace Forwarder.Text

variable {mark : Char}

theorem pieces_free {cs : List Char} (free : mark ∉ cs) : pieces mark cs = [cs] := by
  induction cs with
  | nil => rfl
  | cons c cs ih =>
    obtain ⟨other, others⟩ := not_or.mp (List.mem_cons.not.mp free)
    rw [pieces, if_neg (Ne.symm other), ih others]

/-- The pieces of two texts with the mark between them. -/
theorem pieces_concat (mark : Char) (front back : List Char) :
    pieces mark (front ++ mark :: back) = pieces mark front ++ pieces mark back := by
  induction front with
  | nil => simp [pieces]
  | cons c front ih =>
    by_cases same : c = mark
    · simp [pieces, same, ih]
    · obtain ⟨part, parts, split⟩ := List.exists_cons_of_ne_nil (pieces_ne_nil mark front)
      simp [pieces, same, ih, split]

theorem pieces_append {front : List Char} (free : mark ∉ front) (back : List Char) :
    pieces mark (front ++ mark :: back) = front :: pieces mark back := by
  rw [pieces_concat, pieces_free free, List.singleton_append]

/-- No piece holds the mark. -/
theorem not_mem_of_mem_pieces {cs part : List Char} (member : part ∈ pieces mark cs) :
    mark ∉ part := by
  induction cs generalizing part with
  | nil =>
    rw [pieces, List.mem_singleton] at member
    exact member ▸ List.not_mem_nil
  | cons c cs ih =>
    obtain ⟨first, parts, split⟩ := List.exists_cons_of_ne_nil (pieces_ne_nil mark cs)
    rw [split] at ih
    by_cases same : c = mark
    · rw [pieces, if_pos same, split] at member
      rcases List.mem_cons.mp member with rfl | member
      · exact List.not_mem_nil
      · exact ih member
    · simp only [pieces, same, if_false, split] at member
      rcases List.mem_cons.mp member with rfl | member
      · exact List.mem_cons.not.mpr (not_or.mpr ⟨Ne.symm same, ih List.mem_cons_self⟩)
      · exact ih (List.mem_cons_of_mem _ member)

/-- A piece is made of characters of the text, in their order. -/
theorem sublist_of_mem_pieces {cs part : List Char} (member : part ∈ pieces mark cs) :
    part.Sublist cs := by
  induction cs generalizing part with
  | nil =>
    rw [pieces, List.mem_singleton] at member
    exact member ▸ .refl _
  | cons c cs ih =>
    obtain ⟨first, parts, split⟩ := List.exists_cons_of_ne_nil (pieces_ne_nil mark cs)
    rw [split] at ih
    by_cases same : c = mark
    · rw [pieces, if_pos same, split] at member
      rcases List.mem_cons.mp member with rfl | member
      · exact List.nil_sublist _
      · exact (ih member).cons c
    · simp only [pieces, same, if_false, split] at member
      rcases List.mem_cons.mp member with rfl | member
      · exact (ih List.mem_cons_self).cons_cons c
      · exact (ih (List.mem_cons_of_mem _ member)).cons c

/-- Joining the pieces with another mark replaces the one they were split at. -/
theorem joinWith_pieces_other (mark other : Char) (cs : List Char) :
    joinWith other (pieces mark cs) = cs.map fun c => if c = mark then other else c := by
  induction cs with
  | nil => rfl
  | cons c cs ih =>
    obtain ⟨part, parts, split⟩ := List.exists_cons_of_ne_nil (pieces_ne_nil mark cs)
    rw [split] at ih
    by_cases same : c = mark
    · simp [pieces, same, split, joinWith, ih]
    · cases parts <;> simpa [pieces, same, split, joinWith] using ih

/-- Parts that do not hold the mark are found again. -/
theorem pieces_joinWith {parts : List (List Char)} (free : ∀ part ∈ parts, mark ∉ part)
    (some_ : parts ≠ []) : pieces mark (joinWith mark parts) = parts := by
  induction parts with
  | nil => exact absurd rfl some_
  | cons part parts ih =>
    obtain ⟨here, others⟩ := List.forall_mem_cons.mp free
    cases parts with
    | nil => exact pieces_free here
    | cons next parts => rw [joinWith, pieces_append here, ih others (List.cons_ne_nil _ _)]; simp

theorem joinWith_inj {parts others : List (List Char)} (free : ∀ part ∈ parts, mark ∉ part ∧ part ≠ [])
    (free' : ∀ part ∈ others, mark ∉ part ∧ part ≠ [])
    (same : joinWith mark parts = joinWith mark others) : parts = others := by
  -- Only the empty list of parts and the one with a single empty part are joined to one text.
  have found {parts : List (List Char)} (free : ∀ part ∈ parts, mark ∉ part ∧ part ≠ []) :
      parts = [] ∧ joinWith mark parts = [] ∨
        joinWith mark parts ≠ [] ∧ pieces mark (joinWith mark parts) = parts := by
    rcases eq_or_ne parts [] with rfl | some_
    · exact .inl ⟨rfl, rfl⟩
    · have whole := pieces_joinWith (fun part member => (free part member).1) some_
      refine .inr ⟨fun empty => ?_, whole⟩
      rw [empty] at whole
      exact (free [] (whole ▸ List.mem_singleton_self _)).2 rfl
  rcases found free with ⟨rfl, empty⟩ | ⟨some_, whole⟩ <;>
    rcases found free' with ⟨rfl, empty'⟩ | ⟨some_', whole'⟩
  · rfl
  · exact absurd (same ▸ empty) some_'
  · exact absurd (same ▸ empty') some_
  · rw [← whole, ← whole', same]

theorem toList_join (mark : Char) (parts : List String) :
    (join (String.singleton mark) parts).toList = joinWith mark (parts.map String.toList) := by
  induction parts with
  | nil => rfl
  | cons part parts ih =>
    cases parts with
    | nil => simp [join, joinWith]
    | cons next parts =>
      rw [join, String.intercalate_cons_cons]
      simp only [String.toList_append, List.map_cons, joinWith]
      rw [← join, ih]
      simp

theorem joinWith_concat {parts : List (List Char)} (some_ : parts ≠ []) (last : List Char) :
    joinWith mark (parts ++ [last]) = joinWith mark parts ++ mark :: last := by
  induction parts with
  | nil => exact absurd rfl some_
  | cons part parts ih =>
    cases parts with
    | nil => rfl
    | cons next parts => simpa [joinWith] using ih (List.cons_ne_nil _ _)

/-! ### Texts -/

theorem join_append {parts : List String} (some_ : parts ≠ []) (last : String) :
    join (String.singleton mark) (parts ++ [last]) =
      join (String.singleton mark) parts ++ String.singleton mark ++ last := by
  refine String.toList_injective ?_
  rw [toList_join, List.map_append, List.map_singleton,
    joinWith_concat (List.map_eq_nil_iff.not.mpr some_), ← toList_join]
  simp

theorem utf8ByteSize_join_replicate (part : String) (n : Nat) :
    (join (String.singleton mark) (part :: List.replicate n part)).utf8ByteSize =
      part.utf8ByteSize + n * (mark.utf8Size + part.utf8ByteSize) := by
  induction n with
  | zero => simp [join]
  | succ n ih =>
    rw [join] at ih
    rw [List.replicate_succ, join, String.intercalate_cons_cons, String.utf8ByteSize_append,
      String.utf8ByteSize_append, ih, String.utf8ByteSize_singleton, Nat.succ_mul]
    omega

/-- Only as the mark can a character be in the joined text that is in none of the parts. -/
theorem not_mem_join {c : Char} (other : c ≠ mark) {parts : List String}
    (free : ∀ part ∈ parts, c ∉ part.toList) :
    c ∉ (join (String.singleton mark) parts).toList := by
  induction parts with
  | nil => exact List.not_mem_nil
  | cons part parts ih =>
    obtain ⟨here, others⟩ := List.forall_mem_cons.mp free
    cases parts with
    | nil => simpa [join] using here
    | cons next parts =>
      rw [join, String.intercalate_cons_cons, ← join]
      simp only [String.toList_append, List.mem_append, not_or]
      exact ⟨⟨here, by simpa using other⟩, ih others⟩

theorem join_inj {parts others : List String}
    (free : ∀ part ∈ parts, mark ∉ part.toList ∧ part.toList ≠ [])
    (free' : ∀ part ∈ others, mark ∉ part.toList ∧ part.toList ≠ [])
    (same : join (String.singleton mark) parts = join (String.singleton mark) others) :
    parts = others := by
  refine List.map_injective_iff.mpr (fun _ _ => String.toList_injective) ?_
  refine joinWith_inj (List.forall_mem_map.mpr free) (List.forall_mem_map.mpr free') ?_
  rw [← toList_join, ← toList_join, same]

/-- No part of a split text holds the mark. -/
theorem not_mem_of_mem_split {s part : String} (member : part ∈ split mark s) : mark ∉ part.toList := by
  obtain ⟨piece, isPiece, rfl⟩ := List.mem_map.mp member
  rw [String.toList_ofList]
  exact not_mem_of_mem_pieces isPiece

theorem split_ne_nil (mark : Char) (s : String) : split mark s ≠ [] :=
  List.map_eq_nil_iff.not.mpr (pieces_ne_nil mark s.toList)

/-- Parts that do not hold the mark are found again. -/
theorem split_join {parts : List String} (free : ∀ part ∈ parts, mark ∉ part.toList)
    (some_ : parts ≠ []) : split mark (join (String.singleton mark) parts) = parts := by
  rw [split, toList_join, pieces_joinWith (List.forall_mem_map.mpr free)
    (List.map_eq_nil_iff.not.mpr some_), List.map_map]
  exact (List.map_congr_left fun _ _ => String.ofList_toList).trans (List.map_id _)

/-- The parts of two texts with the mark between them. -/
theorem split_append (mark : Char) (front back : String) :
    split mark (front ++ String.singleton mark ++ back) = split mark front ++ split mark back := by
  simp [split, pieces_concat]

theorem toList_join_split (mark other : Char) (s : String) :
    (join (String.singleton other) (split mark s)).toList =
      s.toList.map fun c => if c = mark then other else c := by
  rw [toList_join, split, List.map_map, ← joinWith_pieces_other]
  congr 1
  exact (List.map_congr_left fun _ _ => String.toList_ofList).trans (List.map_id _)

/-- A mark that was replaced by another does not occur any more. -/
theorem not_mem_join_split {mark other : Char} (different : mark ≠ other) (s : String) :
    mark ∉ (join (String.singleton other) (split mark s)).toList := by
  rw [toList_join_split]
  intro member
  obtain ⟨c, -, same⟩ := List.mem_map.mp member
  split_ifs at same with isMark
  · exact different same.symm
  · exact isMark same

/-! ### Ends -/

/-- What follows the last mark. -/
theorem afterLast_concat {back : List Char} (free : mark ∉ back) (front : List Char) :
    afterLast mark (front ++ mark :: back) = back := by
  have kept : ∀ c ∈ back.reverse, (c != mark) = true := fun c member => by
    simpa using fun same : c = mark => free (same ▸ List.mem_reverse.mp member)
  simp [afterLast, List.takeWhile_append_of_pos kept]

/-- Without a mark everything follows the last one. -/
theorem afterLast_free {cs : List Char} (free : mark ∉ cs) : afterLast mark cs = cs := by
  have kept : ∀ c ∈ cs.reverse, (c != mark) = true := fun c member => by
    simpa using fun same : c = mark => free (same ▸ List.mem_reverse.mp member)
  have whole : (cs.reverse ++ []).takeWhile (· != mark) = cs.reverse ++ [].takeWhile (· != mark) :=
    List.takeWhile_append_of_pos kept
  rw [List.append_nil, List.takeWhile_nil, List.append_nil] at whole
  rw [afterLast, whole, List.reverse_reverse]

/-- What precedes the last mark. -/
theorem beforeLast_concat {back : List Char} (free : mark ∉ back) (front : List Char) :
    beforeLast mark (front ++ mark :: back) = front := by
  have kept : ∀ c ∈ back.reverse, (c != mark) = true := fun c member => by
    simpa using fun same : c = mark => free (same ▸ List.mem_reverse.mp member)
  simp [beforeLast, List.dropWhile_append_of_pos kept]

/-- Where something precedes the last mark, the text is put together from its ends. -/
theorem beforeLast_append_afterLast {cs : List Char} (some_ : beforeLast mark cs ≠ []) :
    beforeLast mark cs ++ mark :: afterLast mark cs = cs := by
  have member : mark ∈ cs.reverse := by
    by_contra free
    have kept : ∀ c ∈ cs.reverse, (c != mark) = true := fun c member => by
      simpa using fun same : c = mark => free (same ▸ member)
    have gone : (cs.reverse ++ []).dropWhile (· != mark) = [] := List.dropWhile_append_of_pos kept
    rw [List.append_nil] at gone
    exact some_ (by simp [beforeLast, gone])
  obtain ⟨back, front, split, free⟩ := List.eq_append_cons_of_mem member
  have whole : cs = front.reverse ++ mark :: back.reverse := by
    rw [← List.reverse_reverse cs, split]
    simp
  have free : mark ∉ back.reverse := List.mem_reverse.not.mpr free
  rw [whole, beforeLast_concat free, afterLast_concat free]

/-! ### Runs -/

section Runs

variable {kind : Char → Bool} {run rest : List Char}

theorem takeWhile_run (each : ∀ c ∈ run, kind c = true) (stops : ∀ c ∈ rest.head?, kind c = false) :
    (run ++ rest).takeWhile kind = run := by
  rw [List.takeWhile_append_of_pos each]
  cases rest with
  | nil => exact List.append_nil _
  | cons c rest => rw [List.takeWhile_cons_of_neg (by simp [stops c rfl]), List.append_nil]

theorem dropWhile_run (each : ∀ c ∈ run, kind c = true) (stops : ∀ c ∈ rest.head?, kind c = false) :
    (run ++ rest).dropWhile kind = rest := by
  rw [List.dropWhile_append_of_pos each]
  cases rest with
  | nil => rfl
  | cons c rest => exact List.dropWhile_cons_of_neg (by simp [stops c rfl])

end Runs

/-! ### Repetitions -/

theorem times_succ (n : Nat) (s : String) : times (n + 1) s = s ++ times n s := by
  rw [times, List.replicate_succ, String.join_cons, times]

theorem utf8ByteSize_times (n : Nat) (s : String) : (times n s).utf8ByteSize = n * s.utf8ByteSize := by
  induction n with
  | zero => rw [Nat.zero_mul]; rfl
  | succ n ih => rw [times_succ, String.utf8ByteSize_append, ih, Nat.succ_mul, Nat.add_comm]

theorem mem_of_mem_times {n : Nat} {s : String} {c : Char} (member : c ∈ (times n s).toList) :
    c ∈ s.toList := by
  induction n with
  | zero => cases member
  | succ n ih =>
    rw [times_succ, String.toList_append, List.mem_append] at member
    exact member.elim id ih

end Forwarder.Text
