/-
**Order of texts.** Putting texts in order and dropping repetitions leaves each text once. Texts are ordered by
their characters, and this is the order of their UTF-8 bytes: the first byte of a character tells how many
follow, and more of them stand for a larger character; where there are equally many, they are the digits of the
character, the highest first.

* `sorted_of_perm` — texts that are the same but for their order come to the same in order.
* `mem_sortedUnique` — no text is lost.
* **`pairwise_sortedUnique`** — every text is smaller than all behind it.
* `sortedUnique_of_pairwise` — texts in order stay as they are.
* `bytes` — the bytes of a text.
* `encode_lt` — the bytes of a smaller character come first, whatever stands behind.
* **`bytes_lt_iff`** — texts are ordered by their bytes.
-/

import Mathlib.Data.List.Lex
import Mathlib.Data.List.Sort
import Mathlib.Data.String.Basic
import Forwarder.Text.Order

namespace Forwarder.Text

theorem mem_sorted {text : String} {texts : List String} : text ∈ sorted texts ↔ text ∈ texts :=
  List.mem_mergeSort

theorem pairwise_sorted (texts : List String) : (sorted texts).Pairwise (· ≤ ·) := by
  have trans : ∀ a b c : String, decide (a ≤ b) = true → decide (b ≤ c) = true →
      decide (a ≤ c) = true := by
    simp only [decide_eq_true_eq]
    exact fun _ _ _ => le_trans
  have total : ∀ a b : String, (decide (a ≤ b) || decide (b ≤ a)) = true := by
    simpa using le_total
  simpa [sorted] using List.pairwise_mergeSort trans total texts

/-- Texts that are the same but for their order come to the same in order. -/
theorem sorted_of_perm {texts others : List String} (perm : texts.Perm others) :
    sorted texts = sorted others :=
  (((List.mergeSort_perm _ _).trans perm).trans (List.mergeSort_perm _ _).symm).eq_of_pairwise'
    (pairwise_sorted texts) (pairwise_sorted others)

theorem dropRepeats_subset : ∀ texts : List String, dropRepeats texts ⊆ texts
  | [] => fun _ => id
  | [_] => fun _ => id
  | a :: b :: rest => by
    rw [dropRepeats]
    split
    · exact fun _ member => List.mem_cons_of_mem _ (dropRepeats_subset (b :: rest) member)
    · exact List.cons_subset_cons a (dropRepeats_subset (b :: rest))

theorem subset_dropRepeats : ∀ texts : List String, texts ⊆ dropRepeats texts
  | [] => fun _ => id
  | [_] => fun _ => id
  | a :: b :: rest => by
    have later := subset_dropRepeats (b :: rest)
    rw [dropRepeats]
    split
    · next same => exact List.cons_subset.mpr ⟨later (same ▸ List.mem_cons_self), later⟩
    · exact List.cons_subset_cons a later

theorem mem_sortedUnique {text : String} {texts : List String} :
    text ∈ sortedUnique texts ↔ text ∈ texts := by
  have isSorted : text ∈ sorted texts ↔ text ∈ texts := mem_sorted
  rw [← isSorted]
  exact ⟨fun member => dropRepeats_subset _ member, fun member => subset_dropRepeats _ member⟩

/-- In texts in order, those that repeat stand side by side. -/
theorem pairwise_dropRepeats : ∀ texts : List String, texts.Pairwise (· ≤ ·) →
    (dropRepeats texts).Pairwise (· < ·)
  | [], _ => .nil
  | [_], _ => List.pairwise_singleton _ _
  | a :: b :: rest, ordered => by
    obtain ⟨least, others⟩ := List.pairwise_cons.mp ordered
    have strict := pairwise_dropRepeats (b :: rest) others
    rw [dropRepeats]
    split
    · exact strict
    · next different =>
      refine List.pairwise_cons.mpr ⟨fun c member => ?_, strict⟩
      have above : b ≤ c := by
        rcases List.mem_cons.mp (dropRepeats_subset _ member) with rfl | later
        · exact le_refl _
        · exact (List.pairwise_cons.mp others).1 c later
      exact lt_of_lt_of_le (lt_of_le_of_ne (least b List.mem_cons_self) different) above

/-- **Each text once**, in order. -/
theorem pairwise_sortedUnique (texts : List String) : (sortedUnique texts).Pairwise (· < ·) :=
  pairwise_dropRepeats _ (pairwise_sorted texts)

/-! ### Texts in order -/

theorem sorted_of_pairwise {texts : List String} (ordered : texts.Pairwise (· < ·)) :
    sorted texts = texts :=
  List.mergeSort_of_pairwise (ordered.imp fun less => decide_eq_true less.le)

theorem dropRepeats_of_pairwise : ∀ texts : List String, texts.Pairwise (· < ·) →
    dropRepeats texts = texts
  | [], _ => rfl
  | [_], _ => rfl
  | a :: b :: rest, ordered => by
    obtain ⟨least, others⟩ := List.pairwise_cons.mp ordered
    rw [dropRepeats, if_neg (least b List.mem_cons_self).ne, dropRepeats_of_pairwise _ others]

theorem sortedUnique_of_pairwise {texts : List String} (ordered : texts.Pairwise (· < ·)) :
    sortedUnique texts = texts := by
  rw [sortedUnique, sorted_of_pairwise ordered, dropRepeats_of_pairwise texts ordered]

/-- The UTF-8 bytes of a text. -/
def bytes (text : String) : List UInt8 :=
  text.toUTF8.data.toList

/-- The bytes of a text are those of its characters. -/
theorem bytes_eq_flatMap (text : String) : bytes text = text.toList.flatMap String.utf8EncodeChar := by
  have encoded : text.toUTF8 = text.toList.utf8Encode := String.utf8Encode_toList.symm
  rw [bytes, encoded, List.utf8Encode, List.toList_data_toByteArray]

/-! ### Characters -/

variable {first second : Nat} {front back : List UInt8}

theorem lt_of_byte (less : first < second) (isByte : second < 256) :
    UInt8.ofNat first :: front < UInt8.ofNat second :: back := by
  refine List.cons_lt_cons_iff.mpr (.inl ?_)
  rw [UInt8.lt_iff_toNat_lt, UInt8.toNat_ofNat', UInt8.toNat_ofNat']
  omega

/-- The first digit decides, or those behind it. -/
theorem lt_of_digit (ordered : first ≤ second) (isByte : second < 256) (later : first = second → front < back) :
    UInt8.ofNat first :: front < UInt8.ofNat second :: back := by
  rcases Nat.lt_or_eq_of_le ordered with less | same
  · exact lt_of_byte less isByte
  · exact List.cons_lt_cons_iff.mpr (.inr ⟨congrArg _ same, later same⟩)

/-- **The bytes of a smaller character** come first, whatever stands behind. -/
theorem encode_lt {c other : Char} (less : c < other) (front back : List UInt8) :
    String.utf8EncodeChar c ++ front < String.utf8EncodeChar other ++ back := by
  have isLess : c.val.toNat < other.val.toNat := less
  have isChar : other.val.toNat < 0x110000 := by
    rcases other.valid with low | ⟨-, high⟩
    · exact low.trans (by decide)
    · exact high
  unfold String.utf8EncodeChar
  generalize c.val.toNat = m at isLess ⊢
  generalize other.val.toNat = n at isLess isChar ⊢
  dsimp only
  -- The first byte decides unless both characters take equally many.
  split_ifs
  all_goals try omega
  all_goals simp only [List.cons_append, List.nil_append]
  all_goals try exact lt_of_byte (by omega) (by omega)
  · -- Two bytes.
    exact lt_of_digit (by omega) (by omega) fun _ => lt_of_byte (by omega) (by omega)
  · -- Three bytes.
    refine lt_of_digit (by omega) (by omega) fun _ => ?_
    exact lt_of_digit (by omega) (by omega) fun _ => lt_of_byte (by omega) (by omega)
  · -- Four bytes.
    refine lt_of_digit (by omega) (by omega) fun _ => lt_of_digit (by omega) (by omega) fun _ => ?_
    exact lt_of_digit (by omega) (by omega) fun _ => lt_of_byte (by omega) (by omega)

/-! ### Texts -/

/-- The bytes of smaller characters in a row come first. -/
theorem flatMap_encode_lt {chars others : List Char} (less : chars < others) :
    chars.flatMap String.utf8EncodeChar < others.flatMap String.utf8EncodeChar := by
  induction less with
  | @nil c others =>
    obtain ⟨byte, more, isSome⟩ := List.exists_cons_of_ne_nil (String.utf8EncodeChar_ne_nil (c := c))
    rw [List.flatMap_nil, List.flatMap_cons, isSome, List.cons_append]
    exact .nil
  | rel less => exact encode_lt less _ _
  | cons _ ih => exact List.append_left_lt ih

/-- **Texts are ordered by their bytes.** -/
theorem bytes_lt_iff {text other : String} : bytes text < bytes other ↔ text < other := by
  have increasing {text other : String} (less : text < other) : bytes text < bytes other := by
    rw [bytes_eq_flatMap, bytes_eq_flatMap]
    exact flatMap_encode_lt (String.lt_iff.mp less)
  refine ⟨fun less => ?_, increasing⟩
  rcases lt_trichotomy text other with isLess | rfl | isMore
  · exact isLess
  · exact absurd less (List.lt_irrefl _)
  · exact absurd (increasing isMore) (List.lt_asymm less)

end Forwarder.Text
