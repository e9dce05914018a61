/-
**What the header pattern finds.** The pattern is searched from left to right and takes the first
occurrence of each word. That loses nothing: what follows a later occurrence also follows the first.

* `lastOf` — the last character of a stretch, or else the one before it.
* `afterWord?_of_split`, `split_of_afterWord?` — a word that stands in a text is found, and conversely.
* `Implements` — the rest of a header: the word `implements`, and later an applied `Decorator`.
* **`matchesDecorator_iff`** — a text matches if and only if the word `class` stands in front of the rest
  of a header somewhere.
-/

import Forwarder.Decoration.HeaderPattern

namespace Forwarder.HeaderPattern

open Text (isGap isWordChar)

/-- The last character of a stretch, or else the one before it. -/
def lastOf (before : Option Char) (front : List Char) : Option Char :=
  front.getLast?.or before

@[simp] theorem lastOf_nil (before : Option Char) : lastOf before [] = before :=
  rfl

@[simp] theorem lastOf_cons (before : Option Char) (c : Char) (front : List Char) :
    lastOf before (c :: front) = lastOf (some c) front := by
  cases front with
  | nil => rfl
  | cons d front =>
    rw [lastOf, lastOf, List.getLast?_cons_cons]
    rw [List.getLast?_eq_some_getLast (List.cons_ne_nil d front)]
    rfl

theorem lastOf_append (before : Option Char) (front back : List Char) :
    lastOf before (front ++ back) = lastOf (lastOf before front) back := by
  rw [lastOf, lastOf, lastOf, List.getLast?_append, Option.or_assoc]

/-- A stretch behind a word character that ends at the start of a word has a character of its own. -/
theorem delimits_lastOf_of_word {before : Option Char} {c : Char} {front : List Char}
    (word : isWordChar c = true) (opens : delimits (lastOf (some c) front) = true) :
    delimits (lastOf before front) = true := by
  cases front with
  | nil => simp [delimits, word] at opens
  | cons d front => simpa using opens

/-! ### Words -/

section Word

variable {word : List Char} {before : Option Char} {cs front back rest : List Char}

/-- A word that stands in a text is found, there or earlier. -/
theorem afterWord?_of_split (some_ : word ≠ []) (split : cs = front ++ (word ++ back))
    (opens : delimits (lastOf before front) = true) (closes : delimits back.head? = true) :
    ∃ extra, afterWord? word before cs = some (extra ++ back) := by
  induction front generalizing before cs with
  | nil =>
    obtain ⟨c, more, rfl⟩ := List.exists_cons_of_ne_nil some_
    refine ⟨[], ?_⟩
    rw [split, List.nil_append, List.cons_append, afterWord?, ← List.cons_append, List.drop_left,
      if_pos]
    · rfl
    · simpa [closes] using opens
  | cons c front ih =>
    rw [split, List.cons_append, afterWord?]
    split
    · refine ⟨(c :: front ++ word).drop word.length, ?_⟩
      rw [← List.cons_append, ← List.append_assoc,
        List.drop_append_of_le_length (by rw [List.length_append]; exact Nat.le_add_left _ _)]
    · exact ih rfl (by simpa using opens)

/-- What is found is a word that stands in the text. -/
theorem split_of_afterWord? (found : afterWord? word before cs = some rest) :
    ∃ front, cs = front ++ (word ++ rest) ∧ delimits (lastOf before front) = true ∧
      delimits rest.head? = true := by
  induction cs generalizing before with
  | nil => cases found
  | cons c cs ih =>
    rw [afterWord?] at found
    split at found
    · next here =>
      simp only [Bool.and_eq_true] at here
      obtain ⟨⟨opens, isPrefix⟩, closes⟩ := here
      cases found
      have taken := List.prefix_iff_eq_append.mp (List.isPrefixOf_iff_prefix.mp isPrefix)
      exact ⟨[], taken.symm, opens, closes⟩
    · obtain ⟨front, split, opens, closes⟩ := ih found
      exact ⟨c :: front, by rw [split, List.cons_append], by simpa using opens, closes⟩

/-- `Decorator` with an opening bracket behind it is named exactly if it stands somewhere. -/
theorem namesDecorator_iff : namesDecorator before cs = true ↔
    ∃ front back, cs = front ++ ("Decorator".toList ++ back) ∧
      delimits (lastOf before front) = true ∧ (gaps back).1.gap = true := by
  induction cs generalizing before with
  | nil =>
    refine ⟨fun absurd => (by cases absurd), ?_⟩
    rintro ⟨front, back, split, _⟩
    have empty := congrArg List.length split
    simp only [List.length_append, List.length_nil] at empty
    have length : "Decorator".toList.length = 9 := by decide
    omega
  | cons c cs ih =>
    rw [namesDecorator, Bool.or_eq_true, ih]
    simp only [Bool.and_eq_true]
    constructor
    · rintro (⟨⟨opens, isPrefix⟩, gap⟩ | ⟨front, back, split, opens, gap⟩)
      · have taken := List.prefix_iff_eq_append.mp (List.isPrefixOf_iff_prefix.mp isPrefix)
        exact ⟨[], _, taken.symm, opens, gap⟩
      · exact ⟨c :: front, back, by rw [split, List.cons_append], by simpa using opens, gap⟩
    · rintro ⟨_ | ⟨d, front⟩, back, split, opens, gap⟩
      · rw [List.nil_append] at split
        refine .inl ⟨⟨opens, ?_⟩, ?_⟩
        · rw [split]
          exact List.isPrefixOf_iff_prefix.mpr (List.prefix_append _ _)
        · rw [split, List.drop_left]
          exact gap
      · obtain ⟨rfl, others⟩ := List.cons.inj split
        exact .inr ⟨front, back, others, by simpa using opens, gap⟩

end Word

/-! ### The pattern -/

/-- The rest of a header, in what follows a word: the word `implements`, and later `Decorator` at the
start of a word, with an opening bracket behind it. -/
def Implements (cs : List Char) : Prop :=
  ∃ front middle back,
    cs = front ++ ("implements".toList ++ (middle ++ ("Decorator".toList ++ back))) ∧
    delimits (lastOf (some 's') front) = true ∧ delimits (lastOf (some 's') middle) = true ∧
    delimits middle.head? = true ∧ (gaps back).1.gap = true

/-- The word `class` stands in front of the rest of a header. -/
def ClassImplements (cs : List Char) : Prop :=
  ∃ front back, cs = front ++ ("class".toList ++ back) ∧ delimits front.getLast? = true ∧
    delimits back.head? = true ∧ Implements back

/-- The rest of a header follows a word if it follows a later one. -/
theorem Implements.append {cs : List Char} (implements : Implements cs) (extra : List Char) :
    Implements (extra ++ cs) := by
  obtain ⟨front, middle, back, rfl, opens, inner, closes, gap⟩ := implements
  refine ⟨extra ++ front, middle, back, (List.append_assoc ..).symm, ?_, inner, closes, gap⟩
  rw [lastOf_append]
  exact delimits_lastOf_of_word (by decide) opens

/-- **The pattern matches** exactly if the word `class` stands in front of the rest of a header. -/
theorem matchesDecorator_iff {text : String} :
    matchesDecorator text = true ↔ ClassImplements text.toList := by
  rw [matchesDecorator]
  constructor
  · intro matches_
    split at matches_
    · cases matches_
    · next afterClass found =>
      split at matches_
      · cases matches_
      · next afterImplements found' =>
        obtain ⟨front, split, opens, closes⟩ := split_of_afterWord? found
        obtain ⟨front', split', opens', closes'⟩ := split_of_afterWord? found'
        obtain ⟨middle, back, rfl, inner, gap⟩ := namesDecorator_iff.mp matches_
        refine ⟨front, afterClass, split, by simpa [lastOf] using opens, closes, front', middle, back,
          split', opens', inner, ?_, gap⟩
        cases middle with
        | nil => exact absurd inner (by decide)
        | cons c middle => exact closes'
  · rintro ⟨front, after, split, opens, closes, implements⟩
    have opens' : delimits (lastOf none front) = true := by simpa [lastOf] using opens
    obtain ⟨extra, found⟩ := afterWord?_of_split (by decide) split opens' closes
    rw [found]
    obtain ⟨front', middle, back, split', opens', inner, closes', gap⟩ := implements.append extra
    have closes'' : delimits (middle ++ ("Decorator".toList ++ back)).head? = true := by
      cases middle with
      | nil => exact absurd inner (by decide)
      | cons c middle => exact closes'
    obtain ⟨extra', found'⟩ := afterWord?_of_split (by decide) split' opens' closes''
    simp only [found']
    refine namesDecorator_iff.mpr ⟨extra' ++ middle, back, (List.append_assoc ..).symm, ?_, gap⟩
    rw [lastOf_append]
    exact delimits_lastOf_of_word (by decide) inner

/-! ### Gaps -/

section Gaps

variable {c : Char} {front rest : List Char}

theorem gap_of_isGap (isSpace : isGap c = true) (isOpen : (gaps rest).1.gap = true) :
    (gaps (c :: rest)).1.gap = true := by
  simp [gaps, isSpace, isOpen]

theorem gap_append_of_isGap (spaces : ∀ c ∈ front, isGap c = true)
    (isOpen : (gaps rest).1.gap = true) : (gaps (front ++ rest)).1.gap = true := by
  induction front with
  | nil => exact isOpen
  | cons c front ih =>
    exact gap_of_isGap (spaces c List.mem_cons_self)
      (ih fun c member => spaces c (List.mem_cons_of_mem _ member))

/-- A block comment in front of a gap belongs to it. -/
theorem gap_of_blockComment (isOpen : (gaps rest).1.gap = true) :
    (gaps ('/' :: '*' :: front ++ '*' :: '/' :: rest)).1.gap = true := by
  have inner : (gaps (front ++ '*' :: '/' :: rest)).1.block = true := by
    induction front with
    | nil => simp [gaps, isOpen]
    | cons c front ih => simp [gaps, ih]
  simp only [gaps, List.cons_append, inner]
  simp

/-- A line comment in front of a gap that starts with the end of the line belongs to it. -/
theorem gap_of_lineComment (noBreak : ∀ c ∈ front, c ≠ '\n')
    (isOpen : (gaps ('\n' :: rest)).1.gap = true) :
    (gaps ('/' :: '/' :: front ++ '\n' :: rest)).1.gap = true := by
  have after : (gaps rest).1.gap = true := by simpa [gaps, isGap] using isOpen
  have inner : (gaps (front ++ '\n' :: rest)).1.line = true := by
    clear isOpen
    induction front with
    | nil => simp [gaps, after]
    | cons c front ih =>
      have other := noBreak c List.mem_cons_self
      have more := ih fun c member => noBreak c (List.mem_cons_of_mem _ member)
      simp [gaps, other, more]
  simp only [gaps, List.cons_append, inner]
  simp

end Gaps

end Forwarder.HeaderPattern
