/-
**Readings step by step.** What a rule comes to, once it is known what its first part has come to.

* `reading_seq`, `repeatedReading_cons` — the rest of a sequence and of a repetition.
* `GivesUp` — a reading that leaves the choice to the other alternatives.
* `choice_of_givesUp`, `eq_inl_of_not_givesUp` — an alternative either is given up or decides the choice.
-/

import Forwarder.Proofs.Grammar.Spelling

namespace Forwarder.Grammar

open Source

/-! ### One rule after the other -/

section Rules

variable {σ : Type} {V : σ → Type} {symbol : (s : σ) → List Token → Reading (V s)} {finish : Position}
  {α β : Type} {ts middle rest : List Token}

/-- The reading of a second rule, behind a first one that has left over `middle`. -/
def Reading.behind (middle : List Token) (a : α) : Reading β → Reading (α × β)
  | .matched b rest => .matched (a, b) rest
  | .absent => .failed middle
  | .failed rest => .failed rest

theorem reading_seq {first : Rule V α} {second : Rule V β} {a : α}
    (one : first.reading symbol finish ts = .matched a middle) :
    (Rule.seq first second).reading symbol finish ts =
      (second.reading symbol finish middle).behind middle a := by
  rw [Rule.reading, one]
  dsimp only
  cases second.reading symbol finish middle <;> rfl

theorem Reading.map_eq_matched_iff {f : α → β} {reading : Reading α} {value : β} :
    reading.map f = .matched value rest ↔ ∃ inner, reading = .matched inner rest ∧ value = f inner := by
  constructor
  · intro matched
    obtain ⟨inner, same, isInner⟩ := Reading.map_eq_matched matched
    exact ⟨inner, isInner, same⟩
  · rintro ⟨inner, rfl, rfl⟩
    rfl

theorem Reading.behind_eq_matched_iff {a : α} {reading : Reading β} {value : α × β} :
    reading.behind middle a = .matched value rest ↔ ∃ b, reading = .matched b rest ∧ value = (a, b) := by
  cases reading with
  | matched b left =>
    constructor
    · intro same
      cases same
      exact ⟨b, rfl, rfl⟩
    · rintro ⟨_, same, rfl⟩
      cases same
      rfl
  | absent => simp [Reading.behind]
  | failed left => simp [Reading.behind]

theorem reading_seq_eq_matched_iff {first : Rule V α} {second : Rule V β} {value : α × β} :
    (Rule.seq first second).reading symbol finish ts = .matched value rest ↔
      ∃ middle, first.reading symbol finish ts = .matched value.1 middle ∧
        second.reading symbol finish middle = .matched value.2 rest := by
  constructor
  · intro matched
    cases one : first.reading symbol finish ts with
    | matched a middle =>
      rw [reading_seq one] at matched
      obtain ⟨b, two, rfl⟩ := Reading.behind_eq_matched_iff.mp matched
      exact ⟨middle, rfl, two⟩
    | absent => simp [Rule.reading, one] at matched
    | failed left => simp [Rule.reading, one] at matched
  · rintro ⟨middle, one, two⟩
    rw [reading_seq one, two]
    rfl

theorem reading_word_eq_matched_iff {text : String} {value : Unit} :
    (Rule.word text : Rule V Unit).reading symbol finish ts = .matched value rest ↔
      ∃ token, token.text = text ∧ ts = token :: rest := by
  constructor
  · intro matched
    obtain ⟨token, rfl, isText, -⟩ := singleReading_eq_matched matched
    exact ⟨token, beq_iff_eq.mp isText, rfl⟩
  · rintro ⟨token, rfl, rfl⟩
    simp [Rule.reading, singleReading]

/-- One more reading in front of others. -/
theorem repeatedReading_cons {step : List Token → Reading α} {count : Nat} {value : α} {values : List α}
    (one : step ts = .matched value middle)
    (others : repeatedReading step count middle = .matched values rest) :
    repeatedReading step (count + 1) ts = .matched (value :: values) rest := by
  rw [repeatedReading, one]
  simp only [Reading.optional, others, Reading.map]

theorem repeatedReading_eq_cons {step : List Token → Reading α} {count : Nat} {value : α} {values : List α}
    (read : repeatedReading step count ts = .matched (value :: values) rest) :
    ∃ less middle, step ts = .matched value middle ∧
      repeatedReading step less middle = .matched values rest := by
  cases count with
  | zero => cases read
  | succ count =>
    rw [repeatedReading] at read
    cases isOne : (step ts).optional ts with
    | absent => rw [isOne] at read; cases read
    | failed left => rw [isOne] at read; cases read
    | matched found middle =>
      rw [isOne] at read
      cases found with
      | none => cases read
      | some first =>
        obtain ⟨others, same, rest_⟩ := Reading.map_eq_matched read
        cases same
        exact ⟨count, middle, Reading.optional_eq_some isOne, rest_⟩

theorem near_cons (token : Token) (ts : List Token) : tooFar (token :: ts) ts = false := by
  simp [tooFar, State.lookahead]

theorem tooFar_cons (far : tooFar ts rest = true) (token : Token) : tooFar (token :: ts) rest = true := by
  simp only [tooFar, decide_eq_true_eq, List.length_cons] at far ⊢
  omega

/-- The rule is not read here, and what was tried can be given up. -/
def GivesUp (ts : List Token) (reading : Reading α) : Prop :=
  reading = .absent ∨ ∃ rest, reading = .failed rest ∧ tooFar ts rest = false

theorem givesUp_matched {value : α} : ¬GivesUp ts (.matched value rest) := by
  simp [GivesUp]

theorem givesUp_failed : GivesUp ts (.failed rest : Reading α) ↔ tooFar ts rest = false := by
  simp [GivesUp]

theorem GivesUp.optional {reading : Reading α} (gives : GivesUp ts reading) :
    reading.optional ts = .matched none ts := by
  rcases gives with rfl | ⟨rest, rfl, near⟩
  · rfl
  · simp [Reading.optional, givenUp, near]

theorem repeatedReading_of_givesUp {step : List Token → Reading α} (gives : GivesUp ts (step ts)) {limit : Nat}
    (positive : 0 < limit) : repeatedReading step limit ts = .matched [] ts := by
  obtain ⟨limit, rfl⟩ := Nat.exists_eq_add_one_of_ne_zero (Nat.ne_of_gt positive)
  rw [repeatedReading, gives.optional]

/-- A rule that is given up is repeated no further. -/
theorem reading_many_of_givesUp {rule : Rule V α} (gives : GivesUp ts (rule.reading symbol finish ts)) :
    (Rule.many rule).reading symbol finish ts = .matched [] ts := by
  rw [Rule.reading, repeatedReading_of_givesUp gives maxIterations_pos]

theorem reading_opt_of_givesUp {rule : Rule V α} (gives : GivesUp ts (rule.reading symbol finish ts)) :
    (Rule.opt rule).reading symbol finish ts = .matched none ts := by
  rw [Rule.reading, gives.optional]

theorem reading_last_eq_matched_iff {rule : Rule V α} {blamed : Bool} {value : α} :
    (Choice.last rule).reading symbol finish blamed ts = .matched value rest ↔
      rule.reading symbol finish ts = .matched value rest := by
  rw [Choice.reading]
  cases rule.reading symbol finish ts with
  | matched other left => rfl
  | absent => cases blamed <;> simp
  | failed left =>
    dsimp only
    split <;> simp

/-- An alternative that is given up leaves the choice to the others. -/
theorem choice_of_givesUp (rule : Rule V α) (others : Choice V β)
    (gives : GivesUp ts (rule.reading symbol finish ts)) (blamed : Bool) :
    ∃ blamed', (Choice.or rule others).reading symbol finish blamed ts =
      (others.reading symbol finish blamed' ts).map .inr := by
  rcases gives with absent | ⟨rest, failed, near⟩
  · exact ⟨blamed, by simp only [Choice.reading, absent]⟩
  · exact ⟨true, by simp [Choice.reading, failed, near]⟩

/-- An alternative that is not given up leaves the choice nothing else. -/
theorem eq_inl_of_not_givesUp {rule : Rule V α} {others : Choice V β} {blamed : Bool} {value : α ⊕ β}
    (keeps : ¬GivesUp ts (rule.reading symbol finish ts))
    (matched : (Choice.or rule others).reading symbol finish blamed ts = .matched value rest) :
    ∃ a, value = .inl a := by
  rw [Choice.reading] at matched
  cases isOne : rule.reading symbol finish ts with
  | matched a left =>
    rw [isOne] at matched
    exact ⟨a, (Reading.matched.inj matched).1.symm⟩
  | absent => exact absurd (.inl isOne) keeps
  | failed left =>
    cases near : tooFar ts left with
    | true => simp [isOne, near] at matched
    | false => exact absurd (.inr ⟨left, isOne, near⟩) keeps

end Rules

end Forwarder.Grammar
