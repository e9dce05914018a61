/-
**Reading moves on.** Whatever a rule comes to, the tokens that are ahead afterwards are the last ones of
those that were ahead before. A rule that is solid leaves fewer of them where it is matched. So a repetition
of such a rule comes to an end of itself, without the limit that it is given.

* `Advances` — what is read stands in front of what is left over.
* `Reading.Leaves`, `State.Onward` — what is left over, and where reading stands afterwards.
* **`Rule.onward_run`**, **`Rule.shorter_run`** — all rules move on, and solid ones by a token at least.
* `Rule.IsPart`, `Rule.IsRepeated` — the rules inside of a rule, and those that are repeated there.
* `Rule.isPaced` — everything that is repeated in a rule is solid.
* **`repeated_of_shorter`** — the limit of a repetition plays no part where fewer tokens are ahead.
-/

import Forwarder.Proofs.Grammar.Spelling

namespace Forwarder.Grammar

open Source

/-! ### What is read -/

/-- What is read stands in front of what is left over, and it is some token if the nonterminal is
solid. -/
def Advances {σ : Type} {V : σ → Type} (isSolid : σ → Bool)
    (symbol : (s : σ) → List Token → Reading (V s)) : Prop :=
  ∀ s ts value rest, symbol s ts = .matched value rest →
    ∃ front, ts = front ++ rest ∧ (isSolid s = true → front ≠ [])

section Advances

variable {σ : Type} {V : σ → Type} {isSolid : σ → Bool}

theorem Rule.advances {symbol : (s : σ) → List Token → Reading (V s)} {finish : Position}
    (advances : Advances isSolid symbol) {α : Type} {rule : Rule V α}
    {ts rest : List Token} {value : α} (matched : rule.reading symbol finish ts = .matched value rest) :
    ∃ front, ts = front ++ rest ∧ (rule.isSolid isSolid = true → front ≠ []) := by
  obtain ⟨front, split, spelled⟩ := rule.spells_of_reading advances ts value rest matched
  exact ⟨front, split, Rule.Spells.ne_nil (fun _ _ _ some_ => some_) rule value front spelled⟩

theorem Language.advances (G : Language σ) (solid : ∀ s, isSolid s = true → (G.production s).isSolid isSolid = true)
    (finish : Position) (bound : Nat) : Advances isSolid (G.reading finish bound) := by
  intro s ts value rest matched
  obtain ⟨front, split, spelled⟩ := G.spellsWithin_of_reading finish bound s ts value rest matched
  exact ⟨front, split, Language.Spells.ne_nil solid ⟨bound, spelled⟩⟩

end Advances

/-! ### What is left over -/

/-- What is left over of the tokens are the last ones of them. -/
def Reading.Leaves {α : Type} (ts : List Token) : Reading α → Prop
  | .matched _ rest | .failed rest => rest <:+ ts
  | .absent => True

namespace Reading.Leaves

variable {α β : Type} {reading : Reading α} {ts middle : List Token}

theorem map (leaves : reading.Leaves ts) (f : α → β) : (reading.map f).Leaves ts := by
  cases reading <;> exact leaves

theorem givenUp (suffix : middle <:+ ts) (value : α) : (givenUp ts value middle).Leaves ts := by
  rw [Grammar.givenUp]
  split
  · exact suffix
  · exact List.suffix_rfl

theorem optional (leaves : reading.Leaves ts) : (reading.optional ts).Leaves ts := by
  cases reading with
  | matched value rest => exact leaves
  | absent => exact List.suffix_rfl
  | failed rest => exact givenUp leaves none

theorem trans (leaves : reading.Leaves middle) (suffix : middle <:+ ts) : reading.Leaves ts := by
  cases reading with
  | matched value rest => exact leaves.trans suffix
  | absent => trivial
  | failed rest => exact leaves.trans suffix

end Reading.Leaves

theorem leaves_single {α : Type} (test : Token → Bool) (value : Token → α) (ts : List Token) :
    (singleReading test value ts).Leaves ts := by
  cases ts with
  | nil => trivial
  | cons token rest =>
    rw [singleReading]
    split
    · exact List.suffix_cons token rest
    · trivial

theorem leaves_pick {α : Type} (values : List α) (text : α → String) (ts : List Token) :
    (pickReading values text ts).Leaves ts := by
  cases ts with
  | nil => trivial
  | cons token rest =>
    rw [pickReading]
    split
    · trivial
    · exact List.suffix_cons token rest

theorem leaves_other (stops : List String) (ts : List Token) : (otherReading stops ts).Leaves ts := by
  cases ts with
  | nil => trivial
  | cons token rest =>
    rw [otherReading]
    split
    · exact List.suffix_rfl
    · exact List.suffix_cons token rest

theorem leaves_repeated {α : Type} {step : List Token → Reading α} (leaves : ∀ ts, (step ts).Leaves ts)
    (bound : Nat) (ts : List Token) : (repeatedReading step bound ts).Leaves ts := by
  induction bound generalizing ts with
  | zero => exact List.suffix_rfl
  | succ bound ih =>
    have one := (leaves ts).optional
    rw [repeatedReading]
    generalize (step ts).optional ts = reading at one
    cases reading with
    | matched value rest =>
      cases value with
      | none => exact one
      | some value => exact ((ih rest).map _).trans one
    | absent => trivial
    | failed rest => exact one

section Leaves

variable {σ : Type} {V : σ → Type} {symbol : (s : σ) → List Token → Reading (V s)} {finish : Position}

mutual

/-- A rule leaves over the last ones of the tokens, if its nonterminals do. -/
theorem Rule.leaves_reading (symbols : ∀ s ts, (symbol s ts).Leaves ts) {α : Type} :
    ∀ (rule : Rule V α) (ts : List Token), (rule.reading symbol finish ts).Leaves ts
  | .word text, ts => leaves_single _ _ ts
  | .token kind _, ts => leaves_single _ _ ts
  | .pick values text, ts => leaves_pick values text ts
  | .other stops, ts => leaves_other stops ts
  | .seq first second, ts => by
    have one := first.leaves_reading symbols ts
    rw [Rule.reading]
    generalize first.reading symbol finish ts = reading at one
    cases reading with
    | matched a middle =>
      have two := (second.leaves_reading symbols middle).trans one
      dsimp only
      generalize second.reading symbol finish middle = reading at two
      cases reading with
      | matched b rest => exact two
      | absent => exact one
      | failed rest => exact two
    | absent => trivial
    | failed rest => exact one
  | .choice alternatives, ts => alternatives.leaves_reading symbols false ts
  | .opt rule, ts => (rule.leaves_reading symbols ts).optional
  | .kept first second, ts => by
    have one := first.leaves_reading symbols ts
    rw [Rule.reading]
    generalize first.reading symbol finish ts = reading at one
    cases reading with
    | matched a middle =>
      have two := (second.leaves_reading symbols middle).trans one
      dsimp only
      generalize second.reading symbol finish middle = reading at two
      cases reading with
      | matched b rest => exact two
      | absent => exact .givenUp one none
      | failed rest => exact .givenUp two (some (a, none))
    | absent => exact List.suffix_rfl
    | failed rest => exact .givenUp one none
  | .iterate limit rule, ts => leaves_repeated (rule.leaves_reading symbols) limit ts
  | .iterate1 limit rule, ts => by
    have all : (repeatedReading (rule.reading symbol finish) limit ts).Leaves ts :=
      leaves_repeated (rule.leaves_reading symbols) limit ts
    rw [Rule.reading]
    split
    · trivial
    · exact all
  | .call sym, ts => symbols sym ts
  | .located rule, ts => (rule.leaves_reading symbols ts).map _
  | .shaped shape _ rule, ts => (rule.leaves_reading symbols ts).map shape

/-- The alternatives of a choice leave over the last ones of the tokens. -/
theorem Choice.leaves_reading (symbols : ∀ s ts, (symbol s ts).Leaves ts) {α : Type} :
    ∀ (alternatives : Choice V α) (blamed : Bool) (ts : List Token),
      (alternatives.reading symbol finish blamed ts).Leaves ts
  | .last rule, blamed, ts => by
    have one := rule.leaves_reading symbols ts
    rw [Choice.reading]
    generalize rule.reading symbol finish ts = reading at one
    cases reading with
    | matched value rest => exact one
    | absent =>
      cases blamed with
      | false => trivial
      | true => exact List.suffix_rfl
    | failed rest =>
      dsimp only
      split
      · exact one
      · exact List.suffix_rfl
  | .or rule others, blamed, ts => by
    have one := rule.leaves_reading symbols ts
    rw [Choice.reading]
    generalize rule.reading symbol finish ts = reading at one
    cases reading with
    | matched value rest => exact one
    | absent => exact (others.leaves_reading symbols blamed ts).map _
    | failed rest =>
      dsimp only
      split
      · exact one
      · exact (others.leaves_reading symbols true ts).map _

end

theorem Language.leaves_reading (G : Language σ) (finish : Position) (bound : Nat) :
    ∀ s ts, (G.reading finish bound s ts).Leaves ts := by
  induction bound with
  | zero => exact fun _ _ => trivial
  | succ bound ih => exact fun s ts => (G.production s).leaves_reading ih ts

end Leaves

/-! ### Where reading stands -/

/-- Reading has moved on, or stands where it was: what is ahead now are the last ones of the tokens that were
ahead, and the others are counted. -/
structure State.Onward (s after : State) : Prop extends s.Follows after where
  suffix : after.rest <:+ s.rest

namespace State.Onward

variable {s middle after : State}

theorem refl (s : State) : s.Onward s :=
  ⟨.of_same rfl rfl rfl, List.suffix_rfl⟩

theorem trans (first : s.Onward middle) (second : middle.Onward after) : s.Onward after :=
  ⟨first.toFollows.trans second.toFollows, second.suffix.trans first.suffix⟩

/-- The state of a branch is accepted. -/
theorem accept (onward : s.Onward middle) (before : State) : s.Onward (before.accept middle) :=
  ⟨⟨by simpa using onward.total, by simpa using onward.finish⟩, by simpa using onward.suffix⟩

end State.Onward

theorem Shows.onward {α : Type} {s : State} {outcome : Outcome α} {reading : Reading α}
    (shows_ : Shows s outcome reading) (leaves : reading.Leaves s.rest) : s.Onward outcome.2 := by
  rcases shows_.cases with ⟨value, after, rfl, rfl, follows⟩ | ⟨after, rfl, rfl, follows, still⟩ |
    ⟨e, after, rfl, rfl, follows⟩
  · exact ⟨follows, leaves⟩
  · exact ⟨follows, still ▸ List.suffix_rfl⟩
  · exact ⟨follows, leaves⟩

section Rules

variable {σ : Type} {G : Language σ} {isSolid : σ → Bool} {α : Type}

theorem Rule.shows_of_bound (G : Language σ) (bound : Nat) (rule : Rule G.Value α) (s : State) :
    Shows s (rule.run G.name (G.run bound) s) (rule.reading (G.reading s.finish bound) s.finish s.rest) :=
  rule.shows_run (G.shows_run s.finish bound) s rfl

/-- **All rules move on**, whatever they come to. -/
theorem Rule.onward_run (G : Language σ) (bound : Nat) (rule : Rule G.Value α) (s : State) :
    s.Onward (rule.run G.name (G.run bound) s).2 :=
  (rule.shows_of_bound G bound s).onward (rule.leaves_reading (G.leaves_reading s.finish bound) s.rest)

theorem Language.onward_run (G : Language σ) (bound : Nat) (sym : σ) (s : State) :
    s.Onward (G.run bound sym s).2 :=
  (G.shows_run s.finish bound sym s rfl).onward (G.leaves_reading s.finish bound sym s.rest)

theorem Rule.onward_of_run {bound : Nat} {rule : Rule G.Value α} {s after : State} {verdict : Verdict α}
    (run : rule.run G.name (G.run bound) s = (verdict, after)) : s.Onward after := by
  have moved := rule.onward_run G bound s
  rwa [run] at moved

/-- **Solid rules read a token**, where they are matched. -/
theorem Rule.shorter_run (solid : ∀ s, isSolid s = true → (G.production s).isSolid isSolid = true) {bound : Nat}
    {rule : Rule G.Value α} (isSolid : rule.isSolid isSolid = true) {s after : State} {value : α}
    (read : rule.run G.name (G.run bound) s = (.matched value, after)) : after.rest.length < s.rest.length := by
  have shown := (rule.shows_of_bound G bound s).left_eq
  rw [read] at shown
  obtain ⟨front, split, some_⟩ := Rule.advances (G.advances solid s.finish bound) shown.symm
  have longer := List.length_pos_iff.mpr (some_ isSolid)
  rw [split, List.length_append]
  omega

end Rules

/-! ### Parts -/

mutual

/-- The rule is part of another one, or this itself. -/
inductive Rule.IsPart {σ : Type} {V : σ → Type} {β : Type} (part : Rule V β) : {α : Type} → Rule V α → Prop
  | self : Rule.IsPart part part
  | first {α γ : Type} {first : Rule V α} {second : Rule V γ} (isPart : Rule.IsPart part first) :
      Rule.IsPart part (.seq first second)
  | second {α γ : Type} {first : Rule V α} {second : Rule V γ} (isPart : Rule.IsPart part second) :
      Rule.IsPart part (.seq first second)
  | choice {α : Type} {alternatives : Choice V α} (isPart : Choice.IsPart part alternatives) :
      Rule.IsPart part (.choice alternatives)
  | opt {α : Type} {rule : Rule V α} (isPart : Rule.IsPart part rule) : Rule.IsPart part (.opt rule)
  | keptFirst {α γ : Type} {first : Rule V α} {second : Rule V γ} (isPart : Rule.IsPart part first) :
      Rule.IsPart part (.kept first second)
  | keptSecond {α γ : Type} {first : Rule V α} {second : Rule V γ} (isPart : Rule.IsPart part second) :
      Rule.IsPart part (.kept first second)
  | iterate {α : Type} {limit : Nat} {rule : Rule V α} (isPart : Rule.IsPart part rule) :
      Rule.IsPart part (.iterate limit rule)
  | iterate1 {α : Type} {limit : Nat} {rule : Rule V α} (isPart : Rule.IsPart part rule) :
      Rule.IsPart part (.iterate1 limit rule)
  | located {α : Type} {rule : Rule V α} (isPart : Rule.IsPart part rule) : Rule.IsPart part (.located rule)
  | shaped {α γ : Type} {shape : α → γ} {back : γ → α} {rule : Rule V α} (isPart : Rule.IsPart part rule) :
      Rule.IsPart part (.shaped shape back rule)

/-- The rule is part of one of the alternatives. -/
inductive Choice.IsPart {σ : Type} {V : σ → Type} {β : Type} (part : Rule V β) : {α : Type} → Choice V α → Prop
  | last {α : Type} {rule : Rule V α} (isPart : Rule.IsPart part rule) : Choice.IsPart part (.last rule)
  | here {α γ : Type} {rule : Rule V α} {others : Choice V γ} (isPart : Rule.IsPart part rule) :
      Choice.IsPart part (.or rule others)
  | later {α γ : Type} {rule : Rule V α} {others : Choice V γ} (isPart : Choice.IsPart part others) :
      Choice.IsPart part (.or rule others)

end

/-- The rule is repeated inside of another one. -/
def Rule.IsRepeated {σ : Type} {V : σ → Type} {α β : Type} (part : Rule V β) (rule : Rule V α) : Prop :=
  ∃ limit, (Rule.iterate limit part).IsPart rule ∨ (Rule.iterate1 limit part).IsPart rule

mutual

/-- Everything that is repeated in the rule is solid. -/
def Rule.isPaced {σ : Type} {V : σ → Type} (isSolid : σ → Bool) {α : Type} : Rule V α → Bool
  | .word _ | .token _ _ | .pick _ _ | .other _ | .call _ => true
  | .seq first second | .kept first second => first.isPaced isSolid && second.isPaced isSolid
  | .choice alternatives => alternatives.isPaced isSolid
  | .opt rule | .located rule | .shaped _ _ rule => rule.isPaced isSolid
  | .iterate _ rule | .iterate1 _ rule => rule.isSolid isSolid && rule.isPaced isSolid

/-- Everything that is repeated in the alternatives is solid. -/
def Choice.isPaced {σ : Type} {V : σ → Type} (isSolid : σ → Bool) {α : Type} : Choice V α → Bool
  | .last rule => rule.isPaced isSolid
  | .or rule others => rule.isPaced isSolid && others.isPaced isSolid

end

section Paced

variable {σ : Type} {V : σ → Type} {isSolid : σ → Bool} {β : Type} {part : Rule V β}

mutual

/-- Whatever is part of a paced rule is paced. -/
theorem Rule.IsPart.isPaced {α : Type} {rule : Rule V α} :
    part.IsPart rule → rule.isPaced isSolid = true → part.isPaced isSolid = true
  | .self, paced => paced
  | .first isPart, paced => isPart.isPaced (Bool.and_eq_true_iff.mp paced).1
  | .second isPart, paced => isPart.isPaced (Bool.and_eq_true_iff.mp paced).2
  | .choice isPart, paced => isPart.isPaced paced
  | .opt isPart, paced => isPart.isPaced paced
  | .keptFirst isPart, paced => isPart.isPaced (Bool.and_eq_true_iff.mp paced).1
  | .keptSecond isPart, paced => isPart.isPaced (Bool.and_eq_true_iff.mp paced).2
  | .iterate isPart, paced => isPart.isPaced (Bool.and_eq_true_iff.mp paced).2
  | .iterate1 isPart, paced => isPart.isPaced (Bool.and_eq_true_iff.mp paced).2
  | .located isPart, paced => isPart.isPaced paced
  | .shaped isPart, paced => isPart.isPaced paced

theorem Choice.IsPart.isPaced {α : Type} {alternatives : Choice V α} :
    Choice.IsPart part alternatives → alternatives.isPaced isSolid = true → part.isPaced isSolid = true
  | .last isPart, paced => isPart.isPaced paced
  | .here isPart, paced => isPart.isPaced (Bool.and_eq_true_iff.mp paced).1
  | .later isPart, paced => isPart.isPaced (Bool.and_eq_true_iff.mp paced).2

end

/-- What is repeated in a paced rule is solid. -/
theorem Rule.IsRepeated.solid {α : Type} {rule : Rule V α} (repeated : part.IsRepeated rule)
    (paced : rule.isPaced isSolid = true) : part.isSolid isSolid = true := by
  obtain ⟨limit, isPart | isPart⟩ := repeated
  · exact (Bool.and_eq_true_iff.mp (isPart.isPaced paced)).1
  · exact (Bool.and_eq_true_iff.mp (isPart.isPaced paced)).1

end Paced

/-! ### Repetition -/

section Repetition

variable {α : Type} {step : State → Outcome α} {s after : State} {value : α}

/-- What is read on a turn is what the rule is matched with. -/
theorem turn_eq_read (read : turn step s = (.read value, after)) :
    ∃ branch, step s = (.matched value, branch) ∧ after = s.accept branch := by
  rw [turn] at read
  split at read
  · next branch matched =>
    cases read
    exact ⟨branch, matched, rfl⟩
  · cases read
  · split at read <;> cases read

/-- **No repetition reads more often than there are tokens ahead**: limits beyond this play no part. -/
theorem repeated_of_shorter {complaint : Position → Complaint}
    (shorter : ∀ (s : State) value after, step s = (.matched value, after) → after.rest.length < s.rest.length)
    {limit more : Nat} (s : State) (few : s.rest.length < limit) (few' : s.rest.length < more) :
    repeated complaint step limit s = repeated complaint step more s := by
  induction limit generalizing s more with
  | zero => exact absurd few (Nat.not_lt_zero _)
  | succ limit ih =>
    obtain ⟨more, rfl⟩ := Nat.exists_eq_add_one_of_ne_zero (Nat.ne_zero_of_lt few')
    rw [repeated, repeated]
    split
    · rfl
    · rfl
    · next value after read =>
      obtain ⟨branch, matched, rfl⟩ := turn_eq_read read
      have fewer := shorter s value branch matched
      rw [← State.accept_rest s branch] at fewer
      have same : repeated complaint step limit (s.accept branch) =
          repeated complaint step more (s.accept branch) := ih _ (by omega) (by omega)
      rw [same]

end Repetition

end Forwarder.Grammar
