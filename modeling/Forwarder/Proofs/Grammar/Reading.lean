/-
**Reading without the memory of failures.** What a rule reads and what it leaves over does not depend
on the failures remembered on the way, only on the tokens ahead.

* `Reading` — the verdict of a rule with the tokens left over.
* `Rule.reading`, `Choice.reading`, `Language.reading` — reading, as a function of the tokens ahead.
* `Shows` — an outcome of the reader with its memory and a reading that agree.
* **`Language.shows_run`** — the reader with its memory agrees with the reading everywhere.
* `Language.read_eq_ok_iff` — a whole list of tokens is read as a value exactly if the reading is that
  value with nothing left over.
-/

import Forwarder.Grammar.Run

namespace Forwarder.Grammar

open Source

/-- What reading a rule came to, with the tokens that are left over. -/
inductive Reading (α : Type)
  | matched (value : α) (rest : List Token)
  | absent
  | failed (rest : List Token)

/-- The reading with its value in another shape. -/
def Reading.map {α β : Type} (f : α → β) : Reading α → Reading β
  | .matched value rest => .matched (f value) rest
  | .absent => .absent
  | .failed rest => .failed rest

/-- A branch that left `rest` of the tokens `ts` has read too many of them to be given up. -/
def tooFar (ts rest : List Token) : Bool :=
  decide (rest.length + State.lookahead < ts.length)

/-- The place of the first token. -/
def placeOf (finish : Position) : List Token → Position
  | [] => finish
  | token :: _ => token.pos

/-! ### Rules -/

/-- The single token that passes the test. -/
def singleReading {α : Type} (test : Token → Bool) (value : Token → α) : List Token → Reading α
  | [] => .absent
  | token :: rest => if test token then .matched (value token) rest else .absent

/-- What is left of the tokens `ts` behind a part that may be missing and failed in front of `rest`. -/
def givenUp {α : Type} (ts : List Token) (value : α) (rest : List Token) : Reading α :=
  if tooFar ts rest then .failed rest else .matched value ts

/-- A reading that may be missing, of the tokens `ts`. -/
def Reading.optional {α : Type} (ts : List Token) : Reading α → Reading (Option α)
  | .matched value rest => .matched (some value) rest
  | .absent => .matched none ts
  | .failed rest => givenUp ts none rest

/-- The token whose text is that of one of the values. -/
def pickReading {α : Type} (values : List α) (text : α → String) : List Token → Reading α
  | [] => .absent
  | token :: rest =>
    match values.find? (text · == token.text) with
    | none => .absent
    | some value => .matched value rest

/-- Any token but those with one of these texts. -/
def otherReading (stops : List String) : List Token → Reading String
  | [] => .absent
  | token :: rest =>
    if stops.contains token.text then .failed (token :: rest) else .matched token.text rest

/-- Reads as often as it can be read, and fails if it has been read `bound` times. -/
def repeatedReading {α : Type} (step : List Token → Reading α) :
    Nat → List Token → Reading (List α)
  | 0, ts => .failed ts
  | bound + 1, ts =>
    match (step ts).optional ts with
    | .matched (some value) rest => (repeatedReading step bound rest).map (value :: ·)
    | .matched none rest => .matched [] rest
    | .absent => .absent
    | .failed rest => .failed rest

mutual

/-- Reads a rule off the tokens ahead, given how nonterminals are read and where the text ends. -/
def Rule.reading {σ : Type} {V : σ → Type} (symbol : (s : σ) → List Token → Reading (V s))
    (finish : Position) {α : Type} : Rule V α → List Token → Reading α
  | .word text, ts => singleReading (·.text == text) (fun _ => ()) ts
  | .token kind _, ts => singleReading (·.kind == kind) Token.text ts
  | .pick values text, ts => pickReading values text ts
  | .other stops, ts => otherReading stops ts
  | .seq first second, ts =>
    match first.reading symbol finish ts with
    | .absent => .absent
    | .failed rest => .failed rest
    | .matched a middle =>
      match second.reading symbol finish middle with
      | .absent => .failed middle
      | .failed rest => .failed rest
      | .matched b rest => .matched (a, b) rest
  | .choice alternatives, ts => alternatives.reading symbol finish false ts
  | .opt rule, ts => (rule.reading symbol finish ts).optional ts
  | .kept first second, ts =>
    match first.reading symbol finish ts with
    | .absent => .matched none ts
    | .failed rest => givenUp ts none rest
    | .matched a middle =>
      match second.reading symbol finish middle with
      | .absent => givenUp ts none middle
      | .failed rest => givenUp ts (some (a, none)) rest
      | .matched b rest => .matched (some (a, some b)) rest
  | .iterate limit rule, ts => repeatedReading (rule.reading symbol finish) limit ts
  | .iterate1 limit rule, ts =>
    match repeatedReading (rule.reading symbol finish) limit ts with
    | .matched [] _ => .absent
    | reading => reading
  | .call sym, ts => symbol sym ts
  | .located rule, ts => (rule.reading symbol finish ts).map (placeOf finish ts, ·)
  | .shaped shape _ rule, ts => (rule.reading symbol finish ts).map shape

/-- Reads the first alternative that can be read; `blamed` tells whether one has failed before. -/
def Choice.reading {σ : Type} {V : σ → Type} (symbol : (s : σ) → List Token → Reading (V s))
    (finish : Position) {α : Type} (blamed : Bool) : Choice V α → List Token → Reading α
  | .last rule, ts =>
    match rule.reading symbol finish ts with
    | .matched value rest => .matched value rest
    | .absent => if blamed then .failed ts else .absent
    | .failed rest => if tooFar ts rest then .failed rest else .failed ts
  | .or rule others, ts =>
    match rule.reading symbol finish ts with
    | .matched value rest => .matched (.inl value) rest
    | .absent => (others.reading symbol finish blamed ts).map .inr
    | .failed rest =>
      if tooFar ts rest then .failed rest
      else (others.reading symbol finish true ts).map .inr

end

/-- Reads a nonterminal, with at most the given depth of nested nonterminals. -/
def Language.reading {σ : Type} (G : Language σ) (finish : Position) :
    Nat → (s : σ) → List Token → Reading (G.Value s)
  | 0, _, _ => .absent
  | bound + 1, symbol, ts => (G.production symbol).reading (G.reading finish bound) finish ts

/-! ### The state -/

namespace State

variable (s branch : State) (e : Complaint)

@[simp] theorem accept_rest : (s.accept branch).rest = branch.rest := by
  unfold accept
  split <;> rfl

@[simp] theorem accept_index : (s.accept branch).index = branch.index := by
  unfold accept
  split <;> rfl

@[simp] theorem accept_finish : (s.accept branch).finish = branch.finish := by
  unfold accept
  split <;> rfl

@[simp] theorem note_rest : (s.note e).rest = s.rest := by
  unfold note
  split <;> rfl

@[simp] theorem note_index : (s.note e).index = s.index := by
  unfold note
  split <;> rfl

@[simp] theorem note_finish : (s.note e).finish = s.finish := by
  unfold note
  split <;> rfl

@[simp] theorem noteBranch_rest : (s.noteBranch e branch).rest = s.rest := by
  unfold noteBranch
  split
  · rfl
  · split <;> rfl

@[simp] theorem noteBranch_index : (s.noteBranch e branch).index = s.index := by
  unfold noteBranch
  split
  · rfl
  · split <;> rfl

@[simp] theorem noteBranch_finish : (s.noteBranch e branch).finish = s.finish := by
  unfold noteBranch
  split
  · rfl
  · split <;> rfl

/-- The state moved on within the same tokens: what was read and what is ahead add up as before. -/
structure Follows (s after : State) : Prop where
  total : after.index + after.rest.length = s.index + s.rest.length
  finish : after.finish = s.finish

theorem pos_eq : s.pos = placeOf s.finish s.rest := by
  unfold pos placeOf
  cases s.rest <;> rfl

variable {s branch e}

theorem Follows.of_same {after : State} (rest : after.rest = s.rest) (index : after.index = s.index)
    (finish : after.finish = s.finish) : s.Follows after :=
  ⟨by rw [rest, index], finish⟩

theorem Follows.trans {middle after : State} (first : s.Follows middle)
    (second : middle.Follows after) : s.Follows after :=
  ⟨second.total.trans first.total, second.finish.trans first.finish⟩

/-- Giving a failed branch up, seen from the tokens: it is done unless the branch read too far, and
in that case reading ends where the branch did. -/
theorem abandon_eq (follows : s.Follows branch) :
    ∃ after, s.abandon e branch = (tooFar s.rest branch.rest, after) ∧ s.Follows after ∧
      after.rest = if tooFar s.rest branch.rest then branch.rest else s.rest := by
  have same : decide (s.index + lookahead < branch.index) = tooFar s.rest branch.rest := by
    have total := follows.total
    unfold tooFar
    congr 1
    exact propext ⟨fun h => by omega, fun h => by omega⟩
  unfold abandon
  simp only [noteBranch_index]
  by_cases far : s.index + lookahead < branch.index
  · rw [if_pos far, ← same, decide_eq_true far]
    exact ⟨_, rfl, ⟨by simpa using follows.total, by simpa using follows.finish⟩, by simp⟩
  · rw [if_neg far, ← same, decide_eq_false far]
    exact ⟨_, rfl, .of_same (by simp) (by simp) (by simp), by simp⟩

end State

/-! ### Agreement -/

/-- The reading in an outcome. -/
def left {α : Type} : Outcome α → Reading α
  | (.matched value, s) => .matched value s.rest
  | (.absent, _) => .absent
  | (.failed _, s) => .failed s.rest

/-- **Outcome and reading agree.** The outcome of reading on from `s` has the verdict of the reading
and leaves the same tokens over; where nothing was read, it leaves all of them. -/
structure Shows {α : Type} (s : State) (outcome : Outcome α) (reading : Reading α) : Prop where
  left_eq : left outcome = reading
  follows : s.Follows outcome.2
  still : reading = .absent → outcome.2.rest = s.rest

namespace Shows

variable {α β : Type} {s : State}

theorem matched {value : α} {after : State} (follows : s.Follows after) :
    Shows s (.matched value, after) (.matched value after.rest) :=
  ⟨rfl, follows, fun absurd => by cases absurd⟩

theorem absent {after : State} (follows : s.Follows after) (still : after.rest = s.rest) :
    Shows (α := α) s (.absent, after) .absent :=
  ⟨rfl, follows, fun _ => still⟩

theorem failed {e : Complaint} {after : State} (follows : s.Follows after) :
    Shows (α := α) s (.failed e, after) (.failed after.rest) :=
  ⟨rfl, follows, fun absurd => by cases absurd⟩

/-- The three ways in which an outcome and a reading can agree. -/
theorem cases {outcome : Outcome α} {reading : Reading α} (shows_ : Shows s outcome reading) :
    (∃ value after, outcome = (.matched value, after) ∧ reading = .matched value after.rest ∧
      s.Follows after) ∨
    (∃ after, outcome = (.absent, after) ∧ reading = .absent ∧ s.Follows after ∧
      after.rest = s.rest) ∨
    ∃ e after, outcome = (.failed e, after) ∧ reading = .failed after.rest ∧ s.Follows after := by
  obtain ⟨verdict, after⟩ := outcome
  obtain ⟨rfl, follows, still⟩ := shows_
  cases verdict with
  | matched value => exact .inl ⟨value, after, rfl, rfl, follows⟩
  | absent => exact .inr (.inl ⟨after, rfl, rfl, follows, still rfl⟩)
  | failed e => exact .inr (.inr ⟨e, after, rfl, rfl, follows⟩)

/-- A change of shape on both sides. -/
theorem map {outcome : Outcome α} {reading : Reading α} (shows_ : Shows s outcome reading)
    (f : α → β) : Shows s (outcome.1.map f, outcome.2) (reading.map f) := by
  rcases shows_.cases with ⟨v, after, rfl, rfl, follows⟩ | ⟨after, rfl, rfl, follows, still⟩ |
    ⟨e, after, rfl, rfl, follows⟩
  · exact .matched follows
  · exact .absent follows still
  · exact .failed follows

/-- Agreement from a state further back. -/
theorem trans {middle : State} {outcome : Outcome α} {reading : Reading α}
    (second : Shows middle outcome reading) (first : s.Follows middle)
    (still : reading = .absent → middle.rest = s.rest) : Shows s outcome reading :=
  ⟨second.left_eq, first.trans second.follows, fun h => (second.still h).trans (still h)⟩

end Shows

theorem shows_accept {α : Type} {value : α} {s branch : State} (follows : s.Follows branch) :
    Shows s (.matched value, s.accept branch) (.matched value branch.rest) := by
  have shown : Shows s (.matched value, s.accept branch) (.matched value (s.accept branch).rest) :=
    .matched ⟨by simpa using follows.total, by simpa using follows.finish⟩
  rw [State.accept_rest] at shown
  exact shown

theorem shows_giveUp {α : Type} (value : α) {s branch : State} (e : Complaint) (follows : s.Follows branch) :
    Shows s (s.giveUp value e branch) (givenUp s.rest value branch.rest) := by
  have noted : (s.note e).Follows branch := ⟨by simpa using follows.total, by simpa using follows.finish⟩
  have back : s.Follows (s.note e) := .of_same (by simp) (by simp) (by simp)
  obtain ⟨after, abandoned, moved, rest⟩ := State.abandon_eq (e := e) noted
  rw [State.note_rest] at abandoned rest
  simp only [State.giveUp, abandoned, givenUp]
  by_cases far : tooFar s.rest branch.rest = true
  · rw [if_pos far] at rest
    simp only [far, if_true]
    rw [← rest]
    exact .failed (back.trans moved)
  · rw [if_neg far] at rest
    simp only [far]
    rw [← rest]
    exact .matched (back.trans moved)

/-! ### Repetition -/

/-- A turn of a repetition, as the outcome of an optional rule. -/
def turnOutcome {α : Type} : Turn α × State → Outcome (Option α)
  | (.read value, s) => (.matched (some value), s)
  | (.stop, s) => (.matched none, s)
  | (.failed e, s) => (.failed e, s)

section Repetition

variable {α : Type} {step : State → Outcome α} {stepReading : List Token → Reading α}
  {finish : Position}

theorem shows_turn {s : State} (shows_ : Shows s (step s) (stepReading s.rest)) :
    Shows s (turnOutcome (turn step s)) ((stepReading s.rest).optional s.rest) := by
  unfold turn
  rcases shows_.cases with ⟨v, branch, run, reading, follows⟩ |
    ⟨branch, run, reading, follows, still⟩ | ⟨e, branch, run, reading, follows⟩
  · rw [run, reading]
    exact shows_accept follows
  · rw [run, reading, Reading.optional, ← still]
    exact shows_accept follows
  · have shown := shows_giveUp (none : Option α) e follows
    rw [run, reading, Reading.optional]
    rw [State.giveUp] at shown
    dsimp only
    generalize (s.note e).abandon e branch = abandoned at shown ⊢
    obtain ⟨_ | _, after⟩ := abandoned <;> exact shown

theorem map_ne_absent {β : Type} {f : α → β} {reading : Reading α} (some_ : reading ≠ .absent) :
    reading.map f ≠ .absent := by
  cases reading with
  | absent => exact absurd rfl some_
  | matched value rest => exact fun absurd => by cases absurd
  | failed rest => exact fun absurd => by cases absurd

theorem optional_ne_absent (ts : List Token) (reading : Reading α) :
    reading.optional ts ≠ .absent := by
  cases reading with
  | matched value rest => exact fun absurd => by cases absurd
  | absent => exact fun absurd => by cases absurd
  | failed rest =>
    intro absurd
    rw [Reading.optional, givenUp] at absurd
    split at absurd <;> cases absurd

theorem repeatedReading_ne_absent (bound : Nat) (ts : List Token) :
    repeatedReading stepReading bound ts ≠ .absent := by
  induction bound generalizing ts with
  | zero => exact nofun
  | succ bound ih =>
    rw [repeatedReading]
    split
    · exact map_ne_absent (ih _)
    · exact nofun
    · next none => exact absurd none (optional_ne_absent _ _)
    · exact nofun

/-- A repetition that reads nothing leaves all tokens over. -/
theorem rest_eq_of_repeatedReading_nil {bound : Nat} {ts rest : List Token}
    (nothing : repeatedReading stepReading bound ts = .matched [] rest) : rest = ts := by
  cases bound with
  | zero => cases nothing
  | succ bound =>
    rw [repeatedReading] at nothing
    split at nothing
    · next rest _ =>
      cases others : repeatedReading stepReading bound rest <;>
        simp [others, Reading.map] at nothing
    · next stopped =>
      cases nothing
      cases reading : stepReading ts with
      | matched value rest =>
        rw [reading] at stopped
        cases stopped
      | absent =>
        rw [reading] at stopped
        cases stopped
        rfl
      | failed rest =>
        rw [reading, Reading.optional, givenUp] at stopped
        split at stopped
        · cases stopped
        · cases stopped
          rfl
    · cases nothing
    · cases nothing

theorem shows_repeated (complaint : Position → Complaint)
    (shows_ : ∀ s : State, s.finish = finish → Shows s (step s) (stepReading s.rest)) :
    ∀ (bound : Nat) (s : State), s.finish = finish →
      Shows s (repeated complaint step bound s) (repeatedReading stepReading bound s.rest)
  | 0, s, _ => .failed (.of_same rfl rfl rfl)
  | bound + 1, s, ends => by
    have one := shows_turn (shows_ s ends)
    rw [repeated, repeatedReading]
    generalize turn step s = turned at one
    obtain ⟨turned, after⟩ := turned
    cases turned with
    | read value =>
      rw [← one.left_eq]
      have others := shows_repeated complaint shows_ bound after (one.follows.finish.trans ends)
      exact (others.map (value :: ·)).trans one.follows fun none =>
        absurd none (map_ne_absent (repeatedReading_ne_absent _ _))
    | stop =>
      rw [← one.left_eq]
      exact .matched one.follows
    | failed e =>
      rw [← one.left_eq]
      exact .failed one.follows

end Repetition

/-! ### Rules -/

section Rules

variable {σ : Type} {V : σ → Type} {name : σ → String} {symbol : (s : σ) → State → Outcome (V s)}
  {symbolReading : (s : σ) → List Token → Reading (V s)} {finish : Position}

theorem shows_single {α : Type} (test : Token → Bool) (value : Token → α) (s : State) :
    Shows s (single test value s) (singleReading test value s.rest) := by
  unfold single singleReading State.take
  obtain ⟨rest, index, deepest, depth, finish⟩ := s
  cases rest with
  | nil => exact .absent (.of_same rfl rfl rfl) rfl
  | cons token rest =>
    by_cases passes : test token = true
    · simp only [passes, if_true]
      exact .matched ⟨by simp only [List.length_cons]; omega, rfl⟩
    · simp only [passes]
      exact .absent (.of_same rfl rfl rfl) rfl

/-- No alternative has failed exactly if nobody is to blame. -/
def Blame.Fits (blame : Blame) (blamed : Bool) : Prop :=
  blame.failure.isSome = blamed ∧ (blamed = false → blame.reached = 0)

theorem Blame.Fits.add {blame : Blame} {blamed : Bool} (fits : blame.Fits blamed) (e : Complaint)
    (branch : State) : (blame.add e branch).Fits true := by
  unfold Blame.add
  split
  · exact ⟨rfl, fun absurd => by cases absurd⟩
  · next far =>
    cases blamed with
    | true => exact fits
    | false => exact absurd (by rw [fits.2 rfl]; exact Nat.zero_le _) far

theorem Blame.Fits.shows_verdict {α : Type} {blame : Blame} {blamed : Bool}
    (fits : blame.Fits blamed) (s : State) :
    Shows (α := α) s (blame.verdict s) (if blamed then .failed s.rest else .absent) := by
  unfold Blame.verdict
  obtain ⟨isSome, _⟩ := fits
  rw [← isSome]
  cases blame.failure with
  | none => exact .absent (.of_same rfl rfl rfl) rfl
  | some e =>
    have shown := Shows.failed (α := α) (e := e) (.of_same (State.note_rest s e) (State.note_index s e)
      (State.note_finish s e))
    rw [State.note_rest] at shown
    exact shown

mutual

/-- **A rule reads the same with and without memory**, if its nonterminals do. -/
theorem Rule.shows_run (symbols : ∀ (sym : σ) (s : State), s.finish = finish →
      Shows s (symbol sym s) (symbolReading sym s.rest)) {α : Type} :
    ∀ (rule : Rule V α) (s : State), s.finish = finish →
      Shows s (rule.run name symbol s) (rule.reading symbolReading finish s.rest)
  | .word text, s, _ => by
    rw [Rule.run, Rule.reading]
    exact shows_single _ _ s
  | .token kind label, s, _ => by
    rw [Rule.run, Rule.reading]
    exact shows_single _ _ s
  | .pick values text, s, _ => by
    rw [Rule.run, Rule.reading]
    obtain ⟨rest, index, deepest, depth, finish⟩ := s
    cases rest with
    | nil => exact .absent (.of_same rfl rfl rfl) rfl
    | cons token rest =>
      simp only [pickReading]
      cases values.find? (text · == token.text) with
      | none => exact .absent (.of_same rfl rfl rfl) rfl
      | some value => exact .matched ⟨by simp only [List.length_cons]; omega, rfl⟩
  | .other stops, s, _ => by
    rw [Rule.run, Rule.reading]
    obtain ⟨rest, index, deepest, depth, finish⟩ := s
    cases rest with
    | nil => exact .absent (.of_same rfl rfl rfl) rfl
    | cons token rest =>
      simp only [otherReading]
      split
      · exact .failed (.of_same rfl rfl rfl)
      · exact .matched ⟨by simp only [List.length_cons]; omega, rfl⟩
  | .seq first second, s, ends => by
    rw [Rule.run, Rule.reading]
    rcases (first.shows_run symbols s ends).cases with ⟨a, middle, run, reading, follows⟩ |
      ⟨after, run, reading, follows, still⟩ | ⟨e, after, run, reading, follows⟩
    · rw [run, reading]
      simp only
      rcases (second.shows_run symbols middle (follows.finish.trans ends)).cases with
        ⟨b, after, run, reading, later⟩ | ⟨after, run, reading, later, still⟩ |
        ⟨e, after, run, reading, later⟩
      · rw [run, reading]
        exact .matched (follows.trans later)
      · rw [run, reading, ← still]
        exact .failed (follows.trans later)
      · rw [run, reading]
        exact .failed (follows.trans later)
    · rw [run, reading]
      exact .absent follows still
    · rw [run, reading]
      exact .failed follows
  | .choice alternatives, s, ends => by
    rw [Rule.run, Rule.reading]
    exact alternatives.shows_run symbols Blame.nobody false ⟨rfl, fun _ => rfl⟩ s ends
  | .opt rule, s, ends => by
    have one := shows_turn (rule.shows_run symbols s ends)
    rw [Rule.run, Rule.reading]
    generalize turn (rule.run name symbol) s = turned at one
    obtain ⟨turned, after⟩ := turned
    cases turned <;> exact one
  | .kept first second, s, ends => by
    rw [Rule.run, Rule.reading]
    rcases (first.shows_run symbols s ends).cases with ⟨a, middle, run, reading, follows⟩ |
      ⟨branch, run, reading, follows, still⟩ | ⟨e, branch, run, reading, follows⟩
    · rw [run, reading]
      simp only
      rcases (second.shows_run symbols middle (follows.finish.trans ends)).cases with
        ⟨b, branch, run, reading, later⟩ | ⟨branch, run, reading, later, still⟩ |
        ⟨e, branch, run, reading, later⟩
      · rw [run, reading]
        exact shows_accept (follows.trans later)
      · rw [run, reading, ← still]
        exact shows_giveUp none _ (follows.trans later)
      · rw [run, reading]
        exact shows_giveUp _ e (follows.trans later)
    · rw [run, reading, ← still]
      exact shows_accept follows
    · rw [run, reading]
      exact shows_giveUp none e follows
  | .iterate limit rule, s, ends => by
    rw [Rule.run, Rule.reading]
    exact shows_repeated _ (rule.shows_run symbols) _ s ends
  | .iterate1 limit rule, s, ends => by
    rw [Rule.run, Rule.reading]
    rcases (shows_repeated (.tooMany (rule.describe name false ++ "+") limit) (rule.shows_run symbols) limit s ends).cases with
      ⟨values, after, run, reading, follows⟩ | ⟨after, run, reading, follows, still⟩ |
      ⟨e, after, run, reading, follows⟩
    · rw [run, reading]
      cases values with
      | nil => exact .absent follows (rest_eq_of_repeatedReading_nil reading)
      | cons value values => exact .matched follows
    · rw [run, reading]
      exact .absent follows still
    · rw [run, reading]
      exact .failed follows
  | .call sym, s, ends => by
    rw [Rule.run, Rule.reading]
    exact symbols sym s ends
  | .located rule, s, ends => by
    rw [Rule.run, Rule.reading, ← ends, ← State.pos_eq, ends]
    exact (rule.shows_run symbols s ends).map _
  | .shaped shape back rule, s, ends => by
    rw [Rule.run, Rule.reading]
    exact (rule.shows_run symbols s ends).map shape

/-- An ordered choice reads the same with and without memory. -/
theorem Choice.shows_run (symbols : ∀ (sym : σ) (s : State), s.finish = finish →
      Shows s (symbol sym s) (symbolReading sym s.rest)) {α : Type} :
    ∀ (alternatives : Choice V α) (blame : Blame) (blamed : Bool), blame.Fits blamed →
      ∀ s : State, s.finish = finish →
      Shows s (alternatives.run name symbol blame s)
        (alternatives.reading symbolReading finish blamed s.rest)
  | .last rule, blame, blamed, fits, s, ends => by
    rw [Choice.run, Choice.reading]
    rcases (rule.shows_run symbols s ends).cases with ⟨value, branch, run, reading, follows⟩ |
      ⟨branch, run, reading, follows, still⟩ | ⟨e, branch, run, reading, follows⟩
    · rw [run, reading]
      exact shows_accept follows
    · rw [run, reading]
      exact fits.shows_verdict s
    · rw [run, reading]
      obtain ⟨after, abandoned, moved, rest⟩ := State.abandon_eq (e := e) follows
      simp only [abandoned]
      by_cases far : tooFar s.rest branch.rest = true
      · rw [if_pos far] at rest
        simp only [far, if_true]
        rw [← rest]
        exact .failed moved
      · rw [if_neg far] at rest
        simp only [far]
        have shown := (fits.add e branch).shows_verdict (α := α) after
        rw [rest] at shown
        exact shown.trans moved fun absurd => by cases absurd
  | .or rule others, blame, blamed, fits, s, ends => by
    rw [Choice.run, Choice.reading]
    rcases (rule.shows_run symbols s ends).cases with ⟨value, branch, run, reading, follows⟩ |
      ⟨branch, run, reading, follows, still⟩ | ⟨e, branch, run, reading, follows⟩
    · rw [run, reading]
      exact shows_accept follows
    · rw [run, reading]
      exact (others.shows_run symbols blame blamed fits s ends).map Sum.inr
    · rw [run, reading]
      obtain ⟨after, abandoned, moved, rest⟩ := State.abandon_eq (e := e) follows
      simp only [abandoned]
      by_cases far : tooFar s.rest branch.rest = true
      · rw [if_pos far] at rest
        simp only [far, if_true]
        rw [← rest]
        exact .failed moved
      · rw [if_neg far] at rest
        simp only [far]
        have shown := others.shows_run symbols _ true (fits.add e branch) after
          (moved.finish.trans ends)
        rw [rest] at shown
        exact (shown.map Sum.inr).trans moved fun _ => rest

end

/-- **A nonterminal reads the same with and without memory.** -/
theorem Language.shows_run (G : Language σ) (finish : Position) (bound : Nat) :
    ∀ (sym : σ) (s : State), s.finish = finish →
      Shows s (G.run bound sym s) (G.reading finish bound sym s.rest) := by
  induction bound with
  | zero => exact fun sym s _ => .absent (.of_same rfl rfl rfl) rfl
  | succ bound ih =>
    intro sym s ends
    rw [Language.run, Language.reading]
    have shown : Shows s ((G.production sym).run G.name (G.run bound) s)
        ((G.production sym).reading (G.reading finish bound) finish s.rest) :=
      (G.production sym).shows_run ih s ends
    rcases shown.cases with
      ⟨value, after, run, reading, follows⟩ | ⟨after, run, reading, follows, still⟩ |
      ⟨e, after, run, reading, follows⟩
    · rw [run, reading]
      exact .matched follows
    · rw [run, reading]
      exact .absent follows still
    · rw [run, reading]
      have noted : s.Follows (after.note e) :=
        ⟨by simpa using follows.total, by simpa using follows.finish⟩
      have shown := Shows.failed (α := G.Value sym) (e := e) noted
      rw [State.note_rest] at shown
      exact shown

/-- **A whole list of tokens is read** exactly if reading its nonterminal leaves nothing over. -/
theorem Language.read_eq_ok_iff (G : Language σ) (sym : σ) (tokens : List Token)
    (finish : Position) (value : G.Value sym) :
    G.read sym tokens finish = .ok value ↔
      G.reading finish (nesting tokens.length) sym tokens = .matched value [] := by
  unfold Language.read
  rcases (G.shows_run finish (nesting tokens.length) sym (State.start tokens finish) rfl).cases with
    ⟨v, after, run, reading, follows⟩ | ⟨after, run, reading, follows, still⟩ |
    ⟨e, after, run, reading, follows⟩
  · rw [run]
    simp only [State.start] at reading
    rw [reading]
    simp only [Reading.matched.injEq]
    cases after.rest with
    | nil => simp
    | cons token rest =>
      cases after.deepest <;> simp
  · rw [run]
    simp only [State.start] at reading
    rw [reading]
    exact ⟨nofun, nofun⟩
  · rw [run]
    simp only [State.start] at reading
    rw [reading]
    exact ⟨nofun, nofun⟩

end Rules

end Forwarder.Grammar
