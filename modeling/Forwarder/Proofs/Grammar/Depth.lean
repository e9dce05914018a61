/-
**How deep nonterminals nest.** The bound on nested nonterminals plays no part as long as it is large
enough for the tokens ahead: each level reads a token, or it is a nonterminal of a lower rank.

Without a bound a nonterminal is read by its production, and whatever nonterminals this calls are read in the
same way. On the way from one nonterminal to another either a token is read or the rank goes down, so none of
them is called again before a token has been read, and reading ends. Then a bound that is large enough changes
nothing, not even the failures that are remembered.

* `Rule.leads` — the nonterminals that a rule reads in front of its first token.
* `Rule.reading_congr` — a rule reads the same whenever its nonterminals do, in the places where it reads
  them.
* `Language.IsRanked` — the nonterminals that lead a production have a lower rank than its own.
* **`Language.reading_congr`** — with two bounds that are large enough the same is read.
* `Rule.Calls`, `Choice.Calls` — the nonterminals that are called while a rule is read.
* `Rule.run_of_calls` — a rule comes to the same if these do.
* `Language.Reads` — what reading a nonterminal comes to if there is no bound.
* **`Language.Reads.unique`** — it comes to one thing.
* `Language.Enters` — a nonterminal is called while another one is read.
* **`Language.IsRanked.shorter_of_reentered`** — a nonterminal that is called again has fewer tokens ahead.
* **`Language.IsRanked.reads_run`** — reading comes to something: what it comes to within any large bound.
* **`Language.IsRanked.progresses`** — all of this, and what a grammar repeats.
-/

import Mathlib.Logic.Relation
import Forwarder.Proofs.Grammar.Progress

namespace Forwarder.Grammar

open Relation (TransGen)
open Source

/-! ### Leading nonterminals -/

mutual

/-- The nonterminals that the rule may read before it has read a token, given those that are solid. -/
def Rule.leads {σ : Type} {V : σ → Type} (isSolid : σ → Bool) {α : Type} : Rule V α → List σ
  | .word _ | .token _ _ | .pick _ _ | .other _ => []
  | .seq first second | .kept first second =>
    first.leads isSolid ++ if first.isSolid isSolid then [] else second.leads isSolid
  | .choice alternatives => alternatives.leads isSolid
  | .opt rule | .iterate _ rule | .iterate1 _ rule | .located rule | .shaped _ _ rule => rule.leads isSolid
  | .call sym => [sym]

/-- The nonterminals that the alternatives may read before they have read a token. -/
def Choice.leads {σ : Type} {V : σ → Type} (isSolid : σ → Bool) {α : Type} : Choice V α → List σ
  | .last rule => rule.leads isSolid
  | .or rule others => rule.leads isSolid ++ others.leads isSolid

end

/-! ### Agreement -/

section Congruence

variable {σ : Type} {V : σ → Type} {isSolid : σ → Bool} {finish : Position}
  {symbol other : (s : σ) → List Token → Reading (V s)}

theorem repeatedReading_congr {α : Type} {step more : List Token → Reading α}
    (advances : ∀ ts value rest, step ts = .matched value rest → rest <:+ ts) :
    ∀ (bound : Nat) (ts : List Token), (∀ rest, rest <:+ ts → step rest = more rest) →
      repeatedReading step bound ts = repeatedReading more bound ts
  | 0, _, _ => rfl
  | bound + 1, ts, same => by
    rw [repeatedReading, repeatedReading, ← same ts List.suffix_rfl]
    cases reading : step ts with
    | matched value rest =>
      simp only [Reading.optional]
      rw [repeatedReading_congr advances bound rest fun later suffix =>
        same later (suffix.trans (advances ts value rest reading))]
    | absent => rfl
    | failed rest =>
      simp only [Reading.optional, givenUp]
      cases tooFar ts rest <;> rfl

/-- A repeated rule reads the same if it does so here and behind the tokens it has read. -/
theorem repeatedReading_rule_congr (advances : Advances isSolid symbol) {α : Type} {rule : Rule V α}
    {ts : List Token} (limit : Nat) (here : rule.reading symbol finish ts = rule.reading other finish ts)
    (later : ∀ rest, rest.length < ts.length → rule.reading symbol finish rest = rule.reading other finish rest) :
    repeatedReading (rule.reading symbol finish) limit ts =
      repeatedReading (rule.reading other finish) limit ts := by
  refine repeatedReading_congr (fun ts value rest matched => ?_) limit ts fun rest suffix => ?_
  · obtain ⟨front, split, -⟩ := Rule.advances advances matched
    exact ⟨front, split.symm⟩
  · by_cases same : rest = ts
    · rw [same]
      exact here
    · exact later rest (Nat.lt_of_le_of_ne suffix.length_le (mt suffix.eq_of_length same))

/-- Nonterminals that read the same in front of one rule and another one read the same behind the first. -/
theorem congr_behind (advances : Advances isSolid symbol) {α β : Type} (first : Rule V α) (second : Rule V β)
    {ts middle : List Token} {value : α} (reading : first.reading symbol finish ts = .matched value middle)
    (here : ∀ s ∈ (Rule.seq first second).leads isSolid, symbol s ts = other s ts)
    (later : ∀ s rest, rest.length < ts.length → symbol s rest = other s rest) :
    (∀ s ∈ second.leads isSolid, symbol s middle = other s middle) ∧
      ∀ s rest, rest.length < middle.length → symbol s rest = other s rest := by
  obtain ⟨front, rfl, some_⟩ := Rule.advances advances reading
  rw [List.length_append] at later
  refine ⟨fun s member => ?_, fun s rest shorter => later s rest (by omega)⟩
  by_cases solid : first.isSolid isSolid = true
  · have longer := List.length_pos_iff.mpr (some_ solid)
    exact later s middle (by omega)
  · by_cases nothing : front = []
    · subst nothing
      exact here s (List.mem_append_right _ (by rwa [if_neg solid]))
    · have longer := List.length_pos_iff.mpr nothing
      exact later s middle (by omega)

mutual

/-- **A rule reads the same** if its nonterminals do: those that lead it in front of the tokens, and all of
them further on. -/
theorem Rule.reading_congr (advances : Advances isSolid symbol) {α : Type} :
    ∀ (rule : Rule V α) (ts : List Token), (∀ s ∈ rule.leads isSolid, symbol s ts = other s ts) →
      (∀ s rest, rest.length < ts.length → symbol s rest = other s rest) →
      rule.reading symbol finish ts = rule.reading other finish ts
  | .word _, _, _, _ | .token _ _, _, _, _ | .pick _ _, _, _, _ | .other _, _, _, _ => by
    simp only [Rule.reading]
  | .seq first second, ts, here, later => by
    have one := first.reading_congr advances ts
      (fun s member => here s (List.mem_append_left _ member)) later
    rw [Rule.reading, Rule.reading, ← one]
    cases reading : first.reading symbol finish ts with
    | matched value middle =>
      have behind := congr_behind advances first second reading here later
      simp only [second.reading_congr advances middle behind.1 behind.2]
    | absent => rfl
    | failed rest => rfl
  | .choice alternatives, ts, here, later => alternatives.reading_congr advances false ts here later
  | .opt rule, ts, here, later => by
    rw [Rule.reading, Rule.reading, rule.reading_congr advances ts here later]
  | .kept first second, ts, here, later => by
    have one := first.reading_congr advances ts
      (fun s member => here s (List.mem_append_left _ member)) later
    rw [Rule.reading, Rule.reading, ← one]
    cases reading : first.reading symbol finish ts with
    | matched value middle =>
      have behind := congr_behind advances first second reading here later
      simp only [second.reading_congr advances middle behind.1 behind.2]
    | absent => rfl
    | failed rest => rfl
  | .iterate limit rule, ts, here, later | .iterate1 limit rule, ts, here, later => by
    have several := repeatedReading_rule_congr advances limit (rule.reading_congr advances ts here later)
      fun rest shorter => rule.reading_congr advances rest (fun s _ => later s rest shorter)
        fun s further less => later s further (Nat.lt_trans less shorter)
    rw [Rule.reading, Rule.reading, several]
  | .call sym, ts, here, _ => here sym (List.mem_singleton_self sym)
  | .located rule, ts, here, later => by
    rw [Rule.reading, Rule.reading, rule.reading_congr advances ts here later]
  | .shaped _ _ rule, ts, here, later => by
    rw [Rule.reading, Rule.reading, rule.reading_congr advances ts here later]

/-- The same for the alternatives of a choice. -/
theorem Choice.reading_congr (advances : Advances isSolid symbol) {α : Type} :
    ∀ (alternatives : Choice V α) (blamed : Bool) (ts : List Token),
      (∀ s ∈ alternatives.leads isSolid, symbol s ts = other s ts) →
      (∀ s rest, rest.length < ts.length → symbol s rest = other s rest) →
      alternatives.reading symbol finish blamed ts = alternatives.reading other finish blamed ts
  | .last rule, blamed, ts, here, later => by
    rw [Choice.reading, Choice.reading, rule.reading_congr advances ts here later]
  | .or rule others, blamed, ts, here, later => by
    rw [Choice.reading, Choice.reading, rule.reading_congr advances ts
      (fun s member => here s (List.mem_append_left _ member)) later]
    have rest (blamed : Bool) := others.reading_congr advances blamed ts
      (fun s member => here s (List.mem_append_right _ member)) later
    simp only [rest]

end

end Congruence

/-! ### Bounds -/

namespace Language

variable {σ : Type} {G : Language σ} {isSolid : σ → Bool} {rank : σ → Nat} {levels : Nat}

/-- Some nonterminals are solid, and a nonterminal that leads a production is of lower rank. -/
structure IsRanked (G : Language σ) (isSolid : σ → Bool) (rank : σ → Nat) (levels : Nat) : Prop where
  solid : ∀ s, isSolid s = true → (G.production s).isSolid isSolid = true
  leads : ∀ s, ∀ t ∈ (G.production s).leads isSolid, rank t < rank s
  levels : ∀ s, rank s < levels

/-- One level more makes no difference. -/
theorem IsRanked.reading_succ (ranked : G.IsRanked isSolid rank levels) {finish : Position} {bound : Nat}
    {s : σ} {ts : List Token} (enough : levels * ts.length + rank s < bound) :
    G.reading finish bound s ts = G.reading finish (bound + 1) s ts := by
  induction bound generalizing s ts with
  | zero => exact absurd enough (Nat.not_lt_zero _)
  | succ bound ih =>
    rw [reading, reading]
    refine (G.production s).reading_congr (G.advances ranked.solid finish bound) ts (fun t member => ih ?_)
      fun t rest shorter => ih ?_
    · have lower := ranked.leads s t member
      omega
    · have low := ranked.levels t
      have fewer : levels * (rest.length + 1) ≤ levels * ts.length := Nat.mul_le_mul_left _ shorter
      rw [Nat.mul_succ] at fewer
      omega

/-- **Two bounds that are large enough** make no difference. -/
theorem IsRanked.reading_congr (ranked : G.IsRanked isSolid rank levels) {finish : Position} {s : σ}
    {ts : List Token} {bound : Nat} (enough : levels * ts.length + rank s < bound) {more : Nat}
    (le : bound ≤ more) : G.reading finish bound s ts = G.reading finish more s ts := by
  induction le with
  | refl => rfl
  | step le ih => exact ih.trans (ranked.reading_succ (Nat.lt_of_lt_of_le enough le))

end Language

/-! ### Calls -/

/-- A repeated rule is tried here, when it is read from the first state on. -/
inductive Tries {α : Type} (step : State → Outcome α) : Nat → State → State → Prop
  | here {bound : Nat} {s : State} : Tries step (bound + 1) s s
  | later {bound : Nat} {s middle tried : State} {value : α} (read : turn step s = (.read value, middle))
      (tries : Tries step bound middle tried) : Tries step (bound + 1) s tried

mutual

/-- A nonterminal is called from the second state, when the rule is read from the first one, given how
nonterminals are read. -/
inductive Rule.Calls {σ : Type} {V : σ → Type} (name : σ → String) (symbol : (s : σ) → State → Outcome (V s)) :
    {α : Type} → Rule V α → State → σ → State → Prop
  | call {sym : σ} {s : State} : Rule.Calls name symbol (.call sym) s sym s
  | first {α β : Type} {first : Rule V α} {second : Rule V β} {s s' : State} {t : σ}
      (call : Rule.Calls name symbol first s t s') : Rule.Calls name symbol (.seq first second) s t s'
  | second {α β : Type} {first : Rule V α} {second : Rule V β} {s middle s' : State} {t : σ} {value : α}
      (read : first.run name symbol s = (.matched value, middle))
      (call : Rule.Calls name symbol second middle t s') : Rule.Calls name symbol (.seq first second) s t s'
  | choice {α : Type} {alternatives : Choice V α} {s s' : State} {t : σ}
      (call : Choice.Calls name symbol alternatives s t s') : Rule.Calls name symbol (.choice alternatives) s t s'
  | opt {α : Type} {rule : Rule V α} {s s' : State} {t : σ} (call : Rule.Calls name symbol rule s t s') :
      Rule.Calls name symbol (.opt rule) s t s'
  | keptFirst {α β : Type} {first : Rule V α} {second : Rule V β} {s s' : State} {t : σ}
      (call : Rule.Calls name symbol first s t s') : Rule.Calls name symbol (.kept first second) s t s'
  | keptSecond {α β : Type} {first : Rule V α} {second : Rule V β} {s middle s' : State} {t : σ} {value : α}
      (read : first.run name symbol s = (.matched value, middle))
      (call : Rule.Calls name symbol second middle t s') : Rule.Calls name symbol (.kept first second) s t s'
  | iterate {α : Type} {limit : Nat} {rule : Rule V α} {s tried s' : State} {t : σ}
      (tries : Tries (rule.run name symbol) limit s tried) (call : Rule.Calls name symbol rule tried t s') :
      Rule.Calls name symbol (.iterate limit rule) s t s'
  | iterate1 {α : Type} {limit : Nat} {rule : Rule V α} {s tried s' : State} {t : σ}
      (tries : Tries (rule.run name symbol) limit s tried) (call : Rule.Calls name symbol rule tried t s') :
      Rule.Calls name symbol (.iterate1 limit rule) s t s'
  | located {α : Type} {rule : Rule V α} {s s' : State} {t : σ} (call : Rule.Calls name symbol rule s t s') :
      Rule.Calls name symbol (.located rule) s t s'
  | shaped {α β : Type} {shape : α → β} {back : β → α} {rule : Rule V α} {s s' : State} {t : σ}
      (call : Rule.Calls name symbol rule s t s') : Rule.Calls name symbol (.shaped shape back rule) s t s'

/-- The same for the alternatives of a choice, which are tried until one can be read. -/
inductive Choice.Calls {σ : Type} {V : σ → Type} (name : σ → String) (symbol : (s : σ) → State → Outcome (V s)) :
    {α : Type} → Choice V α → State → σ → State → Prop
  | last {α : Type} {rule : Rule V α} {s s' : State} {t : σ} (call : Rule.Calls name symbol rule s t s') :
      Choice.Calls name symbol (.last rule) s t s'
  | here {α β : Type} {rule : Rule V α} {others : Choice V β} {s s' : State} {t : σ}
      (call : Rule.Calls name symbol rule s t s') : Choice.Calls name symbol (.or rule others) s t s'
  | absent {α β : Type} {rule : Rule V α} {others : Choice V β} {s branch s' : State} {t : σ}
      (read : rule.run name symbol s = (.absent, branch)) (call : Choice.Calls name symbol others s t s') :
      Choice.Calls name symbol (.or rule others) s t s'
  | failed {α β : Type} {rule : Rule V α} {others : Choice V β} {s branch middle s' : State} {t : σ}
      {e : Complaint} (read : rule.run name symbol s = (.failed e, branch))
      (given : s.abandon e branch = (false, middle)) (call : Choice.Calls name symbol others middle t s') :
      Choice.Calls name symbol (.or rule others) s t s'

end

/-! ### Agreement -/

section Agreement

variable {σ : Type} {V : σ → Type} {name : σ → String} {symbol other : (s : σ) → State → Outcome (V s)}

theorem turn_congr {α : Type} {step more : State → Outcome α} {s : State} (same : step s = more s) :
    turn step s = turn more s := by
  rw [turn, turn, same]

/-- A repetition comes to the same if its rule does, wherever it is tried. -/
theorem repeated_of_tries {α : Type} {complaint : Position → Complaint} {step more : State → Outcome α}
    {bound : Nat} {s : State}
    (same : ∀ tried, Tries step bound s tried → Tries more bound s tried → step tried = more tried) :
    repeated complaint step bound s = repeated complaint more bound s := by
  induction bound generalizing s with
  | zero => rfl
  | succ bound ih =>
    have one : turn step s = turn more s := turn_congr (same s .here .here)
    rw [repeated, repeated, ← one]
    split
    · rfl
    · rfl
    · next value middle read =>
      rw [ih fun tried tries tries' => same tried (.later read tries) (.later (one ▸ read) tries')]

mutual

/-- **A rule comes to the same** if the nonterminals that it calls do. -/
theorem Rule.run_of_calls {α : Type} : ∀ (rule : Rule V α) (s : State),
    (∀ t s', rule.Calls name symbol s t s' → rule.Calls name other s t s' → symbol t s' = other t s') →
      rule.run name symbol s = rule.run name other s
  | .word _, _, _ | .token _ _, _, _ | .pick _ _, _, _ | .other _, _, _ => by
    simp only [Rule.run]
  | .seq first second, s, same => by
    have one : first.run name symbol s = first.run name other s :=
      first.run_of_calls s fun t s' call call' => same t s' (.first call) (.first call')
    rw [Rule.run, Rule.run, ← one]
    cases read : first.run name symbol s with
    | mk verdict middle =>
      cases verdict with
      | absent => rfl
      | failed e => rfl
      | matched value =>
        have two : second.run name symbol middle = second.run name other middle :=
          second.run_of_calls middle fun t s' call call' =>
            same t s' (.second read call) (.second (one ▸ read) call')
        simp only [two]
  | .choice alternatives, s, same =>
    alternatives.run_of_calls Blame.nobody s fun t s' call call' => same t s' (.choice call) (.choice call')
  | .opt rule, s, same => by
    rw [Rule.run, Rule.run, turn_congr (rule.run_of_calls s fun t s' call call' => same t s' (.opt call) (.opt call'))]
  | .kept first second, s, same => by
    have one : first.run name symbol s = first.run name other s :=
      first.run_of_calls s fun t s' call call' => same t s' (.keptFirst call) (.keptFirst call')
    rw [Rule.run, Rule.run, ← one]
    cases read : first.run name symbol s with
    | mk verdict middle =>
      cases verdict with
      | absent => rfl
      | failed e => rfl
      | matched value =>
        have two : second.run name symbol middle = second.run name other middle :=
          second.run_of_calls middle fun t s' call call' =>
            same t s' (.keptSecond read call) (.keptSecond (one ▸ read) call')
        simp only [two]
  | .iterate limit rule, s, same => by
    rw [Rule.run, Rule.run]
    exact repeated_of_tries fun tried tries tries' =>
      rule.run_of_calls tried fun t s' call call' => same t s' (.iterate tries call) (.iterate tries' call')
  | .iterate1 limit rule, s, same => by
    have all (complaint : Position → Complaint) :
        repeated complaint (rule.run name symbol) limit s = repeated complaint (rule.run name other) limit s :=
      repeated_of_tries fun tried tries tries' =>
        rule.run_of_calls tried fun t s' call call' => same t s' (.iterate1 tries call) (.iterate1 tries' call')
    rw [Rule.run, Rule.run, all]
  | .call sym, s, same => same sym s .call .call
  | .located rule, s, same => by
    rw [Rule.run, Rule.run, rule.run_of_calls s fun t s' call call' => same t s' (.located call) (.located call')]
  | .shaped shape _ rule, s, same => by
    rw [Rule.run, Rule.run, rule.run_of_calls s fun t s' call call' => same t s' (.shaped call) (.shaped call')]

/-- The alternatives of a choice come to the same. -/
theorem Choice.run_of_calls {α : Type} : ∀ (alternatives : Choice V α) (blame : Blame) (s : State),
    (∀ t s', alternatives.Calls name symbol s t s' → alternatives.Calls name other s t s' →
      symbol t s' = other t s') →
      alternatives.run name symbol blame s = alternatives.run name other blame s
  | .last rule, blame, s, same => by
    rw [Choice.run, Choice.run, rule.run_of_calls s fun t s' call call' => same t s' (.last call) (.last call')]
  | .or rule others, blame, s, same => by
    have one : rule.run name symbol s = rule.run name other s :=
      rule.run_of_calls s fun t s' call call' => same t s' (.here call) (.here call')
    rw [Choice.run, Choice.run, ← one]
    cases read : rule.run name symbol s with
    | mk verdict branch =>
      cases verdict with
      | matched value => rfl
      | absent =>
        simp only [others.run_of_calls blame s fun t s' call call' =>
          same t s' (.absent read call) (.absent (one ▸ read) call')]
      | failed e =>
        cases given : s.abandon e branch with
        | mk ends middle =>
          cases ends with
          | true => simp only [given]
          | false =>
            simp only [given, others.run_of_calls (blame.add e branch) middle fun t s' call call' =>
              same t s' (.failed read given call) (.failed (one ▸ read) given call')]

end

end Agreement

/-! ### Reading -/

/-- The outcome of a production is that of its nonterminal, with its failure remembered. -/
def noted {α : Type} : Outcome α → Outcome α
  | (.failed e, s) => (.failed e, s.note e)
  | outcome => outcome

namespace Language

variable {σ : Type} {G : Language σ} {sym : σ} {s : State}

theorem run_succ (G : Language σ) (bound : Nat) (sym : σ) (s : State) :
    G.run (bound + 1) sym s = noted ((G.production sym).run G.name (G.run bound) s) := by
  rw [run]
  generalize (G.production sym).run G.name (G.run bound) s = outcome
  obtain ⟨value | _ | e, after⟩ := outcome <;> rfl

/-- **Reading a nonterminal** comes to this outcome, however deep nonterminals nest. -/
inductive Reads (G : Language σ) : (sym : σ) → State → Outcome (G.Value sym) → Prop
  | called {sym : σ} {s : State} (symbol : (t : σ) → State → Outcome (G.Value t))
      (calls : ∀ t s', (G.production sym).Calls G.name symbol s t s' → Reads G t s' (symbol t s')) :
      Reads G sym s (noted ((G.production sym).run G.name symbol s))

/-- **Reading comes to one thing.** -/
theorem Reads.unique {outcome outcome' : Outcome (G.Value sym)} (reads : G.Reads sym s outcome)
    (reads' : G.Reads sym s outcome') : outcome = outcome' := by
  induction reads with
  | called symbol calls ih =>
    cases reads' with
    | called other calls' =>
      rw [Rule.run_of_calls _ _ fun t s' call call' => ih t s' call (calls' t s' call')]

end Language

/-! ### Leading nonterminals -/

/-- A nonterminal is called further on, and it is one of the leading ones unless a token has been read. -/
structure IsLed {σ : Type} (leading : List σ) (s : State) (t : σ) (s' : State) : Prop where
  onward : s.Onward s'
  leads : s'.rest.length = s.rest.length → t ∈ leading

namespace IsLed

variable {σ : Type} {leading more : List σ} {s middle s' : State} {t : σ}

theorem mono (isLed : IsLed leading s t s') (subset : leading ⊆ more) : IsLed more s t s' :=
  ⟨isLed.onward, fun same => subset (isLed.leads same)⟩

theorem behind (isLed : IsLed leading middle t s') (onward : s.Onward middle) : IsLed leading s t s' := by
  refine ⟨onward.trans isLed.onward, fun same => isLed.leads ?_⟩
  have le := onward.suffix.length_le
  have le' := isLed.onward.suffix.length_le
  omega

end IsLed

theorem Tries.onward {α : Type} {step : State → Outcome α} (onward : ∀ s : State, s.Onward (step s).2)
    {turns : Nat} {s tried : State} (tries : Tries step turns s tried) : s.Onward tried := by
  induction tries with
  | here => exact .refl _
  | @later _ s _ _ _ read _ ih =>
    obtain ⟨branch, matched, rfl⟩ := turn_eq_read read
    have moved := onward s
    rw [matched] at moved
    exact (moved.accept s).trans ih

section Leading

variable {σ : Type} {G : Language σ} {isSolid : σ → Bool} {bound : Nat}

mutual

/-- **Whatever a rule calls** leads it, or is called behind a token. -/
theorem Rule.Calls.isLed (solid : ∀ s, isSolid s = true → (G.production s).isSolid isSolid = true) {α : Type}
    {rule : Rule G.Value α} {s s' : State} {t : σ} :
    rule.Calls G.name (G.run bound) s t s' → IsLed (rule.leads isSolid) s t s'
  | .call => ⟨.refl s, fun _ => List.mem_singleton_self t⟩
  | .first call | .keptFirst call => (call.isLed solid).mono (List.subset_append_left _ _)
  | .second read call | .keptSecond read call => by
    have isLed := (call.isLed solid).behind (Rule.onward_of_run read)
    refine ⟨isLed.onward, fun same => List.mem_append_right _ ?_⟩
    split
    · next isFirst =>
      have fewer := Rule.shorter_run solid isFirst read
      have le := (call.isLed solid).onward.suffix.length_le
      omega
    · exact isLed.leads same
  | .choice call => call.isLed solid
  | .opt call => call.isLed solid
  | .iterate tries call => (call.isLed solid).behind (tries.onward (Rule.onward_run G bound _))
  | .iterate1 tries call => (call.isLed solid).behind (tries.onward (Rule.onward_run G bound _))
  | .located call => call.isLed solid
  | .shaped call => call.isLed solid

/-- The same for a choice. -/
theorem Choice.Calls.isLed (solid : ∀ s, isSolid s = true → (G.production s).isSolid isSolid = true) {α : Type}
    {alternatives : Choice G.Value α} {s s' : State} {t : σ} :
    alternatives.Calls G.name (G.run bound) s t s' → IsLed (alternatives.leads isSolid) s t s'
  | .last call => call.isLed solid
  | .here call => (call.isLed solid).mono (List.subset_append_left _ _)
  | .absent _ call => (call.isLed solid).mono (List.subset_append_right _ _)
  | .failed read given call => by
    obtain ⟨after, abandoned, follows, rest⟩ := State.abandon_eq (Rule.onward_of_run read).toFollows
    rw [given] at abandoned
    obtain ⟨near, rfl⟩ := Prod.mk.inj abandoned
    rw [if_neg (Bool.eq_false_iff.mp near.symm)] at rest
    exact ((call.isLed solid).behind ⟨follows, rest ▸ List.suffix_rfl⟩).mono (List.subset_append_right _ _)

end

end Leading

/-! ### Depth -/

namespace Language

variable {σ : Type} {G : Language σ} {isSolid : σ → Bool} {rank : σ → Nat} {levels bound : Nat} {sym : σ}
  {s s' : State} {outer inner : σ × State}

/-- While one nonterminal is read from its state, within some bound, another one is called from its own. -/
def Enters (G : Language σ) (outer inner : σ × State) : Prop :=
  ∃ bound, (G.production outer.1).Calls G.name (G.run bound) outer.2 inner.1 inner.2

namespace IsRanked

/-- **From one nonterminal to the next** reading moves on, and a token is read or the rank goes down. -/
theorem of_enters (ranked : G.IsRanked isSolid rank levels) (enters : G.Enters outer inner) :
    outer.2.Onward inner.2 ∧ (inner.2.rest.length = outer.2.rest.length → rank inner.1 < rank outer.1) := by
  obtain ⟨bound, call⟩ := enters
  have isLed := call.isLed ranked.solid
  exact ⟨isLed.onward, fun same => ranked.leads _ _ (isLed.leads same)⟩

/-- The same over any number of nonterminals. -/
theorem of_transGen (ranked : G.IsRanked isSolid rank levels) (path : TransGen G.Enters outer inner) :
    outer.2.Onward inner.2 ∧ (inner.2.rest.length = outer.2.rest.length → rank inner.1 < rank outer.1) := by
  induction path with
  | single enters => exact ranked.of_enters enters
  | tail _ enters ih =>
    obtain ⟨moved, lower⟩ := ih
    obtain ⟨further, lower'⟩ := ranked.of_enters enters
    refine ⟨moved.trans further, fun same => ?_⟩
    have le := moved.suffix.length_le
    have le' := further.suffix.length_le
    exact Nat.lt_trans (lower' (by omega)) (lower (by omega))

/-- **A nonterminal that is called again**, however far inside of its own reading, has fewer tokens ahead. -/
theorem shorter_of_reentered (ranked : G.IsRanked isSolid rank levels)
    (path : TransGen G.Enters (sym, s) (sym, s')) : s'.rest.length < s.rest.length := by
  obtain ⟨moved, lower⟩ := ranked.of_transGen path
  exact Nat.lt_of_le_of_ne moved.suffix.length_le fun same => Nat.lt_irrefl _ (lower same)

/-- What is left of the depth: levels for each token ahead, and those below the nonterminal. -/
theorem lt_of_enters (ranked : G.IsRanked isSolid rank levels) (enters : G.Enters outer inner) :
    levels * inner.2.rest.length + rank inner.1 < levels * outer.2.rest.length + rank outer.1 := by
  obtain ⟨moved, lower⟩ := ranked.of_enters enters
  rcases Nat.lt_or_eq_of_le moved.suffix.length_le with fewer | same
  · have low := ranked.levels inner.1
    have less : levels * (inner.2.rest.length + 1) ≤ levels * outer.2.rest.length := Nat.mul_le_mul_left _ fewer
    rw [Nat.mul_succ] at less
    omega
  · have less := lower same
    rw [same]
    omega

/-- **Nonterminals do not nest without end.** -/
theorem wellFounded (ranked : G.IsRanked isSolid rank levels) :
    WellFounded fun inner outer : σ × State => G.Enters outer inner :=
  Subrelation.wf (fun enters => ranked.lt_of_enters enters)
    (measure fun call : σ × State => levels * call.2.rest.length + rank call.1).wf

/-- One level more makes no difference, not even to the failures that are remembered. -/
theorem run_succ_eq (ranked : G.IsRanked isSolid rank levels) (enough : levels * s.rest.length + rank sym < bound) :
    G.run bound sym s = G.run (bound + 1) sym s := by
  induction bound generalizing sym s with
  | zero => exact absurd enough (Nat.not_lt_zero _)
  | succ bound ih =>
    rw [run_succ, run_succ]
    refine congrArg noted (Rule.run_of_calls _ _ fun t s' call _ => ih ?_)
    have enters : G.Enters (sym, s) (t, s') := ⟨bound, call⟩
    have lower := ranked.lt_of_enters enters
    exact Nat.lt_of_lt_of_le lower (Nat.le_of_lt_succ enough)

/-- **Two bounds that are large enough** make no difference. -/
theorem run_congr (ranked : G.IsRanked isSolid rank levels) (enough : levels * s.rest.length + rank sym < bound)
    {more : Nat} (le : bound ≤ more) : G.run bound sym s = G.run more sym s := by
  induction le with
  | refl => rfl
  | step le ih => exact ih.trans (ranked.run_succ_eq (Nat.lt_of_lt_of_le enough le))

/-- **Reading comes to something**: what it comes to within any bound that is large enough. -/
theorem reads_run (ranked : G.IsRanked isSolid rank levels) (enough : levels * s.rest.length + rank sym < bound) :
    G.Reads sym s (G.run bound sym s) := by
  induction bound generalizing sym s with
  | zero => exact absurd enough (Nat.not_lt_zero _)
  | succ bound ih =>
    rw [run_succ]
    refine .called (G.run bound) fun t s' call => ih ?_
    have enters : G.Enters (sym, s) (t, s') := ⟨bound, call⟩
    have lower := ranked.lt_of_enters enters
    exact Nat.lt_of_lt_of_le lower (Nat.le_of_lt_succ enough)

end IsRanked

/-! ### Progress -/

/-- **Reading ends, with progress.** -/
structure Progresses (G : Language σ) (levels : Nat) : Prop where
  /-- A nonterminal moves on in the tokens or stays, whatever it comes to. -/
  symbols : ∀ bound sym (s : State), s.Onward (G.run bound sym s).2
  /-- So does every rule inside of a production, and with it every alternative. -/
  parts : ∀ sym (α : Type) (part : Rule G.Value α), part.IsPart (G.production sym) → ∀ bound (s : State),
    s.Onward (part.run G.name (G.run bound) s).2
  /-- What is repeated reads a token on every turn, -/
  turns : ∀ sym, ∀ α (part : Rule G.Value α), part.IsRepeated (G.production sym) →
    ∀ bound (s : State) value after, turn (part.run G.name (G.run bound)) s = (.read value, after) →
      after.rest.length < s.rest.length
  /-- and is not repeated more often than there are tokens: the limit plays no part where fewer are ahead. -/
  repeats : ∀ sym, ∀ α (part : Rule G.Value α), part.IsRepeated (G.production sym) →
    ∀ bound complaint limit more (s : State), s.rest.length < limit → s.rest.length < more →
      repeated complaint (part.run G.name (G.run bound)) limit s =
        repeated complaint (part.run G.name (G.run bound)) more s
  /-- A nonterminal that is called again while it is read has fewer tokens ahead. -/
  reentered : ∀ sym s s', TransGen G.Enters (sym, s) (sym, s') → s'.rest.length < s.rest.length
  /-- Nonterminals do not nest without end. -/
  wellFounded : WellFounded fun inner outer : σ × State => G.Enters outer inner
  /-- Without a bound reading comes to one thing, which is what it comes to within any large bound. -/
  reads : ∀ sym (s : State), ∃ outcome, G.Reads sym s outcome ∧
    (∀ other, G.Reads sym s other → other = outcome) ∧
    ∀ bound, levels * (s.rest.length + 1) ≤ bound → G.run bound sym s = outcome

theorem IsRanked.enough (ranked : G.IsRanked isSolid rank levels) (large : levels * (s.rest.length + 1) ≤ bound) :
    levels * s.rest.length + rank sym < bound :=
  Nat.lt_of_lt_of_le (Nat.add_lt_add_left (ranked.levels sym) _) (Nat.mul_succ _ _ ▸ large)

/-- **Ranked nonterminals** whose productions repeat nothing that may be empty. -/
theorem IsRanked.progresses (ranked : G.IsRanked isSolid rank levels)
    (paced : ∀ sym, (G.production sym).isPaced isSolid = true) : G.Progresses levels := by
  have shorter {sym : σ} {α : Type} {part : Rule G.Value α} (repeats : part.IsRepeated (G.production sym))
      (bound : Nat) (s : State) (value : α) (after : State)
      (read : part.run G.name (G.run bound) s = (.matched value, after)) : after.rest.length < s.rest.length :=
    Rule.shorter_run ranked.solid (repeats.solid (paced sym)) read
  refine ⟨fun bound sym s => G.onward_run bound sym s, fun _ _ part _ bound s => part.onward_run G bound s,
    fun sym α part repeats bound s value after read => ?_,
    fun sym α part repeats bound _ limit more s few few' => ?_,
    fun sym s s' path => ranked.shorter_of_reentered path, ranked.wellFounded, fun sym s => ?_⟩
  · obtain ⟨branch, matched, rfl⟩ := turn_eq_read read
    rw [State.accept_rest]
    exact shorter repeats bound s value branch matched
  · exact repeated_of_shorter (shorter repeats bound) s few few'
  · have enough : levels * s.rest.length + rank sym < levels * (s.rest.length + 1) := ranked.enough (Nat.le_refl _)
    have reads := ranked.reads_run enough
    refine ⟨_, reads, fun other reads' => reads'.unique reads, fun bound large => ?_⟩
    exact (ranked.run_congr enough large).symm

end Language

end Forwarder.Grammar
