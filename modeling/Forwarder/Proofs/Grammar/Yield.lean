/-
**Properties of what is read.** A property of the values of all nonterminals is shown by one step for each
production, which takes it for granted of the nonterminals in the rule.

* `Rule.Yields`, `Choice.Yields` — a value of the rule whose tokens and nonterminals have the property.
* `Rule.yields_of_spells` — a value that is spelled with good tokens is of this kind.
* `Rule.Yields.after`, `Rule.Yields.clause`, … — the same for the entries of lists.
* **`Language.Spells.holds`** — what every production keeps holds of everything that is spelled.
* `Language.holds_of_reading` — the same for what is read, where a step may look at the reading.
-/

import Forwarder.Proofs.Grammar.Spelling

namespace Forwarder.Grammar

open Source

mutual

/-- A value of the rule whose nonterminals have the property `good`, and whose tokens, by kind and text,
have the property `fits`. -/
def Rule.Yields {σ : Type} {V : σ → Type} (good : (s : σ) → V s → Prop)
    (fits : TokenKind → String → Prop) {α : Type} : Rule V α → α → Prop
  | .word _, _ => True
  | .token kind _, text => fits kind text
  | .pick values _, value => value ∈ values
  | .other stops, text => text ∉ stops
  | .seq first second, value => first.Yields good fits value.1 ∧ second.Yields good fits value.2
  | .choice alternatives, value => alternatives.Yields good fits value
  | .opt rule, value => ∀ inner ∈ value, rule.Yields good fits inner
  | .kept first second, value =>
    ∀ a b, value = some (a, some b) → first.Yields good fits a ∧ second.Yields good fits b
  | .iterate limit rule, values => values.length < limit ∧ ∀ value ∈ values, rule.Yields good fits value
  | .iterate1 limit rule, values => values.length < limit ∧ ∀ value ∈ values, rule.Yields good fits value
  | .call sym, value => good sym value
  | .located rule, value => rule.Yields good fits value.2
  | .shaped shape _ rule, value => ∃ inner, value = shape inner ∧ rule.Yields good fits inner

/-- A value of one of the alternatives with these properties. -/
def Choice.Yields {σ : Type} {V : σ → Type} (good : (s : σ) → V s → Prop)
    (fits : TokenKind → String → Prop) {α : Type} : Choice V α → α → Prop
  | .last rule, value => rule.Yields good fits value
  | .or rule _, .inl value => rule.Yields good fits value
  | .or _ others, .inr value => others.Yields good fits value

end

section Spelled

variable {σ : Type} {V : σ → Type} {symbol : (s : σ) → V s → List Token → Prop}
  {good : (s : σ) → V s → Prop} {fits : TokenKind → String → Prop}

/-- All tokens have the property. -/
def AllFit (fits : TokenKind → String → Prop) (ts : List Token) : Prop :=
  ∀ token ∈ ts, fits token.kind token.text

theorem AllFit.of_append {front back : List Token} (all : AllFit fits (front ++ back)) :
    AllFit fits front ∧ AllFit fits back :=
  List.forall_mem_append.mp all

theorem SpellsAll.forall_mem {α : Type} {spells : α → List Token → Prop} {holds : α → Prop}
    (each : ∀ value ts, AllFit fits ts → spells value ts → holds value) {values : List α}
    {ts : List Token} (all : AllFit fits ts) (spelled : SpellsAll spells values ts) :
    ∀ value ∈ values, holds value := by
  induction values generalizing ts with
  | nil => exact List.forall_mem_nil _
  | cons value values ih =>
    obtain ⟨front, back, rfl, one, others⟩ := spelled
    exact List.forall_mem_cons.mpr
      ⟨each _ _ all.of_append.1 one, ih all.of_append.2 others⟩

mutual

/-- A value that is spelled with good tokens has good parts, if nonterminals do. -/
theorem Rule.yields_of_spells
    (sound : ∀ s value ts, AllFit fits ts → symbol s value ts → good s value) {α : Type} :
    ∀ (rule : Rule V α) (value : α) (ts : List Token), AllFit fits ts →
      rule.Spells symbol value ts → rule.Yields good fits value
  | .word _, _, _, _, _ => by
    rw [Rule.Yields]
    trivial
  | .token kind _, text, ts, all, spelled => by
    rw [Rule.Spells] at spelled
    obtain ⟨token, rfl, rfl, rfl⟩ := spelled
    rw [Rule.Yields]
    exact all token (List.mem_singleton_self token)
  | .pick _ _, _, _, _, spelled => by
    rw [Rule.Spells] at spelled
    rw [Rule.Yields]
    exact spelled.1
  | .other _, _, _, _, spelled => by
    rw [Rule.Spells] at spelled
    rw [Rule.Yields]
    exact spelled.1
  | .seq first second, (a, b), ts, all, spelled => by
    rw [Rule.Spells] at spelled
    obtain ⟨front, back, rfl, one, two⟩ := spelled
    rw [Rule.Yields]
    exact ⟨first.yields_of_spells sound a front all.of_append.1 one,
      second.yields_of_spells sound b back all.of_append.2 two⟩
  | .choice alternatives, value, ts, all, spelled => by
    rw [Rule.Spells] at spelled
    rw [Rule.Yields]
    exact alternatives.yields_of_spells sound value ts all spelled
  | .opt _, none, _, _, _ => by
    rw [Rule.Yields]
    rintro _ ⟨⟩
  | .opt rule, some value, ts, all, spelled => by
    rw [Rule.Spells] at spelled
    rw [Rule.Yields]
    rintro _ ⟨⟩
    exact rule.yields_of_spells sound value ts all spelled
  | .kept _ _, none, _, _, _ => by
    rw [Rule.Yields]
    rintro _ _ ⟨⟩
  | .kept _ _, some (_, none), _, _, _ => by
    rw [Rule.Yields]
    rintro _ _ ⟨⟩
  | .kept first second, some (a, some b), ts, all, spelled => by
    rw [Rule.Spells] at spelled
    obtain ⟨front, back, rfl, one, two⟩ := spelled
    rw [Rule.Yields]
    rintro _ _ ⟨⟩
    exact ⟨first.yields_of_spells sound a front all.of_append.1 one,
      second.yields_of_spells sound b back all.of_append.2 two⟩
  | .iterate _ rule, values, ts, all, spelled => by
    rw [Rule.Spells] at spelled
    rw [Rule.Yields]
    exact ⟨spelled.1, spelled.2.forall_mem (rule.yields_of_spells sound) all⟩
  | .iterate1 _ rule, values, ts, all, spelled => by
    rw [Rule.Spells] at spelled
    rw [Rule.Yields]
    exact ⟨spelled.2.1, spelled.2.2.forall_mem (rule.yields_of_spells sound) all⟩
  | .call sym, value, ts, all, spelled => by
    rw [Rule.Spells] at spelled
    rw [Rule.Yields]
    exact sound sym value ts all spelled
  | .located rule, (_, value), ts, all, spelled => by
    rw [Rule.Spells] at spelled
    rw [Rule.Yields]
    exact rule.yields_of_spells sound value ts all spelled
  | .shaped _ _ rule, value, ts, all, spelled => by
    rw [Rule.Spells] at spelled
    obtain ⟨inner, same, one⟩ := spelled
    rw [Rule.Yields]
    exact ⟨inner, same, rule.yields_of_spells sound inner ts all one⟩

/-- The same for the alternatives of a choice. -/
theorem Choice.yields_of_spells
    (sound : ∀ s value ts, AllFit fits ts → symbol s value ts → good s value) {α : Type} :
    ∀ (alternatives : Choice V α) (value : α) (ts : List Token), AllFit fits ts →
      alternatives.Spells symbol value ts → alternatives.Yields good fits value
  | .last rule, value, ts, all, spelled => by
    rw [Choice.Spells] at spelled
    rw [Choice.Yields]
    exact rule.yields_of_spells sound value ts all spelled
  | .or rule _, .inl value, ts, all, spelled => by
    rw [Choice.Spells] at spelled
    rw [Choice.Yields]
    exact rule.yields_of_spells sound value ts all spelled
  | .or _ others, .inr value, ts, all, spelled => by
    rw [Choice.Spells] at spelled
    rw [Choice.Yields]
    exact others.yields_of_spells sound value ts all spelled

end

/-- **What every production keeps** holds of every value that is spelled with good tokens. -/
theorem Language.Spells.holds {G : Language σ} {good : (s : σ) → G.Value s → Prop}
    (step : ∀ s value, (G.production s).Yields good fits value → good s value) {sym : σ}
    {value : G.Value sym} {ts : List Token} (spelled : G.Spells sym value ts)
    (all : AllFit fits ts) : good sym value := by
  obtain ⟨bound, spelled⟩ := spelled
  induction bound generalizing sym ts with
  | zero => exact spelled.elim
  | succ bound ih =>
    exact step sym value ((G.production sym).yields_of_spells
      (fun _ _ _ fit deeper => ih fit deeper) value ts all spelled)

/-- **What every production keeps** holds of every value that is read. Unlike above, the step for a
production also knows where reading stopped. -/
theorem Language.holds_of_reading {G : Language σ} {good : (s : σ) → G.Value s → Prop}
    {finish : Position}
    (step : ∀ bound s ts value rest, G.reading finish bound s ts = .matched value rest →
      (G.production s).Yields good (fun _ _ => True) value → good s value) (bound : Nat) :
    ∀ (sym : σ) (ts : List Token) (value : G.Value sym) (rest : List Token),
      G.reading finish bound sym ts = .matched value rest → good sym value := by
  induction bound with
  | zero =>
    intro sym ts value rest matched
    cases matched
  | succ bound ih =>
    intro sym ts value rest matched
    -- A nonterminal inside is only known by its value, whatever its tokens.
    have inner : ∀ s ts value rest, G.reading finish bound s ts = .matched value rest →
        ∃ front, ts = front ++ rest ∧ Function.const (List Token) (good s value) front := by
      intro s ts value rest inner
      obtain ⟨front, split, -⟩ := G.spellsWithin_of_reading finish bound s ts value rest inner
      exact ⟨front, split, ih s ts value rest inner⟩
    obtain ⟨front, -, spelled⟩ := (G.production sym).spells_of_reading inner ts value rest matched
    have sound : ∀ s value ts, AllFit (fun _ _ => True) ts →
        Function.const (List Token) (good s value) ts → good s value := fun _ _ _ _ holds => holds
    exact step (bound + 1) sym ts value rest matched
      ((G.production sym).yields_of_spells sound value front (fun _ _ => trivial) spelled)

end Spelled

/-! ### Lists -/

section Lists

variable {σ : Type} {V : σ → Type} {good : (s : σ) → V s → Prop}
  {fits : TokenKind → String → Prop} {α : Type} {rule : Rule V α} {values : List α}

theorem Rule.Yields.after {mark : String} {value : α}
    (yields : (rule.after mark).Yields good fits value) : rule.Yields good fits value := by
  simp only [Rule.after, Rule.Yields] at yields
  obtain ⟨_, rfl, -, inner⟩ := yields
  exact inner

theorem Rule.Yields.clause {keyword mark : String}
    (yields : (Rule.clause keyword mark rule).Yields good fits values) :
    ∀ value ∈ values, rule.Yields good fits value := by
  simp only [Rule.clause, Rule.Yields] at yields
  obtain ⟨_ | ⟨⟨⟩, first, others⟩, rfl, inner⟩ := yields
  · exact List.forall_mem_nil _
  · obtain ⟨-, one, -, more⟩ := inner _ rfl
    exact List.forall_mem_cons.mpr ⟨one, fun value member => (more value member).after⟩

theorem Rule.Yields.bracketed {opening closing : String}
    (yields : (Rule.bracketed opening closing rule).Yields good fits values) :
    ∀ value ∈ values, rule.Yields good fits value := by
  simp only [Rule.bracketed, Rule.separated, Rule.Yields] at yields
  obtain ⟨_ | ⟨⟨⟩, first, others, ⟨⟩⟩, rfl, inner⟩ := yields
  · exact List.forall_mem_nil _
  · obtain ⟨-, one, ⟨-, more⟩, -⟩ := inner _ rfl
    exact List.forall_mem_cons.mpr ⟨one, fun value member => (more value member).after⟩

theorem Rule.Yields.enclosed {opening closing : String}
    (yields : (Rule.enclosed opening closing rule).Yields good fits values) :
    values.length ≤ maxIterations ∧ ∀ value ∈ values, rule.Yields good fits value := by
  simp only [Rule.enclosed, Rule.Yields] at yields
  obtain ⟨⟨⟨⟩, _ | ⟨first, others⟩, ⟨⟩⟩, rfl, -, inner, -⟩ := yields
  · exact ⟨Nat.zero_le _, List.forall_mem_nil _⟩
  · obtain ⟨one, few, more⟩ := inner _ rfl
    exact ⟨few, List.forall_mem_cons.mpr ⟨one, fun value member => (more value member).after⟩⟩

end Lists

end Forwarder.Grammar
