/-
**Writing undoes reading.** The tokens a value is written with are those it was read off, whatever
alternatives were tried and given up on the way, if what a branch that was given up has left behind is not
written.

* `Rule.Reversible` — wherever the rule changes the shape of a value, the change can be undone.
* `Rule.write_of_spells` — a reversible rule writes a value with the tokens that spell it.
* **`Language.write_of_spells`** — the same for a language whose nonterminals are written by their
  productions.
-/

import Forwarder.Proofs.Grammar.Spelling

namespace Forwarder.Grammar

open Source

/-- The texts of some tokens. -/
def textsOf (ts : List Token) : List String :=
  ts.map Token.text

@[simp] theorem textsOf_append (front back : List Token) :
    textsOf (front ++ back) = textsOf front ++ textsOf back :=
  List.map_append

mutual

/-- Every change of shape in the rule can be undone. -/
def Rule.Reversible {σ : Type} {V : σ → Type} {α : Type} : Rule V α → Prop
  | .word _ | .token _ _ | .pick _ _ | .other _ | .call _ => True
  | .seq first second => first.Reversible ∧ second.Reversible
  | .choice alternatives => alternatives.Reversible
  | .kept first second => first.Reversible ∧ second.Reversible
  | .opt rule | .iterate _ rule | .iterate1 _ rule | .located rule => rule.Reversible
  | .shaped shape back rule => (∀ value, back (shape value) = value) ∧ rule.Reversible

/-- Every change of shape in the alternatives can be undone. -/
def Choice.Reversible {σ : Type} {V : σ → Type} {α : Type} : Choice V α → Prop
  | .last rule => rule.Reversible
  | .or rule others => rule.Reversible ∧ others.Reversible

end

section Rules

variable {σ : Type} {V : σ → Type} {symbol : (s : σ) → V s → List Token → Prop}
  {tokens : (s : σ) → V s → List String}

theorem SpellsAll.write_eq {α : Type} {spells : α → List Token → Prop} {write : α → List String}
    (each : ∀ value ts, spells value ts → write value = textsOf ts) {values : List α}
    {ts : List Token} (all : SpellsAll spells values ts) : values.flatMap write = textsOf ts := by
  induction values generalizing ts with
  | nil =>
    obtain rfl : ts = [] := all
    rfl
  | cons value values ih =>
    obtain ⟨front, back, rfl, one, others⟩ := all
    rw [List.flatMap_cons, each value front one, ih others, textsOf_append]

mutual

/-- A value is written with the tokens that spell it, if nonterminals are and nothing that was read again is
written. -/
theorem Rule.write_of_spells
    (symbols : ∀ s value ts, symbol s value ts → tokens s value = textsOf ts) {α : Type} :
    ∀ (rule : Rule V α) (value : α) (ts : List Token), rule.Reversible →
      rule.Spells symbol value ts → rule.write false tokens value = textsOf ts
  | .word text, _, _, _, spelled => by
    rw [Rule.Spells] at spelled
    obtain ⟨token, rfl, rfl⟩ := spelled
    rw [Rule.write]
    rfl
  | .token _ _, _, _, _, spelled => by
    rw [Rule.Spells] at spelled
    obtain ⟨token, rfl, -, rfl⟩ := spelled
    rw [Rule.write]
    rfl
  | .pick _ text, value, _, _, spelled => by
    rw [Rule.Spells] at spelled
    obtain ⟨-, token, rfl, same⟩ := spelled
    rw [Rule.write, ← same]
    rfl
  | .other _, _, _, _, spelled => by
    rw [Rule.Spells] at spelled
    obtain ⟨-, token, rfl, rfl⟩ := spelled
    rw [Rule.write]
    rfl
  | .seq first second, (a, b), _, reversible, spelled => by
    rw [Rule.Spells] at spelled
    rw [Rule.Reversible] at reversible
    obtain ⟨front, back, rfl, one, two⟩ := spelled
    rw [Rule.write, first.write_of_spells symbols a front reversible.1 one,
      second.write_of_spells symbols b back reversible.2 two, textsOf_append]
  | .choice alternatives, value, ts, reversible, spelled => by
    rw [Rule.Spells] at spelled
    rw [Rule.Reversible] at reversible
    rw [Rule.write]
    exact alternatives.write_of_spells symbols value ts reversible spelled
  | .opt _, none, _, _, spelled => by
    rw [Rule.Spells] at spelled
    subst spelled
    rw [Rule.write]
    rfl
  | .opt rule, some value, ts, reversible, spelled => by
    rw [Rule.Spells] at spelled
    rw [Rule.Reversible] at reversible
    rw [Rule.write]
    exact rule.write_of_spells symbols value ts reversible spelled
  | .kept _ _, none, _, _, spelled => by
    rw [Rule.Spells] at spelled
    subst spelled
    rw [Rule.write]
    rfl
  | .kept _ _, some (_, none), _, _, spelled => by
    rw [Rule.Spells] at spelled
    subst spelled
    rw [Rule.write, if_neg Bool.false_ne_true]
    rfl
  | .kept first second, some (a, some b), _, reversible, spelled => by
    rw [Rule.Spells] at spelled
    rw [Rule.Reversible] at reversible
    obtain ⟨front, back, rfl, one, two⟩ := spelled
    rw [Rule.write, first.write_of_spells symbols a front reversible.1 one,
      second.write_of_spells symbols b back reversible.2 two, textsOf_append]
  | .iterate _ rule, values, ts, reversible, spelled => by
    rw [Rule.Spells] at spelled
    rw [Rule.Reversible] at reversible
    rw [Rule.write]
    exact spelled.2.write_eq fun value ts one => rule.write_of_spells symbols value ts reversible one
  | .iterate1 _ rule, values, ts, reversible, spelled => by
    rw [Rule.Spells] at spelled
    rw [Rule.Reversible] at reversible
    rw [Rule.write]
    exact spelled.2.2.write_eq fun value ts one => rule.write_of_spells symbols value ts reversible one
  | .call s, value, ts, _, spelled => by
    rw [Rule.Spells] at spelled
    rw [Rule.write]
    exact symbols s value ts spelled
  | .located rule, (_, value), ts, reversible, spelled => by
    rw [Rule.Spells] at spelled
    rw [Rule.Reversible] at reversible
    rw [Rule.write]
    exact rule.write_of_spells symbols value ts reversible spelled
  | .shaped shape back rule, _, ts, reversible, spelled => by
    rw [Rule.Spells] at spelled
    rw [Rule.Reversible] at reversible
    obtain ⟨inner, rfl, one⟩ := spelled
    rw [Rule.write, reversible.1 inner]
    exact rule.write_of_spells symbols inner ts reversible.2 one

/-- The same for the alternatives of a choice. -/
theorem Choice.write_of_spells
    (symbols : ∀ s value ts, symbol s value ts → tokens s value = textsOf ts) {α : Type} :
    ∀ (alternatives : Choice V α) (value : α) (ts : List Token), alternatives.Reversible →
      alternatives.Spells symbol value ts → alternatives.write false tokens value = textsOf ts
  | .last rule, value, ts, reversible, spelled => by
    rw [Choice.Spells] at spelled
    rw [Choice.Reversible] at reversible
    rw [Choice.write]
    exact rule.write_of_spells symbols value ts reversible spelled
  | .or rule _, .inl value, ts, reversible, spelled => by
    rw [Choice.Spells] at spelled
    rw [Choice.Reversible] at reversible
    rw [Choice.write]
    exact rule.write_of_spells symbols value ts reversible.1 spelled
  | .or _ others, .inr value, ts, reversible, spelled => by
    rw [Choice.Spells] at spelled
    rw [Choice.Reversible] at reversible
    rw [Choice.write]
    exact others.write_of_spells symbols value ts reversible.2 spelled

end

/-- **Writing undoes reading.** If nonterminals are written by their productions, and the productions
are reversible, then every value is written with the tokens that spell it. -/
theorem Language.write_of_spells {G : Language σ} {tokens : (s : σ) → G.Value s → List String}
    (writes : ∀ s value, tokens s value = (G.production s).write false tokens value)
    (reversible : ∀ s, (G.production s).Reversible) {sym : σ} {value : G.Value sym}
    {ts : List Token} (spelled : G.Spells sym value ts) : tokens sym value = textsOf ts := by
  obtain ⟨bound, spelled⟩ := spelled
  induction bound generalizing sym ts with
  | zero => exact spelled.elim
  | succ bound ih =>
    rw [writes]
    exact (G.production sym).write_of_spells (fun _ _ _ deeper => ih deeper) value ts
      (reversible sym) spelled

end Rules

/-! ### Lists -/

section Lists

variable {σ : Type} {V : σ → Type} {α : Type} {rule : Rule V α} {whole : Bool}
  {tokens : (s : σ) → V s → List String}

/-- Texts with a mark in front of each. -/
def markedTexts {α : Type} (mark : String) (texts : α → List String) (values : List α) :
    List String :=
  values.flatMap fun value => mark :: texts value

/-- Texts with a mark between them. -/
def separatedTexts {α : Type} (mark : String) (texts : α → List String) : List α → List String
  | [] => []
  | first :: others => texts first ++ markedTexts mark texts others

/-- The texts of a clause, or none. -/
def clauseTexts {α : Type} (keyword mark : String) (texts : α → List String) :
    List α → List String
  | [] => []
  | values => keyword :: separatedTexts mark texts values

/-- The texts of a bracketed list. -/
def enclosedTexts {α : Type} (opening closing : String) (texts : α → List String)
    (values : List α) : List String :=
  opening :: separatedTexts "," texts values ++ [closing]

/-- The texts of a bracketed list, or none. -/
def bracketedTexts {α : Type} (opening closing : String) (texts : α → List String) :
    List α → List String
  | [] => []
  | values => enclosedTexts opening closing texts values

theorem Rule.write_after (mark : String) :
    (rule.after mark).write whole tokens = fun value => mark :: rule.write whole tokens value := by
  funext value
  simp only [Rule.after, Rule.write, List.singleton_append]

theorem Rule.write_many_after (mark : String) (values : List α) :
    (Rule.many (rule.after mark)).write whole tokens values =
      markedTexts mark (rule.write whole tokens) values := by
  simp only [Rule.write, markedTexts, Rule.write_after]

theorem Rule.write_clause (keyword mark : String) (values : List α) :
    (Rule.clause keyword mark rule).write whole tokens values =
      clauseTexts keyword mark (rule.write whole tokens) values := by
  cases values with
  | nil => simp only [Rule.clause, Rule.write, clauseTexts, Option.elim]
  | cons first others =>
    simp only [Rule.clause, Rule.write, Rule.write_after, clauseTexts, separatedTexts, markedTexts,
      Option.elim, List.singleton_append]

theorem Rule.write_bracketed (opening closing : String) (values : List α) :
    (Rule.bracketed opening closing rule).write whole tokens values =
      bracketedTexts opening closing (rule.write whole tokens) values := by
  cases values with
  | nil => simp only [Rule.bracketed, Rule.write, bracketedTexts, Option.elim]
  | cons first others =>
    simp only [Rule.bracketed, Rule.separated, Rule.write, Rule.write_after, bracketedTexts,
      enclosedTexts, separatedTexts, markedTexts, Option.elim, List.cons_append, List.nil_append,
      List.append_assoc]

theorem Rule.write_enclosed (opening closing : String) (values : List α) :
    (Rule.enclosed opening closing rule).write whole tokens values =
      enclosedTexts opening closing (rule.write whole tokens) values := by
  cases values with
  | nil =>
    simp only [Rule.enclosed, Rule.write, enclosedTexts, separatedTexts, Option.elim,
      List.singleton_append, List.nil_append]
  | cons first others =>
    simp only [Rule.enclosed, Rule.write, Rule.write_after, enclosedTexts, separatedTexts,
      markedTexts, Option.elim, List.cons_append, List.nil_append, List.append_assoc]

theorem Rule.Reversible.after (reversible : rule.Reversible) (mark : String) :
    (rule.after mark).Reversible := by
  rw [Rule.after, Rule.Reversible, Rule.Reversible, Rule.Reversible]
  exact ⟨fun _ => rfl, trivial, reversible⟩

theorem Rule.Reversible.clause (reversible : rule.Reversible) (keyword mark : String) :
    (Rule.clause keyword mark rule).Reversible := by
  simp only [Rule.clause, Rule.Reversible, true_and]
  refine ⟨?_, reversible, reversible.after mark⟩
  rintro (_ | ⟨⟨⟩, first, others⟩) <;> rfl

theorem Rule.Reversible.bracketed (reversible : rule.Reversible) (opening closing : String) :
    (Rule.bracketed opening closing rule).Reversible := by
  simp only [Rule.bracketed, Rule.separated, Rule.Reversible, true_and, and_true]
  refine ⟨?_, reversible, reversible.after ","⟩
  rintro (_ | ⟨⟨⟩, first, others, ⟨⟩⟩) <;> rfl

theorem Rule.Reversible.enclosed (reversible : rule.Reversible) (opening closing : String) :
    (Rule.enclosed opening closing rule).Reversible := by
  simp only [Rule.enclosed, Rule.Reversible, true_and, and_true]
  refine ⟨?_, reversible, reversible.after ","⟩
  rintro ⟨⟨⟩, _ | ⟨first, others⟩, ⟨⟩⟩ <;> rfl

end Lists

end Forwarder.Grammar
