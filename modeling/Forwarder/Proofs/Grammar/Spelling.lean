/-
**What was read stands in the tokens.** A rule that reads a value has used up tokens that spell it:
the words of the rule in their places, and the nonterminals in theirs.

* `Rule.Spells`, `Choice.Spells` — the tokens spell the value by this rule.
* `Language.Spells` — the same for a nonterminal.
* **`Language.spellsWithin_of_reading`** — a reading leaves over what follows tokens that spell its value.
* `Language.spells_of_read` — a whole list of tokens that is read spells the value.
* `Rule.isSolid` — the rule does not spell any value with no token at all.
* `Rule.endsIn` — no value of the rule is spelled with a last token outside a set.
-/

import Forwarder.Proofs.Grammar.Reading

namespace Forwarder.Grammar

open Source

/-- The tokens in stretches that spell the values one after the other. -/
def SpellsAll {α : Type} (spells : α → List Token → Prop) : List α → List Token → Prop
  | [], ts => ts = []
  | value :: values, ts =>
    ∃ front back, ts = front ++ back ∧ spells value front ∧ SpellsAll spells values back

mutual

/-- The tokens spell the value by the rule, given which tokens spell the values of nonterminals. -/
def Rule.Spells {σ : Type} {V : σ → Type} (symbol : (s : σ) → V s → List Token → Prop) {α : Type} :
    Rule V α → α → List Token → Prop
  | .word text, _, ts => ∃ token, ts = [token] ∧ token.text = text
  | .token kind _, text, ts => ∃ token, ts = [token] ∧ token.kind = kind ∧ token.text = text
  | .pick values text, value, ts => value ∈ values ∧ ∃ token, ts = [token] ∧ token.text = text value
  | .other stops, text, ts => text ∉ stops ∧ ∃ token, ts = [token] ∧ token.text = text
  | .seq first second, value, ts =>
    ∃ front back, ts = front ++ back ∧ first.Spells symbol value.1 front ∧
      second.Spells symbol value.2 back
  | .choice alternatives, value, ts => alternatives.Spells symbol value ts
  | .opt _, none, ts => ts = []
  | .opt rule, some value, ts => rule.Spells symbol value ts
  | .kept _ _, none, ts => ts = []
  | .kept _ _, some (_, none), ts => ts = []
  | .kept first second, some (a, some b), ts =>
    ∃ front back, ts = front ++ back ∧ first.Spells symbol a front ∧ second.Spells symbol b back
  | .iterate limit rule, values, ts => values.length < limit ∧ SpellsAll (rule.Spells symbol) values ts
  | .iterate1 limit rule, values, ts =>
    values ≠ [] ∧ values.length < limit ∧ SpellsAll (rule.Spells symbol) values ts
  | .call sym, value, ts => symbol sym value ts
  | .located rule, value, ts => rule.Spells symbol value.2 ts
  | .shaped shape _ rule, value, ts => ∃ inner, value = shape inner ∧ rule.Spells symbol inner ts

/-- The tokens spell the value by one of the alternatives. -/
def Choice.Spells {σ : Type} {V : σ → Type} (symbol : (s : σ) → V s → List Token → Prop)
    {α : Type} : Choice V α → α → List Token → Prop
  | .last rule, value, ts => rule.Spells symbol value ts
  | .or rule _, .inl value, ts => rule.Spells symbol value ts
  | .or _ others, .inr value, ts => others.Spells symbol value ts

end

namespace Language

/-- The tokens spell a value of a nonterminal, with at most the given depth of nonterminals. -/
def SpellsWithin {σ : Type} (G : Language σ) : Nat → (s : σ) → G.Value s → List Token → Prop
  | 0, _, _, _ => False
  | bound + 1, symbol, value, ts =>
    (G.production symbol).Spells (G.SpellsWithin bound) value ts

/-- The tokens spell a value of a nonterminal. -/
def Spells {σ : Type} (G : Language σ) (symbol : σ) (value : G.Value symbol) (ts : List Token) : Prop :=
  ∃ bound, G.SpellsWithin bound symbol value ts

end Language

/-! ### Readings -/

section Reading

variable {α : Type} {ts rest : List Token}

theorem Reading.map_eq_matched {β : Type} {f : α → β} {reading : Reading α} {value : β}
    (matched : reading.map f = .matched value rest) :
    ∃ inner, value = f inner ∧ reading = .matched inner rest := by
  cases reading with
  | matched inner left =>
    cases matched
    exact ⟨inner, rfl, rfl⟩
  | absent => cases matched
  | failed left => cases matched

theorem givenUp_eq_matched {given value : α} {left : List Token}
    (matched : givenUp ts given left = .matched value rest) : given = value ∧ rest = ts := by
  rw [givenUp] at matched
  split at matched
  · cases matched
  · cases matched
    exact ⟨rfl, rfl⟩

theorem Reading.optional_eq_some {reading : Reading α} {value : α}
    (matched : reading.optional ts = .matched (some value) rest) :
    reading = .matched value rest := by
  cases reading with
  | matched inner left =>
    cases matched
    rfl
  | absent => cases matched
  | failed left =>
    rw [Reading.optional, givenUp] at matched
    split at matched <;> cases matched

theorem Reading.optional_eq_none {reading : Reading α}
    (matched : reading.optional ts = .matched none rest) : rest = ts := by
  cases reading with
  | matched inner left => cases matched
  | absent =>
    cases matched
    rfl
  | failed left =>
    obtain ⟨-, rfl⟩ := givenUp_eq_matched matched
    rfl

theorem singleReading_eq_matched {test : Token → Bool} {f : Token → α} {value : α}
    (matched : singleReading test f ts = .matched value rest) :
    ∃ token, ts = token :: rest ∧ test token = true ∧ value = f token := by
  cases ts with
  | nil => cases matched
  | cons token left =>
    rw [singleReading] at matched
    split at matched
    · next passes =>
      cases matched
      exact ⟨token, rfl, passes, rfl⟩
    · cases matched

theorem pickReading_eq_matched {values : List α} {text : α → String} {value : α}
    (matched : pickReading values text ts = .matched value rest) :
    ∃ token, ts = token :: rest ∧ value ∈ values ∧ token.text = text value := by
  cases ts with
  | nil => cases matched
  | cons token left =>
    rw [pickReading] at matched
    split at matched
    · cases matched
    · next found =>
      cases matched
      exact ⟨token, rfl, List.mem_of_find?_eq_some found,
        (by simpa using List.find?_some found : text value = token.text).symm⟩

theorem otherReading_eq_matched {stops : List String} {value : String}
    (matched : otherReading stops ts = .matched value rest) :
    ∃ token, ts = token :: rest ∧ value ∉ stops ∧ token.text = value := by
  cases ts with
  | nil => cases matched
  | cons token left =>
    rw [otherReading] at matched
    split at matched
    · cases matched
    · next other =>
      cases matched
      exact ⟨token, rfl, by simpa using other, rfl⟩

/-- What a repetition has read, if each reading leaves over what follows a spelled value. -/
theorem spellsAll_of_repeatedReading {step : List Token → Reading α}
    {spells : α → List Token → Prop}
    (sound : ∀ ts value rest, step ts = .matched value rest →
      ∃ front, ts = front ++ rest ∧ spells value front) :
    ∀ (bound : Nat) (ts : List Token) (values : List α) (rest : List Token),
      repeatedReading step bound ts = .matched values rest →
      ∃ front, ts = front ++ rest ∧ values.length < bound ∧ SpellsAll spells values front
  | 0, ts, values, rest, matched => by cases matched
  | bound + 1, ts, values, rest, matched => by
    rw [repeatedReading] at matched
    split at matched
    · next value middle one =>
      obtain ⟨others, rfl, more⟩ := Reading.map_eq_matched matched
      obtain ⟨front, rfl, spelled⟩ := sound _ _ _ (Reading.optional_eq_some one)
      obtain ⟨back, rfl, few, all⟩ := spellsAll_of_repeatedReading sound bound _ _ _ more
      exact ⟨front ++ back, (List.append_assoc ..).symm, Nat.succ_lt_succ few, front, back, rfl, spelled, all⟩
    · next stopped =>
      cases matched
      exact ⟨[], (Reading.optional_eq_none stopped).symm, Nat.succ_pos bound, rfl⟩
    · cases matched
    · cases matched

end Reading

/-! ### Soundness -/

section Sound

variable {σ : Type} {V : σ → Type} {symbolReading : (s : σ) → List Token → Reading (V s)}
  {symbolSpells : (s : σ) → V s → List Token → Prop} {finish : Position}

mutual

/-- A rule that reads a value has used up tokens that spell it, if its nonterminals do so. -/
theorem Rule.spells_of_reading
    (sound : ∀ sym ts value rest, symbolReading sym ts = .matched value rest →
      ∃ front, ts = front ++ rest ∧ symbolSpells sym value front) {α : Type} :
    ∀ (rule : Rule V α) (ts : List Token) (value : α) (rest : List Token),
      rule.reading symbolReading finish ts = .matched value rest →
      ∃ front, ts = front ++ rest ∧ rule.Spells symbolSpells value front
  | .word text, ts, value, rest, matched => by
    rw [Rule.reading] at matched
    obtain ⟨token, rfl, same, rfl⟩ := singleReading_eq_matched matched
    exact ⟨[token], rfl, token, rfl, by simpa using same⟩
  | .token kind _, ts, value, rest, matched => by
    rw [Rule.reading] at matched
    obtain ⟨token, rfl, same, rfl⟩ := singleReading_eq_matched matched
    exact ⟨[token], rfl, token, rfl, by simpa using same, rfl⟩
  | .pick values text, ts, value, rest, matched => by
    rw [Rule.reading] at matched
    obtain ⟨token, rfl, member, same⟩ := pickReading_eq_matched matched
    exact ⟨[token], rfl, member, token, rfl, same⟩
  | .other stops, ts, value, rest, matched => by
    rw [Rule.reading] at matched
    obtain ⟨token, rfl, other, same⟩ := otherReading_eq_matched matched
    exact ⟨[token], rfl, other, token, rfl, same⟩
  | .seq first second, ts, (a, b), rest, matched => by
    rw [Rule.reading] at matched
    split at matched
    · cases matched
    · cases matched
    · next middle one =>
      split at matched
      · cases matched
      · cases matched
      · next two =>
        cases matched
        obtain ⟨front, rfl, spelled⟩ := first.spells_of_reading sound _ _ _ one
        obtain ⟨back, rfl, more⟩ := second.spells_of_reading sound _ _ _ two
        exact ⟨front ++ back, (List.append_assoc ..).symm, front, back, rfl, spelled, more⟩
  | .choice alternatives, ts, value, rest, matched => by
    rw [Rule.reading] at matched
    exact alternatives.spells_of_reading sound false ts value rest matched
  | .opt rule, ts, none, rest, matched => by
    rw [Rule.reading] at matched
    exact ⟨[], (Reading.optional_eq_none matched).symm, rfl⟩
  | .opt rule, ts, some value, rest, matched => by
    rw [Rule.reading] at matched
    exact rule.spells_of_reading sound _ _ _ (Reading.optional_eq_some matched)
  | .kept first second, ts, value, rest, matched => by
    rw [Rule.reading] at matched
    split at matched
    · cases matched
      exact ⟨[], rfl, rfl⟩
    · obtain ⟨rfl, rfl⟩ := givenUp_eq_matched matched
      exact ⟨[], rfl, rfl⟩
    · next middle one =>
      split at matched
      · obtain ⟨rfl, rfl⟩ := givenUp_eq_matched matched
        exact ⟨[], rfl, rfl⟩
      · obtain ⟨rfl, rfl⟩ := givenUp_eq_matched matched
        exact ⟨[], rfl, rfl⟩
      · next two =>
        cases matched
        obtain ⟨front, rfl, spelled⟩ := first.spells_of_reading sound _ _ _ one
        obtain ⟨back, rfl, more⟩ := second.spells_of_reading sound _ _ _ two
        exact ⟨front ++ back, (List.append_assoc ..).symm, front, back, rfl, spelled, more⟩
  | .iterate _ rule, ts, values, rest, matched => by
    rw [Rule.reading] at matched
    exact spellsAll_of_repeatedReading (rule.spells_of_reading sound) _ _ _ _ matched
  | .iterate1 _ rule, ts, values, rest, matched => by
    rw [Rule.reading] at matched
    split at matched
    · cases matched
    · next some_ =>
      obtain ⟨front, split, all⟩ :=
        spellsAll_of_repeatedReading (rule.spells_of_reading sound) _ _ _ _ matched
      refine ⟨front, split, ?_, all⟩
      rintro rfl
      exact some_ _ matched
  | .call sym, ts, value, rest, matched => by
    rw [Rule.reading] at matched
    exact sound sym ts value rest matched
  | .located rule, ts, (pos, value), rest, matched => by
    rw [Rule.reading] at matched
    obtain ⟨inner, same, one⟩ := Reading.map_eq_matched matched
    obtain ⟨-, rfl⟩ := Prod.mk.inj same
    exact rule.spells_of_reading sound _ _ _ one
  | .shaped shape back rule, ts, value, rest, matched => by
    rw [Rule.reading] at matched
    obtain ⟨inner, same, one⟩ := Reading.map_eq_matched matched
    obtain ⟨front, split, spelled⟩ := rule.spells_of_reading sound _ _ _ one
    exact ⟨front, split, inner, same, spelled⟩

/-- An ordered choice that reads a value has used up tokens that spell it. -/
theorem Choice.spells_of_reading
    (sound : ∀ sym ts value rest, symbolReading sym ts = .matched value rest →
      ∃ front, ts = front ++ rest ∧ symbolSpells sym value front) {α : Type} :
    ∀ (alternatives : Choice V α) (blamed : Bool) (ts : List Token) (value : α)
      (rest : List Token),
      alternatives.reading symbolReading finish blamed ts = .matched value rest →
      ∃ front, ts = front ++ rest ∧ alternatives.Spells symbolSpells value front
  | .last rule, blamed, ts, value, rest, matched => by
    rw [Choice.reading] at matched
    split at matched
    · next one =>
      cases matched
      exact rule.spells_of_reading sound _ _ _ one
    · split at matched <;> cases matched
    · split at matched <;> cases matched
  | .or rule others, blamed, ts, value, rest, matched => by
    rw [Choice.reading] at matched
    split at matched
    · next one =>
      cases matched
      exact rule.spells_of_reading sound _ _ _ one
    · obtain ⟨inner, rfl, one⟩ := Reading.map_eq_matched matched
      exact others.spells_of_reading sound _ _ _ _ one
    · split at matched
      · cases matched
      · obtain ⟨inner, rfl, one⟩ := Reading.map_eq_matched matched
        exact others.spells_of_reading sound _ _ _ _ one

end

/-- **A nonterminal that reads a value has used up tokens that spell it.** -/
theorem Language.spellsWithin_of_reading (G : Language σ) (finish : Position) (bound : Nat) :
    ∀ (sym : σ) (ts : List Token) (value : G.Value sym) (rest : List Token),
      G.reading finish bound sym ts = .matched value rest →
      ∃ front, ts = front ++ rest ∧ G.SpellsWithin bound sym value front := by
  induction bound with
  | zero =>
    intro sym ts value rest matched
    cases matched
  | succ bound ih =>
    intro sym ts value rest matched
    rw [Language.reading] at matched
    simp only [SpellsWithin]
    exact (G.production sym).spells_of_reading ih _ _ _ matched

end Sound

/-! ### Derivations of any depth -/

section Mono

variable {σ : Type} {V : σ → Type} {symbol larger : (s : σ) → V s → List Token → Prop}

theorem SpellsAll.mono {α : Type} {spells more : α → List Token → Prop}
    (le : ∀ value ts, spells value ts → more value ts) {values : List α} {ts : List Token}
    (all : SpellsAll spells values ts) : SpellsAll more values ts := by
  induction values generalizing ts with
  | nil => exact all
  | cons value values ih =>
    obtain ⟨front, back, split, one, others⟩ := all
    exact ⟨front, back, split, le _ _ one, ih others⟩

mutual

theorem Rule.Spells.mono (le : ∀ s value ts, symbol s value ts → larger s value ts) {α : Type} :
    ∀ (rule : Rule V α) (value : α) (ts : List Token),
      rule.Spells symbol value ts → rule.Spells larger value ts
  | .word _, _, _, spelled => by simpa only [Rule.Spells] using spelled
  | .token _ _, _, _, spelled => by simpa only [Rule.Spells] using spelled
  | .pick _ _, _, _, spelled => by simpa only [Rule.Spells] using spelled
  | .other _, _, _, spelled => by simpa only [Rule.Spells] using spelled
  | .seq first second, (a, b), ts, spelled => by
    rw [Rule.Spells] at spelled ⊢
    obtain ⟨front, back, split, one, two⟩ := spelled
    exact ⟨front, back, split, Rule.Spells.mono le first a front one,
      Rule.Spells.mono le second b back two⟩
  | .choice alternatives, value, ts, spelled => by
    rw [Rule.Spells] at spelled ⊢
    exact Choice.Spells.mono le alternatives value ts spelled
  | .opt _, none, ts, spelled => by simpa only [Rule.Spells] using spelled
  | .opt rule, some value, ts, spelled => by
    rw [Rule.Spells] at spelled ⊢
    exact Rule.Spells.mono le rule value ts spelled
  | .kept _ _, none, _, spelled => by simpa only [Rule.Spells] using spelled
  | .kept _ _, some (_, none), _, spelled => by simpa only [Rule.Spells] using spelled
  | .kept first second, some (a, some b), ts, spelled => by
    rw [Rule.Spells] at spelled ⊢
    obtain ⟨front, back, split, one, two⟩ := spelled
    exact ⟨front, back, split, Rule.Spells.mono le first a front one,
      Rule.Spells.mono le second b back two⟩
  | .iterate _ rule, values, ts, spelled => by
    rw [Rule.Spells] at spelled ⊢
    exact ⟨spelled.1, SpellsAll.mono (Rule.Spells.mono le rule) spelled.2⟩
  | .iterate1 _ rule, values, ts, spelled => by
    rw [Rule.Spells] at spelled ⊢
    exact ⟨spelled.1, spelled.2.1, SpellsAll.mono (Rule.Spells.mono le rule) spelled.2.2⟩
  | .call sym, value, ts, spelled => by
    rw [Rule.Spells] at spelled ⊢
    exact le sym value ts spelled
  | .located rule, (_, value), ts, spelled => by
    rw [Rule.Spells] at spelled ⊢
    exact Rule.Spells.mono le rule value ts spelled
  | .shaped _ _ rule, value, ts, spelled => by
    rw [Rule.Spells] at spelled ⊢
    obtain ⟨inner, same, one⟩ := spelled
    exact ⟨inner, same, Rule.Spells.mono le rule inner ts one⟩

theorem Choice.Spells.mono (le : ∀ s value ts, symbol s value ts → larger s value ts) {α : Type} :
    ∀ (alternatives : Choice V α) (value : α) (ts : List Token),
      alternatives.Spells symbol value ts → alternatives.Spells larger value ts
  | .last rule, value, ts, spelled => by
    rw [Choice.Spells] at spelled ⊢
    exact Rule.Spells.mono le rule value ts spelled
  | .or rule _, .inl value, ts, spelled => by
    rw [Choice.Spells] at spelled ⊢
    exact Rule.Spells.mono le rule value ts spelled
  | .or _ others, .inr value, ts, spelled => by
    rw [Choice.Spells] at spelled ⊢
    exact Choice.Spells.mono le others value ts spelled

end

/-- A spelled value of a nonterminal is spelled by its production. -/
theorem Language.Spells.rule {G : Language σ} {sym : σ} {value : G.Value sym} {ts : List Token}
    (spelled : G.Spells sym value ts) : (G.production sym).Spells G.Spells value ts := by
  obtain ⟨bound, spelled⟩ := spelled
  cases bound with
  | zero => exact spelled.elim
  | succ bound => exact Rule.Spells.mono (fun _ _ _ deeper => ⟨bound, deeper⟩) _ _ _ spelled

/-- **Reading a whole list of tokens** is only possible where the tokens spell the value. -/
theorem Language.spells_of_read {G : Language σ} {sym : σ} {tokens : List Token}
    {finish : Position} {value : G.Value sym} (read : G.read sym tokens finish = .ok value) :
    G.Spells sym value tokens := by
  obtain ⟨front, split, spelled⟩ := G.spellsWithin_of_reading finish _ _ _ _ _
    ((G.read_eq_ok_iff sym tokens finish value).mp read)
  rw [List.append_nil] at split
  subst split
  exact ⟨_, spelled⟩

end Mono

/-! ### Rules that spell nothing with no token -/

section Solid

variable {σ : Type} {V : σ → Type} {symbol : (s : σ) → V s → List Token → Prop}
  {isSolid : σ → Bool}

mutual

/-- No value of the rule is spelled with no token, given the nonterminals for which this holds. -/
def Rule.isSolid {σ : Type} {V : σ → Type} (isSolid : σ → Bool) {α : Type} : Rule V α → Bool
  | .word _ | .token _ _ | .pick _ _ | .other _ => true
  | .seq first second => first.isSolid isSolid || second.isSolid isSolid
  | .choice alternatives => alternatives.isSolid isSolid
  | .opt _ | .kept _ _ | .iterate _ _ => false
  | .iterate1 _ rule | .located rule | .shaped _ _ rule => rule.isSolid isSolid
  | .call sym => isSolid sym

/-- No alternative spells a value with no token. -/
def Choice.isSolid {σ : Type} {V : σ → Type} (isSolid : σ → Bool) {α : Type} : Choice V α → Bool
  | .last rule => rule.isSolid isSolid
  | .or rule others => rule.isSolid isSolid && others.isSolid isSolid

end

mutual

theorem Rule.Spells.ne_nil
    (solid : ∀ s value ts, symbol s value ts → isSolid s = true → ts ≠ []) {α : Type} :
    ∀ (rule : Rule V α) (value : α) (ts : List Token),
      rule.Spells symbol value ts → rule.isSolid isSolid = true → ts ≠ []
  | .word _, _, _, spelled, _ => by
    obtain ⟨token, rfl, _⟩ := by simpa only [Rule.Spells] using spelled
    exact List.cons_ne_nil _ _
  | .token _ _, _, _, spelled, _ => by
    obtain ⟨token, rfl, _⟩ := by simpa only [Rule.Spells] using spelled
    exact List.cons_ne_nil _ _
  | .pick _ _, _, _, spelled, _ => by
    obtain ⟨_, token, rfl, _⟩ := by simpa only [Rule.Spells] using spelled
    exact List.cons_ne_nil _ _
  | .other _, _, _, spelled, _ => by
    obtain ⟨_, token, rfl, _⟩ := by simpa only [Rule.Spells] using spelled
    exact List.cons_ne_nil _ _
  | .seq first second, (a, b), ts, spelled, isSolid => by
    rw [Rule.Spells] at spelled
    obtain ⟨front, back, rfl, one, two⟩ := spelled
    rw [Rule.isSolid, Bool.or_eq_true] at isSolid
    rcases isSolid with isSolid | isSolid
    · exact List.append_ne_nil_of_left_ne_nil (Rule.Spells.ne_nil solid first a front one isSolid) _
    · exact List.append_ne_nil_of_right_ne_nil _ (Rule.Spells.ne_nil solid second b back two isSolid)
  | .choice alternatives, value, ts, spelled, isSolid => by
    rw [Rule.Spells] at spelled
    rw [Rule.isSolid] at isSolid
    exact Choice.Spells.ne_nil solid alternatives value ts spelled isSolid
  | .opt _, _, _, _, isSolid => by
    rw [Rule.isSolid] at isSolid
    cases isSolid
  | .kept _ _, _, _, _, isSolid => by
    rw [Rule.isSolid] at isSolid
    cases isSolid
  | .iterate _ _, _, _, _, isSolid => by
    rw [Rule.isSolid] at isSolid
    cases isSolid
  | .iterate1 _ rule, [], ts, spelled, _ => by
    rw [Rule.Spells] at spelled
    exact absurd rfl spelled.1
  | .iterate1 _ rule, value :: values, ts, spelled, isSolid => by
    rw [Rule.Spells] at spelled
    rw [Rule.isSolid] at isSolid
    obtain ⟨-, -, front, back, rfl, one, -⟩ := spelled
    exact List.append_ne_nil_of_left_ne_nil (Rule.Spells.ne_nil solid rule value front one isSolid) _
  | .call sym, value, ts, spelled, isSolid => by
    rw [Rule.Spells] at spelled
    rw [Rule.isSolid] at isSolid
    exact solid sym value ts spelled isSolid
  | .located rule, (_, value), ts, spelled, isSolid => by
    rw [Rule.Spells] at spelled
    rw [Rule.isSolid] at isSolid
    exact Rule.Spells.ne_nil solid rule value ts spelled isSolid
  | .shaped _ _ rule, value, ts, spelled, isSolid => by
    rw [Rule.Spells] at spelled
    rw [Rule.isSolid] at isSolid
    obtain ⟨inner, _, one⟩ := spelled
    exact Rule.Spells.ne_nil solid rule inner ts one isSolid

theorem Choice.Spells.ne_nil
    (solid : ∀ s value ts, symbol s value ts → isSolid s = true → ts ≠ []) {α : Type} :
    ∀ (alternatives : Choice V α) (value : α) (ts : List Token),
      alternatives.Spells symbol value ts → alternatives.isSolid isSolid = true → ts ≠ []
  | .last rule, value, ts, spelled, isSolid => by
    rw [Choice.Spells] at spelled
    rw [Choice.isSolid] at isSolid
    exact Rule.Spells.ne_nil solid rule value ts spelled isSolid
  | .or rule _, .inl value, ts, spelled, isSolid => by
    rw [Choice.Spells] at spelled
    rw [Choice.isSolid, Bool.and_eq_true] at isSolid
    exact Rule.Spells.ne_nil solid rule value ts spelled isSolid.1
  | .or _ others, .inr value, ts, spelled, isSolid => by
    rw [Choice.Spells] at spelled
    rw [Choice.isSolid, Bool.and_eq_true] at isSolid
    exact Choice.Spells.ne_nil solid others value ts spelled isSolid.2

end

/-- **Solid nonterminals.** If the productions of some nonterminals are solid as soon as these
nonterminals are, then none of them spells a value with no token. -/
theorem Language.Spells.ne_nil {G : Language σ}
    (closed : ∀ s, isSolid s = true → (G.production s).isSolid isSolid = true) {sym : σ}
    {value : G.Value sym} {ts : List Token} (spelled : G.Spells sym value ts)
    (solid : isSolid sym = true) : ts ≠ [] := by
  obtain ⟨bound, spelled⟩ := spelled
  induction bound generalizing sym ts with
  | zero => exact spelled.elim
  | succ bound ih =>
    exact Rule.Spells.ne_nil (fun s value ts deeper isSolid => ih isSolid deeper)
      (G.production sym) value ts spelled (closed sym solid)

theorem SpellsAll.of_append {α : Type} {spells : α → List Token → Prop} {before after : List α}
    {ts : List Token} (all : SpellsAll spells (before ++ after) ts) :
    ∃ front back, ts = front ++ back ∧ SpellsAll spells before front ∧
      SpellsAll spells after back := by
  induction before generalizing ts with
  | nil => exact ⟨[], ts, rfl, rfl, all⟩
  | cons value before ih =>
    obtain ⟨one, others, rfl, here, more⟩ := all
    obtain ⟨front, back, rfl, first, second⟩ := ih more
    exact ⟨one ++ front, back, (List.append_assoc ..).symm, ⟨one, front, rfl, here, first⟩, second⟩

/-- A value among those spelled, with the tokens around it. -/
theorem SpellsAll.split {α : Type} {spells : α → List Token → Prop} {values : List α}
    {ts : List Token} (all : SpellsAll spells values ts) {value : α} (member : value ∈ values) :
    ∃ before front inner back, ts = front ++ (inner ++ back) ∧ SpellsAll spells before front ∧
      spells value inner := by
  obtain ⟨before, after, rfl⟩ := List.append_of_mem member
  obtain ⟨front, _, rfl, first, inner, back, rfl, here, -⟩ := all.of_append
  exact ⟨before, front, inner, back, rfl, first, here⟩

/-- Stretches that each have a token have together as many tokens as there are stretches. -/
theorem SpellsAll.length_le {α : Type} {spells : α → List Token → Prop}
    (solid : ∀ value ts, spells value ts → ts ≠ []) {values : List α} {ts : List Token}
    (all : SpellsAll spells values ts) : values.length ≤ ts.length := by
  induction values generalizing ts with
  | nil => exact Nat.zero_le _
  | cons value values ih =>
    obtain ⟨front, back, rfl, one, others⟩ := all
    have first := List.length_pos_iff.mpr (solid value front one)
    have more := ih others
    rw [List.length_cons, List.length_append]
    omega

end Solid

/-! ### Last tokens -/

/-- A set of tokens, given by kinds and by texts. -/
structure TokenSet where
  kinds : TokenKind → Bool
  texts : String → Bool

/-- The token has one of the kinds or one of the texts. -/
def TokenSet.Holds (set : TokenSet) (token : Token) : Prop :=
  set.kinds token.kind = true ∨ set.texts token.text = true

/-- The last token is in the set, if there is one. -/
def EndsIn (set : TokenSet) (ts : List Token) : Prop :=
  ∀ token, ts.getLast? = some token → set.Holds token

section EndsIn

variable {set : TokenSet}

theorem EndsIn.nil : EndsIn set [] :=
  fun _ absurd => by cases absurd

theorem EndsIn.singleton {token : Token} (holds : set.Holds token) : EndsIn set [token] := by
  rintro _ ⟨⟩
  exact holds

theorem EndsIn.append {front back : List Token} (second : EndsIn set back)
    (first : EndsIn set front ∨ back ≠ []) : EndsIn set (front ++ back) := by
  intro token last
  rw [List.getLast?_append] at last
  cases ends : back.getLast? with
  | some other =>
    rw [ends] at last
    obtain rfl : other = token := Option.some.inj last
    exact second other ends
  | none =>
    rw [ends] at last
    rcases first with first | some_
    · exact first token last
    · exact absurd (List.getLast?_eq_none_iff.mp ends) some_

theorem EndsIn.cons {token : Token} {ts : List Token} (ends : EndsIn set ts) (some_ : ts ≠ []) :
    EndsIn set (token :: ts) :=
  (ends.append (.inr some_) : EndsIn set ([token] ++ ts))

theorem SpellsAll.endsIn {α : Type} {spells : α → List Token → Prop}
    (ends : ∀ value ts, spells value ts → EndsIn set ts) {values : List α} {ts : List Token}
    (all : SpellsAll spells values ts) : EndsIn set ts := by
  induction values generalizing ts with
  | nil =>
    obtain rfl : ts = [] := all
    exact .nil
  | cons value values ih =>
    obtain ⟨front, back, rfl, one, others⟩ := all
    exact (ih others).append (.inl (ends value front one))

end EndsIn

section Last

variable {σ : Type} {V : σ → Type} {symbol : (s : σ) → V s → List Token → Prop} {set : TokenSet}
  {isSolid closed : σ → Bool}

mutual

/-- Every value of the rule is spelled with a last token in the set, given the nonterminals for
which this holds and those that are solid. -/
def Rule.endsIn {σ : Type} {V : σ → Type} (set : TokenSet) (isSolid closed : σ → Bool) {α : Type} :
    Rule V α → Bool
  | .word text => set.texts text
  | .token kind _ => set.kinds kind
  | .pick values text => values.all (set.texts <| text ·)
  | .other _ => false
  | .seq first second =>
    second.endsIn set isSolid closed &&
      (first.endsIn set isSolid closed || second.isSolid isSolid)
  | .kept first second =>
    second.endsIn set isSolid closed &&
      (first.endsIn set isSolid closed || second.isSolid isSolid)
  | .choice alternatives => alternatives.endsIn set isSolid closed
  | .opt rule | .iterate _ rule | .iterate1 _ rule | .located rule | .shaped _ _ rule =>
    rule.endsIn set isSolid closed
  | .call sym => closed sym

/-- Every alternative spells its values with a last token in the set. -/
def Choice.endsIn {σ : Type} {V : σ → Type} (set : TokenSet) (isSolid closed : σ → Bool)
    {α : Type} : Choice V α → Bool
  | .last rule => rule.endsIn set isSolid closed
  | .or rule others => rule.endsIn set isSolid closed && others.endsIn set isSolid closed

end

mutual

theorem Rule.Spells.endsIn
    (solid : ∀ s value ts, symbol s value ts → isSolid s = true → ts ≠ [])
    (ends : ∀ s value ts, symbol s value ts → closed s = true → EndsIn set ts) {α : Type} :
    ∀ (rule : Rule V α) (value : α) (ts : List Token), rule.Spells symbol value ts →
      rule.endsIn set isSolid closed = true → EndsIn set ts
  | .word text, _, _, spelled, known => by
    obtain ⟨token, rfl, rfl⟩ := by simpa only [Rule.Spells] using spelled
    exact .singleton (.inr known)
  | .token kind _, _, _, spelled, known => by
    obtain ⟨token, rfl, rfl, _⟩ := by simpa only [Rule.Spells] using spelled
    exact .singleton (.inl known)
  | .pick values text, value, _, spelled, known => by
    obtain ⟨member, token, rfl, same⟩ := by simpa only [Rule.Spells] using spelled
    rw [Rule.endsIn, List.all_eq_true] at known
    exact .singleton (.inr (same ▸ known value member))
  | .other _, _, _, _, known => by
    rw [Rule.endsIn] at known
    cases known
  | .seq first second, (a, b), ts, spelled, known => by
    rw [Rule.Spells] at spelled
    obtain ⟨front, back, rfl, one, two⟩ := spelled
    rw [Rule.endsIn, Bool.and_eq_true, Bool.or_eq_true] at known
    exact (Rule.Spells.endsIn solid ends second b back two known.1).append
      (known.2.imp (Rule.Spells.endsIn solid ends first a front one)
        (Rule.Spells.ne_nil solid second b back two))
  | .choice alternatives, value, ts, spelled, known => by
    rw [Rule.Spells] at spelled
    rw [Rule.endsIn] at known
    exact Choice.Spells.endsIn solid ends alternatives value ts spelled known
  | .opt _, none, ts, spelled, _ => by
    obtain rfl := by simpa only [Rule.Spells] using spelled
    exact .nil
  | .opt rule, some value, ts, spelled, known => by
    rw [Rule.Spells] at spelled
    rw [Rule.endsIn] at known
    exact Rule.Spells.endsIn solid ends rule value ts spelled known
  | .kept _ _, none, ts, spelled, _ => by
    obtain rfl := by simpa only [Rule.Spells] using spelled
    exact .nil
  | .kept _ _, some (_, none), ts, spelled, _ => by
    obtain rfl := by simpa only [Rule.Spells] using spelled
    exact .nil
  | .kept first second, some (a, some b), ts, spelled, known => by
    rw [Rule.Spells] at spelled
    obtain ⟨front, back, rfl, one, two⟩ := spelled
    rw [Rule.endsIn, Bool.and_eq_true, Bool.or_eq_true] at known
    exact (Rule.Spells.endsIn solid ends second b back two known.1).append
      (known.2.imp (Rule.Spells.endsIn solid ends first a front one)
        (Rule.Spells.ne_nil solid second b back two))
  | .iterate _ rule, values, ts, spelled, known => by
    rw [Rule.Spells] at spelled
    rw [Rule.endsIn] at known
    exact spelled.2.endsIn fun value ts one => Rule.Spells.endsIn solid ends rule value ts one known
  | .iterate1 _ rule, values, ts, spelled, known => by
    rw [Rule.Spells] at spelled
    rw [Rule.endsIn] at known
    exact spelled.2.2.endsIn fun value ts one => Rule.Spells.endsIn solid ends rule value ts one known
  | .call sym, value, ts, spelled, known => by
    rw [Rule.Spells] at spelled
    rw [Rule.endsIn] at known
    exact ends sym value ts spelled known
  | .located rule, (_, value), ts, spelled, known => by
    rw [Rule.Spells] at spelled
    rw [Rule.endsIn] at known
    exact Rule.Spells.endsIn solid ends rule value ts spelled known
  | .shaped _ _ rule, value, ts, spelled, known => by
    rw [Rule.Spells] at spelled
    rw [Rule.endsIn] at known
    obtain ⟨inner, _, one⟩ := spelled
    exact Rule.Spells.endsIn solid ends rule inner ts one known

theorem Choice.Spells.endsIn
    (solid : ∀ s value ts, symbol s value ts → isSolid s = true → ts ≠ [])
    (ends : ∀ s value ts, symbol s value ts → closed s = true → EndsIn set ts) {α : Type} :
    ∀ (alternatives : Choice V α) (value : α) (ts : List Token),
      alternatives.Spells symbol value ts → alternatives.endsIn set isSolid closed = true →
      EndsIn set ts
  | .last rule, value, ts, spelled, known => by
    rw [Choice.Spells] at spelled
    rw [Choice.endsIn] at known
    exact Rule.Spells.endsIn solid ends rule value ts spelled known
  | .or rule _, .inl value, ts, spelled, known => by
    rw [Choice.Spells] at spelled
    rw [Choice.endsIn, Bool.and_eq_true] at known
    exact Rule.Spells.endsIn solid ends rule value ts spelled known.1
  | .or _ others, .inr value, ts, spelled, known => by
    rw [Choice.Spells] at spelled
    rw [Choice.endsIn, Bool.and_eq_true] at known
    exact Choice.Spells.endsIn solid ends others value ts spelled known.2

end

/-- **Last tokens of nonterminals.** If the productions of some nonterminals end in the set as soon
as these nonterminals do, then all of them do. -/
theorem Language.Spells.endsIn {G : Language σ}
    (solid : ∀ s, isSolid s = true → (G.production s).isSolid isSolid = true)
    (ends : ∀ s, closed s = true → (G.production s).endsIn set isSolid closed = true) {sym : σ}
    {value : G.Value sym} {ts : List Token} (spelled : G.Spells sym value ts)
    (known : closed sym = true) : EndsIn set ts := by
  obtain ⟨bound, spelled⟩ := spelled
  induction bound generalizing sym ts with
  | zero => exact spelled.elim
  | succ bound ih =>
    have inner : ∀ s value ts, G.SpellsWithin bound s value ts → isSolid s = true → ts ≠ [] :=
      fun s value ts deeper isSolid => Language.Spells.ne_nil solid ⟨bound, deeper⟩ isSolid
    exact Rule.Spells.endsIn inner (fun s value ts deeper known => ih known deeper)
      (G.production sym) value ts spelled (ends sym known)

end Last

end Forwarder.Grammar
