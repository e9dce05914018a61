/-
**Groups.** Every mark that opens a group is closed by its own mark, and the groups that are opened last are
closed first. What stands behind the end of a group plays no part in how the group is read.

* `awaited`, `awaitedAfter` — the closing marks that are waited for behind a token, or several.
* `Paired` — tokens in which all marks of groups come in pairs; **`paired_iff`**.
* `Entries` — such tokens, where no group holds more than can be read.
* `Rule.awaits` — the closing marks that are waited for behind whatever the rule spells.
* `Rule.awaitedAfter_of_spells` — what a rule spells has its marks in pairs.
* **`Language.Spells.paired`** — so do constructs, if the productions of all nonterminals do.
-/

import Forwarder.Proofs.Grammar.Depth
import Forwarder.Proofs.Grammar.Nesting
import Mathlib.Tactic.SplitIfs

namespace Forwarder.Grammar

open Source

/-! ### Pairs of marks -/

/-- The mark that closes the group which this mark opens. -/
def closer? (text : String) : Option String :=
  if text = "(" then some ")" else if text = "\x7b" then some "\x7d" else none

/-- The closing marks that are waited for behind a token, the next one first. There are none behind a
closing mark that is not the next one. -/
def awaited (stack : List String) (text : String) : Option (List String) :=
  match closer? text with
  | some closer => some (closer :: stack)
  | none =>
    if text ∈ closers then if stack.head? = some text then some stack.tail else none
    else some stack

/-- The closing marks that are waited for behind several tokens. -/
def awaitedAfter (stack : List String) (ts : List Token) : Option (List String) :=
  ts.foldlM (fun stack token => awaited stack token.text) stack

/-- The marks of groups come in pairs. -/
inductive Paired : List Token → Prop
  | nil : Paired []
  | token {token : Token} {others : List Token} (plain : token.text ∉ openers ++ closers)
      (more : Paired others) : Paired (token :: others)
  | group {opening closing : Token} {inner others : List Token}
      (pair : closer? opening.text = some closing.text) (inside : Paired inner) (more : Paired others) :
      Paired (opening :: inner ++ closing :: others)

section Marks

variable {stack next : List String} {text : String} {ts front back : List Token}

theorem closer?_eq_none (plain : text ∉ openers) : closer? text = none := by
  rw [openers, List.mem_cons, List.mem_singleton, not_or] at plain
  rw [closer?, if_neg plain.1, if_neg plain.2]

theorem mem_closers_of_closer? {closing : String} (pair : closer? text = some closing) :
    closing ∈ closers := by
  rw [closer?] at pair
  split_ifs at pair <;> cases pair <;> decide

theorem awaited_plain (plain : text ∉ openers ++ closers) : awaited stack text = some stack := by
  obtain ⟨noOpener, noCloser⟩ := not_or.mp (mt List.mem_append.mpr plain)
  rw [awaited, closer?_eq_none noOpener]
  exact if_neg noCloser

theorem awaited_closer (isCloser : text ∈ closers) :
    awaited stack text = if stack.head? = some text then some stack.tail else none := by
  have noOpener : ∀ mark ∈ closers, mark ∉ openers := by decide
  rw [awaited, closer?_eq_none (noOpener text isCloser)]
  exact if_pos isCloser

/-- The groups around make no difference. -/
theorem awaited_append (known : awaited stack text = some next) (outer : List String) :
    awaited (stack ++ outer) text = some (next ++ outer) := by
  rw [awaited] at known ⊢
  cases opens : closer? text with
  | some closer =>
    rw [opens] at known
    obtain rfl := Option.some.inj known
    rfl
  | none =>
    rw [opens] at known
    dsimp only at known ⊢
    split_ifs at known with closes isNext
    · obtain rfl := Option.some.inj known
      rw [if_pos closes]
      cases stack with
      | nil => cases isNext
      | cons => exact if_pos isNext
    · obtain rfl := Option.some.inj known
      exact if_neg closes

theorem awaitedAfter_cons (token : Token) : awaitedAfter stack (token :: ts) =
    (awaited stack token.text).bind (awaitedAfter · ts) :=
  List.foldlM_cons

theorem awaitedAfter_concat : awaitedAfter stack (front ++ back) =
    (awaitedAfter stack front).bind (awaitedAfter · back) :=
  List.foldlM_append

theorem Paired.append (left : Paired front) (right : Paired back) : Paired (front ++ back) := by
  induction left with
  | nil => exact right
  | token plain _ ih => exact .token plain ih
  | group pair inside _ _ ih =>
    have whole := Paired.group pair inside ih
    simpa using whole

theorem Paired.awaitedAfter_eq (paired : Paired ts) (stack : List String) :
    awaitedAfter stack ts = some stack := by
  induction paired generalizing stack with
  | nil => rfl
  | token plain _ ih =>
    rw [awaitedAfter_cons, awaited_plain plain]
    exact ih stack
  | @group opening closing inner others pair _ _ ihInner ih =>
    have opened : awaited stack opening.text = some (closing.text :: stack) := by
      rw [awaited, pair]
    have closed : awaited (closing.text :: stack) closing.text = some stack := by
      rw [awaited_closer (mem_closers_of_closer? pair)]
      exact if_pos rfl
    rw [List.cons_append, awaitedAfter_cons, opened]
    dsimp only [Option.bind_some]
    rw [awaitedAfter_concat, ihInner, Option.bind_some, awaitedAfter_cons, closed]
    exact ih stack

/-- The tokens close these groups one after the other, with pairs in between. -/
def Closes : List String → List Token → Prop
  | [], ts => Paired ts
  | closer :: stack, ts =>
    ∃ inner closing rest, ts = inner ++ closing :: rest ∧ closing.text = closer ∧ Paired inner ∧
      Closes stack rest

theorem Closes.append (paired : Paired front) (closes : Closes stack back) : Closes stack (front ++ back) := by
  cases stack with
  | nil => exact paired.append closes
  | cons closer stack =>
    obtain ⟨inner, closing, rest, rfl, same, inside, more⟩ := closes
    exact ⟨front ++ inner, closing, rest, (List.append_assoc ..).symm, same, paired.append inside, more⟩

theorem closes_of_awaitedAfter (known : awaitedAfter stack ts = some []) : Closes stack ts := by
  induction ts generalizing stack with
  | nil =>
    obtain rfl := Option.some.inj known
    exact .nil
  | cons token ts ih =>
    rw [awaitedAfter_cons] at known
    obtain ⟨middle, here, later⟩ := Option.bind_eq_some_iff.mp known
    have closes := ih later
    rw [awaited] at here
    cases pair : closer? token.text with
    | some closer =>
      rw [pair] at here
      obtain rfl := Option.some.inj here
      obtain ⟨inner, closing, rest, rfl, rfl, inside, more⟩ := closes
      have whole := Closes.append (.group pair inside .nil) more
      simpa using whole
    | none =>
      rw [pair] at here
      dsimp only at here
      split_ifs at here with isCloser isNext
      · obtain rfl := Option.some.inj here
        cases stack with
        | nil => cases isNext
        | cons closer stack => exact ⟨[], token, ts, rfl, Option.some.inj isNext.symm, .nil, closes⟩
      · obtain rfl := Option.some.inj here
        have plain : token.text ∉ openers ++ closers := by
          rw [List.mem_append, not_or]
          refine ⟨fun isOpener => ?_, isCloser⟩
          have opens : ∀ mark ∈ openers, closer? mark ≠ none := by decide
          exact opens _ isOpener pair
        exact Closes.append (.token plain .nil) closes

/-- **The marks come in pairs** exactly if none is waited for in the end. -/
theorem paired_iff : Paired ts ↔ awaitedAfter [] ts = some [] :=
  ⟨fun paired => paired.awaitedAfter_eq [], closes_of_awaitedAfter⟩

/-- The first closing mark behind pairs is at one place alone: none of those inside of pairs is the next one
that is waited for. -/
theorem Paired.unique {other behind behindOther : List Token} {close closeOther : Token} (paired : Paired front)
    (pairedOther : Paired other) (isCloser : close.text ∈ closers) (isCloserOther : closeOther.text ∈ closers)
    (same : front ++ close :: behind = other ++ closeOther :: behindOther) : front = other := by
  have none_ {inner more : List Token} {token : Token} (paired : Paired inner) (isCloser : token.text ∈ closers) :
      ¬Paired (inner ++ token :: more) := by
    intro whole
    have known := paired_iff.mp whole
    rw [awaitedAfter_concat, paired.awaitedAfter_eq, Option.bind_some, awaitedAfter_cons,
      awaited_closer isCloser] at known
    cases known
  rcases List.append_eq_append_iff.mp same with ⟨more, rfl, split⟩ | ⟨more, rfl, split⟩
  · cases more with
    | nil => exact (List.append_nil _).symm
    | cons token more =>
      obtain ⟨rfl, -⟩ := List.cons_eq_cons.mp split
      exact absurd pairedOther (none_ paired isCloser)
  · cases more with
    | nil => exact List.append_nil _
    | cons token more =>
      obtain ⟨rfl, -⟩ := List.cons_eq_cons.mp split
      exact absurd paired (none_ pairedOther isCloserOther)

/-- So many tokens and groups one after the other, where no group holds as many as a rule can be repeated. -/
inductive Entries : Nat → List Token → Prop
  | nil : Entries 0 []
  | token {count : Nat} {token : Token} {others : List Token} (plain : token.text ∉ openers ++ closers)
      (more : Entries count others) : Entries (count + 1) (token :: others)
  | group {held count : Nat} {opening closing : Token} {inner others : List Token}
      (pair : closer? opening.text = some closing.text) (inside : Entries held inner)
      (few : held < maxIterations) (more : Entries count others) :
      Entries (count + 1) (opening :: inner ++ closing :: others)

theorem Entries.paired {count : Nat} (entries : Entries count ts) : Paired ts := by
  induction entries with
  | nil => exact .nil
  | token plain _ ih => exact .token plain ih
  | group pair _ _ _ ihInside ih => exact .group pair ihInside ih

/-- Where there are fewer tokens than a rule can be repeated, no group holds too many. -/
theorem Paired.entries (paired : Paired ts) (few : ts.length < maxIterations) :
    ∃ count ≤ ts.length, Entries count ts := by
  induction paired with
  | nil => exact ⟨0, Nat.le_refl _, .nil⟩
  | token plain _ ih =>
    rw [List.length_cons] at few ⊢
    obtain ⟨count, less, entries⟩ := ih (by omega)
    exact ⟨count + 1, by omega, .token plain entries⟩
  | group pair _ _ ihInside ih =>
    simp only [List.cons_append, List.length_cons, List.length_append] at few ⊢
    obtain ⟨held, lessInside, inside⟩ := ihInside (by omega)
    obtain ⟨count, less, entries⟩ := ih (by omega)
    exact ⟨count + 1, by omega, .group pair inside (by omega) entries⟩

end Marks

/-! ### Rules -/

mutual

/-- The closing marks that are waited for behind whatever the rule spells, where these are waited for in
front of it. -/
def Rule.awaits {σ : Type} {V : σ → Type} {α : Type} : Rule V α → List String → Option (List String)
  | .word text, stack => awaited stack text
  | .token kind _, stack => if kind = .identifier then some stack else none
  | .pick values text, stack =>
    if ∀ value ∈ values, text value ∉ openers ++ closers then some stack else none
  | .other stops, stack => if ∀ mark ∈ openers ++ closers, mark ∈ stops then some stack else none
  | .seq first second, stack => (first.awaits stack).bind second.awaits
  | .choice alternatives, stack => if alternatives.arePaired then some stack else none
  | .kept first second, stack =>
    if (first.awaits []).bind second.awaits = some [] then some stack else none
  | .opt rule, stack | .iterate _ rule, stack | .iterate1 _ rule, stack =>
    if rule.awaits [] = some [] then some stack else none
  | .call _, stack => some stack
  | .located rule, stack | .shaped _ _ rule, stack => rule.awaits stack

/-- The marks of every alternative come in pairs. -/
def Choice.arePaired {σ : Type} {V : σ → Type} {α : Type} : Choice V α → Bool
  | .last rule => rule.awaits [] == some []
  | .or rule others => rule.awaits [] == some [] && others.arePaired

end

section Spelled

variable {σ : Type} {V : σ → Type} {symbol : (s : σ) → V s → List Token → Prop}
  {fits : TokenKind → String → Prop}

theorem SpellsAll.paired {α : Type} {spells : α → List Token → Prop}
    (each : ∀ value ts, AllFit fits ts → spells value ts → Paired ts) {values : List α} {ts : List Token}
    (all : AllFit fits ts) (spelled : SpellsAll spells values ts) : Paired ts := by
  induction values generalizing ts with
  | nil =>
    obtain rfl : ts = [] := spelled
    exact .nil
  | cons value values ih =>
    obtain ⟨front, back, rfl, one, others⟩ := spelled
    exact (each value front all.of_append.1 one).append (ih all.of_append.2 others)

mutual

/-- What a rule spells has its marks in pairs, but for those that the rule leaves open or closes. -/
theorem Rule.awaitedAfter_of_spells
    (identified : ∀ text, fits .identifier text → text ∉ openers ++ closers)
    (inner : ∀ s value ts, AllFit fits ts → symbol s value ts → Paired ts) {α : Type} :
    ∀ (rule : Rule V α) (value : α) (ts : List Token) (stack next : List String), AllFit fits ts →
      rule.Spells symbol value ts → rule.awaits stack = some next →
      awaitedAfter stack ts = some next
  | .word text, _, _, stack, next, _, spelled, known => by
    rw [Rule.Spells] at spelled
    rw [Rule.awaits] at known
    obtain ⟨token, rfl, rfl⟩ := spelled
    rw [awaitedAfter_cons, known]
    rfl
  | .token kind _, _, _, stack, _, all, spelled, known => by
    rw [Rule.Spells] at spelled
    rw [Rule.awaits] at known
    obtain ⟨token, rfl, rfl, -⟩ := spelled
    split_ifs at known with isIdent
    obtain rfl := Option.some.inj known
    have plain := identified token.text (isIdent ▸ all token (List.mem_singleton_self token))
    exact (Paired.token plain .nil).awaitedAfter_eq stack
  | .pick values text, value, _, stack, _, _, spelled, known => by
    rw [Rule.Spells] at spelled
    rw [Rule.awaits] at known
    obtain ⟨member, token, rfl, same⟩ := spelled
    split_ifs at known with plain
    obtain rfl := Option.some.inj known
    exact (Paired.token (same ▸ plain value member) .nil).awaitedAfter_eq stack
  | .other stops, _, _, stack, _, _, spelled, known => by
    rw [Rule.Spells] at spelled
    rw [Rule.awaits] at known
    obtain ⟨notStop, token, rfl, rfl⟩ := spelled
    split_ifs at known with stopped
    obtain rfl := Option.some.inj known
    exact (Paired.token (fun member => notStop (stopped _ member)) .nil).awaitedAfter_eq stack
  | .seq first second, (a, b), _, stack, next, all, spelled, known => by
    rw [Rule.Spells] at spelled
    rw [Rule.awaits] at known
    obtain ⟨front, back, rfl, one, two⟩ := spelled
    obtain ⟨middle, here, later⟩ := Option.bind_eq_some_iff.mp known
    rw [awaitedAfter_concat,
      first.awaitedAfter_of_spells identified inner a front stack middle all.of_append.1 one here]
    exact second.awaitedAfter_of_spells identified inner b back middle next all.of_append.2 two later
  | .choice alternatives, value, ts, stack, _, all, spelled, known => by
    rw [Rule.Spells] at spelled
    rw [Rule.awaits] at known
    split_ifs at known with arePaired
    obtain rfl := Option.some.inj known
    exact (alternatives.paired_of_spells identified inner value ts all spelled arePaired).awaitedAfter_eq
      stack
  | .opt _, none, _, _, _, _, spelled, known => by
    rw [Rule.Spells] at spelled
    rw [Rule.awaits] at known
    subst spelled
    split_ifs at known
    exact known
  | .opt rule, some value, ts, stack, _, all, spelled, known => by
    rw [Rule.Spells] at spelled
    rw [Rule.awaits] at known
    split_ifs at known with level
    obtain rfl := Option.some.inj known
    have inside := rule.awaitedAfter_of_spells identified inner value ts [] [] all spelled level
    exact (paired_iff.mpr inside).awaitedAfter_eq stack
  | .kept _ _, none, _, _, _, _, spelled, known | .kept _ _, some (_, none), _, _, _, _, spelled, known => by
    rw [Rule.Spells] at spelled
    rw [Rule.awaits] at known
    subst spelled
    split_ifs at known
    exact known
  | .kept first second, some (a, some b), _, stack, _, all, spelled, known => by
    rw [Rule.Spells] at spelled
    rw [Rule.awaits] at known
    obtain ⟨front, back, rfl, one, two⟩ := spelled
    split_ifs at known with level
    obtain rfl := Option.some.inj known
    obtain ⟨middle, here, later⟩ := Option.bind_eq_some_iff.mp level
    have isFirst := first.awaitedAfter_of_spells identified inner a front [] middle all.of_append.1 one here
    have isSecond := second.awaitedAfter_of_spells identified inner b back middle [] all.of_append.2 two later
    refine (paired_iff.mpr ?_).awaitedAfter_eq stack
    rw [awaitedAfter_concat, isFirst]
    exact isSecond
  | .iterate _ rule, values, ts, stack, _, all, spelled, known => by
    rw [Rule.Spells] at spelled
    rw [Rule.awaits] at known
    split_ifs at known with level
    obtain rfl := Option.some.inj known
    exact (spelled.2.paired (fun value ts all one => paired_iff.mpr
      (rule.awaitedAfter_of_spells identified inner value ts [] [] all one level)) all).awaitedAfter_eq stack
  | .iterate1 _ rule, values, ts, stack, _, all, spelled, known => by
    rw [Rule.Spells] at spelled
    rw [Rule.awaits] at known
    split_ifs at known with level
    obtain rfl := Option.some.inj known
    exact (spelled.2.2.paired (fun value ts all one => paired_iff.mpr
      (rule.awaitedAfter_of_spells identified inner value ts [] [] all one level)) all).awaitedAfter_eq stack
  | .call s, value, ts, stack, _, all, spelled, known => by
    rw [Rule.Spells] at spelled
    rw [Rule.awaits] at known
    obtain rfl := Option.some.inj known
    exact (inner s value ts all spelled).awaitedAfter_eq stack
  | .located rule, (_, value), ts, stack, next, all, spelled, known => by
    rw [Rule.Spells] at spelled
    rw [Rule.awaits] at known
    exact rule.awaitedAfter_of_spells identified inner value ts stack next all spelled known
  | .shaped _ _ rule, _, ts, stack, next, all, spelled, known => by
    rw [Rule.Spells] at spelled
    rw [Rule.awaits] at known
    obtain ⟨value, -, one⟩ := spelled
    exact rule.awaitedAfter_of_spells identified inner value ts stack next all one known

/-- The same for the alternatives of a choice. -/
theorem Choice.paired_of_spells
    (identified : ∀ text, fits .identifier text → text ∉ openers ++ closers)
    (inner : ∀ s value ts, AllFit fits ts → symbol s value ts → Paired ts) {α : Type} :
    ∀ (alternatives : Choice V α) (value : α) (ts : List Token), AllFit fits ts →
      alternatives.Spells symbol value ts → alternatives.arePaired = true → Paired ts
  | .last rule, value, ts, all, spelled, known => by
    rw [Choice.Spells] at spelled
    rw [Choice.arePaired, beq_iff_eq] at known
    exact paired_iff.mpr (rule.awaitedAfter_of_spells identified inner value ts [] [] all spelled known)
  | .or rule others, .inl value, ts, all, spelled, known => by
    rw [Choice.Spells] at spelled
    rw [Choice.arePaired, Bool.and_eq_true, beq_iff_eq] at known
    exact paired_iff.mpr (rule.awaitedAfter_of_spells identified inner value ts [] [] all spelled known.1)
  | .or _ others, .inr value, ts, all, spelled, known => by
    rw [Choice.Spells] at spelled
    rw [Choice.arePaired, Bool.and_eq_true] at known
    exact others.paired_of_spells identified inner value ts all spelled known.2

end

/-- **Constructs have their marks in pairs** if the productions of all nonterminals do. -/
theorem Language.Spells.paired {G : Language σ}
    (identified : ∀ text, fits .identifier text → text ∉ openers ++ closers)
    (closed : ∀ s, (G.production s).awaits [] = some []) {sym : σ} {value : G.Value sym}
    {ts : List Token} (spelled : G.Spells sym value ts) (all : AllFit fits ts) : Paired ts := by
  obtain ⟨bound, spelled⟩ := spelled
  induction bound generalizing sym ts with
  | zero => exact spelled.elim
  | succ bound ih =>
    exact paired_iff.mpr ((G.production sym).awaitedAfter_of_spells identified
      (fun _ _ _ all deeper => ih all deeper) value ts [] [] all spelled (closed sym))

end Spelled

end Forwarder.Grammar
