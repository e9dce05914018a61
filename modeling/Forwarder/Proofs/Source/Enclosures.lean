/-
**What stands between braces and parentheses** is read without a look at what it means. A block is read exactly
where a group between braces stands, a token group exactly where one between parentheses does, however deep
groups nest and however many tokens a reading goes through before it fails. The limit on repetitions is the one
exception: a group is not read if it, or a group inside of it, holds too many tokens and groups. So every group of
fewer tokens than the limit is read.

Two facts meet here. Whatever is read spells its tokens with all marks of groups in pairs, so a block that is
read is a group; and a small group is read, so where none is read there is none. Since the first closing mark
behind pairs is at one place alone, only one group stands at the start of given tokens.

* `entries_of_items` — uninterpreted tokens are spelled with their marks in pairs, whatever kinds they are of.
* `IsGroup.unique` — only one group stands at the start of given tokens.
* `IsLeadingGroup` — the shortest group at the start of tokens.
* `TakesGroup` — an outcome that takes this group if there is one, with its texts, and nothing if there is none.
* **`reads_enclosures`** — reading a block and a token group comes to such an outcome.
* `longBlock_not_read` — a block that holds too many tokens.
-/

import Forwarder.Proofs.Source.Progress

namespace Forwarder.Source

open Grammar

/-! ### Groups that are spelled -/

section Spelled

variable {opening closing : String} {ts : List Token}

/-- A small group is one entry. -/
theorem IsSmallGroup.entry (isSmall : IsSmallGroup opening closing ts) (pair : closer? opening = some closing)
    {count : Nat} {others : List Token} (more : Entries count others) : Entries (count + 1) (ts ++ others) := by
  obtain ⟨first, inner, last, held, rfl, rfl, rfl, inside, few⟩ := isSmall
  have whole := Entries.group pair inside few more
  simpa using whole

/-- What a bracketed repetition spells is a small group if what it repeats are entries. -/
theorem isSmallGroup_of_group {items : List Balanced}
    (inside : ∀ inner, SpellsAll (Symbol.Spells .balanced) items inner → Entries items.length inner)
    (spelled : (DeclRule.group opening closing (DeclRule.sym .balanced)).Spells Symbol.Spells items ts) :
    IsSmallGroup opening closing ts := by
  obtain ⟨first, inner, last, rfl, isOpening, isClosing, few, all⟩ := group_spells spelled
  simp only [DeclRule.sym, Rule.Spells] at all
  exact ⟨first, inner, last, items.length, rfl, isOpening, isClosing, inside inner all, few⟩

/-- The tokens of an item: a token that is no mark of a group, or a group. -/
def ItemSpells : Balanced → List Token → Prop
  | .token text, ts => text ∉ openers ++ closers ∧ ∃ token, ts = [token] ∧ token.text = text
  | .parens inner, ts => Symbol.Spells .tokenGroup inner ts
  | .braces inner, ts => Symbol.Spells .block inner ts

theorem itemSpells_of_spells {item : Balanced} (spelled : Symbol.Spells .balanced item ts) :
    ItemSpells item ts := by
  have rule : (DeclRule.balancedUnless ["(", ")", "\x7b", "\x7d"]).Spells Symbol.Spells item ts := spelled.rule
  rw [DeclRule.balancedUnless, Rule.Spells] at rule
  obtain ⟨inner | inner | text, rfl, inner⟩ := rule
  all_goals simp only [Rule.Spells, Choice.Spells, DeclRule.sym] at inner
  · exact inner
  · exact inner
  · obtain ⟨plain, one⟩ := inner
    have marks : ∀ mark ∈ openers ++ closers, mark ∈ ["(", ")", "\x7b", "\x7d"] := by decide
    exact ⟨fun isMark => plain (marks text isMark), one⟩

mutual

/-- An item is spelled as one entry. -/
theorem entry_of_item : ∀ (item : Balanced) (ts : List Token), Symbol.Spells .balanced item ts →
    ∀ {count : Nat} {others : List Token}, Entries count others → Entries (count + 1) (ts ++ others)
  | .token _, _, spelled, _, _, more => by
    obtain ⟨plain, token, rfl, rfl⟩ := itemSpells_of_spells spelled
    exact .token plain more
  | .parens inner, _, spelled, _, _, more => by
    have group : Symbol.Spells .tokenGroup inner _ := itemSpells_of_spells spelled
    have isSmall : IsSmallGroup "(" ")" _ := isSmallGroup_of_group (entries_of_items inner) group.rule
    exact isSmall.entry rfl more
  | .braces inner, _, spelled, _, _, more => by
    have group : Symbol.Spells .block inner _ := itemSpells_of_spells spelled
    have isSmall : IsSmallGroup "\x7b" "\x7d" _ := isSmallGroup_of_group (entries_of_items inner) group.rule
    exact isSmall.entry rfl more

/-- Items are spelled as so many entries. -/
theorem entries_of_items : ∀ (items : List Balanced) (ts : List Token),
    SpellsAll (Symbol.Spells .balanced) items ts → Entries items.length ts
  | [], _, spelled => by
    obtain rfl := spelled
    exact .nil
  | item :: items, _, spelled => by
    obtain ⟨front, back, rfl, one, others⟩ := spelled
    exact entry_of_item item front one (entries_of_items items back others)

end

end Spelled

/-! ### The group at the start -/

section Leading

variable {opening closing : String} {ts front other rest behind : List Token}

/-- **Only one group** between these marks stands at the start of given tokens. -/
theorem IsGroup.unique (isCloser : closing ∈ closers) (isGroup : IsGroup opening closing front)
    (isOther : IsGroup opening closing other) (same : front ++ rest = other ++ behind) : front = other := by
  obtain ⟨first, inner, last, rfl, -, rfl, paired⟩ := isGroup
  obtain ⟨firstOther, innerOther, lastOther, rfl, -, isLast, pairedOther⟩ := isOther
  simp only [List.cons_append, List.append_assoc, List.nil_append, List.cons.injEq] at same
  obtain ⟨rfl, same⟩ := same
  obtain rfl := paired.unique pairedOther isCloser (isLast ▸ isCloser) same
  obtain ⟨rfl, -⟩ := List.cons_eq_cons.mp (List.append_cancel_left same)
  rfl

/-- The shortest group between these marks at the start of the tokens. -/
structure IsLeadingGroup (opening closing : String) (ts front : List Token) : Prop where
  isPrefix : front <+: ts
  isGroup : IsGroup opening closing front
  shortest : ∀ other, other <+: ts → IsGroup opening closing other → front.length ≤ other.length

theorem IsGroup.isLeading (isCloser : closing ∈ closers) (isGroup : IsGroup opening closing front)
    (rest : List Token) : IsLeadingGroup opening closing (front ++ rest) front where
  isPrefix := List.prefix_append front rest
  isGroup := isGroup
  shortest other := by
    rintro ⟨behind, split⟩ isOther
    exact Nat.le_of_eq (congrArg List.length (isGroup.unique isCloser isOther split.symm))

end Leading

/-! ### Outcomes -/

/-- The outcome takes the shortest group at the start of the tokens ahead, and no more than that; what it
has read has the texts of the group. It takes nothing exactly if no small group stands there; a group of fewer
tokens than the limit is small. -/
structure TakesGroup {α : Type} (opening closing : String) (flatten : α → List String) (s : State)
    (outcome : Outcome α) : Prop where
  matched_iff : (∃ value after, outcome = (.matched value, after)) ↔
    ∃ front, front <+: s.rest ∧ IsSmallGroup opening closing front
  small : ∀ front, IsGroup opening closing front → front.length < maxIterations →
    IsSmallGroup opening closing front
  consumed : ∀ value after, outcome = (.matched value, after) → ∃ front,
    IsLeadingGroup opening closing s.rest front ∧ s.rest = front ++ after.rest ∧
      after.index = s.index + front.length ∧ flatten value = textsOf front

section Outcomes

variable {α : Type} {opening closing : String} {flatten : α → List String} {s : State} {outcome : Outcome α}
  {reading : Grammar.Reading α}

/-- A reading that takes groups alone, and every group. -/
theorem takesGroup_of_shows (shows_ : Shows s outcome reading) (isCloser : closing ∈ closers)
    (sound : ∀ value rest, reading = .matched value rest →
      ∃ front, s.rest = front ++ rest ∧ IsSmallGroup opening closing front ∧ flatten value = textsOf front)
    (complete : ∀ front rest, s.rest = front ++ rest → IsSmallGroup opening closing front →
      ∃ value, reading = .matched value rest) : TakesGroup opening closing flatten s outcome where
  matched_iff := by
    constructor
    · rintro ⟨value, after, rfl⟩
      obtain ⟨front, split, isSmall, -⟩ := sound value after.rest shows_.left_eq.symm
      exact ⟨front, ⟨after.rest, split.symm⟩, isSmall⟩
    · rintro ⟨front, ⟨rest, split⟩, isSmall⟩
      obtain ⟨value, read⟩ := complete front rest split.symm isSmall
      rcases shows_.cases with ⟨value, after, same, -⟩ | ⟨_, -, absurd, -⟩ | ⟨_, _, -, absurd, -⟩
      · exact ⟨value, after, same⟩
      · rw [read] at absurd
        cases absurd
      · rw [read] at absurd
        cases absurd
  small _ isGroup few := isGroup.isSmall few
  consumed := by
    rintro value after rfl
    obtain ⟨front, split, isSmall, texts⟩ := sound value after.rest shows_.left_eq.symm
    refine ⟨front, split ▸ isSmall.isGroup.isLeading isCloser after.rest, split, ?_, texts⟩
    have total := shows_.follows.total
    rw [split, List.length_append] at total
    dsimp only at total
    omega

/-- What is read of a construct is what its tokens spell. -/
theorem spells_of_reading {sym : Symbol} {finish : Position} {bound : Nat} {ts rest : List Token}
    {value : sym.Value} (read : declarations.reading finish bound sym ts = .matched value rest) :
    ∃ front, ts = front ++ rest ∧ sym.Spells value front ∧ sym.tokens false value = textsOf front := by
  obtain ⟨front, split, spelled⟩ := Language.spellsWithin_of_reading declarations _ _ _ _ _ _ read
  have isSpelled : sym.Spells value front := ⟨bound, spelled⟩
  exact ⟨front, split, isSpelled, tokens_of_spells isSpelled⟩

/-- A construct that is spelled by small groups alone, and read wherever one stands. -/
theorem reads_group {sym : Symbol} (isCloser : closing ∈ closers)
    (grouped : ∀ value ts, sym.Spells value ts → IsSmallGroup opening closing ts)
    (complete : ∀ ts bound finish rest, IsSmallGroup opening closing ts → 2 * ts.length ≤ bound →
      ∃ value, declarations.reading finish bound sym (ts ++ rest) = .matched value rest) (s : State) :
    ∃ outcome, declarations.Reads sym s outcome ∧
      (∀ bound, 5 * (s.rest.length + 1) ≤ bound → declarations.run bound sym s = outcome) ∧
      TakesGroup opening closing (sym.tokens false) s outcome := by
  obtain ⟨outcome, reads, -, within⟩ := progresses_declarations.reads sym s
  have shows_ : Shows s outcome (declarations.reading s.finish (5 * (s.rest.length + 1)) sym s.rest) :=
    within (5 * (s.rest.length + 1)) (Nat.le_refl _) ▸ declarations.shows_run s.finish _ sym s rfl
  refine ⟨outcome, reads, within, takesGroup_of_shows shows_ isCloser (fun value rest read => ?_)
    fun front rest split isSmall => ?_⟩
  · obtain ⟨front, split, spelled, texts⟩ := spells_of_reading read
    exact ⟨front, split, grouped value front spelled, texts⟩
  · rw [split, List.length_append]
    exact complete front _ s.finish rest isSmall (by omega)

end Outcomes

/-- A block comes to one outcome, which takes the group in front. -/
theorem reads_block (s : State) : ∃ outcome, declarations.Reads .block s outcome ∧
    (∀ bound, 5 * (s.rest.length + 1) ≤ bound → declarations.run bound .block s = outcome) ∧
    TakesGroup "\x7b" "\x7d" braceTokens s outcome := by
  refine reads_group (by decide) (fun items ts spelled => ?_) (fun ts bound finish rest isSmall enough => ?_) s
  · exact isSmallGroup_of_group (entries_of_items items) spelled.rule
  · exact reading_block isSmall enough finish rest

theorem reads_tokenGroup (s : State) : ∃ outcome, declarations.Reads .tokenGroup s outcome ∧
    (∀ bound, 5 * (s.rest.length + 1) ≤ bound → declarations.run bound .tokenGroup s = outcome) ∧
    TakesGroup "(" ")" parenTokens s outcome := by
  refine reads_group (by decide) (fun items ts spelled => ?_) (fun ts bound finish rest isSmall enough => ?_) s
  · exact isSmallGroup_of_group (entries_of_items items) spelled.rule
  · exact reading_tokenGroup isSmall enough finish rest

/-- **Blocks and token groups are the small groups.** Wherever a block, or a token group, is read, it comes to
one outcome without a bound on how deep groups nest, and to the same one within every large bound. The outcome
is a success exactly if a group between these marks stands at the start of the tokens ahead, and neither it nor
a group inside of it holds more tokens and groups than can be read; this is so for every group of fewer tokens
than that. The shortest group is then taken, and what is read of it has its texts. -/
theorem reads_enclosures (s : State) :
    (∃ outcome, declarations.Reads .block s outcome ∧
      (∀ bound, 5 * (s.rest.length + 1) ≤ bound → declarations.run bound .block s = outcome) ∧
      TakesGroup "\x7b" "\x7d" braceTokens s outcome) ∧
    ∃ outcome, declarations.Reads .tokenGroup s outcome ∧
      (∀ bound, 5 * (s.rest.length + 1) ≤ bound → declarations.run bound .tokenGroup s = outcome) ∧
      TakesGroup "(" ")" parenTokens s outcome :=
  ⟨reads_block s, reads_tokenGroup s⟩

/-! ### A block that is too long -/

section Long

variable {semicolon : Token}

theorem entries_replicate (isSemicolon : semicolon.text = ";") {count amount : Nat}
    (entries : Entries count (List.replicate amount semicolon)) : count = amount := by
  induction amount generalizing count with
  | zero =>
    rw [List.replicate_zero] at entries
    cases entries with
    | nil => rfl
  | succ amount ih =>
    rw [List.replicate_succ] at entries
    generalize tokens : semicolon :: List.replicate amount semicolon = ts at entries
    cases entries with
    | nil => cases tokens
    | token _ more =>
      obtain ⟨-, rfl⟩ := List.cons_eq_cons.mp tokens
      rw [ih more]
    | group pair =>
      obtain ⟨rfl, -⟩ := List.cons_eq_cons.mp tokens
      rw [isSemicolon] at pair
      cases pair

/-- Semicolons come in pairs of marks, since they are none. -/
theorem paired_replicate (isSemicolon : semicolon.text = ";") (amount : Nat) :
    Paired (List.replicate amount semicolon) := by
  induction amount with
  | zero => exact .nil
  | succ amount ih => exact .token (isSemicolon ▸ by decide) ih

end Long

/-- Braces around as many semicolons as a rule can not be repeated. -/
def longBlock : List Token :=
  ⟨.punctuation, "\x7b", Position.start⟩ ::
    (List.replicate maxIterations ⟨.punctuation, ";", Position.start⟩ ++
      [⟨.punctuation, "\x7d", Position.start⟩])

theorem isGroup_longBlock : IsGroup "\x7b" "\x7d" longBlock :=
  ⟨_, _, _, rfl, rfl, rfl, paired_replicate rfl maxIterations⟩

/-- **A block of so many semicolons is a group, and is not read.** -/
theorem longBlock_not_read :
    IsGroup "\x7b" "\x7d" longBlock ∧
      ∃ outcome, declarations.Reads .block (State.start longBlock Position.start) outcome ∧
        ∀ value after, outcome ≠ (.matched value, after) := by
  refine ⟨isGroup_longBlock, ?_⟩
  obtain ⟨outcome, reads, -, takes⟩ := reads_block (State.start longBlock Position.start)
  refine ⟨outcome, reads, fun value after matched => ?_⟩
  obtain ⟨front, ⟨rest, split⟩, isSmall⟩ := takes.matched_iff.mp ⟨value, after, matched⟩
  -- Only the block itself is a group, and it holds as many entries as there are semicolons.
  have inFront : front ++ rest = longBlock ++ [] := split.trans (List.append_nil longBlock).symm
  obtain rfl := isSmall.isGroup.unique (by decide) isGroup_longBlock inFront
  obtain ⟨first, inner, last, count, same, -, -, entries, few⟩ := isSmall
  obtain ⟨-, inside⟩ := List.cons_eq_cons.mp same
  obtain ⟨rfl, -⟩ := List.append_inj' inside rfl
  exact absurd (entries_replicate rfl entries) (Nat.ne_of_lt few)

end Forwarder.Source
