/-
**Reading known tokens.** What a rule reads off tokens whose shapes are known, put together from what
its parts read.

* `Reads` — the rule reads tokens of these shapes in front of tokens of those shapes, as a value that
  satisfies a predicate.
* `Declines` — the rule is given up in front of tokens of these shapes: it is `Refused` at once, or
  gets `Stuck` after a while.
* `Reads.seq`, `Reads.opt`, `Reads.many`, … — one lemma for each kind of rule.
* `Reads.enclosed`, `Reads.bracketed`, `Reads.clause` — lists with marks around and between entries.
-/

import Forwarder.Proofs.Grammar.Prediction
import Mathlib.Data.List.Forall2

namespace Forwarder.Grammar

open Source

/-- Tokens of the shapes `front` in front of tokens of the shapes `after` are read as a value that
satisfies the predicate. -/
def Reads {α : Type} (reader : List Token → Reading α) (front after : List Shape)
    (holds : α → Prop) : Prop :=
  ∀ ts rest, ts.map Token.shape = front → rest.map Token.shape = after →
    ∃ value, holds value ∧ reader (ts ++ rest) = .matched value rest

/-- In front of tokens of these shapes nothing is read, and what was tried can be given up. -/
def Declines {α : Type} (reader : List Token → Reading α) (ahead : List Shape) : Prop :=
  ∀ ts, ts.map Token.shape = ahead → reader ts = .absent ∨
    ∃ rest, reader ts = .failed rest ∧ tooFar ts rest = false

/-- In front of tokens of these shapes no token is read. -/
def Refused {α : Type} (reader : List Token → Reading α) (ahead : List Shape) : Prop :=
  ∀ ts, ts.map Token.shape = ahead → reader ts = .absent ∨ reader ts = .failed ts

/-- The rule fails after tokens of the shapes `front`, in front of tokens of the shapes `after`. -/
def Stuck {α : Type} (reader : List Token → Reading α) (front after : List Shape) : Prop :=
  ∀ ts rest, ts.map Token.shape = front → rest.map Token.shape = after →
    reader (ts ++ rest) = .failed rest

section Readers

variable {α : Type} {reader : List Token → Reading α} {front after : List Shape}
  {holds : α → Prop}

theorem Reads.imp (reads : Reads reader front after holds) {weaker : α → Prop}
    (imp : ∀ value, holds value → weaker value) : Reads reader front after weaker := by
  intro ts rest isFront isAfter
  obtain ⟨value, good, matched⟩ := reads ts rest isFront isAfter
  exact ⟨value, imp value good, matched⟩

theorem Refused.declines {ahead : List Shape} (refused : Refused reader ahead) :
    Declines reader ahead := by
  intro ts isAhead
  rcases refused ts isAhead with absent | failed
  · exact .inl absent
  · exact .inr ⟨ts, failed, tooFar_self ts⟩

/-- A rule that got stuck can be given up while it has not read too far. -/
theorem Stuck.declines (stuck : Stuck reader front after) (near : front.length ≤ State.lookahead) :
    Declines reader (front ++ after) := by
  intro ts isAhead
  obtain ⟨before, rest, rfl, isFront, isAfter⟩ := List.map_eq_append_iff.mp isAhead
  refine .inr ⟨rest, stuck before rest isFront isAfter, ?_⟩
  rw [← isFront, List.length_map] at near
  simp only [tooFar, List.length_append, decide_eq_false_iff_not]
  omega

end Readers

/-! ### Repetition -/

section Repetition

variable {α ι : Type} {step : List Token → Reading α} {after : List Shape}

theorem repeatedReading_of_declines (declines : Declines step after) {rest : List Token}
    (isAfter : rest.map Token.shape = after) {limit : Nat} (positive : 0 < limit) :
    repeatedReading step limit rest = .matched [] rest := by
  obtain ⟨limit, rfl⟩ := Nat.exists_eq_add_one_of_ne_zero (Nat.ne_of_gt positive)
  rw [repeatedReading]
  rcases declines rest isAfter with absent | ⟨left, failed, near⟩
  · rw [absent]
    rfl
  · rw [failed]
    simp [Reading.optional, givenUp, near]

/-- **Repetition.** The readings of the items one after the other, up to where the next one is
declined. `next` holds of what may follow an item. -/
theorem Reads.repeated {shapes : ι → List Shape} {holds : ι → α → Prop} {next : List Shape → Prop}
    (items : List ι)
    (each : ∀ item ∈ items, ∀ following, next following →
      Reads step (shapes item) following (holds item))
    (begins : ∀ item ∈ items, ∀ following, next (shapes item ++ following)) (last : next after)
    (declines : Declines step after) :
    ∀ (limit : Nat) (ts rest : List Token), ts.map Token.shape = items.flatMap shapes →
      rest.map Token.shape = after → items.length < limit →
      ∃ values, List.Forall₂ holds items values ∧
        repeatedReading step limit (ts ++ rest) = .matched values rest := by
  induction items with
  | nil =>
    intro limit ts rest isFront isAfter few
    rw [List.map_eq_nil_iff.mp isFront, List.nil_append]
    exact ⟨[], .nil, repeatedReading_of_declines declines isAfter few⟩
  | cons item items ih =>
    intro limit ts rest isFront isAfter few
    rw [List.flatMap_cons] at isFront
    obtain ⟨first, others, rfl, isFirst, isOthers⟩ := List.map_eq_append_iff.mp isFront
    have followed : next (items.flatMap shapes ++ after) := by
      cases items with
      | nil => exact last
      | cons other _ =>
        rw [List.flatMap_cons, List.append_assoc]
        exact begins other (List.mem_cons_of_mem _ List.mem_cons_self) _
    have follow : (others ++ rest).map Token.shape = items.flatMap shapes ++ after := by
      rw [List.map_append, isOthers, isAfter]
    obtain ⟨value, good, matched⟩ :=
      each item List.mem_cons_self _ followed first (others ++ rest) isFirst follow
    obtain ⟨limit, rfl⟩ := Nat.exists_eq_add_one_of_ne_zero (Nat.ne_zero_of_lt few)
    obtain ⟨values, goods, rest_⟩ := ih
      (fun other member => each other (List.mem_cons_of_mem _ member))
      (fun other member => begins other (List.mem_cons_of_mem _ member))
      limit others rest isOthers isAfter (Nat.lt_of_succ_lt_succ few)
    refine ⟨value :: values, .cons good goods, ?_⟩
    rw [List.append_assoc, repeatedReading, matched]
    simp only [Reading.optional, rest_, Reading.map]

end Repetition

/-! ### Rules -/

section Rules

variable {σ : Type} {V : σ → Type} {symbol : (s : σ) → List Token → Reading (V s)}
  {finish : Position} {α β : Type} {front back after : List Shape} {kind : TokenKind}
  {holds : α → Prop} {text mark : String}

theorem Reads.word : Reads ((Rule.word text : Rule V Unit).reading symbol finish) [(kind, text)]
    after fun _ => True := by
  intro ts rest isFront _
  obtain ⟨token, rfl, isToken⟩ := List.map_eq_singleton_iff.mp isFront
  have same : token.text = text := congrArg Prod.snd isToken
  exact ⟨(), trivial, by simp [Rule.reading, singleReading, same]⟩

theorem Reads.token {label : String} :
    Reads ((Rule.token kind label : Rule V String).reading symbol finish) [(kind, text)] after
      (· = text) := by
  intro ts rest isFront _
  obtain ⟨token, rfl, isToken⟩ := List.map_eq_singleton_iff.mp isFront
  have sameKind : token.kind = kind := congrArg Prod.fst isToken
  exact ⟨token.text, congrArg Prod.snd isToken, by simp [Rule.reading, singleReading, sameKind]⟩

theorem Reads.pick {values : List α} {write : α → String} {value : α}
    (found : values.find? (write · == text) = some value) :
    Reads ((Rule.pick values write : Rule V α).reading symbol finish) [(kind, text)] after
      (· = value) := by
  intro ts rest isFront _
  obtain ⟨token, rfl, isToken⟩ := List.map_eq_singleton_iff.mp isFront
  have same : token.text = text := congrArg Prod.snd isToken
  rw [← same] at found
  exact ⟨value, rfl, by simp [Rule.reading, pickReading, found]⟩

theorem Reads.other {stops : List String} (free : text ∉ stops) :
    Reads ((Rule.other stops : Rule V String).reading symbol finish) [(kind, text)] after
      (· = text) := by
  intro ts rest isFront _
  obtain ⟨token, rfl, isToken⟩ := List.map_eq_singleton_iff.mp isFront
  have same : token.text = text := congrArg Prod.snd isToken
  exact ⟨token.text, same, by simp [Rule.reading, otherReading, same, free]⟩

theorem Reads.call {s : σ} {holds : V s → Prop} (reads : Reads (symbol s) front after holds) :
    Reads ((Rule.call s : Rule V (V s)).reading symbol finish) front after holds :=
  reads

theorem Refused.call {s : σ} (refused : Refused (symbol s) after) :
    Refused ((Rule.call s : Rule V (V s)).reading symbol finish) after :=
  refused

theorem Reads.seq {first : Rule V α} {second : Rule V β} {others : β → Prop}
    (firstReads : Reads (first.reading symbol finish) front (back ++ after) holds)
    (secondReads : Reads (second.reading symbol finish) back after others) :
    Reads ((Rule.seq first second).reading symbol finish) (front ++ back) after
      fun pair => holds pair.1 ∧ others pair.2 := by
  intro ts rest isFront isAfter
  obtain ⟨before, behind, rfl, isBefore, isBehind⟩ := List.map_eq_append_iff.mp isFront
  obtain ⟨a, goodA, matchedA⟩ := firstReads before (behind ++ rest) isBefore
    (by rw [List.map_append, isBehind, isAfter])
  obtain ⟨b, goodB, matchedB⟩ := secondReads behind rest isBehind isAfter
  refine ⟨(a, b), ⟨goodA, goodB⟩, ?_⟩
  rw [List.append_assoc, Rule.reading, matchedA]
  simp only [matchedB]

theorem Reads.shaped {rule : Rule V α} (reads : Reads (rule.reading symbol finish) front after holds)
    {shape : α → β} {back : β → α} {mapped : β → Prop}
    (imp : ∀ value, holds value → mapped (shape value)) :
    Reads ((Rule.shaped shape back rule).reading symbol finish) front after mapped := by
  intro ts rest isFront isAfter
  obtain ⟨value, good, matched⟩ := reads ts rest isFront isAfter
  exact ⟨shape value, imp value good, by simp only [Rule.reading, matched, Reading.map]⟩

theorem Reads.located {rule : Rule V α}
    (reads : Reads (rule.reading symbol finish) front after holds) :
    Reads ((Rule.located rule).reading symbol finish) front after fun pair => holds pair.2 := by
  intro ts rest isFront isAfter
  obtain ⟨value, good, matched⟩ := reads ts rest isFront isAfter
  exact ⟨(_, value), good, by simp only [Rule.reading, matched, Reading.map]; rfl⟩

theorem Reads.present {rule : Rule V α}
    (reads : Reads (rule.reading symbol finish) front after holds) :
    Reads ((Rule.opt rule).reading symbol finish) front after
      fun value => ∃ inner, value = some inner ∧ holds inner := by
  intro ts rest isFront isAfter
  obtain ⟨value, good, matched⟩ := reads ts rest isFront isAfter
  exact ⟨some value, ⟨value, rfl, good⟩, by simp only [Rule.reading, matched, Reading.optional]⟩

theorem Reads.missing {rule : Rule V α} (declines : Declines (rule.reading symbol finish) after) :
    Reads ((Rule.opt rule).reading symbol finish) [] after (· = none) := by
  intro ts rest isFront isAfter
  rw [List.map_eq_nil_iff.mp isFront, List.nil_append]
  refine ⟨none, rfl, ?_⟩
  rcases declines rest isAfter with absent | ⟨left, failed, near⟩
  · simp only [Rule.reading, absent, Reading.optional]
  · simp [Rule.reading, failed, Reading.optional, givenUp, near]

theorem Reads.kept {first : Rule V α} {second : Rule V β} {others : β → Prop}
    (firstReads : Reads (first.reading symbol finish) front (back ++ after) holds)
    (secondReads : Reads (second.reading symbol finish) back after others) :
    Reads ((Rule.kept first second).reading symbol finish) (front ++ back) after
      fun value => ∃ a b, value = some (a, some b) ∧ holds a ∧ others b := by
  intro ts rest isFront isAfter
  obtain ⟨before, behind, rfl, isBefore, isBehind⟩ := List.map_eq_append_iff.mp isFront
  obtain ⟨a, goodA, matchedA⟩ := firstReads before (behind ++ rest) isBefore
    (by rw [List.map_append, isBehind, isAfter])
  obtain ⟨b, goodB, matchedB⟩ := secondReads behind rest isBehind isAfter
  refine ⟨some (a, some b), ⟨a, b, rfl, goodA, goodB⟩, ?_⟩
  rw [List.append_assoc, Rule.reading, matchedA]
  simp only [matchedB]

theorem Reads.notKept {first : Rule V α} {second : Rule V β}
    (declines : Declines (first.reading symbol finish) after) :
    Reads ((Rule.kept first second).reading symbol finish) [] after (· = none) := by
  intro ts rest isFront isAfter
  rw [List.map_eq_nil_iff.mp isFront, List.nil_append]
  refine ⟨none, rfl, ?_⟩
  rcases declines rest isAfter with absent | ⟨left, failed, near⟩
  · simp only [Rule.reading, absent]
  · simp [Rule.reading, failed, givenUp, near]

/-- No token is read where the first of the two rules can be read and the second one is refused. -/
theorem Reads.keptAlone {first : Rule V α} {second : Rule V β}
    (firstReads : Reads (first.reading symbol finish) front after holds)
    (refused : Refused (second.reading symbol finish) after) (near : front.length ≤ State.lookahead) :
    Reads ((Rule.kept first second).reading symbol finish) [] (front ++ after)
      fun value => ∀ pair ∈ value, pair.2 = none := by
  intro ts rest isFront isAfter
  rw [List.map_eq_nil_iff.mp isFront, List.nil_append]
  obtain ⟨before, behind, rfl, isBefore, isBehind⟩ := List.map_eq_append_iff.mp isAfter
  obtain ⟨a, -, matched⟩ := firstReads before behind isBefore isBehind
  have kept {value : Option (α × Option β)} : givenUp (before ++ behind) value behind =
      .matched value (before ++ behind) := by
    rw [← isBefore, List.length_map] at near
    rw [givenUp, tooFar, List.length_append, decide_eq_false (by omega), if_neg Bool.false_ne_true]
  rcases refused behind isBehind with absent | failed
  · refine ⟨none, ?_, by simp only [Rule.reading, matched, absent, kept]⟩
    rintro _ ⟨⟩
  · refine ⟨some (a, none), ?_, by simp only [Rule.reading, matched, failed, kept]⟩
    rintro _ ⟨⟩
    rfl

/-- The readings of the items one after the other, up to where the next one is declined. -/
theorem Reads.many {ι : Type} {rule : Rule V α} {shapes : ι → List Shape}
    (next : List Shape → Prop) (entry : ι → α → Prop) (items : List ι)
    (each : ∀ item ∈ items, ∀ following, next following →
      Reads (rule.reading symbol finish) (shapes item) following (entry item))
    (begins : ∀ item ∈ items, ∀ following, next (shapes item ++ following)) (last : next after)
    (declines : Declines (rule.reading symbol finish) after) (few : items.length < maxIterations) :
    Reads ((Rule.many rule).reading symbol finish) (items.flatMap shapes) after
      (List.Forall₂ entry items) := by
  intro ts rest isFront isAfter
  exact Reads.repeated items each begins last declines maxIterations ts rest isFront isAfter few

theorem Reads.none_ {rule : Rule V α} (declines : Declines (rule.reading symbol finish) after) :
    Reads ((Rule.many rule).reading symbol finish) [] after (· = []) := by
  intro ts rest isFront isAfter
  rw [List.map_eq_nil_iff.mp isFront, List.nil_append]
  exact ⟨[], rfl, repeatedReading_of_declines declines isAfter maxIterations_pos⟩

/-! ### Choices -/

theorem Reads.choice {alternatives : Choice V α}
    (reads : Reads (alternatives.reading symbol finish false) front after holds) :
    Reads ((Rule.choice alternatives).reading symbol finish) front after holds :=
  reads

theorem Reads.last {rule : Rule V α} (reads : Reads (rule.reading symbol finish) front after holds)
    (blamed : Bool) :
    Reads ((Choice.last rule).reading symbol finish blamed) front after holds := by
  intro ts rest isFront isAfter
  obtain ⟨value, good, matched⟩ := reads ts rest isFront isAfter
  exact ⟨value, good, by simp only [Choice.reading, matched]⟩

theorem Reads.here {rule : Rule V α} {others : Choice V β}
    (reads : Reads (rule.reading symbol finish) front after holds) (blamed : Bool) :
    Reads ((Choice.or rule others).reading symbol finish blamed) front after
      fun value => ∃ inner, value = .inl inner ∧ holds inner := by
  intro ts rest isFront isAfter
  obtain ⟨value, good, matched⟩ := reads ts rest isFront isAfter
  exact ⟨.inl value, ⟨value, rfl, good⟩, by simp only [Choice.reading, matched]⟩

theorem Reads.later {rule : Rule V β} {others : Choice V α}
    (declines : Declines (rule.reading symbol finish) (front ++ after))
    (reads : ∀ blamed, Reads (others.reading symbol finish blamed) front after holds)
    (blamed : Bool) :
    Reads ((Choice.or rule others).reading symbol finish blamed) front after
      fun value => ∃ inner, value = .inr inner ∧ holds inner := by
  intro ts rest isFront isAfter
  have isAhead : (ts ++ rest).map Token.shape = front ++ after := by
    rw [List.map_append, isFront, isAfter]
  rcases declines (ts ++ rest) isAhead with absent | ⟨left, failed, near⟩
  · obtain ⟨value, good, matched⟩ := reads blamed ts rest isFront isAfter
    exact ⟨.inr value, ⟨value, rfl, good⟩, by simp only [Choice.reading, absent, matched, Reading.map]⟩
  · obtain ⟨value, good, matched⟩ := reads true ts rest isFront isAfter
    exact ⟨.inr value, ⟨value, rfl, good⟩, by simp [Choice.reading, failed, near, matched, Reading.map]⟩

/-! ### Failures -/

theorem Stuck.seq_first {first : Rule V α} {second : Rule V β}
    (reads : Reads (first.reading symbol finish) front after holds)
    (refused : Refused (second.reading symbol finish) after) :
    Stuck ((Rule.seq first second).reading symbol finish) front after := by
  intro ts rest isFront isAfter
  obtain ⟨value, -, matched⟩ := reads ts rest isFront isAfter
  rcases refused rest isAfter with absent | failed
  · simp only [Rule.reading, matched, absent]
  · simp only [Rule.reading, matched, failed]

theorem Stuck.seq_second {first : Rule V α} {second : Rule V β}
    (reads : Reads (first.reading symbol finish) front (back ++ after) holds)
    (stuck : Stuck (second.reading symbol finish) back after) :
    Stuck ((Rule.seq first second).reading symbol finish) (front ++ back) after := by
  intro ts rest isFront isAfter
  obtain ⟨before, behind, rfl, isBefore, isBehind⟩ := List.map_eq_append_iff.mp isFront
  obtain ⟨value, -, matched⟩ := reads before (behind ++ rest) isBefore
    (by rw [List.map_append, isBehind, isAfter])
  rw [List.append_assoc]
  simp only [Rule.reading, matched, stuck behind rest isBehind isAfter]

theorem Stuck.shaped {rule : Rule V α} (stuck : Stuck (rule.reading symbol finish) front after)
    {shape : α → β} {back : β → α} :
    Stuck ((Rule.shaped shape back rule).reading symbol finish) front after := by
  intro ts rest isFront isAfter
  simp only [Rule.reading, stuck ts rest isFront isAfter, Reading.map]

theorem Refused.seq {first : Rule V α} {second : Rule V β}
    (refused : Refused (first.reading symbol finish) after) :
    Refused ((Rule.seq first second).reading symbol finish) after := by
  intro ts isAfter
  rcases refused ts isAfter with absent | failed
  · exact .inl (by simp only [Rule.reading, absent])
  · exact .inr (by simp only [Rule.reading, failed])

theorem Refused.shaped {rule : Rule V α} (refused : Refused (rule.reading symbol finish) after)
    {shape : α → β} {back : β → α} :
    Refused ((Rule.shaped shape back rule).reading symbol finish) after := by
  intro ts isAfter
  rcases refused ts isAfter with absent | failed
  · exact .inl (by simp only [Rule.reading, absent, Reading.map])
  · exact .inr (by simp only [Rule.reading, failed, Reading.map])

theorem Refused.word {shape : Shape} (other : shape.2 ≠ text) :
    Refused ((Rule.word text : Rule V Unit).reading symbol finish) (shape :: after) := by
  intro ts isAhead
  cases ts with
  | nil => cases isAhead
  | cons token rest =>
    have same : token.text = shape.2 := congrArg Prod.snd (List.cons_eq_cons.mp isAhead).1
    exact .inl (by simp [Rule.reading, singleReading, same, other])

theorem Refused.token {label : String} {shape : Shape} (other : shape.1 ≠ kind) :
    Refused ((Rule.token kind label : Rule V String).reading symbol finish) (shape :: after) := by
  intro ts isAhead
  cases ts with
  | nil => cases isAhead
  | cons token rest =>
    have same : token.kind = shape.1 := congrArg Prod.fst (List.cons_eq_cons.mp isAhead).1
    exact .inl (by simp [Rule.reading, singleReading, same, other])

theorem Refused.pick {values : List α} {write : α → String} {shape : Shape}
    (none_ : values.find? (write · == shape.2) = none) :
    Refused ((Rule.pick values write : Rule V α).reading symbol finish) (shape :: after) := by
  intro ts isAhead
  cases ts with
  | nil => cases isAhead
  | cons token rest =>
    have same : token.text = shape.2 := congrArg Prod.snd (List.cons_eq_cons.mp isAhead).1
    exact .inl (by simp [Rule.reading, pickReading, same, none_])

theorem Refused.behind {shape : Shape} (other : shape.2 ≠ mark) {rule : Rule V α} :
    Refused ((rule.after mark).reading symbol finish) (shape :: after) :=
  (Refused.word other).seq.shaped

/-- What one look at the next token refuses. -/
theorem Refused.of_view {G : Language σ} {literals : List String} {bound : Nat} {glimpse : Glimpse}
    {shape : Shape} {rule : Rule G.Value α}
    (known : ∀ s, ∀ literal ∈ (G.production s).literals, literal ∈ literals)
    (own : ∀ literal ∈ rule.literals, literal ∈ literals) (fits : glimpse.Fits literals shape)
    (depth : Nat) (refused : rule.view (G.refuses glimpse depth) glimpse = .refuses) :
    Refused (rule.reading (G.reading finish bound) finish) (shape :: after) := by
  intro ts isAhead
  cases ts with
  | nil => cases isAhead
  | cons token rest =>
    rw [← (List.cons_eq_cons.mp isAhead).1] at fits
    have spec : View.Describes (token :: rest)
        (rule.reading (G.reading finish bound) finish (token :: rest))
        (rule.view (G.refuses glimpse depth) glimpse) :=
      Rule.view_spec fits (Language.refuses_spec known fits depth bound) rule own
    rwa [refused] at spec

/-! ### Lists -/

/-- The shapes of a list with a mark between two entries. -/
def separatedShapes {ι : Type} (mark : Shape) (shapes : ι → List Shape) : List ι → List Shape
  | [] => []
  | first :: others => shapes first ++ others.flatMap fun item => mark :: shapes item

/-- The shapes of a bracketed list that may be missing. -/
def bracketedShapes {ι : Type} (opening closing : Shape) (shapes : ι → List Shape) :
    List ι → List Shape
  | [] => []
  | items => opening :: separatedShapes (Shape.mark ",") shapes items ++ [closing]

/-- The shapes of a clause that may be missing. -/
def clauseShapes {ι : Type} (keyword mark : Shape) (shapes : ι → List Shape) : List ι → List Shape
  | [] => []
  | items => keyword :: separatedShapes mark shapes items

theorem Reads.behind {shape : Shape} {rule : Rule V α}
    (reads : Reads (rule.reading symbol finish) front after holds) :
    Reads ((rule.after shape.2).reading symbol finish) (shape :: front) after holds :=
  (Reads.word.seq reads).shaped fun _ both => both.2

end Rules

section Lists

variable {σ : Type} {V : σ → Type} {symbol : (s : σ) → List Token → Reading (V s)}
  {finish : Position} {α ι : Type} {after : List Shape} {rule : Rule V α}
  {shapes : ι → List Shape} {entry : ι → α → Prop} (next : List Shape → Prop) {items : List ι}

/-- No item has more tokens than all of them together. -/
theorem length_le_flatMap (shapes : ι → List Shape) {item : ι} (member : item ∈ items) :
    (shapes item).length ≤ (items.flatMap shapes).length := by
  rw [List.flatMap_def]
  exact (List.sublist_flatten_of_mem (List.mem_map_of_mem member)).length_le

theorem length_le_separatedShapes (mark : Shape) (shapes : ι → List Shape) {item : ι}
    (member : item ∈ items) :
    (shapes item).length ≤ (separatedShapes mark shapes items).length := by
  cases items with
  | nil => cases member
  | cons first others =>
    rw [separatedShapes, List.length_append]
    rcases List.mem_cons.mp member with rfl | later
    · exact Nat.le_add_right _ _
    · have within := length_le_flatMap (fun item => mark :: shapes item) later
      rw [List.length_cons] at within
      omega

/-- Every item has a token. -/
theorem count_le_flatMap (some_ : ∀ item ∈ items, shapes item ≠ []) :
    items.length ≤ (items.flatMap shapes).length := by
  induction items with
  | nil => exact Nat.zero_le _
  | cons first others ih =>
    have here := List.length_pos_iff.mpr (some_ first List.mem_cons_self)
    have behind := ih fun item member => some_ item (List.mem_cons_of_mem _ member)
    rw [List.flatMap_cons, List.length_append, List.length_cons]
    omega

/-- There are marks between the items. -/
theorem count_le_separatedShapes (mark : Shape) (shapes : ι → List Shape) (items : List ι) :
    items.length ≤ (separatedShapes mark shapes items).length + 1 := by
  cases items with
  | nil => exact Nat.zero_le _
  | cons first others =>
    have marked : others.length ≤ (others.flatMap fun item => mark :: shapes item).length :=
      count_le_flatMap fun _ _ => List.cons_ne_nil _ _
    rw [separatedShapes, List.length_append, List.length_cons]
    omega

theorem count_le_clauseShapes (keyword mark : Shape) (shapes : ι → List Shape) (items : List ι) :
    items.length ≤ (clauseShapes keyword mark shapes items).length := by
  cases items with
  | nil => exact Nat.zero_le _
  | cons first others => exact count_le_separatedShapes mark shapes (first :: others)

theorem count_le_bracketedShapes (opening closing : Shape) (shapes : ι → List Shape) (items : List ι) :
    items.length ≤ (bracketedShapes opening closing shapes items).length := by
  cases items with
  | nil => exact Nat.zero_le _
  | cons first others =>
    have count := count_le_separatedShapes (Shape.mark ",") shapes (first :: others)
    show _ ≤ (opening :: separatedShapes (Shape.mark ",") shapes _ ++ [closing]).length
    rw [List.length_append]
    exact Nat.le_add_right_of_le count

theorem separatedShapes_map {κ : Type} {mark : Shape} {shapes : ι → List Shape} {f : κ → ι}
    {others : κ → List Shape} {items : List κ} (same : ∀ item ∈ items, shapes (f item) = others item) :
    separatedShapes mark shapes (items.map f) = separatedShapes mark others items := by
  cases items with
  | nil => rfl
  | cons first items =>
    obtain ⟨one, more⟩ := List.forall_mem_cons.mp same
    rw [List.map_cons, separatedShapes, separatedShapes, one, List.flatMap_map]
    exact congrArg _ (List.flatMap_congr fun item member => congrArg (mark :: ·) (more item member))

theorem length_le_clauseShapes (keyword mark : Shape) (shapes : ι → List Shape) {item : ι}
    (member : item ∈ items) :
    (shapes item).length < (clauseShapes keyword mark shapes items).length := by
  cases items with
  | nil => cases member
  | cons first others => exact Nat.lt_succ_of_le (length_le_separatedShapes mark shapes member)

theorem length_le_bracketedShapes (opening closing : Shape) (shapes : ι → List Shape) {item : ι}
    (member : item ∈ items) :
    (shapes item).length < (bracketedShapes opening closing shapes items).length := by
  cases items with
  | nil => cases member
  | cons first others =>
    have within := length_le_separatedShapes (Shape.mark ",") shapes member
    show _ < (opening :: separatedShapes (Shape.mark ",") shapes _ ++ [closing]).length
    rw [List.length_append, List.length_cons]
    omega

/-- The entries after the first. -/
theorem Reads.more {mark : Shape} (others : List ι)
    (each : ∀ item ∈ others, ∀ following, next following →
      Reads (rule.reading symbol finish) (shapes item) following (entry item))
    (goesOn : ∀ following, next (mark :: following)) (last : next after)
    (declines : Declines ((rule.after mark.2).reading symbol finish) after)
    (few : others.length < maxIterations) :
    Reads ((Rule.many (rule.after mark.2)).reading symbol finish)
      (others.flatMap fun item => mark :: shapes item) after (List.Forall₂ entry others) :=
  Reads.many next entry others (fun item member following ends => (each item member following ends).behind)
    (fun _ _ _ => goesOn _) last declines few

/-- What follows the first entry of a list may follow any entry. -/
theorem next_more (shapes : ι → List Shape) {mark : Shape} (others : List ι)
    (goesOn : ∀ following, next (mark :: following)) (last : next after) :
    next ((others.flatMap fun item => mark :: shapes item) ++ after) := by
  cases others with
  | nil => exact last
  | cons other _ => exact goesOn _

/-- **A bracketed list** that may be empty, but not missing. -/
theorem Reads.enclosed {opening closing : Shape} (other : closing.2 ≠ ",")
    (each : ∀ item ∈ items, ∀ following, next following →
      Reads (rule.reading symbol finish) (shapes item) following (entry item))
    (goesOn : ∀ following, next (Shape.mark "," :: following))
    (closes : ∀ following, next (closing :: following))
    (refused : Refused (rule.reading symbol finish) (closing :: after))
    (few : items.length ≤ maxIterations) :
    Reads ((Rule.enclosed opening.2 closing.2 rule).reading symbol finish)
      (opening :: separatedShapes (Shape.mark ",") shapes items ++ [closing]) after
      (List.Forall₂ entry items) := by
  have closed : Reads ((Rule.word closing.2 : Rule V Unit).reading symbol finish) [closing] after
      fun _ => True := Reads.word
  have opened {more : List Shape} :
      Reads ((Rule.word opening.2 : Rule V Unit).reading symbol finish) [opening] more
        fun _ => True := Reads.word
  cases items with
  | nil =>
    refine (opened.seq ((Reads.missing refused.seq.declines).seq closed)).shaped ?_
    rintro ⟨_, _, _⟩ ⟨-, rfl, -⟩
    exact .nil
  | cons first others =>
    have firstReads := each first List.mem_cons_self _
      (next_more next shapes others goesOn (closes after))
    have moreReads := Reads.more next others (fun item member => each item (List.mem_cons_of_mem _ member))
      goesOn (closes after) (Refused.behind other).declines few
    have whole := opened.seq ((firstReads.seq moreReads).present.seq closed)
    refine whole.shaped ?_
    rintro ⟨_, _, _⟩ ⟨-, ⟨⟨a, as⟩, rfl, good, goods⟩, -⟩
    exact .cons good goods

theorem Reads.noBrackets {opening closing : String}
    (refused : Refused ((Rule.word opening : Rule V Unit).reading symbol finish) after) :
    Reads ((Rule.bracketed opening closing rule).reading symbol finish) [] after (· = []) := by
  refine (Reads.missing refused.seq.declines).shaped ?_
  rintro _ rfl
  rfl

theorem Reads.noClause {keyword mark : String}
    (refused : Refused ((Rule.word keyword : Rule V Unit).reading symbol finish) after) :
    Reads ((Rule.clause keyword mark rule).reading symbol finish) [] after (· = []) := by
  refine (Reads.missing refused.seq.declines).shaped ?_
  rintro _ rfl
  rfl

/-- A bracketed list that may be missing. -/
theorem Reads.bracketed {opening closing : Shape} (other : closing.2 ≠ ",")
    (each : ∀ item ∈ items, ∀ following, next following →
      Reads (rule.reading symbol finish) (shapes item) following (entry item))
    (goesOn : ∀ following, next (Shape.mark "," :: following))
    (closes : ∀ following, next (closing :: following))
    (refused : Refused ((Rule.word opening.2 : Rule V Unit).reading symbol finish) after)
    (few : items.length ≤ maxIterations) :
    Reads ((Rule.bracketed opening.2 closing.2 rule).reading symbol finish)
      (bracketedShapes opening closing shapes items) after (List.Forall₂ entry items) := by
  cases items with
  | nil => exact (Reads.noBrackets refused).imp fun _ none_ => none_ ▸ .nil
  | cons first others =>
    have closed : Reads ((Rule.word closing.2 : Rule V Unit).reading symbol finish) [closing] after
        fun _ => True := Reads.word
    have opened {more : List Shape} :
        Reads ((Rule.word opening.2 : Rule V Unit).reading symbol finish) [opening] more
          fun _ => True := Reads.word
    have firstReads := each first List.mem_cons_self
      (((others.flatMap fun item => Shape.mark "," :: shapes item) ++ [closing]) ++ after)
      (by rw [List.append_assoc]; exact next_more next shapes others goesOn (closes after))
    have moreReads := Reads.more next others (fun item member => each item (List.mem_cons_of_mem _ member))
      goesOn (closes after) (Refused.behind other).declines few
    have front : bracketedShapes opening closing shapes (first :: others) =
        [opening] ++ (shapes first ++
          ((others.flatMap fun item => Shape.mark "," :: shapes item) ++ [closing])) := by
      simp [bracketedShapes, separatedShapes]
    rw [front]
    refine (opened.seq (firstReads.seq (moreReads.seq closed))).present.shaped ?_
    rintro _ ⟨⟨_, a, as, _⟩, rfl, -, good, goods, -⟩
    exact .cons good goods

/-- A clause that may be missing. -/
theorem Reads.clause {keyword mark : Shape}
    (each : ∀ item ∈ items, ∀ following, next following →
      Reads (rule.reading symbol finish) (shapes item) following (entry item))
    (goesOn : ∀ following, next (mark :: following)) (last : next after)
    (refused : Refused ((Rule.word keyword.2 : Rule V Unit).reading symbol finish) after)
    (stops : Refused ((rule.after mark.2).reading symbol finish) after)
    (few : items.length ≤ maxIterations) :
    Reads ((Rule.clause keyword.2 mark.2 rule).reading symbol finish)
      (clauseShapes keyword mark shapes items) after (List.Forall₂ entry items) := by
  cases items with
  | nil => exact (Reads.noClause refused).imp fun _ none_ => none_ ▸ .nil
  | cons first others =>
    have keyed {more : List Shape} :
        Reads ((Rule.word keyword.2 : Rule V Unit).reading symbol finish) [keyword] more
          fun _ => True := Reads.word
    have firstReads := each first List.mem_cons_self _
      (next_more next shapes others goesOn last)
    have moreReads := Reads.more next others (fun item member => each item (List.mem_cons_of_mem _ member))
      goesOn last stops.declines few
    refine (keyed.seq (firstReads.seq moreReads)).present.shaped ?_
    rintro _ ⟨⟨_, a, as⟩, rfl, -, good, goods⟩
    exact .cons good goods

end Lists

end Forwarder.Grammar
