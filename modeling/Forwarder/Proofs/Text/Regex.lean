/-
**Regular expressions** as a matcher that backtracks reads them. From a place in a text a pattern can
go on to several others; they are tried in an order of preference, and the first one from which everything else
can be matched counts, whether or not another one covers more of the text.

* `Zipper`, `Regex` — a place in a text, and the expressions.
* `Regex.ends` — the places that a pattern can go on to, in order of preference.
* `ends_many` — a repetition, one turn after the other, without a bound on its turns.
* **`ends_spans`** — what a pattern covers stands between the two places.
* `Regex.isSolid` — it is one character or more.
* `Covers` — a pattern whose first choice covers so many characters, with a rule for each form of pattern.
-/

import Forwarder.Text.Blank
import Mathlib.Data.List.Basic
import Mathlib.Tactic.SplitIfs

namespace Forwarder.Text

/-! ### Places -/

/-- A place in a text: the characters behind it, the last one first, and those ahead. -/
structure Zipper where
  behind : List Char
  ahead : List Char

namespace Zipper

/-- The place so many characters further on. -/
def advance (here : Zipper) (n : Nat) : Zipper :=
  ⟨(here.ahead.take n).reverse ++ here.behind, here.ahead.drop n⟩

@[simp] theorem ahead_advance (here : Zipper) (n : Nat) : (here.advance n).ahead = here.ahead.drop n :=
  rfl

@[simp] theorem advance_zero (here : Zipper) : here.advance 0 = here :=
  rfl

@[simp] theorem advance_advance (here : Zipper) (n m : Nat) :
    (here.advance n).advance m = here.advance (n + m) := by
  simp [advance, List.take_add]

/-- The text stands between the two places. -/
structure Spans (here next : Zipper) (text : List Char) : Prop where
  ahead : here.ahead = text ++ next.ahead
  behind : next.behind = text.reverse ++ here.behind

variable {here middle next : Zipper} {front back : List Char}

theorem Spans.refl (here : Zipper) : here.Spans here [] :=
  ⟨rfl, rfl⟩

theorem Spans.trans (first : here.Spans middle front) (second : middle.Spans next back) :
    here.Spans next (front ++ back) where
  ahead := by rw [first.ahead, second.ahead, List.append_assoc]
  behind := by rw [second.behind, first.behind, List.reverse_append, List.append_assoc]

theorem spans_advance (here : Zipper) (n : Nat) : here.Spans (here.advance n) (here.ahead.take n) :=
  ⟨(List.take_append_drop n _).symm, rfl⟩

end Zipper

/-! ### Patterns -/

/-- Regular expressions. -/
inductive Regex
  /-- One character that passes the test. -/
  | one (test : Char → Bool)
  /-- The characters of the text. -/
  | text (word : List Char)
  /-- No character, but a word character on one side only. -/
  | boundary
  /-- One after the other. -/
  | seq (first second : Regex)
  /-- One of the two, the first one by preference. -/
  | alt (first second : Regex)
  /-- Any number of times, as often as possible by preference, or as seldom. -/
  | many (greedy : Bool) (inner : Regex)

/-- The places from which a repetition goes on: from here, or after further turns. -/
def arrange (greedy : Bool) (here : Zipper) (further : List Zipper) : List Zipper :=
  if greedy then further ++ [here] else here :: further

/-- The places after any number of turns, of which `bound` suffice if every turn covers something. -/
def repeated (greedy : Bool) (step : Zipper → List Zipper) : Nat → Zipper → List Zipper
  | 0, here => [here]
  | bound + 1, here =>
    arrange greedy here (((step here).filter fun next => next.ahead.length < here.ahead.length).flatMap
      (repeated greedy step bound))

namespace Regex

/-- The places that a pattern can go on to, in order of preference. -/
def ends : Regex → Zipper → List Zipper
  | one test, here => if here.ahead.head?.any test then [here.advance 1] else []
  | text word, here => if word.isPrefixOf here.ahead then [here.advance word.length] else []
  | boundary, here =>
    if here.behind.head?.any isWordChar = here.ahead.head?.any isWordChar then [] else [here]
  | seq first second, here => (first.ends here).flatMap second.ends
  | alt first second, here => first.ends here ++ second.ends here
  | many greedy inner, here => repeated greedy inner.ends here.ahead.length here

/-- Any number of times, as often as possible. -/
def star (inner : Regex) : Regex :=
  many true inner

/-- Any number of times, as seldom as possible. -/
def lazily (inner : Regex) : Regex :=
  many false inner

/-- Once or more, as often as possible. -/
def plus (inner : Regex) : Regex :=
  seq inner (star inner)

/-- Once if possible. -/
def opt (inner : Regex) : Regex :=
  alt inner (text [])

/-- The first choice of a pattern. -/
def first? (p : Regex) (here : Zipper) : Option Zipper :=
  (p.ends here).head?

/-- What the first choice of a pattern covers at the start of a text, and what it leaves. -/
def matched? (p : Regex) (cs : List Char) : Option (List Char × List Char) :=
  (p.first? ⟨[], cs⟩).map fun next => (next.behind.reverse, next.ahead)

/-- The pattern covers one character or more. -/
def isSolid : Regex → Bool
  | one _ => true
  | text word => !word.isEmpty
  | boundary => false
  | seq first second => first.isSolid || second.isSolid
  | alt first second => first.isSolid && second.isSolid
  | many _ _ => false

end Regex

/-! ### Repetitions -/

section Repetition

variable {greedy : Bool} {step : Zipper → List Zipper} {here : Zipper}

theorem repeated_of_end (isEnd : here.ahead = []) (bound : Nat) :
    repeated greedy step bound here = [here] := by
  cases bound with
  | zero => rfl
  | succ bound => cases greedy <;> simp [repeated, arrange, isEnd]

/-- More turns than there are characters make no difference. -/
theorem repeated_enough {bound more : Nat} (enough : here.ahead.length ≤ bound)
    (enough' : here.ahead.length ≤ more) :
    repeated greedy step bound here = repeated greedy step more here := by
  induction bound generalizing here more with
  | zero =>
    have isEnd := List.eq_nil_of_length_eq_zero (Nat.eq_zero_of_le_zero enough)
    rw [repeated_of_end isEnd, repeated_of_end isEnd]
  | succ bound ih =>
    cases more with
    | zero =>
      have isEnd := List.eq_nil_of_length_eq_zero (Nat.eq_zero_of_le_zero enough')
      rw [repeated_of_end isEnd, repeated_of_end isEnd]
    | succ more =>
      rw [repeated, repeated]
      refine congrArg (arrange greedy here) (List.flatMap_congr fun next member => ?_)
      have shorter : next.ahead.length < here.ahead.length := by
        simpa using (List.mem_filter.mp member).2
      exact ih (by omega) (by omega)

/-- **A repetition** ends here, or goes on after a turn that covers something. -/
theorem ends_many (greedy : Bool) (p : Regex) (here : Zipper) : (Regex.many greedy p).ends here =
    arrange greedy here (((p.ends here).filter fun next => next.ahead.length < here.ahead.length).flatMap
      (Regex.many greedy p).ends) := by
  have enough : here.ahead.length ≤ here.ahead.length + 1 := Nat.le_succ _
  rw [Regex.ends, repeated_enough (Nat.le_refl _) enough, repeated]
  refine congrArg (arrange greedy here) (List.flatMap_congr fun next member => ?_)
  have shorter : next.ahead.length < here.ahead.length := by
    simpa using (List.mem_filter.mp member).2
  exact repeated_enough (Nat.le_of_lt shorter) (Nat.le_refl _)

theorem mem_arrange {next : Zipper} {further : List Zipper} :
    next ∈ arrange greedy here further ↔ next = here ∨ next ∈ further := by
  cases greedy <;> simp [arrange, or_comm]

theorem exists_of_mem_repeated {bound : Nat} {next : Zipper}
    (spans : ∀ place other, other ∈ step place → ∃ text, place.Spans other text)
    (member : next ∈ repeated greedy step bound here) : ∃ text, here.Spans next text := by
  induction bound generalizing here with
  | zero =>
    obtain rfl := List.mem_singleton.mp member
    exact ⟨[], .refl _⟩
  | succ bound ih =>
    rw [repeated, mem_arrange] at member
    rcases member with rfl | further
    · exact ⟨[], .refl _⟩
    · obtain ⟨middle, turn, later⟩ := List.mem_flatMap.mp further
      obtain ⟨front, first⟩ := spans _ _ (List.mem_filter.mp turn).1
      obtain ⟨back, second⟩ := ih later
      exact ⟨front ++ back, first.trans second⟩

end Repetition

/-! ### What patterns cover -/

/-- **A pattern covers** what stands between the place from which it goes on and the one it goes on to. -/
theorem ends_spans (p : Regex) {here next : Zipper} (member : next ∈ p.ends here) :
    ∃ text, here.Spans next text ∧ (p.isSolid = true → text ≠ []) := by
  induction p generalizing here next with
  | one test =>
    rw [Regex.ends] at member
    split_ifs at member with passes
    · obtain rfl := List.mem_singleton.mp member
      refine ⟨_, here.spans_advance 1, fun _ none_ => ?_⟩
      rcases List.take_eq_nil_iff.mp none_ with absurd | isEnd
      · cases absurd
      · rw [isEnd] at passes
        cases passes
    · cases member
  | text word =>
    rw [Regex.ends] at member
    split_ifs at member with isPrefix
    · obtain rfl := List.mem_singleton.mp member
      refine ⟨_, here.spans_advance word.length, fun solid => ?_⟩
      rw [← List.prefix_iff_eq_take.mp (List.isPrefixOf_iff_prefix.mp isPrefix)]
      rintro rfl
      cases solid
    · cases member
  | boundary =>
    rw [Regex.ends] at member
    split_ifs at member
    · cases member
    · obtain rfl := List.mem_singleton.mp member
      exact ⟨[], .refl _, nofun⟩
  | seq first second ih ih' =>
    obtain ⟨middle, one, two⟩ := List.mem_flatMap.mp member
    obtain ⟨front, spans, solid⟩ := ih one
    obtain ⟨back, spans', solid'⟩ := ih' two
    refine ⟨front ++ back, spans.trans spans', fun isSolid none_ => ?_⟩
    obtain ⟨noFront, noBack⟩ := List.append_eq_nil_iff.mp none_
    rcases Bool.or_eq_true_iff.mp isSolid with isFirst | isSecond
    · exact solid isFirst noFront
    · exact solid' isSecond noBack
  | alt first second ih ih' =>
    rcases List.mem_append.mp member with one | two
    · obtain ⟨text, spans, solid⟩ := ih one
      exact ⟨text, spans, fun isSolid => solid (Bool.and_eq_true_iff.mp isSolid).1⟩
    · obtain ⟨text, spans, solid⟩ := ih' two
      exact ⟨text, spans, fun isSolid => solid (Bool.and_eq_true_iff.mp isSolid).2⟩
  | many greedy inner ih =>
    obtain ⟨text, spans⟩ := exists_of_mem_repeated
      (fun place other turn => (ih turn).imp fun _ found => found.1) member
    exact ⟨text, spans, nofun⟩

/-- What is matched stands at the start of the text. -/
theorem split_of_matched? {p : Regex} {cs front back : List Char}
    (matched : p.matched? cs = some (front, back)) : cs = front ++ back ∧ (p.isSolid = true → front ≠ []) := by
  obtain ⟨next, first, same⟩ := Option.map_eq_some_iff.mp matched
  obtain ⟨text, spans, solid⟩ := ends_spans p (List.mem_of_head? first)
  have isFront : front = text := by
    rw [← (Prod.mk.inj same).1, spans.behind, List.append_nil, List.reverse_reverse]
  rw [isFront, ← (Prod.mk.inj same).2]
  exact ⟨spans.ahead, solid⟩

/-! ### First choices -/

/-- The first choice of the pattern covers so many characters, which depends on what stands ahead alone. -/
def Covers (p : Regex) (extent : List Char → Option Nat) : Prop :=
  ∀ here : Zipper, p.first? here = (extent here.ahead).map here.advance

/-- The pattern has no other choice than that. -/
def Single (p : Regex) (extent : List Char → Option Nat) : Prop :=
  ∀ here : Zipper, p.ends here = ((extent here.ahead).map here.advance).toList

section Covers

variable {p q : Regex} {extent extent' : List Char → Option Nat} {length : List Char → Nat}
  {test : Char → Bool} {here : Zipper}

theorem Covers.of_eq (covers : Covers p extent) (same : ∀ cs, extent cs = extent' cs) : Covers p extent' :=
  fun here => same here.ahead ▸ covers here

/-- What is matched at the start of a text, by the number of its characters. -/
theorem Covers.matched? (covers : Covers p extent) (cs : List Char) :
    p.matched? cs = (extent cs).map fun n => (cs.take n, cs.drop n) := by
  rw [Regex.matched?, covers, Option.map_map]
  refine congrArg (Option.map · (extent cs)) (funext fun n => ?_)
  simp [Zipper.advance]

theorem Single.covers (single : Single p extent) : Covers p extent := by
  intro here
  rw [Regex.first?, single here]
  cases extent here.ahead <;> rfl

theorem single_one : Single (.one test) fun cs => if cs.head?.any test then some 1 else none := by
  intro here
  dsimp only [Regex.ends]
  split_ifs <;> rfl

theorem single_text {word : List Char} :
    Single (.text word) fun cs => if word.isPrefixOf cs then some word.length else none := by
  intro here
  dsimp only [Regex.ends]
  split_ifs <;> rfl

theorem first?_seq (p q : Regex) (here : Zipper) :
    (Regex.seq p q).first? here = (p.ends here).findSome? q.first? :=
  List.head?_flatMap

/-- A pattern without another choice is followed by the first choice of the next one. -/
theorem Single.seq (first : Single p extent) (second : Covers q extent') :
    Covers (.seq p q) fun cs => (extent cs).bind fun n => (extent' (cs.drop n)).map (n + ·) := by
  intro here
  rw [first?_seq, first here]
  dsimp only
  cases extent here.ahead with
  | none => rfl
  | some n =>
    rw [Option.map_some, Option.toList_some, List.findSome?_singleton, second, Option.bind_some,
      Option.map_map, Zipper.ahead_advance]
    refine congrArg (Option.map · _) (funext fun m => ?_)
    exact here.advance_advance n m

/-- A pattern that never fails goes on from the first choice. -/
theorem Covers.before (first : Covers p extent) (second : Covers q fun cs => some (length cs)) :
    Covers (.seq p q) fun cs => (extent cs).map fun n => n + length (cs.drop n) := by
  intro here
  have choice := first here
  rw [Regex.first?] at choice
  rw [first?_seq]
  cases choices : p.ends here with
  | nil =>
    rw [choices, List.head?_nil, eq_comm, Option.map_eq_none_iff] at choice
    simp [choice]
  | cons next others =>
    rw [choices, List.head?_cons, eq_comm, Option.map_eq_some_iff] at choice
    obtain ⟨n, covered, rfl⟩ := choice
    rw [List.findSome?_cons, second]
    simp [covered]

theorem Covers.seq_assoc {r : Regex} (covers : Covers (.seq p (.seq q r)) extent) :
    Covers (.seq (.seq p q) r) extent := by
  intro here
  rw [← covers here, Regex.first?, Regex.first?]
  exact congrArg List.head? List.flatMap_assoc

theorem Covers.alt (first : Covers p extent) (second : Covers q extent') :
    Covers (.alt p q) fun cs => (extent cs).or (extent' cs) := by
  intro here
  have choices : (Regex.alt p q).first? here = (p.first? here).or (q.first? here) := List.head?_append
  rw [choices, first, second]
  dsimp only
  cases extent here.ahead <;> rfl

theorem Covers.opt (covers : Covers p extent) : Covers p.opt fun cs => some ((extent cs).getD 0) := by
  refine (covers.alt single_text.covers).of_eq fun cs => ?_
  cases extent cs <;> rfl

/-- Two patterns that never fail. -/
theorem Covers.both {length' : List Char → Nat} (first : Covers p fun cs => some (length cs))
    (second : Covers q fun cs => some (length' cs)) :
    Covers (.seq p q) fun cs => some (length cs + length' (cs.drop (length cs))) :=
  first.before second

/-- What stands behind a word, for a function that covers something behind this word alone. -/
theorem Covers.led {word : List Char} (covers : Covers q extent)
    (there : ∀ rest, extent' (word ++ rest) = (extent rest).map (· + word.length))
    (elsewhere : ∀ cs, ¬word <+: cs → extent' cs = none) : Covers (.seq (.text word) q) extent' := by
  refine (single_text.seq covers).of_eq fun cs => ?_
  by_cases isPrefix : word <+: cs
  · obtain ⟨rest, rfl⟩ := isPrefix
    simp [there, Nat.add_comm]
  · rw [elsewhere cs isPrefix, if_neg (by simpa using isPrefix)]
    rfl

/-- A pattern that may be left out, in front of one that fails where it is left out though it need not be. -/
theorem Single.opt_seq (first : Single p extent) (second : Covers q extent')
    (needed : ∀ cs n, extent cs = some n → extent' cs = none) :
    Covers (.seq p.opt q) fun cs =>
      (extent' (cs.drop ((extent cs).getD 0))).map (((extent cs).getD 0) + ·) := by
  intro here
  have empty : (Regex.text []).ends here = [here] := rfl
  rw [first?_seq, Regex.opt, Regex.ends, first here, empty]
  dsimp only
  cases covered : extent here.ahead with
  | none =>
    rw [Option.map_none, Option.toList_none, List.nil_append, List.findSome?_singleton, second]
    simp
  | some n =>
    have skipped : q.first? here = none := by rw [second, needed _ n covered, Option.map_none]
    rw [Option.map_some, Option.toList_some, List.singleton_append, List.findSome?_cons,
      List.findSome?_singleton, skipped, second, Option.getD_some, Option.map_map, Zipper.ahead_advance]
    cases extent' (here.ahead.drop n) with
    | none => rfl
    | some m => exact congrArg some (here.advance_advance n m)

/-- A word in front of a character that does not continue it. -/
theorem covers_bounded {word : List Char} (ends : word.reverse.head?.any isWordChar = true) :
    Covers (.seq (.text word) .boundary) fun cs =>
      if word.isPrefixOf cs && !(cs.drop word.length).head?.any isWordChar then some word.length else none := by
  intro here
  rw [first?_seq, single_text]
  dsimp only
  cases isPrefix : word.isPrefixOf here.ahead with
  | false => rfl
  | true =>
    have taken := List.prefix_iff_eq_take.mp (List.isPrefixOf_iff_prefix.mp isPrefix)
    have behind : (here.advance word.length).behind.head?.any isWordChar = true := by
      rw [Zipper.advance, ← taken, List.head?_append]
      cases last : word.reverse.head? with
      | none =>
        rw [last] at ends
        cases ends
      | some c => rwa [last] at ends
    rw [if_pos rfl, Option.map_some, Option.toList_some, List.findSome?_singleton, Regex.first?,
      Regex.ends, behind, Zipper.ahead_advance]
    cases (here.ahead.drop word.length).head?.any isWordChar <;> rfl

/-! ### First choices of repetitions -/

/-- A turn covers something. -/
theorem filter_of_single (single : Single p extent)
    (shrinks : ∀ cs n, extent cs = some n → (cs.drop n).length < cs.length) (here : Zipper) :
    (p.ends here).filter (fun next => next.ahead.length < here.ahead.length) =
      ((extent here.ahead).map here.advance).toList := by
  rw [single here]
  cases covered : extent here.ahead with
  | none => rfl
  | some n => exact List.filter_eq_self.mpr (by simpa using shrinks _ n covered)

/-- A repetition that goes on as seldom as possible: what is behind it first, and then another turn. -/
theorem Single.first?_lazily_seq (single : Single p extent)
    (shrinks : ∀ cs n, extent cs = some n → (cs.drop n).length < cs.length) (q : Regex) (here : Zipper) :
    (Regex.seq p.lazily q).first? here = (q.first? here).or
      ((extent here.ahead).bind fun n => (Regex.seq p.lazily q).first? (here.advance n)) := by
  rw [Regex.first?, Regex.ends, Regex.lazily, ends_many, filter_of_single single shrinks, arrange,
    if_neg Bool.false_ne_true, List.flatMap_cons, List.head?_append]
  cases extent here.ahead with
  | none => rfl
  | some n =>
    rw [Option.map_some, Option.toList_some, List.flatMap_singleton]
    rfl

/-- A repetition that goes on as often as possible: another turn first, and then what is behind it. -/
theorem Single.first?_star_seq (single : Single p extent)
    (shrinks : ∀ cs n, extent cs = some n → (cs.drop n).length < cs.length) (q : Regex) (here : Zipper) :
    (Regex.seq p.star q).first? here =
      ((extent here.ahead).bind fun n => (Regex.seq p.star q).first? (here.advance n)).or
        (q.first? here) := by
  rw [Regex.first?, Regex.ends, Regex.star, ends_many, filter_of_single single shrinks, arrange,
    if_pos rfl, List.flatMap_append, List.head?_append, List.flatMap_singleton]
  cases extent here.ahead with
  | none => rfl
  | some n =>
    rw [Option.map_some, Option.toList_some, List.flatMap_singleton]
    rfl

section Turns

variable (total : List Char → Option Nat)

/-- What is covered after a turn, counted from the place in front of it. -/
theorem bind_advance {first : Zipper → Option Zipper} (later : ∀ n, extent here.ahead = some n →
      first (here.advance n) = (total (here.ahead.drop n)).map (here.advance n).advance) :
    ((extent here.ahead).bind fun n => first (here.advance n)) =
      ((extent here.ahead).bind fun n => (total (here.ahead.drop n)).map (n + ·)).map here.advance := by
  cases covered : extent here.ahead with
  | none => rfl
  | some n =>
    rw [Option.bind_some, Option.bind_some, later n covered, Option.map_map]
    exact congrArg (Option.map · _) (funext (here.advance_advance n))

variable {total}

/-- **As seldom as possible:** a function that covers what is behind the repetition, or else goes on behind
one turn. -/
theorem Single.lazily_seq (single : Single p extent)
    (shrinks : ∀ cs n, extent cs = some n → (cs.drop n).length < cs.length) (second : Covers q extent')
    (turn : ∀ cs, total cs = (extent' cs).or ((extent cs).bind fun n => (total (cs.drop n)).map (n + ·))) :
    Covers (.seq p.lazily q) total := by
  intro here
  induction size : here.ahead.length using Nat.strongRecOn generalizing here with
  | _ size ih =>
    subst size
    have later := bind_advance total fun n covered =>
      ih _ (shrinks here.ahead n covered) (here.advance n) rfl
    rw [single.first?_lazily_seq shrinks, second, later, turn here.ahead, Option.map_or]

/-- **As often as possible:** a function that goes on behind one turn, or else covers what is behind the
repetition. -/
theorem Single.star_seq (single : Single p extent)
    (shrinks : ∀ cs n, extent cs = some n → (cs.drop n).length < cs.length) (second : Covers q extent')
    (turn : ∀ cs, total cs = ((extent cs).bind fun n => (total (cs.drop n)).map (n + ·)).or (extent' cs)) :
    Covers (.seq p.star q) total := by
  intro here
  induction size : here.ahead.length using Nat.strongRecOn generalizing here with
  | _ size ih =>
    subst size
    have later := bind_advance total fun n covered =>
      ih _ (shrinks here.ahead n covered) (here.advance n) rfl
    rw [single.first?_star_seq shrinks, second, later, turn here.ahead, Option.map_or]

end Turns

/-- One character leaves fewer. -/
theorem shrinks_one (cs : List Char) (n : Nat)
    (covered : (if cs.head?.any test then some 1 else none) = some n) : (cs.drop n).length < cs.length := by
  split_ifs at covered with passes
  cases covered
  cases cs with
  | nil => cases passes
  | cons c cs => simp

/-- A repetition of single characters covers all that pass the test. -/
theorem covers_star : Covers (.star (.one test)) fun cs => some (cs.takeWhile test).length := by
  rintro ⟨behind, ahead⟩
  induction ahead generalizing behind with
  | nil => rfl
  | cons c cs ih =>
    rw [Regex.first?, Regex.star, ends_many, filter_of_single single_one shrinks_one, arrange, if_pos rfl]
    by_cases passes : test c = true
    · have later := ih (c :: behind)
      rw [Regex.first?, Regex.star] at later
      simp [passes, Zipper.advance, later]
    · simp [passes]

theorem covers_plus : Covers (.plus (.one test)) fun cs =>
    if (cs.takeWhile test).length = 0 then none else some (cs.takeWhile test).length := by
  refine (single_one.covers.before covers_star).of_eq fun cs => ?_
  cases cs with
  | nil => rfl
  | cons c cs => cases passes : test c <;> simp [passes, Nat.add_comm]

end Covers

end Forwarder.Text
