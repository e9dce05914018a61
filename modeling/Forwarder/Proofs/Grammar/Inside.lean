/-
**Reading inside of a group.** A rule that closes no group of others is read without a look behind the mark
that closes the group around it. So a group is read the same wherever it stands.

* `Alike` — two readings with one result, that leave over the same tokens in front of different ends.
* `Rule.alike`, `Choice.alike` — a rule reads alike if its nonterminals do.
* **`Rule.alikeGroup`** — a whole group is read the same in front of everything.
* **`Language.allAlike`** — nonterminals whose productions have their marks in pairs read alike.
-/

import Forwarder.Proofs.Grammar.Groups

namespace Forwarder.Grammar

open Source

section Alike

variable {α β : Type} {close : Token} {rest other : List Token}

/-- Two readings inside of a group that ends with the mark `close`, in front of `rest` and of `other`. They
have the same result, and what they leave over is the same up to the mark. It is some of the tokens `before`
that have been ahead, and it closes the groups of the stack. -/
inductive Alike (close : Token) (rest other before : List Token) (stack : List String) :
    Reading α → Reading α → Prop
  | matched (value : α) {front : List Token} (suffix : front <:+ before)
      (closed : awaitedAfter stack front = some []) :
      Alike close rest other before stack (.matched value (front ++ close :: rest))
        (.matched value (front ++ close :: other))
  | absent : Alike close rest other before stack .absent .absent
  | failed {front : List Token} (suffix : front <:+ before) :
      Alike close rest other before stack (.failed (front ++ close :: rest))
        (.failed (front ++ close :: other))

variable {before front : List Token} {stack : List String} {reading reading' : Reading α}

theorem Alike.map (alike : Alike close rest other before stack reading reading') (f : α → β) :
    Alike close rest other before stack (reading.map f) (reading'.map f) := by
  cases alike with
  | matched value suffix closed => exact .matched (f value) suffix closed
  | absent => exact .absent
  | failed suffix => exact .failed suffix

/-- What is left over has been ahead before. -/
theorem Alike.of_suffix (alike : Alike close rest other front stack reading reading')
    (suffix : front <:+ before) : Alike close rest other before stack reading reading' := by
  cases alike with
  | matched value inner closed => exact .matched value (inner.trans suffix) closed
  | absent => exact .absent
  | failed inner => exact .failed (inner.trans suffix)

theorem tooFar_append (ts left after : List Token) : tooFar (ts ++ after) (left ++ after) = tooFar ts left := by
  rw [tooFar, tooFar, List.length_append, List.length_append, decide_eq_decide]
  omega

theorem Alike.givenUp {β : Type} {left : List Token} (suffix : left <:+ before) (value : β)
    (closed : awaitedAfter stack before = some []) :
    Alike close rest other before stack (givenUp (before ++ close :: rest) value (left ++ close :: rest))
      (givenUp (before ++ close :: other) value (left ++ close :: other)) := by
  rw [Grammar.givenUp, Grammar.givenUp, tooFar_append, tooFar_append]
  split
  · exact .failed suffix
  · exact .matched value List.suffix_rfl closed

theorem Alike.optional (alike : Alike close rest other before stack reading reading')
    (closed : awaitedAfter stack before = some []) :
    Alike close rest other before stack (reading.optional (before ++ close :: rest))
      (reading'.optional (before ++ close :: other)) := by
  cases alike with
  | matched value suffix closed => exact .matched (some value) suffix closed
  | absent => exact .matched none List.suffix_rfl closed
  | failed suffix => exact .givenUp suffix none closed

/-- Repetitions read alike if they do so each time. -/
theorem Alike.repeated {step more : List Token → Reading α} {stack : List String} {before : List Token}
    (each : ∀ front, front <:+ before → awaitedAfter stack front = some [] →
      Alike close rest other front stack (step (front ++ close :: rest)) (more (front ++ close :: other)))
    (closed : awaitedAfter stack before = some []) (limit : Nat) :
    Alike close rest other before stack (repeatedReading step limit (before ++ close :: rest))
      (repeatedReading more limit (before ++ close :: other)) := by
  induction limit generalizing before with
  | zero => exact .failed List.suffix_rfl
  | succ limit ih =>
    rw [repeatedReading, repeatedReading]
    have alike := (each before List.suffix_rfl closed).optional closed
    generalize (step (before ++ close :: rest)).optional _ = one at alike
    generalize (more (before ++ close :: other)).optional _ = two at alike
    cases alike with
    | matched value suffix closedFront =>
      cases value with
      | none => exact .matched [] suffix closedFront
      | some value =>
        exact ((ih (fun inner within => each inner (within.trans suffix)) closedFront).map _).of_suffix suffix
    | absent => exact .absent
    | failed suffix => exact .failed suffix

end Alike

/-! ### Rules -/

section Rules

variable {σ : Type} {V : σ → Type} {symbol symbol' : (s : σ) → List Token → Reading (V s)}
  {fits : TokenKind → String → Prop} {finish finish' : Position} {close : Token}
  {rest other : List Token}

/-- Nonterminals read alike inside of the group. -/
def AllAlike {σ : Type} {V : σ → Type} (fits : TokenKind → String → Prop) (close : Token)
    (rest other : List Token) (symbol symbol' : (s : σ) → List Token → Reading (V s)) : Prop :=
  ∀ s before stack, AllFit fits before → awaitedAfter stack before = some [] →
    Alike close rest other before stack (symbol s (before ++ close :: rest))
      (symbol' s (before ++ close :: other))

/-- What stands ahead inside of the group: the mark that closes it, or a token and what stands behind that
one. -/
theorem ahead_cases {stack outer next : List String} {before : List Token} {text : String}
    (isCloser : close.text ∈ closers) (known : awaited stack text = some next)
    (closed : awaitedAfter (stack ++ outer) before = some []) :
    (before = [] ∧ close.text ≠ text) ∨ ∃ token front, before = token :: front ∧
      (token.text = text → awaitedAfter (next ++ outer) front = some []) := by
  cases before with
  | nil =>
    refine .inl ⟨rfl, ?_⟩
    rintro rfl
    obtain ⟨rfl, -⟩ := List.append_eq_nil_iff.mp (Option.some.inj closed)
    rw [awaited_closer isCloser] at known
    cases known
  | cons token front =>
    refine .inr ⟨token, front, rfl, ?_⟩
    rintro rfl
    rw [awaitedAfter_cons, awaited_append known] at closed
    exact closed

/-- Behind a token that is no mark the same groups are open. -/
theorem awaitedAfter_of_plain {stack : List String} {token : Token} {front : List Token}
    (plain : token.text ∉ openers ++ closers) (closed : awaitedAfter stack (token :: front) = some []) :
    awaitedAfter stack front = some [] := by
  rw [awaitedAfter_cons, awaited_plain plain] at closed
  exact closed

/-- The place of what stands ahead inside of the group. -/
theorem placeOf_append (before : List Token) :
    placeOf finish (before ++ close :: rest) = placeOf finish' (before ++ close :: other) := by
  cases before <;> rfl

mutual

/-- **A rule reads alike** inside of a group if its nonterminals do, and if it closes no groups but its
own. -/
theorem Rule.alike (identified : ∀ text, fits .identifier text → text ∉ openers ++ closers)
    (isCloser : close.text ∈ closers) (isFit : fits close.kind close.text)
    (all : AllAlike fits close rest other symbol symbol') {α : Type} :
    ∀ (rule : Rule V α) (before : List Token) (stack next outer : List String), AllFit fits before →
      rule.awaits stack = some next → awaitedAfter (stack ++ outer) before = some [] →
      Alike close rest other before (next ++ outer) (rule.reading symbol finish (before ++ close :: rest))
        (rule.reading symbol' finish' (before ++ close :: other))
  | .word text, before, stack, next, outer, _, known, closed => by
    rw [Rule.awaits] at known
    rw [Rule.reading, Rule.reading]
    rcases ahead_cases isCloser known closed with ⟨rfl, differs⟩ | ⟨token, front, rfl, later⟩
    · have absent : (close.text == text) = false := beq_eq_false_iff_ne.mpr differs
      simp only [List.nil_append, singleReading, absent]
      exact .absent
    · simp only [List.cons_append, singleReading]
      split
      · next same => exact .matched () (List.suffix_cons token front) (later (beq_iff_eq.mp same))
      · exact .absent
  | .token kind _, before, stack, _, outer, fit, known, closed => by
    rw [Rule.awaits] at known
    split_ifs at known with isIdent
    obtain rfl := Option.some.inj known
    rw [Rule.reading, Rule.reading]
    cases before with
    | nil =>
      have absent : (close.kind == kind) = false := by
        refine beq_eq_false_iff_ne.mpr fun same => ?_
        rw [same, isIdent] at isFit
        exact identified close.text isFit (List.mem_append_right _ isCloser)
      simp only [List.nil_append, singleReading, absent]
      exact .absent
    | cons token front =>
      simp only [List.cons_append, singleReading]
      split
      · next same =>
        have isFit := fit token List.mem_cons_self
        rw [beq_iff_eq.mp same, isIdent] at isFit
        exact .matched token.text (List.suffix_cons token front)
          (awaitedAfter_of_plain (identified token.text isFit) closed)
      · exact .absent
  | .pick values text, before, stack, _, outer, _, known, closed => by
    rw [Rule.awaits] at known
    split_ifs at known with plain
    obtain rfl := Option.some.inj known
    rw [Rule.reading, Rule.reading]
    have sound {token : Token} {value : _} (found : values.find? (text · == token.text) = some value) :
        token.text ∉ openers ++ closers := by
      have same : text value = token.text := by simpa using List.find?_some found
      exact same ▸ plain value (List.mem_of_find?_eq_some found)
    cases before with
    | nil =>
      simp only [List.nil_append, pickReading]
      split
      · exact .absent
      · next found => exact absurd (List.mem_append_right _ isCloser) (sound found)
    | cons token front =>
      simp only [List.cons_append, pickReading]
      split
      · exact .absent
      · next value found =>
        exact .matched value (List.suffix_cons token front) (awaitedAfter_of_plain (sound found) closed)
  | .other stops, before, stack, _, outer, _, known, closed => by
    rw [Rule.awaits] at known
    split_ifs at known with stopped
    obtain rfl := Option.some.inj known
    rw [Rule.reading, Rule.reading]
    cases before with
    | nil =>
      have isStop : stops.contains close.text = true :=
        List.contains_iff_mem.mpr (stopped _ (List.mem_append_right _ isCloser))
      simp only [List.nil_append, otherReading, isStop, if_true]
      exact .failed (List.suffix_refl [])
    | cons token front =>
      simp only [List.cons_append, otherReading]
      split
      · exact .failed (List.suffix_refl (token :: front))
      · next free =>
        have plain : token.text ∉ openers ++ closers := fun member =>
          free (List.contains_iff_mem.mpr (stopped _ member))
        exact .matched token.text (List.suffix_cons token front) (awaitedAfter_of_plain plain closed)
  | .seq first second, before, stack, next, outer, fit, known, closed => by
    rw [Rule.awaits] at known
    obtain ⟨middle, here, later⟩ := Option.bind_eq_some_iff.mp known
    rw [Rule.reading, Rule.reading]
    have one := first.alike identified isCloser isFit all before stack middle outer fit here closed
    generalize first.reading symbol finish (before ++ close :: rest) = reading at one
    generalize first.reading symbol' finish' (before ++ close :: other) = reading' at one
    cases one with
    | @matched a front suffix closed =>
      have fit : AllFit fits front := fun token member => fit token (suffix.subset member)
      have two := second.alike identified isCloser isFit all front middle next outer fit later closed
      simp only
      generalize second.reading symbol finish (front ++ close :: rest) = reading at two
      generalize second.reading symbol' finish' (front ++ close :: other) = reading' at two
      cases two with
      | matched b inner closed => exact .matched (a, b) (inner.trans suffix) closed
      | absent => exact .failed suffix
      | failed inner => exact .failed (inner.trans suffix)
    | absent => exact .absent
    | failed suffix => exact .failed suffix
  | .choice alternatives, before, stack, _, outer, fit, known, closed => by
    rw [Rule.awaits] at known
    split_ifs at known with arePaired
    obtain rfl := Option.some.inj known
    rw [Rule.reading, Rule.reading]
    exact alternatives.alike identified isCloser isFit all false before _ fit arePaired closed
  | .opt rule, before, stack, _, outer, fit, known, closed => by
    rw [Rule.awaits] at known
    split_ifs at known with level
    obtain rfl := Option.some.inj known
    rw [Rule.reading, Rule.reading]
    exact (rule.alike identified isCloser isFit all before [] [] _ fit level closed).optional closed
  | .kept first second, before, stack, _, outer, fit, known, closed => by
    rw [Rule.awaits] at known
    split_ifs at known with level
    obtain rfl := Option.some.inj known
    obtain ⟨middle, here, later⟩ := Option.bind_eq_some_iff.mp level
    rw [Rule.reading, Rule.reading]
    have one := first.alike identified isCloser isFit all before [] middle _ fit here closed
    generalize first.reading symbol finish (before ++ close :: rest) = reading at one
    generalize first.reading symbol' finish' (before ++ close :: other) = reading' at one
    cases one with
    | @matched a front suffix closedFront =>
      have fit : AllFit fits front := fun token member => fit token (suffix.subset member)
      have two := second.alike identified isCloser isFit all front middle [] _ fit later closedFront
      simp only
      generalize second.reading symbol finish (front ++ close :: rest) = reading at two
      generalize second.reading symbol' finish' (front ++ close :: other) = reading' at two
      cases two with
      | matched b inner closed => exact .matched (some (a, some b)) (inner.trans suffix) closed
      | absent => exact .givenUp suffix none closed
      | failed inner => exact .givenUp (inner.trans suffix) (some (a, none)) closed
    | absent => exact .matched none List.suffix_rfl closed
    | failed suffix => exact .givenUp suffix none closed
  | .iterate limit rule, before, stack, _, outer, fit, known, closed => by
    rw [Rule.awaits] at known
    split_ifs at known with level
    obtain rfl := Option.some.inj known
    rw [Rule.reading, Rule.reading]
    refine .repeated (fun front suffix closed => ?_) closed limit
    exact rule.alike identified isCloser isFit all front [] [] _
      (fun token member => fit token (suffix.subset member)) level closed
  | .iterate1 limit rule, before, stack, _, outer, fit, known, closed => by
    rw [Rule.awaits] at known
    split_ifs at known with level
    obtain rfl := Option.some.inj known
    rw [Rule.reading, Rule.reading]
    have several : Alike close rest other before (stack ++ outer)
        (repeatedReading (rule.reading symbol finish) limit (before ++ close :: rest))
        (repeatedReading (rule.reading symbol' finish') limit (before ++ close :: other)) := by
      refine .repeated (fun front suffix closed => ?_) closed limit
      exact rule.alike identified isCloser isFit all front [] [] _
        (fun token member => fit token (suffix.subset member)) level closed
    generalize repeatedReading (rule.reading symbol finish) _ _ = reading at several
    generalize repeatedReading (rule.reading symbol' finish') _ _ = reading' at several
    cases several with
    | matched values suffix closed =>
      cases values with
      | nil => exact .absent
      | cons value values => exact .matched (value :: values) suffix closed
    | absent => exact .absent
    | failed suffix => exact .failed suffix
  | .call s, before, stack, _, outer, fit, known, closed => by
    rw [Rule.awaits] at known
    obtain rfl := Option.some.inj known
    exact all s before (stack ++ outer) fit closed
  | .located rule, before, stack, next, outer, fit, known, closed => by
    rw [Rule.awaits] at known
    rw [Rule.reading, Rule.reading, placeOf_append before]
    exact (rule.alike identified isCloser isFit all before stack next outer fit known closed).map _
  | .shaped shape _ rule, before, stack, next, outer, fit, known, closed => by
    rw [Rule.awaits] at known
    rw [Rule.reading, Rule.reading]
    exact (rule.alike identified isCloser isFit all before stack next outer fit known closed).map shape

/-- The same for the alternatives of a choice. -/
theorem Choice.alike (identified : ∀ text, fits .identifier text → text ∉ openers ++ closers)
    (isCloser : close.text ∈ closers) (isFit : fits close.kind close.text)
    (all : AllAlike fits close rest other symbol symbol') {α : Type} :
    ∀ (alternatives : Choice V α) (blamed : Bool) (before : List Token) (stack : List String),
      AllFit fits before → alternatives.arePaired = true → awaitedAfter stack before = some [] →
      Alike close rest other before stack
        (alternatives.reading symbol finish blamed (before ++ close :: rest))
        (alternatives.reading symbol' finish' blamed (before ++ close :: other))
  | .last rule, blamed, before, stack, fit, known, closed => by
    rw [Choice.arePaired, beq_iff_eq] at known
    rw [Choice.reading, Choice.reading]
    have one := rule.alike identified isCloser isFit all
      before [] [] stack fit known closed
    generalize rule.reading symbol finish (before ++ close :: rest) = reading at one
    generalize rule.reading symbol' finish' (before ++ close :: other) = reading' at one
    cases one with
    | matched value suffix closed => exact .matched value suffix closed
    | absent =>
      cases blamed with
      | true => exact .failed List.suffix_rfl
      | false => exact .absent
    | failed suffix =>
      simp only [tooFar_append]
      split
      · exact .failed suffix
      · exact .failed List.suffix_rfl
  | .or rule others, blamed, before, stack, fit, known, closed => by
    rw [Choice.arePaired, Bool.and_eq_true, beq_iff_eq] at known
    rw [Choice.reading, Choice.reading]
    have one := rule.alike identified isCloser isFit all
      before [] [] stack fit known.1 closed
    have more (blamed : Bool) := others.alike identified
      isCloser isFit all blamed before stack fit known.2 closed
    generalize rule.reading symbol finish (before ++ close :: rest) = reading at one
    generalize rule.reading symbol' finish' (before ++ close :: other) = reading' at one
    cases one with
    | matched value suffix closed => exact .matched (Sum.inl value) suffix closed
    | absent => exact (more blamed).map Sum.inr
    | failed suffix =>
      simp only [tooFar_append]
      split
      · exact .failed suffix
      · exact (more true).map Sum.inr

end

/-! ### Groups -/

/-- Two readings of one group in front of `rest` and of `other`. They have the same result, and if they fail
they do so in the same place behind the mark that opens the group. -/
inductive AlikeGroup (close : Token) (rest other before : List Token) {α : Type} :
    Reading α → Reading α → Prop
  | matched (value : α) : AlikeGroup close rest other before (.matched value rest) (.matched value other)
  | absent : AlikeGroup close rest other before .absent .absent
  | failed {front : List Token} (suffix : front <:+ before) :
      AlikeGroup close rest other before (.failed (front ++ close :: rest)) (.failed (front ++ close :: other))

/-- The reading of tokens with `rest` behind them. -/
def Reading.before {α : Type} (rest : List Token) : Reading α → Reading α
  | .matched value left => .matched value (left ++ rest)
  | .absent => .absent
  | .failed left => .failed (left ++ rest)

/-- A group that is read alone and in front of something. -/
theorem AlikeGroup.eq_before {α : Type} {before : List Token} {reading reading' : Reading α}
    (alike : AlikeGroup close [] rest before reading reading') : reading' = reading.before rest := by
  cases alike with
  | matched value => rfl
  | absent => rfl
  | failed suffix => rw [Reading.before, List.append_assoc, List.singleton_append]

/-- A group that is read is read to its end. -/
theorem AlikeGroup.left_eq_nil {α : Type} {before left : List Token} {value : α} {reading reading' : Reading α}
    (alike : AlikeGroup close [] rest before reading reading') (matched : reading = .matched value left) :
    left = [] := by
  cases alike with
  | matched =>
    cases matched
    rfl
  | absent => cases matched
  | failed suffix => cases matched

/-- **A whole group is read the same** in front of everything. -/
theorem Rule.alikeGroup (identified : ∀ text, fits .identifier text → text ∉ openers ++ closers)
    (isCloser : close.text ∈ closers) (isFit : fits close.kind close.text)
    (all : AllAlike fits close rest other symbol symbol') {α β : Type} {inner : Rule V α}
    (level : inner.awaits [] = some []) {mark closing : String} (closes : close.text = closing)
    {shape : Unit × α × Unit → β} {back : β → Unit × α × Unit} {opening : Token} {before : List Token}
    (fit : AllFit fits before)
    (paired : Paired before) :
    AlikeGroup close rest other before
      ((Rule.shaped shape back (.seq (.word mark) (.seq inner (.word closing)))).reading symbol finish
        (opening :: (before ++ close :: rest)))
      ((Rule.shaped shape back (.seq (.word mark) (.seq inner (.word closing)))).reading symbol' finish'
        (opening :: (before ++ close :: other))) := by
  subst closes
  simp only [Rule.reading, singleReading]
  by_cases isOpening : (opening.text == mark) = true
  · rw [if_pos isOpening, if_pos isOpening]
    have inside : Alike close rest other before ([] ++ [])
        (inner.reading symbol finish (before ++ close :: rest))
        (inner.reading symbol' finish' (before ++ close :: other)) :=
      inner.alike identified isCloser isFit all before [] [] [] fit level (paired_iff.mp paired)
    simp only
    generalize inner.reading symbol finish (before ++ close :: rest) = reading at inside
    generalize inner.reading symbol' finish' (before ++ close :: other) = reading' at inside
    cases inside with
    | @matched value front suffix closed =>
      cases front with
      | nil =>
        simp only [List.nil_append, BEq.rfl, if_true, Reading.map]
        exact .matched (shape ((), value, ()))
      | cons token front =>
        -- The groups of the stack are closed, so the next token does not close another one.
        have differs : ¬(token.text == close.text) = true := by
          rw [beq_iff_eq]
          intro same
          rw [awaitedAfter_cons, same, awaited_closer isCloser] at closed
          cases closed
        simp only [List.cons_append, if_neg differs, Reading.map]
        exact .failed suffix
    | absent => exact .failed List.suffix_rfl
    | failed suffix => exact .failed suffix
  · rw [if_neg isOpening, if_neg isOpening]
    exact .absent

end Rules

/-! ### Nonterminals -/

section Language

variable {σ : Type} {G : Language σ} {fits : TokenKind → String → Prop}
  {finish finish' : Position} {close : Token} {rest other : List Token}

/-- **Nonterminals read alike** inside of a group if their productions have their marks in pairs. -/
theorem Language.allAlike (paired : ∀ s, (G.production s).awaits [] = some [])
    (identified : ∀ text, fits .identifier text → text ∉ openers ++ closers)
    (isCloser : close.text ∈ closers) (isFit : fits close.kind close.text) (bound : Nat) :
    AllAlike fits close rest other (G.reading finish bound) (G.reading finish' bound) := by
  induction bound with
  | zero => exact fun _ _ _ _ _ => .absent
  | succ bound ih =>
    exact fun s before stack fit closed => (G.production s).alike identified isCloser isFit ih before [] []
      stack fit (paired s) closed

end Language

end Forwarder.Grammar
