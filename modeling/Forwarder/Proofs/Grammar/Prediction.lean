/-
**What the next token decides.** Many rules can be told not to stand here by looking at one token:
they are refused without reading anything, and a rule that may be missing is then skipped.

* `Glimpse` — what is known of the next token: its shape, or that it is a word and no literal.
* `Rule.literals` — the texts that a rule asks for.
* `Rule.view` — whether a rule is refused or skipped, seen from the next token.
* **`Rule.view_spec`** — a view is what happens.
* `Language.refuses_spec` — the same for nonterminals, whatever the bound on their nesting.
-/

import Forwarder.Proofs.Grammar.Reading
import Forwarder.Proofs.Source.Lexing

namespace Forwarder.Grammar

open Source

/-! ### Literals -/

mutual

/-- The texts that a rule asks for. -/
def Rule.literals {σ : Type} {V : σ → Type} {α : Type} : Rule V α → List String
  | .word text => [text]
  | .token _ _ => []
  | .pick values text => values.map text
  | .other _ => []
  | .seq first second => first.literals ++ second.literals
  | .choice alternatives => alternatives.literals
  | .opt rule => rule.literals
  | .kept first second => first.literals ++ second.literals
  | .iterate _ rule => rule.literals
  | .iterate1 _ rule => rule.literals
  | .call _ => []
  | .located rule => rule.literals
  | .shaped _ _ rule => rule.literals

/-- The texts that the alternatives ask for. -/
def Choice.literals {σ : Type} {V : σ → Type} {α : Type} : Choice V α → List String
  | .last rule => rule.literals
  | .or rule others => rule.literals ++ others.literals

end

/-! ### Views -/

/-- What is known of the next token. -/
inductive Glimpse
  /-- The shape of the token. -/
  | exactly (shape : Shape)
  /-- The token is an identifier and none of the literals. -/
  | plainWord
deriving DecidableEq

namespace Glimpse

/-- The kind of the token. -/
def kind : Glimpse → TokenKind
  | exactly shape => shape.1
  | plainWord => .identifier

/-- The token may have this text. -/
def mayBe (text : String) : Glimpse → Bool
  | exactly shape => shape.2 == text
  | plainWord => false

/-- The glimpse is one of a token of this shape. -/
def Fits (literals : List String) (shape : Shape) : Glimpse → Prop
  | exactly seen => shape = seen
  | plainWord => shape.1 = .identifier ∧ shape.2 ∉ literals

variable {literals : List String} {shape : Shape} {glimpse : Glimpse}

theorem fits_exactly : (exactly shape).Fits literals shape :=
  rfl

theorem Fits.kind_eq (fits : glimpse.Fits literals shape) : shape.1 = glimpse.kind := by
  cases glimpse with
  | exactly seen =>
    rw [show shape = seen from fits]
    rfl
  | plainWord => exact fits.1

theorem Fits.text_ne (fits : glimpse.Fits literals shape) {text : String} (known : text ∈ literals)
    (other : glimpse.mayBe text = false) : (shape.2 == text) = false := by
  cases glimpse with
  | exactly seen =>
    rw [show shape = seen from fits]
    exact other
  | plainWord =>
    apply beq_eq_false_iff_ne.mpr
    rintro rfl
    exact fits.2 known

theorem Fits.text_eq (fits : glimpse.Fits literals shape) {text : String}
    (same : glimpse.mayBe text = true) : shape.2 = text := by
  cases glimpse with
  | exactly seen =>
    rw [show shape = seen from fits]
    exact beq_iff_eq.mp same
  | plainWord => cases same

end Glimpse

/-- What a rule does with the next token, as far as one token tells. -/
inductive View
  /-- The rule is not read, and no token with it. -/
  | refuses
  /-- The rule is read off no token at all. -/
  | skips
  | unclear
deriving DecidableEq

/-- The view of a rule that may be missing. -/
def View.optional : View → View
  | .refuses => .skips
  | _ => .unclear

/-- The view of a rule, and where it is skipped that of the next one. -/
def View.before : View → View → View
  | .skips, next => next
  | view, _ => view

/-- The view of an alternative, and where it is refused that of the others. -/
def View.orElse : View → View → View
  | .refuses, others => others
  | view, _ => view

/-- Refused if the test says so. -/
def View.refusedIf (test : Bool) : View :=
  if test then .refuses else .unclear

mutual

/-- The view of a rule, given which nonterminals are refused. -/
def Rule.view {σ : Type} {V : σ → Type} (refused : σ → Bool) (glimpse : Glimpse) {α : Type} :
    Rule V α → View
  | .word text => .refusedIf !glimpse.mayBe text
  | .token kind _ => .refusedIf (glimpse.kind != kind)
  | .pick values text => .refusedIf (values.all fun value => !glimpse.mayBe (text value))
  | .other stops => .refusedIf (stops.any fun stop => glimpse.mayBe stop)
  | .seq first second => (first.view refused glimpse).before (second.view refused glimpse)
  | .choice alternatives => alternatives.view refused glimpse
  | .opt rule => (rule.view refused glimpse).optional
  | .kept first _ => (first.view refused glimpse).optional
  | .iterate limit rule => if limit = 0 then .refuses else (rule.view refused glimpse).optional
  | .iterate1 _ rule => .refusedIf (rule.view refused glimpse == .refuses)
  | .call symbol => .refusedIf (refused symbol)
  | .located rule => rule.view refused glimpse
  | .shaped _ _ rule => rule.view refused glimpse

/-- The view of the alternatives. -/
def Choice.view {σ : Type} {V : σ → Type} (refused : σ → Bool) (glimpse : Glimpse) {α : Type} :
    Choice V α → View
  | .last rule => rule.view refused glimpse
  | .or rule others => (rule.view refused glimpse).orElse (others.view refused glimpse)

end

/-- A nonterminal is refused, as far as `depth` levels of productions tell. -/
def Language.refuses {σ : Type} (G : Language σ) (glimpse : Glimpse) : Nat → σ → Bool
  | 0, _ => false
  | depth + 1, symbol => (G.production symbol).view (G.refuses glimpse depth) glimpse == .refuses

/-! ### Views are right -/

/-- The reading is what the view says of it. -/
def View.Describes {α : Type} (ts : List Token) (reading : Reading α) : View → Prop
  | .refuses => reading = .absent ∨ reading = .failed ts
  | .skips => ∃ value, reading = .matched value ts
  | .unclear => True

theorem View.describes_refusedIf {α : Type} {ts : List Token} {reading : Reading α} {test : Bool}
    (refused : test = true → reading = .absent ∨ reading = .failed ts) :
    (View.refusedIf test).Describes ts reading := by
  unfold View.refusedIf
  split
  · next holds => exact refused holds
  · trivial

theorem View.Describes.map {α β : Type} {ts : List Token} {reading : Reading α} {view : View}
    (describes : view.Describes ts reading) (f : α → β) : view.Describes ts (reading.map f) := by
  cases view with
  | refuses =>
    rcases describes with absent | failed
    · exact .inl (by rw [absent]; rfl)
    · exact .inr (by rw [failed]; rfl)
  | skips =>
    obtain ⟨value, matched⟩ := describes
    exact ⟨f value, by rw [matched]; rfl⟩
  | unclear => trivial

theorem tooFar_self (ts : List Token) : tooFar ts ts = false := by
  simp [tooFar]

theorem View.Describes.optional {α : Type} {ts : List Token} {reading : Reading α} {view : View}
    (describes : view.Describes ts reading) :
    view.optional.Describes ts (reading.optional ts) := by
  cases view with
  | refuses =>
    refine ⟨none, ?_⟩
    rcases describes with absent | failed
    · rw [absent]
      rfl
    · rw [failed]
      simp [Reading.optional, givenUp, tooFar_self]
  | skips => trivial
  | unclear => trivial

theorem repeatedReading_of_refused {α : Type} {step : List Token → Reading α} {ts : List Token}
    (refused : step ts = .absent ∨ step ts = .failed ts) (limit : Nat) :
    repeatedReading step (limit + 1) ts = .matched [] ts := by
  rw [repeatedReading]
  rcases refused with absent | failed
  · rw [absent]
    rfl
  · rw [failed]
    simp [Reading.optional, givenUp, tooFar_self]

section Spec

variable {σ : Type} {V : σ → Type} {symbol : (s : σ) → List Token → Reading (V s)}
  {finish : Position} {refused : σ → Bool} {literals : List String} {glimpse : Glimpse}
  {token : Token} {rest : List Token}

mutual

/-- **A view is what happens.** -/
theorem Rule.view_spec (fits : glimpse.Fits literals token.shape)
    (symbols : ∀ s, refused s = true →
      symbol s (token :: rest) = .absent ∨ symbol s (token :: rest) = .failed (token :: rest))
    {α : Type} : (rule : Rule V α) → (∀ text ∈ rule.literals, text ∈ literals) →
    (rule.view refused glimpse).Describes (token :: rest)
      (rule.reading symbol finish (token :: rest))
  | .word text, known => by
    apply View.describes_refusedIf
    intro other
    have differs : (token.text == text) = false :=
      fits.text_ne (known text (by simp [Rule.literals])) (by simpa using other)
    exact .inl (by simp [Rule.reading, singleReading, differs])
  | .token kind _, _ => by
    apply View.describes_refusedIf
    intro other
    rw [← fits.kind_eq, bne_iff_ne] at other
    have differs : token.kind ≠ kind := other
    exact .inl (by simp [Rule.reading, singleReading, differs])
  | .pick values text, known => by
    apply View.describes_refusedIf
    intro others
    have none_ : values.find? (fun value => text value == token.text) = none := by
      apply List.find?_eq_none.mpr
      intro value member same
      have other := List.all_eq_true.mp others value member
      have differs : (token.text == text value) = false :=
        fits.text_ne (known (text value) (List.mem_map_of_mem member)) (by simpa using other)
      rw [Bool.beq_comm, differs] at same
      cases same
    exact .inl (by simp [Rule.reading, pickReading, none_])
  | .other stops, _ => by
    apply View.describes_refusedIf
    intro stopped
    obtain ⟨stop, member, same⟩ := List.any_eq_true.mp stopped
    have isStop : token.text ∈ stops := by
      rw [show token.text = stop from fits.text_eq same]
      exact member
    exact .inr (by simp [Rule.reading, otherReading, isStop])
  | .seq first second, known => by
    have firstSpec := Rule.view_spec fits symbols first fun text member =>
      known text (List.mem_append_left _ member)
    have secondSpec := Rule.view_spec fits symbols second fun text member =>
      known text (List.mem_append_right _ member)
    rw [Rule.view, Rule.reading]
    cases view : first.view refused glimpse with
    | refuses =>
      rw [view] at firstSpec
      rcases firstSpec with absent | failed
      · exact .inl (by rw [absent])
      · exact .inr (by rw [failed])
    | skips =>
      rw [view] at firstSpec
      obtain ⟨a, matched⟩ := firstSpec
      rw [matched]
      cases next : second.view refused glimpse with
      | refuses =>
        rw [next] at secondSpec
        rcases secondSpec with absent | failed
        · exact .inr (by simp only [absent])
        · exact .inr (by simp only [failed])
      | skips =>
        rw [next] at secondSpec
        obtain ⟨b, matched⟩ := secondSpec
        exact ⟨(a, b), by simp only [matched]⟩
      | unclear => trivial
    | unclear => trivial
  | .choice alternatives, known => Choice.view_spec fits symbols alternatives known false
  | .opt rule, known => (Rule.view_spec fits symbols rule known).optional
  | .kept first second, known => by
    have spec := Rule.view_spec fits symbols first fun text member =>
      known text (List.mem_append_left _ member)
    rw [Rule.view, Rule.reading]
    cases view : first.view refused glimpse with
    | refuses =>
      rw [view] at spec
      refine ⟨none, ?_⟩
      rcases spec with absent | failed
      · rw [absent]
      · simp [failed, givenUp, tooFar_self]
    | skips => trivial
    | unclear => trivial
  | .iterate 0 rule, _ => .inr rfl
  | .iterate (limit + 1) rule, known => by
    have spec := Rule.view_spec fits symbols rule known
    rw [Rule.view, if_neg (Nat.succ_ne_zero limit)]
    cases view : rule.view refused glimpse with
    | refuses =>
      rw [view] at spec
      exact ⟨[], repeatedReading_of_refused spec limit⟩
    | skips => trivial
    | unclear => trivial
  | .iterate1 0 rule, _ => View.describes_refusedIf fun _ => .inr rfl
  | .iterate1 (limit + 1) rule, known => by
    have spec := Rule.view_spec fits symbols rule known
    apply View.describes_refusedIf
    intro isRefused
    rw [beq_iff_eq.mp isRefused] at spec
    have nothing := repeatedReading_of_refused spec limit
    exact .inl (by rw [Rule.reading, nothing])
  | .call sym, _ => View.describes_refusedIf (symbols sym)
  | .located rule, known => (Rule.view_spec fits symbols rule known).map _
  | .shaped shape _ rule, known => (Rule.view_spec fits symbols rule known).map shape

/-- A view of alternatives is what happens. -/
theorem Choice.view_spec (fits : glimpse.Fits literals token.shape)
    (symbols : ∀ s, refused s = true →
      symbol s (token :: rest) = .absent ∨ symbol s (token :: rest) = .failed (token :: rest))
    {α : Type} : (alternatives : Choice V α) → (∀ text ∈ alternatives.literals, text ∈ literals) →
    (blamed : Bool) → (alternatives.view refused glimpse).Describes (token :: rest)
      (alternatives.reading symbol finish blamed (token :: rest))
  | .last rule, known, blamed => by
    have spec := Rule.view_spec fits symbols rule known
    rw [Choice.view, Choice.reading]
    cases view : rule.view refused glimpse with
    | refuses =>
      rw [view] at spec
      rcases spec with absent | failed
      · rw [absent]
        cases blamed
        · exact .inl rfl
        · exact .inr rfl
      · exact .inr (by simp [failed, tooFar_self])
    | skips =>
      rw [view] at spec
      obtain ⟨value, matched⟩ := spec
      exact ⟨value, by rw [matched]⟩
    | unclear => trivial
  | .or rule others, known, blamed => by
    have spec := Rule.view_spec fits symbols rule fun text member =>
      known text (List.mem_append_left _ member)
    have othersSpec := Choice.view_spec fits symbols others fun text member =>
      known text (List.mem_append_right _ member)
    rw [Choice.view, Choice.reading]
    cases view : rule.view refused glimpse with
    | refuses =>
      rw [view] at spec
      rcases spec with absent | failed
      · rw [absent]
        exact (othersSpec blamed).map Sum.inr
      · simp only [failed, tooFar_self, Bool.false_eq_true, if_false]
        exact (othersSpec true).map Sum.inr
    | skips =>
      rw [view] at spec
      obtain ⟨value, matched⟩ := spec
      exact ⟨.inl value, by rw [matched]⟩
    | unclear => trivial

end

/-- A nonterminal that is refused after a look at some levels of productions is not read, whatever
the bound on the nesting. -/
theorem Language.refuses_spec {G : Language σ}
    (known : ∀ s, ∀ text ∈ (G.production s).literals, text ∈ literals)
    (fits : glimpse.Fits literals token.shape) (depth : Nat) :
    ∀ (bound : Nat) (s : σ), G.refuses glimpse depth s = true →
      G.reading finish bound s (token :: rest) = .absent ∨
        G.reading finish bound s (token :: rest) = .failed (token :: rest) := by
  induction depth with
  | zero =>
    intro _ _ impossible
    cases impossible
  | succ depth ih =>
    intro bound s isRefused
    cases bound with
    | zero => exact .inl rfl
    | succ bound =>
      have spec : View.Describes (token :: rest)
          ((G.production s).reading (G.reading finish bound) finish (token :: rest))
          ((G.production s).view (G.refuses glimpse depth) glimpse) :=
        Rule.view_spec fits (ih bound) (G.production s) (known s)
      rw [beq_iff_eq.mp isRefused] at spec
      exact spec

end Spec

end Forwarder.Grammar
