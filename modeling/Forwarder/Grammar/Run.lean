/-
**Reading with a grammar.** Ordered choice and greedy repetition over a list of tokens.

Reading a rule has one of three verdicts: it *matched* with a value, it was *absent* (its first
token does not stand here) or it *failed* (it began, and then something unexpected stood there).
An alternative or a repetition that fails is given up, and the failure that got deepest is remembered: it
is the one worth reporting when nothing else reads the input. Of the values read until then none is left,
except in a rule that keeps its first part. A repetition that has not come to its end when the limit is
reached fails as well.

* `State` — the tokens ahead, how many were read, and the deepest failure so far.
* `Rule.run` — reads a rule, given how nonterminals are read.
* `Language.run` — reads a nonterminal, with at most the given depth of nested nonterminals.
* `Language.read` — reads a whole list of tokens.
-/

import Forwarder.Grammar.Rule

namespace Forwarder.Grammar

open Source

/-- Why a rule failed. -/
inductive Complaint
  /-- A token that does not fit, and what would have. -/
  | unexpected (found : String) (pos : Position) (expected : Option String)
  /-- A rule that was repeated as often as the limit says, and where this has ended. -/
  | tooMany (rule : String) (limit : Nat) (pos : Position)
deriving DecidableEq, Repr

namespace Complaint

/-- The place of the complaint. -/
def pos : Complaint → Position
  | unexpected _ pos _ => pos
  | tooMany _ _ pos => pos

/-- The text of the complaint, without its place. -/
def message : Complaint → String
  | unexpected found _ none => "unexpected token " ++ Text.quoted found
  | unexpected found _ (some rule) => "unexpected token " ++ Text.quoted found ++ " (expected " ++ rule ++ ")"
  | tooMany rule limit _ => "too many iterations of " ++ rule ++ " (> " ++ toString limit ++ ")"

end Complaint

/-- What reading a rule came to. -/
inductive Verdict (α : Type)
  | matched (value : α)
  | absent
  | failed (e : Complaint)
deriving Repr

/-- The verdict with its value in another shape. -/
def Verdict.map {α β : Type} (f : α → β) : Verdict α → Verdict β
  | .matched value => .matched (f value)
  | .absent => .absent
  | .failed e => .failed e

/-! ### State -/

/-- Where reading stands. -/
structure State where
  /-- The tokens ahead. -/
  rest : List Token
  /-- How many tokens have been read. -/
  index : Nat
  /-- The failure that got deepest. -/
  deepest : Option Complaint
  /-- How deep it got. -/
  depth : Nat
  /-- The place of the end of the text. -/
  finish : Position
deriving Repr

namespace State

/-- Before the first token. -/
def start (tokens : List Token) (finish : Position) : State :=
  ⟨tokens, 0, none, 0, finish⟩

/-- The complaint about the next token. -/
def unexpected (s : State) (expected : Option String) : Complaint :=
  match s.rest with
  | [] => .unexpected "<EOF>" s.finish expected
  | token :: _ => .unexpected token.text token.pos expected

/-- The place of the next token. -/
def pos (s : State) : Position :=
  match s.rest with
  | [] => s.finish
  | token :: _ => token.pos

/-- After the next token, if it passes the test. -/
def take (s : State) (test : Token → Bool) : Option (Token × State) :=
  match s.rest with
  | [] => none
  | token :: rest =>
    if test token then some (token, { s with rest, index := s.index + 1 }) else none

/-- Goes on from where a branch ended, keeping the deeper failure of the two. -/
def accept (s branch : State) : State :=
  if s.depth ≤ branch.depth then branch
  else { branch with deepest := s.deepest, depth := s.depth }

/-- Remembers a failure here, unless a deeper one is known. -/
def note (s : State) (e : Complaint) : State :=
  if s.depth ≤ s.index then { s with deepest := some e, depth := s.index } else s

/-- Remembers the failure of an abandoned branch, unless a deeper one is known. -/
def noteBranch (s : State) (e : Complaint) (branch : State) : State :=
  if s.depth < branch.depth then { s with deepest := branch.deepest, depth := branch.depth }
  else if s.depth ≤ branch.index then
    { s with deepest := some e, depth := max branch.index branch.depth }
  else s

/-- How many tokens a branch may read and still be given up. -/
def lookahead : Nat :=
  4096

/-- Gives a failed branch up, or, if it read too far for that, fails with it. -/
def abandon (s : State) (e : Complaint) (branch : State) : Bool × State :=
  let s := s.noteBranch e branch
  if s.index + lookahead < branch.index then (true, s.accept branch) else (false, s)

end State

/-- A verdict and where reading stands after it. -/
abbrev Outcome (α : Type) :=
  Verdict α × State

/-- Gives a failed branch of a part that may be missing up, for what is left of it, or fails with it. -/
def State.giveUp {α : Type} (s : State) (value : α) (e : Complaint) (branch : State) : Outcome α :=
  match (s.note e).abandon e branch with
  | (true, s) => (.failed e, s)
  | (false, s) => (.matched value, s)

/-! ### Repetition -/

/-- One reading of a repeated rule. -/
inductive Turn (α : Type)
  | read (value : α)
  | stop
  | failed (e : Complaint)

/-- Reads a repeated rule once, on a branch. -/
def turn {α : Type} (step : State → Outcome α) (s : State) : Turn α × State :=
  match step s with
  | (.matched value, branch) => (.read value, s.accept branch)
  | (.absent, branch) => (.stop, s.accept branch)
  | (.failed e, branch) =>
    match (s.note e).abandon e branch with
    | (true, s) => (.failed e, s)
    | (false, s) => (.stop, s)

/-- Reads a rule as often as it can be read, and fails with the complaint for the place if it has been read
`bound` times. -/
def repeated {α : Type} (complaint : Position → Complaint) (step : State → Outcome α) :
    Nat → State → Outcome (List α)
  | 0, s => (.failed (complaint s.pos), s)
  | bound + 1, s =>
    match turn step s with
    | (.stop, s) => (.matched [], s)
    | (.failed e, s) => (.failed e, s)
    | (.read value, s) =>
      let (verdict, s) := repeated complaint step bound s
      (verdict.map (value :: ·), s)

/-! ### Choice -/

/-- The failure of the alternatives tried so far that got furthest, the latest one among equals. -/
structure Blame where
  reached : Nat
  failure : Option Complaint

namespace Blame

/-- Before the first alternative. -/
def nobody : Blame :=
  ⟨0, none⟩

/-- After one more failed alternative. -/
def add (blame : Blame) (e : Complaint) (branch : State) : Blame :=
  if blame.reached ≤ branch.index then ⟨branch.index, some e⟩ else blame

/-- The verdict when no alternative is left. -/
def verdict {α : Type} (blame : Blame) (s : State) : Outcome α :=
  match blame.failure with
  | none => (.absent, s)
  | some e => (.failed e, s.note e)

end Blame

/-! ### Rules -/

/-- The single token that passes the test. -/
def single {α : Type} (test : Token → Bool) (value : Token → α) (s : State) : Outcome α :=
  match s.take test with
  | none => (.absent, s)
  | some (token, s) => (.matched (value token), s)

mutual

/-- Reads a rule, given the names of the nonterminals and how each of them is read. -/
def Rule.run {σ : Type} {V : σ → Type} (name : σ → String)
    (symbol : (s : σ) → State → Outcome (V s)) {α : Type} : Rule V α → State → Outcome α
  | .word text, s => single (·.text == text) (fun _ => ()) s
  | .token kind _, s => single (·.kind == kind) Token.text s
  | .pick values text, s =>
    match s.rest with
    | [] => (.absent, s)
    | token :: rest =>
      match values.find? (text · == token.text) with
      | none => (.absent, s)
      | some value => (.matched value, { s with rest, index := s.index + 1 })
  | .other stops, s =>
    match s.rest with
    | [] => (.absent, s)
    | token :: rest =>
      if stops.contains token.text then (.failed (s.unexpected none), s)
      else (.matched token.text, { s with rest, index := s.index + 1 })
  | .seq first second, s =>
    match first.run name symbol s with
    | (.absent, s) => (.absent, s)
    | (.failed e, s) => (.failed e, s)
    | (.matched a, s) =>
      match second.run name symbol s with
      | (.absent, s) => (.failed (s.unexpected (some (second.describe name true))), s)
      | (.failed e, s) => (.failed e, s)
      | (.matched b, s) => (.matched (a, b), s)
  | .choice alternatives, s => alternatives.run name symbol Blame.nobody s
  | .opt rule, s =>
    match turn (rule.run name symbol) s with
    | (.read value, s) => (.matched (some value), s)
    | (.stop, s) => (.matched none, s)
    | (.failed e, s) => (.failed e, s)
  | .kept first second, s =>
    match first.run name symbol s with
    | (.absent, branch) => (.matched none, s.accept branch)
    | (.failed e, branch) => s.giveUp none e branch
    | (.matched a, middle) =>
      match second.run name symbol middle with
      | (.absent, branch) => s.giveUp none (branch.unexpected (some (second.describe name true))) branch
      | (.failed e, branch) => s.giveUp (some (a, none)) e branch
      | (.matched b, branch) => (.matched (some (a, some b)), s.accept branch)
  | .iterate limit rule, s =>
    repeated (.tooMany (rule.describe name false ++ "*") limit) (rule.run name symbol) limit s
  | .iterate1 limit rule, s =>
    match repeated (.tooMany (rule.describe name false ++ "+") limit) (rule.run name symbol) limit s with
    | (.matched [], s) => (.absent, s)
    | outcome => outcome
  | .call sym, s => symbol sym s
  | .located rule, s =>
    let (verdict, after) := rule.run name symbol s
    (verdict.map (s.pos, ·), after)
  | .shaped shape _ rule, s =>
    let (verdict, after) := rule.run name symbol s
    (verdict.map shape, after)

/-- Reads the first alternative that can be read, each from the same place. -/
def Choice.run {σ : Type} {V : σ → Type} (name : σ → String)
    (symbol : (s : σ) → State → Outcome (V s)) {α : Type} (blame : Blame) :
    Choice V α → State → Outcome α
  | .last rule, s =>
    match rule.run name symbol s with
    | (.matched value, branch) => (.matched value, s.accept branch)
    | (.absent, _) => blame.verdict s
    | (.failed e, branch) =>
      match s.abandon e branch with
      | (true, s) => (.failed e, s)
      | (false, s) => (blame.add e branch).verdict s
  | .or rule others, s =>
    match rule.run name symbol s with
    | (.matched value, branch) => (.matched (.inl value), s.accept branch)
    | (.absent, _) =>
      let (verdict, after) := others.run name symbol blame s
      (verdict.map .inr, after)
    | (.failed e, branch) =>
      match s.abandon e branch with
      | (true, s) => (.failed e, s)
      | (false, s) =>
        let (verdict, after) := others.run name symbol (blame.add e branch) s
        (verdict.map .inr, after)

end

/-! ### Nonterminals -/

/-- Reads a nonterminal. `bound` limits how deep nonterminals may nest; beyond it they are absent.
-/
def Language.run {σ : Type} (G : Language σ) : Nat → (s : σ) → State → Outcome (G.Value s)
  | 0, _, s => (.absent, s)
  | bound + 1, symbol, s =>
    match (G.production symbol).run G.name (G.run bound) s with
    | (.failed e, s) => (.failed e, s.note e)
    | outcome => outcome

/-- A bound on the depth of nested nonterminals that no list of tokens of this length exceeds: each
level of nesting reads a token or moves on in the list of nonterminals. -/
def nesting (tokens : Nat) : Nat :=
  32 * (tokens + 1)

/-- Reads a nonterminal off a whole list of tokens; if something is left over, the complaint is the
deepest failure. -/
def Language.read {σ : Type} (G : Language σ) (symbol : σ) (tokens : List Token)
    (finish : Position) : Except Complaint (G.Value symbol) :=
  match G.run (nesting tokens.length) symbol (State.start tokens finish) with
  | (.failed e, _) => .error e
  | (.absent, s) => .error (s.unexpected none)
  | (.matched value, s) =>
    match s.rest with
    | [] => .ok value
    | _ :: _ =>
      match s.deepest with
      | none => .error (s.unexpected none)
      | some e => .error (if s.depth ≤ s.index then s.unexpected none else e)

end Forwarder.Grammar
