/-
**Grammar rules.** A grammar over tokens as data. A rule of type `Rule V α` recognises a stretch of
tokens and reads a value of type `α` off it; `V` gives the type of value of every nonterminal.

* `Rule`, `Choice` — rules, and the alternatives of an ordered choice.
* `Rule.describe` — the rule in the notation of messages: `(A | "b")* <ident>`.
* `Rule.write` — the tokens a value is written with; the other direction of reading.
* `Language` — the nonterminals of a language with their names and productions.

A sequence is nested to the right, `seq a (seq b c)`: what can be missing after `a` has been read is
then always a rule of its own. A choice lists its alternatives with `or` and ends with `last`.
-/

import Forwarder.Source.Token
import Forwarder.Text.Pieces
import Forwarder.Text.Quoted

namespace Forwarder.Grammar

open Source

mutual

/-- A rule that reads a value of the indexed type. -/
inductive Rule {σ : Type} (V : σ → Type) : Type → Type 1
  /-- The token with this text. -/
  | word (text : String) : Rule V Unit
  /-- Any token of this kind; its text is the value. -/
  | token (kind : TokenKind) (label : String) : Rule V String
  /-- The token whose text is that of one of the listed values. -/
  | pick {α : Type} (values : List α) (text : α → String) : Rule V α
  /-- Any token except those with one of these texts. -/
  | other (stops : List String) : Rule V String
  /-- One rule after the other. -/
  | seq {α β : Type} (first : Rule V α) (second : Rule V β) : Rule V (α × β)
  /-- The first alternative that can be read. -/
  | choice {α : Type} (alternatives : Choice V α) : Rule V α
  /-- The rule or nothing. -/
  | opt {α : Type} (rule : Rule V α) : Rule V (Option α)
  /-- Two rules or nothing, where the value of the first is kept if the second fails. -/
  | kept {α β : Type} (first : Rule V α) (second : Rule V β) : Rule V (Option (α × Option β))
  /-- The rule as often as it can be read, which must be fewer times than the limit. -/
  | iterate {α : Type} (limit : Nat) (rule : Rule V α) : Rule V (List α)
  /-- The rule as often as it can be read, at least once and fewer times than the limit. -/
  | iterate1 {α : Type} (limit : Nat) (rule : Rule V α) : Rule V (List α)
  /-- A nonterminal. -/
  | call (symbol : σ) : Rule V (V symbol)
  /-- The rule together with the place where it starts. -/
  | located {α : Type} (rule : Rule V α) : Rule V (Position × α)
  /-- The rule with its value in another shape; `back` undoes `shape`. -/
  | shaped {α β : Type} (shape : α → β) (back : β → α) (rule : Rule V α) : Rule V β

/-- The alternatives of an ordered choice. -/
inductive Choice {σ : Type} (V : σ → Type) : Type → Type 1
  /-- The last alternative. -/
  | last {α : Type} (rule : Rule V α) : Choice V α
  /-- An alternative and those after it. -/
  | or {α β : Type} (rule : Rule V α) (others : Choice V β) : Choice V (α ⊕ β)

end

/-- How often a rule of a grammar may be repeated: fewer times than this. -/
def maxIterations : Nat :=
  1000000

theorem maxIterations_pos : 0 < maxIterations :=
  Nat.succ_pos _

/-- The rule as often as it can be read. -/
abbrev Rule.many {σ : Type} {V : σ → Type} {α : Type} (rule : Rule V α) : Rule V (List α) :=
  .iterate maxIterations rule

/-- The rule as often as it can be read, at least once. -/
abbrev Rule.many1 {σ : Type} {V : σ → Type} {α : Type} (rule : Rule V α) : Rule V (List α) :=
  .iterate1 maxIterations rule

/-! ### Notation -/

mutual

/-- The rule in the notation of messages. A sequence or a choice inside another rule is put in
parentheses, except that the tail of a sequence continues it (`tail`). -/
def Rule.describe {σ : Type} {V : σ → Type} (name : σ → String) {α : Type} (tail : Bool) :
    Rule V α → String
  | .word text => Text.quoted text
  | .token _ label => "<" ++ label ++ ">"
  | .pick values text =>
    "(" ++ Text.join " | " (values.map fun value => Text.quoted (text value)) ++ ")"
  | .other stops => "~(" ++ Text.join " | " (stops.map Text.quoted) ++ ")"
  | .seq first second =>
    let items := first.describe name false ++ " " ++ second.describe name true
    if tail then items else "(" ++ items ++ ")"
  | .choice alternatives => "(" ++ alternatives.describe name ++ ")"
  | .opt rule => rule.describe name false ++ "?"
  | .kept first second =>
    "(" ++ first.describe name false ++ " " ++ second.describe name true ++ ")?"
  | .iterate _ rule => rule.describe name false ++ "*"
  | .iterate1 _ rule => rule.describe name false ++ "+"
  | .call symbol => name symbol
  | .located rule => rule.describe name tail
  | .shaped _ _ rule => rule.describe name tail

/-- The alternatives, with a bar between them. -/
def Choice.describe {σ : Type} {V : σ → Type} (name : σ → String) {α : Type} :
    Choice V α → String
  | .last rule => rule.describe name false
  | .or rule others => rule.describe name false ++ " | " ++ others.describe name

end

/-! ### Writing -/

mutual

/-- The texts of the tokens a value is written with, given how nonterminals are written. What was kept of
two rules is written too (`whole`), or left out, since its tokens were read again. -/
def Rule.write {σ : Type} {V : σ → Type} (whole : Bool) (symbolTokens : (s : σ) → V s → List String)
    {α : Type} : Rule V α → α → List String
  | .word text, _ => [text]
  | .token _ _, text => [text]
  | .pick _ text, value => [text value]
  | .other _, text => [text]
  | .seq first second, (a, b) => first.write whole symbolTokens a ++ second.write whole symbolTokens b
  | .choice alternatives, value => alternatives.write whole symbolTokens value
  | .opt rule, value => value.elim [] (rule.write whole symbolTokens)
  | .kept _ _, none => []
  | .kept first _, some (a, none) => if whole then first.write whole symbolTokens a else []
  | .kept first second, some (a, some b) =>
    first.write whole symbolTokens a ++ second.write whole symbolTokens b
  | .iterate _ rule, values => values.flatMap (rule.write whole symbolTokens)
  | .iterate1 _ rule, values => values.flatMap (rule.write whole symbolTokens)
  | .call symbol, value => symbolTokens symbol value
  | .located rule, (_, value) => rule.write whole symbolTokens value
  | .shaped _ back rule, value => rule.write whole symbolTokens (back value)

/-- The texts of the tokens a value of a choice is written with. -/
def Choice.write {σ : Type} {V : σ → Type} (whole : Bool) (symbolTokens : (s : σ) → V s → List String)
    {α : Type} : Choice V α → α → List String
  | .last rule, value => rule.write whole symbolTokens value
  | .or rule _, .inl value => rule.write whole symbolTokens value
  | .or _ others, .inr value => others.write whole symbolTokens value

end

/-- A language: its nonterminals, what each of them reads, their names and their productions. -/
structure Language (σ : Type) where
  /-- The type of value a nonterminal reads. -/
  Value : σ → Type
  /-- The nonterminal in the notation of messages. -/
  name : σ → String
  /-- The rule behind a nonterminal. -/
  production : (s : σ) → Rule Value (Value s)

/-! ### Lists -/

section Lists

variable {σ : Type} {V : σ → Type} {α β : Type}

/-- A mark and then the rule, read for the value of the rule. -/
def Rule.after (mark : String) (rule : Rule V α) : Rule V α :=
  .shaped Prod.snd (fun value => ((), value)) (.seq (.word mark) rule)

/-- The rule once or more, with a mark between two readings, continued by another rule. -/
def Rule.separated (mark : String) (rule : Rule V α) (next : Rule V β) :
    Rule V (α × List α × β) :=
  .seq rule (.seq (.many (rule.after mark)) next)

/-- A clause that may be missing: a keyword, and the rule once or more with a mark between two
readings. No reading stands for the missing clause. -/
def Rule.clause (keyword mark : String) (rule : Rule V α) : Rule V (List α) :=
  .shaped
    (fun
      | none => []
      | some ((), first, others) => first :: others)
    (fun
      | [] => none
      | first :: others => some ((), first, others))
    (.opt (.seq (.word keyword) (.seq rule (.many (rule.after mark)))))

/-- A bracketed list that may be missing, with commas between its entries. No entry stands for the
missing list. -/
def Rule.bracketed (opening closing : String) (rule : Rule V α) : Rule V (List α) :=
  .shaped
    (fun
      | none => []
      | some ((), first, others, ()) => first :: others)
    (fun
      | [] => none
      | first :: others => some ((), first, others, ()))
    (.opt (.seq (.word opening) (rule.separated "," (.word closing))))

/-- A bracketed list with commas between its entries; it may be empty, but not missing. -/
def Rule.enclosed (opening closing : String) (rule : Rule V α) : Rule V (List α) :=
  .shaped
    (fun
      | ((), none, ()) => []
      | ((), some (first, others), ()) => first :: others)
    (fun
      | [] => ((), none, ())
      | first :: others => ((), some (first, others), ()))
    (.seq (.word opening)
      (.seq (.opt (.seq rule (.many (rule.after ",")))) (.word closing)))

end Lists

end Forwarder.Grammar
