/-
**Parsing ends.** Constructs that start at one token call each other only downwards in their ranks, and all
that the grammar repeats consists of tokens. So a text is parsed without a bound on how deep constructs nest,
and the bound that the parser has is large enough for every text.

* `paced_production` — the productions repeat nothing that may be empty.
* `answer` — the answer of an outcome for a whole list of tokens.
* `parseWithin`, `Parses` — parsing within any bound, and without one.
* **`parse_ends`** — parsing makes progress and ends, and bounds play no part in it.
-/

import Forwarder.Proofs.Grammar.Depth
import Forwarder.Proofs.Source.Groups
import Forwarder.Proofs.Source.Scanning

namespace Forwarder

namespace Grammar

open Source

/-- The answer of an outcome for a whole list of tokens: if something is left over, the complaint is the
deepest failure. -/
def answer {α : Type} : Outcome α → Except Complaint α
  | (.failed e, _) => .error e
  | (.absent, s) => .error (s.unexpected none)
  | (.matched value, s) =>
    match s.rest with
    | [] => .ok value
    | _ :: _ =>
      match s.deepest with
      | none => .error (s.unexpected none)
      | some e => .error (if s.depth ≤ s.index then s.unexpected none else e)

theorem Language.read_eq_answer {σ : Type} (G : Language σ) (sym : σ) (tokens : List Token) (finish : Position) :
    G.read sym tokens finish = answer (G.run (nesting tokens.length) sym (State.start tokens finish)) := by
  rw [read]
  generalize G.run (nesting tokens.length) sym (State.start tokens finish) = outcome
  obtain ⟨value | _ | e, rest, _, deepest, _, _⟩ := outcome
  · cases rest with
    | nil => rfl
    | cons token rest => cases deepest <;> rfl
  · rfl
  · rfl

end Grammar

namespace Source

open Grammar

/-- Whatever the productions repeat is read off tokens. -/
theorem paced_production (s : Symbol) : (declarations.production s).isPaced solid = true := by
  cases s <;> decide

/-- **Reading constructs ends, with progress.** At every token five of them nest at most. -/
theorem progresses_declarations : declarations.Progresses 5 :=
  isRanked_declarations.progresses paced_production

/-! ### Texts -/

/-- The answer of an outcome for a text. -/
def report (outcome : Outcome CompilationUnit) : Except ParseFailure CompilationUnit :=
  match answer outcome with
  | .error e => .error ⟨e.pos, e.message⟩
  | .ok u => .ok u

/-- The declarations of a text, with at most the given depth of nested constructs. -/
def parseWithin (bound : Nat) (text : String) : Except ParseFailure CompilationUnit :=
  match lex text.toList with
  | .error (pos, detail) => .error ⟨pos, detail⟩
  | .ok (tokens, finish) => report (declarations.run bound .compilationUnit (State.start tokens finish))

/-- **Parsing a text** comes to this answer, however deep constructs nest. -/
inductive Parses (text : String) : Except ParseFailure CompilationUnit → Prop
  | unlexed {pos : Position} {detail : String} (lexed : lex text.toList = .error (pos, detail)) :
      Parses text (.error ⟨pos, detail⟩)
  | lexed {tokens : List Token} {finish : Position} {outcome : Outcome CompilationUnit}
      (lexed : lex text.toList = .ok (tokens, finish))
      (reads : declarations.Reads .compilationUnit (State.start tokens finish) outcome) :
      Parses text (report outcome)

/-- **Parsing ends.** Reading the grammar makes progress everywhere and ends for all tokens. So every text is
parsed as one unit or with one error if there is no bound on the depth of constructs, the same that the parser
answers, and the same within every bound that allows for five constructs at each character and at the end. -/
theorem parse_ends : declarations.Progresses 5 ∧
    ∀ text, Parses text (parse text) ∧ (∀ other, Parses text other → other = parse text) ∧
      ∀ bound, 5 * (text.length + 1) ≤ bound → parseWithin bound text = parse text := by
  refine ⟨progresses_declarations, fun text => ?_⟩
  cases isLexed : lex text.toList with
  | error failure =>
    obtain ⟨pos, detail⟩ := failure
    have answered : parse text = .error ⟨pos, detail⟩ := by rw [parse, isLexed]
    refine ⟨answered ▸ .unlexed isLexed, fun other parses => ?_, fun bound _ => ?_⟩
    · cases parses with
      | unlexed lexed =>
        rw [isLexed] at lexed
        cases lexed
        exact answered.symm
      | lexed lexed reads =>
        rw [isLexed] at lexed
        cases lexed
    · rw [parseWithin, isLexed, answered]
  | ok found =>
    obtain ⟨tokens, finish⟩ := found
    obtain ⟨outcome, reads, unique, within⟩ :=
      progresses_declarations.reads .compilationUnit (State.start tokens finish)
    have few : tokens.length ≤ text.length := length_le_of_lex isLexed
    have large : 5 * (tokens.length + 1) ≤ nesting tokens.length := Nat.mul_le_mul_right _ (by decide)
    have answered : parse text = report outcome := by
      rw [parse, isLexed]
      dsimp only
      rw [Language.read_eq_answer, within _ large]
      rfl
    refine ⟨answered ▸ .lexed isLexed reads, fun other parses => ?_, fun bound enough => ?_⟩
    · cases parses with
      | unlexed lexed =>
        rw [isLexed] at lexed
        cases lexed
      | lexed lexed reads' =>
        rw [isLexed] at lexed
        cases lexed
        rw [answered, unique _ reads']
    · rw [parseWithin, isLexed, answered]
      dsimp only
      rw [within bound (Nat.le_trans (Nat.mul_le_mul_left 5 (Nat.succ_le_succ few)) enough)]

end Source

end Forwarder
