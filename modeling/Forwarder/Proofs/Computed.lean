/-
**Computed results.** What a result that is computed to the end says about the values it may hold, where
the values themselves cannot be compared.

* `forall_of_all`, `exists_of_any` — all values that a result may hold, and one that it holds.
* `Source.exists_parse` — what a source text declares, computed from its characters.
-/

import Forwarder.Source.Parse

namespace Forwarder

variable {ε α : Type} {result : Except ε α}

theorem eq_ok_of_toOption {value : α} (same : result.toOption = some value) :
    result = .ok value := by
  cases result with
  | error => cases same
  | ok =>
    cases same
    rfl

theorem forall_of_all {P : α → Prop} [DecidablePred P] (all : result.toOption.all (P ·) = true) :
    ∀ value, result = .ok value → P value := by
  rintro value rfl
  exact of_decide_eq_true all

theorem exists_of_any {P : α → Prop} [DecidablePred P] (any : result.toOption.any (P ·) = true) :
    ∃ value, result = .ok value ∧ P value := by
  cases result with
  | error => cases any
  | ok value => exact ⟨value, rfl, of_decide_eq_true any⟩

theorem exists_error_of_any {P : ε → Prop} [DecidablePred P] (any : (match result with
      | .ok _ => false
      | .error failure => decide (P failure)) = true) : ∃ failure, result = .error failure ∧ P failure := by
  cases result with
  | ok => cases any
  | error failure => exact ⟨failure, rfl, of_decide_eq_true any⟩

namespace Source

variable {text : String} {cs : List Char}

/-- The declarations that the characters of a text write. The characters of a long text take longer to
compute than what they write. -/
def parseChars (cs : List Char) : Option CompilationUnit :=
  match lex cs with
  | .error _ => none
  | .ok (tokens, finish) => (declarations.read .compilationUnit tokens finish).toOption

theorem toOption_parse (isText : text = String.ofList cs) : (parse text).toOption = parseChars cs := by
  rw [parse, parseChars, isText, String.toList_ofList]
  cases lex cs with
  | error e => rfl
  | ok p =>
    dsimp only
    cases declarations.read .compilationUnit p.1 p.2 <;> rfl

theorem exists_parse {P : CompilationUnit → Prop} [DecidablePred P] (isText : text = String.ofList cs)
    (any : (parseChars cs).any (P ·) = true) : ∃ u, parse text = .ok u ∧ P u :=
  exists_of_any (by rwa [toOption_parse isText])

end Source

end Forwarder
