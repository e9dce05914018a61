/-
**What an extracted declaration says.** A source text is read as a declaration only if every step of
the extraction finds something, and the declaration is made of what they find.

* `Attempt.bind_eq_present` — a chain of steps has a value only if each of them has.
* **`Decoration.extract_eq_present`** — the parts of a file that a declaration is made of.
* `Decoration.read_of_chars` — reading, computed from the characters of a text.
* `Decoration.read_ne_empty` — reading gives a declaration or a reason.
-/

import Forwarder.Decoration.Extract
import Forwarder.Proofs.Computed

namespace Forwarder

open Source

namespace Attempt

variable {α β : Type} {a : Attempt α} {next : α → Attempt β}

theorem eq_present_of_value? {value : α} (some_ : a.value? = some value) : a = .present value := by
  cases a with
  | present inner =>
    cases some_
    rfl
  | empty => cases some_
  | failed failure => cases some_

theorem bind_eq_present {value : β} (present : a.bind next = .present value) :
    ∃ inner, a = .present inner ∧ next inner = .present value := by
  cases a with
  | present inner => exact ⟨inner, rfl, present⟩
  | empty => cases present
  | failed failure => cases present

theorem bind_ne_empty (first : a ≠ .empty) (second : ∀ value, next value ≠ .empty) :
    a.bind next ≠ .empty := by
  cases a with
  | present inner => exact second inner
  | empty => exact absurd rfl first
  | failed failure => exact fun absurd => by cases absurd

end Attempt

namespace Decoration

variable {α : Type} {found : Option α} {rejection : Rejection}

theorem required_eq_present {value : α} (present : required found rejection = .present value) :
    found = some value := by
  cases found with
  | none => cases present
  | some other =>
    cases present
    rfl

theorem required_ne_empty : required found rejection ≠ .empty := by
  cases found <;> exact fun absurd => by cases absurd

variable {file text : String} {u : CompilationUnit} {d : Decoration}

/-- **The parts of a declaration.** The first class or interface stands in a package, implements
`Decorator` of some type, and an import gives that type its qualified name. -/
theorem extract_eq_present (extracted : extract file u = .present d) :
    ∃ decl packageName capability target decorated,
      u.topLevelClass? = some decl ∧ u.packageName = some packageName ∧
      capability? decl.spec = some capability ∧ target? capability = some target ∧
      importOf? u.importNames target.simpleName = some decorated ∧
      d = ⟨decl.spec.header.name, packageName, decorated,
        decl.spec.header.typeParams.map (·.render), target.typeArguments.map (·.render), file⟩ := by
  rw [extract] at extracted
  obtain ⟨decl, isDecl, extracted⟩ := Attempt.bind_eq_present extracted
  obtain ⟨packageName, isPackage, extracted⟩ := Attempt.bind_eq_present extracted
  obtain ⟨capability, isCapability, extracted⟩ := Attempt.bind_eq_present extracted
  obtain ⟨target, isTarget, extracted⟩ := Attempt.bind_eq_present extracted
  obtain ⟨decorated, isDecorated, extracted⟩ := Attempt.bind_eq_present extracted
  cases extracted
  exact ⟨decl, packageName, capability, target, decorated, required_eq_present isDecl,
    required_eq_present isPackage, required_eq_present isCapability, required_eq_present isTarget,
    required_eq_present isDecorated, rfl⟩

/-- A text that is read as a declaration is a source file from which the declaration is extracted. -/
theorem read_eq_present (accepted : read file text = .present d) :
    ∃ u, parse text = .ok u ∧ extract file u = .present d := by
  rw [read] at accepted
  split at accepted
  · cases accepted
  · next u parsed =>
    rw [parseFile] at parsed
    split at parsed
    · next parsed' =>
      cases parsed
      exact ⟨u, parsed', accepted⟩
    · cases parsed

theorem read_eq_extract {u : CompilationUnit} (parsed : parse text = .ok u) : read file text = extract file u := by
  simp only [read, parseFile, parsed]

/-- A declaration that is computed from the characters of a text. -/
theorem read_of_chars {cs : List Char} (isText : text = String.ofList cs)
    (computed : (parseChars cs).any (fun u => (extract file u).value? = some d) = true) :
    read file text = .present d := by
  obtain ⟨u, parsed, extracted⟩ := exists_parse isText computed
  exact (read_eq_extract parsed).trans (Attempt.eq_present_of_value? extracted)

/-- Reading gives a declaration or a reason. -/
theorem read_ne_empty : read file text ≠ .empty := by
  rw [read]
  split
  · exact fun absurd => by cases absurd
  · refine Attempt.bind_ne_empty required_ne_empty fun _ => ?_
    refine Attempt.bind_ne_empty required_ne_empty fun _ => ?_
    refine Attempt.bind_ne_empty required_ne_empty fun _ => ?_
    refine Attempt.bind_ne_empty required_ne_empty fun _ => ?_
    exact Attempt.bind_ne_empty required_ne_empty fun _ absurd => by cases absurd

end Decoration

end Forwarder
