/-
**Type variables and their texts.** What a substitution puts for a name.

* `mapIdentifiers_same` — a text whose names are all replaced by themselves.
* `Substitution.ofArguments_mem` — the entries are the given arguments, or `Object` where there is none.
* `Substitution.apply_cases` — a name stays, or its entry stands for it.
-/

import Forwarder.TypeName

namespace Forwarder.TypeName

/-- Names that are replaced by themselves. -/
theorem rewriteFrom_same {f : String → String} (same : ∀ name, f name = name) (cs : List Char) :
    ∀ (before : Option Char) (name : List Char), rewriteFrom f before name cs = name ++ cs := by
  have kept (before : Option Char) (name : List Char) (after : Option Char) :
      rewriteName f before name after = name := by
    unfold rewriteName
    rw [same, String.toList_ofList, ite_self]
  induction cs with
  | nil =>
    intro before name
    cases name <;> simp [rewriteFrom, kept]
  | cons c cs ih =>
    intro before name
    cases name with
    | nil =>
      simp only [rewriteFrom, List.isEmpty_nil, if_true]
      split <;> simp [ih]
    | cons first name =>
      simp only [rewriteFrom, List.isEmpty_cons, Bool.false_eq_true, if_false]
      split <;> simp [ih, kept]

theorem mapIdentifiers_same {f : String → String} (same : ∀ name, f name = name) (type : String) :
    mapIdentifiers f type = type := by
  rw [mapIdentifiers, rewriteFrom_same same, List.nil_append, String.ofList_toList]

end Forwarder.TypeName

namespace Forwarder.TypeName.Substitution

variable {mapping : Substitution}

/-- The names that a substitution replaces, and what by. -/
theorem ofArguments_mem {P : String → Prop} (object : P "Object") {names args : List String}
    (each : ∀ arg ∈ args, P arg) :
    ∀ entry ∈ ofArguments names args mapping, entry ∈ mapping ∨ entry.1 ∈ names ∧ P entry.2 := by
  induction names generalizing args mapping with
  | nil => exact fun entry member => .inl member
  | cons name names ih =>
    intro entry member
    have argument : P (args.head?.getD "Object") := by
      cases args with
      | nil => exact object
      | cons first args => exact each first List.mem_cons_self
    rw [ofArguments] at member
    rcases ih (fun arg isTail => each arg (List.mem_of_mem_tail isTail)) entry member with
      known | ⟨isName, holds⟩
    · split at known
      · exact .inl known
      · rcases List.mem_cons.mp known with rfl | before
        · exact .inr ⟨List.mem_cons_self, argument⟩
        · exact .inl before
    · exact .inr ⟨List.mem_cons_of_mem _ isName, holds⟩

/-- A name stays, or its entry stands for it. -/
theorem apply_cases (mapping : Substitution) (skip : List String) (name : String) :
    mapping.apply skip name = name ∨
      name ∉ skip ∧ (name, mapping.apply skip name) ∈ mapping := by
  unfold apply
  by_cases kept : name ∈ skip
  · rw [if_pos (List.contains_iff_mem.mpr kept)]
    exact .inl rfl
  · rw [if_neg (by simpa using kept)]
    cases found : mapping.lookup name with
    | none => exact .inl rfl
    | some text =>
      obtain ⟨front, back, same, -⟩ := List.lookup_eq_some_iff.mp found
      refine .inr ⟨kept, ?_⟩
      rw [same]
      exact List.mem_append_right _ List.mem_cons_self

end Forwarder.TypeName.Substitution
