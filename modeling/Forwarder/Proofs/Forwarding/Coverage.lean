/-
**Which methods a forwarding class holds, and what they do.**

* `TypeName.eraseType_idem` — an erased type is its own erasure.
* `Forwarding.IsDecorated` — the erased type of a value is that of the decorated type or of one of
  its supertypes, and no type variable has its name.
* `Forwarding.Delegates` — a forwarding method has the shape of the method it stands for and calls
  the delegate's method with its own parameters.
* `Forwarding.mapM_method` — all methods that are forwarded are allowed a forwarding method.
* **`Forwarding.synthesize_covers`** — a valid declaration and the surface of its decorated type give
  a class with the accessor and exactly one forwarding method for each key that can be overridden.
-/

import Forwarder.Forwarding
import Forwarder.Proofs.Method

namespace Forwarder

/-! ### Erased types -/

namespace TypeName

/-- Erasure leaves a text without brackets and spaces as it is. -/
theorem eraseFrom_eq_self {cs : List Char} (plain : ∀ c ∈ cs, c ≠ '<' ∧ c ≠ '>' ∧ c ≠ ' ') :
    eraseFrom 0 cs = cs := by
  induction cs with
  | nil => rfl
  | cons c rest ih =>
    obtain ⟨noOpen, noClose, noSpace⟩ := plain c List.mem_cons_self
    rw [eraseFrom, if_neg noOpen, if_neg noClose, if_pos ⟨rfl, noSpace⟩,
      ih fun c member => plain c (List.mem_cons_of_mem _ member)]

/-- Erasure keeps no bracket and no space. -/
theorem plain_of_mem_eraseFrom {depth : Nat} {cs : List Char} {c : Char}
    (member : c ∈ eraseFrom depth cs) : c ≠ '<' ∧ c ≠ '>' ∧ c ≠ ' ' := by
  induction cs generalizing depth with
  | nil => exact absurd member List.not_mem_nil
  | cons first rest ih =>
    rw [eraseFrom] at member
    split at member
    · exact ih member
    · split at member
      · exact ih member
      · next noOpen noClose =>
        split at member
        · next kept =>
          rcases List.mem_cons.mp member with rfl | later
          · exact ⟨noOpen, noClose, kept.2⟩
          · exact ih later
        · exact ih member

/-- **An erased type is its own erasure.** -/
theorem eraseType_idem (type : String) : eraseType (eraseType type) = eraseType type := by
  unfold eraseType
  rw [String.toList_ofList, eraseFrom_eq_self fun _ member => plain_of_mem_eraseFrom member]

end TypeName

/-! ### Forwarding methods -/

namespace Forwarding

open Emit

/-- The value of the method is of the decorated type: its erased type is, by its full name or, if it
has no qualifier, by its simple name, that type or one of its supertypes; and it names neither a type
variable of the method nor one of the surface. -/
def IsDecorated (s : Surface) (m : Method) : Prop :=
  let erased := TypeName.eraseType m.returns
  (erased ≠ "" ∧ ∃ name ∈ s.name :: s.supertypes,
      name = erased ∨ TypeName.isDotted erased = false ∧ TypeName.simpleName name = erased) ∧
    erased ∉ TypeName.typeParamNames m.typeParams ∧ erased ∉ TypeName.typeParamNames s.typeParams

theorem chains_iff (s : Surface) (m : Method) : chains s m = true ↔ IsDecorated s m := by
  simp only [chains, IsDecorated, Surface.isA, Surface.names, TypeName.eraseType_idem,
    Bool.and_eq_true, Bool.not_eq_true', Bool.eq_false_iff, ne_eq, List.contains_iff_mem,
    List.any_eq_true, Bool.or_eq_true, beq_iff_eq, bne_iff_ne]
  exact and_comm

/-- The method `g` stands for `m`: it has its name, its visibility and, name by name and mark by
mark, its parameters; and its only statement calls the delegate's method with these parameters. The
value is returned unless there is none, decorated again if it is of the decorated type. -/
structure Delegates (d : Decoration) (s : Surface) (m : Method) (g : MethodDef) : Prop where
  name : g.name = m.name
  visibility : g.modifiers = [m.visibility.name]
  params : g.params.map (fun p => (p.name, p.variadic)) = m.params.map fun p => (p.name, p.variadic)
  body :
    let call := Expr.send (.thisField "delegate") m.name (g.params.map fun p => .name p.name)
    g.body = [.run call] ∨ g.body = [.returns call] ∨
      ∃ value, (value = call ∨ value = .cast (delegateType d) call) ∧
        g.body = [.returns (.create (implType d) [value])]
  statement : (∃ e, g.body = [.run e]) ↔ m.isVoid = true
  wrapped : (∃ args, g.body = [.returns (.create (implType d) args)] ∧ g.returns = declaredType d) ↔
    m.isVoid = false ∧ IsDecorated s m

theorem override_delegates (d : Decoration) (s : Surface) (m : Method) :
    Delegates d s m (override d s m) := by
  have decorated := chains_iff s m
  by_cases isVoid : m.isVoid = true
  · have shape : override d s m = { override d s m with body := [.run (delegateCall m)] } := by
      simp [override, isVoid]
    constructor <;> rw [shape] <;> simp [override, isVoid, delegateCall, delegateName]
  · by_cases chained : chains s m = true
    · constructor <;> by_cases spelled : isDelegateType d (TypeName.substitute (typeArguments d s)
        (TypeName.typeParamNames m.typeParams) m.returns) = true <;>
        simp [override, isVoid, chained, spelled, delegateCall, delegateName, ← decorated]
    · constructor <;>
        simp [override, isVoid, chained, delegateCall, delegateName, ← decorated]

/-- Every method that is forwarded can be overridden. -/
theorem isOverridable_of_mem_forwarded {s : Surface} {m : Method} (member : m ∈ forwarded s) :
    m.isOverridable = true :=
  (List.mem_filter.mp ((Method.unseen_sublist _ _).mem member)).2

/-- A method that can be overridden does get its override. -/
theorem method_eq_ok (d : Decoration) (s : Surface) {m : Method} (overridable : m.isOverridable = true) :
    method d s m = .ok (override d s m) := by
  have seen : m.visibility = .publicly ∨ m.visibility = .protectedly := by
    simpa using (Bool.and_eq_true_iff.mp overridable).2
  rcases seen with seen | seen <;> rw [method, seen]

/-- The overrides of a class, in the order of the surface. -/
def overrides (d : Decoration) (s : Surface) : List MethodDef :=
  (forwarded s).map (override d s)

/-- No method that is forwarded breaks the assumption about its visibility. -/
theorem mapM_method (d : Decoration) (s : Surface) :
    (forwarded s).mapM (method d s) = .ok (overrides d s) := by
  have overridable : ∀ m ∈ forwarded s, m.isOverridable = true :=
    fun m member => isOverridable_of_mem_forwarded member
  rw [overrides]
  generalize forwarded s = forwarded at overridable ⊢
  induction forwarded with
  | nil => rfl
  | cons m rest ih =>
    rw [List.mapM_cons, method_eq_ok d s (overridable m List.mem_cons_self),
      ih fun other member => overridable other (List.mem_cons_of_mem _ member)]
    rfl

/-- The class `c` covers the surface: it holds the accessor of the delegate and then, in the order of
the surface, a forwarding method for each method of `picked`, the first one of each key that can be
overridden, the key of the accessor excepted. Nothing static, final, private or package-private is
among them, so that each of them is allowed a forwarding method. -/
structure Covers (d : Decoration) (s : Surface) (c : ClassDef) (picked : List Method) : Prop where
  name : c.name = d.implName
  accessorFirst : (accessor d).name = "getDelegate"
  methods : c.methods = accessor d :: picked.map (override d s)
  allowed : ∀ m ∈ picked, method d s m = .ok (override d s m)
  delegates : ∀ m ∈ picked, Delegates d s m (override d s m)
  ordered : picked.Sublist s.overridable
  once : (picked.map (·.signature)).Nodup
  complete : ∀ key, key ∈ picked.map (·.signature) ↔
    key ∈ s.overridable.map (·.signature) ∧ key ≠ "getDelegate()"
  first : ∀ m ∈ picked, s.overridable.find? (·.signature == m.signature) = some m
  eligible : ∀ m ∈ picked, m.isStatic = false ∧ m.isFinal = false ∧
    (m.visibility = .publicly ∨ m.visibility = .protectedly)

theorem implClass_covers (d : Decoration) (s : Surface) :
    Covers d s (implClass d (overrides d s)) (forwarded s) where
  name := rfl
  accessorFirst := rfl
  methods := rfl
  allowed m picked := method_eq_ok d s (isOverridable_of_mem_forwarded picked)
  delegates m _ := override_delegates d s m
  ordered := Method.unseen_sublist _ _
  once := Method.unseen_nodup _ _
  complete key := by
    rw [forwarded, Method.mem_signature_unseen, List.mem_singleton]
    rfl
  first m picked := Method.find?_of_mem_unseen picked
  eligible m picked := by
    have overridable := isOverridable_of_mem_forwarded picked
    simpa [Method.isOverridable, and_assoc] using overridable

theorem synthesize_eq_ok {d : Decoration} {s : Surface} (valid : d.isValid = true)
    (described : s.name = d.decorated) :
    synthesize d (some s) = .ok ⟨packageName d, d.implName, (unit d (overrides d s)).render⟩ := by
  rw [synthesize, if_pos valid]
  simp only [described, if_true, mapM_method]

/-- **A forwarding class covers the surface of its type.** A valid declaration and the surface of its
decorated type give a file with one class, and that class covers the surface. -/
theorem synthesize_covers (d : Decoration) (s : Surface) (valid : d.isValid = true)
    (described : s.name = d.decorated) :
    ∃ (unit : CompilationUnit) (c : ClassDef) (picked : List Method),
      synthesize d (some s) = .ok ⟨packageName d, d.implName, unit.render⟩ ∧
      unit.classes = [c] ∧ Covers d s c picked := by
  exact ⟨unit d (overrides d s), implClass d (overrides d s), forwarded s,
    synthesize_eq_ok valid described, rfl, implClass_covers d s⟩

/-- A declaration that decorates a list. -/
def trail : Decoration :=
  ⟨"Trail", "p", "util.List", ["T"], ["T"], "Trail.java"⟩

/-- A list with a method of each kind: one that returns a type variable, one that returns a list, a
second one with a known key, one with the key of the accessor, and a static one. -/
def listSurface : Surface :=
  let plain (name returns : String) : Method :=
    ⟨name, [], returns, .publicly, false, false, true, [], [], "util.List"⟩
  ⟨"util.List", ["E"], ["java.lang.Object"],
    [plain "first" "E", plain "tail" "List<E>", plain "first" "Object", plain "getDelegate" "E",
      { plain "of" "List<E>" with isStatic := true }]⟩

theorem synthesize_covers_trail :
    trail.isValid = true ∧ listSurface.name = trail.decorated ∧
      ∃ (unit : CompilationUnit) (c : ClassDef) (picked : List Method),
        synthesize trail (some listSurface) = .ok ⟨packageName trail, trail.implName, unit.render⟩ ∧
        unit.classes = [c] ∧ Covers trail listSurface c picked :=
  have valid : trail.isValid = true := by decide
  ⟨valid, rfl, synthesize_covers trail listSurface valid rfl⟩

end Forwarding

end Forwarder
