/-
**Signatures of a generated class.** A forwarding method is found by its key before type arguments are put
into its types, and its signature is what they are afterwards.

* `Emit.MethodDef.signature` — the name and the erased parameter types of a generated method.
* `Method.signatureWith` — those of a method whose names are replaced, from the outlines of its types.
* `signature_override` — the signature of a forwarding method.
* **`signatures_exact`** — no signature is generated twice exactly if type arguments make no two of the
  forwarded methods alike, and only a name outside of argument lists can.
* `signature_twice` — methods that type arguments make alike.
-/

import Forwarder.Proofs.Forwarding.Coverage
import Forwarder.Proofs.Outline
import Mathlib.Data.List.Nodup

open Forwarder.TypeName (ClosedTexts Nested Part Substitution outerNames outline
  typeParamNames)

namespace Forwarder

/-! ### Signatures -/

/-- The erased type of a parameter; a variadic one is an array. -/
def Emit.Param.erased (p : Emit.Param) : String :=
  TypeName.eraseType p.type ++ (if p.variadic then "[]" else "")

/-- The name and the erased parameter types of a generated method. -/
def Emit.MethodDef.signature (g : Emit.MethodDef) : String × List String :=
  (g.name, g.params.map (·.erased))

/-- The erased type of a parameter whose names are replaced: what stands outside of argument lists, with
the erasures of what is put for the names there. -/
def Parameter.erasedWith (f : String → String) (p : Parameter) : String :=
  String.ofList ((outline p.type).flatMap (Part.erased f)) ++ (if p.variadic then "[]" else "")

/-- The name of a method and its erased parameter types, with names replaced. -/
def Method.signatureWith (f : String → String) (m : Method) : String × List String :=
  (m.name, m.params.map (·.erasedWith f))

/-- Something else is put for a name outside of argument lists in a parameter type. -/
def Method.Touched (f : String → String) (m : Method) : Prop :=
  ∃ p ∈ m.params, ∃ name ∈ outerNames p.type, f name ≠ name

namespace Method

variable {m n : Method} {f : String → String}

/-- Methods with different keys have different signatures. -/
theorem signature_eq_of_signatureWith (same : m.signatureWith id = n.signatureWith id) :
    m.signature = n.signature := by
  have erased (p : Parameter) : p.erasedWith id = p.erased := by
    rw [Parameter.erasedWith, ← TypeName.eraseType_eq_outline]
    rfl
  have params (m : Method) : m.params.map (·.erasedWith id) = m.params.map (·.erased) :=
    List.map_congr_left fun p _ => erased p
  obtain ⟨name, types⟩ := Prod.mk.inj same
  rw [params m, params n] at types
  rw [signature, signature, name, types]

theorem signatureWith_of_untouched (untouched : ¬m.Touched f) :
    m.signatureWith f = m.signatureWith id := by
  refine Prod.ext rfl (List.map_congr_left fun p member => ?_)
  have same : ∀ name ∈ outerNames p.type, f name = id name := fun name isName =>
    not_not.mp fun other => untouched ⟨p, member, name, isName, other⟩
  rw [Parameter.erasedWith, Parameter.erasedWith, TypeName.flatMap_erased_congr same]

end Method

namespace Forwarding

open Emit (ClassDef CompilationUnit MethodDef)

variable {d : Decoration} {s : Surface}

/-- What stands for a name in the types of a forwarding method. -/
def resolved (d : Decoration) (s : Surface) (m : Method) : String → String :=
  (typeArguments d s).apply (typeParamNames m.typeParams)

theorem closedTexts_resolved (closed : ∀ arg ∈ d.typeArgs, Nested arg.toList) (m : Method) :
    ClosedTexts (resolved d s m) := by
  intro name word
  rcases Substitution.apply_cases (typeArguments d s) (typeParamNames m.typeParams) name with
    same | ⟨-, entry⟩
  · rw [resolved, same]
    exact TypeName.nested_of_isWordText word
  · have object : Nested "Object".toList :=
      TypeName.nested_of_isWordText (List.all_eq_true.mp (by decide))
    rcases Substitution.ofArguments_mem object closed _ entry with absurd | ⟨-, nested⟩
    · cases absurd
    · exact nested

/-- **The signature of a forwarding method.** -/
theorem signature_override (closed : ∀ arg ∈ d.typeArgs, Nested arg.toList) (m : Method) :
    (override d s m).signature = m.signatureWith (resolved d s m) := by
  obtain ⟨params, name⟩ : (override d s m).params = m.params.map (fun p =>
      ⟨TypeName.mapIdentifiers (resolved d s m) p.type, p.name, p.variadic⟩) ∧
      (override d s m).name = m.name := by
    unfold override
    split_ifs <;> exact ⟨rfl, rfl⟩
  rw [MethodDef.signature, params, name, List.map_map]
  refine Prod.ext rfl (List.map_congr_left fun p _ => ?_)
  show TypeName.eraseType (TypeName.mapIdentifiers (resolved d s m) p.type) ++ _ = _
  rw [TypeName.eraseType_mapIdentifiers (closedTexts_resolved closed m)]
  rfl

/-- No forwarding method has the signature of the accessor. -/
theorem signature_ne_accessor (closed : ∀ arg ∈ d.typeArgs, Nested arg.toList) {m : Method}
    (member : m ∈ forwarded s) : (override d s m).signature ≠ (accessor d).signature := by
  intro same
  rw [signature_override closed] at same
  obtain ⟨name, params⟩ := Prod.mk.inj same
  have key : m.signature = accessorName ++ "()" := by
    rw [Method.signature, name, List.map_eq_nil_iff.mp params]
    rfl
  exact (((implClass_covers d s).complete m.signature).mp (List.mem_map_of_mem member)).2 key

theorem nodup_signatures_iff (closed : ∀ arg ∈ d.typeArgs, Nested arg.toList) :
    ((implClass d (overrides d s)).methods.map (·.signature)).Nodup ↔
      ∀ m ∈ forwarded s, ∀ n ∈ forwarded s,
        m.signatureWith (resolved d s m) = n.signatureWith (resolved d s n) → m = n := by
  have once : (forwarded s).Nodup := List.Nodup.of_map _ (implClass_covers d s).once
  have methods : (implClass d (overrides d s)).methods.map (·.signature) = (accessor d).signature ::
      (forwarded s).map fun m => m.signatureWith (resolved d s m) := by
    show (accessor d).signature :: ((forwarded s).map (override d s)).map (·.signature) = _
    rw [List.map_map]
    exact congrArg _ (List.map_congr_left fun m _ => signature_override closed m)
  rw [methods, List.nodup_cons, List.nodup_map_iff_inj_on once]
  refine and_iff_right fun accessorAgain => ?_
  obtain ⟨m, member, same⟩ := List.mem_map.mp accessorAgain
  exact signature_ne_accessor closed member ((signature_override closed m).trans same)

/-- **Which signatures are generated twice.** For a valid declaration whose type arguments close their
argument lists, and the surface of its type, the class has each signature once exactly if no two of the
forwarded methods get the same one when type arguments are put for names. They can only get the same one
if an argument is put for a name outside of argument lists in a parameter type of one of them. -/
theorem signatures_exact (d : Decoration) (s : Surface) (valid : d.isValid = true)
    (described : s.name = d.decorated) (closed : ∀ arg ∈ d.typeArgs, Nested arg.toList) :
    ∃ (unit : CompilationUnit) (c : ClassDef),
      synthesize d (some s) = .ok ⟨packageName d, d.implName, unit.render⟩ ∧ unit.classes = [c] ∧
      c.methods = accessor d :: (forwarded s).map (override d s) ∧
      ((c.methods.map (·.signature)).Nodup ↔ ∀ m ∈ forwarded s, ∀ n ∈ forwarded s,
        m.signatureWith (resolved d s m) = n.signatureWith (resolved d s n) → m = n) ∧
      ∀ m ∈ forwarded s, ∀ n ∈ forwarded s, m ≠ n →
        m.signatureWith (resolved d s m) = n.signatureWith (resolved d s n) →
        m.Touched (resolved d s m) ∨ n.Touched (resolved d s n) := by
  refine ⟨unit d (overrides d s), implClass d (overrides d s), synthesize_eq_ok valid described, rfl, rfl,
    nodup_signatures_iff closed, fun m isForwarded n isForwardedToo other same => ?_⟩
  by_contra untouched
  obtain ⟨first, second⟩ := not_or.mp untouched
  rw [Method.signatureWith_of_untouched first, Method.signatureWith_of_untouched second] at same
  refine other (List.inj_on_of_nodup_map (implClass_covers d s).once isForwarded isForwardedToo ?_)
  exact Method.signature_eq_of_signatureWith same

/-- A type with a parameter `T` and three methods of one name, which take a `T`, a `String` and an
`Object`. -/
def boxSurface : Surface :=
  let put (type : String) : Method :=
    ⟨"put", [⟨type, "value", false⟩], "void", .publicly, false, false, true, [], [], "q.Box"⟩
  ⟨"q.Box", ["T"], [], [put "T", put "String", put "Object"]⟩

/-- A declaration that decorates this type with some arguments. -/
def boxed (args : List String) : Decoration :=
  ⟨"Boxed", "p", "q.Box", [], args, "Boxed.java"⟩

theorem signatures_exact_boxed :
    (boxed ["Integer"]).isValid = true ∧ boxSurface.name = (boxed ["Integer"]).decorated ∧
      (∀ arg ∈ (boxed ["Integer"]).typeArgs, Nested arg.toList) ∧
      ∃ (unit : CompilationUnit) (c : ClassDef),
        synthesize (boxed ["Integer"]) (some boxSurface) =
          .ok ⟨packageName (boxed ["Integer"]), (boxed ["Integer"]).implName, unit.render⟩ ∧
        unit.classes = [c] ∧ (c.methods.map (·.signature)).Nodup := by
  have valid : (boxed ["Integer"]).isValid = true := by decide
  have closed : ∀ arg ∈ (boxed ["Integer"]).typeArgs, Nested arg.toList :=
    List.forall_mem_singleton.mpr
      (TypeName.nested_of_isWordText (List.all_eq_true.mp (by decide)))
  obtain ⟨unit, c, synthesized, classes, -, exact_, -⟩ :=
    signatures_exact (boxed ["Integer"]) boxSurface valid rfl closed
  exact ⟨valid, rfl, closed, unit, c, synthesized, classes, exact_.mpr (by decide)⟩

/-- **A signature is generated twice.** The keys of the methods are different, and with the argument
`String` two of them become `put(String)`; without an argument, two of them become `put(Object)`. -/
theorem signature_twice :
    (boxSurface.methods.map (·.signature)).Nodup ∧
      ∀ args ∈ [["String"], []], (boxed args).isValid = true ∧ boxSurface.name = (boxed args).decorated ∧
        ∃ (unit : CompilationUnit) (c : ClassDef),
          synthesize (boxed args) (some boxSurface) =
            .ok ⟨packageName (boxed args), (boxed args).implName, unit.render⟩ ∧
          unit.classes = [c] ∧ ¬(c.methods.map (·.signature)).Nodup := by
  have twice : ∀ args ∈ [["String"], []],
      ¬((implClass (boxed args) (overrides (boxed args) boxSurface)).methods.map (·.signature)).Nodup := by decide
  refine ⟨by decide, fun args member => ?_⟩
  have valid : ("Boxed" != "" && "p" != "" && TypeName.isDotted "q.Box") = true := by decide
  exact ⟨valid, rfl, unit (boxed args) (overrides (boxed args) boxSurface),
    implClass (boxed args) (overrides (boxed args) boxSurface),
    synthesize_eq_ok valid rfl, rfl, twice args member⟩

end Forwarding

end Forwarder
