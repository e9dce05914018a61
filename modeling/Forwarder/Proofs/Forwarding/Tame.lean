/-
**Generated files are tame.** A generated file holds its own words, the texts of the declaration and those
of the methods, with something that is no part of a word between any two of them. It has no `implements`
clause, so if these texts are tame, the header pattern passes the file over.

* `MethodDef.Tame`, `ClassDef.Tame` — the texts of generated code are tame.
* **`CompilationUnit.tame_render`** — then the file is tame.
* `Forwarding.tame_override` — a forwarding method.
* **`Forwarding.unmatched_unit`** — no file that is generated from tame texts looks like a declaration.
-/

import Forwarder.Proofs.Forwarding.ReadBack
import Forwarder.Proofs.Loading.Tame

namespace Forwarder

open HeaderPattern (Tame delimits tame_append_cons)
open Text (isWordChar)

/-! ### Names of classes -/

/-- A word that does not end in `s` is not `implements`. -/
theorem tame_of_word {cs : List Char} (word : ∀ c ∈ cs, isWordChar c = true)
    (last : cs.getLast? ≠ some 's') : Tame cs := by
  have single : HeaderPattern.words cs = [cs.dropWhile Char.isDigit] := by
    rw [HeaderPattern.words, List.splitOnP_eq_singleton]
    · rfl
    · simpa using word
  rw [Tame, single, List.mem_singleton]
  intro same
  have isSuffix : "implements".toList <:+ cs := same ▸ List.dropWhile_suffix _
  obtain ⟨front, rfl⟩ := isSuffix
  rw [List.getLast?_append] at last
  exact last rfl

/-- The last word of a text is made longer. -/
theorem tame_append_word {ending : List Char} (word : ∀ c ∈ ending, isWordChar c = true)
    (some_ : ending ≠ []) (last : ending.getLast? ≠ some 's') (cs : List Char) (tame : Tame cs) :
    Tame (cs ++ ending) := by
  by_cases inWord : ∀ c ∈ cs, isWordChar c = true
  · refine tame_of_word (List.forall_mem_append.mpr ⟨inWord, word⟩) ?_
    rwa [List.getLast?_append_of_ne_nil _ some_]
  · push Not at inWord
    obtain ⟨c, member, other⟩ := inWord
    have mark : isWordChar c = false := Bool.eq_false_iff.mpr other
    obtain ⟨front, back, split⟩ := List.append_of_mem member
    have shorter : back.length < cs.length := by
      rw [split, List.length_append, List.length_cons]
      omega
    rw [split] at tame ⊢
    obtain ⟨ofFront, ofBack⟩ := (tame_append_cons mark).mp tame
    rw [List.append_assoc, List.cons_append]
    exact (tame_append_cons mark).mpr ⟨ofFront, tame_append_word word some_ last back ofBack⟩
termination_by cs.length

theorem Decoration.Tame.implName {d : Decoration} (tame : d.Tame) : IsTame d.implName := by
  have appended : HeaderPattern.Tame (d.className.toList ++ "Impl".toList) :=
    tame_append_word (List.all_eq_true.mp (by decide)) (by decide) (by decide) _ tame.className
  rwa [← String.toList_append] at appended

/-! ### Generated code -/

namespace Emit

/-- Texts with a mark behind each of them, and one more text. -/
theorem tame_joined_append {mark text : String} {parts : List String} (isMark : IsMark mark)
    (each : ∀ part ∈ parts, IsTame part) (tame : IsTame text) :
    IsTame (String.join (parts.map (· ++ mark)) ++ text) := by
  induction parts with
  | nil => simpa using tame
  | cons part parts ih =>
    obtain ⟨first, others⟩ := List.forall_mem_cons.mp each
    rw [List.map_cons, String.join_cons, String.append_assoc]
    exact first.around (ih others) isMark

theorem tame_modifierText {modifiers : List String} {text : String}
    (each : ∀ modifier ∈ modifiers, IsTame modifier) (tame : IsTame text) :
    IsTame (modifierText modifiers ++ text) :=
  tame_joined_append (by decide) each tame

theorem tame_typeParamText {params : List String} {text : String} (tame : IsTame text)
    (each : ∀ param ∈ params, IsTame param) : IsTame (text ++ typeParamText params) := by
  rw [typeParamText]
  split_ifs
  · simpa using tame
  · rw [← String.append_assoc, ← String.append_assoc]
    exact (tame.around (.join (by decide) each) (by decide)).before (by decide)

/-- The texts of a parameter are tame. -/
structure Param.Tame (p : Param) : Prop where
  type : IsTame p.type
  name : IsTame p.name

theorem tame_paramText {params : List Param} (each : ∀ p ∈ params, p.Tame) :
    IsTame (paramText params) := by
  refine .join (by decide) (List.forall_mem_map.mpr fun p member => ?_)
  rw [Param.render]
  split_ifs
  · exact (each p member).type.around (each p member).name (by decide)
  · exact (each p member).type.around (each p member).name (by decide)

theorem tame_throws {names : List String} {text : String} (tame : IsTame text)
    (each : ∀ name ∈ names, IsTame name) : IsTame (text ++ clauseText "throws" names) := by
  have keyword : IsMark (" " ++ "throws" ++ " ") := by
    decide
  rw [clauseText]
  split_ifs
  · simpa using tame
  · rw [← String.append_assoc]
    exact tame.around (.join (by decide) each) keyword

theorem tame_indented {lines : List String} (each : ∀ line ∈ lines, IsTame line) :
    ∀ line ∈ indented lines, IsTame line := by
  refine List.forall_mem_map.mpr fun line member => ?_
  split_ifs
  · exact each line member
  · exact (each line member).behind (by decide)

theorem tame_bodyLines {body : List Statement} (each : ∀ s ∈ body, IsTame s.render) :
    ∀ line ∈ bodyLines body, IsTame line :=
  tame_indented (List.forall_mem_map.mpr each)

/-! ### Declarations -/

/-- The texts of a field are tame. -/
structure FieldDef.Tame (f : FieldDef) : Prop where
  modifiers : ∀ modifier ∈ f.modifiers, IsTame modifier
  type : IsTame f.type
  name : IsTame f.name

/-- The texts of a constructor are tame. -/
structure ConstructorDef.Tame (c : ConstructorDef) : Prop where
  modifiers : ∀ modifier ∈ c.modifiers, IsTame modifier
  name : IsTame c.name
  params : ∀ p ∈ c.params, p.Tame
  body : ∀ s ∈ c.body, IsTame s.render

/-- The texts of a method are tame. -/
structure MethodDef.Tame (m : MethodDef) : Prop where
  modifiers : ∀ modifier ∈ m.modifiers, IsTame modifier
  typeParams : ∀ param ∈ m.typeParams, IsTame param
  returns : IsTame m.returns
  name : IsTame m.name
  params : ∀ p ∈ m.params, p.Tame
  throws : ∀ type ∈ m.throws, IsTame type
  body : ∀ s ∈ m.body, IsTame s.render

/-- The texts of a class are tame, and it is not said to implement anything. -/
structure ClassDef.Tame (c : ClassDef) : Prop where
  modifiers : ∀ modifier ∈ c.modifiers, IsTame modifier
  name : IsTame c.name
  typeParams : ∀ param ∈ c.typeParams, IsTame param
  superclass : IsTame c.superclass
  interfaces : c.interfaces = []
  fields : ∀ f ∈ c.fields, f.Tame
  constructors : ∀ constructor ∈ c.constructors, constructor.Tame
  methods : ∀ m ∈ c.methods, m.Tame

theorem FieldDef.tame_lines {f : FieldDef} (tame : f.Tame) : ∀ line ∈ f.lines, IsTame line := by
  refine List.forall_mem_singleton.mpr ?_
  exact ((tame_modifierText tame.modifiers tame.type).around tame.name (by decide)).before (by decide)

theorem ConstructorDef.tame_lines {c : ConstructorDef} (tame : c.Tame) :
    ∀ line ∈ c.lines, IsTame line := by
  have head := ((tame_modifierText tame.modifiers tame.name).around (tame_paramText tame.params)
    (by decide : IsMark "(")).before (by decide : IsMark ") \x7b")
  refine List.forall_mem_append.mpr ⟨List.forall_mem_append.mpr ⟨?_, tame_bodyLines tame.body⟩, ?_⟩
  · exact List.forall_mem_singleton.mpr head
  · exact List.forall_mem_singleton.mpr (by decide)

theorem MethodDef.tame_head {m : MethodDef} (tame : m.Tame) : IsTame m.head := by
  have front : IsTame (modifierText m.modifiers ++
      (if m.typeParams.isEmpty then "" else typeParamText m.typeParams ++ " ") ++ m.returns) := by
    split_ifs
    · rw [String.append_empty]
      exact tame_modifierText tame.modifiers tame.returns
    · have params : IsTame ("" ++ typeParamText m.typeParams) :=
        tame_typeParamText .empty tame.typeParams
      rw [String.empty_append] at params
      rw [← String.append_assoc]
      exact (tame_modifierText tame.modifiers params).around tame.returns (by decide)
  have named := (front.around tame.name (by decide : IsMark " ")).around (tame_paramText tame.params)
    (by decide : IsMark "(")
  exact (tame_throws (named.before (by decide : IsMark ")")) tame.throws).before (by decide)

theorem MethodDef.tame_lines {m : MethodDef} (tame : m.Tame) : ∀ line ∈ m.lines, IsTame line := by
  refine List.forall_mem_append.mpr ⟨List.forall_mem_append.mpr ⟨?_, tame_bodyLines tame.body⟩, ?_⟩
  · exact List.forall_mem_singleton.mpr (tame_head tame)
  · exact List.forall_mem_singleton.mpr (by decide)

/-- The head of a class without an `implements` clause. -/
theorem ClassDef.tame_head {c : ClassDef} (tame : c.Tame) : IsTame c.head := by
  have keyword : IsTame ("class " ++ c.name) :=
    IsTame.append (by decide) tame.name (.inl (by decide))
  have named : IsTame (modifierText c.modifiers ++ "class " ++ c.name) := by
    rw [String.append_assoc]
    exact tame_modifierText tame.modifiers keyword
  have params := tame_typeParamText named tame.typeParams
  have extended : IsTame (modifierText c.modifiers ++ "class " ++ c.name ++ typeParamText c.typeParams ++
      (if c.superclass.isEmpty then "" else " extends " ++ c.superclass)) := by
    split_ifs
    · rwa [String.append_empty]
    · rw [← String.append_assoc]
      exact params.around tame.superclass (by decide)
  rw [ClassDef.head, tame.interfaces, clauseText, List.isEmpty_nil, if_pos rfl, String.append_empty]
  exact extended.before (by decide)

theorem ClassDef.tame_lines {c : ClassDef} (tame : c.Tame) : ∀ line ∈ c.lines, IsTame line := by
  have members : ∀ lines ∈ c.fields.map (·.lines) ++ c.constructors.map (·.lines) ++
      c.methods.map (·.lines), ∀ line ∈ lines, IsTame line := by
    refine List.forall_mem_append.mpr ⟨List.forall_mem_append.mpr ⟨?_, ?_⟩, ?_⟩
    · exact List.forall_mem_map.mpr fun f member => FieldDef.tame_lines (tame.fields f member)
    · exact List.forall_mem_map.mpr fun constructor member =>
        ConstructorDef.tame_lines (tame.constructors constructor member)
    · exact List.forall_mem_map.mpr fun m member => MethodDef.tame_lines (tame.methods m member)
  refine List.forall_mem_append.mpr ⟨List.forall_mem_append.mpr ⟨?_, ?_⟩, ?_⟩
  · exact List.forall_mem_singleton.mpr (tame_head tame)
  · exact List.forall_mem_flatMap.mpr fun lines member =>
      List.forall_mem_cons.mpr ⟨by decide, tame_indented (members lines member)⟩
  · exact List.forall_mem_singleton.mpr (by decide)

theorem tame_apart {groups : List (List String)} (each : ∀ lines ∈ groups, ∀ line ∈ lines, IsTame line) :
    ∀ line ∈ apart groups, IsTame line := by
  induction groups with
  | nil => exact List.forall_mem_nil _
  | cons lines groups ih =>
    obtain ⟨first, others⟩ := List.forall_mem_cons.mp each
    cases groups with
    | nil => exact first
    | cons next groups =>
      exact List.forall_mem_append.mpr ⟨first, List.forall_mem_cons.mpr ⟨by decide, ih others⟩⟩

theorem tame_paragraph {lines : List String} (each : ∀ line ∈ lines, IsTame line) :
    ∀ line ∈ paragraph lines, IsTame line := by
  rw [paragraph]
  split_ifs
  · exact List.forall_mem_nil _
  · exact List.forall_mem_append.mpr ⟨each, List.forall_mem_singleton.mpr (by decide)⟩

/-- **A file of tame texts** is tame. -/
theorem CompilationUnit.tame_render {u : CompilationUnit} (header : ∀ line ∈ u.header, IsTame line)
    (package : IsTame u.packageName) (imports : ∀ name ∈ u.imports, IsTame name)
    (classes : ∀ c ∈ u.classes, c.Tame) : IsTame u.render := by
  refine .joined (by decide) (List.forall_mem_append.mpr ⟨List.forall_mem_append.mpr
    ⟨List.forall_mem_append.mpr ⟨?_, ?_⟩, ?_⟩, ?_⟩)
  · exact tame_paragraph (List.forall_mem_map.mpr fun line member =>
      (header line member).behind (by decide))
  · refine tame_paragraph ?_
    split_ifs
    · exact List.forall_mem_nil _
    · refine List.forall_mem_singleton.mpr (IsTame.before ?_ (by decide))
      exact IsTame.append (by decide) package (.inl (by decide))
  · refine tame_paragraph (List.forall_mem_map.mpr fun name member => IsTame.before ?_ (by decide))
    exact IsTame.append (by decide) (imports name member) (.inl (by decide))
  · exact tame_apart (List.forall_mem_map.mpr fun c member => ClassDef.tame_lines (classes c member))

/-! ### Expressions -/

theorem tame_renderExprs {args : List Expr} (each : ∀ arg ∈ args, IsTame arg.render) :
    IsTame (renderExprs args) := by
  induction args with
  | nil => decide
  | cons arg args ih =>
    obtain ⟨first, others⟩ := List.forall_mem_cons.mp each
    cases args with
    | nil => exact first
    | cons next args =>
      rw [renderExprs]
      · exact first.around (ih others) (by decide)
      · exact List.cons_ne_nil _ _

theorem Expr.tame_send {target : Expr} {name : String} {args : List Expr} (ofTarget : IsTame target.render)
    (ofName : IsTame name) (each : ∀ arg ∈ args, IsTame arg.render) :
    IsTame (Expr.send target name args).render := by
  rw [Expr.render]
  exact ((ofTarget.around ofName (by decide)).around (tame_renderExprs each) (by decide)).before (by decide)

theorem Expr.tame_create {type : String} {args : List Expr} (ofType : IsTame type)
    (each : ∀ arg ∈ args, IsTame arg.render) : IsTame (Expr.create type args).render := by
  have front : IsTame ("new " ++ type) := IsTame.append (by decide) ofType (.inl (by decide))
  rw [Expr.render]
  exact (front.around (tame_renderExprs each) (by decide)).before (by decide)

theorem Expr.tame_cast {type : String} {value : Expr} (ofType : IsTame type) (ofValue : IsTame value.render) :
    IsTame (Expr.cast type value).render := by
  rw [Expr.render]
  exact (ofType.behind (by decide)).around ofValue (by decide)

theorem Statement.tame_returns {value : Expr} (tame : IsTame value.render) :
    IsTame (Statement.returns value).render := by
  rw [Statement.render]
  split_ifs
  · decide
  · have front : IsTame ("return " ++ value.render) := IsTame.append (by decide) tame (.inl (by decide))
    exact front.before (by decide)

end Emit

/-! ### Generated files -/

namespace Forwarding

open Emit

variable {d : Decoration} {s : Surface}

theorem tame_parameterized {name : String} (ofName : IsTame name) {args : List String}
    (each : ∀ arg ∈ args, IsTame arg) : IsTame (parameterized name args) := by
  rw [parameterized]
  split_ifs
  · exact ofName
  · exact (ofName.around (.join (by decide) each) (by decide)).before (by decide)

section Names

variable (tame : d.Tame)

include tame

theorem tame_implType : IsTame (implType d) :=
  tame_parameterized tame.implName (isTame_typeParamNames tame.typeParams)

theorem tame_declaredType : IsTame (declaredType d) :=
  tame_parameterized tame.className (isTame_typeParamNames tame.typeParams)

theorem tame_delegateType : IsTame (delegateType d) :=
  tame_parameterized tame.decorated.simpleName tame.typeArgs

theorem tame_imports : ∀ name ∈ (imports d).names, IsTame name := by
  intro name member
  rcases mem_of_mem_addAll member with none_ | added
  · cases none_
  · simp only [List.mem_cons, List.not_mem_nil, or_false] at added
    rcases added with rfl | rfl
    · exact tame.decorated
    · exact tame.packageName.around tame.className (by decide)

end Names

/-- The call of the delegate's method. -/
theorem tame_delegateCall {m : Method} (tame : m.Tame) : IsTame (delegateCall m).render :=
  Expr.tame_send (by decide) tame.name
    (List.forall_mem_map.mpr fun p isParam => (tame.params p isParam).2)

/-- **A forwarding method** of a method. -/
theorem tame_override (tame : d.Tame) {m : Method} (ofMethod : m.Tame) : (override d s m).Tame := by
  have resolve {type : String} (ofType : IsTame type) : IsTame (TypeName.substitute (typeArguments d s)
      (TypeName.typeParamNames m.typeParams) type) :=
    ofType.substitute (tame_ofArguments tame.typeArgs _) _
  have call := tame_delegateCall ofMethod
  have modifiers : ∀ modifier ∈ [m.visibility.name], IsTame modifier :=
    List.forall_mem_singleton.mpr (by cases m.visibility <;> decide)
  have typeParams := List.forall_mem_map.mpr fun param isParam => resolve (ofMethod.typeParams param isParam)
  have throws := List.forall_mem_map.mpr fun type isThrown => resolve (ofMethod.throws type isThrown)
  have params : ∀ p ∈ m.params.map fun p => (⟨TypeName.substitute (typeArguments d s)
      (TypeName.typeParamNames m.typeParams) p.type, p.name, p.variadic⟩ : Param), p.Tame :=
    List.forall_mem_map.mpr fun p isParam =>
      ⟨resolve (ofMethod.params p isParam).1, (ofMethod.params p isParam).2⟩
  rw [override]
  dsimp only
  split_ifs with void chained known
  · exact ⟨modifiers, typeParams, resolve ofMethod.returns, ofMethod.name, params, throws,
      List.forall_mem_singleton.mpr (call.before (by decide))⟩
  · refine ⟨modifiers, typeParams, tame_declaredType tame, ofMethod.name, params, throws,
      List.forall_mem_singleton.mpr (Statement.tame_returns ?_)⟩
    exact Expr.tame_create (tame_implType tame) (List.forall_mem_singleton.mpr call)
  · refine ⟨modifiers, typeParams, tame_declaredType tame, ofMethod.name, params, throws,
      List.forall_mem_singleton.mpr (Statement.tame_returns ?_)⟩
    exact Expr.tame_create (tame_implType tame)
      (List.forall_mem_singleton.mpr (Expr.tame_cast (tame_delegateType tame) call))
  · exact ⟨modifiers, typeParams, resolve ofMethod.returns, ofMethod.name, params, throws,
      List.forall_mem_singleton.mpr (Statement.tame_returns call)⟩

theorem tame_public : ∀ modifier ∈ ["public"], IsTame modifier := by
  decide

theorem tame_delegateName : IsTame delegateName := by
  decide

theorem tame_delegateField (tame : d.Tame) : (delegateField d).Tame where
  modifiers := (by decide : ∀ modifier ∈ ["private", "final"], IsTame modifier)
  type := tame_delegateType tame
  name := tame_delegateName

theorem tame_delegateConstructor (tame : d.Tame) : (delegateConstructor d).Tame where
  modifiers := tame_public
  name := tame.implName
  params := List.forall_mem_singleton.mpr ⟨tame_delegateType tame, tame_delegateName⟩
  body := List.forall_mem_singleton.mpr (by decide)

theorem tame_accessor (tame : d.Tame) : (accessor d).Tame where
  modifiers := tame_public
  typeParams := List.forall_mem_nil _
  returns := tame_delegateType tame
  name := (by decide : IsTame accessorName)
  params := List.forall_mem_nil _
  throws := List.forall_mem_nil _
  body := List.forall_mem_singleton.mpr (by decide)

/-- The generated class. -/
theorem tame_implClass (tame : d.Tame) (ofSurface : s.Tame) : (implClass d (overrides d s)).Tame where
  modifiers := tame_public
  name := tame.implName
  typeParams := tame.typeParams
  superclass := tame_declaredType tame
  interfaces := rfl
  fields := List.forall_mem_singleton.mpr (tame_delegateField tame)
  constructors := List.forall_mem_singleton.mpr (tame_delegateConstructor tame)
  methods := by
    refine List.forall_mem_cons.mpr ⟨tame_accessor tame, List.forall_mem_map.mpr fun m member => ?_⟩
    have isMethod := (List.mem_filter.mp ((Method.unseen_sublist _ _).mem member)).1
    exact tame_override tame (ofSurface m isMethod)

/-- **No generated file looks like a declaration**, if what it is made of is tame. -/
theorem unmatched_unit (tame : d.Tame) (ofSurface : s.Tame) :
    HeaderPattern.matchesDecorator (unit d (overrides d s)).render = false := by
  have header : ∀ line ∈ [headerText], IsTame line := by
    decide
  have package : IsTame (packageName d) :=
    (by decide : IsTame packageRoot).around tame.packageName (by decide)
  have rendered : IsTame (unit d (overrides d s)).render :=
    CompilationUnit.tame_render header package (tame_imports tame)
      (List.forall_mem_singleton.mpr (tame_implClass tame ofSurface))
  exact rendered.unmatched

end Forwarding

end Forwarder
