/-
**The names of method type parameters.** A method may override another one under other names for its type
parameters. Erasure drops the names in argument lists, but it leaves a type variable where it stands for
the type of a parameter, under the name it has.

* `Method.renamed`, `Method.IsRenaming` — a method with other names for its own type parameters.
* `Method.Exposes` — a type parameter is, or is the element of, the type of a parameter.
* `TypeName.erased_cancel` — where two names of a text differ, so do the texts.
* **`Method.signature_renamed_exact`** — a renamed method has the same key, and is taken for the same
  method, unless one of its own names is exposed; `renamed_put` — a method that exposes its name.
-/

import Forwarder.Proofs.Capture
import Forwarder.Proofs.Forwarding.Signatures
import Mathlib.Data.List.Chain

open Forwarder.Source (isName isName_iff)
open Forwarder.TypeName (ClosedTexts IsWordText Part identifiers mapIdentifiers outerNames outline
  typeParamNames)

namespace Forwarder

/-! ### Texts with names of their own -/

namespace TypeName

/-- A name of these ends where the next part begins. -/
def Part.ends (own : List String) : Part → Part → Bool
  | .char _, _ => true
  | .name text, .name _ => !own.contains text
  | .name text, .char c => !own.contains text || !isNamePart c

/-- No character of a name comes first. -/
def Stops (text : List Char) : Prop :=
  ∀ c ∈ text.head?, isNamePart c = false

theorem eraseFrom_word {text : String} (isWord : IsWordText text) :
    eraseFrom 0 text.toList = text.toList :=
  eraseFrom_plain fun c member => isPlainChar_of_isNamePart (isWord c member)

section Cancel

variable {f : String → String} {own : List String} {rest rest' : List Char}

/-- A name of these is not continued by what comes behind it. -/
theorem stops_of_ends {name : String} {parts : List Part} (isOwn : name ∈ own)
    (apart : (Part.name name :: parts).IsChain fun a b => a.ends own b = true) (stops : Stops rest)
    (g : String → String) : Stops (parts.flatMap (Part.erased g) ++ rest) := by
  cases parts with
  | nil => exact stops
  | cons part parts =>
    have ends := (List.isChain_cons_cons.mp apart).1
    cases part with
    | char c =>
      rintro _ ⟨⟩
      simpa [Part.ends, isOwn] using ends
    | name other => simp [Part.ends, isOwn] at ends

/-- **Texts that are the same with other names** for these have the same names, so long as each of these
names ends where the next part begins. -/
theorem erased_cancel {parts : List Part} (words : ∀ name, .name name ∈ parts → IsWordText name)
    (words' : ∀ name ∈ own, IsWordText (f name)) (others : ∀ name ∉ own, f name = name)
    (apart : parts.IsChain fun a b => a.ends own b = true) (stops : Stops rest) (stops' : Stops rest')
    (same : parts.flatMap (Part.erased f) ++ rest = parts.flatMap (Part.erased id) ++ rest') :
    (∀ name, .name name ∈ parts → f name = name) ∧ rest = rest' := by
  induction parts with
  | nil => exact ⟨fun name member => absurd member List.not_mem_nil, same⟩
  | cons part parts ih =>
    have later := ih (fun name member => words name (List.mem_cons_of_mem _ member)) apart.tail
    rw [List.flatMap_cons, List.flatMap_cons, List.append_assoc, List.append_assoc] at same
    cases part with
    | char c =>
      obtain ⟨kept, ends⟩ := later (List.append_cancel_left same)
      refine ⟨fun name member => kept name ?_, ends⟩
      exact (List.mem_cons.mp member).resolve_left Part.noConfusion
    | name name =>
      have word := words name List.mem_cons_self
      have here : f name = name := by
        by_cases isOwn : name ∈ own
        · have first := stops_of_ends isOwn apart stops f
          have second := stops_of_ends isOwn apart stops' id
          have read := congrArg (List.takeWhile isNamePart) same
          rw [Part.erased, Part.erased, eraseFrom_word (words' name isOwn), id, eraseFrom_word word,
            Text.takeWhile_run (words' name isOwn) first, Text.takeWhile_run word second] at read
          exact String.toList_inj.mp read
        · exact others name isOwn
      rw [Part.erased, Part.erased, here] at same
      obtain ⟨kept, ends⟩ := later (List.append_cancel_left same)
      refine ⟨fun other member => ?_, ends⟩
      rcases List.mem_cons.mp member with isName | behind
      · cases isName
        exact here
      · exact kept other behind

end Cancel

/-! ### Names of a type outside of its argument lists -/

theorem mem_identifiers_of_mem_outerNames {type name : String} (member : name ∈ outerNames type) :
    name ∈ identifiers type :=
  mem_identifiers.mpr (outside_subset _ _ (mem_outerNames.mp member))

end TypeName

/-! ### Other names for type parameters -/

namespace Method

variable {m : Method} {rename : String → String}

/-- What stands for a name if the method's own names are replaced. -/
def ownRename (m : Method) (rename : String → String) (name : String) : String :=
  if name ∈ typeParamNames m.typeParams then rename name else name

/-- The method with other names for its type parameters, in all its types. -/
def renamed (m : Method) (rename : String → String) : Method :=
  let replace := mapIdentifiers (m.ownRename rename)
  { m with
    returns := replace m.returns
    params := m.params.map fun p => { p with type := replace p.type }
    throws := m.throws.map replace
    typeParams := m.typeParams.map replace }

/-- The type parameters get different names that do not occur in the types of the method. -/
structure IsRenaming (m : Method) (rename : String → String) : Prop where
  injective : ∀ a ∈ typeParamNames m.typeParams, ∀ b ∈ typeParamNames m.typeParams,
    rename a = rename b → a = b
  isName : ∀ name ∈ typeParamNames m.typeParams, isName (rename name) = true
  fresh : ∀ name ∈ typeParamNames m.typeParams, ∀ type ∈ m.types, rename name ∉ identifiers type

/-- A type parameter occurs in the type of a parameter outside of argument lists. -/
def Exposes (m : Method) : Prop :=
  ∃ name ∈ typeParamNames m.typeParams, ∃ p ∈ m.params, name ∈ outerNames p.type

/-- In what erasure leaves of the types of the parameters, each of the method's own names ends where the
next part begins. In a text such as `T x`, which is no type, it does not. -/
def KeepsApart (m : Method) : Prop :=
  ∀ p ∈ m.params, (outline p.type).IsChain fun a b => a.ends (typeParamNames m.typeParams) b = true

theorem IsRenaming.isWordText (isRenaming : m.IsRenaming rename) :
    ∀ name ∈ typeParamNames m.typeParams, IsWordText (m.ownRename rename name) := by
  intro name isOwn
  obtain ⟨c, cs, text, start, parts⟩ := isName_iff.mp (isRenaming.isName name isOwn)
  rw [ownRename, if_pos isOwn, IsWordText, text]
  exact List.forall_mem_cons.mpr ⟨TypeName.isNamePart_of_isNameStart start, parts⟩

theorem IsRenaming.closedTexts (isRenaming : m.IsRenaming rename) :
    ClosedTexts (m.ownRename rename) := by
  intro name word
  by_cases isOwn : name ∈ typeParamNames m.typeParams
  · exact TypeName.nested_of_isWordText (isRenaming.isWordText name isOwn)
  · rw [ownRename, if_neg isOwn]
    exact TypeName.nested_of_isWordText word

/-- An own name that is exposed is changed. -/
theorem touched_iff (isRenaming : m.IsRenaming rename) : m.Touched (m.ownRename rename) ↔ m.Exposes := by
  constructor
  · rintro ⟨p, isParam, name, outer, changed⟩
    refine ⟨name, ?_, p, isParam, outer⟩
    by_contra other
    exact changed (if_neg other)
  · rintro ⟨name, isOwn, p, isParam, outer⟩
    refine ⟨p, isParam, name, outer, fun same => ?_⟩
    rw [ownRename, if_pos isOwn] at same
    have isType : p.type ∈ m.types := by
      simp only [types, List.mem_append, List.mem_map]
      exact .inl (.inl (.inr ⟨p, isParam, rfl⟩))
    refine isRenaming.fresh name isOwn p.type isType ?_
    rw [same]
    exact TypeName.mem_identifiers_of_mem_outerNames outer

/-- The type parameters of a renamed method have the new names. -/
theorem typeParamNames_renamed (isRenaming : m.IsRenaming rename) (declares : m.DeclaresNames) :
    typeParamNames (m.renamed rename).typeParams = (typeParamNames m.typeParams).map rename := by
  show typeParamNames (m.typeParams.map _) = _
  rw [typeParamNames, typeParamNames, List.filterMap_map, List.map_filterMap]
  refine List.filterMap_congr fun text isParam => ?_
  obtain ⟨name, declared⟩ := declares text isParam
  have isOwn : name ∈ typeParamNames m.typeParams :=
    List.mem_filterMap.mpr ⟨text, isParam, declared.fields_head⟩
  have put : m.ownRename rename name = rename name := if_pos isOwn
  have isWord : Source.isName (m.ownRename rename name) = true := put.symm ▸ isRenaming.isName name isOwn
  have replaced := declared.mapIdentifiers isWord
  rw [put] at replaced
  rw [Function.comp_apply, declared.fields_head, Option.map_some]
  exact replaced.fields_head

/-! ### Keys of renamed methods -/

theorem erasedWith_id (p : Parameter) : p.erasedWith id = p.erased := by
  rw [Parameter.erasedWith, ← TypeName.eraseType_eq_outline]
  rfl

/-- The key of a renamed method, from the outlines of the types of its parameters. -/
theorem signature_renamed (isRenaming : m.IsRenaming rename) : (m.renamed rename).signature =
    m.name ++ "(" ++ Text.join "," (m.params.map (·.erasedWith (m.ownRename rename))) ++ ")" := by
  have params : (m.renamed rename).params.map (·.erased) =
      m.params.map (·.erasedWith (m.ownRename rename)) := by
    show (m.params.map _).map _ = _
    rw [List.map_map]
    refine List.map_congr_left fun p _ => ?_
    show TypeName.eraseType (mapIdentifiers (m.ownRename rename) p.type) ++ _ = _
    rw [TypeName.eraseType_mapIdentifiers isRenaming.closedTexts]
    rfl
  rw [signature, params]
  rfl

theorem signature_renamed_eq (isRenaming : m.IsRenaming rename) (hidden : ¬m.Exposes) :
    (m.renamed rename).signature = m.signature := by
  have same := m.signatureWith_of_untouched ((touched_iff isRenaming).not.mpr hidden)
  have params := (Prod.mk.inj same).2
  rw [signature_renamed isRenaming, params, List.map_congr_left fun p _ => erasedWith_id p]
  rfl

theorem erasedWith_toList (f : String → String) (p : Parameter) : (p.erasedWith f).toList =
    (outline p.type).flatMap (Part.erased f) ++ (if p.variadic then ['[', ']'] else []) := by
  rw [Parameter.erasedWith, String.toList_append, String.toList_ofList]
  split_ifs <;> rfl

/-- What stands behind the type of a parameter is not part of a name. -/
theorem stops_behind (p : Parameter) {mark : Char} (isMark : TypeName.isNamePart mark = false)
    (rest : List Char) :
    TypeName.Stops ((if p.variadic then ['[', ']'] else []) ++ mark :: rest) := by
  split_ifs
  · rintro _ ⟨⟩
    decide
  · rintro _ ⟨⟩
    exact isMark

/-- Where the parameters of a key are the same with other names, so are the names outside of argument
lists in their types. -/
theorem names_kept {f : String → String} {own : List String}
    (words : ∀ name ∈ own, IsWordText (f name)) (others : ∀ name ∉ own, f name = name)
    {params : List Parameter}
    (apart : ∀ p ∈ params, (outline p.type).IsChain fun a b => a.ends own b = true)
    (same : Text.joinWith ',' (params.map fun p => (p.erasedWith f).toList) ++ [')'] =
      Text.joinWith ',' (params.map fun p => (p.erasedWith id).toList) ++ [')']) :
    ∀ p ∈ params, ∀ name ∈ outerNames p.type, f name = name := by
  induction params with
  | nil => exact List.forall_mem_nil _
  | cons p params ih =>
    obtain ⟨here, behind⟩ := List.forall_mem_cons.mp apart
    have comma : TypeName.isNamePart ',' = false := by decide
    have paren : TypeName.isNamePart ')' = false := by decide
    -- What a parameter leaves is cancelled together with the mark behind it.
    have cancel {mark : Char} (isMark : TypeName.isNamePart mark = false) {rest rest' : List Char}
        (same : (p.erasedWith f).toList ++ mark :: rest = (p.erasedWith id).toList ++ mark :: rest') :
        (∀ name ∈ outerNames p.type, f name = name) ∧ rest = rest' := by
      rw [erasedWith_toList, erasedWith_toList, List.append_assoc, List.append_assoc] at same
      obtain ⟨kept, ends⟩ := TypeName.erased_cancel
        (fun name member => TypeName.isWordText_of_mem_outerNames (TypeName.mem_outerNames.mpr member))
        words others here (stops_behind p isMark rest) (stops_behind p isMark rest') same
      refine ⟨fun name outer => kept name (TypeName.mem_outerNames.mp outer), ?_⟩
      exact (List.cons.inj (List.append_cancel_left ends)).2
    cases params with
    | nil =>
      simp only [List.map_cons, List.map_nil, Text.joinWith] at same
      exact List.forall_mem_singleton.mpr (cancel paren same).1
    | cons q params =>
      simp only [List.map_cons, Text.joinWith, List.append_assoc, List.cons_append] at same ih
      obtain ⟨kept, ends⟩ := cancel comma same
      exact List.forall_mem_cons.mpr ⟨kept, ih behind ends⟩

/-- A renamed method with the same key exposes none of its own names. -/
theorem hidden_of_signature_eq (isRenaming : m.IsRenaming rename) (apart : m.KeepsApart)
    (same : (m.renamed rename).signature = m.signature) : ¬m.Exposes := by
  have ids : m.params.map (·.erasedWith id) = m.params.map (·.erased) :=
    List.map_congr_left fun p _ => erasedWith_id p
  have chars := congrArg String.toList same
  rw [signature_renamed isRenaming, signature, ← ids] at chars
  simp only [String.toList_append, List.append_assoc] at chars
  have params := List.append_cancel_left (List.append_cancel_left chars)
  have split (f : String → String) : (Text.join "," (m.params.map (·.erasedWith f))).toList =
      Text.joinWith ',' (m.params.map fun p => (p.erasedWith f).toList) := by
    refine (Text.toList_join ',' _).trans ?_
    rw [List.map_map]
    rfl
  rw [split, split] at params
  have kept := names_kept isRenaming.isWordText (fun name other => if_neg other) apart params
  rw [← touched_iff isRenaming]
  rintro ⟨p, isParam, name, outer, changed⟩
  exact changed (kept p isParam name outer)

/-! ### Overriding with other names -/

/-- A method that is taken for an earlier one gets no forwarding method. -/
theorem forwarded_of_known {n : Method} (same : n.signature = m.signature)
    (alike : n.isOverridable = m.isOverridable) {s : Surface} {front back : List Method}
    (methods : s.methods = front ++ n :: back) (known : m ∈ front) :
    Forwarding.forwarded s = Forwarding.forwarded { s with methods := front ++ back } := by
  unfold Forwarding.forwarded Surface.overridable
  rw [methods, List.filter_append, List.filter_append]
  by_cases overridable : m.isOverridable = true
  · rw [List.filter_cons_of_pos (alike.trans overridable)]
    exact unseen_of_known same (List.mem_filter.mpr ⟨known, overridable⟩)
  · rw [List.filter_cons_of_neg (by rwa [alike])]

/-- **Overriding under other names.** If a method exposes none of its own names, it has the same key with
other names for its type parameters, so that behind the method the renamed one is dropped, both from what
a type inherits and from what is forwarded. If it exposes one, its key is another one with other names,
and both methods are kept. -/
theorem signature_renamed_exact (m : Method) (rename : String → String)
    (isRenaming : m.IsRenaming rename) :
    (m.DeclaresNames →
      typeParamNames (m.renamed rename).typeParams = (typeParamNames m.typeParams).map rename) ∧
    (¬m.Exposes → (m.renamed rename).signature = m.signature ∧ ∀ front back, m ∈ front →
      (∀ seen, unseen seen (front ++ m.renamed rename :: back) = unseen seen (front ++ back)) ∧
      ∀ s : Surface, s.methods = front ++ m.renamed rename :: back →
        Forwarding.forwarded s = Forwarding.forwarded { s with methods := front ++ back }) ∧
    (m.KeepsApart → m.Exposes → (m.renamed rename).signature ≠ m.signature ∧
      unseen [] [m, m.renamed rename] = [m, m.renamed rename]) := by
  refine ⟨typeParamNames_renamed isRenaming, fun hidden => ?_, fun apart exposed => ?_⟩
  · have same := signature_renamed_eq isRenaming hidden
    refine ⟨same, fun front back known => ⟨fun seen => unseen_of_known same known, ?_⟩⟩
    exact fun s methods => forwarded_of_known same rfl methods known
  · have other : (m.renamed rename).signature ≠ m.signature :=
      fun same => hidden_of_signature_eq isRenaming apart same exposed
    refine ⟨other, unseen_eq_self ?_ fun _ _ => List.not_mem_nil⟩
    simpa using other.symm

/-- A method with a type parameter `T` that takes one thing. -/
def taking (type : String) : Method :=
  ⟨"put", [⟨type, "value", false⟩], "void", .publicly, false, false, true, ["T"], [], "p.B"⟩

theorem signature_renamed_exact_list :
    (taking "List<T>[]").IsRenaming (fun _ => "U") ∧ (taking "List<T>[]").DeclaresNames ∧
      typeParamNames ((taking "List<T>[]").renamed fun _ => "U").typeParams = ["U"] ∧
      ¬(taking "List<T>[]").Exposes ∧
      ((taking "List<T>[]").renamed fun _ => "U").signature = "put(List[])" ∧
      (taking "T[]").IsRenaming (fun _ => "U") ∧ (taking "T[]").KeepsApart ∧ (taking "T[]").Exposes ∧
      ((taking "T[]").renamed fun _ => "U").signature ≠ "put(T[])" := by
  have hidden : (taking "List<T>[]").IsRenaming fun _ => "U" :=
    ⟨by decide, by decide, by decide⟩
  have exposed : (taking "T[]").IsRenaming fun _ => "U" :=
    ⟨by decide, by decide, by decide⟩
  have declares : (taking "List<T>[]").DeclaresNames :=
    List.forall_mem_singleton.mpr ⟨"T", by decide, [], by decide, by simp⟩
  have none_ : ¬(taking "List<T>[]").Exposes := by unfold Exposes; decide
  have one : (taking "T[]").Exposes := by unfold Exposes; decide
  have apart : (taking "T[]").KeepsApart := by unfold KeepsApart; decide
  obtain ⟨names, same, -⟩ := signature_renamed_exact _ _ hidden
  obtain ⟨-, -, other⟩ := signature_renamed_exact _ _ exposed
  exact ⟨hidden, declares, names declares, none_, (same none_).1, exposed, apart, one,
    (other apart one).1⟩

/-- **A renamed method is taken for another one.** The method takes a value of its own type parameter, and
with another name for this it has another key: a type that overrides it so has both methods. -/
theorem renamed_put :
    (taking "T").IsRenaming (fun _ => "U") ∧
      ((taking "T").renamed fun _ => "U").signature ≠ (taking "T").signature ∧
      unseen [] [taking "T", (taking "T").renamed fun _ => "U"] =
        [taking "T", (taking "T").renamed fun _ => "U"] :=
  ⟨⟨by decide, by decide, by decide⟩, by decide, by decide⟩

end Method

end Forwarder
