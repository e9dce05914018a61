/-
**Descriptors can be read back.** A surface is written field by field, and a field that says nothing is left
out. Reading it puts the same things in the place of the missing fields again. What a method returns is the
exception: without it a method returns nothing.

* `Yaml.Node.same_iff` — trees can be compared.
* `Descriptor.shown` — fields of which some are left out; `field_shown` — finding them again.
* `Surface.IsDescribable` — the name is qualified, and every method tells what it returns.
* `Surface.ofNode_describe` — the tree of a surface describes that surface.
* **`Descriptor.decode_descriptor`** — so does its document, if it is read as the tree that was written.
* `Descriptor.describable_of_decode` — every surface that was read can be described.
-/

import Forwarder.Descriptor
import Forwarder.Proofs.Disk.Tree

namespace Forwarder

open Yaml

/-! ### Comparing trees -/

namespace Yaml.Node

mutual

/-- The trees are the same. -/
def same : Node → Node → Bool
  | .scalar meaning text, .scalar meaning' text' => meaning == meaning' && text == text'
  | .sequence items, .sequence items' => sameItems items items'
  | .mapping pairs, .mapping pairs' => samePairs pairs pairs'
  | .alias name node, .alias name' node' => name == name' && node.same node'
  | .cycle name, .cycle name' => name == name'
  | _, _ => false

/-- The items of two sequences are the same. -/
def sameItems : List Node → List Node → Bool
  | [], [] => true
  | item :: items, item' :: items' => item.same item' && sameItems items items'
  | _, _ => false

/-- The pairs of two mappings are the same. -/
def samePairs : List Pair → List Pair → Bool
  | [], [] => true
  | (key, value) :: pairs, (key', value') :: pairs' =>
    key.same key' && value.same value' && samePairs pairs pairs'
  | _, _ => false

end

mutual

theorem same_iff : (a b : Node) → (a.same b = true ↔ a = b)
  | .scalar .., .scalar .. => by simp [same]
  | .sequence items, .sequence items' => by simp [same, sameItems_iff items items']
  | .mapping pairs, .mapping pairs' => by simp [same, samePairs_iff pairs pairs']
  | .alias _ node, .alias _ node' => by simp [same, same_iff node node']
  | .cycle _, .cycle _ => by simp [same]
  | .scalar .., .sequence _ | .scalar .., .mapping _ | .scalar .., .alias .. | .scalar .., .cycle _
  | .sequence _, .scalar .. | .sequence _, .mapping _ | .sequence _, .alias .. | .sequence _, .cycle _
  | .mapping _, .scalar .. | .mapping _, .sequence _ | .mapping _, .alias .. | .mapping _, .cycle _
  | .alias .., .scalar .. | .alias .., .sequence _ | .alias .., .mapping _ | .alias .., .cycle _
  | .cycle _, .scalar .. | .cycle _, .sequence _ | .cycle _, .mapping _ | .cycle _, .alias .. => by
    simp [same]

theorem sameItems_iff : (items items' : List Node) → (sameItems items items' = true ↔ items = items')
  | [], [] => by simp [sameItems]
  | item :: items, item' :: items' => by
    simp [sameItems, same_iff item item', sameItems_iff items items']
  | [], _ :: _ | _ :: _, [] => by simp [sameItems]

theorem samePairs_iff : (pairs pairs' : List Pair) → (samePairs pairs pairs' = true ↔ pairs = pairs')
  | [], [] => by simp [samePairs]
  | (key, value) :: pairs, (key', value') :: pairs' => by
    simp [samePairs, same_iff key key', same_iff value value', samePairs_iff pairs pairs']
  | [], _ :: _ | _ :: _, [] => by simp [samePairs]

end

instance : DecidableEq Node :=
  fun a b => decidable_of_iff _ (same_iff a b)

end Yaml.Node

deriving instance DecidableEq for Yaml.Documents

/-! ### Mappings with names as keys -/

namespace Descriptor

variable {fs : List (String × Node)} {α : Type}

/-- The pairs of fields. -/
def pairsOf (fs : List (String × Node)) : List Pair :=
  fs.map fun f => pair f.1 f.2

theorem pairsOf_cons (f : String × Node) (fs : List (String × Node)) :
    pairsOf (f :: fs) = (.ofText f.1, f.2) :: pairsOf fs :=
  rfl

theorem sameKey_ofText (name other : String) :
    (Node.ofText name).sameKey (.ofText other) = (name == other) := by
  simp [Node.sameKey, Node.ofText, Node.keyKind, Node.keyText]

theorem repeatedKey?_pairsOf (distinct : (fs.map (·.1)).Nodup) : repeatedKey? (pairsOf fs) = none := by
  induction fs with
  | nil => rfl
  | cons f fs ih =>
    rw [List.map_cons, List.nodup_cons] at distinct
    have fresh : (pairsOf fs).any ((Node.ofText f.1).sameKey ·.1) = false := by
      rw [List.any_eq_false]
      intro other member
      obtain ⟨g, isField, rfl⟩ := List.mem_map.mp member
      rw [pair, sameKey_ofText, beq_iff_eq]
      intro same
      exact distinct.1 (same ▸ List.mem_map_of_mem isField)
    rw [pairsOf_cons, repeatedKey?, fresh, if_neg Bool.false_ne_true, ih distinct.2]

theorem ownPairs_pairsOf (fs : List (String × Node)) : ownPairs (pairsOf fs) = pairsOf fs := by
  refine List.filter_eq_self.mpr fun other member => ?_
  obtain ⟨f, -, rfl⟩ := List.mem_map.mp member
  rfl

theorem unseen_nil (pairs : List Pair) : unseen [] pairs = pairs := by
  refine List.filter_eq_self.mpr fun other _ => ?_
  cases other.1.name? <;> rfl

theorem takenOver_pairsOf (seen : List String) (fs : List (String × Node)) :
    takenOver seen (pairsOf fs) = .ok [] := by
  induction fs with
  | nil => rw [pairsOf, List.map_nil, takenOver]
  | cons f fs ih =>
    have noMerge : (Node.ofText f.1).isMerge = false := rfl
    rw [pairsOf_cons, takenOver, noMerge, if_neg Bool.false_ne_true, ih]

theorem effectivePairs_pairsOf (distinct : (fs.map (·.1)).Nodup) :
    effectivePairs (pairsOf fs) = .ok (pairsOf fs) := by
  rw [effectivePairs, withOwn, unique, repeatedKey?_pairsOf distinct]
  simp only [ownPairs_pairsOf, unseen_nil, takenOver_pairsOf, bind, Except.bind, pure, Except.pure,
    List.append_nil]

theorem namedPairs_pairsOf (fs : List (String × Node)) : namedPairs (pairsOf fs) = .ok fs := by
  induction fs with
  | nil => rfl
  | cons f fs ih =>
    rw [pairsOf_cons, namedPairs, ih]
    rfl

/-- The fields of a mapping whose keys are different names. -/
theorem fields_pairsOf (distinct : (fs.map (·.1)).Nodup) : fields (.mapping (pairsOf fs)) = .ok fs := by
  have isTarget : (Node.mapping (pairsOf fs)).target = .mapping (pairsOf fs) := rfl
  rw [fields, isTarget]
  dsimp only
  rw [effectivePairs_pairsOf distinct]
  exact namedPairs_pairsOf fs

/-! ### Fields that are left out -/

/-- Fields without those that are left out. -/
def shown (fs : List (String × Option Node)) : List (String × Node) :=
  fs.filterMap fun (name, value) => value.map (name, ·)

theorem map_shown_sublist (fs : List (String × Option Node)) :
    ((shown fs).map (·.1)).Sublist (fs.map (·.1)) := by
  induction fs with
  | nil => exact .slnil
  | cons f fs ih =>
    obtain ⟨name, _ | value⟩ := f
    · exact ih.cons name
    · exact ih.cons_cons name

/-- The fields of a mapping some of whose fields are left out. -/
theorem fields_shown {fs : List (String × Option Node)} (distinct : (fs.map (·.1)).Nodup) :
    fields (.mapping (pairsOf (shown fs))) = .ok (shown fs) :=
  fields_pairsOf (distinct.sublist (map_shown_sublist fs))

/-- A field, or a missing node where it is left out. -/
theorem field_shown {fs : List (String × Option Node)} (distinct : (fs.map (·.1)).Nodup) :
    ∀ f ∈ fs, field (shown fs) f.1 = f.2.getD .absent := by
  intro f member
  have found : (shown fs).lookup f.1 = f.2 := by
    induction fs with
    | nil => cases member
    | cons g fs ih =>
      obtain ⟨fresh, others⟩ := List.nodup_cons.mp distinct
      rcases List.mem_cons.mp member with rfl | later
      · obtain ⟨name, _ | value⟩ := f
        · refine List.lookup_eq_none_iff.mpr fun other isShown => ?_
          rw [bne_iff_ne]
          intro same
          exact fresh ((map_shown_sublist fs).subset (List.mem_map.mpr ⟨other, isShown, same.symm⟩))
        · exact List.lookup_cons_self
      · have different : f.1 ≠ g.1 := fun same => fresh (List.mem_map.mpr ⟨f, later, same⟩)
        obtain ⟨other, _ | value⟩ := g
        · exact ih others later
        · refine List.lookup_cons.trans ?_
          rw [beq_false_of_ne different]
          exact ih others later
  rw [field, found]

/-! ### Reading single values -/

/-- A list of texts, if there are any. -/
def textsShown (texts : List String) : Option Node :=
  if texts.isEmpty then none else some (.sequence (texts.map .ofText))

/-- A flag, if it is set. -/
def flagShown (flag : Bool) : Option Node :=
  if flag then some (.ofTruth true) else none

/-- Values that are read back one by one. -/
theorem each_map {read : Node → Except Problem α} {write : α → Node} {values : List α}
    (some_ : ∀ value ∈ values, (write value).isNull = false)
    (back : ∀ value ∈ values, read (write value) = .ok value) :
    each read (values.map write) = .ok values := by
  have all : (values.map write).filter (!·.isNull) = values.map write := by
    refine List.filter_eq_self.mpr fun node member => ?_
    obtain ⟨value, isValue, rfl⟩ := List.mem_map.mp member
    rw [some_ value isValue]
    rfl
  rw [each, all]
  clear all some_
  induction values with
  | nil => rfl
  | cons value values ih =>
    obtain ⟨first, others⟩ := List.forall_mem_cons.mp back
    rw [List.map_cons, List.mapM_cons, first, ih others]
    rfl

/-- A list that is read back. -/
theorem list_map {read : Node → Except Problem α} {write : α → Node} {values : List α}
    (some_ : ∀ value ∈ values, (write value).isNull = false)
    (back : ∀ value ∈ values, read (write value) = .ok value) :
    list read (.sequence (values.map write)) = .ok values :=
  each_map some_ back

theorem list_textsShown (texts : List String) :
    list text ((textsShown texts).getD .absent) = .ok texts := by
  rw [textsShown]
  cases texts with
  | nil => rfl
  | cons first others => exact list_map (fun _ _ => rfl) fun _ _ => rfl

theorem truth_flagShown (flag : Bool) : truth ((flagShown flag).getD .absent) = .ok flag := by
  cases flag <;> rfl

theorem ofName_name (v : Visibility) : Visibility.ofName v.name = v := by
  cases v <;> decide

/-! ### Parameters and methods -/

/-- The pairs of fields some of which are left out, one by one. -/
theorem pairsOf_shown_cons (name : String) (value : Option Node) (fs : List (String × Option Node)) :
    pairsOf (shown ((name, value) :: fs)) = (value.map (pair name)).toList ++ pairsOf (shown fs) := by
  cases value <;> rfl

theorem textsIfAny_eq (name : String) (texts : List String) :
    textsIfAny name texts = ((textsShown texts).map (pair name)).toList := by
  cases texts <;> rfl

theorem flagIfSet_eq (name : String) (flag : Bool) :
    flagIfSet name flag = ((flagShown flag).map (pair name)).toList := by
  cases flag <;> rfl

/-- The fields of a parameter. -/
def parameterFields (p : Parameter) : List (String × Option Node) :=
  [("type", some (.ofText p.type)), ("name", some (.ofText p.name)), ("variadic", flagShown p.variadic)]

theorem ofParameter_eq (p : Parameter) : ofParameter p = .mapping (pairsOf (shown (parameterFields p))) := by
  rw [ofParameter, parameterFields, flagIfSet_eq]
  simp only [pairsOf_shown_cons]
  exact congrArg Node.mapping (by simp [shown, pairsOf])

/-- A parameter is read back. -/
theorem parameter_ofParameter (p : Parameter) : parameter (ofParameter p) = .ok p := by
  have distinct : ((parameterFields p).map (·.1)).Nodup := by
    show ["type", "name", "variadic"].Nodup
    decide
  have found := field_shown distinct
  rw [ofParameter_eq, parameter, fields_shown distinct]
  generalize shown (parameterFields p) = fs at found ⊢
  simp only [parameterFields, List.forall_mem_cons] at found
  obtain ⟨type, name, variadic, -⟩ := found
  simp only [bind, Except.bind, type, name, variadic, truth_flagShown]
  rfl

/-- The parameters of a method, if there are any. -/
def paramsShown (params : List Parameter) : Option Node :=
  if params.isEmpty then none else some (.sequence (params.map ofParameter))

/-- A text, if it is not empty. -/
def textShown (s : String) : Option Node :=
  if s.isEmpty then none else some (.ofText s)

theorem list_paramsShown (params : List Parameter) :
    list parameter ((paramsShown params).getD .absent) = .ok params := by
  rw [paramsShown]
  cases params with
  | nil => rfl
  | cons first others => exact list_map (fun _ _ => rfl) fun p _ => parameter_ofParameter p

theorem text_textShown (s : String) : text ((textShown s).getD .absent) = .ok s := by
  rw [textShown]
  split
  · next isEmpty => rw [String.isEmpty_iff.mp isEmpty]; rfl
  · rfl

/-- The fields of a method. -/
def methodFields (m : Method) : List (String × Option Node) :=
  [("name", some (.ofText m.name)), ("type_parameters", textsShown m.typeParams),
    ("parameters", paramsShown m.params), ("returns", some (.ofText m.returns)),
    ("visibility", some (.ofText m.visibility.name)), ("static", flagShown m.isStatic),
    ("final", flagShown m.isFinal), ("abstract", flagShown m.isAbstract),
    ("throws", textsShown m.throws), ("declaring_type", textShown m.declaredIn)]

theorem ofMethod_eq (m : Method) : ofMethod m = .mapping (pairsOf (shown (methodFields m))) := by
  have params : (if m.params.isEmpty then [] else [pair "parameters" (.sequence (m.params.map ofParameter))]) =
      ((paramsShown m.params).map (pair "parameters")).toList := by
    rw [paramsShown]
    split <;> rfl
  have declaredIn : (if m.declaredIn.isEmpty then [] else [pair "declaring_type" (.ofText m.declaredIn)]) =
      ((textShown m.declaredIn).map (pair "declaring_type")).toList := by
    rw [textShown]
    split <;> rfl
  rw [ofMethod, methodFields, params, declaredIn]
  simp only [textsIfAny_eq, flagIfSet_eq, pairsOf_shown_cons]
  exact congrArg Node.mapping (by simp [shown, pairsOf])

/-- A method is read back if it tells what it returns. -/
theorem method_ofMethod {m : Method} (returned : m.returns ≠ "") : method (ofMethod m) = .ok m := by
  have distinct : ((methodFields m).map (·.1)).Nodup := by
    show ["name", "type_parameters", "parameters", "returns", "visibility", "static", "final", "abstract",
      "throws", "declaring_type"].Nodup
    decide
  have found := field_shown distinct
  rw [ofMethod_eq, method, fields_shown distinct]
  generalize shown (methodFields m) = fs at found ⊢
  simp only [methodFields, List.forall_mem_cons] at found
  obtain ⟨name, typeParams, params, returns, visibility, isStatic, isFinal, isAbstract, throws,
    declaredIn, -⟩ := found
  have some_ : m.returns.isEmpty = false := by simpa using returned
  have isText (s : String) : text ((some (Node.ofText s)).getD .absent) = .ok s := rfl
  simp only [bind, Except.bind, name, typeParams, params, returns, visibility, isStatic, isFinal,
    isAbstract, throws, declaredIn, isText, list_textsShown, list_paramsShown, truth_flagShown,
    text_textShown, some_, ofName_name]
  rfl

end Descriptor

/-! ### Surfaces -/

/-- The name is qualified, and every method tells what it returns. -/
structure Surface.IsDescribable (s : Surface) : Prop where
  name : TypeName.isDotted s.name = true
  returns : ∀ m ∈ s.methods, m.returns ≠ ""

/-- The document of a surface is read as the tree that was written, and as nothing else. -/
def Surface.IsReadBack (s : Surface) : Prop :=
  documents s.descriptor = ⟨[s.describe], none⟩

instance (s : Surface) : Decidable s.IsReadBack :=
  inferInstanceAs (Decidable (_ = _))

namespace Descriptor

/-- The fields of a surface. -/
def surfaceFields (s : Surface) : List (String × Option Node) :=
  [("name", some (.ofText s.name)), ("type_parameters", textsShown s.typeParams),
    ("supertypes", textsShown s.supertypes),
    ("methods", some (.sequence (s.methods.map ofMethod)))]

theorem describe_eq (s : Surface) : s.describe = .mapping (pairsOf (shown (surfaceFields s))) := by
  rw [Surface.describe, surfaceFields]
  simp only [textsIfAny_eq, pairsOf_shown_cons]
  exact congrArg Node.mapping (by simp [shown, pairsOf])

/-- **The tree of a surface** describes that surface. -/
theorem ofNode_describe {s : Surface} (returned : ∀ m ∈ s.methods, m.returns ≠ "") :
    Surface.ofNode s.describe = .ok s := by
  have distinct : ((surfaceFields s).map (·.1)).Nodup := by
    show ["name", "type_parameters", "supertypes", "methods"].Nodup
    decide
  have found := field_shown distinct
  rw [describe_eq, Surface.ofNode, fields_shown distinct]
  generalize shown (surfaceFields s) = fs at found ⊢
  simp only [surfaceFields, List.forall_mem_cons] at found
  obtain ⟨name, typeParams, supertypes, methods, -⟩ := found
  have isText (s : String) : text ((some (Node.ofText s)).getD .absent) = .ok s := rfl
  have all : list method ((some (Node.sequence (s.methods.map ofMethod))).getD .absent) = .ok s.methods :=
    list_map (fun _ _ => rfl) fun m isMethod => method_ofMethod (returned m isMethod)
  simp only [bind, Except.bind, name, typeParams, supertypes, methods, isText, list_textsShown, all]
  rfl

/-- **Descriptors can be read back.** The document of a surface with a qualified name, whose methods tell
what they return, describes this surface and nothing else. -/
theorem decode_descriptor {s : Surface} (describable : s.IsDescribable) (readBack : s.IsReadBack) :
    decode s.descriptor = .ok [s] := by
  have described : surfaces 1 [s.describe] = .ok [s] := by
    rw [surfaces, ofNode_describe describable.returns]
    dsimp only
    rw [if_pos describable.name, surfaces]
  unfold decode
  rw [show documents s.descriptor = _ from readBack]
  dsimp only
  rw [described]

/-! ### What was read -/

theorem exists_of_bind {α β : Type} {x : Except Problem α} {f : α → Except Problem β} {result : β}
    (isResult : x >>= f = .ok result) : ∃ value, x = .ok value ∧ f value = .ok result := by
  cases x with
  | error problem => cases isResult
  | ok value => exact ⟨value, rfl, isResult⟩

/-- A method that was read tells what it returns. -/
theorem returns_of_method {node : Node} {m : Method} (isRead : method node = .ok m) : m.returns ≠ "" := by
  rw [method] at isRead
  iterate 11 obtain ⟨_, -, isRead⟩ := exists_of_bind isRead
  cases isRead
  dsimp only
  split_ifs with isEmpty
  · decide
  · simpa using isEmpty

theorem forall_of_mapM {α : Type} {read : Node → Except Problem α} {holds : α → Prop}
    (each : ∀ node value, read node = .ok value → holds value) {nodes : List Node} {values : List α}
    (isRead : nodes.mapM read = .ok values) : ∀ value ∈ values, holds value := by
  induction nodes generalizing values with
  | nil =>
    cases isRead
    exact List.forall_mem_nil _
  | cons node nodes ih =>
    rw [List.mapM_cons] at isRead
    obtain ⟨value, isValue, isRead⟩ := exists_of_bind isRead
    obtain ⟨more, areMore, isRead⟩ := exists_of_bind isRead
    cases isRead
    exact List.forall_mem_cons.mpr ⟨each node value isValue, ih areMore⟩

/-- So do all methods of a list. -/
theorem returns_of_list {node : Node} {methods : List Method} (isRead : list method node = .ok methods) :
    ∀ m ∈ methods, m.returns ≠ "" := by
  rw [list] at isRead
  split at isRead
  · exact forall_of_mapM (fun _ _ => returns_of_method) isRead
  · cases isRead
    exact List.forall_mem_nil _
  · cases isRead

theorem returns_of_ofNode {node : Node} {s : Surface} (isRead : Surface.ofNode node = .ok s) :
    ∀ m ∈ s.methods, m.returns ≠ "" := by
  rw [Surface.ofNode] at isRead
  iterate 4 obtain ⟨_, -, isRead⟩ := exists_of_bind isRead
  obtain ⟨methods, areMethods, isRead⟩ := exists_of_bind isRead
  cases isRead
  exact returns_of_list areMethods

theorem describable_of_surfaces {nodes : List Node} {position : Nat} {found : List Surface}
    (isRead : surfaces position nodes = .ok found) : ∀ s ∈ found, s.IsDescribable := by
  induction nodes generalizing position found with
  | nil =>
    cases isRead
    exact List.forall_mem_nil _
  | cons node nodes ih =>
    rw [surfaces] at isRead
    split at isRead
    · cases isRead
    · next surface isSurface =>
      split_ifs at isRead with dotted
      split at isRead
      · cases isRead
      · next more areMore =>
        cases isRead
        exact List.forall_mem_cons.mpr ⟨⟨dotted, returns_of_ofNode isSurface⟩, ih areMore⟩

/-- **Every surface that was read** can be described. -/
theorem describable_of_decode {source : String} {found : List Surface} (isRead : decode source = .ok found) :
    ∀ s ∈ found, s.IsDescribable := by
  unfold decode at isRead
  dsimp only at isRead
  split at isRead
  · cases isRead
  · cases isRead
  · next areSurfaces _ =>
    cases isRead
    exact describable_of_surfaces areSurfaces

end Descriptor

end Forwarder
