/-
**The outside of a type.** What erasure leaves of a type whose names have been replaced: the characters
outside of its argument lists, and for each name there the erasure of what is put for it.

* `Part`, `partsFrom` — a type as characters and names that may be replaced.
* `outline` — the parts of a type outside of its argument lists; `outerNames` — the names among them.
* **`eraseType_mapIdentifiers`** — the erasure of a type after its names have been replaced.
* `Sheltered` — wildcards stand inside of argument lists alone; **`sheltered_mapIdentifiers`** — when they
  do after names have been replaced.
-/

import Forwarder.Proofs.Source.Erasure
import Forwarder.Proofs.Substitution

namespace Forwarder.TypeName

/-! ### Parts -/

/-- A character of a type, or a name in it that is not part of a dotted name. -/
inductive Part
  | char (c : Char)
  | name (text : String)
deriving DecidableEq

/-- A finished identifier: a name, unless a point stands before or after it. -/
def finished (before : Option Char) (name : List Char) (after : Option Char) : List Part :=
  if before = some '.' ∨ after = some '.' then name.map .char else [.name (String.ofList name)]

/-- The parts of a text. `name` is the identifier read so far, if any, and `before` the character in front
of it. -/
def partsFrom (before : Option Char) (name : List Char) : List Char → List Part
  | [] => if name.isEmpty then [] else finished before name none
  | c :: rest =>
    if name.isEmpty then
      if isNameStart c then partsFrom before [c] rest else .char c :: partsFrom (some c) [] rest
    else if isNamePart c then partsFrom before (name ++ [c]) rest
    else finished before name (some c) ++ .char c :: partsFrom (some c) [] rest

/-- What becomes of a part if names are replaced. -/
def Part.rewritten (f : String → String) : Part → List Char
  | .char c => [c]
  | .name text => (f text).toList

section Parts

variable {f : String → String} {before after : Option Char} {name : List Char}

theorem flatMap_finished :
    (finished before name after).flatMap (Part.rewritten f) = rewriteName f before name after := by
  unfold finished rewriteName
  split_ifs with dotted
  · rw [List.flatMap_map]
    exact List.flatMap_singleton' name
  · exact List.append_nil _

/-- Replacing names works on the parts one by one. -/
theorem rewriteFrom_eq_flatMap (f : String → String) (cs : List Char) :
    ∀ (before : Option Char) (name : List Char),
      rewriteFrom f before name cs = (partsFrom before name cs).flatMap (Part.rewritten f) := by
  induction cs with
  | nil =>
    intro before name
    rw [rewriteFrom, partsFrom]
    split_ifs
    · rfl
    · exact flatMap_finished.symm
  | cons c cs ih =>
    intro before name
    rw [rewriteFrom, partsFrom]
    split_ifs
    · exact ih before [c]
    · rw [ih, List.flatMap_cons]
      rfl
    · exact ih before (name ++ [c])
    · rw [ih, List.flatMap_append, flatMap_finished, List.flatMap_cons]
      rfl

/-- The characters of an identifier. -/
def IsWordText (text : String) : Prop :=
  ∀ c ∈ text.toList, isNamePart c = true

theorem isWordText_of_mem_finished {text : String} (word : ∀ c ∈ name, isNamePart c = true)
    (member : Part.name text ∈ finished before name after) : IsWordText text := by
  unfold finished at member
  split_ifs at member
  · obtain ⟨c, -, absurd⟩ := List.mem_map.mp member
    cases absurd
  · cases List.mem_singleton.mp member
    rwa [IsWordText, String.toList_ofList]

theorem isWordText_of_mem_partsFrom {text : String} (cs : List Char) :
    ∀ (before : Option Char) (name : List Char), (∀ c ∈ name, isNamePart c = true) →
      Part.name text ∈ partsFrom before name cs → IsWordText text := by
  induction cs with
  | nil =>
    intro before name word member
    rw [partsFrom] at member
    split_ifs at member
    · exact absurd member List.not_mem_nil
    · exact isWordText_of_mem_finished word member
  | cons c cs ih =>
    intro before name word member
    rw [partsFrom] at member
    split_ifs at member with empty start part
    · exact ih before [c] (List.forall_mem_singleton.mpr (isNamePart_of_isNameStart start)) member
    · rcases List.mem_cons.mp member with absurd | later
      · cases absurd
      · exact ih (some c) [] (List.forall_mem_nil _) later
    · exact ih before (name ++ [c])
        (List.forall_mem_append.mpr ⟨word, List.forall_mem_singleton.mpr part⟩) member
    · rcases List.mem_append.mp member with here | member
      · exact isWordText_of_mem_finished word here
      · rcases List.mem_cons.mp member with absurd | later
        · cases absurd
        · exact ih (some c) [] (List.forall_mem_nil _) later

end Parts

/-! ### Outside of argument lists -/

/-- The parts outside of argument lists, where so many are open. -/
def outside : Nat → List Part → List Part
  | _, [] => []
  | depth, .char c :: parts =>
    (eraseFrom depth [c]).map .char ++ outside (depthFrom depth [c]) parts
  | depth, .name text :: parts => (if depth = 0 then [.name text] else []) ++ outside depth parts

/-- The parts of a type outside of its argument lists. -/
def outline (type : String) : List Part :=
  outside 0 (partsFrom none [] type.toList)

/-- The name that a part is. -/
def Part.name? : Part → Option String
  | .char _ => none
  | .name text => some text

/-- The names outside of the argument lists of a type. -/
def outerNames (type : String) : List String :=
  (outline type).filterMap Part.name?

theorem mem_names {text : String} {parts : List Part} :
    text ∈ parts.filterMap Part.name? ↔ Part.name text ∈ parts := by
  rw [List.mem_filterMap]
  constructor
  · rintro ⟨part, member, same⟩
    cases part with
    | char => cases same
    | name other =>
      cases same
      exact member
  · exact fun member => ⟨_, member, rfl⟩

theorem mem_outerNames {type text : String} : text ∈ outerNames type ↔ Part.name text ∈ outline type :=
  mem_names

/-- What erasure leaves of a part if names are replaced. -/
def Part.erased (f : String → String) : Part → List Char
  | .char c => [c]
  | .name text => eraseFrom 0 (f text).toList

theorem outside_subset (depth : Nat) (parts : List Part) {text : String}
    (member : Part.name text ∈ outside depth parts) : Part.name text ∈ parts := by
  induction parts generalizing depth with
  | nil => exact member
  | cons part parts ih =>
    cases part with
    | char c =>
      rcases List.mem_append.mp member with here | later
      · obtain ⟨_, -, absurd⟩ := List.mem_map.mp here
        cases absurd
      · exact List.mem_cons_of_mem _ (ih _ later)
    | name other =>
      rcases List.mem_append.mp member with here | later
      · split_ifs at here
        · cases List.mem_singleton.mp here
          exact List.mem_cons_self
        · exact absurd here List.not_mem_nil
      · exact List.mem_cons_of_mem _ (ih _ later)

/-- Erasure goes part by part, if what is put for each name closes its argument lists. -/
theorem eraseFrom_flatMap {f : String → String} {parts : List Part}
    (nested : ∀ text, Part.name text ∈ parts → Nested (f text).toList) (depth : Nat) :
    eraseFrom depth (parts.flatMap (Part.rewritten f)) =
      (outside depth parts).flatMap (Part.erased f) := by
  induction parts generalizing depth with
  | nil => rfl
  | cons part parts ih =>
    have rest := ih fun text member => nested text (List.mem_cons_of_mem _ member)
    rw [List.flatMap_cons, eraseFrom_append]
    cases part with
    | char c =>
      have here : ((eraseFrom depth [c]).map Part.char).flatMap (Part.erased f) = eraseFrom depth [c] := by
        rw [List.flatMap_map]
        exact List.flatMap_singleton' _
      show eraseFrom depth [c] ++ eraseFrom (depthFrom depth [c]) _ = _
      rw [rest, outside, List.flatMap_append, here]
    | name text =>
      have closed := nested text List.mem_cons_self
      show eraseFrom depth (f text).toList ++ eraseFrom (depthFrom depth (f text).toList) _ = _
      rw [closed.closed, rest, outside, List.flatMap_append]
      cases depth with
      | zero =>
        rw [if_pos rfl, List.flatMap_singleton]
        rfl
      | succ depth =>
        rw [if_neg (Nat.succ_ne_zero depth), closed.inside]
        rfl

section Replaced

variable {f : String → String} {type : String}

/-- What is put for names closes the argument lists it opens. -/
def ClosedTexts (f : String → String) : Prop :=
  ∀ text, IsWordText text → Nested (f text).toList

theorem isWordText_of_mem_outerNames {text : String} (member : text ∈ outerNames type) :
    IsWordText text :=
  isWordText_of_mem_partsFrom _ none [] (List.forall_mem_nil _)
    (outside_subset _ _ (mem_outerNames.mp member))

theorem eraseFrom_mapIdentifiers (closed : ClosedTexts f) (type : String) :
    eraseFrom 0 (mapIdentifiers f type).toList = (outline type).flatMap (Part.erased f) := by
  rw [mapIdentifiers, String.toList_ofList, rewriteFrom_eq_flatMap]
  refine eraseFrom_flatMap (fun text member => closed text ?_) 0
  exact isWordText_of_mem_partsFrom _ none [] (List.forall_mem_nil _) member

/-- **Erasure after names have been replaced** leaves what stands outside of the argument lists, with the
erasure of what is put for each name there. -/
theorem eraseType_mapIdentifiers (closed : ClosedTexts f) (type : String) :
    eraseType (mapIdentifiers f type) = String.ofList ((outline type).flatMap (Part.erased f)) := by
  rw [eraseType, eraseFrom_mapIdentifiers closed]

theorem nested_of_isWordText {text : String} (word : IsWordText text) : Nested text.toList :=
  (calm_of_plain fun c member => isPlainChar_of_isNamePart (word c member)).toNested

theorem closedTexts_id : ClosedTexts id :=
  fun _ => nested_of_isWordText

theorem eraseType_eq_outline (type : String) :
    eraseType type = String.ofList ((outline type).flatMap (Part.erased id)) := by
  rw [← eraseType_mapIdentifiers closedTexts_id, @mapIdentifiers_same id fun _ => rfl]

/-- Only what is put for the names outside of argument lists matters. -/
theorem flatMap_erased_congr {g : String → String} (same : ∀ text ∈ outerNames type, f text = g text) :
    (outline type).flatMap (Part.erased f) = (outline type).flatMap (Part.erased g) := by
  refine List.flatMap_congr fun part member => ?_
  cases part with
  | char => rfl
  | name text => rw [Part.erased, Part.erased, same text (mem_outerNames.mpr member)]

end Replaced

/-! ### Wildcards -/

/-- Every `?` of the type stands inside of an argument list. -/
def Sheltered (type : String) : Prop :=
  ∀ front back, type.toList = front ++ '?' :: back → 0 < depthFrom 0 front

/-- What erasure leaves of a text stands outside of its argument lists. -/
theorem exists_of_mem_eraseFrom {c : Char} {text : List Char} {depth : Nat}
    (member : c ∈ eraseFrom depth text) :
    ∃ front back, text = front ++ c :: back ∧ depthFrom depth front = 0 := by
  induction text generalizing depth with
  | nil => cases member
  | cons first text ih =>
    -- Where `first` goes is decided the same way for the depth behind it.
    have later {behind : Nat} (same : depthFrom depth [first] = behind)
        (member : c ∈ eraseFrom behind text) :
        ∃ front back, first :: text = front ++ c :: back ∧ depthFrom depth front = 0 := by
      obtain ⟨front, back, rfl, outer⟩ := ih member
      refine ⟨first :: front, back, rfl, ?_⟩
      rw [← List.singleton_append, depthFrom_append, same, outer]
    rw [eraseFrom] at member
    split_ifs at member with opening closing kept
    · exact later (by simp [depthFrom, opening]) member
    · exact later (by simp [depthFrom, closing]) member
    · rcases List.mem_cons.mp member with rfl | member
      · exact ⟨[], text, rfl, kept.1⟩
      · exact later (by simp [depthFrom, opening, closing]) member
    · exact later (by simp [depthFrom, opening, closing]) member

theorem sheltered_iff {type : String} : Sheltered type ↔ '?' ∉ eraseFrom 0 type.toList := by
  constructor
  · intro sheltered member
    obtain ⟨front, back, split, outer⟩ := exists_of_mem_eraseFrom member
    exact absurd outer (Nat.ne_of_gt (sheltered front back split))
  · intro none_ front back split
    refine Nat.pos_of_ne_zero fun outer => none_ ?_
    rw [split, eraseFrom_append, outer]
    exact List.mem_append_right _ (by simp [eraseFrom])

/-- **Wildcards after names have been replaced** stand inside of argument lists, as they did before, unless
something with a wildcard outside of them is put for a name that stands outside of them. -/
theorem sheltered_mapIdentifiers {f : String → String} (closed : ClosedTexts f) {type : String}
    (sheltered : Sheltered type) :
    Sheltered (mapIdentifiers f type) ↔ ∀ text ∈ outerNames type, Sheltered (f text) := by
  have chars : Part.char '?' ∉ outline type := by
    intro member
    refine sheltered_iff.mp sheltered ?_
    rw [← @mapIdentifiers_same id (fun _ => rfl) type, eraseFrom_mapIdentifiers closedTexts_id]
    exact List.mem_flatMap.mpr ⟨_, member, List.mem_singleton_self _⟩
  rw [sheltered_iff, eraseFrom_mapIdentifiers closed, List.mem_flatMap]
  constructor
  · intro none_ text member
    exact sheltered_iff.mpr fun question => none_ ⟨_, mem_outerNames.mp member, question⟩
  · rintro each ⟨part, member, question⟩
    cases part with
    | char c =>
      obtain rfl := List.mem_singleton.mp question
      exact chars member
    | name text => exact sheltered_iff.mp (each text (mem_outerNames.mpr member)) question

/-! ### Texts with wildcards inside of argument lists -/

/-- Every argument list of the text is closed, and every `?` stands inside of one. -/
structure Covered (text : List Char) : Prop extends Nested text where
  covered : '?' ∉ eraseFrom 0 text

theorem Covered.append {front back : List Char} (first : Covered front) (second : Covered back) :
    Covered (front ++ back) where
  toNested := first.toNested.append second.toNested
  covered := by
    rw [eraseFrom_nested first.toNested, List.mem_append, not_or]
    exact ⟨first.covered, second.covered⟩

/-- An argument list covers what is in it. -/
theorem Nested.covered {text : List Char} (nested : Nested text) :
    Covered ('<' :: (text ++ ['>'])) where
  toNested := nested.bracketed.toNested
  covered := by simp [eraseFrom_bracketed nested]

theorem covered_of_plain {text : List Char} (plain : ∀ c ∈ text, isPlainChar c = true)
    (none_ : '?' ∉ text) : Covered text where
  toNested := (calm_of_plain plain).toNested
  covered := by rwa [eraseFrom_plain plain]

instance decidableSheltered (type : String) : Decidable (Sheltered type) :=
  decidable_of_iff _ sheltered_iff.symm

theorem Covered.sheltered {type : String} (covered : Covered type.toList) : Sheltered type :=
  sheltered_iff.mpr covered.covered

end Forwarder.TypeName
