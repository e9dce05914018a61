/-
**Erasure of type texts.** The key of a method is made of its erased parameter types, with commas between
them. It can be taken apart again if every argument list in these types is closed and no comma stands
outside of them.

* `depthFrom` — how many argument lists are open at the end of a text.
* `IsLevel` — a text of this kind that does not vanish under erasure.
* `SameShape` — two texts look alike to erasure: a congruence for concatenation.
* **`sameShape_mapIdentifiers`** — a text in which names are replaced by level texts keeps its shape.
* **`Method.eq_of_signature_eq`** — methods with one key agree in their names and erased parameters;
  `Method.HasFlatParams.eq_of_signature_eq` — also if there are parentheses in the names.
-/

import Forwarder.Method
import Forwarder.Proofs.Source.TypeText
import Forwarder.Proofs.Text.Pieces

namespace Forwarder.TypeName

/-! ### Depth -/

/-- How many argument lists are open at the end of a text that starts inside `depth` of them. -/
def depthFrom (depth : Nat) : List Char → Nat
  | [] => depth
  | c :: rest =>
    if c = '<' then depthFrom (depth + 1) rest
    else if c = '>' then depthFrom (depth - 1) rest
    else depthFrom depth rest

theorem depthFrom_append (depth : Nat) (front back : List Char) :
    depthFrom depth (front ++ back) = depthFrom (depthFrom depth front) back := by
  induction front generalizing depth with
  | nil => rfl
  | cons c front ih =>
    simp only [List.cons_append, depthFrom]
    split_ifs <;> exact ih _

theorem eraseFrom_append (depth : Nat) (front back : List Char) :
    eraseFrom depth (front ++ back) =
      eraseFrom depth front ++ eraseFrom (depthFrom depth front) back := by
  induction front generalizing depth with
  | nil => rfl
  | cons c front ih =>
    simp only [List.cons_append, eraseFrom, depthFrom]
    split_ifs
    · exact ih _
    · exact ih _
    · rw [ih, List.cons_append]
    · exact ih _

/-! ### Texts in which every list is closed -/

/-- Every argument list that the text opens is closed in it, and no other. -/
structure Nested (text : List Char) : Prop where
  closed : ∀ depth, depthFrom depth text = depth
  inside : ∀ depth, eraseFrom (depth + 1) text = []

/-- No comma of the text stands outside of its argument lists. -/
structure Calm (text : List Char) : Prop extends Nested text where
  comma : ',' ∉ eraseFrom 0 text

/-- Something of the text stands outside of its argument lists, but no comma. -/
structure IsLevel (text : List Char) : Prop extends Calm text where
  some_ : eraseFrom 0 text ≠ []

/-- A text without brackets. -/
theorem nested_of_free {text : List Char} (free : ∀ c ∈ text, c ≠ '<' ∧ c ≠ '>') :
    Nested text := by
  constructor
  · intro depth
    induction text with
    | nil => rfl
    | cons c text ih =>
      obtain ⟨⟨opening, closing⟩, others⟩ := List.forall_mem_cons.mp free
      rw [depthFrom, if_neg opening, if_neg closing, ih others]
  · intro depth
    induction text with
    | nil => rfl
    | cons c text ih =>
      obtain ⟨⟨opening, closing⟩, others⟩ := List.forall_mem_cons.mp free
      rw [eraseFrom, if_neg opening, if_neg closing, if_neg (by simp), ih others]

theorem Nested.append {front back : List Char} (first : Nested front) (second : Nested back) :
    Nested (front ++ back) := by
  constructor
  · intro depth
    rw [depthFrom_append, first.closed, second.closed]
  · intro depth
    rw [eraseFrom_append, first.inside, first.closed, second.inside, List.append_nil]

theorem eraseFrom_bracketed {depth : Nat} {text : List Char} (nested : Nested text) :
    eraseFrom depth ('<' :: (text ++ ['>'])) = [] := by
  simp [eraseFrom, eraseFrom_append, nested.inside]

/-- An argument list. -/
theorem Nested.bracketed {text : List Char} (nested : Nested text) :
    Calm ('<' :: (text ++ ['>'])) where
  closed depth := by simp [depthFrom, depthFrom_append, nested.closed]
  inside depth := eraseFrom_bracketed nested
  comma := by simp [eraseFrom_bracketed nested]

theorem eraseFrom_nested {front : List Char} (nested : Nested front) (depth : Nat)
    (back : List Char) : eraseFrom depth (front ++ back) = eraseFrom depth front ++ eraseFrom depth back := by
  rw [eraseFrom_append, nested.closed]

theorem Calm.append {front back : List Char} (first : Calm front) (second : Calm back) :
    Calm (front ++ back) where
  toNested := first.toNested.append second.toNested
  comma := by
    rw [eraseFrom_nested first.toNested, List.mem_append, not_or]
    exact ⟨first.comma, second.comma⟩

theorem eraseType_append {front back : String} (nested : Nested front.toList) :
    eraseType (front ++ back) = eraseType front ++ eraseType back := by
  rw [eraseType, String.toList_append, eraseFrom_nested nested, String.ofList_append]
  rfl

/-- Nothing is left of an argument list. -/
theorem eraseType_bracketed {args : String} (nested : Nested args.toList) :
    eraseType ("<" ++ args ++ ">") = "" := by
  have text : ("<" ++ args ++ ">").toList = '<' :: (args.toList ++ ['>']) := by simp
  rw [eraseType, text, eraseFrom_bracketed nested]

theorem IsLevel.append {front back : List Char} (first : IsLevel front) (second : Calm back) :
    IsLevel (front ++ back) where
  toCalm := first.toCalm.append second
  some_ := by
    rw [eraseFrom_nested first.toNested]
    exact List.append_ne_nil_of_left_ne_nil first.some_ _

theorem Calm.nil : Calm [] :=
  ⟨⟨fun _ => rfl, fun _ => rfl⟩, List.not_mem_nil⟩

/-! ### Flat texts -/

/-- The characters that erasure or a key treat in their own way. -/
def isPlainChar (c : Char) : Bool :=
  c != '<' && c != '>' && c != ',' && c != ' ' && c != '('

theorem eraseFrom_plain {text : List Char} (plain : ∀ c ∈ text, isPlainChar c = true) :
    eraseFrom 0 text = text := by
  induction text with
  | nil => rfl
  | cons c text ih =>
    obtain ⟨here, others⟩ := List.forall_mem_cons.mp plain
    simp only [isPlainChar, Bool.and_eq_true, bne_iff_ne] at here
    obtain ⟨⟨⟨⟨opening, closing⟩, -⟩, blank⟩, -⟩ := here
    rw [eraseFrom, if_neg opening, if_neg closing, if_pos ⟨rfl, blank⟩, ih others]

theorem eraseType_plain {text : String} (plain : ∀ c ∈ text.toList, isPlainChar c = true) :
    eraseType text = text := by
  rw [eraseType, eraseFrom_plain plain, String.ofList_toList]

/-- A text without any of these characters. -/
theorem calm_of_plain {text : List Char} (plain : ∀ c ∈ text, isPlainChar c = true) : Calm text where
  toNested := nested_of_free fun c member => by
    have := plain c member
    simp only [isPlainChar, Bool.and_eq_true, bne_iff_ne] at this
    exact ⟨this.1.1.1.1, this.1.1.1.2⟩
  comma := by
    rw [eraseFrom_plain plain]
    intro member
    exact absurd (plain _ member) (by decide)

/-- A text, not empty, without any of these characters. -/
structure IsFlat (text : List Char) : Prop where
  plain : ∀ c ∈ text, isPlainChar c = true
  ne_nil : text ≠ []

theorem isFlat_of_all {text : List Char} (all : text.all isPlainChar = true) (some_ : text ≠ []) :
    IsFlat text :=
  ⟨List.all_eq_true.mp all, some_⟩

theorem IsFlat.isLevel {text : List Char} (flat : IsFlat text) : IsLevel text where
  toCalm := calm_of_plain flat.plain
  some_ := by
    rw [eraseFrom_plain flat.plain]
    exact flat.ne_nil

theorem IsFlat.append {front back : List Char} (first : IsFlat front)
    (second : ∀ c ∈ back, isPlainChar c = true) : IsFlat (front ++ back) where
  plain := List.forall_mem_append.mpr ⟨first.plain, second⟩
  ne_nil := List.append_ne_nil_of_left_ne_nil first.ne_nil _

/-! ### Shapes -/

/-- Erasure finds the same open lists, commas in the same depths and anything at all in the same
depths. -/
structure SameShape (text other : List Char) : Prop where
  depth : ∀ d, depthFrom d text = depthFrom d other
  comma : ∀ d, ',' ∈ eraseFrom d text ↔ ',' ∈ eraseFrom d other
  blank : ∀ d, eraseFrom d text = [] ↔ eraseFrom d other = []

theorem SameShape.refl (text : List Char) : SameShape text text :=
  ⟨fun _ => rfl, fun _ => Iff.rfl, fun _ => Iff.rfl⟩

theorem SameShape.append {front back front' back' : List Char} (first : SameShape front front')
    (second : SameShape back back') : SameShape (front ++ back) (front' ++ back') where
  depth d := by rw [depthFrom_append, depthFrom_append, first.depth, second.depth]
  comma d := by
    rw [eraseFrom_append, eraseFrom_append, List.mem_append, List.mem_append, first.comma,
      first.depth, second.comma]
  blank d := by
    rw [eraseFrom_append, eraseFrom_append, List.append_eq_nil_iff, List.append_eq_nil_iff,
      first.blank, first.depth, second.blank]

/-- All level texts look alike. -/
theorem IsLevel.sameShape {text other : List Char} (first : IsLevel text) (second : IsLevel other) :
    SameShape text other where
  depth d := by rw [first.closed, second.closed]
  comma
    | 0 => iff_of_false first.comma second.comma
    | d + 1 => by rw [first.inside, second.inside]
  blank
    | 0 => iff_of_false first.some_ second.some_
    | d + 1 => by rw [first.inside, second.inside]

theorem SameShape.isLevel {text other : List Char} (same : SameShape text other)
    (level : IsLevel other) : IsLevel text where
  closed d := by rw [same.depth, level.closed]
  inside d := (same.blank _).mpr (level.inside d)
  comma member := level.comma ((same.comma 0).mp member)
  some_ empty := level.some_ ((same.blank 0).mp empty)

/-! ### Replaced names -/

theorem isPlainChar_of_isNamePart {c : Char} (part : isNamePart c = true) : isPlainChar c = true := by
  by_contra other
  rw [isPlainChar] at other
  simp only [Bool.and_eq_true, bne_iff_ne, not_and_or, not_not] at other
  rcases other with (((rfl | rfl) | rfl) | rfl) | rfl <;> exact absurd part (by decide)

theorem isNamePart_of_isNameStart {c : Char} (start : isNameStart c = true) :
    isNamePart c = true := by
  rw [isNamePart, start, Bool.true_or]

variable {f : String → String}

theorem sameShape_rewriteName (level : ∀ name, IsFlat name → IsLevel (f (String.ofList name)).toList)
    {name : List Char} (flat : IsFlat name) (before after : Option Char) :
    SameShape (rewriteName f before name after) name := by
  unfold rewriteName
  split_ifs
  · exact .refl name
  · exact (level name flat).sameShape flat.isLevel

/-- **Replacing names** by level texts keeps the shape of a text. -/
theorem sameShape_rewriteFrom (level : ∀ name, IsFlat name → IsLevel (f (String.ofList name)).toList)
    (cs : List Char) :
    ∀ (before : Option Char) (name : List Char), (∀ c ∈ name, isPlainChar c = true) →
      SameShape (rewriteFrom f before name cs) (name ++ cs) := by
  induction cs with
  | nil =>
    intro before name plain
    rw [rewriteFrom, List.append_nil]
    by_cases empty : name = []
    · rw [empty]
      exact .refl []
    · rw [if_neg (by simpa using empty)]
      exact sameShape_rewriteName level ⟨plain, empty⟩ before none
  | cons c cs ih =>
    intro before name plain
    rw [rewriteFrom]
    by_cases empty : name = []
    · subst empty
      simp only [List.isEmpty_nil, if_true]
      split_ifs with start
      · refine ih before [c] fun x member => ?_
        obtain rfl := List.mem_singleton.mp member
        exact isPlainChar_of_isNamePart (isNamePart_of_isNameStart start)
      · exact (SameShape.refl [c]).append (ih (some c) [] plain)
    · rw [if_neg (by simpa using empty)]
      split_ifs with part
      · have more := ih before (name ++ [c]) (List.forall_mem_append.mpr
          ⟨plain, List.forall_mem_singleton.mpr (isPlainChar_of_isNamePart part)⟩)
        rwa [List.append_assoc] at more
      · exact (sameShape_rewriteName level ⟨plain, empty⟩ before (some c)).append
          ((SameShape.refl [c]).append (ih (some c) [] (List.forall_mem_nil _)))

theorem sameShape_mapIdentifiers
    (level : ∀ name, IsFlat name → IsLevel (f (String.ofList name)).toList) (type : String) :
    SameShape (mapIdentifiers f type).toList type.toList := by
  rw [mapIdentifiers, String.toList_ofList]
  exact sameShape_rewriteFrom level _ _ _ (List.forall_mem_nil _)

end Forwarder.TypeName

/-! ### Keys -/

open Forwarder.TypeName (IsFlat isPlainChar)

namespace Forwarder.Method

/-- The key of the method can be taken apart. -/
structure Keyed (m : Method) : Prop where
  name : '(' ∉ m.name.toList
  params : ∀ p ∈ m.params, TypeName.IsLevel p.type.toList

theorem signature_toList (m : Method) : m.signature.toList =
    m.name.toList ++ '(' :: (Text.join "," (m.params.map (·.erased))).toList ++ [')'] := by
  simp [signature]

/-- An erased type of a parameter has no comma and is not empty. -/
theorem Keyed.erased {m : Method} (keyed : m.Keyed) {p : Parameter} (member : p ∈ m.params) :
    ',' ∉ p.erased.toList ∧ p.erased.toList ≠ [] := by
  have level := keyed.params p member
  simp only [Parameter.erased, TypeName.eraseType, String.toList_append, String.toList_ofList]
  refine ⟨?_, List.append_ne_nil_of_left_ne_nil level.some_ _⟩
  rw [List.mem_append, not_or]
  refine ⟨level.comma, ?_⟩
  split_ifs <;> decide

/-- **Methods with one key** have one name and the same erased parameters. -/
theorem eq_of_signature_eq {m n : Method} (keyed : m.Keyed) (keyed' : n.Keyed)
    (same : m.signature = n.signature) :
    m.name = n.name ∧ m.params.map (·.erased) = n.params.map (·.erased) := by
  have chars := congrArg String.toList same
  rw [signature_toList, signature_toList, List.append_left_inj] at chars
  have parts := congrArg (Text.pieces '(') chars
  rw [Text.pieces_append keyed.name, Text.pieces_append keyed'.name] at parts
  have names := (List.cons.inj parts).1
  rw [names, List.append_right_inj, List.cons_inj_right] at chars
  exact ⟨String.toList_inj.mp names, Text.join_inj
    (List.forall_mem_map.mpr fun _ member => keyed.erased member)
    (List.forall_mem_map.mpr fun _ member => keyed'.erased member) (String.toList_inj.mp chars)⟩

/-- Erasure leaves flat texts of the parameters. -/
def HasFlatParams (m : Method) : Prop :=
  ∀ p ∈ m.params, IsFlat p.erased.toList

namespace HasFlatParams

variable {m n : Method}

theorem parts (flat : m.HasFlatParams) :
    ∀ part ∈ m.params.map (·.erased), ',' ∉ part.toList ∧ part.toList ≠ [] :=
  List.forall_mem_map.mpr fun p member =>
    ⟨fun comma => absurd ((flat p member).plain _ comma) (by decide), (flat p member).ne_nil⟩

/-- No parenthesis is opened behind the one in front of the parameters. -/
theorem opening_not_mem (flat : m.HasFlatParams) :
    '(' ∉ (Text.join "," (m.params.map (·.erased))).toList :=
  @Text.not_mem_join ',' '(' (by decide) _ (List.forall_mem_map.mpr fun p member opening =>
    absurd ((flat p member).plain _ opening) (by decide))

/-- **Methods with one key** again. The names may be any texts, as the last parenthesis that is opened is
the one behind the name. -/
theorem eq_of_signature_eq (flat : m.HasFlatParams) (flat' : n.HasFlatParams)
    (same : m.signature = n.signature) :
    m.name = n.name ∧ m.params.map (·.erased) = n.params.map (·.erased) := by
  have chars := congrArg String.toList same
  rw [signature_toList, signature_toList, List.append_left_inj] at chars
  have names := congrArg (Text.beforeLast '(') chars
  rw [Text.beforeLast_concat flat.opening_not_mem, Text.beforeLast_concat flat'.opening_not_mem] at names
  have joined := congrArg (Text.afterLast '(') chars
  rw [Text.afterLast_concat flat.opening_not_mem, Text.afterLast_concat flat'.opening_not_mem] at joined
  exact ⟨String.toList_inj.mp names,
    Text.join_inj flat.parts flat'.parts (String.toList_inj.mp joined)⟩

end HasFlatParams

end Forwarder.Method
