/-
**Replacing names twice.** Names are found by their neighbours, so a text that is put for a name could run
together with what stands around it, or end up beside a point. It does not: what is put for a name stands
between characters that continue no name and are no points, and its parts stay the parts they are. So a text
whose names are replaced has the parts of the texts that are put for them, and replacing again goes into
these texts alone.

* `Begun`, `isName_of_mem_identifiers` — the names that are found are names.
* `Part.replaced`, **`partsFrom_rewriteFrom`** — the parts of a text after its names have been replaced;
  `identifiers_mapIdentifiers` — the names among them.
* `mapIdentifiers_mapIdentifiers` — replacing twice is replacing by what has been replaced.
* `Binding`, `composed` — the type arguments of several levels, as one substitution; `Method.bindings` — those
  for a method that is handed down through the levels.
* **`substitution_composes`** — level by level, or all at once: texts and inherited methods are the same.
-/

import Forwarder.Loading.Closure
import Forwarder.Proofs.Outline
import Forwarder.Proofs.Source.Renaming

open Forwarder.Source (isName isName_iff)
open Forwarder.TypeName (Substitution identifiers mapIdentifiers substitute typeParamNames)

namespace Forwarder

namespace TypeName

variable {before : Option Char} {rest : List Char}

/-! ### The parts of texts put together -/

/-- All that matters of the character in front is whether it is a point. -/
theorem partsFrom_before {before other : Option Char} (free : before ≠ some '.')
    (free' : other ≠ some '.') (cs : List Char) :
    ∀ name, partsFrom before name cs = partsFrom other name cs := by
  induction cs with
  | nil =>
    intro name
    simp [partsFrom, finished, free, free']
  | cons c cs ih =>
    intro name
    simp only [partsFrom, finished, free, free', false_or, ih]

/-- Where no name is begun, the text before it does not matter. -/
theorem partsFrom_stop (stops : ∀ c ∈ rest.head?, isNamePart c = false) (before other : Option Char) :
    partsFrom before [] rest = partsFrom other [] rest := by
  cases rest with
  | nil => rfl
  | cons c rest => simp [partsFrom, isNameStart_of_isNamePart (stops c rfl)]

theorem partsFrom_begun {cs : List Char} (parts : ∀ c ∈ cs, isNamePart c = true) (c : Char)
    (word : List Char) :
    partsFrom before (c :: word) (cs ++ rest) = partsFrom before (c :: word ++ cs) rest := by
  induction cs generalizing word with
  | nil => simp
  | cons next cs ih =>
    have step : partsFrom before (c :: word) (next :: (cs ++ rest)) =
        partsFrom before (c :: (word ++ [next])) (cs ++ rest) := by
      simp [partsFrom, parts next List.mem_cons_self]
    rw [List.cons_append, step, ih fun x member => parts x (List.mem_cons_of_mem _ member)]
    simp

/-- A name up to where it is not continued. -/
theorem partsFrom_name {name : List Char} (isWord : isName (String.ofList name) = true)
    (stops : ∀ c ∈ rest.head?, isNamePart c = false) (next : Option Char) :
    partsFrom before [] (name ++ rest) =
      finished before name rest.head? ++ partsFrom next [] rest := by
  obtain ⟨c, cs, text, start, parts⟩ := isName_iff.mp isWord
  rw [String.toList_ofList] at text
  have begun : partsFrom before [] (c :: (cs ++ rest)) = partsFrom before [c] (cs ++ rest) := by
    simp [partsFrom, start]
  rw [text, List.cons_append, begun, partsFrom_begun parts c []]
  cases rest with
  | nil => simp [partsFrom]
  | cons stop rest =>
    have other := stops stop rfl
    simp [partsFrom, other, isNameStart_of_isNamePart other]

/-- Any text, up to where no name of it is continued. -/
theorem partsFrom_append (parts : Parts rest) (next : Option Char) (cs : List Char) :
    ∀ before name, partsFrom before name (cs ++ rest) =
      partsFrom before name cs ++ partsFrom next [] rest := by
  induction cs with
  | nil =>
    intro before name
    cases name with
    | nil => exact partsFrom_stop parts.1 before next
    | cons first name =>
      cases rest with
      | nil => simp [partsFrom]
      | cons stop rest =>
        have other := parts.1 stop rfl
        have noPoint : stop ≠ '.' := by simpa using parts.2
        simp [partsFrom, finished, other, noPoint, isNameStart_of_isNamePart other]
  | cons c cs ih =>
    intro before name
    simp only [List.cons_append, partsFrom, ih]
    split_ifs <;> simp

/-! ### Names that are found -/

/-- What has been read of a name: nothing, or a name. -/
def Begun (name : List Char) : Prop :=
  name = [] ∨ isName (String.ofList name) = true

theorem Begun.start {c : Char} (start : isNameStart c = true) : Begun [c] :=
  .inr (isName_iff.mpr ⟨c, [], String.toList_ofList, start, List.forall_mem_nil _⟩)

theorem Begun.isName {first : Char} {name : List Char} (begun : Begun (first :: name)) :
    isName (String.ofList (first :: name)) = true :=
  begun.resolve_left (List.cons_ne_nil _ _)

theorem Begun.append {first c : Char} {name : List Char} (begun : Begun (first :: name))
    (part : isNamePart c = true) : Begun (first :: name ++ [c]) := by
  obtain ⟨head, others, text, start, parts⟩ := isName_iff.mp begun.isName
  rw [String.toList_ofList] at text
  refine .inr (isName_iff.mpr ⟨head, others ++ [c], by simp [text], start, ?_⟩)
  exact List.forall_mem_append.mpr ⟨parts, List.forall_mem_singleton.mpr part⟩

theorem isName_of_mem_listedName {before after : Option Char} {word : List Char} {name : String}
    (isWord : Source.isName (String.ofList word) = true) (listed : name ∈ listedName before word after) :
    isName name = true := by
  unfold listedName at listed
  split at listed
  · cases listed
  · rwa [List.mem_singleton.mp listed]

/-- The names that are listed are names. -/
theorem isName_of_mem_namesFrom {name : String} (cs : List Char) :
    ∀ before word, Begun word → name ∈ namesFrom before word cs → isName name = true := by
  induction cs with
  | nil =>
    intro before word begun listed
    cases word with
    | nil => cases listed
    | cons first word => exact isName_of_mem_listedName begun.isName listed
  | cons c cs ih =>
    intro before word begun listed
    cases word with
    | nil =>
      simp only [namesFrom, List.isEmpty_nil, if_true] at listed
      split at listed
      · next start => exact ih before [c] (.start start) listed
      · exact ih (some c) [] (.inl rfl) listed
    | cons first word =>
      simp only [namesFrom, List.isEmpty_cons, Bool.false_eq_true, if_false] at listed
      split at listed
      · next part => exact ih before _ (begun.append part) listed
      · rcases List.mem_append.mp listed with here | later
        · exact isName_of_mem_listedName begun.isName here
        · exact ih (some c) [] (.inl rfl) later

theorem isName_of_mem_identifiers {name type : String} (listed : name ∈ identifiers type) :
    isName name = true :=
  isName_of_mem_namesFrom type.toList none [] (.inl rfl) listed

theorem filterMap_finished (before : Option Char) (name : List Char) (after : Option Char) :
    (finished before name after).filterMap Part.name? = listedName before name after := by
  unfold finished listedName
  split_ifs
  · rw [List.filterMap_map]
    exact List.filterMap_eq_nil_iff.mpr fun _ _ => rfl
  · rfl

/-- The names that are parts of a text are those that are listed. -/
theorem filterMap_partsFrom (cs : List Char) : ∀ (before : Option Char) (name : List Char),
    (partsFrom before name cs).filterMap Part.name? = namesFrom before name cs := by
  induction cs with
  | nil =>
    intro before name
    rw [partsFrom, namesFrom]
    split_ifs
    · rfl
    · exact filterMap_finished before name none
  | cons c cs ih =>
    intro before name
    rw [partsFrom, namesFrom]
    split_ifs
    · exact ih before [c]
    · exact ih (some c) []
    · exact ih before (name ++ [c])
    · rw [List.filterMap_append, filterMap_finished]
      exact congrArg _ (ih (some c) [])

theorem identifiers_eq_filterMap (type : String) :
    identifiers type = (partsFrom none [] type.toList).filterMap Part.name? :=
  (filterMap_partsFrom type.toList none []).symm

theorem mem_identifiers {name type : String} :
    name ∈ identifiers type ↔ Part.name name ∈ partsFrom none [] type.toList := by
  rw [identifiers_eq_filterMap, mem_names]

/-! ### The parts of a text after replacing -/

/-- The parts that stand for a part if names are replaced. -/
def Part.replaced (f : String → String) : Part → List Part
  | .char c => [.char c]
  | .name text => partsFrom none [] (f text).toList

/-- A name that is not part of a dotted name gives way to another text, with the parts of that text. -/
theorem partsFrom_rewriteName (f : String → String) {word : List Char}
    (isWord : isName (String.ofList word) = true) (rest : List Char)
    (stops : ∀ c ∈ rest.head?, isNamePart c = false) (before next : Option Char) :
    partsFrom before [] (rewriteName f before word rest.head? ++ rest) =
      (finished before word rest.head?).flatMap (Part.replaced f) ++ partsFrom next [] rest := by
  unfold rewriteName
  by_cases dotted : before = some '.' ∨ rest.head? = some '.'
  · have kept : (word.map Part.char).flatMap (Part.replaced f) = word.map Part.char := by
      rw [List.flatMap_map]
      exact (List.map_eq_flatMap).symm
    rw [if_pos dotted, partsFrom_name isWord stops next, finished, if_pos dotted, kept]
  · obtain ⟨free, ends⟩ := not_or.mp dotted
    rw [if_neg dotted, partsFrom_append ⟨stops, ends⟩ next, finished, if_neg dotted,
      partsFrom_before free (by simp : (none : Option Char) ≠ some '.'), List.flatMap_singleton]
    rfl

/-- **The parts of a text after replacing** are those of the texts that stand for its names, with the
characters between them. -/
theorem partsFrom_rewriteFrom (f : String → String) (cs : List Char) :
    ∀ before word, Begun word → partsFrom before [] (rewriteFrom f before word cs) =
      (partsFrom before word cs).flatMap (Part.replaced f) := by
  induction cs with
  | nil =>
    intro before word begun
    cases word with
    | nil => rfl
    | cons first word =>
      have replaced := partsFrom_rewriteName f begun.isName [] (by simp) before none
      simpa [rewriteFrom, partsFrom] using replaced
  | cons c cs ih =>
    intro before word begun
    cases word with
    | nil =>
      simp only [rewriteFrom, partsFrom, List.isEmpty_nil, if_true]
      by_cases start : isNameStart c = true
      · rw [if_pos start, if_pos start]
        exact ih before [c] (.start start)
      · rw [if_neg start, if_neg start, partsFrom, if_pos List.isEmpty_nil, if_neg start,
          ih (some c) [] (.inl rfl)]
        rfl
    | cons first word =>
      simp only [rewriteFrom, partsFrom, List.isEmpty_cons, Bool.false_eq_true, if_false]
      by_cases part : isNamePart c = true
      · rw [if_pos part, if_pos part]
        exact ih before _ (begun.append part)
      · have stops : isNamePart c = false := Bool.eq_false_iff.mpr part
        have replaced := partsFrom_rewriteName f begun.isName (c :: rewriteFrom f (some c) [] cs)
          (by rintro _ ⟨⟩; exact stops) before none
        rw [List.head?_cons] at replaced
        have mark : partsFrom none [] (c :: rewriteFrom f (some c) [] cs) =
            .char c :: partsFrom (some c) [] (rewriteFrom f (some c) [] cs) := by
          simp [partsFrom, isNameStart_of_isNamePart stops]
        rw [if_neg part, if_neg part, replaced, mark, ih (some c) [] (.inl rfl), List.flatMap_append]
        rfl

/-- The names of a text after its names have been replaced. -/
theorem identifiers_mapIdentifiers (f : String → String) (type : String) :
    identifiers (mapIdentifiers f type) =
      (identifiers type).flatMap fun name => identifiers (f name) := by
  have parts := partsFrom_rewriteFrom f type.toList none [] (.inl rfl)
  rw [identifiers_eq_filterMap, identifiers_eq_filterMap, mapIdentifiers, String.toList_ofList, parts,
    List.filterMap_flatMap, List.filterMap_eq_flatMap_toList, List.flatMap_assoc]
  refine List.flatMap_congr fun part _ => ?_
  cases part with
  | char => rfl
  | name text =>
    rw [Part.name?, Option.toList_some, List.flatMap_singleton]
    exact (identifiers_eq_filterMap (f text)).symm

/-- The names of a text that is a name. -/
theorem identifiers_name {name : String} (isWord : isName name = true) : identifiers name = [name] := by
  have whole : partsFrom none [] (name.toList ++ []) =
      finished none name.toList none ++ partsFrom none [] [] :=
    partsFrom_name (by rwa [String.ofList_toList]) (by simp) none
  rw [List.append_nil] at whole
  simp [identifiers_eq_filterMap, whole, finished, partsFrom, Part.name?]

/-! ### Replacing again -/

/-- What is put for the names of the text is all that matters. -/
theorem mapIdentifiers_congr {f g : String → String} {type : String}
    (same : ∀ name ∈ identifiers type, f name = g name) : mapIdentifiers f type = mapIdentifiers g type := by
  rw [mapIdentifiers, mapIdentifiers, rewriteFrom_eq_flatMap, rewriteFrom_eq_flatMap]
  refine congrArg String.ofList (List.flatMap_congr fun part member => ?_)
  cases part with
  | char => rfl
  | name text => rw [Part.rewritten, Part.rewritten, same text (mem_identifiers.mpr member)]

/-- A name gives way to what is put for it. -/
theorem mapIdentifiers_name {f : String → String} {name : String} (isWord : isName name = true) :
    mapIdentifiers f name = f name :=
  (Renames.word isWord).mapIdentifiers

/-- **Replacing names twice** is replacing them once, by texts whose names have been replaced. -/
theorem mapIdentifiers_mapIdentifiers (f g : String → String) (type : String) :
    mapIdentifiers g (mapIdentifiers f type) =
      mapIdentifiers (fun name => mapIdentifiers g (f name)) type := by
  have parts := partsFrom_rewriteFrom f type.toList none [] (.inl rfl)
  rw [mapIdentifiers, mapIdentifiers, mapIdentifiers, String.toList_ofList, rewriteFrom_eq_flatMap g,
    parts, List.flatMap_assoc, rewriteFrom_eq_flatMap]
  refine congrArg String.ofList (List.flatMap_congr fun part _ => ?_)
  cases part with
  | char c => rfl
  | name text =>
    rw [Part.replaced, Part.rewritten, mapIdentifiers, String.toList_ofList, rewriteFrom_eq_flatMap]

/-! ### Levels of type arguments -/

/-- What one level of an inheritance chain puts for type variables, and the names that it leaves alone. -/
structure Binding where
  mapping : Substitution
  kept : List String

/-- The texts of a level, with the type arguments of the later levels put into them. -/
def Binding.under (b : Binding) (later : Substitution) : Substitution :=
  (b.mapping.filter fun entry => !b.kept.contains entry.1).map fun entry =>
    (entry.1, substitute later [] entry.2)

/-- The levels of a chain as one substitution, the first level first. -/
def composed : List Binding → Substitution
  | [] => []
  | b :: later => b.under (composed later) ++ composed later

/-- What stands for a name, where the names that are left alone are dropped from the mapping. -/
theorem lookup_under (b : Binding) (later : Substitution) (name : String) :
    (b.under later).lookup name = if b.kept.contains name then none
      else (b.mapping.lookup name).map (substitute later []) := by
  obtain ⟨mapping, kept⟩ := b
  induction mapping with
  | nil => simp [Binding.under]
  | cons entry mapping ih =>
    obtain ⟨key, text⟩ := entry
    simp only [Binding.under] at ih ⊢
    rw [List.filter_cons]
    by_cases isKept : kept.contains key = true
    · rw [if_neg (by simpa using isKept), ih]
      split_ifs with nameKept
      · rfl
      · have other : (name == key) = false := by
          rw [beq_eq_false_iff_ne]
          rintro rfl
          exact nameKept isKept
        rw [List.lookup_cons, other]
    · rw [if_pos (by simpa using isKept), List.map_cons, List.lookup_cons, ih, List.lookup_cons]
      cases same : name == key with
      | false => rfl
      | true => exact (if_neg (eq_of_beq same ▸ isKept)).symm

/-- A name gets what its level puts for it, with the type arguments of the later levels. -/
theorem apply_composed (b : Binding) (later : List Binding) {name : String} (isWord : isName name = true) :
    (composed (b :: later)).apply [] name = substitute (composed later) [] (b.mapping.apply b.kept name) := by
  have plain (mapping : Substitution) : mapping.apply [] name = (mapping.lookup name).getD name := by
    simp [Substitution.apply]
  have kept : substitute (composed later) [] name = (composed later).apply [] name :=
    mapIdentifiers_name isWord
  rw [plain, composed, List.lookup_append, lookup_under, Substitution.apply]
  split_ifs
  · rw [Option.none_or, kept, plain]
  · cases b.mapping.lookup name with
    | none => rw [Option.map_none, Option.none_or, Option.getD_none, kept, plain]
    | some text => rfl

theorem substitute_nil (type : String) : substitute [] [] type = type :=
  mapIdentifiers_same (fun _ => rfl) type

/-- One level, and then all later ones at once. -/
theorem substitute_composed (b : Binding) (later : List Binding) (type : String) :
    substitute (composed later) [] (substitute b.mapping b.kept type) =
      substitute (composed (b :: later)) [] type := by
  rw [substitute, substitute, mapIdentifiers_mapIdentifiers, substitute]
  refine mapIdentifiers_congr fun name member => ?_
  exact (apply_composed b later (isName_of_mem_identifiers member)).symm

/-- Level by level. -/
theorem foldl_substitute (levels : List Binding) (type : String) :
    levels.foldl (fun text b => substitute b.mapping b.kept text) type =
      substitute (composed levels) [] type := by
  induction levels generalizing type with
  | nil => exact (substitute_nil type).symm
  | cons b later ih => rw [List.foldl_cons, ih, substitute_composed]

end TypeName

/-! ### Methods that are handed down -/

namespace Method

/-- The method with all its types rewritten. -/
def retyped (f : String → String) (m : Method) : Method :=
  { m with
    returns := f m.returns
    params := m.params.map fun p => { p with type := f p.type }
    throws := m.throws.map f
    typeParams := m.typeParams.map f }

theorem retyped_retyped (f g : String → String) (m : Method) :
    (m.retyped f).retyped g = m.retyped fun type => g (f type) := by
  simp [retyped, Function.comp_def]

theorem retyped_same {f : String → String} (same : ∀ type, f type = type) (m : Method) :
    m.retyped f = m := by
  have each : f = id := funext same
  subst each
  simp [retyped]

/-- The levels that a method is handed down through. At each of them the names that the method has for its
own type parameters by then are left alone. -/
def bindings (m : Method) : List Substitution → List TypeName.Binding
  | [] => []
  | mapping :: later => ⟨mapping, typeParamNames m.typeParams⟩ :: (m.substituted mapping).bindings later

/-- A method that is handed down level by level has its types rewritten once. -/
theorem foldl_substituted (levels : List Substitution) (m : Method) :
    levels.foldl Method.substituted m = m.retyped (substitute (TypeName.composed (m.bindings levels)) []) := by
  induction levels generalizing m with
  | nil => exact (retyped_same TypeName.substitute_nil m).symm
  | cons mapping later ih =>
    rw [List.foldl_cons, ih]
    show (m.retyped (substitute mapping (typeParamNames m.typeParams))).retyped _ = _
    rw [retyped_retyped]
    exact congrArg m.retyped (funext (TypeName.substitute_composed ⟨mapping, _⟩ _))

end Method

/-- **Replacing names composes.** Replacing twice is replacing once by what has been replaced, whatever is
put for the names, and names that are replaced by themselves leave the text as it is. So the type arguments
of the levels of an inheritance chain may be put in one level after the other or all at once: in a text, and
in the methods that are inherited through the chain. -/
theorem substitution_composes (f g : String → String) (type : String) (levels : List TypeName.Binding)
    (s : Surface) (args : List String) (above : List Substitution) :
    mapIdentifiers g (mapIdentifiers f type) = mapIdentifiers (fun name => mapIdentifiers g (f name)) type ∧
    mapIdentifiers id type = type ∧
    levels.foldl (fun text b => substitute b.mapping b.kept text) type =
      substitute (TypeName.composed levels) [] type ∧
    (s.inherited args).map (above.foldl Method.substituted) = s.methods.map fun m =>
      m.retyped (substitute (TypeName.composed (m.bindings
        (.ofArguments (typeParamNames s.typeParams) args [] :: above))) []) := by
  refine ⟨TypeName.mapIdentifiers_mapIdentifiers f g type, TypeName.mapIdentifiers_same (fun _ => rfl) type,
    TypeName.foldl_substitute levels type, ?_⟩
  rw [Surface.inherited, List.map_map]
  refine List.map_congr_left fun m _ => ?_
  exact m.foldl_substituted (.ofArguments (typeParamNames s.typeParams) args [] :: above)

end Forwarder
