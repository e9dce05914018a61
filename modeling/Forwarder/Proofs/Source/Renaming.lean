/-
**Renaming in type texts.** A type text whose free names are replaced by type texts is a type text
again, as long as a name that is given arguments is replaced by a mere name.

* `IsTypeText`, `IsParamText` — the canonical texts of clean references and type parameters.
* `Renaming` — what a replacement has to do with names.
* **`IsTypeText.mapIdentifiers`**, `IsParamText.mapIdentifiers` — the texts stay type texts.
* `Declares`, `typeParamNames_eq` — the names that are declared by the texts of type parameters.
-/

import Forwarder.Proofs.Source.TypeText
import Forwarder.TypeName

namespace Forwarder.TypeName

open Source (isName isName_iff)

variable {f : String → String} {before after : Option Char} {rest : List Char}

/-! ### Replacing in a text -/

theorem isNameStart_of_isNamePart {c : Char} (other : isNamePart c = false) :
    isNameStart c = false := by
  rw [isNamePart, Bool.or_eq_false_iff] at other
  exact other.1

/-- Where no name is begun, the text before it does not matter. -/
theorem rewriteFrom_before (stops : ∀ c ∈ rest.head?, isNamePart c = false)
    (before after : Option Char) : rewriteFrom f before [] rest = rewriteFrom f after [] rest := by
  cases rest with
  | nil => rfl
  | cons c rest => simp [rewriteFrom, isNameStart_of_isNamePart (stops c rfl)]

theorem rewriteFrom_parts {cs : List Char} (parts : ∀ c ∈ cs, isNamePart c = true) (c : Char)
    (word : List Char) :
    rewriteFrom f before (c :: word) (cs ++ rest) = rewriteFrom f before (c :: word ++ cs) rest := by
  induction cs generalizing word with
  | nil => simp
  | cons next cs ih =>
    have step : rewriteFrom f before (c :: word) (next :: (cs ++ rest)) =
        rewriteFrom f before (c :: (word ++ [next])) (cs ++ rest) := by
      simp [rewriteFrom, parts next List.mem_cons_self]
    rw [List.cons_append, step, ih fun x member => parts x (List.mem_cons_of_mem _ member)]
    simp

/-- A name up to where it is not continued. -/
theorem rewriteFrom_name {name : String} (isWord : isName name = true)
    (stops : ∀ c ∈ rest.head?, isNamePart c = false) (next : Option Char) :
    rewriteFrom f before [] (name.toList ++ rest) =
      rewriteName f before name.toList rest.head? ++ rewriteFrom f next [] rest := by
  obtain ⟨c, cs, text, start, parts⟩ := isName_iff.mp isWord
  have begun : rewriteFrom f before [] (c :: (cs ++ rest)) = rewriteFrom f before [c] (cs ++ rest) := by
    simp [rewriteFrom, start]
  rw [text, List.cons_append, begun, rewriteFrom_parts parts c []]
  cases rest with
  | nil => simp [rewriteFrom]
  | cons stop rest =>
    have other := stops stop rfl
    simp [rewriteFrom, other, isNameStart_of_isNamePart other]

/-- A name with no point around it. -/
theorem rewriteFrom_free {name : String} (isWord : isName name = true) (free : before ≠ some '.')
    (stops : ∀ c ∈ rest.head?, isNamePart c = false) (ends : rest.head? ≠ some '.')
    (next : Option Char) : rewriteFrom f before [] (name.toList ++ rest) =
      (f name).toList ++ rewriteFrom f next [] rest := by
  rw [rewriteFrom_name isWord stops next, rewriteName, if_neg (by simp [free, ends]),
    String.ofList_toList]

/-- A name behind a point. -/
theorem rewriteFrom_behind {name : String} (isWord : isName name = true)
    (stops : ∀ c ∈ rest.head?, isNamePart c = false) (next : Option Char) :
    rewriteFrom f (some '.') [] (name.toList ++ rest) =
      name.toList ++ rewriteFrom f next [] rest := by
  rw [rewriteFrom_name isWord stops next, rewriteName, if_pos (.inl rfl)]

/-- A name in front of a point. -/
theorem rewriteFrom_ahead {name : String} (isWord : isName name = true) (next : Option Char) :
    rewriteFrom f before [] (name.toList ++ '.' :: rest) =
      name.toList ++ rewriteFrom f next [] ('.' :: rest) := by
  rw [rewriteFrom_name isWord (by rintro _ ⟨⟩; decide) next, rewriteName, if_pos (.inr rfl)]

theorem rewriteFrom_mark {c : Char} (other : isNameStart c = false) :
    rewriteFrom f before [] (c :: rest) = c :: rewriteFrom f (some c) [] rest := by
  simp [rewriteFrom, other]

/-- Characters that begin no name are kept. -/
theorem rewriteFrom_marks {cs : List Char} (marks : ∀ c ∈ cs, isNameStart c = false) :
    rewriteFrom f before [] (cs ++ rest) =
      cs ++ rewriteFrom f (cs.getLast?.or before) [] rest := by
  induction cs generalizing before with
  | nil => rfl
  | cons c cs ih =>
    rw [List.cons_append, rewriteFrom_mark (marks c List.mem_cons_self),
      ih fun x member => marks x (List.mem_cons_of_mem _ member)]
    cases cs with
    | nil => rfl
    | cons next cs => simp [List.getLast?_cons]

/-- The text in front continues neither a name nor a dotted name. -/
def Parts (rest : List Char) : Prop :=
  (∀ c ∈ rest.head?, isNamePart c = false) ∧ rest.head? ≠ some '.'

/-- A text with no point around it is rewritten to that one. -/
def Renames (f : String → String) (text renamed : String) : Prop :=
  ∀ before rest next, before ≠ some '.' → Parts rest →
    rewriteFrom f before [] (text.toList ++ rest) = renamed.toList ++ rewriteFrom f next [] rest

theorem Renames.mapIdentifiers {text renamed : String} (renames : Renames f text renamed) :
    TypeName.mapIdentifiers f text = renamed := by
  have whole := renames none [] none (by simp) ⟨by simp, by simp⟩
  rw [List.append_nil, show rewriteFrom f none [] [] = [] from rfl, List.append_nil] at whole
  rw [TypeName.mapIdentifiers, whole, String.ofList_toList]

/-- The characters of a text between two others: none of them belongs to a name or a dotted name. -/
def isBetween (text : String) : Bool :=
  text != "" && text.toList.all fun c => !isNamePart c && c != '.'

theorem isBetween_cons {text : String} (between : isBetween text = true) :
    ∃ c cs, text.toList = c :: cs ∧ ∀ x ∈ c :: cs, isNamePart x = false ∧ x ≠ '.' := by
  rw [isBetween, Bool.and_eq_true, List.all_eq_true] at between
  cases chars : text.toList with
  | nil =>
    have empty : text = "" := by
      rw [← String.ofList_toList (s := text), chars]
    simp [empty] at between
  | cons c cs =>
    refine ⟨c, cs, rfl, fun x member => ?_⟩
    rw [chars] at between
    simpa using between.2 x member

theorem parts_of_isBetween {text : String} (between : isBetween text = true) (rest : List Char) :
    Parts (text.toList ++ rest) := by
  obtain ⟨c, cs, chars, free⟩ := isBetween_cons between
  have first := free c List.mem_cons_self
  rw [chars]
  exact ⟨by rintro _ ⟨⟩; exact first.1, by simp [first.2]⟩

/-- A text between two others is kept, and the one after it has no point in front. -/
theorem rewriteFrom_between (f : String → String) (before : Option Char) (rest : List Char)
    {text : String} (between : isBetween text = true) :
    ∃ last, last ≠ some '.' ∧ rewriteFrom f before [] (text.toList ++ rest) =
      text.toList ++ rewriteFrom f last [] rest := by
  obtain ⟨c, cs, chars, free⟩ := isBetween_cons between
  refine ⟨(c :: cs).getLast?.or before, ?_, ?_⟩
  · rw [List.getLast?_eq_some_getLast (List.cons_ne_nil c cs), Option.some_or]
    intro isPoint
    exact (free _ (List.getLast_mem _)).2 (Option.some.inj isPoint)
  · rw [chars]
    exact rewriteFrom_marks fun x member => isNameStart_of_isNamePart (free x member).1

theorem Renames.word {name : String} (isWord : isName name = true) : Renames f name (f name) :=
  fun _ _ next free parts => rewriteFrom_free isWord free parts.1 parts.2 next

theorem Renames.empty : Renames f "" "" :=
  fun before _ next _ parts => rewriteFrom_before parts.1 before next

theorem Renames.marks {text : String} (between : isBetween text = true) : Renames f text text := by
  intro before rest next _ parts
  obtain ⟨last, -, kept⟩ := rewriteFrom_between f before rest between
  rw [kept, rewriteFrom_before parts.1 last next]

theorem Renames.between {first second renamedFirst renamedSecond between : String}
    (isBetween_ : isBetween between = true) (left : Renames f first renamedFirst)
    (right : Renames f second renamedSecond) :
    Renames f (first ++ between ++ second) (renamedFirst ++ between ++ renamedSecond) := by
  intro before rest next free parts
  simp only [String.toList_append, List.append_assoc]
  rw [left before _ none free (parts_of_isBetween isBetween_ _)]
  obtain ⟨last, notPoint, kept⟩ := rewriteFrom_between f none (second.toList ++ rest) isBetween_
  rw [kept, right last rest next notPoint parts]

/-- Texts with marks between them. -/
theorem Renames.join {between : String} (isBetween_ : isBetween between = true)
    {texts renamed : List String} (each : List.Forall₂ (Renames f) texts renamed) :
    Renames f (Text.join between texts) (Text.join between renamed) := by
  induction each with
  | nil => exact Renames.empty
  | cons first others ih =>
    cases others with
    | nil => simpa [Text.join] using first
    | cons second others =>
      rw [Text.join, Text.join, String.intercalate_cons_cons, String.intercalate_cons_cons]
      exact Renames.between isBetween_ first ih

/-- Type arguments between their brackets, whatever stands around them. -/
theorem rewriteFrom_args {args renamed : String} (inner : Renames f args renamed)
    (before : Option Char) (rest : List Char) :
    rewriteFrom f before [] (("<" ++ args ++ ">").toList ++ rest) =
      ("<" ++ renamed ++ ">").toList ++ rewriteFrom f (some '>') [] rest := by
  have inside := inner (some '<') ('>' :: rest) none (by decide)
    (parts_of_isBetween (by decide : isBetween ">" = true) rest)
  have front (text : String) : ("<" ++ text ++ ">").toList ++ rest =
      '<' :: (text.toList ++ '>' :: rest) := by
    simp
  rw [front, rewriteFrom_mark (by decide), inside, rewriteFrom_mark (by decide)]
  simp

end Forwarder.TypeName

namespace Forwarder.Source

open Forwarder.TypeName (Renames Parts isBetween isNamePart parts_of_isBetween rewriteFrom
  rewriteFrom_ahead rewriteFrom_args rewriteFrom_before rewriteFrom_behind rewriteFrom_between
  rewriteFrom_free rewriteFrom_mark)

/-! ### Type texts -/

/-- No name stands for a type variable. -/
def noVars : String → Prop :=
  fun _ => False

instance : DecidablePred noVars :=
  fun _ => inferInstanceAs (Decidable False)

/-- The canonical text of a clean reference. -/
def IsTypeText (vars : String → Prop) (text : String) : Prop :=
  ∃ type : TypeRef, type.Clean vars ∧ type.render = text

/-- The canonical text of a clean type parameter with this name. -/
def IsParamText (vars : String → Prop) (name text : String) : Prop :=
  ∃ param : TypeParam, param.Clean vars ∧ param.name = name ∧ param.render = text

/-- A reference that is one name alone. -/
theorem TypeRef.render_plain (annotations : List AnnotationUse) (name : String) (dims : Nat) :
    (TypeRef.named annotations (.plain name) [] dims).render = name ++ brackets dims := by
  rw [render, TypeSegment.render, renderMore, String.append_empty]

/-- The reference with more array dimensions. -/
def TypeRef.widen (extra : Nat) : TypeRef → TypeRef
  | .wildcard annotations dims => .wildcard annotations (dims + extra)
  | .unfinished annotations bound dims => .unfinished annotations bound (dims + extra)
  | .bounded annotations bound type dims => .bounded annotations bound type (dims + extra)
  | .named annotations first others dims => .named annotations first others (dims + extra)

theorem TypeRef.render_widen (type : TypeRef) (extra : Nat) :
    (type.widen extra).render = type.render ++ brackets extra := by
  cases type <;> simp only [widen, render, brackets_add, String.append_assoc]

theorem TypeRef.clean_widen {vars : String → Prop} {type : TypeRef} (clean : type.Clean vars)
    (extra : Nat) : (type.widen extra).Clean vars := by
  cases type <;> exact clean

/-- A type text with array dimensions behind it is one. -/
theorem IsTypeText.brackets {vars : String → Prop} {text : String} (isText : IsTypeText vars text)
    (dims : Nat) : IsTypeText vars (text ++ Source.brackets dims) := by
  obtain ⟨type, clean, rfl⟩ := isText
  exact ⟨type.widen dims, type.clean_widen clean dims, type.render_widen dims⟩

theorem IsTypeText.name {vars : String → Prop} {name : String} (plain : IsPlain name) :
    IsTypeText vars name := by
  refine ⟨.named [] (.plain name) [] 0, ⟨id, plain, trivial⟩, ?_⟩
  rw [TypeRef.render_plain]
  exact String.append_empty

theorem join_point (head : String) (tail : List String) :
    Text.join "." (head :: tail) = head ++ String.join (tail.map ("." ++ ·)) := by
  induction tail generalizing head with
  | nil => simp [Text.join]
  | cons next tail ih =>
    rw [Text.join, String.intercalate_cons_cons, ← Text.join, ih, List.map_cons, String.join_cons]
    simp only [String.append_assoc]

/-- Plain names with points between them are the text of a type. -/
theorem IsTypeText.dotted {vars : String → Prop} {head : String} {tail : List String}
    (plain : ∀ part ∈ head :: tail, IsPlain part) :
    IsTypeText vars (Text.join "." (head :: tail)) := by
  refine ⟨.named [] (.plain head) (tail.map .plain) 0, ⟨id, plain head List.mem_cons_self,
    moreClean_iff.mpr ?_⟩, ?_⟩
  · intro segment member
    obtain ⟨part, isPart, rfl⟩ := List.mem_map.mp member
    exact plain part (List.mem_cons_of_mem _ isPart)
  · rw [TypeRef.render, renderMore_eq, List.map_map, join_point]
    exact String.append_empty

/-! ### Renaming -/

/-- What a replacement of names has to do so that the types stay types: it replaces names by types,
and those that may be given arguments by names, qualified or not, that may be given arguments. -/
structure Renaming (vars others : String → Prop) (f : String → String) : Prop where
  plain : ∀ name, IsPlain name → IsTypeText others (f name)
  applied : ∀ name, IsPlain name → ¬vars name → ∃ head tail, (∀ part ∈ head :: tail, IsPlain part) ∧
    (tail = [] → ¬others head) ∧ f name = Text.join "." (head :: tail)
  keyword : ∀ bound : Bound, f bound.keyword = bound.keyword

/-- A qualified name with type arguments, by its segments. -/
theorem exists_applied {vars : String → Prop} {args : List TypeRef} (clean : argsClean vars args)
    (head : String) (tail : List String) (plain : ∀ part ∈ head :: tail, IsPlain part) :
    ∃ (first : TypeSegment) (others : List TypeSegment), first.Clean vars ∧ moreClean vars others ∧
      (first.Applies vars → tail = [] ∧ vars head) ∧ first.render ++ renderMore others =
        Text.join "." (head :: tail) ++ "<" ++ renderArgs args ++ ">" := by
  induction tail generalizing head with
  | nil =>
    refine ⟨.applied head args, [], ⟨plain head List.mem_cons_self, clean⟩, trivial,
      fun applies => ⟨rfl, applies⟩, ?_⟩
    simp [TypeSegment.render, renderMore, Text.join]
  | cons next tail ih =>
    obtain ⟨first, others, cleanFirst, cleanOthers, -, same⟩ := ih next fun part member =>
      plain part (List.mem_cons_of_mem _ member)
    refine ⟨.plain head, first :: others, plain head List.mem_cons_self, ⟨cleanFirst, cleanOthers⟩,
      fun applies => applies.elim, ?_⟩
    rw [renderMore, String.append_assoc, same, TypeSegment.render, Text.join, Text.join,
      String.intercalate_cons_cons]
    simp only [String.append_assoc]

theorem renderMore_append (front back : List TypeSegment) :
    renderMore (front ++ back) = renderMore front ++ renderMore back := by
  rw [renderMore_eq, renderMore_eq, renderMore_eq, List.map_append, String.join_append]

theorem moreClean_append {vars : String → Prop} {front back : List TypeSegment}
    (cleanFront : moreClean vars front) (cleanBack : moreClean vars back) :
    moreClean vars (front ++ back) := by
  rw [moreClean_iff] at *
  intro segment member
  rcases List.mem_append.mp member with before | behind
  · exact cleanFront segment before
  · exact cleanBack segment behind

section Renaming

variable {vars others : String → Prop} {f : String → String}

/-- Array dimensions are kept. -/
theorem rewriteFrom_brackets {rest : List Char} (parts : Parts rest) (dims : Nat)
    (before next : Option Char) : rewriteFrom f before [] ((brackets dims).toList ++ rest) =
      (brackets dims).toList ++ rewriteFrom f next [] rest := by
  induction dims generalizing before with
  | zero => exact rewriteFrom_before parts.1 before next
  | succ dims ih =>
    rw [brackets_succ, String.toList_append, List.append_assoc, List.append_assoc]
    obtain ⟨last, -, kept⟩ := rewriteFrom_between f before ((brackets dims).toList ++ rest)
      (by decide : isBetween "[]" = true)
    rw [kept, ih last]

theorem parts_brackets {rest : List Char} (parts : Parts rest) (dims : Nat) :
    Parts ((brackets dims).toList ++ rest) := by
  cases dims with
  | zero => exact parts
  | succ dims =>
    rw [brackets_succ, String.toList_append, List.append_assoc]
    exact parts_of_isBetween (by decide : isBetween "[]" = true) _

theorem renames_brackets {text renamed : String} (renames : Renames f text renamed) (dims : Nat) :
    Renames f (text ++ Source.brackets dims) (renamed ++ Source.brackets dims) := by
  intro before rest next free parts
  rw [String.toList_append, String.toList_append, List.append_assoc, List.append_assoc,
    renames before _ none free (parts_brackets parts dims),
    rewriteFrom_brackets parts dims none next]

/-- A bounded wildcard is rewritten to one with the rewritten bound. -/
theorem renames_bounded {bound : Bound} (keyword : f bound.keyword = bound.keyword) {type : TypeRef}
    {renamed : String} (same : Renames f type.render renamed) (annotations : List AnnotationUse) (dims : Nat) :
    Renames f (TypeRef.bounded annotations bound type dims).render
      ("? " ++ bound.keyword ++ " " ++ renamed ++ brackets dims) := by
  have word : Renames f bound.keyword bound.keyword := by
    have kept := Renames.word (f := f) (by cases bound <;> decide : isName bound.keyword = true)
    rwa [keyword] at kept
  have question := Renames.between (by decide : isBetween "? " = true) Renames.empty word
  rw [String.empty_append] at question
  rw [TypeRef.render]
  exact renames_brackets (Renames.between (by decide : isBetween " " = true) question same) dims

/-! ### Segments -/

theorem stops_more (segments : List TypeSegment) {rest : List Char} (parts : Parts rest) :
    ∀ c ∈ ((renderMore segments).toList ++ rest).head?, isNamePart c = false := by
  cases segments with
  | nil => exact parts.1
  | cons segment segments =>
    rw [renderMore, String.append_assoc, String.toList_append]
    rintro _ ⟨⟩
    decide

/-- Behind a point the one segment is rewritten to the other. -/
def TypeSegment.TurnsInto (f : String → String) (segment other : TypeSegment) : Prop :=
  ∀ before rest next, (∀ c ∈ rest.head?, isNamePart c = false) →
    rewriteFrom f before [] (("." ++ segment.render).toList ++ rest) =
      ("." ++ other.render).toList ++ rewriteFrom f next [] rest

/-- The segment with other arguments, if it has any. -/
def TypeSegment.withArgs : TypeSegment → List TypeRef → TypeSegment
  | .plain name, _ => .plain name
  | .applied name _, args => .applied name args

/-- A segment behind a point: only its arguments are renamed. -/
theorem TypeSegment.turnsInto {segment : TypeSegment} (isWord : isName segment.name = true)
    {args : List TypeRef} (inner : Renames f (renderArgs segment.args) (renderArgs args)) :
    segment.TurnsInto f (segment.withArgs args) := by
  have point (before : Option Char) (name : String) (rest : List Char) :
      rewriteFrom f before [] (("." ++ name).toList ++ rest) =
        '.' :: rewriteFrom f (some '.') [] (name.toList ++ rest) := by
    rw [String.toList_append, List.append_assoc]
    exact rewriteFrom_mark (by decide)
  intro before rest next stops
  cases segment with
  | plain name =>
    have isWord : isName name = true := isWord
    rw [withArgs, render, point, rewriteFrom_behind isWord stops next, String.toList_append]
    rfl
  | applied name old =>
    have isWord : isName name = true := isWord
    have inner : Renames f (renderArgs old) (renderArgs args) := inner
    have text (inside : String) : "." ++ (name ++ "<" ++ inside ++ ">") =
        ("." ++ name) ++ ("<" ++ inside ++ ">") := by
      simp only [String.append_assoc]
    have opening : ∀ c ∈ (("<" ++ renderArgs old ++ ">").toList ++ rest).head?,
        isNamePart c = false := by
      rw [String.append_assoc, String.toList_append]
      rintro _ ⟨⟩
      decide
    rw [withArgs, render, render, text, text, String.toList_append, List.append_assoc,
      point, rewriteFrom_behind isWord opening none, rewriteFrom_args inner,
      rewriteFrom_before stops (some '>') next]
    simp

/-- In the segments after the first only arguments are renamed. -/
theorem rewriteFrom_more {segments renamed : List TypeSegment}
    (each : List.Forall₂ (TypeSegment.TurnsInto f) segments renamed) :
    ∀ before rest next, Parts rest →
      rewriteFrom f before [] ((renderMore segments).toList ++ rest) =
        (renderMore renamed).toList ++ rewriteFrom f next [] rest := by
  induction each with
  | nil => exact fun before rest next parts => rewriteFrom_before parts.1 before next
  | @cons segment other segments _ turns _ ih =>
    intro before rest next parts
    rw [renderMore, renderMore, String.toList_append, List.append_assoc,
      turns before _ none (stops_more segments parts), ih none rest next parts]
    simp only [String.toList_append, List.append_assoc]

/-- The first segment of a qualified name is kept. -/
theorem renames_qualified {name : String} (isWord : isName name = true) {segment : TypeSegment}
    {segments renamed : List TypeSegment}
    (each : List.Forall₂ (TypeSegment.TurnsInto f) (segment :: segments) renamed)
    (annotations others : List AnnotationUse) (dims : Nat) :
    Renames f (TypeRef.named annotations (.plain name) (segment :: segments) dims).render
      (TypeRef.named others (.plain name) renamed dims).render := by
  intro before rest next free parts
  have point : ∃ more, (renderMore (segment :: segments)).toList = '.' :: more :=
    ⟨_, by rw [renderMore, String.append_assoc, String.toList_append]; rfl⟩
  obtain ⟨more, isPoint⟩ := point
  simp only [TypeRef.render, TypeSegment.render, String.toList_append, List.append_assoc]
  rw [isPoint, List.cons_append, rewriteFrom_ahead isWord none, ← List.cons_append, ← isPoint,
    rewriteFrom_more each none _ none (parts_brackets parts dims), rewriteFrom_brackets parts dims none next]

/-- A name with arguments is replaced, and its arguments are renamed. -/
theorem renames_applied {name : String} (isWord : isName name = true) {args renamedArgs : List TypeRef}
    (inner : Renames f (renderArgs args) (renderArgs renamedArgs)) {segments renamed : List TypeSegment}
    (each : List.Forall₂ (TypeSegment.TurnsInto f) segments renamed)
    (annotations : List AnnotationUse) (dims : Nat) :
    Renames f (TypeRef.named annotations (.applied name args) segments dims).render
      (f name ++ "<" ++ renderArgs renamedArgs ++ ">" ++ renderMore renamed ++ brackets dims) := by
  intro before rest next notPoint parts
  have opening : Parts (("<" ++ renderArgs args ++ ">").toList ++
      ((renderMore segments).toList ++ ((brackets dims).toList ++ rest))) := by
    rw [String.append_assoc, String.toList_append, List.append_assoc]
    exact parts_of_isBetween (by decide : isBetween "<" = true) _
  have front : (TypeRef.named annotations (.applied name args) segments dims).render.toList ++ rest =
      name.toList ++ (("<" ++ renderArgs args ++ ">").toList ++
        ((renderMore segments).toList ++ ((brackets dims).toList ++ rest))) := by
    simp only [TypeRef.render, TypeSegment.render, String.toList_append, List.append_assoc]
  rw [front, rewriteFrom_free isWord notPoint opening.1 opening.2 none, rewriteFrom_args inner,
    rewriteFrom_more each _ _ none (parts_brackets parts dims), rewriteFrom_brackets parts dims none next]
  simp only [String.toList_append, List.append_assoc]

/-! ### References -/

/-- The arguments of the segment can be renamed. -/
def TypeSegment.Renamed (others : String → Prop) (f : String → String) (segment : TypeSegment) :
    Prop :=
  ∃ args, argsClean others args ∧ Renames f (renderArgs segment.args) (renderArgs args)

/-- The reference can be renamed. -/
def TypeRef.Renamed (others : String → Prop) (f : String → String) (type : TypeRef) : Prop :=
  ∃ renamed : TypeRef, renamed.Clean others ∧ Renames f type.render renamed.render

theorem TypeSegment.Renamed.behind {segment : TypeSegment} (clean : segment.Clean vars)
    (renamed : segment.Renamed others f) :
    ∃ other : TypeSegment, other.Clean others ∧ segment.TurnsInto f other := by
  obtain ⟨args, cleanArgs, inner⟩ := renamed
  cases segment with
  | plain name =>
    have isWord : isName (TypeSegment.plain name).name = true := clean.1
    exact ⟨.plain name, clean, turnsInto isWord inner⟩
  | applied name old =>
    have isWord : isName (TypeSegment.applied name old).name = true := clean.1.1
    exact ⟨.applied name args, ⟨clean.1, cleanArgs⟩, turnsInto isWord inner⟩

theorem exists_more {segments : List TypeSegment}
    (clean : ∀ segment ∈ segments, segment.Clean vars)
    (each : ∀ segment ∈ segments, segment.Renamed others f) :
    ∃ renamed : List TypeSegment, moreClean others renamed ∧
      List.Forall₂ (TypeSegment.TurnsInto f) segments renamed := by
  induction segments with
  | nil => exact ⟨[], trivial, .nil⟩
  | cons segment segments ih =>
    obtain ⟨renamed, cleanRenamed, turns⟩ := ih
      (fun other member => clean other (List.mem_cons_of_mem _ member))
      (fun other member => each other (List.mem_cons_of_mem _ member))
    obtain ⟨first, cleanFirst, turnsFirst⟩ :=
      (each segment List.mem_cons_self).behind (clean segment List.mem_cons_self)
    exact ⟨first :: renamed, ⟨cleanFirst, cleanRenamed⟩, .cons turnsFirst turns⟩

theorem renamed_args {args : List TypeRef} (each : ∀ type ∈ args, type.Renamed others f) :
    ∃ renamed, argsClean others renamed ∧
      List.Forall₂ (Renames f) (args.map (·.render)) (renamed.map (·.render)) := by
  induction args with
  | nil => exact ⟨[], trivial, .nil⟩
  | cons first args ih =>
    obtain ⟨renamedFirst, cleanFirst, same⟩ := each first List.mem_cons_self
    obtain ⟨renamed, clean, sames⟩ := ih fun type member => each type (List.mem_cons_of_mem _ member)
    exact ⟨renamedFirst :: renamed, ⟨cleanFirst, clean⟩, .cons same sames⟩

/-- A name without arguments and without a qualifier is replaced. -/
theorem renames_plain {name : String} (isWord : isName name = true) (annotations : List AnnotationUse)
    (dims : Nat) :
    Renames f (TypeRef.named annotations (.plain name) [] dims).render (f name ++ brackets dims) := by
  rw [TypeRef.render_plain]
  exact renames_brackets (Renames.word isWord) dims

theorem renamed_plain (keeps : Renaming vars others f) {name : String} (plain : IsPlain name)
    (annotations : List AnnotationUse) (dims : Nat) :
    (TypeRef.named annotations (.plain name) [] dims).Renamed others f := by
  obtain ⟨type, clean, same⟩ := keeps.plain name plain
  refine ⟨type.widen dims, type.clean_widen clean dims, ?_⟩
  rw [type.render_widen, same]
  exact renames_plain plain.1 annotations dims

theorem renamed_qualified {name : String} {segment : TypeSegment} {segments : List TypeSegment}
    (plain : IsPlain name) (clean : moreClean vars (segment :: segments))
    (each : ∀ other ∈ segment :: segments, other.Renamed others f)
    (annotations : List AnnotationUse) (dims : Nat) :
    (TypeRef.named annotations (.plain name) (segment :: segments) dims).Renamed others f := by
  obtain ⟨renamed, cleanRenamed, turns⟩ := exists_more (moreClean_iff.mp clean) each
  exact ⟨.named [] (.plain name) renamed dims, ⟨id, plain, cleanRenamed⟩,
    renames_qualified plain.1 turns annotations [] dims⟩

/-- A name with arguments is replaced by a name, qualified or not. -/
theorem renamed_applied (keeps : Renaming vars others f) {name : String} {args : List TypeRef}
    {segments : List TypeSegment} (plain : IsPlain name) (constant : ¬vars name)
    (inner : (TypeSegment.applied name args).Renamed others f) (clean : moreClean vars segments)
    (each : ∀ other ∈ segments, other.Renamed others f) (annotations : List AnnotationUse)
    (dims : Nat) :
    (TypeRef.named annotations (.applied name args) segments dims).Renamed others f := by
  obtain ⟨renamedArgs, cleanArgs, inner⟩ := inner
  have inner : Renames f (renderArgs args) (renderArgs renamedArgs) := inner
  obtain ⟨head, tail, plains, free, isName⟩ := keeps.applied name plain constant
  obtain ⟨first, middle, cleanFirst, cleanMiddle, applies, text⟩ :=
    exists_applied cleanArgs head tail plains
  obtain ⟨renamed, cleanRenamed, turns⟩ := exists_more (moreClean_iff.mp clean) each
  refine ⟨.named [] first (middle ++ renamed) dims, ⟨?_, cleanFirst,
    moreClean_append cleanMiddle cleanRenamed⟩, ?_⟩
  · intro isApplied
    obtain ⟨single, isVar⟩ := applies isApplied
    exact free single isVar
  · rw [show (TypeRef.named [] first (middle ++ renamed) dims).render =
      f name ++ "<" ++ renderArgs renamedArgs ++ ">" ++ renderMore renamed ++ brackets dims by
        rw [TypeRef.render, renderMore_append, ← String.append_assoc, text, isName]]
    exact renames_applied plain.1 inner turns annotations dims

/-- **A clean reference can be renamed.** -/
theorem TypeRef.renamed (keeps : Renaming vars others f) (type : TypeRef) :
    type.Clean vars → type.Renamed others f := by
  refine TypeRef.holds (P := fun type => type.Clean vars → type.Renamed others f)
    (Q := fun segment => segment.Clean vars → segment.Renamed others f) ?_ ?_ ?_ ?_ ?_ ?_ type
  · intro _ dims _
    exact ⟨.wildcard [] dims, trivial, renames_brackets (Renames.marks (by decide)) dims⟩
  · intro _ bound dims _
    exact ⟨.unfinished [] bound dims, trivial, renames_brackets (Renames.marks (by decide)) dims⟩
  · intro annotations bound type dims ih clean
    obtain ⟨renamed, cleanRenamed, same⟩ := ih clean
    exact ⟨.bounded [] bound renamed dims, cleanRenamed,
      renames_bounded (keeps.keyword bound) same annotations dims⟩
  · intro annotations first segments dims ihFirst ihOthers clean
    obtain ⟨constant, cleanFirst, cleanOthers⟩ := clean
    have each := fun segment member =>
      ihOthers segment member (moreClean_iff.mp cleanOthers segment member)
    match first, segments with
    | .plain name, [] => exact renamed_plain keeps cleanFirst annotations dims
    | .plain name, segment :: segments =>
      exact renamed_qualified cleanFirst cleanOthers each annotations dims
    | .applied name args, segments =>
      exact renamed_applied keeps cleanFirst.1 constant (ihFirst cleanFirst) cleanOthers each
        annotations dims
  · intro name _
    exact ⟨[], trivial, Renames.empty⟩
  · intro name args ih clean
    obtain ⟨renamed, cleanRenamed, sames⟩ := renamed_args fun type member =>
      ih type member (argsClean_iff.mp clean.2 type member)
    refine ⟨renamed, cleanRenamed, ?_⟩
    rw [renderArgs_eq, renderArgs_eq]
    exact Renames.join (by decide) sames

/-- A type text stays one. -/
theorem IsTypeText.mapIdentifiers (keeps : Renaming vars others f) {text : String}
    (isText : IsTypeText vars text) : IsTypeText others (TypeName.mapIdentifiers f text) := by
  obtain ⟨type, clean, rfl⟩ := isText
  obtain ⟨renamed, cleanRenamed, same⟩ := type.renamed keeps clean
  exact ⟨renamed, cleanRenamed, same.mapIdentifiers.symm⟩

/-- The text of a type parameter stays one if its name is kept. -/
theorem IsParamText.mapIdentifiers (keeps : Renaming vars others f) {name text : String}
    (isText : IsParamText vars name text) (kept : f name = name) :
    IsParamText others name (TypeName.mapIdentifiers f text) := by
  obtain ⟨param, ⟨plain, clean⟩, rfl, rfl⟩ := isText
  obtain ⟨renamed, cleanRenamed, sames⟩ := renamed_args fun type member =>
    type.renamed keeps (clean type member)
  have word : Renames f param.name param.name := by
    have same := Renames.word (f := f) plain.1
    rwa [kept] at same
  refine ⟨⟨[], param.name, renamed⟩, ⟨plain, argsClean_iff.mp cleanRenamed⟩, rfl,
    (Renames.mapIdentifiers ?_).symm⟩
  rw [TypeParam.render, TypeParam.render]
  cases bounds : param.bounds with
  | nil =>
    rw [bounds] at sames
    cases renamed with
    | nil => exact word
    | cons => cases sames
  | cons first more =>
    rw [bounds] at sames
    cases renamed with
    | nil => cases sames
    | cons renamedFirst renamedMore =>
      have extends_ : Renames f "extends" "extends" := by
        have same := Renames.word (f := f) (by decide : isName "extends" = true)
        rwa [show f "extends" = "extends" from keeps.keyword .upper] at same
      have joined := Renames.join (by decide : isBetween " & " = true) sames
      have front := Renames.between (by decide : isBetween " " = true) word extends_
      have whole := Renames.between (by decide : isBetween " " = true) front joined
      have text (tail : String) : param.name ++ " " ++ "extends" ++ " " ++ tail =
          param.name ++ " extends " ++ tail := by
        simp only [String.append_assoc]
        rfl
      rw [text, text] at whole
      exact whole

/-! ### Declared names -/

theorem not_holds_of_apart {first second : Text.Ranges} {c : Char}
    (apart : (first.all fun a => second.all fun b => a.2 < b.1 || b.2 < a.1) = true)
    (holds : first.holds c = true) : second.holds c = false := by
  apply Bool.eq_false_iff.mpr
  intro both
  obtain ⟨a, isFirst, lowA, highA⟩ := Text.Ranges.holds_iff.mp holds
  obtain ⟨b, isSecond, lowB, highB⟩ := Text.Ranges.holds_iff.mp both
  have disjoint := List.all_eq_true.mp (List.all_eq_true.mp apart a isFirst) b isSecond
  simp only [Bool.or_eq_true, decide_eq_true_eq] at disjoint
  omega

/-- No character of an identifier is blank. -/
theorem not_isBlank_of_isIdentPart {c : Char} (part : isIdentPart c = true) :
    Text.isBlank c = false := by
  have ascii (alphanum : c.isAlphanum = true) : Text.isBlank c = false := by
    have within : Text.Ranges.holds [(0x30, 0x39), (0x41, 0x5a), (0x61, 0x7a)] c = true := by
      rw [Char.isAlphanum, Bool.or_eq_true, isAlpha_iff_toNat, isDigit_iff_toNat] at alphanum
      simp only [Text.Ranges.holds, List.any_cons, List.any_nil, Bool.or_false, Bool.or_eq_true,
        Bool.and_eq_true, decide_eq_true_eq]
      omega
    exact not_holds_of_apart (by decide) within
  simp only [isIdentPart, Bool.or_eq_true, beq_iff_eq] at part
  rcases part with ((letter | numeral) | rfl) | rfl
  · rw [Text.isLetter] at letter
    split at letter
    · exact ascii (by simp [Char.isAlphanum, letter])
    · exact not_holds_of_apart (by decide +kernel) letter
  · rw [Text.isNumeral] at numeral
    split at numeral
    · exact ascii (by simp [Char.isAlphanum, numeral])
    · exact not_holds_of_apart (by decide +kernel) numeral
  · decide
  · decide

theorem not_isBlank_of_isNamePart {c : Char} (part : isNamePart c = true) :
    Text.isBlank c = false :=
  not_isBlank_of_isIdentPart (isIdentPart_of_isNamePart part)

theorem runsFrom_word {cs rest : List Char} (dark : ∀ c ∈ cs, Text.isBlank c = false)
    (word : List Char) : Text.runsFrom Text.isBlank word (cs ++ rest) =
      Text.runsFrom Text.isBlank (word ++ cs) rest := by
  induction cs generalizing word with
  | nil => simp
  | cons c cs ih =>
    rw [List.cons_append, Text.runsFrom, if_neg (by simp [dark c List.mem_cons_self]),
      ih fun x member => dark x (List.mem_cons_of_mem _ member)]
    simp

/-- A word with a blank behind it, or nothing, is the first field. -/
theorem fields_head_of_word {name text : String} {rest : List Char}
    (dark : ∀ c ∈ name.toList, Text.isBlank c = false) (some_ : name.toList ≠ [])
    (chars : text.toList = name.toList ++ rest) (blank : ∀ c ∈ rest.head?, Text.isBlank c = true) :
    (Text.fields text).head? = some name := by
  have isSome : name.toList.isEmpty = false := by simpa using some_
  rw [Text.fields, chars, runsFrom_word dark [], List.nil_append]
  cases rest with
  | nil => simp [Text.runsFrom, isSome]
  | cons next rest =>
    rw [Text.runsFrom, if_pos (blank next rfl), isSome]
    simp

/-- The text declares a type variable: it begins with the name, and a blank ends the name. -/
def Declares (name text : String) : Prop :=
  isName name = true ∧ ∃ rest, text.toList = name.toList ++ rest ∧
    ∀ c ∈ rest.head?, Text.isBlank c = true

theorem Declares.fields_head {name text : String} (declares : Declares name text) :
    (Text.fields text).head? = some name := by
  obtain ⟨isWord, rest, chars, blank⟩ := declares
  have named := isIdentifier_of_isName isWord
  have dark : ∀ c ∈ name.toList, Text.isBlank c = false := fun c member =>
    not_isBlank_of_isIdentPart (isIdentPart_of_isIdentifier named c member)
  exact fields_head_of_word dark (ne_nil_of_isIdentifier named) chars blank

/-- The text of a type parameter begins with its name. -/
theorem TypeParam.render_eq_append (param : TypeParam) :
    ∃ rest, param.render.toList = param.name.toList ++ rest ∧
      ∀ c ∈ rest.head?, Text.isBlank c = true := by
  rw [TypeParam.render]
  split
  · exact ⟨[], (List.append_nil _).symm, by simp⟩
  · rw [String.append_assoc, String.toList_append]
    refine ⟨_, rfl, ?_⟩
    rw [String.toList_append]
    rintro _ ⟨⟩
    decide

theorem IsParamText.declares {name text : String} (isText : IsParamText vars name text) :
    Declares name text := by
  obtain ⟨param, ⟨plain, -⟩, rfl, rfl⟩ := isText
  exact ⟨plain.1, param.render_eq_append⟩

/-- The names that the texts of type parameters declare. -/
theorem typeParamNames_eq {names texts : List String}
    (each : List.Forall₂ (IsParamText vars) names texts) : TypeName.typeParamNames texts = names := by
  induction each with
  | nil => rfl
  | cons first _ ih =>
    rw [TypeName.typeParamNames, List.filterMap_cons, first.declares.fields_head]
    exact congrArg _ ih

end Renaming

/-- The names of type parameters, from their texts. -/
theorem typeParamNames_render {params : List TypeParam}
    (each : ∀ param ∈ params, isIdentifier param.name = true) :
    TypeName.typeParamNames (params.map (·.render)) = params.map (·.name) := by
  induction params with
  | nil => rfl
  | cons param params ih =>
    obtain ⟨first, others⟩ := List.forall_mem_cons.mp each
    obtain ⟨rest, chars, blank⟩ := param.render_eq_append
    have dark : ∀ c ∈ param.name.toList, Text.isBlank c = false := fun c member =>
      not_isBlank_of_isIdentPart (isIdentPart_of_isIdentifier first c member)
    rw [List.map_cons, TypeName.typeParamNames, List.filterMap_cons,
      fields_head_of_word dark (ne_nil_of_isIdentifier first) chars blank]
    exact congrArg _ (ih others)

end Forwarder.Source
