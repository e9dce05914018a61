/-
**Tame texts.** The header pattern asks for the word `implements`. A text without this word is tame, and
the pattern passes it over. What is put together from tame texts is tame as long as something that is no
part of a word stands between them, and so is what is put in the place of their identifiers.

* `HeaderPattern.words`, `HeaderPattern.Tame` — the words of a text.
* **`IsTame.unmatched`** — a tame text does not match.
* `IsTame.append`, `IsTame.around`, `IsTame.join` — texts one after the other.
* `IsTame.mapIdentifiers`, `IsTame.substitute` — texts in the place of identifiers.
* `IsTame.simpleName`, `isTame_typeParamNames` — parts of texts.
-/

import Forwarder.Proofs.Decoration.HeaderPattern
import Forwarder.Proofs.Source.Renaming
import Forwarder.Proofs.Text.Pieces

namespace Forwarder

open Text (isWordChar)
open Forwarder.TypeName (isNamePart isNameStart rewriteFrom rewriteName)

/-! ### Characters -/

theorem isNamePart_of_isWordChar {c : Char} (word : isWordChar c = true) : isNamePart c = true := by
  rw [isWordChar, Bool.or_eq_true] at word
  rcases word with alphanum | underscore
  · have ascii := Source.toNat_lt_of_isAlphanum alphanum
    rw [Char.isAlphanum] at alphanum
    rw [isNamePart, isNameStart, Text.isLetter_of_ascii c ascii, Text.isDecimal_of_ascii c ascii]
    rcases Bool.or_eq_true _ _ ▸ alphanum with letter | digit
    · simp [letter]
    · simp [digit]
  · simp [isNamePart, isNameStart, underscore]

/-- A character of a word that does not start an identifier is a digit. -/
theorem isDigit_of_isWordChar {c : Char} (word : isWordChar c = true) (other : isNameStart c = false) :
    c.isDigit = true := by
  rw [isWordChar, Bool.or_eq_true] at word
  rcases word with alphanum | underscore
  · have ascii := Source.toNat_lt_of_isAlphanum alphanum
    rw [Char.isAlphanum, Bool.or_eq_true] at alphanum
    rcases alphanum with letter | digit
    · rw [isNameStart, Text.isLetter_of_ascii c ascii, letter] at other
      cases other
    · exact digit
  · rw [isNameStart, underscore, Bool.or_true, Bool.true_or] at other
    cases other

namespace HeaderPattern

/-! ### Words -/

/-- The words of a text, without the digits in front of them. -/
def words (cs : List Char) : List (List Char) :=
  (cs.splitOnP fun c => !isWordChar c).map (·.dropWhile Char.isDigit)

/-- No word of the text is `implements`. -/
def Tame (cs : List Char) : Prop :=
  "implements".toList ∉ words cs

instance (cs : List Char) : Decidable (Tame cs) :=
  inferInstanceAs (Decidable ("implements".toList ∉ words cs))

variable {c : Char} {cs front back : List Char}

theorem words_append_cons (mark : isWordChar c = false) (front back : List Char) :
    words (front ++ c :: back) = words front ++ words back := by
  rw [words, List.splitOnP_append_cons _ _ (by simpa using mark), List.map_append]
  rfl

/-- A mark parts a text. -/
theorem tame_append_cons (mark : isWordChar c = false) :
    Tame (front ++ c :: back) ↔ Tame front ∧ Tame back := by
  rw [Tame, words_append_cons mark, List.mem_append, not_or]
  rfl

theorem tame_nil : Tame [] := by
  decide

/-- What does not start an identifier makes no difference in front. -/
theorem tame_cons (other : isNameStart c = false) : Tame (c :: cs) ↔ Tame cs := by
  by_cases word : isWordChar c = true
  · have digit := isDigit_of_isWordChar word other
    have same : words (c :: cs) = words cs := by
      obtain ⟨first, others, split⟩ :=
        List.exists_cons_of_ne_nil (List.splitOnP_ne_nil (fun c => !isWordChar c) cs)
      rw [words, words, List.splitOnP_cons_eq_if_modifyHead, split]
      simp [word, digit]
    rw [Tame, same]
    rfl
  · rw [← List.nil_append (c :: cs), tame_append_cons (Bool.eq_false_iff.mpr word)]
    exact and_iff_right tame_nil

/-- **A tame text** holds no rest of a header. -/
theorem not_implements_of_tame (tame : Tame cs) : ¬Implements cs := by
  rintro ⟨front, middle, back, rfl, opens, inner, closes, -⟩
  have isFront : ∃ before c, front = before ++ [c] ∧ isWordChar c = false := by
    rcases List.eq_nil_or_concat front with rfl | ⟨before, c, rfl⟩
    · exact absurd opens (by decide)
    · exact ⟨before, c, List.concat_eq_append .., by simpa [lastOf, delimits] using opens⟩
  have isMiddle : ∃ c after, middle = c :: after ∧ isWordChar c = false := by
    cases middle with
    | nil => exact absurd inner (by decide)
    | cons c after => exact ⟨c, after, rfl, by simpa [delimits] using closes⟩
  obtain ⟨before, c, rfl, mark⟩ := isFront
  obtain ⟨d, after, rfl, mark'⟩ := isMiddle
  rw [List.append_assoc, List.singleton_append, tame_append_cons mark, List.cons_append,
    tame_append_cons mark'] at tame
  exact tame.2.1 (by decide)

end HeaderPattern

open HeaderPattern (Tame delimits tame_append_cons tame_cons tame_nil)

/-- No word of the text is `implements`. -/
def IsTame (text : String) : Prop :=
  Tame text.toList

instance (text : String) : Decidable (IsTame text) :=
  inferInstanceAs (Decidable (Tame text.toList))

/-- **A tame text** does not match. -/
theorem IsTame.unmatched {text : String} (tame : IsTame text) :
    HeaderPattern.matchesDecorator text = false := by
  refine Bool.eq_false_iff.mpr fun isMatch => ?_
  obtain ⟨front, back, split, -, -, implements⟩ := HeaderPattern.matchesDecorator_iff.mp isMatch
  refine HeaderPattern.not_implements_of_tame tame ?_
  rw [split, ← List.append_assoc]
  exact implements.append _

/-! ### Texts one after the other -/

/-- A text that may stand between others: no word reaches beyond it. -/
structure IsMark (text : String) : Prop where
  tame : IsTame text
  opens : delimits text.toList.head? = true
  closes : delimits text.toList.getLast? = true
  some_ : text.toList ≠ []

instance (text : String) : Decidable (IsMark text) :=
  decidable_of_iff (IsTame text ∧ delimits text.toList.head? = true ∧
      delimits text.toList.getLast? = true ∧ text.toList ≠ [])
    ⟨fun ⟨tame, opens, closes, some_⟩ => ⟨tame, opens, closes, some_⟩,
      fun mark => ⟨mark.tame, mark.opens, mark.closes, mark.some_⟩⟩

namespace IsTame

variable {front back mark text : String}

theorem empty : IsTame "" :=
  tame_nil

/-- No word reaches from one text into the other. -/
theorem append (tame : IsTame front) (tame' : IsTame back)
    (parted : delimits front.toList.getLast? = true ∨ delimits back.toList.head? = true) :
    IsTame (front ++ back) := by
  unfold IsTame at tame tame' ⊢
  rw [String.toList_append]
  rcases parted with closes | opens
  · rcases List.eq_nil_or_concat front.toList with none_ | ⟨before, c, split⟩
    · rwa [none_, List.nil_append]
    · rw [List.concat_eq_append] at split
      rw [split] at tame closes ⊢
      have isMark : isWordChar c = false := by simpa [delimits] using closes
      rw [List.append_assoc, List.singleton_append]
      exact (tame_append_cons isMark).mpr ⟨((tame_append_cons isMark).mp tame).1, tame'⟩
  · cases split : back.toList with
    | nil => rwa [List.append_nil]
    | cons c after =>
      rw [split] at tame' opens
      have isMark : isWordChar c = false := by simpa [delimits] using opens
      rw [← List.nil_append (c :: after)] at tame'
      exact (tame_append_cons isMark).mpr ⟨tame, ((tame_append_cons isMark).mp tame').2⟩

theorem before (tame : IsTame front) (isMark : IsMark mark) : IsTame (front ++ mark) :=
  tame.append isMark.tame (.inr isMark.opens)

theorem behind (tame : IsTame back) (isMark : IsMark mark) : IsTame (mark ++ back) :=
  isMark.tame.append tame (.inl isMark.closes)

/-- Two texts with a mark between them. -/
theorem around (tame : IsTame front) (tame' : IsTame back) (isMark : IsMark mark) :
    IsTame (front ++ mark ++ back) := by
  refine (tame.before isMark).append tame' (.inl ?_)
  rw [String.toList_append, List.getLast?_append_of_ne_nil _ isMark.some_]
  exact isMark.closes

theorem join {parts : List String} (isMark : IsMark mark) (each : ∀ part ∈ parts, IsTame part) :
    IsTame (Text.join mark parts) := by
  induction parts with
  | nil => exact empty
  | cons part parts ih =>
    obtain ⟨first, others⟩ := List.forall_mem_cons.mp each
    cases parts with
    | nil => simpa [Text.join] using first
    | cons next parts =>
      rw [Text.join, String.intercalate_cons_cons]
      exact first.around (ih others) isMark

/-- Texts with a mark behind each of them. -/
theorem joined {parts : List String} (isMark : IsMark mark) (each : ∀ part ∈ parts, IsTame part) :
    IsTame (String.join (parts.map (· ++ mark))) := by
  induction parts with
  | nil => exact empty
  | cons part parts ih =>
    obtain ⟨first, others⟩ := List.forall_mem_cons.mp each
    rw [List.map_cons, String.join_cons]
    exact first.around (ih others) isMark

/-! ### Texts in the place of identifiers -/

end IsTame

theorem tame_rewriteFrom {f : String → String} (keeps : ∀ name, IsTame name → IsTame (f name))
    (cs : List Char) : ∀ (before : Option Char) (name : List Char), Tame (name ++ cs) →
      Tame (rewriteFrom f before name cs) := by
  have written {before after : Option Char} {name : List Char} (tame : Tame name) :
      Tame (rewriteName f before name after) := by
    rw [rewriteName]
    split_ifs
    · exact tame
    · exact keeps _ (by rwa [IsTame, String.toList_ofList])
  induction cs with
  | nil =>
    intro before name tame
    rw [List.append_nil] at tame
    rw [rewriteFrom]
    split_ifs
    · exact tame_nil
    · exact written tame
  | cons c rest ih =>
    intro before name tame
    rw [rewriteFrom]
    split_ifs with none_ start part
    · rw [List.isEmpty_iff.mp none_] at tame
      exact ih before [c] tame
    · rw [List.isEmpty_iff.mp none_, List.nil_append] at tame
      have other := Bool.eq_false_iff.mpr start
      exact (tame_cons other).mpr (ih (some c) [] ((tame_cons other).mp tame))
    · exact ih before (name ++ [c]) (by rwa [List.append_assoc])
    · have isMark : isWordChar c = false :=
        Bool.eq_false_iff.mpr fun word => part (isNamePart_of_isWordChar word)
      obtain ⟨ofName, ofRest⟩ := (tame_append_cons isMark).mp tame
      exact (tame_append_cons isMark).mpr ⟨written ofName, ih (some c) [] ofRest⟩

namespace IsTame

variable {text : String}

/-- **Tame texts in the place of identifiers.** -/
theorem mapIdentifiers {f : String → String} (tame : IsTame text)
    (keeps : ∀ name, IsTame name → IsTame (f name)) : IsTame (TypeName.mapIdentifiers f text) := by
  rw [IsTame, TypeName.mapIdentifiers, String.toList_ofList]
  exact tame_rewriteFrom keeps _ none [] tame

theorem substitute {mapping : TypeName.Substitution} (tame : IsTame text)
    (each : ∀ entry ∈ mapping, IsTame entry.2) (skip : List String) :
    IsTame (TypeName.substitute mapping skip text) := by
  refine tame.mapIdentifiers fun name ofName => ?_
  rw [TypeName.Substitution.apply]
  split_ifs
  · exact ofName
  · cases found : mapping.lookup name with
    | none => exact ofName
    | some value =>
      obtain ⟨before, after, rfl, -⟩ := List.lookup_eq_some_iff.mp found
      have entry := each (name, value) (List.mem_append_right before List.mem_cons_self)
      exact entry

/-! ### Parts of texts -/

theorem simpleName (tame : IsTame text) : IsTame (TypeName.simpleName text) := by
  unfold IsTame at tame ⊢
  rw [TypeName.simpleName, String.toList_ofList]
  by_cases point : '.' ∈ text.toList
  · obtain ⟨back, front, split, free⟩ := List.eq_append_cons_of_mem (List.mem_reverse.mpr point)
    have isText : text.toList = front.reverse ++ '.' :: back.reverse := by
      rw [← List.reverse_reverse text.toList, split]
      simp
    have free' : '.' ∉ back.reverse := fun member => free (List.mem_reverse.mp member)
    rw [isText] at tame ⊢
    rw [Text.afterLast_concat free']
    exact ((tame_append_cons rfl).mp tame).2
  · rwa [Text.afterLast_free point]

end IsTame

theorem tame_of_mem_runsFrom {cs : List Char} : ∀ {word run : List Char}, Tame (word ++ cs) →
    run ∈ Text.runsFrom Text.isBlank word cs → Tame run := by
  induction cs with
  | nil =>
    intro word run tame member
    rw [Text.runsFrom] at member
    split_ifs at member
    · cases member
    · rw [List.append_nil] at tame
      rwa [List.mem_singleton.mp member]
  | cons c rest ih =>
    intro word run tame member
    rw [Text.runsFrom] at member
    by_cases blank : Text.isBlank c = true
    · have isMark : isWordChar c = false := by
        refine Bool.eq_false_iff.mpr fun word => ?_
        rw [Source.not_isBlank_of_isNamePart (isNamePart_of_isWordChar word)] at blank
        cases blank
      obtain ⟨ofWord, ofRest⟩ := (tame_append_cons isMark).mp tame
      have later : run ∈ Text.runsFrom Text.isBlank [] rest → Tame run :=
        ih (by rwa [List.nil_append])
      rw [if_pos blank] at member
      split_ifs at member
      · exact later member
      · rcases List.mem_cons.mp member with rfl | member
        · exact ofWord
        · exact later member
    · rw [if_neg blank] at member
      exact ih (by rwa [List.append_assoc]) member

theorem isTame_typeParamNames {declared : List String} (each : ∀ param ∈ declared, IsTame param) :
    ∀ name ∈ TypeName.typeParamNames declared, IsTame name := by
  intro name member
  obtain ⟨param, isParam, first⟩ := List.mem_filterMap.mp member
  obtain ⟨run, isRun, rfl⟩ := List.mem_map.mp (List.mem_of_mem_head? first)
  have tame : Tame ([] ++ param.toList) := each param isParam
  rw [IsTame, String.toList_ofList]
  exact tame_of_mem_runsFrom tame isRun

end Forwarder
