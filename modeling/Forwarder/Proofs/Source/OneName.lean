/-
**One name in all places.** Three tests say what a name is: the one that finds identifiers in source
text, the one that finds names to replace in the text of a type, and the one for the names that are
passed to a command. The first takes every number character of a name, the other two only the
decimal digits.

* `IsDecimal` — every number character of the text is a decimal digit.
* `isName_iff_of_isIdentifier` — an identifier is a name exactly if it is decimal.
* `isName_of_renamed` — a text that is replaced as one name is one.
* `isTypeName_join_iff` — the dotted names of identifiers that a command accepts.
* **`one_name_iff`** — an identifier is replaced as one name exactly if it is decimal, and it is
  accepted exactly if it is decimal and not reserved.
-/

import Forwarder.Proofs.Source.Renaming
import Forwarder.Proofs.Text.Pieces
import Forwarder.Validation
import Mathlib.Data.List.Chain
import Mathlib.Data.List.TakeWhile

namespace Forwarder

open Source (isIdentifier isIdentifier_iff isName isName_iff)
open Forwarder.TypeName (mapIdentifiers rewriteFrom isNamePart isNameStart)

/-! ### Ascending tables -/

namespace Text.Ranges

/-- The intervals are in ascending order. -/
def Ascends (ranges : Ranges) : Prop :=
  (ranges.map (·.1)).IsChain (· ≤ ·)

instance (ranges : Ranges) : Decidable ranges.Ascends :=
  inferInstanceAs (Decidable ((ranges.map (·.1)).IsChain (· ≤ ·)))

theorem Ascends.head_le {first : Nat × Nat} {ranges : Ranges} (ascends : Ascends (first :: ranges)) :
    ∀ x ∈ ranges, first.1 ≤ x.1 := fun _ member =>
  List.IsChain.rel_cons ascends (List.mem_map_of_mem member)

theorem Ascends.tail {first : Nat × Nat} {ranges : Ranges} (ascends : Ascends (first :: ranges)) :
    Ascends ranges :=
  List.IsChain.tail ascends

/-- No interval of one table meets one of the other, both tables being in ascending order. In each
step the lower one of the two first intervals is put aside. -/
def apartWithin : Nat → Ranges → Ranges → Bool
  | n + 1, a :: first, b :: second =>
    if a.2 < b.1 then apartWithin n first (b :: second)
    else if b.2 < a.1 then apartWithin n (a :: first) second
    else false
  | _, [], _ | _, _, [] => true
  | 0, _, _ => false

theorem apart_of_apartWithin {n : Nat} {first second : Ranges} (ascends : first.Ascends)
    (ascends' : second.Ascends) (apart : apartWithin n first second = true) :
    ∀ a ∈ first, ∀ b ∈ second, a.2 < b.1 ∨ b.2 < a.1 := by
  induction n, first, second using apartWithin.induct with
  | case1 n a first b second below ih =>
    rw [apartWithin, if_pos below] at apart
    refine List.forall_mem_cons.mpr ⟨fun x member => .inl ?_, ih ascends.tail ascends' apart⟩
    rcases List.mem_cons.mp member with rfl | later
    · exact below
    · exact Nat.lt_of_lt_of_le below (ascends'.head_le x later)
  | case2 n a first b second notBelow above ih =>
    rw [apartWithin, if_neg notBelow, if_pos above] at apart
    intro x member y inSecond
    rcases List.mem_cons.mp inSecond with rfl | later
    · rcases List.mem_cons.mp member with rfl | behind
      · exact .inr above
      · exact .inr (Nat.lt_of_lt_of_le above (ascends.head_le x behind))
    · exact ih ascends ascends'.tail apart x member y later
  | case3 n a first b second notBelow notAbove =>
    rw [apartWithin, if_neg notBelow, if_neg notAbove] at apart
    cases apart
  | case4 => simp
  | case5 => simp
  | case6 first second notNil notNil' =>
    rw [apartWithin] at apart
    · cases apart
    · exact notNil
    · exact notNil'

theorem not_holds_of_apartWithin {n : Nat} {first second : Ranges} {c : Char}
    (ascends : first.Ascends) (ascends' : second.Ascends)
    (apart : apartWithin n first second = true) (holds : first.holds c = true) :
    second.holds c = false := by
  have each := apart_of_apartWithin ascends ascends' apart
  exact Source.not_holds_of_apart (by simpa using fun a b member a' b' => each (a, b) member (a', b')) holds

end Text.Ranges

/-! ### The characters of names -/

/-- No letter is a number character. -/
theorem Text.isNumeral_of_isLetter {c : Char} (letter : isLetter c = true) :
    isNumeral c = false := by
  by_cases ascii : c.toNat < 0x80
  · rw [isNumeral_of_ascii c ascii]
    rw [isLetter_of_ascii c ascii, Source.isAlpha_iff_toNat] at letter
    rw [Bool.eq_false_iff, Ne, Source.isDigit_iff_toNat]
    omega
  · rw [isLetter, if_neg ascii] at letter
    rw [isNumeral, if_neg ascii]
    exact Text.Ranges.not_holds_of_apartWithin (n := 1000) (by decide +kernel) (by decide +kernel)
      (by decide +kernel) letter

/-- A later character of an identifier is one of a name unless it is a number character that is no
decimal digit. -/
theorem isNamePart_iff_of_isIdentPart {c : Char} (part : Source.isIdentPart c = true) :
    isNamePart c = true ↔ (Text.isNumeral c = true → Text.isDecimal c = true) := by
  constructor
  · intro name numeral
    rw [isNamePart, isNameStart] at name
    simp only [Bool.or_eq_true, beq_iff_eq] at name
    rcases name with ((letter | rfl) | rfl) | decimal
    · rw [Text.isNumeral_of_isLetter letter] at numeral
      cases numeral
    · exact absurd numeral (by decide)
    · exact absurd numeral (by decide)
    · exact decimal
  · intro decimal
    rw [Source.isIdentPart] at part
    simp only [isNamePart, isNameStart, Bool.or_eq_true] at part ⊢
    rcases part with ((letter | numeral) | underscore) | dollar
    · exact .inl (.inl (.inl letter))
    · exact .inr (decimal numeral)
    · exact .inl (.inl (.inr underscore))
    · exact .inl (.inr dollar)

/-- Every number character of the text is a decimal digit. -/
def IsDecimal (text : String) : Prop :=
  ∀ c ∈ text.toList, Text.isNumeral c = true → Text.isDecimal c = true

/-- An identifier is a name exactly if its numbers are decimal digits. -/
theorem isName_iff_of_isIdentifier {text : String} (named : isIdentifier text = true) :
    isName text = true ↔ IsDecimal text := by
  have part := Source.isIdentPart_of_isIdentifier named
  constructor
  · intro name c member
    refine (isNamePart_iff_of_isIdentPart (part c member)).mp ?_
    obtain ⟨first, others, chars, start, later⟩ := isName_iff.mp name
    rw [chars] at member
    rcases List.mem_cons.mp member with rfl | other
    · rw [isNamePart, start, Bool.true_or]
    · exact later c other
  · intro decimal
    obtain ⟨first, others, chars, start, -⟩ := isIdentifier_iff.mp named
    refine isName_iff.mpr ⟨first, others, chars, start, fun c member => ?_⟩
    have inText : c ∈ text.toList := chars ▸ List.mem_cons_of_mem _ member
    exact (isNamePart_iff_of_isIdentPart (part c inText)).mpr (decimal c inText)

/-! ### Identifiers in source text -/

/-- A text is matched entirely exactly if it is an identifier. -/
theorem Source.identifierExtent_eq_length_iff {text : String} :
    identifierExtent? text.toList = some text.toList.length ↔ isIdentifier text = true := by
  rw [isIdentifier_iff]
  cases text.toList with
  | nil =>
    constructor
    · intro impossible
      cases impossible
    · rintro ⟨_, _, impossible, _⟩
      cases impossible
  | cons first others =>
    rw [identifierExtent?]
    constructor
    · intro extent
      split at extent
      · next start =>
        have run : runLength isIdentPart others = others.length := by
          simp only [Option.some.injEq, List.length_cons] at extent
          omega
        have whole : others.takeWhile isIdentPart = others := by
          rw [← take_runLength, run, List.take_length]
        exact ⟨first, others, rfl, start, List.takeWhile_eq_self_iff.mp whole⟩
      · cases extent
    · rintro ⟨_, _, same, start, parts⟩
      cases same
      rw [if_pos start, runLength, List.takeWhile_eq_self_iff.mpr parts, List.length_cons, Nat.add_comm]

/-! ### Names in the text of a type -/

/-- A character of no name is kept wherever it stands. -/
theorem TypeName.mem_rewriteFrom {f : String → String} {c : Char} (other : isNamePart c = false)
    {text : List Char} (member : c ∈ text) (before : Option Char) (name : List Char) :
    c ∈ rewriteFrom f before name text := by
  induction text generalizing before name with
  | nil => cases member
  | cons next rest ih =>
    have behind (member : c ∈ rest) := fun before name => ih member before name
    rw [rewriteFrom]
    rcases List.mem_cons.mp member with rfl | later
    · rw [isNameStart_of_isNamePart other, other]
      split
      · exact List.mem_cons_self
      · exact List.mem_append_right _ List.mem_cons_self
    · split
      · split
        · exact behind later _ _
        · exact List.mem_cons_of_mem _ (behind later _ _)
      · split
        · exact behind later _ _
        · exact List.mem_append_right _ (List.mem_cons_of_mem _ (behind later _ _))

/-- An identifier that every function replaces as one name is a name. -/
theorem isName_of_renamed {text : String} (named : isIdentifier text = true)
    (renamed : ∀ f, mapIdentifiers f text = f text) : isName text = true := by
  obtain ⟨first, others, chars, start, -⟩ := isIdentifier_iff.mp named
  refine isName_iff.mpr ⟨first, others, chars, start, fun c member => ?_⟩
  by_contra noPart
  -- replaced by nothing, the text would still hold this character
  have gone := renamed fun _ => ""
  have kept := TypeName.mem_rewriteFrom (f := fun _ => "") (Bool.eq_false_iff.mpr noPart)
    (chars ▸ List.mem_cons_of_mem first member : c ∈ text.toList) none []
  rw [mapIdentifiers] at gone
  rw [← String.toList_ofList (l := rewriteFrom _ _ _ _), gone] at kept
  cases kept

/-! ### Names that are passed on -/

/-- A part of an accepted name is a name that is not reserved. -/
theorem Check.isIdentifier_iff_isName {text : String} :
    Check.isIdentifier text = true ↔ text ∉ reservedWords ∧ isName text = true := by
  rw [Check.isIdentifier, isName]
  cases text.toList with
  | nil => simp
  | cons first others => simp [and_assoc]

/-- The dotted names of identifiers that are accepted. -/
theorem isTypeName_join_iff {parts : List String} (some_ : parts ≠ [])
    (named : ∀ part ∈ parts, isIdentifier part = true) :
    Check.isTypeName (Text.join "." parts) = true ↔
      ∀ part ∈ parts, part ∉ Check.reservedWords ∧ IsDecimal part := by
  have free : ∀ part ∈ parts, '.' ∉ part.toList := fun part member point =>
    absurd (Source.isIdentPart_of_isIdentifier (named part member) '.' point) (by decide)
  rw [Check.isTypeName, show "." = String.singleton '.' from rfl, Text.split_join free some_,
    List.all_eq_true]
  refine forall₂_congr fun part member => ?_
  rw [Check.isIdentifier_iff_isName, isName_iff_of_isIdentifier (named part member)]

/-! ### The three tests -/

/-- **Where the tests agree.** A text that source text takes for an identifier is replaced as one name
by every function exactly if its numbers are decimal digits. It is accepted as the name of a type
exactly if it is no reserved word, and its numbers are decimal digits. -/
theorem one_name_iff (text : String)
    (matched : Source.identifierExtent? text.toList = some text.toList.length) :
    ((∀ f, mapIdentifiers f text = f text) ↔ IsDecimal text) ∧
      (Check.isTypeName text = true ↔ text ∉ Check.reservedWords ∧ IsDecimal text) := by
  have named := Source.identifierExtent_eq_length_iff.mp matched
  have name := isName_iff_of_isIdentifier named
  refine ⟨⟨fun renamed => name.mp (isName_of_renamed named renamed), fun decimal f => ?_⟩, ?_⟩
  · exact (TypeName.Renames.word (name.mpr decimal)).mapIdentifiers
  · have single := isTypeName_join_iff (List.cons_ne_nil text []) (by simpa using named)
    rwa [List.forall_mem_singleton, Text.join] at single

theorem one_name_iff_digit : Source.identifierExtent? "x2".toList = some 2 ∧
    (∀ f, mapIdentifiers f "x2" = f "x2") ∧ Check.isTypeName "x2" = true := by
  have decimal : IsDecimal "x2" := by
    have chars : ∀ c ∈ ['x', '2'], Text.isNumeral c = true → Text.isDecimal c = true :=
      List.forall_mem_cons.mpr ⟨by decide, List.forall_mem_singleton.mpr (by decide)⟩
    exact chars
  have matched : Source.identifierExtent? "x2".toList = some 2 := by decide
  obtain ⟨renamed, accepted⟩ := one_name_iff "x2" matched
  exact ⟨matched, renamed.mpr decimal, accepted.mpr ⟨by decide, decimal⟩⟩

/-- A name that ends with the number eight as one character is an identifier. In the text of a type its
first letter is taken for the name, and as the name of a type it is not accepted. -/
theorem numeral_splits_name : Source.identifierExtent? "xⅧ".toList = some 2 ∧
    mapIdentifiers (fun name => "[" ++ name ++ "]") "xⅧ" = "[x]Ⅷ" ∧
    "xⅧ" ∉ Check.reservedWords ∧ Check.isTypeName "xⅧ" = false := by
  decide +kernel

end Forwarder
