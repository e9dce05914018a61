/-
**Groups in source text.** Arguments between parentheses and bodies between braces are read wherever they
stand, and the same everywhere.

* `Symbol.rank` — the constructs that lead others are of higher rank.
* `IsGroup` — tokens between two marks, with all marks of groups in pairs; `IsSmallGroup` — and no group of
  them holds too many to be read.
* `reading_tokenGroup`, `reading_block` — tokens of the latter kind are read as a group without a look at what
  they mean.
* `isGroup_of_spells` — the members of a class are read off a group.
* **`reading_classBody`**, **`parameterList_append`** — a body, and a list of parameters, are read in front of
  everything as they are read alone.
-/

import Forwarder.Proofs.Grammar.Inside
import Forwarder.Proofs.Source.Lossless

namespace Forwarder.Source

open Grammar

/-! ### The grammar -/

/-- The rank of a construct among those that start at one token. -/
def Symbol.rank : Symbol → Nat
  | .modifier | .typeParam | .typeRef | .balanced | .chunk => 1
  | .typeDecl | .formalParameter | .methodDecl | .fieldDecl => 2
  | .compilationUnit | .memberDecl => 3
  | .member => 4
  | _ => 0

theorem isRanked_declarations : declarations.IsRanked solid Symbol.rank 5 where
  solid := solid_production
  leads s := by cases s <;> decide
  levels s := by cases s <;> decide

/-- All constructs have their marks in pairs. -/
theorem awaits_production (s : Symbol) : (productions s).awaits [] = some [] := by
  cases s <;> decide

/-- An identifier is no mark of a group. -/
theorem not_mark_of_identified {text : String} (named : Identified .identifier text) :
    text ∉ openers ++ closers := by
  have marks : ∀ mark ∈ openers ++ closers, isIdentifier mark = false := by decide
  intro member
  have impossible := named rfl
  rw [marks text member] at impossible
  cases impossible

/-- A bound that is large enough for the tokens of a stretch is so within a longer text. -/
theorem reading_of_nesting {s : Symbol} {ts : List Token} {finish : Position} {bound : Nat}
    (enough : nesting ts.length ≤ bound) :
    declarations.reading finish (nesting ts.length) s ts = declarations.reading finish bound s ts := by
  refine isRanked_declarations.reading_congr ?_ enough
  have low := isRanked_declarations.levels s
  rw [nesting]
  omega

/-! ### Groups of tokens -/

section Groups

variable {finish : Position} {bound : Nat} {token close : Token} {ts rest : List Token}

/-- A construct between marks is absent where its first mark is. -/
theorem construct_absent {s : Symbol} {α : Type} {opening : String} {others : DeclRule α}
    {shape : Unit × α → s.Value} {back : s.Value → Unit × α}
    (production : productions s = .shaped shape back (.seq (.word opening) others))
    (other : token.text ≠ opening) : declarations.reading finish bound s (token :: ts) = .absent := by
  cases bound with
  | zero => rfl
  | succ bound =>
    have absent : (token.text == opening) = false := beq_eq_false_iff_ne.mpr other
    show (productions s).reading _ _ _ = _
    simp only [production, Rule.reading, singleReading, absent, Bool.false_eq_true, if_false, Reading.map]
    rfl

theorem tokenGroup_absent (other : token.text ≠ "(") :
    declarations.reading finish bound .tokenGroup (token :: ts) = .absent :=
  construct_absent (s := .tokenGroup) rfl other

theorem block_absent (other : token.text ≠ "\x7b") :
    declarations.reading finish bound .block (token :: ts) = .absent :=
  construct_absent (s := .block) rfl other

theorem classBody_absent (other : token.text ≠ "\x7b") :
    declarations.reading finish bound .classBody (token :: ts) = .absent :=
  construct_absent (s := .classBody) rfl other

theorem parameterList_absent (other : token.text ≠ "(") :
    declarations.reading finish bound .parameterList (token :: ts) = .absent :=
  construct_absent (s := .parameterList) rfl other

/-- A group is read if its inside is read up to the mark that closes it. -/
theorem group_matched {α : Type} {symbol : (s : Symbol) → List Token → Grammar.Reading s.Value} {rule : DeclRule α}
    {values : List α} {opening closing : String} (opens : token.text = opening) (closes : close.text = closing)
    (inside : repeatedReading (rule.reading symbol finish) maxIterations ts = .matched values (close :: rest)) :
    (DeclRule.group opening closing rule).reading symbol finish (token :: ts) = .matched values rest := by
  have isOpening : (token.text == opening) = true := beq_iff_eq.mpr opens
  have isClosing : (close.text == closing) = true := beq_iff_eq.mpr closes
  rw [DeclRule.group, Rule.reading, Rule.reading, Rule.reading, singleReading, if_pos isOpening]
  dsimp only
  rw [Rule.reading, Rule.reading, inside]
  simp only [Rule.reading, singleReading, if_pos isClosing, Reading.map]

/-- A token that is no mark of a group is read as it is. -/
theorem balanced_token (plain : token.text ∉ openers ++ closers) :
    declarations.reading finish (bound + 1) .balanced (token :: rest) = .matched (.token token.text) rest := by
  have other {mark : String} (isMark : mark ∈ openers ++ closers) : token.text ≠ mark := by
    rintro rfl
    exact plain isMark
  have free : token.text ∉ ["(", ")", "\x7b", "\x7d"] := fun member =>
    plain ((by decide : ∀ mark ∈ ["(", ")", "\x7b", "\x7d"], mark ∈ openers ++ closers) _ member)
  have noGroup : declarations.reading finish bound .tokenGroup (token :: rest) = .absent :=
    tokenGroup_absent (other (by decide))
  have noBlock : declarations.reading finish bound .block (token :: rest) = .absent :=
    block_absent (other (by decide))
  show (DeclRule.balancedUnless _).reading (declarations.reading finish bound) finish _ = _
  simp only [DeclRule.balancedUnless, DeclRule.sym, Rule.reading, Choice.reading, noGroup, noBlock,
    otherReading, List.contains_iff_mem, if_neg free, Reading.map]
  rfl

/-- The mark that closes the group around is not read. -/
theorem balanced_closer (isCloser : close.text ∈ closers) :
    declarations.reading finish (bound + 1) .balanced (close :: rest) = .failed (close :: rest) := by
  have stops : close.text ∈ ["(", ")", "\x7b", "\x7d"] :=
    (by decide : ∀ mark ∈ closers, mark ∈ ["(", ")", "\x7b", "\x7d"]) _ isCloser
  have other {mark : String} (notCloser : mark ∉ closers) : close.text ≠ mark := by
    rintro rfl
    exact notCloser isCloser
  have noGroup : declarations.reading finish bound .tokenGroup (close :: rest) = .absent :=
    tokenGroup_absent (other (by decide))
  have noBlock : declarations.reading finish bound .block (close :: rest) = .absent :=
    block_absent (other (by decide))
  show (DeclRule.balancedUnless _).reading (declarations.reading finish bound) finish _ = _
  simp only [DeclRule.balancedUnless, DeclRule.sym, Rule.reading, Choice.reading, noGroup, noBlock,
    otherReading, List.contains_iff_mem, if_pos stops, tooFar_self, Reading.map]
  rfl

/-- A group is read as one item if its inside is read up to the mark that closes it. -/
theorem balanced_group {opening closing : Token} {inner : List Balanced}
    (pair : closer? opening.text = some closing.text)
    (inside : repeatedReading (declarations.reading finish bound .balanced) maxIterations ts =
      .matched inner (closing :: rest)) :
    ∃ item, declarations.reading finish (bound + 2) .balanced (opening :: ts) = .matched item rest := by
  show ∃ item, (DeclRule.balancedUnless _).reading (declarations.reading finish (bound + 1)) finish _ = _
  by_cases isParens : opening.text = "("
  · have isClosing : closing.text = ")" := by
      rw [isParens] at pair
      exact (Option.some.inj pair).symm
    have group : declarations.reading finish (bound + 1) .tokenGroup (opening :: ts) = .matched inner rest := by
      exact group_matched isParens isClosing inside
    refine ⟨.parens inner, ?_⟩
    simp only [DeclRule.balancedUnless, DeclRule.sym, Rule.reading, Choice.reading, group, Reading.map]
    rfl
  · have isBraces : opening.text = "\x7b" := by
      rw [closer?, if_neg isParens] at pair
      by_contra other
      rw [if_neg other] at pair
      cases pair
    have isClosing : closing.text = "\x7d" := by
      rw [isBraces] at pair
      exact (Option.some.inj pair).symm
    have group : declarations.reading finish (bound + 1) .block (opening :: ts) = .matched inner rest := by
      exact group_matched isBraces isClosing inside
    refine ⟨.braces inner, ?_⟩
    have noGroup : declarations.reading finish (bound + 1) .tokenGroup (opening :: ts) = .absent :=
      tokenGroup_absent isParens
    simp only [DeclRule.balancedUnless, DeclRule.sym, Rule.reading, Choice.reading, noGroup, group, Reading.map]
    rfl

/-- **Tokens and groups** are read as items up to the mark that closes the group around them. -/
theorem reads_of_entries {count : Nat} {inner : List Token} (entries : Entries count inner) (finish : Position)
    (isCloser : close.text ∈ closers) (rest : List Token) {limit : Nat} (enough : 2 * inner.length < bound)
    (few : count < limit) :
    ∃ items, repeatedReading (declarations.reading finish bound .balanced) limit (inner ++ close :: rest) =
      .matched items (close :: rest) := by
  induction entries generalizing bound limit close rest with
  | nil =>
    obtain ⟨bound, rfl⟩ : ∃ less, bound = less + 1 := ⟨bound - 1, by omega⟩
    obtain ⟨limit, rfl⟩ : ∃ less, limit = less + 1 := ⟨limit - 1, by omega⟩
    exact ⟨[], repeatedReading_of_refused (.inr (balanced_closer isCloser)) limit⟩
  | @token count token others plain _ ih =>
    rw [List.length_cons] at enough
    obtain ⟨bound, rfl⟩ : ∃ less, bound = less + 1 := ⟨bound - 1, by omega⟩
    obtain ⟨limit, rfl⟩ : ∃ less, limit = less + 1 := ⟨limit - 1, by omega⟩
    obtain ⟨items, read⟩ := ih isCloser rest (by omega : 2 * others.length < bound + 1)
      (by omega : count < limit)
    refine ⟨.token token.text :: items, ?_⟩
    rw [List.cons_append, repeatedReading, balanced_token plain]
    simp only [Reading.optional, read, Reading.map]
  | @group held count opening closing inside others pair _ fewInside _ ihInside ih =>
    simp only [List.cons_append, List.length_cons, List.length_append] at enough
    obtain ⟨bound, rfl⟩ : ∃ less, bound = less + 2 := ⟨bound - 2, by omega⟩
    obtain ⟨limit, rfl⟩ : ∃ less, limit = less + 1 := ⟨limit - 1, by omega⟩
    obtain ⟨inner, readInner⟩ := ihInside (mem_closers_of_closer? pair) (others ++ close :: rest)
      (by omega : 2 * inside.length < bound) fewInside
    obtain ⟨item, readItem⟩ := balanced_group pair readInner
    obtain ⟨items, read⟩ := ih isCloser rest (by omega : 2 * others.length < bound + 2)
      (by omega : count < limit)
    refine ⟨item :: items, ?_⟩
    rw [List.append_assoc, List.cons_append, List.cons_append, repeatedReading, readItem]
    simp only [Reading.optional, read, Reading.map]

/-- Tokens between these two marks, with all marks of groups in pairs. -/
def IsGroup (opening closing : String) (ts : List Token) : Prop :=
  ∃ first inner last, ts = first :: (inner ++ [last]) ∧ first.text = opening ∧ last.text = closing ∧
    Paired inner

/-- Such tokens, where neither this group nor one inside of it holds more tokens and groups than can be
read. -/
def IsSmallGroup (opening closing : String) (ts : List Token) : Prop :=
  ∃ first inner last count, ts = first :: (inner ++ [last]) ∧ first.text = opening ∧ last.text = closing ∧
    Entries count inner ∧ count < maxIterations

variable {opening closing : String}

theorem IsSmallGroup.isGroup (isSmall : IsSmallGroup opening closing ts) : IsGroup opening closing ts := by
  obtain ⟨first, inner, last, count, split, isFirst, isLast, entries, -⟩ := isSmall
  exact ⟨first, inner, last, split, isFirst, isLast, entries.paired⟩

/-- A group of fewer tokens than a rule can be repeated is small. -/
theorem IsGroup.isSmall (isGroup : IsGroup opening closing ts) (few : ts.length < maxIterations) :
    IsSmallGroup opening closing ts := by
  obtain ⟨first, inner, last, rfl, isFirst, isLast, paired⟩ := isGroup
  simp only [List.length_cons, List.length_append] at few
  obtain ⟨count, less, entries⟩ := paired.entries (by omega)
  exact ⟨first, inner, last, count, rfl, isFirst, isLast, entries, by omega⟩

theorem IsGroup.two_le (isGroup : IsGroup opening closing ts) : 2 ≤ ts.length := by
  obtain ⟨first, inner, last, rfl, -⟩ := isGroup
  simp

/-- Tokens between two marks are read as a group of items. -/
theorem IsSmallGroup.reads (isSmall : IsSmallGroup opening closing ts) (isCloser : closing ∈ closers)
    (finish : Position) (rest : List Token) (enough : 2 * ts.length ≤ bound + 2) :
    ∃ items, (DeclRule.group opening closing (DeclRule.sym .balanced)).reading
      (declarations.reading finish bound) finish (ts ++ rest) = .matched items rest := by
  obtain ⟨first, inner, last, count, rfl, isFirst, rfl, entries, few⟩ := isSmall
  simp only [List.length_cons, List.length_append] at enough
  have split : first :: (inner ++ [last]) ++ rest = first :: (inner ++ last :: rest) := by simp
  obtain ⟨items, inside⟩ := reads_of_entries entries finish isCloser rest
    (by omega : 2 * inner.length < bound) few
  rw [split]
  exact ⟨items, group_matched isFirst rfl inside⟩

/-- Arguments are read as a group. -/
theorem reading_tokenGroup (isSmall : IsSmallGroup "(" ")" ts) (enough : 2 * ts.length ≤ bound)
    (finish : Position) (rest : List Token) :
    ∃ items, declarations.reading finish bound .tokenGroup (ts ++ rest) = .matched items rest := by
  have long := isSmall.isGroup.two_le
  obtain ⟨bound, rfl⟩ : ∃ less, bound = less + 1 := ⟨bound - 1, by omega⟩
  exact isSmall.reads (by decide) finish rest (by omega)

/-- A body is read as a block. -/
theorem reading_block (isSmall : IsSmallGroup "\x7b" "\x7d" ts) (enough : 2 * ts.length ≤ bound)
    (finish : Position) (rest : List Token) :
    ∃ items, declarations.reading finish bound .block (ts ++ rest) = .matched items rest := by
  have long := isSmall.isGroup.two_le
  obtain ⟨bound, rfl⟩ : ∃ less, bound = less + 1 := ⟨bound - 1, by omega⟩
  exact isSmall.reads (by decide) finish rest (by omega)

/-! ### Readings in front of something -/

/-- The members of a class are spelled with a group. -/
theorem isGroup_of_spells {members : List Member} (spelled : Symbol.Spells .classBody members ts)
    (named : AllFit Identified ts) : IsGroup "\x7b" "\x7d" ts := by
  have rule : DeclRule.classBody.Spells Symbol.Spells members ts := spelled.rule
  rw [DeclRule.classBody] at rule
  obtain ⟨first, inner, last, rfl, isFirst, isLast, -, inside⟩ := group_spells rule
  simp only [DeclRule.sym, Rule.Spells] at inside
  obtain ⟨-, named⟩ := List.forall_mem_cons.mp named
  have fit : AllFit Identified inner := fun token member => named token (List.mem_append_left _ member)
  refine ⟨first, inner, last, rfl, isFirst, isLast, inside.paired (fun _ _ fit one => ?_) fit⟩
  exact Language.Spells.paired (fun _ => not_mark_of_identified) awaits_production one fit

/-- A group is read alike alone and in front of something. -/
theorem group_alike (finish : Position) (s : Symbol) {α : Type} {inner : DeclRule α}
    {shape : Unit × α × Unit → s.Value} {back : s.Value → Unit × α × Unit}
    (production : productions s = .shaped shape back (.seq (.word opening) (.seq inner (.word closing))))
    (level : inner.awaits [] = some []) (isCloser : closing ∈ closers)
    (isGroup : IsGroup opening closing ts) (named : AllFit Identified ts)
    (enough : nesting ts.length ≤ bound) (rest : List Token) :
    ∃ close before, AlikeGroup close [] rest before
      (declarations.reading finish (nesting ts.length) s ts)
      (declarations.reading finish bound s (ts ++ rest)) := by
  rw [reading_of_nesting enough]
  obtain ⟨bound, rfl⟩ : ∃ less, bound = less + 1 := ⟨bound - 1, by rw [nesting] at enough; omega⟩
  obtain ⟨first, inside, last, rfl, -, rfl, paired⟩ := isGroup
  obtain ⟨-, fit⟩ := List.forall_mem_cons.mp named
  obtain ⟨fit, isFit⟩ := List.forall_mem_append.mp fit
  have split : first :: (inside ++ [last]) ++ rest = first :: (inside ++ last :: rest) := by simp
  have fitsLast := isFit last (List.mem_singleton_self last)
  have all : AllAlike Identified last [] rest (declarations.reading finish bound)
      (declarations.reading finish bound) :=
    Language.allAlike awaits_production (fun _ => not_mark_of_identified) isCloser fitsLast bound
  refine ⟨last, inside, ?_⟩
  show AlikeGroup last [] rest inside ((productions s).reading (declarations.reading finish bound) finish _)
    ((productions s).reading (declarations.reading finish bound) finish _)
  rw [split, production]
  exact Rule.alikeGroup (fun _ => not_mark_of_identified) isCloser fitsLast all level rfl fit paired

/-- **Parameters in front of something** are read as they are read alone, up to the closing parenthesis if
they are read at all. -/
theorem parameterList_append (isGroup : IsGroup "(" ")" ts) (named : AllFit Identified ts)
    (enough : nesting ts.length ≤ bound) (finish : Position) (rest : List Token) :
    declarations.reading finish bound .parameterList (ts ++ rest) =
        (declarations.reading finish (nesting ts.length) .parameterList ts).before rest ∧
      ∀ params left, declarations.reading finish (nesting ts.length) .parameterList ts = .matched params left →
        left = [] := by
  obtain ⟨close, before, alike⟩ := group_alike finish .parameterList rfl (by decide) (by decide)
    isGroup named enough rest
  exact ⟨alike.eq_before, fun _ _ => alike.left_eq_nil⟩

/-- **A body in front of something** is read as it is read alone. -/
theorem reading_classBody {members : List Member}
    (read : declarations.read .classBody ts finish = .ok members) (named : AllFit Identified ts)
    (enough : nesting ts.length ≤ bound) (rest : List Token) :
    declarations.reading finish bound .classBody (ts ++ rest) = .matched members rest := by
  have isGroup := isGroup_of_spells (Language.spells_of_read read) named
  have alone := (declarations.read_eq_ok_iff .classBody ts finish members).mp read
  have whole : declarations.reading finish bound .classBody (ts ++ rest) =
      (declarations.reading finish (nesting ts.length) .classBody ts).before rest := by
    obtain ⟨close, before, alike⟩ := group_alike finish .classBody rfl (by decide) (by decide) isGroup named
      enough rest
    exact alike.eq_before
  rwa [alone] at whole

end Groups

end Forwarder.Source
