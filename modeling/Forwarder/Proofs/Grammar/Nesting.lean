/-
**Groups and stray semicolons.** Which semicolons of a text stand between declarations and belong to none
of them, and which stretches of tokens have no such semicolon, because every group is closed again.

* `withoutStray` — the tokens without the semicolons at the top behind nothing, a semicolon or a closing
  brace.
* `Bend` — how a stretch enters and leaves groups, and whether it has a semicolon where it is lowest;
  `Bend.Fits` — nothing of such a stretch is stray.
* `IsStatement` — tokens with a semicolon that ends them.
* `Rule.bend` — the bend of whatever is spelled by a rule.
* **`Language.Spells.fits_flat`** — nonterminals whose productions close their groups spell stretches in which
  nothing is stray.
-/

import Forwarder.Proofs.Grammar.Writing
import Forwarder.Proofs.Grammar.Yield

namespace Forwarder.Grammar

open Source

/-! ### Stray semicolons -/

/-- The marks that open a group. -/
def openers : List String :=
  ["(", "\x7b"]

/-- The marks that close a group. -/
def closers : List String :=
  [")", "\x7d"]

/-- How many groups are open behind a token. -/
def depthAfter (depth : Nat) (text : String) : Nat :=
  if text ∈ openers then depth + 1 else if text ∈ closers then depth - 1 else depth

/-- A semicolon outside of all groups that ends no declaration: in front of it stands nothing, another
semicolon or a closing brace. -/
def isStray (depth : Nat) (before : Option String) (text : String) : Bool :=
  text == ";" && depth == 0 && before.all ([";", "\x7d"].contains ·)

/-- The tokens without stray semicolons, where so many groups are open and this token stands in front. -/
def withoutStrayFrom : Nat → Option String → List String → List String
  | _, _, [] => []
  | depth, before, text :: others =>
    let rest := withoutStrayFrom (depthAfter depth text) (some text) others
    if isStray depth before text then rest else text :: rest

/-- **The tokens of a file without stray semicolons.** -/
def withoutStray (texts : List String) : List String :=
  withoutStrayFrom 0 none texts

theorem withoutStrayFrom_cons {depth : Nat} {before : Option String} {text : String}
    (kept : isStray depth before text = false) (others : List String) :
    withoutStrayFrom depth before (text :: others) =
      text :: withoutStrayFrom (depthAfter depth text) (some text) others := by
  rw [withoutStrayFrom, kept]
  rfl

theorem withoutStrayFrom_stray {before : Option String} (stray : isStray 0 before ";" = true)
    (others : List String) :
    withoutStrayFrom 0 before (";" :: others) = withoutStrayFrom 0 (some ";") others := by
  rw [withoutStrayFrom, stray]
  rfl

/-! ### Bends -/

/-- How a stretch of tokens leaves and enters groups: it goes `down` so far from where it begins, ends
`up` above its lowest point, and is `calm` if it has no semicolon there. -/
structure Bend where
  down : Nat
  up : Nat
  calm : Bool
deriving DecidableEq

namespace Bend

/-- A stretch that closes exactly the groups it opens. -/
def flat (calm : Bool) : Bend :=
  ⟨0, 0, calm⟩

/-- The bend of a single token. -/
def ofText (text : String) : Bend :=
  if text ∈ openers then ⟨0, 1, true⟩ else if text ∈ closers then ⟨1, 0, true⟩ else flat (text != ";")

/-- The bend of one stretch behind another. The lowest point of either may be that of both. -/
def andThen (first second : Bend) : Bend where
  down := first.down + (second.down - first.up)
  up := second.up + (first.up - second.down)
  calm := (decide (first.up < second.down) || first.calm) &&
    (decide (second.down < first.up) || second.calm)

/-- Nothing in the stretch is stray, wherever it stands: outside of all groups if it is calm, and always
inside of one. -/
def Fits (bend : Bend) (texts : List String) : Prop :=
  ∀ depth before others, bend.calm = true ∨ 0 < depth →
    withoutStrayFrom (depth + bend.down) before (texts ++ others) =
      texts ++ withoutStrayFrom (depth + bend.up) (texts.getLast?.or before) others

variable {first second : Bend} {texts more : List String} {calm : Bool}

theorem Fits.nil : (flat calm).Fits [] :=
  fun _ _ _ _ => rfl

theorem Fits.mono (fits : (flat calm).Fits texts) {other : Bool} (le : other = true → calm = true) :
    (flat other).Fits texts :=
  fun depth before others low => fits depth before others (low.imp_left le)

theorem Fits.andThen (one : first.Fits texts) (two : second.Fits more) :
    (first.andThen second).Fits (texts ++ more) := by
  intro depth before others low
  simp only [Bend.andThen, Bool.and_eq_true, Bool.or_eq_true, decide_eq_true_eq] at low
  have start : depth + (first.down + (second.down - first.up)) =
      depth + (second.down - first.up) + first.down := by omega
  have middle : depth + (second.down - first.up) + first.up =
      depth + (first.up - second.down) + second.down := by omega
  have finish : depth + (second.up + (first.up - second.down)) =
      depth + (first.up - second.down) + second.up := by omega
  have lowFirst : first.calm = true ∨ 0 < depth + (second.down - first.up) := by
    rcases low with ⟨lower | calm, -⟩ | inside
    · exact .inr (by omega)
    · exact .inl calm
    · exact .inr (by omega)
  have lowSecond : second.calm = true ∨ 0 < depth + (first.up - second.down) := by
    rcases low with ⟨-, lower | calm⟩ | inside
    · exact .inr (by omega)
    · exact .inl calm
    · exact .inr (by omega)
  have last : (texts ++ more).getLast?.or before = more.getLast?.or (texts.getLast?.or before) := by
    rw [List.getLast?_append, Option.or_assoc]
  show withoutStrayFrom (depth + (first.down + (second.down - first.up))) before _ =
    _ ++ withoutStrayFrom (depth + (second.up + (first.up - second.down))) _ others
  rw [start, finish, List.append_assoc, one _ _ _ lowFirst, middle, two _ _ _ lowSecond, last,
    List.append_assoc]

theorem Fits.append (one : (flat calm).Fits texts) (two : (flat calm).Fits more) :
    (flat calm).Fits (texts ++ more) := by
  have both := one.andThen two
  have same : (flat calm).andThen (flat calm) = flat calm := by
    cases calm <;> rfl
  rwa [same] at both

theorem fits_ofText (text : String) : (ofText text).Fits [text] := by
  intro depth before others low
  rw [List.singleton_append, List.singleton_append]
  by_cases opens : text ∈ openers
  · have other : (text == ";") = false := beq_eq_false_iff_ne.mpr (by rintro rfl; revert opens; decide)
    rw [ofText, if_pos opens, withoutStrayFrom_cons (by simp [isStray, other]), depthAfter, if_pos opens]
    rfl
  · by_cases closes : text ∈ closers
    · have other : (text == ";") = false :=
        beq_eq_false_iff_ne.mpr (by rintro rfl; revert closes; decide)
      rw [ofText, if_neg opens, if_pos closes, withoutStrayFrom_cons (by simp [isStray, other]),
        depthAfter, if_neg opens, if_pos closes]
      rfl
    · rw [ofText, if_neg opens, if_neg closes] at low ⊢
      have kept : isStray depth before text = false := by
        simp only [flat, bne_iff_ne] at low
        rcases low with other | inside
        · simp [isStray, other]
        · simp [isStray, show depth ≠ 0 by omega]
      show withoutStrayFrom depth before (text :: others) = _
      rw [withoutStrayFrom_cons kept, depthAfter, if_neg opens, if_neg closes]
      rfl

/-- A text that neither opens nor closes a group. -/
theorem ofText_of_not_mem {text : String} (plain : text ∉ openers ++ closers) :
    ofText text = flat (text != ";") := by
  obtain ⟨noOpener, noCloser⟩ := not_or.mp (mt List.mem_append.mpr plain)
  rw [ofText, if_neg noOpener, if_neg noCloser]

theorem fits_of_not_mem {text : String} (plain : text ∉ openers ++ closers) :
    (flat (text != ";")).Fits [text] :=
  ofText_of_not_mem plain ▸ fits_ofText text

/-- Whether the stretch is calm, if it closes exactly the groups it opens. -/
def calm? (bend : Bend) : Option Bool :=
  if bend.down = 0 ∧ bend.up = 0 then some bend.calm else none

theorem eq_flat_of_calm? {bend : Bend} (known : bend.calm? = some calm) : bend = flat calm := by
  obtain ⟨down, up, _⟩ := bend
  rw [calm?] at known
  split at known
  · next level =>
    obtain ⟨rfl, rfl⟩ := level
    cases known
    rfl
  · cases known

/-- Texts that are neither marks of groups nor semicolons. -/
theorem fits_of_plain (plain : ∀ text ∈ texts, ofText text = flat true) : (flat true).Fits texts := by
  induction texts with
  | nil => exact .nil
  | cons text others ih =>
    have one : (flat true).Fits [text] :=
      plain text List.mem_cons_self ▸ fits_ofText text
    exact one.append (ih fun text member => plain text (List.mem_cons_of_mem _ member))

end Bend

/-! ### Statements -/

/-- Some tokens that are neither marks of groups nor semicolons, and a semicolon. -/
def IsStatement (texts : List String) : Prop :=
  ∃ front, texts = front ++ [";"] ∧ front ≠ [] ∧ ∀ text ∈ front, Bend.ofText text = .flat true

/-- The semicolon of a statement is not stray. -/
theorem withoutStrayFrom_statement {texts : List String} (isStatement : IsStatement texts)
    (before : Option String) (others : List String) :
    withoutStrayFrom 0 before (texts ++ others) = texts ++ withoutStrayFrom 0 (some ";") others := by
  obtain ⟨front, rfl, some_, plain⟩ := isStatement
  have kept : isStray 0 (front.getLast?.or before) ";" = false := by
    rw [List.getLast?_eq_some_getLast some_, Option.some_or]
    have plainLast := plain _ (List.getLast_mem some_)
    have other {mark : String} (isMark : Bend.ofText mark ≠ .flat true) : front.getLast some_ ≠ mark :=
      fun same => isMark (same ▸ plainLast)
    have noSemicolon : front.getLast some_ ≠ ";" := other (by decide)
    have noBrace : front.getLast some_ ≠ "\x7d" := other (by decide)
    simp [isStray, noSemicolon, noBrace]
  have start := Bend.fits_of_plain plain 0 before (";" :: others) (.inl rfl)
  rw [List.append_assoc, List.singleton_append]
  calc withoutStrayFrom 0 before (front ++ ";" :: others)
    _ = front ++ withoutStrayFrom 0 (front.getLast?.or before) (";" :: others) := start
    _ = front ++ ";" :: withoutStrayFrom 0 (some ";") others := by
      rw [withoutStrayFrom_cons kept]
      rfl
    _ = front ++ [";"] ++ withoutStrayFrom 0 (some ";") others := (List.append_cons ..)

/-- The same for several statements. -/
theorem withoutStrayFrom_statements {α : Type} {texts : α → List String} {statements : List α}
    (each : ∀ statement ∈ statements, IsStatement (texts statement)) {before : Option String}
    (ended : isStray 0 before ";" = true) (others : List String) :
    ∃ last, isStray 0 last ";" = true ∧
      withoutStrayFrom 0 before (statements.flatMap texts ++ others) =
        statements.flatMap texts ++ withoutStrayFrom 0 last others := by
  induction statements generalizing before with
  | nil => exact ⟨before, ended, rfl⟩
  | cons statement statements ih =>
    obtain ⟨first, more⟩ := List.forall_mem_cons.mp each
    obtain ⟨last, stray, rest⟩ := ih more (by decide : isStray 0 (some ";") ";" = true)
    refine ⟨last, stray, ?_⟩
    rw [List.flatMap_cons, List.append_assoc, withoutStrayFrom_statement first, rest, List.append_assoc]

/-! ### Rules -/

mutual

/-- The bend of whatever the rule spells, if it is the same for every value, given for each nonterminal
whether it is calm. -/
def Rule.bend {σ : Type} {V : σ → Type} (calm : σ → Bool) {α : Type} : Rule V α → Option Bend
  | .word text => some (.ofText text)
  | .token kind _ => if kind = .identifier then some (.flat true) else none
  | .pick values text =>
    if ∀ value ∈ values, text value ∉ openers ++ closers then
      some (.flat (values.all (text · != ";")))
    else none
  | .other stops =>
    if ∀ mark ∈ openers ++ closers, mark ∈ stops then some (.flat (stops.contains ";")) else none
  | .seq first second => (first.bend calm).bind fun one => (second.bend calm).map one.andThen
  | .choice alternatives => (alternatives.calm? calm).map .flat
  | .kept first second =>
    (((first.bend calm).bind fun one => (second.bend calm).map one.andThen).bind Bend.calm?).map .flat
  | .opt rule | .iterate _ rule | .iterate1 _ rule => ((rule.bend calm).bind Bend.calm?).map .flat
  | .call s => some (.flat (calm s))
  | .located rule | .shaped _ _ rule => rule.bend calm

/-- Whether all alternatives are calm, if each of them closes exactly the groups it opens. -/
def Choice.calm? {σ : Type} {V : σ → Type} (calm : σ → Bool) {α : Type} : Choice V α → Option Bool
  | .last rule => (rule.bend calm).bind Bend.calm?
  | .or rule others =>
    ((rule.bend calm).bind Bend.calm?).bind fun one => (others.calm? calm).map (one && ·)

end

section Spelled

variable {σ : Type} {V : σ → Type} {symbol : (s : σ) → V s → List Token → Prop}
  {fits : TokenKind → String → Prop} {calm : σ → Bool}

theorem SpellsAll.fits_flat {α : Type} {spells : α → List Token → Prop} {isCalm : Bool}
    (each : ∀ value ts, AllFit fits ts → spells value ts → (Bend.flat isCalm).Fits (textsOf ts))
    {values : List α} {ts : List Token} (all : AllFit fits ts) (spelled : SpellsAll spells values ts) :
    (Bend.flat isCalm).Fits (textsOf ts) := by
  induction values generalizing ts with
  | nil =>
    obtain rfl : ts = [] := spelled
    exact .nil
  | cons value values ih =>
    obtain ⟨front, back, rfl, one, others⟩ := spelled
    rw [textsOf_append]
    exact (each value front all.of_append.1 one).append (ih all.of_append.2 others)

mutual

/-- What a rule spells has the bend of the rule, if that of nonterminals is known. -/
theorem Rule.fits_of_spells (identified : ∀ text, fits .identifier text → Bend.ofText text = .flat true)
    (inner : ∀ s value ts, AllFit fits ts → symbol s value ts → (Bend.flat (calm s)).Fits (textsOf ts))
    {α : Type} :
    ∀ (rule : Rule V α) (value : α) (ts : List Token) (bend : Bend), AllFit fits ts →
      rule.Spells symbol value ts → rule.bend calm = some bend → bend.Fits (textsOf ts)
  | .word text, _, _, _, _, spelled, known => by
    rw [Rule.Spells] at spelled
    rw [Rule.bend] at known
    obtain ⟨token, rfl, rfl⟩ := spelled
    cases known
    exact Bend.fits_ofText token.text
  | .token kind _, _, _, _, all, spelled, known => by
    rw [Rule.Spells] at spelled
    rw [Rule.bend] at known
    obtain ⟨token, rfl, rfl, -⟩ := spelled
    split at known
    · next isIdent =>
      cases known
      rw [← identified token.text (isIdent ▸ all token (List.mem_singleton_self token))]
      exact Bend.fits_ofText token.text
    · cases known
  | .pick values text, value, _, _, _, spelled, known => by
    rw [Rule.Spells] at spelled
    rw [Rule.bend] at known
    obtain ⟨member, token, rfl, same⟩ := spelled
    split at known
    · next plain =>
      cases known
      refine (Bend.fits_of_not_mem (same ▸ plain value member)).mono fun allCalm => ?_
      rw [same]
      exact List.all_eq_true.mp allCalm value member
    · cases known
  | .other stops, _, _, _, _, spelled, known => by
    rw [Rule.Spells] at spelled
    rw [Rule.bend] at known
    obtain ⟨notStop, token, rfl, rfl⟩ := spelled
    split at known
    · next stopped =>
      cases known
      refine (Bend.fits_of_not_mem fun member => notStop (stopped _ member)).mono fun isStop => ?_
      rw [bne_iff_ne]
      rintro same
      exact notStop (same ▸ List.contains_iff_mem.mp isStop)
    · cases known
  | .seq first second, (a, b), _, _, all, spelled, known => by
    rw [Rule.Spells] at spelled
    rw [Rule.bend] at known
    obtain ⟨front, back, rfl, isFirst, isSecond⟩ := spelled
    obtain ⟨one, knownOne, rest⟩ := Option.bind_eq_some_iff.mp known
    obtain ⟨two, knownTwo, rfl⟩ := Option.map_eq_some_iff.mp rest
    rw [textsOf_append]
    exact (first.fits_of_spells identified inner a front one all.of_append.1 isFirst knownOne).andThen
      (second.fits_of_spells identified inner b back two all.of_append.2 isSecond knownTwo)
  | .choice alternatives, value, ts, _, all, spelled, known => by
    rw [Rule.Spells] at spelled
    rw [Rule.bend] at known
    obtain ⟨isCalm, inside, rfl⟩ := Option.map_eq_some_iff.mp known
    exact alternatives.fits_of_spells identified inner value ts isCalm all spelled inside
  | .opt _, none, _, _, _, spelled, known => by
    rw [Rule.Spells] at spelled
    rw [Rule.bend] at known
    subst spelled
    obtain ⟨isCalm, -, rfl⟩ := Option.map_eq_some_iff.mp known
    exact .nil
  | .opt rule, some value, ts, _, all, spelled, known => by
    rw [Rule.Spells] at spelled
    rw [Rule.bend] at known
    obtain ⟨isCalm, inside, rfl⟩ := Option.map_eq_some_iff.mp known
    obtain ⟨bend, known, level⟩ := Option.bind_eq_some_iff.mp inside
    rw [← Bend.eq_flat_of_calm? level]
    exact rule.fits_of_spells identified inner value ts bend all spelled known
  | .kept _ _, none, _, _, _, spelled, known | .kept _ _, some (_, none), _, _, _, spelled, known => by
    rw [Rule.Spells] at spelled
    rw [Rule.bend] at known
    subst spelled
    obtain ⟨isCalm, -, rfl⟩ := Option.map_eq_some_iff.mp known
    exact .nil
  | .kept first second, some (a, some b), _, _, all, spelled, known => by
    rw [Rule.Spells] at spelled
    rw [Rule.bend] at known
    obtain ⟨front, back, rfl, isFirst, isSecond⟩ := spelled
    obtain ⟨isCalm, inside, rfl⟩ := Option.map_eq_some_iff.mp known
    obtain ⟨bend, isBoth, level⟩ := Option.bind_eq_some_iff.mp inside
    obtain ⟨one, knownOne, rest⟩ := Option.bind_eq_some_iff.mp isBoth
    obtain ⟨two, knownTwo, rfl⟩ := Option.map_eq_some_iff.mp rest
    rw [← Bend.eq_flat_of_calm? level, textsOf_append]
    exact (first.fits_of_spells identified inner a front one all.of_append.1 isFirst knownOne).andThen
      (second.fits_of_spells identified inner b back two all.of_append.2 isSecond knownTwo)
  | .iterate _ rule, values, ts, _, all, spelled, known => by
    rw [Rule.Spells] at spelled
    rw [Rule.bend] at known
    obtain ⟨isCalm, inside, rfl⟩ := Option.map_eq_some_iff.mp known
    obtain ⟨bend, isBend, level⟩ := Option.bind_eq_some_iff.mp inside
    obtain rfl := Bend.eq_flat_of_calm? level
    exact spelled.2.fits_flat (fun value ts all one =>
      rule.fits_of_spells identified inner value ts _ all one isBend) all
  | .iterate1 _ rule, values, ts, _, all, spelled, known => by
    rw [Rule.Spells] at spelled
    rw [Rule.bend] at known
    obtain ⟨isCalm, inside, rfl⟩ := Option.map_eq_some_iff.mp known
    obtain ⟨bend, isBend, level⟩ := Option.bind_eq_some_iff.mp inside
    obtain rfl := Bend.eq_flat_of_calm? level
    exact spelled.2.2.fits_flat (fun value ts all one =>
      rule.fits_of_spells identified inner value ts _ all one isBend) all
  | .call s, value, ts, _, all, spelled, known => by
    rw [Rule.Spells] at spelled
    rw [Rule.bend] at known
    cases known
    exact inner s value ts all spelled
  | .located rule, (_, value), ts, bend, all, spelled, known => by
    rw [Rule.Spells] at spelled
    rw [Rule.bend] at known
    exact rule.fits_of_spells identified inner value ts bend all spelled known
  | .shaped _ _ rule, _, ts, bend, all, spelled, known => by
    rw [Rule.Spells] at spelled
    rw [Rule.bend] at known
    obtain ⟨value, -, one⟩ := spelled
    exact rule.fits_of_spells identified inner value ts bend all one known

/-- The same for the alternatives of a choice, which close the groups they open. -/
theorem Choice.fits_of_spells (identified : ∀ text, fits .identifier text → Bend.ofText text = .flat true)
    (inner : ∀ s value ts, AllFit fits ts → symbol s value ts → (Bend.flat (calm s)).Fits (textsOf ts))
    {α : Type} :
    ∀ (alternatives : Choice V α) (value : α) (ts : List Token) (isCalm : Bool), AllFit fits ts →
      alternatives.Spells symbol value ts → alternatives.calm? calm = some isCalm →
      (Bend.flat isCalm).Fits (textsOf ts)
  | .last rule, value, ts, _, all, spelled, known => by
    rw [Choice.Spells] at spelled
    rw [Choice.calm?] at known
    obtain ⟨bend, known, level⟩ := Option.bind_eq_some_iff.mp known
    rw [← Bend.eq_flat_of_calm? level]
    exact rule.fits_of_spells identified inner value ts bend all spelled known
  | .or rule others, .inl value, ts, _, all, spelled, known => by
    rw [Choice.Spells] at spelled
    rw [Choice.calm?] at known
    obtain ⟨one, inside, rest⟩ := Option.bind_eq_some_iff.mp known
    obtain ⟨two, -, rfl⟩ := Option.map_eq_some_iff.mp rest
    obtain ⟨bend, isBend, level⟩ := Option.bind_eq_some_iff.mp inside
    obtain rfl := Bend.eq_flat_of_calm? level
    exact (rule.fits_of_spells identified inner value ts _ all spelled isBend).mono
      fun both => (Bool.and_eq_true _ _ ▸ both).1
  | .or _ others, .inr value, ts, _, all, spelled, known => by
    rw [Choice.Spells] at spelled
    rw [Choice.calm?] at known
    obtain ⟨one, -, rest⟩ := Option.bind_eq_some_iff.mp known
    obtain ⟨two, inside, rfl⟩ := Option.map_eq_some_iff.mp rest
    exact (others.fits_of_spells identified inner value ts two all spelled inside).mono
      fun both => (Bool.and_eq_true _ _ ▸ both).2

end

/-- **Nothing inside is stray.** If the production of every nonterminal closes the groups it opens, and is
as calm as is said, then so is everything that is spelled. -/
theorem Language.Spells.fits_flat {G : Language σ}
    (identified : ∀ text, fits .identifier text → Bend.ofText text = .flat true)
    (bends : ∀ s, (G.production s).bend calm = some (.flat (calm s))) {sym : σ} {value : G.Value sym}
    {ts : List Token} (spelled : G.Spells sym value ts) (all : AllFit fits ts) :
    (Bend.flat (calm sym)).Fits (textsOf ts) := by
  obtain ⟨bound, spelled⟩ := spelled
  induction bound generalizing sym ts with
  | zero => exact spelled.elim
  | succ bound ih =>
    exact (G.production sym).fits_of_spells identified (fun _ _ _ fit deeper => ih fit deeper) value ts _
      all spelled (bends sym)

end Spelled

end Forwarder.Grammar
