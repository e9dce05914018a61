/-
**The body of an enum.** The constants of an enum are read one after the other, and a file with the enum from
its first token to its last one.

* `Listed` — constants with commas between them.
* `Listed.read_of_isKept`, `Listed.isKept_of_read` — they are read as they are written exactly if all of them
  are kept.
* `reading_enum` — the way from a file to the members of its enum.
* **`parse_enum_iff`** — an enum of fewer tokens than a rule can be repeated is read with the constants that it is
  written with exactly if none of them is taken for a constructor. **`bodied_not_parsed`** is an enum that is not read at all.
-/

import Forwarder.Proofs.Source.EnumConstant
import Forwarder.Proofs.Source.Levels

namespace Forwarder.Source

open Grammar

/-! ### The constants of an enum -/

section Marks

variable {close : Token}

/-- The mark that closes an enum is no member. -/
theorem member_declines (closes : EndsConstant close) (isClose : close.text = "\x7d") (finish : Position)
    (bound : Nat) (rest : List Token) :
    Declines (declarations.reading finish bound .member) ((close :: rest).map Token.shape) := by
  obtain ⟨kind, text, pos⟩ := close
  obtain rfl : text = "\x7d" := isClose
  have noName : kind ≠ .identifier := closes.endsName.kind_ne
  have refuses : declarations.refuses (.exactly (kind, "\x7d")) 5 .member = true := by
    cases kind <;> first | exact absurd rfl noName | decide
  have fits : (Glimpse.exactly (kind, "\x7d")).Fits reserved (kind, "\x7d") := rfl
  exact (symbol_refused fits 5 refuses).declines

theorem separator_close (isClose : close.text = "\x7d") (rest : List Token) :
    (pickReading Separator.all Separator.text (close :: rest)).optional (close :: rest) =
      .matched none (close :: rest) := by
  rw [pickReading, isClose]
  rfl

theorem separator_comma {comma : Token} (isComma : comma.text = ",") (rest : List Token) :
    (pickReading Separator.all Separator.text (comma :: rest)).optional (comma :: rest) =
      .matched (some .comma) rest := by
  rw [pickReading, isComma]
  rfl

end Marks

/-- The tokens are the constants, with commas between them. -/
inductive Listed : List Constant → List Token → Prop
  | last (c : Constant) : Listed [c] c.tokens
  | more (c : Constant) {comma : Token} {constants : List Constant} {ts : List Token}
      (isComma : comma.text = ",") (others : Listed constants ts) :
      Listed (c :: constants) (c.tokens ++ comma :: ts)

namespace Listed

variable {constants : List Constant} {inner : List Token} {finish : Position} {bound : Nat} {close : Token}

theorem length_le (listed : Listed constants inner) : constants.length ≤ inner.length := by
  induction listed with
  | last c => simp [Constant.tokens]
  | more c isComma others ih =>
    simp only [List.length_cons, List.length_append]
    omega

/-- **Constants that are kept** are read one after the other, up to the mark that closes the enum. -/
theorem read_of_isKept (listed : Listed constants inner) (written : ∀ c ∈ constants, c.IsWritten finish)
    (fit : AllFit Identified inner) (closes : EndsConstant close) (isClose : close.text = "\x7d")
    (few : inner.length < maxIterations) (enough : nesting inner.length ≤ bound) (rest : List Token)
    {count : Nat} (often : constants.length < count) (kept : ∀ c ∈ constants, c.IsKept finish) :
    ∃ members, repeatedReading (declarations.reading finish (bound + 3) .member) count
        (inner ++ close :: rest) = .matched members (close :: rest) ∧
      List.Forall₂ (Constant.Matches finish) constants members := by
  induction listed generalizing count with
  | last c =>
    obtain ⟨count, rfl⟩ : ∃ less, count = less + 1 := ⟨count - 1, by simp at often; omega⟩
    obtain ⟨member, read, isConstant⟩ := (written c (by simp)).member_of_isKept fit closes few enough
      (separator_close isClose rest) (kept c (by simp))
    have noMore := repeatedReading_of_declines (member_declines closes isClose finish (bound + 3) rest) rfl
      (by simpa using often : 0 < count)
    exact ⟨[member], repeatedReading_cons read noMore, .cons isConstant .nil⟩
  | @more c comma constants ts isComma others ih =>
    obtain ⟨count, rfl⟩ : ∃ less, count = less + 1 := ⟨count - 1, by simp at often; omega⟩
    obtain ⟨fitFirst, fitOthers⟩ := fit.of_append
    obtain ⟨fitComma, fitOthers⟩ := List.forall_mem_cons.mp fitOthers
    have within : nesting c.tokens.length ≤ bound ∧ nesting ts.length ≤ bound := by
      simp only [nesting, List.length_append, List.length_cons] at enough ⊢
      omega
    have fewer : c.tokens.length < maxIterations ∧ ts.length < maxIterations := by
      simp only [List.length_append, List.length_cons] at few
      omega
    have stops : EndsConstant comma := ⟨by simp [isComma], fitComma⟩
    obtain ⟨member, read, isConstant⟩ := (written c (by simp)).member_of_isKept fitFirst stops fewer.1
      within.1 (separator_comma isComma (ts ++ close :: rest)) (kept c (by simp))
    obtain ⟨members, readOthers, areConstants⟩ := ih (fun c member => written c (.tail _ member)) fitOthers
      fewer.2 within.2 (by simpa using often) (fun c member => kept c (.tail _ member))
    refine ⟨member :: members, ?_, .cons isConstant areConstants⟩
    rw [List.append_assoc, List.cons_append]
    exact repeatedReading_cons read readOthers

/-- Constants that are read as they are written have been kept. -/
theorem isKept_of_read (listed : Listed constants inner) (written : ∀ c ∈ constants, c.IsWritten finish)
    (fit : AllFit Identified inner) (closes : EndsConstant close) (few : inner.length < maxIterations)
    (enough : nesting inner.length ≤ bound) {rest left : List Token} {count : Nat} {members : List Member}
    (read : repeatedReading (declarations.reading finish (bound + 3) .member) count (inner ++ close :: rest) =
      .matched members left)
    (isConstant : List.Forall₂ (Constant.Matches finish) constants members) :
    ∀ c ∈ constants, c.IsKept finish := by
  induction listed generalizing count members with
  | last c =>
    obtain ⟨member, members, isFirst, -, rfl⟩ := List.forall₂_cons_left_iff.mp isConstant
    obtain ⟨less, middle, one, -⟩ := repeatedReading_eq_cons read
    have kept := (written c (by simp)).isKept_of_matches fit closes few enough one isFirst
    simpa using kept
  | @more c comma constants ts isComma others ih =>
    obtain ⟨member, members, isFirst, areOthers, rfl⟩ := List.forall₂_cons_left_iff.mp isConstant
    obtain ⟨fitFirst, fitOthers⟩ := fit.of_append
    obtain ⟨fitComma, fitOthers⟩ := List.forall_mem_cons.mp fitOthers
    have within : nesting c.tokens.length ≤ bound ∧ nesting ts.length ≤ bound := by
      simp only [nesting, List.length_append, List.length_cons] at enough ⊢
      omega
    have fewer : c.tokens.length < maxIterations ∧ ts.length < maxIterations := by
      simp only [List.length_append, List.length_cons] at few
      omega
    have stops : EndsConstant comma := ⟨by simp [isComma], fitComma⟩
    rw [List.append_assoc, List.cons_append] at read
    obtain ⟨less, middle, one, more⟩ := repeatedReading_eq_cons read
    have kept := (written c (by simp)).isKept_of_matches fitFirst stops fewer.1 within.1 one isFirst
    -- a constant that is kept leaves over what stands behind its comma
    obtain ⟨_, whole, -⟩ := (written c (by simp)).member_of_isKept fitFirst stops fewer.1 within.1
      (separator_comma isComma (ts ++ close :: rest)) kept
    obtain rfl : middle = ts ++ close :: rest := (Reading.matched.inj (one.symm.trans whole)).2
    exact List.forall_mem_cons.mpr
      ⟨kept, ih (fun c member => written c (.tail _ member)) fitOthers fewer.2 within.2 more areOthers⟩

end Listed

/-! ### A file with an enum -/

/-- A file that declares an enum with these members, and nothing else. -/
def enumUnit (pos : Position) (name : String) (members : List Member) : CompilationUnit :=
  ⟨none, [], [.type ⟨pos, [], ⟨⟨.enumKind, name, [], none, [], [], []⟩, members⟩⟩]⟩

section File

variable {symbol : (s : Symbol) → List Token → Grammar.Reading s.Value} {finish : Position}
  {keyword name opening : Token} {ts left : List Token}

/-- An enum behind its modifiers, if it has no clauses, is its name and its members. -/
theorem reading_typeSpec (isEnum : keyword.text = "enum") (named : name.kind = .identifier)
    (opens : opening.text = "\x7b") (noParams : symbol .parameterList (opening :: ts) = .absent)
    {spec : TypeSpec} :
    DeclRule.typeSpec.reading symbol finish (keyword :: name :: opening :: ts) = .matched spec left ↔
      ∃ members, symbol .classBody (opening :: ts) = .matched members left ∧
        spec = ⟨⟨.enumKind, name.text, [], none, [], [], []⟩, members⟩ := by
  have kind : (Rule.pick TypeKind.all TypeKind.keyword : DeclRule TypeKind).reading symbol finish
      (keyword :: name :: opening :: ts) = .matched .enumKind (name :: opening :: ts) := by
    rw [Rule.reading, pickReading, isEnum]
    rfl
  have name_ : DeclRule.ident.reading symbol finish (name :: opening :: ts) =
      .matched name.text (opening :: ts) := by
    simp [DeclRule.ident, Rule.reading, singleReading, named]
  have other {mark : String} (differs : "\x7b" ≠ mark) : opening.text ≠ mark := by rwa [opens]
  have typeParams : DeclRule.typeParams.reading symbol finish (opening :: ts) =
      .matched [] (opening :: ts) := by
    obtain ⟨_, rfl, matched⟩ :=
      Reads.noBrackets (Refused.word (other (by decide : _ ≠ "<"))) [] (opening :: ts) rfl rfl
    exact matched
  have params : (Rule.opt (DeclRule.sym .parameterList)).reading symbol finish (opening :: ts) =
      .matched none (opening :: ts) := by
    rw [Rule.reading, DeclRule.sym, Rule.reading, noParams, Reading.optional]
  have clause {mark : String} (differs : "\x7b" ≠ mark) :
      (DeclRule.typeClause mark).reading symbol finish (opening :: ts) = .matched [] (opening :: ts) := by
    obtain ⟨_, rfl, matched⟩ := Reads.noClause (Refused.word (other differs)) [] (opening :: ts) rfl rfl
    exact matched
  rw [DeclRule.typeSpec, Rule.reading, reading_seq kind, reading_seq name_, reading_seq typeParams,
    reading_seq params, reading_seq (clause (by decide)), reading_seq (clause (by decide)),
    reading_seq (clause (by decide)), DeclRule.sym, Rule.reading]
  simp [Reading.map_eq_matched_iff, Reading.behind_eq_matched_iff]

/-- A type without modifiers. -/
theorem reading_typeDecl (noModifier : GivesUp (keyword :: ts) (symbol .modifier (keyword :: ts)))
    {decl : TypeDecl} :
    DeclRule.typeDecl.reading symbol finish (keyword :: ts) = .matched decl left ↔
      ∃ spec, symbol .typeSpec (keyword :: ts) = .matched spec left ∧ decl = ⟨keyword.pos, [], spec⟩ := by
  have modifiers : (Rule.many (DeclRule.sym .modifier)).reading symbol finish (keyword :: ts) =
      .matched [] (keyword :: ts) := reading_many_of_givesUp noModifier
  rw [DeclRule.typeDecl, Rule.reading, Rule.reading]
  simp only [Reading.map_eq_matched_iff, reading_seq modifiers, Reading.behind_eq_matched_iff]
  simp only [placeOf, ↓existsAndEq, and_true]
  exact Iff.rfl

theorem reading_topLevel {decl : TypeDecl} :
    DeclRule.topLevel.reading symbol finish ts = .matched (.type decl) left ↔
      symbol .typeDecl ts = .matched decl left := by
  rw [DeclRule.topLevel, Rule.reading, Rule.reading, Choice.reading, DeclRule.sym, Rule.reading]
  cases symbol .typeDecl ts with
  | matched found rest => simp [Reading.map]
  | absent => simp [Reading.map_eq_matched_iff]
  | failed rest =>
    dsimp only
    split <;> simp [Reading.map_eq_matched_iff]

/-- A file with a single type, and no package and no imports. -/
theorem reading_compilationUnit (noPackage : GivesUp ts (symbol .packageDecl ts))
    (noImport : GivesUp ts (symbol .importDecl ts))
    (atEnd : Declines (DeclRule.topLevel.reading symbol finish) []) {decl : TypeDecl} :
    DeclRule.compilationUnit.reading symbol finish ts = .matched ⟨none, [], [.type decl]⟩ [] ↔
      symbol .typeDecl ts = .matched decl [] := by
  have package : (Rule.opt (DeclRule.sym .packageDecl)).reading symbol finish ts = .matched none ts :=
    reading_opt_of_givesUp noPackage
  have imports : (Rule.many (DeclRule.sym .importDecl)).reading symbol finish ts = .matched [] ts :=
    reading_many_of_givesUp noImport
  have items : (Rule.many DeclRule.topLevel).reading symbol finish ts = .matched [.type decl] [] ↔
      DeclRule.topLevel.reading symbol finish ts = .matched (.type decl) [] := by
    rw [Rule.reading]
    constructor
    · intro read
      obtain ⟨less, middle, one, none_⟩ := repeatedReading_eq_cons read
      obtain rfl := rest_eq_of_repeatedReading_nil none_
      exact one
    · intro one
      obtain ⟨limit, isLimit⟩ : ∃ limit, maxIterations = limit + 2 := ⟨999998, rfl⟩
      rw [isLimit]
      exact repeatedReading_cons one (repeatedReading_of_declines atEnd rfl (Nat.succ_pos limit))
  rw [DeclRule.compilationUnit, Rule.reading, reading_seq package, reading_seq imports, ← reading_topLevel,
    ← items]
  simp [Reading.map_eq_matched_iff, Reading.behind_eq_matched_iff]

/-- The tokens declare an enum with this name and these constants, and nothing else. -/
def IsEnum (name : String) (constants : List Constant) (tokens : List Token) : Prop :=
  ∃ keyword word opening inner closing, tokens = keyword :: word :: opening :: (inner ++ [closing]) ∧
    keyword.text = "enum" ∧ word.kind = .identifier ∧ word.text = name ∧ opening.text = "\x7b" ∧
    closing.text = "\x7d" ∧ Listed constants inner

/-- Members between braces are read up to the mark that closes them. -/
theorem reading_classBody_iff (opens : opening.text = "\x7b") {members : List Member} :
    DeclRule.classBody.reading symbol finish (opening :: ts) = .matched members left ↔
      ∃ close, close.text = "\x7d" ∧
        repeatedReading (symbol .member) maxIterations ts = .matched members (close :: left) := by
  have inside {ts : List Token} : (Rule.many (DeclRule.sym .member)).reading symbol finish ts =
      repeatedReading (symbol .member) maxIterations ts := by rw [Rule.reading, DeclRule.sym]; rfl
  rw [DeclRule.classBody, DeclRule.group, Rule.reading]
  simp only [Reading.map_eq_matched_iff, reading_seq_eq_matched_iff, reading_word_eq_matched_iff, inside]
  constructor
  · rintro ⟨⟨⟨⟩, values, ⟨⟩⟩, ⟨_, ⟨token, -, same⟩, middle, read, close, isClose, rfl⟩, rfl⟩
    cases same
    exact ⟨close, isClose, read⟩
  · rintro ⟨close, isClose, read⟩
    exact ⟨((), members, ()), ⟨ts, ⟨opening, opens, rfl⟩, _, read, close, isClose, rfl⟩, rfl⟩

/-- An enum is read exactly if its members are read up to the mark that closes it. -/
theorem reading_enum {word : Token} {bound : Nat} (isEnum : keyword.text = "enum")
    (named : word.kind = .identifier) (opens : opening.text = "\x7b") {pos : Position} {name : String}
    {members : List Member} :
    declarations.reading finish (bound + 5) .compilationUnit (keyword :: word :: opening :: ts) =
        .matched (enumUnit pos name members) [] ↔
      pos = keyword.pos ∧ name = word.text ∧ ∃ close, close.text = "\x7d" ∧
        repeatedReading (declarations.reading finish (bound + 1) .member) maxIterations ts =
          .matched members [close] := by
  have refused {s : Symbol} (depth : Nat) (refuses : ∀ kind, declarations.refuses (.exactly (kind, "enum"))
      depth s = true) (less : Nat) : GivesUp (keyword :: word :: opening :: ts)
        (declarations.reading finish less s (keyword :: word :: opening :: ts)) := by
    have fits : (Glimpse.exactly (keyword.kind, "enum")).Fits reserved keyword.shape :=
      Prod.ext rfl isEnum
    exact (symbol_refused fits depth (refuses _)).declines _ rfl
  have noParams : declarations.reading finish (bound + 2) .parameterList (opening :: ts) = .absent :=
    parameterList_absent (by simp [opens])
  refine (reading_compilationUnit (refused 1 (fun kind => by cases kind <;> decide) (bound + 4))
    (refused 1 (fun kind => by cases kind <;> decide) (bound + 4)) declines_topLevel_nil).trans ?_
  refine (reading_typeDecl (refused 2 (fun kind => by cases kind <;> decide) (bound + 3))).trans ?_
  constructor
  · rintro ⟨spec, read, same⟩
    cases same
    obtain ⟨_, body, same⟩ := (reading_typeSpec isEnum named opens noParams).mp read
    cases same
    obtain ⟨close, isClose, inside⟩ := (reading_classBody_iff opens).mp body
    exact ⟨rfl, rfl, close, isClose, inside⟩
  · rintro ⟨rfl, rfl, close, isClose, inside⟩
    have body : declarations.reading finish (bound + 2) .classBody (opening :: ts) = .matched members [] :=
      (reading_classBody_iff opens).mpr ⟨close, isClose, inside⟩
    exact ⟨_, (reading_typeSpec isEnum named opens noParams).mpr ⟨members, body, rfl⟩, rfl⟩

end File

/-- A text is accepted exactly if its tokens are read as a file. -/
theorem parse_eq_ok_iff {text : String} {tokens : List Token} {finish : Position} {u : CompilationUnit}
    (lexed : lex text.toList = .ok (tokens, finish)) :
    parse text = .ok u ↔
      declarations.reading finish (nesting tokens.length) .compilationUnit tokens = .matched u [] := by
  refine Iff.trans ?_ (declarations.read_eq_ok_iff .compilationUnit tokens finish u)
  rw [parse, lexed]
  dsimp only
  cases declarations.read .compilationUnit tokens finish with
  | ok v =>
    exact ⟨fun same => congrArg Except.ok (Except.ok.inj same), fun same => congrArg Except.ok
      (Except.ok.inj same)⟩
  | error e => exact iff_of_false (by rintro ⟨⟩) (by rintro ⟨⟩)

/-- **The body of an enum.** A text that declares an enum with constants, one after the other with commas
between them, and that has fewer tokens than a rule can be repeated, is read as this enum with these constants
exactly if none of them is to be taken for a constructor: a constant with a body has arguments that are no
parameters, and arguments are parameters in front of no body and of few tokens alone. -/
theorem parse_enum_iff {text name : String} {tokens : List Token} {finish : Position}
    {constants : List Constant} (lexed : lex text.toList = .ok (tokens, finish))
    (few : tokens.length < maxIterations) (isEnum : IsEnum name constants tokens)
    (written : ∀ c ∈ constants, c.IsWritten finish) :
    (∃ pos members, parse text = .ok (enumUnit pos name members) ∧
      List.Forall₂ (Constant.Matches finish) constants members) ↔ ∀ c ∈ constants, c.IsKept finish := by
  obtain ⟨keyword, word, opening, inner, closing, rfl, isKeyword, named, rfl, opens, isClose, listed⟩ := isEnum
  simp only [List.length_cons, List.length_append] at few
  have fit : AllFit Identified (inner ++ [closing]) := fun token member =>
    identified_of_lex lexed token (.tail _ (.tail _ (.tail _ member)))
  obtain ⟨fit, fitClose⟩ := fit.of_append
  have closes : EndsConstant closing := ⟨by simp [isClose], fitClose closing (by simp)⟩
  obtain ⟨bound, isBound, enough⟩ : ∃ bound, nesting (inner.length + 4) = bound + 7 ∧
      nesting inner.length ≤ bound :=
    ⟨nesting (inner.length + 4) - 7, by simp only [nesting]; omega, by simp only [nesting]; omega⟩
  have parsed (pos : Position) (members : List Member) :
      parse text = .ok (enumUnit pos word.text members) ↔ pos = keyword.pos ∧ word.text = word.text ∧
        ∃ close, close.text = "\x7d" ∧
          repeatedReading (declarations.reading finish (bound + 3) .member) maxIterations
            (inner ++ [closing]) = .matched members [close] := by
    refine (parse_eq_ok_iff lexed).trans ?_
    rw [show nesting _ = bound + 2 + 5 by simpa using isBound]
    exact reading_enum isKeyword named opens
  constructor
  · rintro ⟨pos, members, accepted, areConstants⟩
    obtain ⟨-, -, close, -, inside⟩ := (parsed pos members).mp accepted
    exact listed.isKept_of_read written fit closes (by omega) enough inside areConstants
  · intro kept
    have often : constants.length ≤ inner.length := listed.length_le
    obtain ⟨members, inside, areConstants⟩ := listed.read_of_isKept written fit closes isClose (by omega)
      enough [] (by omega : constants.length < maxIterations) kept
    exact ⟨keyword.pos, members, (parsed _ _).mpr ⟨rfl, rfl, closing, isClose, inside⟩, areConstants⟩

/-- A body without members is read. -/
theorem read_emptyBody {opening closing : Token} (opens : opening.text = "\x7b")
    (closes : EndsConstant closing) (isClose : closing.text = "\x7d") (finish : Position) :
    declarations.read .classBody [opening, closing] finish = .ok [] := by
  have noMember := repeatedReading_of_declines (member_declines closes isClose finish 95 []) rfl
    maxIterations_pos
  exact (declarations.read_eq_ok_iff .classBody _ finish _).mpr
    ((reading_classBody_iff opens).mpr ⟨closing, isClose, noMember⟩)

/-- A name in the first line of a text. -/
def nameAt (column : Nat) (text : String) : Token :=
  ⟨.identifier, text, ⟨1, column⟩⟩

/-- A mark in the first line of a text. -/
def markAt (column : Nat) (text : String) : Token :=
  ⟨.punctuation, text, ⟨1, column⟩⟩

theorem endsConstant_markAt (column : Nat) : EndsConstant (markAt column "\x7d") :=
  ⟨by simp [markAt], nofun⟩

/-- A constant that is a name alone. -/
theorem isWritten_bare (finish : Position) {token : Token} (free : IsFreeName token) :
    Constant.IsWritten finish ⟨token, none, none⟩ :=
  ⟨free.named, free.plain, nofun, nofun⟩

/-- Two constants, of which one has an argument and an empty body. -/
def keptConstants : List Constant :=
  [⟨nameAt 10 "A", none, none⟩,
    ⟨nameAt 13 "B", some [markAt 14 "(", ⟨.number, "1", ⟨1, 15⟩⟩, markAt 16 ")"],
      some [markAt 18 "\x7b", markAt 20 "\x7d"]⟩]

theorem parse_enum_iff_kept :
    (∃ tokens, lex "enum E \x7b A, B(1) \x7b \x7d \x7d".toList = .ok (tokens, ⟨1, 23⟩) ∧
      tokens.length < maxIterations ∧ IsEnum "E" keptConstants tokens) ∧
    (∀ c ∈ keptConstants, c.IsWritten ⟨1, 23⟩) ∧ (∀ c ∈ keptConstants, c.IsKept ⟨1, 23⟩) ∧
    ∃ pos members, parse "enum E \x7b A, B(1) \x7b \x7d \x7d" = .ok (enumUnit pos "E" members) ∧
      List.Forall₂ (Constant.Matches ⟨1, 23⟩) keptConstants members := by
  have lexed : lex "enum E \x7b A, B(1) \x7b \x7d \x7d".toList = .ok (nameAt 1 "enum" :: nameAt 6 "E" ::
      markAt 8 "\x7b" :: ([nameAt 10 "A", markAt 11 ",", nameAt 13 "B", markAt 14 "(",
        ⟨.number, "1", ⟨1, 15⟩⟩, markAt 16 ")", markAt 18 "\x7b", markAt 20 "\x7d"] ++
          [markAt 22 "\x7d"]), ⟨1, 23⟩) := by decide
  have listed : Listed keptConstants _ := .more _ (rfl : (markAt 11 ",").text = ",") (.last _)
  have isEnum : IsEnum "E" keptConstants _ :=
    ⟨nameAt 1 "enum", nameAt 6 "E", markAt 8 "\x7b", _, markAt 22 "\x7d", rfl, rfl, rfl, rfl, rfl, rfl, listed⟩
  have written : ∀ c ∈ keptConstants, c.IsWritten ⟨1, 23⟩ := by
    refine List.forall_mem_cons.mpr ⟨isWritten_bare _ ⟨rfl, by decide +kernel⟩, ?_⟩
    refine List.forall_mem_singleton.mpr ⟨rfl, by decide +kernel, ?_, ?_⟩
    · rintro _ ⟨⟩
      exact ⟨_, [⟨.number, "1", ⟨1, 15⟩⟩], _, rfl, rfl, rfl, .token (by decide) .nil⟩
    · rintro _ ⟨⟩
      exact ⟨[], read_emptyBody rfl (endsConstant_markAt _) rfl _⟩
  have kept : ∀ c ∈ keptConstants, c.IsKept ⟨1, 23⟩ := by decide +kernel
  have few : 12 < maxIterations := by decide
  exact ⟨⟨_, lexed, few, isEnum⟩, written, kept, (parse_enum_iff lexed few isEnum written).mpr kept⟩

/-- Two constants, of which one has a body and no arguments. -/
def bodiedConstants : List Constant :=
  [⟨nameAt 10 "A", none, some [markAt 12 "\x7b", markAt 14 "\x7d"]⟩, ⟨nameAt 17 "B", none, none⟩]

/-- **A body without arguments** makes a constructor of the constant, and the comma behind it is one too many:
the enum is not read at all. -/
theorem bodied_not_parsed :
    (∃ tokens, lex "enum E \x7b A \x7b \x7d, B \x7d".toList = .ok (tokens, ⟨1, 20⟩) ∧
      IsEnum "E" bodiedConstants tokens) ∧ (∀ c ∈ bodiedConstants, c.IsWritten ⟨1, 20⟩) ∧
    ∀ u, parse "enum E \x7b A \x7b \x7d, B \x7d" ≠ .ok u := by
  have lexed : lex "enum E \x7b A \x7b \x7d, B \x7d".toList = .ok (nameAt 1 "enum" :: nameAt 6 "E" ::
      markAt 8 "\x7b" :: ([nameAt 10 "A", markAt 12 "\x7b", markAt 14 "\x7d", markAt 15 ",", nameAt 17 "B"] ++
          [markAt 19 "\x7d"]), ⟨1, 20⟩) := by decide +kernel
  have listed : Listed bodiedConstants _ := .more _ (rfl : (markAt 15 ",").text = ",") (.last _)
  refine ⟨⟨_, lexed, _, _, _, _, _, rfl, rfl, rfl, rfl, rfl, rfl, listed⟩, ?_, ?_⟩
  · refine List.forall_mem_cons.mpr ⟨⟨rfl, by decide +kernel, nofun, ?_⟩, ?_⟩
    · rintro _ ⟨⟩
      exact ⟨[], read_emptyBody rfl (endsConstant_markAt _) rfl _⟩
    · exact List.forall_mem_singleton.mpr (isWritten_bare _ ⟨rfl, by decide +kernel⟩)
  · intro u accepted
    have refused : (parse "enum E \x7b A \x7b \x7d, B \x7d").isOk = false := by decide +kernel
    rw [accepted] at refused
    cases refused

end Forwarder.Source
