/-
**Constants of an enum.** A constant may have arguments and a body. A member is tried as a constructor before
it is tried as a constant, and a constructor is a name too, with parameters that may be missing and a body.

* `Constant` — a constant as it is written; `Constant.Matches` tells which member it is.
* `Constant.IsKept` — it does not read as a constructor.
* `IsFreeName` — a name that the grammar does not ask for starts no block, no type, no method and no field.
* **`IsWritten.givesUp_constructorDecl`** — the constructor is given up exactly if the constant is kept.
* **`IsWritten.member_of_isKept`**, `IsWritten.isKept_of_matches` — so the constant is read as it is written
  exactly if it is kept.
-/

import Forwarder.Proofs.Grammar.Stepwise
import Forwarder.Proofs.Source.Groups
import Forwarder.Proofs.Source.TypeText

namespace Forwarder.Source

open Grammar

/-! ### Constants -/

/-- A constant of an enum as it is written: its name, its arguments with their parentheses and its body with
its braces. -/
structure Constant where
  name : Token
  args : Option (List Token)
  body : Option (List Token)

namespace Constant

/-- The tokens of the constant. -/
def tokens (c : Constant) : List Token :=
  c.name :: (c.args.getD [] ++ c.body.getD [])

/-- The name is an identifier that the grammar does not ask for, all groups in the arguments are closed, and
the members of the body are read. -/
structure IsWritten (finish : Position) (c : Constant) : Prop where
  named : c.name.kind = .identifier
  plain : c.name.text ∉ reserved
  args : ∀ ts ∈ c.args, IsGroup "(" ")" ts
  body : ∀ ts ∈ c.body, ∃ members, declarations.read .classBody ts finish = .ok members

/-- The member is the constant: with its name and place, with arguments that the tokens between the
parentheses spell, and with the members that are read off the body. -/
def Matches (finish : Position) (c : Constant) (member : Member) : Prop :=
  ∃ args members separator,
    member = .declared c.name.pos [] (.enumConstant c.name.text args members separator) ∧
    c.args.Rel (fun ts items => Symbol.Spells .tokenGroup items ts) args ∧
    c.body.Rel (fun ts inner => declarations.read .classBody ts finish = .ok inner) members

/-- Arguments that have come to this as a list of parameters leave the constant a constant. If they are
parameters, no body follows and they are few; if they cease to be, then within the tokens that may be read
twice. -/
def Leaves (body : Option (List Token)) (ts : List Token) : Grammar.Reading (List FormalParameter) → Prop
  | .matched _ _ => body = none ∧ ts.length < State.lookahead
  | .absent => True
  | .failed rest => tooFar ts rest = false

/-- The constant is not taken for a constructor: it has no body without arguments, and its arguments do not
stand in its way as parameters. -/
def IsKept (finish : Position) (c : Constant) : Prop :=
  match c.args with
  | none => c.body = none
  | some ts => Leaves c.body ts (declarations.reading finish (nesting ts.length) .parameterList ts)

instance decidableLeaves (body : Option (List Token)) (ts : List Token)
    (reading : Grammar.Reading (List FormalParameter)) : Decidable (Leaves body ts reading) :=
  match reading with
  | .matched _ _ => inferInstanceAs (Decidable (body = none ∧ ts.length < State.lookahead))
  | .absent => inferInstanceAs (Decidable True)
  | .failed rest => inferInstanceAs (Decidable (tooFar ts rest = false))

instance (finish : Position) (c : Constant) : Decidable (c.IsKept finish) :=
  match c with
  | ⟨_, none, body⟩ => inferInstanceAs (Decidable (body = none))
  | ⟨_, some ts, body⟩ =>
    decidableLeaves body ts (declarations.reading finish (nesting ts.length) .parameterList ts)

end Constant

/-! ### Names of constants -/

section Names

variable {finish : Position} {bound : Nat} {name : String} {after : List Shape} {token next : Token}
  {rest : List Token}

/-- A name that is not continued is read as a type. -/
theorem reads_typeName (plain : name ∉ reserved) (point : NotAhead "." after) (bracket : NotAhead "[" after)
    (angle : NotAhead "<" after) :
    Reads (declarations.reading finish (bound + 3) .typeRef) [Shape.word name] after fun _ => True := by
  have other {mark : String} (asked : mark ∈ reserved) (following : List Shape) :
      NotAhead mark (Shape.word name :: following) :=
    ⟨_, _, rfl, by rintro rfl; exact plain asked⟩
  have segment : Reads ((DeclRule.sym .typeSegment).reading (declarations.reading finish (bound + 2)) finish)
      [Shape.word name] after fun _ => True :=
    (readsCanonical_plain name (bound + 2) after angle (by simp [TypeSegment.shapes]) (Nat.zero_le _)
      (List.forall_mem_nil _)).imp fun _ _ => trivial
  have noMore : Reads ((Rule.many ((DeclRule.sym .typeSegment).after ".")).reading
      (declarations.reading finish (bound + 2)) finish) [] after (· = []) :=
    Reads.none_ point.refused_behind.declines
  have notWildcard : Refused ((DeclRule.sym .wildcard).reading (declarations.reading finish (bound + 2)) finish)
      ([Shape.word name] ++ after) := by
    have marked : Refused ((Rule.word "?" : DeclRule Unit).reading (declarations.reading finish (bound + 1))
        finish) ([Shape.word name] ++ after) := (other (by decide) after).refused_word
    exact marked.seq.shaped
  have core : Reads (DeclRule.typeCore.reading (declarations.reading finish (bound + 2)) finish)
      [Shape.word name] (dimShapes 0 ++ after) fun _ => True :=
    ((Reads.later notWildcard.declines (segment.seq noMore).last false).choice).imp fun _ _ => trivial
  exact (reads_ofCore maxIterations_pos (other (by decide) []) bracket core).imp fun _ _ => trivial

/-- A token that ends the name of a constant. -/
structure EndsName (token : Token) : Prop where
  isMark : token.text ∈ ["(", "\x7b", ",", "\x7d"]
  identified : Identified token.kind token.text

namespace EndsName

theorem text_ne (ends : EndsName next) {text : String} (other : text ∉ ["(", "\x7b", ",", "\x7d"]) :
    next.text ≠ text := by
  rintro rfl
  exact other ends.isMark

theorem kind_ne (ends : EndsName next) : next.kind ≠ .identifier := by
  intro isIdent
  have marks : ∀ mark ∈ ["(", "\x7b", ",", "\x7d"], isIdentifier mark = false := by decide
  have named := ends.identified isIdent
  rw [marks next.text ends.isMark] at named
  cases named

theorem notAhead (ends : EndsName next) {text : String} (other : text ∉ ["(", "\x7b", ",", "\x7d"])
    (rest : List Token) : NotAhead text ((next :: rest).map Token.shape) :=
  ⟨next.shape, rest.map Token.shape, rfl, ends.text_ne other⟩

/-- Behind the name there is no other name. -/
theorem refused_ident (ends : EndsName next) :
    Refused (DeclRule.ident.reading (declarations.reading finish bound) finish)
      ((next :: rest).map Token.shape) :=
  Refused.token ends.kind_ne

end EndsName

/-- A token that ends a constant. -/
structure EndsConstant (token : Token) : Prop where
  isMark : token.text ∈ [",", "\x7d"]
  identified : Identified token.kind token.text

theorem EndsConstant.text_ne (stops : EndsConstant next) {text : String} (other : text ∉ [",", "\x7d"]) :
    next.text ≠ text := by
  rintro rfl
  exact other stops.isMark

theorem EndsConstant.endsName (stops : EndsConstant next) : EndsName next where
  isMark := (by decide : ∀ mark ∈ [",", "\x7d"], mark ∈ ["(", "\x7b", ",", "\x7d"]) _ stops.isMark
  identified := stops.identified

/-- An identifier that the grammar does not ask for. -/
structure IsFreeName (token : Token) : Prop where
  named : token.kind = .identifier
  plain : token.text ∉ reserved

namespace IsFreeName

theorem shape_eq (free : IsFreeName token) : token.shape = Shape.word token.text :=
  Prod.ext free.named rfl

theorem text_ne (free : IsFreeName token) {text : String} (asked : text ∈ reserved) : token.text ≠ text := by
  rintro rfl
  exact free.plain asked

/-- A construct that starts with none of these names. -/
theorem refused (free : IsFreeName token) {s : Symbol} (depth : Nat)
    (refuses : declarations.refuses .plainWord depth s = true) :
    Refused (declarations.reading finish bound s) ((token :: rest).map Token.shape) := by
  have fits : Glimpse.plainWord.Fits reserved token.shape := ⟨free.named, free.plain⟩
  exact symbol_refused fits depth refuses

theorem noTypeParams (free : IsFreeName token)
    {symbol : (s : Symbol) → List Token → Grammar.Reading s.Value} :
    Reads (DeclRule.typeParams.reading symbol finish) [] ((token :: rest).map Token.shape) (· = []) :=
  Reads.noBrackets (Refused.word (free.text_ne (by decide)))

theorem reads_type (free : IsFreeName token) (ends : EndsName next) :
    Reads (declarations.reading finish (bound + 3) .typeRef) [token.shape] ((next :: rest).map Token.shape)
      fun _ => True := by
  rw [free.shape_eq]
  exact reads_typeName free.plain (ends.notAhead (by decide) rest) (ends.notAhead (by decide) rest)
    (ends.notAhead (by decide) rest)

/-- The name is no type of a method. -/
theorem givesUp_methodDecl (free : IsFreeName token) (ends : EndsName next) :
    GivesUp (token :: next :: rest)
      (declarations.reading finish (bound + 4) .methodDecl (token :: next :: rest)) := by
  have stuck : Stuck (declarations.reading finish (bound + 4) .methodDecl) ([] ++ [token.shape])
      ((next :: rest).map Token.shape) :=
    Stuck.shaped (Stuck.seq_second free.noTypeParams
      (Stuck.seq_first (free.reads_type ends).call ends.refused_ident.seq))
  exact stuck.declines (show 1 ≤ State.lookahead by decide) _ rfl

/-- The name is no type of a field. -/
theorem givesUp_fieldDecl (free : IsFreeName token) (ends : EndsName next) :
    GivesUp (token :: next :: rest)
      (declarations.reading finish (bound + 4) .fieldDecl (token :: next :: rest)) := by
  have stuck : Stuck (declarations.reading finish (bound + 4) .fieldDecl) [token.shape]
      ((next :: rest).map Token.shape) :=
    (Stuck.seq_first (free.reads_type ends).call ends.refused_ident.seq).shaped
  exact stuck.declines (show 1 ≤ State.lookahead by decide) _ rfl

/-! ### Members -/

variable {symbol : (s : Symbol) → List Token → Grammar.Reading s.Value}

theorem reading_ident (free : IsFreeName token) (ts : List Token) :
    DeclRule.ident.reading symbol finish (token :: ts) = .matched token.text ts := by
  simp [DeclRule.ident, Rule.reading, singleReading, free.named]

/-- A constructor behind its name and its parameters. -/
theorem reading_constructorDecl (free : IsFreeName token) {ts left : List Token} {ahead : Token}
    {params : Option (List FormalParameter)} (noThrows : ahead.text ≠ "throws")
    (read : (symbol .parameterList ts).optional ts = .matched params (ahead :: left)) :
    DeclRule.constructorDecl.reading symbol finish (token :: ts) =
      (((symbol .block (ahead :: left)).behind (ahead :: left) ([] : List TypeRef)).map
        fun (throws, body) => ⟨[], token.text, params, throws, body⟩) := by
  have typeParams : DeclRule.typeParams.reading symbol finish (token :: ts) = .matched [] (token :: ts) := by
    obtain ⟨_, rfl, matched⟩ := free.noTypeParams [] (token :: ts) rfl rfl
    exact matched
  have throws_ : (DeclRule.typeClause "throws").reading symbol finish (ahead :: left) =
      .matched [] (ahead :: left) := by
    obtain ⟨_, rfl, matched⟩ := Reads.noClause (Refused.word noThrows) [] (ahead :: left) rfl rfl
    exact matched
  have params_ : (Rule.opt (DeclRule.sym .parameterList)).reading symbol finish ts =
      .matched params (ahead :: left) := read
  rw [DeclRule.constructorDecl, Rule.reading, reading_seq typeParams, reading_seq (free.reading_ident ts),
    reading_seq params_, reading_seq throws_, DeclRule.sym, Rule.reading]
  cases symbol .block (ahead :: left) <;> rfl

theorem constructorDecl_matched (free : IsFreeName token) {ts left : List Token} {ahead : Token}
    {params : Option (List FormalParameter)} {body : List Balanced} (noThrows : ahead.text ≠ "throws")
    (read : (symbol .parameterList ts).optional ts = .matched params (ahead :: left))
    (block : symbol .block (ahead :: left) = .matched body rest) :
    DeclRule.constructorDecl.reading symbol finish (token :: ts) =
      .matched ⟨[], token.text, params, [], body⟩ rest := by
  rw [free.reading_constructorDecl noThrows read, block]
  rfl

theorem constructorDecl_bodyless (free : IsFreeName token) {ts left : List Token} {ahead : Token}
    {params : Option (List FormalParameter)} (noThrows : ahead.text ≠ "throws")
    (read : (symbol .parameterList ts).optional ts = .matched params (ahead :: left))
    (noBlock : symbol .block (ahead :: left) = .absent) :
    DeclRule.constructorDecl.reading symbol finish (token :: ts) = .failed (ahead :: left) := by
  rw [free.reading_constructorDecl noThrows read, noBlock]
  rfl

/-- Parameters that are given up too late are not given up. -/
theorem constructorDecl_failed (free : IsFreeName token) {ts left : List Token}
    (failed : (symbol .parameterList ts).optional ts = .failed left) :
    DeclRule.constructorDecl.reading symbol finish (token :: ts) = .failed left := by
  have typeParams : DeclRule.typeParams.reading symbol finish (token :: ts) = .matched [] (token :: ts) := by
    obtain ⟨_, rfl, matched⟩ := free.noTypeParams [] (token :: ts) rfl rfl
    exact matched
  have params : (Rule.opt (DeclRule.sym .parameterList)).reading symbol finish ts = .failed left := failed
  rw [DeclRule.constructorDecl, Rule.reading, reading_seq typeParams, reading_seq (free.reading_ident ts),
    Rule.reading, params]
  rfl

/-- A constant behind its name, its arguments and its body. -/
theorem reading_enumConstant (free : IsFreeName token) {ts middle left : List Token}
    {args : Option (List Balanced)} {members : Option (List Member)} {separator : Option Separator}
    (argsRead : (symbol .tokenGroup ts).optional ts = .matched args middle)
    (bodyRead : (symbol .classBody middle).optional middle = .matched members left)
    (separatorRead : (pickReading Separator.all Separator.text left).optional left =
      .matched separator rest) :
    DeclRule.enumConstant.reading symbol finish (token :: ts) =
      .matched (token.text, args, members, separator) rest := by
  have args_ : (Rule.opt (DeclRule.sym .tokenGroup)).reading symbol finish ts = .matched args middle := argsRead
  have body_ : (Rule.opt (DeclRule.sym .classBody)).reading symbol finish middle = .matched members left :=
    bodyRead
  have separator_ : (Rule.opt (.pick Separator.all Separator.text)).reading symbol finish left =
      .matched separator rest := separatorRead
  rw [DeclRule.enumConstant, reading_seq (free.reading_ident ts), reading_seq args_, reading_seq body_,
    separator_]
  rfl

end IsFreeName

/-! ### What a member declares -/

section MemberDecl

variable {symbol : (s : Symbol) → List Token → Grammar.Reading s.Value} {ts : List Token}

/-- What a member declares if it is no block, no type and no method. -/
def lateDecl : ConstructorDecl ⊕ FieldDecl ⊕
    (String × Option (List Balanced) × Option (List Member) × Option Separator) → MemberDecl
  | .inl constructor => .constructor constructor
  | .inr (.inl field) => .field field
  | .inr (.inr (name, args, body, separator)) => .enumConstant name args body separator

/-- The last three alternatives for what a member declares. -/
def lateChoice : Choice Symbol.Value (ConstructorDecl ⊕ FieldDecl ⊕
    (String × Option (List Balanced) × Option (List Member) × Option Separator)) :=
  .or (DeclRule.sym .constructorDecl) (.or (DeclRule.sym .fieldDecl) (.last (DeclRule.sym .enumConstant)))

variable (finish) in
theorem reading_memberDecl (noBlock : GivesUp ts (symbol .block ts))
    (noType : GivesUp ts (symbol .typeSpec ts)) (noMethod : GivesUp ts (symbol .methodDecl ts)) :
    ∃ blamed, DeclRule.memberDecl.reading symbol finish ts =
      (lateChoice.reading symbol finish blamed ts).map lateDecl := by
  obtain ⟨first, noBlock⟩ := choice_of_givesUp (DeclRule.sym .block)
    (.or (DeclRule.sym .typeSpec) (.or (DeclRule.sym .methodDecl) lateChoice)) noBlock false
  obtain ⟨second, noType⟩ := choice_of_givesUp (DeclRule.sym .typeSpec)
    (.or (DeclRule.sym .methodDecl) lateChoice) noType first
  obtain ⟨third, noMethod⟩ := choice_of_givesUp (DeclRule.sym .methodDecl) lateChoice noMethod second
  refine ⟨third, ?_⟩
  rw [DeclRule.memberDecl, Rule.reading, Rule.reading]
  rw [lateChoice] at noBlock noType noMethod ⊢
  rw [noBlock, noType, noMethod]
  generalize Choice.reading _ _ _ _ _ = reading
  rcases reading with ⟨_ | _ | _, _⟩ | _ | _ <;> rfl

/-- A constant is what is left if it is no constructor and no field. -/
theorem reading_lateChoice {constant : Symbol.enumConstant.Value} {left : List Token}
    (noConstructor : GivesUp ts (symbol .constructorDecl ts)) (noField : GivesUp ts (symbol .fieldDecl ts))
    (isConstant : symbol .enumConstant ts = .matched constant left) (blamed : Bool) :
    lateChoice.reading symbol finish blamed ts = .matched (.inr (.inr constant)) left := by
  obtain ⟨first, noConstructor⟩ := choice_of_givesUp (DeclRule.sym .constructorDecl)
    (.or (DeclRule.sym .fieldDecl) (.last (DeclRule.sym .enumConstant))) noConstructor blamed
  obtain ⟨second, noField⟩ := choice_of_givesUp (DeclRule.sym .fieldDecl)
    (.last (DeclRule.sym .enumConstant)) noField first
  rw [lateChoice, noConstructor, noField, Choice.reading, DeclRule.sym, Rule.reading, isConstant]
  rfl

end MemberDecl

section Member

variable {symbol : (s : Symbol) → List Token → Grammar.Reading s.Value} {ts left : List Token}

/-- **A member without modifiers** is what it declares, at the place of its first token. -/
theorem reading_member (free : IsFreeName token)
    (noModifier : GivesUp (token :: ts) (symbol .modifier (token :: ts))) {member : Member} :
    DeclRule.member.reading symbol finish (token :: ts) = .matched member left ↔
      ∃ decl, symbol .memberDecl (token :: ts) = .matched decl left ∧ member = .declared token.pos [] decl := by
  have notEmpty : GivesUp (token :: ts)
      ((Rule.word ";" : DeclRule Unit).reading symbol finish (token :: ts)) := by
    refine .inl ?_
    simp [Rule.reading, singleReading, free.text_ne (by decide : ";" ∈ reserved)]
  have modifiers : (Rule.many (DeclRule.sym .modifier)).reading symbol finish (token :: ts) =
      .matched [] (token :: ts) := reading_many_of_givesUp noModifier
  obtain ⟨blamed, others⟩ := choice_of_givesUp (Rule.word ";")
    (.last (.seq (.many (DeclRule.sym .modifier)) (DeclRule.sym .memberDecl))) notEmpty false
  rw [DeclRule.member, Rule.reading, Rule.reading, Rule.reading, others]
  simp only [Reading.map_eq_matched_iff, reading_last_eq_matched_iff, reading_seq modifiers,
    Reading.behind_eq_matched_iff]
  simp only [placeOf, ↓existsAndEq, and_true]
  exact Iff.rfl

end Member

end Names

/-! ### What stands behind the name of a constant -/

theorem IsGroup.head {opening closing : String} {ts : List Token} (isGroup : IsGroup opening closing ts) :
    ∃ first others, ts = first :: others ∧ first.text = opening := by
  obtain ⟨first, inner, last, rfl, isFirst, -⟩ := isGroup
  exact ⟨first, inner ++ [last], rfl, isFirst⟩

namespace Constant

section Tail

variable {c : Constant} {finish : Position} {bound : Nat} {stop : Token} {left : List Token}

theorem tokens_append (c : Constant) (rest : List Token) :
    c.tokens ++ rest = c.name :: (c.args.getD [] ++ (c.body.getD [] ++ rest)) := by
  rw [tokens, List.cons_append, List.append_assoc]

namespace IsWritten

theorem free (written : c.IsWritten finish) : IsFreeName c.name :=
  ⟨written.named, written.plain⟩

theorem body_isGroup (written : c.IsWritten finish) (fit : AllFit Identified c.tokens) {ts : List Token}
    (isBody : c.body = some ts) : IsGroup "\x7b" "\x7d" ts := by
  obtain ⟨members, read⟩ := written.body ts isBody
  obtain ⟨-, fit⟩ := List.forall_mem_cons.mp fit
  have fitBody := (AllFit.of_append fit).2
  rw [isBody] at fitBody
  exact isGroup_of_spells (Language.spells_of_read read) fitBody

/-- Behind the arguments there is a token that ends the name, and that starts no arguments. -/
theorem ahead_body (written : c.IsWritten finish) (fit : AllFit Identified c.tokens) (stops : EndsConstant stop)
    (rest : List Token) :
    ∃ next others, c.body.getD [] ++ stop :: rest = next :: others ∧ EndsName next ∧ next.text ≠ "(" := by
  cases isBody : c.body with
  | none => exact ⟨stop, rest, rfl, stops.endsName, stops.text_ne (by decide)⟩
  | some ts =>
    obtain ⟨first, others, rfl, isFirst⟩ := (written.body_isGroup fit isBody).head
    have fitFirst : Identified first.kind first.text := fit first (by simp [tokens, isBody])
    exact ⟨first, others ++ stop :: rest, rfl, ⟨by simp [isFirst], fitFirst⟩, by simp [isFirst]⟩

/-- Behind the name there is a token that ends it. -/
theorem ahead (written : c.IsWritten finish) (fit : AllFit Identified c.tokens) (stops : EndsConstant stop)
    (rest : List Token) :
    ∃ next others, c.args.getD [] ++ (c.body.getD [] ++ stop :: rest) = next :: others ∧ EndsName next := by
  cases isArgs : c.args with
  | none =>
    obtain ⟨next, others, same, ends, -⟩ := written.ahead_body fit stops rest
    exact ⟨next, others, same, ends⟩
  | some ts =>
    obtain ⟨first, others, rfl, isFirst⟩ := (written.args ts isArgs).head
    refine ⟨first, others ++ (c.body.getD [] ++ stop :: rest), rfl, by simp [isFirst], fit first ?_⟩
    simp [tokens, isArgs]

/-- The arguments are read as they are written. -/
theorem args_read (written : c.IsWritten finish) (fit : AllFit Identified c.tokens) (stops : EndsConstant stop)
    (few : c.tokens.length < maxIterations) (enough : nesting c.tokens.length ≤ bound) (rest : List Token) :
    ∃ args, (declarations.reading finish bound .tokenGroup
        (c.args.getD [] ++ (c.body.getD [] ++ stop :: rest))).optional
          (c.args.getD [] ++ (c.body.getD [] ++ stop :: rest)) =
        .matched args (c.body.getD [] ++ stop :: rest) ∧
      c.args.Rel (fun ts items => Symbol.Spells .tokenGroup items ts) args := by
  cases isArgs : c.args with
  | none =>
    obtain ⟨next, others, same, -, noArgs⟩ := written.ahead_body fit stops rest
    have absent : declarations.reading finish bound .tokenGroup (c.body.getD [] ++ stop :: rest) = .absent := by
      rw [same]
      exact tokenGroup_absent noArgs
    refine ⟨none, ?_, .none⟩
    rw [Option.getD_none, List.nil_append, absent, Reading.optional]
  | some ts =>
    have shorter : ts.length ≤ c.tokens.length := by simp [tokens, isArgs]; omega
    have within : 2 * ts.length ≤ bound := by
      rw [nesting] at enough
      omega
    have isSmall := (written.args ts isArgs).isSmall (by omega)
    obtain ⟨items, read⟩ := reading_tokenGroup isSmall within finish (c.body.getD [] ++ stop :: rest)
    obtain ⟨front, split, spelled⟩ := declarations.spellsWithin_of_reading finish bound _ _ _ _ read
    obtain rfl := List.append_cancel_right split
    refine ⟨some items, ?_, .some ⟨bound, spelled⟩⟩
    rw [Option.getD_some, read, Reading.optional]

/-- The body is read as it is written. -/
theorem body_read (written : c.IsWritten finish) (fit : AllFit Identified c.tokens) (stops : EndsConstant stop)
    (enough : nesting c.tokens.length ≤ bound) (rest : List Token) :
    ∃ members, (declarations.reading finish bound .classBody (c.body.getD [] ++ stop :: rest)).optional
          (c.body.getD [] ++ stop :: rest) = .matched members (stop :: rest) ∧
      c.body.Rel (fun ts inner => declarations.read .classBody ts finish = .ok inner) members := by
  cases isBody : c.body with
  | none =>
    refine ⟨none, ?_, .none⟩
    rw [Option.getD_none, List.nil_append, classBody_absent (stops.text_ne (by decide)), Reading.optional]
  | some ts =>
    obtain ⟨members, read⟩ := written.body ts isBody
    have within : nesting ts.length ≤ bound := by
      have few : ts.length ≤ c.tokens.length := by simp [tokens, isBody]; omega
      rw [nesting] at enough ⊢
      omega
    have fitBody : AllFit Identified ts := fun token member => fit token (by simp [tokens, isBody, member])
    refine ⟨some members, ?_, .some read⟩
    rw [Option.getD_some, reading_classBody read fitBody within, Reading.optional]

/-- The constant is read as a constant where nothing else is tried. -/
theorem enumConstant_read (written : c.IsWritten finish) (fit : AllFit Identified c.tokens)
    (stops : EndsConstant stop) (few : c.tokens.length < maxIterations)
    (enough : nesting c.tokens.length ≤ bound) {separator : Option Separator}
    {rest : List Token}
    (separatorRead : (pickReading Separator.all Separator.text (stop :: rest)).optional (stop :: rest) =
      .matched separator left) :
    ∃ args members, declarations.reading finish (bound + 1) .enumConstant (c.tokens ++ stop :: rest) =
        .matched (c.name.text, args, members, separator) left ∧
      c.Matches finish (.declared c.name.pos [] (.enumConstant c.name.text args members separator)) := by
  obtain ⟨args, argsRead, argsRel⟩ := written.args_read fit stops few enough rest
  obtain ⟨members, bodyRead, bodyRel⟩ := written.body_read fit stops enough rest
  refine ⟨args, members, ?_, args, members, separator, rfl, argsRel, bodyRel⟩
  rw [tokens_append]
  exact written.free.reading_enumConstant argsRead bodyRead separatorRead

end IsWritten

/-! ### Constants and constructors -/

/-- Behind parameters that are read, a constructor is given up if there is no body and the parameters are
few. -/
theorem IsWritten.givesUp_behind_params (written : c.IsWritten finish) (fit : AllFit Identified c.tokens)
    (stops : EndsConstant stop) (few : c.tokens.length < maxIterations)
    (enough : nesting c.tokens.length ≤ bound) {ts rest : List Token} {params : Option (List FormalParameter)}
    (read : (declarations.reading finish bound .parameterList ts).optional ts =
      .matched params (c.body.getD [] ++ stop :: rest)) :
    GivesUp (c.name :: ts) (declarations.reading finish (bound + 1) .constructorDecl (c.name :: ts)) ↔
      c.body = none ∧ tooFar (c.name :: ts) (c.body.getD [] ++ stop :: rest) = false := by
  obtain ⟨next, others, same, ends, -⟩ := written.ahead_body fit stops rest
  have noThrows : next.text ≠ "throws" := ends.text_ne (by decide)
  rw [same] at read
  cases isBody : c.body with
  | none =>
    rw [isBody] at same
    have noBlock : declarations.reading finish bound .block (next :: others) = .absent := by
      rw [← same]
      exact block_absent (stops.text_ne (by decide))
    have failed : declarations.reading finish (bound + 1) .constructorDecl (c.name :: ts) =
        .failed (next :: others) :=
      written.free.constructorDecl_bodyless noThrows read noBlock
    rw [failed, ← same, givesUp_failed]
    exact ⟨fun near => ⟨rfl, near⟩, fun kept => kept.2⟩
  | some body =>
    rw [isBody] at same
    have shorter : body.length ≤ c.tokens.length := by simp [tokens, isBody]; omega
    have within : 2 * body.length ≤ bound := by
      rw [nesting] at enough
      omega
    have isSmall := (written.body_isGroup fit isBody).isSmall (by omega)
    obtain ⟨items, block⟩ := reading_block isSmall within finish (stop :: rest)
    rw [show body ++ stop :: rest = next :: others from same] at block
    have matched : declarations.reading finish (bound + 1) .constructorDecl (c.name :: ts) =
        .matched ⟨[], c.name.text, params, [], items⟩ (stop :: rest) :=
      written.free.constructorDecl_matched noThrows read block
    rw [matched]
    exact iff_of_false givesUp_matched fun kept => absurd kept.1 (Option.some_ne_none body)

/-- Where parameters are given up in front of a parenthesis, there is no constructor. -/
theorem IsWritten.givesUp_without_params (written : c.IsWritten finish) {ts more : List Token}
    (isGroup : IsGroup "(" ")" ts)
    (read : (declarations.reading finish bound .parameterList (ts ++ more)).optional (ts ++ more) =
      .matched none (ts ++ more)) :
    GivesUp (c.name :: (ts ++ more))
      (declarations.reading finish (bound + 1) .constructorDecl (c.name :: (ts ++ more))) := by
  obtain ⟨first, others, rfl, isFirst⟩ := isGroup.head
  have noBlock : declarations.reading finish bound .block (first :: others ++ more) = .absent :=
    block_absent (by simp [isFirst])
  have failed : declarations.reading finish (bound + 1) .constructorDecl
      (c.name :: (first :: others ++ more)) = .failed (first :: others ++ more) :=
    written.free.constructorDecl_bodyless (by simp [isFirst]) read noBlock
  rw [failed]
  exact givesUp_failed.mpr (near_cons _ _)

/-- **A constant is no constructor** exactly if it is to be kept. -/
theorem IsWritten.givesUp_constructorDecl (written : c.IsWritten finish) (fit : AllFit Identified c.tokens)
    (stops : EndsConstant stop) (few : c.tokens.length < maxIterations)
    (enough : nesting c.tokens.length ≤ bound) (rest : List Token) :
    GivesUp (c.tokens ++ stop :: rest)
        (declarations.reading finish (bound + 1) .constructorDecl (c.tokens ++ stop :: rest)) ↔
      c.IsKept finish := by
  rw [tokens_append]
  cases isArgs : c.args with
  | none =>
    obtain ⟨next, others, same, -, noArgs⟩ := written.ahead_body fit stops rest
    have missing : (declarations.reading finish bound .parameterList (c.body.getD [] ++ stop :: rest)).optional
        (c.body.getD [] ++ stop :: rest) = .matched none (c.body.getD [] ++ stop :: rest) := by
      rw [same, parameterList_absent noArgs]
      rfl
    rw [Option.getD_none, List.nil_append, written.givesUp_behind_params fit stops few enough missing]
    simp [IsKept, isArgs, near_cons]
  | some ts =>
    have isGroup := written.args ts isArgs
    have within : nesting ts.length ≤ bound := by
      have few : ts.length ≤ c.tokens.length := by simp [tokens, isArgs]; omega
      rw [nesting] at enough ⊢
      omega
    have fitArgs : AllFit Identified ts := fun token member => fit token (by simp [tokens, isArgs, member])
    obtain ⟨whole, leavesNothing⟩ := parameterList_append isGroup fitArgs within finish
      (c.body.getD [] ++ stop :: rest)
    simp only [Option.getD_some, IsKept, isArgs]
    cases alone : declarations.reading finish (nesting ts.length) .parameterList ts with
    | matched params left =>
      obtain rfl := leavesNothing params left alone
      have read : (declarations.reading finish bound .parameterList
          (ts ++ (c.body.getD [] ++ stop :: rest))).optional (ts ++ (c.body.getD [] ++ stop :: rest)) =
          .matched (some params) (c.body.getD [] ++ stop :: rest) := by
        rw [whole, alone]
        rfl
      rw [written.givesUp_behind_params fit stops few enough read]
      simp only [tooFar, decide_eq_false_iff_not, List.length_cons, List.length_append]
      refine and_congr_right fun _ => ?_
      omega
    | absent =>
      refine iff_of_true (written.givesUp_without_params isGroup ?_) trivial
      rw [whole, alone]
      rfl
    | failed left =>
      rw [alone, Reading.before] at whole
      have same : tooFar (ts ++ (c.body.getD [] ++ stop :: rest)) (left ++ (c.body.getD [] ++ stop :: rest)) =
          tooFar ts left := tooFar_append ..
      cases near : tooFar ts left with
      | false =>
        refine iff_of_true (written.givesUp_without_params isGroup ?_) near
        rw [whole]
        simp only [Reading.optional, givenUp, same, near, Bool.false_eq_true, if_false]
      | true =>
        have failed : declarations.reading finish (bound + 1) .constructorDecl
            (c.name :: (ts ++ (c.body.getD [] ++ stop :: rest))) =
            .failed (left ++ (c.body.getD [] ++ stop :: rest)) := by
          refine written.free.constructorDecl_failed ?_
          rw [whole]
          simp only [Reading.optional, givenUp, same, near, if_true]
        simp only [failed, givesUp_failed, tooFar_cons (same.trans near), Leaves, near]

/-! ### Constants as members -/

/-- The name of a constant starts no block, no type and no method, so it is left to the last alternatives. -/
theorem IsWritten.reading_member (written : c.IsWritten finish) (fit : AllFit Identified c.tokens)
    (stops : EndsConstant stop) (enough : nesting c.tokens.length ≤ bound) (rest : List Token) :
    ∃ blamed, ∀ member left,
      declarations.reading finish (bound + 3) .member (c.tokens ++ stop :: rest) = .matched member left ↔
        ∃ value, lateChoice.reading (declarations.reading finish (bound + 1)) finish blamed
            (c.tokens ++ stop :: rest) = .matched value left ∧
          member = .declared c.name.pos [] (lateDecl value) := by
  have free := written.free
  obtain ⟨next, others, same, ends⟩ := written.ahead fit stops rest
  obtain ⟨bound, rfl⟩ : ∃ less, bound = less + 3 := ⟨bound - 3, by rw [nesting] at enough; omega⟩
  have noModifier : GivesUp (c.name :: next :: others)
      (declarations.reading finish (bound + 5) .modifier (c.name :: next :: others)) :=
    (free.refused 2 (by decide)).declines _ rfl
  have noBlock : GivesUp (c.name :: next :: others)
      (declarations.reading finish (bound + 4) .block (c.name :: next :: others)) :=
    .inl (block_absent (free.text_ne (by decide)))
  have noType : GivesUp (c.name :: next :: others)
      (declarations.reading finish (bound + 4) .typeSpec (c.name :: next :: others)) :=
    (free.refused 2 (by decide)).declines _ rfl
  obtain ⟨blamed, decl⟩ := reading_memberDecl finish noBlock noType
    (free.givesUp_methodDecl ends)
  refine ⟨blamed, fun member left => ?_⟩
  rw [tokens_append, same]
  have declared : declarations.reading finish (bound + 5) .memberDecl (c.name :: next :: others) =
      (lateChoice.reading (declarations.reading finish (bound + 4)) finish blamed
        (c.name :: next :: others)).map lateDecl := decl
  refine (Source.reading_member free noModifier).trans ?_
  rw [declared]
  constructor
  · rintro ⟨_, matched, rfl⟩
    obtain ⟨value, rfl, late⟩ := Reading.map_eq_matched matched
    exact ⟨value, late, rfl⟩
  · rintro ⟨value, late, rfl⟩
    exact ⟨lateDecl value, by rw [late]; rfl, rfl⟩

/-- **A constant that is kept** is read as it is written. -/
theorem IsWritten.member_of_isKept (written : c.IsWritten finish) (fit : AllFit Identified c.tokens)
    (stops : EndsConstant stop) (few : c.tokens.length < maxIterations)
    (enough : nesting c.tokens.length ≤ bound) {rest : List Token} {separator : Option Separator}
    (separatorRead : (pickReading Separator.all Separator.text (stop :: rest)).optional (stop :: rest) =
      .matched separator left) (isKept : c.IsKept finish) :
    ∃ member, declarations.reading finish (bound + 3) .member (c.tokens ++ stop :: rest) =
      .matched member left ∧ c.Matches finish member := by
  obtain ⟨args, members, read, isConstant⟩ := written.enumConstant_read fit stops few enough separatorRead
  obtain ⟨blamed, member⟩ := written.reading_member fit stops enough rest
  refine ⟨_, (member _ _).mpr ⟨.inr (.inr (c.name.text, args, members, separator)), ?_, rfl⟩, isConstant⟩
  have noField : GivesUp (c.tokens ++ stop :: rest)
      (declarations.reading finish (bound + 1) .fieldDecl (c.tokens ++ stop :: rest)) := by
    obtain ⟨next, others, same, ends⟩ := written.ahead fit stops rest
    obtain ⟨bound, rfl⟩ : ∃ less, bound = less + 3 := ⟨bound - 3, by rw [nesting] at enough; omega⟩
    rw [tokens_append, same]
    exact written.free.givesUp_fieldDecl ends
  exact reading_lateChoice ((written.givesUp_constructorDecl fit stops few enough rest).mpr isKept) noField read
    blamed

/-- A constant that is read as it is written has been kept. -/
theorem IsWritten.isKept_of_matches (written : c.IsWritten finish) (fit : AllFit Identified c.tokens)
    (stops : EndsConstant stop) (few : c.tokens.length < maxIterations)
    (enough : nesting c.tokens.length ≤ bound) {rest : List Token} {member : Member}
    (read : declarations.reading finish (bound + 3) .member (c.tokens ++ stop :: rest) = .matched member left)
    (isConstant : c.Matches finish member) : c.IsKept finish := by
  by_contra notKept
  have keeps : ¬GivesUp (c.tokens ++ stop :: rest)
      ((DeclRule.sym .constructorDecl).reading (declarations.reading finish (bound + 1)) finish
        (c.tokens ++ stop :: rest)) :=
    fun gives => notKept ((written.givesUp_constructorDecl fit stops few enough rest).mp gives)
  obtain ⟨blamed, isMember⟩ := written.reading_member fit stops enough rest
  obtain ⟨value, late, rfl⟩ := (isMember member left).mp read
  obtain ⟨constructor, rfl⟩ := eq_inl_of_not_givesUp keeps late
  obtain ⟨args, members, separator, same, -⟩ := isConstant
  cases same

end Tail

end Constant

end Forwarder.Source
