/-
**The tokens of declarations.** Where the parts of a declaration stand among the tokens that spell it.

* `solid`, `settled` — the constructs that have a token, and those that do not end in a number.
* **`typeSpec_spells`** — the head of a type declaration, clause by clause.
* `Exposes` — a type is spelled somewhere, and no number stands directly in front of it.
* **`typeSpec_spells_of_mem`** — so is every type at the top of a file.
* **`header_spells`** — a header that names an applied type, with the words that lead to it.
* `spells_of_parse` — the tokens of a text that is read spell what it declares.
* `supertypeCount_le` — a file has fewer supertypes than tokens.
-/

import Forwarder.Proofs.Grammar.Spelling
import Forwarder.Proofs.Source.Scanning
import Forwarder.Source.Parse

namespace Forwarder.Source

open Grammar (Rule SpellsAll TokenSet EndsIn maxIterations)

/-! ### Clauses and lists -/

section Lists

variable {σ : Type} {V : σ → Type} {symbol : (s : σ) → V s → List Token → Prop} {α : Type}
  {rule : Rule V α} {values : List α} {ts : List Token}

/-- The tokens are a mark with a value of the rule behind it. -/
def Marked (mark : String) (spells : α → List Token → Prop) (value : α) (ts : List Token) : Prop :=
  ∃ token inner, ts = token :: inner ∧ token.text = mark ∧ spells value inner

theorem after_spells {mark : String} {value : α}
    (spelled : (rule.after mark).Spells symbol value ts) :
    Marked mark (rule.Spells symbol) value ts := by
  simp only [Rule.after, Rule.Spells] at spelled
  obtain ⟨⟨_, _⟩, rfl, front, inner, rfl, ⟨token, rfl, same⟩, one⟩ := spelled
  exact ⟨token, inner, rfl, same, one⟩

/-- A clause is missing, or it is its keyword and the values with marks between them. -/
theorem clause_spells {keyword mark : String}
    (spelled : (Rule.clause keyword mark rule).Spells symbol values ts) :
    (values = [] ∧ ts = []) ∨ ∃ first others token front back,
      values = first :: others ∧ ts = token :: (front ++ back) ∧ token.text = keyword ∧
      rule.Spells symbol first front ∧
      SpellsAll (Marked mark (rule.Spells symbol)) others back := by
  simp only [Rule.clause, Rule.Spells] at spelled
  obtain ⟨_ | ⟨⟨⟩, first, others⟩, rfl, inner⟩ := spelled
  · rw [Rule.Spells] at inner
    exact .inl ⟨rfl, inner⟩
  · simp only [Rule.Spells] at inner
    obtain ⟨_, _, rfl, ⟨token, rfl, same⟩, front, back, rfl, one, -, all⟩ := inner
    exact .inr ⟨first, others, token, front, back, rfl, rfl, same, one,
      all.mono fun _ _ => after_spells⟩

/-- A value of a clause stands behind the keyword or a mark. -/
theorem clause_spells_of_mem {keyword mark : String} (set : TokenSet)
    (spelled : (Rule.clause keyword mark rule).Spells symbol values ts)
    (isKeyword : set.texts keyword = true) (isMark : set.texts mark = true) {value : α}
    (member : value ∈ values) :
    ∃ token front inner back, ts = token :: (front ++ (inner ++ back)) ∧ token.text = keyword ∧
      EndsIn set (token :: front) ∧ rule.Spells symbol value inner := by
  rcases clause_spells spelled with ⟨rfl, _⟩ | ⟨first, others, token, front, back, rfl, rfl, same, one, all⟩
  · exact absurd member List.not_mem_nil
  · rcases List.mem_cons.mp member with rfl | member
    · exact ⟨token, [], front, back, rfl, same, .singleton (.inr (same ▸ isKeyword)), one⟩
    · obtain ⟨-, before, _, after, rfl, -, comma, inner, rfl, isComma, here⟩ := all.split member
      refine ⟨token, front ++ before ++ [comma], inner, after, by simp, same, ?_, here⟩
      rw [← List.cons_append]
      exact (EndsIn.singleton (.inr (isComma ▸ isMark))).append (.inr (List.cons_ne_nil _ _))

/-- A clause has more tokens than values. -/
theorem clause_length_le {keyword mark : String}
    (spelled : (Rule.clause keyword mark rule).Spells symbol values ts) :
    values.length ≤ ts.length := by
  rcases clause_spells spelled with ⟨rfl, rfl⟩ | ⟨first, others, token, front, back, rfl, rfl, -, -, all⟩
  · exact Nat.le_refl 0
  · have more := all.length_le fun value ts ⟨token, inner, split, _⟩ => split ▸ List.cons_ne_nil _ _
    simp only [List.length_cons, List.length_append]
    omega

end Lists

/-! ### Constructs -/

/-- The constructs that have at least one token. -/
def solid (s : Symbol) : Bool :=
  s != .compilationUnit

theorem solid_production (s : Symbol) (isSolid : solid s = true) :
    (declarations.production s).isSolid solid = true := by
  cases s <;> first | rfl | cases isSolid

/-- All tokens but numbers. -/
def unnumeric : TokenSet :=
  ⟨(· != .number), (!looksNumeric ·)⟩

/-- The constructs that do not end in a number. -/
def settled (s : Symbol) : Bool :=
  s != .balanced && s != .chunk

theorem settled_production (s : Symbol) (isSettled : settled s = true) :
    (declarations.production s).endsIn unnumeric solid settled = true := by
  cases s <;> first | decide +kernel | cases isSettled

/-- The tokens spell a construct. -/
def Symbol.Spells (s : Symbol) (value : s.Value) (ts : List Token) : Prop :=
  declarations.Spells s value ts

namespace Symbol.Spells

variable {s : Symbol} {value : s.Value} {ts : List Token}

theorem rule (spelled : s.Spells value ts) : (productions s).Spells Symbol.Spells value ts :=
  Grammar.Language.Spells.rule spelled

theorem ne_nil (spelled : s.Spells value ts) (isSolid : solid s = true) : ts ≠ [] :=
  Grammar.Language.Spells.ne_nil solid_production spelled isSolid

theorem endsIn (spelled : s.Spells value ts) (isSettled : settled s = true) :
    EndsIn unnumeric ts :=
  Grammar.Language.Spells.endsIn solid_production settled_production spelled isSettled

end Symbol.Spells

theorem endsIn_of_rule {α : Type} {rule : DeclRule α} {value : α} {ts : List Token}
    (spelled : rule.Spells Symbol.Spells value ts)
    (ends : rule.endsIn unnumeric solid settled = true) : EndsIn unnumeric ts :=
  Rule.Spells.endsIn (fun _ _ _ spelled => spelled.ne_nil) (fun _ _ _ spelled => spelled.endsIn) rule
    value ts spelled ends

/-- A bracketed repetition: its brackets, and the values between them. -/
theorem group_spells {opening closing : String} {α : Type} {rule : DeclRule α} {values : List α}
    {ts : List Token} (spelled : (DeclRule.group opening closing rule).Spells Symbol.Spells values ts) :
    ∃ first inner last, ts = first :: (inner ++ [last]) ∧ first.text = opening ∧ last.text = closing ∧
      values.length < maxIterations ∧ SpellsAll (rule.Spells Symbol.Spells) values inner := by
  simp only [DeclRule.group, Rule.Spells] at spelled
  obtain ⟨⟨⟨⟩, _, ⟨⟩⟩, rfl, _, _, rfl, ⟨first, rfl, isOpening⟩, inner, _, rfl, ⟨few, all⟩, last, rfl,
    isClosing⟩ := spelled
  exact ⟨first, inner, last, rfl, isOpening, isClosing, few, all⟩

theorem parse_eq_ok {text : String} {u : CompilationUnit} (parsed : parse text = .ok u) :
    ∃ tokens finish, lex text.toList = .ok (tokens, finish) ∧
      declarations.read .compilationUnit tokens finish = .ok u := by
  rw [parse] at parsed
  split at parsed
  · cases parsed
  · next tokens finish lexed =>
    split at parsed
    · cases parsed
    · next read =>
      cases parsed
      exact ⟨tokens, finish, lexed, read⟩

/-- The tokens of a text that is read spell what it declares. -/
theorem spells_of_parse {text : String} {u : CompilationUnit} (parsed : parse text = .ok u) :
    ∃ tokens finish, lex text.toList = .ok (tokens, finish) ∧
      Symbol.Spells .compilationUnit u tokens := by
  obtain ⟨tokens, finish, lexed, read⟩ := parse_eq_ok parsed
  exact ⟨tokens, finish, lexed, Grammar.Language.spells_of_read read⟩

/-! ### Types at the top of a file -/

/-- **A type after its modifiers**, with the stretch of each of its clauses. -/
theorem typeSpec_spells {spec : TypeSpec} {ts : List Token}
    (spelled : Symbol.Spells .typeSpec spec ts) :
    ∃ keyword name params components extended implemented rest,
      ts = keyword :: name :: (params ++ (components ++ (extended ++ (implemented ++ rest)))) ∧
      keyword.text = spec.header.kind.keyword ∧ name.kind = .identifier ∧
      DeclRule.typeParams.Spells Symbol.Spells spec.header.typeParams params ∧
      (Rule.opt (DeclRule.sym .parameterList)).Spells Symbol.Spells spec.header.components
        components ∧
      (DeclRule.typeClause "extends").Spells Symbol.Spells spec.header.extended extended ∧
      (DeclRule.typeClause "implements").Spells Symbol.Spells spec.header.implemented
        implemented ∧
      ∃ permitted body, rest = permitted ++ body ∧
        (DeclRule.typeClause "permits").Spells Symbol.Spells spec.header.permitted permitted ∧
        Symbol.Spells .classBody spec.members body := by
  have rule : DeclRule.typeSpec.Spells Symbol.Spells spec ts := spelled.rule
  rw [DeclRule.typeSpec, Rule.Spells] at rule
  obtain ⟨⟨kind, name, params, components, extended, implemented, permitted, members⟩, rfl, rule⟩ :=
    rule
  simp only [Rule.Spells, DeclRule.ident, DeclRule.sym] at rule
  obtain ⟨_, _, rfl, ⟨-, keyword, rfl, isKeyword⟩, _, _, rfl, ⟨token, rfl, isIdent, -⟩, params, _, rfl,
    isParams, components, _, rfl, isComponents, extended, _, rfl, isExtended, implemented, rest, rfl,
    isImplemented, permitted, body, isRest, isPermitted, isBody⟩ := rule
  exact ⟨keyword, token, params, components, extended, implemented, rest, rfl, isKeyword, isIdent,
    isParams, by simpa only [Rule.Spells, DeclRule.sym] using isComponents, isExtended, isImplemented, permitted, body,
    isRest, isPermitted, isBody⟩

/-- A type with its modifiers. -/
theorem typeDecl_spells {decl : TypeDecl} {ts : List Token}
    (spelled : Symbol.Spells .typeDecl decl ts) :
    ∃ modifiers spec, ts = modifiers ++ spec ∧ EndsIn unnumeric modifiers ∧
      Symbol.Spells .typeSpec decl.spec spec := by
  have rule : DeclRule.typeDecl.Spells Symbol.Spells decl ts := spelled.rule
  rw [DeclRule.typeDecl, Rule.Spells] at rule
  obtain ⟨⟨pos, modifiers, spec⟩, rfl, rule⟩ := rule
  simp only [Rule.Spells, DeclRule.sym] at rule
  obtain ⟨front, back, rfl, ⟨-, all⟩, one⟩ := rule
  exact ⟨front, back, rfl, all.endsIn fun _ _ spelled => spelled.endsIn rfl, one⟩

/-- The stretch of an item at the top of a file. -/
def TopLevelSpells : TopLevel → List Token → Prop
  | .type decl, ts => Symbol.Spells .typeDecl decl ts
  | .semicolon, ts => ∃ token, ts = [token] ∧ token.text = ";"

theorem topLevelSpells_of_spells {item : TopLevel} {ts : List Token}
    (spelled : DeclRule.topLevel.Spells Symbol.Spells item ts) : TopLevelSpells item ts := by
  rw [DeclRule.topLevel, Rule.Spells] at spelled
  obtain ⟨decl | ⟨⟩, rfl, inner⟩ := spelled
  · simpa only [Rule.Spells, Grammar.Choice.Spells, DeclRule.sym, TopLevelSpells] using inner
  · simpa only [Rule.Spells, Grammar.Choice.Spells, TopLevelSpells] using inner

/-- A file: its package, its imports and its items. -/
theorem compilationUnit_parts {u : CompilationUnit} {ts : List Token}
    (spelled : Symbol.Spells .compilationUnit u ts) :
    ∃ front middle items, ts = front ++ (middle ++ items) ∧
      SpellsAll (Symbol.Spells .packageDecl) u.packageDecl.toList front ∧
      SpellsAll (Symbol.Spells .importDecl) u.imports middle ∧
      SpellsAll TopLevelSpells u.items items := by
  have rule : DeclRule.compilationUnit.Spells Symbol.Spells u ts := spelled.rule
  rw [DeclRule.compilationUnit, Rule.Spells] at rule
  obtain ⟨⟨packageDecl, imports, items⟩, rfl, rule⟩ := rule
  simp only [Rule.Spells, DeclRule.sym] at rule
  obtain ⟨front, _, rfl, isPackage, middle, back, rfl, ⟨-, isImports⟩, -, all⟩ := rule
  refine ⟨front, middle, back, rfl, ?_, isImports, all.mono fun _ _ => topLevelSpells_of_spells⟩
  cases packageDecl with
  | none =>
    rw [Rule.Spells] at isPackage
    exact isPackage
  | some name =>
    simp only [Rule.Spells] at isPackage
    exact ⟨front, [], (List.append_nil _).symm, isPackage, rfl⟩

/-- A file: what stands in front of its items, and the items. -/
theorem compilationUnit_spells {u : CompilationUnit} {ts : List Token}
    (spelled : Symbol.Spells .compilationUnit u ts) :
    ∃ front items, ts = front ++ items ∧ EndsIn unnumeric front ∧
      SpellsAll TopLevelSpells u.items items := by
  obtain ⟨front, middle, back, rfl, isPackage, isImports, all⟩ := compilationUnit_parts spelled
  have first : EndsIn unnumeric front := isPackage.endsIn fun _ _ spelled => spelled.endsIn rfl
  have second : EndsIn unnumeric middle := isImports.endsIn fun _ _ spelled => spelled.endsIn rfl
  exact ⟨front ++ middle, back, (List.append_assoc ..).symm, second.append (.inl first), all⟩

theorem topLevelSpells_endsIn {item : TopLevel} {ts : List Token}
    (spelled : TopLevelSpells item ts) : EndsIn unnumeric ts := by
  cases item with
  | type decl => exact spelled.endsIn rfl
  | semicolon =>
    obtain ⟨token, rfl, same⟩ := spelled
    exact .singleton (.inr (same ▸ by decide))

theorem mem_types_iff {u : CompilationUnit} {decl : TypeDecl} :
    decl ∈ u.types ↔ TopLevel.type decl ∈ u.items := by
  rw [CompilationUnit.types, List.mem_filterMap]
  constructor
  · rintro ⟨item, member, same⟩
    cases item with
    | type other =>
      cases same
      exact member
    | semicolon => cases same
  · exact fun member => ⟨_, member, rfl⟩

/-- A stretch of the tokens spells the type, and what stands in front of it does not end in a number. -/
def Exposes (spec : TypeSpec) (ts : List Token) : Prop :=
  ∃ front inner back, ts = front ++ (inner ++ back) ∧ EndsIn unnumeric front ∧
    Symbol.Spells .typeSpec spec inner

section Exposes

variable {spec : TypeSpec} {ts : List Token}

theorem exposes_of_spells (spelled : Symbol.Spells .typeSpec spec ts) : Exposes spec ts :=
  ⟨[], ts, [], (List.append_nil ts).symm, .nil, spelled⟩

theorem Exposes.behind (exposes : Exposes spec ts) {before : List Token}
    (ends : EndsIn unnumeric before) : Exposes spec (before ++ ts) := by
  obtain ⟨front, inner, back, rfl, first, spelled⟩ := exposes
  exact ⟨before ++ front, inner, back, (List.append_assoc ..).symm, first.append (.inl ends), spelled⟩

theorem Exposes.before (exposes : Exposes spec ts) (after : List Token) :
    Exposes spec (ts ++ after) := by
  obtain ⟨front, inner, back, rfl, first, spelled⟩ := exposes
  exact ⟨front, inner, back ++ after, by simp, first, spelled⟩

end Exposes

/-- **A type at the top of a file** stands behind something that does not end in a number. -/
theorem typeSpec_spells_of_mem {u : CompilationUnit} {ts : List Token}
    (spelled : Symbol.Spells .compilationUnit u ts) {decl : TypeDecl}
    (member : decl ∈ u.types) : Exposes decl.spec ts := by
  obtain ⟨head, items, rfl, ends, all⟩ := compilationUnit_spells spelled
  obtain ⟨_, before, _, after, rfl, some_, one⟩ := all.split (mem_types_iff.mp member)
  obtain ⟨modifiers, spec, rfl, inner, isSpec⟩ := typeDecl_spells one
  have first := some_.endsIn fun _ _ => topLevelSpells_endsIn
  exact ((((exposes_of_spells isSpec).behind inner).before after).behind first).behind ends

/-! ### Applied types -/

/-- The last segment of the reference has the name, and a list of type arguments behind it. The list of
the diamond is empty. -/
def TypeRef.AppliesName (ref : TypeRef) (name : String) : Prop :=
  ∃ args, ref.segments.getLast? = some (.applied name args)

instance (ref : TypeRef) (name : String) : Decidable (ref.AppliesName name) :=
  match last : ref.segments.getLast? with
  | none => .isFalse fun ⟨_, absurd⟩ => by rw [last] at absurd; cases absurd
  | some (.plain _) => .isFalse fun ⟨_, absurd⟩ => by rw [last] at absurd; cases absurd
  | some (.applied other args) =>
    if same : other = name then .isTrue ⟨args, same ▸ last⟩
    else .isFalse fun ⟨_, found⟩ => by rw [last] at found; cases found; exact same rfl

/-- A reference with type arguments applies its simple name. -/
theorem TypeRef.appliesName_of_typeArguments {ref : TypeRef} (some_ : ref.typeArguments ≠ []) :
    ref.AppliesName ref.simpleName := by
  rw [TypeRef.typeArguments] at some_
  rw [TypeRef.AppliesName, TypeRef.simpleName]
  cases last : ref.segments.getLast? with
  | none =>
    rw [last] at some_
    exact absurd rfl some_
  | some segment =>
    rw [last] at some_
    cases segment with
    | plain name => exact absurd rfl some_
    | applied name args => exact ⟨args, rfl⟩

/-- A segment with a list of type arguments is its name and an opening bracket. -/
theorem typeSegment_spells {name : String} {args : List TypeRef} {ts : List Token}
    (spelled : Symbol.Spells .typeSegment (.applied name args) ts) :
    ∃ token bracket back, ts = token :: bracket :: back ∧ token.kind = .identifier ∧
      token.text = name ∧ bracket.text = "<" := by
  have rule : DeclRule.typeSegment.Spells Symbol.Spells (.applied name args) ts := spelled.rule
  rw [DeclRule.typeSegment, Rule.Spells] at rule
  obtain ⟨⟨_, _ | args⟩, same, inner⟩ := rule
  · cases same
  · cases same
    simp only [Rule.Spells, DeclRule.ident, DeclRule.sym] at inner
    obtain ⟨_, back, rfl, ⟨token, rfl, isIdent, same⟩, isArgs⟩ := inner
    have rule : DeclRule.typeArgs.Spells Symbol.Spells args back := isArgs.rule
    simp only [DeclRule.typeArgs, Rule.enclosed, Rule.Spells] at rule
    obtain ⟨_, -, _, rest, rfl, ⟨bracket, rfl, isBracket⟩, -⟩ := rule
    exact ⟨token, bracket, rest, rfl, isIdent, same, isBracket⟩

/-- **An applied type** is spelled with its simple name in front of an opening bracket. -/
theorem typeRef_spells {ref : TypeRef} {simple : String} {ts : List Token}
    (spelled : Symbol.Spells .typeRef ref ts) (applies : ref.AppliesName simple) :
    ∃ front name bracket back, ts = front ++ name :: bracket :: back ∧ EndsIn unnumeric front ∧
      name.kind = .identifier ∧ name.text = simple ∧ bracket.text = "<" := by
  obtain ⟨args, applied⟩ := applies
  have rule : DeclRule.typeRef.Spells Symbol.Spells ref ts := spelled.rule
  rw [DeclRule.typeRef, Rule.Spells] at rule
  obtain ⟨⟨annotations, (_ | ⟨bound, _ | type⟩) | ⟨first, others⟩, dims⟩, rfl, inner⟩ := rule
  · cases applied
  · cases applied
  · cases applied
  simp only [Rule.Spells, DeclRule.sym, DeclRule.typeCore, Grammar.Choice.Spells] at inner
  obtain ⟨start, _, rfl, ⟨-, isStart⟩, _, rest, rfl, ⟨head, tail, rfl, isFirst, -, isOthers⟩, -⟩ := inner
  have begins : EndsIn unnumeric start := isStart.endsIn fun _ _ spelled => spelled.endsIn rfl
  rw [TypeRef.segments] at applied
  rcases List.eq_nil_or_concat others with rfl | ⟨middle, last, rfl⟩
  · obtain rfl : first = .applied simple args := Option.some.inj applied
    obtain rfl : tail = [] := isOthers
    obtain ⟨name, bracket, back, rfl, isIdent, same, isBracket⟩ := typeSegment_spells isFirst
    exact ⟨start, name, bracket, back ++ rest, by simp, begins, isIdent, same, isBracket⟩
  · rw [List.concat_eq_append] at isOthers applied
    rw [← List.cons_append, List.getLast?_concat] at applied
    obtain rfl : last = .applied simple args := Option.some.inj applied
    obtain ⟨front, _, rfl, -, _, _, rfl, marked, rfl⟩ := isOthers.of_append
    obtain ⟨point, inner, rfl, isPoint, isLast⟩ := after_spells marked
    obtain ⟨name, bracket, back, rfl, isIdent, same, isBracket⟩ := typeSegment_spells isLast
    refine ⟨start ++ (head ++ (front ++ [point])), name, bracket, back ++ rest, by simp, ?_, isIdent,
      same, isBracket⟩
    rw [← List.append_assoc, ← List.append_assoc]
    exact (EndsIn.singleton (.inr (isPoint ▸ by decide))).append
      (.inr (List.cons_ne_nil _ _))

/-- **The header of a type** that implements an applied type: its keyword, later the word
`implements`, and later the simple name of the applied type with an opening bracket. -/
theorem header_spells {spec : TypeSpec} {ts : List Token}
    (spelled : Symbol.Spells .typeSpec spec ts) {ref : TypeRef} {simple : String}
    (member : ref ∈ spec.header.implemented) (applies : ref.AppliesName simple) :
    ∃ keyword before mark middle name bracket after,
      ts = keyword :: (before ++ mark :: (middle ++ name :: bracket :: after)) ∧
      keyword.text = spec.header.kind.keyword ∧ EndsIn unnumeric (keyword :: before) ∧
      mark.text = "implements" ∧ EndsIn unnumeric (mark :: middle) ∧ name.text = simple ∧
      bracket.text = "<" := by
  obtain ⟨keyword, token, params, components, extended, implemented, rest, rfl, isKeyword, isIdent,
    isParams, isComponents, isExtended, isImplemented, -⟩ := typeSpec_spells spelled
  obtain ⟨mark, front, _, back, rfl, isMark, ends, isRef⟩ :=
    clause_spells_of_mem unnumeric isImplemented (by decide) (by decide) member
  simp only [Rule.Spells, DeclRule.sym] at isRef
  obtain ⟨start, name, bracket, after, rfl, begins, -, isName, isBracket⟩ :=
    typeRef_spells isRef applies
  refine ⟨keyword, token :: (params ++ (components ++ extended)), mark, front ++ start, name, bracket,
    after ++ (back ++ rest), by simp, isKeyword, ?_, isMark, ?_, isName, isBracket⟩
  · have first : EndsIn unnumeric params := endsIn_of_rule isParams (by decide)
    have second : EndsIn unnumeric components := endsIn_of_rule isComponents (by decide)
    have third : EndsIn unnumeric extended := endsIn_of_rule isExtended (by decide)
    have named : EndsIn unnumeric [token] := .singleton (.inl (isIdent ▸ rfl))
    have all := (third.append (.inl second)).append (.inl first)
    exact (all.append (.inl named)).cons (List.cons_ne_nil _ _)
  · rw [← List.cons_append]
    exact begins.append (.inl ends)

/-! ### Supertypes -/

theorem typeSpec_supertypes_le {spec : TypeSpec} {ts : List Token}
    (spelled : Symbol.Spells .typeSpec spec ts) : spec.supertypes.length ≤ ts.length := by
  obtain ⟨keyword, name, params, components, extended, implemented, rest, rfl, -, -, -, -, isExtended,
    isImplemented, -⟩ := typeSpec_spells spelled
  have first := clause_length_le isExtended
  have second := clause_length_le isImplemented
  rw [TypeSpec.supertypes]
  simp only [List.length_cons, List.length_append]
  omega

theorem supertypeCount_le_of_items {packageDecl : Option DottedName} {imports : List ImportDecl}
    {items : List TopLevel} {ts : List Token} (all : SpellsAll TopLevelSpells items ts) :
    (CompilationUnit.mk packageDecl imports items).supertypeCount ≤ ts.length := by
  induction items generalizing ts with
  | nil => exact Nat.zero_le _
  | cons item items ih =>
    obtain ⟨one, others, rfl, isItem, more⟩ := all
    have rest := ih more
    rw [List.length_append]
    cases item with
    | type decl =>
      obtain ⟨modifiers, spec, rfl, -, isSpec⟩ := typeDecl_spells isItem
      have here := typeSpec_supertypes_le isSpec
      simp only [CompilationUnit.supertypeCount, CompilationUnit.types, List.filterMap_cons,
        List.flatMap_cons, List.length_append] at rest ⊢
      omega
    | semicolon =>
      simp only [CompilationUnit.supertypeCount, CompilationUnit.types,
        List.filterMap_cons] at rest ⊢
      omega

/-- **A file has no more supertypes than tokens.** -/
theorem supertypeCount_le {u : CompilationUnit} {ts : List Token}
    (spelled : Symbol.Spells .compilationUnit u ts) : u.supertypeCount ≤ ts.length := by
  obtain ⟨front, back, rfl, -, all⟩ := compilationUnit_spells spelled
  rw [List.length_append]
  exact Nat.le_trans (supertypeCount_le_of_items all) (Nat.le_add_left _ _)

/-- A text that is read declares no more supertypes than it has characters. -/
theorem supertypeCount_le_of_parse {text : String} {u : CompilationUnit}
    (parsed : parse text = .ok u) : u.supertypeCount ≤ text.length := by
  obtain ⟨tokens, finish, lexed, spelled⟩ := spells_of_parse parsed
  exact Nat.le_trans (supertypeCount_le spelled) (length_le_of_lex lexed)

end Forwarder.Source
