/-
**The types inside types.** All the types that a file declares, at its top and in the bodies of others,
and where their tokens stand.

* `TypeSpec.specs`, `CompilationUnit.specs` — the declared types, at any depth. The bodies of methods and
  the initializers are not read, so what they declare is not among them.
* `exposes_members` — a type in a body is spelled in it, and no number stands directly in front of it.
* **`exposes_specs`** — so is every type that a file declares.
-/

import Forwarder.Proofs.Source.Derivation

namespace Forwarder.Source

open Grammar (Rule SpellsAll EndsIn)

/-! ### Declared types -/

mutual

/-- The types that a member declares. -/
def Member.specs : Member → List TypeSpec
  | .empty _ => []
  | .declared _ _ decl => decl.specs

/-- The types in what a member declares. -/
def MemberDecl.specs : MemberDecl → List TypeSpec
  | .type header members => ⟨header, members⟩ :: membersSpecs members
  | .enumConstant _ _ body _ => bodySpecs body
  | .initializer _ | .method _ | .constructor _ | .field _ => []

/-- The types that members declare. -/
def membersSpecs : List Member → List TypeSpec
  | [] => []
  | member :: others => member.specs ++ membersSpecs others

/-- The types in a body that may be missing. -/
def bodySpecs : Option (List Member) → List TypeSpec
  | none => []
  | some members => membersSpecs members

end

/-- A type and the types inside it. -/
def TypeSpec.specs (t : TypeSpec) : List TypeSpec :=
  t :: membersSpecs t.members

/-- **The types of a file**, those inside others included. -/
def CompilationUnit.specs (u : CompilationUnit) : List TypeSpec :=
  u.types.flatMap fun decl => decl.spec.specs

theorem mem_specs_of_types {u : CompilationUnit} {decl : TypeDecl} (member : decl ∈ u.types) :
    decl.spec ∈ u.specs :=
  List.mem_flatMap.mpr ⟨decl, member, List.mem_cons_self⟩

/-! ### Their tokens -/

section Inner

variable {ts : List Token}

/-- A member that declares something: its modifiers, and what it declares. -/
theorem declared_spells {pos : Position} {modifiers : List Modifier} {decl : MemberDecl}
    (spelled : Symbol.Spells .member (.declared pos modifiers decl) ts) :
    ∃ front back, ts = front ++ back ∧ EndsIn unnumeric front ∧
      Symbol.Spells .memberDecl decl back := by
  have rule : DeclRule.member.Spells Symbol.Spells (.declared pos modifiers decl) ts := spelled.rule
  rw [DeclRule.member, Rule.Spells] at rule
  obtain ⟨⟨_, ⟨⟩ | ⟨_, _⟩⟩, same, inner⟩ := rule
  · cases same
  · cases same
    simp only [Rule.Spells, Grammar.Choice.Spells, DeclRule.sym] at inner
    obtain ⟨front, back, rfl, ⟨-, all⟩, one⟩ := inner
    exact ⟨front, back, rfl, all.endsIn fun _ _ spelled => spelled.endsIn rfl, one⟩

/-- A type among the members. -/
theorem type_spells {header : TypeHeader} {members : List Member}
    (spelled : Symbol.Spells .memberDecl (.type header members) ts) :
    Symbol.Spells .typeSpec ⟨header, members⟩ ts := by
  have rule : DeclRule.memberDecl.Spells Symbol.Spells (.type header members) ts := spelled.rule
  rw [DeclRule.memberDecl, Rule.Spells] at rule
  obtain ⟨body | spec | m | constructor | field | constant, same, inner⟩ := rule <;> cases same
  simpa only [Rule.Spells, Grammar.Choice.Spells, DeclRule.sym] using inner

/-- An enum constant with a body: what stands in front of the body ends in a name or in an argument
list. -/
theorem enumConstant_spells {name : String} {args : Option (List Balanced)} {members : List Member}
    {separator : Option Separator}
    (spelled : Symbol.Spells .memberDecl (.enumConstant name args (some members) separator) ts) :
    ∃ front body back, ts = front ++ (body ++ back) ∧ EndsIn unnumeric front ∧
      Symbol.Spells .classBody members body := by
  have rule : DeclRule.memberDecl.Spells Symbol.Spells
    (.enumConstant name args (some members) separator) ts := spelled.rule
  rw [DeclRule.memberDecl, Rule.Spells] at rule
  obtain ⟨body | spec | m | constructor | field | ⟨_, _, _, _⟩, same, inner⟩ := rule <;> cases same
  simp only [Rule.Spells, Grammar.Choice.Spells, DeclRule.sym] at inner
  have rule : DeclRule.enumConstant.Spells Symbol.Spells (name, args, some members, separator) ts :=
    inner.rule
  simp only [DeclRule.enumConstant, DeclRule.ident, DeclRule.sym, Rule.Spells] at rule
  obtain ⟨_, _, rfl, ⟨token, rfl, isIdent, -⟩, front, _, rfl, isArgs, body, back, rfl, isBody, -⟩ := rule
  have named : EndsIn unnumeric [token] := .singleton (.inl (isIdent ▸ rfl))
  have ends : EndsIn unnumeric front := by
    cases args with
    | none =>
      rw [Rule.Spells] at isArgs
      exact isArgs ▸ .nil
    | some args =>
      simp only [Rule.Spells] at isArgs
      exact isArgs.endsIn rfl
  exact ⟨[token] ++ front, body, back, by simp, ends.append (.inl named), isBody⟩

variable {spec : TypeSpec}

/-- A type in a body is exposed if it is among the members. -/
theorem exposes_classBody {members : List Member}
    (inside : ∀ inner, SpellsAll (Symbol.Spells .member) members inner → Exposes spec inner)
    (spelled : Symbol.Spells .classBody members ts) : Exposes spec ts := by
  have rule : DeclRule.classBody.Spells Symbol.Spells members ts := spelled.rule
  rw [DeclRule.classBody] at rule
  obtain ⟨first, inner, last, rfl, isOpening, -, -, all⟩ := group_spells rule
  simp only [DeclRule.sym, Rule.Spells] at all
  have opens : EndsIn unnumeric [first] := .singleton (.inr (isOpening ▸ by decide))
  exact ((inside inner all).before [last]).behind opens

/-- What stands in front of the body of a type does not end in a number. -/
theorem Exposes.of_body {header : TypeHeader} {members : List Member}
    (spelled : Symbol.Spells .typeSpec ⟨header, members⟩ ts)
    (inside : ∀ body, Symbol.Spells .classBody members body → Exposes spec body) :
    Exposes spec ts := by
  obtain ⟨keyword, name, params, components, extended, implemented, rest, rfl, -, isIdent, isParams,
    isComponents, isExtended, isImplemented, permitted, body, rfl, isPermitted, isBody⟩ :=
    typeSpec_spells spelled
  have named : EndsIn unnumeric [keyword, name] := by
    rintro _ ⟨⟩
    exact .inl (isIdent ▸ rfl)
  have first : EndsIn unnumeric params := endsIn_of_rule isParams (by decide)
  have second : EndsIn unnumeric components := endsIn_of_rule isComponents (by decide)
  have third : EndsIn unnumeric extended := endsIn_of_rule isExtended (by decide)
  have fourth : EndsIn unnumeric implemented := endsIn_of_rule isImplemented (by decide)
  have fifth : EndsIn unnumeric permitted := endsIn_of_rule isPermitted (by decide)
  exact (((((((inside body isBody).behind fifth).behind fourth).behind third).behind second).behind
    first).behind named)

mutual

/-- A type that a member declares is spelled in it, behind its modifiers. -/
theorem exposes_member : ∀ (m : Member) (ts : List Token), Symbol.Spells .member m ts →
    spec ∈ m.specs → Exposes spec ts
  | .empty _, _, _, declared => absurd declared List.not_mem_nil
  | .declared _ _ decl, _, spelled, declared => by
    obtain ⟨front, back, rfl, ends, one⟩ := declared_spells spelled
    exact (exposes_memberDecl decl back one declared).behind ends

theorem exposes_memberDecl : ∀ (decl : MemberDecl) (ts : List Token),
    Symbol.Spells .memberDecl decl ts → spec ∈ decl.specs → Exposes spec ts
  | .type header members, _, spelled, declared => by
    rw [MemberDecl.specs] at declared
    rcases List.mem_cons.mp declared with rfl | inside
    · exact exposes_of_spells (type_spells spelled)
    · exact .of_body (type_spells spelled) fun _ =>
        exposes_classBody fun inner all => exposes_members members inner all inside
  | .enumConstant _ _ (some members) _, _, spelled, declared => by
    rw [MemberDecl.specs, bodySpecs] at declared
    obtain ⟨front, body, back, rfl, ends, isBody⟩ := enumConstant_spells spelled
    exact ((exposes_classBody (fun inner all => exposes_members members inner all declared)
      isBody).before back).behind ends
  | .enumConstant _ _ none _, _, _, declared => by
    rw [MemberDecl.specs, bodySpecs] at declared
    exact absurd declared List.not_mem_nil
  | .initializer _, _, _, declared | .method _, _, _, declared | .constructor _, _, _, declared
  | .field _, _, _, declared => by
    rw [MemberDecl.specs] at declared
    exact absurd declared List.not_mem_nil

/-- **A type that members declare** is spelled among them. The members in front of it do not end in a
number. -/
theorem exposes_members : ∀ (members : List Member) (ts : List Token),
    SpellsAll (Symbol.Spells .member) members ts → spec ∈ membersSpecs members → Exposes spec ts
  | [], _, _, declared => absurd declared List.not_mem_nil
  | member :: others, _, ⟨front, back, rfl, one, all⟩, declared => by
    rw [membersSpecs] at declared
    rcases List.mem_append.mp declared with here | later
    · exact (exposes_member member front one here).before back
    · exact (exposes_members others back all later).behind (one.endsIn rfl)

end

/-- **Every type that a file declares**, at any depth, is spelled somewhere in it, and no number stands
directly in front of it. -/
theorem exposes_specs {u : CompilationUnit} (spelled : Symbol.Spells .compilationUnit u ts)
    (declared : spec ∈ u.specs) : Exposes spec ts := by
  obtain ⟨decl, member, inside⟩ := List.mem_flatMap.mp declared
  obtain ⟨front, inner, back, rfl, ends, isSpec⟩ := typeSpec_spells_of_mem spelled member
  refine Exposes.behind (Exposes.before ?_ back) ends
  rcases List.mem_cons.mp inside with rfl | inside
  · exact exposes_of_spells isSpec
  · exact .of_body isSpec fun _ =>
      exposes_classBody fun inner all => exposes_members decl.spec.members inner all inside

end Inner

end Forwarder.Source
