/-
**The tokens of generated files.** The text of a generated declaration has the tokens of its parts in
order, whatever the layout.

* `shapesOf` — the tokens of a text.
* `Expr.Sound`, `MethodDef.Sound`, … — names where a declaration names something, and types where it
  has types.
* `Expr.shapes`, `MethodDef.shapes`, … — the tokens of a declaration.
* `Nested` — tokens whose parentheses come in pairs.
* **`CompilationUnit.spelt`** — the text of a file has its tokens.
-/

import Forwarder.Emit.Unit
import Forwarder.Proofs.Source.Renaming

namespace Forwarder.Emit

open Grammar Source

/-! ### Tokens of type texts -/

/-- The shapes of the tokens of a text. -/
def shapesOf (text : String) : List Shape :=
  match lex text.toList with
  | .ok (tokens, _) => tokens.map Token.shape
  | .error _ => []

theorem shapesOf_eq {text : String} {shapes : List Shape} (spelt : Spelt text shapes) :
    shapesOf text = shapes := by
  obtain ⟨tokens, finish, lexed, same⟩ := spelt.lex
  rw [shapesOf, lexed]
  exact same

/-- The text of a type. -/
abbrev IsType (text : String) : Prop :=
  IsTypeText noVars text

/-- The text of a type parameter. -/
def IsParam (text : String) : Prop :=
  ∃ name, IsParamText noVars name text

/-- The marks that come in pairs around groups of tokens. -/
def groupMarks : List String :=
  ["(", ")", "\x7b", "\x7d"]

theorem not_mem_groupMarks {name : String} (isWord : isName name = true) : name ∉ groupMarks := by
  intro member
  have others : groupMarks.all (fun mark => !isName mark) = true := by decide
  have other := List.all_eq_true.mp others name member
  rw [isWord] at other
  cases other

section Types

variable {text : String} {finish : Position} {bound : Nat} {after : List Shape}

theorem spelt_type (isType : IsType text) : Spelt text (shapesOf text) := by
  obtain ⟨type, clean, rfl⟩ := isType
  rw [shapesOf_eq (type.spelt clean)]
  exact type.spelt clean

theorem startsType_type (isType : IsType text) : StartsType (shapesOf text) := by
  obtain ⟨type, clean, rfl⟩ := isType
  rw [shapesOf_eq (type.spelt clean)]
  exact type.startsType clean

/-- The tokens of the text of a type are read as a type with this text. -/
theorem reads_type (isType : IsType text) (ends : EndsType after)
    (enough : 3 * (shapesOf text).length ≤ bound) (few : (shapesOf text).length < maxIterations) :
    Reads (declarations.reading finish bound .typeRef) (shapesOf text) after
      fun value => value.render = text := by
  obtain ⟨type, clean, rfl⟩ := isType
  rw [shapesOf_eq (type.spelt clean)] at enough few ⊢
  exact (type.reads clean).whole ends enough few

theorem spelt_param (isParam : IsParam text) : Spelt text (shapesOf text) := by
  obtain ⟨name, param, clean, rfl, rfl⟩ := isParam
  rw [shapesOf_eq (TypeParam.spelt clean)]
  exact TypeParam.spelt clean

theorem reads_param (isParam : IsParam text) (ends : EndsParam after)
    (enough : 3 * (shapesOf text).length ≤ bound) (few : (shapesOf text).length < maxIterations) :
    Reads (declarations.reading finish bound .typeParam) (shapesOf text) after
      fun value => value.render = text := by
  obtain ⟨name, param, clean, rfl, rfl⟩ := isParam
  rw [shapesOf_eq (TypeParam.spelt clean)] at enough few ⊢
  exact TypeParam.reads clean ends enough few

end Types

/-! ### Groups -/

/-- Parentheses come in pairs, and there are no braces. -/
inductive Nested : List Shape → Prop
  | nil : Nested []
  | token {shape : Shape} {others : List Shape} (free : shape.2 ∉ groupMarks)
      (more : Nested others) : Nested (shape :: others)
  | parens {inner others : List Shape} (inside : Nested inner) (more : Nested others) :
      Nested (Shape.mark "(" :: inner ++ Shape.mark ")" :: others)

namespace Nested

variable {front back : List Shape}

theorem append (left : Nested front) (right : Nested back) : Nested (front ++ back) := by
  induction left with
  | nil => exact right
  | token free _ ih => exact .token free ih
  | parens inside _ _ ih =>
    rw [List.append_assoc, List.cons_append]
    exact .parens inside ih

theorem single {shape : Shape} (free : shape.2 ∉ groupMarks) : Nested [shape] :=
  .token free .nil

theorem word {name : String} (isWord : isName name = true) : Nested [Shape.word name] :=
  .single (not_mem_groupMarks isWord)

theorem group (inside : Nested front) : Nested (Shape.mark "(" :: front ++ [Shape.mark ")"]) :=
  .parens inside .nil

theorem flatMap {ι : Type} {shapes : ι → List Shape} {items : List ι}
    (each : ∀ item ∈ items, Nested (shapes item)) : Nested (items.flatMap shapes) := by
  induction items with
  | nil => exact .nil
  | cons first others ih =>
    rw [List.flatMap_cons]
    exact (each first List.mem_cons_self).append (ih fun item member =>
      each item (List.mem_cons_of_mem _ member))

theorem separated {ι : Type} {shapes : ι → List Shape} {items : List ι} {mark : Shape}
    (free : mark.2 ∉ groupMarks) (each : ∀ item ∈ items, Nested (shapes item)) :
    Nested (separatedShapes mark shapes items) := by
  cases items with
  | nil => exact .nil
  | cons first others =>
    exact (each first List.mem_cons_self).append (flatMap fun item member =>
      .token free (each item (List.mem_cons_of_mem _ member)))

theorem dims (n : Nat) : Nested (dimShapes n) :=
  flatMap fun _ _ => (single (by decide)).append (single (by decide))

/-- A type has no parentheses and braces. -/
theorem typeRef {vars : String → Prop} (type : TypeRef) : type.Clean vars → Nested type.shapes := by
  refine TypeRef.holds (P := fun type => type.Clean vars → Nested type.shapes)
    (Q := fun segment => segment.Clean vars → Nested segment.shapes) ?_ ?_ ?_ ?_ ?_ ?_ type
  · intro _ n _
    exact (single (by decide)).append (dims n)
  · intro _ _ n _
    exact (single (by decide)).append (dims n)
  · intro _ bound type n ih clean
    have keyword : Nested [Shape.word bound.keyword] := word (by cases bound <;> decide)
    exact (((single (by decide)).append keyword).append (ih clean)).append (dims n)
  · intro _ first others n ihFirst ihOthers clean
    obtain ⟨-, cleanFirst, cleanOthers⟩ := clean
    rw [TypeRef.shapes, moreShapes_eq]
    exact ((ihFirst cleanFirst).append (flatMap fun segment member => .token (by decide)
      (ihOthers segment member (moreClean_iff.mp cleanOthers segment member)))).append (dims n)
  · intro name clean
    exact word clean.1
  · intro name args ih clean
    rw [TypeSegment.shapes, argShapes_eq]
    exact (((word clean.1.1).append (single (by decide))).append (separated (by decide)
      fun type member => ih type member (argsClean_iff.mp clean.2 type member))).append
        (single (by decide))

theorem type {text : String} (isType : IsType text) : Nested (shapesOf text) := by
  obtain ⟨ref, clean, rfl⟩ := isType
  rw [shapesOf_eq (ref.spelt clean)]
  exact typeRef ref clean

end Nested

/-! ### Expressions -/

/-- A property of all expressions. -/
theorem Expr.holds {P : Expr → Prop} (missing : P .missing) (name : ∀ name, P (.name name))
    (this : P .this) (field : ∀ target name, P target → P (.field target name))
    (call : ∀ name args, (∀ arg ∈ args, P arg) → P (.call name args))
    (send : ∀ target name args, P target → (∀ arg ∈ args, P arg) → P (.send target name args))
    (create : ∀ type args, (∀ arg ∈ args, P arg) → P (.create type args))
    (cast : ∀ type value, P value → P (.cast type value)) (e : Expr) : P e :=
  @Expr.rec P (fun args => ∀ arg ∈ args, P arg) missing name this field call send create cast
    (List.forall_mem_nil _) (fun _ _ first others => List.forall_mem_cons.mpr ⟨first, others⟩) e

mutual

/-- Names where there are names and types where there are types. -/
def Expr.Sound : Expr → Prop
  | .missing => False
  | .name name => isName name = true
  | .this => True
  | .field target name => target.Sound ∧ isName name = true
  | .call name args => isName name = true ∧ allSound args
  | .send target name args => target.Sound ∧ isName name = true ∧ allSound args
  | .create type args => IsType type ∧ allSound args
  | .cast type value => IsType type ∧ value.Sound

/-- The same for arguments. -/
def allSound : List Expr → Prop
  | [] => True
  | e :: others => e.Sound ∧ allSound others

end

theorem allSound_iff {args : List Expr} : allSound args ↔ ∀ e ∈ args, e.Sound := by
  induction args with
  | nil => simp [allSound]
  | cons first others ih => rw [allSound, ih, List.forall_mem_cons]

mutual

/-- The tokens of an expression. -/
def Expr.shapes : Expr → List Shape
  | .missing => []
  | .name name => [Shape.word name]
  | .this => [Shape.word "this"]
  | .field target name => target.shapes ++ [Shape.mark ".", Shape.word name]
  | .call name args =>
    [Shape.word name] ++ (Shape.mark "(" :: exprShapes args ++ [Shape.mark ")"])
  | .send target name args => target.shapes ++ [Shape.mark ".", Shape.word name] ++
    (Shape.mark "(" :: exprShapes args ++ [Shape.mark ")"])
  | .create type args => [Shape.word "new"] ++ shapesOf type ++
    (Shape.mark "(" :: exprShapes args ++ [Shape.mark ")"])
  | .cast type value => (Shape.mark "(" :: shapesOf type ++ [Shape.mark ")"]) ++ value.shapes

/-- The tokens of arguments. -/
def exprShapes : List Expr → List Shape
  | [] => []
  | [e] => e.shapes
  | e :: others => e.shapes ++ Shape.mark "," :: exprShapes others

end

theorem exprShapes_eq (args : List Expr) :
    exprShapes args = separatedShapes (Shape.mark ",") Expr.shapes args := by
  induction args with
  | nil => rfl
  | cons first others ih =>
    cases others with
    | nil => simp [exprShapes, separatedShapes]
    | cons second others =>
      rw [exprShapes, ih]
      · simp [separatedShapes]
      · exact List.cons_ne_nil _ _

theorem renderExprs_eq (args : List Expr) :
    renderExprs args = Text.join ", " (args.map (·.render)) := by
  induction args with
  | nil => rfl
  | cons first others ih =>
    cases others with
    | nil => exact String.intercalate_singleton.symm
    | cons second others =>
      rw [renderExprs, ih]
      · exact String.intercalate_cons_cons.symm
      · exact List.cons_ne_nil _ _

/-- Arguments between parentheses, behind what is called. -/
theorem spelt_arguments {text : String} {shapes : List Shape} (spelt : Spelt text shapes)
    {args : List Expr} (each : ∀ e ∈ args, Spelt e.render e.shapes) :
    Spelt (text ++ "(" ++ renderExprs args ++ ")")
      (shapes ++ (Shape.mark "(" :: exprShapes args ++ [Shape.mark ")"])) := by
  have opened := spelt.then_closed (opens_mark (by decide : "(" ∈ marks)) (Closed.mark (by decide))
  have joined := Spelt.join opens_comma closed_comma each
  rw [renderExprs_eq, exprShapes_eq]
  have whole := ((opened.then_spelt joined).then_closed (opens_mark (by decide : ")" ∈ marks))
    (Closed.mark (by decide))).spelt
  simpa using whole

/-- The text of an expression has its tokens. -/
theorem Expr.spelt (e : Expr) : e.Sound → Spelt e.render e.shapes := by
  refine Expr.holds (P := fun e => e.Sound → Spelt e.render e.shapes) ?_ ?_ ?_ ?_ ?_ ?_ ?_ ?_ e
  · exact False.elim
  · intro name isWord
    exact Spelt.word isWord
  · intro _
    exact Spelt.word (by decide)
  · rintro target name ih ⟨sound, isWord⟩
    rw [Expr.render, String.append_assoc]
    exact (ih sound).append opens_point (Spelt.point isWord)
  · rintro name args ih ⟨isWord, sound⟩
    exact spelt_arguments (Spelt.word isWord) fun arg member =>
      ih arg member (allSound_iff.mp sound arg member)
  · rintro target name args ih ihArgs ⟨sound, isWord, soundArgs⟩
    have named := (ih sound).append opens_point (Spelt.point isWord)
    rw [← String.append_assoc] at named
    exact spelt_arguments named fun arg member =>
      ihArgs arg member (allSound_iff.mp soundArgs arg member)
  · rintro type args ih ⟨isType, sound⟩
    have keyword : Closed "new " [Shape.word "new"] := Closed.keyword "new" (by decide)
    exact spelt_arguments (keyword.then_spelt (spelt_type isType)) fun arg member =>
      ih arg member (allSound_iff.mp sound arg member)
  · rintro type value ih ⟨isType, sound⟩
    have opened := (Closed.mark (by decide : "(" ∈ marks)).then_spelt (spelt_type isType)
    have closing : Closed ") " [Shape.mark ")"] := Closed.mark_space ")" (by decide)
    have cast := opened.then_closed ⟨')', [' '], rfl, by decide⟩ closing
    exact cast.then_spelt (ih sound)

/-- The parentheses of an expression come in pairs. -/
theorem Expr.nested (e : Expr) : e.Sound → Nested e.shapes := by
  refine Expr.holds (P := fun e => e.Sound → Nested e.shapes) ?_ ?_ ?_ ?_ ?_ ?_ ?_ ?_ e
  · exact False.elim
  · intro name isWord
    exact .word isWord
  · intro _
    exact .word (by decide)
  · rintro target name ih ⟨sound, isWord⟩
    exact (ih sound).append (.token (by decide) (.word isWord))
  · rintro name args ih ⟨isWord, sound⟩
    rw [Expr.shapes, exprShapes_eq]
    exact (Nested.word isWord).append (.group (.separated (by decide) fun arg member =>
      ih arg member (allSound_iff.mp sound arg member)))
  · rintro target name args ih ihArgs ⟨sound, isWord, soundArgs⟩
    rw [Expr.shapes, exprShapes_eq]
    exact ((ih sound).append (.token (by decide) (.word isWord))).append
      (.group (.separated (by decide) fun arg member =>
        ihArgs arg member (allSound_iff.mp soundArgs arg member)))
  · rintro type args ih ⟨isType, sound⟩
    rw [Expr.shapes, exprShapes_eq]
    exact ((Nested.word (by decide)).append (.type isType)).append
      (.group (.separated (by decide) fun arg member =>
        ih arg member (allSound_iff.mp sound arg member)))
  · rintro type value ih ⟨isType, sound⟩
    exact (Nested.group (.type isType)).append (ih sound)

/-! ### Statements -/

/-- The expressions of a statement are sound. -/
def Statement.Sound : Statement → Prop
  | .returns value => value.Sound
  | .run value => value.Sound
  | .assign target value => target.Sound ∧ value.Sound

/-- The tokens of a statement. -/
def Statement.shapes : Statement → List Shape
  | .returns value => [Shape.word "return"] ++ value.shapes ++ [Shape.mark ";"]
  | .run value => value.shapes ++ [Shape.mark ";"]
  | .assign target value =>
    target.shapes ++ [Shape.mark "="] ++ value.shapes ++ [Shape.mark ";"]

theorem Expr.isMissing_of_sound {e : Expr} (sound : e.Sound) : e.isMissing = false := by
  cases e with
  | missing => exact sound.elim
  | _ => rfl

theorem Statement.closed {statement : Statement} (sound : statement.Sound) :
    Closed statement.render statement.shapes := by
  have semicolon : Closed ";" [Shape.mark ";"] := Closed.mark (by decide)
  have opens : Opens ";" := opens_mark (by decide)
  cases statement with
  | returns value =>
    have keyword : Closed "return " [Shape.word "return"] := Closed.keyword "return" (by decide)
    rw [Statement.render, Expr.isMissing_of_sound sound]
    exact (keyword.then_spelt (value.spelt sound)).then_closed opens semicolon
  | run value => exact (value.spelt sound).then_closed opens semicolon
  | assign target value =>
    have equals : Closed " = " [Shape.mark "="] := Closed.mark_between "=" (by decide)
    have assigned := (target.spelt sound.1).then_closed ⟨' ', ['=', ' '], rfl, by decide⟩ equals
    exact (assigned.then_spelt (value.spelt sound.2)).then_closed opens semicolon

theorem Statement.nested {statement : Statement} (sound : statement.Sound) :
    Nested statement.shapes := by
  have semicolon : Nested [Shape.mark ";"] := .single (by decide)
  cases statement with
  | returns value => exact ((Nested.word (by decide)).append (value.nested sound)).append semicolon
  | run value => exact (value.nested sound).append semicolon
  | assign target value =>
    exact (((target.nested sound.1).append (.single (by decide))).append
      (value.nested sound.2)).append semicolon

/-! ### Lines -/

/-- The line has these tokens, whatever the next line is. -/
def Line (line : String) (shapes : List Shape) : Prop :=
  Closed (line ++ "\n") shapes

/-- The lines together have these tokens. -/
inductive Lines : List String → List Shape → Prop
  | nil : Lines [] []
  | cons {line : String} {lines : List String} {shapes more : List Shape} (first : Line line shapes)
      (others : Lines lines more) : Lines (line :: lines) (shapes ++ more)

theorem closed_newline : Closed "\n" [] :=
  fun _ _ lexes => lexes.gap rfl

theorem line_of_spelt {line : String} {shapes : List Shape} (spelt : Spelt line shapes) :
    Line line shapes := by
  have ended := spelt.then_closed ⟨'\n', [], rfl, by decide⟩ closed_newline
  rwa [List.append_nil] at ended

theorem Line.indent {line : String} {shapes : List Shape} (isLine : Line line shapes) :
    Line ("    " ++ line) shapes := by
  have spaces : Closed "    " [] :=
    (((Closed.space.append Closed.space).append Closed.space).append Closed.space :)
  rw [Line, String.append_assoc]
  exact spaces.append isLine

namespace Lines

variable {lines others : List String} {shapes more : List Shape}

theorem append (left : Lines lines shapes) (right : Lines others more) :
    Lines (lines ++ others) (shapes ++ more) := by
  induction left with
  | nil => exact right
  | cons first _ ih =>
    rw [List.append_assoc]
    exact .cons first ih

theorem single {line : String} (isLine : Line line shapes) : Lines [line] shapes := by
  have one := Lines.cons isLine .nil
  rwa [List.append_nil] at one

theorem blank (isLines : Lines lines shapes) : Lines ("" :: lines) shapes := by
  have empty : Line "" [] := line_of_spelt Closed.empty.spelt
  exact .cons empty isLines

theorem indented (isLines : Lines lines shapes) : Lines (Emit.indented lines) shapes := by
  induction isLines with
  | nil => exact .nil
  | @cons line _ _ _ first _ ih =>
    rw [Emit.indented, List.map_cons]
    refine .cons ?_ ih
    split
    · exact first
    · exact first.indent

theorem flatMap {ι : Type} {text : ι → List String} {tokens : ι → List Shape} {items : List ι}
    (each : ∀ item ∈ items, Lines (text item) (tokens item)) :
    Lines (items.flatMap text) (items.flatMap tokens) := by
  induction items with
  | nil => exact .nil
  | cons first others ih =>
    rw [List.flatMap_cons, List.flatMap_cons]
    exact (each first List.mem_cons_self).append (ih fun item member =>
      each item (List.mem_cons_of_mem _ member))

/-- The lines as one text. -/
theorem closed (isLines : Lines lines shapes) :
    Closed (String.join (lines.map (· ++ "\n"))) shapes := by
  induction isLines with
  | nil => exact Closed.empty
  | cons first _ ih =>
    rw [List.map_cons, String.join_cons]
    exact Closed.append first ih

end Lines

/-! ### Parts of declarations -/

/-- The modifiers are keywords. -/
def areModifiers (modifiers : List String) : Prop :=
  ∀ modifier ∈ modifiers, modifier ∈ Keyword.all.map Keyword.text

theorem isName_of_keyword {modifier : String} (isKeyword : modifier ∈ Keyword.all.map Keyword.text) :
    isName modifier = true := by
  have all : (Keyword.all.map Keyword.text).all isName = true := by decide
  exact List.all_eq_true.mp all modifier isKeyword

theorem closed_modifiers {modifiers : List String} (sound : areModifiers modifiers) :
    Closed (modifierText modifiers) (modifiers.map Shape.word) := by
  induction modifiers with
  | nil => exact Closed.empty
  | cons first others ih =>
    have isWord := isName_of_keyword (sound first List.mem_cons_self)
    have closed := (Spelt.word isWord).then_closed opens_space Closed.space
    rw [modifierText, List.map_cons, String.join_cons, List.map_cons]
    exact closed.append (ih fun modifier member => sound modifier (List.mem_cons_of_mem _ member))

theorem joined_texts {texts : List String} (each : ∀ text ∈ texts, Spelt text (shapesOf text)) :
    Spelt (Text.join ", " texts) (separatedShapes (Shape.mark ",") shapesOf texts) := by
  have joined : Spelt (Text.join ", " (texts.map id)) _ := Spelt.join opens_comma closed_comma each
  rwa [List.map_id] at joined

/-- The tokens of type parameters between angle brackets, or none. -/
abbrev typeParamShapes (params : List String) : List Shape :=
  bracketedShapes (Shape.mark "<") (Shape.mark ">") shapesOf params

theorem closed_typeParams {params : List String} (sound : ∀ param ∈ params, IsParam param) :
    Closed (typeParamText params) (typeParamShapes params) := by
  cases params with
  | nil => exact Closed.empty
  | cons first others =>
    have joined := joined_texts fun param member => spelt_param (sound param member)
    exact ((Closed.mark (by decide : "<" ∈ marks)).then_spelt joined).then_closed
      (opens_mark (by decide : ">" ∈ marks)) (Closed.mark (by decide))

/-- The tokens of a clause, or none. -/
abbrev typesShapes (keyword : String) (types : List String) : List Shape :=
  clauseShapes (Shape.word keyword) (Shape.mark ",") shapesOf types

theorem spelt_clause {text keyword : String} {shapes : List Shape} {types : List String}
    (spelt : Spelt text shapes) (isWord : isName keyword = true)
    (sound : ∀ type ∈ types, IsType type) :
    Spelt (text ++ clauseText keyword types) (shapes ++ typesShapes keyword types) := by
  cases types with
  | nil => simpa [clauseText, clauseShapes] using spelt
  | cons first others =>
    have joined := joined_texts fun type member => spelt_type (sound type member)
    have behind : Closed (" " ++ keyword ++ " ") [Shape.word keyword] :=
      (Closed.space.then_spelt (Spelt.word isWord)).then_closed opens_space Closed.space
    exact spelt.append opens_space.append.append.append (behind.then_spelt joined)

/-- The parameter has a name and a type. -/
def Param.Sound (p : Param) : Prop :=
  IsType p.type ∧ isName p.name = true

/-- The tokens of a parameter. -/
def Param.shapes (p : Param) : List Shape :=
  shapesOf p.type ++ ((if p.variadic then [Shape.ellipsis] else []) ++ [Shape.word p.name])

theorem Param.spelt {p : Param} (sound : p.Sound) : Spelt p.render p.shapes := by
  obtain ⟨isType, isWord⟩ := sound
  rw [Param.render, Param.shapes, ← List.append_assoc]
  refine Closed.then_spelt ?_ (Spelt.word isWord)
  split
  · have dots : Closed "... " [Shape.ellipsis] := (Closed.ellipsis.append Closed.space :)
    exact (spelt_type isType).then_closed ⟨'.', "..".toList ++ [' '], rfl, by decide⟩ dots
  · exact (spelt_type isType).then_closed opens_space Closed.space

/-- The tokens of parameters between parentheses. -/
abbrev paramShapes (params : List Param) : List Shape :=
  Shape.mark "(" :: separatedShapes (Shape.mark ",") Param.shapes params ++ [Shape.mark ")"]

theorem spelt_params {text : String} {shapes : List Shape} {params : List Param}
    (spelt : Spelt text shapes) (sound : ∀ p ∈ params, p.Sound) :
    Spelt (text ++ "(" ++ paramText params ++ ")") (shapes ++ paramShapes params) := by
  have opened := spelt.then_closed (opens_mark (by decide : "(" ∈ marks)) (Closed.mark (by decide))
  have joined := Spelt.join opens_comma closed_comma fun p member => Param.spelt (sound p member)
  have whole := ((opened.then_spelt joined).then_closed (opens_mark (by decide : ")" ∈ marks))
    (Closed.mark (by decide))).spelt
  simpa [paramText] using whole

/-- The brace that opens a body. -/
theorem closed_brace : Closed " \x7b" [Shape.mark "\x7b"] :=
  (Closed.space.append (Closed.mark (by decide : "\x7b" ∈ marks)) :)

/-- The brace that closes a body. -/
theorem line_brace : Line "\x7d" [Shape.mark "\x7d"] :=
  line_of_spelt (Closed.mark (by decide : "\x7d" ∈ marks)).spelt

/-- The tokens of a body. -/
def bodyShapes (body : List Statement) : List Shape :=
  Shape.mark "\x7b" :: body.flatMap Statement.shapes ++ [Shape.mark "\x7d"]

/-- A head with a body. -/
theorem lines_body {head : String} {shapes : List Shape} {body : List Statement}
    (spelt : Spelt head shapes) (sound : ∀ statement ∈ body, statement.Sound) :
    Lines ([head ++ " \x7b"] ++ bodyLines body ++ ["\x7d"]) (shapes ++ bodyShapes body) := by
  have opened := Lines.single (line_of_spelt (spelt.append ⟨' ', ['\x7b'], rfl, by decide⟩
    closed_brace.spelt))
  have inside : Lines (body.map (·.render)) (body.flatMap Statement.shapes) := by
    rw [List.map_eq_flatMap]
    exact Lines.flatMap fun statement member =>
      Lines.single (line_of_spelt (Statement.closed (sound statement member)).spelt)
  have whole := (opened.append inside.indented).append (Lines.single line_brace)
  simpa [bodyShapes, bodyLines] using whole

/-! ### Declarations -/

/-- A plain name, a type, and not too many tokens to tell it from a method. -/
structure FieldDef.Sound (f : FieldDef) : Prop where
  modifiers : areModifiers f.modifiers
  type : IsType f.type
  near : (shapesOf f.type).length < State.lookahead
  name : IsPlain f.name

/-- A plain name, sound parameters and a sound body. -/
structure ConstructorDef.Sound (c : ConstructorDef) : Prop where
  modifiers : areModifiers c.modifiers
  name : IsPlain c.name
  params : ∀ p ∈ c.params, p.Sound
  body : ∀ statement ∈ c.body, statement.Sound

/-- A name, types, sound parameters and a sound body. -/
structure MethodDef.Sound (m : MethodDef) : Prop where
  modifiers : areModifiers m.modifiers
  typeParams : ∀ param ∈ m.typeParams, IsParam param
  returns : IsType m.returns
  name : isName m.name = true
  params : ∀ p ∈ m.params, p.Sound
  throws : ∀ type ∈ m.throws, IsType type
  body : ∀ statement ∈ m.body, statement.Sound

/-- A name, a superclass, and sound members. -/
structure ClassDef.Sound (c : ClassDef) : Prop where
  modifiers : areModifiers c.modifiers
  name : isName c.name = true
  typeParams : ∀ param ∈ c.typeParams, IsParam param
  superclass : IsType c.superclass
  interfaces : ∀ type ∈ c.interfaces, IsType type
  fields : ∀ f ∈ c.fields, f.Sound
  constructors : ∀ constructor ∈ c.constructors, constructor.Sound
  methods : ∀ m ∈ c.methods, m.Sound

/-- The tokens of a field. -/
def FieldDef.shapes (f : FieldDef) : List Shape :=
  f.modifiers.map Shape.word ++ (shapesOf f.type ++ [Shape.word f.name, Shape.mark ";"])

/-- The tokens of a constructor. -/
def ConstructorDef.shapes (c : ConstructorDef) : List Shape :=
  c.modifiers.map Shape.word ++ ([Shape.word c.name] ++ (paramShapes c.params ++ bodyShapes c.body))

/-- The tokens of a method. -/
def MethodDef.shapes (m : MethodDef) : List Shape :=
  m.modifiers.map Shape.word ++ (typeParamShapes m.typeParams ++ (shapesOf m.returns ++
    ([Shape.word m.name] ++ (paramShapes m.params ++ (typesShapes "throws" m.throws ++
      bodyShapes m.body)))))

/-- The tokens of the members of a class. -/
def ClassDef.memberShapes (c : ClassDef) : List (List Shape) :=
  c.fields.map (·.shapes) ++ (c.constructors.map (·.shapes) ++ c.methods.map (·.shapes))

/-- The tokens of a class. -/
def ClassDef.shapes (c : ClassDef) : List Shape :=
  c.modifiers.map Shape.word ++ ([Shape.word "class"] ++ ([Shape.word c.name] ++
    (typeParamShapes c.typeParams ++ ([Shape.word "extends"] ++ (shapesOf c.superclass ++
      (typesShapes "implements" c.interfaces ++
        (Shape.mark "\x7b" :: c.memberShapes.flatten ++ [Shape.mark "\x7d"])))))))

theorem FieldDef.lines_shapes {f : FieldDef} (sound : f.Sound) : Lines f.lines f.shapes := by
  have typed := ((closed_modifiers sound.modifiers).then_spelt (spelt_type sound.type)).then_closed
    opens_space Closed.space
  have whole := (typed.then_spelt (Spelt.word sound.name.1)).then_closed
    (opens_mark (by decide : ";" ∈ marks)) (Closed.mark (by decide))
  refine Lines.single (line_of_spelt ?_)
  simpa [FieldDef.shapes] using whole.spelt

theorem ConstructorDef.lines_shapes {c : ConstructorDef} (sound : c.Sound) :
    Lines c.lines c.shapes := by
  have named := (closed_modifiers sound.modifiers).then_spelt (Spelt.word sound.name.1)
  have whole := lines_body (spelt_params named sound.params) sound.body
  simpa [ConstructorDef.shapes, ConstructorDef.lines, String.append_assoc] using whole

theorem MethodDef.lines_shapes {m : MethodDef} (sound : m.Sound) : Lines m.lines m.shapes := by
  have params : Closed (if m.typeParams.isEmpty then "" else typeParamText m.typeParams ++ " ")
      (typeParamShapes m.typeParams) := by
    split
    · next none_ =>
      rw [List.isEmpty_iff.mp none_]
      exact Closed.empty
    · have spaced := (closed_typeParams sound.typeParams).append Closed.space
      rwa [List.append_nil] at spaced
  have typed := (((closed_modifiers sound.modifiers).append params).then_spelt
    (spelt_type sound.returns)).then_closed opens_space Closed.space
  have named := typed.then_spelt (Spelt.word sound.name)
  have head := spelt_clause (spelt_params named sound.params) (by decide : isName "throws" = true)
    sound.throws
  have whole := lines_body head sound.body
  simpa [MethodDef.shapes, MethodDef.lines, MethodDef.head, String.append_assoc] using whole

theorem spelt_typeParams {text : String} {shapes : List Shape} {params : List String}
    (spelt : Spelt text shapes) (sound : ∀ param ∈ params, IsParam param) :
    Spelt (text ++ typeParamText params) (shapes ++ typeParamShapes params) := by
  have closed := closed_typeParams sound
  cases params with
  | nil => simpa [typeParamText, typeParamShapes, bracketedShapes] using spelt
  | cons first others =>
    have opens : Opens (typeParamText (first :: others)) :=
      (opens_mark (by decide : "<" ∈ marks)).append.append
    exact (spelt.then_closed opens closed).spelt

theorem ne_empty_of_isType {text : String} (isType : IsType text) : text.isEmpty = false := by
  apply Bool.eq_false_iff.mpr
  intro empty
  rw [String.isEmpty_iff] at empty
  obtain ⟨_, _, _, shapes, _⟩ := startsType_type isType
  rw [empty] at shapes
  cases shapes

theorem ClassDef.spelt_head {c : ClassDef} (sound : c.Sound) : Spelt c.head
    (c.modifiers.map Shape.word ++ [Shape.word "class"] ++ [Shape.word c.name] ++
      typeParamShapes c.typeParams ++ ([Shape.word "extends"] ++ shapesOf c.superclass) ++
      typesShapes "implements" c.interfaces ++ [Shape.mark "\x7b"]) := by
  have keyword : Closed "class " [Shape.word "class"] := Closed.keyword "class" (by decide)
  have named := ((closed_modifiers sound.modifiers).append keyword).then_spelt
    (Spelt.word sound.name)
  have extends_ : Closed " extends " [Shape.word "extends"] :=
    (Closed.space.append (Closed.keyword "extends" (by decide)) :)
  have opens : Opens " extends " := ⟨' ', "extends ".toList, rfl, by decide⟩
  have super := (spelt_typeParams named sound.typeParams).append opens.append
    (extends_.then_spelt (spelt_type sound.superclass))
  have head := spelt_clause super (by decide : isName "implements" = true) sound.interfaces
  have whole := head.append ⟨' ', ['\x7b'], rfl, by decide⟩ closed_brace.spelt
  rw [ClassDef.head, ne_empty_of_isType sound.superclass]
  exact whole

/-- The lines of members, each behind an empty line. -/
theorem lines_members {members : List (List String)} {shapes : List (List Shape)}
    (each : List.Forall₂ Lines members shapes) :
    Lines (members.flatMap fun lines => "" :: indented lines) shapes.flatten := by
  induction each with
  | nil => exact .nil
  | cons first _ ih =>
    rw [List.flatMap_cons, List.flatten_cons]
    exact first.indented.blank.append ih

theorem forall₂_map {ι : Type} {text : ι → List String} {shapes : ι → List Shape} {items : List ι}
    (each : ∀ item ∈ items, Lines (text item) (shapes item)) :
    List.Forall₂ Lines (items.map text) (items.map shapes) := by
  rw [List.forall₂_map_left_iff, List.forall₂_map_right_iff, List.forall₂_same]
  exact each

theorem ClassDef.lines_shapes {c : ClassDef} (sound : c.Sound) : Lines c.lines c.shapes := by
  have fields := forall₂_map fun f member => FieldDef.lines_shapes (sound.fields f member)
  have constructors := forall₂_map fun constructor member =>
    ConstructorDef.lines_shapes (sound.constructors constructor member)
  have methods := forall₂_map fun m member => MethodDef.lines_shapes (sound.methods m member)
  have members := lines_members
    (List.rel_append (List.rel_append fields constructors) methods)
  have whole := ((Lines.single (line_of_spelt (ClassDef.spelt_head sound))).append members).append
    (Lines.single line_brace)
  simpa [ClassDef.shapes, ClassDef.lines, ClassDef.memberShapes] using whole

/-! ### Files -/

/-- Names with points between them. -/
def IsDotted (text : String) : Prop :=
  ∃ head tail, (∀ part ∈ head :: tail, isName part = true) ∧ Text.join "." (head :: tail) = text

/-- The tokens of a dotted name. -/
def dottedShapes (head : String) (tail : List String) : List Shape :=
  [Shape.word head] ++ tail.flatMap fun part => [Shape.mark ".", Shape.word part]

theorem spelt_dotted {head : String} {tail : List String}
    (names : ∀ part ∈ head :: tail, isName part = true) :
    Spelt (Text.join "." (head :: tail)) (dottedShapes head tail) := by
  rw [join_point, dottedShapes]
  have more {text : String} {shapes : List Shape} (spelt : Spelt text shapes) {parts : List String}
      (names : ∀ part ∈ parts, isName part = true) :
      Spelt (text ++ String.join (parts.map ("." ++ ·)))
        (shapes ++ parts.flatMap fun part => [Shape.mark ".", Shape.word part]) := by
    induction parts generalizing text shapes with
    | nil => simpa using spelt
    | cons first parts ih =>
      rw [List.map_cons, String.join_cons, List.flatMap_cons, ← String.append_assoc,
        ← List.append_assoc]
      exact ih (spelt.append opens_point (Spelt.point (names first List.mem_cons_self)))
        fun part member => names part (List.mem_cons_of_mem _ member)
  exact more (Spelt.word (names head List.mem_cons_self)) fun part member =>
    names part (List.mem_cons_of_mem _ member)

theorem spelt_of_isDotted {text : String} (dotted : IsDotted text) : Spelt text (shapesOf text) := by
  obtain ⟨head, tail, names, rfl⟩ := dotted
  rw [shapesOf_eq (spelt_dotted names)]
  exact spelt_dotted names

/-- A dotted name that may be imported: it does not begin with the word `static`. -/
def IsImport (text : String) : Prop :=
  ∃ head tail, (∀ part ∈ head :: tail, isName part = true) ∧ head ≠ "static" ∧
    Text.join "." (head :: tail) = text

theorem IsImport.isDotted {text : String} (isImport : IsImport text) : IsDotted text := by
  obtain ⟨head, tail, names, -, same⟩ := isImport
  exact ⟨head, tail, names, same⟩

/-- Comments of one line, dotted names, and sound classes. -/
structure CompilationUnit.Sound (u : CompilationUnit) : Prop where
  header : ∀ line ∈ u.header, '\n' ∉ line.toList
  packageName : IsDotted u.packageName
  imports : ∀ name ∈ u.imports, IsImport name
  classes : ∀ c ∈ u.classes, c.Sound

/-- The tokens of a package declaration. -/
def packageShapes (name : String) : List Shape :=
  [Shape.word "package"] ++ (shapesOf name ++ [Shape.mark ";"])

/-- The tokens of an import. -/
def importShapes (name : String) : List Shape :=
  [Shape.word "import"] ++ (shapesOf name ++ [Shape.mark ";"])

/-- The tokens of a file. -/
def CompilationUnit.shapes (u : CompilationUnit) : List Shape :=
  packageShapes u.packageName ++ (u.imports.flatMap importShapes ++ u.classes.flatMap ClassDef.shapes)

theorem line_comment {text : String} (inLine : '\n' ∉ text.toList) : Line ("// " ++ text) [] := by
  intro rest more lexes
  have whole : Lexes ('/' :: '/' :: (' ' :: text.toList) ++ '\n' :: rest) more :=
    lexes.comment (by simpa using inLine)
  simpa using whole

/-- A keyword, a dotted name and a semicolon. -/
theorem line_dotted {front keyword name : String} (keyed : Closed front [Shape.word keyword])
    (dotted : IsDotted name) : Line (front ++ name ++ ";")
      ([Shape.word keyword] ++ (shapesOf name ++ [Shape.mark ";"])) := by
  have named := (keyed.then_spelt (spelt_of_isDotted dotted)).then_closed
    (opens_mark (by decide : ";" ∈ marks)) (Closed.mark (by decide))
  rw [← List.append_assoc]
  exact line_of_spelt named.spelt

theorem closed_package : Closed "package " [Shape.word "package"] :=
  Closed.keyword "package" (by decide)

theorem closed_import : Closed "import " [Shape.word "import"] :=
  Closed.keyword "import" (by decide)

theorem ne_empty_of_isDotted {text : String} (dotted : IsDotted text) : text.isEmpty = false := by
  apply Bool.eq_false_iff.mpr
  intro empty
  rw [String.isEmpty_iff] at empty
  obtain ⟨head, tail, names, rfl⟩ := dotted
  have shapes := shapesOf_eq (spelt_dotted names)
  rw [empty] at shapes
  cases shapes

theorem Lines.paragraph {lines : List String} {shapes : List Shape} (isLines : Lines lines shapes) :
    Lines (Emit.paragraph lines) shapes := by
  rw [Emit.paragraph]
  split
  · next none_ =>
    rwa [← List.isEmpty_iff.mp none_]
  · have ended := isLines.append Lines.nil.blank
    rwa [List.append_nil] at ended

theorem Lines.apart {ι : Type} {text : ι → List String} {tokens : ι → List Shape} {items : List ι}
    (each : ∀ item ∈ items, Lines (text item) (tokens item)) :
    Lines (Emit.apart (items.map text)) (items.flatMap tokens) := by
  induction items with
  | nil => exact .nil
  | cons first others ih =>
    have firstLines := each first List.mem_cons_self
    cases others with
    | nil => simpa [Emit.apart] using firstLines
    | cons second others =>
      have othersLines := ih fun item member => each item (List.mem_cons_of_mem _ member)
      exact firstLines.append othersLines.blank

/-- The lines of a file. -/
theorem CompilationUnit.lines_shapes {u : CompilationUnit} (sound : u.Sound) :
    Lines u.lines u.shapes := by
  have comments : Lines (u.header.map ("// " ++ ·)) [] := by
    have lines : Lines (u.header.flatMap fun line => ["// " ++ line])
        (u.header.flatMap fun _ => []) :=
      Lines.flatMap fun line member => Lines.single (line_comment (sound.header line member))
    have nothing : (u.header.flatMap fun _ => ([] : List Shape)) = [] :=
      List.flatMap_eq_nil_iff.mpr fun _ _ => rfl
    rw [nothing] at lines
    rw [List.map_eq_flatMap]
    exact lines
  have package : Lines (if u.packageName.isEmpty then [] else ["package " ++ u.packageName ++ ";"])
      (packageShapes u.packageName) := by
    rw [ne_empty_of_isDotted sound.packageName]
    exact Lines.single (line_dotted closed_package sound.packageName)
  have imports : Lines (u.imports.map fun name => "import " ++ name ++ ";")
      (u.imports.flatMap importShapes) := by
    rw [List.map_eq_flatMap]
    exact Lines.flatMap fun name member =>
      Lines.single (line_dotted closed_import (sound.imports name member).isDotted)
  have classes := Lines.apart fun c member => ClassDef.lines_shapes (sound.classes c member)
  have whole := ((comments.paragraph.append package.paragraph).append imports.paragraph).append classes
  rw [CompilationUnit.shapes, ← List.append_assoc]
  exact whole

/-- **The text of a file has its tokens.** -/
theorem CompilationUnit.spelt {u : CompilationUnit} (sound : u.Sound) : Spelt u.render u.shapes :=
  (CompilationUnit.lines_shapes sound).closed.spelt

end Forwarder.Emit
