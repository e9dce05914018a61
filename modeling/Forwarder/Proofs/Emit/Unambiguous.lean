/-
**What the text of an expression tells.** No parentheses are written around a cast, so a field access or a
call behind the text of a cast may belong to the cast or to its value. Nothing else is left open: the text
of an expression determines it up to where its casts stand.

* `Expr.Legible` — no expression is missing, names are words, and types have no parentheses.
* `Expr.core`, `Expr.casts` — an expression without the casts that its text begins with, and these casts.
* `Expr.regrouped` — the casts around the rest, in the order in which they are written.
* `readExpr` — reads an expression; **`Expr.isRead_render`** — what is read from its text.
* **`render_eq_iff`** — expressions with one text; `cast_not_told` — two of them.
-/

import Forwarder.Emit.Expr
import Forwarder.Proofs.Source.TypeText
import Forwarder.Proofs.Text.Pieces

namespace Forwarder.Emit

/-! ### Legible expressions -/

/-- A character that is no part of a word. -/
def isSign (c : Char) : Bool :=
  c == '(' || c == ')' || c == ',' || c == '.' || c == ' '

/-- A character that may be part of a word. -/
def inWord (c : Char) : Bool :=
  !isSign c

/-- A name: a word that is not one of the two keywords an expression may begin with. -/
structure IsNameWord (name : String) : Prop where
  some_ : name ≠ ""
  word : ∀ c ∈ name.toList, inWord c = true
  notThis : name ≠ "this"
  notNew : name ≠ "new"

/-- A text without parentheses. -/
def HasNoParens (type : String) : Prop :=
  '(' ∉ type.toList ∧ ')' ∉ type.toList

instance (type : String) : Decidable (HasNoParens type) :=
  inferInstanceAs (Decidable (_ ∧ _))

mutual

/-- No expression is missing, names are words, and types have no parentheses. -/
def Expr.Legible : Expr → Prop
  | .missing => False
  | .name name => IsNameWord name
  | .this => True
  | .field target name => target.Legible ∧ IsNameWord name
  | .call name args => IsNameWord name ∧ legibleArgs args
  | .send target name args => target.Legible ∧ IsNameWord name ∧ legibleArgs args
  | .create type args => HasNoParens type ∧ legibleArgs args
  | .cast type value => HasNoParens type ∧ value.Legible

/-- The same for all arguments. -/
def legibleArgs : List Expr → Prop
  | [] => True
  | e :: others => e.Legible ∧ legibleArgs others

end

/-! ### Names and types of the language -/

section Language

open Source (Bound TypeRef TypeSegment isIdentifier)

theorem inWord_of_isIdentPart {c : Char} (part : Source.isIdentPart c = true) : inWord c = true := by
  by_contra other
  have isSign : isSign c = true := by simpa [inWord] using other
  simp only [Emit.isSign, Bool.or_eq_true, beq_iff_eq] at isSign
  rcases isSign with (((rfl | rfl) | rfl) | rfl) | rfl <;> revert part <;> decide

/-- An identifier that is not a keyword is a name. -/
theorem isNameWord_of_isIdentifier {name : String} (named : isIdentifier name = true)
    (notThis : name ≠ "this") (notNew : name ≠ "new") : IsNameWord name where
  some_ := fun empty => Source.ne_nil_of_isIdentifier named (by rw [empty]; rfl)
  word := fun c member => inWord_of_isIdentPart (Source.isIdentPart_of_isIdentifier named c member)
  notThis := notThis
  notNew := notNew

theorem HasNoParens.append {front back : String} (first : HasNoParens front)
    (second : HasNoParens back) : HasNoParens (front ++ back) := by
  rw [HasNoParens, String.toList_append, List.mem_append, List.mem_append, not_or, not_or]
  exact ⟨⟨first.1, second.1⟩, first.2, second.2⟩

theorem hasNoParens_of_isIdentifier {name : String} (named : isIdentifier name = true) :
    HasNoParens name := by
  have word (c : Char) (member : c ∈ name.toList) : inWord c = true :=
    inWord_of_isIdentPart (Source.isIdentPart_of_isIdentifier named c member)
  exact ⟨fun isOpen => absurd (word _ isOpen) (by decide),
    fun isClosed => absurd (word _ isClosed) (by decide)⟩

theorem hasNoParens_brackets (dims : Nat) : HasNoParens (Source.brackets dims) := by
  induction dims with
  | zero => decide
  | succ dims ih =>
    rw [Source.brackets_succ]
    exact HasNoParens.append (by decide) ih

theorem hasNoParens_renderMore {segments : List TypeSegment}
    (each : ∀ segment ∈ segments, HasNoParens segment.render) :
    HasNoParens (Source.renderMore segments) := by
  induction segments with
  | nil => decide
  | cons segment segments ih =>
    obtain ⟨first, others⟩ := List.forall_mem_cons.mp each
    rw [Source.renderMore]
    exact (HasNoParens.append (by decide) first).append (ih others)

theorem hasNoParens_renderArgs {args : List TypeRef} (each : ∀ arg ∈ args, HasNoParens arg.render) :
    HasNoParens (Source.renderArgs args) := by
  induction args with
  | nil => decide
  | cons arg args ih =>
    obtain ⟨first, others⟩ := List.forall_mem_cons.mp each
    cases args with
    | nil => exact first
    | cons next args => exact (first.append (by decide)).append (ih others)

/-- The text of a type whose names are identifiers has no parentheses. -/
theorem hasNoParens_render {type : TypeRef} (worded : type.Worded) : HasNoParens type.render := by
  refine TypeRef.holds (P := fun type => type.Worded → HasNoParens type.render)
    (Q := fun segment => segment.Worded → HasNoParens segment.render) ?_ ?_ ?_ ?_ ?_ ?_ type worded
  · exact fun _ dims _ => HasNoParens.append (by decide) (hasNoParens_brackets dims)
  · exact fun _ _ dims _ => HasNoParens.append (by decide) (hasNoParens_brackets dims)
  · intro _ bound type dims ih worded
    have keyword : HasNoParens ("? " ++ bound.keyword ++ " ") := by
      cases bound <;> decide
    exact (keyword.append (ih (Source.worded_bounded.mp worded))).append (hasNoParens_brackets dims)
  · intro _ first others dims ihFirst ihOthers worded
    obtain ⟨isFirst, isOthers⟩ := List.forall_mem_cons.mp (Source.worded_named.mp worded)
    refine ((ihFirst isFirst).append (hasNoParens_renderMore fun segment member => ?_)).append
      (hasNoParens_brackets dims)
    exact ihOthers segment member (isOthers segment member)
  · exact fun _ worded => hasNoParens_of_isIdentifier worded.name
  · intro name args ih worded
    have ofArgs := hasNoParens_renderArgs fun arg member => ih arg member (worded.args arg member)
    have ofName := hasNoParens_of_isIdentifier worded.name
    exact ((ofName.append (by decide)).append ofArgs).append (by decide)

end Language

/-! ### Casts in front -/

/-- The casts that the text of an expression begins with. -/
def Expr.casts : Expr → List String
  | .field target _ => target.casts
  | .send target _ _ => target.casts
  | .cast type value => type :: value.casts
  | _ => []

/-- The expression with casts around it, the first one outermost. -/
def Expr.under (types : List String) (e : Expr) : Expr :=
  types.foldr .cast e

mutual

/-- The expression without the casts that its text begins with. -/
def Expr.core : Expr → Expr
  | .field target name => .field target.core name
  | .call name args => .call name (regroupedArgs args)
  | .send target name args => .send target.core name (regroupedArgs args)
  | .create type args => .create type (regroupedArgs args)
  | .cast _ value => value.core
  | e => e

/-- The arguments, each with its casts around the rest of it. -/
def regroupedArgs : List Expr → List Expr
  | [] => []
  | e :: others => e.core.under e.casts :: regroupedArgs others

end

/-- The expression with its casts around the rest of it, and so in every argument. -/
def Expr.regrouped (e : Expr) : Expr :=
  e.core.under e.casts

/-! ### Reading with fuel -/

section Settles

variable {α β : Type}

/-- With enough fuel the value is this. -/
def Settles (f : Nat → Option α) (a : α) : Prop :=
  ∃ n, ∀ m, n ≤ m → f m = some a

variable {f g : Nat → Option α} {a a' : α}

theorem Settles.unique (first : Settles f a) (second : Settles f a') : a = a' := by
  obtain ⟨n, each⟩ := first
  obtain ⟨n', each'⟩ := second
  have same := each (max n n') (Nat.le_max_left _ _)
  rw [each' _ (Nat.le_max_right _ _)] at same
  exact (Option.some.inj same).symm

theorem Settles.step (g : Nat → Option α) (later : Settles g a) (step : ∀ n, f (n + 1) = g n) :
    Settles f a := by
  obtain ⟨n, each⟩ := later
  refine ⟨n + 1, fun m enough => ?_⟩
  obtain ⟨less, rfl⟩ : ∃ less, m = less + 1 := ⟨m - 1, by omega⟩
  rw [step, each less (Nat.le_of_succ_le_succ enough)]

theorem Settles.const (a : α) : Settles (fun _ => some a) a :=
  ⟨0, fun _ _ => rfl⟩

theorem Settles.bind (further : Nat → α → Option β) {b : β} (first : Settles f a)
    (second : Settles (further · a) b) : Settles (fun n => (f n).bind (further n)) b := by
  obtain ⟨n, each⟩ := first
  obtain ⟨n', each'⟩ := second
  refine ⟨max n n', fun m enough => ?_⟩
  show (f m).bind (further m) = some b
  rw [each m (Nat.le_trans (Nat.le_max_left _ _) enough)]
  exact each' m (Nat.le_trans (Nat.le_max_right _ _) enough)

theorem Settles.map (g : α → β) (settles : Settles f a) : Settles (fun n => (f n).map g) (g a) := by
  obtain ⟨n, each⟩ := settles
  refine ⟨n, fun m enough => ?_⟩
  show (f m).map g = some (g a)
  rw [each m enough, Option.map_some]

end Settles

/-! ### A reader of expressions -/

/-- What was read, and the text behind it. -/
abbrev Read (α : Type) :=
  α × List Char

/-- The word at the front of a text. -/
def wordOf (text : List Char) : String :=
  String.ofList (text.takeWhile inWord)

/-- What is behind the word at the front of a text. -/
def behindWord (text : List Char) : List Char :=
  text.dropWhile inWord

/-- The front of a text up to a mark. -/
def upTo (mark : Char) (text : List Char) : String :=
  String.ofList (text.takeWhile (· != mark))

/-- What is behind a mark in a text. -/
def behind (mark : Char) (text : List Char) : List Char :=
  (text.dropWhile (· != mark)).tail

mutual

/-- Reads an expression at the front of a text. A cast reaches as far as the expression behind it. -/
def readExpr : Nat → List Char → Option (Read Expr)
  | 0, _ => none
  | n + 1, text =>
    if text.head? = some '(' then
      (readExpr n (behind ')' text.tail).tail).map fun x => (.cast (upTo ')' text.tail) x.1, x.2)
    else if wordOf text = "" then none
    else if wordOf text = "new" then
      (readArgs n (behind '(' (behindWord text).tail)).bind fun x =>
        readBehind n (.create (upTo '(' (behindWord text).tail) x.1) x.2
    else if (behindWord text).head? = some '(' then
      (readArgs n (behindWord text).tail).bind fun x => readBehind n (.call (wordOf text) x.1) x.2
    else readBehind n (if wordOf text = "this" then .this else .name (wordOf text)) (behindWord text)

/-- Reads the field accesses and calls behind an expression. -/
def readBehind : Nat → Expr → List Char → Option (Read Expr)
  | 0, _, _ => none
  | n + 1, e, text =>
    if text.head? = some '.' then
      if (behindWord text.tail).head? = some '(' then
        (readArgs n (behindWord text.tail).tail).bind fun x =>
          readBehind n (.send e (wordOf text.tail) x.1) x.2
      else readBehind n (.field e (wordOf text.tail)) (behindWord text.tail)
    else some (e, text)

/-- Reads arguments up to the closing parenthesis. -/
def readArgs : Nat → List Char → Option (Read (List Expr))
  | 0, _ => none
  | n + 1, text =>
    if text.head? = some ')' then some ([], text.tail)
    else (readExpr n text).bind fun x =>
      if x.2.head? = some ')' then some ([x.1], x.2.tail)
      else (readArgs n (x.2.drop 2)).map fun others => (x.1 :: others.1, others.2)

end

namespace Expr

variable {name type : String} {e value r : Expr} {args others : List Expr} {text rest rest' : List Char}

/-- The expression is read at the front of the text. -/
def IsRead (text : List Char) (e : Expr) (rest : List Char) : Prop :=
  Settles (readExpr · text) (e, rest)

/-- Behind the expression the text goes on to a larger one. -/
def Extends (e : Expr) (text : List Char) (r : Expr) (rest : List Char) : Prop :=
  Settles (readBehind · e text) (r, rest)

/-- The arguments are read at the front of the text. -/
def AreRead (text : List Char) (args : List Expr) (rest : List Char) : Prop :=
  Settles (readArgs · text) (args, rest)

/-- An expression may end before this text. -/
def Seam (text : List Char) : Prop :=
  ∀ c ∈ text.head?, c = '.' ∨ c = ',' ∨ c = ')'

theorem Seam.stops (seam : Seam text) : ∀ c ∈ text.head?, inWord c = false := by
  intro c isFirst
  rcases seam c isFirst with rfl | rfl | rfl <;> rfl

theorem Seam.notOpen (seam : Seam text) : text.head? ≠ some '(' := by
  intro isOpen
  rcases seam '(' isOpen with same | same | same <;> cases same

/-- Expressions do not begin with a parenthesis that closes. -/
theorem IsRead.notClosed (read : IsRead text e rest) : text.head? ≠ some ')' := by
  intro closed
  obtain ⟨text, rfl⟩ := List.head?_eq_some_iff.mp closed
  obtain ⟨n, each⟩ := read
  have read : readExpr (n + 1) (')' :: text) = some (e, rest) := each (n + 1) (Nat.le_succ n)
  have empty : wordOf (')' :: text) = "" := rfl
  rw [readExpr, if_neg (by simp), if_pos empty] at read
  cases read

section Words

variable (isName : IsNameWord name)

include isName

theorem wordOf_name (stops : ∀ c ∈ text.head?, inWord c = false) : wordOf (name.toList ++ text) = name := by
  rw [wordOf, Text.takeWhile_run isName.word stops, String.ofList_toList]

theorem behindWord_name (stops : ∀ c ∈ text.head?, inWord c = false) :
    behindWord (name.toList ++ text) = text :=
  Text.dropWhile_run isName.word stops

theorem head_name : (name.toList ++ text).head? ≠ some '(' := by
  cases chars : name.toList with
  | nil => exact absurd (String.toList_eq_nil_iff.mp chars) isName.some_
  | cons c cs =>
    rintro ⟨⟩
    have isWord := isName.word '(' (chars ▸ List.mem_cons_self)
    cases isWord

end Words

theorem stops_open : ∀ c ∈ ('(' :: text).head?, inWord c = false := by
  rintro _ ⟨⟩
  rfl

theorem upTo_mark {mark : Char} (free : mark ∉ type.toList) :
    upTo mark (type.toList ++ mark :: text) = type := by
  have kept : ∀ c ∈ type.toList, (c != mark) = true := fun c member => by
    simpa using fun same : c = mark => free (same ▸ member)
  rw [upTo, Text.takeWhile_run kept (by simp), String.ofList_toList]

theorem behind_mark {mark : Char} (free : mark ∉ type.toList) :
    behind mark (type.toList ++ mark :: text) = text := by
  have kept : ∀ c ∈ type.toList, (c != mark) = true := fun c member => by
    simpa using fun same : c = mark => free (same ▸ member)
  rw [behind, Text.dropWhile_run kept (by simp), List.tail_cons]

/-! ### One form after the other -/

theorem IsRead.ofCast (closed : ')' ∉ type.toList) (read : IsRead text value rest) :
    IsRead ('(' :: (type.toList ++ ')' :: ' ' :: text)) (.cast type value) rest := by
  refine (Settles.map (fun x : Read Expr => (Expr.cast type x.1, x.2)) read).step _ fun n => ?_
  rw [readExpr, if_pos List.head?_cons, List.tail_cons, upTo_mark closed, behind_mark closed,
    List.tail_cons]

theorem IsRead.ofCreate (closed : '(' ∉ type.toList) (areRead : AreRead text args rest)
    (extended : (Expr.create type args).Extends rest r rest') :
    IsRead ("new ".toList ++ (type.toList ++ '(' :: text)) r rest' := by
  have word : wordOf ("new ".toList ++ (type.toList ++ '(' :: text)) = "new" := rfl
  have past : behindWord ("new ".toList ++ (type.toList ++ '(' :: text)) =
      ' ' :: (type.toList ++ '(' :: text) := rfl
  refine (Settles.bind (fun n (x : Read (List Expr)) => readBehind n (.create type x.1) x.2) areRead
    extended).step _ fun n => ?_
  rw [readExpr, if_neg (by simp), word, if_neg (by decide), if_pos rfl, past, List.tail_cons,
    upTo_mark closed, behind_mark closed]

theorem IsRead.ofCall (isName : IsNameWord name) (areRead : AreRead text args rest)
    (extended : (Expr.call name args).Extends rest r rest') :
    IsRead (name.toList ++ '(' :: text) r rest' := by
  refine (Settles.bind (fun n (x : Read (List Expr)) => readBehind n (.call name x.1) x.2) areRead
    extended).step _ fun n => ?_
  rw [readExpr, if_neg (head_name isName), wordOf_name isName stops_open,
    behindWord_name isName stops_open, if_neg isName.some_, if_neg isName.notNew,
    if_pos List.head?_cons, List.tail_cons]

theorem IsRead.ofName (isName : IsNameWord name) (seam : Seam text)
    (extended : (Expr.name name).Extends text r rest) : IsRead (name.toList ++ text) r rest := by
  refine Settles.step _ extended fun n => ?_
  rw [readExpr, if_neg (head_name isName), wordOf_name isName seam.stops,
    behindWord_name isName seam.stops, if_neg isName.some_, if_neg isName.notNew, if_neg seam.notOpen,
    if_neg isName.notThis]

theorem IsRead.ofThis (seam : Seam text) (extended : Expr.this.Extends text r rest) :
    IsRead ("this".toList ++ text) r rest := by
  have word : ∀ c ∈ "this".toList, inWord c = true := List.all_eq_true.mp (by decide)
  have isWord : wordOf ("this".toList ++ text) = "this" := by
    rw [wordOf, Text.takeWhile_run word seam.stops, String.ofList_toList]
  have past : behindWord ("this".toList ++ text) = text := Text.dropWhile_run word seam.stops
  refine Settles.step _ extended fun n => ?_
  rw [readExpr, if_neg (by simp), isWord, past, if_neg (by decide), if_neg (by decide),
    if_neg seam.notOpen, if_pos rfl]

theorem Extends.stop (ends : text.head? ≠ some '.') : e.Extends text e text :=
  (Settles.const (e, text)).step _ fun n => by rw [readBehind, if_neg ends]

theorem Extends.ofField (isName : IsNameWord name) (seam : Seam text)
    (extended : (Expr.field e name).Extends text r rest) :
    e.Extends ('.' :: (name.toList ++ text)) r rest := by
  refine Settles.step _ extended fun n => ?_
  rw [readBehind, if_pos List.head?_cons, List.tail_cons, wordOf_name isName seam.stops,
    behindWord_name isName seam.stops, if_neg seam.notOpen]

theorem Extends.ofSend (isName : IsNameWord name) (areRead : AreRead text args rest)
    (extended : (Expr.send e name args).Extends rest r rest') :
    e.Extends ('.' :: (name.toList ++ '(' :: text)) r rest' := by
  refine (Settles.bind (fun n (x : Read (List Expr)) => readBehind n (.send e name x.1) x.2) areRead
    extended).step _ fun n => ?_
  rw [readBehind, if_pos List.head?_cons, List.tail_cons, wordOf_name isName stops_open,
    behindWord_name isName stops_open, if_pos List.head?_cons, List.tail_cons]

theorem AreRead.none_ : AreRead (')' :: text) [] text :=
  (Settles.const ([], text)).step _ fun n => by rw [readArgs, if_pos List.head?_cons, List.tail_cons]

/-- What is read behind an argument. -/
theorem AreRead.ofFirst (read : IsRead text e rest)
    (others_ : Settles (fun n => if rest.head? = some ')' then some ([e], rest.tail)
      else (readArgs n (rest.drop 2)).map fun others => (e :: others.1, others.2)) (args, rest')) :
    AreRead text args rest' := by
  refine (Settles.bind (fun n (x : Read Expr) => if x.2.head? = some ')' then some ([x.1], x.2.tail)
    else (readArgs n (x.2.drop 2)).map fun others => (x.1 :: others.1, others.2)) read others_).step _
    fun n => ?_
  rw [readArgs, if_neg read.notClosed]

theorem AreRead.last (read : IsRead text e (')' :: rest)) : AreRead text [e] rest :=
  .ofFirst read (Settles.const ([e], rest))

theorem AreRead.more (read : IsRead text e (',' :: ' ' :: rest)) (areRead : AreRead rest others rest') :
    AreRead text (e :: others) rest' :=
  .ofFirst read (Settles.map (fun others : Read (List Expr) => (e :: others.1, others.2)) areRead)

end Expr

/-! ### What is read from the text of an expression -/

open Forwarder.Emit.Expr (AreRead Extends IsRead Seam)

theorem seam_of_point {text : List Char} : Seam ('.' :: text) := by
  rintro _ ⟨⟩
  exact .inl rfl

theorem seam_of_comma {text : List Char} : Seam (',' :: text) := by
  rintro _ ⟨⟩
  exact .inr (.inl rfl)

theorem seam_of_closed {text : List Char} : Seam (')' :: text) := by
  rintro _ ⟨⟩
  exact .inr (.inr rfl)

mutual

/-- What is read from the text of an expression is what its core extends to, with its casts around it. -/
theorem Expr.isRead_append : ∀ (e : Expr), e.Legible → ∀ {text : List Char} {r : Expr} {rest : List Char},
    Seam text → e.core.Extends text r rest → IsRead (e.render.toList ++ text) (r.under e.casts) rest
  | .missing, legible, _, _, _, _, _ => legible.elim
  | .name _, legible, _, _, _, seam, extended => IsRead.ofName legible seam extended
  | .this, _, _, _, _, seam, extended => IsRead.ofThis seam extended
  | .field target name, legible, text, r, rest, seam, extended => by
    obtain ⟨isTarget, isName⟩ := legible
    have read := target.isRead_append isTarget seam_of_point (Extends.ofField isName seam extended)
    simpa [Expr.render, Expr.casts] using read
  | .call name args, legible, text, r, rest, _, extended => by
    obtain ⟨isName, areLegible⟩ := legible
    have read := IsRead.ofCall isName (areRead_append args areLegible text) extended
    simpa [Expr.render, Expr.casts, Expr.under] using read
  | .send target name args, legible, text, r, rest, _, extended => by
    obtain ⟨isTarget, isName, areLegible⟩ := legible
    have read := target.isRead_append isTarget seam_of_point
      (Extends.ofSend isName (areRead_append args areLegible text) extended)
    simpa [Expr.render, Expr.casts] using read
  | .create type args, legible, text, r, rest, _, extended => by
    obtain ⟨isType, areLegible⟩ := legible
    have read := IsRead.ofCreate isType.1 (areRead_append args areLegible text) extended
    simpa [Expr.render, Expr.casts, Expr.under] using read
  | .cast type value, legible, text, r, rest, seam, extended => by
    obtain ⟨isType, isValue⟩ := legible
    have read := IsRead.ofCast isType.2 (value.isRead_append isValue seam extended)
    simpa [Expr.render, Expr.casts, Expr.under] using read

/-- Arguments are read with the casts of each around the rest of it. -/
theorem areRead_append : ∀ (args : List Expr), legibleArgs args → ∀ text : List Char,
    AreRead ((renderExprs args).toList ++ ')' :: text) (regroupedArgs args) text
  | [], _, _ => AreRead.none_
  | [e], legible, text =>
    AreRead.last (e.isRead_append legible.1 seam_of_closed (Extends.stop (by simp)))
  | e :: next :: others, legible, text => by
    have later := areRead_append (next :: others) legible.2 text
    have read := AreRead.more (e.isRead_append legible.1 seam_of_comma (Extends.stop (by simp))) later
    simpa [renderExprs, regroupedArgs] using read

end

/-- **What is read from the text of an expression** is the expression with its casts around the rest. -/
theorem Expr.isRead_render {e : Expr} (legible : e.Legible) : IsRead e.render.toList e.regrouped [] := by
  have ends : Seam [] := fun _ isFirst => absurd isFirst (Option.not_mem_none _)
  have read := e.isRead_append legible ends (Extends.stop (by simp))
  rwa [List.append_nil] at read

/-! ### The text of an expression with its casts moved -/

/-- The text of casts. -/
def castText : List String → String
  | [] => ""
  | type :: types => "(" ++ type ++ ") " ++ castText types

theorem Expr.render_under (types : List String) (e : Expr) :
    (e.under types).render = castText types ++ e.render := by
  induction types with
  | nil => simp [Expr.under, castText]
  | cons type types ih =>
    have inner : (e.under (type :: types)).render = "(" ++ type ++ ") " ++ (e.under types).render := by
      simp [Expr.under, Expr.render]
    rw [inner, ih, castText]
    simp only [String.append_assoc]

mutual

/-- The text of an expression is that of its casts and of the rest of it. -/
theorem Expr.render_eq_append : ∀ e : Expr, e.render = castText e.casts ++ e.core.render
  | .missing | .this | .name _ => by simp [Expr.casts, Expr.core, castText]
  | .field target name => by
    rw [Expr.render, target.render_eq_append, Expr.casts, Expr.core, Expr.render]
    simp only [String.append_assoc]
  | .call name args => by simp [Expr.casts, Expr.core, castText, Expr.render, renderExprs_regrouped args]
  | .send target name args => by
    rw [Expr.render, target.render_eq_append, Expr.casts, Expr.core, Expr.render,
      renderExprs_regrouped args]
    simp only [String.append_assoc]
  | .create type args => by
    simp [Expr.casts, Expr.core, castText, Expr.render, renderExprs_regrouped args]
  | .cast type value => by
    rw [Expr.render, value.render_eq_append, Expr.casts, Expr.core, castText]
    simp only [String.append_assoc]

theorem renderExprs_regrouped : ∀ args : List Expr, renderExprs (regroupedArgs args) = renderExprs args
  | [] => rfl
  | [e] => by
    rw [regroupedArgs, regroupedArgs, renderExprs, Expr.render_under, ← e.render_eq_append, renderExprs]
  | e :: next :: others => by
    show (e.core.under e.casts).render ++ ", " ++ renderExprs (regroupedArgs (next :: others)) =
      e.render ++ ", " ++ renderExprs (next :: others)
    rw [Expr.render_under, ← e.render_eq_append, renderExprs_regrouped (next :: others)]

end

namespace Expr

/-- The expression with its casts around the rest has the same text. -/
theorem render_regrouped (e : Expr) : e.regrouped.render = e.render := by
  rw [regrouped, render_under, ← e.render_eq_append]

end Expr

/-! ### Expressions without a cast as a target -/

/-- The expression is a cast. -/
def Expr.isCast : Expr → Bool
  | .cast _ _ => true
  | _ => false

mutual

/-- No field access and no call has a cast as its target. -/
def Expr.Grouped : Expr → Prop
  | .field target _ => target.isCast = false ∧ target.Grouped
  | .call _ args => argsGrouped args
  | .send target _ args => target.isCast = false ∧ target.Grouped ∧ argsGrouped args
  | .create _ args => argsGrouped args
  | .cast _ value => value.Grouped
  | _ => True

/-- The same for all arguments. -/
def argsGrouped : List Expr → Prop
  | [] => True
  | e :: others => e.Grouped ∧ argsGrouped others

end

/-- The text of such an expression begins with a cast only if the expression is one. -/
theorem Expr.casts_of_grouped : ∀ e : Expr, e.Grouped → e.isCast = false → e.casts = []
  | .missing, _, _ | .name _, _, _ | .this, _, _ | .call _ _, _, _ | .create _ _, _, _ => rfl
  | .field target _, grouped, _ => target.casts_of_grouped grouped.2 grouped.1
  | .send target _ _, grouped, _ => target.casts_of_grouped grouped.2.1 grouped.1
  | .cast _ _, _, noCast => nomatch noCast

/-- Its core is the expression itself, if this is no cast. -/
theorem Expr.core_of_regrouped {e : Expr} (grouped : e.Grouped) (noCast : e.isCast = false)
    (same : e.regrouped = e) : e.core = e := by
  rwa [regrouped, e.casts_of_grouped grouped noCast] at same

mutual

/-- An expression without a cast as a target has its casts around the rest already. -/
theorem Expr.regrouped_of_grouped : ∀ e : Expr, e.Grouped → e.regrouped = e
  | .missing, _ | .name _, _ | .this, _ => rfl
  | .field target name, grouped => by
    have core := Expr.core_of_regrouped grouped.2 grouped.1 (target.regrouped_of_grouped grouped.2)
    rw [Expr.regrouped, Expr.casts_of_grouped _ grouped rfl, Expr.core, core]
    rfl
  | .call name args, grouped => by
    rw [Expr.regrouped, Expr.casts_of_grouped _ grouped rfl, Expr.core,
      regroupedArgs_of_grouped args grouped]
    rfl
  | .send target name args, grouped => by
    have core := Expr.core_of_regrouped grouped.2.1 grouped.1 (target.regrouped_of_grouped grouped.2.1)
    rw [Expr.regrouped, Expr.casts_of_grouped _ grouped rfl, Expr.core, core,
      regroupedArgs_of_grouped args grouped.2.2]
    rfl
  | .create type args, grouped => by
    rw [Expr.regrouped, Expr.casts_of_grouped _ grouped rfl, Expr.core,
      regroupedArgs_of_grouped args grouped]
    rfl
  | .cast type value, grouped => congrArg (Expr.cast type) (value.regrouped_of_grouped grouped)

theorem regroupedArgs_of_grouped : ∀ args : List Expr, argsGrouped args → regroupedArgs args = args
  | [], _ => rfl
  | e :: others, grouped =>
    congrArg₂ List.cons (e.regrouped_of_grouped grouped.1) (regroupedArgs_of_grouped others grouped.2)

end

/-! ### Expressions with one text -/

/-- **When expressions have one text.** Two expressions, in which none is missing, names are identifiers
that are no keywords and types are texts of types, have the same text exactly if they are the same
once every cast at the front of a text is put around all that is written behind it. So they are the same
if no field access and no call in them has a cast as its target. -/
theorem Expr.render_eq_iff (e e' : Expr) (legible : e.Legible) (legible' : e'.Legible) :
    (e.render = e'.render ↔ e.regrouped = e'.regrouped) ∧
      (e.Grouped → e'.Grouped → e.render = e'.render → e = e') := by
  have told : e.render = e'.render ↔ e.regrouped = e'.regrouped := by
    constructor
    · intro same
      have read := isRead_render legible
      rw [same] at read
      exact (Prod.mk.inj (read.unique (isRead_render legible'))).1
    · intro same
      rw [← e.render_regrouped, same, e'.render_regrouped]
  refine ⟨told, fun grouped grouped' same => ?_⟩
  rw [← e.regrouped_of_grouped grouped, told.mp same, e'.regrouped_of_grouped grouped']

section Examples

open Source (TypeRef)

/-- The type `List<T>`. -/
def listOfT : TypeRef :=
  .named [] (.applied "List" [.named [] (.plain "T") [] 0]) [] 0

/-- A value, cast to this type. -/
def castWhole : Expr :=
  .cast listOfT.render (.send (.thisField "delegate") "get" [.name "index"])

/-- A delegate, cast to this type, and what is called on it. -/
def castTarget : Expr :=
  .send (.cast listOfT.render (.thisField "delegate")) "get" [.name "index"]

theorem isNameWord_delegate : IsNameWord "delegate" :=
  isNameWord_of_isIdentifier (by decide) (by decide) (by decide)

theorem isNameWord_get : IsNameWord "get" :=
  isNameWord_of_isIdentifier (by decide) (by decide) (by decide)

theorem isNameWord_index : IsNameWord "index" :=
  isNameWord_of_isIdentifier (by decide) (by decide) (by decide)

theorem worded_listOfT : listOfT.Worded := by
  unfold TypeRef.Worded
  decide

theorem legible_castWhole : castWhole.Legible :=
  ⟨hasNoParens_render worded_listOfT, ⟨trivial, isNameWord_delegate⟩, isNameWord_get, isNameWord_index,
    trivial⟩

theorem legible_castTarget : castTarget.Legible :=
  ⟨⟨hasNoParens_render worded_listOfT, trivial, isNameWord_delegate⟩, isNameWord_get, isNameWord_index,
    trivial⟩

theorem Expr.render_eq_iff_list :
    castWhole.Legible ∧ castTarget.Legible ∧ castWhole.render = castTarget.render ∧
      castWhole.Grouped ∧ (Expr.name "index").Legible ∧ (Expr.name "index").Grouped ∧
      castWhole.render ≠ (Expr.name "index").render := by
  have told := (render_eq_iff castWhole castTarget legible_castWhole legible_castTarget).1
  have grouped : castWhole.Grouped := ⟨rfl, ⟨rfl, trivial⟩, trivial, trivial⟩
  refine ⟨legible_castWhole, legible_castTarget, told.mpr rfl, grouped, isNameWord_index, trivial,
    fun same => ?_⟩
  cases (render_eq_iff castWhole (.name "index") legible_castWhole isNameWord_index).2 grouped trivial same

/-- **A cast does not tell how far it reaches.** A call on a cast and a cast of a call have one text. -/
theorem cast_not_told :
    castWhole.Legible ∧ castTarget.Legible ∧ castWhole ≠ castTarget ∧
      castWhole.render = "(List<T>) this.delegate.get(index)" ∧
      castTarget.render = "(List<T>) this.delegate.get(index)" :=
  ⟨legible_castWhole, legible_castTarget, Expr.noConfusion, by decide, by decide⟩

end Examples

end Forwarder.Emit
