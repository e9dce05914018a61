/-
**Expressions of generated code** and their text.

* `Expr`, `Statement` — what the body of a generated method is made of.
* `Expr.render`, `Statement.render` — their text, without the indentation.
-/

import Forwarder.Text.Pieces

namespace Forwarder.Emit

/-- An expression. -/
inductive Expr
  /-- No expression; it is written as nothing. -/
  | missing
  | name (name : String)
  | this
  | field (target : Expr) (name : String)
  /-- A call without a target. -/
  | call (name : String) (args : List Expr)
  /-- A call on a target. -/
  | send (target : Expr) (name : String) (args : List Expr)
  | create (type : String) (args : List Expr)
  | cast (type : String) (value : Expr)
deriving Repr

/-- A field of the object itself. -/
def Expr.thisField (name : String) : Expr :=
  .field .this name

/-- There is no expression. -/
def Expr.isMissing : Expr → Bool
  | .missing => true
  | _ => false

/-- A call, with or without a target. -/
def Expr.callOn (target : Expr) (name : String) (args : List Expr) : Expr :=
  if target.isMissing then .call name args else .send target name args

mutual

/-- The text of an expression. -/
def Expr.render : Expr → String
  | .missing => ""
  | .name name => name
  | .this => "this"
  | .field target name => target.render ++ "." ++ name
  | .call name args => name ++ "(" ++ renderExprs args ++ ")"
  | .send target name args => target.render ++ "." ++ name ++ "(" ++ renderExprs args ++ ")"
  | .create type args => "new " ++ type ++ "(" ++ renderExprs args ++ ")"
  | .cast type value => "(" ++ type ++ ") " ++ value.render

/-- Arguments, with a comma and a space between them. -/
def renderExprs : List Expr → String
  | [] => ""
  | [e] => e.render
  | e :: others => e.render ++ ", " ++ renderExprs others

end

/-- A statement. -/
inductive Statement
  /-- Returns a value, or nothing if the value is missing. -/
  | returns (value : Expr)
  | run (value : Expr)
  | assign (target value : Expr)
deriving Repr

/-- The text of a statement. -/
def Statement.render : Statement → String
  | .returns value => if value.isMissing then "return;" else "return " ++ value.render ++ ";"
  | .run value => value.render ++ ";"
  | .assign target value => target.render ++ " = " ++ value.render ++ ";"

end Forwarder.Emit
