/-
**Anchors, tags and directives.** The names that nodes are given, what they are said to be, and the
lines in front of a document that tell what is short for what.

* `Cursor.anchor` — the name of a node.
* `Tag`, `Cursor.tag` — what a node is said to be, in two parts; the first may be short for more.
* `Directive`, `Cursor.directive` — a line that tells the version, or what a part of a tag is short
  for.
-/

import Forwarder.Text.Bytes
import Forwarder.Yaml.Scalar

namespace Forwarder.Yaml

/-! ### Anchors -/

/-- Characters that may follow a name besides blanks. -/
def nameEnds : List Char :=
  ['?', ':', ',', ']', '\x7d', '%', '@', '\x60']

/-- A name behind its mark, and the place behind it. -/
def Cursor.anchor (c : Cursor) : Except Problem (String × Cursor) := do
  let (name, c) ← c.step.span isWord
  if name.isEmpty || !(atGap c.rest || c.head?.any nameEnds.contains) then throw .badAnchor
  return (String.ofList name, c)

/-! ### Tags -/

/-- What a node is said to be: a handle, which is short for something, and the rest. -/
structure Tag where
  handle : String
  suffix : String
deriving DecidableEq, Repr

/-- A character of a tag. -/
def isTagChar (c : Char) : Bool :=
  isWord c || [';', '/', '?', ':', '@', '&', '=', '+', '$', ',', '.', '!', '~', '*', '\'', '(', ')',
    '[', ']', '%'].contains c

/-- How many bytes a character takes that starts with the byte. -/
def sequenceLength (byte : Nat) : Nat :=
  if byte < 0x80 then 1
  else if byte < 0xC0 then 0
  else if byte < 0xE0 then 2
  else if byte < 0xF0 then 3
  else if byte < 0xF8 then 4
  else 0

/-- The bytes of a tag in which percent signs stand in front of two hexadecimal digits. `pending` is
how many bytes of a character are still to come. -/
def tagBytes? : Nat → List Char → Option (List UInt8)
  | pending, '%' :: a :: b :: rest =>
    match hexValue? [a, b] with
    | none => none
    | some byte =>
      let length := if pending = 0 then sequenceLength byte else pending
      if length = 0 ∨ (pending > 0 ∧ (byte < 0x80 ∨ 0xC0 ≤ byte)) then none
      else (tagBytes? (length - 1) rest).map (byte.toUInt8 :: ·)
  | 0, c :: rest => if c = '%' then none else (tagBytes? 0 rest).map (c.toNat.toUInt8 :: ·)
  | 0, [] => some []
  | _ + 1, _ => none

/-- The characters of a tag, and the place behind it. -/
def Cursor.tagText (c : Cursor) : Except Problem (String × Cursor) := do
  let (cs, c) ← c.span isTagChar
  match tagBytes? 0 cs with
  | some bytes => return (Text.ofBytes bytes, c)
  | none => throw .badTag

/-- A handle: an exclamation mark, and a name with another one behind it if there is one. -/
def Cursor.handle (c : Cursor) : Except Problem (String × Cursor) := do
  c.need 1
  if c.head? ≠ some '!' then throw .badTag
  let (name, c) ← c.step.span isWord
  if c.head? = some '!' then return ("!" ++ String.ofList name ++ "!", c.step)
  return ("!" ++ String.ofList name, c)

/-- A tag, and the place behind it. -/
def Cursor.tag (c : Cursor) : Except Problem (Tag × Cursor) := do
  c.need 2
  let (tag, c) ← (do
    if ['!', '<'].isPrefixOf c.rest then
      let (suffix, c) ← (c.skip 2).tagText
      if suffix.isEmpty || c.head? ≠ some '>' then throw .badTag
      return (⟨"", suffix⟩, c.step)
    else
      let (handle, behind) ← c.handle
      if handle.length > 1 && handle.toList.getLast? == some '!' then
        let (suffix, c) ← behind.tagText
        if suffix.isEmpty then throw .badTag
        return (⟨handle, suffix⟩, c)
      else
        let (more, c) ← behind.tagText
        let suffix := String.ofList (handle.toList.drop 1) ++ more
        return (if suffix.isEmpty then ⟨"", "!"⟩ else ⟨"!", suffix⟩, c))
  c.need 1
  if !atGap c.rest then throw .badTag
  return (tag, c)

/-! ### Directives -/

/-- A line in front of a document. -/
inductive Directive
  | version (major minor : Nat)
  /-- What a handle is short for. -/
  | handle (name long : String)
deriving DecidableEq, Repr

/-- A number of one or two digits. -/
def Cursor.versionNumber (c : Cursor) : Except Problem (Nat × Cursor) := do
  let (ds, c) ← c.span Char.isDigit
  if ds.isEmpty || ds.length > 2 then throw .badDirective
  return (ds.foldl (fun n d => 10 * n + (d.toNat - '0'.toNat)) 0, c)

/-- The version of a directive. -/
def Cursor.version (c : Cursor) : Except Problem (Directive × Cursor) := do
  let (_, c) ← c.span isBlank
  let (major, c) ← c.versionNumber
  if c.head? ≠ some '.' then throw .badDirective
  let (minor, c) ← c.step.versionNumber
  return (.version major minor, c)

/-- The handle of a directive and what it is short for. -/
def Cursor.abbreviation (c : Cursor) : Except Problem (Directive × Cursor) := do
  let (_, c) ← c.span isBlank
  let (name, c) ← c.handle
  if name ≠ "!" ∧ (name.length = 1 ∨ name.toList.getLast? ≠ some '!') then throw .badDirective
  let (blanks, c) ← c.span isBlank
  let (long, c) ← c.tagText
  if blanks.isEmpty || long.isEmpty || !atGap c.rest then throw .badDirective
  return (.handle name long, c)

/-- A directive, and the place behind its line. -/
def Cursor.directive (c : Cursor) : Except Problem (Directive × Cursor) := do
  let (name, c) ← c.step.span isWord
  if !atGap c.rest then throw .badDirective
  let (directive, c) ←
    if name = ['Y', 'A', 'M', 'L'] then c.version
    else if name = ['T', 'A', 'G'] then c.abbreviation
    else throw .badDirective
  let (_, c) ← c.span isBlank
  let (_, c) ← if c.head? = some '#' then c.span (!isBreak ·) else pure ([], c)
  match c.head? with
  | none => return (directive, c)
  | some ch => if isBreak ch then return (directive, ← c.skipBreak) else throw .strayMark

end Forwarder.Yaml
