/-
**Nodes.** The tree that a document stands for.

* `Node` — scalars, sequences and mappings, and nodes that stand for others by their names.
* `documents` — the documents of a text one after the other, up to the first that cannot be read.
-/

import Forwarder.Yaml.Meaning
import Forwarder.Yaml.Token

namespace Forwarder.Yaml

/-- A tree of scalars, sequences and mappings. A scalar keeps its text beside its meaning. -/
inductive Node
  | scalar (meaning : Meaning) (text : String)
  | sequence (items : List Node)
  | mapping (pairs : List (Node × Node))
  /-- A node that stands for another one with a name. -/
  | alias (name : String) (target : Node)
  /-- A node that stands for one it is itself a part of. -/
  | cycle (name : String)
deriving Repr

namespace Node

/-- A missing value. -/
def absent : Node :=
  .scalar .null ""

/-- A text. -/
def ofText (s : String) : Node :=
  .scalar .text s

/-- The node that a node stands for. -/
def target : Node → Node
  | .alias _ node => node
  | node => node

/-- The scalar of a token with a tag. -/
def ofScalar (tag : Option String) (plain : Bool) (text : String) : Node :=
  match tag with
  | some tag => .scalar (.ofTagged tag text) text
  | none => .scalar (if plain then .ofUntagged text else .text) text

end Node

/-! ### Tokens ahead -/

/-- What is ahead, and what names stand for. -/
structure Reader where
  tokens : List Token
  /-- What the handles of tags are short for. -/
  handles : List (String × String)
  /-- The nodes with names, the last one first. A node that is not complete is missing. -/
  anchors : List (String × Option Node)

/-- Reading a part of a document. -/
abbrev Read :=
  StateT Reader (Except Problem)

/-- The next token. -/
def ahead : Read Token := do
  match (← get).tokens with
  | [] => throw .noContent
  | .broken problem :: _ => throw problem
  | token :: _ => return token

/-- The next token is passed. -/
def pass : Read Unit :=
  modify fun r => { r with tokens := r.tokens.drop 1 }

/-- The next token is passed if it is the one given. -/
def passIf (token : Token) : Read Bool := do
  if (← ahead) = token then
    pass
    return true
  else return false

/-! ### Names and tags -/

/-- The first entry of a name without a node gets one. -/
def completed (name : String) (node : Node) :
    List (String × Option Node) → List (String × Option Node)
  | [] => []
  | (other, some n) :: more => (other, some n) :: completed name node more
  | (other, none) :: more =>
    if other = name then (name, some node) :: more else (other, none) :: completed name node more

/-- A node with a name. The name may be used inside the node, too. -/
def named (anchor : Option String) (read : Read Node) : Read Node :=
  match anchor with
  | none => read
  | some name => do
    modify fun r => { r with anchors := (name, none) :: r.anchors }
    let node ← read
    modify fun r => { r with anchors := completed name node r.anchors }
    return node

/-- The node with a name. -/
def namesake (name : String) : Read Node := do
  match (← get).anchors.lookup name with
  | some (some node) => return .alias name node
  | some none => return .cycle name
  | none => throw (.unknownAnchor name)

/-- A tag without an abbreviation; one that says nothing is none. -/
def fullTag (tag : Tag) : Read (Option String) := do
  if tag.handle.isEmpty then return if tag.suffix = "!" then none else some tag.suffix
  match (← get).handles.lookup tag.handle with
  | some long => return some (long ++ tag.suffix)
  | none => throw (.unknownHandle tag.handle)

/-- What stands in front of a node: its name and its tag, in any order. -/
structure Properties where
  anchor : Option String
  tag : Option Tag

/-- What stands in front of a node. -/
def properties : Read Properties := do
  match ← ahead with
  | .anchor name =>
    pass
    match ← ahead with
    | .tag tag =>
      pass
      return ⟨some name, some tag⟩
    | _ => return ⟨some name, none⟩
  | .tag tag =>
    pass
    match ← ahead with
    | .anchor name =>
      pass
      return ⟨some name, some tag⟩
    | _ => return ⟨none, some tag⟩
  | _ => return ⟨none, none⟩

/-! ### Nodes -/

/-- The kinds of nodes that may stand at a place. -/
inductive Setting
  /-- Between brackets. -/
  | flow
  /-- In a block. -/
  | block
  /-- Behind a key or colon in a block, where a sequence need not be indented. -/
  | inMapping
deriving DecidableEq

mutual

/-- A node. -/
def node (setting : Setting) : Nat → Read Node
  | 0 => throw .noContent
  | n + 1 => do
    if let .alias name := ← ahead then
      pass
      return ← namesake name
    let props ← properties
    let tag ← match props.tag with
      | some tag => fullTag tag
      | none => pure none
    match ← ahead with
    | .scalar plain text =>
      pass
      named props.anchor (return .ofScalar tag plain text)
    | .openSequence =>
      pass
      named props.anchor (return .sequence (← flowItems n true))
    | .openMapping =>
      pass
      named props.anchor (return .mapping (← flowPairs n true))
    | .blockEntry =>
      if setting = .inMapping then named props.anchor (return .sequence (← looseItems n))
      else bareNode props
    | .blockSequence =>
      if setting = .flow then bareNode props
      else
        pass
        named props.anchor (return .sequence (← blockItems n))
    | .blockMapping =>
      if setting = .flow then bareNode props
      else
        pass
        named props.anchor (return .mapping (← blockPairs n))
    | _ => bareNode props
where
  /-- A node of which there is nothing but its name or tag. -/
  bareNode (props : Properties) : Read Node := do
    if props.anchor.isNone && props.tag.isNone then throw .noContent
    let tag ← match props.tag with
      | some tag => fullTag tag
      | none => pure none
    named props.anchor (return .ofScalar tag true "")

/-- A node, or a missing one if one of the tokens `ends` is ahead. -/
def nodeUnless (setting : Setting) (ends : List Token) : Nat → Read Node
  | 0 => throw .noContent
  | n + 1 => do
    if ends.contains (← ahead) then return .absent
    node setting n

/-- The entries of a block sequence. -/
def blockItems : Nat → Read (List Node)
  | 0 => throw .noContent
  | n + 1 => do
    if ← passIf .blockEnd then return []
    if ← passIf .blockEntry then
      let item ← nodeUnless .block [.blockEntry, .blockEnd] n
      return item :: (← blockItems n)
    throw (.expected "'-' indicator")

/-- The entries of a sequence that is not indented below its key. -/
def looseItems : Nat → Read (List Node)
  | 0 => throw .noContent
  | n + 1 => do
    if ← passIf .blockEntry then
      let item ← nodeUnless .block [.blockEntry, .key, .value, .blockEnd] n
      return item :: (← looseItems n)
    return []

/-- The value of a pair in a block, if there is one. -/
def blockValue : Nat → Read Node
  | 0 => throw .noContent
  | n + 1 => do
    if ← passIf .value then nodeUnless .inMapping [.key, .value, .blockEnd] n
    else return .absent

/-- The pairs of a block mapping. -/
def blockPairs : Nat → Read (List (Node × Node))
  | 0 => throw .noContent
  | n + 1 => do
    if ← passIf .blockEnd then return []
    if ← passIf .key then
      let key ← nodeUnless .inMapping [.key, .value, .blockEnd] n
      let value ← blockValue n
      return (key, value) :: (← blockPairs n)
    throw (.expected "key")

/-- The value of a pair between brackets, if there is one. -/
def flowValue (close : Token) : Nat → Read Node
  | 0 => throw .noContent
  | n + 1 => do
    if ← passIf .value then nodeUnless .flow [.comma, close] n else return .absent

/-- A mapping of one pair inside a sequence; the token of its key is behind. Where the key is
missing, the token ahead goes with it. -/
def singlePair : Nat → Read Node
  | 0 => throw .noContent
  | n + 1 => do
    let key ←
      if [.value, .comma, .closeSequence].contains (← ahead) then
        pass
        pure .absent
      else node .flow n
    return .mapping [(key, ← flowValue .closeSequence n)]

/-- The entries of a sequence in brackets. -/
def flowItems : Nat → Bool → Read (List Node)
  | 0, _ => throw .noContent
  | n + 1, first => do
    if ← passIf .closeSequence then return []
    if !first then
      if !(← passIf .comma) then throw (.expected "',' or ']'")
      if ← passIf .closeSequence then return []
    let item ← if ← passIf .key then singlePair n else node .flow n
    return item :: (← flowItems n false)

/-- The pairs of a mapping in braces. Without the token of a key a pair has no value. -/
def flowPairs : Nat → Bool → Read (List (Node × Node))
  | 0, _ => throw .noContent
  | n + 1, first => do
    if ← passIf .closeMapping then return []
    if !first then
      if !(← passIf .comma) then throw (.expected "',' or closing brace")
      if ← passIf .closeMapping then return []
    let pair ←
      if ← passIf .key then
        let key ← nodeUnless .flow [.value, .comma, .closeMapping] n
        pure (key, ← flowValue .closeMapping n)
      else
        let key ← node .flow n
        let _ ← ahead
        pure (key, .absent)
    return pair :: (← flowPairs n false)

end

/-! ### Documents -/

/-- The handles that are known without being told. -/
def standardHandles : List (String × String) :=
  [("!", "!"), ("!!", Meaning.standardTags)]

/-- The lines in front of a document; `versioned` tells whether one told the version. -/
def directives : Nat → Bool → Read Unit
  | 0, _ => throw .noContent
  | n + 1, versioned => do
    match ← ahead with
    | .directive (.version major minor) =>
      if versioned || major != 1 || minor != 1 then throw .badDirective
      pass
      directives n true
    | .directive (.handle name long) =>
      if ((← get).handles.lookup name).isSome then throw .badDirective
      modify fun r => { r with handles := (name, long) :: r.handles }
      pass
      directives n versioned
    | _ => modify fun r => { r with handles := r.handles ++ standardHandles }

/-- A token in front of which a document ends. -/
def endsDocument : Token → Bool
  | .directive _ | .documentStart | .documentEnd | .streamEnd => true
  | _ => false

/-- The marks of ended documents are passed. -/
def passEnds : Nat → Read Unit
  | 0 => return
  | n + 1 => do if ← passIf .documentEnd then passEnds n

/-- The node of a document, whose fuel is more than its tokens need. -/
def content : Read Node := do
  node .block (4 * (← get).tokens.length + 4)

/-- The next document, if there is one. Only the first one needs no mark at its start. -/
def document (first : Bool) : Read (Option Node) := do
  let fuel := (← get).tokens.length + 1
  modify fun r => { r with handles := [] }
  if !first then passEnds fuel
  let token ← ahead
  if token = .streamEnd then return none
  directives fuel false
  let tree ←
    if first && (token = .documentEnd || !endsDocument token) then content
    else if ← passIf .documentStart then
      if endsDocument (← ahead) then pure .absent else content
    else throw (.expected "<document start>")
  let _ ← passIf .documentEnd
  return some tree

/-- The documents that could be read, and the problem of the one that could not. -/
structure Documents where
  nodes : List Node
  problem : Option Problem

/-- The documents of tokens. -/
def documentsOf : Nat → Bool → Reader → Documents
  | 0, _, _ => ⟨[], none⟩
  | n + 1, first, r =>
    match (document first).run r with
    | .error problem => ⟨[], some problem⟩
    | .ok (none, _) => ⟨[], none⟩
    | .ok (some tree, r) =>
      let more := documentsOf n false r
      { more with nodes := tree :: more.nodes }

/-- The documents of a text. The mark of its start is passed over. -/
def documents (text : String) : Documents :=
  match tokens text with
  | .streamStart :: rest => documentsOf (rest.length + 1) true ⟨rest, [], []⟩
  | rest => documentsOf (rest.length + 1) true ⟨rest, [], []⟩

end Forwarder.Yaml
