/-
**Keys and merges.** The pairs of a mapping, and those that it takes over from other mappings.

A pair under the merge key names mappings whose pairs are taken over. What a mapping says itself
counts first; of the mappings it takes over from, the earlier ones do.

* `repeatedKey?` — a key that a mapping has twice.
* `ownPairs` — the pairs of a mapping without the merge key.
* `effectivePairs` — the pairs of a mapping with those it takes over.
-/

import Forwarder.Yaml.Node

namespace Forwarder.Yaml

namespace Node

/-- The kind of a key, as a number. -/
def keyKind : Node → Nat
  | .scalar _ _ => 0
  | .sequence _ => 1
  | .mapping _ => 2
  | .alias _ _ | .cycle _ => 3

/-- The text of a key as it is written; a collection has none. -/
def keyText : Node → String
  | .scalar _ s => s
  | .alias name _ | .cycle name => name
  | _ => ""

/-- Two keys that count as the same. -/
def sameKey (a b : Node) : Bool :=
  a.keyKind == b.keyKind && a.keyText == b.keyText

/-- The key under which pairs are taken over. -/
def isMerge : Node → Bool
  | .scalar .merge _ => true
  | _ => false

/-- The node stands for a mapping. -/
def isMapping (node : Node) : Bool :=
  match node.target with
  | .mapping _ => true
  | _ => false

/-- The node is missing. -/
def isNull (node : Node) : Bool :=
  match node.target with
  | .scalar .null _ => true
  | _ => false

/-- The name that a key stands for. -/
def name? (key : Node) : Option String :=
  match key.target with
  | .scalar _ s => some s
  | _ => none

end Node

/-- A key and its value. -/
abbrev Pair :=
  Node × Node

/-- The first key that comes a second time. -/
def repeatedKey? : List Pair → Option Node
  | [] => none
  | (key, _) :: pairs =>
    if pairs.any (key.sameKey ·.1) then some key else repeatedKey? pairs

/-- No key comes twice. -/
def unique (pairs : List Pair) : Except Problem Unit :=
  match repeatedKey? pairs with
  | some key => .error (.repeatedKey key.keyText)
  | none => .ok ()

/-- The pairs whose keys are not the merge key. -/
def ownPairs (pairs : List Pair) : List Pair :=
  pairs.filter (!·.1.isMerge)

/-- The names of pairs. -/
def namesOf (pairs : List Pair) : List String :=
  pairs.filterMap (·.1.name?)

/-- The pairs under names that are not among those given. -/
def unseen (seen : List String) (pairs : List Pair) : List Pair :=
  pairs.filter fun pair => pair.1.name?.all (!seen.contains ·)

/-- The pairs of a mapping under names that were not seen before, and behind them those that `more`
gives when all of these names have been seen. -/
def withOwn (seen : List String) (pairs : List Pair)
    (more : List String → Except Problem (List Pair)) : Except Problem (List Pair) := do
  unique pairs
  let own := unseen seen (ownPairs pairs)
  return own ++ (← more (seen ++ namesOf own))

mutual

/-- The pairs that a mapping takes over; names that were seen before are left out. -/
def takenOver (seen : List String) : List Pair → Except Problem (List Pair)
  | [] => .ok []
  | (key, value) :: pairs => if key.isMerge then mergedFrom seen value else takenOver seen pairs

/-- The pairs of what is written under a merge key: a mapping with those that it takes over itself,
or several mappings. -/
def mergedFrom (seen : List String) : Node → Except Problem (List Pair)
  | .mapping pairs | .alias _ (.mapping pairs) =>
    withOwn seen pairs fun seen => takenOver seen pairs
  | .sequence nodes => mergedFromEach seen nodes
  | .cycle name => .error (.endless name)
  | _ => .error .noMerge

/-- The pairs of several mappings. -/
def mergedFromEach (seen : List String) : List Node → Except Problem (List Pair)
  | [] => .ok []
  | node :: nodes => do
    let pairs ← if node.isMapping then mergedFrom seen node else .error .noMerge
    return pairs ++ (← mergedFromEach (seen ++ namesOf pairs) nodes)

end

/-- The pairs of a mapping with those that it takes over. -/
def effectivePairs (pairs : List Pair) : Except Problem (List Pair) :=
  withOwn [] pairs fun seen => takenOver seen pairs

end Forwarder.Yaml
