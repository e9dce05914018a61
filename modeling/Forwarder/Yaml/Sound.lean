/-
**Sound trees.** Every part of a tree stands for a value.

Names may stand for large trees, so what is seen through them is counted, and too much of it is
refused.

* `Tally` — how many nodes were looked at.
* `sound` — looks at a whole tree.
-/

import Forwarder.Yaml.Merge

namespace Forwarder.Yaml

/-- How many nodes were looked at, and how many of them through names. -/
structure Tally where
  all : Nat
  named : Nat

namespace Tally

/-- How many of so many nodes, in thousands of them, may be seen through names. Few nodes may nearly
all be, many nodes hardly. -/
def limit (all : Nat) : Nat :=
  if all ≤ 400000 then 990 * all
  else if 4000000 ≤ all then 100 * all
  else 990 * all - 890 * (all - 400000) * all / 3600000

/-- Too much is said through names. -/
def isExcessive (t : Tally) : Bool :=
  t.named > 100 && t.all > 1000 && 1000 * t.named > limit t.all

end Tally

/-- Looking at nodes. -/
abbrev Look :=
  StateT Tally (Except Problem)

/-- One node more. -/
def tallied (throughName : Bool) : Look Unit := do
  modify fun t => ⟨t.all + 1, t.named + (if throughName then 1 else 0)⟩
  if (← get).isExcessive then throw .tooManyAliases

/-- All keys are texts, so that the mapping is one from names. -/
def isNamed (pairs : List Pair) : Bool :=
  pairs.all fun pair =>
    match pair.1.target with
    | .scalar .text _ | .scalar .merge _ => true
    | _ => false

mutual

/-- Everything in the tree stands for a value. A value under a missing key is looked at only if the
mapping is none from names. -/
def soundNode (throughName : Bool) : Nat → Node → Look Unit
  | 0, _ => throw .tooDeep
  | n + 1, node => do
    tallied throughName
    match node with
    | .scalar meaning _ => if meaning = .impossible then throw .contradictoryTag
    | .sequence nodes => soundNodes throughName n nodes
    | .mapping pairs => soundPairs throughName (isNamed pairs) n (← effectivePairs pairs)
    | .alias _ target => soundNode true n target
    | .cycle name => throw (.endless name)

/-- Everything in the trees stands for a value. -/
def soundNodes (throughName : Bool) : Nat → List Node → Look Unit
  | 0, _ => throw .tooDeep
  | _ + 1, [] => return
  | n + 1, node :: nodes => do
    soundNode throughName n node
    soundNodes throughName n nodes

/-- The keys are scalars, and everything in the values stands for a value. -/
def soundPairs (throughName named : Bool) : Nat → List Pair → Look Unit
  | 0, _ => throw .tooDeep
  | _ + 1, [] => return
  | n + 1, (key, value) :: pairs => do
    if key.name?.isNone then throw (.wrongKind "key")
    soundNode throughName n key
    if !(named && key.isNull) then soundNode throughName n value
    soundPairs throughName named n pairs

end

/-- Everything in the tree of a text stands for a value, and a mapping at its top is one from names.
The tree is no deeper than the text is long, except that names may stand for trees; what they stand
for comes before them. -/
def sound (text : String) (tree : Node) : Except Problem Unit :=
  let fuel := (text.length + 2) * (text.length + 2)
  let look : Look Unit := match tree with
    | .mapping pairs => do soundPairs false true fuel (← effectivePairs pairs)
    | node => soundNode false fuel node
  (look.run ⟨0, 0⟩).map fun _ => ()

end Forwarder.Yaml
