import FounderOs.Foundation.Dict

namespace FounderOs.Components

variable {α : Type} [DecidableEq α]

/-- The state of Tarjan's search; the top of the stack is first. -/
structure Search (α : Type) where
  index : Nat
  indexes : List (α × Nat)
  lowLinks : List (α × Nat)
  stack : List α
  components : List (List α)

namespace Search

def start : Search α := ⟨0, [], [], [], []⟩

variable (s : Search α) (node : α)

def lowLink : Nat := (Dict.get s.lowLinks node).getD 0

def enter : Search α where
  index := s.index + 1
  indexes := Dict.set s.indexes node s.index
  lowLinks := Dict.set s.lowLinks node s.index
  stack := node :: s.stack
  components := s.components

def lower (bound : Nat) : Search α :=
  { s with lowLinks := Dict.set s.lowLinks node (min (s.lowLink node) bound) }

/-- What is on the stack down to the node is a component, unless the node reaches below itself. -/
def leave : Search α :=
  if Dict.get s.indexes node = some (s.lowLink node) then
    { s with
      stack := (s.stack.dropWhile (· ≠ node)).drop 1
      components := s.components ++ [s.stack.takeWhile (· ≠ node) ++ [node]] }
  else s

end Search

variable (targets : α → List α)

/-- The fuel bounds the nodes that are open at once. -/
def visit : Nat → α → Search α → Search α
  | 0, _, s => s
  | fuel + 1, node, s =>
    ((targets node).foldl (fun s target =>
      match Dict.get s.indexes target with
      | none =>
        let t := visit fuel target s
        t.lower node (t.lowLink target)
      | some index => if s.stack.contains target then s.lower node index else s)
      (s.enter node)).leave node

def search (nodes : List α) : Search α :=
  nodes.foldl (fun s node =>
    if (Dict.get s.indexes node).isSome then s else visit targets nodes.length node s) .start

def components (nodes : List α) : List (List α) := (search targets nodes).components

end FounderOs.Components
