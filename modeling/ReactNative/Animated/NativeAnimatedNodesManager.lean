import ReactNative.Foundation.Loops
import ReactNative.Foundation.TopologicalOrder
import Mathlib.Data.BitVec

/-! Each frame updates the nodes that can be reached from those whose value has changed. A first
walk over the graph counts, for each node, the edges that lead into it; a second one visits a node
when the count is back at zero. -/
namespace ReactNative

variable {N D E : Type}

abbrev BFSColor := BitVec 32

def initialBFSColor : BFSColor := 0

inductive ViewException (E : Type) where
  | illegalViewOperation
  | other (error : E)

/-- The methods of a node; an exception leaves what was changed before it. Only a node for
props has `updateView`, only one for a value `onValueUpdate`. -/
structure AnimatedNodeMethods (D E : Type) where
  update : D → Except (E × D) D
  updateView : Option (D → Except (ViewException E × D) D) := none
  onValueUpdate : Option (D → Except (E × D) D) := none

variable (methods : AnimatedNodeMethods D E)

/-- The exception for a view that has not been created yet is eaten. -/
def AnimatedNodeMethods.sendProps (data : D) : Except (E × D) D :=
  match methods.updateView with
  | none => .ok data
  | some updateView =>
    match updateView data with
    | .ok changed => .ok changed
    | .error (.illegalViewOperation, changed) => .ok changed
    | .error (.other error, changed) => .error (error, changed)

def AnimatedNodeMethods.sendValue (data : D) : Except (E × D) D :=
  match methods.onValueUpdate with
  | none => .ok data
  | some onValueUpdate => onValueUpdate data

def AnimatedNodeMethods.visit (data : D) : Except (E × D) D :=
  ((methods.update data).bind methods.sendProps).bind methods.sendValue

/-- The colors and counts of all nodes, with the color of the latest walk. -/
structure NativeAnimatedNodesManager (N D : Type) where
  animatedGraphBFSColor : BFSColor := 0
  bfsColor : N → BFSColor := fun _ => initialBFSColor
  activeIncomingNodes : N → Int := fun _ => 0
  data : D

/-- A walk has a queue and counts the nodes it has put there. The calls of `update()` are
on record. -/
structure GraphWalk (N D : Type) extends NativeAnimatedNodesManager N D where
  nodesQueue : List N := []
  nodesCount : Nat := 0
  updated : List N := []

inductive UpdateException (E : Type) where
  | cycles (activeNodesCount updatedNodesCount : Nat)
  | thrown (error : E)

def nextColor (color : BFSColor) : BFSColor :=
  if color + 1 = initialBFSColor then color + 1 + 1 else color + 1

/-- No node has one of the two colors that the next update uses. -/
def NativeAnimatedNodesManager.FreshColors (manager : NativeAnimatedNodesManager N D) : Prop :=
  ∀ n, manager.bfsColor n ≠ nextColor manager.animatedGraphBFSColor ∧
    manager.bfsColor n ≠ nextColor (nextColor manager.animatedGraphBFSColor)

namespace GraphWalk

variable [DecidableEq N]

def enqueue (node : N) (walk : GraphWalk N D) : GraphWalk N D :=
  { walk with
    bfsColor := Function.update walk.bfsColor node walk.animatedGraphBFSColor
    nodesCount := walk.nodesCount + 1
    nodesQueue := walk.nodesQueue ++ [node] }

variable (walk : GraphWalk N D)

def useNextColor : GraphWalk N D :=
  { walk with animatedGraphBFSColor := nextColor walk.animatedGraphBFSColor }

def addIncoming (node : N) (edges : Int) (walk : GraphWalk N D) : GraphWalk N D :=
  { walk with
    activeIncomingNodes := Function.update walk.activeIncomingNodes node
      (walk.activeIncomingNodes node + edges) }

/-! ### First walk -/

def start (node : N) : GraphWalk N D :=
  if walk.bfsColor node ≠ walk.animatedGraphBFSColor then walk.enqueue node else walk

def countChild (child : N) : GraphWalk N D := (walk.addIncoming child 1).start child

variable (children : N → List N)

def countTurn (walk : GraphWalk N D) :
    Option (Except (UpdateException E × GraphWalk N D) (GraphWalk N D)) :=
  match walk.nodesQueue with
  | [] => none
  | nextNode :: rest =>
    some (.ok ((children nextNode).foldl countChild { walk with nodesQueue := rest }))

/-! ### Second walk -/

def startReady (node : N) : GraphWalk N D :=
  if walk.activeIncomingNodes node = 0 ∧ walk.bfsColor node ≠ walk.animatedGraphBFSColor then
    walk.enqueue node
  else
    walk

def releaseChild (child : N) : GraphWalk N D := (walk.addIncoming child (-1)).startReady child

/-- The node is visited, and then its children are. -/
def updateTurn (methods : N → AnimatedNodeMethods D E)
    (walk : GraphWalk N D) : Option (Except (UpdateException E × GraphWalk N D) (GraphWalk N D)) :=
  match walk.nodesQueue with
  | [] => none
  | nextNode :: rest =>
    let polled := { walk with nodesQueue := rest, updated := walk.updated ++ [nextNode] }
    match (methods nextNode).visit walk.data with
    | .error (error, data) => some (.error (.thrown error, { polled with data := data }))
    | .ok data => some (.ok ((children nextNode).foldl releaseChild { polled with data := data }))

end GraphWalk

open GraphWalk Loops

variable [DecidableEq N]

/-- The outcome of `updateNodes`, with the final state also when it throws. -/
def updateNodes (children : N → List N) (methods : N → AnimatedNodeMethods D E) (fuel : Nat)
    (manager : NativeAnimatedNodesManager N D) (nodes : List N) :
    Option (Except (UpdateException E × GraphWalk N D) (GraphWalk N D)) :=
  let first : GraphWalk N D := nodes.foldl start (useNextColor { manager with })
  match loop (countTurn children) fuel first with
  | none => none
  | some (.error exception) => some (.error exception)
  | some (.ok counted) =>
    let second := nodes.foldl startReady (useNextColor { counted with nodesCount := 0 })
    match loop (updateTurn children methods) fuel second with
    | none => none
    | some (.error exception) => some (.error exception)
    | some (.ok walk) =>
      if counted.nodesCount ≠ walk.nodesCount then
        some (.error (.cycles counted.nodesCount walk.nodesCount, walk))
      else
        some (.ok walk)

end ReactNative

