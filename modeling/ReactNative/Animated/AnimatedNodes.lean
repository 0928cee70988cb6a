import Mathlib.Data.Finset.Basic
import ReactNative.Foundation.Runs

/-! A node is an `AnimatedValue`, which has no parents of its own, or depends on its parents as an
`AnimatedInterpolation` does: it becomes their child with its first child and stops being it with
its last one. -/
namespace ReactNative

inductive NativeCommand where
  | createAnimatedNode (tag : ℕ)
  | startListeningToAnimatedNodeValue (tag : ℕ)
  | stopListeningToAnimatedNodeValue (tag : ℕ)
  | connectAnimatedNodes (parentTag childTag : ℕ)
  | disconnectAnimatedNodes (parentTag childTag : ℕ)
  | dropAnimatedNode (tag : ℕ)
  deriving DecidableEq

/-- The counterparts that exist, and the connections between them. -/
structure NativeGraph where
  nodes : Finset ℕ := ∅
  edges : Multiset (ℕ × ℕ) := 0

namespace NativeGraph

/-- A node that is dropped leaves the graph with its connections. -/
def replay (graph : NativeGraph) : NativeCommand → NativeGraph
  | .createAnimatedNode tag => { graph with nodes := insert tag graph.nodes }
  | .connectAnimatedNodes parentTag childTag =>
    { graph with edges := (parentTag, childTag) ::ₘ graph.edges }
  | .disconnectAnimatedNodes parentTag childTag =>
    { graph with edges := graph.edges.erase (parentTag, childTag) }
  | .dropAnimatedNode tag =>
    { nodes := graph.nodes.erase tag
      edges := graph.edges.filter fun edge => edge.1 ≠ tag ∧ edge.2 ≠ tag }
  | .startListeningToAnimatedNodeValue _ | .stopListeningToAnimatedNodeValue _ => graph

def Has (graph : NativeGraph) : NativeCommand → Prop
  | .createAnimatedNode _ => True
  | .startListeningToAnimatedNodeValue tag | .stopListeningToAnimatedNodeValue tag
  | .dropAnimatedNode tag => tag ∈ graph.nodes
  | .connectAnimatedNodes parentTag childTag | .disconnectAnimatedNodes parentTag childTag =>
    parentTag ∈ graph.nodes ∧ childTag ∈ graph.nodes

end NativeGraph

def nativeGraph (commands : List NativeCommand) : NativeGraph :=
  commands.foldl NativeGraph.replay {}

structure AnimatedNode (count : ℕ) where
  children : List (Fin count) := []
  isNative : Bool := false
  nativeTag : Option ℕ := none
  listeners : Finset ℕ := ∅
  nativeAnimatedValueListener : Bool := false
  shouldUpdateListenersForNewNativeTag : Bool := false

/-- The nodes, the counters of tags and listeners, the queue of `NativeAnimatedHelper` and the
commands that were issued. -/
structure AnimatedNodes (count : ℕ) where
  node : Fin count → AnimatedNode count := fun _ => {}
  nativeAnimatedNodeTagCount : ℕ := 1
  uniqueId : ℕ := 1
  queueConnections : Bool := false
  queue : List (ℕ × ℕ) := []
  commands : List NativeCommand := []

namespace AnimatedNodes

variable {count : ℕ} (nodes : AnimatedNodes count) (n : Fin count)

def modify (change : AnimatedNode count → AnimatedNode count) : AnimatedNodes count :=
  { nodes with node := Function.update nodes.node n (change (nodes.node n)) }

def issue (command : NativeCommand) : AnimatedNodes count :=
  { nodes with commands := nodes.commands ++ [command] }

/-! ### The queue of connections -/

def connectAnimatedNodes (nodes : AnimatedNodes count) (parentTag childTag : ℕ) :
    AnimatedNodes count :=
  if nodes.queueConnections then { nodes with queue := nodes.queue ++ [(parentTag, childTag)] }
  else nodes.issue (.connectAnimatedNodes parentTag childTag)

def enableQueue : AnimatedNodes count :=
  { nodes with queueConnections := true }

def disableQueue : AnimatedNodes count :=
  { nodes with
    queueConnections := false
    queue := []
    commands := nodes.commands ++ nodes.queue.map fun (parentTag, childTag) =>
      .connectAnimatedNodes parentTag childTag }

/-! ### Tags and listeners -/

/-- Gives the node a new tag and creates its counterpart. -/
def createAnimatedNode (nodes : AnimatedNodes count) (n : Fin count) : AnimatedNodes count :=
  { nodes with
    nativeAnimatedNodeTagCount := nodes.nativeAnimatedNodeTagCount + 1
    node := Function.update nodes.node n
      { nodes.node n with
        nativeTag := some nodes.nativeAnimatedNodeTagCount
        shouldUpdateListenersForNewNativeTag := true }
    commands := nodes.commands ++ [.createAnimatedNode nodes.nativeAnimatedNodeTagCount] }

def getNativeTag : AnimatedNodes count × ℕ :=
  match (nodes.node n).nativeTag with
  | some nativeTag => (nodes, nativeTag)
  | none => (nodes.createAnimatedNode n, nodes.nativeAnimatedNodeTagCount)

def connect (parent child : Fin count) : AnimatedNodes count :=
  let (nodes, parentTag) := nodes.getNativeTag parent
  let (nodes, childTag) := nodes.getNativeTag child
  nodes.connectAnimatedNodes parentTag childTag

def disconnect (parent child : Fin count) : AnimatedNodes count :=
  let (nodes, parentTag) := nodes.getNativeTag parent
  let (nodes, childTag) := nodes.getNativeTag child
  nodes.issue (.disconnectAnimatedNodes parentTag childTag)

def stopListeningForNativeValueUpdates : AnimatedNodes count :=
  if (nodes.node n).nativeAnimatedValueListener = false then nodes
  else
    let (nodes, nativeTag) :=
      (nodes.modify n fun node => { node with nativeAnimatedValueListener := false }).getNativeTag n
    nodes.issue (.stopListeningToAnimatedNodeValue nativeTag)

def startListeningToNativeValueUpdates : AnimatedNodes count :=
  if (nodes.node n).nativeAnimatedValueListener ∧
      (nodes.node n).shouldUpdateListenersForNewNativeTag = false then nodes
  else
    let nodes :=
      if (nodes.node n).shouldUpdateListenersForNewNativeTag then
        (nodes.modify n fun node => { node with shouldUpdateListenersForNewNativeTag := false }
          ).stopListeningForNativeValueUpdates n
      else nodes
    let (nodes, nativeTag) := nodes.getNativeTag n
    (nodes.issue (.startListeningToAnimatedNodeValue nativeTag)).modify n fun node =>
      { node with nativeAnimatedValueListener := true }

def addListener : AnimatedNodes count :=
  let nodes := ({ nodes with uniqueId := nodes.uniqueId + 1 } : AnimatedNodes count).modify n
    fun node => { node with listeners := insert nodes.uniqueId node.listeners }
  if (nodes.node n).isNative then nodes.startListeningToNativeValueUpdates n else nodes

def removeListener (id : ℕ) : AnimatedNodes count :=
  let nodes := nodes.modify n fun node => { node with listeners := node.listeners.erase id }
  if (nodes.node n).isNative ∧ (nodes.node n).listeners = ∅ then
    nodes.stopListeningForNativeValueUpdates n
  else nodes

def removeAllListeners : AnimatedNodes count :=
  let nodes := nodes.modify n fun node => { node with listeners := ∅ }
  if (nodes.node n).isNative then nodes.stopListeningForNativeValueUpdates n else nodes

/-- `AnimatedNode.__detach`. -/
def dropAnimatedNode (nodes : AnimatedNodes count) (n : Fin count) : AnimatedNodes count :=
  match (nodes.node n).nativeTag with
  | none => nodes
  | some nativeTag =>
    if (nodes.node n).isNative then
      (nodes.issue (.dropAnimatedNode nativeTag)).modify n fun node => { node with nativeTag := none }
    else nodes

/-! ### Calls along the graph -/

variable (parents : Fin count → List (Fin count))

/-- `__makeNative` of the parents, then of the node itself and, if it was not native, of its
children. -/
def makeNative : ℕ → AnimatedNodes count → Fin count → Option (AnimatedNodes count)
  | 0, _, _ => none
  | fuel + 1, nodes, n =>
    ((parents n).foldlM (makeNative fuel) nodes).bind fun nodes =>
      (if (nodes.node n).isNative then some nodes
        else
          (nodes.node n).children.foldlM
            (fun nodes child => (makeNative fuel nodes child).map fun nodes => nodes.connect n child)
            (nodes.modify n fun node => { node with isNative := true })).bind fun nodes =>
        if (nodes.node n).listeners = ∅ then some nodes
        else some (nodes.startListeningToNativeValueUpdates n)

/-- Fuel for `makeNative`: a call goes on to a parent, which is older, or makes one more node
native and goes on to a child. -/
def nativeFuel (count : ℕ) : ℕ := (count + 1) * (count + 1)

def addChild : ℕ → AnimatedNodes count → Fin count → Fin count → Option (AnimatedNodes count)
  | 0, _, _, _ => none
  | fuel + 1, nodes, n, child =>
    (if (nodes.node n).children = [] then
        (parents n).foldlM (fun nodes parent => addChild fuel nodes parent n) nodes
      else some nodes).bind fun nodes =>
      let nodes := nodes.modify n fun node => { node with children := node.children ++ [child] }
      if (nodes.node n).isNative then
        (makeNative parents (nativeFuel count) nodes child).map fun nodes => nodes.connect n child
      else some nodes

/-- `__detach`, with the call that removes the node from a parent. -/
def detachFrom (removeChild : AnimatedNodes count → Fin count → Fin count →
      Option (AnimatedNodes count)) (nodes : AnimatedNodes count) (n : Fin count) :
    Option (AnimatedNodes count) :=
  ((parents n).foldlM (fun nodes parent => removeChild nodes parent n) nodes).map fun nodes =>
    nodes.dropAnimatedNode n

/-- There is a warning if the child does not exist. -/
def removeChild : ℕ → AnimatedNodes count → Fin count → Fin count → Option (AnimatedNodes count)
  | 0, _, _, _ => none
  | fuel + 1, nodes, n, child =>
    if child ∉ (nodes.node n).children then some nodes
    else
      let nodes :=
        if (nodes.node n).isNative ∧ (nodes.node child).isNative then nodes.disconnect n child
        else nodes
      let nodes := nodes.modify n fun node => { node with children := node.children.erase child }
      if (nodes.node n).children = [] then detachFrom parents (removeChild fuel) nodes n
      else some nodes

end AnimatedNodes

inductive AnimatedOperation (count : ℕ) where
  | attach (n : Fin count)
  | detach (n : Fin count)
  | addChild (n child : Fin count)
  | removeChild (n child : Fin count)
  | makeNative (n : Fin count)
  | makeNativeQueued (n : Fin count)
  | addListener (n : Fin count)
  | removeListener (n : Fin count) (id : ℕ)
  | removeAllListeners (n : Fin count)

namespace AnimatedNodes

variable {count : ℕ} (parents : Fin count → List (Fin count))

def step (nodes : AnimatedNodes count) : AnimatedOperation count → Option (AnimatedNodes count)
  | .attach n => (parents n).foldlM (fun nodes parent => addChild parents count nodes parent n) nodes
  | .detach n => detachFrom parents (removeChild parents count) nodes n
  | .addChild n child => addChild parents count nodes n child
  | .removeChild n child => removeChild parents count nodes n child
  | .makeNative n => makeNative parents (nativeFuel count) nodes n
  | .makeNativeQueued n =>
    (makeNative parents (nativeFuel count) nodes.enableQueue n).map disableQueue
  | .addListener n => some (nodes.addListener n)
  | .removeListener n id => some (nodes.removeListener n id)
  | .removeAllListeners n => some (nodes.removeAllListeners n)

end AnimatedNodes

end ReactNative

