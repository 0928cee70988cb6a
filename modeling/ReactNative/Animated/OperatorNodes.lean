import ReactNative.Animated.NativeAnimatedNodesManager
import Mathlib.Algebra.Order.Ring.Rat

/-! The nodes for values, and those for the sum, difference, product and quotient of values. Numbers
are rational here, so that no value is NaN, for which `getValue` would call `update()` first. -/
namespace ReactNative

variable {N : Type}

structure ValueAnimatedNode where
  value : ℚ
  offset : ℚ := 0

abbrev AnimatedValues (N : Type) := N → Option ValueAnimatedNode

def AnimatedValues.getValue (values : AnimatedValues N) (n : N) : Option ℚ :=
  (values n).map fun node => node.offset + node.value

def AnimatedValues.setValue [DecidableEq N] (values : AnimatedValues N) (n : N) (value : ℚ) :
    AnimatedValues N :=
  Function.update values n ((values n).map fun node => { node with value := value })

abbrev NodeException := String

/-- What the configuration of a node says. -/
inductive OperatorNode (N : Type) where
  | value
  | addition (inputNodes : List N)
  | subtraction (inputNodes : List N)
  | multiplication (inputNodes : List N)
  | division (inputNodes : List N)

namespace OperatorNode

variable [DecidableEq N]

/-- The loop over the inputs of a node, which changes its value. -/
def accumulate (illegalNode : NodeException) (combine : ℚ → ℚ → Except NodeException ℚ) (n : N) :
    List N → AnimatedValues N → Except (NodeException × AnimatedValues N) (AnimatedValues N)
  | [], values => .ok values
  | input :: rest, values =>
    match values.getValue input with
    | none => .error (illegalNode, values)
    | some operand =>
      match combine ((values n).elim 0 ValueAnimatedNode.value) operand with
      | .error exception => .error (exception, values)
      | .ok result => accumulate illegalNode combine n rest (values.setValue n result)

/-- The first input is where the loop over the others starts. -/
def accumulateFromFirst (illegalNode : NodeException)
    (combine : ℚ → ℚ → Except NodeException ℚ) (n : N) (inputNodes : List N)
    (values : AnimatedValues N) : Except (NodeException × AnimatedValues N) (AnimatedValues N) :=
  match inputNodes with
  | [] => .ok values
  | first :: rest =>
    match values.getValue first with
    | none => .error (illegalNode, values)
    | some operand => accumulate illegalNode combine n rest (values.setValue n operand)

def update (n : N) (values : AnimatedValues N) :
    OperatorNode N → Except (NodeException × AnimatedValues N) (AnimatedValues N)
  | value => .ok values
  | addition inputNodes =>
    accumulate "Illegal node ID set as an input for Animated.Add node"
      (fun sum operand => .ok (sum + operand)) n inputNodes (values.setValue n 0)
  | subtraction inputNodes =>
    accumulateFromFirst "Illegal node ID set as an input for Animated.subtract node"
      (fun difference operand => .ok (difference - operand)) n inputNodes values
  | multiplication inputNodes =>
    accumulate "Illegal node ID set as an input for Animated.multiply node"
      (fun product operand => .ok (product * operand)) n inputNodes (values.setValue n 1)
  | division inputNodes =>
    accumulateFromFirst "Illegal node ID set as an input for Animated.divide node"
      (fun quotient operand =>
        if operand = 0 then .error "Detected a division by zero in Animated.divide node"
        else .ok (quotient / operand))
      n inputNodes values

/-- All of these nodes have a value; without a listener, `onValueUpdate` does nothing. -/
def methods (nodes : N → OperatorNode N) (n : N) :
    AnimatedNodeMethods (AnimatedValues N) NodeException where
  update values := (nodes n).update n values
  onValueUpdate := some .ok

end OperatorNode

end ReactNative

