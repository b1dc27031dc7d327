import SceneFlow.Graph.Basic

/-!
# Equality of graphs

Two graphs agree if all they are given agrees, node by node and slot by slot. Seconds and
coordinates compare as binary32 numbers: both zeros agree, and not-a-number disagrees with itself.
-/

set_option autoImplicit false

namespace SceneFlow

namespace Graph

mutual

def same : Graph → Graph → Bool
  | ⟨leftId, leftNodes, leftSlots⟩, right =>
      leftId == right.id && sameNodes leftNodes right.nodes &&
        leftSlots.length == right.slots.length &&
        (leftSlots.zip right.slots).all fun (left, right) => left.same right

def sameNodes : List (Node Graph) → List (Node Graph) → Bool
  | [], [] => true
  | left :: lefts, right :: rights => sameNode left right && sameNodes lefts rights
  | _, _ => false

def sameNode : Node Graph → Node Graph → Bool
  | ⟨leftId, leftNext, leftKind⟩, right =>
      leftId == right.id && leftNext == right.nextId && sameKind leftKind right.kind

/-- Whether two nodes are of one kind and are given the same. -/
def sameKind : NodeKind Graph → NodeKind Graph → Bool
  | .start, .start => true
  | .dialogue leftSequence leftWaits, .dialogue rightSequence rightWaits =>
      leftSequence == rightSequence && leftWaits == rightWaits
  | .delay left, .delay right => left == right
  | .waitForTrigger left, .waitForTrigger right => left == right
  | .objective leftObjective leftAction, .objective rightObjective rightAction =>
      leftObjective == rightObjective && leftAction == rightAction
  | .subFlow left, .subFlow right => sameNested left right
  | .branch leftConditions leftTargets, .branch rightConditions rightTargets =>
      leftConditions == rightConditions && leftTargets == rightTargets
  | .sequence left, .sequence right => left == right
  | .loop leftBody leftLimit, .loop rightBody rightLimit =>
      leftBody == rightBody && leftLimit == rightLimit
  | _, _ => false

/-- Whether two SubFlow nodes have agreeing graphs, or both none. -/
def sameNested : Option Graph → Option Graph → Bool
  | none, none => true
  | some left, some right => same left right
  | _, _ => false

end

instance : BEq Graph := ⟨same⟩

end Graph

end SceneFlow
