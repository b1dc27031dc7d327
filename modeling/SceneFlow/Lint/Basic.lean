import SceneFlow.Failure
import SceneFlow.Graph.Basic
import SceneFlow.Json.Writer

/-!
# Lint reports

What a linter finds in a graph. An issue is located by the path of graphs it lies in and the id of
the node. A report with an error among its issues makes the graph invalid; warnings do not.
-/

set_option autoImplicit false

namespace SceneFlow

inductive Severity where
  | warning
  | error
deriving DecidableEq

namespace Severity

def name : Severity → String
  | warning => "Warning"
  | error => "Error"

def word : Severity → String
  | warning => "warning"
  | error => "error"

end Severity

inductive IssueKind where
  | emptyGraph
  | startNotStart (found : NodeType)
  /-- The node at this position of the graph has no id. -/
  | emptyNodeId (position : Nat)
  | duplicateId
  | unresolvedReference (field : ReferenceField) (target : String)
  | unreachable
  | ignoredSequenceNext (next : String)
  | mismatchedBranch (conditions targets : Nat)
  | loopWithoutBody
  | missingTriggerId
  | missingDialogue
  | missingSubFlow
deriving DecidableEq

namespace IssueKind

/-- Issues that keep ids from naming one node each are errors, all others warnings. -/
def severity : IssueKind → Severity
  | .emptyNodeId _ | .duplicateId | .unresolvedReference .. => .error
  | _ => .warning

def name : IssueKind → String
  | .emptyGraph => "EmptyGraph"
  | .startNotStart _ => "StartNotStart"
  | .emptyNodeId _ => "EmptyNodeId"
  | .duplicateId => "DuplicateId"
  | .unresolvedReference .. => "UnresolvedReference"
  | .unreachable => "Unreachable"
  | .ignoredSequenceNext _ => "IgnoredSequenceNext"
  | .mismatchedBranch .. => "MismatchedBranch"
  | .loopWithoutBody => "LoopWithoutBody"
  | .missingTriggerId => "MissingTriggerId"
  | .missingDialogue => "MissingDialogue"
  | .missingSubFlow => "MissingSubFlow"

def text : IssueKind → String
  | .emptyGraph => "graph has no nodes"
  | .startNotStart found => "first node should be a Start node, found " ++ found.name
  | .emptyNodeId position => "node at index " ++ toString position ++ " has no id"
  | .duplicateId => "id is used by more than one node"
  | .unresolvedReference field target =>
      field.name ++ " refers to unknown node '" ++ target ++ "'"
  | .unreachable => "not reachable from the start node"
  | .ignoredSequenceNext next => "sequence ignores its next_id '" ++ next ++ "'"
  | .mismatchedBranch conditions targets =>
      toString conditions ++ " conditions but " ++ toString targets ++
        " targets; extra entries are ignored"
  | .loopWithoutBody => "loop has no body and falls straight through"
  | .missingTriggerId => "waits on an empty trigger id and can never wake"
  | .missingDialogue => "no dialogue sequence; completes immediately"
  | .missingSubFlow => "no nested graph; completes immediately"

def toJson (kind : IssueKind) : Json :=
  .object (("kind", .string kind.name) ::
    match kind with
    | .startNotStart found => [("found", .string found.name)]
    | .emptyNodeId position => [("index", .nat position)]
    | .unresolvedReference field target =>
        [("field", .string field.name), ("target", .string target)]
    | .ignoredSequenceNext next => [("next_id", .string next)]
    | .mismatchedBranch conditions targets =>
        [("conditions", .nat conditions), ("targets", .nat targets)]
    | _ => [])

end IssueKind

structure Issue where
  /-- The ids of the graphs and SubFlow nodes around it, from the outside inwards. -/
  path : String
  node : Option String
  kind : IssueKind
deriving DecidableEq

namespace Issue

def severity (issue : Issue) : Severity :=
  issue.kind.severity

def text (issue : Issue) : String :=
  let place :=
    match issue.node with
    | some node => "] '" ++ node ++ "': "
    | none => "] "
  issue.severity.word ++ ": [" ++ issue.path ++ place ++ issue.kind.text

def toJson (issue : Issue) : Json :=
  .object
    [("severity", .string issue.severity.name),
     ("graph_path", .string issue.path),
     ("node_id", .string? issue.node),
     ("kind", issue.kind.toJson)]

end Issue

structure LintReport where
  issues : List Issue

namespace LintReport

def errors (report : LintReport) : List Issue :=
  report.issues.filter (·.severity == .error)

def warnings (report : LintReport) : List Issue :=
  report.issues.filter (·.severity == .warning)

/-- Whether the graph is invalid. -/
def hasErrors (report : LintReport) : Bool :=
  !report.errors.isEmpty

def isClean (report : LintReport) : Bool :=
  report.issues.isEmpty

def worst? (report : LintReport) : Option Severity :=
  if report.hasErrors then some .error
  else if report.isClean then none
  else some .warning

/-- Fails with all errors in one message, if there are any. -/
def ensureValid (report : LintReport) : Except GraphError Unit :=
  if report.hasErrors then
    .error (.invalid ("; ".intercalate (report.errors.map Issue.text)))
  else
    .ok ()

def toJson (report : LintReport) : Json :=
  .object [("issues", .array (report.issues.map Issue.toJson))]

end LintReport

end SceneFlow
