/-!
# Failures

Why a graph or a script cannot be used.
-/

set_option autoImplicit false

namespace SceneFlow

/-- What tools object to about a graph. Runs never do: they end where a graph ends. -/
inductive GraphError where
  | notFound (path : String)
  | invalid (reason : String)
deriving DecidableEq

namespace GraphError

def message : GraphError → String
  | .notFound path => "Graph not found: " ++ path
  | .invalid reason => "Invalid graph: " ++ reason

end GraphError

/-- Why something could not be loaded or was refused. -/
inductive Failure where
  | graph (error : GraphError)
  | unreadable
  /-- A text is no document of the expected shape. -/
  | malformed
deriving DecidableEq

namespace Failure

/-- The failure in words. What exactly is wrong with a file or a text is not told. -/
def message : Failure → String
  | .graph error => "Graph error: " ++ error.message
  | .unreadable => "IO error"
  | .malformed => "Serialization error"

end Failure

end SceneFlow
