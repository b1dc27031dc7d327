/-!
# Return stacks

The nodes of a run that handed control to a chain of other nodes and get it back when the chain
ends. The last one to hand it over is the first to get it back.
-/

set_option autoImplicit false

namespace SceneFlow

/-- Node numbers, the one on top first. -/
structure ReturnStack where
  entries : List Nat
deriving DecidableEq

namespace ReturnStack

def empty : ReturnStack := ⟨[]⟩

def push (stack : ReturnStack) (node : Nat) : ReturnStack :=
  ⟨node :: stack.entries⟩

/-- Takes the topmost entry that passes a test, and throws away those above it. Where none passes,
nothing is left. -/
def popValid (isValid : Nat → Bool) (stack : ReturnStack) : Option Nat × ReturnStack :=
  match stack.entries.dropWhile (!isValid ·) with
  | [] => (none, empty)
  | node :: rest => (some node, ⟨rest⟩)

def removeAll (stack : ReturnStack) (node : Nat) : ReturnStack :=
  ⟨stack.entries.filter (· ≠ node)⟩

def contains (stack : ReturnStack) (node : Nat) : Bool :=
  stack.entries.contains node

def peek? (stack : ReturnStack) : Option Nat :=
  stack.entries.head?

def size (stack : ReturnStack) : Nat :=
  stack.entries.length

def isEmpty (stack : ReturnStack) : Bool :=
  stack.entries.isEmpty

@[simp] theorem entries_push (stack : ReturnStack) (node : Nat) :
    (stack.push node).entries = node :: stack.entries := rfl

@[simp] theorem entries_removeAll (stack : ReturnStack) (node : Nat) :
    (stack.removeAll node).entries = stack.entries.filter (· ≠ node) := rfl

theorem contains_removeAll (stack : ReturnStack) (node : Nat) :
    (stack.removeAll node).contains node = false := by
  simp [contains, removeAll]

end ReturnStack

def shownEntry (node : Nat) : String :=
  "#" ++ toString node

end SceneFlow
