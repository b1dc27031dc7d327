/-!
# Worlds

What a flow asks of its surroundings. A run issues commands and poses two questions; whoever hosts
it decides what they mean. Commands are plain data, so a run can say which one comes next without a
world at hand.
-/

set_option autoImplicit false

namespace SceneFlow

inductive Command where
  /-- Play a sequence of dialogue. Nothing is awaited. -/
  | play (sequence : String)
  | activate (objective : String)
  | complete (objective : String)
deriving DecidableEq

/-- Surroundings of a run, as values that a command changes and a question leaves alone. -/
class World (σ : Type) where
  perform : Command → σ → σ
  /-- Whether a sequence of dialogue is still being presented. -/
  isPlaying : σ → String → Bool
  holds : σ → String → Bool

/-- A world in which nothing plays and no condition holds. -/
inductive EmptyWorld where
  | empty
deriving DecidableEq

instance : World EmptyWorld where
  perform _ world := world
  isPlaying _ _ := false
  holds _ _ := false

instance {σ τ : Type} [World σ] [World τ] : World (σ ⊕ τ) where
  perform command
    | .inl world => .inl (World.perform command world)
    | .inr world => .inr (World.perform command world)
  isPlaying
    | .inl world => World.isPlaying world
    | .inr world => World.isPlaying world
  holds
    | .inl world => World.holds world
    | .inr world => World.holds world

end SceneFlow
