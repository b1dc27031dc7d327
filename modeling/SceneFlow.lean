import SceneFlow.Members
import SceneFlow.Failure
import SceneFlow.Number.Digits
import SceneFlow.Number.Binary
import SceneFlow.Number.Basic
import SceneFlow.Number.Shortest
import SceneFlow.Number.Places
import SceneFlow.Number.Reading
import SceneFlow.Json.Numeral
import SceneFlow.Json.Basic
import SceneFlow.Json.Token
import SceneFlow.Json.Reader
import SceneFlow.Json.Writer
import SceneFlow.Json.Fields
import SceneFlow.Text.Plain
import SceneFlow.Text.Quoted
import SceneFlow.Datum
import SceneFlow.Graph.Basic
import SceneFlow.Graph.Document
import SceneFlow.Graph.Equality
import SceneFlow.World.Basic
import SceneFlow.World.Script
import SceneFlow.World.Scripted
import SceneFlow.Event.Basic
import SceneFlow.Event.Channel
import SceneFlow.Run.ReturnStack
import SceneFlow.Run.Triggers
import SceneFlow.Run.Activity
import SceneFlow.Run.Level
import SceneFlow.Run.Basic
import SceneFlow.Run.Status
import SceneFlow.Lint.Basic
import SceneFlow.Lint.Reachability
import SceneFlow.Lint.Check
import SceneFlow.Player
import SceneFlow.CommandLine.Arguments
import SceneFlow.CommandLine.Playback
import SceneFlow.CommandLine.Execution
import SceneFlow.CommandLine.Folder
import SceneFlow.Main
import SceneFlow.Proofs.Members
import SceneFlow.Proofs.Graph.Resolution
import SceneFlow.Proofs.Run.Level
import SceneFlow.Proofs.Run.Step
import SceneFlow.Proofs.Run.Nesting
import SceneFlow.Proofs.Run.Session
import SceneFlow.Proofs.Run.Returns
import SceneFlow.Proofs.Graph.Expansion
import SceneFlow.Proofs.Run.Unfolding
import SceneFlow.Proofs.Run.Chain
import SceneFlow.Proofs.Lint.Levels
import SceneFlow.Proofs.Lint.Resolution
import SceneFlow.Proofs.Graph.Ordinary
import SceneFlow.Proofs.Run.Bounds
import SceneFlow.Proofs.Run.Signals
import SceneFlow.Proofs.Run.Chronicle
import SceneFlow.Proofs.Run.Records
import SceneFlow.Proofs.Player.Endings
import SceneFlow.Proofs.Run.Brackets
import SceneFlow.Proofs.Run.Commands
import SceneFlow.Proofs.Run.Pace
import SceneFlow.Proofs.Graph.Pairing
import SceneFlow.Proofs.Run.Likeness
import SceneFlow.Proofs.Run.Identity
import SceneFlow.Proofs.Run.Hosting
import SceneFlow.Proofs.Run.Correspondence
import SceneFlow.Proofs.Run.Indifference
import SceneFlow.Proofs.Run.EmptyIds
import SceneFlow.Proofs.Event.Channel
import SceneFlow.Proofs.Player.Delivery
import SceneFlow.Proofs.Datum
import SceneFlow.Proofs.Graph.Document
import SceneFlow.Proofs.Lint.Reachability
import SceneFlow.Proofs.Run.Reachability
import SceneFlow.Proofs.Run.Trails
import SceneFlow.Proofs.Run.Completion
import SceneFlow.Proofs.CommandLine.Schedule
import SceneFlow.Proofs.Json.Nesting
import SceneFlow.Proofs.Graph.Depth
import SceneFlow.Proofs.Graph.Reloading
import SceneFlow.Proofs.Lint.Errors
import SceneFlow.Proofs.Run.Turns
import SceneFlow.Proofs.Run.Indices
import SceneFlow.Proofs.Run.Beginnings
import SceneFlow.Proofs.Run.Freshness
import SceneFlow.Proofs.Run.Branching
import SceneFlow.Proofs.Run.Ignored
import SceneFlow.Proofs.Lint.Nested
import SceneFlow.Proofs.World.History
import SceneFlow.Proofs.CommandLine.Lines
import SceneFlow.Proofs.CommandLine.Limit
import SceneFlow.Proofs.Json.Written
import SceneFlow.Proofs.Graph.Fields
import SceneFlow.Proofs.Graph.Edits
import SceneFlow.Proofs.Run.Triggers
import SceneFlow.Proofs.Run.ReturnStack
