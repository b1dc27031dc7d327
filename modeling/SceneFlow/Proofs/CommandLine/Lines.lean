import SceneFlow.CommandLine.Execution
import SceneFlow.Proofs.Player.Endings

/-!
# Lines of a playback

Two lines tell how a playback was cut off: the notice that the limit was reached, and the report
that the run was stopped. Each is marked by a sign that no other line begins with, however far the
line is set in. Whatever ids and names a graph has, no other line can be taken for one of these.
-/

set_option autoImplicit false

namespace SceneFlow

namespace Playback

/-- The first character of a line that is not blank. -/
def mark? (line : String) : Option Char :=
  line.toList.find? (· ≠ ' ')

theorem mark?_append {first : Char} {lead : String} (marked : mark? lead = some first)
    (rest : String) : mark? (lead ++ rest) = some first := by
  unfold mark? at marked ⊢
  rw [String.toList_append, List.find?_append, marked, Option.some_or]

theorem toList_pushn (count : Nat) : ("".pushn ' ' count).toList = List.replicate count ' ' := by
  induction count with
  | zero => rfl
  | succ count ih => exact (String.toList_push ..).trans (ih ▸ List.replicate_succ'.symm)

/-- How far a line is set in does not matter for its mark. -/
theorem mark?_pushn_append (count : Nat) (line : String) :
    mark? ("".pushn ' ' count ++ line) = mark? line := by
  have blank : (List.replicate count ' ').find? (· ≠ ' ') = none := by simp
  rw [mark?, String.toList_append, toList_pushn, List.find?_append, blank, Option.none_or, mark?]

/-- The line with which a playback is cut off. -/
def limitNotice : String := "⏹️  Tick limit reached, stopping run"

/-- The line that tells that a run of a graph was stopped. -/
def stopLine (graph : String) : String := "  💥 Graph '" ++ graph ++ "' stopped"

/-- The line has nothing to do with how a playback is cut off. -/
def Plain (line : String) : Prop :=
  mark? line ≠ some '⏹' ∧ mark? line ≠ some '💥'

theorem plain_of_mark (first : Char) {line : String} (marked : mark? line = some first)
    (other : first ≠ '⏹' ∧ first ≠ '💥') : Plain line := by
  rw [Plain, marked, ne_eq, ne_eq, Option.some.injEq, Option.some.injEq]
  exact other

theorem plain_of_unmarked {line : String} (unmarked : mark? line = none) : Plain line := by
  rw [Plain, unmarked]
  exact ⟨nofun, nofun⟩

theorem Plain.ne_limitNotice {line : String} (plain : Plain line) : line ≠ limitNotice := by
  rintro rfl
  exact plain.1 rfl

theorem mark?_stopLine (graph : String) : mark? (stopLine graph) = some '💥' :=
  mark?_append (mark?_append rfl _) _

theorem Plain.ne_stopLine {line : String} (plain : Plain line) (graph : String) :
    line ≠ stopLine graph := by
  rintro rfl
  exact plain.2 (mark?_stopLine graph)

/-! ## What happens on the way -/

theorem plain_commandLine (command : Command) : Plain (commandLine command) := by
  cases command with
  | play sequence =>
      exact plain_of_mark '💬' (mark?_append (mark?_append rfl _) _) (by decide)
  | activate objective =>
      exact plain_of_mark '🎯' (mark?_append (mark?_append rfl _) _) (by decide)
  | complete objective =>
      exact plain_of_mark '🏁' (mark?_append (mark?_append rfl _) _) (by decide)

theorem plain_signalLine (trigger : String) (tick woken : Nat) :
    Plain (signalLine trigger tick woken) := by
  refine plain_of_mark '🔔' ?_ (by decide)
  iterate 6 apply mark?_append
  rfl

/-- The line of an event is plain unless the event is a stop. -/
theorem plain_eventLine {event : Event} {line : String} (goesOn : event.report.isStop = false)
    (told : eventLine? event = some line) : Plain line := by
  unfold eventLine? at told
  cases report : event.report with
  | nodeExited | triggerSignalled => simp [report] at told
  | runStopped => simp [report, Report.isStop] at goesOn
  | runStarted graph =>
      simp only [report, Option.some.injEq, String.append_assoc] at told
      refine plain_of_mark '▶' ?_ (by decide)
      rw [← told, mark?_pushn_append]
      exact mark?_append rfl _
  | nodeEntered node type tick =>
      simp only [report, Option.some.injEq, String.append_assoc] at told
      refine plain_of_mark '⚡' ?_ (by decide)
      rw [← told, mark?_pushn_append]
      exact mark?_append rfl _
  | runFinished graph ticks =>
      simp only [report, Option.some.injEq, String.append_assoc] at told
      refine plain_of_mark '✨' ?_ (by decide)
      rw [← told, mark?_pushn_append]
      exact mark?_append rfl _

theorem plain_of_mem_deliveryLines {delivery : Delivery} {line : String}
    (goesOn : ∀ event ∈ delivery.events, event.report.isStop = false)
    (told : line ∈ deliveryLines delivery) : Plain line := by
  rcases List.mem_append.mp told with skipped | reported
  · split at skipped
    · cases skipped
    · rw [List.mem_singleton.mp skipped]
      refine plain_of_mark '(' ?_ (by decide)
      exact mark?_append (mark?_append rfl _) _
  · obtain ⟨event, member, told⟩ := List.mem_filterMap.mp reported
    exact plain_eventLine (goesOn event member) told

/-- A run that no other hosts is told to have been stopped in the line for it. -/
theorem deliveryLines_stoppedReport {run : Run} (outermost : run.level.id.depth = 0) :
    deliveryLines ⟨0, [run.stoppedReport]⟩ = [stopLine run.level.graph.id] := by
  have lead : "".pushn ' ' (2 * (run.stoppedReport.depth + 1)) ++ "💥 Graph '" =
      "  💥 Graph '" := by
    have depth : run.stoppedReport.depth = 0 := outermost
    rw [depth]
    rfl
  have told : eventLine? run.stoppedReport = some (stopLine run.level.graph.id) := by
    change some (_ ++ "💥 Graph '" ++ run.level.graph.id ++ "' stopped") = _
    rw [lead, stopLine]
  simp [deliveryLines, told]

/-! ## The beginning and the end -/

theorem plain_of_mem_summary {playback : Playback} {finished : Bool} {line : String}
    (member : line ∈ playback.summary finished) : Plain line := by
  simp only [summary, List.mem_cons, List.not_mem_nil, or_false] at member
  rcases member with rfl | rfl | rfl | rfl | rfl
  · exact plain_of_unmarked rfl
  · exact plain_of_mark '📊' rfl (by decide)
  · exact plain_of_mark 'T' (mark?_append rfl _) (by decide)
  · exact plain_of_mark 'S' (mark?_append (mark?_append rfl _) _)
      (by decide)
  · exact plain_of_mark 'F' (mark?_append rfl _) (by decide)

end Playback

namespace CommandLine

open Playback

/-- What is told before a run starts. -/
def opening (file : String) (graph : Graph) : List String :=
  ("🚀 Loading graph from: " ++ file) :: introduction graph

theorem plain_of_mem_opening {file line : String} {graph : Graph}
    (member : line ∈ opening file graph) : Plain line := by
  simp only [opening, introduction, List.mem_cons, List.mem_append, List.mem_map,
    List.not_mem_nil, or_false] at member
  rcases member with rfl | ((rfl | rfl | rfl) | ⟨slot, _, rfl⟩) | rfl
  · exact plain_of_mark '🚀' (mark?_append rfl _) (by decide)
  · exact plain_of_mark '📋' (mark?_append rfl _) (by decide)
  · exact plain_of_mark 'N' (mark?_append rfl _) (by decide)
  · exact plain_of_mark 'A' (mark?_append rfl _) (by decide)
  · refine plain_of_mark '🧍' ?_ (by decide)
    iterate 4 apply mark?_append
    rfl
  · exact plain_of_unmarked rfl

end CommandLine

end SceneFlow
