import SceneFlow.Proofs.Run.Commands
import SceneFlow.Proofs.Run.Identity

/-!
# Hosted runs

A SubFlow node with a graph hosts a run of that graph for as long as it has control, and no other
node hosts a run. The hosted run is the one that would start alone in the same world, and ticks and
changes of the world do to both the same. Signals do not reach it. The visit of the host ends in the
first tick after which the hosted run is over.
-/

set_option autoImplicit false

namespace SceneFlow

namespace Run

variable {σ : Type} [World σ]

/-- The runs nested in a run, from the outside inwards. -/
def hosted : Run → List Run
  | .alone _ => []
  | .hosting _ inner => inner.chain

theorem mem_chain_iff {run nested : Run} :
    nested ∈ run.chain ↔ nested = run ∨ nested ∈ run.hosted := by
  cases run <;> exact List.mem_cons

theorem mem_hosted_of_inner? {run host inner : Run} (member : host ∈ run.chain)
    (hosts : host.inner? = some inner) : inner ∈ run.hosted := by
  induction run with
  | alone level =>
      rw [List.mem_singleton.mp member] at hosts
      cases hosts
  | hosting level nested ih =>
      rcases List.mem_cons.mp member with rfl | inside
      · cases hosts
        exact mem_chain_self inner
      · exact mem_chain_iff.mpr (.inr (ih inside))

theorem hosted_signal (trigger : String) (run : Run) :
    (run.signal trigger).run.hosted = run.hosted := by
  cases run <;> rfl

/-- A level hosts a run just while its current node is a SubFlow node with a graph. -/
theorem Sound.inner?_eq {run : Run} (sound : run.Sound) :
    run.inner?.map (·.level.graph) = run.level.current.bind run.level.graph.nestedAt? := by
  cases sound with
  | @alone level sound free =>
      change none = level.current.bind level.graph.nestedAt?
      cases current : level.current with
      | none => rfl
      | some index => exact (free index current).symm
  | @hosting level inner index sound current hosted =>
      change some inner.level.graph = level.current.bind level.graph.nestedAt?
      rw [current, Option.bind_some, hosted]

theorem Sound.command?_of_mem_chain {run nested : Run} (sound : run.Sound)
    (member : nested ∈ run.chain) : run.command? = nested.command? := by
  induction sound with
  | alone => rw [List.mem_singleton.mp member]
  | hosting sound current hosted identity within ih =>
      rcases List.mem_cons.mp member with rfl | inside
      · rfl
      · rw [(Sound.hosting sound current hosted identity within).command?_of_hosting]
        exact ih inside

/-! ## Fresh runs -/

/-- The run is as it has started. -/
def IsStart (world : Option σ) (run : Run) : Prop :=
  run = (start world run.level.id run.level.graph).1

mutual

theorem isStart_of_mem_start (world : Option σ) (id : RunId) (graph : Graph) (nested : Run)
    (member : nested ∈ (start world id graph).1.chain) :
    nested.IsStart world ∧ nested.level.id.IsWithin id := by
  rcases mem_chain_iff.mp member with rfl | inside
  · rw [IsStart, level_start, Level.id_begin, Level.graph_begin]
    exact ⟨rfl, .refl id⟩
  · match found : graph.startIndex? with
    | none =>
        rw [start_of_none found] at inside
        cases inside
    | some index =>
        rw [start_of_some found] at inside
        have entered := isStart_of_mem_enter world index (Level.ofGraph id graph) nested inside
        exact ⟨entered.1, entered.2.of_nested⟩
termination_by 2 * graph.nesting + 1
decreasing_by
  simp only [Level.ofGraph]
  omega

theorem isStart_of_mem_enter (world : Option σ) (index : Nat) (level : Level) (nested : Run)
    (member : nested ∈ (enter world index level).1.hosted) :
    nested.IsStart world ∧ nested.level.id.IsWithin (level.id.nested (level.enters + 1)) := by
  match hosts : level.graph.nestedAt? index with
  | none =>
      rw [enter_of_none hosts] at member
      cases member
  | some graph =>
      rw [enter_hosting hosts] at member
      exact isStart_of_mem_start world (level.id.nested (level.enters + 1)) graph nested member
termination_by 2 * level.graph.nesting
decreasing_by
  have := Graph.nesting_lt_of_nestedAt? hosts
  omega

end

theorem isStart_of_mem_moveOn {level : Level} {index : Nat} (sound : level.Sound)
    (current : level.current = some index) {world : Option σ} {nested : Run}
    (member : nested ∈ (moveOn world index level).1.hosted) :
    nested.IsStart world ∧ nested.level.id.IsWithin (level.id.nested (level.enters + 1)) := by
  obtain ⟨next, left, _, _, sameId, sameEnters, entered⟩ | ⟨last, _, ended⟩ :=
    moveOn_enters_or_ends sound current world
  · rw [entered] at member
    rw [← sameId, ← sameEnters]
    exact isStart_of_mem_enter world next left nested member
  · rw [ended] at member
    cases member

/-! ## Ticks -/

/-- A run that is nested in another one after a tick has just started, under an identity that was
never heard of, or was nested there before and has had the same tick. -/
theorem Sound.hosted_cases {run : Run} (sound : run.Sound) {events : List Event}
    (recorded : Recorded events run) (seconds : Float32) (world : Option σ) {nested : Run}
    (member : nested ∈ (run.advance seconds world).1.hosted) :
    (nested.IsStart world ∧ own nested.level.id events = []) ∨
      ∃ before ∈ run.hosted, nested = (before.advance seconds world).1 ∧
        nested.isFinished = false := by
  have moved : ∀ {level : Level} {index : Nat} {hosting : Option Nat}, level.Sound →
      level.current = some index → Housed events level.id level.enters hosting →
      nested ∈ (moveOn world index (level.worked seconds world index)).1.hosted →
      nested.IsStart world ∧ own nested.level.id events = [] := by
    intro level index hosting sound current housed member
    obtain ⟨started, within⟩ :=
      isStart_of_mem_moveOn (sound.worked seconds world index) current member
    exact ⟨started, housed.fresh _ (Nat.lt_succ_self level.enters) _ within⟩
  -- Whichever level moves on, the runs around it host what they have hosted before.
  induction sound with
  | @alone level sound free =>
      cases recorded with
      | alone chronicle housed =>
          cases current : level.current with
          | none =>
              have isOver : (Run.alone level).level.current = none := current
              rw [advance_of_current_none isOver] at member
              cases member
          | some index =>
              obtain ⟨inst, found⟩ := sound.instance_of_current current
              rw [advance_alone current found] at member
              split at member
              · exact .inl (moved sound current housed member)
              · cases member
  | @hosting level inner index sound current hosted identity within ih =>
      cases recorded with
      | hosting chronicle housed recorded =>
          rw [advance_hosting sound current hosted] at member
          split at member
          · exact .inl (moved sound current housed member)
          next running =>
            rcases mem_chain_iff.mp member with rfl | deeper
            · exact .inr ⟨inner, mem_chain_self inner, rfl, Bool.eq_false_iff.mpr running⟩
            · rcases ih recorded deeper with started | ⟨before, earlier, advanced⟩
              · exact .inl started
              · exact .inr ⟨before, mem_chain_iff.mpr (.inr earlier), advanced⟩

/-! ## Reports -/

/-- What is reported as a level enters a node comes from the level, or from the run of the new
visit. -/
theorem run_of_mem_enter {world : Option σ} {index : Nat} {level : Level} {event : Event}
    (member : event ∈ (enter world index level).2) :
    event.run = level.id ∨ event.run.IsWithin (level.id.nested (level.enters + 1)) := by
  have own : event ∈ (level.enter world index).enteredReport index → event.run = level.id :=
    fun reported => (Level.run_of_mem_enteredReport reported).trans (Level.id_enter _ _ _)
  cases hosts : level.graph.nestedAt? index with
  | none =>
      rw [enter_of_none hosts] at member
      exact .inl (own member)
  | some graph =>
      rw [enter_hosting hosts] at member
      rcases List.mem_append.mp member with nested | reported
      · exact .inr (isWithin_of_mem_start world _ graph event nested)
      · exact .inl (own reported)

theorem run_of_mem_moveOn {world : Option σ} {index : Nat} {level : Level} {event : Event}
    (member : event ∈ (moveOn world index level).2) :
    event.run = level.id ∨ event.run.IsWithin (level.id.nested (level.enters + 1)) := by
  rw [← Level.id_leave index level, ← Level.enters_leave index level]
  rw [events_moveOn] at member
  rcases List.mem_append.mp member with exited | arrived
  · exact .inl (Level.run_of_mem_exitedReport exited)
  · cases goes : (level.leave index).destination index with
    | successor next =>
        rw [goes] at arrived
        exact run_of_mem_enter arrived
    | resumption next returns =>
        rw [goes] at arrived
        have resumed : event ∈ (enter world next { level.leave index with returns }).2 := arrived
        have reported := run_of_mem_enter resumed
        exact reported
    | ending | unresolved =>
        rw [goes] at arrived
        rw [List.mem_singleton.mp arrived]
        exact .inl rfl

theorem Sound.isWithin_of_mem_chain {run nested : Run} (sound : run.Sound)
    (member : nested ∈ run.chain) : nested.level.id.IsWithin run.level.id := by
  induction sound with
  | alone =>
      rw [List.mem_singleton.mp member]
      exact .refl _
  | hosting sound current hosted identity within ih =>
      rcases List.mem_cons.mp member with rfl | deeper
      · exact .refl _
      · exact (identity ▸ ih deeper).of_nested

/-- What a nested run reports in a tick does not depend on the runs around it. -/
theorem Sound.own_of_mem_chain {run nested : Run} (sound : run.Sound)
    (member : nested ∈ run.chain) (seconds : Float32) (world : Option σ) :
    own nested.level.id (run.advance seconds world).2 =
      own nested.level.id (nested.advance seconds world).2 := by
  induction sound with
  | alone => rw [List.mem_singleton.mp member]
  | @hosting level inner index sound current hosted identity inside ih =>
      rcases List.mem_cons.mp member with rfl | deeper
      · rfl
      · have within : nested.level.id.IsWithin (level.id.nested level.enters) :=
          identity ▸ inside.isWithin_of_mem_chain deeper
        have silent : own nested.level.id
            (moveOn world index (level.worked seconds world index)).2 = [] := by
          refine own_of_forall_ne fun event reported same => ?_
          rcases run_of_mem_moveOn reported with mine | next
          · exact within.ne_of_nested (same.symm.trans mine)
          · exact absurd (within.eq_of_nested (same ▸ next)) (Nat.ne_of_lt (Nat.lt_succ_self _))
        rw [← ih deeper, advance_hosting sound current hosted]
        split
        · dsimp only
          rw [own_append, silent, List.append_nil]
        · rfl

theorem exits_eq_of_own_eq {id : RunId} {events others : List Event}
    (same : own id events = own id others) : exits id events = exits id others := by
  rw [exits, exits, reports, reports, same]

theorem isExit_of_mem_arrivalReport {world : Option σ} {level : Level} {destination : Destination}
    {event : Event} (member : event ∈ level.arrivalReport world destination) :
    event.report.isExit = false := by
  have entered : ∀ {level : Level} {index : Nat}, event ∈ level.enteredReport index →
      event.report.isExit = false := by
    intro level index member
    obtain ⟨inst, rfl⟩ := Level.eq_of_mem_enteredReport member
    rfl
  cases destination with
  | successor | resumption => exact entered member
  | ending | unresolved =>
      rw [List.mem_singleton.mp member]
      rfl

theorem exits_of_own_eq_departureReport {level : Level} {index : Nat} {inst : Instance}
    (found : level.instances[index]? = some inst) {seconds : Float32} {world : Option σ}
    {events : List Event} (told : own level.id events = level.departureReport seconds world index) :
    exits level.id events = [.nodeExited inst.id inst.type (level.ticks + 1)] := by
  have arrived : ∀ destination, ((((level.left seconds world index).arrivalReport world
      destination).map (·.report)).filter (!·.isSignal)).filter (·.isExit) = [] := by
    intro destination
    refine List.filter_eq_nil_iff.mpr fun report member => ?_
    obtain ⟨event, reported, rfl⟩ := List.mem_map.mp (List.mem_filter.mp member).1
    rw [isExit_of_mem_arrivalReport reported]
    exact Bool.false_ne_true
  rw [exits, reports, told, Level.departureReport, Level.exitedReport_left found, List.map_append,
    List.filter_append, List.filter_append, arrived]
  rfl

/-- A level that hosts a run reports the end of the visit in the tick that ends the hosted run, and
no end of a visit in any other tick. -/
theorem Sound.exits_of_hosting {run host inner : Run} (sound : run.Sound)
    (member : host ∈ run.chain) (hosts : host.inner? = some inner) :
    ∃ node, host.level.current? = some node ∧ node.type = .subFlow ∧
      ∀ (seconds : Float32) (world : Option σ),
        exits host.level.id (run.advance seconds world).2 =
          if (inner.advance seconds world).1.isFinished then
            [.nodeExited node.id .subFlow (host.level.ticks + 1)]
          else [] := by
  have reported := fun seconds (world : Option σ) =>
    exits_eq_of_own_eq (sound.own_of_mem_chain member seconds world)
  cases sound.of_mem_chain member with
  | alone => cases hosts
  | @hosting level inner index levelSound current hosted identity within =>
      cases hosts
      obtain ⟨node, found⟩ := levelSound.instance_of_current current
      have type := levelSound.type_of_nested hosted found
      refine ⟨node, Level.current?_of_found current found, type, fun seconds world => ?_⟩
      have told := (Sound.hosting levelSound current hosted identity within).own_advance
        seconds world
      rw [reported]
      rw [departure?_hosting current] at told
      cases isOver : (inner.advance seconds world).1.isFinished with
      | true =>
          rw [isOver] at told
          rw [← type]
          exact exits_of_own_eq_departureReport found told
      | false =>
          rw [isOver] at told
          rw [exits, reports, told]
          rfl

theorem Recorded.own_ne_nil {events : List Event} {run : Run} (recorded : Recorded events run) :
    own run.level.id events ≠ [] := by
  intro silent
  have chronicle := recorded.chronicle
  rw [reports_of_own_eq_nil silent] at chronicle
  cases chronicle

end Run

/-! ## Sessions -/

def Operation.isSignal {σ : Type} : Operation σ → Bool
  | .signal _ => true
  | _ => false

namespace Session

variable {σ : Type} [World σ]

/-- The operations that reach hosted runs. -/
def unsignalled (operations : List (Operation σ)) : List (Operation σ) :=
  operations.filter fun operation => !operation.isSignal

/-- A run with the identity is under way. -/
def UnderWay (session : Session σ) (id : RunId) : Prop :=
  ∃ nested ∈ session.run.chain, nested.level.id = id

/-- Of the sessions on the way of the operations, the inner run is under way in the one after
`before` and in all later ones. -/
def UnderWaySince (world : Option σ) (id : RunId) (graph : Graph)
    (before operations : List (Operation σ)) (inner : RunId) : Prop :=
  ∀ earlier, earlier <+: operations →
    ((after world id graph earlier).UnderWay inner ↔ before <+: earlier)

/-- From a session on, operations have brought the inner run to where they bring a run of its graph
that starts alone in the world of that session and is spared the signals. Only the identities of the
two differ. -/
structure Echoes (entry : Session σ) (operations : List (Operation σ)) (inner : Run)
    (other : RunId) : Prop where
  run : inner = (after entry.world other inner.level.graph (unsignalled operations)).run.renamed
    inner.level.id
  world : (operations.foldl perform entry).world =
    (after entry.world other inner.level.graph (unsignalled operations)).world
  /-- All commands of the session are those of the run. -/
  commands : entry.commands operations =
    (begin entry.world other inner.level.graph).commands (unsignalled operations)
  /-- No tick has left the run finished. -/
  running : inner.isFinished = true → ∀ operation ∈ operations, operation.isTick = false

section Echoes

variable {entry : Session σ} {operations : List (Operation σ)} {inner : Run} {other : RunId}

theorem echoes_nil (started : inner.IsStart entry.world) (other : RunId) :
    Echoes entry [] inner other where
  run := started.trans (Run.start_renamed entry.world inner.level.id other inner.level.graph).symm
  world := rfl
  commands := rfl
  running _ := nofun

theorem Echoes.issued?_eq (echoes : Echoes entry operations inner other)
    (same : (operations.foldl perform entry).run.command? = inner.command?)
    (operation : Operation σ) :
    (operations.foldl perform entry).issued? operation =
      (after entry.world other inner.level.graph (unsignalled operations)).issued? operation := by
  cases operation with
  | tick seconds =>
      have mirrored := congrArg Run.command? echoes.run
      rw [Run.command?_renamed] at mirrored
      rw [issued?, issued?, echoes.world, same, mirrored]
  | signal | change => rfl

theorem Echoes.append (echoes : Echoes entry operations inner other)
    (same : (operations.foldl perform entry).run.command? = inner.command?)
    {operation : Operation σ} (heard : operation.isSignal = false) {next : Run}
    (sameGraph : next.level.graph = inner.level.graph)
    (run : next = ((after entry.world other inner.level.graph
      (unsignalled operations)).perform operation).run.renamed next.level.id)
    (running : next.isFinished = true → ∀ earlier ∈ operations ++ [operation],
      earlier.isTick = false) :
    Echoes entry (operations ++ [operation]) next other := by
  have issued := echoes.issued?_eq same operation
  have quiet : unsignalled (operations ++ [operation]) = unsignalled operations ++ [operation] := by
    simp [unsignalled, heard]
  constructor
  · rw [quiet, sameGraph, after_append]
    exact run
  · rw [quiet, sameGraph, after_append, List.foldl_append, List.foldl_cons, List.foldl_nil,
      world_perform, world_perform, echoes.world, issued]
  · rw [quiet, sameGraph, Session.commands, Session.commands, gather_append, gather_append, issued]
    exact congrArg (· ++ _) echoes.commands
  · exact running

/-- The next tick does the same to the run and to the one that is alone. -/
theorem Echoes.advance_eq (echoes : Echoes entry operations inner other)
    (same : (operations.foldl perform entry).run.command? = inner.command?) (seconds : Float32) :
    (inner.advance seconds ((operations.foldl perform entry).perform (.tick seconds)).world).1 =
      ((after entry.world other inner.level.graph (unsignalled operations)).perform
        (.tick seconds)).run.renamed inner.level.id := by
  have worlds : ((operations.foldl perform entry).perform (.tick seconds)).world =
      ((after entry.world other inner.level.graph (unsignalled operations)).perform
        (.tick seconds)).world := by
    rw [world_perform, world_perform, echoes.world, echoes.issued?_eq same (.tick seconds)]
  have mirrored := Run.advance_renamed seconds
    ((operations.foldl perform entry).perform (.tick seconds)).world inner.level.id
    (after entry.world other inner.level.graph (unsignalled operations)).run
  rw [← echoes.run, worlds] at mirrored
  rw [worlds]
  exact mirrored

theorem Echoes.tick (echoes : Echoes entry operations inner other)
    (same : (operations.foldl perform entry).run.command? = inner.command?) (sound : inner.Sound)
    {seconds : Float32} {next : Run}
    (advanced : next = (inner.advance seconds
      ((operations.foldl perform entry).perform (.tick seconds)).world).1)
    (running : next.isFinished = false) :
    Echoes entry (operations ++ [.tick seconds]) next other := by
  have step := sound.tickStep seconds
    ((operations.foldl perform entry).perform (.tick seconds)).world
  rw [← advanced] at step
  refine echoes.append same rfl step.graph_eq ?_ fun isOver => ?_
  · rw [step.id_eq, ← echoes.advance_eq same seconds]
    exact advanced
  · exact absurd (running.symm.trans isOver) nofun

theorem Echoes.change (echoes : Echoes entry operations inner other)
    (same : (operations.foldl perform entry).run.command? = inner.command?) (become : σ → σ) :
    Echoes entry (operations ++ [.change become]) inner other := by
  refine echoes.append same rfl rfl echoes.run fun isOver earlier member => ?_
  rcases List.mem_append.mp member with before | last
  · exact echoes.running isOver earlier before
  · rw [List.mem_singleton.mp last]
    rfl

theorem Echoes.signal (echoes : Echoes entry operations inner other) (trigger : String) :
    Echoes entry (operations ++ [.signal trigger]) inner other := by
  have quiet : unsignalled (operations ++ [.signal trigger]) = unsignalled operations := by
    simp [unsignalled, Operation.isSignal]
  constructor
  · rw [quiet]
    exact echoes.run
  · rw [quiet, List.foldl_append]
    exact echoes.world
  · rw [quiet, Session.commands, gather_append]
    exact (List.append_nil _).trans echoes.commands
  · intro isOver earlier member
    rcases List.mem_append.mp member with before | last
    · exact echoes.running isOver earlier before
    · rw [List.mem_singleton.mp last]
      rfl

end Echoes

section Nested

variable (world : Option σ) (id : RunId) (graph : Graph)

/-- What was never heard of has not been under way. -/
theorem not_underWay_of_own_eq_nil {earlier operations : List (Operation σ)} {inner : RunId}
    (before : earlier <+: operations)
    (silent : Run.own inner (after world id graph operations).events = []) :
    ¬ (after world id graph earlier).UnderWay inner := by
  rintro ⟨nested, member, rfl⟩
  obtain ⟨new, whole⟩ := events_prefix world id graph before
  have heard := (Run.recorded_of_mem_chain (recorded world id graph earlier) member).own_ne_nil
  rw [← whole, Run.own_append] at silent
  exact heard (List.append_eq_nil_iff.mp silent).1

variable {world id graph}

theorem underWaySince_iff {before operations : List (Operation σ)} {inner : RunId} :
    UnderWaySince world id graph before operations inner ↔
      Since world id graph before operations (·.UnderWay inner) := Iff.rfl

theorem UnderWaySince.append {before operations : List (Operation σ)} {inner : RunId}
    (since : UnderWaySince world id graph before operations inner) (past : before <+: operations)
    {operation : Operation σ}
    (goesOn : (after world id graph (operations ++ [operation])).UnderWay inner) :
    UnderWaySince world id graph before (operations ++ [operation]) inner :=
  underWaySince_iff.mpr ((underWaySince_iff.mp since).append past goesOn)

theorem underWaySince_now {operations : List (Operation σ)} {operation : Operation σ}
    {inner : RunId} (silent : Run.own inner (after world id graph operations).events = [])
    (begun : (after world id graph (operations ++ [operation])).UnderWay inner) :
    UnderWaySince world id graph (operations ++ [operation]) (operations ++ [operation]) inner :=
  underWaySince_iff.mpr
    (since_now (fun _ front => not_underWay_of_own_eq_nil world id graph front silent) begun)

variable (world id graph)

theorem echoes_of_mem_hosted (operations : List (Operation σ)) {inner : Run}
    (member : inner ∈ (after world id graph operations).run.hosted) :
    ∃ before later, operations = before ++ later ∧
      UnderWaySince world id graph before operations inner.level.id ∧
      ∀ other : RunId, Echoes (after world id graph before) later inner other := by
  have underWay : ∀ {operations : List (Operation σ)} {inner : Run},
      inner ∈ (after world id graph operations).run.hosted →
        (after world id graph operations).UnderWay inner.level.id :=
    fun member => ⟨_, Run.mem_chain_iff.mpr (.inr member), rfl⟩
  induction operations using List.reverseRecOn generalizing inner with
  | nil =>
      have started := Run.isStart_of_mem_start world id graph inner
        (Run.mem_chain_iff.mpr (.inr member))
      have begun := underWay member
      exact ⟨[], [], rfl, underWaySince_iff.mpr (since_begin begun),
        fun other => echoes_nil started.1 other⟩
  | append_singleton operations operation ih =>
      have sound := sound world id graph operations
      have recorded := recorded world id graph operations
      have now := underWay member
      have command : ∀ {inner : Run}, inner ∈ (after world id graph operations).run.hosted →
          (after world id graph operations).run.command? = inner.command? :=
        fun member => sound.command?_of_mem_chain (Run.mem_chain_iff.mpr (.inr member))
      rw [after_append] at member
      cases operation with
      | tick seconds =>
          -- A run that has just started begins its own story; any other one goes on with the story
          -- that it had before this tick.
          rcases sound.hosted_cases recorded seconds _ member with
            ⟨started, silent⟩ | ⟨before, earlier, advanced, running⟩
          · refine ⟨operations ++ [.tick seconds], [], (List.append_nil _).symm,
              underWaySince_now silent now, fun other => echoes_nil ?_ other⟩
            rw [after_append]
            exact started
          · obtain ⟨entry, later, rfl, since, echoes⟩ := ih earlier
            have innerSound := sound.of_mem_chain (Run.mem_chain_iff.mpr (.inr earlier))
            have sameId : inner.level.id = before.level.id := by
              rw [advanced]
              exact (innerSound.tickStep seconds _).id_eq
            rw [← sameId] at since
            have goesOn := command earlier
            rw [after_append_list] at goesOn advanced
            exact ⟨entry, later ++ [.tick seconds], List.append_assoc .., since.append
              (List.prefix_append _ _) now,
              fun other => (echoes other).tick goesOn innerSound advanced running⟩
      | signal trigger =>
          have earlier : inner ∈ (after world id graph operations).run.hosted :=
            Run.hosted_signal trigger _ ▸ member
          obtain ⟨entry, later, rfl, since, echoes⟩ := ih earlier
          exact ⟨entry, later ++ [.signal trigger], List.append_assoc .., since.append
            (List.prefix_append _ _) now, fun other => (echoes other).signal trigger⟩
      | change become =>
          have earlier : inner ∈ (after world id graph operations).run.hosted := member
          obtain ⟨entry, later, rfl, since, echoes⟩ := ih earlier
          have goesOn := command earlier
          rw [after_append_list] at goesOn
          exact ⟨entry, later ++ [.change become], List.append_assoc .., since.append
            (List.prefix_append _ _) now, fun other => (echoes other).change goesOn become⟩

/-- In every reachable state a level hosts a run just while its current node is a SubFlow node with
a graph, and it is a run of that graph. From the moment the visit began, the hosted run has been the
run of that graph that starts alone in the world of that moment and has the same ticks, but no
signals. The visit ends in the first tick after which that run is over. -/
theorem hosted_runs_echo (operations : List (Operation σ)) :
    let session := after world id graph operations
    ∀ host ∈ session.run.chain,
      host.inner?.map (·.level.graph) = host.level.current.bind host.level.graph.nestedAt? ∧
      ∀ inner, host.inner? = some inner →
        inner.level.id = host.level.id.nested host.level.enters ∧
        ∃ before later node, operations = before ++ later ∧
          UnderWaySince world id graph before operations inner.level.id ∧
          host.level.current? = some node ∧ node.type = .subFlow ∧
          ∀ other : RunId,
            let entry := after world id graph before
            let alone := after entry.world other inner.level.graph (unsignalled later)
            Echoes entry later inner other ∧
            ∀ seconds : Float32,
              Run.exits host.level.id (session.run.tick seconds session.world).events =
                if (alone.perform (.tick seconds)).run.isFinished then
                  [.nodeExited node.id .subFlow (host.level.ticks + 1)]
                else [] := by
  intro session host member
  have sound : session.run.Sound := sound world id graph operations
  have hostSound := sound.of_mem_chain member
  refine ⟨hostSound.inner?_eq, fun inner hosts => ?_⟩
  have nested := Run.mem_hosted_of_inner? member hosts
  obtain ⟨before, later, split, since, echoes⟩ :=
    echoes_of_mem_hosted world id graph operations nested
  obtain ⟨node, current, type, reported⟩ := sound.exits_of_hosting (σ := σ) member hosts
  refine ⟨?_, before, later, node, split, since, current, type, fun other => ⟨echoes other, ?_⟩⟩
  · cases hostSound with
    | alone => cases hosts
    | hosting _ _ _ identity =>
        cases hosts
        exact identity
  · intro seconds
    have whole : session = later.foldl perform (after world id graph before) := by
      rw [← after_append_list, ← split]
    have command : session.run.command? = inner.command? :=
      sound.command?_of_mem_chain (Run.mem_chain_iff.mpr (.inr nested))
    rw [whole] at command
    have advanced := (echoes other).advance_eq command seconds
    rw [← whole] at advanced
    have ended := congrArg Run.isFinished advanced
    rw [Run.isFinished_renamed] at ended
    rw [← ended]
    exact reported seconds (session.perform (.tick seconds)).world

end Nested

/-- A signal has not reached the run that the first node hosts. -/
theorem hosted_run_echoes_hostFirst :
    let session := after (none : Option EmptyWorld) (.outermost 0) hostFirst [.signal "bell"]
    ∃ host ∈ session.run.chain, ∃ inner, host.inner? = some inner ∧
      inner.level.id = host.level.id.nested host.level.enters ∧
      ∃ before later, [.signal "bell"] = before ++ later ∧ ∀ other : RunId,
        Echoes (after (none : Option EmptyWorld) (.outermost 0) hostFirst before) later inner
          other := by
  intro session
  have hosting : session.run.inner?.isSome = true := by decide +kernel
  obtain ⟨inner, hosts⟩ := Option.isSome_iff_exists.mp hosting
  have member := Run.mem_chain_self session.run
  obtain ⟨_, echoes⟩ := hosted_runs_echo (none : Option EmptyWorld) (.outermost 0) hostFirst
    [.signal "bell"] session.run member
  obtain ⟨identity, before, later, _, split, _, _, _, alone⟩ := echoes inner hosts
  exact ⟨session.run, member, inner, hosts, identity, before, later, split,
    fun other => (alone other).1⟩

end Session

end SceneFlow
