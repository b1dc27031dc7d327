import SceneFlow.Proofs.Run.Session

/-!
# What stands on the return stack

Between two operations the stack holds the Sequence nodes with a step to run, except for the node
that has control, and it holds them in the order in which they were left. The invariant is stated of
a level and its history. Between two visits no node has control, so what holds there is the
invariant of the finished level.
-/

set_option autoImplicit false

namespace SceneFlow

/-- The tick in which a node was left last. -/
def lastLeft? (departures : List Departure) (index : Nat) : Option Nat :=
  (departures.reverse.find? (·.index = index)).map (·.tick)

/-- Both nodes were left, the first one after the second one. -/
def LeftAfter (departures : List Departure) (later earlier : Nat) : Prop :=
  ∃ late early, lastLeft? departures later = some late ∧
    lastLeft? departures earlier = some early ∧ early < late

theorem lastLeft?_append_singleton (departures : List Departure) (departure : Departure)
    (index : Nat) :
    lastLeft? (departures ++ [departure]) index =
      if departure.index = index then some departure.tick else lastLeft? departures index := by
  unfold lastLeft?
  rw [List.reverse_append, List.reverse_singleton, List.singleton_append, List.find?_cons]
  by_cases same : departure.index = index <;> simp [same]

theorem mem_of_lastLeft? {departures : List Departure} {index tick : Nat}
    (left : lastLeft? departures index = some tick) :
    ∃ departure ∈ departures, departure.tick = tick := by
  obtain ⟨departure, found, same⟩ := Option.map_eq_some_iff.mp left
  exact ⟨departure, List.mem_reverse.mp (List.mem_of_find?_eq_some found), same⟩

namespace Level

variable {σ : Type} [World σ]

/-- The node is a Sequence whose current step is one of its steps. -/
def HasStepAt (level : Level) (index : Nat) : Prop :=
  ∃ inst, level.instances[index]? = some inst ∧ inst.activity.hasStep = true

private theorem hasStepAt_congr {before after : Level} {index : Nat} {change : Instance → Instance}
    (equation : after.instances[index]? = before.instances[index]?.map change)
    (keeps : ∀ inst, (change inst).activity.hasStep = inst.activity.hasStep) :
    after.HasStepAt index ↔ before.HasStepAt index := by
  unfold HasStepAt
  rw [equation]
  cases before.instances[index]? with
  | none => simp
  | some inst => simp [keeps]

theorem hasStepAt_worked (seconds : Float32) (world : Option σ) (index other : Nat)
    (level : Level) :
    (level.worked seconds world index).HasStepAt other ↔ level.HasStepAt other := by
  apply hasStepAt_congr (getElem?_worked seconds world index other level)
  intro inst
  split
  · exact Activity.hasStep_work seconds world inst.activity
  · rfl

theorem hasStepAt_left (seconds : Float32) (world : Option σ) (index other : Nat)
    (level : Level) :
    (level.left seconds world index).HasStepAt other ↔ level.HasStepAt other := by
  unfold left HasStepAt
  rw [instances_leave]
  exact hasStepAt_worked seconds world index other level

theorem hasStepAt_enter_of_ne (world : Option σ) {index other : Nat} (different : index ≠ other)
    (level : Level) : (level.enter world index).HasStepAt other ↔ level.HasStepAt other := by
  apply hasStepAt_congr (getElem?_enter world index other level)
  intro inst
  rw [if_neg different]

theorem hasStepAt_signal (trigger : String) (other : Nat) (level : Level) :
    (level.signal trigger).1.HasStepAt other ↔ level.HasStepAt other := by
  apply hasStepAt_congr (getElem?_signal trigger other level)
  intro inst
  split
  · exact Activity.hasStep_signalled inst.activity
  · rfl

theorem hasStepAt_iff {level : Level} {index : Nat} {inst : Instance}
    (found : level.instances[index]? = some inst) :
    level.HasStepAt index ↔ inst.activity.hasStep = true := by
  simp [HasStepAt, found]

/-! ## Entering, with the stack in view -/

theorem mem_returnsOnEntry_of_ne {index other : Nat} (different : index ≠ other)
    (activity : Activity) (returns : ReturnStack) :
    other ∈ (returnsOnEntry index activity returns).entries ↔ other ∈ returns.entries := by
  cases activity with
  | sequence steps step =>
      simp only [returnsOnEntry]
      split
      · rfl
      · simp [ReturnStack.removeAll, Ne.symm different]
  | _ => rfl

/-- A node that is entered is not on the stack, since nothing else than a Sequence with steps can
be there. -/
theorem not_mem_returnsOnEntry {index : Nat} {activity : Activity} {returns : ReturnStack}
    (waiting : index ∈ returns.entries → activity.hasStep = true) :
    index ∉ (returnsOnEntry index activity returns).entries := by
  cases activity with
  | sequence steps step =>
      simp only [returnsOnEntry]
      split
      next noSteps =>
        intro member
        have inRange := waiting member
        have none : steps = [] := List.isEmpty_iff.mp noSteps
        cases step <;> simp [Activity.hasStep, none] at inRange
      · simp [ReturnStack.removeAll]
  | _ =>
      intro member
      have inRange := waiting member
      cases inRange

theorem returnsOnEntry_sublist (index : Nat) (activity : Activity) (returns : ReturnStack) :
    (returnsOnEntry index activity returns).entries.Sublist returns.entries := by
  cases activity with
  | sequence steps step =>
      simp only [returnsOnEntry]
      split
      · exact List.Sublist.refl _
      · exact List.filter_sublist
  | _ => exact List.Sublist.refl _

theorem entries_returnsOnEntry_of_not_mem {index : Nat} {returns : ReturnStack}
    (absent : index ∉ returns.entries) (activity : Activity) :
    (returnsOnEntry index activity returns).entries = returns.entries := by
  cases activity with
  | sequence steps step =>
      simp only [returnsOnEntry]
      split
      · rfl
      · refine List.filter_eq_self.mpr fun other member => decide_eq_true ?_
        exact fun same => absent (same ▸ member)
  | _ => rfl

theorem entries_enter_of_not_mem {level : Level} (sound : level.Sound) {next : Nat}
    (wins : level.graph.IsWinner next) (absent : next ∉ level.returns.entries)
    (world : Option σ) : (level.enter world next).returns.entries = level.returns.entries := by
  obtain ⟨inst, found⟩ := sound.instance_of_isWinner wins
  rw [returns_enter found, entries_returnsOnEntry_of_not_mem absent]

/-! ## The invariant -/

/-- The stack holds the Sequence nodes with a step to run, in the order in which they were left. One
node may be missing. -/
structure Stacked (departures : List Departure) (aside : Option Nat) (level : Level) : Prop where
  nodup : level.returns.entries.Nodup
  hasStep : ∀ index ∈ level.returns.entries, level.HasStepAt index
  complete : ∀ index, level.HasStepAt index → aside ≠ some index → index ∈ level.returns.entries
  wasLeft : ∀ index ∈ level.returns.entries, ∃ tick, lastLeft? departures index = some tick
  ordered : level.returns.entries.Pairwise (LeftAfter departures)
  past : ∀ departure ∈ departures, departure.tick ≤ level.ticks

/-- The node that has control, and no other, is kept off the stack. -/
structure StackKept (departures : List Departure) (level : Level) : Prop extends
    Stacked departures level.current level where
  absent : ∀ index, level.current = some index → index ∉ level.returns.entries

variable {level : Level} {departures : List Departure}

theorem StackKept.mem_iff (kept : StackKept departures level) (index : Nat) :
    index ∈ level.returns.entries ↔ level.HasStepAt index ∧ level.current ≠ some index := by
  constructor
  · exact fun member => ⟨kept.hasStep index member, fun current => kept.absent index current member⟩
  · exact fun waiting => kept.complete index waiting.1 waiting.2

/-- Entering settles the entered node, whether it was on the stack or not. -/
theorem Stacked.enter {next : Nat} (stacked : Stacked departures (some next) level)
    (sound : level.Sound) (wins : level.graph.IsWinner next) (world : Option σ) :
    StackKept departures (level.enter world next) := by
  obtain ⟨inst, found⟩ := sound.instance_of_isWinner wins
  have shorter := returnsOnEntry_sublist next inst.activity level.returns
  have gone : next ∉ (returnsOnEntry next inst.activity level.returns).entries :=
    not_mem_returnsOnEntry fun member =>
      (hasStepAt_iff found).mp (stacked.hasStep next member)
  rw [← returns_enter found world] at shorter gone
  have different : ∀ index ∈ (level.enter world next).returns.entries, next ≠ index :=
    fun index member same => gone (same ▸ member)
  refine { nodup := ?_, hasStep := ?_, complete := ?_, wasLeft := ?_, ordered := ?_, past := ?_,
           absent := ?_ }
  · exact shorter.nodup stacked.nodup
  · intro index member
    rw [hasStepAt_enter_of_ne world (different index member)]
    exact stacked.hasStep index (shorter.subset member)
  · intro index waiting aside
    rw [current_enter] at aside
    have other : next ≠ index := fun same => aside (congrArg some same)
    rw [hasStepAt_enter_of_ne world other] at waiting
    rw [returns_enter found, mem_returnsOnEntry_of_ne other]
    exact stacked.complete index waiting aside
  · exact fun index member => stacked.wasLeft index (shorter.subset member)
  · exact stacked.ordered.sublist shorter
  · intro departure member
    rw [ticks_enter]
    exact stacked.past departure member
  · intro index current
    rw [current_enter, Option.some.injEq] at current
    exact current ▸ gone

/-- A level that ends keeps what its stack holds. -/
theorem Stacked.finish (stacked : Stacked departures none level) :
    StackKept departures level.finish where
  nodup := stacked.nodup
  hasStep := stacked.hasStep
  complete := stacked.complete
  wasLeft := stacked.wasLeft
  ordered := stacked.ordered
  past := stacked.past
  absent := fun _ current => nomatch current

theorem Stacked.except (stacked : Stacked departures none level) (aside : Option Nat) :
    Stacked departures aside level :=
  { stacked with complete := fun index waiting _ => stacked.complete index waiting nofun }

/-- Taking the top off the stack sets that node aside. -/
theorem Stacked.pop (stacked : Stacked departures none level) {next : Nat} {returns : ReturnStack}
    (top : level.returns.entries = next :: returns.entries) :
    Stacked departures (some next) { level with returns } := by
  have nodup := stacked.nodup
  have ordered := stacked.ordered
  rw [top] at nodup ordered
  have below : ∀ index ∈ returns.entries, index ∈ level.returns.entries := fun index member =>
    top ▸ List.mem_cons_of_mem next member
  refine { nodup := nodup.of_cons, hasStep := ?_, complete := ?_, wasLeft := ?_,
           ordered := ordered.of_cons, past := stacked.past }
  · exact fun index member => stacked.hasStep index (below index member)
  · intro index waiting aside
    have member := stacked.complete index waiting nofun
    rw [top] at member
    exact (List.mem_cons.mp member).resolve_left fun same => aside (congrArg some same.symm)
  · exact fun index member => stacked.wasLeft index (below index member)

theorem stacked_ofGraph (id : RunId) (graph : Graph) : Stacked [] none (ofGraph id graph) := by
  have fresh : ∀ index, ¬ (ofGraph id graph).HasStepAt index := by
    rintro index ⟨inst, found, inRange⟩
    simp only [ofGraph, List.getElem?_map, Option.map_eq_some_iff] at found
    obtain ⟨node, _, rfl⟩ := found
    cases kind : node.kind <;> simp [Instance.ofNode, Activity.ofKind, Activity.hasStep, kind]
      at inRange
  have empty : (ofGraph id graph).returns.entries = [] := rfl
  constructor <;> simp [empty, fresh]

theorem StackKept.begin (world : Option σ) (id : RunId) (graph : Graph) :
    StackKept [] (Level.begin world id graph) := by
  unfold Level.begin
  split
  · exact (stacked_ofGraph id graph).finish
  next index found =>
    exact ((stacked_ofGraph id graph).except (some index)).enter (sound_ofGraph id graph)
      (Graph.isWinner_of_startIndex? found) world

/-- A departure of the node that is aside leaves the order of the others as it is, and comes after
all of theirs. -/
theorem StackKept.worked (kept : StackKept departures level) {departure : Departure}
    (current : level.current = some departure.index) (now : departure.tick = level.ticks + 1)
    (seconds : Float32) (world : Option σ) :
    Stacked (departures ++ [departure]) (some departure.index)
      (level.worked seconds world departure.index) ∧
    ∀ index ∈ level.returns.entries,
      LeftAfter (departures ++ [departure]) departure.index index := by
  have different : ∀ index ∈ level.returns.entries, departure.index ≠ index :=
    fun index member same => kept.absent index (current.trans (congrArg some same)) member
  have unchanged : ∀ index ∈ level.returns.entries,
      lastLeft? (departures ++ [departure]) index = lastLeft? departures index :=
    fun index member => by rw [lastLeft?_append_singleton, if_neg (different index member)]
  refine ⟨{ nodup := kept.nodup, hasStep := ?_, complete := ?_, wasLeft := ?_, ordered := ?_,
            past := ?_ }, ?_⟩
  · intro index member
    rw [hasStepAt_worked]
    exact kept.hasStep index member
  · intro index waiting aside
    rw [hasStepAt_worked] at waiting
    exact kept.complete index waiting (current ▸ aside)
  · intro index member
    rw [unchanged index member]
    exact kept.wasLeft index member
  · refine kept.ordered.imp_of_mem fun first second order => ?_
    rw [LeftAfter, unchanged _ first, unchanged _ second]
    exact order
  · intro earlier member
    rcases List.mem_append.mp member with before | last
    · exact Nat.le_succ_of_le (kept.past earlier before)
    · rw [List.mem_singleton.mp last, now]
      exact Nat.le_refl _
  · intro index member
    obtain ⟨tick, before⟩ := kept.wasLeft index member
    obtain ⟨earlier, departed, rfl⟩ := mem_of_lastLeft? before
    refine ⟨departure.tick, earlier.tick, ?_, ?_, ?_⟩
    · rw [lastLeft?_append_singleton, if_pos rfl]
    · rw [unchanged index member, before]
    · rw [now]
      exact Nat.lt_succ_of_le (kept.past earlier departed)

/-- Leaving the node that was aside puts it on top if it has a step to run. -/
theorem Stacked.leave {index : Nat} {inst : Instance}
    (stacked : Stacked departures (some index) level)
    (found : level.instances[index]? = some inst) (absent : index ∉ level.returns.entries)
    (wasLeft : ∃ tick, lastLeft? departures index = some tick)
    (latest : ∀ other ∈ level.returns.entries, LeftAfter departures index other) :
    Stacked departures none (level.leave index) := by
  have entries := congrArg ReturnStack.entries (returns_leave found)
  rw [entries_returnsOnExit] at entries
  have steps : ∀ other, (level.leave index).HasStepAt other ↔ level.HasStepAt other := by
    intro other
    unfold HasStepAt
    rw [instances_leave]
  have past : ∀ departure ∈ departures, departure.tick ≤ (level.leave index).ticks := by
    rw [ticks_leave]
    exact stacked.past
  cases inRange : inst.activity.hasStep with
  | false =>
      have idle : ¬ level.HasStepAt index := by
        rw [hasStepAt_iff found, inRange]
        exact Bool.false_ne_true
      rw [inRange, if_neg Bool.false_ne_true] at entries
      refine { nodup := ?_, hasStep := ?_, complete := ?_, wasLeft := ?_, ordered := ?_,
               past := past }
      · rw [entries]
        exact stacked.nodup
      · intro other member
        rw [steps]
        exact stacked.hasStep other (entries ▸ member)
      · intro other waiting _
        rw [steps] at waiting
        rw [entries]
        refine stacked.complete other waiting fun same => idle ?_
        exact Option.some.inj same ▸ waiting
      · rw [entries]
        exact stacked.wasLeft
      · rw [entries]
        exact stacked.ordered
  | true =>
      rw [inRange, if_pos rfl] at entries
      refine { nodup := ?_, hasStep := ?_, complete := ?_, wasLeft := ?_, ordered := ?_,
               past := past }
      · rw [entries]
        exact List.nodup_cons.mpr ⟨absent, stacked.nodup⟩
      · rw [entries, List.forall_mem_cons]
        refine ⟨(steps index).mpr ((hasStepAt_iff found).mpr inRange), fun other member => ?_⟩
        exact (steps other).mpr (stacked.hasStep other member)
      · intro other waiting _
        rw [steps] at waiting
        rw [entries, List.mem_cons]
        by_cases same : index = other
        · exact .inl same.symm
        · exact .inr (stacked.complete other waiting fun aside => same (Option.some.inj aside))
      · rw [entries, List.forall_mem_cons]
        exact ⟨wasLeft, stacked.wasLeft⟩
      · rw [entries]
        exact List.pairwise_cons.mpr ⟨latest, stacked.ordered⟩

theorem StackKept.left (kept : StackKept departures level) (sound : level.Sound) {index : Nat}
    (current : level.current = some index) (seconds : Float32) (world : Option σ) :
    Stacked (departures ++ [level.departure seconds world index]) none
      (level.left seconds world index) := by
  have now : (level.departure seconds world index).tick = level.ticks + 1 :=
    ticks_leave index (level.worked seconds world index)
  obtain ⟨stacked, latest⟩ := kept.worked current now seconds world
  obtain ⟨inst, found⟩ := (sound.worked seconds world index).instance_of_current current
  refine stacked.leave found (kept.absent index current) ?_ latest
  exact ⟨_, by rw [lastLeft?_append_singleton, if_pos rfl]⟩

theorem Stacked.follow (stacked : Stacked departures none level) (sound : level.Sound)
    (index : Nat) (world : Option σ) :
    StackKept departures (level.follow world (level.destination index)) := by
  have wins : ∀ next, (level.destination index).entered? = some next →
      level.graph.IsWinner next := fun _ goes => sound.isWinner_of_entered goes
  cases goes : level.destination index with
  | successor next =>
      exact (stacked.except (some next)).enter sound (wins next (by rw [goes]; rfl)) world
  | resumption next returns =>
      exact (stacked.pop (sound.entries_of_resumption goes)).enter
        (sound.withReturns (sound.returns_subset_of_resumption goes))
        (wins next (by rw [goes]; rfl)) world
  | ending =>
      have same : level.returns = .empty := by
        have nothing := sound.entries_of_ending goes
        rw [ReturnStack.empty, ← nothing]
      have whole : ({ level with returns := .empty } : Level) = level := by rw [← same]
      rw [Level.follow, whole]
      exact stacked.finish
  | unresolved id => exact stacked.finish

theorem StackKept.tickStep {world : Option σ} {after : Level} {departure : Option Departure}
    (kept : StackKept departures level) (sound : level.Sound)
    (step : TickStep world level departure after) :
    StackKept (departures ++ departure.toList) after := by
  cases step with
  | idle => simpa using kept
  | @stay seconds index inst current =>
      rw [Option.toList_none, List.append_nil]
      refine { nodup := kept.nodup, hasStep := ?_, complete := ?_, wasLeft := kept.wasLeft,
               ordered := kept.ordered, past := ?_, absent := kept.absent }
      · intro other member
        rw [hasStepAt_worked]
        exact kept.hasStep other member
      · intro other waiting aside
        rw [hasStepAt_worked] at waiting
        exact kept.complete other waiting aside
      · exact fun departure member => Nat.le_succ_of_le (kept.past departure member)
  | @move seconds index inst current =>
      exact (kept.left sound current seconds world).follow (sound.left current seconds world)
        index world

theorem StackKept.signal (kept : StackKept departures level) (trigger : String) :
    StackKept departures (level.signal trigger).1 := by
  refine { nodup := ?_, hasStep := ?_, complete := ?_, wasLeft := ?_, ordered := ?_, past := ?_,
           absent := ?_ }
  · simpa using kept.nodup
  · intro index member
    rw [returns_signal] at member
    rw [hasStepAt_signal]
    exact kept.hasStep index member
  · intro index waiting aside
    rw [hasStepAt_signal] at waiting
    rw [current_signal] at aside
    rw [returns_signal]
    exact kept.complete index waiting aside
  · simpa using kept.wasLeft
  · simpa using kept.ordered
  · simpa using kept.past
  · simpa using kept.absent

theorem History.stackKept {id : RunId} {graph : Graph}
    (history : History σ id graph departures level) : StackKept departures level := by
  induction history with
  | begin world => exact .begin world id graph
  | tick before step ih => exact ih.tickStep before.sound step
  | signal trigger _ ih => exact ih.signal trigger

/-! ## What the stack is worth -/

/-- The node is the Sequence with a step to run that was left last. -/
def IsLastUnfinished (departures : List Departure) (level : Level) (index : Nat) : Prop :=
  level.HasStepAt index ∧
    ∀ other, level.HasStepAt other → other ≠ index → LeftAfter departures index other

theorem Stacked.resumes_iff (stacked : Stacked departures none level) (sound : level.Sound)
    {index : Nat} (deadEnd : level.successor? index = none) (next : Nat) :
    (level.destination index).entered? = some next ↔ level.IsLastUnfinished departures next := by
  have ordered := stacked.ordered
  have top : (level.destination index).entered? = level.returns.entries.head? := by
    rw [sound.destination_eq, deadEnd]
    cases level.returns.entries <;> rfl
  have waiting : ∀ other, level.HasStepAt other → other ∈ level.returns.entries :=
    fun other unfinished => stacked.complete other unfinished nofun
  rw [top]
  cases entries : level.returns.entries with
  | nil =>
      refine iff_of_false nofun fun last => ?_
      have member := waiting next last.1
      rw [entries] at member
      cases member
  | cons first rest =>
      rw [entries, List.pairwise_cons] at ordered
      rw [entries] at waiting
      have unfinished : level.HasStepAt first :=
        stacked.hasStep first (entries ▸ List.mem_cons_self)
      have last : level.IsLastUnfinished departures first :=
        ⟨unfinished, fun other still different =>
          ordered.1 other ((List.mem_cons.mp (waiting other still)).resolve_left different)⟩
      rw [List.head?_cons, Option.some.injEq]
      constructor
      · exact fun same => same ▸ last
      · intro other
        by_contra different
        obtain ⟨late, early, leftLate, leftEarly, before⟩ := last.2 next other.1 (Ne.symm different)
        obtain ⟨late', early', leftLate', leftEarly', before'⟩ := other.2 first unfinished different
        rw [leftEarly, Option.some.injEq] at leftLate'
        rw [leftLate, Option.some.injEq] at leftEarly'
        omega

/-- Where a chain ends, control goes to the top of the stack, and nothing below it is lost. -/
theorem Stacked.entries_follow (stacked : Stacked departures none level) (sound : level.Sound)
    {index : Nat} (deadEnd : level.successor? index = none) (world : Option σ) :
    (level.follow world (level.destination index)).returns.entries =
      level.returns.entries.tail := by
  have goes := sound.destination_eq index
  rw [deadEnd] at goes
  cases entries : level.returns.entries with
  | nil =>
      simp only [entries] at goes
      rw [goes]
      rfl
  | cons next rest =>
      simp only [entries] at goes
      have once := stacked.nodup
      rw [entries, List.nodup_cons] at once
      have below : rest ⊆ level.returns.entries := entries ▸ List.subset_cons_self next rest
      have wins := sound.returns next (entries ▸ List.mem_cons_self)
      rw [goes]
      exact entries_enter_of_not_mem (sound.withReturns below) wins once.1 world

end Level

/-- The node is a Sequence with at least one step. -/
def Node.hasSteps (node : Node Graph) : Bool :=
  match node.kind with
  | .sequence steps => !steps.isEmpty
  | _ => false

theorem Level.HasStepAt.named {level : Level} (sound : level.Sound) {index : Nat}
    (waiting : level.HasStepAt index) :
    ∃ node, level.graph.named[index]? = some node ∧ node.hasSteps = true := by
  obtain ⟨inst, found, inRange⟩ := waiting
  refine ⟨inst.node, sound.named_of_instance found, ?_⟩
  cases given : inst.activity with
  | sequence steps step =>
      cases steps with
      | nil => cases step <;> simp [given, Activity.hasStep] at inRange
      | cons first rest => simp [Node.hasSteps, Instance.node, Activity.kind, given]
  | _ => simp [given, Activity.hasStep] at inRange

theorem Level.StackKept.size_le {departures : List Departure} {level : Level}
    (kept : level.StackKept departures) (sound : level.Sound) :
    level.returns.size ≤ level.graph.named.countP Node.hasSteps := by
  have numbered : level.returns.entries ⊆
      (level.graph.named.zipIdx.filter (·.1.hasSteps)).map Prod.snd := by
    intro index member
    obtain ⟨node, atIndex, withSteps⟩ := (kept.hasStep index member).named sound
    refine List.mem_map.mpr ⟨(node, index), List.mem_filter.mpr ⟨?_, withSteps⟩, rfl⟩
    exact List.mk_mem_zipIdx_iff_getElem?.mpr atIndex
  have fewer := List.Nodup.length_le_of_subset kept.nodup numbered
  have counted : level.graph.named.countP Node.hasSteps =
      level.graph.named.zipIdx.countP (·.1.hasSteps) := by
    conv_lhs => rw [← List.zipIdx_map_fst 0 level.graph.named, List.countP_map]
    rfl
  rw [List.length_map, ← List.countP_eq_length_filter, ← counted] at fewer
  exact fewer

/-- At any time the return stack holds each Sequence node that has a step to run and does not have
control, no other node, and none twice; what was left later lies further up, as the reports tell it.
So a tick that ends a chain hands control to the unfinished Sequence that was left last and takes
nothing else off the stack, and the stack is never deeper than there are Sequences with steps. -/
theorem Session.returns_hold_unfinished_sequences {σ : Type} [World σ] (world : Option σ)
    (id : RunId) (graph : Graph) (operations : List (Operation σ)) :
    let session := Session.after world id graph operations
    let level := session.run.level
    level.returns.entries.Nodup ∧
    (∀ index, index ∈ level.returns.entries ↔
      level.HasStepAt index ∧ level.current ≠ some index) ∧
    level.returns.entries.Pairwise (LeftAfter session.departures) ∧
    session.exited = session.departures.map (fun departure =>
      (some departure.index, departure.tick)) ∧
    (∀ (seconds : Float32) (now : Option σ),
      let ticked := (session.run.advance seconds now).1.level
      (session.run.departure? seconds now = none →
        ticked.current = level.current ∧ ticked.returns = level.returns) ∧
      ∀ departure, session.run.departure? seconds now = some departure →
        let left := level.left seconds now departure.index
        level.current = some departure.index ∧
        ticked.current = departure.destination.entered? ∧
        left.returns.popValid (· < left.instances.length) =
          (left.returns.entries.head?, ⟨left.returns.entries.tail⟩) ∧
        (left.successor? departure.index = none →
          ticked.returns.entries = left.returns.entries.tail ∧
          ∀ next, ticked.current = some next ↔
            left.IsLastUnfinished (session.departures ++ [departure]) next)) ∧
    level.returns.size ≤ graph.named.countP Node.hasSteps := by
  intro session level
  have history := Session.history world id graph operations
  have sound := history.sound
  have kept := history.stackKept
  refine ⟨kept.nodup, kept.mem_iff, kept.ordered, exited_eq world id graph operations, ?_, ?_⟩
  · intro seconds now ticked
    have runSound := Session.sound world id graph operations
    refine ⟨fun stays => ?_, fun departure departed => ?_⟩
    · have step := runSound.tickStep seconds now
      rw [stays] at step
      exact ⟨step.eq_of_none.1, step.returns_of_none⟩
    · have moved := runSound.level_advance departed
      obtain ⟨index, current, rfl⟩ := Run.departure_of_departure? departed
      have left := sound.left current seconds now
      have stacked := kept.left sound current seconds now
      have goesTo : ticked.current = _ := (congrArg Level.current moved).trans
        (Level.current_follow now _ _)
      refine ⟨current, goesTo, left.popValid, fun deadEnd => ⟨?_, fun next => ?_⟩⟩
      · exact (congrArg (·.returns.entries) moved).trans (stacked.entries_follow left deadEnd now)
      · rw [goesTo]
        exact stacked.resumes_iff left deadEnd next
  · have bound := kept.size_le sound
    rw [history.graph_eq] at bound
    exact bound

end SceneFlow
