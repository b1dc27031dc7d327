import SceneFlow.Proofs.Run.Session

/-!
# Every level of a run

The levels nested in a run change by the same steps as the outermost one, and a nested level begins
as the outermost one does. So what holds when a level begins and is kept by ticks holds of every
level that is ever nested in a session's run, and what is known of histories holds of every level
at all.
-/

set_option autoImplicit false

namespace SceneFlow

namespace Level

/-- What holds when a level begins, and is kept by ticks. Signals only reach the outermost level. -/
structure Lasting (σ : Type) [World σ] (holds : Level → Prop) : Prop where
  begin : ∀ (world : Option σ) (id : RunId) (graph : Graph), holds (Level.begin world id graph)
  tick : ∀ {world : Option σ} {level after : Level} {departure : Option Departure}, level.Sound →
    holds level → TickStep world level departure after → holds after

/-- The level has a history. -/
def Historic (σ : Type) [World σ] (level : Level) : Prop :=
  ∃ departures, History σ level.id level.graph departures level

variable {σ : Type} [World σ]

theorem History.historic {id : RunId} {graph : Graph} {departures : List Departure}
    {level : Level} (history : History σ id graph departures level) : level.Historic σ := by
  have sameGraph := history.graph_eq
  have sameId := history.id_eq
  subst sameGraph sameId
  exact ⟨departures, history⟩

theorem lasting_historic : Lasting σ (Level.Historic σ) where
  begin world id graph := (History.begin world : History σ id graph [] _).historic
  tick _ := fun ⟨_, history⟩ step => (history.tick step).historic

end Level

namespace Run

variable {σ : Type} [World σ] {holds : Level → Prop}

mutual

theorem holds_of_mem_start (lasting : Level.Lasting σ holds) (world : Option σ) (id : RunId)
    (graph : Graph) (nested : Run) (member : nested ∈ (start world id graph).1.chain) :
    holds nested.level := by
  have begun := lasting.begin world id graph
  unfold Level.begin at begun
  match found : graph.startIndex? with
  | none =>
      simp only [found] at begun
      rw [start_of_none found] at member
      rw [List.mem_singleton.mp member]
      exact begun
  | some index =>
      simp only [found] at begun
      rw [start_of_some found] at member
      exact holds_of_mem_enter lasting world index (Level.ofGraph id graph) nested begun member
termination_by 2 * graph.nesting + 1
decreasing_by
  simp only [Level.ofGraph]
  omega

theorem holds_of_mem_enter (lasting : Level.Lasting σ holds) (world : Option σ) (index : Nat)
    (level : Level) (nested : Run) (entered : holds (level.enter world index))
    (member : nested ∈ (enter world index level).1.chain) : holds nested.level := by
  match hosted : level.graph.nestedAt? index with
  | none =>
      rw [enter_of_none hosted] at member
      rw [List.mem_singleton.mp member]
      exact entered
  | some graph =>
      rw [enter_of_some hosted] at member
      rcases List.mem_cons.mp member with rfl | inside
      · exact entered
      · exact holds_of_mem_start lasting world _ graph nested inside
termination_by 2 * level.graph.nesting
decreasing_by
  have := Graph.nesting_lt_of_nestedAt? hosted
  omega

end

/-- Moving on either enters a node or leaves a level that hosts nothing. -/
theorem moveOn_cases (world : Option σ) (index : Nat) (level : Level) :
    (∃ next left, (moveOn world index level).1 = (enter world next left).1) ∨
      ∃ last, (moveOn world index level).1 = .alone last := by
  rw [moveOn_eq]
  dsimp only
  cases (level.leave index).destination index with
  | successor next => exact .inl ⟨next, _, rfl⟩
  | resumption next returns => exact .inl ⟨next, _, rfl⟩
  | ending => exact .inr ⟨_, rfl⟩
  | unresolved id => exact .inr ⟨_, rfl⟩

theorem holds_of_mem_moveOn (lasting : Level.Lasting σ holds) (world : Option σ) {index : Nat}
    {level : Level} (moved : holds (moveOn world index level).1.level) {nested : Run}
    (member : nested ∈ (moveOn world index level).1.chain) : holds nested.level := by
  obtain ⟨next, left, entered⟩ | ⟨last, ended⟩ := moveOn_cases world index level
  · rw [entered, level_enter] at moved
    rw [entered] at member
    exact holds_of_mem_enter lasting world next left nested moved member
  · rw [ended] at moved member
    rw [List.mem_singleton.mp member]
    exact moved

theorem Advances.holds_of_mem {seconds : Float32} {world : Option σ} {run after : Run}
    {departure : Option Departure} {events : List Event}
    (step : Advances seconds world run departure after events) (lasting : Level.Lasting σ holds)
    (before : ∀ nested ∈ run.chain, holds nested.level) {nested : Run}
    (member : nested ∈ after.chain) : holds nested.level := by
  have outermost : ∀ {run after : Run} {departure : Option Departure} {events : List Event},
      Advances seconds world run departure after events →
      (∀ nested ∈ run.chain, holds nested.level) → holds after.level := fun step before =>
    lasting.tick step.sound_before.level (before _ (mem_chain_self _)) step.tickStep
  have whole := outermost step before
  induction step with
  | idle | stay =>
      rw [List.mem_singleton.mp member]
      exact whole
  | move => exact holds_of_mem_moveOn lasting world whole member
  | inside sound current found hosted identity step running ih =>
      have inside := fun nested member => before nested (List.mem_cons_of_mem _ member)
      rcases List.mem_cons.mp member with rfl | deeper
      · exact whole
      · exact ih inside deeper (outermost step inside)
  | outside => exact holds_of_mem_moveOn lasting world whole member

/-! ## Hosted runs -/

theorem holds_of_hosted_enter (lasting : Level.Lasting σ holds) {world : Option σ} {index : Nat}
    {level : Level} {inner nested : Run} (hosts : (enter world index level).1.inner? = some inner)
    (member : nested ∈ inner.chain) : holds nested.level := by
  cases hosted : level.graph.nestedAt? index with
  | none =>
      rw [enter_of_none hosted] at hosts
      cases hosts
  | some graph =>
      rw [enter_of_some hosted] at hosts
      cases hosts
      exact holds_of_mem_start lasting world _ graph nested member

theorem holds_of_hosted_start (lasting : Level.Lasting σ holds) {world : Option σ} {id : RunId}
    {graph : Graph} {inner nested : Run} (hosts : (start world id graph).1.inner? = some inner)
    (member : nested ∈ inner.chain) : holds nested.level := by
  cases found : graph.startIndex? with
  | none =>
      rw [start_of_none found] at hosts
      cases hosts
  | some index =>
      rw [start_of_some found] at hosts
      exact holds_of_hosted_enter lasting hosts member

theorem holds_of_hosted_moveOn (lasting : Level.Lasting σ holds) {world : Option σ} {index : Nat}
    {level : Level} {inner nested : Run} (hosts : (moveOn world index level).1.inner? = some inner)
    (member : nested ∈ inner.chain) : holds nested.level := by
  obtain ⟨next, left, entered⟩ | ⟨last, ended⟩ := moveOn_cases world index level
  · rw [entered] at hosts
    exact holds_of_hosted_enter lasting hosts member
  · rw [ended] at hosts
    cases hosts

theorem Advances.holds_of_hosted {seconds : Float32} {world : Option σ} {run after : Run}
    {departure : Option Departure} {events : List Event}
    (step : Advances seconds world run departure after events) (lasting : Level.Lasting σ holds)
    (before : ∀ inner, run.inner? = some inner → ∀ nested ∈ inner.chain, holds nested.level)
    {inner nested : Run} (hosts : after.inner? = some inner) (member : nested ∈ inner.chain) :
    holds nested.level := by
  cases step with
  | idle | stay => cases hosts
  | move => exact holds_of_hosted_moveOn lasting hosts member
  | inside sound current found hosted identity step =>
      cases hosts
      exact step.holds_of_mem lasting (before _ rfl) member
  | outside => exact holds_of_hosted_moveOn lasting hosts member

theorem historic_of_mem_signal {run : Run}
    (historic : ∀ nested ∈ run.chain, nested.level.Historic σ) (trigger : String) {nested : Run}
    (member : nested ∈ (run.signal trigger).run.chain) : nested.level.Historic σ := by
  obtain ⟨departures, history⟩ := historic run (mem_chain_self run)
  have signalled := (history.signal trigger).historic
  cases run with
  | alone level =>
      rw [List.mem_singleton.mp member]
      exact signalled
  | hosting level inner =>
      rcases List.mem_cons.mp member with rfl | inside
      · exact signalled
      · exact historic nested (List.mem_cons_of_mem _ inside)

theorem inner?_signal (trigger : String) (run : Run) :
    (run.signal trigger).run.inner? = run.inner? := by
  cases run <;> rfl

end Run

namespace Session

variable {σ : Type} [World σ] (world : Option σ) (id : RunId) (graph : Graph)

/-- Every level of a session's run has a history. -/
theorem historic_of_mem_chain (operations : List (Operation σ)) {nested : Run}
    (member : nested ∈ (after world id graph operations).run.chain) :
    nested.level.Historic σ := by
  induction operations using List.reverseRecOn generalizing nested with
  | nil => exact Run.holds_of_mem_start Level.lasting_historic world id graph nested member
  | append_singleton operations operation ih =>
      have sound := sound world id graph operations
      rw [after_append] at member
      cases operation with
      | tick seconds =>
          exact (sound.advances seconds _).holds_of_mem Level.lasting_historic (fun _ => ih) member
      | signal trigger => exact Run.historic_of_mem_signal (fun _ => ih) trigger member
      | change become => exact ih member

theorem holds_of_hosted {holds : Level → Prop} (lasting : Level.Lasting σ holds)
    (operations : List (Operation σ)) {inner nested : Run}
    (hosts : (after world id graph operations).run.inner? = some inner)
    (member : nested ∈ inner.chain) : holds nested.level := by
  induction operations using List.reverseRecOn generalizing inner nested with
  | nil => exact Run.holds_of_hosted_start lasting hosts member
  | append_singleton operations operation ih =>
      have sound := sound world id graph operations
      rw [after_append] at hosts
      cases operation with
      | tick seconds =>
          exact (sound.advances seconds _).holds_of_hosted lasting (fun _ hosts _ => ih hosts) hosts
            member
      | signal trigger => exact ih ((Run.inner?_signal trigger _).symm.trans hosts) member
      | change become => exact ih hosts member

end Session

end SceneFlow
