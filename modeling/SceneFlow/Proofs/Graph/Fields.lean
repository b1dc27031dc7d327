import SceneFlow.Proofs.Graph.Document

/-!
# Fields in any order

What an object says is a matter of the members whose names its reader knows. Two objects that agree
on these are read alike, so neither their order nor members with other names matter; and neither
does a member that says what would stand in its place.
-/

set_option autoImplicit false

namespace SceneFlow

namespace Json

/-! ## Agreement -/

/-- Under each of the names, the members are the same. -/
def AgreeOn (names : List String) (first second : List (String × Json)) : Prop :=
  ∀ name ∈ names, first.filter (·.1 == name) = second.filter (·.1 == name)

variable {names : List String} {name other : String} {value : Json}
  {first second members : List (String × Json)}

theorem lookup_eq_filter (name : String) (members : List (String × Json)) :
    members.lookup name = ((members.filter (·.1 == name)).head?).map Prod.snd := by
  induction members with
  | nil => rfl
  | cons member rest ih =>
      obtain ⟨key, value⟩ := member
      rw [List.lookup_cons, List.filter_cons, ih]
      by_cases here : name = key
      · simp [here]
      · simp [beq_false_of_ne here, beq_false_of_ne (Ne.symm here)]

theorem AgreeOn.lookup (agree : AgreeOn names first second) (known : name ∈ names) :
    first.lookup name = second.lookup name := by
  rw [lookup_eq_filter, lookup_eq_filter, agree name known]

theorem AgreeOn.once (agree : AgreeOn names first second) :
    once names first = once names second := by
  unfold Json.once
  rw [Bool.eq_iff_iff, List.all_eq_true, List.all_eq_true]
  exact forall₂_congr fun name known => by rw [agree name known]

theorem agreeOn_of_perm (same : first.Perm second) (distinct : (first.map Prod.fst).Nodup)
    (names : List String) : AgreeOn names first second := by
  intro name _
  have once : (first.filter (·.1 == name)).length ≤ 1 := by
    have known := once_of_nodup distinct [name]
    simpa [Json.once] using known
  have filtered := same.filter (·.1 == name)
  cases found : first.filter (·.1 == name) with
  | nil =>
      rw [found] at filtered
      exact (List.nil_perm.mp filtered).symm
  | cons member rest =>
      rw [found, List.length_cons] at once
      cases List.length_eq_zero_iff.mp (Nat.le_zero.mp (Nat.le_of_succ_le_succ once))
      rw [found] at filtered
      exact List.singleton_perm.mp filtered

theorem agreeOn_cons (unknown : name ∉ names) (value : Json) (members : List (String × Json)) :
    AgreeOn names ((name, value) :: members) members := by
  intro known among
  have other : name ≠ known := fun same => unknown (same ▸ among)
  rw [List.filter_cons_of_neg]
  simpa using other

/-! ## Members that say what is missing -/

theorem lookup_eq_none (absent : name ∉ members.map Prod.fst) : members.lookup name = none := by
  refine List.lookup_eq_none_iff.mpr fun member among => bne_iff_ne.mpr fun same => absent ?_
  exact List.mem_map.mpr ⟨member, among, same.symm⟩

theorem required?_cons_of_ne {α : Type} (read : Json → Option α) (differs : other ≠ name) :
    required? other read ((name, value) :: members) = required? other read members := by
  rw [required?, List.lookup_cons, beq_false_of_ne differs, required?]

theorem optional?_cons_of_ne {α : Type} (missing : α) (read : Json → Option α)
    (differs : other ≠ name) :
    optional? other missing read ((name, value) :: members) =
      optional? other missing read members := by
  rw [optional?, List.lookup_cons, beq_false_of_ne differs, optional?]

/-- A field that is given its default might as well be missing. -/
theorem optional?_cons_of_default {α : Type} {missing : α} {read : Json → Option α}
    (absent : name ∉ members.map Prod.fst) (default : read value = some missing) :
    optional? name missing read ((name, value) :: members) =
      optional? name missing read members := by
  rw [optional?, List.lookup_cons_self, optional?, lookup_eq_none absent]
  exact default

theorem once_cons_of_absent (absent : name ∉ members.map Prod.fst) (names : List String) :
    once names ((name, value) :: members) = once names members := by
  unfold Json.once
  rw [Bool.eq_iff_iff, List.all_eq_true, List.all_eq_true]
  refine forall₂_congr fun known _ => ?_
  by_cases here : name = known
  · subst here
    have nothing : members.filter (·.1 == name) = [] := by
      refine List.filter_eq_nil_iff.mpr fun member among same => absent ?_
      exact List.mem_map.mpr ⟨member, among, beq_iff_eq.mp same⟩
    simp [nothing]
  · rw [List.filter_cons_of_neg]
    simpa using here

theorem once_cons_eq (value other : Json) :
    once names ((name, value) :: members) = once names ((name, other) :: members) := by
  unfold Json.once
  refine congrArg names.all (funext fun known => ?_)
  rw [List.filter_cons, List.filter_cons]
  split <;> rfl

theorem recordOutline_member_of_not_mem (unknown : name ∉ names) :
    (recordOutline names).member name = .nothing := by
  have missing : (names.map (·, Outline.everything)).lookup name = none := by
    refine List.lookup_eq_none_iff.mpr fun field among => bne_iff_ne.mpr fun same => unknown ?_
    obtain ⟨_, known, rfl⟩ := List.mem_map.mp among
    exact same ▸ known
  rw [recordOutline, Outline.member, missing, Option.getD_none]

theorem inRange_of_real? {read : Float32} (known : value.real? = some read) : value.InRange := by
  cases value with
  | number numeral =>
      obtain ⟨number, known, _⟩ := Option.map_eq_some_iff.mp known
      simp [known]
  | _ => cases known

theorem inRange_of_below? {bound read : Nat} (known : below? bound value = some read) :
    value.InRange := by
  cases value with
  | number numeral =>
      obtain ⟨number, known, _⟩ := Option.bind_eq_some_iff.mp known
      simp [known]
  | _ => cases known

end Json

theorem Coordinates.inRange_of_ofJson? {document : Json} {point : Coordinates}
    (read : ofJson? document = some point) : document.InRange := by
  unfold ofJson? at read
  split at read
  · obtain ⟨_, x, read⟩ := Option.bind_eq_some_iff.mp read
    obtain ⟨_, y, read⟩ := Option.bind_eq_some_iff.mp read
    obtain ⟨_, z, _⟩ := Option.bind_eq_some_iff.mp read
    simp only [Json.inRange_array, List.forall_mem_cons]
    exact ⟨Json.inRange_of_real? x, Json.inRange_of_real? y, Json.inRange_of_real? z,
      List.forall_mem_nil _⟩
  · cases read

theorem ObjectiveAction.inRange_of_ofJson? {document : Json} {action : ObjectiveAction}
    (read : ofJson? document = some action) : document.InRange := by
  unfold ofJson? at read
  split at read
  · exact Json.inRange_string _
  · simp [Json.inRange_object]
  · simp [Json.inRange_object]
  · cases read

/-! ## Slots -/

namespace ActorSlot

variable {first second members : List (String × Json)} {name : String} {value : Json}

theorem ofJson?_congr (agree : Json.AgreeOn fieldNames first second) :
    ofJson? (.object first) = ofJson? (.object second) := by
  have same : ∀ name ∈ fieldNames, first.lookup name = second.lookup name :=
    fun name known => agree.lookup known
  simp only [fieldNames, List.forall_mem_cons] at same
  simp only [ofJson?, Json.record?, agree.once]
  split
  · simp [Json.required?, Json.optional?, same]
  · rfl

/-- The members that a slot's document may leave out, with what they say then. -/
inductive Default : String → Json → Prop where
  | prefab : Default "prefab" .null
  | position {value : Json} (zero : Coordinates.ofJson? value = some .zero) :
      Default "local_position" value
  | euler {value : Json} (zero : Coordinates.ofJson? value = some .zero) :
      Default "local_euler" value
  | spawns : Default "spawn_on_start" (.bool true)
  | properties : Default "properties" (.object [])

theorem Default.mem_fieldNames (default : Default name value) : name ∈ fieldNames := by
  cases default <;> decide

theorem Default.inRange (default : Default name value) : value.InRange := by
  cases default with
  | prefab => exact Json.inRange_null
  | position zero | euler zero => exact Coordinates.inRange_of_ofJson? zero
  | spawns => exact Json.inRange_bool true
  | properties => exact Json.inRange_object.mpr (List.forall_mem_nil _)

theorem ofJson?_cons_of_default (default : Default name value)
    (absent : name ∉ members.map Prod.fst) :
    ofJson? (.object ((name, value) :: members)) = ofJson? (.object members) := by
  have noProperties : propertiesOfJson? (.object []) = some .empty := by
    rw [propertiesOfJson?, List.mapM_nil]
    rfl
  simp only [ofJson?, Json.record?, Json.once_cons_of_absent absent]
  split
  · cases default <;>
      simp (disch := first | assumption | decide | rfl) only [Option.bind_eq_bind, Option.bind_some,
        Json.required?_cons_of_ne, Json.optional?_cons_of_ne, Json.optional?_cons_of_default]
  · rfl

end ActorSlot

/-! ## Nodes -/

namespace NodeKind

/-- The members that the document of a node of a type may leave out, with what they say then. -/
inductive Default : NodeType → String → Json → Prop where
  | sequence : Default .dialogue "sequence" .null
  | waits : Default .dialogue "wait_for_completion" (.bool true)
  | seconds {value : Json} (one : value.real? = some 1) : Default .delay "seconds" value
  | trigger : Default .waitForTrigger "trigger_id" (.string "")
  | goal : Default .objective "objective_id" (.string "")
  | action {value : Json} (standard : ObjectiveAction.ofJson? value = some .default) :
      Default .objective "action" value
  | graph : Default .subFlow "graph" .null
  | conditions : Default .branch "condition_ids" (.array [])
  | targets : Default .branch "next_ids" (.array [])
  | steps : Default .sequence "step_ids" (.array [])
  | body : Default .loop "body_id" .null
  | limit {value : Json} (none : value.below? UInt32.size = some 0) :
      Default .loop "iteration_limit" value

theorem ofMembers?_cons_of_default {γ : Type} {type : NodeType} {name : String} {value : Json}
    {members : List (String × Json)} (default : Default type name value)
    (absent : name ∉ members.map Prod.fst) (nested : Option γ) :
    ofMembers? type nested ((name, value) :: members) = ofMembers? type nested members := by
  cases default <;>
    simp (disch := first | assumption | decide | rfl) only [ofMembers?, Json.optional?_cons_of_ne,
      Json.optional?_cons_of_default]

theorem Default.mem_fieldNames {type : NodeType} {name : String} {value : Json}
    (default : Default type name value) : name ∈ fieldNames type := by
  cases default <;> decide

theorem Default.inRange {type : NodeType} {name : String} {value : Json}
    (default : Default type name value) : value.InRange := by
  cases default with
  | sequence | graph | body => exact Json.inRange_null
  | waits => exact Json.inRange_bool true
  | seconds one => exact Json.inRange_of_real? one
  | trigger | goal => exact Json.inRange_string ""
  | action standard => exact ObjectiveAction.inRange_of_ofJson? standard
  | conditions | targets | steps => exact Json.inRange_array.mpr (List.forall_mem_nil _)
  | limit none => exact Json.inRange_of_below? none

end NodeKind

namespace Graph

variable {first second members : List (String × Json)} {name : String} {value : Json}
  {type : NodeType}

def typeOf? (members : List (String × Json)) : Option NodeType :=
  Json.required? "type" NodeType.ofJson? members

/-- What is read of a node of a type once its nested graph is. -/
def finishNode? (type : NodeType) (members : List (String × Json)) (nested : Option Graph) :
    Option (Node Graph) := do
  some
    { id := ← Json.required? "id" Json.text? members
      nextId := ← Json.optional? "next_id" none Json.nullableText? members
      kind := ← NodeKind.ofMembers? type nested members }

theorem nodeOfJson?_object (members : List (String × Json)) :
    nodeOfJson? (.object members) = (typeOf? members).bind fun type =>
      if Json.once nodeFieldNames members && Json.once (NodeKind.fieldNames type) members then
        (if type = .subFlow then Json.optional? "graph" none nestedOfJson? members
          else some none).bind (finishNode? type members)
      else none := by
  rw [nodeOfJson?]
  simp only [nestedAmong?_eq]
  refine congrArg (Option.bind _) (funext fun type => ?_)
  by_cases sub : type = .subFlow
  · simp only [if_pos sub]
    rfl
  · simp only [if_neg sub]
    rfl

/-- Two documents are read as one node if they are of one type and nothing that is read of a node of
this type tells them apart. -/
theorem nodeOfJson?_eq_of_type (sameType : typeOf? first = typeOf? second)
    (own : Json.once nodeFieldNames first = Json.once nodeFieldNames second)
    (fields : ∀ type, typeOf? second = some type →
      Json.once (NodeKind.fieldNames type) first = Json.once (NodeKind.fieldNames type) second ∧
      (type = .subFlow → Json.optional? "graph" none nestedOfJson? first =
        Json.optional? "graph" none nestedOfJson? second) ∧
      finishNode? type first = finishNode? type second) :
    nodeOfJson? (.object first) = nodeOfJson? (.object second) := by
  rw [nodeOfJson?_object, nodeOfJson?_object, sameType, own]
  refine Option.bind_congr fun type known => ?_
  obtain ⟨once, graph, finish⟩ := fields type known
  rw [once, finish]
  by_cases sub : type = .subFlow
  · rw [if_pos sub, if_pos sub, graph sub]
  · rw [if_neg sub, if_neg sub]

theorem nodeOfJson?_congr (own : Json.AgreeOn nodeFieldNames first second)
    (fields : ∀ type, typeOf? first = some type →
      Json.AgreeOn (NodeKind.fieldNames type) first second) :
    nodeOfJson? (.object first) = nodeOfJson? (.object second) := by
  have same : ∀ name ∈ nodeFieldNames, first.lookup name = second.lookup name :=
    fun name known => own.lookup known
  have sameType : typeOf? first = typeOf? second := by
    rw [typeOf?, typeOf?, Json.required?, Json.required?, same "type" (by decide)]
  refine nodeOfJson?_eq_of_type sameType own.once fun type known => ?_
  have agree := fields type (sameType.trans known)
  refine ⟨agree.once, fun sub => ?_, funext fun nested => ?_⟩
  · exact Json.optional?_congr (agree.lookup (by simp [sub, NodeKind.fieldNames]))
  · rw [finishNode?, finishNode?, Json.required?, Json.required?, Json.optional?, Json.optional?,
      same "id" (by decide), same "next_id" (by decide),
      NodeKind.ofMembers?_congr type nested fun name among => agree.lookup among]

/-- The members that the document of a node may leave out, with what they say then. Whether they do
may depend on the type. -/
inductive NodeDefault (type? : Option NodeType) : String → Json → Prop where
  | next : NodeDefault type? "next_id" .null
  | own {type : NodeType} {name : String} {value : Json} (known : type? = some type)
      (default : NodeKind.Default type name value) : NodeDefault type? name value

theorem NodeDefault.inRange {type? : Option NodeType} (default : NodeDefault type? name value) :
    value.InRange := by
  cases default with
  | next => exact Json.inRange_null
  | own _ default => exact default.inRange

theorem finishNode?_cons_of_next (absent : "next_id" ∉ members.map Prod.fst) (type : NodeType) :
    finishNode? type (("next_id", .null) :: members) = finishNode? type members := by
  funext nested
  have unknown : "next_id" ∉ NodeKind.fieldNames type :=
    fun own => disjoint_fieldNames own (by decide)
  have kinds := NodeKind.ofMembers?_congr type nested fun name known =>
    (Json.agreeOn_cons unknown .null members).lookup known
  simp (disch := first | assumption | decide | rfl) only [finishNode?, Json.required?_cons_of_ne,
    Json.optional?_cons_of_default, kinds]

theorem finishNode?_cons_of_default (default : NodeKind.Default type name value)
    (absent : name ∉ members.map Prod.fst) :
    finishNode? type ((name, value) :: members) = finishNode? type members := by
  funext nested
  have other : ∀ own ∈ nodeFieldNames, own ≠ name :=
    fun own among same => disjoint_fieldNames default.mem_fieldNames (same ▸ among)
  rw [finishNode?, finishNode?, Json.required?_cons_of_ne _ (other "id" (by decide)),
    Json.optional?_cons_of_ne _ _ (other "next_id" (by decide)),
    NodeKind.ofMembers?_cons_of_default default absent]

theorem nodeOfJson?_cons_of_default (default : NodeDefault (typeOf? members) name value)
    (absent : name ∉ members.map Prod.fst) :
    nodeOfJson? (.object ((name, value) :: members)) = nodeOfJson? (.object members) := by
  have once : ∀ names, Json.once names ((name, value) :: members) = Json.once names members :=
    Json.once_cons_of_absent absent
  cases default with
  | next =>
      refine nodeOfJson?_eq_of_type (Json.required?_cons_of_ne _ (by decide)) (once _)
        fun type _ => ⟨once _, fun _ => ?_, finishNode?_cons_of_next absent type⟩
      exact Json.optional?_cons_of_ne _ _ (by decide)
  | @own type _ _ known default =>
      have other : "type" ≠ name := by
        rintro rfl
        exact disjoint_fieldNames default.mem_fieldNames (by decide)
      refine nodeOfJson?_eq_of_type (Json.required?_cons_of_ne _ other) (once _)
        fun also same => ?_
      cases known.symm.trans same
      refine ⟨once _, fun sub => ?_, finishNode?_cons_of_default default absent⟩
      cases default <;> cases sub
      exact Json.optional?_cons_of_default absent (by rw [nestedOfJson?])

/-- A reader of a SubFlow node reads the nested graph and sees to the rest after that. -/
theorem exists_finish_of_graph (known : typeOf? members = some .subFlow) :
    ∃ finish : Option Graph → Option (Node Graph), ∀ value,
      nodeOfJson? (.object (("graph", value) :: members)) = (nestedOfJson? value).bind finish := by
  refine ⟨fun nested => if Json.once nodeFieldNames (("graph", .null) :: members) &&
    Json.once (NodeKind.fieldNames .subFlow) (("graph", .null) :: members) then
      finishNode? .subFlow (("graph", .null) :: members) nested else none, fun value => ?_⟩
  have sameType : typeOf? (("graph", value) :: members) = some .subFlow :=
    (Json.required?_cons_of_ne _ (by decide)).trans known
  have finish : finishNode? .subFlow (("graph", value) :: members) =
      finishNode? .subFlow (("graph", .null) :: members) := by
    funext nested
    simp (disch := decide) only [finishNode?, Json.required?_cons_of_ne, Json.optional?_cons_of_ne,
      NodeKind.ofMembers?]
  have looked : Json.optional? "graph" none nestedOfJson? (("graph", value) :: members) =
      nestedOfJson? value := by
    rw [Json.optional?, List.lookup_cons_self]
  rw [nodeOfJson?_object, sameType, Option.bind_some, if_pos rfl, looked, finish,
    Json.once_cons_eq value .null, Json.once_cons_eq value .null]
  split
  · rfl
  · cases nestedOfJson? value <;> rfl

/-! ## Graphs -/

theorem ofJson?_congr (agree : Json.AgreeOn fieldNames first second) :
    ofJson? (.object first) = ofJson? (.object second) := by
  have same : ∀ name ∈ fieldNames, first.lookup name = second.lookup name :=
    fun name known => agree.lookup known
  simp only [fieldNames, List.forall_mem_cons] at same
  simp only [ofJson?, nodesAmong?_eq, agree.once, Json.required?, Json.optional?, same]

/-- The members that the document of a graph may leave out, with what they say then. -/
inductive Default : String → Json → Prop where
  | nodes : Default "nodes" (.array [])
  | slots : Default "actor_slots" (.array [])

theorem ofJson?_cons_of_default (default : Default name value)
    (absent : name ∉ members.map Prod.fst) :
    ofJson? (.object ((name, value) :: members)) = ofJson? (.object members) := by
  have noNodes : nodesOfJson? (.array []) = some [] := by rw [nodesOfJson?, nodesOfItems?]
  have noSlots : ActorSlot.listOfJson? (.array []) = some [] := by
    rw [ActorSlot.listOfJson?, List.mapM_nil]
    rfl
  simp only [ofJson?, nodesAmong?_eq, Json.once_cons_of_absent absent]
  cases default <;>
    simp (disch := first | assumption | decide) only [Json.required?_cons_of_ne,
      Json.optional?_cons_of_ne, Json.optional?_cons_of_default]

/-- A reader of a graph reads the nodes, wherever it finds them, and sees to the rest after that. -/
theorem exists_finish_of_nodes (members : List (String × Json)) :
    ∃ finish : List (Node Graph) → Option Graph, ∀ value,
      ofJson? (.object (("nodes", value) :: members)) = (nodesOfJson? value).bind finish := by
  refine ⟨fun nodes => if Json.once fieldNames (("nodes", .null) :: members) then
    (Json.required? "id" Json.text? members).bind fun id =>
      (Json.optional? "actor_slots" [] ActorSlot.listOfJson? members).bind fun slots =>
        some ⟨id, nodes, slots⟩
    else none, fun value => ?_⟩
  have looked : Json.optional? "nodes" [] nodesOfJson? (("nodes", value) :: members) =
      nodesOfJson? value := by
    rw [Json.optional?, List.lookup_cons_self]
  simp (disch := decide) only [ofJson?, nodesAmong?_eq, looked, Json.required?_cons_of_ne,
    Json.optional?_cons_of_ne, Json.once_cons_eq value .null]
  split
  · exact Option.bind_comm ..
  · exact (Option.bind_fun_none _).symm

theorem exists_finish_of_slots (members : List (String × Json)) :
    ∃ finish : List ActorSlot → Option Graph, ∀ value,
      ofJson? (.object (("actor_slots", value) :: members)) =
        (ActorSlot.listOfJson? value).bind finish := by
  refine ⟨fun slots => if Json.once fieldNames (("actor_slots", .null) :: members) then
    (Json.required? "id" Json.text? members).bind fun id =>
      (Json.optional? "nodes" [] nodesOfJson? members).bind fun nodes => some ⟨id, nodes, slots⟩
    else none, fun value => ?_⟩
  have looked : Json.optional? "actor_slots" [] ActorSlot.listOfJson?
      (("actor_slots", value) :: members) = ActorSlot.listOfJson? value := by
    rw [Json.optional?, List.lookup_cons_self]
  simp (disch := decide) only [ofJson?, nodesAmong?_eq, looked, Json.required?_cons_of_ne,
    Json.optional?_cons_of_ne, Json.once_cons_eq value .null]
  split
  · cases ActorSlot.listOfJson? value <;> simp
  · exact (Option.bind_fun_none _).symm

theorem exists_finish_of_nodesAt (id : Json) (rest : List Json) :
    ∃ finish : List (Node Graph) → Option Graph, ∀ value,
      ofJson? (.array (id :: value :: rest)) = (nodesOfJson? value).bind finish := by
  rcases rest with _ | ⟨slots, _ | ⟨_, _⟩⟩
  · refine ⟨fun nodes => id.text?.bind fun id => some ⟨id, nodes, []⟩, fun value => ?_⟩
    rw [ofJson?]
    exact Option.bind_comm ..
  · refine ⟨fun nodes => id.text?.bind fun id =>
      (ActorSlot.listOfJson? slots).bind fun slots => some ⟨id, nodes, slots⟩, fun value => ?_⟩
    rw [ofJson?]
    exact Option.bind_comm ..
  · refine ⟨fun _ => none, fun value => ?_⟩
    rw [ofJson?, Option.bind_fun_none] <;> simp

theorem exists_finish_of_slotsAt (id nodes : Json) (rest : List Json) :
    ∃ finish : List ActorSlot → Option Graph, ∀ value,
      ofJson? (.array (id :: nodes :: value :: rest)) =
        (ActorSlot.listOfJson? value).bind finish := by
  cases rest with
  | nil =>
      refine ⟨fun slots => id.text?.bind fun id => (nodesOfJson? nodes).bind fun nodes =>
        some ⟨id, nodes, slots⟩, fun value => ?_⟩
      rw [ofJson?]
      cases ActorSlot.listOfJson? value <;> simp
  | cons =>
      refine ⟨fun _ => none, fun value => ?_⟩
      rw [ofJson?, Option.bind_fun_none] <;> simp

theorem nodesOfItems?_eq (items : List Json) : nodesOfItems? items = items.mapM nodeOfJson? := by
  induction items with
  | nil =>
      rw [nodesOfItems?, List.mapM_nil]
      rfl
  | cons item rest ih =>
      rw [nodesOfItems?, List.mapM_cons, ih]
      rfl

theorem nestedOfJson?_eq (present : value ≠ .null) :
    nestedOfJson? value = (ofJson? value).map some := by
  cases value with
  | null => exact absurd rfl present
  | object members => rw [nestedOfJson?]
  | array items => rw [nestedOfJson?]
  | bool | number | string =>
      rw [nestedOfJson?, ofJson?, Option.map_none] <;> simp

end Graph

end SceneFlow
