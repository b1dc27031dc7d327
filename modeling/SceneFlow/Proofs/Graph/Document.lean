import Mathlib.Data.List.Nodup
import SceneFlow.Graph.Document
import SceneFlow.Proofs.Datum

/-!
# Graphs read back

A graph is read back from its text as it is: every node of every kind, the slots with all their
properties, and the graphs nested in it. Of the binary numbers in the graph it takes that they are
finite and that each is read back from its decimal.
-/

set_option autoImplicit false

namespace SceneFlow

/-- Finite, and read back from its decimal. -/
def BinaryNumber.Kept (binary : BinaryNumber) : Prop :=
  binary.isFinite ∧ binary.ReadsBack

/-! ## Fields -/

namespace Json

theorem recordOutline_member {names : List String} {name : String} (known : name ∈ names) :
    (recordOutline names).member name = .everything := by
  have found : (names.map (·, Outline.everything)).lookup name = some .everything := by
    induction names with
    | nil => cases known
    | cons head rest ih =>
        rw [List.map_cons, List.lookup_cons]
        split
        · rfl
        next other =>
          exact ih ((List.mem_cons.mp known).resolve_left (ne_of_beq_false other))
  rw [recordOutline, Outline.member, found, Option.getD_some]

theorem readBy_record {names : List String} {members : List (String × Json)}
    (inRange : (object members).InRange) (known : ∀ member ∈ members, member.1 ∈ names) :
    ReadBy (recordOutline names) (.object members) := by
  refine readBy_object rfl fun member among => ?_
  rw [recordOutline_member (known member among)]
  exact ⟨rfl, readBy_everything member.2 (inRange_object.mp inRange member among)⟩

theorem once_of_nodup {members : List (String × Json)} (distinct : (members.map Prod.fst).Nodup)
    (names : List String) : once names members = true := by
  unfold once
  refine List.all_eq_true.mpr fun name _ => decide_eq_true ?_
  have single : ((members.map Prod.fst).filter (· == name)).length ≤ 1 := by
    rw [← List.count_eq_length_filter]
    exact List.nodup_iff_count_le_one.mp distinct name
  rwa [List.filter_map, List.length_map] at single

theorem optional?_congr {α : Type} {name : String} {missing : α} {read : Json → Option α}
    {members others : List (String × Json)} (same : members.lookup name = others.lookup name) :
    optional? name missing read members = optional? name missing read others := by
  rw [optional?, optional?, same]

/-- A search for a member by its name is a look-up. -/
theorem eq_optional? {α : Type} {name : String} {missing : α} {read : Json → Option α}
    {search : List (String × Json) → Option α} (atEnd : search [] = some missing)
    (onward : ∀ other value rest, search ((other, value) :: rest) =
      if other = name then read value else search rest) (members : List (String × Json)) :
    search members = optional? name missing read members := by
  induction members with
  | nil => exact atEnd
  | cons member rest ih =>
      obtain ⟨other, value⟩ := member
      rw [onward, optional?, List.lookup_cons]
      by_cases same : other = name
      · simp [same]
      · rw [if_neg same, ih, beq_false_of_ne (Ne.symm same)]
        rfl

theorem texts?_strings (texts : List String) : texts? (strings texts) = some texts := by
  unfold texts? strings
  induction texts with
  | nil => rfl
  | cons text rest ih =>
      simp only [List.map_cons, List.mapM_cons, ih]
      rfl

theorem nullableText?_string? (text : Option String) :
    nullableText? (string? text) = some text := by
  cases text <;> rfl

theorem below?_nat {value bound : Nat} (below : value < bound) (fits : bound ≤ Numeral.wordLimit) :
    below? bound (nat value) = some value := by
  unfold Numeral.wordLimit at fits
  have read := Numeral.number?_ofNat value (by omega)
  simp [below?, nat, read, Number.below?, below]

theorem real?_float32 {value : Float32} (kept : (BinaryNumber.single value).Kept) :
    real? (float32 value) = some value := by
  have written : (Numeral.ofFloat32? value).isSome = true :=
    (Numeral.isSome_ofUnpacked? .single _).trans kept.1
  obtain ⟨numeral, written⟩ := Option.isSome_iff_exists.mp written
  have read := kept.2 numeral written
  simpa [real?, float32, written] using read

theorem inRange_float32 {value : Float32} (readsBack : (BinaryNumber.single value).ReadsBack) :
    (float32 value).InRange := by
  unfold float32
  split
  next numeral written =>
    obtain ⟨number, known, _⟩ := Option.map_eq_some_iff.mp (readsBack numeral written)
    simp [known]
  next => exact inRange_null

theorem inRange_strings (texts : List String) : (strings texts).InRange := by
  refine inRange_array.mpr fun item among => ?_
  obtain ⟨text, _, rfl⟩ := List.mem_map.mp among
  exact inRange_string text

theorem inRange_string? (text : Option String) : (string? text).InRange := by
  cases text <;> simp [string?]

theorem inRange_nat {value : Nat} (fits : value < Numeral.wordLimit) : (nat value).InRange := by
  unfold Numeral.wordLimit at fits
  simp [nat, Numeral.number?_ofNat value (by omega)]

end Json

theorem NodeKind.nested?_of_ne {γ : Type} {kind : NodeKind γ} (other : kind.type ≠ .subFlow) :
    kind.nested? = none := by
  cases kind with
  | subFlow => exact absurd rfl other
  | _ => rfl

theorem NodeKind.ofMembers?_congr {γ : Type} (type : NodeType) (nested : Option γ)
    {members others : List (String × Json)}
    (same : ∀ name ∈ fieldNames type, members.lookup name = others.lookup name) :
    ofMembers? type nested members = ofMembers? type nested others := by
  cases type <;> simp only [fieldNames, List.forall_mem_cons] at same <;>
    simp [ofMembers?, Json.optional?, same]

theorem NodeType.ofName?_name (type : NodeType) : ofName? type.name = some type := by
  cases type <;> decide

/-! ## The binary numbers of a graph -/

def Coordinates.binaries (point : Coordinates) : List BinaryNumber :=
  [.single point.x, .single point.y, .single point.z]

def ActorSlot.binaries (slot : ActorSlot) : List BinaryNumber :=
  slot.position.binaries ++ slot.euler.binaries ++
    slot.properties.entries.flatMap fun (_, value) => value.datum.binaries

theorem ActorSlot.forall_mem_binaries {slot : ActorSlot} {holds : BinaryNumber → Prop} :
    (∀ binary ∈ slot.binaries, holds binary) ↔
      (∀ binary ∈ slot.position.binaries, holds binary) ∧
        (∀ binary ∈ slot.euler.binaries, holds binary) ∧
          ∀ entry ∈ slot.properties.entries, ∀ binary ∈ entry.2.datum.binaries, holds binary := by
  unfold binaries
  rw [List.forall_mem_append, List.forall_mem_append, List.forall_mem_flatMap, and_assoc]

namespace Graph

mutual

/-- The binary numbers of a graph and of all graphs nested in it. -/
def binaries : Graph → List BinaryNumber
  | ⟨_, nodes, slots⟩ => binariesOfNodes nodes ++ slots.flatMap ActorSlot.binaries

def binariesOfNodes : List (Node Graph) → List BinaryNumber
  | [] => []
  | node :: rest => binariesOfNode node ++ binariesOfNodes rest

def binariesOfNode : Node Graph → List BinaryNumber
  | ⟨_, _, kind⟩ => binariesOfKind kind

def binariesOfKind : NodeKind Graph → List BinaryNumber
  | .delay seconds => [.single seconds]
  | .subFlow graph => binariesOfNested graph
  | _ => []

def binariesOfNested : Option Graph → List BinaryNumber
  | none => []
  | some graph => binaries graph

end

end Graph

/-! ## Slots -/

theorem Coordinates.ofJson?_toJson (point : Coordinates)
    (kept : ∀ binary ∈ point.binaries, binary.Kept) : ofJson? point.toJson = some point := by
  obtain ⟨x, kept⟩ := List.forall_mem_cons.mp kept
  obtain ⟨y, kept⟩ := List.forall_mem_cons.mp kept
  obtain ⟨z, _⟩ := List.forall_mem_cons.mp kept
  simp [ofJson?, toJson, Json.real?_float32 x, Json.real?_float32 y, Json.real?_float32 z]

theorem Coordinates.inRange_toJson (point : Coordinates)
    (readsBack : ∀ binary ∈ point.binaries, binary.ReadsBack) : point.toJson.InRange := by
  unfold binaries at readsBack
  unfold toJson
  simp only [Json.inRange_array, List.forall_mem_cons] at readsBack ⊢
  exact ⟨Json.inRange_float32 readsBack.1, Json.inRange_float32 readsBack.2.1,
    Json.inRange_float32 readsBack.2.2.1, List.forall_mem_nil _⟩

namespace ActorSlot

theorem propertiesOfJson?_toJson (properties : Members OrderedDatum)
    (kept : ∀ entry ∈ properties.entries, ∀ binary ∈ entry.2.datum.binaries, binary.Kept) :
    propertiesOfJson? (.object (properties.mapValues OrderedDatum.toJson).entries) =
      some properties := by
  suffices read : ∀ entries : List (String × OrderedDatum),
      (∀ entry ∈ entries, ∀ binary ∈ entry.2.datum.binaries, binary.Kept) →
      ((entries.map fun (name, value) => (name, value.toJson)).mapM fun member : String × Json =>
        (OrderedDatum.ofJson? member.2).map fun value => (member.1, value)) = some entries by
    simp only [propertiesOfJson?, Members.mapValues, read _ kept, Option.map_some,
      Members.ofList_entries]
  intro entries
  induction entries with
  | nil => intro _; rfl
  | cons entry rest ih =>
      intro kept
      obtain ⟨keptFirst, keptRest⟩ := List.forall_mem_cons.mp kept
      have first := entry.2.ofJson?_toJson fun binary among => (keptFirst binary among).2
      simp [first, ih keptRest]

theorem ofJson?_toJson (slot : ActorSlot) (kept : ∀ binary ∈ slot.binaries, binary.Kept) :
    ofJson? slot.toJson = some slot := by
  obtain ⟨keptPosition, keptEuler, keptProperties⟩ := forall_mem_binaries.mp kept
  obtain ⟨id, prefabName, position, euler, spawns, properties⟩ := slot
  have readPosition := position.ofJson?_toJson keptPosition
  have readEuler := euler.ofJson?_toJson keptEuler
  have readProperties := propertiesOfJson?_toJson properties keptProperties
  have readPrefab := Json.nullableText?_string? prefabName
  simp [ofJson?, toJson, Json.record?, Json.once, fieldNames, Json.required?, Json.optional?,
    List.lookup_cons, Json.text?, Json.flag?, readPosition, readEuler, readProperties, readPrefab]

theorem inRange_toJson (slot : ActorSlot) (readsBack : ∀ binary ∈ slot.binaries, binary.ReadsBack) :
    slot.toJson.InRange := by
  obtain ⟨inPosition, inEuler, inProperties⟩ := forall_mem_binaries.mp readsBack
  refine Json.inRange_object.mpr ?_
  simp only [List.forall_mem_cons]
  refine ⟨Json.inRange_string _, Json.inRange_string? _, slot.position.inRange_toJson inPosition,
    slot.euler.inRange_toJson inEuler, Json.inRange_bool _, Json.inRange_object.mpr ?_,
    List.forall_mem_nil _⟩
  intro member among
  obtain ⟨entry, inside, rfl⟩ := List.mem_map.mp among
  exact entry.2.inRange_toJson (inProperties entry inside)

theorem readBy_toJson (slot : ActorSlot) (readsBack : ∀ binary ∈ slot.binaries, binary.ReadsBack) :
    Json.ReadBy (Json.recordOutline fieldNames) slot.toJson := by
  refine Json.readBy_record (slot.inRange_toJson readsBack) fun member among => ?_
  have named := List.mem_map_of_mem (f := Prod.fst) among
  simpa [fieldNames] using named

end ActorSlot

/-! ## Graphs -/

namespace Graph

theorem isObject (graph : Graph) : ∃ members, graph.toJson = .object members := by
  obtain ⟨id, nodes, slots⟩ := graph
  exact ⟨_, by rw [toJson]⟩

theorem slotsOfJson?_toJson (slots : List ActorSlot)
    (kept : ∀ slot ∈ slots, ∀ binary ∈ slot.binaries, binary.Kept) :
    ActorSlot.listOfJson? (.array (slots.map ActorSlot.toJson)) = some slots := by
  unfold ActorSlot.listOfJson?
  induction slots with
  | nil => rfl
  | cons slot rest ih =>
      obtain ⟨keptFirst, keptRest⟩ := List.forall_mem_cons.mp kept
      have first := slot.ofJson?_toJson keptFirst
      simp [first, ih keptRest]

theorem nodesAmong?_eq (members : List (String × Json)) :
    nodesAmong? members = Json.optional? "nodes" [] nodesOfJson? members := by
  apply Json.eq_optional?
  · rw [nodesAmong?]
  · intro other value rest
    rw [nodesAmong?]

theorem nestedAmong?_eq (members : List (String × Json)) :
    nestedAmong? members = Json.optional? "graph" none nestedOfJson? members := by
  apply Json.eq_optional?
  · rw [nestedAmong?]
  · intro other value rest
    rw [nestedAmong?]

/-! ### Nodes -/

/-- The members of a node's document, of which the last ones are its kind's own. -/
def nodeMembers (id : String) (nextId : Option String) (type : NodeType)
    (own : List (String × Json)) : List (String × Json) :=
  ("id", .string id) :: (nextId.toList.map fun next => ("next_id", .string next)) ++
    ("type", .string type.name) :: own

theorem disjoint_fieldNames {type : NodeType} {name : String}
    (own : name ∈ NodeKind.fieldNames type) : name ∉ nodeFieldNames := by
  have apart : ∀ name ∈ NodeKind.fieldNames type, name ∉ nodeFieldNames := by
    cases type <;> decide
  exact apart name own

theorem names_kindMembers (kind : NodeKind Graph) :
    (kindMembers kind).map Prod.fst = NodeKind.fieldNames kind.type := by
  cases kind <;> rfl

theorem nodup_nodeMembers (id : String) (nextId : Option String) {type : NodeType}
    {own : List (String × Json)} (names : own.map Prod.fst = NodeKind.fieldNames type) :
    ((nodeMembers id nextId type own).map Prod.fst).Nodup := by
  unfold nodeMembers
  cases nextId <;> simp [names] <;> cases type <;> decide

section

variable (id : String) (nextId : Option String) (type : NodeType) (own : List (String × Json))

theorem required?_id_nodeMembers :
    Json.required? "id" Json.text? (nodeMembers id nextId type own) = some id := rfl

theorem required?_type_nodeMembers :
    Json.required? "type" NodeType.ofJson? (nodeMembers id nextId type own) = some type := by
  cases nextId <;> exact NodeType.ofName?_name type

theorem lookup_nodeMembers {name : String} (other : name ∉ nodeFieldNames) :
    (nodeMembers id nextId type own).lookup name = own.lookup name := by
  simp only [nodeFieldNames, List.mem_cons, List.not_mem_nil, or_false, not_or] at other
  obtain ⟨noId, noNext, noType⟩ := other
  cases nextId <;> simp [nodeMembers, List.lookup_cons, beq_false_of_ne, noId, noNext, noType]

theorem optional?_next_nodeMembers (names : own.map Prod.fst = NodeKind.fieldNames type) :
    Json.optional? "next_id" none Json.nullableText? (nodeMembers id nextId type own) =
      some nextId := by
  cases nextId with
  | some next => rfl
  | none =>
      have unknown : "next_id" ∉ own.map Prod.fst := fun among =>
        disjoint_fieldNames (names ▸ among) (by decide)
      have missing : own.lookup "next_id" = none := by
        refine List.lookup_eq_none_iff.mpr fun member among => bne_iff_ne.mpr fun same => ?_
        exact unknown (List.mem_map.mpr ⟨member, among, same.symm⟩)
      simp [Json.optional?, nodeMembers, List.lookup_cons, missing]

end

theorem ofMembers?_kindMembers (kind : NodeKind Graph)
    (kept : ∀ binary ∈ binariesOfKind kind, binary.Kept) :
    NodeKind.ofMembers? kind.type kind.nested? (kindMembers kind) = some kind := by
  cases kind with
  | start | waitForTrigger | subFlow => rfl
  | dialogue sequence waits => cases sequence <;> rfl
  | delay seconds =>
      have read := Json.real?_float32 (kept (.single seconds) (by simp [binariesOfKind]))
      simp [NodeKind.type, NodeKind.ofMembers?, kindMembers, Json.optional?, read]
  | objective objective action => cases action <;> rfl
  | branch conditions targets =>
      simp [NodeKind.type, NodeKind.ofMembers?, kindMembers, Json.optional?, List.lookup_cons,
        Json.texts?_strings]
  | sequence steps =>
      simp [NodeKind.type, NodeKind.ofMembers?, kindMembers, Json.optional?, Json.texts?_strings]
  | loop body limit =>
      have fits : UInt32.size ≤ Numeral.wordLimit := by decide
      have read := Json.below?_nat limit.toNat_lt_size fits
      simp [NodeKind.type, NodeKind.ofMembers?, kindMembers, Json.optional?, List.lookup_cons,
        Json.nullableText?_string?, read]

/-! ### Graphs and nodes together

The induction goes the way the reader goes: from a graph to its nodes, from a node to the graph that
its kind holds. -/

mutual

theorem ofJson?_toJson : ∀ graph : Graph, (∀ binary ∈ graph.binaries, binary.Kept) →
    ofJson? graph.toJson = some graph
  | ⟨id, nodes, slots⟩, kept => by
      rw [binaries, List.forall_mem_append, List.forall_mem_flatMap] at kept
      have readNodes := nodesOfItems?_nodesToJson nodes kept.1
      have readSlots := slotsOfJson?_toJson slots kept.2
      rw [toJson, ofJson?, if_pos (Json.once_of_nodup (by simp) fieldNames), nodesAmong?_eq]
      simp [Json.required?, Json.optional?, List.lookup_cons, Json.text?, nodesOfJson?, readNodes,
        readSlots]

theorem nodesOfItems?_nodesToJson : ∀ nodes : List (Node Graph),
    (∀ binary ∈ binariesOfNodes nodes, binary.Kept) →
      nodesOfItems? (nodesToJson nodes) = some nodes
  | [], _ => by rw [nodesToJson, nodesOfItems?]
  | node :: rest, kept => by
      rw [binariesOfNodes, List.forall_mem_append] at kept
      have first := nodeOfJson?_nodeToJson node kept.1
      have others := nodesOfItems?_nodesToJson rest kept.2
      simp [nodesToJson, nodesOfItems?, first, others]

theorem nodeOfJson?_nodeToJson : ∀ node : Node Graph,
    (∀ binary ∈ binariesOfNode node, binary.Kept) →
      nodeOfJson? (nodeToJson node) = some node
  | ⟨id, nextId, kind⟩, kept => by
      rw [binariesOfNode] at kept
      have names := names_kindMembers kind
      have known := Json.once_of_nodup (nodup_nodeMembers id nextId names)
      have own : ∀ name ∈ NodeKind.fieldNames kind.type, List.lookup name
          (nodeMembers id nextId kind.type (kindMembers kind)) = (kindMembers kind).lookup name :=
        fun name among => lookup_nodeMembers id nextId kind.type _ (disjoint_fieldNames among)
      have given := ofMembers?_kindMembers kind kept
      rw [← NodeKind.ofMembers?_congr kind.type kind.nested? own] at given
      change nodeOfJson? (.object (nodeMembers id nextId kind.type (kindMembers kind))) = _
      rw [nodeOfJson?, required?_type_nodeMembers, Option.bind_eq_bind, Option.bind_some, known,
        known, Bool.and_self, if_pos rfl, required?_id_nodeMembers,
        optional?_next_nodeMembers id nextId kind.type _ names]
      -- A reader looks for a nested graph in a SubFlow node alone.
      by_cases sub : kind.type = .subFlow
      · have nested := nestedOfKind kind kept sub
        have here := own "graph" (by simp [sub, NodeKind.fieldNames])
        rw [← Json.optional?_congr here, ← nestedAmong?_eq] at nested
        simp [if_pos sub, nested, given]
      · rw [NodeKind.nested?_of_ne sub] at given
        simp [if_neg sub, given]

theorem nestedOfKind : ∀ kind : NodeKind Graph,
    (∀ binary ∈ binariesOfKind kind, binary.Kept) →
      kind.type = .subFlow →
        Json.optional? "graph" none nestedOfJson? (kindMembers kind) = some kind.nested?
  | .subFlow graph, kept, _ => by
      rw [binariesOfKind] at kept
      exact nestedOfJson?_nestedToJson graph kept

theorem nestedOfJson?_nestedToJson : ∀ nested : Option Graph,
    (∀ binary ∈ binariesOfNested nested, binary.Kept) →
      nestedOfJson? (nestedToJson nested) = some nested
  | none, _ => by rw [nestedToJson, nestedOfJson?]
  | some graph, kept => by
      rw [binariesOfNested] at kept
      have read := ofJson?_toJson graph kept
      obtain ⟨members, object⟩ := graph.isObject
      rw [nestedToJson]
      rw [object] at read ⊢
      rw [nestedOfJson?, read, Option.map_some]

end

/-! ### What is read of a graph -/

theorem inRange_slots (slots : List ActorSlot)
    (readsBack : ∀ slot ∈ slots, ∀ binary ∈ slot.binaries, binary.ReadsBack) :
    ∀ item ∈ slots.map ActorSlot.toJson, item.InRange := by
  intro item among
  obtain ⟨slot, inside, rfl⟩ := List.mem_map.mp among
  exact slot.inRange_toJson (readsBack slot inside)

mutual

theorem inRange_toJson : ∀ graph : Graph, (∀ binary ∈ graph.binaries, binary.ReadsBack) →
    graph.toJson.InRange
  | ⟨id, nodes, slots⟩, readsBack => by
      rw [binaries, List.forall_mem_append, List.forall_mem_flatMap] at readsBack
      rw [toJson, Json.inRange_object]
      simp only [List.forall_mem_cons]
      exact ⟨Json.inRange_string id, Json.inRange_array.mpr (inRange_nodesToJson nodes readsBack.1),
        Json.inRange_array.mpr (inRange_slots slots readsBack.2), List.forall_mem_nil _⟩

theorem inRange_nodesToJson : ∀ nodes : List (Node Graph),
    (∀ binary ∈ binariesOfNodes nodes, binary.ReadsBack) → ∀ item ∈ nodesToJson nodes, item.InRange
  | [], _ => by rw [nodesToJson]; nofun
  | node :: rest, readsBack => by
      rw [binariesOfNodes, List.forall_mem_append] at readsBack
      rw [nodesToJson]
      exact List.forall_mem_cons.mpr
        ⟨inRange_nodeToJson node readsBack.1, inRange_nodesToJson rest readsBack.2⟩

theorem inRange_nodeToJson : ∀ node : Node Graph,
    (∀ binary ∈ binariesOfNode node, binary.ReadsBack) → (nodeToJson node).InRange
  | ⟨id, nextId, kind⟩, readsBack => by
      rw [binariesOfNode] at readsBack
      have own := inRange_kindMembers kind readsBack
      rw [nodeToJson, Json.inRange_object, List.forall_mem_append]
      cases nextId <;> simpa using own

theorem inRange_kindMembers : ∀ kind : NodeKind Graph,
    (∀ binary ∈ binariesOfKind kind, binary.ReadsBack) →
      ∀ member ∈ kindMembers kind, member.2.InRange
  | .start, _ | .waitForTrigger _, _ | .objective .., _ => by simp [kindMembers]
  | .dialogue .., _ | .branch .., _ | .sequence _, _ => by
      simp [kindMembers, Json.inRange_string?, Json.inRange_strings]
  | .delay seconds, readsBack => by
      have single := readsBack (.single seconds) (by simp [binariesOfKind])
      simpa [kindMembers] using Json.inRange_float32 single
  | .loop _ limit, _ => by
      simp [kindMembers, Json.inRange_string?,
        Json.inRange_nat (Nat.lt_trans limit.toNat_lt_size (by decide))]
  | .subFlow graph, readsBack => by
      rw [binariesOfKind] at readsBack
      simpa [kindMembers] using inRange_nestedToJson graph readsBack

theorem inRange_nestedToJson : ∀ nested : Option Graph,
    (∀ binary ∈ binariesOfNested nested, binary.ReadsBack) → (nestedToJson nested).InRange
  | none, _ => by rw [nestedToJson]; exact Json.inRange_null
  | some graph, readsBack => by
      rw [binariesOfNested] at readsBack
      rw [nestedToJson]
      exact inRange_toJson graph readsBack

end

theorem readBy_toJson (graph : Graph) (readsBack : ∀ binary ∈ graph.binaries, binary.ReadsBack) :
    Json.ReadBy outline graph.toJson := by
  obtain ⟨id, nodes, slots⟩ := graph
  rw [binaries, List.forall_mem_append, List.forall_mem_flatMap] at readsBack
  obtain ⟨inNodes, inSlots⟩ := readsBack
  rw [toJson]
  refine Json.readBy_object rfl ?_
  simp only [List.forall_mem_cons]
  refine ⟨⟨rfl, ?_⟩, ⟨rfl, ?_⟩, ⟨rfl, ?_⟩, List.forall_mem_nil _⟩
  · exact Json.readBy_everything _ (Json.inRange_string id)
  · exact Json.readBy_everything _ (Json.inRange_array.mpr (inRange_nodesToJson nodes inNodes))
  · refine Json.readBy_array rfl rfl fun item among => ?_
    obtain ⟨slot, inside, rfl⟩ := List.mem_map.mp among
    exact slot.readBy_toJson (inSlots slot inside)

/-- A graph is read back from its text, given that its binary numbers are finite and read back from
their decimals and that its document is not nested too deeply. -/
theorem ofText?_toText (graph : Graph) (finite : ∀ binary ∈ graph.binaries, binary.isFinite)
    (readsBack : ∀ binary ∈ graph.binaries, binary.ReadsBack)
    (nests : graph.toJson.nesting ≤ Json.nestingLimit) : ofText? graph.toText = some graph := by
  have kept : ∀ binary ∈ graph.binaries, binary.Kept :=
    fun binary among => ⟨finite binary among, readsBack binary among⟩
  have document := Json.ofText?_wideText (graph.readBy_toJson readsBack) nests
  rw [ofText?, toText, document, Option.bind_some]
  exact graph.ofJson?_toJson kept

/-- A graph with ids of every sort, texts that are escaped, a graph that is nested and one that is
null, and properties with numbers of both kinds. -/
def assorted : Graph :=
  { id := "Gr\u00fc\u00dfe, \"\u65e5\u672c\" \\\n\x07"
    nodes :=
      [.followedBy (.delay "" 0.1) "inner",
       .subFlow "inner"
         { id := ""
           nodes :=
             [⟨"talk", some "", .dialogue none false⟩, ⟨"none", none, .subFlow none⟩,
              .branch "which" [("open", "talk")], .delay "late" 1e20]
           slots := [] },
       .objective "goal" "" .complete]
    slots :=
      [{ id := "hero", prefab := none, position := ⟨0.5, -0.0, 3e-9⟩, euler := .zero
         spawnsOnStart := false
         properties := Members.ofList
           [("speed", ⟨.list [.number (.real 0.1 (by decide +kernel)),
              .number (.whole (-3) (by decide)), .null],
              by simp [Datum.Ordered, Datum.ItemsOrdered]⟩),
            ("", ⟨.record [("deep", .text "\t")],
              by simp [Datum.Ordered, Datum.MembersOrdered, Ascending]⟩)] }] }

theorem ofText?_toText_assorted : ofText? assorted.toText = some assorted := by
  have finite : ∀ binary ∈ assorted.binaries, binary.isFinite := by decide +kernel
  have readsBack : ∀ binary ∈ assorted.binaries, binary.ReadsBack := by decide +kernel
  have nests : assorted.toJson.nesting ≤ Json.nestingLimit := by decide +kernel
  exact ofText?_toText assorted finite readsBack nests

end Graph

end SceneFlow
