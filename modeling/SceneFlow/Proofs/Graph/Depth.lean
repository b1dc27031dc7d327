import SceneFlow.Proofs.Graph.Document
import SceneFlow.Proofs.Json.Nesting

/-!
# How deep the documents of graphs nest

Each graph that is nested in another takes three levels of a document: its own, that of the list it
stands in and that of the node that holds it. A graph that was read from a document is written with
all of its fields, also those that the document left out; below the innermost graph these are lists
and coordinates, which take four levels at most.
-/

set_option autoImplicit false

namespace SceneFlow

/-- What is made of items is made of one of them each. -/
theorem exists_of_mapM_eq_some {α β : Type} {read : α → Option β} {items : List α}
    {values : List β} (done : items.mapM read = some values) {value : β}
    (member : value ∈ values) : ∃ item ∈ items, read item = some value := by
  induction items generalizing values with
  | nil =>
      cases done
      cases member
  | cons item rest ih =>
      rw [List.mapM_cons] at done
      obtain ⟨first, readFirst, done⟩ := Option.bind_eq_some_iff.mp done
      obtain ⟨others, readOthers, done⟩ := Option.bind_eq_some_iff.mp done
      cases done
      rcases List.mem_cons.mp member with rfl | later
      · exact ⟨item, List.mem_cons_self, readFirst⟩
      · obtain ⟨source, among, known⟩ := ih readOthers later
        exact ⟨source, List.mem_cons_of_mem _ among, known⟩

namespace Json

theorem thorough_recordOutline (names : List String) : (recordOutline names).Thorough := by
  refine .fields fun field member => ?_
  obtain ⟨name, _, rfl⟩ := List.mem_map.mp member
  exact .everything

theorem nesting_float32 (value : Float32) : (float32 value).nesting = 0 := by
  unfold float32
  split <;> rfl

theorem nesting_string? (text : Option String) : (string? text).nesting = 0 := by
  cases text <;> rfl

theorem nesting_strings (texts : List String) : (strings texts).nesting = 1 := by
  have flat : nestingOfItems (texts.map .string) = 0 := by
    refine Nat.le_zero.mp (nestingOfItems_le_iff.mpr fun item member => ?_)
    obtain ⟨text, _, rfl⟩ := List.mem_map.mp member
    exact Nat.le_refl 0
  rw [strings, nesting, flat]

/-- A field that may be missing is what its member gives, or the default. -/
theorem of_optional? {α : Type} {name : String} {missing : α} {read : Json → Option α}
    {members : List (String × Json)} {value : α}
    (found : optional? name missing read members = some value) :
    value = missing ∨ ∃ given, (name, given) ∈ members ∧ read given = some value := by
  unfold optional? at found
  split at found
  next =>
    cases found
    exact .inl rfl
  next given known => exact .inr ⟨given, mem_of_lookup known, found⟩

/-- A field of a document nests less deep than the document. -/
theorem nesting_of_mem_record? {names : List String} {document : Json}
    {fields : List (String × Json)} (record : document.record? names = some fields)
    {field : String × Json} (member : field ∈ fields) : field.2.nesting < document.nesting := by
  cases document with
  | object members =>
      unfold record? at record
      dsimp only at record
      split at record
      · cases record
        exact Nat.lt_succ_of_le (nesting_le_of_mem_members member)
      · cases record
  | array items =>
      unfold record? at record
      dsimp only at record
      split at record
      · cases record
        exact Nat.lt_succ_of_le (nesting_le_of_mem (List.of_mem_zip member).2)
      · cases record
  | _ => cases record

end Json

/-! ## Data and slots -/

namespace Datum

theorem nestingOfMembers_membersToJson_le {members : List (String × Datum)} {bound : Nat}
    (each : ∀ member ∈ members, member.2.toJson.nesting ≤ bound) :
    Json.nestingOfMembers (membersToJson members) ≤ bound := by
  induction members with
  | nil => exact Nat.zero_le bound
  | cons member rest ih =>
      obtain ⟨first, others⟩ := List.forall_mem_cons.mp each
      rw [membersToJson, Json.nestingOfMembers]
      exact Nat.max_le.mpr ⟨first, ih others⟩

mutual

theorem nesting_of_ofJson? : ∀ {document : Json} {value : Datum},
    ofJson? document = some value → value.toJson.nesting ≤ document.nesting
  | .null, _, read | .bool _, _, read | .string _, _, read => by
      simp only [ofJson?, Option.some.injEq] at read
      rw [← read]
      exact Nat.le_refl 0
  | .number _, _, read => by
      obtain ⟨number, _, rfl⟩ := Option.map_eq_some_iff.mp read
      exact Nat.le_refl 0
  | .array items, _, read => by
      obtain ⟨values, known, rfl⟩ := Option.map_eq_some_iff.mp read
      exact Nat.succ_le_succ (nesting_of_listOfJson? known)
  | .object members, _, read => by
      obtain ⟨given, known, rfl⟩ := Option.map_eq_some_iff.mp read
      have bound := nesting_of_membersOfJson? known
      refine Nat.succ_le_succ (nestingOfMembers_membersToJson_le fun member among => ?_)
      exact bound member (Members.mem_of_mem_ofList among)

theorem nesting_of_listOfJson? : ∀ {documents : List Json} {items : List Datum},
    listOfJson? documents = some items →
      Json.nestingOfItems (listToJson items) ≤ Json.nestingOfItems documents
  | [], _, read => by
      cases read
      exact Nat.le_refl 0
  | document :: rest, _, read => by
      obtain ⟨item, first, read⟩ := Option.bind_eq_some_iff.mp read
      obtain ⟨items, others, read⟩ := Option.bind_eq_some_iff.mp read
      cases read
      have boundFirst := nesting_of_ofJson? first
      have boundOthers := nesting_of_listOfJson? others
      rw [listToJson, Json.nestingOfItems, Json.nestingOfItems]
      omega

theorem nesting_of_membersOfJson? : ∀ {documents : List (String × Json)}
    {members : List (String × Datum)}, membersOfJson? documents = some members →
      ∀ member ∈ members, member.2.toJson.nesting ≤ Json.nestingOfMembers documents
  | [], _, read => by
      cases read
      exact fun _ member => (nomatch member)
  | (name, document) :: rest, _, read => by
      obtain ⟨value, first, read⟩ := Option.bind_eq_some_iff.mp read
      obtain ⟨members, others, read⟩ := Option.bind_eq_some_iff.mp read
      cases read
      have boundFirst := nesting_of_ofJson? first
      have boundOthers := nesting_of_membersOfJson? others
      rw [Json.nestingOfMembers]
      refine List.forall_mem_cons.mpr ⟨Nat.le_trans boundFirst (Nat.le_max_left _ _), ?_⟩
      exact fun member among => Nat.le_trans (boundOthers member among) (Nat.le_max_right _ _)

end

end Datum

theorem OrderedDatum.nesting_of_ofJson? {document : Json} {value : OrderedDatum}
    (read : ofJson? document = some value) : value.toJson.nesting ≤ document.nesting := by
  unfold ofJson? at read
  split at read
  next datum known =>
    cases read
    exact Datum.nesting_of_ofJson? known
  next => cases read

theorem Coordinates.nesting_toJson (point : Coordinates) : point.toJson.nesting = 1 := by
  simp [toJson, Json.nesting, Json.nestingOfItems, Json.nesting_float32]

namespace ActorSlot

theorem nesting_of_propertiesOfJson? {document : Json} {properties : Members OrderedDatum}
    (read : propertiesOfJson? document = some properties) :
    (Json.object (properties.mapValues OrderedDatum.toJson).entries).nesting ≤
      document.nesting := by
  cases document with
  | object members =>
      obtain ⟨given, known, rfl⟩ := Option.map_eq_some_iff.mp read
      refine Nat.succ_le_succ (Json.nestingOfMembers_le_iff.mpr fun member among => ?_)
      obtain ⟨entry, inside, rfl⟩ := List.mem_map.mp among
      obtain ⟨source, written, made⟩ :=
        exists_of_mapM_eq_some known (Members.mem_of_mem_ofList inside)
      obtain ⟨value, readValue, rfl⟩ := Option.map_eq_some_iff.mp made
      exact Nat.le_trans (OrderedDatum.nesting_of_ofJson? readValue)
        (Json.nesting_le_of_mem_members written)
  | _ => cases read

theorem nesting_toJson (slot : ActorSlot) : slot.toJson.nesting =
    max 1 (Json.object (slot.properties.mapValues OrderedDatum.toJson).entries).nesting + 1 := by
  simp [toJson, Json.nesting, Json.nestingOfMembers, Json.nesting_string?,
    Coordinates.nesting_toJson]

/-- The document of a slot nests as deep as the coordinates in it at least. -/
theorem nesting_of_ofJson? {document : Json} {slot : ActorSlot}
    (read : ofJson? document = some slot) : slot.toJson.nesting ≤ max document.nesting 2 := by
  obtain ⟨fields, record, read⟩ := Option.bind_eq_some_iff.mp read
  obtain ⟨id, _, read⟩ := Option.bind_eq_some_iff.mp read
  obtain ⟨prefabName, _, read⟩ := Option.bind_eq_some_iff.mp read
  obtain ⟨position, _, read⟩ := Option.bind_eq_some_iff.mp read
  obtain ⟨euler, _, read⟩ := Option.bind_eq_some_iff.mp read
  obtain ⟨spawns, _, read⟩ := Option.bind_eq_some_iff.mp read
  obtain ⟨properties, given, read⟩ := Option.bind_eq_some_iff.mp read
  cases read
  rw [nesting_toJson]
  dsimp only
  rcases Json.of_optional? given with rfl | ⟨source, member, known⟩
  · exact Nat.le_max_right document.nesting 2
  · have bound := nesting_of_propertiesOfJson? known
    have inside : source.nesting < document.nesting := Json.nesting_of_mem_record? record member
    omega

theorem nesting_of_listOfJson? {document : Json} {slots : List ActorSlot}
    (read : listOfJson? document = some slots) :
    (Json.array (slots.map toJson)).nesting ≤ max document.nesting 3 := by
  cases document with
  | array items =>
      rw [Json.nesting, Json.nesting]
      suffices Json.nestingOfItems (slots.map toJson) ≤ max (Json.nestingOfItems items) 2 by
        omega
      refine Json.nestingOfItems_le_iff.mpr fun item among => ?_
      obtain ⟨slot, inside, rfl⟩ := List.mem_map.mp among
      obtain ⟨source, written, known⟩ := exists_of_mapM_eq_some read inside
      have bound := nesting_of_ofJson? known
      have within := Json.nesting_le_of_mem written
      omega
  | _ => cases read

end ActorSlot

/-! ## Graphs -/

theorem NodeKind.nested?_of_ofMembers? {γ : Type} {type : NodeType} {nested : Option γ}
    {members : List (String × Json)} {kind : NodeKind γ}
    (read : ofMembers? type nested members = some kind) :
    kind.nested? = if type = .subFlow then nested else none := by
  cases type with
  | start | subFlow =>
      cases read
      rfl
  | delay | waitForTrigger | sequence =>
      obtain ⟨_, _, read⟩ := Option.bind_eq_some_iff.mp read
      cases read
      rfl
  | dialogue | objective | branch | loop =>
      obtain ⟨_, _, read⟩ := Option.bind_eq_some_iff.mp read
      obtain ⟨_, _, read⟩ := Option.bind_eq_some_iff.mp read
      cases read
      rfl

namespace Graph

theorem nestingOfNode_eq (node : Node Graph) :
    nestingOfNode node = nestingOfNested node.kind.nested? := by
  obtain ⟨id, nextId, kind⟩ := node
  rw [nestingOfNode]
  cases kind <;> rfl

theorem nesting_kindMembers_le (kind : NodeKind Graph) :
    Json.nestingOfMembers (kindMembers kind) ≤ max 1 (nestedToJson kind.nested?).nesting := by
  cases kind with
  | subFlow graph =>
      rw [kindMembers, Json.nestingOfMembers, Json.nestingOfMembers, NodeKind.nested?]
      omega
  | _ =>
      refine Nat.le_trans ?_ (Nat.le_max_left _ _)
      simp [kindMembers, Json.nestingOfMembers, Json.nesting, Json.nesting_float32, Json.nat,
        Json.nesting_string?, Json.nesting_strings]

theorem nesting_nodeToJson (node : Node Graph) :
    (nodeToJson node).nesting = Json.nestingOfMembers (kindMembers node.kind) + 1 := by
  obtain ⟨id, nextId, kind⟩ := node
  rw [nodeToJson, Json.nesting]
  cases nextId <;> simp [Json.nestingOfMembers, Json.nesting]

/-- What a node is read from: the type and, for a SubFlow node, the graph among its members. -/
theorem exists_type_of_nodeOfJson? {members : List (String × Json)} {node : Node Graph}
    (read : nodeOfJson? (.object members) = some node) :
    ∃ type nested, Json.required? "type" NodeType.ofJson? members = some type ∧
      (if type = .subFlow then nestedAmong? members else some none) = some nested ∧
        NodeKind.ofMembers? type nested members = some node.kind := by
  rw [nodeOfJson?] at read
  obtain ⟨type, known, read⟩ := Option.bind_eq_some_iff.mp read
  refine ⟨type, ?_⟩
  split at read
  · dsimp only at read
    split at read
    next sub =>
      simp only [Option.bind_eq_bind, Option.bind_eq_some_iff] at read
      obtain ⟨nested, search, id, _, nextId, _, kind, given, same⟩ := read
      cases same
      exact ⟨nested, known, by rw [if_pos sub, search], given⟩
    next other =>
      simp only [Option.bind_eq_bind, Option.bind_eq_some_iff] at read
      obtain ⟨nested, search, id, _, nextId, _, kind, given, same⟩ := read
      cases same
      exact ⟨nested, known, by rw [if_neg other, search], given⟩
  · cases read

/-- The graph that a node holds is the one that its document gives. -/
theorem nested?_of_nodeOfJson? {members : List (String × Json)} {node : Node Graph}
    (read : nodeOfJson? (.object members) = some node) :
    node.kind.nested? = none ∨ nestedAmong? members = some node.kind.nested? := by
  obtain ⟨type, nested, _, search, given⟩ := exists_type_of_nodeOfJson? read
  rw [NodeKind.nested?_of_ofMembers? given]
  split at search
  next sub => exact .inr (by rw [if_pos sub, search])
  next other => exact .inl (if_neg other)

/-! ### Graphs that were read

The induction goes the way the reader goes. Each bound is what was read, or what as many nested
graphs take with all of their fields, whichever is more. -/

theorem nesting_toJson_le {id : String} {nodes : List (Node Graph)} {slots : List ActorSlot}
    {bound : Nat} (inNodes : (Json.array (nodesToJson nodes)).nesting < bound)
    (inSlots : (Json.array (slots.map ActorSlot.toJson)).nesting < bound) :
    (toJson ⟨id, nodes, slots⟩).nesting ≤ bound := by
  rw [toJson]
  simp only [Json.nesting, Json.nestingOfMembers] at inNodes inSlots ⊢
  omega

mutual

theorem nesting_of_ofJson? : ∀ {document : Json} {graph : Graph},
    ofJson? document = some graph →
      graph.toJson.nesting ≤ max document.nesting (3 * graph.nesting + 4)
  | .object members, _, read => by
      rw [ofJson?] at read
      split at read
      · obtain ⟨id, _, read⟩ := Option.bind_eq_some_iff.mp read
        obtain ⟨nodes, known, read⟩ := Option.bind_eq_some_iff.mp read
        obtain ⟨slots, given, read⟩ := Option.bind_eq_some_iff.mp read
        cases read
        have inNodes := nesting_of_nodesAmong? known
        have inSlots : (Json.array (slots.map ActorSlot.toJson)).nesting ≤
            max (Json.nestingOfMembers members) 3 := by
          rcases Json.of_optional? given with rfl | ⟨source, member, listed⟩
          · exact Nat.le_trans (by decide) (Nat.le_max_right _ 3)
          · have bound := ActorSlot.nesting_of_listOfJson? listed
            have inside : source.nesting ≤ _ := Json.nesting_le_of_mem_members member
            omega
        rw [Json.nesting, nesting]
        apply nesting_toJson_le <;> omega
      · cases read
  | .array [id], _, read => by
      rw [ofJson?] at read
      obtain ⟨id, _, read⟩ := Option.bind_eq_some_iff.mp read
      cases read
      simp only [Json.nesting, nesting]
      apply nesting_toJson_le <;>
        simp only [Json.nesting, nodesToJson, List.map_nil, Json.nestingOfItems] <;> omega
  | .array [id, nodes], _, read => by
      rw [ofJson?] at read
      obtain ⟨id, _, read⟩ := Option.bind_eq_some_iff.mp read
      obtain ⟨nodes, known, read⟩ := Option.bind_eq_some_iff.mp read
      cases read
      have inNodes := nesting_of_nodesOfJson? known
      simp only [Json.nesting, Json.nestingOfItems, nesting] at inNodes ⊢
      apply nesting_toJson_le <;> simp only [Json.nesting, List.map_nil, Json.nestingOfItems] <;>
        omega
  | .array [id, nodes, slots], _, read => by
      rw [ofJson?] at read
      obtain ⟨id, _, read⟩ := Option.bind_eq_some_iff.mp read
      obtain ⟨nodes, known, read⟩ := Option.bind_eq_some_iff.mp read
      obtain ⟨slots, listed, read⟩ := Option.bind_eq_some_iff.mp read
      cases read
      have inNodes := nesting_of_nodesOfJson? known
      have inSlots := ActorSlot.nesting_of_listOfJson? listed
      rw [Json.nesting, nesting, Json.nestingOfItems, Json.nestingOfItems, Json.nestingOfItems]
      apply nesting_toJson_le <;> omega
  | .array [], _, read | .array (_ :: _ :: _ :: _ :: _), _, read | .null, _, read
  | .bool _, _, read | .number _, _, read | .string _, _, read => by
      rw [ofJson?] at read
      · cases read
      all_goals nofun

theorem nesting_of_nodesAmong? : ∀ {members : List (String × Json)} {nodes : List (Node Graph)},
    nodesAmong? members = some nodes →
      (Json.array (nodesToJson nodes)).nesting ≤
        max (Json.nestingOfMembers members) (3 * nestingOfNodes nodes + 3)
  | [], _, read => by
      rw [nodesAmong?] at read
      cases read
      rw [nodesToJson, Json.nesting, Json.nestingOfItems]
      omega
  | (name, value) :: rest, _, read => by
      rw [nodesAmong?] at read
      rw [Json.nestingOfMembers]
      split at read
      · have bound := nesting_of_nodesOfJson? read
        omega
      · have bound := nesting_of_nodesAmong? read
        omega

theorem nesting_of_nodesOfJson? : ∀ {document : Json} {nodes : List (Node Graph)},
    nodesOfJson? document = some nodes →
      (Json.array (nodesToJson nodes)).nesting ≤
        max document.nesting (3 * nestingOfNodes nodes + 3)
  | .array items, _, read => by
      rw [nodesOfJson?] at read
      have bound := nesting_of_nodesOfItems? read
      rw [Json.nesting, Json.nesting]
      omega
  | .null, _, read | .bool _, _, read | .number _, _, read | .string _, _, read
  | .object _, _, read => by
      rw [nodesOfJson?] at read
      · cases read
      all_goals nofun

theorem nesting_of_nodesOfItems? : ∀ {items : List Json} {nodes : List (Node Graph)},
    nodesOfItems? items = some nodes →
      Json.nestingOfItems (nodesToJson nodes) ≤
        max (Json.nestingOfItems items) (3 * nestingOfNodes nodes + 2)
  | [], _, read => by
      rw [nodesOfItems?] at read
      cases read
      simp [nodesToJson, Json.nestingOfItems]
  | item :: rest, _, read => by
      rw [nodesOfItems?] at read
      obtain ⟨node, first, read⟩ := Option.bind_eq_some_iff.mp read
      obtain ⟨nodes, others, read⟩ := Option.bind_eq_some_iff.mp read
      cases read
      have boundFirst := nesting_of_nodeOfJson? first
      have boundOthers := nesting_of_nodesOfItems? others
      rw [nodesToJson, Json.nestingOfItems, Json.nestingOfItems, nestingOfNodes]
      omega

theorem nesting_of_nodeOfJson? : ∀ {document : Json} {node : Node Graph},
    nodeOfJson? document = some node →
      (nodeToJson node).nesting ≤ max document.nesting (3 * nestingOfNode node + 2)
  | .object members, node, read => by
      have inNested : (nestedToJson node.kind.nested?).nesting ≤
          max (Json.nestingOfMembers members) (3 * nestingOfNested node.kind.nested? + 1) := by
        rcases nested?_of_nodeOfJson? read with unnested | search
        · rw [unnested, nestedToJson, Json.nesting]
          exact Nat.zero_le _
        · exact nesting_of_nestedAmong? search
      have inKind := nesting_kindMembers_le node.kind
      rw [nesting_nodeToJson, nestingOfNode_eq, Json.nesting]
      omega
  | .null, _, read | .bool _, _, read | .number _, _, read | .string _, _, read
  | .array _, _, read => by
      rw [nodeOfJson?] at read
      · cases read
      all_goals nofun

theorem nesting_of_nestedAmong? : ∀ {members : List (String × Json)} {nested : Option Graph},
    nestedAmong? members = some nested →
      (nestedToJson nested).nesting ≤
        max (Json.nestingOfMembers members) (3 * nestingOfNested nested + 1)
  | [], _, read => by
      rw [nestedAmong?] at read
      cases read
      simp [nestedToJson, Json.nesting]
  | (name, value) :: rest, _, read => by
      rw [nestedAmong?] at read
      rw [Json.nestingOfMembers]
      split at read
      · have bound := nesting_of_nestedOfJson? read
        omega
      · have bound := nesting_of_nestedAmong? read
        omega

theorem nesting_of_nestedOfJson? : ∀ {document : Json} {nested : Option Graph},
    nestedOfJson? document = some nested →
      (nestedToJson nested).nesting ≤ max document.nesting (3 * nestingOfNested nested + 1)
  | .null, _, read => by
      rw [nestedOfJson?] at read
      cases read
      simp [nestedToJson, Json.nesting]
  | .object members, _, read => by
      rw [nestedOfJson?] at read
      obtain ⟨graph, known, rfl⟩ := Option.map_eq_some_iff.mp read
      have bound := nesting_of_ofJson? known
      rw [nestedToJson, nestingOfNested]
      omega
  | .array items, _, read => by
      rw [nestedOfJson?] at read
      obtain ⟨graph, known, rfl⟩ := Option.map_eq_some_iff.mp read
      have bound := nesting_of_ofJson? known
      rw [nestedToJson, nestingOfNested]
      omega
  | .bool _, _, read | .number _, _, read | .string _, _, read => by
      rw [nestedOfJson?] at read
      · cases read
      all_goals nofun

end

/-! ### Graphs that are written -/

mutual

theorem le_nesting_toJson : ∀ graph : Graph, 3 * graph.nesting + 2 ≤ graph.toJson.nesting
  | ⟨id, nodes, slots⟩ => by
      have inNodes := le_nesting_nodesToJson nodes
      rw [toJson, nesting]
      simp only [Json.nesting, Json.nestingOfMembers]
      omega

theorem le_nesting_nodesToJson : ∀ nodes : List (Node Graph),
    3 * nestingOfNodes nodes ≤ Json.nestingOfItems (nodesToJson nodes)
  | [] => Nat.zero_le _
  | node :: rest => by
      have first := le_nesting_nodeToJson node
      have others := le_nesting_nodesToJson rest
      rw [nodesToJson, nestingOfNodes, Json.nestingOfItems]
      omega

theorem le_nesting_nodeToJson : ∀ node : Node Graph,
    3 * nestingOfNode node ≤ (nodeToJson node).nesting
  | ⟨id, nextId, kind⟩ => by
      have inKind := le_nesting_kindMembers kind
      rw [nesting_nodeToJson, nestingOfNode]
      exact inKind

theorem le_nesting_kindMembers : ∀ kind : NodeKind Graph,
    3 * nestingOfKind kind ≤ Json.nestingOfMembers (kindMembers kind) + 1
  | .subFlow nested => by
      have inside := le_nesting_nestedToJson nested
      rw [nestingOfKind, kindMembers, Json.nestingOfMembers]
      omega
  | .start | .dialogue .. | .delay _ | .waitForTrigger _ | .objective .. | .branch ..
  | .sequence _ | .loop .. => Nat.zero_le _

theorem le_nesting_nestedToJson : ∀ nested : Option Graph,
    3 * nestingOfNested nested ≤ (nestedToJson nested).nesting + 1
  | none => Nat.zero_le _
  | some graph => by
      have inside := le_nesting_toJson graph
      rw [nestingOfNested, nestedToJson]
      omega

end

end Graph

end SceneFlow
