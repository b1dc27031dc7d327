import SceneFlow.Proofs.Graph.Depth

/-!
# Graphs saved and loaded again

A graph that was loaded from a text is saved with all of its fields, also those that the text left
out, and that text is read in turn. Two things may stand in the way. A number beyond the range of
binary32 is rounded to an infinity, and no numeral stands for that. And graphs may be nested as deep
as a reader follows; then the lists of the innermost one, which a text may leave out, open one level
too many. In both cases the saved text is refused; it is never read as another graph.
-/

set_option autoImplicit false

namespace SceneFlow

/-! ## Numbers that are saved as null -/

theorem Json.isFinite_of_real? {value other : Float32}
    (read : real? (float32 value) = some other) :
    (BinaryNumber.single value).isFinite = true := by
  unfold float32 at read
  split at read
  next numeral written =>
    exact (Numeral.isSome_ofUnpacked? .single _).symm.trans (Option.isSome_of_eq_some written)
  next => cases read

namespace Datum

mutual

/-- What a value holds of binary numbers was in range when it was read. -/
theorem isFinite_of_mem_binaries : ∀ value : Datum, ∀ binary ∈ value.binaries,
    binary.isFinite = true
  | .null | .bool _ | .text _ | .number (.whole ..) => List.forall_mem_nil _
  | .number (.real ..) => List.forall_mem_singleton.mpr rfl
  | .list items => isFinite_of_mem_binariesOfItems items
  | .record members => isFinite_of_mem_binariesOfMembers members

theorem isFinite_of_mem_binariesOfItems : ∀ items : List Datum, ∀ binary ∈ binariesOfItems items,
    binary.isFinite = true
  | [] => List.forall_mem_nil _
  | item :: rest => List.forall_mem_append.mpr
      ⟨isFinite_of_mem_binaries item, isFinite_of_mem_binariesOfItems rest⟩

theorem isFinite_of_mem_binariesOfMembers : ∀ members : List (String × Datum),
    ∀ binary ∈ binariesOfMembers members, binary.isFinite = true
  | [] => List.forall_mem_nil _
  | (_, value) :: rest => List.forall_mem_append.mpr
      ⟨isFinite_of_mem_binaries value, isFinite_of_mem_binariesOfMembers rest⟩

end

end Datum

theorem Coordinates.isFinite_of_ofJson? {point other : Coordinates}
    (read : ofJson? point.toJson = some other) :
    ∀ binary ∈ point.binaries, binary.isFinite = true := by
  obtain ⟨x, readX, read⟩ := Option.bind_eq_some_iff.mp read
  obtain ⟨y, readY, read⟩ := Option.bind_eq_some_iff.mp read
  obtain ⟨z, readZ, _⟩ := Option.bind_eq_some_iff.mp read
  unfold binaries
  simp only [List.forall_mem_cons]
  exact ⟨Json.isFinite_of_real? readX, Json.isFinite_of_real? readY, Json.isFinite_of_real? readZ,
    List.forall_mem_nil _⟩

theorem ActorSlot.isFinite_of_ofJson? {slot other : ActorSlot}
    (read : ofJson? slot.toJson = some other) :
    ∀ binary ∈ slot.binaries, binary.isFinite = true := by
  rw [ofJson?] at read
  obtain ⟨fields, record, read⟩ := Option.bind_eq_some_iff.mp read
  obtain ⟨id, _, read⟩ := Option.bind_eq_some_iff.mp read
  obtain ⟨prefabName, _, read⟩ := Option.bind_eq_some_iff.mp read
  obtain ⟨position, readPosition, read⟩ := Option.bind_eq_some_iff.mp read
  obtain ⟨euler, readEuler, _⟩ := Option.bind_eq_some_iff.mp read
  unfold toJson Json.record? at record
  dsimp only at record
  split at record
  · cases record
    simp only [Json.optional?, List.lookup_cons] at readPosition readEuler
    exact forall_mem_binaries.mpr
      ⟨Coordinates.isFinite_of_ofJson? readPosition, Coordinates.isFinite_of_ofJson? readEuler,
        fun entry _ => entry.2.datum.isFinite_of_mem_binaries⟩
  · cases record

namespace Graph

theorem isFinite_of_slotsOfJson? {slots others : List ActorSlot}
    (read : ActorSlot.listOfJson? (.array (slots.map ActorSlot.toJson)) = some others) :
    ∀ slot ∈ slots, ∀ binary ∈ slot.binaries, binary.isFinite = true := by
  unfold ActorSlot.listOfJson? at read
  induction slots generalizing others with
  | nil => exact List.forall_mem_nil _
  | cons slot rest ih =>
      dsimp only at read
      rw [List.map_cons, List.mapM_cons] at read
      obtain ⟨first, readFirst, read⟩ := Option.bind_eq_some_iff.mp read
      obtain ⟨later, readLater, _⟩ := Option.bind_eq_some_iff.mp read
      exact List.forall_mem_cons.mpr ⟨ActorSlot.isFinite_of_ofJson? readFirst, ih readLater⟩

mutual

theorem isFinite_of_ofJson? : ∀ (graph : Graph) {other : Graph},
    ofJson? graph.toJson = some other → ∀ binary ∈ graph.binaries, binary.isFinite = true
  | ⟨id, nodes, slots⟩, _, read => by
      rw [toJson, ofJson?, if_pos (Json.once_of_nodup (by simp) fieldNames), nodesAmong?_eq] at read
      obtain ⟨_, _, read⟩ := Option.bind_eq_some_iff.mp read
      obtain ⟨others, readNodes, read⟩ := Option.bind_eq_some_iff.mp read
      obtain ⟨_, readSlots, _⟩ := Option.bind_eq_some_iff.mp read
      simp only [Json.optional?, List.lookup_cons] at readNodes readSlots
      change nodesOfJson? (.array (nodesToJson nodes)) = some others at readNodes
      rw [nodesOfJson?] at readNodes
      rw [binaries, List.forall_mem_append, List.forall_mem_flatMap]
      exact ⟨isFinite_of_nodesOfItems? nodes readNodes, isFinite_of_slotsOfJson? readSlots⟩

theorem isFinite_of_nodesOfItems? : ∀ (nodes : List (Node Graph)) {others : List (Node Graph)},
    nodesOfItems? (nodesToJson nodes) = some others →
      ∀ binary ∈ binariesOfNodes nodes, binary.isFinite = true
  | [], _, _ => by
      rw [binariesOfNodes]
      exact List.forall_mem_nil _
  | node :: rest, _, read => by
      rw [nodesToJson, nodesOfItems?] at read
      obtain ⟨_, first, read⟩ := Option.bind_eq_some_iff.mp read
      obtain ⟨_, others, _⟩ := Option.bind_eq_some_iff.mp read
      rw [binariesOfNodes, List.forall_mem_append]
      exact ⟨isFinite_of_nodeOfJson? node first, isFinite_of_nodesOfItems? rest others⟩

theorem isFinite_of_nodeOfJson? : ∀ (node : Node Graph) {other : Node Graph},
    nodeOfJson? (nodeToJson node) = some other →
      ∀ binary ∈ binariesOfNode node, binary.isFinite = true
  | ⟨id, nextId, kind⟩, _, read => by
      change nodeOfJson? (.object (nodeMembers id nextId kind.type (kindMembers kind))) = _ at read
      obtain ⟨type, nested, known, search, given⟩ := exists_type_of_nodeOfJson? read
      cases (required?_type_nodeMembers id nextId kind.type _).symm.trans known
      have own : ∀ name ∈ NodeKind.fieldNames kind.type, List.lookup name
          (nodeMembers id nextId kind.type (kindMembers kind)) = (kindMembers kind).lookup name :=
        fun name among => lookup_nodeMembers id nextId kind.type _ (disjoint_fieldNames among)
      rw [binariesOfNode]
      exact isFinite_of_ofMembers? kind own search given

theorem isFinite_of_ofMembers? : ∀ (kind : NodeKind Graph) {members : List (String × Json)}
    {nested : Option Graph} {other : NodeKind Graph},
      (∀ name ∈ NodeKind.fieldNames kind.type,
        members.lookup name = (kindMembers kind).lookup name) →
      (if kind.type = .subFlow then nestedAmong? members else some none) = some nested →
        NodeKind.ofMembers? kind.type nested members = some other →
          ∀ binary ∈ binariesOfKind kind, binary.isFinite = true
  | .delay seconds, _, _, _, own, _, given => by
      obtain ⟨_, read, _⟩ := Option.bind_eq_some_iff.mp given
      rw [Json.optional?_congr (own "seconds" (.head _))] at read
      exact List.forall_mem_singleton.mpr (Json.isFinite_of_real? read)
  | .subFlow graph, _, nested, _, own, search, _ => by
      rw [if_pos (by rfl), nestedAmong?_eq, Json.optional?_congr (own "graph" (.head _))] at search
      change nestedOfJson? (nestedToJson graph) = some nested at search
      rw [binariesOfKind]
      exact isFinite_of_nestedOfJson? graph search
  | .start, _, _, _, _, _, _ | .dialogue .., _, _, _, _, _, _ | .waitForTrigger _, _, _, _, _, _, _
  | .objective .., _, _, _, _, _, _ | .branch .., _, _, _, _, _, _ | .sequence _, _, _, _, _, _, _
  | .loop .., _, _, _, _, _, _ => List.forall_mem_nil _

theorem isFinite_of_nestedOfJson? : ∀ (nested : Option Graph) {other : Option Graph},
    nestedOfJson? (nestedToJson nested) = some other →
      ∀ binary ∈ binariesOfNested nested, binary.isFinite = true
  | none, _, _ => by
      rw [binariesOfNested]
      exact List.forall_mem_nil _
  | some graph, _, read => by
      obtain ⟨members, object⟩ := graph.isObject
      rw [nestedToJson, object, nestedOfJson?, ← object] at read
      obtain ⟨other, known, _⟩ := Option.map_eq_some_iff.mp read
      rw [binariesOfNested]
      exact isFinite_of_ofJson? graph known

end

/-! ## Documents that leave out what they can -/

/-- A graph of one node. -/
def documentOf (node : Json) : Json :=
  .object [("id", .string "g"), ("nodes", .array [node])]

def delayDocument (seconds : Numeral) : Json :=
  .object [("id", .string "n"), ("type", .string "Delay"), ("seconds", .number seconds)]

def hostDocument (graph : Json) : Json :=
  .object [("id", .string "n"), ("type", .string "SubFlow"), ("graph", graph)]

theorem nodeOfJson?_delayDocument {seconds : Numeral} {value : Float32}
    (known : seconds.number?.map Number.toFloat32 = some value) :
    nodeOfJson? (delayDocument seconds) = some (.delay "n" value) := by
  have type : NodeType.ofName? "Delay" = some .delay := NodeType.ofName?_name .delay
  simp [delayDocument, nodeOfJson?, Json.required?, Json.optional?, List.lookup_cons,
    NodeType.ofJson?, type, Json.once, nodeFieldNames, NodeKind.fieldNames, Json.text?,
    NodeKind.ofMembers?, Json.real?, known, Node.delay, Node.ofKind]

theorem inRange_delayDocument {seconds : Numeral} {value : Float32}
    (known : seconds.number?.map Number.toFloat32 = some value) :
    (delayDocument seconds).InRange := by
  obtain ⟨number, known, _⟩ := Option.map_eq_some_iff.mp known
  simp [delayDocument, Json.inRange_object, known]

theorem inRange_hostDocument {document : Json} (inRange : document.InRange) :
    (hostDocument document).InRange := by
  simp [hostDocument, Json.inRange_object, inRange]

theorem inRange_documentOf {node : Json} (inRange : node.InRange) : (documentOf node).InRange := by
  simp [documentOf, Json.inRange_object, Json.inRange_array, inRange]

theorem nestedOfJson?_of_ofJson? {document : Json} {graph : Graph}
    (read : ofJson? document = some graph) : nestedOfJson? document = some (some graph) := by
  cases document with
  | array | object => rw [nestedOfJson?, read, Option.map_some]
  | _ => simp [ofJson?] at read

theorem nodeOfJson?_hostDocument {document : Json} {graph : Graph}
    (read : ofJson? document = some graph) :
    nodeOfJson? (hostDocument document) = some (.subFlow "n" graph) := by
  have type : NodeType.ofName? "SubFlow" = some .subFlow := NodeType.ofName?_name .subFlow
  simp [hostDocument, nodeOfJson?, Json.required?, Json.optional?, List.lookup_cons,
    NodeType.ofJson?, type, Json.once, nodeFieldNames, NodeKind.fieldNames, Json.text?,
    NodeKind.ofMembers?, nestedAmong?, nestedOfJson?_of_ofJson? read, Node.subFlow, Node.ofKind]

theorem ofJson?_documentOf {document : Json} {node : Node Graph}
    (read : nodeOfJson? document = some node) :
    ofJson? (documentOf document) = some ⟨"g", [node], []⟩ := by
  simp [documentOf, ofJson?, Json.once, fieldNames, Json.required?, Json.text?, Json.optional?,
    List.lookup_cons, nodesAmong?, nodesOfJson?, nodesOfItems?, read]

theorem readBy_documentOf {node : Json} (inRange : node.InRange) :
    Json.ReadBy outline (documentOf node) := by
  have nodes : (Json.array [node]).InRange :=
    Json.inRange_array.mpr (List.forall_mem_singleton.mpr inRange)
  refine Json.readBy_object rfl ?_
  simp only [List.forall_mem_cons]
  exact ⟨⟨rfl, Json.readBy_everything _ (Json.inRange_string "g")⟩,
    ⟨rfl, Json.readBy_everything _ nodes⟩, List.forall_mem_nil _⟩

/-- A text on which nothing but the node can go wrong. -/
theorem ofText?_documentOf {document : Json} {node : Node Graph}
    (read : nodeOfJson? document = some node) (inRange : document.InRange)
    (nests : document.nesting + 2 ≤ Json.nestingLimit) :
    ofText? (documentOf document).wideText = some ⟨"g", [node], []⟩ := by
  have depth : (documentOf document).nesting = document.nesting + 2 := by
    simp [documentOf, Json.nesting, Json.nestingOfMembers, Json.nestingOfItems]
  rw [ofText?, Json.ofText?_wideText (readBy_documentOf inRange) (depth ▸ nests), Option.bind_some,
    ofJson?_documentOf read]

/-- Graphs nested in one another, the innermost one given by no more than its id. -/
def nestedDocument : Nat → Json
  | 0 => .object [("id", .string "g")]
  | depth + 1 => documentOf (hostDocument (nestedDocument depth))

def nested : Nat → Graph
  | 0 => .ofId "g"
  | depth + 1 => ⟨"g", [.subFlow "n" (nested depth)], []⟩

theorem ofJson?_nestedDocument (depth : Nat) :
    ofJson? (nestedDocument depth) = some (nested depth) := by
  induction depth with
  | zero =>
      simp [nestedDocument, nested, ofId, ofJson?, Json.once, fieldNames, Json.required?,
        Json.text?, Json.optional?, List.lookup_cons, nodesAmong?]
  | succ depth ih => exact ofJson?_documentOf (nodeOfJson?_hostDocument ih)

theorem nesting_nested (depth : Nat) : (nested depth).nesting = depth := by
  induction depth with
  | zero => rfl
  | succ depth ih =>
      simp [nested, Node.subFlow, Node.ofKind, nesting, nestingOfNodes, nestingOfNode,
        nestingOfKind, nestingOfNested, ih]

theorem binaries_nested (depth : Nat) : (nested depth).binaries = [] := by
  induction depth with
  | zero => rfl
  | succ depth ih =>
      simp [nested, Node.subFlow, Node.ofKind, binaries, binariesOfNodes, binariesOfNode,
        binariesOfKind, binariesOfNested, ih]

theorem nesting_nestedDocument (depth : Nat) : (nestedDocument depth).nesting = 3 * depth + 1 := by
  induction depth with
  | zero => rfl
  | succ depth ih =>
      simp [nestedDocument, documentOf, hostDocument, Json.nesting, Json.nestingOfMembers,
        Json.nestingOfItems, ih]
      omega

theorem inRange_nestedDocument (depth : Nat) : (nestedDocument depth).InRange := by
  induction depth with
  | zero => simp [nestedDocument, Json.inRange_object]
  | succ depth ih => exact inRange_documentOf (inRange_hostDocument ih)

/-! ## Saved and loaded -/

theorem thorough_outline : outline.Thorough := by
  refine .fields ?_
  simp only [List.forall_mem_cons]
  exact ⟨.everything, .everything, .items (Json.thorough_recordOutline _), List.forall_mem_nil _⟩

section

variable {graph : Graph} (readsBack : ∀ binary ∈ graph.binaries, binary.ReadsBack)

include readsBack

theorem ofText?_toText_eq_none_of_deep (deep : 42 ≤ graph.nesting) :
    ofText? graph.toText = none := by
  have bound := graph.le_nesting_toJson
  have limit : Json.nestingLimit = 127 := rfl
  have unread := Json.ofText?_wideText_eq_none thorough_outline (graph.readBy_toJson readsBack)
    (by omega)
  rw [ofText?, toText, unread, Option.bind_none]

theorem ofText?_toText_eq_none_of_infinite {binary : BinaryNumber}
    (member : binary ∈ graph.binaries) (infinite : binary.isFinite = false) :
    ofText? graph.toText = none := by
  have readBy := graph.readBy_toJson readsBack
  rw [ofText?, toText]
  rcases Nat.lt_or_ge Json.nestingLimit graph.toJson.nesting with deep | nests
  · rw [Json.ofText?_wideText_eq_none thorough_outline readBy deep, Option.bind_none]
  · rw [Json.ofText?_wideText readBy nests, Option.bind_some]
    cases read : ofJson? graph.toJson with
    | none => rfl
    | some other => exact absurd (isFinite_of_ofJson? graph read binary member) (by simp [infinite])

end

/-- A graph that was loaded is loaded again from its own text if its numbers are finite and fewer
than 42 graphs are nested in one another inside of it; else that text is refused. -/
theorem ofText?_toText_of_ofText? {text : String} {graph : Graph}
    (loaded : ofText? text = some graph)
    (readsBack : ∀ binary ∈ graph.binaries, binary.ReadsBack) :
    ofText? graph.toText =
      if (∀ binary ∈ graph.binaries, binary.isFinite = true) ∧ graph.nesting < 42 then some graph
      else none := by
  split
  next whole =>
    obtain ⟨finite, shallow⟩ := whole
    obtain ⟨document, parsed, read⟩ := Option.bind_eq_some_iff.mp loaded
    have followed := Json.nesting_of_ofText? thorough_outline parsed
    have bound := nesting_of_ofJson? read
    -- The fields that were left out are at most four levels below the forty-first graph.
    have limit : Json.nestingLimit = 127 := rfl
    have nests : graph.toJson.nesting ≤ Json.nestingLimit := by omega
    have kept : ∀ binary ∈ graph.binaries, binary.Kept :=
      fun binary among => ⟨finite binary among, readsBack binary among⟩
    rw [ofText?, toText, Json.ofText?_wideText (graph.readBy_toJson readsBack) nests,
      Option.bind_some, graph.ofJson?_toJson kept]
  next lacking =>
    by_cases deep : 42 ≤ graph.nesting
    · exact ofText?_toText_eq_none_of_deep readsBack deep
    · have unbounded : ¬ ∀ binary ∈ graph.binaries, binary.isFinite = true :=
        fun finite => lacking ⟨finite, Nat.lt_of_not_le deep⟩
      obtain ⟨binary, member, infinite⟩ := not_forall₂.mp unbounded
      exact ofText?_toText_eq_none_of_infinite readsBack member
        (eq_false_of_ne_true infinite)

/-- A graph with half a second to wait in a nested one. -/
def sketch : Graph :=
  ⟨"g", [.subFlow "n" ⟨"g", [.delay "n" 0.5], []⟩], []⟩

def sketchDocument : Json :=
  documentOf (hostDocument (documentOf (delayDocument ⟨false, 5, [], some ⟨some true, 1⟩⟩)))

theorem sketch_reloads :
    ofText? sketchDocument.wideText = some sketch ∧ ofText? sketch.toText = some sketch := by
  have seconds : (⟨false, 5, [], some ⟨some true, 1⟩⟩ : Numeral).number?.map Number.toFloat32 =
      some 0.5 := by decide +kernel
  have read := nodeOfJson?_hostDocument (ofJson?_documentOf (nodeOfJson?_delayDocument seconds))
  have inRange := inRange_hostDocument (inRange_documentOf (inRange_delayDocument seconds))
  have loaded : ofText? sketchDocument.wideText = some sketch :=
    ofText?_documentOf read inRange (by decide)
  have readsBack : ∀ binary ∈ sketch.binaries, binary.ReadsBack := by decide +kernel
  have whole : (∀ binary ∈ sketch.binaries, binary.isFinite = true) ∧ sketch.nesting < 42 := by
    decide +kernel
  exact ⟨loaded, (ofText?_toText_of_ofText? loaded readsBack).trans (if_pos whole)⟩

/-- A graph that waits for ten to the thirty-ninth seconds, which is beyond binary32. -/
def boundless : Graph :=
  ⟨"g", [.delay "n" 1e39], []⟩

theorem not_every_text_reloads :
    (ofText? (documentOf (delayDocument ⟨false, 1, [], some ⟨none, 39⟩⟩)).wideText =
        some boundless ∧
      (∀ binary ∈ boundless.binaries, binary.ReadsBack) ∧ ofText? boundless.toText = none) ∧
    (ofText? (nestedDocument 42).wideText = some (nested 42) ∧
      (∀ binary ∈ (nested 42).binaries, binary.ReadsBack) ∧
        ofText? (nested 42).toText = none) := by
  constructor
  · have seconds : (⟨false, 1, [], some ⟨none, 39⟩⟩ : Numeral).number?.map Number.toFloat32 =
        some 1e39 := by decide +kernel
    have readsBack : ∀ binary ∈ boundless.binaries, binary.ReadsBack := by decide +kernel
    have infinite : (BinaryNumber.single 1e39).isFinite = false := by decide +kernel
    refine ⟨?_, readsBack, ofText?_toText_eq_none_of_infinite readsBack (.head _) infinite⟩
    exact ofText?_documentOf (nodeOfJson?_delayDocument seconds)
      (inRange_delayDocument seconds) (by decide)
  · have readsBack : ∀ binary ∈ (nested 42).binaries, binary.ReadsBack := by
      rw [binaries_nested]
      exact List.forall_mem_nil _
    refine ⟨?_, readsBack, ofText?_toText_eq_none_of_deep readsBack (nesting_nested 42).ge⟩
    have inRange := inRange_hostDocument (inRange_nestedDocument 41)
    have depth : (hostDocument (nestedDocument 41)).nesting + 2 ≤ Json.nestingLimit := by
      simp [hostDocument, Json.nesting, Json.nestingOfMembers, nesting_nestedDocument,
        Json.nestingLimit]
    exact ofText?_documentOf (nodeOfJson?_hostDocument (ofJson?_nestedDocument 41)) inRange depth

end Graph

end SceneFlow
