import Mathlib.Logic.Relation
import SceneFlow.Proofs.Graph.Fields
import SceneFlow.Proofs.Graph.Reloading
import SceneFlow.Proofs.Json.Written

/-!
# Edits that leave a graph as it is

The members of graphs, nodes and slots may be written in any order, beside members that their
reader does not know, and without those that say what would stand in their place. A text that is
edited in these ways, as often as one likes and as deep inside of it as graphs nest, is read as the
same graph, or refused like the text was before.

How deep a document nests is the one thing that such edits may change. So what is added or dropped
has to find room between the arrays and objects that a reader opens at once, unless the object that
it stands in found none itself.
-/

set_option autoImplicit false

namespace SceneFlow

namespace Written

/-- The type of a node, by its members. There is no type that needs room to be read. -/
def typeOf? (members : List (Option String × Written)) : Option NodeType :=
  (members.lookup (some "type")).bind fun value =>
    (value.read? 0 .everything).bind NodeType.ofJson?

theorem typeOf?_of_readMembers? {room : Nat} {members : List (Option String × Written)}
    {read : List (String × Json)} (result : readMembers? room .everything members = some read) :
    Graph.typeOf? read = typeOf? members := by
  have noArray : ∀ items : Option (List Json), (items.map .array).bind NodeType.ofJson? = none := by
    intro items
    cases items <;> rfl
  have noObject : ∀ members : Option (List (String × Json)),
      (members.map .object).bind NodeType.ofJson? = none := by
    intro members
    cases members <;> rfl
  rw [Graph.typeOf?, Json.required?, lookup_of_readMembers? result, Option.bind_assoc, typeOf?]
  refine congrArg _ (funext fun value => ?_)
  cases value with
  | array items =>
      simp only [Written.read?, Option.bind_assoc, noArray, Option.bind_fun_none]
  | object members =>
      simp only [Written.read?, Option.bind_assoc, noObject, Option.bind_fun_none]
  | _ => rfl

theorem ne_null_of_read? {value : Written} {room : Nat} {document : Json} (present : value ≠ .null)
    (read : value.read? room .everything = some document) : document ≠ .null := by
  rintro rfl
  cases value with
  | null => exact present rfl
  | bool => cases read
  | number numeral =>
      rw [Written.read?, Json.ofNumeral?] at read
      split at read <;> cases read
  | string text => cases text <;> cases read
  | array items =>
      obtain ⟨_, _, read⟩ := Option.bind_eq_some_iff.mp read
      obtain ⟨_, _, same⟩ := Option.map_eq_some_iff.mp read
      cases same
  | object members =>
      obtain ⟨_, _, read⟩ := Option.bind_eq_some_iff.mp read
      obtain ⟨_, _, same⟩ := Option.map_eq_some_iff.mp read
      cases same

end Written

namespace Graph

/-! ## Parts of a graph's document -/

inductive Part where
  | graph
  | node
  | slot

namespace Part

def Value : Part → Type
  | .graph => Graph
  | .node => Node Graph
  | .slot => ActorSlot

def ofJson? : (part : Part) → Json → Option part.Value
  | .graph => Graph.ofJson?
  | .node => nodeOfJson?
  | .slot => ActorSlot.ofJson?

/-- The names that a reader of the part knows. Those of a node depend on its type. -/
def fieldNames : Part → Option NodeType → List String
  | .graph, _ => Graph.fieldNames
  | .node, none => nodeFieldNames
  | .node, some type => nodeFieldNames ++ NodeKind.fieldNames type
  | .slot, _ => ActorSlot.fieldNames

/-- What may be left out of the part. -/
def Default : Part → Option NodeType → String → Json → Prop
  | .graph, _ => Graph.Default
  | .node, type? => NodeDefault type?
  | .slot, _ => ActorSlot.Default

/-- The outlines along which parts are read: those of nodes and of nested graphs are read in full,
wherever their graph is. -/
inductive Reads : Part → Outline → Prop where
  | everything {part : Part} : Reads part .everything
  | graph : Reads .graph outline
  | slot : Reads .slot (Json.recordOutline ActorSlot.fieldNames)

variable {part : Part} {type? : Option NodeType} {name : String} {value : Json}
  {first second members : List (String × Json)}

theorem ofJson?_congr (agree : Json.AgreeOn (part.fieldNames (typeOf? first)) first second) :
    part.ofJson? (.object first) = part.ofJson? (.object second) := by
  cases part with
  | graph => exact Graph.ofJson?_congr agree
  | slot => exact ActorSlot.ofJson?_congr agree
  | node =>
      refine nodeOfJson?_congr (fun name known => agree name ?_) fun type typed name known =>
        agree name ?_
      · cases typeOf? first with
        | none => exact known
        | some type => exact List.mem_append_left _ known
      · rw [typed]
        exact List.mem_append_right _ known

theorem ofJson?_cons_of_unknown (unknown : name ∉ part.fieldNames (typeOf? members)) :
    part.ofJson? (.object ((name, value) :: members)) = part.ofJson? (.object members) :=
  (ofJson?_congr fun known among => (Json.agreeOn_cons unknown value members known among).symm).symm

theorem ofJson?_cons_of_default (default : part.Default (typeOf? members) name value)
    (absent : name ∉ members.map Prod.fst) :
    part.ofJson? (.object ((name, value) :: members)) = part.ofJson? (.object members) := by
  cases part with
  | graph => exact Graph.ofJson?_cons_of_default default absent
  | node => exact nodeOfJson?_cons_of_default default absent
  | slot => exact ActorSlot.ofJson?_cons_of_default default absent

theorem Default.inRange (default : part.Default type? name value) : value.InRange := by
  cases part with
  | graph =>
      cases default <;> exact Json.inRange_array.mpr (List.forall_mem_nil _)
  | node => exact NodeDefault.inRange default
  | slot => exact ActorSlot.Default.inRange default

namespace Reads

variable {outline : Outline} {room : Nat} {written : List (Option String × Written)}

theorem isRead (reads : part.Reads outline) : outline.isRead = true := by
  cases reads <;> rfl

/-- What the reader of a part goes by when it is done is what stood in the text. -/
theorem typeOf?_eq (reads : part.Reads outline)
    (result : Written.readMembers? room outline written = some members) :
    part.fieldNames (typeOf? members) = part.fieldNames (Written.typeOf? written) ∧
      part.Default (typeOf? members) = part.Default (Written.typeOf? written) := by
  cases reads with
  | everything => rw [Written.typeOf?_of_readMembers? result]; exact ⟨rfl, rfl⟩
  | graph | slot => exact ⟨rfl, rfl⟩

/-- A member that the reader of a part does not know is passed over, or else read in full. -/
theorem member_of_unknown (reads : part.Reads outline) (unknown : name ∉ part.fieldNames type?) :
    outline.member name = .everything ∨ outline.member name = .nothing := by
  cases reads with
  | everything => exact .inl rfl
  | graph =>
      refine .inr ?_
      simp only [Part.fieldNames, Graph.fieldNames, List.mem_cons, List.not_mem_nil, or_false,
        not_or] at unknown
      obtain ⟨noId, noNodes, noSlots⟩ := unknown
      simp [Graph.outline, Outline.member, List.lookup_cons, beq_false_of_ne, noId, noNodes,
        noSlots]
  | slot => exact .inr (Json.recordOutline_member_of_not_mem unknown)

/-- There is no default that its reader would refuse. -/
theorem read?_default (reads : part.Reads outline) (default : part.Default type? name value)
    (fits : value.nesting ≤ room) :
    (Written.ofJson value).read? room (outline.member name) = some value ∧
      (outline.member name).isRead = true := by
  have inFull := Written.read?_ofJson value (Part.Default.inRange default) fits
  cases reads with
  | everything => exact ⟨inFull, rfl⟩
  | slot =>
      rw [Json.recordOutline_member (ActorSlot.Default.mem_fieldNames default)]
      exact ⟨inFull, rfl⟩
  | graph =>
      cases default with
      | nodes => exact ⟨inFull, rfl⟩
      | slots =>
          obtain ⟨room, rfl⟩ := Nat.exists_eq_add_of_le' fits
          exact ⟨rfl, rfl⟩

/-! ### Members -/

theorem read?_permute (reads : part.Reads outline) (distinct : (written.map Prod.fst).Nodup)
    {others : List (Option String × Written)} (same : written.Perm others) :
    ((Written.object written).read? room outline).bind part.ofJson? =
      ((Written.object others).read? room outline).bind part.ofJson? := by
  refine Written.bind_read?_object_congr reads.isRead fun inside _ => ?_
  cases result : Written.readMembers? inside outline written with
  | none =>
      cases other : Written.readMembers? inside outline others with
      | none => rfl
      | some _ =>
          obtain ⟨_, known, _⟩ := Written.exists_perm_of_readMembers? same.symm other
          rw [result] at known
          cases known
  | some members =>
      obtain ⟨others, known, same⟩ := Written.exists_perm_of_readMembers? same result
      have names := Written.names_sublist_of_readMembers? reads.isRead result
      have distinct : (members.map Prod.fst).Nodup := by
        refine List.Nodup.of_map some ?_
        rw [List.map_map]
        exact distinct.sublist names
      rw [known]
      exact ofJson?_congr (Json.agreeOn_of_perm same distinct _)

/-- A member may as well stand in front. -/
theorem read?_middle (reads : part.Reads outline) {member : Option String × Written}
    {front back : List (Option String × Written)}
    (distinct : (member.1 :: (front ++ back).map Prod.fst).Nodup) :
    ((Written.object (front ++ member :: back)).read? room outline).bind part.ofJson? =
      ((Written.object (member :: (front ++ back))).read? room outline).bind part.ofJson? :=
  Eq.symm (reads.read?_permute (show ((member :: (front ++ back)).map Prod.fst).Nodup from distinct)
    List.perm_middle.symm)

theorem read?_cons_of_unknown (reads : part.Reads outline)
    (unknown : name ∉ part.fieldNames (Written.typeOf? written)) (inRange : value.InRange)
    (fits : 0 < room → value.nesting < room) :
    ((Written.object ((some name, .ofJson value) :: written)).read? room outline).bind
        part.ofJson? =
      ((Written.object written).read? room outline).bind part.ofJson? := by
  refine Written.bind_read?_object_congr reads.isRead fun inside opened => ?_
  rw [Written.readMembers?_cons reads.isRead]
  rcases reads.member_of_unknown unknown with inFull | passed
  · rw [inFull, Written.read?_ofJson value inRange (by omega), Option.bind_some, Option.bind_map]
    refine Option.bind_congr fun members result => ?_
    rw [← (reads.typeOf?_eq result).1] at unknown
    exact ofJson?_cons_of_unknown unknown
  · obtain ⟨trace, skipped⟩ := Written.exists_read?_nothing (.ofJson value) inside
    rw [passed, skipped, Option.bind_some, Option.bind_map]
    rfl

theorem read?_cons_of_default (reads : part.Reads outline)
    (default : part.Default (Written.typeOf? written) name value)
    (absent : some name ∉ written.map Prod.fst) (fits : 0 < room → value.nesting < room) :
    ((Written.object ((some name, .ofJson value) :: written)).read? room outline).bind
        part.ofJson? =
      ((Written.object written).read? room outline).bind part.ofJson? := by
  refine Written.bind_read?_object_congr reads.isRead fun inside opened => ?_
  have fits : value.nesting ≤ inside := by omega
  obtain ⟨known, isReadInside⟩ := reads.read?_default default fits
  rw [Written.readMembers?_cons reads.isRead, known, Option.bind_some, Option.bind_map]
  refine Option.bind_congr fun members result => ?_
  have names := Written.names_sublist_of_readMembers? reads.isRead result
  have absent : name ∉ members.map Prod.fst := by
    intro among
    obtain ⟨member, inside, rfl⟩ := List.mem_map.mp among
    exact absent (names.subset (List.mem_map.mpr ⟨member, inside, rfl⟩))
  rw [← (reads.typeOf?_eq result).2] at default
  rw [Function.comp_apply, Json.withMember, if_pos isReadInside]
  exact ofJson?_cons_of_default default absent

end Reads

end Part

/-! ## Edits -/

/-- A part of a document, and the same part with one edit in it or in a part of it. Of the arrays
and objects that a reader opens at once, there is room for so many from the part on. -/
inductive Edit : Part → (room : Nat) → Written → Written → Prop where
  | permute {part : Part} {room : Nat} {members others : List (Option String × Written)}
      (distinct : (members.map Prod.fst).Nodup) (same : members.Perm others) :
      Edit part room (.object members) (.object others)
  | add {part : Part} {room : Nat} (front back : List (Option String × Written)) {name : String}
      {value : Json} (distinct : (some name :: (front ++ back).map Prod.fst).Nodup)
      (unknown : name ∉ part.fieldNames (Written.typeOf? (front ++ back)))
      (inRange : value.InRange) (fits : 0 < room → value.nesting < room) :
      Edit part room (.object (front ++ back))
        (.object (front ++ (some name, .ofJson value) :: back))
  | drop {part : Part} {room : Nat} (front back : List (Option String × Written)) {name : String}
      {value : Json} (distinct : (some name :: (front ++ back).map Prod.fst).Nodup)
      (default : part.Default (Written.typeOf? (front ++ back)) name value)
      (fits : 0 < room → value.nesting < room) :
      Edit part room (.object (front ++ (some name, .ofJson value) :: back))
        (.object (front ++ back))
  | node {room : Nat} (front back : List (Option String × Written)) (before after : List Written)
      {node edited : Written} (distinct : (some "nodes" :: (front ++ back).map Prod.fst).Nodup)
      (inside : Edit .node (room - 2) node edited) :
      Edit .graph room (.object (front ++ (some "nodes", .array (before ++ node :: after)) :: back))
        (.object (front ++ (some "nodes", .array (before ++ edited :: after)) :: back))
  | slot {room : Nat} (front back : List (Option String × Written)) (before after : List Written)
      {slot edited : Written}
      (distinct : (some "actor_slots" :: (front ++ back).map Prod.fst).Nodup)
      (inside : Edit .slot (room - 2) slot edited) :
      Edit .graph room
        (.object (front ++ (some "actor_slots", .array (before ++ slot :: after)) :: back))
        (.object (front ++ (some "actor_slots", .array (before ++ edited :: after)) :: back))
  | graph {room : Nat} (front back : List (Option String × Written)) {graph edited : Written}
      (distinct : (some "graph" :: (front ++ back).map Prod.fst).Nodup)
      (type : Written.typeOf? (front ++ back) = some .subFlow)
      (inside : Edit .graph (room - 1) graph edited) :
      Edit .node room (.object (front ++ (some "graph", graph) :: back))
        (.object (front ++ (some "graph", edited) :: back))
  /-- In a node of a graph that is given field by field in order. -/
  | nodeAt {room : Nat} (id : Written) (rest before after : List Written) {node edited : Written}
      (inside : Edit .node (room - 2) node edited) :
      Edit .graph room (.array (id :: .array (before ++ node :: after) :: rest))
        (.array (id :: .array (before ++ edited :: after) :: rest))
  | slotAt {room : Nat} (id nodes : Written) (rest before after : List Written)
      {slot edited : Written} (inside : Edit .slot (room - 2) slot edited) :
      Edit .graph room (.array (id :: nodes :: .array (before ++ slot :: after) :: rest))
        (.array (id :: nodes :: .array (before ++ edited :: after) :: rest))

namespace Edit

variable {part : Part} {room : Nat} {written edited : Written}

theorem ne_null (edit : Edit part room written edited) : written ≠ .null ∧ edited ≠ .null := by
  cases edit <;> exact ⟨nofun, nofun⟩

end Edit

/-! ## Parts of parts -/

section

variable {outline : Outline} {room : Nat} {item other : Written}

/-- What is made of a list is made of its items. -/
theorem bind_read?_list_congr {α : Type} {list? : Json → Option (List α)} {each : Json → Option α}
    (form : list? ∘ .array = (·.mapM each)) (isRead : outline.isRead = true)
    (leading : outline.leadingItems = [])
    (same : (item.read? (room - 1) outline.furtherItems).bind each =
      (other.read? (room - 1) outline.furtherItems).bind each) (before after : List Written) :
    ((Written.array (before ++ item :: after)).read? room outline).bind list? =
      ((Written.array (before ++ other :: after)).read? room outline).bind list? := by
  refine Written.bind_read?_array_congr isRead fun inside opened => ?_
  subst opened
  rw [form, leading]
  exact Written.bind_readItems?_congr same before after

theorem bind_nestedOfJson? {graph : Written} (present : graph ≠ .null) :
    (graph.read? room .everything).bind nestedOfJson? =
      ((graph.read? room .everything).bind ofJson?).map some := by
  rw [Option.map_bind]
  exact Option.bind_congr fun _ read => nestedOfJson?_eq (Written.ne_null_of_read? present read)

theorem nodesOfJson?_comp_array : nodesOfJson? ∘ .array = (·.mapM nodeOfJson?) := by
  funext items
  rw [Function.comp_apply, nodesOfJson?, nodesOfItems?_eq]

namespace Part.Reads

variable (reads : Part.graph.Reads outline)

include reads

theorem nodes : outline.member "nodes" = .everything := by
  cases reads <;> rfl

theorem nodesAt : outline.leadingItems.tail.headD outline.furtherItems = .everything := by
  cases reads <;> rfl

theorem slots : (outline.member "actor_slots").isRead = true ∧
    (outline.member "actor_slots").leadingItems = [] ∧
      Part.slot.Reads (outline.member "actor_slots").furtherItems := by
  cases reads with
  | everything => exact ⟨rfl, rfl, .everything⟩
  | graph => exact ⟨rfl, rfl, .slot⟩

theorem slotsAt : outline.leadingItems.tail.tail.headD outline.furtherItems =
    outline.member "actor_slots" := by
  cases reads <;> rfl

end Part.Reads

end

namespace Edit

/-- What is made of a part that is read is made of it when it is edited. -/
theorem read?_eq {part : Part} {room : Nat} {written edited : Written}
    (edit : Edit part room written edited) {outline : Outline} (reads : part.Reads outline) :
    (written.read? room outline).bind part.ofJson? =
      (edited.read? room outline).bind part.ofJson? := by
  induction edit generalizing outline with
  | permute distinct same => exact reads.read?_permute distinct same
  | add front back distinct unknown inRange fits =>
      rw [reads.read?_middle distinct, reads.read?_cons_of_unknown unknown inRange fits]
  | drop front back distinct default fits =>
      rw [reads.read?_middle distinct]
      exact reads.read?_cons_of_default default (List.nodup_cons.mp distinct).1 fits
  | @node room front back before after node edited distinct _ ih =>
      rw [reads.read?_middle distinct, reads.read?_middle distinct]
      refine Written.bind_read?_object_congr reads.isRead fun inside opened => ?_
      subst opened
      refine Written.bind_readMembers?_congr reads.isRead (by rw [reads.nodes]; rfl)
        (fun members _ => exists_finish_of_nodes members) ?_
      rw [reads.nodes]
      exact bind_read?_list_congr nodesOfJson?_comp_array rfl rfl (ih .everything) before after
  | @slot room front back before after slot edited distinct _ ih =>
      obtain ⟨isRead, leading, readsSlot⟩ := reads.slots
      rw [reads.read?_middle distinct, reads.read?_middle distinct]
      refine Written.bind_read?_object_congr reads.isRead fun inside opened => ?_
      subst opened
      refine Written.bind_readMembers?_congr reads.isRead isRead
        (fun members _ => exists_finish_of_slots members) ?_
      exact bind_read?_list_congr rfl isRead leading (ih readsSlot) before after
  | @graph room front back graph edited distinct type inside ih =>
      rw [reads.read?_middle distinct, reads.read?_middle distinct]
      cases reads
      refine Written.bind_read?_object_congr rfl fun room opened => ?_
      subst opened
      refine Written.bind_readMembers?_congr rfl rfl (fun members result =>
        exists_finish_of_graph ((Written.typeOf?_of_readMembers? result).trans type)) ?_
      obtain ⟨present, presentEdited⟩ := inside.ne_null
      have same : (graph.read? room .everything).bind ofJson? =
        (edited.read? room .everything).bind ofJson? := ih .everything
      change (graph.read? room .everything).bind nestedOfJson? =
        (edited.read? room .everything).bind nestedOfJson?
      rw [bind_nestedOfJson? present, bind_nestedOfJson? presentEdited, same]
  | @nodeAt room id rest before after node edited _ ih =>
      refine Written.bind_read?_array_congr reads.isRead fun inside opened => ?_
      subst opened
      refine Written.bind_readItems?_tail_congr id fun id => ?_
      refine Written.bind_readItems?_head_congr
        (fun rest => exists_finish_of_nodesAt id rest) ?_ rest
      rw [reads.nodesAt]
      exact bind_read?_list_congr nodesOfJson?_comp_array rfl rfl (ih .everything) before after
  | @slotAt room id nodes rest before after slot edited _ ih =>
      obtain ⟨isRead, leading, readsSlot⟩ := reads.slots
      refine Written.bind_read?_array_congr reads.isRead fun inside opened => ?_
      subst opened
      refine Written.bind_readItems?_tail_congr id fun id => ?_
      refine Written.bind_readItems?_tail_congr nodes fun nodes => ?_
      refine Written.bind_readItems?_head_congr
        (fun rest => exists_finish_of_slotsAt id nodes rest) ?_ rest
      rw [reads.slotsAt]
      exact bind_read?_list_congr rfl isRead leading (ih readsSlot) before after

end Edit

/-- A text may be edited wherever there are graphs, nodes and slots in it, as often as one likes: it
is read as the graph that it was, or refused if it was refused. -/
theorem ofText?_eq_of_edits {text other : String} {written edited : Written}
    (spelled : Token.ofText? text = some written.tokens)
    (respelled : Token.ofText? other = some edited.tokens)
    (edits : Relation.ReflTransGen (Edit .graph Json.nestingLimit) written edited) :
    ofText? text = ofText? other := by
  rw [ofText?, ofText?, Written.ofText?_eq spelled, Written.ofText?_eq respelled]
  clear respelled
  induction edits with
  | refl => rfl
  | tail _ edit same => exact same.trans (edit.read?_eq .graph)

/-- A graph in which a node waits for a second, nested in another. -/
def secondDocument : Json :=
  documentOf (hostDocument (documentOf (delayDocument ⟨false, 1, [], none⟩)))

/-- The node with the nested graph, without the second and in another order. -/
def turnedDocument : Json :=
  .object
    [("graph", documentOf (.object [("id", .string "n"), ("type", .string "Delay")])),
     ("type", .string "SubFlow"), ("id", .string "n")]

def remarkDocument : Json :=
  .object
    [("remark", .array [.null, .string "to be timed"]), ("nodes", .array [turnedDocument]),
     ("id", .string "g")]

/-- A text with an edit of each kind: it drops the second, turns the node around and then the graph,
and adds a remark. -/
theorem remark_is_ignored :
    ofText? secondDocument.wideText = some ⟨"g", [.subFlow "n" ⟨"g", [.delay "n" 1], []⟩], []⟩ ∧
      ofText? secondDocument.wideText = ofText? remarkDocument.wideText := by
  have second : (⟨false, 1, [], none⟩ : Numeral).number?.map Number.toFloat32 = some 1 := by
    decide +kernel
  constructor
  · have read := nodeOfJson?_hostDocument (ofJson?_documentOf (nodeOfJson?_delayDocument second))
    have inRange := inRange_hostDocument (inRange_documentOf (inRange_delayDocument second))
    exact ofText?_documentOf read inRange (by decide)
  · have drop : Edit .graph Json.nestingLimit (.ofJson secondDocument)
        (.ofJson (documentOf (hostDocument (documentOf
          (.object [("id", .string "n"), ("type", .string "Delay")]))))) := by
      refine .node [_] [] [] [] (by decide) (.graph [_, _] [] (by decide) (by decide) ?_)
      refine .node [_] [] [] [] (by decide) ?_
      exact .drop [_, _] [] (by decide) (.own (by rfl) (.seconds second)) (by decide)
    have turnNode : Edit .graph Json.nestingLimit
        (.ofJson (documentOf (hostDocument (documentOf
          (.object [("id", .string "n"), ("type", .string "Delay")])))))
        (.ofJson (documentOf turnedDocument)) :=
      .node [_] [] [] [] (by decide) (.permute (by decide) (List.reverse_perm _).symm)
    have turnGraph : Edit .graph Json.nestingLimit (.ofJson (documentOf turnedDocument))
        (.ofJson (.object [("nodes", .array [turnedDocument]), ("id", .string "g")])) :=
      .permute (by decide) (.swap ..)
    have add : Edit .graph Json.nestingLimit
        (.ofJson (.object [("nodes", .array [turnedDocument]), ("id", .string "g")]))
        (.ofJson remarkDocument) :=
      .add [] _ (by decide) (by decide) (by simp [Json.inRange_array]) (by decide)
    exact ofText?_eq_of_edits (Written.ofText?_wideText _) (Written.ofText?_wideText _)
      ((((Relation.ReflTransGen.single drop).tail turnNode).tail turnGraph).tail add)

/-! ### Texts without room and strings without text -/

/-- A document with so many graphs around it, each in the last one's only node. -/
def hosted (document : Json) : Nat → Json
  | 0 => document
  | depth + 1 => documentOf (hostDocument (hosted document depth))

theorem nestedDocument_eq (depth : Nat) :
    nestedDocument depth = hosted (.object [("id", .string "g")]) depth := by
  induction depth with
  | zero => rfl
  | succ depth ih => rw [nestedDocument, hosted, ih]

theorem nesting_hosted (document : Json) (depth : Nat) :
    (hosted document depth).nesting = document.nesting + 3 * depth := by
  induction depth with
  | zero => rfl
  | succ depth ih =>
      simp [hosted, documentOf, hostDocument, Json.nesting, Json.nestingOfMembers,
        Json.nestingOfItems, ih]
      omega

theorem inRange_hosted {document : Json} (inRange : document.InRange) (depth : Nat) :
    (hosted document depth).InRange := by
  induction depth with
  | zero => exact inRange
  | succ depth ih => exact inRange_documentOf (inRange_hostDocument ih)

theorem edit_hosted {room : Nat} {first second : Json}
    (edit : Edit .graph room (.ofJson first) (.ofJson second)) (depth : Nat) :
    Edit .graph (room + 3 * depth) (.ofJson (hosted first depth))
      (.ofJson (hosted second depth)) := by
  induction depth with
  | zero => exact edit
  | succ depth ih =>
      refine .node [_] [] [] [] (by decide) ?_
      exact .graph [_, _] [] (by decide) (by decide) ih

/-- A graph of one node, which has further members. -/
def annotated (further : List (Option String × Written)) : Written :=
  .object [(some "id", .string (some "g")), (some "nodes", .array [.object
    ((some "id", .string (some "n")) :: (some "type", .string (some "Start")) :: further)])]

/-- The text of an annotated graph. What stands for no text in it is a lone surrogate there. -/
def annotatedText (further : List (Option String × Written)) : String :=
  String.ofList (Json.wideLayout 0 false (annotated further).tokens)

theorem ofText?_annotatedText {further : List (Option String × Written)}
    (apart : Token.Apart (annotated further).tokens) :
    ofText? (annotatedText further) =
      ((annotated further).read? Json.nestingLimit outline).bind ofJson? := by
  rw [ofText?, annotatedText, Written.ofText?_eq (Token.ofText?_wideLayout apart)]

theorem nodeOfJson?_start :
    nodeOfJson? (.object [("id", .string "n"), ("type", .string "Start")]) = some (.start "n") := by
  have type : NodeType.ofName? "Start" = some .start := NodeType.ofName?_name .start
  simp [nodeOfJson?, Json.required?, Json.optional?, List.lookup_cons, NodeType.ofJson?, type,
    Json.once, nodeFieldNames, NodeKind.fieldNames, Json.text?, NodeKind.ofMembers?, Node.start,
    Node.ofKind]

/-- Where graphs nest as deep as a reader follows, the innermost one is read if it does not say that
it has no nodes, and refused if it does. One level more, and it would be the same to the reader. And
a node is read without a remark, which its reader does not know, but refused with one that is a lone
surrogate. -/
theorem edits_need_room_and_text :
    (Edit .graph (Json.nestingLimit + 1)
        (.ofJson (hosted (.object [("id", .string "g"), ("nodes", .array [])]) 42))
        (.ofJson (nestedDocument 42)) ∧
      ofText? (hosted (.object [("id", .string "g"), ("nodes", .array [])]) 42).wideText = none ∧
        ofText? (nestedDocument 42).wideText = some (nested 42)) ∧
    ("remark" ∉ Part.node.fieldNames (some .start) ∧
      ofText? (annotatedText []) = some ⟨"g", [.start "n"], []⟩ ∧
        ofText? (annotatedText [(some "remark", .string none)]) = none) := by
  refine ⟨⟨?_, ?_, ?_⟩, by decide, ?_, ?_⟩
  · have drop : Edit .graph 2 (.ofJson (.object [("id", .string "g"), ("nodes", .array [])]))
        (.ofJson (.object [("id", .string "g")])) :=
      .drop [_] [] (by decide) Default.nodes (by decide)
    rw [nestedDocument_eq]
    exact edit_hosted drop 42
  · have inRange : (Json.object [("id", .string "g"), ("nodes", .array [])]).InRange := by
      simp [Json.inRange_object, Json.inRange_array]
    have readBy := readBy_documentOf (inRange_hostDocument (inRange_hosted inRange 41))
    have deep : Json.nestingLimit <
        (hosted (.object [("id", .string "g"), ("nodes", .array [])]) 42).nesting := by
      rw [nesting_hosted]
      decide
    rw [ofText?, hosted, Json.ofText?_wideText_eq_none thorough_outline readBy deep,
      Option.bind_none]
  · have inRange := inRange_hostDocument (inRange_nestedDocument 41)
    have depth : (hostDocument (nestedDocument 41)).nesting + 2 ≤ Json.nestingLimit := by
      simp [hostDocument, Json.nesting, Json.nestingOfMembers, nesting_nestedDocument,
        Json.nestingLimit]
    exact ofText?_documentOf (nodeOfJson?_hostDocument (ofJson?_nestedDocument 41)) inRange depth
  · rw [ofText?_annotatedText (by unfold Token.Apart; decide)]
    exact ofJson?_documentOf nodeOfJson?_start
  · rw [ofText?_annotatedText (by unfold Token.Apart; decide)]
    rfl

end Graph

end SceneFlow
