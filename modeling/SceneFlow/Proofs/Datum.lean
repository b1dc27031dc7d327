import SceneFlow.Datum
import SceneFlow.Proofs.Json.Document
import SceneFlow.Proofs.Members

/-!
# Free-form data read back

An ordered value is read back from its document as it is, provided its binary numbers are read back
from their decimals.
-/

set_option autoImplicit false

namespace SceneFlow

/-! ## Binary numbers -/

/-- The binary numbers of a document; its whole numbers are written exactly. -/
inductive BinaryNumber where
  | single (value : Float32)
  | double (value : Float) (finite : (Unpacked.ofFloat value).isFinite)

namespace BinaryNumber

def isFinite : BinaryNumber → Bool
  | single value => (Unpacked.ofFloat32 value).isFinite
  | double .. => true

/-- The number is read back from the decimal it is written with. -/
def ReadsBack : BinaryNumber → Prop
  | single value =>
      ∀ numeral, Numeral.ofFloat32? value = some numeral →
        numeral.number?.map Number.toFloat32 = some value
  | double value finite =>
      (Numeral.ofNumber (.real value finite)).number? = some (.real value finite)

deriving instance DecidableEq for Number

instance : DecidablePred ReadsBack
  | single _ =>
      inferInstanceAs (Decidable (∀ numeral ∈ Numeral.ofFloat32? _,
        numeral.number?.map Number.toFloat32 = some _))
  | double .. => inferInstanceAs (Decidable (_ = _))

end BinaryNumber

/-! ## Data -/

namespace Datum

mutual

def binaries : Datum → List BinaryNumber
  | .number (.real value finite) => [.double value finite]
  | .list items => binariesOfItems items
  | .record members => binariesOfMembers members
  | _ => []

def binariesOfItems : List Datum → List BinaryNumber
  | [] => []
  | item :: rest => item.binaries ++ binariesOfItems rest

def binariesOfMembers : List (String × Datum) → List BinaryNumber
  | [] => []
  | (_, value) :: rest => value.binaries ++ binariesOfMembers rest

end

mutual

theorem ofJson?_toJson : ∀ value : Datum, value.Ordered →
    (∀ binary ∈ value.binaries, binary.ReadsBack) → ofJson? value.toJson = some value
  | .null, _, _ | .bool _, _, _ | .text _, _, _ => by rw [toJson, ofJson?]
  | .number (.whole value fits), _, _ => by
      rw [toJson, ofJson?, Numeral.ofNumber, Numeral.number?_ofInt value fits, Option.map_some]
  | .number (.real value finite), _, readsBack => by
      have read : (Numeral.ofNumber (.real value finite)).number? = some (.real value finite) :=
        readsBack (.double value finite) (by simp [binaries])
      rw [toJson, ofJson?, read, Option.map_some]
  | .list items, ordered, readsBack => by
      rw [Ordered] at ordered
      rw [binaries] at readsBack
      rw [toJson, ofJson?, listOfJson?_listToJson items ordered readsBack, Option.map_some]
  | .record members, ordered, readsBack => by
      rw [Ordered] at ordered
      obtain ⟨ascending, ordered⟩ := ordered
      rw [binaries] at readsBack
      have sorted := Members.ofList_entries ⟨members, ascending⟩
      rw [toJson, ofJson?, membersOfJson?_membersToJson members ordered readsBack,
        Option.map_some, sorted]

theorem listOfJson?_listToJson : ∀ items : List Datum, ItemsOrdered items →
    (∀ binary ∈ binariesOfItems items, binary.ReadsBack) →
      listOfJson? (listToJson items) = some items
  | [], _, _ => by rw [listToJson, listOfJson?]
  | item :: rest, ordered, readsBack => by
      rw [ItemsOrdered] at ordered
      rw [binariesOfItems, List.forall_mem_append] at readsBack
      have first := ofJson?_toJson item ordered.1 readsBack.1
      have others := listOfJson?_listToJson rest ordered.2 readsBack.2
      simp [listToJson, listOfJson?, first, others]

theorem membersOfJson?_membersToJson : ∀ members : List (String × Datum),
    MembersOrdered members → (∀ binary ∈ binariesOfMembers members, binary.ReadsBack) →
      membersOfJson? (membersToJson members) = some members
  | [], _, _ => by rw [membersToJson, membersOfJson?]
  | (name, value) :: rest, ordered, readsBack => by
      rw [MembersOrdered] at ordered
      rw [binariesOfMembers, List.forall_mem_append] at readsBack
      have first := ofJson?_toJson value ordered.1 readsBack.1
      have others := membersOfJson?_membersToJson rest ordered.2 readsBack.2
      simp [membersToJson, membersOfJson?, first, others]

end

mutual

/-- What is read as a value has all of its numbers in range. -/
theorem inRange_of_ofJson? : ∀ {document : Json} {value : Datum},
    ofJson? document = some value → document.InRange
  | .null, _, _ | .bool _, _, _ | .string _, _, _ => by simp
  | .number numeral, _, read => by
      obtain ⟨number, known, _⟩ := Option.map_eq_some_iff.mp read
      simp [known]
  | .array items, _, read => by
      obtain ⟨values, known, _⟩ := Option.map_eq_some_iff.mp read
      exact Json.inRange_array.mpr (inRange_of_listOfJson? known)
  | .object members, _, read => by
      obtain ⟨values, known, _⟩ := Option.map_eq_some_iff.mp read
      exact Json.inRange_object.mpr (inRange_of_membersOfJson? known)

theorem inRange_of_listOfJson? : ∀ {documents : List Json} {items : List Datum},
    listOfJson? documents = some items → ∀ document ∈ documents, document.InRange
  | [], _, _ => nofun
  | _ :: _, _, read => by
      obtain ⟨_, first, read⟩ := Option.bind_eq_some_iff.mp read
      obtain ⟨_, others, _⟩ := Option.bind_eq_some_iff.mp read
      exact List.forall_mem_cons.mpr ⟨inRange_of_ofJson? first, inRange_of_listOfJson? others⟩

theorem inRange_of_membersOfJson? : ∀ {documents : List (String × Json)}
    {members : List (String × Datum)}, membersOfJson? documents = some members →
      ∀ member ∈ documents, member.2.InRange
  | [], _, _ => nofun
  | (_, _) :: _, _, read => by
      obtain ⟨_, first, read⟩ := Option.bind_eq_some_iff.mp read
      obtain ⟨_, others, _⟩ := Option.bind_eq_some_iff.mp read
      exact List.forall_mem_cons.mpr ⟨inRange_of_ofJson? first, inRange_of_membersOfJson? others⟩

end

end Datum

namespace OrderedDatum

theorem ofJson?_toJson (value : OrderedDatum)
    (readsBack : ∀ binary ∈ value.datum.binaries, binary.ReadsBack) :
    ofJson? value.toJson = some value := by
  have known := Datum.ofJson?_toJson value.datum value.ordered readsBack
  unfold ofJson? toJson
  split
  next datum read =>
    have same : datum = value.datum := Option.some.inj (read.symm.trans known)
    cases value
    cases same
    rfl
  next unread => exact absurd (unread.symm.trans known) nofun

theorem inRange_toJson (value : OrderedDatum)
    (readsBack : ∀ binary ∈ value.datum.binaries, binary.ReadsBack) : value.toJson.InRange :=
  Datum.inRange_of_ofJson? (Datum.ofJson?_toJson value.datum value.ordered readsBack)

end OrderedDatum

end SceneFlow
