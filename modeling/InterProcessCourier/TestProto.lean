import InterProcessCourier.ProtoWire
import InterProcessCourier.ProtobufTools

/-!
# The messages of the repository

The two internal messages, the `HelloWorld` of the tests and `google.protobuf.Empty`, encoded as
Protocol Buffers encodes them. They are a model of `Protobuf`, and `LawfulProtobuf` holds of it.

A `proto3` field with its default value is not written, fields of other numbers or wire types are
skipped, and of a field that comes more than once the last counts. An `int32` travels as its
sign-extended 64 bits. Two things are left out of parsing: groups, which `proto3` does not have, are
refused and not skipped, and the bytes of a `string` are not checked to be UTF-8.
-/

namespace InterProcessCourier

open ProtoWire

namespace TestProto

/-- The message types. -/
inductive TestType
  | mappingReflectionRequest
  | mappingReflectionResponse
  | helloWorld
  | empty
  deriving DecidableEq

/-- `ipcourier.test_proto.HelloWorld`. -/
structure HelloWorld where
  /-- `string message = 1`. -/
  message : Bytes := []
  /-- `int32 integer = 2`, as its 32 bits. -/
  integer : UInt32 := 0
  deriving DecidableEq

/-- The messages of a type. -/
abbrev TestType.Message : TestType → Type
  | mappingReflectionRequest => Unit
  | mappingReflectionResponse => UnorderedMap Bytes
  | helloWorld => HelloWorld
  | empty => Unit

/-- `T::descriptor()->full_name()`. -/
def TestType.fullName : TestType → Bytes
  | mappingReflectionRequest =>
    str "ipcourier.internal_request_proto.IPCInternal_GetRequestResponseMappingPairsRequest"
  | mappingReflectionResponse =>
    str "ipcourier.internal_request_proto.IPCInternal_GetRequestResponseMappingPairsResponse"
  | helloWorld => str "ipcourier.test_proto.HelloWorld"
  | empty => str "google.protobuf.Empty"

/-- The types of the pool. -/
def TestType.all : List TestType :=
  [mappingReflectionRequest, mappingReflectionResponse, helloWorld, empty]

/-! ### Fields of messages -/

/-- The last length-delimited field of a number. -/
def bytesField (number : ℕ) (fs : List Field) : Bytes :=
  fs.foldl (fun found f => match f with
    | (n, .bytes bs) => if n = number then bs else found
    | _ => found) []

/-- The last varint field of a number. -/
def varintField (number : ℕ) (fs : List Field) : ℕ :=
  fs.foldl (fun found f => match f with
    | (n, .varint v) => if n = number then v else found
    | _ => found) 0

/-- Thirty-two bits sign-extended to sixty-four. -/
def signExtend (n : UInt32) : ℕ :=
  if n.toNat < 2 ^ 31 then n.toNat else n.toNat + (2 ^ 64 - 2 ^ 32)

/-- The fields of a `HelloWorld` that are written. -/
def HelloWorld.fields (m : HelloWorld) : List Field :=
  (if m.message = [] then [] else [(1, .bytes m.message)]) ++
    if m.integer = 0 then [] else [(2, .varint (signExtend m.integer))]

/-- A `HelloWorld` from its fields. -/
def HelloWorld.ofFields (fs : List Field) : HelloWorld where
  message := bytesField 1 fs
  integer := (varintField 2 fs).toUInt32

/-- An entry of a `map<string, string>`. -/
def entryField (pair : (_ : Bytes) × Bytes) : Field :=
  (1, .bytes (encode [(1, .bytes pair.1), (2, .bytes pair.2)]))

/-- One entry read into the map. -/
def readEntry (found : Option (UnorderedMap Bytes)) (f : Field) : Option (UnorderedMap Bytes) :=
  match f with
  | (1, .bytes bs) => do
    let entries ← found
    let fs ← decode bs
    return entries.insert (bytesField 1 fs) (bytesField 2 fs)
  | _ => found

/-- The fields of a message that are written. -/
def TestType.fields : (T : TestType) → T.Message → List Field
  | mappingReflectionRequest, _ => []
  | mappingReflectionResponse, (m : UnorderedMap Bytes) => m.entries.reverse.map entryField
  | helloWorld, (m : HelloWorld) => m.fields
  | empty, _ => []

/-- A message from its fields. -/
def TestType.ofFields : (T : TestType) → List Field → Option T.Message
  | mappingReflectionRequest, _ => some ()
  | mappingReflectionResponse, fs => fs.foldl readEntry (some ∅)
  | helloWorld, fs => some (HelloWorld.ofFields fs)
  | empty, _ => some ()

/-- `message.SerializeToString(&data)`. -/
def TestType.serialize (T : TestType) (m : T.Message) : Option Bytes :=
  let data := encode (T.fields m)
  if data.length < 2 ^ 31 then some data else none

/-- `message.ParseFromString(data)`. -/
def TestType.parse (T : TestType) (data : Bytes) : Option T.Message := do
  T.ofFields (← decode data)

scoped instance protobuf : Protobuf where
  Descriptor := TestType
  decEq := inferInstance
  Message := TestType.Message
  fullName := TestType.fullName
  serializeToString := TestType.serialize _
  parseFromString := TestType.parse
  findMessageTypeByName name := TestType.all.find? fun T => T.fullName = name
  getPrototype := some
  MappingReflectionRequest := .mappingReflectionRequest
  MappingReflectionResponse := .mappingReflectionResponse
  mappingReflectionRequest := ()
  mappings := id
  ofMappings := id

/-! ### Parsing undoes serializing -/

theorem signExtend_toUInt32 (n : UInt32) : (signExtend n).toUInt32 = n := by
  have hn := n.toNat_lt
  apply UInt32.toNat_inj.mp
  rw [Nat.toUInt32_eq, UInt32.toNat_ofNat', signExtend]
  split_ifs <;> omega

theorem HelloWorld.ofFields_fields (m : HelloWorld) : HelloWorld.ofFields m.fields = m := by
  obtain ⟨message, integer⟩ := m
  by_cases hm : message = [] <;> by_cases hi : integer = 0 <;>
    simp [fields, ofFields, bytesField, varintField, hm, hi, signExtend_toUInt32]

theorem readEntry_entryField {pair : (_ : Bytes) × Bytes}
    (h : (encodeField (entryField pair)).length < 2 ^ 31) (m : UnorderedMap Bytes) :
    readEntry (some m) (entryField pair) = some (m.insert pair.1 pair.2) := by
  have hlength : (encode [(1, .bytes pair.1), (2, .bytes pair.2)]).length < 2 ^ 31 :=
    lt_of_le_of_lt (length_le_encodeField rfl) h
  have hdecode : decode (encode [(1, .bytes pair.1), (2, .bytes pair.2)]) =
      some [(1, .bytes pair.1), (2, .bytes pair.2)] := decode_encode fun f hf => by
    rcases List.mem_pair.mp hf with rfl | rfl
    · exact fits_of_length hf rfl (by simp) (by simp) hlength
    · exact fits_of_length hf rfl (by simp) (by simp) hlength
  simp only [readEntry, entryField, hdecode]
  rfl

/-- The entries of a map, read in the order they are written, are the map. -/
theorem foldl_readEntry (m : UnorderedMap Bytes)
    (h : ∀ pair ∈ m.entries, (encodeField (entryField pair)).length < 2 ^ 31) :
    (m.entries.reverse.map entryField).foldl readEntry (some ∅) = some m := by
  obtain ⟨entries, hnodup⟩ := m
  induction entries with
  | nil => rfl
  | cons pair entries ih =>
    have hrest : entries.NodupKeys := (List.nodupKeys_cons.mp hnodup).2
    have hnew : pair.1 ∉ (⟨entries, hrest⟩ : UnorderedMap Bytes) :=
      (List.nodupKeys_cons.mp hnodup).1
    rw [List.reverse_cons, List.map_append, List.foldl_append,
      ih hrest fun p hp => h p (by simp [hp]), List.map_singleton, List.foldl_cons,
      List.foldl_nil, readEntry_entryField (h pair (by simp))]
    congr 1
    exact AList.ext (AList.entries_insert_of_notMem hnew)

/-- The fields written are read back into the message. -/
theorem TestType.ofFields_fields {T : TestType} {m : T.Message}
    (h : (encode (T.fields m)).length < 2 ^ 31) : T.ofFields (T.fields m) = some m := by
  cases T with
  | mappingReflectionRequest => rfl
  | mappingReflectionResponse =>
    refine foldl_readEntry m fun pair hpair => lt_of_le_of_lt (length_encodeField_le ?_) h
    exact List.mem_map.mpr ⟨pair, by simpa using hpair, rfl⟩
  | helloWorld => exact congrArg some (HelloWorld.ofFields_fields m)
  | empty => rfl

theorem TestType.fits_fields {T : TestType} {m : T.Message}
    (h : (encode (T.fields m)).length < 2 ^ 31) : ∀ f ∈ T.fields m, f.Fits := by
  intro f hf
  cases T with
  | mappingReflectionRequest => simp [fields] at hf
  | mappingReflectionResponse =>
    obtain ⟨pair, -, rfl⟩ := List.mem_map.mp hf
    exact fits_of_length hf rfl (by simp [entryField]) (by simp [entryField]) h
  | helloWorld =>
    simp only [fields, HelloWorld.fields, List.mem_append] at hf
    rcases hf with hmessage | hinteger
    · split_ifs at hmessage
      · simp at hmessage
      · obtain rfl := List.mem_singleton.mp hmessage
        exact fits_of_length (by simp [fields, HelloWorld.fields, *]) rfl (by simp) (by simp) h
    · split_ifs at hinteger
      · simp at hinteger
      · obtain rfl := List.mem_singleton.mp hinteger
        have hn := m.integer.toNat_lt
        refine ⟨by simp, by simp, ?_⟩
        dsimp only [signExtend]
        split_ifs <;> omega
  | empty => simp [fields] at hf

theorem TestType.parse_serialize {T : TestType} (m : T.Message) {data : Bytes}
    (h : T.serialize m = some data) : T.parse data = some m := by
  rw [serialize] at h
  split_ifs at h with hlength
  rw [← Option.some.inj h, parse, decode_encode (fits_fields hlength)]
  exact ofFields_fields hlength

theorem TestType.find?_eq_some (name : Bytes) (T : TestType) :
    (TestType.all.find? fun T => T.fullName = name) = some T ↔ T.fullName = name := by
  refine ⟨fun h => by simpa using List.find?_some h, ?_⟩
  rintro rfl
  cases T <;> decide

/-- A text of two gibibytes cannot be serialized. -/
theorem HelloWorld.serialize_eq_none {m : HelloWorld} (h : 2 ^ 31 ≤ m.message.length) :
    TestType.helloWorld.serialize m = none := by
  have hne : m.message ≠ [] := by
    intro hnil
    simp [hnil] at h
  have hmem : ((1, .bytes m.message) : Field) ∈ m.fields := by simp [fields, hne]
  have hfield : m.message.length ≤ (encodeField (1, .bytes m.message)).length :=
    length_le_encodeField rfl
  exact if_neg (not_lt.mpr (h.trans (hfield.trans (length_encodeField_le hmem))))

scoped instance lawful : LawfulProtobuf where
  fullName_injective T T' h := by
    revert h
    cases T <;> cases T' <;> decide
  delimiter_not_mem_fullName T := by cases T <;> decide
  findMessageTypeByName_eq_some := TestType.find?_eq_some
  getPrototype_eq _ := rfl
  parse_serialize m _ := TestType.parse_serialize m
  serialize_lt {T} m data h := by
    change T.serialize m = some data at h
    rw [TestType.serialize] at h
    split_ifs at h with hlength
    exact Option.some.inj h ▸ hlength
  fullName_lt T := by cases T <;> decide
  serialize_mappingReflectionRequest := by decide
  lookup_mappings_ofMappings _ _ := rfl

end TestProto

end InterProcessCourier
