import InterProcessCourier.Basic

/-!
# Protocol Buffers and the payload codec

Google's library and the code it generates are outside this repository. `Protobuf` is what the
courier calls of it, and `LawfulProtobuf` what the courier relies on: full names identify types,
contain no colon and are what the generated pool is searched by; parsing undoes serialization; and
serialization stops at 2 GiB. Message types, their messages and their encodings stay arbitrary.

A payload is `full_name:data`. Two functions take it apart, `makeProtoFromPayload` into a message
of an expected type and `makeBaseProtoFromPayload` into a message of whatever type it names.
-/

namespace InterProcessCourier

/-! ### Payloads -/

/-- The character between the two parts of a payload. -/
def delimiter : UInt8 := 58

/-- `createProtoPayload`. -/
def createProtoPayload (typeName serializedData : Bytes) : Bytes :=
  typeName ++ delimiter :: serializedData

/-- `shortenPayload`. -/
def shortenPayload (payload : Bytes) : Bytes :=
  if payload.length > 128 then payload.take 128 ++ str "..." else payload

/-- `payload.find(':')`. -/
def findDelimiter (payload : Bytes) : Option ℕ := payload.findIdx? (· == delimiter)

/-- The first delimiter of a payload is the one behind a name that has none. -/
theorem findDelimiter_createProtoPayload {typeName : Bytes} (h : delimiter ∉ typeName)
    (data : Bytes) : findDelimiter (createProtoPayload typeName data) = some typeName.length := by
  rw [findDelimiter, createProtoPayload, List.findIdx?_append]
  have hnone : typeName.findIdx? (· == delimiter) = none := by
    rw [List.findIdx?_eq_none_iff]
    intro b hb
    simpa using fun hd : b = delimiter => h (hd ▸ hb)
  simp [hnone, List.findIdx?_cons]

theorem take_createProtoPayload (typeName data : Bytes) :
    (createProtoPayload typeName data).take typeName.length = typeName := by
  rw [createProtoPayload, List.take_left]

theorem drop_createProtoPayload (typeName data : Bytes) :
    (createProtoPayload typeName data).drop (typeName.length + 1) = data := by
  rw [createProtoPayload, ← List.drop_drop, List.drop_left]
  rfl

/-! ### Protocol Buffers -/

/-- What the library uses of `google::protobuf` and of the generated code. -/
class Protobuf where
  /-- The message types of the generated pool. -/
  Descriptor : Type
  decEq : DecidableEq Descriptor
  /-- The messages of a type. -/
  Message : Descriptor → Type
  /-- `T::descriptor()->full_name()`. -/
  fullName : Descriptor → Bytes
  /-- `message.SerializeToString(&data)`. `none` is a return of `false`, which leaves `data`
  empty. -/
  serializeToString : {T : Descriptor} → Message T → Option Bytes
  /-- `message.ParseFromString(data)` on a fresh message. -/
  parseFromString : (T : Descriptor) → Bytes → Option (Message T)
  /-- `DescriptorPool::generated_pool()->FindMessageTypeByName(name)`. -/
  findMessageTypeByName : Bytes → Option Descriptor
  /-- `MessageFactory::generated_factory()->GetPrototype(descriptor)`, as the type of the messages
  that the prototype's `New()` makes. -/
  getPrototype : Descriptor → Option Descriptor
  /-- `IPCInternal_GetRequestResponseMappingPairsRequest`. -/
  MappingReflectionRequest : Descriptor
  /-- `IPCInternal_GetRequestResponseMappingPairsResponse`. -/
  MappingReflectionResponse : Descriptor
  /-- `MappingReflectionRequest{}`. -/
  mappingReflectionRequest : Message MappingReflectionRequest
  /-- `response.mappings()`. -/
  mappings : Message MappingReflectionResponse → UnorderedMap Bytes
  /-- The response whose `mappings` have been filled through `mutable_mappings()`. -/
  ofMappings : UnorderedMap Bytes → Message MappingReflectionResponse

export Protobuf (Descriptor Message fullName serializeToString parseFromString
  findMessageTypeByName getPrototype MappingReflectionRequest MappingReflectionResponse
  mappingReflectionRequest mappings ofMappings)

variable [Protobuf]

instance : DecidableEq Descriptor := Protobuf.decEq

/-- A `std::unique_ptr<google::protobuf::Message>`: a message and the type its descriptor names. -/
abbrev BaseProto := (T : Descriptor) × Message T

/-- What the library relies on Protocol Buffers for. -/
class LawfulProtobuf [Protobuf] : Prop where
  fullName_injective : Function.Injective (fullName : Descriptor → Bytes)
  delimiter_not_mem_fullName : ∀ T : Descriptor, delimiter ∉ fullName T
  /-- The pool finds every generated type, under its exact full name and no other. -/
  findMessageTypeByName_eq_some : ∀ name (T : Descriptor),
    findMessageTypeByName name = some T ↔ fullName T = name
  getPrototype_eq : ∀ T : Descriptor, getPrototype T = some T
  parse_serialize : ∀ {T : Descriptor} (m : Message T) data,
    serializeToString m = some data → parseFromString T data = some m
  /-- A message of 2 GiB or more is not serialized. -/
  serialize_lt : ∀ {T : Descriptor} (m : Message T) data,
    serializeToString m = some data → data.length < 2 ^ 31
  /-- A full name is part of a file descriptor, itself a message. -/
  fullName_lt : ∀ T : Descriptor, (fullName T).length < 2 ^ 31
  /-- The request that reflection sends is an empty message. -/
  serialize_mappingReflectionRequest : (serializeToString mappingReflectionRequest).isSome
  lookup_mappings_ofMappings : ∀ (m : UnorderedMap Bytes) name,
    (mappings (ofMappings m)).lookup name = m.lookup name

/-! ### The decoders -/

/-- `ProtoPayloadParseError`. -/
inductive ProtoPayloadParseError
  | invalidFormat
  | typeMismatch
  | deserializationFailed
  deriving DecidableEq

/-- `ProtobufToolResult<SuccessType>`. -/
abbrev ProtobufToolResult (SuccessType : Type) := Except (Error ProtoPayloadParseError) SuccessType

/-- `makePayloadFromProto`. The result of `SerializeToString` is not looked at. -/
def makePayloadFromProto {T : Descriptor} (message : Message T) : Bytes :=
  createProtoPayload (fullName T) ((serializeToString message).getD [])

/-- `makeProtoFromPayload<ProtoType>`. -/
def makeProtoFromPayload (ProtoType : Descriptor) (payload : Bytes) :
    ProtobufToolResult (Message ProtoType) :=
  match findDelimiter payload with
  | none =>
    let message := if payload.length > 128 then payload.take 128 ++ str "..." else payload
    .error ⟨.invalidFormat, str "Received message: " ++ message⟩
  | some delimiterPos =>
    let typeName := payload.take delimiterPos
    let serializedData := payload.drop (delimiterPos + 1)
    if typeName ≠ fullName ProtoType then
      .error ⟨.typeMismatch,
        str "Received " ++ typeName ++ str " but expected " ++ fullName ProtoType⟩
    else
      match parseFromString ProtoType serializedData with
      | none => .error ⟨.deserializationFailed, []⟩
      | some message => .ok message

/-- `makeBaseProtoFromPayload`. -/
def makeBaseProtoFromPayload (payload : Bytes) : ProtobufToolResult BaseProto :=
  match findDelimiter payload with
  | none => .error ⟨.invalidFormat, str "Received message: " ++ shortenPayload payload⟩
  | some delimiterPos =>
    let typeName := payload.take delimiterPos
    let serializedData := payload.drop (delimiterPos + 1)
    match findMessageTypeByName typeName with
    | none =>
      .error ⟨.deserializationFailed, str "Description for " ++ typeName ++ str " not found"⟩
    | some descriptor =>
      match getPrototype descriptor with
      | none =>
        .error ⟨.deserializationFailed, str "Unable to generate prototype for " ++ typeName⟩
      | some prototype =>
        match parseFromString prototype serializedData with
        | none =>
          .error ⟨.deserializationFailed, str "Unable to deserialize as " ++ typeName ++
            str ". Message: " ++ shortenPayload payload⟩
        | some msg => .ok ⟨prototype, msg⟩

section Lawful

variable [LawfulProtobuf] {T : Descriptor}

/-- A serialized message is decoded by the typed decoder of its type. -/
theorem makeProtoFromPayload_makePayloadFromProto {m : Message T}
    (h : (serializeToString m).isSome) :
    makeProtoFromPayload T (makePayloadFromProto m) = .ok m := by
  obtain ⟨data, hdata⟩ := Option.isSome_iff_exists.mp h
  simp [makeProtoFromPayload, makePayloadFromProto, hdata,
    findDelimiter_createProtoPayload (LawfulProtobuf.delimiter_not_mem_fullName T),
    take_createProtoPayload, drop_createProtoPayload, LawfulProtobuf.parse_serialize m data hdata]

/-- A serialized message is decoded by the dynamic decoder, at its type. -/
theorem makeBaseProtoFromPayload_makePayloadFromProto {m : Message T}
    (h : (serializeToString m).isSome) :
    makeBaseProtoFromPayload (makePayloadFromProto m) = .ok ⟨T, m⟩ := by
  obtain ⟨data, hdata⟩ := Option.isSome_iff_exists.mp h
  simp [makeBaseProtoFromPayload, makePayloadFromProto, hdata,
    findDelimiter_createProtoPayload (LawfulProtobuf.delimiter_not_mem_fullName T),
    take_createProtoPayload, drop_createProtoPayload,
    (LawfulProtobuf.findMessageTypeByName_eq_some (fullName T) T).mpr rfl,
    LawfulProtobuf.getPrototype_eq, LawfulProtobuf.parse_serialize m data hdata]

/-- The payload of a message fits a frame, whether or not the message could be serialized. -/
theorem length_makePayloadFromProto_lt (m : Message T) :
    (makePayloadFromProto m).length < 2 ^ 32 := by
  have hname := LawfulProtobuf.fullName_lt T
  have hdata : ((serializeToString m).getD []).length < 2 ^ 31 := by
    cases h : serializeToString m with
    | none => simp
    | some data => exact LawfulProtobuf.serialize_lt m data h
  simp only [makePayloadFromProto, createProtoPayload, List.length_append, List.length_cons]
  omega

end Lawful

end InterProcessCourier
