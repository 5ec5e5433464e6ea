import InterProcessCourier.TestProto

/-!
# The two decoders

`makeProtoFromPayload` and `makeBaseProtoFromPayload` are separate code for one format. Both cut a
payload at its first delimiter, and as full names have none, every byte string with a delimiter is
`createProtoPayload` of two parts in exactly one way. What the decoders do is said once for each, on
payloads in that form, and the rest follows from it.

## Main results

* `decoders_agree` — what one decoder accepts and rejects, against the other
* `payload_roundTrip` — payloads decode to what they encode, and to nothing else
-/

namespace InterProcessCourier

/-! ### The first delimiter -/

theorem findDelimiter_eq_none_iff {payload : Bytes} :
    findDelimiter payload = none ↔ delimiter ∉ payload := by
  rw [findDelimiter, List.findIdx?_eq_none_iff]
  constructor
  · intro h hmem
    simpa using h delimiter hmem
  · intro h b hb
    simpa using fun hd : b = delimiter => h (hd ▸ hb)

/-- A payload is taken apart in one way. -/
theorem createProtoPayload_inj {name name' data data' : Bytes} (hname : delimiter ∉ name)
    (hname' : delimiter ∉ name')
    (h : createProtoPayload name data = createProtoPayload name' data') :
    name = name' ∧ data = data' := by
  have hlength : name.length = name'.length := by
    have hfound := findDelimiter_createProtoPayload hname data
    rw [h, findDelimiter_createProtoPayload hname' data'] at hfound
    exact (Option.some.inj hfound).symm
  obtain ⟨hsame, hrest⟩ := List.append_inj h hlength
  exact ⟨hsame, (List.cons.inj hrest).2⟩

/-- The decoders cut a payload in front of its first delimiter and behind it. -/
theorem eq_createProtoPayload_of_findDelimiter {payload : Bytes} {pos : ℕ}
    (h : findDelimiter payload = some pos) :
    delimiter ∉ payload.take pos ∧
      payload = createProtoPayload (payload.take pos) (payload.drop (pos + 1)) := by
  obtain ⟨hlt, hat, hbefore⟩ := List.findIdx?_eq_some_iff_getElem.mp h
  constructor
  · intro hmem
    obtain ⟨i, hi, hget⟩ := List.getElem_of_mem hmem
    rw [List.length_take] at hi
    have hno := hbefore i (by omega)
    rw [List.getElem_take] at hget
    simp [hget] at hno
  · have hd : payload[pos] = delimiter := by simpa using hat
    rw [createProtoPayload, ← hd, List.getElem_cons_drop, List.take_append_drop]

/-- A byte string has a delimiter exactly if it is a payload. -/
theorem delimiter_mem_iff {payload : Bytes} :
    delimiter ∈ payload ↔
      ∃ name data, delimiter ∉ name ∧ payload = createProtoPayload name data := by
  constructor
  · intro hmem
    cases h : findDelimiter payload with
    | none => exact absurd hmem (findDelimiter_eq_none_iff.mp h)
    | some pos => exact ⟨_, _, eq_createProtoPayload_of_findDelimiter h⟩
  · rintro ⟨name, data, -, rfl⟩
    simp [createProtoPayload]

section

variable [Protobuf]

/-! ### What the decoders do -/

/-- In front of its first delimiter a payload names the type of a message, and the data behind it
parse as the message. -/
def Carries (payload : Bytes) (msg : BaseProto) : Prop :=
  ∃ data, payload = createProtoPayload (fullName msg.1) data ∧
    parseFromString msg.1 data = some msg.2

variable {T : Descriptor} {name data payload : Bytes}

theorem makeProtoFromPayload_of_notMem (h : delimiter ∉ payload) :
    makeProtoFromPayload T payload =
      .error ⟨.invalidFormat, str "Received message: " ++ shortenPayload payload⟩ := by
  rw [makeProtoFromPayload, findDelimiter_eq_none_iff.mpr h]
  rfl

theorem makeBaseProtoFromPayload_of_notMem (h : delimiter ∉ payload) :
    makeBaseProtoFromPayload payload =
      .error ⟨.invalidFormat, str "Received message: " ++ shortenPayload payload⟩ := by
  rw [makeBaseProtoFromPayload, findDelimiter_eq_none_iff.mpr h]

/-- The typed decoder on a payload. -/
theorem makeProtoFromPayload_createProtoPayload (h : delimiter ∉ name) :
    makeProtoFromPayload T (createProtoPayload name data) =
      if name = fullName T then
        (parseFromString T data).elim (.error ⟨.deserializationFailed, []⟩) .ok
      else .error ⟨.typeMismatch,
        str "Received " ++ name ++ str " but expected " ++ fullName T⟩ := by
  simp only [makeProtoFromPayload, findDelimiter_createProtoPayload h, take_createProtoPayload,
    drop_createProtoPayload]
  by_cases hname : name = fullName T
  · rw [if_neg (not_not.mpr hname), if_pos hname]
    cases parseFromString T data <;> rfl
  · rw [if_pos hname, if_neg hname]

section Lawful

variable [LawfulProtobuf]

/-- The dynamic decoder on a payload that names a type. -/
theorem makeBaseProtoFromPayload_fullName :
    makeBaseProtoFromPayload (createProtoPayload (fullName T) data) =
      (parseFromString T data).elim
        (.error ⟨.deserializationFailed, str "Unable to deserialize as " ++ fullName T ++
          str ". Message: " ++ shortenPayload (createProtoPayload (fullName T) data)⟩)
        fun message => .ok ⟨T, message⟩ := by
  simp only [makeBaseProtoFromPayload,
    findDelimiter_createProtoPayload (LawfulProtobuf.delimiter_not_mem_fullName T),
    take_createProtoPayload, drop_createProtoPayload,
    (LawfulProtobuf.findMessageTypeByName_eq_some (fullName T) T).mpr rfl,
    LawfulProtobuf.getPrototype_eq]
  cases parseFromString T data <;> rfl

/-- The dynamic decoder on a payload that names no type. -/
theorem makeBaseProtoFromPayload_unknown (h : delimiter ∉ name)
    (hname : ∀ T : Descriptor, fullName T ≠ name) :
    makeBaseProtoFromPayload (createProtoPayload name data) = .error ⟨.deserializationFailed,
      str "Description for " ++ name ++ str " not found"⟩ := by
  have hnone : findMessageTypeByName name = none := by
    cases hfound : findMessageTypeByName name with
    | none => rfl
    | some T =>
      exact absurd ((LawfulProtobuf.findMessageTypeByName_eq_some name T).mp hfound) (hname T)
  simp only [makeBaseProtoFromPayload, findDelimiter_createProtoPayload h, take_createProtoPayload,
    hnone]

/-- **What the typed decoder accepts.** -/
theorem makeProtoFromPayload_eq_ok_iff {m : Message T} :
    makeProtoFromPayload T payload = .ok m ↔ Carries payload ⟨T, m⟩ := by
  have hdelimiter := LawfulProtobuf.delimiter_not_mem_fullName T
  constructor
  · intro h
    by_cases hmem : delimiter ∈ payload
    · obtain ⟨name, data, hname, rfl⟩ := delimiter_mem_iff.mp hmem
      rw [makeProtoFromPayload_createProtoPayload hname] at h
      split_ifs at h with htype
      subst htype
      cases hparse : parseFromString T data with
      | none => simp [hparse] at h
      | some message =>
        simp only [hparse, Option.elim_some, Except.ok.injEq] at h
        exact ⟨data, rfl, by rw [hparse, h]⟩
    · rw [makeProtoFromPayload_of_notMem hmem] at h
      cases h
  · rintro ⟨data, rfl, hparse⟩
    rw [makeProtoFromPayload_createProtoPayload hdelimiter, if_pos rfl, hparse]
    rfl

/-- **What the dynamic decoder accepts.** -/
theorem makeBaseProtoFromPayload_eq_ok_iff {m : Message T} :
    makeBaseProtoFromPayload payload = .ok ⟨T, m⟩ ↔ Carries payload ⟨T, m⟩ := by
  constructor
  · intro h
    by_cases hmem : delimiter ∈ payload
    · obtain ⟨name, data, hname, rfl⟩ := delimiter_mem_iff.mp hmem
      by_cases hknown : ∃ T' : Descriptor, fullName T' = name
      · obtain ⟨T', rfl⟩ := hknown
        rw [makeBaseProtoFromPayload_fullName] at h
        cases hparse : parseFromString T' data with
        | none => simp [hparse] at h
        | some message =>
          simp only [hparse, Option.elim_some, Except.ok.injEq, Sigma.mk.injEq] at h
          obtain ⟨rfl, h⟩ := h
          exact ⟨data, rfl, by rw [hparse, eq_of_heq h]⟩
      · rw [makeBaseProtoFromPayload_unknown hname fun T' hT' => hknown ⟨T', hT'⟩] at h
        cases h
    · rw [makeBaseProtoFromPayload_of_notMem hmem] at h
      cases h
  · rintro ⟨data, rfl, hparse⟩
    rw [makeBaseProtoFromPayload_fullName, hparse]
    rfl

/-! ### The two against each other -/

/-- **The decoders agree.** They accept the same payloads of a type, with the same message; both
call a byte string without a delimiter invalid, in the same words, and no other; under the name of
the type both fail to deserialize or neither does; and under any other name the typed decoder
reports a mismatch and the dynamic one gives no message of the type. -/
theorem decoders_agree (T : Descriptor) (payload : Bytes) :
    (∀ m : Message T,
      makeProtoFromPayload T payload = .ok m ↔ makeBaseProtoFromPayload payload = .ok ⟨T, m⟩) ∧
    (∀ text, makeProtoFromPayload T payload = .error ⟨.invalidFormat, text⟩ ↔
      delimiter ∉ payload ∧ text = str "Received message: " ++ shortenPayload payload) ∧
    (∀ text, makeBaseProtoFromPayload payload = .error ⟨.invalidFormat, text⟩ ↔
      delimiter ∉ payload ∧ text = str "Received message: " ++ shortenPayload payload) ∧
    ∀ name data, delimiter ∉ name → payload = createProtoPayload name data →
      (name = fullName T →
        (∃ m, makeProtoFromPayload T payload = .ok m ∧
          makeBaseProtoFromPayload payload = .ok ⟨T, m⟩) ∨
        (∃ text text', makeProtoFromPayload T payload = .error ⟨.deserializationFailed, text⟩ ∧
          makeBaseProtoFromPayload payload = .error ⟨.deserializationFailed, text'⟩)) ∧
      (name ≠ fullName T →
        (∃ text, makeProtoFromPayload T payload = .error ⟨.typeMismatch, text⟩) ∧
        ∀ m : Message T, makeBaseProtoFromPayload payload ≠ .ok ⟨T, m⟩) := by
  refine ⟨fun m => ?_, fun text => ?_, fun text => ?_, fun name data hname hpayload => ⟨?_, ?_⟩⟩
  · rw [makeProtoFromPayload_eq_ok_iff, makeBaseProtoFromPayload_eq_ok_iff]
  · by_cases hmem : delimiter ∈ payload
    · obtain ⟨name, data, hname, rfl⟩ := delimiter_mem_iff.mp hmem
      rw [makeProtoFromPayload_createProtoPayload hname]
      split_ifs
      · cases parseFromString T data <;> simp [hmem]
      · simp [hmem]
    · simp [makeProtoFromPayload_of_notMem hmem, hmem, eq_comm]
  · by_cases hmem : delimiter ∈ payload
    · obtain ⟨name, data, hname, rfl⟩ := delimiter_mem_iff.mp hmem
      by_cases hknown : ∃ T' : Descriptor, fullName T' = name
      · obtain ⟨T', rfl⟩ := hknown
        rw [makeBaseProtoFromPayload_fullName]
        cases parseFromString T' data <;> simp [hmem]
      · rw [makeBaseProtoFromPayload_unknown hname fun T' hT' => hknown ⟨T', hT'⟩]
        simp [hmem]
    · simp [makeBaseProtoFromPayload_of_notMem hmem, hmem, eq_comm]
  · rintro rfl
    rw [hpayload, makeProtoFromPayload_createProtoPayload hname, if_pos rfl,
      makeBaseProtoFromPayload_fullName]
    cases parseFromString T data with
    | none => exact .inr ⟨_, _, rfl, rfl⟩
    | some m => exact .inl ⟨m, rfl, rfl⟩
  · intro hother
    refine ⟨⟨_, by rw [hpayload, makeProtoFromPayload_createProtoPayload hname, if_neg hother]⟩,
      fun m hm => ?_⟩
    obtain ⟨data', hdata', -⟩ := makeBaseProtoFromPayload_eq_ok_iff.mp hm
    rw [hpayload] at hdata'
    have hdelimiter := LawfulProtobuf.delimiter_not_mem_fullName T
    exact hother (createProtoPayload_inj hname hdelimiter hdata').1

/-- **Payloads are unambiguous.** A serialized message comes back from both decoders; a payload
under a name without a delimiter determines the name and the data, so that messages of two types
never have the same payload; and a byte string with a delimiter is the payload of the parts that the
decoders cut it into. -/
theorem payload_roundTrip :
    (∀ (T : Descriptor) (m : Message T), (serializeToString m).isSome →
      makeProtoFromPayload T (makePayloadFromProto m) = .ok m ∧
      makeBaseProtoFromPayload (makePayloadFromProto m) = .ok ⟨T, m⟩) ∧
    (∀ name name' data data', delimiter ∉ name → delimiter ∉ name' →
      createProtoPayload name data = createProtoPayload name' data' → name = name' ∧ data = data') ∧
    (∀ (T T' : Descriptor) (m : Message T) (m' : Message T'), T ≠ T' →
      makePayloadFromProto m ≠ makePayloadFromProto m') ∧
    ∀ payload, delimiter ∈ payload → ∃ pos, findDelimiter payload = some pos ∧
      delimiter ∉ payload.take pos ∧
      payload = createProtoPayload (payload.take pos) (payload.drop (pos + 1)) := by
  refine ⟨fun T m hm => ?_, fun name name' data data' => createProtoPayload_inj, ?_, ?_⟩
  · exact ⟨makeProtoFromPayload_makePayloadFromProto hm,
      makeBaseProtoFromPayload_makePayloadFromProto hm⟩
  · intro T T' m m' hne h
    have hnames := (createProtoPayload_inj (LawfulProtobuf.delimiter_not_mem_fullName T)
      (LawfulProtobuf.delimiter_not_mem_fullName T') h).1
    exact hne (LawfulProtobuf.fullName_injective hnames)
  · intro payload hmem
    cases h : findDelimiter payload with
    | none => exact absurd hmem (findDelimiter_eq_none_iff.mp h)
    | some pos => exact ⟨pos, rfl, eq_createProtoPayload_of_findDelimiter h⟩

end Lawful

end

namespace TestProto

/-- A greeting whose text is full of delimiters, under its own name and under another. -/
theorem decoders_agree_greeting :
    let payload := makePayloadFromProto (T := TestType.helloWorld) { message := str ":a:" }
    makeBaseProtoFromPayload payload = .ok ⟨TestType.helloWorld, { message := str ":a:" }⟩ ∧
    ∃ text, makeProtoFromPayload TestType.empty payload = .error ⟨.typeMismatch, text⟩ :=
  ⟨((decoders_agree TestType.helloWorld _).1 _).mp
      (makeProtoFromPayload_makePayloadFromProto (by decide)),
    (((decoders_agree TestType.empty _).2.2.2 (fullName TestType.helloWorld) _ (by decide) rfl).2
      (by decide)).1⟩

/-- The same greeting comes back. -/
theorem payload_roundTrip_greeting :
    makeProtoFromPayload TestType.helloWorld
      (makePayloadFromProto (T := TestType.helloWorld) { message := str ":a:" }) =
      .ok { message := str ":a:" } :=
  (payload_roundTrip.1 TestType.helloWorld { message := str ":a:" } (by decide)).1

end TestProto

end InterProcessCourier
