import InterProcessCourier.Decoding
import InterProcessCourier.Dialogue
import InterProcessCourier.Peer
import InterProcessCourier.TestProto

/-!
# Validation

A client that validates sends a request only if its map binds the type of the request to the type
the caller expects in return, and it sends nothing else: the request that `connect` makes for
reflection is validated like any other. `requests_validated` says so of every run, whatever is at
the other end; and for a client whose pairs are registered by hand and not overridden, that all
requests of one type expect the same type in return. -/

namespace InterProcessCourier

open Interaction

/-! ### The client's map -/

namespace SyncClient

/-- Pairs are registered by hand, and a name keeps its pair. -/
def Settled (client : SyncClient) : Prop :=
  client.clientOptions.validateReqResPairStrategy = .manualRegistration ∧
    client.clientOptions.duplicateRegistrationStrategy ≠ .silentOverride

/-- What the map of the one binds, the map of the other binds alike. -/
def Extends (client client' : SyncClient) : Prop :=
  ∀ name response, client.requestResponsePairs.lookup name = some response →
    client'.requestResponsePairs.lookup name = some response

theorem Extends.refl (client : SyncClient) : client.Extends client := fun _ _ => id

theorem Extends.trans {client client' client'' : SyncClient} (h : client.Extends client')
    (h' : client'.Extends client'') : client.Extends client'' :=
  fun name response hlookup => h' name response (h name response hlookup)

theorem extends_registerRequestResponsePair [Protobuf] {client : SyncClient}
    (hsettled : client.Settled) (RequestType ResponseType : Descriptor) :
    client.Extends (client.registerRequestResponsePair RequestType ResponseType).2 := by
  obtain ⟨hmanual, hkeeps⟩ := hsettled
  rw [registerRequestResponsePair]
  split_ifs with h
  · rw [registerDuplicateRequestResponsePair, registerDuplicateRequestResponsePair_eq,
      DuplicateRequestResponsePairRegistrationStrategy.overrides_eq_false_iff.mpr hkeeps]
    exact .refl client
  · -- the name is new
    have hnew : client.requestResponsePairs.lookup (fullName RequestType) = none := by
      by_contra hold
      exact h ⟨Option.isSome_iff_ne_none.mpr hold, by simp [hmanual]⟩
    intro name response hlookup
    refine Eq.trans (AList.lookup_insert_ne ?_) hlookup
    rintro rfl
    rw [hnew] at hlookup
    cases hlookup

end SyncClient

/-- An exchange refuses nothing. -/
theorem Exchange.type_ne {payload : Bytes} {error : Error SyncClientError} {t : List Io}
    (h : Exchange payload (.error error) t) : error.type ≠ .badRequestToResponsePair := by
  cases h <;> simp

section

variable [Protobuf]

/-! ### The calls -/

/-- The request that a call sends, and the client as it stands then: `connect` registers the pair of
the reflection request first. -/
inductive ClientCall.Sends (client : SyncClient) : ClientCall → SyncClient →
    {RequestType : Descriptor} → Descriptor → Message RequestType → Prop
  | reflection : Sends client .connect
    (client.registerRequestResponsePair MappingReflectionRequest MappingReflectionResponse).2
    MappingReflectionResponse mappingReflectionRequest
  | request {RequestType : Descriptor} (ResponseType : Descriptor) (request : Message RequestType) :
    Sends client (.sendRequest ResponseType request) client ResponseType request

/-- A request of these types that the validation let pass. -/
inductive Outcome.Passed (RequestType ResponseType : Descriptor) : Outcome → Prop
  | mk (request : Message RequestType) {r : SyncClientResult (Message ResponseType)}
    (h : ∀ error, r = .error error → error.type ≠ .badRequestToResponsePair) :
    Passed RequestType ResponseType ⟨.sendRequest ResponseType request, r⟩

variable {client client' : SyncClient} {t : List Io}

theorem Performs.clientOptions {call : ClientCall} {r : call.Result}
    (h : Performs client call r client' t) : client'.clientOptions = client.clientOptions := by
  cases h with
  | registers RequestType ResponseType =>
    rw [SyncClient.registerRequestResponsePair]
    split_ifs
    · rw [SyncClient.registerDuplicateRequestResponsePair, registerDuplicateRequestResponsePair_eq]
      dsimp only
      split_ifs <;> rfl
    · rfl
  | unconnected message => rfl
  | connected c h => rfl
  | @reflected c r t h hexchange => cases replyOf MappingReflectionResponse r <;> rfl
  | refused request h => rfl
  | exchanged request h hexchange => rfl

theorem Performs.extends {call : ClientCall} {r : call.Result}
    (h : Performs client call r client' t) (hsettled : client.Settled) :
    client.Extends client' := by
  cases h with
  | registers RequestType ResponseType =>
    exact SyncClient.extends_registerRequestResponsePair hsettled RequestType ResponseType
  | unconnected message => exact .refl client
  | connected c h => exact .refl client
  | reflected c h hexchange =>
    rw [hsettled.1] at h
    cases h
  | refused request h => exact .refl client
  | exchanged request h hexchange => exact .refl client

/-- A request that is refused leaves no trace. -/
theorem Performs.refused_iff {RequestType ResponseType : Descriptor} {request : Message RequestType}
    {error : Error SyncClientError}
    (h : Performs client (.sendRequest ResponseType request) (.error error) client' t)
    (hrefused : error.type = .badRequestToResponsePair) : t = [] ∧ client' = client := by
  generalize hr : (Except.error error : SyncClientResult (Message ResponseType)) = r at h
  cases h with
  | refused request h => exact ⟨rfl, rfl⟩
  | @exchanged _ _ request x t h hexchange =>
    rcases replyOf_eq_error hr.symm with rfl | htype
    · exact absurd hrefused hexchange.type_ne
    · rw [htype] at hrefused
      cases hrefused

/-- A request that was not refused is one that the client's map has the pair of. -/
theorem Performs.lookup_of_passed {call : ClientCall} {r : call.Result}
    (h : Performs client call r client' t) {RequestType ResponseType : Descriptor}
    (hvalidates : client.clientOptions.validateReqResPairStrategy ≠ .noValidation)
    (hpassed : Outcome.Passed RequestType ResponseType ⟨call, r⟩) :
    client.requestResponsePairs.lookup (fullName RequestType) = some (fullName ResponseType) := by
  cases hpassed with
  | mk request hpassed =>
    refine (SyncClient.validate_eq_ok_iff hvalidates _ _).mp ?_
    cases h with
    | @refused _ _ _ error hinvalid =>
      exact absurd (SyncClient.type_of_validate hinvalid) (hpassed error rfl)
    | exchanged request hvalid hexchange => exact hvalid

theorem PerformsAll.of_nil (h : PerformsAll client [] client' t) : client' = client ∧ t = [] := by
  generalize hos : ([] : List Outcome) = os at h
  cases h with
  | nil => exact ⟨rfl, rfl⟩
  | concat _ _ => simp at hos

theorem PerformsAll.singleton {call : ClientCall} {r : call.Result}
    (h : PerformsAll client [⟨call, r⟩] client' t) : Performs client call r client' t := by
  generalize hos : [(⟨call, r⟩ : Outcome)] = os at h
  cases h with
  | nil => cases hos
  | @concat os call' r' client₁ _ t t' hos' hcall =>
    rw [← List.nil_append [(⟨call, r⟩ : Outcome)]] at hos
    obtain ⟨rfl, houtcome⟩ := List.append_inj' hos rfl
    cases List.singleton_inj.mp houtcome
    obtain ⟨rfl, rfl⟩ := hos'.of_nil
    exact hcall

theorem PerformsAll.clientOptions {os : List Outcome} (h : PerformsAll client os client' t) :
    client'.clientOptions = client.clientOptions := by
  induction h with
  | nil => rfl
  | concat hos hcall ih => exact hcall.clientOptions.trans ih

theorem PerformsAll.settled {os : List Outcome} (h : PerformsAll client os client' t)
    (hsettled : client.Settled) : client'.Settled := by
  rw [SyncClient.Settled, h.clientOptions]
  exact hsettled

theorem PerformsAll.extends {os : List Outcome} (h : PerformsAll client os client' t)
    (hsettled : client.Settled) : client.Extends client' := by
  induction h with
  | nil => exact .refl client
  | concat hos hcall ih => exact ih.trans (hcall.extends (hos.settled hsettled))

/-- The pairs of all requests so far are still in the map. -/
theorem PerformsAll.lookup_of_passed {os : List Outcome} (h : PerformsAll client os client' t)
    (hsettled : client.Settled) {RequestType ResponseType : Descriptor} :
    ∀ o ∈ os, Outcome.Passed RequestType ResponseType o →
      client'.requestResponsePairs.lookup (fullName RequestType) =
        some (fullName ResponseType) := by
  induction h with
  | nil => nofun
  | @concat os call r client' client'' t t' hos hcall ih =>
    intro o ho hpassed
    have hsettled' := hos.settled hsettled
    refine hcall.extends hsettled' _ _ ?_
    rcases List.mem_append.mp ho with ho | ho
    · exact ih o ho hpassed
    · obtain rfl := List.mem_singleton.mp ho
      exact hcall.lookup_of_passed (by simp [hsettled'.1]) hpassed

/-! ### Runs -/

/-- The application is in a call that sends a request: `sender` is the client as it stands, and
`written` is there of the frame. -/
structure Session.Sending (client : SyncClient) (calls : List ClientCall) (t : List Io)
    (session : Session) (sender : SyncClient) {RequestType : Descriptor} (ResponseType : Descriptor)
    (request : Message RequestType) (written : Bytes) : Prop where
  inside : ∃ call todo t₁ t₂, session.Inv client calls t₁ ∧ session.todo = call :: todo ∧
    call.Sends session.client sender ResponseType request ∧ t = t₁ ++ t₂ ∧ sentOf t₂ = written

/-- The point of a write. -/
theorem Session.AtOp.sending {calls : List ClientCall} {bs : Bytes}
    (h : Session.AtOp client calls (.writeSome bs) t)
    (hvalidates : client.clientOptions.validateReqResPairStrategy ≠ .noValidation) :
    ∃ (session : Session) (sender : SyncClient) (RequestType ResponseType : Descriptor)
      (request : Message RequestType) (written : Bytes),
      session.Sending client calls t sender ResponseType request written ∧
      written ++ bs = wire.frame (makePayloadFromProto request) ∧
      sender.requestResponsePairs.lookup (fullName RequestType) = some (fullName ResponseType) ∧
      (client.Settled → session.client = sender) := by
  obtain ⟨session, call, todo, t₁, t₂, hinv, htodo, hwithin, rfl⟩ := h
  have hoptions := hinv.performed.clientOptions
  generalize hop : ClientOp.writeSome bs = op at hwithin
  cases hwithin with
  | connecting => cases hop
  | @reflecting c op t hreflects hmidway =>
    obtain rfl := hop
    have hprepared : (session.client.registerRequestResponsePair MappingReflectionRequest
        MappingReflectionResponse).2 = session.client.prepared := by
      simp [SyncClient.registerRequestResponsePair, hreflects, SyncClient.prepared]
    refine ⟨session, _, _, _, _, sentOf t,
      ⟨.connect, todo, t₁, _, hinv, htodo, .reflection, rfl, rfl⟩,
      hmidway.writing.1, ?_, fun hsettled => ?_⟩
    · rw [hprepared]
      exact AList.lookup_insert _
    · rw [hoptions, hsettled.1] at hreflects
      cases hreflects
  | @sending _ ResponseType request op t hvalid hmidway =>
    obtain rfl := hop
    refine ⟨session, _, _, _, _, sentOf t₂,
      ⟨_, todo, t₁, _, hinv, htodo, .request ResponseType request, rfl, rfl⟩,
      hmidway.writing.1, ?_, fun _ => rfl⟩
    exact (SyncClient.validate_eq_ok_iff (by rwa [hoptions]) _ _).mp hvalid

variable [LawfulProtobuf]

/-- A message that is returned was the last thing read. -/
theorem Performs.returned {RequestType ResponseType : Descriptor} {request : Message RequestType}
    {m : Message ResponseType}
    (h : Performs client (.sendRequest ResponseType request) (.ok m) client' t) :
    ∃ before response, t = before ++ [.read response.length response] ∧
      Carries response ⟨ResponseType, m⟩ := by
  generalize hr : (Except.ok m : SyncClientResult (Message ResponseType)) = r at h
  cases h with
  | refused request h => cases hr
  | @exchanged _ _ request x t h hexchange =>
    obtain ⟨response, rfl, hparse⟩ := replyOf_eq_ok_iff.mp hr.symm
    cases hexchange with
    | @done ws header _ hframe hheader hresponse =>
      exact ⟨ws.map .wrote ++ [.read payloadLengthHeaderSize header], response, by simp,
        makeProtoFromPayload_eq_ok_iff.mp hparse⟩

/-- **Validation gates every request.** Of a client that validates, whatever its calls are and
whatever its peer does: a frame is only written of a request whose type the client's map binds to
the type expected in return; a request that is refused touches neither the socket nor the map; a
message that is returned was read as a payload of its type. If pairs are registered by hand and not
overridden, the map only grows, and all requests of one type expect the same type in return. -/
theorem requests_validated (client : SyncClient)
    (hvalidates : client.clientOptions.validateReqResPairStrategy ≠ .noValidation)
    (calls : List ClientCall) (answers : List Answer) :
    let cfg := peerRun client calls answers
    (∀ bs k, cfg.rest = .call (.writeSome bs) k →
      ∃ (session : Session) (sender : SyncClient) (RequestType ResponseType : Descriptor)
        (request : Message RequestType) (written : Bytes),
        session.Sending client calls cfg.world sender ResponseType request written ∧
        written ++ bs = wire.frame (makePayloadFromProto request) ∧
        sender.requestResponsePairs.lookup (fullName RequestType) = some (fullName ResponseType) ∧
        (client.Settled → ∀ o ∈ session.outcomes, ∀ ResponseType',
          Outcome.Passed RequestType ResponseType' o → ResponseType' = ResponseType)) ∧
    ∀ session, cfg.rest = .ret session →
      (client.Settled → ∀ o ∈ session.outcomes, ∀ o' ∈ session.outcomes,
        ∀ RequestType ResponseType ResponseType', Outcome.Passed RequestType ResponseType o →
        Outcome.Passed RequestType ResponseType' o' → ResponseType = ResponseType') ∧
      ∀ more session', let later := peerRun client calls (answers ++ more)
        later.rest = .ret session' →
        (client.Settled → session.client.Extends session'.client) ∧
        ∀ (RequestType ResponseType : Descriptor) (request : Message RequestType)
          (r : SyncClientResult (Message ResponseType)),
          session'.outcomes = session.outcomes ++ [⟨.sendRequest ResponseType request, r⟩] →
          (∀ error, r = .error error → error.type = .badRequestToResponsePair →
            later.world = cfg.world ∧ session'.client = session.client) ∧
          ∀ m, r = .ok m → ∃ before response,
            later.world = cfg.world ++ before ++ [.read response.length response] ∧
            Carries response ⟨ResponseType, m⟩ := by
  intro cfg
  have hsame : ∀ {S S' : Descriptor}, some (fullName S) = some (fullName S') → S = S' := fun h =>
    LawfulProtobuf.fullName_injective (Option.some.inj h)
  refine ⟨fun bs k hrest => ?_, fun session hrest => ⟨fun hsettled => ?_, fun more session' => ?_⟩⟩
  · obtain ⟨session, sender, R, S, request, written, hsending, hframe, hlookup, hsender⟩ :=
      (peerRun_atOp hrest).sending hvalidates
    refine ⟨session, sender, R, S, request, written, hsending, hframe, hlookup,
      fun hsettled o ho S' hpassed => ?_⟩
    obtain ⟨call, todo, t₁, t₂, hinv, -⟩ := hsending.inside
    have hlookup' := hinv.performed.lookup_of_passed hsettled o ho hpassed
    rw [hsender hsettled, hlookup] at hlookup'
    exact (hsame hlookup').symm
  · intro o ho o' ho' R S S' hpassed hpassed'
    have hperformed := (peerRun_session hrest).performed
    have hlookup := hperformed.lookup_of_passed hsettled o ho hpassed
    have hlookup' := hperformed.lookup_of_passed hsettled o' ho' hpassed'
    exact hsame (hlookup.symm.trans hlookup')
  · intro later hlater
    have hsince := peerRun_since hrest hlater
    obtain ⟨os, t, houtcomes, hworld, hall, -⟩ := hsince.performed
    constructor
    · intro hsettled
      exact hall.extends ((peerRun_session hrest).performed.settled hsettled)
    · intro R S request r hcall
      rw [houtcomes] at hcall
      obtain rfl := List.append_cancel_left hcall
      have hperforms := hall.singleton
      constructor
      · intro error hr hrefused
        subst hr
        obtain ⟨rfl, hclient⟩ := hperforms.refused_iff hrefused
        exact ⟨by rw [hworld, List.append_nil], hclient⟩
      · intro m hr
        subst hr
        obtain ⟨before, response, rfl, hcarries⟩ := hperforms.returned
        exact ⟨before, response, by rw [hworld, List.append_assoc], hcarries⟩

end

namespace TestProto

/-- A client that knows what a greeting is answered with. -/
def registeredClient : SyncClient where
  clientOptions := { validateReqResPairStrategy := .manualRegistration }
  requestResponsePairs := AList.singleton TestType.helloWorld.fullName TestType.helloWorld.fullName

/-- A greeting that is to be answered with nothing. -/
def mistaken : ClientCall :=
  @ClientCall.sendRequest _ TestType.helloWorld TestType.empty { message := str "hi" }

/-- A request for the wrong type is refused without a word to the peer. -/
theorem requests_validated_mistaken :
    (peerRun registeredClient [.connect, mistaken]
      [.moves 1 [], .moves 1 [], .moves 1 []]).world = [.connected 1] := by
  obtain ⟨-, hcalls⟩ := requests_validated registeredClient (by decide) [.connect, mistaken]
    [.moves 1 [], .moves 1 []]
  obtain ⟨-, hlater⟩ := hcalls ⟨registeredClient, [⟨.connect, .ok ()⟩], [mistaken]⟩ rfl
  obtain ⟨-, hmistaken⟩ := hlater [.moves 1 []] ⟨registeredClient, [⟨.connect, .ok ()⟩,
    ⟨mistaken, .error (registeredClient.badPair TestType.helloWorld.fullName
      TestType.empty.fullName)⟩], []⟩ rfl
  obtain ⟨hrefused, -⟩ := hmistaken TestType.helloWorld TestType.empty { message := str "hi" }
    (.error (registeredClient.badPair TestType.helloWorld.fullName TestType.empty.fullName)) rfl
  exact (hrefused _ rfl rfl).1

end TestProto

end InterProcessCourier
