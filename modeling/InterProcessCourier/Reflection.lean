import InterProcessCourier.Attribution

/-!
# Reflected validation

What a client that validates by reflection accepts. Connecting writes the server's pairs over those
that were registered by hand, and later registrations write over the server's: of a request type,
the last registration since the connection counts, then the server's, then the last one before.

## Main results

* `Link.Inv.first_response` — the first response on a connection answers its first request
* `validate_reflected` — the client's validation after a successful `connect`
-/

namespace InterProcessCourier

open Interaction Precedence

/-! ### The first exchange -/

/-- A socket is not connected twice. -/
theorem Orderly.after {t before after : List Io} {c : ℕ} (h : Orderly t)
    (ht : t = before ++ .connected c :: after) : connectionOf after = none := by
  cases hafter : connectionOf after with
  | none => rfl
  | some d =>
    obtain ⟨middle, io, rest, rfl, hio, -⟩ := List.findSome?_eq_some_iff.mp hafter
    cases io with
    | connected d' =>
      have hnone := h.once (before ++ .connected c :: middle) d' rest (by simp [ht])
      simp at hnone
    | wrote bs => cases hio
    | read n bs => cases hio
    | failed op => cases hio

section First

variable {σ : Type} {H : RequestHandler σ} {s₀ : σ} {l : Link σ} {c : ℕ}

/-- The first frame that was taken answers the first frame that was sent. -/
theorem Link.Inv.first_answer (h : l.Inv H s₀) (hc : connectionOf l.trace = some c)
    {payload response : Bytes} (hpayload : payload.length < 2 ^ 32)
    (hresponse : response.length < 2 ^ 32) (hsent : wire.frame payload <+: sentOf l.trace)
    (htaken : wire.frame response <+: takenOf l.trace)
    (hshort : ∀ r ∈ l.server.world.own.responses c, r.length < 2 ^ 32) :
    ∃ state, (H payload state).1 = .ok response := by
  obtain ⟨hown, -⟩ := h.own
  have hresponses : [response] <+: l.server.world.own.responses c :=
    h.responses_isPrefix hc hshort (by simpa using hresponse) (by simpa using htaken)
  obtain ⟨rest, hrest⟩ := hsent
  have hrequests : l.server.world.own.requests c <+: payload :: (wire.deframe rest).1 := by
    have hprefix := h.requests_isPrefix hc
    rwa [← hrest, wire.deframe_frame_append hpayload] at hprefix
  rw [← Own.answers_map_snd] at hresponses
  have hfst := (hown.answers_map_fst c).trans hrequests
  cases hanswers : l.server.world.own.answers c with
  | nil => simp [hanswers] at hresponses
  | cons x xs =>
    rw [hanswers] at hresponses hfst
    obtain rfl : response = x.2 := (List.cons_prefix_cons.mp hresponses).1
    obtain rfl : x.1 = payload := (List.cons_prefix_cons.mp hfst).1
    have hmem : x ∈ l.server.world.own.answers c := by simp [hanswers]
    obtain ⟨k, hk, hresult⟩ := List.mem_filterMap.mp hmem
    refine ⟨k.state, ?_⟩
    cases hok : k.result with
    | error e => simp [hok, Except.toOption] at hresult
    | ok r =>
      obtain rfl : (k.request, r) = x := by simpa [hok, Except.toOption] using hresult
      rw [← hown.results k (List.mem_of_mem_filter hk), hok]

/-- **The first response on a connection answers its first request.** -/
theorem Link.Inv.first_response (h : l.Inv H s₀) {before during after : List Io}
    (htrace : l.trace = before ++ .connected c :: (during ++ after)) {payload response : Bytes}
    (hpayload : payload.length < 2 ^ 32) (hexchange : Exchange payload (.ok response) during)
    (hshort : ∀ r ∈ l.server.world.own.responses c, r.length < 2 ^ 32) :
    ∃ state, (H payload state).1 = .ok response := by
  have hnone : connectionOf before = none := h.orderly.once _ _ _ htrace
  obtain ⟨hsent, htaken⟩ := h.orderly.unused before ⟨_, htrace.symm⟩ hnone
  obtain ⟨hframe, hresponse⟩ := hexchange.taken
  refine h.first_answer (by simp [htrace, hnone]) hpayload hresponse ?_ ?_ hshort
  · rw [htrace]
    simp [hsent, hexchange.sent rfl]
  · rw [htrace]
    simp [htaken, hframe]

end First

section

variable [Protobuf]

/-! ### The server's answer -/

namespace SyncServer

variable {σ : Type}

variable [LawfulProtobuf] {server : SyncServer σ}

theorem requestHandler_reflectionPayload
    (hreflection : server.handlers.lookup (fullName MappingReflectionRequest) = some reflection)
    (state : σ) : server.requestHandler reflectionPayload state =
      (.ok (makePayloadFromProto server.reflectionResponse), state) :=
  requestHandler_of_dispatches (g := reflection) (m := mappingReflectionRequest)
    ⟨makeBaseProtoFromPayload_makePayloadFromProto
      LawfulProtobuf.serialize_mappingReflectionRequest, hreflection⟩ state

end SyncServer

/-! ### The client's pairs -/

/-- The pairs registered by hand. -/
def registrations (os : List Outcome) : List (Bytes × Bytes) :=
  os.filterMap fun o => match o.call with
    | .registerRequestResponsePair RequestType ResponseType =>
      some (fullName RequestType, fullName ResponseType)
    | .connect => none
    | .sendRequest _ _ => none

section Client

variable {client client' : SyncClient} {os os' : List Outcome} {t : List Io}

theorem PerformsAll.of_concat {o : Outcome} (h : PerformsAll client (os ++ [o]) client' t) :
    ∃ client₁ t₁ t₂, PerformsAll client os client₁ t₁ ∧
      Performs client₁ o.call o.result client' t₂ ∧ t = t₁ ++ t₂ := by
  generalize hall : os ++ [o] = all at h
  cases h with
  | nil => simp at hall
  | concat hos hcall =>
    obtain ⟨rfl, ho⟩ := List.append_inj' hall rfl
    obtain rfl := List.singleton_inj.mp ho
    exact ⟨_, _, _, hos, hcall, rfl⟩

theorem PerformsAll.of_append (h : PerformsAll client (os ++ os') client' t) :
    ∃ client₁ t₁ t₂, PerformsAll client os client₁ t₁ ∧ PerformsAll client₁ os' client' t₂ ∧
      t = t₁ ++ t₂ := by
  induction os' using List.reverseRecOn generalizing client' t with
  | nil => exact ⟨client', t, [], by simpa using h, .nil, by simp⟩
  | append_singleton os' o ih =>
    rw [← List.append_assoc] at h
    obtain ⟨client₁, t₁, t₂, hos, hcall, rfl⟩ := h.of_concat
    obtain ⟨client₂, t₃, t₄, hfirst, hsecond, rfl⟩ := ih hos
    exact ⟨client₂, t₃, t₄ ++ t₂, hfirst, hsecond.concat hcall, by simp⟩

/-- A successful `connect` of a client that reflects. -/
theorem Performs.of_connect
    (hreflects : client.clientOptions.validateReqResPairStrategy = .serverReflection)
    (h : Performs client .connect (.ok ()) client' t) :
    ∃ c during response m, t = .connected c :: during ∧
      Exchange reflectionPayload (.ok response) during ∧
      makeProtoFromPayload MappingReflectionResponse response = .ok m ∧
      client' = client.prepared.mergeMappings m := by
  generalize hr : (.ok () : SyncClientResult Unit) = r at h
  cases h with
  | unconnected message => cases hr
  | connected c h => exact absurd hreflects h
  | @reflected c r t h hexchange =>
    cases r with
    | error error => cases hr
    | ok response =>
      cases hparse : makeProtoFromPayload MappingReflectionResponse response with
      | error error => simp [replyOf, hparse, Except.mapError, SyncClient.reflected] at hr
      | ok m =>
        exact ⟨c, t, response, m, rfl, hexchange, hparse,
          by simp [replyOf, hparse, Except.mapError, SyncClient.reflected]⟩

theorem SyncClient.registerRequestResponsePair_of_reflects
    (hreflects : client.clientOptions.validateReqResPairStrategy = .serverReflection)
    (RequestType ResponseType : Descriptor) :
    client.registerRequestResponsePair RequestType ResponseType =
      (.ok true, client.registerValidatedRequestResponsePair (fullName RequestType)
        (fullName ResponseType)) := by
  simp [registerRequestResponsePair, hreflects]

theorem PerformsAll.reflects (h : PerformsAll client os client' t)
    (hreflects : client.clientOptions.validateReqResPairStrategy = .serverReflection) :
    client'.clientOptions.validateReqResPairStrategy = .serverReflection := by
  induction h with
  | nil => exact hreflects
  | concat hos hcall ih =>
    cases hcall with
    | registers RequestType ResponseType =>
      rwa [SyncClient.registerRequestResponsePair_of_reflects ih]
    | unconnected message => exact ih
    | connected c h => exact ih
    | @reflected c r t h hexchange =>
      cases replyOf MappingReflectionResponse r <;> exact ih
    | refused request h => exact ih
    | exchanged request h hexchange => exact ih

/-- Without a new connection, a client that reflects changes by registrations alone, and the last
one counts. -/
theorem PerformsAll.lookup (h : PerformsAll client os client' t)
    (hreflects : client.clientOptions.validateReqResPairStrategy = .serverReflection)
    (hnone : connectionOf t = none) (name : Bytes) :
    client'.requestResponsePairs.lookup name =
      (last (registrations os) name).or (client.requestResponsePairs.lookup name) := by
  induction h with
  | nil => simp [registrations]
  | @concat os call r client₁ client₂ t t' hos hcall ih =>
    rw [connectionOf_append, Option.or_eq_none_iff] at hnone
    have hold := hos.reflects hreflects
    have hsame : registrations (os ++ [⟨call, r⟩]) =
        registrations os ++ registrations [⟨call, r⟩] := List.filterMap_append
    rw [hsame, last_append, Option.or_assoc, ← ih hnone.1]
    cases hcall with
    | registers RequestType ResponseType =>
      rw [SyncClient.registerRequestResponsePair_of_reflects hold]
      simp only [SyncClient.registerValidatedRequestResponsePair, registrations,
        List.filterMap_cons, List.filterMap_nil, last_singleton]
      by_cases hname : fullName RequestType = name
      · simp [hname]
      · simp [hname, AList.lookup_insert_ne (Ne.symm hname)]
    | unconnected message => simp [registrations]
    | connected c h => simp at hnone
    | reflected c h hexchange => simp at hnone
    | refused request h => simp [registrations]
    | exchanged request h hexchange => simp [registrations]

theorem SyncClient.lookup_mergeMappings (client : SyncClient)
    (m : Message MappingReflectionResponse) (name : Bytes) :
    (client.mergeMappings m).requestResponsePairs.lookup name =
      ((mappings m).lookup name).or (client.requestResponsePairs.lookup name) := by
  have hinsert : (fun (pairs : UnorderedMap Bytes) (b : (_ : Bytes) × Bytes) =>
      pairs.insert b.1 b.2) = fun pairs b => put true pairs b.1 b.2 := by
    funext pairs b
    rw [put_true]
  rw [mergeMappings, hinsert, lookup_foldl_put, if_pos rfl]

end Client

variable [LawfulProtobuf] {σ : Type}

/-- **What a client accepts after connecting.** Between any two calls after a successful `connect`
of a fresh client that reflects, a request type is answered by the response type that was last
registered by hand since then; if there is none, by the server's; and if the server has none, by the
one that was last registered by hand before. -/
theorem validate_reflected (strategy : DuplicateRequestResponsePairRegistrationStrategy)
    (h : List (GenericHandler σ))
    (hreflection : (SyncServer.registered strategy h).handlers.lookup
      (fullName MappingReflectionRequest) = some SyncServer.reflection)
    (hserializes : (serializeToString (SyncServer.registered strategy h).reflectionResponse).isSome)
    (s₀ : σ) (options : SyncClientOptions)
    (hreflects : options.validateReqResPairStrategy = .serverReflection) (calls : List ClientCall)
    (es : List (Event Choice LinkAct)) (session : Session)
    (hreturned : (clientRun (SyncServer.registered strategy h).requestHandler s₀
      { clientOptions := options } calls es).rest = .ret session)
    (before after : List Outcome)
    (houtcomes : session.outcomes = before ++ ⟨.connect, .ok ()⟩ :: after)
    (RequestType ResponseType : Descriptor) :
    session.client.validate RequestType ResponseType = .ok () ↔
      (last (registrations after) (fullName RequestType)).or
        (((SyncServer.registered strategy h).requestResponsePairs.lookup (fullName RequestType)).or
          (last (registrations before) (fullName RequestType))) = some (fullName ResponseType) := by
  have hlink := clientRun_inv (SyncServer.registered strategy h).requestHandler s₀
    { clientOptions := options } calls es
  obtain ⟨hown, -⟩ := hlink.own
  have hperformed := (clientRun_session hreturned).performed
  rw [houtcomes, ← List.singleton_append, ← List.append_assoc] at hperformed
  obtain ⟨client₂, t₁₂, t₃, hfirst, hafter, htrace⟩ := hperformed.of_append
  obtain ⟨client₁, t₁, t₂, hbefore, hcall, rfl⟩ := hfirst.of_concat
  obtain ⟨c, during, response, m, rfl, hexchange, hparse, rfl⟩ :=
    hcall.of_connect (hbefore.reflects hreflects)
  rw [List.append_assoc, List.cons_append] at htrace
  -- the response is the server's pairs
  obtain ⟨state, hresponse⟩ := hlink.first_response htrace length_reflectionPayload_lt
    hexchange (length_responses_lt hown c)
  rw [SyncServer.requestHandler_reflectionPayload hreflection] at hresponse
  obtain rfl := Except.ok.inj hresponse
  rw [makeProtoFromPayload_makePayloadFromProto hserializes] at hparse
  obtain rfl := Except.ok.inj hparse
  -- and no other connection is made
  have hnone₁ : connectionOf t₁ = none := hlink.orderly.once _ _ _ htrace
  have hnone₃ : connectionOf t₃ = none := by
    have hnone := hlink.orderly.after htrace
    rw [connectionOf_append, Option.or_eq_none_iff] at hnone
    exact hnone.2
  have hreflects₂ : SyncClientOptions.validateReqResPairStrategy (client₁.prepared.mergeMappings
      (SyncServer.registered strategy h).reflectionResponse).clientOptions = .serverReflection :=
    hbefore.reflects hreflects
  rw [SyncClient.validate_eq_ok_iff (by simp [hafter.reflects hreflects₂]),
    hafter.lookup hreflects₂ hnone₃, SyncClient.lookup_mergeMappings,
    SyncServer.lookup_mappings_reflectionResponse]
  suffices hsame : ∀ name, ((SyncServer.registered strategy h).requestResponsePairs.lookup name).or
      (client₁.prepared.requestResponsePairs.lookup name) =
      ((SyncServer.registered strategy h).requestResponsePairs.lookup name).or
        (last (registrations before) name) by
    rw [hsame]
  intro name
  have hold := hbefore.lookup hreflects hnone₁ name
  by_cases hname : name = fullName MappingReflectionRequest
  · -- the server has the pair that reflection needs
    have hpair : (SyncServer.registered strategy h).requestResponsePairs.lookup name =
        some (fullName MappingReflectionResponse) := by
      rw [SyncServer.registered_eq] at hreflection ⊢
      rw [hname, SyncServer.lookup_requestResponsePairs_eq, hreflection]
      rfl
    rw [hpair]
    rfl
  · rw [SyncClient.prepared, SyncClient.registerValidatedRequestResponsePair,
      AList.lookup_insert_ne hname, hold]
    simp

end

namespace TestProto

/-- A client that validates by reflection, and a server that echoes greetings. -/
abbrev reflectingRun (calls : List ClientCall) (es : List (Event Choice LinkAct)) :
    Config clientSignature Exception Session (Link Unit) :=
  clientRun (SyncServer.registered .silentIgnore [echo]).requestHandler ()
    { clientOptions := { validateReqResPairStrategy := .serverReflection } } calls es

/-- What `connect` gave back. -/
def connects (session : Session) : List (SyncClientResult Unit) :=
  session.outcomes.filterMap fun
    | ⟨.connect, r⟩ => some r
    | _ => none

/-- Whether `connect` succeeded, and these types then pass the validation. -/
def accepted (cfg : Config clientSignature Exception Session (Link Unit))
    (RequestType ResponseType : TestType) : Option (Except Exception (Bool × Bool)) :=
  cfg.rest.result?.map fun r => r.map fun session => (connects session = [.ok ()],
    session.client.validate RequestType ResponseType = .ok ())

/-- The client connects and reflects. -/
def connectRun : List (Event Choice LinkAct) :=
  clientTurns 3 1000 ++ serverTurns 10 ++ clientTurns 2 1000

/-- A registration of a type that the server does not have. -/
def unknownPair : ClientCall := .registerRequestResponsePair TestType.empty TestType.helloWorld

/-- A pair that the server does not have is accepted, whether it was registered before the
connection or after it, and a pair that the server has is refused for one registered after it. -/
theorem not_exact_reflectingRun :
    (SyncServer.registered .silentIgnore [echo]).requestResponsePairs.lookup
      (fullName TestType.empty) = none ∧
    accepted (reflectingRun [unknownPair, .connect] (clientTurns 1 0 ++ connectRun)) .empty
      .helloWorld = some (.ok (true, true)) ∧
    accepted (reflectingRun [.connect, unknownPair] (connectRun ++ clientTurns 1 0)) .empty
      .helloWorld = some (.ok (true, true)) ∧
    (SyncServer.registered .silentIgnore [echo]).requestResponsePairs.lookup
      (fullName TestType.helloWorld) = some (fullName TestType.helloWorld) ∧
    accepted (reflectingRun
      [.connect, .registerRequestResponsePair TestType.helloWorld TestType.empty]
      (connectRun ++ clientTurns 1 0)) .helloWorld .helloWorld = some (.ok (true, false)) := by
  decide +kernel

/-- After connecting, the pair registered since then counts. -/
theorem validate_reflected_reflectingRun :
    ∃ session r, (reflectingRun [.connect, unknownPair] (connectRun ++ clientTurns 1 0)).rest =
      .ret session ∧
      (session.client.validate TestType.empty TestType.helloWorld = .ok () ↔
        (last (registrations [⟨unknownPair, r⟩]) (fullName TestType.empty)).or
          (((SyncServer.registered .silentIgnore [echo]).requestResponsePairs.lookup
            (fullName TestType.empty)).or (last (registrations []) (fullName TestType.empty))) =
          some (fullName TestType.helloWorld)) := by
  have hdone :
      (reflectingRun [.connect, unknownPair] (connectRun ++ clientTurns 1 0)).rest.result?.map
        (fun r => r.map fun session => (connects session, session.todo.length)) =
          some (.ok ([.ok ()], 0)) := by
    decide +kernel
  obtain ⟨session, hrest, hsession⟩ := Program.exists_ret_of_map hdone
  obtain ⟨hconnects, htodo⟩ := Prod.mk.inj hsession
  have hcalls := (clientRun_session hrest).calls
  rw [List.length_eq_zero_iff.mp htodo, List.append_nil] at hcalls
  obtain ⟨⟨call, r₁⟩, os, houtcomes, hfirst, hrest'⟩ := List.map_eq_cons_iff.mp hcalls
  obtain ⟨⟨call', r₂⟩, os', rfl, hsecond, hnil⟩ := List.map_eq_cons_iff.mp hrest'
  cases hfirst
  cases hsecond
  rw [List.map_eq_nil_iff.mp hnil] at houtcomes
  obtain rfl : r₁ = .ok () := by
    rw [connects, houtcomes] at hconnects
    exact (List.cons.inj hconnects).1
  have hreflection : (SyncServer.registered .silentIgnore [echo]).handlers.lookup
      (fullName MappingReflectionRequest) = some SyncServer.reflection := by
    rw [SyncServer.registered_eq]
    exact SyncServer.lookup_handlers_reflection (by decide)
  exact ⟨session, r₂, hrest, validate_reflected .silentIgnore [echo] hreflection (by decide +kernel)
    () _ rfl _ _ session hrest [] _ houtcomes TestType.empty TestType.helloWorld⟩

end TestProto

end InterProcessCourier
