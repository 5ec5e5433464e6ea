import InterProcessCourier.Opening

/-!
# From call to handler and back

A fresh client that validates by reflection, and a server, left to themselves: `connect` succeeds,
and every request is answered by what the handler that is registered for its type returns, or
refused for its types. The registry of the server, whatever history it comes from, is mirrored by
the client's pairs, the two streams stand at the same frame, and so the results of all calls are
those of the handlers, with the handlers' state passed along.

## Main results

* `Answers` — what the requests of a client should come to
* `requests_answered` — the results of all calls, and that there are such
-/

namespace InterProcessCourier

open Interaction Precedence

section

variable [Protobuf] {σ : Type}

/-- What a sequence of requests should come to, by the handlers of the server: the outcomes, the
state of the handlers after them, and the payloads that were sent. -/
inductive Answers (handlerOf : Bytes → Option (GenericHandler σ)) (pairs : UnorderedMap Bytes)
    (s₀ : σ) : List Outcome → σ → List Bytes → Prop
  | nil : Answers handlerOf pairs s₀ [] s₀ []
  | answered {os : List Outcome} {s s' : σ} {ps : List Bytes}
    (h : Answers handlerOf pairs s₀ os s ps) {g : GenericHandler σ}
    (hg : handlerOf g.requestName = some g) (request : Message g.RequestType)
    {response : Message g.ResponseType}
    (hresponse : g.handler request pairs s = (.ok response, s')) :
    Answers handlerOf pairs s₀ (os ++ [⟨.sendRequest g.ResponseType request, .ok response⟩]) s'
      (ps ++ [makePayloadFromProto request])
  | refused {os : List Outcome} {s : σ} {ps : List Bytes} (h : Answers handlerOf pairs s₀ os s ps)
    {RequestType ResponseType : Descriptor} (request : Message RequestType)
    (hrefused : ∀ g, handlerOf (fullName RequestType) = some g → g.ResponseType ≠ ResponseType)
    {error : Error SyncClientError} (herror : error.type = .badRequestToResponsePair) :
    Answers handlerOf pairs s₀ (os ++ [⟨.sendRequest ResponseType request, .error error⟩]) s ps

/-! ### The server's side -/

namespace SyncServer

/-- Every handler answers a message that can be serialized with one that can be. -/
structure Responsive (server : SyncServer σ) : Prop extends server.Reflects where
  pairs : ∀ name, server.requestResponsePairs.lookup name =
    (server.handlers.lookup name).map GenericHandler.responseName
  named : ∀ {name g}, server.handlers.lookup name = some g → g.requestName = name
  returns : ∀ {name g}, server.handlers.lookup name = some g → ∀ m, (serializeToString m).isSome →
    ∀ s, ∃ r s', g.handler m server.requestResponsePairs s = (.ok r, s') ∧
      (serializeToString r).isSome

/-- A server on which handlers were registered, none of them for reflection. -/
theorem responsive_registered (strategy : DuplicateRequestResponsePairRegistrationStrategy)
    (h : List (GenericHandler σ))
    (hreflection : ∀ g ∈ h, g.requestName ≠ fullName MappingReflectionRequest)
    (hserializes : (serializeToString (registered strategy h).reflectionResponse).isSome)
    (hreturns : ∀ g ∈ h, ∀ m, (serializeToString m).isSome → ∀ s, ∃ r,
      (g.handler m (registered strategy h).requestResponsePairs s).1 = .ok r ∧
      (serializeToString r).isSome) : (registered strategy h).Responsive := by
  have heq := registered_eq strategy h
  refine { stored := ?_, serializes := hserializes, pairs := ?_, named := ?_, returns := ?_ }
  · rw [heq]
    exact lookup_handlers_reflection hreflection
  · rw [heq]
    exact lookup_requestResponsePairs_eq _
  · intro name g hg
    rw [heq] at hg
    exact (mem_of_lookup_handlers hg).2
  · intro name g hg m hm s
    rw [heq] at hg
    rcases List.mem_cons.mp (mem_of_lookup_handlers hg).1 with rfl | hmem
    · exact ⟨_, s, rfl, hserializes⟩
    · obtain ⟨r, hr, hserializes'⟩ := hreturns g hmem m hm s
      exact ⟨r, _, Prod.ext hr rfl, hserializes'⟩

variable [LawfulProtobuf] {server : SyncServer σ}

/-- What the server makes of a request for a handler. -/
theorem Responsive.requestHandler_eq (h : server.Responsive) {g : GenericHandler σ}
    (hg : server.handlers.lookup g.requestName = some g) {m : Message g.RequestType}
    (hm : (serializeToString m).isSome) (s : σ) :
    ∃ r s', g.handler m server.requestResponsePairs s = (.ok r, s') ∧ (serializeToString r).isSome ∧
      server.requestHandler (makePayloadFromProto m) s = (.ok (makePayloadFromProto r), s') := by
  obtain ⟨r, s', hr, hserializes⟩ := h.returns hg m hm s
  have hdispatches : server.Dispatches (makePayloadFromProto m) g m :=
    ⟨makeBaseProtoFromPayload_makePayloadFromProto hm, hg⟩
  refine ⟨r, s', hr, hserializes, ?_⟩
  rw [requestHandler_of_dispatches hdispatches, hr]
  rfl

end SyncServer

/-! ### The client's side -/

variable [LawfulProtobuf] {server : SyncServer σ}

/-- A fresh client that has connected accepts the server's pairs. -/
theorem SyncClient.validate_connected (hserver : server.Responsive) {options : SyncClientOptions}
    (hreflects : options.validateReqResPairStrategy = .serverReflection)
    (RequestType ResponseType : Descriptor) :
    (({ clientOptions := options } : SyncClient).connected server).validate RequestType
      ResponseType = .ok () ↔
      (server.handlers.lookup (fullName RequestType)).map GenericHandler.responseName =
        some (fullName ResponseType) := by
  rw [connected, if_pos hreflects, validate_eq_ok_iff (by simp [mergeMappings, prepared,
    registerValidatedRequestResponsePair, hreflects]), lookup_mergeMappings,
    SyncServer.lookup_mappings_reflectionResponse, hserver.pairs]
  by_cases hname : fullName RequestType = fullName MappingReflectionRequest
  · rw [hname, hserver.stored]
    rfl
  · rw [prepared, registerValidatedRequestResponsePair, AList.lookup_insert_ne hname]
    simp

/-- A request that passes the validation is answered. -/
theorem ClientCall.Passes.answered (hserver : server.Responsive) {client : SyncClient}
    (hclient : ∀ R S, client.validate R S = .ok () ↔
      (server.handlers.lookup (fullName R)).map GenericHandler.responseName = some (fullName S))
    {call : ClientCall} {p : Bytes} (h : call.Passes client p) (hcall : call.Serializes) (s : σ) :
    ∃ r, (server.requestHandler p s).1 = .ok r := by
  cases h with
  | mk request hvalid =>
    obtain ⟨g, hg, -⟩ := Option.map_eq_some_iff.mp ((hclient _ _).mp hvalid)
    obtain rfl := LawfulProtobuf.fullName_injective (hserver.named hg)
    obtain ⟨m, s', -, -, hrequest⟩ := hserver.requestHandler_eq hg hcall s
    exact ⟨makePayloadFromProto m, by rw [hrequest]⟩

/-- **The requests come to what they should.** If the server has handled what was exchanged, one
request after another, then the outcomes are those of its handlers. -/
theorem RepliesAll.answers (hserver : server.Responsive) {client client' : SyncClient}
    (hclient : ∀ R S, client.validate R S = .ok () ↔
      (server.handlers.lookup (fullName R)).map GenericHandler.responseName = some (fullName S))
    {os : List Outcome} {xs : List (Bytes × Bytes)} (h : RepliesAll client os client' xs)
    (hos : ∀ o ∈ os, o.call.Serializes) {s s' : σ}
    (hthreaded : callAll (xs.map fun x => server.requestHandler x.1) s =
      (xs.map fun x => .ok x.2, s')) :
    Answers server.handlers.lookup server.requestResponsePairs s os s' (xs.map Prod.fst) := by
  induction h generalizing s' with
  | nil =>
    obtain rfl : s = s' := congrArg Prod.snd hthreaded
    exact .nil
  | @concat os call r client' client'' xs ys hos' hcall ih =>
    have hfirst : ∀ o ∈ os, o.call.Serializes := fun o ho => hos o (by simp [ho])
    have hlast : call.Serializes := hos ⟨call, r⟩ (by simp)
    obtain ⟨rfl, -⟩ := hos'.of_serializes hfirst
    rw [List.map_append, List.map_append] at hthreaded
    obtain ⟨s₁, hxs, hys⟩ := callAll_append_eq hthreaded (by simp)
    have hanswers := ih hfirst hxs
    rw [List.map_append]
    cases hcall with
    | registers RequestType ResponseType => exact hlast.elim
    | connected h => exact hlast.elim
    | reflected response h => exact hlast.elim
    | @refused R S request error hinvalid =>
      obtain rfl : s₁ = s' := congrArg Prod.snd hys
      rw [List.map_nil, List.append_nil]
      refine hanswers.refused request (fun g hg htypes => ?_) (SyncClient.type_of_validate hinvalid)
      have hvalid := (hclient R S).mpr (by rw [hg, Option.map_some, ← htypes])
      rw [hvalid] at hinvalid
      cases hinvalid
    | @replied R S request response hvalid =>
      -- the handler is the one that the client's pair names
      obtain ⟨g, hg, hS⟩ := Option.map_eq_some_iff.mp ((hclient R S).mp hvalid)
      obtain rfl := LawfulProtobuf.fullName_injective (hserver.named hg)
      obtain rfl := LawfulProtobuf.fullName_injective hS
      obtain ⟨m, s₂, hm, hserializes, hrequest⟩ := hserver.requestHandler_eq hg hlast s₁
      have hresult : callAll [server.requestHandler (makePayloadFromProto request)] s₁ =
          ([.ok (makePayloadFromProto m)], s₂) := by
        simp [callAll, hrequest]
      obtain ⟨hresponse, rfl⟩ := Prod.mk.inj (hresult.symm.trans hys)
      obtain rfl : makePayloadFromProto m = response :=
        Except.ok.inj (List.singleton_inj.mp hresponse)
      rw [replyOf_makePayloadFromProto hserializes]
      exact hanswers.answered hg request hm

/-- **Calls are answered by the handlers.** A server on which handlers were registered, none of them
for the reflection request, and a fresh client that reflects, left to themselves, with reads that
are not cut short. Between any two calls, `connect` has succeeded, the requests have come to what
the handlers in effect make of them, and nothing was sent or handled but the reflection request and
the requests that were answered. And all calls return. -/
theorem requests_answered (strategy : DuplicateRequestResponsePairRegistrationStrategy)
    (h : List (GenericHandler σ))
    (hreflection : ∀ g ∈ h, g.requestName ≠ fullName MappingReflectionRequest)
    (hserializes : (serializeToString (SyncServer.registered strategy h).reflectionResponse).isSome)
    (hreturns : ∀ g ∈ h, ∀ m, (serializeToString m).isSome → ∀ s, ∃ r,
      (g.handler m (SyncServer.registered strategy h).requestResponsePairs s).1 = .ok r ∧
      (serializeToString r).isSome)
    (s₀ : σ) (options : SyncClientOptions)
    (hreflects : options.validateReqResPairStrategy = .serverReflection)
    (requests : List ClientCall) (hrequests : ∀ call ∈ requests, call.Serializes)
    (schedule : ℕ → Event Choice LinkAct) (hfair : Fair schedule)
    (hfull : ∀ n, Full (clientRun (SyncServer.registered strategy h).requestHandler s₀
      { clientOptions := options } (.connect :: requests) (upTo schedule n)).world.trace) :
    let server := SyncServer.registered strategy h
    let handlerOf := effective strategy.overrides
      ((SyncServer.reflection :: h).map fun g => (g.requestName, g))
    let run := fun n => clientRun server.requestHandler s₀ { clientOptions := options }
      (.connect :: requests) (upTo schedule n)
    (∀ n session, (run n).rest = .ret session → session.outcomes ≠ [] →
      ∃ os c ps, session.outcomes = ⟨.connect, .ok ()⟩ :: os ∧
        os.map Outcome.call ++ session.todo = requests ∧
        Answers handlerOf server.requestResponsePairs s₀ os
          (run n).world.server.world.own.state ps ∧
        connectionOf (run n).world.trace = some c ∧
        sentOf (run n).world.trace = wire.frames (reflectionPayload :: ps) ∧
        (run n).world.server.world.own.requests c = reflectionPayload :: ps) ∧
    ∃ N, ∀ n ≥ N, ∃ session, (run n).rest = .ret session ∧ session.todo = [] := by
  intro server handlerOf run
  have hserver : server.Responsive :=
    SyncServer.responsive_registered strategy h hreflection hserializes hreturns
  have hhandlerOf : handlerOf = server.handlers.lookup := by
    funext name
    rw [show server = _ from SyncServer.registered_eq strategy h,
      SyncServer.lookup_handlers_ofHistory]
  have hclient := SyncClient.validate_connected hserver hreflects
  set start : Session := { client := { clientOptions := options }, todo := .connect :: requests }
  have hl₀ : (Link.init s₀ : Link σ).Inv server.requestHandler s₀ := .init _ _
  have hstanding : ∀ n, ∃ t, (Link.init s₀).Standing
      (linkRun server.requestHandler start (.init s₀) (upTo schedule n)).world t := fun n =>
    linkRun_standing hserver.toReflects hl₀ ⟨rfl, rfl, rfl⟩ rfl rfl hrequests
      (fun call hcall p hpasses => hpasses.answered hserver hclient (hrequests call hcall))
      (hfair.undisturbed_upTo n) fun t ht => by
        obtain rfl : (run n).world.trace = t := ht
        exact hfull n
  refine ⟨fun n session hrest hmade => ?_, ?_⟩
  · obtain ⟨t, ht⟩ := hstanding n
    have hl := linkRun_inv start hl₀ (upTo schedule n)
    have htrace : (run n).world.trace = t := ht.trace
    have hsince : start.Since (Link.init s₀ : Link σ).trace session (run n).world.trace :=
      linkRun_since hl₀ hrest
    rw [htrace] at hsince
    rcases hl.since_connect hserver.toReflects rfl rfl hsince ⟨[], by rw [ht.trace]; simp⟩
      ht.whole with ⟨rfl, -⟩ | ⟨os, xs, houtcomes, htodo, hconnected, hreplies, hstreams⟩
    · exact absurd rfl hmade
    · rw [SyncClient.opening, if_pos hreflects] at hstreams
      obtain ⟨c, hc⟩ := Option.isSome_iff_exists.mp hconnected
      rw [← htrace] at hc hstreams
      have hshort := length_responses_lt hl.own.1 c
      have hclients : ∀ d ∈ (run n).world.server.world.own.accepted, d = c := fun d hd =>
        Option.some.inj ((ht.calm.connectionOf_of_mem hd).symm.trans hc)
      have hthreaded := hl.threaded_answers hc hclients ht.calm.faults hstreams hshort
      rw [List.map_append, List.map_append] at hthreaded
      obtain ⟨s₁, hreflected, hxs⟩ := callAll_append_eq hthreaded (by simp)
      -- the reflection request leaves the handlers' state
      obtain rfl : s₀ = s₁ := by
        have hstate := congrArg Prod.snd hreflected
        rwa [List.map_singleton, callAll, callAll_nil,
          SyncServer.requestHandler_reflectionPayload hserver.stored] at hstate
      have hos : ∀ o ∈ os, o.call.Serializes := fun o ho => hrequests o.call (by
        rw [← htodo]
        exact List.mem_append_left _ (List.mem_map_of_mem ho))
      refine ⟨os, c, xs.map Prod.fst, houtcomes, htodo, ?_, hc, hstreams.sent,
        (hl.answers_eq hc hstreams hshort).1⟩
      rw [hhandlerOf]
      exact hreplies.answers hserver hclient hos hxs
  · exact eventually_returns hl₀ length_responses_lt (.nil rfl rfl) hfair hstanding

end

namespace TestProto

/-- Client and server by turns. -/
def byTurns (n : ℕ) : Event Choice LinkAct :=
  if n % 2 = 0 then .turn (.transfer 1000) else .act (.server (.transfer 1000))

/-- A client that reflects. -/
def reflecting : SyncClientOptions := { validateReqResPairStrategy := .serverReflection }

/-- A greeting that is answered, and one that would be answered with another type. -/
def greetings : List ClientCall :=
  [@ClientCall.sendRequest _ TestType.helloWorld TestType.helloWorld { message := str "hi" },
    @ClientCall.sendRequest _ TestType.helloWorld TestType.empty { message := str "hi" }]

theorem fair_byTurns : Fair byTurns where
  undisturbed n := by
    rw [byTurns]
    split_ifs
    · exact .client 1000
    · exact .server 1000
  client n := ⟨2 * n, by omega, 1000, if_pos (by omega)⟩
  server n := ⟨2 * n + 1, by omega, 1000, if_neg (by omega)⟩

theorem serializes_greetings : ∀ call ∈ greetings, call.Serializes := by
  intro call hcall
  rcases List.mem_pair.mp hcall with rfl | rfl
  · show (serializeToString (T := TestType.helloWorld) { message := str "hi" }).isSome
    decide
  · show (serializeToString (T := TestType.helloWorld) { message := str "hi" }).isSome
    decide

/-- A client that makes its requests of a server that echoes greetings. -/
abbrev greeted (n : ℕ) : Config clientSignature Exception Session (Link Unit) :=
  clientRun (SyncServer.registered .silentIgnore [echo]).requestHandler ()
    { clientOptions := reflecting } (.connect :: greetings) (upTo byTurns n)

/-- How many calls it has made, and how many are left. -/
abbrev callsOf (cfg : Config clientSignature Exception Session (Link Unit)) :
    Option (Except Exception (ℕ × ℕ)) :=
  cfg.rest.result?.map fun r => r.map fun session => (session.outcomes.length, session.todo.length)

theorem callsOf_greeted : callsOf (greeted 40) = some (.ok (3, 0)) := by
  decide +kernel

/-- Nothing more is read after the last response. -/
theorem full_greeted (n : ℕ) : Full (greeted n).world.trace := by
  have hfull : Full (greeted 40).world.trace := by decide +kernel
  obtain ⟨session, hrest, hcalls⟩ := Program.exists_ret_of_map callsOf_greeted
  rw [greeted, clientRun_eq_linkRun] at hfull hrest ⊢
  exact full_of_returned hrest (List.length_eq_zero_iff.mp (congrArg Prod.snd hcalls)) hfull n

/-- The first greeting is echoed, and the second is refused. -/
theorem requests_answered_greeted :
    ∃ session os ps, (greeted 40).rest = .ret session ∧
      session.outcomes = ⟨.connect, .ok ()⟩ :: os ∧ os.map Outcome.call = greetings ∧
      Answers (effective DuplicateRequestResponsePairRegistrationStrategy.silentIgnore.overrides
          ([SyncServer.reflection, echo].map fun g => (g.requestName, g)))
        (SyncServer.registered .silentIgnore [echo]).requestResponsePairs () os
        (greeted 40).world.server.world.own.state ps ∧
      sentOf (greeted 40).world.trace = wire.frames (reflectionPayload :: ps) := by
  obtain ⟨session, hrest, hcounts⟩ := Program.exists_ret_of_map callsOf_greeted
  have hmade : session.outcomes.length = 3 := congrArg Prod.fst hcounts
  have htodo : session.todo = [] := List.length_eq_zero_iff.mp (congrArg Prod.snd hcounts)
  obtain ⟨hcalls, -⟩ := requests_answered .silentIgnore [echo] (by decide) (by decide +kernel)
    (fun g hg m hm s => by
      obtain rfl := List.mem_singleton.mp hg
      exact ⟨m, rfl, hm⟩) () reflecting rfl greetings
    serializes_greetings byTurns fair_byTurns full_greeted
  obtain ⟨os, c, ps, houtcomes, hos, hanswers, -, hsent, -⟩ := hcalls 40 session hrest
    (List.ne_nil_of_length_pos (by omega))
  rw [htodo, List.append_nil] at hos
  rw [greeted] at hrest ⊢
  beta_reduce at hanswers
  exact ⟨session, os, ps, hrest, houtcomes, hos, hanswers, hsent⟩

end TestProto

end InterProcessCourier
