import InterProcessCourier.Exchange

/-!
# A client's calls

An application that makes calls on one client, one after another: the thread of `clientRun`. What a
call does is a relation, `Performs`, between the client before it, its result, the client after it
and the history of the socket; `PerformsAll` is a sequence of calls. `Within` lists the points at
which the thread can stand inside a call.

## Main results

* `triple_perform` — the code of every call does what `Performs` says
* `clientRun_safe` — every run, at every moment, is in the course of such a sequence
-/

namespace InterProcessCourier

open Interaction

variable [Protobuf]

/-! ### Calls -/

/-- A call of a member function of the client. -/
inductive ClientCall
  | registerRequestResponsePair (RequestType ResponseType : Descriptor)
  | connect
  | sendRequest {RequestType : Descriptor} (ResponseType : Descriptor)
    (request : Message RequestType)

namespace ClientCall

/-- What a call gives back. -/
@[reducible] def Result : ClientCall → Type
  | registerRequestResponsePair _ _ => Except Exception Bool
  | connect => SyncClientResult Unit
  | sendRequest ResponseType _ => SyncClientResult (Message ResponseType)

/-- The call, by an application that goes on after an exception. -/
def perform (client : SyncClient) : (call : ClientCall) → ClientCode (call.Result × SyncClient)
  | registerRequestResponsePair RequestType ResponseType =>
    return client.registerRequestResponsePair RequestType ResponseType
  | connect => client.connect
  | sendRequest ResponseType request => do
    return (← client.sendRequest ResponseType request, client)

end ClientCall

/-- A call and what it gave back. -/
structure Outcome where
  call : ClientCall
  result : call.Result

/-- An application between two calls. -/
structure Session where
  client : SyncClient
  /-- The calls made, oldest first. -/
  outcomes : List Outcome := []
  /-- The calls to be made. -/
  todo : List ClientCall

/-- The next call. -/
def Session.next (session : Session) : Option (ClientCode Session) :=
  match session.todo with
  | [] => none
  | call :: todo => some do
    let (result, client) ← call.perform session.client
    return ⟨client, session.outcomes ++ [⟨call, result⟩], todo⟩

/-- The application's thread with the server's thread and other clients, after some events. -/
def clientRun {σ : Type} (H : RequestHandler σ) (s₀ : σ) (client : SyncClient)
    (calls : List ClientCall) (es : List (Event Choice LinkAct)) :
    Config clientSignature Exception Session (Link σ) :=
  (linkKernel H).run Session.next ⟨.ret { client, todo := calls }, .init s₀⟩ es

section Run

variable {σ : Type} (H : RequestHandler σ) (s₀ : σ) (client : SyncClient) (calls : List ClientCall)

theorem clientRun_append (es fs : List (Event Choice LinkAct)) :
    clientRun H s₀ client calls (es ++ fs) =
      (linkKernel H).run Session.next (clientRun H s₀ client calls es) fs :=
  Kernel.run_append ..

/-- What was handled stays on record. -/
theorem calls_clientRun (es fs : List (Event Choice LinkAct)) :
    (clientRun H s₀ client calls es).world.server.world.own.calls <+:
      (clientRun H s₀ client calls (es ++ fs)).world.server.world.own.calls := by
  rw [clientRun_append]
  refine Kernel.run_keeps (K := linkKernel H) (P := fun l : Link σ =>
    (clientRun H s₀ client calls es).world.server.world.own.calls <+: l.server.world.own.calls)
    ?_ ?_ List.prefix_rfl fs
  · intro op choice l r l' hp h
    rwa [own_linkTurn hp]
  · intro a l h
    rcases a.apply_server (H := H) l with hsame | ⟨e, hstep⟩
    · rwa [show (linkKernel H).act a l = l from hsame]
    · rw [show (linkKernel H).act a l = l.step H e from hstep]
      exact h.trans (calls_step l e)

/-- If every operation fails, the program comes to its end. -/
theorem linkRun_failing (p : ClientCode Session) (l : Link σ) :
    ∃ fs, ∃ ops : List ClientOp, ((linkKernel H).run Session.next ⟨p, l⟩ fs).rest.result?.isSome ∧
      ((linkKernel H).run Session.next ⟨p, l⟩ fs).world.trace = l.trace ++ ops.map .failed := by
  induction p generalizing l with
  | ret a => exact ⟨[], [], rfl, by simp⟩
  | raise e => exact ⟨[], [], rfl, by simp⟩
  | call op k ih =>
    obtain ⟨fs, ops, hrest, htrace⟩ :=
      ih (.error (systemFailure .brokenPipe [])) (l.log (.failed op))
    have hstep : (linkKernel H).step Session.next ⟨.call op k, l⟩ (.turn (.fail .brokenPipe [])) =
        ⟨k (.error (systemFailure .brokenPipe [])), l.log (.failed op)⟩ :=
      Kernel.step_call (linkTurn_fail op .brokenPipe [] l)
    refine ⟨.turn (.fail .brokenPipe []) :: fs, op :: ops, ?_, ?_⟩
    · rwa [Kernel.run_cons, hstep]
    · rw [Kernel.run_cons, hstep, htrace, Link.log_trace, List.append_assoc]
      rfl

end Run

/-! ### What a call does -/

/-- What `sendRequest` makes of the result of `sendAndReceiveMessage`. -/
def replyOf (ResponseType : Descriptor) :
    SyncClientResult Bytes → SyncClientResult (Message ResponseType)
  | .error error => .error error
  | .ok response =>
    (makeProtoFromPayload ResponseType response).mapError fun error =>
      ⟨.unableToParseReturnedProto, error.message⟩

section Reply

variable {ResponseType : Descriptor} {r : SyncClientResult Bytes}

theorem replyOf_eq_ok_iff {m : Message ResponseType} : replyOf ResponseType r = .ok m ↔
    ∃ response, r = .ok response ∧ makeProtoFromPayload ResponseType response = .ok m := by
  cases r with
  | error error => simp [replyOf]
  | ok response =>
    cases hparse : makeProtoFromPayload ResponseType response <;>
      simp [replyOf, hparse, Except.mapError]

theorem replyOf_eq_error {error : Error SyncClientError}
    (h : replyOf ResponseType r = .error error) :
    r = .error error ∨ error.type = .unableToParseReturnedProto := by
  cases r with
  | error error' => exact .inl (congrArg Except.error (Except.error.inj h))
  | ok response =>
    right
    cases hparse : makeProtoFromPayload ResponseType response with
    | error error' =>
      simp only [replyOf, hparse, Except.mapError] at h
      rw [← Except.error.inj h]
    | ok m => simp [replyOf, hparse, Except.mapError] at h

end Reply

namespace SyncClient

/-- The client with the pair that reflection needs. -/
def prepared (client : SyncClient) : SyncClient :=
  client.registerValidatedRequestResponsePair (fullName MappingReflectionRequest)
    (fullName MappingReflectionResponse)

/-- What the validation checks. -/
theorem validate_eq_ok_iff {client : SyncClient}
    (hvalidates : client.clientOptions.validateReqResPairStrategy ≠ .noValidation)
    (RequestType ResponseType : Descriptor) :
    client.validate RequestType ResponseType = .ok () ↔
      client.requestResponsePairs.lookup (fullName RequestType) = some (fullName ResponseType) := by
  rw [validate]
  split_ifs with h
  · simpa using h.2
  · exact iff_of_true rfl (not_not.mp fun hne => h ⟨hvalidates, hne⟩)

/-- With its pair registered, the reflection request passes the validation. -/
theorem validate_prepared (client : SyncClient) :
    client.prepared.validate MappingReflectionRequest MappingReflectionResponse = .ok () := by
  simp [validate, prepared, registerValidatedRequestResponsePair]

/-- What `connect` makes of the reply to the reflection request. -/
def reflected (client : SyncClient) :
    SyncClientResult (Message MappingReflectionResponse) → SyncClientResult Unit × SyncClient
  | .error error => (.error ⟨.unableToReflectMappings, error.message⟩, client.prepared)
  | .ok response => (.ok (), client.prepared.mergeMappings response)

end SyncClient

/-- The reflection request as it travels. -/
def reflectionPayload : Bytes := makePayloadFromProto mappingReflectionRequest

theorem length_reflectionPayload_lt [LawfulProtobuf] : reflectionPayload.length < 2 ^ 32 :=
  length_makePayloadFromProto_lt _

/-- What a call gives back, what it leaves of the client, and what happens at the socket. -/
inductive Performs (client : SyncClient) :
    (call : ClientCall) → call.Result → SyncClient → List Io → Prop
  | registers (RequestType ResponseType : Descriptor) :
    Performs client (.registerRequestResponsePair RequestType ResponseType)
      (client.registerRequestResponsePair RequestType ResponseType).1
      (client.registerRequestResponsePair RequestType ResponseType).2 []
  | unconnected (message : Bytes) :
    Performs client .connect (.error ⟨.unableToConnectToServer, message⟩) client [.failed .connect]
  | connected (c : ℕ)
    (h : client.clientOptions.validateReqResPairStrategy ≠ .serverReflection) :
    Performs client .connect (.ok ()) client [.connected c]
  | reflected (c : ℕ) {r : SyncClientResult Bytes} {t : List Io}
    (h : client.clientOptions.validateReqResPairStrategy = .serverReflection)
    (hexchange : Exchange reflectionPayload r t) :
    Performs client .connect (client.reflected (replyOf MappingReflectionResponse r)).1
      (client.reflected (replyOf MappingReflectionResponse r)).2 (.connected c :: t)
  | refused {RequestType ResponseType : Descriptor} (request : Message RequestType)
    {error : Error SyncClientError} (h : client.validate RequestType ResponseType = .error error) :
    Performs client (.sendRequest ResponseType request) (.error error) client []
  | exchanged {RequestType ResponseType : Descriptor} (request : Message RequestType)
    {r : SyncClientResult Bytes} {t : List Io}
    (h : client.validate RequestType ResponseType = .ok ())
    (hexchange : Exchange (makePayloadFromProto request) r t) :
    Performs client (.sendRequest ResponseType request) (replyOf ResponseType r) client t

/-- The points at which the thread can stand inside a call. -/
inductive Within (client : SyncClient) : ClientCall → ClientOp → List Io → Prop
  | connecting : Within client .connect .connect []
  | reflecting (c : ℕ) {op : ClientOp} {t : List Io}
    (h : client.clientOptions.validateReqResPairStrategy = .serverReflection)
    (hmidway : Midway reflectionPayload op t) : Within client .connect op (.connected c :: t)
  | sending {RequestType ResponseType : Descriptor} (request : Message RequestType) {op : ClientOp}
    {t : List Io} (h : client.validate RequestType ResponseType = .ok ())
    (hmidway : Midway (makePayloadFromProto request) op t) :
    Within client (.sendRequest ResponseType request) op t

/-- Inside a call, but for the connecting, the thread is in an exchange. -/
theorem Within.midway [LawfulProtobuf] {client : SyncClient} {call : ClientCall} {op : ClientOp}
    {t : List Io} (h : Within client call op t) (hop : op ≠ .connect) :
    ∃ payload t', payload.length < 2 ^ 32 ∧ Midway payload op t' ∧ sentOf t = sentOf t' ∧
      takenOf t = takenOf t' := by
  cases h with
  | connecting => exact absurd rfl hop
  | reflecting c h hmidway => exact ⟨_, _, length_reflectionPayload_lt, hmidway, rfl, rfl⟩
  | sending request h hmidway => exact ⟨_, _, length_makePayloadFromProto_lt _, hmidway, rfl, rfl⟩

/-- A sequence of calls, what it leaves of the client, and what happens at the socket. -/
inductive PerformsAll (client : SyncClient) : List Outcome → SyncClient → List Io → Prop
  | nil : PerformsAll client [] client []
  | concat {os : List Outcome} {call : ClientCall} {r : call.Result} {client' client'' : SyncClient}
    {t t' : List Io} (hos : PerformsAll client os client' t)
    (hcall : Performs client' call r client'' t') :
    PerformsAll client (os ++ [⟨call, r⟩]) client'' (t ++ t')

/-! ### The code does it -/

section Triple

variable [LawfulProtobuf] {W C A : Type} {K : Kernel clientSignature Exception W C A}
  {R : Rely clientSignature W} {trace : W → List Io} {pre : ClientOp → List Io → Prop}
  {t₀ : List Io} {client : SyncClient} (hsocket : Socket K R trace pre)

include hsocket

theorem triple_sendRequest {RequestType : Descriptor} (ResponseType : Descriptor)
    (request : Message RequestType) (hvalid : client.validate RequestType ResponseType = .ok ())
    (hpre : ∀ op t, Midway (makePayloadFromProto request) op t → pre op (t₀ ++ t)) :
    Triple K R trace (· = t₀) (client.sendRequest ResponseType request)
      (fun r t => ∃ x t', Exchange (makePayloadFromProto request) x t' ∧
        r = replyOf ResponseType x ∧ t = t₀ ++ t')
      (fun _ _ => False) := by
  have hV := hsocket.owns
  rw [SyncClient.sendRequest, hvalid]
  refine (triple_sendAndReceiveMessage hsocket (length_makePayloadFromProto_lt request)
    hpre).bind hV fun r => ?_
  cases r with
  | error error => exact Triple.ret hV fun t ⟨t', hx, ht⟩ => ⟨_, t', hx, rfl, ht⟩
  | ok response =>
    cases hparse : makeProtoFromPayload ResponseType response with
    | error error =>
      simp only [hparse]
      exact Triple.ret hV fun t ⟨t', hx, ht⟩ => ⟨_, t', hx, by rw [replyOf, hparse]; rfl, ht⟩
    | ok message =>
      simp only [hparse]
      exact Triple.ret hV fun t ⟨t', hx, ht⟩ => ⟨_, t', hx, by rw [replyOf, hparse]; rfl, ht⟩

theorem triple_reflect
    (hreflects : client.clientOptions.validateReqResPairStrategy = .serverReflection)
    (hpre : ∀ op t, Midway reflectionPayload op t → pre op (t₀ ++ t)) :
    Triple K R trace (· = t₀) client.reflectRequestResponseMappingPairs
      (fun r t => ∃ x t', Exchange reflectionPayload x t' ∧
        r = client.reflected (replyOf MappingReflectionResponse x) ∧ t = t₀ ++ t')
      (fun _ _ => False) := by
  have hV := hsocket.owns
  have hregister : client.registerRequestResponsePair MappingReflectionRequest
      MappingReflectionResponse = (.ok true, client.prepared) := by
    simp [SyncClient.registerRequestResponsePair, hreflects, SyncClient.prepared]
  rw [SyncClient.reflectRequestResponseMappingPairs, hregister]
  refine (triple_sendRequest hsocket _ _ client.validate_prepared hpre).bind hV
    fun r => Triple.of_eq ?_
  rintro t ⟨x, t', hx, rfl, rfl⟩
  cases hreply : replyOf MappingReflectionResponse x with
  | error error =>
    exact Triple.ret hV fun t ht => ⟨x, t', hx, by rw [hreply]; rfl, ht⟩
  | ok response =>
    exact Triple.ret hV fun t ht => ⟨x, t', hx, by rw [hreply]; rfl, ht⟩

theorem triple_clientConnect (hpre : ∀ op t, Within client .connect op t → pre op (t₀ ++ t)) :
    Triple K R trace (· = t₀) client.connect
      (fun r t => ∃ t', Performs client .connect r.1 r.2 t' ∧ t = t₀ ++ t') (fun _ _ => False) := by
  have hV := hsocket.owns
  have hconnecting : pre .connect t₀ := by simpa using hpre _ _ .connecting
  refine (triple_socketConnect hsocket hconnecting).bind hV fun r => Triple.of_eq ?_
  rintro t (⟨error, rfl, rfl⟩ | ⟨rfl, c, rfl⟩)
  · exact Triple.ret hV fun t ht => ⟨_, .unconnected error.message, ht⟩
  · by_cases hreflects : client.clientOptions.validateReqResPairStrategy = .serverReflection
    · simp only [if_pos hreflects]
      refine (triple_reflect hsocket hreflects fun op t hmidway => ?_).bind hV
        fun r => Triple.of_eq ?_
      · simpa using hpre op _ (.reflecting c hreflects hmidway)
      · rintro t ⟨x, t', hx, rfl, rfl⟩
        have hperforms := Performs.reflected c hreflects hx
        rw [List.append_assoc]
        generalize client.reflected (replyOf MappingReflectionResponse x) = r at hperforms
        obtain ⟨result, client'⟩ := r
        cases result with
        | error error => exact Triple.ret hV fun t ht => ⟨_, hperforms, ht⟩
        | ok u => exact Triple.ret hV fun t ht => ⟨_, hperforms, ht⟩
    · simp only [if_neg hreflects]
      exact Triple.ret hV fun t ht => ⟨_, .connected c hreflects, ht⟩

/-- **A call does what `Performs` says.** -/
theorem triple_perform (call : ClientCall)
    (hpre : ∀ op t, Within client call op t → pre op (t₀ ++ t)) :
    Triple K R trace (· = t₀) (call.perform client)
      (fun r t => ∃ t', Performs client call r.1 r.2 t' ∧ t = t₀ ++ t') (fun _ _ => False) := by
  have hV := hsocket.owns
  cases call with
  | registerRequestResponsePair RequestType ResponseType =>
    exact Triple.ret hV fun t ht => ⟨[], .registers RequestType ResponseType, by simp [ht]⟩
  | connect => exact triple_clientConnect hsocket hpre
  | sendRequest ResponseType request =>
    cases hvalid : client.validate _ ResponseType with
    | error error =>
      rw [ClientCall.perform, SyncClient.sendRequest, hvalid]
      exact Triple.ret hV fun t ht => ⟨[], .refused request hvalid, by simp [ht]⟩
    | ok u =>
      refine (triple_sendRequest hsocket ResponseType request hvalid fun op t hmidway =>
        hpre op t (.sending request hvalid hmidway)).bind hV fun r => Triple.ret hV ?_
      rintro t ⟨x, t', hx, rfl, rfl⟩
      exact ⟨t', .exchanged request hvalid hx, rfl⟩

end Triple

/-! ### Runs -/

/-- What holds between two calls. -/
structure Session.Inv (client : SyncClient) (calls : List ClientCall) (session : Session)
    (t : List Io) : Prop where
  performed : PerformsAll client session.outcomes session.client t
  calls : session.outcomes.map Outcome.call ++ session.todo = calls

theorem Session.Inv.init (client : SyncClient) (calls : List ClientCall) :
    Session.Inv client calls { client, todo := calls } [] :=
  ⟨.nil, rfl⟩

theorem Session.Inv.concat {client : SyncClient} {calls : List ClientCall} {session : Session}
    {t t' : List Io} (h : session.Inv client calls t) {call : ClientCall} {todo : List ClientCall}
    (htodo : session.todo = call :: todo) {r : call.Result} {client' : SyncClient}
    (hperforms : Performs session.client call r client' t') :
    Session.Inv client calls ⟨client', session.outcomes ++ [⟨call, r⟩], todo⟩ (t ++ t') :=
  ⟨h.performed.concat hperforms, by simpa [htodo] using h.calls⟩

/-- Of two moments between calls, the calls in between with what they did. -/
structure Session.Since (start : Session) (t₀ : List Io) (session : Session) (t : List Io) :
    Prop where
  performed : ∃ os t', session.outcomes = start.outcomes ++ os ∧ t = t₀ ++ t' ∧
    PerformsAll start.client os session.client t' ∧ os.map Outcome.call ++ session.todo = start.todo

theorem Session.Since.refl (start : Session) (t₀ : List Io) : start.Since t₀ start t₀ :=
  ⟨[], [], by simp, by simp, .nil, rfl⟩

theorem Session.Since.concat {start session : Session} {t₀ : List Io} (h : start.Since t₀ session t)
    {call : ClientCall} {todo : List ClientCall} (htodo : session.todo = call :: todo)
    {r : call.Result} {client' : SyncClient}
    (hperforms : Performs session.client call r client' t') :
    start.Since t₀ ⟨client', session.outcomes ++ [⟨call, r⟩], todo⟩ (t ++ t') := by
  obtain ⟨os, s, houtcomes, rfl, hall, hcalls⟩ := h.performed
  exact ⟨os ++ [⟨call, r⟩], s ++ t', by simp [houtcomes], by simp, hall.concat hperforms,
    by simpa [htodo] using hcalls⟩

/-- The thread stands at an operation of a call made since `start`. -/
def Session.Inside (start : Session) (t₀ : List Io) (op : ClientOp) (t : List Io) : Prop :=
  ∃ (session : Session) (call : ClientCall) (todo : List ClientCall) (t₁ t₂ : List Io),
    start.Since t₀ session t₁ ∧ session.todo = call :: todo ∧ Within session.client call op t₂ ∧
    t = t₁ ++ t₂

/-- The thread stands at an operation of the next call. -/
def Session.AtOp (client : SyncClient) (calls : List ClientCall) (op : ClientOp) (t : List Io) :
    Prop :=
  ∃ (session : Session) (call : ClientCall) (todo : List ClientCall) (t₁ t₂ : List Io),
    session.Inv client calls t₁ ∧ session.todo = call :: todo ∧ Within session.client call op t₂ ∧
    t = t₁ ++ t₂

/-- The postcondition of a call. -/
def clientPost {σ : Type} (client : SyncClient) (calls : List ClientCall) :
    Except Exception Session → Link σ → Prop :=
  Safe.Post (fun session l => session.Inv client calls l.trace) fun _ _ => False

section Socket

variable [LawfulProtobuf] {W C A : Type} {K : Kernel clientSignature Exception W C A}
  {R : Rely clientSignature W} {trace : W → List Io} {pre : ClientOp → List Io → Prop}
  (hsocket : Socket K R trace pre)

include hsocket

/-- One more call. -/
theorem triple_next {session : Session} {p : ClientCode Session} (hp : session.next = some p)
    {t₀ : List Io} (hpre : ∀ call todo op t, session.todo = call :: todo →
      Within session.client call op t → pre op (t₀ ++ t)) :
    Triple K R trace (· = t₀) p
      (fun session' t => ∃ call todo r client' t', session.todo = call :: todo ∧
        Performs session.client call r client' t' ∧ t = t₀ ++ t' ∧
        session' = ⟨client', session.outcomes ++ [⟨call, r⟩], todo⟩) (fun _ _ => False) := by
  cases htodo : session.todo with
  | nil => simp [Session.next, htodo] at hp
  | cons call todo =>
    simp only [Session.next, htodo, Option.some.injEq] at hp
    subst hp
    refine (triple_perform hsocket call fun op t => hpre call todo op t htodo).bind hsocket.owns
      fun r => Triple.ret hsocket.owns ?_
    rintro t ⟨t', hperforms, rfl⟩
    exact ⟨call, todo, r.1, r.2, t', rfl, hperforms, rfl, rfl⟩

/-- **What every call keeps, a run keeps.** -/
theorem socketRun_safe {J : Session → List Io → Prop}
    (hpre : ∀ {session t call todo op t'}, J session t → session.todo = call :: todo →
      Within session.client call op t' → pre op (t ++ t'))
    (hstep : ∀ {session t call todo r client' t'}, J session t → session.todo = call :: todo →
      Performs session.client call r client' t' →
      J ⟨client', session.outcomes ++ [⟨call, r⟩], todo⟩ (t ++ t'))
    {cfg : Config clientSignature Exception Session W}
    (h : Safe K R (Safe.Post (fun session w => J session (trace w)) fun _ _ => False) cfg.rest
      cfg.world) (es : List (Event C A)) :
    Safe K R (Safe.Post (fun session w => J session (trace w)) fun _ _ => False)
      (K.run Session.next cfg es).rest (K.run Session.next cfg es).world := by
  refine h.run hsocket.owns.toFits (fun session w p hp hinv hsession => ?_) es
  refine (triple_next hsocket hp (fun call todo op t htodo => hpre hsession htodo)).mono
    (fun _ => id) (fun session' t hnext => ?_) (fun _ _ => id) w hinv rfl
  obtain ⟨call, todo, r, client', t', htodo, hperforms, rfl, rfl⟩ := hnext
  exact hstep hsession htodo hperforms

omit hsocket in
/-- The calls of a fresh client, in a world in which nothing has happened on its socket. -/
theorem socketRun_inv {client : SyncClient} {calls : List ClientCall}
    (hsocket : Socket K R trace (Session.AtOp client calls)) {w₀ : W} (hw₀ : R.inv w₀)
    (htrace : trace w₀ = []) (es : List (Event C A)) :
    Safe K R (Safe.Post (fun session w => session.Inv client calls (trace w)) fun _ _ => False)
      (K.run Session.next ⟨.ret { client, todo := calls }, w₀⟩ es).rest
      (K.run Session.next ⟨.ret { client, todo := calls }, w₀⟩ es).world := by
  refine socketRun_safe hsocket (J := Session.Inv client calls) ?_ ?_ ?_ es
  · intro session t call todo op t' hsession htodo hwithin
    exact ⟨session, call, todo, t, t', hsession, htodo, hwithin, rfl⟩
  · intro session t call todo r client' t' hsession htodo hperforms
    exact hsession.concat htodo hperforms
  · intro w henv
    refine ⟨hsocket.owns.valid henv hw₀, ?_⟩
    rw [Safe.Post_ok, hsocket.owns.view_eq henv, htrace]
    exact .init client calls

omit hsocket in
/-- The calls of an application that goes on from `start`. -/
theorem socketRun_since {start : Session} {w₀ : W}
    (hsocket : Socket K R trace (start.Inside (trace w₀))) (hw₀ : R.inv w₀)
    (es : List (Event C A)) :
    Safe K R (Safe.Post (fun session w => start.Since (trace w₀) session (trace w))
        fun _ _ => False)
      (K.run Session.next ⟨.ret start, w₀⟩ es).rest
      (K.run Session.next ⟨.ret start, w₀⟩ es).world := by
  refine socketRun_safe hsocket (J := start.Since (trace w₀)) ?_ ?_ ?_ es
  · intro session t call todo op t' hsession htodo hwithin
    exact ⟨session, call, todo, t, t', hsession, htodo, hwithin, rfl⟩
  · intro session t call todo r client' t' hsession htodo hperforms
    exact hsession.concat htodo hperforms
  · intro w henv
    refine ⟨hsocket.owns.valid henv hw₀, ?_⟩
    rw [Safe.Post_ok, hsocket.owns.view_eq henv]
    exact .refl start (trace w₀)

end Socket

variable [LawfulProtobuf] {σ : Type} (H : RequestHandler σ) (s₀ : σ) (client : SyncClient)
  (calls : List ClientCall)

/-- **Every run, at every moment.** -/
theorem clientRun_safe (es : List (Event Choice LinkAct)) :
    Safe (linkKernel H) (linkRely H s₀ (Session.AtOp client calls)) (clientPost client calls)
      (clientRun H s₀ client calls es).rest (clientRun H s₀ client calls es).world :=
  socketRun_inv (linkSocket H s₀ (Session.AtOp client calls)) (.init H s₀) rfl es

theorem clientRun_inv (es : List (Event Choice LinkAct)) :
    (clientRun H s₀ client calls es).world.Inv H s₀ :=
  (clientRun_safe H s₀ client calls es).inv (linkRely_owns H s₀ _).toFits

variable {H s₀ client calls}

theorem clientRun_session {es : List (Event Choice LinkAct)} {session : Session}
    (h : (clientRun H s₀ client calls es).rest = .ret session) :
    session.Inv client calls (clientRun H s₀ client calls es).world.trace := by
  have hsafe := clientRun_safe H s₀ client calls es
  rw [h] at hsafe
  exact hsafe.post_ok (linkRely_owns H s₀ _).toFits

variable (H s₀ client calls)

/-- Whatever has happened, the call in progress can return. -/
theorem clientRun_returns (es : List (Event Choice LinkAct)) :
    ∃ fs, ∃ ops : List ClientOp, ∃ session,
    (clientRun H s₀ client calls (es ++ fs)).rest = .ret session ∧
    (clientRun H s₀ client calls (es ++ fs)).world.trace =
      (clientRun H s₀ client calls es).world.trace ++ ops.map .failed := by
  obtain ⟨fs, ops, hrest, htrace⟩ := linkRun_failing H (clientRun H s₀ client calls es).rest
    (clientRun H s₀ client calls es).world
  have hsafe := clientRun_safe H s₀ client calls (es ++ fs)
  rw [clientRun_append] at hsafe
  refine ⟨fs, ?_⟩
  rw [clientRun_append]
  generalize (linkKernel H).run Session.next (clientRun H s₀ client calls es) fs = cfg at *
  obtain ⟨p, l⟩ := cfg
  cases p with
  | ret session => exact ⟨ops, session, rfl, htrace⟩
  | raise e => exact (hsafe.post_error (linkRely_owns H s₀ _).toFits).elim
  | call op k => cases hrest

end InterProcessCourier
