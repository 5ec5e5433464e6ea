import InterProcessCourier.Liveness
import InterProcessCourier.Reflection
import InterProcessCourier.Validation

/-!
# Connecting

What a client has exchanged with a server since it set out to connect, if nothing was cut off: the
reflection request and the server's pairs, if it validates by reflection, and then its requests. The
server has answered them all, and so a client that connects stays in good standing as long as its
requests can be answered.

## Main results

* `Link.Inv.since_connect` — the exchanges since the client set out to connect
* `linkRun_standing` — a client that connects and makes requests, left to itself with the server
-/

namespace InterProcessCourier

open Interaction Precedence

theorem Midway.ready {payload : Bytes} {op : ClientOp} {t t' : List Io} (h : Midway payload op t)
    (hc : (connectionOf t').isSome) : op.Ready t' := by
  cases h <;> exact hc

section

variable [Protobuf] {σ : Type}

/-! ### A server that reflects -/

/-- The reflection request is answered. -/
structure SyncServer.Reflects (server : SyncServer σ) : Prop where
  stored : server.handlers.lookup (fullName MappingReflectionRequest) = some reflection
  serializes : (serializeToString server.reflectionResponse).isSome

/-- A request with a message that can be serialized. -/
def ClientCall.Serializes : ClientCall → Prop
  | registerRequestResponsePair _ _ => False
  | connect => False
  | sendRequest _ request => (serializeToString request).isSome

/-- A request that passes the validation of the client, and its payload. -/
inductive ClientCall.Passes (client : SyncClient) : ClientCall → Bytes → Prop
  | mk {RequestType ResponseType : Descriptor} (request : Message RequestType)
    (h : client.validate RequestType ResponseType = .ok ()) :
    Passes client (.sendRequest ResponseType request) (makePayloadFromProto request)

namespace SyncClient

/-- The client once it has connected to a server. -/
def connected (client : SyncClient) (server : SyncServer σ) : SyncClient :=
  if client.clientOptions.validateReqResPairStrategy = .serverReflection then
    client.prepared.mergeMappings server.reflectionResponse
  else client

/-- What a client exchanges with the server in order to connect. -/
def opening (client : SyncClient) (server : SyncServer σ) : List (Bytes × Bytes) :=
  if client.clientOptions.validateReqResPairStrategy = .serverReflection then
    [(reflectionPayload, makePayloadFromProto server.reflectionResponse)]
  else []

end SyncClient

variable [LawfulProtobuf] {server : SyncServer σ} {s₀ : σ} {l₀ l : Link σ} {start session : Session}
  {requests : List ClientCall} {t : List Io}

/-- A message that can be serialized arrives. -/
theorem replyOf_makePayloadFromProto {T : Descriptor} {m : Message T}
    (h : (serializeToString m).isSome) : replyOf T (.ok (makePayloadFromProto m)) = .ok m :=
  replyOf_eq_ok_iff.mpr ⟨_, rfl, makeProtoFromPayload_makePayloadFromProto h⟩

/-- **Since it set out to connect**, a client has done nothing yet, or it has the server's pairs. -/
theorem Link.Inv.since_connect (hl : l.Inv server.requestHandler s₀) (hserver : server.Reflects)
    (hnone : connectionOf l₀.trace = none) (hstart : start.todo = .connect :: requests)
    (hsince : start.Since l₀.trace session (l₀.trace ++ t)) (htrace : l₀.trace ++ t <+: l.trace)
    (hwhole : Whole t) :
    (session = start ∧ t = []) ∨
    ∃ os xs, session.outcomes = start.outcomes ++ ⟨.connect, .ok ()⟩ :: os ∧
      os.map Outcome.call ++ session.todo = requests ∧ (connectionOf t).isSome ∧
      RepliesAll (start.client.connected server) os session.client xs ∧
      Streams (start.client.opening server ++ xs) t := by
  obtain ⟨os, t', houtcomes, ht, hperformed, hcalls⟩ := hsince.performed
  obtain rfl := List.append_cancel_left ht
  rw [hstart] at hcalls
  cases os with
  | nil =>
    left
    obtain ⟨hclient, rfl⟩ := hperformed.of_nil
    refine ⟨?_, rfl⟩
    obtain ⟨client, outcomes, todo⟩ := session
    obtain ⟨client', outcomes', todo'⟩ := start
    simp_all
  | cons o os =>
    right
    obtain ⟨call, r⟩ := o
    obtain ⟨rfl, htodo⟩ := List.cons.inj hcalls
    rw [← List.singleton_append] at hperformed
    obtain ⟨client₁, t₁, t₂, hfirst, hrest, rfl⟩ := hperformed.of_append
    have hconnected := hfirst.singleton.connected_of_whole hwhole.left
    obtain ⟨ys, hreplies, hstreams₁⟩ := hfirst.singleton.replies hwhole.left
    obtain ⟨xs, hall, hstreams₂⟩ := hrest.replies hwhole.right
    cases hreplies with
    | connected h =>
      refine ⟨os, xs, houtcomes, htodo, by simp [hconnected], ?_, ?_⟩
      · rwa [SyncClient.connected, if_neg h]
      · rw [SyncClient.opening, if_neg h]
        exact hstreams₁.append hstreams₂
    | reflected response h =>
      have hstreams := hstreams₁.append hstreams₂
      obtain ⟨hsent, htaken⟩ := hl.orderly.unused l₀.trace
        ((List.prefix_append _ _).trans htrace) hnone
      obtain ⟨rest, hrest⟩ := htrace
      obtain ⟨c, hc⟩ : ∃ c, connectionOf l.trace = some c := by
        rw [← Option.isSome_iff_exists, ← hrest]
        simp [hnone, hconnected]
      -- the response is the server's pairs
      have hframes : wire.frame reflectionPayload <+: sentOf l.trace ∧
          wire.frame response <+: takenOf l.trace := by
        rw [← hrest, sentOf_append, sentOf_append, takenOf_append, takenOf_append, hsent, htaken]
        exact ⟨hstreams.head.1.trans (List.prefix_append _ _),
          hstreams.head.2.trans (List.prefix_append _ _)⟩
      obtain ⟨state, hresponse⟩ := hl.first_answer hc length_reflectionPayload_lt
        (hstreams.short (reflectionPayload, response) (by simp)).2 hframes.1 hframes.2
        (length_responses_lt hl.own.1 c)
      rw [SyncServer.requestHandler_reflectionPayload hserver.stored] at hresponse
      obtain rfl := Except.ok.inj hresponse
      rw [replyOf_makePayloadFromProto hserver.serializes] at hall houtcomes
      refine ⟨os, xs, houtcomes, htodo, by simp [hconnected], ?_, ?_⟩
      · rwa [SyncClient.connected, if_pos h]
      · rwa [SyncClient.opening, if_pos h]

omit [LawfulProtobuf] in
/-- Requests leave the client as it is, and exchange their payloads. -/
theorem RepliesAll.of_serializes {client client' : SyncClient} {os : List Outcome}
    {xs : List (Bytes × Bytes)} (h : RepliesAll client os client' xs)
    (hos : ∀ o ∈ os, o.call.Serializes) :
    client' = client ∧ ∀ x ∈ xs, ∃ o ∈ os, o.call.Passes client x.1 := by
  induction h with
  | nil => exact ⟨rfl, nofun⟩
  | @concat os call r client' client'' xs ys hos' hcall ih =>
    obtain ⟨rfl, hxs⟩ := ih fun o ho => hos o (by simp [ho])
    have hlast : call.Serializes := hos ⟨call, r⟩ (by simp)
    have hold : ∀ x ∈ xs, ∃ o ∈ os ++ [⟨call, r⟩], o.call.Passes client' x.1 := by
      intro x hx
      obtain ⟨o, ho, hpasses⟩ := hxs x hx
      exact ⟨o, by simp [ho], hpasses⟩
    cases hcall with
    | registers RequestType ResponseType => exact hlast.elim
    | connected h => exact hlast.elim
    | reflected response h => exact hlast.elim
    | refused request h => exact ⟨rfl, by simpa using hold⟩
    | replied request response h =>
      refine ⟨rfl, List.forall_mem_append.mpr ⟨hold, fun x hx => ?_⟩⟩
      obtain rfl := List.mem_singleton.mp hx
      exact ⟨_, List.mem_append_right os (List.mem_singleton.mpr rfl), .mk request h⟩

/-- Where a run stands. -/
theorem linkRun_moment {H : RequestHandler σ} (start : Session) (hl₀ : l₀.Inv H s₀)
    (es : List (Event Choice LinkAct)) :
    ∃ session t₁ t₂, start.Since l₀.trace session t₁ ∧
      (linkRun H start l₀ es).world.trace = t₁ ++ t₂ ∧
      (((linkRun H start l₀ es).rest = .ret session ∧ t₂ = []) ∨
        ∃ op k call todo, (linkRun H start l₀ es).rest = .call op k ∧ session.todo = call :: todo ∧
          Within session.client call op t₂) := by
  have hraise := linkRun_ne_raise start hl₀ es
  cases hrest : (linkRun H start l₀ es).rest with
  | raise e => exact absurd hrest (hraise e)
  | ret session => exact ⟨session, _, [], linkRun_since hl₀ hrest, by simp, .inl ⟨rfl, rfl⟩⟩
  | call op k =>
    obtain ⟨session, call, todo, t₁, t₂, hsince, htodo, hwithin, htrace⟩ := linkRun_inside hl₀ hrest
    exact ⟨session, t₁, t₂, hsince, htrace, .inr ⟨op, k, call, todo, rfl, htodo, hwithin⟩⟩

omit [Protobuf] [LawfulProtobuf] in
/-- The server answers everything on the wire. -/
theorem Link.answerable_of_isPrefix {H : RequestHandler σ} (ps : List Bytes)
    (hps : ∀ p ∈ ps, ∀ s, ∃ r, (H p s).1 = .ok r)
    (hsent : (wire.deframe (sentOf l.trace)).1 <+: ps) : l.Answerable H := by
  intro c p _ hp
  exact hps p ((hp.trans hsent).subset (by simp)) _

theorem SyncServer.Reflects.answers (hserver : server.Reflects) (s : σ) :
    ∃ r, (server.requestHandler reflectionPayload s).1 = .ok r :=
  ⟨_, by rw [requestHandler_reflectionPayload hserver.stored]⟩

/-- While a client connects. -/
theorem Link.ready_opening (hserver : server.Reflects) {t₀ : List Io}
    (hnone : connectionOf t₀ = none) (hbefore : Streams [] t₀) {client : SyncClient}
    {op : ClientOp} (hwithin : Within client .connect op t) (htrace : l.trace = t₀ ++ t) :
    op.Ready (t₀ ++ t) ∧ l.Answerable server.requestHandler := by
  cases hwithin with
  | connecting =>
    refine ⟨?_, answerable_of_isPrefix [] (by simp) ?_⟩
    · change connectionOf (t₀ ++ []) = none
      simpa using hnone
    · rw [htrace, List.append_nil, hbefore.deframe_eq]
      exact List.prefix_rfl
  | reflecting c h hmidway =>
    refine ⟨hmidway.ready (by simp), answerable_of_isPrefix [reflectionPayload] ?_ ?_⟩
    · simpa using hserver.answers
    · rw [htrace]
      exact hbefore.deframe_prefix length_reflectionPayload_lt hmidway.sent_isPrefix

/-- While a client that has connected makes a request. -/
theorem Link.ready_sending {H : RequestHandler σ} {t₀ : List Io} {xs : List (Bytes × Bytes)}
    (hconnected : (connectionOf t₀).isSome) (hbefore : Streams xs t₀)
    (hxs : ∀ p ∈ xs.map Prod.fst, ∀ s, ∃ r, (H p s).1 = .ok r) {client : SyncClient}
    {call : ClientCall} (hserializes : call.Serializes)
    (hanswers : ∀ p, call.Passes client p → ∀ s, ∃ r, (H p s).1 = .ok r) {op : ClientOp}
    (hwithin : Within client call op t) (htrace : l.trace = t₀ ++ t) :
    op.Ready (t₀ ++ t) ∧ l.Answerable H := by
  cases hwithin with
  | connecting => exact hserializes.elim
  | reflecting c h hmidway => exact hserializes.elim
  | sending request h hmidway =>
    refine ⟨hmidway.ready (by simp [hconnected]),
      answerable_of_isPrefix (xs.map Prod.fst ++ [makePayloadFromProto request]) ?_ ?_⟩
    · refine List.forall_mem_append.mpr ⟨hxs, ?_⟩
      simpa using hanswers _ (.mk request h)
    · rw [htrace]
      exact hbefore.deframe_prefix (length_makePayloadFromProto_lt request) hmidway.sent_isPrefix

/-- **A client that connects and makes requests stays in good standing**, if the server answers what
the client's validation lets pass. -/
theorem linkRun_standing (hserver : server.Reflects) (hl₀ : l₀.Inv server.requestHandler s₀)
    (hcalm : l₀.Calm) (hnone : connectionOf l₀.trace = none)
    (hstart : start.todo = .connect :: requests) (hrequests : ∀ call ∈ requests, call.Serializes)
    (hanswers : ∀ call ∈ requests, ∀ p, call.Passes (start.client.connected server) p → ∀ s,
      ∃ r, (server.requestHandler p s).1 = .ok r)
    {es : List (Event Choice LinkAct)} (hes : ∀ e ∈ es, Undisturbed e)
    (hfull : ∀ t, (linkRun server.requestHandler start l₀ es).world.trace = l₀.trace ++ t →
      Full t) :
    ∃ t, l₀.Standing (linkRun server.requestHandler start l₀ es).world t := by
  refine calm_run hl₀ hcalm hes hfull fun before _ t ht => ?_
  have hl := linkRun_inv start hl₀ before
  obtain ⟨session, t₁, t₂, hsince, htrace, hmoment⟩ := linkRun_moment start hl₀ before
  obtain ⟨os₀, t', -, rfl, -, -⟩ := hsince.performed
  obtain rfl : t = t' ++ t₂ := by
    have hsame := ht.trace.symm.trans htrace
    rw [List.append_assoc] at hsame
    exact List.append_cancel_left hsame
  have hbefore : Streams [] l₀.trace := by
    obtain ⟨hsent, htaken⟩ := hl₀.unconnected hnone
    exact .nil hsent htaken
  rcases hl.since_connect hserver hnone hstart hsince ⟨t₂, htrace.symm⟩ ht.whole.left with
    ⟨rfl, rfl⟩ | ⟨os, xs, -, htodo, hconnected, hreplies, hstreams⟩
  · -- nothing was exchanged yet
    rw [List.append_nil] at htrace
    rcases hmoment with ⟨hrest, rfl⟩ | ⟨op, k, call, todo, hrest, hcall, hwithin⟩
    · refine ⟨fun op k h => by simp [hrest] at h, Link.answerable_of_isPrefix [] (by simp) ?_⟩
      rw [htrace, List.append_nil, hbefore.deframe_eq]
      exact List.prefix_rfl
    · rw [hstart] at hcall
      obtain rfl : .connect = call := (List.cons.inj hcall).1
      obtain ⟨hready, hanswerable⟩ := Link.ready_opening hserver hnone hbefore hwithin htrace
      refine ⟨fun op' k' h => ?_, hanswerable⟩
      rw [hrest] at h
      cases h
      exact hready
  · -- the connection is made, and requests were exchanged
    have hall := hbefore.append hstreams
    rw [List.nil_append] at hall
    have hos : ∀ o ∈ os, o.call ∈ requests := fun o ho => by
      rw [← htodo]
      exact List.mem_append_left _ (List.mem_map_of_mem ho)
    obtain ⟨hclient, hxs⟩ := hreplies.of_serializes fun o ho => hrequests _ (hos o ho)
    have hpayloads : ∀ p ∈ (start.client.opening server ++ xs).map Prod.fst, ∀ s,
        ∃ r, (server.requestHandler p s).1 = .ok r := by
      intro p hp
      obtain ⟨x, hx, rfl⟩ := List.mem_map.mp hp
      rcases List.mem_append.mp hx with hx | hx
      · rw [SyncClient.opening] at hx
        split_ifs at hx
        · rw [List.mem_singleton.mp hx]
          exact hserver.answers
        · cases hx
      · obtain ⟨o, ho, hpasses⟩ := hxs x hx
        exact hanswers o.call (hos o ho) x.1 hpasses
    rcases hmoment with ⟨hrest, rfl⟩ | ⟨op, k, call, todo, hrest, hcall, hwithin⟩
    · refine ⟨fun op k h => by simp [hrest] at h, Link.answerable_of_isPrefix _ hpayloads ?_⟩
      rw [htrace, List.append_nil, hall.deframe_eq]
    · have hmem : call ∈ requests := by
        rw [← htodo, hcall]
        simp
      rw [hclient] at hwithin
      obtain ⟨hready, hanswerable⟩ := Link.ready_sending (by simp [hconnected]) hall hpayloads
        (hrequests call hmem) (hanswers call hmem) hwithin htrace
      refine ⟨fun op' k' h => ?_, hanswerable⟩
      rw [hrest] at h
      cases h
      rwa [List.append_assoc] at hready

end

end InterProcessCourier
