import InterProcessCourier.Attribution

/-!
# Calls over a connection that does not fail

If no operation of the client fails and every read delivers all it asks for, then every exchange
ends with a response, and both streams hold the frames of what was exchanged and nothing else.
`Replies` says what a call gives back in that case.

## Main results

* `PerformsAll.replies` — the exchanges of a sequence of calls, and the streams they leave
* `Link.Inv.answers_eq` — the server has answered these exchanges and no other request
-/

namespace InterProcessCourier

open Interaction

/-! ### Whole histories -/

/-- The operation succeeds, and a read delivers all it asks for. -/
def Io.Whole : Io → Prop
  | connected _ => True
  | wrote _ => True
  | read n bs => bs.length = n
  | failed _ => False

instance : DecidablePred Io.Whole
  | .connected _ => .isTrue trivial
  | .wrote _ => .isTrue trivial
  | .read n bs => inferInstanceAs (Decidable (bs.length = n))
  | .failed _ => .isFalse id

/-- Every operation of a history is whole. -/
def Whole (t : List Io) : Prop := ∀ io ∈ t, io.Whole

instance (t : List Io) : Decidable (Whole t) := inferInstanceAs (Decidable (∀ io ∈ t, io.Whole))

section Whole

variable {t t' : List Io}

theorem Whole.nil : Whole [] := nofun

theorem whole_append : Whole (t ++ t') ↔ Whole t ∧ Whole t' := List.forall_mem_append

theorem Whole.left (h : Whole (t ++ t')) : Whole t := (whole_append.mp h).1

theorem Whole.right (h : Whole (t ++ t')) : Whole t' := (whole_append.mp h).2

theorem Whole.last {io : Io} (h : Whole (t ++ [io])) : io.Whole := h io (by simp)

end Whole

/-- The two streams hold the frames of these requests and responses, and nothing else. -/
structure Streams (xs : List (Bytes × Bytes)) (t : List Io) : Prop where
  sent : sentOf t = wire.frames (xs.map Prod.fst)
  taken : takenOf t = wire.frames (xs.map Prod.snd)
  short : ∀ x ∈ xs, x.1.length < 2 ^ 32 ∧ x.2.length < 2 ^ 32

namespace Streams

variable {xs ys : List (Bytes × Bytes)} {t t' : List Io}

theorem nil (hsent : sentOf t = []) (htaken : takenOf t = []) : Streams [] t :=
  ⟨hsent, htaken, nofun⟩

theorem append (h : Streams xs t) (h' : Streams ys t') : Streams (xs ++ ys) (t ++ t') where
  sent := by rw [sentOf_append, h.sent, h'.sent, List.map_append, wire.frames_append]
  taken := by rw [takenOf_append, h.taken, h'.taken, List.map_append, wire.frames_append]
  short := List.forall_mem_append.mpr ⟨h.short, h'.short⟩

theorem short_fst (h : Streams xs t) : ∀ p ∈ xs.map Prod.fst, p.length < 2 ^ 32 := by
  intro p hp
  obtain ⟨x, hx, rfl⟩ := List.mem_map.mp hp
  exact (h.short x hx).1

theorem short_snd (h : Streams xs t) : ∀ p ∈ xs.map Prod.snd, p.length < 2 ^ 32 := by
  intro p hp
  obtain ⟨x, hx, rfl⟩ := List.mem_map.mp hp
  exact (h.short x hx).2

/-- The first exchange is at the front. -/
theorem head {x : Bytes × Bytes} (h : Streams (x :: xs) t) :
    wire.frame x.1 <+: sentOf t ∧ wire.frame x.2 <+: takenOf t := by
  rw [h.sent, h.taken]
  exact ⟨List.prefix_append _ _, List.prefix_append _ _⟩

theorem deframe_eq (h : Streams xs t) : (wire.deframe (sentOf t)).1 = xs.map Prod.fst := by
  rw [h.sent, wire.deframe_frames h.short_fst]

/-- The requests that have arrived whole, while one more is being written. -/
theorem deframe_prefix (h : Streams xs t) {payload : Bytes} (hpayload : payload.length < 2 ^ 32)
    (hpart : sentOf t' <+: wire.frame payload) :
    (wire.deframe (sentOf (t ++ t'))).1 <+: xs.map Prod.fst ++ [payload] := by
  have hprefix : sentOf (t ++ t') <+: wire.frames (xs.map Prod.fst ++ [payload]) := by
    rw [sentOf_append, h.sent, wire.frames_concat]
    exact (List.prefix_append_right_inj _).mpr hpart
  refine (wire.deframe_mono hprefix).trans ?_
  rw [wire.deframe_frames]
  intro p hp
  rcases List.mem_append.mp hp with hp | hp
  · exact h.short_fst p hp
  · exact List.mem_singleton.mp hp ▸ hpayload

end Streams

/-- An exchange that is not cut off ends with a response. -/
theorem Exchange.replied {payload : Bytes} {r : SyncClientResult Bytes} {t : List Io}
    (h : Exchange payload r t) (hwhole : Whole t) (hpayload : payload.length < 2 ^ 32) :
    ∃ response, r = .ok response ∧ Streams [(payload, response)] t := by
  cases h with
  | unsent hmidway message => exact hwhole.last.elim
  | lost hmidway message => exact hwhole.last.elim
  | short hmidway hbs message => exact absurd hwhole.last (Nat.ne_of_lt hbs)
  | @done ws header response hframe hheader hresponse =>
    have hexchange := Exchange.done hframe hheader hresponse
    obtain ⟨htaken, hshort⟩ := hexchange.taken
    refine ⟨response, rfl, ?_, ?_, ?_⟩
    · simpa using hexchange.sent rfl
    · simpa using htaken
    · simpa using ⟨hpayload, hshort⟩

/-! ### What the calls give back -/

section Calls

variable [Protobuf]

/-- What a call gives back if its exchange ends with a response, what it leaves of the client, and
what it has exchanged. -/
inductive Replies (client : SyncClient) :
    (call : ClientCall) → call.Result → SyncClient → List (Bytes × Bytes) → Prop
  | registers (RequestType ResponseType : Descriptor) :
    Replies client (.registerRequestResponsePair RequestType ResponseType)
      (client.registerRequestResponsePair RequestType ResponseType).1
      (client.registerRequestResponsePair RequestType ResponseType).2 []
  | connected (h : client.clientOptions.validateReqResPairStrategy ≠ .serverReflection) :
    Replies client .connect (.ok ()) client []
  | reflected (response : Bytes)
    (h : client.clientOptions.validateReqResPairStrategy = .serverReflection) :
    Replies client .connect (client.reflected (replyOf MappingReflectionResponse (.ok response))).1
      (client.reflected (replyOf MappingReflectionResponse (.ok response))).2
      [(reflectionPayload, response)]
  | refused {RequestType ResponseType : Descriptor} (request : Message RequestType)
    {error : Error SyncClientError} (h : client.validate RequestType ResponseType = .error error) :
    Replies client (.sendRequest ResponseType request) (.error error) client []
  | replied {RequestType ResponseType : Descriptor} (request : Message RequestType)
    (response : Bytes) (h : client.validate RequestType ResponseType = .ok ()) :
    Replies client (.sendRequest ResponseType request) (replyOf ResponseType (.ok response)) client
      [(makePayloadFromProto request, response)]

/-- A sequence of such calls. -/
inductive RepliesAll (client : SyncClient) :
    List Outcome → SyncClient → List (Bytes × Bytes) → Prop
  | nil : RepliesAll client [] client []
  | concat {os : List Outcome} {call : ClientCall} {r : call.Result} {client' client'' : SyncClient}
    {xs ys : List (Bytes × Bytes)} (hos : RepliesAll client os client' xs)
    (hcall : Replies client' call r client'' ys) :
    RepliesAll client (os ++ [⟨call, r⟩]) client'' (xs ++ ys)

variable {client client' : SyncClient} {t : List Io}

theorem Performs.connected_of_whole {r : SyncClientResult Unit}
    (h : Performs client .connect r client' t) (hwhole : Whole t) : (connectionOf t).isSome := by
  cases h with
  | unconnected message => exact (hwhole.last (t := [])).elim
  | connected c h => rfl
  | reflected c h hexchange => rfl

variable [LawfulProtobuf]

/-- **A call over a connection that does not fail.** -/
theorem Performs.replies {call : ClientCall} {r : call.Result}
    (h : Performs client call r client' t) (hwhole : Whole t) :
    ∃ xs, Replies client call r client' xs ∧ Streams xs t := by
  have hstill : Streams [] [] := .nil rfl rfl
  cases h with
  | registers RequestType ResponseType => exact ⟨[], .registers .., hstill⟩
  | unconnected message => exact (hwhole.last (t := [])).elim
  | connected c h => exact ⟨[], .connected h, .nil rfl rfl⟩
  | @reflected c r t h hexchange =>
    have hrest : Whole ([.connected c] ++ t) := hwhole
    obtain ⟨response, rfl, hstreams⟩ := hexchange.replied hrest.right length_reflectionPayload_lt
    have hconnected : Streams [] [.connected c] := .nil rfl rfl
    exact ⟨_, .reflected response h, hconnected.append hstreams⟩
  | refused request h => exact ⟨[], .refused request h, hstill⟩
  | exchanged request h hexchange =>
    obtain ⟨response, rfl, hstreams⟩ := hexchange.replied hwhole (length_makePayloadFromProto_lt _)
    exact ⟨_, .replied request response h, hstreams⟩

/-- **Calls over a connection that does not fail.** -/
theorem PerformsAll.replies {os : List Outcome} (h : PerformsAll client os client' t)
    (hwhole : Whole t) : ∃ xs, RepliesAll client os client' xs ∧ Streams xs t := by
  induction h with
  | nil => exact ⟨[], .nil, .nil rfl rfl⟩
  | concat hos hcall ih =>
    obtain ⟨xs, hxs, hstreams⟩ := ih hwhole.left
    obtain ⟨ys, hys, hstreams'⟩ := hcall.replies hwhole.right
    exact ⟨xs ++ ys, hxs.concat hys, hstreams.append hstreams'⟩

end Calls

/-! ### What the server has answered -/

section Server

variable {σ : Type} {H : RequestHandler σ} {s₀ : σ} {l : Link σ} {c : ℕ} {xs : List (Bytes × Bytes)}

/-- **The server has answered what was exchanged**, and has no other request. -/
theorem Link.Inv.answers_eq (h : l.Inv H s₀) (hc : connectionOf l.trace = some c)
    (hstreams : Streams xs l.trace)
    (hshort : ∀ r ∈ l.server.world.own.responses c, r.length < 2 ^ 32) :
    l.server.world.own.requests c = xs.map Prod.fst ∧ l.server.world.own.answers c = xs := by
  obtain ⟨hown, -⟩ := h.own
  have hrequests : l.server.world.own.requests c <+: xs.map Prod.fst := by
    have hhandled := h.requests_isPrefix hc
    rwa [hstreams.sent, wire.deframe_frames hstreams.short_fst] at hhandled
  have hresponses : xs.map Prod.snd <+: l.server.world.own.responses c :=
    h.responses_isPrefix hc hshort hstreams.short_snd (by rw [hstreams.taken])
  -- no fewer requests than responses, and no more than were exchanged
  have hcount := hown.length_responses_le c
  have hle := hrequests.length_le
  have hge := hresponses.length_le
  simp only [List.length_map] at hle hge
  have hfst : l.server.world.own.requests c = xs.map Prod.fst :=
    hrequests.eq_of_length (by rw [List.length_map]; omega)
  refine ⟨hfst, (isPrefix_of_map ?_ ?_).eq_of_length ?_⟩
  · rw [← hfst]
    exact hown.answers_map_fst c
  · rw [Own.answers_map_snd, hresponses.eq_of_length (by rw [List.length_map]; omega)]
  · rw [← List.length_map (f := Prod.snd), Own.answers_map_snd]
    omega

/-- What the request handler has done, if it has only been invoked for one client. -/
theorem Link.Inv.threaded_answers (h : l.Inv H s₀) (hc : connectionOf l.trace = some c)
    (hclients : ∀ d ∈ l.server.world.own.accepted, d = c)
    (hfaults : l.server.world.own.faults = []) (hstreams : Streams xs l.trace)
    (hshort : ∀ r ∈ l.server.world.own.responses c, r.length < 2 ^ 32) :
    callAll (xs.map fun x => H x.1) s₀ = (xs.map fun x => .ok x.2, l.server.world.own.state) := by
  obtain ⟨hown, -⟩ := h.own
  obtain ⟨hrequests, hanswers⟩ := h.answers_eq hc hstreams hshort
  have hreturned : ∀ k ∈ l.server.world.own.callsOf c, ∃ r, k.result = .ok r := by
    intro k hk
    cases hresult : k.result with
    | ok r => exact ⟨r, rfl⟩
    | error e =>
      have hfault := hown.raised k (List.mem_of_mem_filter hk) e hresult
      rw [hfaults] at hfault
      cases hfault
  have hthreaded := hown.threaded_requests hclients
  rwa [hrequests, Own.map_result_of_returned hreturned, ← Own.answers_map_snd, hanswers,
    List.map_map, List.map_map] at hthreaded

end Server

end InterProcessCourier
