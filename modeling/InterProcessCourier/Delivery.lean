import InterProcessCourier.Opening

/-!
# Delivery

What one request of a client, and the response to it, come to over a connection on which nothing
fails. `makePayloadFromProto` does not look at whether the serialization succeeds: what it makes of
a message that cannot be serialized is the payload of whatever an empty string parses as. So a
request is delivered whole, or reported as an error, exactly if nothing else can be made of what is
sent.

The run of one call is followed from a moment at which everything is answered, `Link.Poised`. As the
client sends no more than one request, the server handles and writes no more than that: this is
`Link.Later`, which holds whatever becomes of the call. That the request is sent in full, and that
an answer comes back, are the only facts that need the run to stay calm.

## Main results

* `Link.Poised.handled` — the request has been handled once, or not at all
* `linkRun_sent`, `linkRun_answered` — it is sent, and it is answered
* `delivered_iff` — when a request and its response are delivered whole, or an error is reported
-/

namespace InterProcessCourier

open Interaction

/-- The payloads of the frames that a stream has completed since it was `before`. -/
def payloadsSince (before after : Bytes) : List Bytes :=
  (wire.deframe after).1.drop (wire.deframe before).1.length

section

variable {σ : Type} {H : RequestHandler σ} {s₀ : σ} {c : ℕ} {xs : List (Bytes × Bytes)}
  {l₀ l : Link σ} {p : Bytes}

/-! ### One more request -/

namespace Link

/-- Client and server are alone, nothing has failed, and every request was answered. -/
structure Poised (H : RequestHandler σ) (s₀ : σ) (c : ℕ) (xs : List (Bytes × Bytes)) (l₀ : Link σ) :
    Prop where
  inv : l₀.Inv H s₀
  calm : l₀.Calm
  connected : connectionOf l₀.trace = some c
  streams : Streams xs l₀.trace
  short : ∀ {o : Own σ}, o.Inv H s₀ → ∀ c, ∀ r ∈ o.responses c, r.length < 2 ^ 32

/-- A moment at which the client has sent no more than one request since `l₀`. -/
structure Later (H : RequestHandler σ) (s₀ : σ) (c : ℕ) (p : Bytes) (l₀ l : Link σ) : Prop where
  inv : l.Inv H s₀
  alone : l.Alone c
  short : p.length < 2 ^ 32
  during : ∃ t, l.trace = l₀.trace ++ t ∧ sentOf t <+: wire.frame p

namespace Poised

variable (h : l₀.Poised H s₀ c xs)

include h

theorem requests_eq : l₀.server.world.own.requests c = xs.map Prod.fst :=
  (h.inv.answers_eq h.connected h.streams (h.short h.inv.own.1 c)).1

theorem responses_eq : l₀.server.world.own.responses c = xs.map Prod.snd := by
  rw [← Own.answers_map_snd, (h.inv.answers_eq h.connected h.streams (h.short h.inv.own.1 c)).2]

theorem threaded : callAll ((xs.map Prod.fst).map H) s₀ =
    (xs.map fun x => .ok x.2, l₀.server.world.own.state) := by
  rw [List.map_map]
  exact h.inv.threaded_answers h.connected (fun d hd => (h.calm.alone h.connected).eq_of_mem hd)
    h.calm.faults h.streams (h.short h.inv.own.1 c)

theorem deframe_written : (wire.deframe (l₀.server.world.own.written c)).1 = xs.map Prod.snd := by
  obtain ⟨hown, -⟩ := h.inv.own
  have htaken := (h.inv.connected c h.connected).taken
  have hanswered := hown.answered c
  rw [h.streams.taken] at htaken
  rw [h.responses_eq] at hanswered
  rw [hanswered.eq_of_length_le htaken.length_le, wire.deframe_frames h.streams.short_snd]

variable (hlater : l₀.Later H s₀ c p l)

include hlater

/-- No more than the request has been sent. -/
theorem deframe_sent : (wire.deframe (sentOf l.trace)).1 <+: xs.map Prod.fst ++ [p] := by
  obtain ⟨t, htrace, hsent⟩ := hlater.during
  rw [htrace]
  exact h.streams.deframe_prefix hlater.short hsent

theorem responses_isPrefix : xs.map Prod.snd <+: l.server.world.own.responses c := by
  obtain ⟨t, htrace, -⟩ := hlater.during
  refine hlater.inv.responses_isPrefix hlater.alone.connected (h.short hlater.inv.own.1 c)
    h.streams.short_snd ?_
  rw [htrace, takenOf_append, h.streams.taken]
  exact List.prefix_append _ _

/-- **The request has been handled, or it has not.** If it has, then in the state of before. -/
theorem handled : (l.server.world.own.requests c = xs.map Prod.fst ∧
      l.server.world.own.responses c = xs.map Prod.snd ∧
      l.server.world.own.state = l₀.server.world.own.state) ∨
    (l.server.world.own.requests c = xs.map Prod.fst ++ [p] ∧
      l.server.world.own.responses c =
        xs.map Prod.snd ++ (H p l₀.server.world.own.state).1.toOption.toList) := by
  obtain ⟨hown, -⟩ := hlater.inv.own
  have hresponses := h.responses_isPrefix hlater
  have hcount := hown.length_responses_le c
  have hthreaded := hown.threaded_requests fun d hd => hlater.alone.eq_of_mem hd
  have hrequests := (hlater.inv.requests_isPrefix hlater.alone.connected).trans
    (h.deframe_sent hlater)
  have hlength : xs.length ≤ (l.server.world.own.requests c).length := by
    have := hresponses.length_le
    rw [List.length_map] at this
    omega
  rcases List.prefix_concat_iff.mp hrequests with heq | hfewer
  · -- it has
    right
    rw [heq, List.map_append, List.map_singleton, callAll_concat, h.threaded] at hthreaded
    refine ⟨heq, ?_⟩
    have hresults : (l.server.world.own.callsOf c).map Call.result =
        (xs.map fun x => .ok x.2) ++ [(H p l₀.server.world.own.state).1] :=
      (congrArg Prod.fst hthreaded).symm
    have hmap : l.server.world.own.responses c =
        ((l.server.world.own.callsOf c).map Call.result).filterMap Except.toOption := by
      rw [List.filterMap_map]
      rfl
    rw [hmap, hresults, List.filterMap_append, List.filterMap_map]
    congr 1
    simp [Function.comp_def, Except.toOption]
  · -- it has not
    left
    have heq : l.server.world.own.requests c = xs.map Prod.fst :=
      hfewer.eq_of_length_le (by rwa [List.length_map])
    rw [heq, h.threaded] at hthreaded
    refine ⟨heq, (hresponses.eq_of_length_le ?_).symm, (congrArg Prod.snd hthreaded).symm⟩
    rw [heq] at hcount
    simpa using hcount

/-! ### What has moved since -/

/-- Only the request has been sent. -/
theorem eq_of_mem_sent {q : Bytes} (hq : q ∈ payloadsSince (sentOf l₀.trace) (sentOf l.trace)) :
    q = p := by
  rw [payloadsSince, h.streams.deframe_eq] at hq
  have hdrop := (h.deframe_sent hlater).drop (xs.map Prod.fst).length
  rw [List.drop_left] at hdrop
  exact List.mem_singleton.mp (hdrop.subset hq)

/-- Once its frame is whole, the request has been sent. -/
theorem mem_sent (hsent : wire.frames (xs.map Prod.fst ++ [p]) <+: sentOf l.trace) :
    p ∈ payloadsSince (sentOf l₀.trace) (sentOf l.trace) := by
  have hshort : ∀ q ∈ xs.map Prod.fst ++ [p], q.length < wire.bound :=
    List.forall_mem_append.mpr ⟨h.streams.short_fst, by simpa using hlater.short⟩
  have hdrop := (wire.prefix_deframe hshort hsent).drop (xs.map Prod.fst).length
  rw [List.drop_left] at hdrop
  rw [payloadsSince, h.streams.deframe_eq]
  exact hdrop.subset (List.mem_singleton.mpr rfl)

/-- Only the request has been handled. -/
theorem eq_of_mem_requests {q : Bytes} (hq : q ∈ (l.server.world.own.requests c).drop
    (l₀.server.world.own.requests c).length) : q = p := by
  rw [h.requests_eq] at hq
  rcases h.handled hlater with ⟨hrequests, -⟩ | ⟨hrequests, -⟩
  · rw [hrequests, List.drop_length] at hq
    cases hq
  · rw [hrequests, List.drop_left] at hq
    exact List.mem_singleton.mp hq

/-- Once it was answered, the request has been handled. -/
theorem mem_requests {q : Bytes} (hstreams : Streams (xs ++ [(p, q)]) l.trace) :
    p ∈ (l.server.world.own.requests c).drop (l₀.server.world.own.requests c).length := by
  obtain ⟨hrequests, -⟩ := hlater.inv.answers_eq hlater.alone.connected hstreams
    (h.short hlater.inv.own.1 c)
  rw [hrequests, h.requests_eq, List.map_append, List.drop_left]
  exact List.mem_singleton.mpr rfl

theorem written_isPrefix : (wire.deframe (l.server.world.own.written c)).1 <+:
    l.server.world.own.responses c := by
  obtain ⟨hown, -⟩ := hlater.inv.own
  have hmono := wire.deframe_mono (hown.answered c)
  rwa [wire.deframe_frames (h.short hown c)] at hmono

/-- Only what the request handler returned has been written. -/
theorem handler_of_mem_written {q : Bytes}
    (hq : q ∈ payloadsSince (l₀.server.world.own.written c) (l.server.world.own.written c)) :
    (H p l₀.server.world.own.state).1 = .ok q := by
  have hdrop := ((h.written_isPrefix hlater).drop (xs.map Prod.snd).length).subset
  rw [payloadsSince, h.deframe_written] at hq
  have hmem := hdrop hq
  rcases h.handled hlater with ⟨-, hresponses, -⟩ | ⟨-, hresponses⟩
  · rw [hresponses, List.drop_length] at hmem
    cases hmem
  · rw [hresponses, List.drop_left] at hmem
    cases hresult : (H p l₀.server.world.own.state).1 with
    | error e => simp [hresult, Except.toOption] at hmem
    | ok r =>
      obtain rfl : q = r := by simpa [hresult, Except.toOption] using hmem
      rfl

/-- Only what the request handler returned has been taken. -/
theorem handler_of_taken {q : Bytes} (hshort : q.length < 2 ^ 32)
    (htaken : takenOf l.trace = wire.frames (xs.map Prod.snd ++ [q])) :
    (H p l₀.server.world.own.state).1 = .ok q := by
  have hresponses : xs.map Prod.snd ++ [q] <+: l.server.world.own.responses c := by
    refine hlater.inv.responses_isPrefix hlater.alone.connected (h.short hlater.inv.own.1 c) ?_
      (by rw [htaken])
    exact List.forall_mem_append.mpr ⟨h.streams.short_snd, by simpa using hshort⟩
  rcases h.handled hlater with ⟨-, heq, -⟩ | ⟨-, heq⟩
  · rw [heq] at hresponses
    have := hresponses.length_le
    simp at this
  · rw [heq, List.prefix_append_right_inj] at hresponses
    cases hresult : (H p l₀.server.world.own.state).1 with
    | error e => simp [hresult, Except.toOption] at hresponses
    | ok r =>
      obtain rfl : q = r := by simpa [hresult, Except.toOption] using hresponses
      rfl

theorem handler_of_exchange {q : Bytes} {t : List Io} (hexchange : Exchange p (.ok q) t)
    (htrace : l.trace = l₀.trace ++ t) : (H p l₀.server.world.own.state).1 = .ok q := by
  obtain ⟨hframe, hshort⟩ := hexchange.taken
  refine h.handler_of_taken hlater hshort ?_
  rw [htrace, takenOf_append, h.streams.taken, hframe, wire.frames_concat]

/-! ### What can still be answered -/

/-- The request is answered, if the handler answers it. -/
theorem answerable_of_ok (hok : ∃ q, (H p l₀.server.world.own.state).1 = .ok q) :
    l.Answerable H := by
  intro d p' hd hp'
  obtain rfl : c = d := Option.some.inj (hlater.alone.connected.symm.trans hd)
  have hprefix := hp'.trans (h.deframe_sent hlater)
  rcases h.handled hlater with ⟨hrequests, -, hstate⟩ | ⟨hrequests, -⟩
  · rw [hrequests, List.prefix_append_right_inj] at hprefix
    obtain rfl : p' = p := by simpa using hprefix
    rw [hstate]
    exact hok
  · -- nothing is left to be handled
    rw [hrequests] at hprefix
    have := hprefix.length_le
    simp at this

/-- Until the frame of the request is whole, there is nothing to be answered. -/
theorem sent_or_answerable :
    wire.frames (xs.map Prod.fst ++ [p]) <+: sentOf l.trace ∨ l.Answerable H := by
  rcases List.prefix_concat_iff.mp (h.deframe_sent hlater) with heq | hfewer
  · left
    rw [← heq]
    exact ⟨_, wire.flatten_deframe _⟩
  · right
    intro d p' hd hp'
    obtain rfl : c = d := Option.some.inj (hlater.alone.connected.symm.trans hd)
    have hlength := (hp'.trans hfewer).length_le
    rcases h.handled hlater with ⟨hrequests, -⟩ | ⟨hrequests, -⟩
    · rw [hrequests] at hlength
      simp at hlength
    · rw [hrequests] at hlength
      simp at hlength

end Poised

end Link

end

section

variable [Protobuf] {σ : Type}

/-- What the handler makes of a message, in the state in which the server is. -/
def Link.answerOf (l : Link σ) (server : SyncServer σ) (g : GenericHandler σ)
    (m : Message g.RequestType) : Except Exception (Message g.ResponseType) :=
  (g.handler m server.requestResponsePairs l.server.world.own.state).1

/-- **A message is delivered whole, or an error is reported.** The request `m`, for which `g` is
registered, came to `r`, between `now` and `later`, on connection `c`. -/
structure Delivered (server : SyncServer σ) (g : GenericHandler σ) (m : Message g.RequestType)
    {ResponseType : Descriptor} (r : SyncClientResult (Message ResponseType)) (c : ℕ)
    (now later : Link σ) : Prop where
  /-- What was sent stands for the request, or for nothing. -/
  sent : ∀ p ∈ payloadsSince (sentOf now.trace) (sentOf later.trace), ∀ msg, Carries p msg →
    msg = ⟨g.RequestType, m⟩
  /-- Nothing but the handler was invoked, and on nothing but the request. -/
  invoked : ∀ p ∈ (later.server.world.own.requests c).drop (now.server.world.own.requests c).length,
    ∀ g' m', server.Dispatches p g' m' →
      ((g', ⟨g'.RequestType, m'⟩) : Invocation σ) = (g, ⟨g.RequestType, m⟩)
  /-- What was sent back stands for the response, or for nothing. -/
  answered : ∀ p ∈
      payloadsSince (now.server.world.own.written c) (later.server.world.own.written c),
    ∀ msg, Carries p msg → ∃ response, now.answerOf server g m = .ok response ∧
      msg = ⟨g.ResponseType, response⟩
  /-- Nothing but the response was returned. -/
  returned : ∀ v, r = .ok v → ∃ response, now.answerOf server g m = .ok response ∧
    (⟨ResponseType, v⟩ : BaseProto) = ⟨g.ResponseType, response⟩
  /-- A request that cannot be serialized is an error. -/
  request : serializeToString m = none → ∃ error, r = .error error
  /-- A response that cannot be serialized is an error, and the server says so. -/
  response : ∀ p ∈
      (later.server.world.own.requests c).drop (now.server.world.own.requests c).length,
    server.Dispatches p g m → ∀ response, now.answerOf server g m = .ok response →
      serializeToString response = none → (∃ error, r = .error error) ∧
        ∃ message, (server.acceptMessage p now.server.world.own.state).1 =
          .ok (.error ⟨.unableToSerializeMessage, message⟩)

/-- What `SerializeToString` leaves of the request does not parse; or it parses as the request
alone, the response can be serialized, and so can the request, if the client expects that
response. -/
def Deliverable (server : SyncServer σ) (g : GenericHandler σ) (m : Message g.RequestType)
    (ResponseType : Descriptor) (now : Link σ) : Prop :=
  ∀ m', parseFromString g.RequestType ((serializeToString m).getD []) = some m' →
    m' = m ∧ ∀ response, now.answerOf server g m = .ok response →
      (serializeToString response).isSome ∧
        (ResponseType = g.ResponseType → (serializeToString m).isSome)

variable [LawfulProtobuf]

/-- What the payload of a message can be taken for. -/
theorem carries_makePayloadFromProto {T : Descriptor} {m : Message T} {msg : BaseProto}
    (h : Carries (makePayloadFromProto m) msg) :
    ∃ m', parseFromString T ((serializeToString m).getD []) = some m' ∧ msg = ⟨T, m'⟩ := by
  obtain ⟨data, hpayload, hparse⟩ := h
  obtain ⟨T', m'⟩ := msg
  obtain ⟨hname, rfl⟩ := createProtoPayload_inj (LawfulProtobuf.delimiter_not_mem_fullName T)
    (LawfulProtobuf.delimiter_not_mem_fullName T') hpayload
  obtain rfl := LawfulProtobuf.fullName_injective hname
  exact ⟨m', hparse, rfl⟩

/-- What the payload of a message that can be serialized is taken for. -/
theorem eq_of_carries {T : Descriptor} {m : Message T} (hm : (serializeToString m).isSome)
    {msg : BaseProto} (h : Carries (makePayloadFromProto m) msg) : msg = ⟨T, m⟩ := by
  obtain ⟨m', hparse, rfl⟩ := carries_makePayloadFromProto h
  obtain ⟨data, hdata⟩ := Option.isSome_iff_exists.mp hm
  rw [hdata, Option.getD_some, LawfulProtobuf.parse_serialize m data hdata] at hparse
  rw [Option.some.inj hparse]

variable {server : SyncServer σ} {g : GenericHandler σ} {m : Message g.RequestType}
  {ResponseType : Descriptor} {s₀ : σ} {c : ℕ} {xs : List (Bytes × Bytes)} {l₀ l : Link σ}
  {r : SyncClientResult (Message ResponseType)}

/-- What the request handler returns, if nothing else can be made of the request. -/
theorem Deliverable.response (hdeliverable : Deliverable server g m ResponseType l₀)
    (hg : server.handlers.lookup g.requestName = some g) {q : Bytes}
    (hq : (server.requestHandler (makePayloadFromProto m) l₀.server.world.own.state).1 = .ok q) :
    ∃ response, l₀.answerOf server g m = .ok response ∧ q = makePayloadFromProto response ∧
      (serializeToString response).isSome ∧
      (ResponseType = g.ResponseType → (serializeToString m).isSome) := by
  cases hdecode : makeBaseProtoFromPayload (makePayloadFromProto m) with
  | error error => simp [SyncServer.requestHandler, SyncServer.acceptMessage, hdecode] at hq
  | ok msg =>
    obtain ⟨T, m'⟩ := msg
    obtain ⟨m'', hparse, hmsg⟩ :=
      carries_makePayloadFromProto (makeBaseProtoFromPayload_eq_ok_iff.mp hdecode)
    obtain ⟨rfl, hserializes⟩ := hdeliverable m'' hparse
    rw [hmsg] at hdecode
    rw [SyncServer.requestHandler_of_dispatches ⟨hdecode, hg⟩] at hq
    cases hanswer : l₀.answerOf server g m'' with
    | error e =>
      rw [Link.answerOf] at hanswer
      simp [hanswer, Except.map] at hq
    | ok response =>
      refine ⟨response, rfl, ?_, hserializes response hanswer⟩
      rw [Link.answerOf] at hanswer
      rw [hanswer] at hq
      exact (Except.ok.inj hq).symm

/-- **Nothing is taken for something else.** -/
theorem Deliverable.delivered (hdeliverable : Deliverable server g m ResponseType l₀)
    (hg : server.handlers.lookup g.requestName = some g)
    (h : l₀.Poised server.requestHandler s₀ c xs)
    (hlater : l₀.Later server.requestHandler s₀ c (makePayloadFromProto m) l)
    (hr : ∀ v, r = .ok v → ∃ q, makeProtoFromPayload ResponseType q = .ok v ∧
      (server.requestHandler (makePayloadFromProto m) l₀.server.world.own.state).1 = .ok q) :
    Delivered server g m r c l₀ l := by
  have hcarries : ∀ msg, Carries (makePayloadFromProto m) msg → msg = ⟨g.RequestType, m⟩ := by
    intro msg hmsg
    obtain ⟨m', hparse, rfl⟩ := carries_makePayloadFromProto hmsg
    rw [(hdeliverable m' hparse).1]
  have hvalue : ∀ v, r = .ok v → ∃ response, l₀.answerOf server g m = .ok response ∧
      (⟨ResponseType, v⟩ : BaseProto) = ⟨g.ResponseType, response⟩ ∧
      (ResponseType = g.ResponseType → (serializeToString m).isSome) := by
    intro v hv
    obtain ⟨q, hparse, hq⟩ := hr v hv
    obtain ⟨response, hanswer, rfl, hserializes, hrequest⟩ := hdeliverable.response hg hq
    exact ⟨response, hanswer, eq_of_carries hserializes (makeProtoFromPayload_eq_ok_iff.mp hparse),
      hrequest⟩
  refine ⟨?_, ?_, ?_, ?_, ?_, ?_⟩
  · intro p hp msg hmsg
    obtain rfl := h.eq_of_mem_sent hlater hp
    exact hcarries msg hmsg
  · intro p hp g' m' hdispatches
    obtain rfl := h.eq_of_mem_requests hlater hp
    have hmsg := hcarries _ (makeBaseProtoFromPayload_eq_ok_iff.mp hdispatches.decodes)
    have htype : g'.RequestType = g.RequestType := congrArg Sigma.fst hmsg
    have hstored := hdispatches.stored
    rw [GenericHandler.requestName, htype] at hstored
    obtain rfl : g' = g := Option.some.inj (hstored.symm.trans hg)
    rw [hmsg]
  · intro q hq msg hmsg
    obtain ⟨response, hanswer, rfl, hserializes, -⟩ :=
      hdeliverable.response hg (h.handler_of_mem_written hlater hq)
    exact ⟨response, hanswer, eq_of_carries hserializes hmsg⟩
  · intro v hv
    obtain ⟨response, hanswer, heq, -⟩ := hvalue v hv
    exact ⟨response, hanswer, heq⟩
  · intro hnone
    cases hr' : r with
    | error error => exact ⟨error, rfl⟩
    | ok v =>
      obtain ⟨response, -, heq, hrequest⟩ := hvalue v hr'
      have hsome := hrequest (congrArg Sigma.fst heq)
      rw [hnone] at hsome
      cases hsome
  · intro p hp hdispatches response hanswer hnone
    obtain rfl := h.eq_of_mem_requests hlater hp
    obtain ⟨m', hparse, -⟩ := carries_makePayloadFromProto
      (makeBaseProtoFromPayload_eq_ok_iff.mp hdispatches.decodes)
    have hsome := ((hdeliverable m' hparse).2 response hanswer).1
    rw [hnone] at hsome
    cases hsome

/-! ### The run of the last call -/

section Run

variable {start session : Session} {after : List (Event Choice LinkAct)}

omit [LawfulProtobuf] in
/-- Within its last call, the thread is in an exchange. -/
theorem Session.Inside.midway {t₀ t : List Io} {op : ClientOp} (h : start.Inside t₀ op t)
    (htodo : start.todo = [.sendRequest ResponseType m]) :
    ∃ t', Midway (makePayloadFromProto m) op t' ∧ t = t₀ ++ t' := by
  obtain ⟨session, call, todo, t₁, t₂, hsince, hcall, hwithin, rfl⟩ := h
  obtain ⟨os, t', -, rfl, hall, hcalls⟩ := hsince.performed
  rw [htodo, hcall] at hcalls
  obtain ⟨hos, htail⟩ := List.append_eq_singleton_iff.mp hcalls |>.resolve_right (by simp)
  obtain rfl : os = [] := List.map_eq_nil_iff.mp hos
  obtain ⟨-, rfl⟩ := hall.of_nil
  obtain rfl : call = .sendRequest ResponseType m := (List.cons.inj htail).1
  cases hwithin with
  | sending request hvalid hmidway => exact ⟨t₂, hmidway, by rw [List.append_nil]⟩

/-- The run of the last call, at any moment. -/
theorem linkRun_later {H : RequestHandler σ} (h : l₀.Poised H s₀ c xs)
    (htodo : start.todo = [.sendRequest ResponseType m]) (hafter : ∀ e ∈ after, Undisturbed e) :
    l₀.Later H s₀ c (makePayloadFromProto m) (linkRun H start l₀ after).world := by
  refine ⟨linkRun_inv start h.inv after, linkRun_alone (h.calm.alone h.connected) hafter,
    length_makePayloadFromProto_lt m, ?_⟩
  cases hrest : (linkRun H start l₀ after).rest with
  | raise e => exact absurd hrest (linkRun_ne_raise start h.inv after e)
  | call op k =>
    obtain ⟨t, hmidway, htrace⟩ := (linkRun_inside h.inv hrest).midway htodo
    exact ⟨t, htrace, hmidway.sent_isPrefix⟩
  | ret session =>
    obtain ⟨os, t, -, htrace, hall, hcalls⟩ := (linkRun_since h.inv hrest).performed
    refine ⟨t, htrace, ?_⟩
    rw [htodo] at hcalls
    rcases List.append_eq_singleton_iff.mp hcalls with ⟨hos, -⟩ | ⟨hos, -⟩
    · obtain rfl : os = [] := List.map_eq_nil_iff.mp hos
      obtain ⟨-, rfl⟩ := hall.of_nil
      exact List.nil_prefix
    · obtain ⟨⟨call, r⟩, rfl, hcall⟩ := List.map_eq_singleton_iff.mp hos
      obtain rfl : call = .sendRequest ResponseType m := hcall
      generalize session.client = client' at hall
      cases hall.singleton with
      | refused request hinvalid => exact List.nil_prefix
      | exchanged request hvalid hexchange => exact hexchange.sent_isPrefix

/-- Its operations are possible. -/
theorem linkRun_ready {H : RequestHandler σ} (h : l₀.Poised H s₀ c xs)
    (htodo : start.todo = [.sendRequest ResponseType m]) (t : List Io) (op : ClientOp) (k)
    (hrest : (linkRun H start l₀ after).rest = .call op k) : op.Ready (l₀.trace ++ t) := by
  obtain ⟨t', hmidway, -⟩ := (linkRun_inside h.inv hrest).midway htodo
  exact hmidway.ready (by simp [h.connected])

/-- **The run stays calm, if the handler answers.** -/
theorem linkRun_answered {H : RequestHandler σ} (h : l₀.Poised H s₀ c xs)
    (htodo : start.todo = [.sendRequest ResponseType m]) (hafter : ∀ e ∈ after, Undisturbed e)
    (hfull : ∀ t, (linkRun H start l₀ after).world.trace = l₀.trace ++ t → Full t)
    (hok : ∃ q, (H (makePayloadFromProto m) l₀.server.world.own.state).1 = .ok q) :
    ∃ t, l₀.Standing (linkRun H start l₀ after).world t :=
  calm_run h.inv h.calm hafter hfull fun _ hbefore t _ =>
    ⟨linkRun_ready h htodo t, h.answerable_of_ok
      (linkRun_later h htodo fun e he => hafter e (hbefore.subset he)) hok⟩

/-- **The request is sent whole**, whatever the handler does. -/
theorem linkRun_sent {H : RequestHandler σ} (h : l₀.Poised H s₀ c xs)
    (htodo : start.todo = [.sendRequest ResponseType m]) (hafter : ∀ e ∈ after, Undisturbed e)
    (hfull : ∀ t, (linkRun H start l₀ after).world.trace = l₀.trace ++ t → Full t)
    {x : SyncClientResult Bytes} {t : List Io} (hexchange : Exchange (makePayloadFromProto m) x t)
    (htrace : (linkRun H start l₀ after).world.trace = l₀.trace ++ t) :
    wire.frames (xs.map Prod.fst ++ [makePayloadFromProto m]) <+:
      sentOf (linkRun H start l₀ after).world.trace := by
  have hcalm := calm_until
      (E := fun l => wire.frames (xs.map Prod.fst ++ [makePayloadFromProto m]) <+: sentOf l.trace)
      h.inv h.calm hafter hfull fun before hbefore t' _ => by
    have hlater : l₀.Later H s₀ c (makePayloadFromProto m) (linkRun H start l₀ before).world :=
      linkRun_later h htodo fun e he => hafter e (hbefore.subset he)
    exact (h.sent_or_answerable hlater).imp_right fun hanswerable =>
      ⟨linkRun_ready h htodo t', hanswerable⟩
  rcases hcalm with ⟨t', hstanding⟩ | ⟨before, hbefore, hsent⟩
  · -- nothing was cut off
    obtain rfl : t = t' := List.append_cancel_left (htrace.symm.trans hstanding.trace)
    obtain ⟨response, -, hstreams⟩ := hexchange.replied hstanding.whole
      (length_makePayloadFromProto_lt m)
    rw [htrace, (h.streams.append hstreams).sent, List.map_append]
    exact List.prefix_rfl
  · obtain ⟨rest, rfl⟩ := hbefore
    obtain ⟨t', ht'⟩ : (linkRun H start l₀ before).world.trace <+:
      (linkRun H start l₀ (before ++ rest)).world.trace := trace_linkRun before rest
    rw [← ht', sentOf_append]
    exact hsent.trans (List.prefix_append _ _)

/-! ### Delivery -/

omit [LawfulProtobuf] in
/-- A request that is refused moves nothing. -/
theorem Link.Poised.delivered_of_refused (h : l₀.Poised server.requestHandler s₀ c xs)
    (hlater : l₀.Later server.requestHandler s₀ c (makePayloadFromProto m) l)
    (htrace : l.trace = l₀.trace) (error : Error SyncClientError) :
    Delivered server g m (.error error : SyncClientResult (Message ResponseType)) c l₀ l := by
  have hprefix := hlater.inv.requests_isPrefix hlater.alone.connected
  rw [htrace, h.streams.deframe_eq] at hprefix
  have hlength := hprefix.length_le
  rcases h.handled hlater with ⟨hrequests, hresponses, -⟩ | ⟨hrequests, -⟩
  · have hnone :
        (l.server.world.own.requests c).drop (l₀.server.world.own.requests c).length = [] := by
      rw [hrequests, h.requests_eq, List.drop_length]
    refine ⟨?_, ?_, ?_, nofun, fun _ => ⟨error, rfl⟩, ?_⟩
    · rw [htrace, payloadsSince, List.drop_length]
      nofun
    · rw [hnone]
      nofun
    · have hwritten := (h.written_isPrefix hlater).drop (xs.map Prod.snd).length
      rw [hresponses, List.drop_length, List.prefix_nil] at hwritten
      rw [payloadsSince, h.deframe_written, hwritten]
      nofun
    · rw [hnone]
      nofun
  · rw [hrequests] at hlength
    simp at hlength

/-- **Something else can be made of what is not deliverable.** -/
theorem Delivered.deliverable {x : SyncClientResult Bytes} {t : List Io}
    (hdelivered : Delivered server g m (replyOf ResponseType x) c l₀
      (linkRun server.requestHandler start l₀ after).world)
    (hg : server.handlers.lookup g.requestName = some g)
    (h : l₀.Poised server.requestHandler s₀ c xs)
    (htodo : start.todo = [.sendRequest ResponseType m]) (hafter : ∀ e ∈ after, Undisturbed e)
    (hfull : ∀ t, (linkRun server.requestHandler start l₀ after).world.trace = l₀.trace ++ t →
      Full t)
    (hexchange : Exchange (makePayloadFromProto m) x t)
    (htrace : (linkRun server.requestHandler start l₀ after).world.trace = l₀.trace ++ t) :
    Deliverable server g m ResponseType l₀ := by
  intro m' hparse
  have hlater := linkRun_later h htodo hafter
  have hcarries : Carries (makePayloadFromProto m) ⟨g.RequestType, m'⟩ := ⟨_, rfl, hparse⟩
  have hmem := h.mem_sent hlater (linkRun_sent h htodo hafter hfull hexchange htrace)
  obtain rfl : m' = m := eq_of_heq (Sigma.mk.inj (hdelivered.sent _ hmem _ hcarries)).2
  refine ⟨rfl, fun response hanswer => ?_⟩
  have hdispatches : server.Dispatches (makePayloadFromProto m') g m' :=
    ⟨makeBaseProtoFromPayload_eq_ok_iff.mpr hcarries, hg⟩
  have hresult : (g.handler m' server.requestResponsePairs l₀.server.world.own.state).1 =
      .ok response := hanswer
  have hrequest : (server.requestHandler (makePayloadFromProto m')
      l₀.server.world.own.state).1 = .ok (makePayloadFromProto response) := by
    rw [SyncServer.requestHandler_of_dispatches hdispatches, hresult]
    rfl
  -- so the run stays calm, and the call returns the payload of the response
  obtain ⟨t', hstanding⟩ := linkRun_answered h htodo hafter hfull ⟨_, hrequest⟩
  obtain rfl : t = t' := List.append_cancel_left (htrace.symm.trans hstanding.trace)
  obtain ⟨q, rfl, hexchanged⟩ := hexchange.replied hstanding.whole
    (length_makePayloadFromProto_lt m')
  obtain rfl : makePayloadFromProto response = q :=
    Except.ok.inj (hrequest.symm.trans (h.handler_of_exchange hlater hexchange htrace))
  have hserializes : (serializeToString response).isSome := by
    by_contra hnone
    obtain ⟨-, message, hreported⟩ := hdelivered.response _
      (h.mem_requests hlater (htrace ▸ h.streams.append hexchanged)) hdispatches response
      hanswer (by simpa using hnone)
    rw [SyncServer.acceptMessage_of_dispatches hdispatches, hresult] at hreported
    cases hreported
  refine ⟨hserializes, fun htype => ?_⟩
  by_contra hnone
  obtain ⟨error, herror⟩ := hdelivered.request (by simpa using hnone)
  subst htype
  rw [replyOf_makePayloadFromProto hserializes] at herror
  cases herror

/-- **One request and its response.** Over a connection on which nothing fails and no read of the
client comes short, a request is delivered whole and answered by what the handler returned, or an
error is reported, if and only if the client refuses the request, or nothing else can be made of
what is sent. -/
theorem delivered_iff (server : SyncServer σ) (s₀ : σ) (client : SyncClient)
    (calls : List ClientCall) (g : GenericHandler σ)
    (hg : server.handlers.lookup g.requestName = some g) (m : Message g.RequestType)
    (ResponseType : Descriptor) (before after : List (Event Choice LinkAct))
    {session session' : Session} {r : SyncClientResult (Message ResponseType)} {c : ℕ}
    (hnow : (clientRun server.requestHandler s₀ client calls before).rest = .ret session)
    (htodo : session.todo = [.sendRequest ResponseType m])
    (hconnected : connectionOf
      (clientRun server.requestHandler s₀ client calls before).world.trace = some c)
    (hcalm : (clientRun server.requestHandler s₀ client calls before).world.Calm)
    (hwhole : Whole (clientRun server.requestHandler s₀ client calls before).world.trace)
    (hafter : ∀ e ∈ after, Undisturbed e)
    (hfull : Full (clientRun server.requestHandler s₀ client calls (before ++ after)).world.trace)
    (hlater :
      (clientRun server.requestHandler s₀ client calls (before ++ after)).rest = .ret session')
    (hreturned : session'.outcomes = session.outcomes ++ [⟨.sendRequest ResponseType m, r⟩]) :
    Delivered server g m r c (clientRun server.requestHandler s₀ client calls before).world
        (clientRun server.requestHandler s₀ client calls (before ++ after)).world ↔
      session.client.validate g.RequestType ResponseType ≠ .ok () ∨
        Deliverable server g m ResponseType
          (clientRun server.requestHandler s₀ client calls before).world := by
  have hinv := clientRun_inv server.requestHandler s₀ client calls before
  obtain ⟨xs, -, hstreams⟩ := (clientRun_session hnow).performed.replies hwhole
  rw [clientRun_append_eq_linkRun hnow] at hfull hlater ⊢
  generalize (clientRun server.requestHandler s₀ client calls before).world = l₀ at *
  have hpoised : l₀.Poised server.requestHandler s₀ c xs :=
    ⟨hinv, hcalm, hconnected, hstreams, length_responses_lt⟩
  have hmoment := linkRun_later hpoised htodo hafter
  obtain ⟨os, t, houtcomes, htrace, hall, -⟩ := (linkRun_since hinv hlater).performed
  obtain rfl : os = [⟨.sendRequest ResponseType m, r⟩] :=
    (List.append_cancel_left (hreturned.symm.trans houtcomes)).symm
  have hfull' : ∀ t, (linkRun server.requestHandler session l₀ after).world.trace = l₀.trace ++ t →
      Full t := fun t ht io hio => hfull io (ht ▸ List.mem_append_right _ hio)
  generalize session'.client = client' at hall
  cases hall.singleton with
  | @refused _ _ _ error hinvalid =>
    rw [List.append_nil] at htrace
    exact ⟨fun _ => .inl (by simp [hinvalid]),
      fun _ => hpoised.delivered_of_refused hmoment htrace error⟩
  | @exchanged _ _ _ x t hvalid hexchange =>
    refine ⟨fun hdelivered => .inr ?_, ?_⟩
    · exact hdelivered.deliverable hg hpoised htodo hafter hfull' hexchange htrace
    · rintro (hrefuses | hdeliverable)
      · exact absurd hvalid hrefuses
      · refine hdeliverable.delivered hg hpoised hmoment fun v hv => ?_
        obtain ⟨q, rfl, hparse⟩ := replyOf_eq_ok_iff.mp hv
        exact ⟨q, hparse, hpoised.handler_of_exchange hmoment hexchange htrace⟩

end Run

end

namespace TestProto

/-- A handler that answers every greeting with this one. -/
def answering (m : HelloWorld) : GenericHandler Unit :=
  ⟨TestType.helloWorld, TestType.helloWorld, fun _ _ s => (.ok m, s)⟩

/-- A response that cannot be serialized passes for the empty one. -/
theorem requestHandler_answering {m : HelloWorld} (h : 2 ^ 31 ≤ m.message.length) :
    (SyncServer.registered .silentIgnore [answering m]).requestHandler =
      (SyncServer.registered .silentIgnore [answering {}]).requestHandler := by
  have hpayload : makePayloadFromProto (T := TestType.helloWorld) m =
      makePayloadFromProto (T := TestType.helloWorld) {} := by
    rw [makePayloadFromProto, show serializeToString (T := TestType.helloWorld) m = none from
      HelloWorld.serialize_eq_none h]
    rfl
  funext payload state
  rw [SyncServer.requestHandler, SyncServer.requestHandler, SyncServer.acceptMessage,
    SyncServer.acceptMessage]
  cases makeBaseProtoFromPayload payload with
  | error error => rfl
  | ok msg =>
    obtain ⟨T, x⟩ := msg
    cases T with
    | mappingReflectionRequest => rfl
    | mappingReflectionResponse => rfl
    | helloWorld =>
      show (Except.ok (makePayloadFromProto (T := TestType.helloWorld) m), state) =
        (Except.ok (makePayloadFromProto (T := TestType.helloWorld) {}), state)
      rw [hpayload]
    | empty => rfl

/-- A greeting at a server, before and after the request. -/
abbrev oneGreeting (g : GenericHandler Unit) (es : List (Event Choice LinkAct)) :
    Config clientSignature Exception Session (Link Unit) :=
  clientRun (SyncServer.registered .silentIgnore [g]).requestHandler () unchecked
    [.connect, greet (str "hi")] es

/-- The turns of one request. -/
def requestRun : List (Event Choice LinkAct) :=
  clientTurns 2 1000 ++ serverTurns 10 ++ clientTurns 2 1000

/-- A greeting of two gibibytes. -/
def bloated : HelloWorld where
  message := List.replicate (2 ^ 31) 97

/-- The handler answers with two gibibytes, and the client gets an empty greeting. -/
theorem not_delivered_bloated :
    ∃ session, (oneGreeting (answering bloated) (clientTurns 2 1000 ++ requestRun)).rest =
        .ret session ∧
      replies session = [.ok {}] ∧
      ¬Delivered (SyncServer.registered .silentIgnore [answering bloated]) (answering bloated)
        { message := str "hi" } (.ok {} : SyncClientResult (Message TestType.helloWorld)) 1
        (oneGreeting (answering bloated) (clientTurns 2 1000)).world
        (oneGreeting (answering bloated) (clientTurns 2 1000 ++ requestRun)).world := by
  have hreplies : (oneGreeting (answering {}) (clientTurns 2 1000 ++ requestRun)).rest.result?.map
      (fun r => r.map replies) = some (.ok [.ok {}]) := by
    decide +kernel
  obtain ⟨session, hrest, hsession⟩ := Program.exists_ret_of_map hreplies
  have hlength : bloated.message.length = 2 ^ 31 := List.length_replicate
  refine ⟨session, ?_, hsession, fun hdelivered => ?_⟩
  · rw [oneGreeting, requestHandler_answering hlength.ge]
    exact hrest
  · obtain ⟨response, hanswer, hmsg⟩ := hdelivered.returned {} rfl
    obtain rfl : bloated = response := Except.ok.inj hanswer
    have hempty : ({} : HelloWorld) = bloated := eq_of_heq (Sigma.mk.inj hmsg).2
    rw [← hempty] at hlength
    simp at hlength

/-- A greeting that is echoed is delivered. -/
theorem delivered_iff_echo :
    ∃ session, (oneGreeting echo (clientTurns 2 1000 ++ requestRun)).rest = .ret session ∧
      replies session = [.ok { message := str "hi" }] ∧
      Delivered (SyncServer.registered .silentIgnore [echo]) echo { message := str "hi" }
        (.ok { message := str "hi" } : SyncClientResult (Message TestType.helloWorld)) 1
        (oneGreeting echo (clientTurns 2 1000)).world
        (oneGreeting echo (clientTurns 2 1000 ++ requestRun)).world := by
  have hreplies : (oneGreeting echo (clientTurns 2 1000 ++ requestRun)).rest.result?.map
      (fun r => r.map fun session => (replies session, session.outcomes.length)) =
        some (.ok ([.ok { message := str "hi" }], 2)) := by
    decide +kernel
  obtain ⟨session, hrest, hsession⟩ := Program.exists_ret_of_map hreplies
  obtain ⟨hreplied, hlength⟩ := Prod.mk.inj hsession
  have hnow : (oneGreeting echo (clientTurns 2 1000)).rest =
      .ret ⟨unchecked, [⟨.connect, .ok ()⟩], [greet (str "hi")]⟩ := rfl
  have hinv := clientRun_inv (SyncServer.registered .silentIgnore [echo]).requestHandler ()
    unchecked [.connect, greet (str "hi")] (clientTurns 2 1000)
  have hlater := hrest
  rw [oneGreeting, clientRun_append_eq_linkRun hnow] at hlater
  obtain ⟨os, -, houtcomes, -, -, hcalls⟩ := (linkRun_since hinv hlater).performed
  rw [houtcomes] at hlength
  obtain ⟨⟨call, r⟩, rfl⟩ := List.length_eq_one_iff.mp (by simpa using hlength)
  obtain rfl : call = greet (str "hi") := (List.cons.inj hcalls).1
  rw [replies, houtcomes] at hreplied
  obtain rfl : r = .ok { message := str "hi" } := List.singleton_inj.mp hreplied
  have hcalm : (oneGreeting echo (clientTurns 2 1000)).world.Calm :=
    ⟨by decide +kernel, by decide +kernel, by decide +kernel⟩
  have hundisturbed : ∀ e ∈ requestRun, Undisturbed e := by
    intro e he
    simp only [requestRun, clientTurns, serverTurns, List.mem_append, List.mem_replicate] at he
    rcases he with (⟨-, rfl⟩ | ⟨-, rfl⟩) | ⟨-, rfl⟩
    · exact .client 1000
    · exact .server 1000
    · exact .client 1000
  refine ⟨session, hrest, by rw [replies, houtcomes]; rfl, (delivered_iff _ () unchecked
    [.connect, greet (str "hi")] echo rfl { message := str "hi" } TestType.helloWorld
    (clientTurns 2 1000) requestRun hnow rfl (by decide +kernel) hcalm (by decide +kernel)
    hundisturbed (by decide +kernel) hrest houtcomes).mpr (.inr fun m' hparse => ?_)⟩
  have hserializes :
      (serializeToString (T := TestType.helloWorld) { message := str "hi" }).isSome := by
    decide
  obtain ⟨-, hmsg⟩ := Sigma.mk.inj (eq_of_carries hserializes ⟨_, rfl, hparse⟩)
  refine ⟨eq_of_heq hmsg, fun response hanswer => ?_⟩
  obtain rfl : _ = response := Except.ok.inj hanswer
  exact ⟨hserializes, fun _ => hserializes⟩

end TestProto

end InterProcessCourier
