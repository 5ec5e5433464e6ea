import InterProcessCourier.Duplex
import InterProcessCourier.Replies

/-!
# Without sockets

An application could have been written in one process with the handlers: where it calls the client,
and the client the server, it would call the request handler. `ClientCall.direct` is that program,
and `directAll` runs several applications one after the other. As long as no socket operation of a
process fails or comes short and the request handler always returns, a system of processes gives
every one of them that was accepted the results of this program, with the applications in the order
in which their connections were accepted. How their calls interleave, in what pieces the bytes
travel, how long the server takes and where a process ends do not show.

## Main definitions

* `ClientCall.direct`, `directCalls`, `directAll` — the applications without sockets

## Main results

* `RepliesAll.direct` — calls that are all replied to are direct calls
* `calls_transparent` — the results of a system are those of direct calls
-/

namespace InterProcessCourier

open Interaction

/-! ### Direct calls -/

/-- The request handler is called, and has to return. -/
def ask {σ : Type} (H : RequestHandler σ) (payload : Bytes) (s : σ) : Option (Bytes × σ) :=
  match H payload s with
  | (.ok response, s') => some (response, s')
  | (.error _, _) => none

theorem ask_eq_some {σ : Type} {H : RequestHandler σ} {payload response : Bytes} {s s' : σ}
    (h : H payload s = (.ok response, s')) : ask H payload s = some (response, s') := by
  rw [ask, h]

/-- Where the handler has returned every time, every request has its response. -/
theorem Own.requests_of_returned {σ : Type} {o : Own σ} {c : ℕ}
    (h : ∀ k ∈ o.callsOf c, ∃ r, k.result = .ok r) : o.requests c = (o.answers c).map Prod.fst := by
  rw [requests, answers]
  generalize o.callsOf c = ks at h
  induction ks with
  | nil => rfl
  | cons k ks ih =>
    obtain ⟨r, hr⟩ := h k (by simp)
    rw [List.map_cons, List.filterMap_cons, hr, ih fun k' hk' => h k' (by simp [hk'])]
    rfl

section

variable [Protobuf] {ι σ : Type}

/-- A call that reaches the request handler in the same process. -/
def ClientCall.direct (H : RequestHandler σ) (client : SyncClient) :
    (call : ClientCall) → σ → Option (call.Result × SyncClient × σ)
  | registerRequestResponsePair RequestType ResponseType, s =>
    let (r, client') := client.registerRequestResponsePair RequestType ResponseType
    some (r, client', s)
  | connect, s =>
    if client.clientOptions.validateReqResPairStrategy = .serverReflection then
      (ask H reflectionPayload s).map fun (response, s') =>
        let (r, client') := client.reflected (replyOf MappingReflectionResponse (.ok response))
        (r, client', s')
    else some (.ok (), client, s)
  | @sendRequest _ RequestType ResponseType request, s =>
    match client.validate RequestType ResponseType with
    | .error error => some (.error error, client, s)
    | .ok () =>
      (ask H (makePayloadFromProto request) s).map fun (response, s') =>
        (replyOf ResponseType (.ok response), client, s')

/-- Calls, one after another. -/
def directCalls (H : RequestHandler σ) :
    SyncClient → List ClientCall → σ → Option (List Outcome × SyncClient × σ)
  | client, [], s => some ([], client, s)
  | client, call :: calls, s => do
    let (r, client', s') ← call.direct H client s
    let (os, client'', s'') ← directCalls H client' calls s'
    return (⟨call, r⟩ :: os, client'', s'')

/-- Applications, one after another, each with the number of calls that it makes. -/
def directAll (H : RequestHandler σ) (apps : ι → Application) :
    List (ι × ℕ) → σ → Option (List (List Outcome) × σ)
  | [], s => some ([], s)
  | (i, n) :: order, s => do
    let (os, _, s') ← directCalls H (apps i).client ((apps i).calls.take n) s
    let (rest, s'') ← directAll H apps order s'
    return (os :: rest, s'')

section

variable {H : RequestHandler σ} {client client' client'' : SyncClient} {s s' s'' : σ}

theorem directCalls_concat {calls : List ClientCall} {os : List Outcome} {call : ClientCall}
    {r : call.Result} (h : directCalls H client calls s = some (os, client', s'))
    (hcall : call.direct H client' s' = some (r, client'', s'')) :
    directCalls H client (calls ++ [call]) s = some (os ++ [⟨call, r⟩], client'', s'') := by
  induction calls generalizing client s os with
  | nil =>
    obtain ⟨rfl, hrest⟩ := Prod.mk.inj (Option.some.inj h)
    obtain ⟨rfl, rfl⟩ := Prod.mk.inj hrest
    simp [directCalls, hcall]
  | cons first calls ih =>
    simp only [directCalls, Option.bind_eq_bind, Option.pure_def, Option.bind_eq_some_iff,
      Option.some.injEq, Prod.mk.injEq, Prod.exists] at h
    obtain ⟨r₁, client₁, s₁, hfirst, os', client₂, s₂, hrest, rfl, rfl, rfl⟩ := h
    simp [directCalls, hfirst, ih hrest]

/-- A call that is replied to is a direct call, if the handler gave the replies. -/
theorem Replies.direct {call : ClientCall} {r : call.Result} {xs : List (Bytes × Bytes)}
    (h : Replies client call r client' xs)
    (hxs : callAll (xs.map fun x => H x.1) s = (xs.map fun x => .ok x.2, s')) :
    call.direct H client s = some (r, client', s') := by
  have hnothing : xs = [] → s = s' := by
    rintro rfl
    exact congrArg Prod.snd hxs
  have hasked : ∀ {payload response}, xs = [(payload, response)] →
      ask H payload s = some (response, s') := by
    rintro payload response rfl
    obtain ⟨hresult, hstate⟩ := Prod.mk.inj hxs
    exact ask_eq_some (Prod.ext (List.cons.inj hresult).1 hstate)
  cases h with
  | registers RequestType ResponseType => rw [ClientCall.direct, hnothing rfl]
  | connected h => rw [ClientCall.direct, if_neg h, hnothing rfl]
  | reflected response h =>
    rw [ClientCall.direct, if_pos h, hasked rfl]
    rfl
  | refused request h =>
    rw [ClientCall.direct, h, hnothing rfl]
  | replied request response h =>
    rw [ClientCall.direct, h]
    simp only [hasked rfl, Option.map_some]

/-- **Calls that are all replied to are direct calls.** -/
theorem RepliesAll.direct {os : List Outcome} {xs : List (Bytes × Bytes)}
    (h : RepliesAll client os client' xs)
    (hxs : callAll (xs.map fun x => H x.1) s = (xs.map fun x => .ok x.2, s')) :
    directCalls H client (os.map Outcome.call) s = some (os, client', s') := by
  induction h generalizing s' with
  | nil =>
    obtain rfl : s = s' := congrArg Prod.snd hxs
    rfl
  | concat hos hcall ih =>
    rw [List.map_append, List.map_append] at hxs
    obtain ⟨s₁, hbefore, hlast⟩ := callAll_append_eq hxs (by simp)
    rw [List.map_append]
    exact directCalls_concat (ih hbefore) (hcall.direct hlast)

/-- The call in progress, once its request has been handled. -/
theorem Within.direct {call : ClientCall} {op : ClientOp} {t : List Io}
    (h : Within client call op t) {payload response : Bytes}
    (hpayload : call.payload? = some payload)
    (hsent : sentOf t ≠ []) (hresponse : H payload s = (.ok response, s')) :
    ∃ r client', call.direct H client s = some (r, client', s') := by
  have hasked := ask_eq_some hresponse
  cases h with
  | connecting => exact absurd rfl hsent
  | reflecting c h hmidway =>
    obtain rfl := Option.some.inj hpayload
    rw [ClientCall.direct, if_pos h, hasked]
    exact ⟨_, _, rfl⟩
  | sending request h hmidway =>
    obtain rfl := Option.some.inj hpayload
    simp only [ClientCall.direct, h, hasked]
    exact ⟨_, _, rfl⟩

/-- Calls on record over a connection that does not fail. -/
theorem Recorded.replies [LawfulProtobuf] {rs : List Record} (h : Recorded client rs client')
    (hwhole : Whole (rs.flatMap Record.io)) :
    ∃ xs, RepliesAll client (rs.map Record.outcome) client' xs ∧
      Streams xs (rs.flatMap Record.io) := by
  induction h with
  | nil => exact ⟨[], .nil, .nil rfl rfl⟩
  | concat hrs hcall ih =>
    rw [List.flatMap_append] at hwhole ⊢
    obtain ⟨xs, hxs, hstreams⟩ := ih hwhole.left
    rw [List.flatMap_singleton] at hwhole ⊢
    obtain ⟨ys, hys, hstreams'⟩ := hcall.replies hwhole.right
    rw [List.map_append]
    exact ⟨xs ++ ys, hxs.concat hys, hstreams.append hstreams'⟩

end

/-! ### A process and its connection -/

variable {H : RequestHandler σ} {s₀ : σ} {apps : ι → Application} {s : System ι σ} {i : ι} {c : ℕ}

/-- The results of the calls that have returned, and perhaps of the one in progress. -/
structure Party.Direct (p : Party) (os : List Outcome) : Prop where
  outcomes : p.records.map Record.outcome <+: os
  last : os.length ≤ p.records.length + 1
  returned : p.thread.result?.isSome → os = p.records.map Record.outcome

theorem Party.Direct.refl (p : Party) : p.Direct (p.records.map Record.outcome) :=
  ⟨List.prefix_rfl, by simp, fun _ => rfl⟩

theorem Party.Book.take_calls {app : Application} {p : Party} {start : Session}
    (h : p.Book app start) :
    app.calls.take p.records.length = (p.records.map Record.outcome).map Outcome.call := by
  rw [← h.calls, h.outcomes, List.take_left' (by simp)]

/-- **What the server has answered** a process: the exchanges of the calls that have returned, and
perhaps of the one in progress. -/
theorem System.Inv.answers_eq [LawfulProtobuf] (h : s.Inv H s₀ apps)
    (hshort : ∀ c, ∀ r ∈ s.server.world.own.responses c, r.length < 2 ^ 32)
    (hwhole : Whole (s.party i).trace) (hc : connectionOf (s.party i).trace = some c)
    (hreturned : ∀ k ∈ s.server.world.own.callsOf c, ∃ r, k.result = .ok r) :
    ∃ xs client', RepliesAll (apps i).client ((s.party i).records.map Record.outcome) client' xs ∧
      (s.server.world.own.answers c = xs ∨
        (s.party i).thread.result? = none ∧ ∃ call op t payload response,
          (apps i).calls[(s.party i).records.length]? = some call ∧ Within client' call op t ∧
          call.payload? = some payload ∧ sentOf t ≠ [] ∧
          s.server.world.own.answers c = xs ++ [(payload, response)]) := by
  obtain ⟨start, hbook, hstands, -⟩ := (h.sound i).stands
  obtain ⟨hown, -⟩ := h.own
  have htied := (h.sound i).tied c hc
  have hanswers := hown.answers hshort c
  have hrequests := Own.requests_of_returned hreturned
  -- the exchanges of the calls on record
  obtain ⟨t, ht⟩ := hstands.past_isPrefix
  rw [← ht] at hwhole
  obtain ⟨xs, hreplies, hstreams⟩ := hbook.recorded.replies hwhole.left
  have htaken : wire.frames (xs.map Prod.snd) <+: s.server.world.own.written c := by
    rw [← hstreams.taken]
    refine List.IsPrefix.trans ?_ htied.taken
    rw [← ht, takenOf_append]
    exact List.prefix_append _ _
  have hsnd := hanswers.answered_isPrefix hstreams.short_snd htaken
  rw [← Own.answers_map_snd] at hsnd
  have hle := hsnd.length_le
  rw [List.length_map, List.length_map] at hle
  -- they are the first that the server has answered
  have hfirst : ∀ more, (s.server.world.own.answers c).map Prod.fst <+: xs.map Prod.fst ++ more →
      xs <+: s.server.world.own.answers c := fun more hmore =>
    isPrefix_of_map (List.prefix_of_prefix_length_le (List.prefix_append _ _) hmore (by simpa)) hsnd
  have hread := wire.prefix_deframe hanswers.requests_lt
    (hanswers.read.trans (List.prefix_append _ (s.server.world.unread c)))
  rw [show _ ++ _ = sentOf (s.party i).trace from htied.sent, ← ht, hrequests] at hread
  have hquiet : sentOf t = [] → s.server.world.own.answers c = xs := by
    intro hnil
    rw [sentOf_append, hnil, List.append_nil, show sentOf (s.party i).past = _ from hstreams.sent,
      wire.deframe_frames hstreams.short_fst] at hread
    have hxs := hfirst [] (by rwa [List.append_nil])
    have hle' := hread.length_le
    rw [List.length_map, List.length_map] at hle'
    exact (hxs.eq_of_length_le hle').symm
  refine ⟨xs, start.client, hreplies, ?_⟩
  rcases hstands with ⟨-, htrace⟩ | ⟨op, k, hthread, call, todo, t', htodo, hwithin, htrace⟩
  · refine .inl (hquiet ?_)
    rw [List.append_right_eq_self.mp (ht.trans htrace)]
    rfl
  · obtain rfl : t = t' := List.append_cancel_left (ht.trans htrace)
    by_cases hnil : sentOf t = []
    · exact .inl (hquiet hnil)
    · obtain ⟨payload, hpayload, hfits, hpart⟩ := hwithin.payload.resolve_left hnil
      have hmore := hread.trans (hstreams.deframe_prefix hfits hpart)
      obtain ⟨rest, hrest⟩ := hfirst _ hmore
      rw [← hrest, List.map_append, List.prefix_append_right_inj] at hmore
      match rest with
      | [] => exact .inl (by rw [← hrest, List.append_nil])
      | [(payload', response)] =>
        obtain ⟨rfl, -⟩ := List.cons_prefix_cons.mp hmore
        exact .inr ⟨by rw [hthread]; rfl, call, op, t, payload', response, hbook.next_eq htodo,
          hwithin, hpayload, hnil, hrest.symm⟩
      | _ :: _ :: _ => simpa using hmore.length_le

/-- **What the server has done for a process** is what direct calls would have done. -/
theorem System.Inv.direct [LawfulProtobuf] (h : s.Inv H s₀ apps)
    (hshort : ∀ c, ∀ r ∈ s.server.world.own.responses c, r.length < 2 ^ 32)
    (hwhole : Whole (s.party i).trace) (hc : connectionOf (s.party i).trace = some c)
    (hreturned : ∀ k ∈ s.server.world.own.callsOf c, ∃ r, k.result = .ok r) {a a' : σ}
    (hthreaded : callAll ((s.server.world.own.callsOf c).map fun k => H k.request) a =
      ((s.server.world.own.callsOf c).map Call.result, a')) :
    ∃ n os client', directCalls H (apps i).client ((apps i).calls.take n) a =
      some (os, client', a') ∧ (s.party i).Direct os := by
  obtain ⟨start, hbook, -, -⟩ := (h.sound i).stands
  obtain ⟨xs, client', hreplies, hanswers⟩ := h.answers_eq hshort hwhole hc hreturned
  rw [Own.map_result_of_returned hreturned, ← Own.answers_map_snd, List.map_map,
    show (fun k : Call σ => H k.request) = H ∘ Call.request from rfl, ← List.map_map,
    show (s.server.world.own.callsOf c).map Call.request = _ from
      Own.requests_of_returned hreturned, List.map_map] at hthreaded
  rcases hanswers with hsame | ⟨hthread, call, op, t, payload, response, hcall, hwithin, hpayload,
    hsent, hmore⟩
  · rw [hsame] at hthreaded
    have hdirect := hreplies.direct hthreaded
    rw [← hbook.take_calls] at hdirect
    exact ⟨_, _, _, hdirect, .refl _⟩
  · -- the request of the call in progress has been handled
    rw [hmore, List.map_append, List.map_append] at hthreaded
    obtain ⟨a₁, hbefore, hlast⟩ := callAll_append_eq hthreaded (by simp)
    obtain ⟨hresult, hstate⟩ := Prod.mk.inj hlast
    obtain ⟨r, client'', hdirect⟩ := hwithin.direct hpayload hsent
      (Prod.ext (List.cons.inj hresult).1 hstate : H payload a₁ = (.ok response, a'))
    have hall := directCalls_concat (hreplies.direct hbefore) hdirect
    rw [← hbook.take_calls, show [call] = (apps i).calls[(s.party i).records.length]?.toList by
      rw [hcall]; rfl, ← List.take_add_one] at hall
    refine ⟨_, _, _, hall, List.prefix_append _ _, by simp, fun hreturn => ?_⟩
    rw [hthread] at hreturn
    cases hreturn

/-! ### One process after another -/

/-- The sessions of these connections, one after another. -/
theorem System.Inv.directAll [LawfulProtobuf] (h : s.Inv H s₀ apps)
    (hshort : ∀ c, ∀ r ∈ s.server.world.own.responses c, r.length < 2 ^ 32)
    (hwhole : ∀ i, Whole (s.party i).trace)
    (hreturned : ∀ k ∈ s.server.world.own.calls, ∃ r, k.result = .ok r) {cs : List ℕ}
    (hcs : ∀ c ∈ cs, c ∈ s.connections) {a a' : σ}
    (hthreaded : callAll ((cs.flatMap s.server.world.own.callsOf).map fun k => H k.request) a =
      ((cs.flatMap s.server.world.own.callsOf).map Call.result, a')) :
    ∃ order outcomes, order.map (fun x => connectionOf (s.party x.1).trace) = cs.map some ∧
      InterProcessCourier.directAll H apps order a = some (outcomes, a') ∧
      List.Forall₂ (fun x os => (s.party x.1).Direct os) order outcomes := by
  induction cs generalizing a with
  | nil =>
    obtain rfl : a = a' := congrArg Prod.snd hthreaded
    exact ⟨[], [], rfl, rfl, .nil⟩
  | cons c cs ih =>
    rw [List.flatMap_cons, List.map_append, List.map_append] at hthreaded
    obtain ⟨a₁, hfirst, hrest⟩ := callAll_append_eq hthreaded (by simp)
    obtain ⟨i, hi⟩ := h.owned c (hcs c List.mem_cons_self)
    obtain ⟨n, os, client', hos, hdirect⟩ := h.direct hshort (hwhole i) hi
      (fun k hk => hreturned k (List.mem_of_mem_filter hk)) hfirst
    obtain ⟨order, outcomes, horder, hall, hpointwise⟩ :=
      ih (fun d hd => hcs d (List.mem_cons_of_mem _ hd)) hrest
    refine ⟨(i, n) :: order, os :: outcomes, ?_, ?_, .cons hdirect hpointwise⟩
    · rw [List.map_cons, List.map_cons, hi, horder]
    · simp [InterProcessCourier.directAll, hos, hall]

/-- **It does not show that there is a server.** In every run of a server and any number of clients,
with any order of steps and with processes that end at any moment, in which no socket operation of a
process fails or comes short and the request handler returns from every invocation: the calls that
have returned, of the processes whose connections were accepted, gave the results that they would
have given if the applications had been run one after another, in the order in which their
connections were accepted, with the request handler called in place of the server. The handlers are
left in the state in which they would be then, where of an application that is in the
middle of a call this call counts if its request has been handled. -/
theorem calls_transparent [DecidableEq ι] [LawfulProtobuf] (server : SyncServer σ) (s₀ : σ)
    (apps : ι → Application) (es : List (SystemEvent ι))
    (hwhole : ∀ i, Whole ((systemRun server.requestHandler s₀ apps es).party i).trace)
    (hreturned : ∀ k ∈ (systemRun server.requestHandler s₀ apps es).server.world.own.calls,
      ∃ r, k.result = .ok r) :
    let s := systemRun server.requestHandler s₀ apps es
    ∃ order outcomes,
      order.map (fun x => connectionOf (s.party x.1).trace) =
        s.server.world.own.accepted.map some ∧
      directAll server.requestHandler apps order s₀ =
        some (outcomes, s.server.world.own.state) ∧
      List.Forall₂ (fun x os => (s.party x.1).Direct os) order outcomes := by
  intro s
  have hinv : s.Inv server.requestHandler s₀ apps := systemRun_inv _ s₀ apps es
  obtain ⟨hown, -⟩ := hinv.own
  have hthreaded := hown.threaded
  rw [hown.grouped] at hthreaded
  exact hinv.directAll (length_responses_lt hown) hwhole hreturned
    (fun c hc => List.mem_append_left _ hc) hthreaded

end

namespace TestProto

/-- Both have run to their end, one after the other. -/
theorem calls_transparent_greetingsRun :
    let s := greetingSystem greetingsRun
    s.server.world.own.accepted = [1, 2] ∧
      ∃ order outcomes,
        order.map (fun x => connectionOf (s.party x.1).trace) =
          s.server.world.own.accepted.map some ∧
        directAll (SyncServer.registered .silentIgnore [echo]).requestHandler applications order
          () = some (outcomes, s.server.world.own.state) ∧
        List.Forall₂ (fun x os => (s.party x.1).Direct os) order outcomes := by
  refine ⟨by decide +kernel, calls_transparent (SyncServer.registered .silentIgnore [echo]) ()
    applications greetingsRun (by decide +kernel) fun k hk => ?_⟩
  have hmem : (k.request, k.result) ∈ _ :=
    List.mem_map_of_mem (f := fun k => (k.request, k.result)) hk
  rw [calls_greetingsRun] at hmem
  rcases List.mem_pair.mp hmem with heq | heq
  · exact ⟨_, congrArg Prod.snd heq⟩
  · exact ⟨_, congrArg Prod.snd heq⟩

end TestProto

end InterProcessCourier
