import InterProcessCourier.Atomicity
import InterProcessCourier.StopAndWait

/-!
# One frame under way

A call sends its request and reads the response before the next call begins, and a server answers a
request before it reads the next. So on the connection of a process none of whose exchanges was cut,
there are never bytes on their way in both directions, and what is on its way is part of one frame.
Both sides write without reading, and neither can be kept from writing by what it has not read.

## Main results

* `one_frame_underway` — in every run, on every connection whose client has torn no frame
-/

namespace InterProcessCourier

open Interaction

theorem Final.of_not_happened {kind : List Io → Io → Prop} {t : List Io}
    (h : ¬Happened kind t) : Final kind t := fun before io after ht hio =>
  absurd ⟨before, io, after, ht, hio⟩ h

theorem happened_iff {kind : List Io → Io → Prop} {t : List Io} : Happened kind t ↔
    ∃ i, ∃ h : i < t.length, kind (t.take i) t[i] := by
  constructor
  · rintro ⟨before, io, after, rfl, hio⟩
    exact ⟨before.length, by simp, by simpa using hio⟩
  · rintro ⟨i, hi, hio⟩
    exact ⟨t.take i, t[i], t.drop (i + 1),
      by rw [List.cons_getElem_drop_succ, List.take_append_drop], hio⟩

instance {kind : List Io → Io → Prop} [∀ before io, Decidable (kind before io)] (t : List Io) :
    Decidable (Happened kind t) :=
  decidable_of_iff _ happened_iff.symm

/-- An exchange sends a part of its request and has taken nothing, or has sent its request. -/
theorem Midway.phase {payload : Bytes} {op : ClientOp} {t : List Io} (h : Midway payload op t)
    (hpayload : payload.length < 2 ^ 32) :
    takenOf t = [] ∧ wire.Incomplete (sentOf t) ∨ sentOf t = wire.frame payload := by
  by_cases hwhole : sentOf t = wire.frame payload
  · exact .inr hwhole
  · left
    refine ⟨?_, wire.incomplete_of_prefix hpayload h.sent_isPrefix hwhole⟩
    match op with
    | .connect => cases h
    | .writeSome bs =>
      obtain ⟨-, -, hnothing⟩ := h.writing
      exact hnothing
    | .readSome n => exact absurd h.reading hwhole

/-- **The server answers**, on every connection. -/
theorem Own.Inv.answers {σ : Type} {H : RequestHandler σ} {s₀ : σ} {o : Own σ} (h : o.Inv H s₀)
    (hshort : ∀ c, ∀ r ∈ o.responses c, r.length < 2 ^ 32) (c : ℕ) :
    Framing.Answers wire (o.consumed c) (o.written c) (o.requests c) (o.responses c) where
  read := h.framed c
  written := h.answered c
  requests_lt := h.short c
  answers_lt := hshort c
  backed := by
    rw [Own.requests, Own.responses, List.length_map]
    exact List.length_filterMap_le _ _

section

variable [Protobuf] {ι σ : Type} {i : ι} {c : ℕ}

/-- A call sends a part of its request and has taken nothing, or has sent its request. -/
theorem Within.phase [LawfulProtobuf] {client : SyncClient} {call : ClientCall} {op : ClientOp}
    {t : List Io} (h : Within client call op t) :
    takenOf t = [] ∧ wire.Incomplete (sentOf t) ∧ (sentOf t ≠ [] →
      ∃ payload, call.payload? = some payload ∧ sentOf t <+: wire.frame payload) ∨
    ∃ payload, call.payload? = some payload ∧ payload.length < 2 ^ 32 ∧
      sentOf t = wire.frame payload := by
  cases h with
  | connecting => exact .inl ⟨rfl, wire.incomplete_nil, fun h => absurd rfl h⟩
  | reflecting c h hmidway =>
    rcases hmidway.phase length_reflectionPayload_lt with ⟨hnothing, hcut⟩ | hwhole
    · exact .inl ⟨hnothing, hcut, fun _ => ⟨_, rfl, hmidway.sent_isPrefix⟩⟩
    · exact .inr ⟨_, rfl, length_reflectionPayload_lt, hwhole⟩
  | sending request h hmidway =>
    rcases hmidway.phase (length_makePayloadFromProto_lt request) with ⟨hnothing, hcut⟩ | hwhole
    · exact .inl ⟨hnothing, hcut, fun _ => ⟨_, rfl, hmidway.sent_isPrefix⟩⟩
    · exact .inr ⟨_, rfl, length_makePayloadFromProto_lt request, hwhole⟩

/-- Between two calls, every request has its response. -/
theorem Party.Book.balanced [LawfulProtobuf] {app : Application} {p : Party} {start : Session}
    (h : p.Book app start) (huntorn : ¬Happened Io.Tears p.past) :
    ∃ requests responses : List Bytes, sentOf p.past = wire.frames requests ∧
      takenOf p.past = wire.frames responses ∧ (∀ q ∈ requests, q.length < 2 ^ 32) ∧
      (∀ q ∈ responses, q.length < 2 ^ 32) ∧ requests.length = responses.length := by
  obtain ⟨xs, hdialogue, -⟩ := h.recorded.dialogue
  have huncut : ¬Happened Io.TearsRequest p.past := by
    rintro ⟨before, io, after, ht, hio⟩
    exact huntorn ⟨before, io, after, ht, .inl hio⟩
  obtain ⟨tail, hsent, -, htorn⟩ := hdialogue.sent (.of_not_happened huncut)
  obtain rfl : tail = [] := not_not.mp fun hne => huncut (htorn hne)
  rcases hdialogue.taken (.of_not_happened huntorn) with ⟨hsame, htaken⟩ | ⟨htorn, -⟩
  · refine ⟨sentPayloads xs, (completed xs).map Prod.snd,
      (show sentOf p.past = _ from hsent).trans (List.append_nil _), htaken, hdialogue.length_lt,
      fun q hq => ?_, by simp [hsame]⟩
    obtain ⟨x, hx, rfl⟩ := List.mem_map.mp hq
    exact hdialogue.length_completed_lt x hx
  · exact absurd htorn huntorn

/-- **A party asks**, one request after another. -/
theorem Party.Stands.asks [LawfulProtobuf] {app : Application} {p : Party} {start : Session}
    (h : p.Stands start) (hbook : p.Book app start) (huntorn : ¬Happened Io.Tears p.trace) :
    Framing.Asks wire (fun m => ∃ call ∈ app.calls, call.payload? = some m) (sentOf p.trace)
      (takenOf p.trace) := by
  obtain ⟨t, ht⟩ := h.past_isPrefix
  have hpast : ¬Happened Io.Tears p.past := fun htorn => huntorn (ht ▸ htorn.append t)
  obtain ⟨requests, responses, hsent, htaken, hrequests, hresponses, hlength⟩ :=
    hbook.balanced hpast
  rcases h with ⟨-, htrace⟩ | ⟨op, k, hthread, call, todo, t, htodo, hwithin, htrace⟩
  · rw [htrace, hsent, htaken]
    exact .asking (List.append_nil _).symm rfl hrequests hresponses hlength wire.incomplete_nil
      fun hne => absurd rfl hne
  · have hcall : call ∈ app.calls := List.mem_of_getElem? (hbook.next_eq htodo)
    rw [htrace, sentOf_append, takenOf_append, show sentOf p.past = _ from hsent,
      show takenOf p.past = _ from htaken]
    rcases hwithin.phase with ⟨hnothing, hcut, hpart⟩ | ⟨payload, hpayload, hshort, hwhole⟩
    · rw [hnothing, List.append_nil]
      refine .asking rfl rfl hrequests hresponses hlength hcut fun hne => ?_
      obtain ⟨payload, hpayload, hprefix⟩ := hpart hne
      exact ⟨payload, ⟨call, hcall, hpayload⟩, hprefix⟩
    · rw [hwhole, ← wire.frames_concat]
      exact .waiting ⟨call, hcall, hpayload⟩ rfl rfl
        (List.forall_mem_append.mpr ⟨hrequests, by simpa using hshort⟩) hresponses hlength

/-- **One frame is under way at most.** In every run of a server and any number of clients, with any
order of steps, failures and ends of processes: on the connection of a process that has torn no
frame, what the server has not read and what the process has not taken are not both there, the one
is part of the frame of a request of the process, and the other of a response to it. -/
theorem one_frame_underway [DecidableEq ι] [LawfulProtobuf] (server : SyncServer σ) (s₀ : σ)
    (apps : ι → Application) (es : List (SystemEvent ι))
    (huntorn : ¬Happened Io.Tears ((systemRun server.requestHandler s₀ apps es).party i).trace)
    (hc : connectionOf ((systemRun server.requestHandler s₀ apps es).party i).trace = some c) :
    let s := systemRun server.requestHandler s₀ apps es
    let unread := s.server.world.unread c
    let untaken := (s.link i).untaken c
    (unread = [] ∨ untaken = []) ∧
      (unread ≠ [] → ∃ call ∈ (apps i).calls, ∃ payload, call.payload? = some payload ∧
        unread <:+: wire.frame payload) ∧
      (untaken ≠ [] → ∃ response ∈ s.server.world.own.responses c,
        untaken <:+: wire.frame response) := by
  intro s unread untaken
  have hinv : s.Inv server.requestHandler s₀ apps := systemRun_inv _ s₀ apps es
  obtain ⟨hown, -⟩ := hinv.own
  obtain ⟨start, hbook, hstands, -⟩ := (hinv.sound i).stands
  have htied := (hinv.sound i).tied c hc
  have hasks := hstands.asks hbook huntorn
  rw [← htied.sent] at hasks
  have hwritten : s.server.world.own.written c = takenOf (s.party i).trace ++ untaken :=
    (List.prefix_iff_eq_append.mp htied.taken).symm
  rcases hasks.oneWay hwritten (hown.answers (length_responses_lt hown) c) with
    ⟨hclear, hunread⟩ | ⟨hclear, response, hresponse, huntaken⟩
  · refine ⟨.inr hclear, fun hne => ?_, fun hne => absurd hclear hne⟩
    obtain ⟨payload, ⟨call, hcall, hpayload⟩, hinfix⟩ := hunread hne
    exact ⟨call, hcall, payload, hpayload, hinfix⟩
  · exact ⟨.inl hclear, fun hne => absurd hclear hne, fun _ => ⟨response, hresponse, huntaken⟩⟩

end

namespace TestProto

/-- The first response is under way, and so is the second request. -/
theorem one_frame_underway_greetingsRun :
    let s := greetingSystem (greetingsRun.take 18)
    (s.link true).untaken 1 ≠ [] ∧ s.server.world.unread 1 = [] ∧
      s.server.world.unread 2 ≠ [] ∧ (s.link false).untaken 2 = [] := by
  intro s
  have hresponse : (s.link true).untaken 1 ≠ [] := by decide +kernel
  have hrequest : s.server.world.unread 2 ≠ [] := by decide +kernel
  obtain ⟨hfirst, -⟩ := one_frame_underway (SyncServer.registered .silentIgnore [echo]) ()
    applications (greetingsRun.take 18) (i := true) (c := 1) (by decide +kernel)
    (by decide +kernel)
  obtain ⟨hsecond, -⟩ := one_frame_underway (SyncServer.registered .silentIgnore [echo]) ()
    applications (greetingsRun.take 18) (i := false) (c := 2) (by decide +kernel)
    (by decide +kernel)
  exact ⟨hresponse, hfirst.resolve_right hresponse, hrequest, hsecond.resolve_left hrequest⟩

end TestProto

end InterProcessCourier
