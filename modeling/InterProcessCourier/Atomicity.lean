import InterProcessCourier.Attribution
import InterProcessCourier.Linearization
import InterProcessCourier.SystemInvariant
import InterProcessCourier.Validation

/-!
# Calls take effect at once

Many processes call the one server at the same time. To each of them it looks as if its calls had
the server to themselves: every call that comes back with a response took effect at one moment
between its beginning and its return, and what all of them got is what the request handler answers
to their requests one after another.

A call takes effect when the server invokes the request handler for it. Which invocation is for
which call is a matter of counting frames, in `Party.ops`: the server handles a connection's frames
in order, and a call sends one frame at most. Frames can be counted as long as nothing is sent after
a torn one.

## Main definitions

* `Party.ops` — the calls that have sent a request, in order
* `systemHistory` — what is observed of the calls of a run

## Main results

* `calls_linearizable` — every run of any number of clients is linearizable
-/

namespace InterProcessCourier

open Interaction Linearization

/-! ### Frames sent -/

/-- The request that was written whole, if one was. -/
def sentWhole (t : List Io) : List Bytes := (wire.deframe (sentOf t)).1.take 1

@[simp] theorem sentWhole_nil : sentWhole [] = [] := by
  rw [sentWhole, sentOf_nil, wire.deframe_of_incomplete wire.incomplete_nil]
  rfl

theorem sentWhole_mono {t t' : List Io} (h : t <+: t') : sentWhole t <+: sentWhole t' := by
  obtain ⟨s, rfl⟩ := h
  exact (wire.deframe_mono (by simp)).take 1

theorem length_sentWhole_le (t : List Io) : (sentWhole t).length ≤ 1 := List.length_take_le _ _

theorem sentWhole_congr {t s : List Io} (h : sentOf t = sentOf s) : sentWhole t = sentWhole s := by
  rw [sentWhole, sentWhole, h]

/-- While one frame is written, what is there is that frame or a part of it. -/
theorem sentWhole_of_isPrefix {payload : Bytes} {t : List Io} (hpayload : payload.length < 2 ^ 32)
    (h : sentOf t <+: wire.frame payload) :
    sentWhole t = (wire.deframe (sentOf t)).1 ∧ sentWhole t <+: [payload] := by
  have hone : (wire.deframe (sentOf t)).1 <+: [payload] := by
    have hmono := wire.deframe_mono h
    have hframe : wire.frame payload = wire.frames [payload] := by simp
    rwa [hframe, wire.deframe_frames (by simpa using hpayload)] at hmono
  have htake : sentWhole t = (wire.deframe (sentOf t)).1 :=
    List.take_of_length_le (by simpa using hone.length_le)
  exact ⟨htake, htake ▸ hone⟩

theorem Exchange.sentWhole {payload : Bytes} {r : SyncClientResult Bytes} {t : List Io}
    (h : Exchange payload r t) (hpayload : payload.length < 2 ^ 32) :
    sentWhole t = if sends r then [payload] else [] := by
  cases hr : sends r with
  | true =>
    have hframe : sentOf t = wire.frames [payload] := by simp [h.sent hr]
    rw [InterProcessCourier.sentWhole, hframe, wire.deframe_frames (by simpa using hpayload)]
    rfl
  | false =>
    obtain ⟨bs, t', hmidway, rfl⟩ := h.unsent_of_not_sends hr
    obtain ⟨hframe, hbs, -⟩ := hmidway.writing
    have hcut : wire.Incomplete (sentOf t') :=
      wire.incomplete_of_prefix hpayload ⟨bs, hframe⟩ fun he => hbs (by simpa [he] using hframe)
    have hsent : sentOf (t' ++ [.failed (.writeSome bs)]) = sentOf t' := by simp
    rw [InterProcessCourier.sentWhole, hsent, wire.deframe_of_incomplete hcut]
    rfl

/-- The errors of an exchange are not those of parsing. -/
theorem Exchange.type_of_error {payload : Bytes} {error : Error SyncClientError} {t : List Io}
    (h : Exchange payload (.error error) t) : error.type ≠ .unableToParseReturnedProto := by
  cases h with
  | unsent hmidway message => simp
  | lost hmidway message => simp
  | short hmidway hbs message => simp

/-- Only the last invocation for a client has no response. -/
theorem Own.Inv.results_isPrefix {σ : Type} {H : RequestHandler σ} {s₀ : σ} {o : Own σ}
    (h : o.Inv H s₀) (c : ℕ) :
    (o.responses c).map .ok <+: (o.callsOf c).map Call.result := by
  have hreturned := h.returned c
  rw [Own.responses]
  generalize o.callsOf c = ks at hreturned
  have hall : ∀ ks : List (Call σ), (∀ k ∈ ks, ∃ r, k.result = .ok r) →
      (ks.filterMap fun k => k.result.toOption).map .ok = ks.map Call.result := by
    intro ks hks
    induction ks with
    | nil => rfl
    | cons k ks ih =>
      obtain ⟨r, hr⟩ := hks k (by simp)
      rw [List.filterMap_cons, hr, List.map_cons, ← ih fun k' hk' => hks k' (by simp [hk'])]
      rw [hr]
      rfl
  rcases List.eq_nil_or_concat ks with rfl | ⟨ks, k, rfl⟩
  · exact List.prefix_rfl
  · rw [List.concat_eq_append, List.dropLast_concat] at hreturned
    rw [List.concat_eq_append, List.filterMap_append, List.map_append, List.map_append,
      hall ks hreturned]
    refine (List.prefix_append_right_inj _).mpr ?_
    cases hk : k.result <;> simp [hk, Except.toOption]

/-! ### The course of a call -/

section

variable [Protobuf]

/-- The payload that a call sends, unless it is refused or fails. -/
def ClientCall.payload? : ClientCall → Option Bytes
  | registerRequestResponsePair _ _ => none
  | connect => some reflectionPayload
  | sendRequest _ request => some (makePayloadFromProto request)

/-- The call has come back with a response. -/
inductive Outcome.Responded (client : SyncClient) : Outcome → Prop
  | reflected (h : client.clientOptions.validateReqResPairStrategy = .serverReflection) :
    Responded client ⟨.connect, .ok ()⟩
  | answered {RequestType : Descriptor} (ResponseType : Descriptor) (request : Message RequestType)
    (message : Message ResponseType) :
    Responded client ⟨.sendRequest ResponseType request, .ok message⟩
  | unparsed {RequestType : Descriptor} (ResponseType : Descriptor) (request : Message RequestType)
    {error : Error SyncClientError} (h : error.type = .unableToParseReturnedProto) :
    Responded client ⟨.sendRequest ResponseType request, .error error⟩

/-- The result of the call is what it makes of this response. -/
inductive Outcome.From (response : Bytes) : Outcome → Prop
  | reflected (client : SyncClient) :
    From response
      ⟨.connect, (client.reflected (replyOf MappingReflectionResponse (.ok response))).1⟩
  | answered {RequestType : Descriptor} (ResponseType : Descriptor)
    (request : Message RequestType) :
    From response ⟨.sendRequest ResponseType request, replyOf ResponseType (.ok response)⟩

/-- What a call does to the dialogue on its connection: nothing, or one exchange. -/
inductive Course (client : SyncClient) (o : Outcome) (t : List Io) : Prop
  | quiet (hdialogue : ∀ {xs t₀}, Dialogue xs t₀ → Dialogue xs (t₀ ++ t)) (hsent : sentOf t = [])
    (hsilent : ¬o.Responded client)
  | exchange {payload : Bytes} {x : SyncClientResult Bytes} {t' : List Io}
    (hpayload : o.call.payload? = some payload) (hshort : payload.length < 2 ^ 32)
    (hx : Exchange payload x t') (hsent : sentOf t = sentOf t') (htaken : takenOf t = takenOf t')
    (hdialogue : ∀ {xs t₀}, Dialogue xs t₀ → Dialogue (xs ++ [(payload, x)]) (t₀ ++ t))
    (hfrom : ∀ response, x = .ok response → o.From response)
    (hresponded : o.Responded client → ∃ response, x = .ok response)

theorem Performs.course [LawfulProtobuf] {client client' : SyncClient} {call : ClientCall}
    {r : call.Result} {t : List Io} (h : Performs client call r client' t) :
    Course client ⟨call, r⟩ t := by
  cases h with
  | registers RequestType ResponseType =>
    exact .quiet (fun hd => by simpa using hd) rfl nofun
  | unconnected message =>
    have hfailed : (Io.failed .connect).Quiet := trivial
    exact .quiet (fun hd => hd.quiet hfailed) rfl nofun
  | connected c h =>
    have hconnected : (Io.connected c).Quiet := trivial
    refine .quiet (fun hd => hd.quiet hconnected) rfl fun hresponded => ?_
    cases hresponded with
    | reflected hreflects => exact h hreflects
  | @reflected c x t h hexchange =>
    have hconnected : (Io.connected c).Quiet := trivial
    refine .exchange rfl length_reflectionPayload_lt hexchange rfl rfl ?_ ?_ ?_
    · intro xs t₀ hd
      simpa using (hd.quiet hconnected).exchange length_reflectionPayload_lt hexchange
    · rintro response rfl
      exact .reflected client
    · generalize hr : (client.reflected (replyOf MappingReflectionResponse x)).1 = r
      intro hresponded
      cases hresponded with
      | reflected hreflects =>
        cases x with
        | ok response => exact ⟨response, rfl⟩
        | error error => cases hr
  | refused request h =>
    refine .quiet (fun hd => by simpa using hd) rfl fun hresponded => ?_
    cases hresponded with
    | unparsed ResponseType request hparse =>
      rw [SyncClient.type_of_validate h] at hparse
      cases hparse
  | @exchanged RequestType ResponseType request x t h hexchange =>
    refine .exchange rfl (length_makePayloadFromProto_lt request) hexchange rfl rfl ?_ ?_ ?_
    · exact fun hd => hd.exchange (length_makePayloadFromProto_lt request) hexchange
    · rintro response rfl
      exact .answered ResponseType request
    · generalize hr : replyOf ResponseType x = r
      intro hresponded
      cases hresponded with
      | answered _ _ message =>
        obtain ⟨response, rfl, -⟩ := replyOf_eq_ok_iff.mp hr
        exact ⟨response, rfl⟩
      | unparsed _ _ hparse =>
        cases x with
        | ok response => exact ⟨response, rfl⟩
        | error error =>
          cases hr
          exact absurd hparse hexchange.type_of_error

/-! ### The calls that have sent a request -/

/-- The calls on record that have sent a request, numbered from `n`, each with its payload. -/
def opsFrom (n : ℕ) : List Record → List (ℕ × Bytes)
  | [] => []
  | rec :: rs => (sentWhole rec.io).map (n, ·) ++ opsFrom (n + 1) rs

/-- What happened at the socket in the call in progress. -/
def Party.io (p : Party) : List Io := p.trace.drop p.past.length

/-- The calls of a party that have sent a request, in order, each with its payload. -/
def Party.ops (p : Party) : List (ℕ × Bytes) :=
  opsFrom 0 p.records ++ (sentWhole p.io).map (p.records.length, ·)

section Ops

variable {rs : List Record} {n : ℕ}

theorem opsFrom_append (n : ℕ) (rs rs' : List Record) :
    opsFrom n (rs ++ rs') = opsFrom n rs ++ opsFrom (n + rs.length) rs' := by
  induction rs generalizing n with
  | nil => rfl
  | cons rec rs ih =>
    rw [List.cons_append, opsFrom, ih, opsFrom, List.append_assoc, List.length_cons,
      Nat.add_assoc, Nat.add_comm 1]

theorem opsFrom_concat (rs : List Record) (rec : Record) :
    opsFrom 0 (rs ++ [rec]) = opsFrom 0 rs ++ (sentWhole rec.io).map (rs.length, ·) := by
  simp [opsFrom_append, opsFrom]

theorem mem_opsFrom {k : ℕ} {payload : Bytes} (h : (k, payload) ∈ opsFrom n rs) :
    ∃ j rec, k = n + j ∧ rs[j]? = some rec ∧ payload ∈ sentWhole rec.io := by
  induction rs generalizing n with
  | nil => cases h
  | cons rec rs ih =>
    rw [opsFrom, List.mem_append, List.mem_map] at h
    rcases h with ⟨q, hq, heq⟩ | h
    · obtain ⟨rfl, rfl⟩ := Prod.mk.inj heq
      exact ⟨0, rec, rfl, rfl, hq⟩
    · obtain ⟨j, rec', rfl, hj, hpayload⟩ := ih h
      exact ⟨j + 1, rec', by omega, by simpa using hj, hpayload⟩

/-- The requests up to one of the calls. -/
theorem opsFrom_split {k : ℕ} {rec : Record} (hk : rs[k]? = some rec) : ∃ rest,
    opsFrom 0 rs = opsFrom 0 (rs.take k) ++ ((sentWhole rec.io).map (k, ·) ++ rest) := by
  obtain ⟨hlt, hrec⟩ := List.getElem?_eq_some_iff.mp hk
  have hsplit : rs = rs.take k ++ (rec :: rs.drop (k + 1)) := by
    rw [← hrec, List.cons_getElem_drop_succ, List.take_append_drop]
  have hlength : (rs.take k).length = k := by
    rw [List.length_take]
    omega
  refine ⟨opsFrom (k + 1) (rs.drop (k + 1)), ?_⟩
  conv_lhs => rw [hsplit]
  rw [opsFrom_append, opsFrom, Nat.zero_add, hlength]

omit [Protobuf] in
theorem pairwise_map_const {bss : List Bytes} (h : bss.length ≤ 1) (n : ℕ) :
    ((bss.map (n, ·)).map Prod.fst).Pairwise (· < ·) := by
  match bss with
  | [] => exact .nil
  | [bs] => exact List.pairwise_singleton _ _
  | _ :: _ :: _ => simp at h

theorem pairwise_opsFrom (n : ℕ) (rs : List Record) :
    ((opsFrom n rs).map Prod.fst).Pairwise (· < ·) := by
  induction rs generalizing n with
  | nil => exact .nil
  | cons rec rs ih =>
    rw [opsFrom, List.map_append, List.pairwise_append]
    refine ⟨pairwise_map_const (length_sentWhole_le _) n, ih (n + 1), fun a ha b hb => ?_⟩
    obtain ⟨⟨k, payload⟩, hk, rfl⟩ := List.mem_map.mp hb
    obtain ⟨j, -, rfl, -⟩ := mem_opsFrom hk
    obtain ⟨⟨m, payload'⟩, hm, rfl⟩ := List.mem_map.mp ha
    obtain ⟨q, -, heq⟩ := List.mem_map.mp hm
    obtain ⟨rfl, rfl⟩ := Prod.mk.inj heq
    change n < n + 1 + j
    omega

/-- No call sends twice. -/
theorem Party.nodup_ops (p : Party) : (p.ops.map Prod.fst).Nodup := by
  refine List.Pairwise.imp (fun hlt => Nat.ne_of_lt hlt) ?_
  rw [Party.ops, List.map_append, List.pairwise_append]
  refine ⟨pairwise_opsFrom 0 _, pairwise_map_const (length_sentWhole_le _) _, fun a ha b hb => ?_⟩
  obtain ⟨⟨k, payload⟩, hk, rfl⟩ := List.mem_map.mp ha
  obtain ⟨j, rec, rfl, hj, -⟩ := mem_opsFrom hk
  obtain ⟨⟨m, payload'⟩, hm, rfl⟩ := List.mem_map.mp hb
  obtain ⟨q, -, heq⟩ := List.mem_map.mp hm
  obtain ⟨rfl, rfl⟩ := Prod.mk.inj heq
  have hlt := (List.getElem?_eq_some_iff.mp hj).1
  change 0 + j < p.records.length
  omega

/-- Turns add calls, and change none. -/
theorem Party.ops_resume {p : Party} (hpast : p.past <+: p.trace) {trace : List Io}
    (htrace : p.trace <+: trace) (thread : ClientCode Session) :
    p.ops <+: (p.resume thread trace).ops := by
  have hmono : sentWhole p.io <+: sentWhole (trace.drop p.past.length) := by
    obtain ⟨t, rfl⟩ := htrace
    obtain ⟨t', ht'⟩ := hpast
    refine sentWhole_mono ?_
    rw [Party.io, ← ht', List.append_assoc, List.drop_left, List.drop_left]
    exact List.prefix_append _ _
  have hcurrent : (sentWhole p.io).map (p.records.length, ·) <+:
      (sentWhole (trace.drop p.past.length)).map (p.records.length, ·) := hmono.map _
  have hrecords : (p.resume thread trace).records = p.records ++ p.returned thread trace := rfl
  have hio : ∀ rec ∈ p.returned thread trace, rec.io = trace.drop p.past.length := by
    intro rec hrec
    cases thread with
    | ret session =>
      obtain ⟨outcome, -, rfl⟩ := List.mem_map.mp hrec
      rfl
    | raise e => cases hrec
    | call op k => cases hrec
  rw [Party.ops, Party.ops, hrecords, opsFrom_append, List.append_assoc]
  refine (List.prefix_append_right_inj _).mpr (hcurrent.trans ?_)
  cases hreturned : p.returned thread trace with
  | nil =>
    have hsame : (p.resume thread trace).io = trace.drop p.past.length := by
      rw [Party.io, Party.past, hrecords, hreturned, List.append_nil]
      rfl
    rw [hsame, opsFrom, List.nil_append, List.append_nil]
  | cons rec rs =>
    rw [opsFrom, hio rec (by rw [hreturned]; exact List.mem_cons_self), Nat.zero_add,
      List.append_assoc]
    exact List.prefix_append _ _

end Ops

/-! ### What a party has sent -/

section Sent

variable {client client' : SyncClient} {rs : List Record}

/-- The calls up to one of them. -/
theorem Recorded.split (h : Recorded client rs client') {j : ℕ} {rec : Record}
    (hj : rs[j]? = some rec) : ∃ c₁ c₂, Recorded client (rs.take j) c₁ ∧
      Performs c₁ rec.outcome.call rec.outcome.result c₂ rec.io := by
  induction h with
  | nil => cases hj
  | @concat rs call r client' client'' t hrs hcall ih =>
    rcases Nat.lt_or_ge j rs.length with hlt | hge
    · rw [List.getElem?_append_left hlt] at hj
      rw [List.take_append_of_le_length (Nat.le_of_lt hlt)]
      exact ih hj
    · rw [List.getElem?_append_right hge, List.getElem?_singleton] at hj
      split_ifs at hj with hlast
      obtain rfl := Option.some.inj hj
      have hj : j = rs.length := by omega
      rw [hj, List.take_left]
      exact ⟨client', client'', hrs, hcall⟩

theorem Recorded.clientOptions (h : Recorded client rs client') :
    client'.clientOptions = client.clientOptions := by
  induction h with
  | nil => rfl
  | concat hrs hcall ih => exact hcall.clientOptions.trans ih

variable [LawfulProtobuf]

/-- The dialogue of the calls on record, and the requests in it. -/
theorem Recorded.dialogue (h : Recorded client rs client') :
    ∃ xs, Dialogue xs (rs.flatMap Record.io) ∧
      sentPayloads xs = (opsFrom 0 rs).map Prod.snd := by
  induction h with
  | nil => exact ⟨[], .nil, rfl⟩
  | @concat rs call r client' client'' t hrs hcall ih =>
    obtain ⟨xs, hdialogue, hpayloads⟩ := ih
    rw [List.flatMap_append, opsFrom_concat, List.map_append, ← hpayloads]
    cases hcall.course with
    | quiet hquiet hsent hsilent =>
      have hnone : sentWhole t = [] := (sentWhole_congr (s := []) hsent).trans sentWhole_nil
      exact ⟨xs, by simpa using hquiet hdialogue, by simp [hnone]⟩
    | @exchange payload x t' hpayload hshort hx hsent htaken hexchange hfrom hresponded =>
      refine ⟨_, by simpa using hexchange hdialogue, ?_⟩
      rw [sentPayloads_concat, sentWhole_congr hsent, hx.sentWhole hshort]
      split_ifs <;> simp

end Sent

/-- Only the options decide whether a call has come back with a response. -/
theorem Outcome.Responded.congr {client client' : SyncClient} {o : Outcome} (h : o.Responded client)
    (hoptions : client'.clientOptions = client.clientOptions) : o.Responded client' := by
  cases h with
  | reflected hreflects => exact .reflected (hoptions ▸ hreflects)
  | answered ResponseType request message => exact .answered ResponseType request message
  | unparsed ResponseType request hparse => exact .unparsed ResponseType request hparse

/-- Inside a call, no more than its request is sent. -/
theorem Within.payload [LawfulProtobuf] {client : SyncClient} {call : ClientCall} {op : ClientOp}
    {t : List Io} (h : Within client call op t) : sentOf t = [] ∨
      ∃ payload, call.payload? = some payload ∧ payload.length < 2 ^ 32 ∧
        sentOf t <+: wire.frame payload := by
  cases h with
  | connecting => exact .inl rfl
  | reflecting c h hmidway =>
    exact .inr ⟨_, rfl, length_reflectionPayload_lt, hmidway.sent_isPrefix⟩
  | sending request h hmidway =>
    exact .inr ⟨_, rfl, length_makePayloadFromProto_lt request, hmidway.sent_isPrefix⟩

namespace Party

variable {app : Application} {p : Party} {start : Session}

theorem Stands.past_isPrefix (h : p.Stands start) : p.past <+: p.trace := by
  rcases h with ⟨-, htrace⟩ | ⟨op, k, -, call, todo, t, -, -, htrace⟩
  · rw [htrace]
  · rw [htrace]
    exact List.prefix_append _ _

/-- This call of the party has begun. -/
def Invoked (p : Party) (k : ℕ) : Prop :=
  k < p.records.length ∨ k = p.records.length ∧ p.thread.result? = none

/-- The calls on record are the first that the application makes. -/
theorem Book.call_eq (h : p.Book app start) {k : ℕ} {rec : Record} (hk : p.records[k]? = some rec) :
    app.calls[k]? = some rec.outcome.call := by
  have hlt := (List.getElem?_eq_some_iff.mp hk).1
  rw [← h.calls, h.outcomes, List.map_map, List.getElem?_append_left (by simpa using hlt),
    List.getElem?_map, hk]
  rfl

/-- The next call. -/
theorem Book.next_eq (h : p.Book app start) {call : ClientCall} {todo : List ClientCall}
    (htodo : start.todo = call :: todo) : app.calls[p.records.length]? = some call := by
  have hlength : (start.outcomes.map Outcome.call).length = p.records.length := by
    rw [h.outcomes, List.length_map, List.length_map]
  rw [← h.calls, ← hlength, htodo, List.getElem?_append_right le_rfl, Nat.sub_self]
  rfl

variable [LawfulProtobuf]

/-- The call in progress is sending its request. -/
theorem Stands.current (h : p.Stands start) (hbook : p.Book app start) : sentOf p.io = [] ∨
    p.thread.result? = none ∧ ∃ call payload, app.calls[p.records.length]? = some call ∧
      call.payload? = some payload ∧ payload.length < 2 ^ 32 ∧
      sentOf p.io <+: wire.frame payload := by
  rcases h with ⟨-, htrace⟩ | ⟨op, k, hthread, call, todo, t, htodo, hwithin, htrace⟩
  · left
    simp [io, htrace]
  · have hio : p.io = t := by rw [io, htrace, List.drop_left]
    rw [hio]
    refine (Within.payload hwithin).imp_right fun ⟨payload, hpayload, hshort, hsent⟩ => ?_
    exact ⟨by rw [hthread]; rfl, call, payload, hbook.next_eq htodo, hpayload, hshort, hsent⟩

/-- **What a party has sent** is the requests of its calls, one frame each. -/
theorem Stands.sent (h : p.Stands start) (hbook : p.Book app start)
    (hfinal : Final Io.TearsRequest p.trace) :
    ∃ tail, wire.Reads (sentOf p.trace) (p.ops.map Prod.snd) tail := by
  obtain ⟨t, ht⟩ := h.past_isPrefix
  have hio : p.io = t := by rw [io, ← ht, List.drop_left]
  obtain ⟨xs, hdialogue, hpayloads⟩ := hbook.recorded.dialogue
  rw [← ht] at hfinal
  obtain ⟨tail, hsent, hcut, htorn⟩ := hdialogue.sent hfinal.of_append
  have hlt := hdialogue.length_lt
  rw [hpayloads] at hsent hlt
  have hops : p.ops.map Prod.snd = (opsFrom 0 p.records).map Prod.snd ++ sentWhole t := by
    rw [ops, hio, List.map_append, List.map_map]
    congr 1
    exact List.map_id _
  have hpast : sentOf p.trace = sentOf p.past ++ sentOf t := by rw [← ht, sentOf_append]
  rw [hops, hpast, show sentOf p.past = _ from hsent]
  have hnothing : sentOf t = [] → wire.Reads
      (wire.frames ((opsFrom 0 p.records).map Prod.snd) ++ tail ++ sentOf t)
      ((opsFrom 0 p.records).map Prod.snd ++ sentWhole t) tail := by
    intro hnil
    rw [sentWhole_congr (s := []) hnil, sentWhole_nil, hnil, List.append_nil, List.append_nil]
    exact ⟨rfl, hlt, hcut⟩
  rcases h.current hbook with hnil | ⟨-, call, payload, -, -, hshort, hpart⟩
  · exact ⟨tail, hnothing (hio ▸ hnil)⟩
  · rw [hio] at hpart
    by_cases hne : tail = []
    · subst hne
      obtain ⟨hwhole, hone⟩ := sentWhole_of_isPrefix hshort hpart
      obtain ⟨hspell, hbound, hcut'⟩ := wire.deframe_spec (sentOf t)
      refine ⟨(wire.deframe (sentOf t)).2, ?_, ?_, hcut'⟩
      · rw [wire.frames_append, hwhole, List.append_nil, List.append_assoc, ← hspell]
      · rw [hwhole]
        exact List.forall_mem_append.mpr ⟨hlt, hbound⟩
    · exact ⟨tail, hnothing (hfinal.sent_eq_nil (htorn hne))⟩

/-- A call that has sent a request has begun, and it is the request of that call. -/
theorem Stands.mem_ops (h : p.Stands start) (hbook : p.Book app start) {k : ℕ} {payload : Bytes}
    (hk : (k, payload) ∈ p.ops) : p.Invoked k ∧
      ∃ call, app.calls[k]? = some call ∧ call.payload? = some payload := by
  rw [ops, List.mem_append] at hk
  rcases hk with hk | hk
  · obtain ⟨j, rec, rfl, hj, hpayload⟩ := mem_opsFrom hk
    rw [Nat.zero_add]
    refine ⟨.inl (List.getElem?_eq_some_iff.mp hj).1, _, hbook.call_eq hj, ?_⟩
    obtain ⟨c₁, c₂, -, hperforms⟩ := hbook.recorded.split hj
    cases hperforms.course with
    | quiet hquiet hsent hsilent =>
      rw [sentWhole_congr (s := []) hsent, sentWhole_nil] at hpayload
      cases hpayload
    | exchange hcall hshort hx hsent htaken hexchange hfrom hresponded =>
      rw [sentWhole_congr hsent, hx.sentWhole hshort] at hpayload
      split_ifs at hpayload
      · rw [List.mem_singleton.mp hpayload]
        exact hcall
      · cases hpayload
  · obtain ⟨q, hq, heq⟩ := List.mem_map.mp hk
    obtain ⟨rfl, rfl⟩ := Prod.mk.inj heq
    rcases h.current hbook with hnil | ⟨hthread, call, payload, hcall, hpayload, hshort, hpart⟩
    · rw [sentWhole_congr (s := []) hnil, sentWhole_nil] at hq
      cases hq
    · obtain ⟨-, hone⟩ := sentWhole_of_isPrefix hshort hpart
      obtain rfl := List.mem_singleton.mp (hone.subset hq)
      exact ⟨.inr ⟨rfl, hthread⟩, call, hcall, hpayload⟩

/-- **A call that has come back with a response** has sent a request, and the response it took is
the one at the place of that request. -/
theorem Stands.responded (h : p.Stands start) (hbook : p.Book app start)
    (hfinal : Final Io.Tears p.trace) {k : ℕ} {rec : Record} (hk : p.records[k]? = some rec)
    (hresponded : rec.outcome.Responded app.client) :
    ∃ payload response rs, p.ops[rs.length]? = some (k, payload) ∧
      wire.frames (rs ++ [response]) <+: takenOf p.trace ∧
      (∀ q ∈ rs ++ [response], q.length < 2 ^ 32) ∧ takenOf rec.io = wire.frame response ∧
      rec.outcome.From response := by
  obtain ⟨c₁, c₂, hbefore, hperforms⟩ := hbook.recorded.split hk
  obtain ⟨xs, hdialogue, hpayloads⟩ := hbefore.dialogue
  have hrecords : p.records = p.records.take k ++ (rec :: p.records.drop (k + 1)) := by
    rw [← (List.getElem?_eq_some_iff.mp hk).2, List.cons_getElem_drop_succ, List.take_append_drop]
  obtain ⟨t, ht⟩ := h.past_isPrefix
  have htrace : p.trace = (p.records.take k).flatMap Record.io ++
      (rec.io ++ ((p.records.drop (k + 1)).flatMap Record.io ++ t)) := by
    rw [← ht, past]
    conv_lhs => rw [hrecords]
    simp
  rw [htrace] at hfinal ⊢
  cases hperforms.course with
  | quiet hquiet hsent hsilent =>
    exact absurd (hresponded.congr hbefore.clientOptions) hsilent
  | @exchange payload x t' hpayload hshort hx hsent htaken hexchange hfrom hback =>
    obtain ⟨response, rfl⟩ := hback (hresponded.congr hbefore.clientOptions)
    obtain ⟨hresponse, hlength⟩ := hx.taken
    -- nothing was torn before, as a frame is sent after it
    have hwhole : ¬Happened Io.Tears ((p.records.take k).flatMap Record.io) := by
      intro htorn
      have hnil := hfinal.sent_eq_nil htorn
      rw [sentOf_append, hsent, hx.sent rfl] at hnil
      exact wire_frame_ne_nil payload (List.append_eq_nil_iff.mp hnil).1
    rcases hdialogue.taken hfinal.of_append with ⟨hsame, hread⟩ | ⟨htorn, -⟩
    · refine ⟨payload, response, (completed xs).map Prod.snd, ?_, ?_, ?_,
        htaken.trans hresponse, hfrom response rfl⟩
      · have hcount :
            ((completed xs).map Prod.snd).length = (opsFrom 0 (p.records.take k)).length := by
          have hrequests := congrArg List.length hpayloads
          rw [List.length_map, hsame, List.length_map] at hrequests
          rw [← hrequests, List.length_map]
        obtain ⟨rest, hrest⟩ := opsFrom_split hk
        rw [hcount, ops, hrest, sentWhole_congr hsent, hx.sentWhole hshort]
        simp [sends]
      · rw [takenOf_append, takenOf_append, hread, htaken, hresponse, wire.frames_concat,
          ← List.append_assoc]
        exact List.prefix_append _ _
      · refine List.forall_mem_append.mpr ⟨fun q hq => ?_, by simpa using hlength⟩
        obtain ⟨y, hy, rfl⟩ := List.mem_map.mp hq
        exact hdialogue.length_completed_lt y hy
    · exact absurd htorn hwhole

end Party

/-! ### What only grows -/

namespace System

variable {ι σ : Type} {H : RequestHandler σ} {s₀ : σ} {apps : ι → Application}
  {s s' s'' : System ι σ}

/-- What is on record stays on record. -/
structure Grows (s s' : System ι σ) : Prop where
  trace : ∀ i, (s.party i).trace <+: (s'.party i).trace
  ops : ∀ i, (s.party i).ops <+: (s'.party i).ops
  calls : s.server.world.own.calls <+: s'.server.world.own.calls

theorem Grows.refl (s : System ι σ) : s.Grows s :=
  ⟨fun _ => List.prefix_rfl, fun _ => List.prefix_rfl, List.prefix_rfl⟩

theorem Grows.trans (h : s.Grows s') (h' : s'.Grows s'') : s.Grows s'' :=
  ⟨fun i => (h.trace i).trans (h'.trace i), fun i => (h.ops i).trans (h'.ops i),
    h.calls.trans h'.calls⟩

theorem Grows.connection (h : s.Grows s') {i : ι} {c : ℕ}
    (hc : connectionOf (s.party i).trace = some c) :
    connectionOf (s'.party i).trace = some c := by
  obtain ⟨t, ht⟩ := h.trace i
  rw [← ht, connectionOf_append, hc]
  rfl

variable [DecidableEq ι]

theorem Inv.grows_step (h : s.Inv H s₀ apps) (e : SystemEvent ι) : s.Grows (s.step H e) := by
  cases e with
  | server choice =>
    refine ⟨fun _ => List.prefix_rfl, fun _ => List.prefix_rfl, ?_⟩
    rcases (serverKernel H).step_turn (Flow.next SyncServer.startFrom) s.server choice with
      hsame | ⟨op, k, r, -, hturn⟩
    · rw [show (s.step H (.server choice)).server.world = _ from hsame]
    · exact (turn_consumed hturn).calls
  | party i choice =>
    cases hi : (s.party i).gone with
    | true =>
      rw [(step_of_gone hi choice).1]
      exact .refl s
    | false =>
      have hmoves := step_party_moves (H := H) hi choice
      have hother : ∀ j, i ≠ j → (s.step H (.party i choice)).party j = s.party j := fun j hne =>
        (h.toWired.step_foreign (e := .party i choice) hne).1
      obtain ⟨start, -, hstands, -⟩ := (h.sound i).stands
      refine ⟨fun j => ?_, fun j => ?_, ?_⟩
      · rcases eq_or_ne i j with rfl | hne
        · exact hmoves.trace
        · rw [hother j hne]
      · rcases eq_or_ne i j with rfl | hne
        · have htrace := hmoves.trace
          rw [System.link, System.link, step_party hi] at htrace
          rw [step_party hi]
          simp only [Function.update_self] at htrace ⊢
          exact Party.ops_resume hstands.past_isPrefix htrace _
        · rw [hother j hne]
      · rw [show (s.step H (.party i choice)).server.world.own = _ from hmoves.own]
        exact List.prefix_rfl
  | exit i =>
    cases hi : (s.party i).gone with
    | true =>
      rw [(step_of_gone hi (.transfer 0)).2]
      exact .refl s
    | false =>
      refine ⟨fun j => by rw [trace_exit], fun j => ?_, ?_⟩
      · rcases eq_or_ne i j with rfl | hne
        · rw [step_exit_self hi]
          exact List.prefix_rfl
        · rw [(h.toWired.step_foreign (H := H) (e := .exit i) hne).1]
      · rw [own_exit]

end System

theorem systemRun_grows [LawfulProtobuf] {ι σ : Type} [DecidableEq ι] (H : RequestHandler σ)
    (s₀ : σ) (apps : ι → Application) (es fs : List (SystemEvent ι)) :
    (systemRun H s₀ apps es).Grows (systemRun H s₀ apps (es ++ fs)) := by
  induction fs using List.reverseRecOn with
  | nil =>
    rw [List.append_nil]
    exact .refl _
  | append_singleton fs e ih =>
    rw [← List.append_assoc, systemRun_concat]
    exact ih.trans ((systemRun_inv H s₀ apps (es ++ fs)).grows_step e)

/-! ### The calls on a connection -/

namespace System

variable {ι σ : Type} {H : RequestHandler σ} {s₀ : σ} {apps : ι → Application} {s : System ι σ}
  {i : ι} {c : ℕ}

open Classical in
/-- The calls that have sent a request over a connection, in order. -/
noncomputable def ops (s : System ι σ) (c : ℕ) : List (ι × ℕ) :=
  if h : ∃ i, connectionOf (s.party i).trace = some c then
    (s.party h.choose).ops.map fun o => (h.choose, o.1)
  else []

theorem Wired.ops_eq (hw : s.Wired) (hc : connectionOf (s.party i).trace = some c) :
    s.ops c = (s.party i).ops.map fun o => (i, o.1) := by
  have hex : ∃ i, connectionOf (s.party i).trace = some c := ⟨i, hc⟩
  rw [ops, dif_pos hex, hw.distinct _ i c hex.choose_spec hc]

theorem ops_eq_nil (h : ∀ i, connectionOf (s.party i).trace ≠ some c) : s.ops c = [] :=
  dif_neg fun ⟨i, hi⟩ => h i hi

theorem Wired.mem_ops (hw : s.Wired) {op : ι × ℕ} (hop : op ∈ s.ops c) :
    connectionOf (s.party op.1).trace = some c ∧
      ∃ payload, (op.2, payload) ∈ (s.party op.1).ops := by
  by_cases hex : ∃ i, connectionOf (s.party i).trace = some c
  · obtain ⟨i, hi⟩ := hex
    rw [hw.ops_eq hi] at hop
    obtain ⟨o, ho, rfl⟩ := List.mem_map.mp hop
    exact ⟨hi, o.2, ho⟩
  · rw [ops_eq_nil fun i hi => hex ⟨i, hi⟩] at hop
    cases hop

theorem Wired.nodup_ops (hw : s.Wired) (c : ℕ) : (s.ops c).Nodup := by
  by_cases hex : ∃ i, connectionOf (s.party i).trace = some c
  · obtain ⟨i, hi⟩ := hex
    have hnodup := (s.party i).nodup_ops.map (f := fun k => (i, k)) fun _ _ h => (Prod.mk.inj h).2
    rw [hw.ops_eq hi]
    rwa [List.map_map] at hnodup
  · rw [ops_eq_nil fun i hi => hex ⟨i, hi⟩]
    exact List.nodup_nil

theorem Wired.ops_mono {s' : System ι σ} (hw : s.Wired) (hw' : s'.Wired) (h : s.Grows s') (c : ℕ) :
    s.ops c <+: s'.ops c := by
  by_cases hex : ∃ i, connectionOf (s.party i).trace = some c
  · obtain ⟨i, hi⟩ := hex
    rw [hw.ops_eq hi, hw'.ops_eq (h.connection hi)]
    exact (h.ops i).map _
  · rw [ops_eq_nil fun i hi => hex ⟨i, hi⟩]
    exact List.nil_prefix

variable [LawfulProtobuf]

/-- The server handles the requests of a party's calls, in order. -/
theorem Inv.requests_isPrefix (h : s.Inv H s₀ apps)
    (hfinal : Final Io.TearsRequest (s.party i).trace)
    (hc : connectionOf (s.party i).trace = some c) :
    s.server.world.own.requests c <+: (s.party i).ops.map Prod.snd := by
  obtain ⟨start, hbook, hstands, -⟩ := (h.sound i).stands
  obtain ⟨tail, hreads⟩ := hstands.sent hbook hfinal
  obtain ⟨hown, -⟩ := h.own
  have hhandled := wire.prefix_deframe (hown.short c)
    ((hown.framed c).trans (List.prefix_append _ (s.server.world.unread c)))
  rwa [show _ ++ _ = sentOf (s.party i).trace from ((h.sound i).tied c hc).sent,
    hreads.deframe_eq] at hhandled

/-- There is a call for every invocation of the request handler. -/
theorem Inv.enough (h : s.Inv H s₀ apps)
    (hfinal : ∀ i, Final Io.TearsRequest (s.party i).trace) :
    Enough Call.client s.server.world.own.calls s.ops := by
  intro c
  change (s.server.world.own.callsOf c).length ≤ _
  by_cases hex : ∃ i, connectionOf (s.party i).trace = some c
  · obtain ⟨i, hi⟩ := hex
    have hle := (h.requests_isPrefix (hfinal i) hi).length_le
    rw [h.toWired.ops_eq hi, List.length_map]
    simpa [Own.requests] using hle
  · have hunknown : c ∉ s.server.world.own.accepted := fun hc =>
      hex (h.owned c (List.mem_append_left _ hc))
    rw [Own.callsOf_of_notMem h.own.1 hunknown]
    exact Nat.zero_le _

/-- An invocation of the request handler for a call. -/
theorem Inv.invocation (h : s.Inv H s₀ apps) {k : Call σ} {op : ι × ℕ}
    (hfinal : Final Io.TearsRequest (s.party op.1).trace)
    (hop : (k, op) ∈ (s.server.world.own.callsOf c).zip (s.ops c)) :
    ∃ call, (apps op.1).calls[op.2]? = some call ∧ call.payload? = some k.request := by
  obtain ⟨hi, -⟩ := h.toWired.mem_ops (List.of_mem_zip hop).2
  obtain ⟨r, hr⟩ := List.getElem?_of_mem hop
  rw [List.getElem?_zip_eq_some, h.toWired.ops_eq hi, List.getElem?_map,
    Option.map_eq_some_iff] at hr
  obtain ⟨hcall, ⟨n, payload⟩, hentry, heq⟩ := hr
  -- the request handled is the payload at its place
  have hrequest : (s.server.world.own.requests c)[r]? = some k.request := by
    rw [Own.requests, List.getElem?_map, hcall]
    rfl
  obtain ⟨rest, hrest⟩ := h.requests_isPrefix hfinal hi
  have hpayload := congrArg (fun l => l[r]?) hrest
  have hlt := (List.getElem?_eq_some_iff.mp hrequest).1
  rw [List.getElem?_append_left hlt, hrequest, List.getElem?_map, hentry] at hpayload
  obtain rfl : k.request = payload := Option.some.inj hpayload
  obtain ⟨start, hbook, hstands, -⟩ := (h.sound op.1).stands
  obtain ⟨-, call, hcalls, hsends⟩ := hstands.mem_ops hbook (List.mem_of_getElem? hentry)
  refine ⟨call, ?_, hsends⟩
  rwa [← congrArg Prod.snd heq]

/-- **A call that has come back with a response** has been invoked, and its result is made of what
the request handler returned. -/
theorem Inv.answered (h : s.Inv H s₀ apps)
    (hshort : ∀ c, ∀ r ∈ s.server.world.own.responses c, r.length < 2 ^ 32)
    (hfinal : Final Io.Tears (s.party i).trace) {k : ℕ} {rec : Record}
    (hk : (s.party i).records[k]? = some rec) (hresponded : rec.outcome.Responded (apps i).client) :
    ∃ c call response, (call, (i, k)) ∈ (s.server.world.own.callsOf c).zip (s.ops c) ∧
      call.result = .ok response ∧ takenOf rec.io = wire.frame response ∧
      rec.outcome.From response := by
  obtain ⟨start, hbook, hstands, -⟩ := (h.sound i).stands
  obtain ⟨payload, response, rs, hop, htaken, hlt, hframe, hfrom⟩ :=
    hstands.responded hbook hfinal hk hresponded
  cases hc : connectionOf (s.party i).trace with
  | none =>
    obtain ⟨-, hnothing⟩ := (h.sound i).orderly.unused _ List.prefix_rfl hc
    rw [hnothing, wire.frames_concat] at htaken
    have hnil := (List.append_eq_nil_iff.mp (List.prefix_nil.mp htaken)).2
    exact absurd hnil (wire_frame_ne_nil response)
  | some c =>
    obtain ⟨hown, -⟩ := h.own
    have hframes := htaken.trans
      ((((h.sound i).tied c hc).taken).trans (hown.answered c))
    have hresponses := wire.prefix_deframe hlt hframes
    rw [wire.deframe_frames (hshort c)] at hresponses
    have hresults := (hresponses.map Except.ok).trans (hown.results_isPrefix c)
    obtain ⟨rest, hrest⟩ := hresults
    have hplace := congrArg (fun l => l[rs.length]?) hrest
    rw [List.map_append, List.append_assoc, List.getElem?_append_right (by simp)] at hplace
    simp only [List.length_map, Nat.sub_self, List.map_cons, List.map_nil, List.cons_append,
      List.getElem?_cons_zero, List.getElem?_map] at hplace
    obtain ⟨call, hcall, hresult⟩ := Option.map_eq_some_iff.mp hplace.symm
    refine ⟨c, call, response, ?_, hresult, hframe, hfrom⟩
    refine List.mem_of_getElem? (i := rs.length) ?_
    rw [List.getElem?_zip_eq_some, h.toWired.ops_eq hc, List.getElem?_map, hop]
    exact ⟨hcall, rfl⟩

end System

/-! ### Every run -/

omit [Protobuf] in
theorem outputs_eq_callAll {σ : Type} (H : RequestHandler σ) (ps : List Bytes) (s : σ) :
    outputs H ps s = (callAll (ps.map H) s).1 := by
  induction ps generalizing s with
  | nil => rfl
  | cons p ps ih => rw [outputs, ih, List.map_cons, callAll]

variable {ι σ : Type} [DecidableEq ι]

/-- The system at a moment of a run. -/
abbrev systemAt (H : RequestHandler σ) (s₀ : σ) (apps : ι → Application)
    (es : List (SystemEvent ι)) (n : ℕ) : System ι σ :=
  systemRun H s₀ apps (es.take n)

/-- What is observed of the calls of a run: the `k`th call of party `i` is the operation `(i, k)`.
It has returned once it has come back with a response. -/
def systemHistory (H : RequestHandler σ) (s₀ : σ) (apps : ι → Application)
    (es : List (SystemEvent ι)) : History (ι × ℕ) Bytes (Except Exception Bytes) where
  invoked n op := ((systemAt H s₀ apps es n).party op.1).Invoked op.2
  returned n op := ∃ rec, ((systemAt H s₀ apps es n).party op.1).records[op.2]? = some rec ∧
    rec.outcome.Responded (apps op.1).client
  input op payload := ∃ call, (apps op.1).calls[op.2]? = some call ∧
    call.payload? = some payload
  output op out := ∃ rec response, ((systemRun H s₀ apps es).party op.1).records[op.2]? = some rec ∧
    out = .ok response ∧ rec.outcome.From response

/-- The log of the request handler serves the calls on each connection in order. -/
theorem systemRun_serialized [LawfulProtobuf] (server : SyncServer σ) (s₀ : σ)
    (apps : ι → Application) (es : List (SystemEvent ι))
    (hfinal : ∀ i, Final Io.Tears ((systemRun server.requestHandler s₀ apps es).party i).trace) :
    Serialized server.requestHandler s₀ (systemHistory server.requestHandler s₀ apps es) es.length
      Call.client Call.request Call.result
      (fun n => (systemAt server.requestHandler s₀ apps es n).server.world.own.calls)
      (fun n => (systemAt server.requestHandler s₀ apps es n).ops) := by
  have hinv : ∀ n,
      (systemAt server.requestHandler s₀ apps es n).Inv server.requestHandler s₀ apps :=
    fun n => systemRun_inv _ s₀ apps _
  have hlast : systemAt server.requestHandler s₀ apps es es.length =
      systemRun server.requestHandler s₀ apps es := by
    rw [systemAt, List.take_length]
  have hgrows : ∀ n, (systemAt server.requestHandler s₀ apps es n).Grows
      (systemRun server.requestHandler s₀ apps es) := by
    intro n
    have hgrows := systemRun_grows server.requestHandler s₀ apps (es.take n) (es.drop n)
    rwa [List.take_append_drop] at hgrows
  have hfinal' : ∀ n i,
      Final Io.Tears ((systemAt server.requestHandler s₀ apps es n).party i).trace := by
    intro n i
    obtain ⟨t, ht⟩ := (hgrows n).trace i
    exact (ht ▸ hfinal i : Final Io.Tears (_ ++ t)).of_append
  have hfinal'' : ∀ n i,
      Final Io.TearsRequest ((systemAt server.requestHandler s₀ apps es n).party i).trace :=
    fun n i => (hfinal' n i).mono fun _ _ => .inl
  refine ⟨fun n _ => ?_, fun n _ c => ?_, ?_, fun n _ => (hinv n).enough (hfinal'' n), fun c => ?_,
    fun c c' op hop hop' => ?_, fun n _ c op hop => ?_, fun c p hp => ?_, fun n _ op hop => ?_⟩
  · rw [hlast]
    exact (hgrows n).calls
  · rw [hlast]
    exact (hinv n).toWired.ops_mono (systemRun_wired _ s₀ apps es) (hgrows n) c
  · have hthreaded := congrArg Prod.fst (hinv es.length).own.1.threaded
    rw [outputs_eq_callAll, List.map_map]
    exact hthreaded
  · exact (hinv es.length).toWired.nodup_ops c
  · obtain ⟨hc, -⟩ := (hinv es.length).toWired.mem_ops hop
    obtain ⟨hc', -⟩ := (hinv es.length).toWired.mem_ops hop'
    exact Option.some.inj (hc.symm.trans hc')
  · obtain ⟨-, payload, hpayload⟩ := (hinv n).toWired.mem_ops hop
    obtain ⟨start, hbook, hstands, -⟩ := ((hinv n).sound op.1).stands
    exact (hstands.mem_ops hbook hpayload).1
  · exact (hinv es.length).invocation (hfinal'' es.length _) hp
  · obtain ⟨rec, hrec, hresponded⟩ := hop
    obtain ⟨c, call, response, hmem, hresult, -, hfrom⟩ :=
      (hinv n).answered (length_responses_lt (hinv n).own.1) (hfinal' n op.1) hrec hresponded
    refine ⟨c, call, hmem, fun hn => ⟨rec, response, ?_, hresult, hfrom⟩⟩
    subst hn
    rwa [hlast] at hrec

/-- **Calls take effect at once.** In every run of a server and any number of clients, with any
order of steps, failures and ends of processes, in which no client sends anything after a torn
frame: the calls of all clients can be put in one order, each between its beginning and its return,
in which the request handler, answering one request after another, gives every call that has come
back with a response that response. The order is that of the handler's invocations, so that none of
them is without its call, and none is for a call that has another. A call that ended without a
response counts as one that has not returned. -/
theorem calls_linearizable [LawfulProtobuf] (server : SyncServer σ) (s₀ : σ)
    (apps : ι → Application) (es : List (SystemEvent ι))
    (hfinal : ∀ i, Final Io.Tears ((systemRun server.requestHandler s₀ apps es).party i).trace) :
    ∃ order, Linearizes server.requestHandler s₀
        (systemHistory server.requestHandler s₀ apps es) es.length order ∧
      order.map Prod.snd =
        (systemRun server.requestHandler s₀ apps es).server.world.own.calls.map fun k =>
          (k.request, k.result) := by
  obtain ⟨order, hlinearizes, horder⟩ :=
    (systemRun_serialized server s₀ apps es hfinal).linearizes
  rw [systemAt, List.take_length] at horder
  exact ⟨order, hlinearizes, horder⟩

end

namespace TestProto

/-- The request handler has echoed both greetings. -/
theorem calls_greetingsRun : (greetingSystem greetingsRun).server.world.own.calls.map
    (fun k => (k.request, k.result)) = [(greetingOf (str "a"), .ok (greetingOf (str "a"))),
      (greetingOf (str "b"), .ok (greetingOf (str "b")))] := by
  decide +kernel

/-- Of two greetings that were under way together, the first was echoed first. -/
theorem calls_linearizable_greetingsRun :
    ∃ order, Linearizes (SyncServer.registered .silentIgnore [echo]).requestHandler ()
        (systemHistory (SyncServer.registered .silentIgnore [echo]).requestHandler () applications
          greetingsRun) greetingsRun.length order ∧
      order.map Prod.snd = [(greetingOf (str "a"), .ok (greetingOf (str "a"))),
        (greetingOf (str "b"), .ok (greetingOf (str "b")))] := by
  obtain ⟨order, hlinearizes, horder⟩ := calls_linearizable
    (SyncServer.registered .silentIgnore [echo]) () applications greetingsRun (by decide +kernel)
  exact ⟨order, hlinearizes, horder.trans calls_greetingsRun⟩

end TestProto

end InterProcessCourier
