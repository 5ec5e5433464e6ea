import InterProcessCourier.ClientSession

/-!
# The dialogue on a connection

Of a sequence of calls only the exchanges touch the streams. `Dialogue` is the sequence of them, and
this module says where it leaves the two streams.

A step that cuts a frame leaves the rest of it to be taken for something else: a write that fails
with part of a frame written, `Io.TearsRequest`, does so to the server, and a read that fails or
comes back short, `Io.TearsResponse`, to the client. `Final` says that such a step is the last word:
nothing is sent after it. Then the frames stay whole.

## Main results

* `PerformsAll.dialogue` — the exchanges of a sequence of calls
* `Dialogue.sent` — what the server gets to read
* `Dialogue.taken` — what the client has read
-/

namespace InterProcessCourier

/-! ### Torn frames -/

namespace Io

/-- A write fails with part of a frame written. -/
def TearsRequest (before : List Io) : Io → Prop
  | failed (.writeSome _) => (wire.deframe (sentOf before)).2 ≠ []
  | _ => False

/-- A read fails, or comes back with less than it asked for. -/
def TearsResponse : Io → Prop
  | failed (.readSome _) => True
  | read n bs => bs.length < n
  | _ => False

/-- A step cuts a frame. -/
def Tears (before : List Io) (io : Io) : Prop := io.TearsRequest before ∨ io.TearsResponse

/-- What happens at the socket without an exchange. -/
def Quiet : Io → Prop
  | connected _ => True
  | failed .connect => True
  | _ => False

/-- Such a step moves no bytes. -/
theorem Quiet.moves {io : Io} (h : io.Quiet) (t : List Io) :
    sentOf (t ++ [io]) = sentOf t ∧ takenOf (t ++ [io]) = takenOf t := by
  cases io with
  | connected c => simp
  | wrote bs => exact h.elim
  | read n bs => exact h.elim
  | failed op => simp

end Io

/-- There was a step of this kind. -/
def Happened (kind : List Io → Io → Prop) (t : List Io) : Prop :=
  ∃ before io after, t = before ++ io :: after ∧ kind before io

/-- Nothing is sent after a step of this kind. -/
def Final (kind : List Io → Io → Prop) (t : List Io) : Prop :=
  ∀ before io after, t = before ++ io :: after → kind before io → sentOf after = []

section Final

variable {kind kind' : List Io → Io → Prop} {t t' : List Io}

theorem Happened.append (h : Happened kind t) (t' : List Io) : Happened kind (t ++ t') := by
  obtain ⟨before, io, after, rfl, hio⟩ := h
  exact ⟨before, io, after ++ t', by simp, hio⟩

theorem Happened.last {io : Io} (h : kind t io) : Happened kind (t ++ [io]) :=
  ⟨t, io, [], rfl, h⟩

theorem Final.of_append (h : Final kind (t ++ t')) : Final kind t := by
  rintro before io after rfl hio
  have hsent := h before io (after ++ t') (by simp) hio
  rw [sentOf_append] at hsent
  exact (List.append_eq_nil_iff.mp hsent).1

theorem Final.sent_eq_nil (h : Final kind (t ++ t')) (ht : Happened kind t) : sentOf t' = [] := by
  obtain ⟨before, io, after, rfl, hio⟩ := ht
  have hsent := h before io (after ++ t') (by simp) hio
  rw [sentOf_append] at hsent
  exact (List.append_eq_nil_iff.mp hsent).2

theorem Final.mono (h : Final kind' t) (hkind : ∀ before io, kind before io → kind' before io) :
    Final kind t :=
  fun before io after ht hio => h before io after ht (hkind _ _ hio)

/-- Failures at the end are final. -/
theorem Final.append_failed (h : Final kind t) (ops : List ClientOp) :
    Final kind (t ++ ops.map .failed) := by
  have hnone : ∀ {s : List Io}, (∃ s', ops.map Io.failed = s' ++ s) → sentOf s = [] := by
    rintro s ⟨s', hs⟩
    refine List.flatMap_eq_nil_iff.mpr fun io hio => ?_
    have hmem : io ∈ ops.map Io.failed := hs ▸ List.mem_append_right s' hio
    obtain ⟨op, -, rfl⟩ := List.mem_map.mp hmem
    rfl
  intro before io after ht hio
  rcases List.append_eq_append_iff.mp ht with ⟨s, hbefore, hrest⟩ | ⟨s, hsplit, hrest⟩
  · exact hnone ⟨s ++ [io], by simpa using hrest⟩
  · cases s with
    | nil => exact hnone ⟨[io], by simpa using hrest.symm⟩
    | cons io' s =>
      obtain ⟨rfl, rfl⟩ := List.cons.inj hrest
      refine (sentOf_append s _).trans ?_
      rw [h before io s hsplit hio, hnone ⟨[], rfl⟩, List.nil_append]

end Final

/-! ### Torn frames can be looked for -/

instance (before : List Io) : (io : Io) → Decidable (io.TearsRequest before)
  | .failed (.writeSome _) => inferInstanceAs (Decidable (_ ≠ _))
  | .failed .connect => .isFalse id
  | .failed (.readSome _) => .isFalse id
  | .connected _ => .isFalse id
  | .wrote _ => .isFalse id
  | .read _ _ => .isFalse id

instance : (io : Io) → Decidable io.TearsResponse
  | .failed (.readSome _) => .isTrue trivial
  | .read n bs => inferInstanceAs (Decidable (bs.length < n))
  | .failed .connect => .isFalse id
  | .failed (.writeSome _) => .isFalse id
  | .connected _ => .isFalse id
  | .wrote _ => .isFalse id

instance (before : List Io) (io : Io) : Decidable (io.Tears before) :=
  inferInstanceAs (Decidable (_ ∨ _))

theorem final_iff {kind : List Io → Io → Prop} {t : List Io} : Final kind t ↔
    ∀ i, ∀ h : i < t.length, kind (t.take i) t[i] → sentOf (t.drop (i + 1)) = [] := by
  constructor
  · intro h i hi hio
    exact h _ _ _ (by rw [List.getElem_cons_drop, List.take_append_drop]) hio
  · rintro h before io after rfl hio
    have hlast := h before.length (by simp)
    simpa using hlast (by simpa using hio)

instance {kind : List Io → Io → Prop} [∀ before io, Decidable (kind before io)] (t : List Io) :
    Decidable (Final kind t) :=
  decidable_of_iff _ final_iff.symm

/-! ### Dialogues -/

/-- The exchanges on a connection, each with its request payload and its result. -/
inductive Dialogue : List (Bytes × SyncClientResult Bytes) → List Io → Prop
  | nil : Dialogue [] []
  | quiet {xs : List (Bytes × SyncClientResult Bytes)} {t : List Io} {io : Io} (h : Dialogue xs t)
    (hio : io.Quiet) : Dialogue xs (t ++ [io])
  | exchange {xs : List (Bytes × SyncClientResult Bytes)} {t t' : List Io} {payload : Bytes}
    {r : SyncClientResult Bytes} (h : Dialogue xs t) (hpayload : payload.length < 2 ^ 32)
    (hx : Exchange payload r t') : Dialogue (xs ++ [(payload, r)]) (t ++ t')

/-- The payloads that were written whole. -/
def sentPayloads (xs : List (Bytes × SyncClientResult Bytes)) : List Bytes :=
  (xs.filter fun x => sends x.2).map Prod.fst

/-- The exchanges that ended with a response. -/
def completed (xs : List (Bytes × SyncClientResult Bytes)) : List (Bytes × Bytes) :=
  xs.filterMap fun x => x.2.toOption.map (x.1, ·)

theorem sentPayloads_concat (xs : List (Bytes × SyncClientResult Bytes)) (payload : Bytes)
    (r : SyncClientResult Bytes) :
    sentPayloads (xs ++ [(payload, r)]) = sentPayloads xs ++ if sends r then [payload] else [] := by
  by_cases hr : sends r = true <;> simp [sentPayloads, hr]

theorem completed_concat (xs : List (Bytes × SyncClientResult Bytes)) (payload : Bytes)
    (r : SyncClientResult Bytes) :
    completed (xs ++ [(payload, r)]) = completed xs ++ (r.toOption.map (payload, ·)).toList := by
  cases r <;> simp [completed, Except.toOption]

theorem toOption_of_not_sends {r : SyncClientResult Bytes} (h : sends r = false) :
    r.toOption = none := by
  cases r with
  | error error => rfl
  | ok response => cases h

namespace Dialogue

variable {xs : List (Bytes × SyncClientResult Bytes)} {t : List Io}

theorem length_lt (h : Dialogue xs t) : ∀ p ∈ sentPayloads xs, p.length < 2 ^ 32 := by
  induction h with
  | nil => simp [sentPayloads]
  | quiet h hio ih => exact ih
  | @exchange xs t t' payload r h hpayload hx ih =>
    intro p hp
    rw [sentPayloads_concat, List.mem_append] at hp
    rcases hp with hp | hp
    · exact ih p hp
    · split_ifs at hp
      · exact List.mem_singleton.mp hp ▸ hpayload
      · cases hp

theorem length_completed_lt (h : Dialogue xs t) : ∀ x ∈ completed xs, x.2.length < 2 ^ 32 := by
  induction h with
  | nil => simp [completed]
  | quiet h hio ih => exact ih
  | @exchange xs t t' payload r h hpayload hx ih =>
    intro x hmem
    rw [completed_concat, List.mem_append] at hmem
    rcases hmem with hmem | hmem
    · exact ih x hmem
    · cases r with
      | error error => cases hmem
      | ok response =>
        obtain rfl := List.mem_singleton.mp hmem
        exact hx.taken.2

/-- **What the server gets to read.** If a torn request is the last thing sent, the stream is the
frames of the payloads that were written whole, followed by the part of a frame that a failed write
has left. -/
theorem sent (h : Dialogue xs t) (hfinal : Final Io.TearsRequest t) :
    ∃ tail, sentOf t = wire.frames (sentPayloads xs) ++ tail ∧ wire.Incomplete tail ∧
      (tail ≠ [] → Happened Io.TearsRequest t) := by
  induction h with
  | nil => exact ⟨[], by simp [sentPayloads], wire.incomplete_nil, fun h => absurd rfl h⟩
  | quiet h hio ih =>
    obtain ⟨tail, hsent, hcut, htorn⟩ := ih hfinal.of_append
    exact ⟨tail, (hio.moves _).1.trans hsent, hcut, fun h => (htorn h).append _⟩
  | @exchange xs t t' payload r h hpayload hx ih =>
    obtain ⟨tail, hsent, hcut, htorn⟩ := ih hfinal.of_append
    cases hr : sends r with
    | true =>
      -- a frame is written, so nothing was torn before
      have hwhole := hx.sent hr
      have hnil : tail = [] := by
        by_contra hne
        exact wire_frame_ne_nil payload (hwhole.symm.trans (hfinal.sent_eq_nil (htorn hne)))
      refine ⟨[], ?_, wire.incomplete_nil, fun h => absurd rfl h⟩
      rw [sentOf_append, hsent, hwhole, hnil, sentPayloads_concat, if_pos hr]
      simp
    | false =>
      obtain ⟨bs, s, hmidway, rfl⟩ := hx.unsent_of_not_sends hr
      obtain ⟨hframe, hbs, -⟩ := hmidway.writing
      have hsame : sentPayloads (xs ++ [(payload, r)]) = sentPayloads xs := by
        simp [sentPayloads_concat, hr]
      rw [hsame]
      by_cases hne : tail = []
      · subst hne
        rw [List.append_nil] at hsent
        have hcut' : wire.Incomplete (sentOf s) :=
          wire.incomplete_of_prefix hpayload ⟨bs, hframe⟩ fun he => hbs (by simpa [he] using hframe)
        refine ⟨sentOf s, by simp [hsent], hcut', fun hs => ?_⟩
        rw [← List.append_assoc]
        refine Happened.last ?_
        change (wire.deframe (sentOf (t ++ s))).2 ≠ []
        rwa [wire.deframe_eq h.length_lt hcut' (by rw [sentOf_append, hsent])]
      · have hnone := hfinal.sent_eq_nil (htorn hne)
        exact ⟨tail, by rw [sentOf_append, hnone, List.append_nil, hsent], hcut,
          fun h => (htorn h).append _⟩

/-- **What the client has read.** If nothing is sent after a torn frame, the client has taken the
frames of its responses, and no more unless it tore one. -/
theorem taken (h : Dialogue xs t) (hfinal : Final Io.Tears t) :
    (sentPayloads xs = (completed xs).map Prod.fst ∧
      takenOf t = wire.frames ((completed xs).map Prod.snd)) ∨
    (Happened Io.Tears t ∧ (completed xs).map Prod.fst <+: sentPayloads xs ∧
      (sentPayloads xs).length ≤ (completed xs).length + 1 ∧
      wire.frames ((completed xs).map Prod.snd) <+: takenOf t) := by
  induction h with
  | nil => exact .inl ⟨rfl, rfl⟩
  | quiet h hio ih =>
    rw [(hio.moves _).2]
    exact (ih hfinal.of_append).imp_right fun ⟨htorn, hrest⟩ => ⟨htorn.append _, hrest⟩
  | @exchange xs t t' payload r h hpayload hx ih =>
    rw [sentPayloads_concat, completed_concat, takenOf_append]
    rcases ih hfinal.of_append with ⟨hpayloads, htaken⟩ | ⟨htorn, hpayloads, hlength, htaken⟩
    · -- both streams stand at a frame boundary
      have htears : ∀ {s : List Io} {io : Io}, io.TearsResponse →
          Happened Io.Tears (t ++ (s ++ [io])) := fun hio => by
        rw [← List.append_assoc]
        exact Happened.last (.inr hio)
      have hlost : (completed xs).map Prod.fst <+: sentPayloads xs ++ [payload] :=
        hpayloads ▸ List.prefix_append _ _
      have hone : (sentPayloads xs).length ≤ (completed xs).length := by simp [hpayloads]
      have hpart : ∀ s, wire.frames ((completed xs).map Prod.snd) <+: takenOf t ++ s := fun s =>
        htaken ▸ List.prefix_append _ _
      cases hx with
      | unsent hmidway message =>
        obtain ⟨-, -, hnone⟩ := hmidway.writing
        left
        simpa [sends, Except.toOption, hnone] using ⟨hpayloads, htaken⟩
      | lost hmidway message =>
        right
        simpa [sends, Except.toOption] using ⟨htears trivial, hlost, hone, hpart _⟩
      | short hmidway hbs message =>
        right
        simpa [sends, Except.toOption] using ⟨htears hbs, hlost, hone, hpart _⟩
      | done hframe hheader hresponse =>
        left
        have hmoved := (Exchange.done hframe hheader hresponse).taken.1
        rw [hmoved, htaken, hpayloads]
        simp [sends, Except.toOption]
    · -- nothing more is sent
      have hnone := hfinal.sent_eq_nil htorn
      have hr : sends r = false := by
        by_contra hr
        rw [Bool.not_eq_false] at hr
        exact wire_frame_ne_nil payload ((hx.sent hr).symm.trans hnone)
      right
      rw [hr, toOption_of_not_sends hr]
      simpa using ⟨htorn.append _, hpayloads, hlength, htaken.trans (List.prefix_append _ _)⟩

end Dialogue

/-! ### The exchanges of calls -/

section Calls

variable [Protobuf]

/-- The exchanges of a call. The result of `sendRequest` is made of that of its exchange, unless the
request was refused. -/
inductive Outcome.Exchanges : Outcome → List (Bytes × SyncClientResult Bytes) → Prop
  | registers (RequestType ResponseType : Descriptor) (r : Except Exception Bool) :
    Exchanges ⟨.registerRequestResponsePair RequestType ResponseType, r⟩ []
  | connects (r : SyncClientResult Unit) : Exchanges ⟨.connect, r⟩ []
  | reflects (client : SyncClient) (r : SyncClientResult Bytes) :
    Exchanges ⟨.connect, (client.reflected (replyOf MappingReflectionResponse r)).1⟩
      [(reflectionPayload, r)]
  | refused {RequestType : Descriptor} (ResponseType : Descriptor) (request : Message RequestType)
    {error : Error SyncClientError} (h : error.type = .badRequestToResponsePair) :
    Exchanges ⟨.sendRequest ResponseType request, .error error⟩ []
  | exchanged {RequestType : Descriptor} (ResponseType : Descriptor) (request : Message RequestType)
    (r : SyncClientResult Bytes) :
    Exchanges ⟨.sendRequest ResponseType request, replyOf ResponseType r⟩
      [(makePayloadFromProto request, r)]

/-- Only the validation refuses a request. -/
theorem SyncClient.type_of_validate {client : SyncClient} {RequestType ResponseType : Descriptor}
    {error : Error SyncClientError} (h : client.validate RequestType ResponseType = .error error) :
    error.type = .badRequestToResponsePair := by
  rw [validate] at h
  split_ifs at h
  obtain rfl := Except.error.inj h
  rfl

variable [LawfulProtobuf] {client client' : SyncClient} {t t' : List Io}

/-- A call continues the dialogue. -/
theorem Performs.dialogue {call : ClientCall} {r : call.Result}
    (h : Performs client call r client' t') {xs : List (Bytes × SyncClientResult Bytes)}
    (hxs : Dialogue xs t) :
    ∃ ys, Outcome.Exchanges ⟨call, r⟩ ys ∧ Dialogue (xs ++ ys) (t ++ t') := by
  cases h with
  | registers RequestType ResponseType =>
    exact ⟨[], .registers .., by simpa using hxs⟩
  | unconnected message =>
    have hfailed : (Io.failed .connect).Quiet := trivial
    exact ⟨[], .connects _, by simpa using hxs.quiet hfailed⟩
  | connected c h =>
    have hconnected : (Io.connected c).Quiet := trivial
    exact ⟨[], .connects _, by simpa using hxs.quiet hconnected⟩
  | @reflected c r t h hexchange =>
    have hconnected : (Io.connected c).Quiet := trivial
    refine ⟨_, .reflects client r, ?_⟩
    simpa using (hxs.quiet hconnected).exchange length_reflectionPayload_lt hexchange
  | refused request h =>
    exact ⟨[], .refused _ request (SyncClient.type_of_validate h), by simpa using hxs⟩
  | exchanged request h hexchange =>
    exact ⟨_, .exchanged _ request _, hxs.exchange (length_makePayloadFromProto_lt _) hexchange⟩

/-- **The exchanges of a sequence of calls.** -/
theorem PerformsAll.dialogue {os : List Outcome} (h : PerformsAll client os client' t) :
    ∃ xss, List.Forall₂ Outcome.Exchanges os xss ∧ Dialogue xss.flatten t := by
  induction h with
  | nil => exact ⟨[], .nil, .nil⟩
  | concat hos hcall ih =>
    obtain ⟨xss, hxss, hdialogue⟩ := ih
    obtain ⟨ys, hys, hdialogue'⟩ := hcall.dialogue hdialogue
    exact ⟨xss ++ [ys], List.rel_append hxss (.cons hys .nil), by simpa using hdialogue'⟩

end Calls

end InterProcessCourier
