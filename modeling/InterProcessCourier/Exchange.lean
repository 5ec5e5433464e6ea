import InterProcessCourier.ClientInvariant

/-!
# One exchange

`SyncClient::sendAndReceiveMessage` as a relation between what it returns and what it does to the
socket. `Midway` lists the points at which it can stand, and `Exchange` the ways it can end: at one
of those points, by a failure or by a short read, or with a response.

The relation is exact about failures, as what a failed exchange leaves on the stream is what the
next one finds there.

## Main results

* `triple_sendAndReceiveMessage` — the code does what `Exchange` says
* `Exchange.sent`, `Exchange.taken` — the bytes that an exchange moves
* `SyncClient.sendAndReceiveMessage_eq` — the socket code has the same function
-/

namespace InterProcessCourier

open Interaction

/-- The points of an exchange: the operation asked for, and what has happened. -/
inductive Midway (payload : Bytes) : ClientOp → List Io → Prop
  | write {ws : List Bytes} {bs : Bytes} (hbs : bs ≠ [])
    (hframe : ws.flatten ++ bs = wire.frame payload) :
    Midway payload (.writeSome bs) (ws.map .wrote)
  | header {ws : List Bytes} (hframe : ws.flatten = wire.frame payload) :
    Midway payload (.readSome payloadLengthHeaderSize) (ws.map .wrote)
  | body {ws : List Bytes} {header : Bytes} (hframe : ws.flatten = wire.frame payload)
    (hheader : header.length = payloadLengthHeaderSize) :
    Midway payload (.readSome (loadLE header))
      (ws.map .wrote ++ [.read payloadLengthHeaderSize header])

/-- What an exchange returns, and what happens in it. -/
inductive Exchange (payload : Bytes) : SyncClientResult Bytes → List Io → Prop
  /-- A write fails. -/
  | unsent {bs : Bytes} {t : List Io} (h : Midway payload (.writeSome bs) t) (message : Bytes) :
    Exchange payload (.error ⟨.unableToSendMessage, message⟩) (t ++ [.failed (.writeSome bs)])
  /-- A read fails. -/
  | lost {n : ℕ} {t : List Io} (h : Midway payload (.readSome n) t) (message : Bytes) :
    Exchange payload (.error ⟨.unableToReceiveMessage, message⟩) (t ++ [.failed (.readSome n)])
  /-- A read comes back with less than it asked for. -/
  | short {n : ℕ} {bs : Bytes} {t : List Io} (h : Midway payload (.readSome n) t)
    (hbs : bs.length < n) (message : Bytes) :
    Exchange payload (.error ⟨.unableToReceiveMessage, message⟩) (t ++ [.read n bs])
  | done {ws : List Bytes} {header response : Bytes} (hframe : ws.flatten = wire.frame payload)
    (hheader : header.length = payloadLengthHeaderSize)
    (hresponse : response.length = loadLE header) :
    Exchange payload (.ok response) (ws.map .wrote ++
      [.read payloadLengthHeaderSize header, .read response.length response])

/-- What `sendAndReceiveMessage` makes of the result of `receiveMessage`. -/
def receiptOf (r : UnixDomainClientResult Bytes) : SyncClientResult Bytes :=
  r.mapError fun error => ⟨.unableToReceiveMessage, error.message⟩

section Triple

variable {W C A : Type} {K : Kernel clientSignature Exception W C A} {R : Rely clientSignature W}
  {trace : W → List Io} {pre : ClientOp → List Io → Prop} {t₀ : List Io} {payload : Bytes}
  (hsocket : Socket K R trace pre)

include hsocket

theorem triple_socketConnect (hpre : pre .connect t₀) :
    Triple K R trace (· = t₀) SyncUnixDomainClient.connect
      (fun r t => (∃ error, r = .error error ∧ t = t₀ ++ [.failed .connect]) ∨
        r = .ok () ∧ ∃ c, t = t₀ ++ [.connected c])
      (fun _ _ => False) := by
  have hV := hsocket.owns
  refine triple_catchStdException hV ((hsocket.connect hpre).bind hV fun _ => Triple.ret hV ?_)
    (fun e what _ => Triple.ret hV ?_) fun e hnone t ht => ?_
  · exact fun t ht => .inr ⟨rfl, ht⟩
  · exact fun t ht => .inl ⟨_, rfl, ht.2⟩
  · obtain ⟨⟨code, what, rfl⟩, -⟩ := ht
    cases hnone

/-- The frame of a message is written whole, or a write fails. -/
theorem triple_sendMessage (hpayload : payload.length < 2 ^ 32)
    (hpre : ∀ op t, Midway payload op t → pre op (t₀ ++ t)) :
    Triple K R trace (· = t₀) (SyncUnixDomainClient.sendMessage payload)
      (fun r t => match r with
        | .ok () => ∃ ws : List Bytes, ws.flatten = wire.frame payload ∧ t = t₀ ++ ws.map .wrote
        | .error _ => ∃ bs t', Midway payload (.writeSome bs) t' ∧
          t = t₀ ++ (t' ++ [.failed (.writeSome bs)]))
      (fun _ _ => False) := by
  have hV := hsocket.owns
  have hwrite : Triple K R trace (· = t₀)
      (Asio.write (fun bs => (ClientOp.writeSome bs).perform) (wire.frame payload))
      (fun _ t => ∃ ws : List Bytes, ws.flatten = wire.frame payload ∧ t = t₀ ++ ws.map .wrote)
      (fun e t => e.what?.isSome ∧ ∃ bs t', Midway payload (.writeSome bs) t' ∧
        t = t₀ ++ (t' ++ [.failed (.writeSome bs)])) := by
    refine (Asio.triple_write
      (J := fun out t => ∃ ws : List Bytes, ws.flatten = out ∧ t = t₀ ++ ws.map .wrote)
      hV fun out bs hbs htotal => Triple.of_eq ?_).pre fun t ht => ⟨[], rfl, ?_⟩
    · rintro t ⟨ws, rfl, rfl⟩
      have hmidway := Midway.write hbs htotal
      refine (hsocket.writeSome (hpre _ _ hmidway)).mono (fun _ => id) ?_ ?_
      · rintro k t rfl
        exact ⟨ws ++ [bs.take k.1], by simp, by simp⟩
      · rintro e t ⟨⟨code, what, rfl⟩, rfl⟩
        exact ⟨rfl, bs, _, hmidway, by rw [List.append_assoc]⟩
    · rw [ht, List.map_nil, List.append_nil]
  rw [SyncUnixDomainClient.sendMessage, frameRequest_eq hpayload]
  refine triple_catchStdException hV (hwrite.bind hV fun _ => Triple.ret hV fun _ => id)
    (fun e what _ => Triple.ret hV fun t ht => ht.2) fun e hnone t ht => ?_
  rw [hnone] at ht
  exact absurd ht.1 (by simp)

/-- A response is received, or a read fails or comes back short. -/
theorem triple_receiveMessage (hpre : ∀ op t, Midway payload op t → pre op (t₀ ++ t))
    {ws : List Bytes} (hframe : ws.flatten = wire.frame payload) :
    Triple K R trace (· = t₀ ++ ws.map .wrote) SyncUnixDomainClient.receiveMessage
      (fun r t => ∃ t', Exchange payload (receiptOf r) t' ∧ t = t₀ ++ t') (fun _ _ => False) := by
  have hV := hsocket.owns
  have hread : ∀ {n t}, Midway payload (.readSome n) t →
      Triple K R trace (· = t₀ ++ t) (ClientOp.readSome n).perform
        (fun chunk t' => t' = t₀ ++ (t ++ [.read n chunk.1]))
        (fun e t' => e.what?.isSome ∧ ∀ message, ∃ t'',
          Exchange payload (.error ⟨.unableToReceiveMessage, message⟩) t'' ∧ t' = t₀ ++ t'') := by
    intro n t hmidway
    refine (hsocket.readSome (hpre _ _ hmidway)).mono (fun _ => id) ?_ ?_
    · rintro chunk t rfl
      rw [List.append_assoc]
    · rintro e t ⟨⟨code, what, rfl⟩, rfl⟩
      exact ⟨rfl, fun message => ⟨_, .lost hmidway message, by rw [List.append_assoc]⟩⟩
  have hheader := Midway.header hframe
  refine triple_catchStdException hV (E := fun e t' => e.what?.isSome ∧ ∀ message, ∃ t'',
      Exchange payload (.error ⟨.unableToReceiveMessage, message⟩) t'' ∧ t' = t₀ ++ t'')
    ((hread hheader).bind hV fun (header : Chunk payloadLengthHeaderSize) => ?_)
    (fun e what _ => Triple.ret hV fun t ht => ht.2 what) fun e hnone t ht => ?_
  · by_cases hlen : header.1.length = payloadLengthHeaderSize
    · have hnat : (loadLE header.1).toUInt32.toNat = loadLE header.1 := by
        rw [Nat.toUInt32_eq, UInt32.toNat_ofNat']
        exact Nat.mod_eq_of_lt (wire.decode_lt header.1 hlen)
      have hbody : Midway payload (.readSome (loadLE header.1).toUInt32.toNat)
          (ws.map .wrote ++ [.read payloadLengthHeaderSize header.1]) := by
        rw [hnat]
        exact .body hframe hlen
      rw [if_neg (not_not.mpr hlen)]
      refine (hread hbody).bind hV fun (reply : Chunk (loadLE header.1).toUInt32.toNat) => ?_
      by_cases hreply : reply.1.length = (loadLE header.1).toUInt32.toNat
      · rw [if_neg (not_not.mpr hreply)]
        refine Triple.ret hV fun t ht => ⟨_, .done hframe hlen (hreply.trans hnat), ?_⟩
        rw [ht, hreply, List.append_assoc]
        rfl
      · rw [if_pos hreply]
        have hshort := lt_of_le_of_ne reply.2.1 hreply
        exact Triple.ret hV fun t ht => ⟨_, .short hbody hshort [], ht⟩
    · rw [if_pos hlen]
      have hshort := lt_of_le_of_ne header.2.1 hlen
      exact Triple.ret hV fun t ht => ⟨_, .short hheader hshort [], ht⟩
  · rw [hnone] at ht
    exact absurd ht.1 (by simp)

/-- **`sendAndReceiveMessage` is an exchange.** -/
theorem triple_sendAndReceiveMessage (hpayload : payload.length < 2 ^ 32)
    (hpre : ∀ op t, Midway payload op t → pre op (t₀ ++ t)) :
    Triple K R trace (· = t₀) (SyncClient.sendAndReceiveMessage payload)
      (fun r t => ∃ t', Exchange payload r t' ∧ t = t₀ ++ t') (fun _ _ => False) := by
  have hV := hsocket.owns
  refine (triple_sendMessage hsocket hpayload hpre).bind hV fun r => Triple.of_eq ?_
  match r with
  | .error error =>
    rintro t ⟨bs, t', hmidway, rfl⟩
    exact Triple.ret hV fun t ht => ⟨_, .unsent hmidway error.message, ht⟩
  | .ok () =>
    rintro t ⟨ws, hframe, rfl⟩
    refine (triple_receiveMessage hsocket hpre hframe).bind hV fun r => ?_
    cases r with
    | error error => exact Triple.ret hV fun t => id
    | ok response => exact Triple.ret hV fun t => id

end Triple

/-! ### The bytes an exchange moves -/

section Bytes

variable {payload bs : Bytes} {n : ℕ} {t : List Io}

theorem Midway.writing (h : Midway payload (.writeSome bs) t) :
    sentOf t ++ bs = wire.frame payload ∧ bs ≠ [] ∧ takenOf t = [] := by
  cases h with
  | write hbs hframe => exact ⟨by simpa using hframe, hbs, by simp⟩

theorem Midway.reading (h : Midway payload (.readSome n) t) : sentOf t = wire.frame payload := by
  cases h with
  | header hframe => simpa using hframe
  | body hframe hheader => simpa using hframe

theorem Midway.sent_isPrefix {op : ClientOp} (h : Midway payload op t) :
    sentOf t <+: wire.frame payload := by
  cases h with
  | write hbs hframe => exact ⟨_, (Midway.write hbs hframe).writing.1⟩
  | header hframe => rw [(Midway.header hframe).reading]
  | body hframe hheader => rw [(Midway.body hframe hheader).reading]

/-- What has been read is part of a frame, if there is more to be read. -/
theorem Midway.incomplete (h : Midway payload (.readSome n) t) (hn : 0 < n) :
    wire.Incomplete (takenOf t) := by
  cases h with
  | header hframe => simpa using wire.incomplete_nil
  | @body ws header hframe hheader =>
    have htaken : takenOf (ws.map .wrote ++ [.read payloadLengthHeaderSize header]) = header := by
      simp
    left
    rw [htaken, wire_headerSize, List.take_of_length_le hheader.le, hheader]
    exact Nat.lt_add_of_pos_right hn

/-- The request of this result was written whole. -/
def sends : SyncClientResult Bytes → Bool
  | .error error => error.type ≠ .unableToSendMessage
  | .ok _ => true

/-- An exchange that sends its request writes its frame. -/
theorem Exchange.sent {r : SyncClientResult Bytes} (h : Exchange payload r t)
    (hr : sends r = true) : sentOf t = wire.frame payload := by
  cases h with
  | unsent h message => simp [sends] at hr
  | lost h message => simpa using h.reading
  | short h hbs message => simpa using h.reading
  | done hframe hheader hresponse => simpa using hframe

/-- An exchange writes no more than the frame of its request. -/
theorem Exchange.sent_isPrefix {r : SyncClientResult Bytes} (h : Exchange payload r t) :
    sentOf t <+: wire.frame payload := by
  cases h with
  | unsent h message => simpa using h.sent_isPrefix
  | lost h message => simpa using h.sent_isPrefix
  | short h hbs message => simpa using h.sent_isPrefix
  | done hframe hheader hresponse => simp [hframe]

/-- An exchange that does not send its request fails at a write. -/
theorem Exchange.unsent_of_not_sends {r : SyncClientResult Bytes} (h : Exchange payload r t)
    (hr : sends r = false) :
    ∃ bs t', Midway payload (.writeSome bs) t' ∧ t = t' ++ [.failed (.writeSome bs)] := by
  cases h with
  | unsent h message => exact ⟨_, _, h, rfl⟩
  | lost h message => simp [sends] at hr
  | short h hbs message => simp [sends] at hr
  | done hframe hheader hresponse => simp [sends] at hr

/-- A response is taken with its frame. -/
theorem Exchange.taken {response : Bytes} (h : Exchange payload (.ok response) t) :
    takenOf t = wire.frame response ∧ response.length < 2 ^ 32 := by
  cases h with
  | done hframe hheader hresponse =>
    rw [wire.frame_of_header hheader hresponse]
    exact ⟨by simp, hresponse ▸ wire.decode_lt _ hheader⟩

end Bytes

/-! ### The two versions -/

/-- The error of `SyncClient` for an error of its socket code. -/
def SyncClientError.ofSocket : UnixDomainClientError → SyncClientError
  | .unableToSendMessage => .unableToSendMessage
  | _ => .unableToReceiveMessage

namespace SyncUnixDomainClient

/-- The errors of sending. -/
theorem sendMessage_returns (message : Bytes) : (sendMessage message).Returns fun r =>
    ∀ error, r = .error error → error.type = .unableToSendMessage := by
  rw [sendMessage]
  refine (Program.returns_true _).bind fun buffer _ => returns_catchStdException ?_ fun what => ?_
  · exact (Program.returns_true _).bind fun _ _ => nofun
  · rintro error h
    rw [← Except.error.inj h]

/-- The errors of receiving. -/
theorem receiveMessage_returns : receiveMessage.Returns fun r =>
    ∀ error, r = .error error → error.type ≠ .unableToSendMessage := by
  have hshort : ∀ error : Error UnixDomainClientError,
      (.error ⟨.notEnoughBytesReceived, []⟩ : UnixDomainClientResult Bytes) = .error error →
        error.type ≠ .unableToSendMessage := by
    rintro error h
    rw [← Except.error.inj h]
    decide
  rw [receiveMessage]
  refine returns_catchStdException ?_ fun what => ?_
  · refine (Program.returns_true _).bind fun header _ => ?_
    split_ifs
    · exact hshort
    · refine (Program.returns_true _).bind fun reply _ => ?_
      split_ifs
      · exact hshort
      · exact nofun
  · rintro error h
    rw [← Except.error.inj h]
    exact nofun

end SyncUnixDomainClient

/-- **The two versions of `sendAndReceiveMessage` agree**: that of `SyncClient` is that of its
socket code, with the errors renamed. -/
theorem SyncClient.sendAndReceiveMessage_eq (message : Bytes) :
    sendAndReceiveMessage message = do
      let r ← SyncUnixDomainClient.sendAndReceiveMessage message
      return r.mapError fun error => ⟨.ofSocket error.type, error.message⟩ := by
  rw [sendAndReceiveMessage, SyncUnixDomainClient.sendAndReceiveMessage, Program.bind_assoc]
  refine (SyncUnixDomainClient.sendMessage_returns message).bind_congr fun r hsent => ?_
  cases r with
  | error error =>
    have htype := hsent error rfl
    simp [Except.mapError, htype, SyncClientError.ofSocket]
  | ok u =>
    refine SyncUnixDomainClient.receiveMessage_returns.bind_congr fun r hreceived => ?_
    cases r with
    | error error =>
      have htype : SyncClientError.ofSocket error.type = .unableToReceiveMessage := by
        have hne := hreceived error rfl
        cases h : error.type <;> simp_all [SyncClientError.ofSocket]
      simp [Except.mapError, htype]
    | ok response => rfl

end InterProcessCourier
