import InterProcessCourier.ClientWorld
import InterProcessCourier.Dispatch

/-!
# Frames in pieces

Both ends decode the same frames, the server by `boost::asio::read`, which reads on until it has
what it was asked for, and the client by two calls of `read_some`, which may come back with less. So
the server reads a frame however the stream is cut into pieces, and the client only if header and
body come in one piece each.

The two encoders are equal below `2 ^ 32` bytes, and part there: the client's overruns its buffer,
and the server's cuts the length in the header.

## Main results

* `run_exchange` — the server reads whatever frame comes next
* `receiveMessage_iff` — when the client does
* `framesSafely_iff` — when the two encoders are right
-/

namespace InterProcessCourier

open Interaction

variable {σ : Type} {H : RequestHandler σ}

/-! ### The server reads a frame -/

@[simp] theorem World.deliver_deliver (w : World σ) (c : ℕ) (bs bs' rest rest' : Bytes) :
    (w.deliver c bs rest).deliver c bs' rest' = w.deliver c (bs ++ bs') rest' := by
  simp [World.deliver, Own.consume_consume]

theorem World.deliver_nil (w : World σ) (c : ℕ) : w.deliver c [] (w.unread c) = w := by
  simp [World.deliver]

/-- A `read_some` takes a piece of what is there. -/
theorem serverTurn_readSome {w : World σ} {c n k : ℕ} (h : 0 < n → w.unread c ≠ []) :
    ∃ chunk : Chunk n, (serverKernel H).perform (.readSome c n) (.transfer k) w =
      some (.ok chunk, w.deliver c chunk.1 ((w.unread c).drop chunk.1.length)) ∧
      chunk.1 <+: w.unread c :=
  ⟨takeChunk n k (w.unread c) h, dif_pos h, List.take_prefix _ _⟩

/-- **`boost::asio::read` reads what it was asked for**, in whatever pieces it comes. -/
theorem run_read {α : Type} (next : α → Option (ServerCode α)) {c : ℕ} {got rest : Bytes}
    {w : World σ} (hunread : w.unread c = got ++ rest) (k : Bytes → ServerCode α) (sizes : ℕ → ℕ) :
    ∃ i, (serverKernel H).run next
      ⟨Asio.read (fun n => (ServerOp.readSome c n).perform) got.length >>= k, w⟩
      (turns (fun i => .transfer (sizes i)) i) = ⟨k got, w.deliver c got rest⟩ := by
  have hrun : ∃ i, (serverKernel H).run next
      ⟨Asio.read (fun n => (ServerOp.readSome c n).perform) got.length >>= k,
        w.deliver c [] ((got ++ rest).drop ([] : Bytes).length)⟩
      (turns (fun i => .transfer (sizes i)) i) =
        ⟨k got, w.deliver c got ((got ++ rest).drop got.length)⟩ := by
    refine Asio.run_read (fun n => (ServerOp.readSome c n).perform)
      (fun bs => w.deliver c bs ((got ++ rest).drop bs.length)) (fun i bs hbs hlt => ?_) k
    obtain ⟨more, rfl⟩ := hbs
    have hmore : more ≠ [] := by
      rintro rfl
      simp at hlt
    have hthere :
        (w.deliver c bs ((bs ++ more ++ rest).drop bs.length)).unread c = more ++ rest := by
      simp [World.deliver]
    obtain ⟨chunk, hperform, hchunk⟩ := serverTurn_readSome (H := H) (c := c)
      (n := (bs ++ more).length - bs.length) (k := sizes i) (w := w.deliver c bs _) fun _ => by
        rw [hthere]
        exact List.append_ne_nil_of_left_ne_nil hmore rest
    rw [hthere, World.deliver_deliver] at hperform
    rw [hthere] at hchunk
    have hpiece : chunk.1 <+: more := List.prefix_of_prefix_length_le hchunk
      (List.prefix_append more rest) (by simpa using chunk.2.1)
    refine ⟨chunk, (List.prefix_append_right_inj bs).mpr hpiece, fun k => ?_⟩
    refine (Kernel.step_perform hperform).trans ?_
    simp [List.append_assoc]
  simp only [List.drop_left, List.length_nil, List.drop_zero] at hrun
  rwa [← hunread, World.deliver_nil] at hrun

/-- A session asks for a header, for the body that the header announces, and for the handler. -/
theorem SyncUnixDomainSession.exchange_reads (c : ℕ) :
    ∃ k, exchange c =
        Asio.read (fun n => (ServerOp.readSome c n).perform) payloadLengthHeaderSize >>= k ∧
      ∀ header, ∃ k', k header =
        Asio.read (fun n => (ServerOp.readSome c n).perform) (loadLE header).toUInt32.toNat >>= k' ∧
        ∀ message : Bytes, message.length = (loadLE header).toUInt32.toNat →
          ∃ k'', k' message = .call (.handleRequest c message) k'' := by
  refine ⟨_, Program.bind_assoc .., fun header =>
    ⟨_, Program.bind_assoc .., fun message hlength => ?_⟩⟩
  simp only [if_neg (not_not.mpr hlength)]
  exact ⟨_, rfl⟩

/-- The length that a stored header spells. -/
theorem loadLE_storeLE_toUInt32 {n : ℕ} (hn : n < 2 ^ 32) :
    (loadLE (storeLE payloadLengthHeaderSize n)).toUInt32.toNat = n := by
  have hdecode : loadLE (storeLE payloadLengthHeaderSize n) = n := wire.decode_encode n hn
  rw [hdecode, Nat.toUInt32_eq, UInt32.toNat_ofNat']
  exact Nat.mod_eq_of_lt hn

/-- **The server reads whatever frame comes next**, and hands its message to the request handler. -/
theorem run_exchange {c : ℕ} {message rest : Bytes} (hmessage : message.length < 2 ^ 32)
    {w : World σ} (hunread : w.unread c = wire.frame message ++ rest)
    {next : Flow Unit (UnixDomainServerResult Unit) →
      Option (ServerCode (Flow Unit (UnixDomainServerResult Unit)))} (sizes : ℕ → ℕ) :
    ∃ n k, (serverKernel H).run next ⟨SyncUnixDomainSession.exchange c, w⟩
      (turns (fun i => .transfer (sizes i)) n) =
        ⟨.call (.handleRequest c message) k, w.deliver c (wire.frame message) rest⟩ := by
  set header := storeLE payloadLengthHeaderSize message.length with hheader
  have hlength : header.length = payloadLengthHeaderSize := length_storeLE _ _
  have hdecode := loadLE_storeLE_toUInt32 hmessage
  have hframe : wire.frame message = header ++ message := rfl
  obtain ⟨k, hk, hbody⟩ := SyncUnixDomainSession.exchange_reads c
  obtain ⟨k', hk', hhandler⟩ := hbody header
  obtain ⟨k'', hk''⟩ := hhandler message hdecode.symm
  rw [hframe, List.append_assoc] at hunread
  have hunread' : (w.deliver c header (message ++ rest)).unread c = message ++ rest := by
    simp [World.deliver]
  obtain ⟨n, hn⟩ := run_read (H := H) next hunread k sizes
  obtain ⟨n', hn'⟩ := run_read (H := H) next hunread' k' fun i => sizes (n + i)
  refine ⟨n + n', k'', ?_⟩
  rw [turns_add, Kernel.run_append, hk, ← hlength, hn, hk', hdecode, hn', hk'', hframe,
    World.deliver_deliver]

/-! ### The client reads a frame -/

/-- A receiver asks for a header and for the body that the header announces, and takes what one call
delivers for all there is. -/
theorem SyncUnixDomainClient.receiveMessage_reads :
    ∃ k, receiveMessage = .call (.readSome payloadLengthHeaderSize) k ∧
      ∀ header : Chunk payloadLengthHeaderSize,
        (header.1.length ≠ payloadLengthHeaderSize →
          k (.ok header) = .ret (.error ⟨.notEnoughBytesReceived, []⟩)) ∧
        (header.1.length = payloadLengthHeaderSize →
          ∃ k', k (.ok header) = .call (.readSome (loadLE header.1).toUInt32.toNat) k' ∧
            ∀ reply : Chunk (loadLE header.1).toUInt32.toNat, k' (.ok reply) = .ret
              (if reply.1.length = (loadLE header.1).toUInt32.toNat then .ok reply.1
                else .error ⟨.notEnoughBytesReceived, []⟩)) := by
  refine ⟨_, rfl, fun header => ⟨fun hshort => ?_, fun hlength => ?_⟩⟩
  · exact congrArg (fun p => Program.handle p _) (if_pos hshort)
  · refine ⟨_, congrArg (fun p => Program.handle p _) (if_neg (not_not.mpr hlength)),
      fun reply => ?_⟩
    by_cases hreply : reply.1.length = (loadLE header.1).toUInt32.toNat
    · rw [if_pos hreply]
      exact congrArg (fun p => Program.handle p _) (if_neg (not_not.mpr hreply))
    · rw [if_neg hreply]
      exact congrArg (fun p => Program.handle p _) (if_pos hreply)

/-- A `read_some` of the client takes a piece of what is there. -/
theorem linkTurn_readSome_transfer {l : Link σ} {c n : ℕ} (hc : connectionOf l.trace = some c)
    (h : 0 < n → l.untaken c ≠ []) (k : ℕ) :
    ∃ chunk : Chunk n, (linkKernel H).perform (.readSome n) (.transfer k) l =
      some (.ok chunk, l.log (.read n chunk.1)) ∧
      chunk.1 = (l.untaken c).take (min n (max 1 k)) := by
  refine ⟨takeChunk n k (l.untaken c) h, ?_, rfl⟩
  simp only [linkKernel, ClientOp.turn]
  rw [hc]
  exact dif_pos h

theorem Link.untaken_read (l : Link σ) (c n : ℕ) (bs : Bytes) :
    (l.log (.read n bs)).untaken c = (l.untaken c).drop bs.length := by
  simp [untaken, Nat.add_comm]

/-- A run of nothing but the receiver. -/
abbrev receiverNext :
    UnixDomainClientResult Bytes → Option (ClientCode (UnixDomainClientResult Bytes)) :=
  fun _ => none

/-- **What the client makes of a frame that comes in two pieces.** -/
theorem run_receiveMessage {l : Link σ} {c : ℕ} {message rest : Bytes}
    (hmessage : message.length < 2 ^ 32) (hc : connectionOf l.trace = some c)
    (hthere : l.untaken c = wire.frame message ++ rest) (k₁ k₂ : ℕ) :
    ∃ l', (linkKernel H).run receiverNext ⟨SyncUnixDomainClient.receiveMessage, l⟩
        [.turn (.transfer k₁), .turn (.transfer k₂)] =
      ⟨.ret (if payloadLengthHeaderSize ≤ k₁ ∧ message.length ≤ max 1 k₂ then .ok message
        else .error ⟨.notEnoughBytesReceived, []⟩), l'⟩ ∧
      (payloadLengthHeaderSize ≤ k₁ ∧ message.length ≤ max 1 k₂ → l'.untaken c = rest) := by
  have hfour : payloadLengthHeaderSize = 4 := rfl
  obtain ⟨k, hk, hheader⟩ := SyncUnixDomainClient.receiveMessage_reads
  obtain ⟨header, hperform, hpiece⟩ := linkTurn_readSome_transfer (H := H) hc
    (n := payloadLengthHeaderSize) (fun _ => by
      rw [hthere]
      exact List.append_ne_nil_of_left_ne_nil (wire_frame_ne_nil message) rest) k₁
  obtain ⟨hshort, hwhole⟩ := hheader header
  rw [hk, Kernel.run_cons, Kernel.step_call hperform]
  by_cases hk₁ : payloadLengthHeaderSize ≤ k₁
  · have htake : (wire.frame message ++ rest).take payloadLengthHeaderSize =
        storeLE payloadLengthHeaderSize message.length := wire.take_frame_append message rest
    rw [hthere, show min payloadLengthHeaderSize (max 1 k₁) = payloadLengthHeaderSize by omega,
      htake] at hpiece
    have hlength : header.1.length = payloadLengthHeaderSize := by rw [hpiece, length_storeLE]
    obtain ⟨k', hk', hbody⟩ := hwhole hlength
    have hn : (loadLE header.1).toUInt32.toNat = message.length := by
      rw [hpiece, loadLE_storeLE_toUInt32 hmessage]
    generalize (loadLE header.1).toUInt32.toNat = n at k' hk' hbody hn
    subst hn
    have hrest : (l.log (.read payloadLengthHeaderSize header.1)).untaken c = message ++ rest := by
      rw [Link.untaken_read, hthere, hlength]
      exact wire.drop_frame_append message rest
    obtain ⟨reply, hperform', hpiece'⟩ := linkTurn_readSome_transfer (H := H)
      (l := l.log (.read payloadLengthHeaderSize header.1)) (c := c)
      (n := message.length) (by simpa using hc) (fun hpos => by
        rw [hrest]
        exact List.append_ne_nil_of_left_ne_nil (List.length_pos_iff.mp hpos) rest) k₂
    rw [hrest] at hpiece'
    have hreply : reply.1.length = min message.length (max 1 k₂) := by
      rw [hpiece', List.length_take, List.length_append]
      omega
    rw [hk', Kernel.run_cons, Kernel.step_call hperform', hbody reply, hreply]
    refine ⟨(l.log (.read payloadLengthHeaderSize header.1)).log (.read message.length reply.1), ?_,
      fun h => ?_⟩
    · by_cases hk₂ : message.length ≤ max 1 k₂
      · rw [if_pos (by omega), if_pos ⟨hk₁, hk₂⟩, hpiece', min_eq_left hk₂, List.take_left]
        rfl
      · rw [if_neg (by omega), if_neg fun h => hk₂ h.2]
        rfl
    · rw [Link.untaken_read, hrest, hreply, min_eq_left h.2, List.drop_left]
  · rw [hshort (by rw [hpiece, List.length_take]; omega), if_neg fun h => hk₁ h.1]
    exact ⟨_, rfl, fun h => absurd h.1 hk₁⟩

/-- A receiver that has returned stays as it is. -/
theorem run_receiver_ret (r : UnixDomainClientResult Bytes) (l : Link σ) (sizes : ℕ → ℕ) (n : ℕ) :
    (linkKernel H).run receiverNext ⟨.ret r, l⟩ (turns (fun i => .transfer (sizes i)) n) =
      ⟨.ret r, l⟩ := by
  induction n generalizing sizes with
  | zero => rfl
  | succ n ih =>
    rw [turns_succ, Kernel.run_cons]
    exact ih fun i => sizes (i + 1)

/-- **When the client receives a response.** Of a response that the server has framed and written,
the server's own reading gets the message and takes its frame, however the stream is cut; the client
gets it exactly if the first read delivers the whole header and the second the whole body. -/
theorem receiveMessage_iff (H : RequestHandler σ) {message frame : Bytes}
    (hmessage : message.length < 2 ^ 32) (hframe : frameResponse message = .ok frame)
    (rest : Bytes) (sizes : ℕ → ℕ) :
    (∀ (w : World σ) (c : ℕ), w.unread c = frame ++ rest →
      ∃ n k w', (serverKernel H).run (Flow.next fun _ => SyncUnixDomainSession.exchange c)
        ⟨SyncUnixDomainSession.exchange c, w⟩ (turns (fun i => .transfer (sizes i)) n) =
          ⟨.call (.handleRequest c message) k, w'⟩ ∧ w'.unread c = rest) ∧
    ∀ (l : Link σ) (c : ℕ), connectionOf l.trace = some c → l.untaken c = frame ++ rest →
      ((∃ n l', (linkKernel H).run receiverNext ⟨SyncUnixDomainClient.receiveMessage, l⟩
          (turns (fun i => .transfer (sizes i)) n) = ⟨.ret (.ok message), l'⟩ ∧
          l'.untaken c = rest) ↔
        payloadLengthHeaderSize ≤ sizes 0 ∧ message.length ≤ max 1 (sizes 1)) := by
  obtain rfl : wire.frame message = frame :=
    Except.ok.inj ((frameResponse_eq message).symm.trans hframe)
  refine ⟨fun w c hunread => ?_, fun l c hc hthere => ⟨?_, fun hsizes => ?_⟩⟩
  · obtain ⟨n, k, hrun⟩ := run_exchange (H := H) hmessage hunread sizes
    exact ⟨n, k, _, hrun, by simp [World.deliver]⟩
  · rintro ⟨n, l', hrun, -⟩
    -- two turns more change nothing, and the first two decide
    have hmore := congrArg (fun cfg => (linkKernel H).run receiverNext cfg
      (turns (fun i => .transfer (sizes (n + i))) 2)) hrun
    simp only [← Kernel.run_append, ← turns_add] at hmore
    rw [run_receiver_ret, Nat.add_comm, turns_add, Kernel.run_append] at hmore
    obtain ⟨l₂, htwo, -⟩ := run_receiveMessage (H := H) hmessage hc hthere (sizes 0) (sizes 1)
    rw [show turns (fun i => Choice.transfer (sizes i)) 2 =
      ([.turn (.transfer (sizes 0)), .turn (.transfer (sizes 1))] : List (Event Choice LinkAct))
      from rfl, htwo, run_receiver_ret] at hmore
    by_contra hno
    rw [if_neg hno] at hmore
    cases hmore
  · obtain ⟨l', hrun, hrest⟩ := run_receiveMessage (H := H) hmessage hc hthere (sizes 0) (sizes 1)
    rw [if_pos hsizes] at hrun
    exact ⟨2, l', hrun, hrest hsizes⟩

namespace TestProto

/-- A connected client, with the response `hi` and the beginning of another before it. -/
def responded : Link Unit where
  trace := [.connected 0]
  server := ⟨.ret (.goto .accept),
    { own := { state := (), accepted := [0], written := fun _ => wire.frame (str "hi") ++ [7] } }⟩

/-- The client, after two reads of at most so many bytes. -/
abbrev receiverRun (size : ℕ) :
    Config clientSignature Exception (UnixDomainClientResult Bytes) (Link Unit) :=
  (linkKernel (SyncServer.registered .silentIgnore [echo]).requestHandler).run receiverNext
    ⟨SyncUnixDomainClient.receiveMessage, responded⟩
    [.turn (.transfer 4), .turn (.transfer size)]

/-- The body comes in two pieces: the client reports an error, and the rest of the response is left
in front of the next. -/
theorem not_received_in_pieces :
    (receiverRun 1).rest.result? = some (.ok (.error ⟨.notEnoughBytesReceived, []⟩)) ∧
    (receiverRun 1).world.untaken 0 = str "i" ++ [7] := by
  decide +kernel

/-- The body comes in one piece. -/
theorem receiveMessage_iff_whole : ∃ n l',
    (linkKernel (SyncServer.registered .silentIgnore [echo]).requestHandler).run receiverNext
      ⟨SyncUnixDomainClient.receiveMessage, responded⟩ (turns (fun _ => .transfer 4) n) =
        ⟨.ret (.ok (str "hi")), l'⟩ ∧ l'.untaken 0 = [7] :=
  ((receiveMessage_iff (SyncServer.registered .silentIgnore [echo]).requestHandler
    (show (str "hi").length < 2 ^ 32 by decide) (frameResponse_eq _) [7] fun _ => 4).2
      responded 0 rfl rfl).mpr (by decide)

end TestProto

/-! ### The two encoders -/

/-- The encoders make one frame of a message, without leaving their buffers; its header is the
number of bytes behind it; and either end gets the message back, and takes its frame. -/
structure FramesWhole (message frame : Bytes) : Prop where
  request : frameRequest message = .ok frame
  response : frameResponse message = .ok frame
  header : loadLE (frame.take payloadLengthHeaderSize) = (frame.drop payloadLengthHeaderSize).length
  server : ∀ {σ : Type} (H : RequestHandler σ) (w : World σ) (c : ℕ) (rest : Bytes),
    w.unread c = frame ++ rest → ∀ sizes : ℕ → ℕ,
      ∃ n k w', (serverKernel H).run (Flow.next fun _ => SyncUnixDomainSession.exchange c)
        ⟨SyncUnixDomainSession.exchange c, w⟩ (turns (fun i => .transfer (sizes i)) n) =
          ⟨.call (.handleRequest c message) k, w'⟩ ∧ w'.unread c = rest
  client : ∀ {σ : Type} (H : RequestHandler σ) (l : Link σ) (c : ℕ) (rest : Bytes),
    connectionOf l.trace = some c → l.untaken c = frame ++ rest → ∀ size ≥ frame.length,
      ∃ l', (linkKernel H).run receiverNext ⟨SyncUnixDomainClient.receiveMessage, l⟩
        (turns (fun _ => .transfer size) 2) = ⟨.ret (.ok message), l'⟩ ∧ l'.untaken c = rest

/-- Neither encoder gets as far as a frame: the request ends in an error before anything is written,
and the response has no frame. -/
structure Rejects (message : Bytes) : Prop where
  request : ∃ error, SyncUnixDomainClient.sendMessage message = .ret (.error error)
  response : ∀ frame, frameResponse message ≠ .ok frame

/-- **When framing is safe.** A message is framed alike by both encoders, and decoded by both ends,
or rejected when it is too long for its header, exactly if it is not too long. -/
theorem framesSafely_iff (message : Bytes) :
    ((∃ frame, FramesWhole message frame) ∨ 2 ^ 32 ≤ message.length ∧ Rejects message) ↔
      message.length < 2 ^ 32 := by
  constructor
  · rintro (⟨frame, hwhole⟩ | ⟨hlong, hrejects⟩)
    · by_contra hlong
      have hoverrun := frameRequest_overrun (Nat.not_lt.mp hlong)
      rw [hwhole.request] at hoverrun
      cases hoverrun
    · exact absurd (frameResponse_eq message) (hrejects.response _)
  · intro hmessage
    refine .inl ⟨wire.frame message, frameRequest_eq hmessage, frameResponse_eq message, ?_, ?_, ?_⟩
    · have hheader := wire.take_frame_append message []
      have hbody := wire.drop_frame_append message []
      rw [List.append_nil, wire_headerSize] at hheader hbody
      rw [hheader, hbody, List.append_nil]
      exact wire.decode_encode _ hmessage
    · intro σ H w c rest hunread sizes
      obtain ⟨n, k, hrun⟩ := run_exchange (H := H) hmessage hunread sizes
      exact ⟨n, k, _, hrun, by simp [World.deliver]⟩
    · intro σ H l c rest hc hthere size hsize
      rw [ge_iff_le, Framing.Format.length_frame, wire_headerSize] at hsize
      obtain ⟨l', hrun, hrest⟩ := run_receiveMessage (H := H) hmessage hc hthere size size
      have hsizes : payloadLengthHeaderSize ≤ size ∧ message.length ≤ max 1 size := by omega
      rw [if_pos hsizes] at hrun
      exact ⟨l', hrun, hrest hsizes⟩

/-- A message of `2 ^ 32` bytes: the request overruns its buffer, and the header of the response
spells zero. -/
theorem not_framesSafely_long :
    frameRequest (List.replicate (2 ^ 32) 0) = .error .undefinedBehaviour ∧
    ∃ frame, frameResponse (List.replicate (2 ^ 32) 0) = .ok frame ∧
      loadLE (frame.take payloadLengthHeaderSize) = 0 ∧
      (frame.drop payloadLengthHeaderSize).length = 2 ^ 32 := by
  have hlength : (List.replicate (2 ^ 32) (0 : UInt8)).length = 2 ^ 32 := List.length_replicate
  generalize List.replicate (2 ^ 32) (0 : UInt8) = message at hlength
  have hheader := wire.take_frame_append message []
  have hbody := wire.drop_frame_append message []
  rw [List.append_nil, wire_headerSize] at hheader hbody
  refine ⟨frameRequest_overrun hlength.ge, _, frameResponse_eq message, ?_, ?_⟩
  · rw [hheader, hlength]
    decide
  · rw [hbody, List.append_nil, hlength]

end InterProcessCourier
