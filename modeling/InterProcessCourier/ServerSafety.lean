import InterProcessCourier.ServerInvariant

/-!
# Every run of the server

One triple for each operation and each function of the server, from `read_some` up to
`SyncServer::start`, and from them what holds after any list of events.

The triples say exactly what a function leaves behind. When it returns, the server's share is the
share it started from with the bytes it moved and the call it made. When it fails, there is one
failure `f` more than before, `Failed f`, and what becomes of it is decided by where it happened
and by its exception: `Fault.harmless` failures return control to the accept loop, and the others
end the server, `Doomed f`.

## Main results

* `triple_session` — one pass through the loop of a session
* `triple_startFrom` — one pass through the loops of the server
* `serverRun_safe` — every run is safe, from which the results about runs are read off
-/

namespace InterProcessCourier

open Interaction

namespace Own

variable {σ : Type}

/-- The session in progress has just failed by `f`. -/
def Failed (f : Fault) (o : Own σ) : Prop :=
  ∃ (c : ℕ) (o' : Own σ), f.origin.client? = some c ∧ Serving c o' ∧ o = o'.fault f

/-- A failure has happened that ends the server, and it is the only one. -/
def Doomed (f : Fault) (o : Own σ) : Prop :=
  ∃ fs, o.faults = fs ++ [f] ∧ (∀ g ∈ fs, g.harmless = true) ∧ f.harmless = false

theorem Failed.healthy {f : Fault} {o : Own σ} (h : Failed f o) (hf : f.harmless = true) :
    o.Healthy := by
  obtain ⟨c, o', -, ho', rfl⟩ := h
  intro g hg
  rcases List.mem_append.mp hg with hg | hg
  · exact ho'.healthy g hg
  · exact List.mem_singleton.mp hg ▸ hf

theorem Failed.idle {f : Fault} {o : Own σ} (h : Failed f o) : o.Idle := by
  obtain ⟨c, o', hc, ho', rfl⟩ := h
  intro d hd
  rcases eq_or_ne d c with rfl | hne
  · exact ⟨f, by simp, hc⟩
  · obtain ⟨g, hg, hgd⟩ := ho'.others d hd hne
    exact ⟨g, by simp [hg], hgd⟩

theorem Failed.doomed {f : Fault} {o : Own σ} (h : Failed f o) (hf : f.harmless = false) :
    Doomed f o := by
  obtain ⟨c, o', -, ho', rfl⟩ := h
  exact ⟨o'.faults, rfl, ho'.healthy, hf⟩

theorem Healthy.doomed_fault {f : Fault} {o : Own σ} (h : o.Healthy) (hf : f.harmless = false) :
    Doomed f (o.fault f) :=
  ⟨o.faults, rfl, h, hf⟩

theorem Doomed.mem {f : Fault} {o : Own σ} (h : Doomed f o) : f ∈ o.faults := by
  obtain ⟨fs, hfs, -, -⟩ := h
  simp [hfs]

/-- A doomed server has met no other failure that ends it. -/
theorem Doomed.eq {f g : Fault} {o : Own σ} (h : Doomed f o) (hg : g ∈ o.faults)
    (hh : g.harmless = false) : g = f := by
  obtain ⟨fs, hfs, hok, -⟩ := h
  rw [hfs] at hg
  rcases List.mem_append.mp hg with hg | hg
  · rw [hok g hg] at hh
    exact absurd hh (by simp)
  · exact List.mem_singleton.mp hg

theorem AtFrame.of_accept {o : Own σ} {c : ℕ} {H : RequestHandler σ} {s₀ : σ} (hinv : o.Inv H s₀)
    (hhealthy : o.Healthy) (hidle : o.Idle) (hc : c ∉ o.accepted) : AtFrame c (o.accept c) where
  healthy := hhealthy
  current := ⟨o.accepted, rfl⟩
  others d hd hne := by
    rcases List.mem_append.mp hd with hd | hd
    · exact hidle d hd
    · exact absurd (List.mem_singleton.mp hd) hne
  clean := hinv.faultless c hc
  returned := by simp [callsOf_of_notMem hinv hc]
  written := by simp [(hinv.untouched c hc).2, responses, callsOf_of_notMem hinv hc]
  consumed := by simp [(hinv.untouched c hc).1, requests, callsOf_of_notMem hinv hc]

end Own

open Own

/-- What holds whenever the server asks for an operation. -/
def ServerOp.pre {σ : Type} : ServerOp → Own σ → Prop
  | .listen, o => o.Healthy
  | .accept, o => o.Healthy ∧ o.Idle
  | .readSome c n, o => 0 < n ∧ Serving c o ∧ Reading c o
  | .writeSome c bs, o => Serving c o ∧ o.written c ++ bs = wire.frames (o.responses c)
  | .handleRequest c p, o => Serving c o ∧ Answered c o ∧ p.length < 2 ^ 32 ∧
    o.consumed c = wire.frames (o.requests c) ++ wire.frame p
  | .unlink, o => ∃ f, Doomed f o ∧ f.exception.systemError?.isSome

section

variable {σ : Type} (H : RequestHandler σ) (s₀ : σ)

/-- The server's share is its own, and the clients keep what is shared with them. -/
def serverRely : Rely serverSignature (World σ) where
  env w w' := w'.own = w.own ∧ (w.Shared → w'.Shared)
  inv w := w.own.Inv H s₀ ∧ w.Shared
  pre op w := op.pre w.own

theorem serverRely_owns : (serverRely H s₀).Owns (serverKernel H) World.own where
  refl _ := ⟨rfl, id⟩
  trans h h' := ⟨h'.1.trans h.1, h'.2 ∘ h.2⟩
  act a w _ := ⟨a.apply_own w, fun h' => h'.act a⟩
  view_eq h := h.1
  valid h hinv := ⟨h.1 ▸ hinv.1, h.2 hinv.2⟩

/-- A triple about the server's code. -/
abbrev ServerTriple {α : Type} (P : Own σ → Prop) (p : ServerCode α) (ok : α → Own σ → Prop)
    (err : Exception → Own σ → Prop) : Prop :=
  Triple (serverKernel H) (serverRely H s₀) World.own P p ok err

end

variable {σ : Type} {H : RequestHandler σ} {s₀ : σ} {c : ℕ}

/-! ### The operations -/

/-- The session in progress has failed at one of these places. Only a request handler raises what
is not a `system_error`. -/
def SessionError (origins : List Origin) (e : Exception) (o : Own σ) : Prop :=
  ∃ f : Fault, f.origin ∈ origins ∧ f.exception = e ∧ Failed f o ∧
    (e.systemError? = none → ∃ c, f.origin = .handler c)

theorem SessionError.mono {origins origins' : List Origin} (h : origins ⊆ origins') {e : Exception}
    {o : Own σ} (he : SessionError origins e o) : SessionError origins' e o := by
  obtain ⟨f, hf, hrest⟩ := he
  exact ⟨f, h hf, hrest⟩

/-- A system call of the session in progress fails. -/
theorem Own.Serving.error_of_system {o : Own σ} (h : Serving c o) (f : Fault)
    (hf : f.origin.client? = some c) (hsystem : f.exception.systemError?.isSome) :
    SessionError [f.origin] f.exception (o.fault f) :=
  ⟨f, by simp, rfl, ⟨c, o, hf, h, rfl⟩, fun hnone => by simp [hnone] at hsystem⟩

theorem triple_readSome {o : Own σ} {n : ℕ} (hn : 0 < n) (hserving : Serving c o)
    (hreading : Reading c o) :
    ServerTriple H s₀ (· = o) (ServerOp.readSome c n).perform
      (fun chunk o' => o' = o.consume c chunk.1) (SessionError [.read c]) := by
  refine Triple.perform (serverRely_owns H s₀) fun w hinv hw => ?_
  subst hw
  refine ⟨⟨hn, hserving, hreading⟩, fun ch r w' hr => ?_⟩
  have hopen : Fault.endOfStream c ∉ w.own.faults := fun hm => hserving.clean _ hm rfl
  rcases turn_readSome hr with ⟨chunk, rest, rfl, -, rfl⟩ | ⟨rfl, hunread, hclosed, rfl⟩ |
    ⟨errno, what, rfl, rfl⟩
  · exact ⟨⟨hinv.1.consume hserving.mem_accepted chunk.1,
      hinv.2.concerns (.deliver w c chunk.1 rest) hserving.mem_accepted hopen⟩, rfl⟩
  · refine ⟨⟨hinv.1.fault ?_ rfl, hinv.2.fault ?_⟩,
      hserving.error_of_system (.endOfStream c) rfl rfl⟩
    · rintro d ⟨⟩
      exact hserving.mem_accepted
    · rintro d ⟨⟩
      exact ⟨hreading, hclosed, hunread⟩
  · refine ⟨⟨hinv.1.fault ?_ rfl, hinv.2.fault ?_⟩, hserving.error_of_system
      ⟨.read c, systemFailure errno what⟩ rfl rfl⟩
    · rintro d ⟨⟩
      exact hserving.mem_accepted
    · intro d hd
      simp [Fault.endOfStream, endOfFile, systemFailure] at hd

theorem triple_writeSome {o : Own σ} {bs : Bytes} (hserving : Serving c o)
    (hbs : o.written c ++ bs = wire.frames (o.responses c)) :
    ServerTriple H s₀ (· = o) (ServerOp.writeSome c bs).perform
      (fun k o' => o' = o.emit c (bs.take k.1)) (SessionError [.write c]) := by
  refine Triple.perform (serverRely_owns H s₀) fun w hinv hw => ?_
  subst hw
  refine ⟨⟨hserving, hbs⟩, fun ch r w' hr => ?_⟩
  have hopen : Fault.endOfStream c ∉ w.own.faults := fun hm => hserving.clean _ hm rfl
  rcases turn_writeSome hr with ⟨k, rfl, rfl⟩ | ⟨errno, what, rfl, rfl⟩
  · refine ⟨⟨hinv.1.emit hserving.mem_accepted ?_, hinv.2.concerns (.emit w c _)
      hserving.mem_accepted hopen⟩, rfl⟩
    rw [← hbs]
    exact ⟨bs.drop k.1, by rw [List.append_assoc, List.take_append_drop]⟩
  · refine ⟨⟨hinv.1.fault ?_ rfl, hinv.2.fault ?_⟩, hserving.error_of_system
      ⟨.write c, systemFailure errno what⟩ rfl rfl⟩
    · rintro d ⟨⟩
      exact hserving.mem_accepted
    · intro d hd
      simp [Fault.endOfStream] at hd

theorem triple_handleRequest {o : Own σ} {p : Bytes} (hp : p.length < 2 ^ 32)
    (hserving : Serving c o) (hanswered : Answered c o)
    (hconsumed : o.consumed c = wire.frames (o.requests c) ++ wire.frame p) :
    ServerTriple H s₀ (· = o) (ServerOp.handleRequest c p).perform
      (fun r o' => ∃ s, o' = o.call c p (.ok r) s) (SessionError [.handler c]) := by
  refine Triple.perform (serverRely_owns H s₀) fun w hinv hw => ?_
  subst hw
  refine ⟨⟨hserving, hanswered, hp, hconsumed⟩, fun ch r w' hr => ?_⟩
  have hopen : Fault.endOfStream c ∉ w.own.faults := fun hm => hserving.clean _ hm rfl
  obtain ⟨cs, hcs⟩ := hserving.current
  obtain ⟨rfl, rfl⟩ := turn_handleRequest hr
  refine ⟨⟨hinv.1.call hcs hinv.2.nodup_accepted hanswered.returned hp (by rw [hconsumed]),
    hinv.2.call hserving.mem_accepted hopen p _ _⟩, ?_⟩
  cases (H p w.own.state).1 with
  | ok response => exact ⟨_, rfl⟩
  | error e =>
    exact ⟨⟨.handler c, e⟩, by simp, rfl, ⟨c, w.own.log c p (.error e) (H p w.own.state).2, rfl,
      hserving.of_eq rfl rfl, rfl⟩, fun _ => ⟨c, rfl⟩⟩

/-! ### The session -/

/-- Reading `n` bytes on behind `head`, none of which completes a frame. -/
theorem triple_read {o : Own σ} (ho : AtFrame c o) {head : Bytes} {n : ℕ}
    (hcut : ∀ got : Bytes, got.length < n → wire.Incomplete (head ++ got)) :
    ServerTriple H s₀ (· = o.consume c head)
      (Asio.read (fun n => (ServerOp.readSome c n).perform) n)
      (fun bs o' => bs.length = n ∧ o' = o.consume c (head ++ bs)) (SessionError [.read c]) := by
  refine (Asio.triple_read (J := fun got o' => o' = o.consume c (head ++ got))
    (serverRely_owns H s₀) fun got hgot => ?_).pre fun o' ho' => by rw [List.append_nil, ho']
  refine (triple_readSome (o := o.consume c (head ++ got)) (by omega)
    (ho.toServing.of_eq rfl rfl) (ho.reading (hcut got hgot))).mono (fun _ => id)
    (fun chunk o' ho' => ?_) fun _ _ => id
  rw [ho', consume_consume, List.append_assoc]

theorem triple_readHeader {o : Own σ} (ho : AtFrame c o) :
    ServerTriple H s₀ (· = o) (SyncUnixDomainSession.readHeader c)
      (fun r o' => ∃ header, header.length = payloadLengthHeaderSize ∧
        r = .ok (loadLE header).toUInt32 ∧ o' = o.consume c header)
      (SessionError [.read c]) := by
  have hV := serverRely_owns H s₀
  have hread : ServerTriple H s₀ (· = o.consume c []) _
      (fun bs o' => bs.length = payloadLengthHeaderSize ∧ o' = o.consume c ([] ++ bs)) _ :=
    triple_read ho fun got hgot => Or.inr hgot
  rw [consume_nil] at hread
  exact hread.bind hV fun header => Triple.ret hV fun o' ⟨hlen, ho'⟩ => ⟨header, hlen, rfl, ho'⟩

/-- What the body of a frame leads to: one call of the request handler, and the framed response. -/
theorem triple_readBody {o : Own σ} (ho : AtFrame c o) {header : Bytes}
    (hheader : header.length = payloadLengthHeaderSize) :
    ServerTriple H s₀ (· = o.consume c header)
      (SyncUnixDomainSession.readBody c (loadLE header).toUInt32)
      (fun r o' => ∃ p response s, p.length < 2 ^ 32 ∧ r = .ok (wire.frame response) ∧
        o' = (o.consume c (wire.frame p)).call c p (.ok response) s)
      (SessionError [.read c, .handler c]) := by
  have hV := serverRely_owns H s₀
  have hlt : loadLE header < 2 ^ 32 := wire.decode_lt header hheader
  have hnat : (loadLE header).toUInt32.toNat = loadLE header := by
    rw [Nat.toUInt32_eq, UInt32.toNat_ofNat']
    exact Nat.mod_eq_of_lt hlt
  have hread : ServerTriple H s₀ (· = o.consume c header)
      (Asio.read (fun n => (ServerOp.readSome c n).perform) (loadLE header).toUInt32.toNat)
      (fun bs o' => bs.length = (loadLE header).toUInt32.toNat ∧ o' = o.consume c (header ++ bs))
      (SessionError [.read c]) := by
    refine triple_read ho fun got hgot => Or.inl ?_
    rw [hnat] at hgot
    rw [wire_headerSize, List.take_append_of_le_length hheader.ge,
      List.take_of_length_le hheader.le, List.length_append, hheader]
    exact Nat.add_lt_add_left hgot _
  refine (hread.mono (fun _ => id) (fun _ _ => id) fun e v => .mono (by simp)).bind hV fun p => ?_
  refine Triple.of_eq fun o' ⟨hlen, ho'⟩ => ?_
  rw [if_neg (not_not.mpr hlen)]
  rw [hnat] at hlen
  rw [← wire.frame_of_header hheader hlen] at ho'
  suffices hcall : ServerTriple H s₀ (· = o.consume c (wire.frame p)) _ _ _ from
    hcall.pre fun v hv => hv.trans ho'
  have hhandle : ServerTriple H s₀ (· = o.consume c (wire.frame p))
      (ServerOp.handleRequest c p).perform _ _ :=
    triple_handleRequest (by omega) (ho.toServing.of_eq rfl rfl) ⟨ho.returned, ho.written⟩
      (by rw [consume_consumed_self, ho.consumed, consume_requests])
  refine (hhandle.mono (fun _ => id) (fun _ _ => id) fun e v => .mono (by simp)).bind hV
    fun (response : Bytes) => ?_
  rw [frameResponse_eq]
  exact Triple.ret hV fun v ⟨s, hv⟩ => ⟨p, response, s, by omega, rfl, hv⟩

/-- A response is written whole, or the session fails. -/
theorem triple_writeResponse {o : Own σ} {bs : Bytes} (ho : Serving c o)
    (hbs : o.written c ++ bs = wire.frames (o.responses c)) :
    ServerTriple H s₀ (· = o) (SyncUnixDomainSession.writeResponse c bs)
      (fun r o' => match r with
        | .ok () => o' = o.emit c bs
        | .error error => ∃ e, e.what? = some error.message ∧ SessionError [.write c] e o')
      (fun _ _ => False) := by
  have hV := serverRely_owns H s₀
  have hwrite : ServerTriple H s₀ (· = o)
      (Asio.write (fun bs => (ServerOp.writeSome c bs).perform) bs)
      (fun _ o' => o' = o.emit c bs) (SessionError [.write c]) := by
    refine (Asio.triple_write (J := fun out o' => o' = o.emit c out) hV
      fun out bs' _ htotal => ?_).pre fun o' ho' => by rw [ho', emit_nil]
    refine (triple_writeSome (o := o.emit c out) (ho.of_eq rfl rfl) ?_).mono (fun _ => id)
      (fun k o' ho' => ?_) fun _ _ => id
    · rw [emit_written_self, List.append_assoc, htotal, hbs, emit_responses]
    · rw [ho', emit_emit]
  refine triple_catchStdException hV (hwrite.bind hV fun _ => Triple.ret hV fun _ => id)
    (fun e what hwhat => Triple.ret hV fun o' he => ⟨e, hwhat, he⟩) fun e hnone o' he => ?_
  obtain ⟨f, hf, rfl, -, hhandler⟩ := he
  -- what is not a `std::exception` comes from a handler, and no handler runs here
  obtain ⟨d, hd⟩ := hhandler (by cases hx : f.exception <;> simp_all [Exception.what?,
    Exception.systemError?])
  simp [List.mem_singleton.mp hf] at hd

/-- The server was ended by a failure, and this is its text. -/
def Own.Reported (message : Bytes) (o : Own σ) : Prop :=
  ∃ f code, Doomed f o ∧ f.exception = .systemError code message

/-- The server was ended by an exception that no catch clause matches. -/
def Own.Escaped (e : Exception) (o : Own σ) : Prop :=
  ∃ f, Doomed f o ∧ f.exception = e ∧ e.systemError? = none

theorem harmless_of_mem {f : Fault} (hf : f.origin ∈ [Origin.read c, .handler c]) :
    f.harmless = f.exception.disconnects := by
  simp only [List.mem_cons, List.not_mem_nil, or_false] at hf
  rcases hf with hf | hf <;> simp [Fault.harmless, hf]

/-- What the `try` block of a session leaves behind. -/
def exchangePost (c : ℕ) : Flow Unit (UnixDomainServerResult Unit) → Own σ → Prop
  | .goto (), o => AtFrame c o
  | .done (.ok ()), _ => False
  | .done (.error error), o => ∃ e, e.what? = some error.message ∧ SessionError [.write c] e o

/-- A request is answered, or the response cannot be sent. -/
theorem triple_exchange {o : Own σ} (ho : AtFrame c o) :
    ServerTriple H s₀ (· = o) (SyncUnixDomainSession.exchange c) (exchangePost c)
      (SessionError [.read c, .handler c]) := by
  have hV := serverRely_owns H s₀
  refine ((triple_readHeader ho).mono (fun _ => id) (fun _ _ => id)
    fun e v => .mono (by simp)).bind hV fun r => Triple.of_eq ?_
  rintro v ⟨header, hheader, rfl, rfl⟩
  refine (triple_readBody ho hheader).bind hV fun r => Triple.of_eq ?_
  rintro v ⟨p, response, s, hp, rfl, rfl⟩
  set o₁ := (o.consume c (wire.frame p)).call c p (.ok response) s with ho₁
  have hserving : Serving c o₁ := ho.toServing.of_eq rfl rfl
  have hwritten : o₁.written c ++ wire.frame response = wire.frames (o₁.responses c) := by
    simp [ho₁, ho.written, Except.toOption]
  refine ((triple_writeResponse hserving hwritten).mono (fun _ => id) (fun _ _ => id)
    fun _ _ => False.elim).bind hV fun r => ?_
  cases r with
  | error error => exact Triple.ret hV fun v hv => hv
  | ok u =>
    refine Triple.ret hV fun v hv => ?_
    subst hv
    refine { toServing := hserving.of_eq rfl rfl, returned := ?_, written := ?_, consumed := ?_ }
    · intro k hk
      rw [emit_callsOf, ho₁, call_callsOf_self, List.mem_append, List.mem_singleton] at hk
      rcases hk with hk | rfl
      · exact ho.returned k hk
      · exact ⟨response, rfl⟩
    · rw [emit_written_self, hwritten, emit_responses]
    · rw [emit_consumed, emit_requests, ho₁, call_consumed, call_requests_self,
        consume_consumed_self, ho.consumed, consume_requests, wire.frames_concat]

/-- One pass through the loop of a session. -/
theorem triple_session {o : Own σ} (ho : AtFrame c o) :
    ServerTriple H s₀ (· = o) (SyncUnixDomainSession.start c)
      (fun r o' => match r with
        | .goto () => AtFrame c o'
        | .done (.ok ()) => o'.Healthy ∧ o'.Idle
        | .done (.error error) => o'.Reported error.message)
      (fun e o' => o'.Escaped e) := by
  have hV := serverRely_owns H s₀
  refine triple_catchSystemError hV ((triple_exchange ho).mono (fun _ => id) (fun r v hr => ?_)
    fun _ _ => id) (fun code what => ?_) fun e hnone v he => ?_
  · match r with
    | .goto () => exact hr
    | .done (.ok ()) => exact hr.elim
    | .done (.error error) =>
      obtain ⟨e, hwhat, f, hf, rfl, hfailed, hhandler⟩ := hr
      have hwrite := List.mem_singleton.mp hf
      cases hx : f.exception with
      | systemError code what =>
        rw [hx] at hwhat
        exact ⟨f, code, hfailed.doomed (by simp [Fault.harmless, hwrite]),
          by rw [hx, Option.some.inj hwhat]⟩
      | _ =>
        obtain ⟨d, hd⟩ := hhandler (by rw [hx]; rfl)
        rw [hwrite] at hd
        cases hd
  · split_ifs with hcode
    · refine Triple.ret hV fun v ⟨f, hf, hfe, hfailed, _⟩ => ⟨hfailed.healthy ?_, hfailed.idle⟩
      rw [harmless_of_mem hf, hfe]
      simpa [Exception.disconnects] using hcode
    · refine Triple.ret hV fun v ⟨f, hf, hfe, hfailed, _⟩ => ⟨f, code, hfailed.doomed ?_, hfe⟩
      rw [harmless_of_mem hf, hfe]
      simpa [Exception.disconnects] using hcode
  · obtain ⟨f, hf, rfl, hfailed, -⟩ := he
    refine ⟨f, hfailed.doomed ?_, rfl, hnone⟩
    rw [harmless_of_mem hf]
    cases hx : f.exception with
    | systemError code what => simp [hx, Exception.systemError?] at hnone
    | _ => rfl

/-! ### The server's loops -/

/-- What holds at the head of each loop. -/
def RunLabel.inv : RunLabel → Own σ → Prop
  | .accept, o => o.Healthy ∧ o.Idle
  | .session c, o => AtFrame c o

theorem triple_listen : ServerTriple H s₀ (fun o => o.Healthy ∧ o.Idle) ServerOp.listen.perform
    (fun _ o => o.Healthy ∧ o.Idle)
    (fun e o => ∃ f, Doomed f o ∧ f.exception = e ∧ e.systemError?.isSome) := by
  refine Triple.perform (serverRely_owns H s₀) fun w hinv hw => ⟨hw.1, fun ch r w' hr => ?_⟩
  rcases turn_listen hr with ⟨rfl, rfl⟩ | ⟨errno, what, rfl, rfl⟩
  · exact ⟨hinv, hw⟩
  · exact ⟨⟨hinv.1.fault nofun rfl, hinv.2.fault nofun⟩,
      ⟨_, hw.1.doomed_fault rfl, rfl, rfl⟩⟩

theorem triple_accept : ServerTriple H s₀ (fun o => o.Healthy ∧ o.Idle) ServerOp.accept.perform
    (fun (c : ℕ) o => AtFrame c o)
    (fun e o => ∃ f, Doomed f o ∧ f.exception = e ∧ e.systemError?.isSome) := by
  refine Triple.perform (serverRely_owns H s₀) fun w hinv hw => ⟨hw, fun ch r w' hr => ?_⟩
  rcases turn_accept hr with ⟨client, rest, rfl, hbacklog, rfl⟩ | ⟨errno, what, rfl, rfl⟩
  · have hnew : client ∉ w.own.accepted := by
      have := hinv.2.nodup
      rw [hbacklog] at this
      exact fun hm => List.disjoint_of_nodup_append this hm (by simp)
    exact ⟨⟨hinv.1.accept hnew, hinv.2.accept hbacklog⟩, .of_accept hinv.1 hw.1 hw.2 hnew⟩
  · exact ⟨⟨hinv.1.fault nofun rfl, hinv.2.fault nofun⟩,
      ⟨_, hw.1.doomed_fault rfl, rfl, rfl⟩⟩

theorem triple_unlink {f : Fault} (hsystem : f.exception.systemError?.isSome) :
    ServerTriple H s₀ (Doomed f) ServerOp.unlink.perform (fun _ o => Doomed f o)
      (fun _ _ => False) := by
  refine Triple.perform (serverRely_owns H s₀) fun w hinv hw =>
    ⟨⟨f, hw, hsystem⟩, fun ch r w' hr => ?_⟩
  obtain ⟨rfl, rfl⟩ := turn_unlink hr
  exact ⟨⟨hinv.1.unlink, hinv.2.unlink⟩, hw⟩

/-- Whoever reports a failure removes the socket file first. -/
theorem triple_unlink_report {α : Type} {message : Bytes} {a : α} {ok : α → Own σ → Prop}
    {err : Exception → Own σ → Prop} (hok : ∀ o : Own σ, o.Reported message → ok a o) :
    ServerTriple H s₀ (fun o => o.Reported message)
      (do
        ServerOp.unlink.perform
        return a)
      ok err := by
  refine Triple.of_eq fun v ⟨f, code, hdoomed, hf⟩ => ?_
  have hsystem : f.exception.systemError?.isSome := by rw [hf]; rfl
  refine ((triple_unlink hsystem).mono (fun o ho => ho ▸ hdoomed) (fun _ _ => id)
    fun _ _ => False.elim).bind (serverRely_owns H s₀) fun _ => ?_
  exact Triple.ret (serverRely_owns H s₀) fun o ho => hok o ⟨f, code, ho, hf⟩

/-- What a piece of `run` leaves behind. -/
def runPost : Flow RunLabel (UnixDomainServerResult Unit) → Own σ → Prop
  | .goto l, o => l.inv o
  | .done (.ok ()), _ => False
  | .done (.error error), o => o.Reported error.message

theorem triple_guarded {P : Own σ → Prop}
    {body : ServerCode (Flow RunLabel (UnixDomainServerResult Unit))}
    (h : ServerTriple H s₀ P body runPost fun e o => ∃ f, Doomed f o ∧ f.exception = e) :
    ServerTriple H s₀ P (SyncUnixDomainServer.guarded body) runPost fun e o => o.Escaped e := by
  refine triple_catchSystemError (serverRely_owns H s₀) h (fun code what => ?_)
    fun e hnone o ⟨f, hdoomed, hf⟩ => ⟨f, hdoomed, hf, hnone⟩
  suffices hreport : ServerTriple H s₀ (fun o => o.Reported what) _ _ _ from
    hreport.pre fun o ⟨f, hdoomed, hf⟩ => ⟨f, code, hdoomed, hf⟩
  exact triple_unlink_report fun _ => id

theorem triple_run : ServerTriple H s₀ (fun o => o.Healthy ∧ o.Idle) SyncUnixDomainServer.run
    runPost fun e o => o.Escaped e := by
  have hV := serverRely_owns H s₀
  refine triple_guarded ((triple_listen.mono (fun _ => id) (fun _ _ => id)
    fun e o ⟨f, hdoomed, hf, _⟩ => ⟨f, hdoomed, hf⟩).bind hV fun _ => Triple.ret hV fun _ => id)

/-- One pass through the loops of `run`. -/
theorem triple_runFrom (label : RunLabel) :
    ServerTriple H s₀ label.inv (SyncUnixDomainServer.runFrom label) runPost
      fun e o => o.Escaped e := by
  have hV := serverRely_owns H s₀
  refine triple_guarded ?_
  match label with
  | .accept =>
    exact (triple_accept.mono (fun _ => id) (fun _ _ => id)
      fun e o ⟨f, hdoomed, hf, _⟩ => ⟨f, hdoomed, hf⟩).bind hV fun _ => Triple.ret hV fun _ => id
  | .session c =>
    refine Triple.of_eq fun o ho => ((triple_session ho).mono (fun _ => id) (fun _ _ => id)
      fun e o ⟨f, hdoomed, hf, _⟩ => ⟨f, hdoomed, hf⟩).bind hV fun r => ?_
    match r with
    | .goto () => exact Triple.ret hV fun _ => id
    | .done (.ok ()) => exact Triple.ret hV fun _ => id
    | .done (.error error) => exact triple_unlink_report fun _ => id

/-- What holds when the loops have been left by a return. -/
def Own.Returned (r : SyncServerResult Unit) (o : Own σ) : Prop :=
  ∃ message, r = .error ⟨.runtimeError, message⟩ ∧ o.Reported message

/-- What a piece of `start` leaves behind. -/
def startPost : Flow RunLabel (SyncServerResult Unit) → Own σ → Prop
  | .goto l, o => l.inv o
  | .done r, o => o.Returned r

theorem triple_report (r : Flow RunLabel (UnixDomainServerResult Unit)) :
    ServerTriple H s₀ (runPost r) (SyncServer.report r) startPost fun e o => o.Escaped e := by
  have hV := serverRely_owns H s₀
  match r with
  | .goto l => exact Triple.ret hV fun _ => id
  | .done (.ok ()) => exact Triple.ret hV fun _ => False.elim
  | .done (.error error) => exact Triple.ret hV fun _ ho => ⟨error.message, rfl, ho⟩

theorem triple_start : ServerTriple H s₀ (fun o => o.Healthy ∧ o.Idle) SyncServer.start startPost
    fun e o => o.Escaped e :=
  triple_run.bind (serverRely_owns H s₀) triple_report

/-- One pass through the loops, as `SyncServer::start` reports it. -/
theorem triple_startFrom (label : RunLabel) :
    ServerTriple H s₀ label.inv (SyncServer.startFrom label) startPost fun e o => o.Escaped e :=
  (triple_runFrom label).bind (serverRely_owns H s₀) triple_report

/-! ### Runs -/

/-- The postcondition of a pass through the server's loops. -/
def serverPost : Except Exception (Flow RunLabel (SyncServerResult Unit)) → World σ → Prop :=
  Safe.blocksPost (fun (l : RunLabel) w => l.inv w.own) (fun r w => w.own.Returned r)
    fun e w => w.own.Escaped e

theorem serverPost_iff (r : Except Exception (Flow RunLabel (SyncServerResult Unit)))
    (w : World σ) : serverPost r w ↔
      Safe.Post (fun a w => startPost a w.own) (fun e w => w.own.Escaped e) r w := by
  match r with
  | .ok (.goto l) => exact Iff.rfl
  | .ok (.done r) => exact Iff.rfl
  | .error e => exact Iff.rfl

variable (H s₀)

/-- A server that is safe stays safe. -/
theorem serverSafe_run {cfg : Config serverSignature Exception
      (Flow RunLabel (SyncServerResult Unit)) (World σ)}
    (h : Safe (serverKernel H) (serverRely H s₀) serverPost cfg.rest cfg.world)
    (es : List (Event Choice ClientAct)) :
    Safe (serverKernel H) (serverRely H s₀) serverPost
      ((serverKernel H).run (Flow.next SyncServer.startFrom) cfg es).rest
      ((serverKernel H).run (Flow.next SyncServer.startFrom) cfg es).world :=
  Safe.run_blocks (serverRely_owns H s₀).toFits (fun l w hinv hw =>
    ((triple_startFrom l) w hinv hw).mono fun r w _ => (serverPost_iff r w).mpr) h es

theorem serverSafe_init :
    Safe (serverKernel H) (serverRely H s₀) serverPost SyncServer.start (World.init s₀) :=
  (triple_start (World.init s₀) ⟨.init H s₀, .init s₀⟩ ⟨nofun, nofun⟩).mono
    fun r w _ => (serverPost_iff r w).mpr

/-- **Every run is safe.** -/
theorem serverRun_safe (es : List (Event Choice ClientAct)) :
    Safe (serverKernel H) (serverRely H s₀) serverPost (serverRun H s₀ es).rest
      (serverRun H s₀ es).world :=
  serverSafe_run H s₀ (serverSafe_init H s₀) es

end InterProcessCourier
