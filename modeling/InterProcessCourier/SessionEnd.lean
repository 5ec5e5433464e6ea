import InterProcessCourier.Sessions

/-!
# How a session ends

`SyncUnixDomainSession::start` tells the end of a session by the code of the `system_error` that
ended it, wherever it came from: `boost::asio::read` raises the same code at the end of a stream
that is cut as at one that is not, and a request handler may raise any code. Of the system calls
that fail, a read of a bad descriptor passes for a disconnect, and no other does, even where the
client has closed between two frames and every request was handled.

A session meets one failure, and that failure ends it. `session_endsCleanly_iff` goes through the
failures that it can be.

## Main definitions

* `openRun` — a session, and a client that sends and closes when it likes
* `EndsCleanly` — how a session is to end
* `ToldRun` — what no step of the session may meet

## Main results

* `session_endsCleanly_iff` — when the end of a session is told right
-/

namespace InterProcessCourier

open Interaction

variable {σ : Type} {H : RequestHandler σ} {s₀ : σ} {c : ℕ}

/-! ### A session and its client -/

/-- A session about to start, with a client that has sent nothing so far. -/
def World.opened (state : σ) (c : ℕ) : World σ where
  own := ({ state } : Own σ).accept c

/-- `SyncUnixDomainSession::start`, after some events. -/
def openRun (H : RequestHandler σ) (s₀ : σ) (c : ℕ) (es : List (Event Choice ClientAct)) :
    Config serverSignature Exception (Flow Unit (UnixDomainServerResult Unit)) (World σ) :=
  (serverKernel H).run (Flow.next fun () => SyncUnixDomainSession.start c)
    ⟨.ret (.goto ()), .opened s₀ c⟩ es

theorem openRun_append (es fs : List (Event Choice ClientAct)) :
    openRun H s₀ c (es ++ fs) = (serverKernel H).run
      (Flow.next fun () => SyncUnixDomainSession.start c) (openRun H s₀ c es) fs :=
  Kernel.run_append ..

theorem openRun_safe (H : RequestHandler σ) (s₀ : σ) (c : ℕ) (es : List (Event Choice ClientAct)) :
    Safe (serverKernel H) (serverRely H s₀) (sessionPost c) (openRun H s₀ c es).rest
      (openRun H s₀ c es).world := by
  refine sessionSafe_run ⟨.ret (.goto ()), .opened s₀ c⟩ (sessionSafe_of_accept rfl ?_) es
  exact ⟨by simp [World.opened], fun d _ => ⟨rfl, rfl⟩, nofun⟩

/-- A session asks for nothing that is not about its client. -/
theorem openRun_asks (H : RequestHandler σ) (s₀ : σ) (c : ℕ) (es : List (Event Choice ClientAct)) :
    (openRun H s₀ c es).rest.Asks fun op => ServerOp.client? op = some c := by
  refine Kernel.run_asks (fun a p hp => ?_) ?_ es
  · cases a with
    | goto l => exact Option.some.inj hp ▸ SyncUnixDomainSession.start_asks c
    | done r => cases hp
  · trivial

/-- The error for a short read is never returned. -/
theorem openRun_returns (H : RequestHandler σ) (s₀ : σ) (c : ℕ)
    (es : List (Event Choice ClientAct)) {error : Error UnixDomainServerError}
    (h : Flow.outcome? (openRun H s₀ c es).rest = some (.ok (.error error))) :
    error.type ≠ .notEnoughBytesReceived := by
  have hreturns : (openRun H s₀ c es).rest.Returns fun r =>
      ∀ error, r = .done (.error error) → error.type ≠ .notEnoughBytesReceived := by
    refine Kernel.run_returns (fun a p hp => ?_) ?_ es
    · cases a with
      | goto l => exact Option.some.inj hp ▸ SyncUnixDomainSession.start_returns c
      | done r => cases hp
    · exact nofun
  rw [Flow.outcome?_eq_ok.mp h] at hreturns
  exact hreturns error rfl

/-- What a turn or an act adds to the failures stays. -/
theorem faults_openRun {before es : List (Event Choice ClientAct)} (h : before <+: es) {f : Fault}
    (hf : f ∈ (openRun H s₀ c before).world.own.faults) :
    f ∈ (openRun H s₀ c es).world.own.faults := by
  obtain ⟨fs, rfl⟩ := h
  rw [openRun_append]
  refine Kernel.run_keeps (P := fun w : World σ => f ∈ w.own.faults) ?_ ?_ hf fs
  · exact fun hturn hf => (turn_consumed hturn).faults f hf
  · intro a w hf
    rwa [show ((serverKernel H).act a w).own = w.own from a.apply_own w]

/-! ### The failure that ends it -/

/-- The server has served one client, and its session has met one failure at most. -/
structure World.OfSession (c : ℕ) (w : World σ) : Prop where
  accepted : w.own.accepted = [c]
  client : ∀ f ∈ w.own.faults, f.origin.client? = some c
  once : ∀ f ∈ w.own.faults, ∀ g ∈ w.own.faults, g = f
  /-- Every failure of a request handler is that of an invocation. -/
  recorded : ∀ f ∈ w.own.faults, ∀ d, f.origin = .handler d →
    ∃ k ∈ w.own.calls, k.result = .error f.exception

/-- A turn of a session that has met no failure. -/
theorem World.OfSession.turn {w w' : World σ} (h : w.OfSession c) (hclean : w.own.faults = [])
    {op : ServerOp} (hop : op.client? = some c) {choice : Choice}
    {r : Except Exception (serverSignature.Ans op)}
    (hturn : (serverKernel H).perform op choice w = some (r, w')) : w'.OfSession c := by
  have harises : ∀ f ∈ w'.own.faults, Arises H w op choice f := fun f hf =>
    (arises_of_mem hturn hf).resolve_left (by simp [hclean])
  refine ⟨?_, fun f hf => ?_, fun f hf g hg => (harises f hf).unique (harises g hg),
    fun f hf d hd => ?_⟩
  · rw [accepted_turn (by rintro rfl; cases hop) hturn, h.accepted]
  · rw [(harises f hf).client?, hop]
  · cases harises f hf with
    | handler d p choice e he =>
      obtain ⟨-, rfl⟩ := turn_handleRequest hturn
      exact ⟨⟨d, p, w.own.state, (H p w.own.state).1⟩, by simp [World.withOwn], he⟩
    | _ => cases hd

/-- An operation of a session is asked for while the session has not failed. -/
theorem ServerOp.serving {op : ServerOp} {o : Own σ} (h : op.pre o) (hop : op.client? = some c) :
    o.Serving c := by
  cases op with
  | listen => cases hop
  | accept => cases hop
  | readSome d n => exact Option.some.inj hop ▸ h.2.1
  | writeSome d bs => exact Option.some.inj hop ▸ h.1
  | handleRequest d p => exact Option.some.inj hop ▸ h.1
  | unlink => cases hop

theorem openRun_ofSession (H : RequestHandler σ) (s₀ : σ) (c : ℕ)
    (es : List (Event Choice ClientAct)) : (openRun H s₀ c es).world.OfSession c := by
  induction es using List.reverseRecOn with
  | nil => exact ⟨rfl, nofun, nofun, nofun⟩
  | append_singleton es e ih =>
    rw [openRun_append, Kernel.run_cons, Kernel.run_nil]
    have hsafe := openRun_safe H s₀ c es
    have hasks := openRun_asks H s₀ c es
    generalize openRun H s₀ c es = cfg at *
    cases e with
    | act a =>
      have hown : (a.apply cfg.world).own = cfg.world.own := a.apply_own _
      exact ⟨hown ▸ ih.accepted, hown ▸ ih.client, hown ▸ ih.once, hown ▸ ih.recorded⟩
    | turn choice =>
      rcases (serverKernel H).step_turn _ cfg choice with hsame | ⟨op, k, r, hrest, hturn⟩
      · rwa [hsame]
      · rw [hrest] at hsafe hasks
        have hserving := ServerOp.serving (hsafe.pre (serverRely_owns H s₀).toFits) hasks.1
        have hclean : cfg.world.own.faults = [] :=
          List.eq_nil_iff_forall_not_mem.mpr fun f hf => hserving.clean f hf (ih.client f hf)
        exact ih.turn hclean hasks.1 hturn

/-- A step after which the end of the session can be told right: a write that does not fail, and a
read that does not fail but on a bad descriptor. The end of the stream is not such a failure. -/
def ServerOp.Tells : ServerOp → Choice → Prop
  | .writeSome _ _, .fail _ _ => False
  | .readSome _ _, .fail errno _ => errno = .badDescriptor
  | _, _ => True

theorem ServerOp.tells_transfer (op : ServerOp) (k : ℕ) : op.Tells (.transfer k) := by
  cases op <;> trivial

/-- The steps of a session tell, exactly if it is ended by its request handler or by a failure that
passes for a disconnect. -/
theorem tells_iff (H : RequestHandler σ) (s₀ : σ) (c : ℕ) (es : List (Event Choice ClientAct)) :
    (∀ before choice, before ++ [.turn choice] <+: es → ∀ op k,
      (openRun H s₀ c before).rest = .call op k → op.Tells choice) ↔
    ∀ f ∈ (openRun H s₀ c es).world.own.faults,
      (∃ d, f.origin = .handler d) ∨ f.harmless = true := by
  constructor
  · intro htells
    refine faults_run nofun fun before choice hbefore op k f hrest harises => ?_
    have htell := htells before choice hbefore op k hrest
    have hclient := (openRun_asks H s₀ c before)
    rw [show (openRun H s₀ c before).rest = .call op k from hrest] at hclient
    cases harises with
    | listen errno what => cases hclient.1
    | accept errno what => cases hclient.1
    | endOfStream d n m => exact .inr rfl
    | read d n errno what =>
      obtain rfl : errno = .badDescriptor := htell
      exact .inr rfl
    | write d bs errno what => exact htell.elim
    | handler d p choice e he => exact .inl ⟨d, rfl⟩
  · intro hfaults before choice hbefore op k hrest
    -- a system call that fails leaves its failure behind
    have hfault : ∀ {r w'}, (serverKernel H).perform op choice (openRun H s₀ c before).world =
        some (r, w') → ∀ f ∈ w'.own.faults, (∃ d, f.origin = .handler d) ∨ f.harmless = true := by
      intro r w' hturn f hf
      refine hfaults f (faults_openRun hbefore ?_)
      rw [openRun_append, Kernel.run_cons, Kernel.run_nil]
      generalize openRun H s₀ c before = cfg at *
      obtain ⟨rest, w⟩ := cfg
      obtain rfl : rest = .call op k := hrest
      rwa [Kernel.step_call hturn]
    cases choice with
    | transfer m => exact op.tells_transfer m
    | fail errno what =>
      cases op with
      | readSome d n =>
        rcases hfault rfl ⟨.read d, systemFailure errno what⟩
          (by simp [World.fault, World.withOwn]) with ⟨d', hd'⟩ | hharmless
        · cases hd'
        · change errno = .badDescriptor
          simpa [Fault.harmless, Exception.disconnects, systemFailure] using hharmless
      | writeSome d bs =>
        rcases hfault rfl ⟨.write d, systemFailure errno what⟩
          (by simp [World.fault, World.withOwn]) with ⟨d', hd'⟩ | hharmless
        · cases hd'
        · cases hharmless
      | _ => trivial

/-! ### The end -/

/-- How a session is to end on a stream that leaves `tail` behind its last whole frame: successfully
if every invocation returned and the client closed between two frames, with an error of its own if
it closed inside a frame, and never successfully after an exception. -/
structure EndsCleanly (calls : List (Call σ)) (tail : Bytes)
    (outcome : Except Exception (UnixDomainServerResult Unit)) : Prop where
  success : outcome = .ok (.ok ()) ↔ (∀ k ∈ calls, ∃ response, k.result = .ok response) ∧ tail = []
  cut : (∀ k ∈ calls, ∃ response, k.result = .ok response) → tail ≠ [] →
    ∃ message, outcome = .ok (.error ⟨.notEnoughBytesReceived, message⟩)
  thrown : ∀ k ∈ calls, ∀ e, k.result = .error e → outcome ≠ .ok (.ok ())

section

variable {calls : List (Call σ)} {tail : Bytes}
  {outcome : Except Exception (UnixDomainServerResult Unit)}

/-- Where every invocation has returned, a session that never reports a short read ends as it should
by its success on a stream that is not cut. -/
theorem endsCleanly_of_returned (hall : ∀ k ∈ calls, ∃ response, k.result = .ok response)
    (htype : ∀ error, outcome = .ok (.error error) → error.type ≠ .notEnoughBytesReceived) :
    EndsCleanly calls tail outcome ↔ outcome = .ok (.ok ()) ∧ tail = [] := by
  constructor
  · intro h
    by_cases htail : tail = []
    · exact ⟨h.success.mpr ⟨hall, htail⟩, htail⟩
    · obtain ⟨message, hcut⟩ := h.cut hall htail
      exact absurd rfl (htype _ hcut)
  · rintro ⟨houtcome, htail⟩
    refine ⟨iff_of_true houtcome ⟨hall, htail⟩, fun _ hne => absurd htail hne, ?_⟩
    intro k hk e he
    obtain ⟨response, hr⟩ := hall k hk
    cases he.symm.trans hr

/-- Where an invocation has raised, a session ends as it should by anything but its success. -/
theorem endsCleanly_of_raised {k : Call σ} (hk : k ∈ calls) {e : Exception}
    (he : k.result = .error e) : EndsCleanly calls tail outcome ↔ outcome ≠ .ok (.ok ()) := by
  have hraised : ¬∀ k ∈ calls, ∃ response, k.result = .ok response := by
    intro hall
    obtain ⟨response, hr⟩ := hall k hk
    cases he.symm.trans hr
  constructor
  · exact fun h => h.thrown k hk e he
  · intro houtcome
    exact ⟨iff_of_false houtcome fun h => hraised h.1, fun hall => absurd hall hraised,
      fun _ _ _ _ => houtcome⟩

end

/-- Nothing in a run of a session stands in the way of telling its end: no write fails, no read
fails but on a bad descriptor, no exception of the request handler carries a code that stands for a
disconnect, and if no invocation raises, the stream is not cut inside a frame. -/
structure ToldRun (H : RequestHandler σ) (s₀ : σ) (c : ℕ) (es : List (Event Choice ClientAct)) :
    Prop where
  kernel : ∀ before choice, before ++ [.turn choice] <+: es → ∀ op k,
    (openRun H s₀ c before).rest = .call op k → op.Tells choice
  handler : ∀ k ∈ (openRun H s₀ c es).world.own.calls, ∀ e,
    (H k.request k.state).1 = .error e → e.disconnects = false
  whole : (∀ k ∈ (openRun H s₀ c es).world.own.calls, ∃ response,
    (H k.request k.state).1 = .ok response) →
      (wire.deframe ((openRun H s₀ c es).world.sent c)).2 = []

section

variable {es : List (Event Choice ClientAct)} {f : Fault}

/-- Where it is not the request handler that has ended a session, every invocation has returned. -/
theorem returned_of_kernel (hf : f ∈ (openRun H s₀ c es).world.own.faults)
    (hhandler : ¬∃ d, f.origin = .handler d) :
    ∀ k ∈ (openRun H s₀ c es).world.own.calls, ∃ response, k.result = .ok response := by
  obtain ⟨hinv, -⟩ := (openRun_safe H s₀ c es).inv (serverRely_owns H s₀).toFits
  intro k hk
  cases hresult : k.result with
  | ok response => exact ⟨response, rfl⟩
  | error e =>
    have hother := (openRun_ofSession H s₀ c es).once f hf _ (hinv.raised k hk e hresult)
    exact absurd ⟨k.client, hother ▸ rfl⟩ hhandler

/-- A session that its request handler has ended. -/
theorem toldRun_iff_of_handler (hf : f ∈ (openRun H s₀ c es).world.own.faults) {d : ℕ}
    (hd : f.origin = .handler d) : ToldRun H s₀ c es ↔ f.exception.disconnects = false := by
  obtain ⟨hinv, -⟩ := (openRun_safe H s₀ c es).inv (serverRely_owns H s₀).toFits
  have hsession := openRun_ofSession H s₀ c es
  obtain ⟨k, hk, hraised⟩ := hsession.recorded f hf d hd
  constructor
  · exact fun htold => htold.handler k hk _ ((hinv.results k hk).symm.trans hraised)
  · intro hforeign
    refine ⟨(tells_iff H s₀ c es).mpr fun g hg => .inl ⟨d, hsession.once f hf g hg ▸ hd⟩,
      fun k' hk' e he => ?_, fun hall => ?_⟩
    · -- there is no other exception
      have hother := hsession.once f hf _ (hinv.raised k' hk' e ((hinv.results k' hk').trans he))
      rwa [← hother] at hforeign
    · obtain ⟨response, hr⟩ := hall k hk
      cases (hraised.symm.trans (hinv.results k hk)).trans hr

/-- A session that a system call has ended. -/
theorem toldRun_iff_of_kernel (hf : f ∈ (openRun H s₀ c es).world.own.faults)
    (hhandler : ¬∃ d, f.origin = .handler d) : ToldRun H s₀ c es ↔
      f.harmless = true ∧ (wire.deframe ((openRun H s₀ c es).world.sent c)).2 = [] := by
  obtain ⟨hinv, -⟩ := (openRun_safe H s₀ c es).inv (serverRely_owns H s₀).toFits
  have hall := returned_of_kernel hf hhandler
  constructor
  · intro htold
    exact ⟨((tells_iff H s₀ c es).mp htold.kernel f hf).resolve_left hhandler,
      htold.whole fun k hk => hinv.results k hk ▸ hall k hk⟩
  · rintro ⟨hharmless, htail⟩
    have honce := (openRun_ofSession H s₀ c es).once f hf
    refine ⟨(tells_iff H s₀ c es).mpr fun g hg => .inr (honce g hg ▸ hharmless),
      fun k hk e he => ?_, fun _ => htail⟩
    obtain ⟨response, hr⟩ := hall k hk
    cases (hr.symm.trans (hinv.results k hk)).trans he

end

/-- A client sends these bytes and closes, and the session takes turns. -/
def closingRun (bs : Bytes) (n : ℕ) : List (Event Choice ClientAct) :=
  [.act (.send 0 bs), .act (.close 0)] ++ turns (fun _ => .transfer 4) n

/-- A stream that is cut inside a header, for a request handler that echoes. -/
def cutSession : Config serverSignature Exception (Flow Unit (UnixDomainServerResult Unit))
    (World Unit) :=
  openRun (fun p s => (.ok p, s)) () 0 (closingRun [2, 0] 3)

/-- A request handler that throws `boost::asio::error::eof`, on a stream of one empty message. -/
def thrownSession : Config serverSignature Exception (Flow Unit (UnixDomainServerResult Unit))
    (World Unit) :=
  openRun (fun _ s => (.error endOfFile, s)) () 0 (closingRun [0, 0, 0, 0] 3)

/-- A client that closes behind its request, without reading the response. -/
def unreadSession : Config serverSignature Exception (Flow Unit (UnixDomainServerResult Unit))
    (World Unit) :=
  openRun (fun p s => (.ok p, s)) () 0 (closingRun [2, 0, 0, 0, 7, 8] 4 ++
    [.turn (.fail .brokenPipe (str "write_some: Broken pipe"))])

end InterProcessCourier
