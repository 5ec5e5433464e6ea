import InterProcessCourier.Dispatch
import InterProcessCourier.Sessions

/-!
# What ends the server

Errors reach `SyncServer::start` on two ways. A failed system call is a `system_error`, which one of
two catch clauses turns into a value; whatever else a request handler raises passes both clauses,
and the rejection of a payload is such an exception.

`reports_iff` says which runs `start` reports as a value, and `serverRun_contained` which runs keep
the accept loop: those in which every payload handled is accepted, no response fails to be written,
and no read fails but at the end of a stream or on a bad descriptor.

## Main results

* `reports_iff` — `start` is left by an exception exactly if an invocation was not contained
* `serverRun_contained` — in a tame run the server goes on, and answers every client
-/

namespace InterProcessCourier

open Interaction

section

variable {σ : Type} {H : RequestHandler σ} {s₀ : σ}

/-- An operation is asked for by a healthy server, or to clean up after a `system_error`. -/
theorem ServerOp.healthy_or_doomed {op : ServerOp} {o : Own σ} (h : op.pre o) :
    o.Healthy ∨ ∃ f, o.Doomed f ∧ f.exception.systemError?.isSome := by
  cases op with
  | listen => exact .inl h
  | accept => exact .inl h.1
  | readSome c n => exact .inl h.2.1.healthy
  | writeSome c bs => exact .inl h.1.healthy
  | handleRequest c p => exact .inl h.1.healthy
  | unlink => exact .inr h

theorem RunLabel.inv_healthy {l : RunLabel} {o : Own σ} (h : l.inv o) : o.Healthy := by
  cases l with
  | accept => exact h.1
  | session c => exact h.healthy

theorem Own.Returned.doomed {r : SyncServerResult Unit} {o : Own σ} (h : o.Returned r) :
    ∃ f, o.Doomed f ∧ f.exception.systemError?.isSome := by
  obtain ⟨message, -, f, code, hdoomed, hf⟩ := h
  exact ⟨f, hdoomed, by rw [hf]; rfl⟩

/-- A failure that is not a `system_error` has left the server by its exception. -/
theorem raised_of_foreign {cfg : Config serverSignature Exception
      (Flow RunLabel (SyncServerResult Unit)) (World σ)}
    (hsafe : Safe (serverKernel H) (serverRely H s₀) serverPost cfg.rest cfg.world) {f : Fault}
    (hf : f ∈ cfg.world.own.faults) (hforeign : f.exception.systemError? = none) :
    ∃ e, cfg.rest = .raise e := by
  have hR := (serverRely_owns H s₀).toFits
  have hharmful : f.harmless = false := by
    have hdisconnects : f.exception.disconnects = false := by
      cases hx : f.exception with
      | systemError code what => simp [hx, Exception.systemError?] at hforeign
      | _ => rfl
    cases ho : f.origin <;> simp [Fault.harmless, ho, hdisconnects]
  have hno : ¬(cfg.world.own.Healthy ∨ ∃ g, cfg.world.own.Doomed g ∧
      g.exception.systemError?.isSome) := by
    rintro (hhealthy | ⟨g, hdoomed, hsystem⟩)
    · rw [hhealthy f hf] at hharmful
      cases hharmful
    · rw [← hdoomed.eq hf hharmful, hforeign] at hsystem
      cases hsystem
  obtain ⟨rest, w⟩ := cfg
  cases rest with
  | raise e => exact ⟨e, rfl⟩
  | call op k => exact absurd (ServerOp.healthy_or_doomed (hsafe.pre hR)) hno
  | ret a =>
    have hpost := hsafe.post_ok hR
    cases a with
    | goto l => exact absurd (.inl (RunLabel.inv_healthy (l := l) hpost)) hno
    | done r => exact absurd (.inr (Own.Returned.doomed (r := r) hpost)) hno

end

/-! ### Exceptions -/

namespace SyncServer

section

variable {σ : Type}

/-- `start` has not been left by an exception, and if it has returned, then the failure that ended
it. -/
def Reports (cfg : Config serverSignature Exception (Flow RunLabel (SyncServerResult Unit))
    (World σ)) : Prop :=
  (∀ e, cfg.rest ≠ .raise e) ∧ ∀ r, cfg.rest = .ret (.done r) → cfg.world.own.Returned r

/-- A run reports its failures exactly if no request handler has raised anything but a
`system_error`. -/
theorem reports_iff_results (H : RequestHandler σ) (s₀ : σ) (es : List (Event Choice ClientAct)) :
    Reports (serverRun H s₀ es) ↔ ∀ k ∈ (serverRun H s₀ es).world.own.calls, ∀ e,
      k.result = .error e → e.systemError?.isSome := by
  have hR := (serverRely_owns H s₀).toFits
  have hsafe := serverRun_safe H s₀ es
  obtain ⟨hinv, -⟩ := hsafe.inv hR
  constructor
  · intro hreports k hk e he
    by_contra hforeign
    obtain ⟨e', hraise⟩ := raised_of_foreign hsafe (hinv.raised k hk e he)
      (Option.not_isSome_iff_eq_none.mp hforeign)
    exact hreports.1 e' hraise
  · intro hcalls
    constructor
    · intro e hrest
      rw [hrest] at hsafe
      obtain ⟨f, hdoomed, rfl, hforeign⟩ : Own.Escaped e _ := hsafe.post_error hR
      obtain ⟨k, hk, hresult⟩ := hinv.foreign f hdoomed.mem hforeign
      have hsystem := hcalls k hk _ hresult
      rw [hforeign] at hsystem
      cases hsystem
    · intro r hrest
      rw [hrest] at hsafe
      exact hsafe.post_ok hR

variable [Protobuf] [LawfulProtobuf]

/-- A payload is contained if what its invocation raises is a `system_error`. -/
theorem contains_iff {strategy : DuplicateRequestResponsePairRegistrationStrategy}
    {h : List (GenericHandler σ)} {payload : Bytes} {state : σ} :
    (ofHistory strategy h).Contains payload state ↔
      ∀ e, ((ofHistory strategy h).requestHandler payload state).1 = .error e →
        e.systemError?.isSome := by
  constructor
  · rintro ⟨g, m, hdispatches, hsystem⟩ e he
    rw [requestHandler_of_dispatches hdispatches] at he
    cases hresult : (g.handler m (ofHistory strategy h).requestResponsePairs state).1 with
    | ok response =>
      rw [hresult] at he
      cases he
    | error e' =>
      rw [hresult] at he
      cases he
      exact hsystem e hresult
  · intro hsystem
    by_cases haccepts : (ofHistory strategy h).Accepts payload
    · obtain ⟨g, m, hdispatches⟩ := haccepts
      refine ⟨g, m, hdispatches, fun e he => hsystem e ?_⟩
      rw [requestHandler_of_dispatches hdispatches, he]
      rfl
    · obtain ⟨what, hrejected⟩ := requestHandler_of_not_accepts haccepts state
      cases hsystem _ (congrArg Prod.fst hrejected)

/-- **When `start` reports every failure as a value.** A run has been left by no exception, and by
no other value than the failure that ended it, exactly if every payload the request handler was
invoked on decodes to a message of a registered type whose handler raises nothing but
`boost::system::system_error`. -/
theorem reports_iff (strategy : DuplicateRequestResponsePairRegistrationStrategy)
    (h : List (GenericHandler σ)) (s₀ : σ) (es : List (Event Choice ClientAct)) :
    Reports (serverRun (registered strategy h).requestHandler s₀ es) ↔
      ∀ k ∈ (serverRun (registered strategy h).requestHandler s₀ es).world.own.calls,
        (registered strategy h).Contains k.request k.state := by
  obtain ⟨hinv, -⟩ := serverRun_inv (registered strategy h).requestHandler s₀ es
  rw [reports_iff_results]
  refine forall₂_congr fun k hk => ?_
  rw [hinv.results k hk, registered_eq, contains_iff]

end

end SyncServer

namespace TestProto

/-- A client greets and closes before the server looks. -/
def greetedRun : List (Event Choice ClientAct) :=
  [.act (.connect 0), .act (.send 0 (wire.frame greeting)), .act (.close 0)]

theorem dispatches_greeting :
    (SyncServer.registered .silentIgnore [echo]).Dispatches greeting echo
      { message := str "hi" } :=
  ⟨makeBaseProtoFromPayload_makePayloadFromProto (by decide), rfl⟩

theorem accepts_greeting : (SyncServer.registered .silentIgnore [echo]).Accepts greeting :=
  ⟨echo, { message := str "hi" }, dispatches_greeting⟩

/-- The greeting is echoed, the end of the stream is read, and the next `accept` fails. -/
def acceptorRun : List (Event Choice ClientAct) :=
  greetedRun ++ turns (fun _ => .transfer 100) 11 ++
    [.turn (.fail (.other 24) (str "accept: Too many open files")), .turn (.transfer 0)]

theorem requests_acceptorRun :
    (serverRun echoHandler () acceptorRun).world.own.calls.map Call.request = [greeting] := by
  decide +kernel

/-- The echoing handler raises nothing. -/
theorem contains_acceptorRun :
    ∀ k ∈ (serverRun echoHandler () acceptorRun).world.own.calls,
      (SyncServer.registered .silentIgnore [echo]).Contains k.request k.state := by
  intro k hk
  have hrequest : k.request ∈ [greeting] := requests_acceptorRun ▸ List.mem_map_of_mem hk
  rw [List.mem_singleton.mp hrequest]
  exact ⟨echo, { message := str "hi" }, dispatches_greeting, nofun⟩

/-- A failing acceptor is reported, after a request was handled. -/
theorem reports_iff_acceptorRun :
    (serverRun echoHandler () acceptorRun).world.own.calls.map Call.request = [greeting] ∧
    (serverRun echoHandler () acceptorRun).rest.result? =
      some (.ok (.done (.error ⟨.runtimeError, str "accept: Too many open files"⟩))) ∧
    SyncServer.Reports (serverRun echoHandler () acceptorRun) :=
  ⟨requests_acceptorRun, by decide +kernel,
    (SyncServer.reports_iff .silentIgnore [echo] () acceptorRun).mpr contains_acceptorRun⟩

/-- A client sends the one byte `'a'` as a payload, while another waits. -/
def rejectedRun : List (Event Choice ClientAct) :=
  [.act (.connect 0), .act (.send 0 (wire.frame (str "a"))), .act (.connect 1)] ++
    turns (fun _ => .transfer 4) 8

/-- The rejection of the payload leaves `start` as an exception. -/
theorem not_reports_rejectedRun :
    (serverRun echoHandler () rejectedRun).rest.result? =
      some (.error (.runtimeError (str "Error while accepting message: " ++
        str "Error: Type Unable to deserialize message, Message: \"Received message: a\""))) ∧
    ¬SyncServer.Reports (serverRun echoHandler () rejectedRun) := by
  have hraised : (serverRun echoHandler () rejectedRun).rest.result? =
      some (.error (.runtimeError (str "Error while accepting message: " ++
        str "Error: Type Unable to deserialize message, Message: \"Received message: a\""))) := by
    decide +kernel
  exact ⟨hraised, fun hreports => hreports.1 _ (Program.result?_eq_error.mp hraised)⟩

end TestProto

/-! ### Tame failures -/

section

variable {σ : Type} {H : RequestHandler σ} {s₀ : σ}

/-- The failures of a tame run. -/
inductive Fault.Tame : Fault → Prop
  | listen (errno : Errno) (what : Bytes) : Tame ⟨.listen, systemFailure errno what⟩
  | accept (errno : Errno) (what : Bytes) : Tame ⟨.accept, systemFailure errno what⟩
  | endOfStream (c : ℕ) : Tame (.endOfStream c)
  | badDescriptor (c : ℕ) (what : Bytes) : Tame ⟨.read c, systemFailure .badDescriptor what⟩

/-- The acceptor failed. -/
def Fault.OfAcceptor (f : Fault) : Prop := f.origin = .listen ∨ f.origin = .accept

instance : DecidablePred Fault.OfAcceptor := fun _ => inferInstanceAs (Decidable (_ ∨ _))

theorem Fault.Tame.ofAcceptor_or_harmless {f : Fault} (h : f.Tame) :
    f.OfAcceptor ∨ f.harmless = true := by
  cases h with
  | listen errno what => exact .inl (.inl rfl)
  | accept errno what => exact .inl (.inr rfl)
  | endOfStream c => exact .inr rfl
  | badDescriptor c what => exact .inr rfl

theorem Fault.Tame.systemError?_isSome {f : Fault} (h : f.Tame) :
    f.exception.systemError?.isSome := by
  cases h <;> rfl

/-- A tame run is not left, unless the acceptor has failed. -/
theorem not_left_of_tame {cfg : Config serverSignature Exception
      (Flow RunLabel (SyncServerResult Unit)) (World σ)}
    (hsafe : Safe (serverKernel H) (serverRely H s₀) serverPost cfg.rest cfg.world)
    (htame : ∀ f ∈ cfg.world.own.faults, f.Tame) :
    (∀ e, cfg.rest ≠ .raise e) ∧
      ∀ r, cfg.rest = .ret (.done r) → ∃ f ∈ cfg.world.own.faults, f.OfAcceptor := by
  have hR := (serverRely_owns H s₀).toFits
  constructor
  · intro e hrest
    rw [hrest] at hsafe
    obtain ⟨f, hdoomed, rfl, hforeign⟩ : Own.Escaped e _ := hsafe.post_error hR
    have hsystem := (htame f hdoomed.mem).systemError?_isSome
    rw [hforeign] at hsystem
    cases hsystem
  · intro r hrest
    rw [hrest] at hsafe
    have hreturned : Own.Returned r cfg.world.own := hsafe.post_ok hR
    obtain ⟨f, hdoomed, -⟩ := hreturned.doomed
    refine ⟨f, hdoomed.mem, (htame f hdoomed.mem).ofAcceptor_or_harmless.resolve_right ?_⟩
    obtain ⟨fs, -, -, hharmful⟩ := hdoomed
    simp [hharmful]

/-- Every whole frame a client has sent was handled, and every response was written. -/
structure World.CaughtUp (w : World σ) (c : ℕ) : Prop where
  requests : w.own.requests c = (wire.deframe (w.sent c)).1
  written : w.own.written c = wire.frames (w.own.responses c)

theorem Own.Reading.caughtUp {w : World σ} {c : ℕ} (h : w.own.Reading c)
    (hinv : w.own.Inv H s₀) (hunread : w.unread c = []) : w.CaughtUp c where
  requests := by
    obtain ⟨got, hgot, hconsumed⟩ := h.cut
    have hreads : wire.Reads (w.sent c) (w.own.requests c) got :=
      ⟨by rw [World.sent, hunread, List.append_nil, hconsumed], hinv.short c, hgot⟩
    rw [hreads.deframe_eq]
  written := h.written

/-- Where a tame server waits, every client it has accepted was served, as far as it sent. -/
theorem caughtUp_of_waits {cfg : Config serverSignature Exception
      (Flow RunLabel (SyncServerResult Unit)) (World σ)} {size : ℕ}
    (hsafe : Safe (serverKernel H) (serverRely H s₀) serverPost cfg.rest cfg.world)
    (htame : ∀ f ∈ cfg.world.own.faults, f.Tame)
    (hacceptor : ∀ f ∈ cfg.world.own.faults, ¬f.OfAcceptor)
    (hwaits : (serverKernel H).Waits (Flow.next SyncServer.startFrom) (.transfer size) cfg) :
    (cfg.world.backlog = [] ∨ ∃ c ∈ cfg.world.own.accepted, cfg.world.closed c = false) ∧
    ∀ c ∈ cfg.world.own.accepted,
      (∀ f ∈ cfg.world.own.faults, f.origin = .read c → f = .endOfStream c) →
      cfg.world.CaughtUp c := by
  have hR := (serverRely_owns H s₀).toFits
  obtain ⟨hinv, hshared⟩ := hsafe.inv hR
  obtain ⟨hraise, hdone⟩ := not_left_of_tame hsafe htame
  -- a session that has ended by a tame failure met the end of its stream
  have hended : ∀ c, (∀ f ∈ cfg.world.own.faults, f.origin = .read c → f = .endOfStream c) →
      (∃ f ∈ cfg.world.own.faults, f.origin.client? = some c) → cfg.world.CaughtUp c := by
    rintro c hread ⟨f, hf, hclient⟩
    have horigin : f.origin = .read c := by
      cases htame f hf with
      | listen errno what => cases hclient
      | accept errno what => cases hclient
      | endOfStream d => exact congrArg Origin.read (Option.some.inj hclient)
      | badDescriptor d what => exact congrArg Origin.read (Option.some.inj hclient)
    have hdrained := hshared.drained c (hread f hf horigin ▸ hf)
    exact hdrained.toReading.caughtUp hinv hdrained.unread
  obtain ⟨rest, w⟩ := cfg
  match rest with
  | .raise e => exact absurd rfl (hraise e)
  | .ret (.goto l) => cases hwaits
  | .ret (.done r) =>
    obtain ⟨f, hf, hof⟩ := hdone r rfl
    exact absurd hof (hacceptor f hf)
  | .call op k =>
    have hpre : op.pre w.own := hsafe.pre hR
    rcases waits_cases hwaits with ⟨rfl, hbacklog⟩ | ⟨d, n, rfl, -, hunread, hopen⟩
    · exact ⟨.inl hbacklog, fun c hc hread => hended c hread (hpre.2 c hc)⟩
    · obtain ⟨-, hserving, hreading⟩ := hpre
      refine ⟨.inr ⟨d, hserving.mem_accepted, hopen⟩, fun c hc hread => ?_⟩
      rcases eq_or_ne c d with rfl | hne
      · exact hreading.caughtUp hinv hunread
      · exact hended c hread (hserving.others c hc hne)

end

/-! ### Tame runs -/

section

variable {σ : Type} [Protobuf]

/-- An operation that does not end the server: a payload that is accepted, a write that does not
fail, and a read that does not fail but on a bad descriptor. The end of a stream is not such a
failure, and the acceptor may fail as it likes. -/
def ServerOp.Tame (server : SyncServer σ) : ServerOp → Choice → Prop
  | .handleRequest _ payload, _ => server.Accepts payload
  | .writeSome _ _, .fail _ _ => False
  | .readSome _ _, .fail errno _ => errno = .badDescriptor
  | _, _ => True

/-- Every step of a run is tame. -/
def TameRun (server : SyncServer σ) (s₀ : σ) (es : List (Event Choice ClientAct)) : Prop :=
  ∀ before choice, before ++ [.turn choice] <+: es → ∀ op k,
    (serverRun server.requestHandler s₀ before).rest = .call op k → op.Tame server choice

variable {server : SyncServer σ} {s₀ : σ}

/-- **Tame steps fail tamely**, if the handlers return. -/
theorem TameRun.faults {es : List (Event Choice ClientAct)} (h : TameRun server s₀ es)
    (hreturns : ∀ payload state, server.Accepts payload →
      ∃ r, (server.requestHandler payload state).1 = .ok r) :
    ∀ f ∈ (serverRun server.requestHandler s₀ es).world.own.faults, f.Tame := by
  refine faults_run (by simp [World.init]) fun before choice hbefore op k f hrest harises => ?_
  have htame := h before choice hbefore op k hrest
  cases harises with
  | listen errno what => exact .listen errno what
  | accept errno what => exact .accept errno what
  | endOfStream c n m => exact .endOfStream c
  | read c n errno what =>
    obtain rfl : errno = .badDescriptor := htame
    exact .badDescriptor c what
  | write c bs errno what => exact htame.elim
  | handler c payload choice e he =>
    obtain ⟨r, hr⟩ := hreturns payload _ htame
    rw [hr] at he
    cases he

/-- **A run is tame if its clients are.** No system call fails, and every whole frame that a client
sends holds a payload that the server accepts. -/
theorem tameRun_of_accepted {es : List (Event Choice ClientAct)} (hsmooth : ∀ e ∈ es, Smooth e)
    (haccepted : ∀ c, ∀ p ∈ (wire.deframe ((serverRun server.requestHandler s₀ es).world.sent c)).1,
      server.Accepts p) : TameRun server s₀ es := by
  rintro before choice ⟨after, rfl⟩ op k hrest
  have htransfer := hsmooth (.turn choice) (by simp)
  cases op with
  | listen => trivial
  | accept => trivial
  | readSome c n =>
    cases choice with
    | transfer m => trivial
    | fail errno what => exact htransfer.elim
  | writeSome c bs =>
    cases choice with
    | transfer m => trivial
    | fail errno what => exact htransfer.elim
  | unlink => trivial
  | handleRequest c p =>
    refine haccepted c p ?_
    obtain ⟨hinv, -⟩ := serverRun_inv server.requestHandler s₀ before
    have hsafe := serverRun_safe server.requestHandler s₀ before
    rw [hrest] at hsafe
    obtain ⟨-, -, hp, hconsumed⟩ : ServerOp.pre (.handleRequest c p) _ :=
      hsafe.pre (serverRely_owns server.requestHandler s₀).toFits
    have hhandled : (serverRun server.requestHandler s₀ before).world.own.requests c ++ [p] <+:
        (wire.deframe ((serverRun server.requestHandler s₀ before).world.sent c)).1 := by
      refine wire.prefix_deframe (fun q hq => ?_) ?_
      · rcases List.mem_append.mp hq with hq | hq
        · exact hinv.short c q hq
        · exact List.mem_singleton.mp hq ▸ hp
      · rw [wire.frames_concat, World.sent, ← hconsumed]
        exact List.prefix_append _ _
    have hsent : (serverRun server.requestHandler s₀ before).world.sent c <+:
        (serverRun server.requestHandler s₀ (before ++ [.turn choice] ++ after)).world.sent c := by
      rw [List.append_assoc, serverRun_append]
      exact sent_run _ _ c
    exact (hhandled.trans (wire.deframe_mono hsent)).subset (by simp)

/-- A handler that a payload dispatches to returns, if every handler registered does. -/
theorem returns_of_dispatches {strategy : DuplicateRequestResponsePairRegistrationStrategy}
    {h : List (GenericHandler σ)}
    (hreturns : ∀ g ∈ h, ∀ m pairs state, ∃ r, (g.handler m pairs state).1 = .ok r)
    {payload : Bytes} {g : GenericHandler σ} {m : Message g.RequestType}
    (hdispatches : (SyncServer.registered strategy h).Dispatches payload g m)
    (pairs : UnorderedMap Bytes) (state : σ) : ∃ r, (g.handler m pairs state).1 = .ok r := by
  have hstored := hdispatches.stored
  rw [SyncServer.registered_eq] at hstored
  rcases List.mem_cons.mp (SyncServer.mem_of_lookup_handlers hstored).1 with rfl | hmem
  · exact ⟨_, rfl⟩
  · exact hreturns g hmem m pairs state

variable [LawfulProtobuf]

/-- **No client takes the server down.** In a tame run of a server whose handlers return, the accept
loop is left only by a failure of the acceptor, and every response is what the registered handler
returned; and from any point of it, if the acceptor has not failed and the steps stay tame, the
server comes to wait with every client accepted, or for bytes of an open connection, and has then
handled and answered everything that the clients it accepted have sent. -/
theorem serverRun_contained (strategy : DuplicateRequestResponsePairRegistrationStrategy)
    (h : List (GenericHandler σ))
    (hreturns : ∀ g ∈ h, ∀ m pairs state, ∃ r, (g.handler m pairs state).1 = .ok r) (s₀ : σ)
    (es : List (Event Choice ClientAct))
    (htame : TameRun (SyncServer.registered strategy h) s₀ es) :
    let server := SyncServer.registered strategy h
    let cfg := serverRun server.requestHandler s₀ es
    ((∀ e, cfg.rest ≠ .raise e) ∧
      ∀ r, cfg.rest = .ret (.done r) → ∃ f ∈ cfg.world.own.faults, f.OfAcceptor) ∧
    (∀ k ∈ cfg.world.own.calls, ∃ g m r, server.Dispatches k.request g m ∧
      (g.handler m server.requestResponsePairs k.state).1 = .ok r ∧
      k.result = .ok (makePayloadFromProto r)) ∧
    ∀ sizes : ℕ → ℕ,
      (∀ n, TameRun server s₀ (es ++ turns (fun i => .transfer (sizes i)) n)) →
      (∀ f ∈ cfg.world.own.faults, ¬f.OfAcceptor) →
      ∃ n, let w := (serverRun server.requestHandler s₀
          (es ++ turns (fun i => .transfer (sizes i)) n)).world
        (w.backlog = [] ∨ ∃ c ∈ w.own.accepted, w.closed c = false) ∧
        ∀ c ∈ w.own.accepted, (∀ f ∈ w.own.faults, f.origin = .read c → f = .endOfStream c) →
          w.CaughtUp c := by
  intro server cfg
  have hanswers : ∀ payload state, server.Accepts payload →
      ∃ r, (server.requestHandler payload state).1 = .ok r := by
    rintro payload state ⟨g, m, hdispatches⟩
    obtain ⟨r, hr⟩ := returns_of_dispatches hreturns hdispatches server.requestResponsePairs state
    refine ⟨makePayloadFromProto r, ?_⟩
    rw [SyncServer.requestHandler_of_dispatches hdispatches, hr]
    rfl
  have hfaults := htame.faults hanswers
  have hsafe := serverRun_safe server.requestHandler s₀ es
  refine ⟨not_left_of_tame hsafe hfaults, fun k hk => ?_, fun sizes htames hacceptor => ?_⟩
  · obtain ⟨hinv, -⟩ := serverRun_inv server.requestHandler s₀ es
    have hresult := hinv.results k hk
    by_cases haccepts : server.Accepts k.request
    · obtain ⟨g, m, hdispatches⟩ := haccepts
      obtain ⟨r, hr⟩ :=
        returns_of_dispatches hreturns hdispatches server.requestResponsePairs k.state
      rw [SyncServer.requestHandler_of_dispatches hdispatches, hr] at hresult
      exact ⟨g, m, r, hdispatches, hr, hresult⟩
    · -- a rejected payload would have left a failure of the handler
      obtain ⟨what, hrejected⟩ : ∃ what, server.requestHandler k.request k.state =
          (.error (.runtimeError what), k.state) := by
        have hserver : server = _ := SyncServer.registered_eq strategy h
        rw [hserver] at haccepts ⊢
        exact SyncServer.requestHandler_of_not_accepts haccepts k.state
      rw [hrejected] at hresult
      cases hfaults _ (hinv.raised k hk _ hresult)
  · have hsettles : ∃ n, (serverKernel server.requestHandler).Waits
        (Flow.next SyncServer.startFrom) (.transfer (sizes n))
        ((serverKernel server.requestHandler).run (Flow.next SyncServer.startFrom) cfg
          (turns (fun i => .transfer (sizes i)) n)) :=
      (serverConsumes server.requestHandler s₀).settles hsafe fun _ => trivial
    obtain ⟨n, hwaits⟩ := hsettles
    rw [← serverRun_append] at hwaits
    refine ⟨n, caughtUp_of_waits (serverRun_safe server.requestHandler s₀ _)
      ((htames n).faults hanswers) ?_ hwaits⟩
    rw [serverRun_append]
    refine faults_run hacceptor fun before choice hbefore op k f _ harises => ?_
    have hsmooth := smooth_turns sizes n (.turn choice) (hbefore.subset (by simp))
    cases harises with
    | listen errno what => exact hsmooth.elim
    | accept errno what => exact hsmooth.elim
    | _ => simp [Fault.OfAcceptor, Fault.endOfStream]

end

namespace TestProto

/-- A client closes before its response is written, while another waits. -/
def closedRun : List (Event Choice ClientAct) :=
  [.act (.connect 0), .act (.send 0 (wire.frame greeting)), .act (.close 0), .act (.connect 1)] ++
    turns (fun _ => .transfer 100) 7 ++
    [.turn (.fail .brokenPipe (str "write_some: Broken pipe")), .turn (.transfer 0)]

/-- Either client takes the server down, though the acceptor has not failed, and the other is never
accepted. -/
theorem left_by_clients :
    (serverRun echoHandler () rejectedRun).rest.result?.map Except.isOk = some false ∧
    (∀ f ∈ (serverRun echoHandler () rejectedRun).world.own.faults, ¬f.OfAcceptor) ∧
    (serverRun echoHandler () rejectedRun).world.backlog = [1] ∧
    (serverRun echoHandler () closedRun).rest.result? =
      some (.ok (.done (.error ⟨.runtimeError, str "write_some: Broken pipe"⟩))) ∧
    (∀ f ∈ (serverRun echoHandler () closedRun).world.own.faults, ¬f.OfAcceptor) ∧
    (serverRun echoHandler () closedRun).world.backlog = [1] := by
  decide +kernel

theorem sent_greetedRun (n c : ℕ) :
    (serverRun echoHandler () (greetedRun ++ turns (fun _ => .transfer 1) n)).world.sent c =
      if c = 0 then wire.frames [greeting] else [] := by
  have hkept :
      (serverRun echoHandler () (greetedRun ++ turns (fun _ => .transfer 1) n)).world.sent =
        (serverRun echoHandler () greetedRun).world.sent := by
    rw [serverRun_append]
    exact Kernel.run_turns (fun hturn h => (sent_turn hturn).trans h) rfl _ n
  rw [hkept]
  rcases eq_or_ne c 0 with rfl | hne
  · rfl
  · simp [serverRun, greetedRun, Kernel.step, serverKernel, ClientAct.apply, World.init, World.sent,
      hne]

theorem tameRun_greetedRun (n : ℕ) :
    TameRun (SyncServer.registered .silentIgnore [echo]) ()
      (greetedRun ++ turns (fun _ => .transfer 1) n) := by
  refine tameRun_of_accepted (fun e he => ?_) fun c p hp => ?_
  · simp only [greetedRun, List.mem_append, List.mem_cons, List.not_mem_nil, or_false] at he
    rcases he with (rfl | rfl | rfl) | he
    · trivial
    · trivial
    · trivial
    · exact smooth_turns (fun _ => 1) n e he
  · rw [sent_greetedRun] at hp
    split_ifs at hp
    · rw [wire.deframe_frames (by decide)] at hp
      exact List.mem_singleton.mp hp ▸ accepts_greeting
    · rw [wire.deframe_of_incomplete wire.incomplete_nil] at hp
      cases hp

/-- Left to itself, the server answers the greeting and waits for the next client. -/
theorem serverRun_contained_greetedRun :
    ∃ n, let w := (serverRun echoHandler () (greetedRun ++ turns (fun _ => .transfer 1) n)).world
      (w.backlog = [] ∨ ∃ c ∈ w.own.accepted, w.closed c = false) ∧
      ∀ c ∈ w.own.accepted, (∀ f ∈ w.own.faults, f.origin = .read c → f = .endOfStream c) →
        w.CaughtUp c := by
  obtain ⟨-, -, hprogress⟩ := serverRun_contained .silentIgnore [echo]
    (fun g hg m pairs state => by
      obtain rfl := List.mem_singleton.mp hg
      exact ⟨m, rfl⟩) () greetedRun (by simpa [turns] using tameRun_greetedRun 0)
  exact hprogress (fun _ => 1) tameRun_greetedRun fun f hf => by cases hf

end TestProto

end InterProcessCourier
