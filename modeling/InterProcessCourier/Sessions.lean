import InterProcessCourier.ServerProgress

/-!
# Sessions

What the server does with the streams of its clients: over any run, with any failures and any order
of steps, each client's stream is handled from the front and answered from the front, one client
after another; and a session that is given a whole stream decodes it exactly.

## Main results

* `sessions_serialized` — every run of the server
* `session_decodes` — one session, for every stream and every way it is split into reads
-/

namespace InterProcessCourier

open Interaction

variable {σ : Type} (H : RequestHandler σ) (s₀ : σ)

/-! ### Any run -/

theorem serverRun_inv (es : List (Event Choice ClientAct)) :
    (serverRun H s₀ es).world.own.Inv H s₀ ∧ (serverRun H s₀ es).world.Shared :=
  (serverRun_safe H s₀ es).inv (serverRely_owns H s₀).toFits

/-- **Sessions are serialized and isolated.** At every moment of every run the invocations of the
request handler are one segment for each accepted client, in the order of acceptance; a client's
segment is a prefix of the whole frames it has sent, and what was written to it is a prefix of the
framed results of that segment. -/
theorem sessions_serialized (es : List (Event Choice ClientAct)) :
    let w := (serverRun H s₀ es).world
    w.own.accepted.Nodup ∧
    w.own.calls = w.own.accepted.flatMap w.own.callsOf ∧
    callAll (w.own.calls.map fun k => H k.request) s₀ = (w.own.calls.map Call.result, w.own.state) ∧
    ∀ c, w.own.requests c <+: (wire.deframe (w.sent c)).1 ∧
      w.own.written c <+: wire.frames (w.own.responses c) := by
  intro w
  obtain ⟨hinv, hshared⟩ := serverRun_inv H s₀ es
  refine ⟨hshared.nodup_accepted, hinv.grouped, hinv.threaded, fun c => ⟨?_, hinv.answered c⟩⟩
  exact wire.prefix_deframe (hinv.short c) ((hinv.framed c).trans (List.prefix_append _ _))

/-! ### One session -/

/-- A session about to start, with a client that has sent everything and closed. -/
def World.ofStream (state : σ) (c : ℕ) (stream : Bytes) : World σ where
  own := ({ state } : Own σ).accept c
  unread := Function.update (fun _ => []) c stream
  closed := Function.update (fun _ => false) c true

/-- `SyncUnixDomainSession::start` on a stream, after some events. -/
def sessionRun (c : ℕ) (stream : Bytes) (es : List (Event Choice ClientAct)) :
    Config serverSignature Exception (Flow Unit (UnixDomainServerResult Unit)) (World σ) :=
  (serverKernel H).run (Flow.next fun () => SyncUnixDomainSession.start c)
    ⟨.ret (.goto ()), .ofStream s₀ c stream⟩ es

/-- The postcondition of a pass through the loop of a session. -/
def sessionPost (c : ℕ) :
    Except Exception (Flow Unit (UnixDomainServerResult Unit)) → World σ → Prop :=
  Safe.blocksPost (fun () w => w.own.AtFrame c)
    (fun r w => match r with
      | .ok () => w.own.Healthy ∧ w.own.Idle
      | .error error => w.own.Reported error.message)
    fun e w => w.own.Escaped e

variable {H s₀} {c : ℕ}

theorem sessionSafe_run (cfg : Config serverSignature Exception
      (Flow Unit (UnixDomainServerResult Unit)) (World σ))
    (h : Safe (serverKernel H) (serverRely H s₀) (sessionPost c) cfg.rest cfg.world)
    (es : List (Event Choice ClientAct)) :
    Safe (serverKernel H) (serverRely H s₀) (sessionPost c)
      ((serverKernel H).run (Flow.next fun () => SyncUnixDomainSession.start c) cfg es).rest
      ((serverKernel H).run (Flow.next fun () => SyncUnixDomainSession.start c) cfg es).world := by
  refine Safe.run_blocks (serverRely_owns H s₀).toFits (fun l w hinv hw => ?_) h es
  refine ((triple_session hw) w hinv rfl).mono fun r w' _ hr => ?_
  match r with
  | .ok (.goto ()) => exact hr
  | .ok (.done (.ok ())) => exact hr
  | .ok (.done (.error error)) => exact hr
  | .error e => exact hr

/-- A session may start where its client is the only one the server has accepted. -/
theorem sessionSafe_of_accept {w : World σ} (haccept : w.own = ({ state := s₀ } : Own σ).accept c)
    (hshared : w.Shared) :
    Safe (serverKernel H) (serverRely H s₀) (sessionPost c) (.ret (.goto ())) w := by
  have hinit := Own.Inv.init H s₀
  have hown : w.own.Inv H s₀ := haccept ▸ hinit.accept (by simp)
  intro w' hw
  refine ⟨⟨hw.1 ▸ hown, hw.2 hshared⟩, ?_⟩
  change w'.own.AtFrame c
  rw [hw.1, haccept]
  exact Own.AtFrame.of_accept hinit nofun nofun (by simp)

theorem sessionSafe_init (stream : Bytes) :
    Safe (serverKernel H) (serverRely H s₀) (sessionPost c) (.ret (.goto ()))
      (.ofStream s₀ c stream) :=
  sessionSafe_of_accept rfl
    ⟨by simp [World.ofStream], fun d hd => by simp_all [World.ofStream], nofun⟩

/-- **Every run of a session is safe.** -/
theorem sessionRun_safe (H : RequestHandler σ) (s₀ : σ) (c : ℕ) (stream : Bytes)
    (es : List (Event Choice ClientAct)) :
    Safe (serverKernel H) (serverRely H s₀) (sessionPost c) (sessionRun H s₀ c stream es).rest
      (sessionRun H s₀ c stream es).world :=
  sessionSafe_run ⟨.ret (.goto ()), .ofStream s₀ c stream⟩ (sessionSafe_init stream) es

/-- A session asks for nothing that is not about its client. -/
theorem sessionRun_asks (H : RequestHandler σ) (s₀ : σ) (c : ℕ) (stream : Bytes)
    (es : List (Event Choice ClientAct)) :
    (sessionRun H s₀ c stream es).rest.Asks fun op => ServerOp.client? op = some c := by
  refine Kernel.run_asks (fun a p hp => ?_) ?_ es
  · cases a with
    | goto l => exact Option.some.inj hp ▸ SyncUnixDomainSession.start_asks c
    | done r => cases hp
  · trivial

/-- **A session uses up its stream**, or fails. -/
theorem sessionConsumes (H : RequestHandler σ) (s₀ : σ) (c : ℕ) :
    (serverKernel H).Consumes (Flow.next fun () => SyncUnixDomainSession.start c) (fun _ => True)
      (fun cfg => Safe (serverKernel H) (serverRely H s₀) (sessionPost c) cfg.rest cfg.world)
      World.pending where
  step {_ choice} h := sessionSafe_run _ h [.turn choice]
  le _ _ h := (turn_consumed h).pending_le
  lt {a w p} h hnext := by
    match a with
    | .done r => cases hnext
    | .goto () =>
      obtain rfl := Option.some.inj hnext
      have hinv : w.own.AtFrame c := h.post_ok (serverRely_owns H s₀).toFits
      obtain ⟨k, hk⟩ := SyncUnixDomainSession.start_head c
      exact ⟨.readSome c payloadLengthHeaderSize, k, hk, fun _ hp =>
        pending_lt_of_readSome (by decide) hinv.toServing hp⟩

/-- What one session of a single client has done when it has met the end of the stream. -/
theorem World.Drained.decodes {w : World σ} (h : w.Drained c) (hinv : w.own.Inv H s₀)
    (haccepted : w.own.accepted = [c]) :
    ∃ tail, wire.Reads (w.sent c) (w.own.calls.map Call.request) tail ∧
      callAll ((w.own.calls.map Call.request).map H) s₀ =
        ((w.own.responses c).map .ok, w.own.state) ∧
      w.own.written c = wire.frames (w.own.responses c) := by
  have hcalls : w.own.calls = w.own.callsOf c := by
    have := hinv.grouped
    rwa [haccepted, List.flatMap_singleton] at this
  obtain ⟨tail, htail, hconsumed⟩ := h.cut
  refine ⟨tail, ⟨?_, ?_, htail⟩, ?_, h.written⟩
  · rw [World.sent, h.unread, List.append_nil, hconsumed, hcalls]
    rfl
  · rw [hcalls]
    exact hinv.short c
  · rw [← Own.map_result_of_returned h.returned, ← hcalls, List.map_map]
    exact hinv.threaded

/-- What turns leave as it is in a world with one client, who has sent all and closed. -/
structure World.Replays (stream : Bytes) (c : ℕ) (w : World σ) : Prop where
  accepted : w.own.accepted = [c]
  backlog : w.backlog = []
  closed : w.closed c = true
  sent : w.sent c = stream

theorem World.Replays.turn {stream : Bytes} {w w' : World σ} (h : w.Replays stream c)
    {op : ServerOp} {choice : Choice} {r : Except Exception (serverSignature.Ans op)}
    (hturn : (serverKernel H).perform op choice w = some (r, w')) : w'.Replays stream c := by
  have hconsumed := turn_consumed hturn
  have hclients := hconsumed.clients
  have hbacklog : w'.backlog = [] := by simpa [h.backlog] using hconsumed.backlog
  rw [hbacklog, h.backlog, List.append_nil, List.append_nil, h.accepted] at hclients
  exact ⟨hclients, hbacklog, by rw [hconsumed.closed]; exact h.closed,
    by rw [sent_turn hturn]; exact h.sent⟩

/-- A session that has been left was ended by a failure: by a return that takes the client to have
disconnected exactly if the failure says so. -/
theorem session_left
    {cfg : Config serverSignature Exception (Flow Unit (UnixDomainServerResult Unit)) (World σ)}
    (haccepted : cfg.world.own.accepted = [c])
    (hsafe : Safe (serverKernel H) (serverRely H s₀) (sessionPost c) cfg.rest cfg.world)
    {outcome : Except Exception (UnixDomainServerResult Unit)}
    (houtcome : Flow.outcome? cfg.rest = some outcome) :
    ∃ f ∈ cfg.world.own.faults, (outcome = .ok (.ok ()) ↔ f.harmless = true) ∧
      (outcome = .ok (.ok ()) → f.origin.client? = some c) := by
  have hR := (serverRely_owns H s₀).toFits
  obtain ⟨rest, w⟩ := cfg
  match outcome with
  | .error e =>
    obtain rfl := Flow.outcome?_eq_error.mp houtcome
    obtain ⟨f, hdoomed, -⟩ : w.own.Escaped e := hsafe.post_error hR
    obtain ⟨-, -, -, hharmful⟩ := id hdoomed
    exact ⟨f, hdoomed.mem, by simp [hharmful], nofun⟩
  | .ok (.error error) =>
    obtain rfl := Flow.outcome?_eq_ok.mp houtcome
    obtain ⟨f, code, hdoomed, -⟩ : w.own.Reported error.message := hsafe.post_ok hR
    obtain ⟨-, -, -, hharmful⟩ := id hdoomed
    exact ⟨f, hdoomed.mem, by simp [hharmful], nofun⟩
  | .ok (.ok ()) =>
    obtain rfl := Flow.outcome?_eq_ok.mp houtcome
    obtain ⟨hhealthy, hidle⟩ : w.own.Healthy ∧ w.own.Idle := hsafe.post_ok hR
    obtain ⟨f, hf, hclient⟩ := hidle c (by simp [show w.own.accepted = [c] from haccepted])
    exact ⟨f, hf, by simp [hhealthy f hf], fun _ => hclient⟩

/-- A session waits only for bytes of a stream that is still open, unless it has been left. -/
theorem session_outcome {choice : Choice}
    {cfg : Config serverSignature Exception (Flow Unit (UnixDomainServerResult Unit)) (World σ)}
    (hclosed : cfg.world.closed c = true)
    (hasks : cfg.rest.Asks fun op => ServerOp.client? op = some c)
    (hwaits : (serverKernel H).Waits (Flow.next fun () => SyncUnixDomainSession.start c) choice
      cfg) :
    ∃ outcome, Flow.outcome? cfg.rest = some outcome := by
  obtain ⟨rest, w⟩ := cfg
  match rest with
  | .call op k =>
    rcases waits_cases hwaits with ⟨rfl, -⟩ | ⟨d, n, rfl, -, -, hopen⟩
    · cases hasks.1
    · obtain rfl : d = c := Option.some.inj hasks.1
      rw [hclosed] at hopen
      cases hopen
  | .ret (.goto ()) => cases hwaits
  | .raise e => exact ⟨_, rfl⟩
  | .ret (.done r) => exact ⟨_, rfl⟩

/-- A session that waits, with no failures but ends of streams, has met the end of its own. -/
theorem session_settled {stream : Bytes} {size : ℕ}
    {cfg : Config serverSignature Exception (Flow Unit (UnixDomainServerResult Unit)) (World σ)}
    (hkept : cfg.world.Replays stream c)
    (hends : ∀ f ∈ cfg.world.own.faults, ∃ d, f = .endOfStream d)
    (hasks : cfg.rest.Asks fun op => ServerOp.client? op = some c)
    (hsafe : Safe (serverKernel H) (serverRely H s₀) (sessionPost c) cfg.rest cfg.world)
    (hwaits : (serverKernel H).Waits (Flow.next fun () => SyncUnixDomainSession.start c)
      (.transfer size) cfg) :
    cfg.rest = .ret (.done (.ok ())) ∧ cfg.world.Drained c := by
  obtain ⟨outcome, houtcome⟩ := session_outcome hkept.closed hasks hwaits
  obtain ⟨f, hf, hiff, hclient⟩ := session_left hkept.accepted hsafe houtcome
  obtain ⟨d, rfl⟩ := hends f hf
  obtain rfl := hiff.mpr rfl
  obtain rfl : d = c := Option.some.inj (hclient rfl)
  exact ⟨Flow.outcome?_eq_ok.mp houtcome,
    (hsafe.inv (serverRely_owns H s₀).toFits).2.drained d hf⟩

/-- **A session decodes its stream exactly.** However the reads split it, the session ends, the
request handler was invoked on the messages of the stream, each once and in order, and the framed
responses were written. -/
theorem session_decodes (hreturns : ∀ p s, ∃ r, (H p s).1 = .ok r) (s₀ : σ) (c : ℕ)
    (stream : Bytes) (sizes : ℕ → ℕ) :
    ∃ ms tail rs n, wire.Reads stream ms tail ∧
      (∀ ms' tail', wire.Reads stream ms' tail' → ms' = ms ∧ tail' = tail) ∧
      let cfg := sessionRun H s₀ c stream (turns (fun i => .transfer (sizes i)) n)
      cfg.rest = .ret (.done (.ok ())) ∧
      cfg.world.own.calls.map Call.request = ms ∧
      callAll (ms.map H) s₀ = (rs.map .ok, cfg.world.own.state) ∧
      cfg.world.own.written c = wire.frames rs := by
  have hsettles : ∃ n, (serverKernel H).Waits (Flow.next fun () => SyncUnixDomainSession.start c)
      (.transfer (sizes n))
      (sessionRun H s₀ c stream (turns (fun i => .transfer (sizes i)) n)) :=
    (sessionConsumes H s₀ c).settles (sessionSafe_init stream) fun _ => trivial
  obtain ⟨n, hwaits⟩ := hsettles
  have hkept : (sessionRun H s₀ c stream
      (turns (fun i => .transfer (sizes i)) n)).world.Replays stream c :=
    Kernel.run_turns (fun hturn h => h.turn hturn)
      ⟨rfl, rfl, by simp [World.ofStream], by simp [World.ofStream, World.sent]⟩ _ n
  have hends : ∀ f ∈ (sessionRun H s₀ c stream
      (turns (fun i => .transfer (sizes i)) n)).world.own.faults, ∃ d, f = .endOfStream d :=
    endOfStream_of_smooth hreturns (fun f hf => by simp [World.ofStream] at hf)
      (smooth_turns sizes n)
  have hsafe := sessionRun_safe H s₀ c stream (turns (fun i => .transfer (sizes i)) n)
  obtain ⟨hdone, hdrained⟩ := session_settled hkept hends (sessionRun_asks ..) hsafe hwaits
  obtain ⟨tail, hreads, hcalls, hwritten⟩ :=
    hdrained.decodes (hsafe.inv (serverRely_owns H s₀).toFits).1 hkept.accepted
  rw [hkept.sent] at hreads
  exact ⟨_, tail, _, n, hreads, fun _ _ h => hreads.unique h, hdone, rfl, hcalls, hwritten⟩

/-- A handler that echoes, on a frame of two bytes, an empty frame and a cut header, read byte by
byte. -/
theorem session_decodes_echo :
    ∃ n, (sessionRun (fun p s => (.ok p, s)) () 0 [2, 0, 0, 0, 7, 8, 0, 0, 0, 0, 1]
      (turns (fun _ => .transfer 1) n)).world.own.written 0 = [2, 0, 0, 0, 7, 8, 0, 0, 0, 0] := by
  obtain ⟨ms, tail, rs, n, hreads, -, -, -, hrs, hwritten⟩ :=
    session_decodes (H := fun p s => (.ok p, s)) (fun p _ => ⟨p, rfl⟩) () 0
      [2, 0, 0, 0, 7, 8, 0, 0, 0, 0, 1] fun _ => 1
  have hms : ms = [[7, 8], []] :=
    (Framing.Format.Reads.unique ⟨rfl, by decide, by decide⟩ hreads).1
  subst hms
  have hechoed : [[7, 8], []].map Except.ok = rs.map (Except.ok : Bytes → Except Exception Bytes) :=
    congrArg Prod.fst hrs
  have hrs : rs = [[7, 8], []] :=
    (List.map_injective_iff.mpr (fun _ _ => Except.ok.inj) hechoed).symm
  exact ⟨n, by rw [hwritten, hrs]; rfl⟩

end InterProcessCourier
