import InterProcessCourier.Undisturbed

/-!
# Calls return

In a calm run in which both sides get their turns again and again, the calls of the client all
return. A client's calls are a finite program, so the client comes to wait for good; after that the
server uses up what has been sent, and comes to wait too; and where both wait, there is no call
left: a client that waits for a response has sent a request, and a server that waits has answered
every request.

## Main results

* `returns_of_waits` — client and server do not wait for each other
* `eventually_returns` — every fair, calm run brings the calls to their end
-/

namespace InterProcessCourier

open Interaction

/-- Nothing fails, and both sides get their turns again and again. -/
structure Fair (schedule : ℕ → Event Choice LinkAct) : Prop where
  undisturbed : ∀ n, Undisturbed (schedule n)
  client : ∀ n, ∃ m ≥ n, ∃ k, schedule m = .turn (.transfer k)
  server : ∀ n, ∃ m ≥ n, ∃ k, schedule m = .act (.server (.transfer k))

theorem Fair.undisturbed_upTo {schedule : ℕ → Event Choice LinkAct} (h : Fair schedule) (n : ℕ) :
    ∀ e ∈ upTo schedule n, Undisturbed e := by
  intro e he
  obtain ⟨i, rfl⟩ := mem_upTo he
  exact h.undisturbed i

section

variable {σ : Type} {H : RequestHandler σ} {s₀ : σ} {l : Link σ}

/-- Where the client waits: for bytes of a response. -/
theorem linkTurn_waits {op : ClientOp} {k : ℕ}
    (h : (linkKernel H).perform op (.transfer k) l = none) :
    ∃ n c, op = .readSome n ∧ connectionOf l.trace = some c ∧ 0 < n ∧ l.untaken c = [] := by
  cases op with
  | connect =>
    simp only [linkKernel, ClientOp.turn] at h
    split_ifs at h
  | writeSome bs =>
    simp only [linkKernel, ClientOp.turn] at h
    split at h
    · cases h
    · split_ifs at h
  | readSome n =>
    simp only [linkKernel, ClientOp.turn] at h
    split at h
    · cases h
    · next c hc =>
      split_ifs at h with huntaken hended
      push Not at huntaken
      exact ⟨n, c, rfl, hc, huntaken.1, huntaken.2⟩

/-- Where the server waits in a calm state, it has answered every request in full. -/
theorem Link.Calm.caughtUp (h : l.Calm) (hinv : l.Inv H s₀) {c : ℕ}
    (hc : connectionOf l.trace = some c) {k : ℕ}
    (hwaits : (serverKernel H).Waits (Flow.next SyncServer.startFrom) (.transfer k) l.server) :
    l.server.world.CaughtUp c ∧
      (l.server.world.own.responses c).length = (l.server.world.own.requests c).length := by
  obtain ⟨hown, -⟩ := hinv.own
  have hnone : ∀ f, f ∉ l.server.world.own.faults := by simp [h.faults]
  obtain ⟨hbacklog, hcaughtUp⟩ := caughtUp_of_waits hinv.server
    (fun f hf => absurd hf (hnone f)) (fun f hf => absurd hf (hnone f)) hwaits
  have hclients := h.clients
  rw [hc] at hclients
  have haccepted : c ∈ l.server.world.own.accepted := by
    rcases hbacklog with hbacklog | ⟨d, hd, -⟩
    · rw [hbacklog, List.append_nil] at hclients
      simp [hclients]
    · obtain rfl : c = d := Option.some.inj (hc.symm.trans (h.connectionOf_of_mem hd))
      exact hd
  refine ⟨hcaughtUp c haccepted fun f hf => absurd hf (hnone f), ?_⟩
  have hreturned : ∀ k ∈ l.server.world.own.callsOf c, ∃ r, k.result = .ok r := by
    intro k hk
    cases hresult : k.result with
    | ok r => exact ⟨r, rfl⟩
    | error e => exact absurd (hown.raised k (List.mem_of_mem_filter hk) e hresult) (hnone _)
  have hresults := congrArg List.length (Own.map_result_of_returned hreturned)
  simpa [Own.requests] using hresults.symm

end

section

variable [Protobuf]

/-- An application makes finitely many calls, and each is a finite program. -/
theorem Session.halting (session : Session) : Halting Session.next (.ret session) := by
  obtain ⟨client, outcomes, todo⟩ := session
  induction todo generalizing client outcomes with
  | nil => exact halting_ret nofun
  | cons call todo ih =>
    refine halting_ret fun p hp => ?_
    obtain rfl := Option.some.inj hp
    exact halting_bind _ fun r => ih _ _

variable {σ : Type} {H : RequestHandler σ} {s₀ : σ} {start : Session} {l₀ : Link σ}

/-- After its last call a thread reads nothing. -/
theorem full_of_returned {schedule : ℕ → Event Choice LinkAct} {m : ℕ} {session : Session}
    (hrest : (linkRun H start l₀ (upTo schedule m)).rest = .ret session) (htodo : session.todo = [])
    (hfull : Full (linkRun H start l₀ (upTo schedule m)).world.trace) (n : ℕ) :
    Full (linkRun H start l₀ (upTo schedule n)).world.trace := by
  rcases Nat.le_total n m with hn | hn
  · obtain ⟨i, rfl⟩ := Nat.exists_eq_add_of_le hn
    rw [upTo_add] at hfull
    exact hfull.mono (trace_linkRun _ _)
  · obtain ⟨i, rfl⟩ := Nat.exists_eq_add_of_le hn
    rw [upTo_add, (linkRun_returned hrest htodo _).2]
    exact hfull

variable [LawfulProtobuf]

/-- **Client and server do not wait for each other.** -/
theorem returns_of_waits (hl₀ : l₀.Inv H s₀)
    (hshort : ∀ {o : Own σ}, o.Inv H s₀ → ∀ c, ∀ r ∈ o.responses c, r.length < 2 ^ 32)
    {xs₀ : List (Bytes × Bytes)} (hxs₀ : Streams xs₀ l₀.trace) {es : List (Event Choice LinkAct)}
    {t : List Io} (hstanding : l₀.Standing (linkRun H start l₀ es).world t) {k k' : ℕ}
    (hclient : (linkKernel H).Waits Session.next (.transfer k) (linkRun H start l₀ es))
    (hserver : (serverKernel H).Waits (Flow.next SyncServer.startFrom) (.transfer k')
      (linkRun H start l₀ es).world.server) :
    ∃ session, (linkRun H start l₀ es).rest = .ret session ∧ session.todo = [] := by
  have hinv := linkRun_inv start hl₀ es
  have hinside : ∀ op k, (linkRun H start l₀ es).rest = .call op k →
      start.Inside l₀.trace op (linkRun H start l₀ es).world.trace := fun op k => linkRun_inside hl₀
  have hraise := linkRun_ne_raise start hl₀ es
  generalize linkRun H start l₀ es = cfg at *
  obtain ⟨p, l⟩ := cfg
  cases p with
  | raise e => exact absurd rfl (hraise e)
  | ret session =>
    refine ⟨session, rfl, ?_⟩
    cases htodo : session.todo with
    | nil => rfl
    | cons call todo =>
      have hnext : session.next = none := hclient
      simp [Session.next, htodo] at hnext
  | call op rest =>
    exfalso
    obtain ⟨n, c, rfl, hc, hn, huntaken⟩ := linkTurn_waits hclient
    obtain ⟨session, call, todo, t₁, t₂, hsince, -, hwithin, htrace⟩ := hinside _ rest rfl
    obtain ⟨os, t', -, rfl, hperformed, -⟩ := hsince.performed
    obtain ⟨payload, t₃, hpayload, hmidway, hsent₂, htaken₂⟩ := hwithin.midway (by simp)
    -- the streams: one request more than there are responses
    have hwhole := hstanding.whole
    obtain rfl : t = t' ++ t₂ := by
      have hsame := hstanding.trace.symm.trans htrace
      rw [List.append_assoc] at hsame
      exact List.append_cancel_left hsame
    obtain ⟨xs, -, hstreams⟩ := hperformed.replies hwhole.left
    have hall := hxs₀.append hstreams
    have hpayloads : ∀ p ∈ (xs₀ ++ xs).map Prod.fst ++ [payload], p.length < wire.bound := by
      intro p hp
      rcases List.mem_append.mp hp with hp | hp
      · exact hall.short_fst p hp
      · exact List.mem_singleton.mp hp ▸ hpayload
    -- and the server has answered them all
    obtain ⟨hcaughtUp, hlength⟩ := hstanding.calm.caughtUp hinv hc hserver
    have hrequests : l.server.world.own.requests c = (xs₀ ++ xs).map Prod.fst ++ [payload] := by
      rw [hcaughtUp.requests, (hinv.connected c hc).sent, htrace, sentOf_append, hall.sent, hsent₂,
        hmidway.reading, ← wire.frames_concat, wire.deframe_frames hpayloads]
    have hwritten : takenOf l.trace = l.server.world.own.written c := by
      refine (hinv.connected c hc).taken.eq_of_length_le ?_
      exact List.drop_eq_nil_iff.mp huntaken
    have hreads : wire.Reads (takenOf l.trace) ((xs₀ ++ xs).map Prod.snd) (takenOf t₃) :=
      ⟨by rw [htrace, takenOf_append, hall.taken, htaken₂], hall.short_snd, hmidway.incomplete hn⟩
    have hresponses : wire.Reads (takenOf l.trace) (l.server.world.own.responses c) [] :=
      ⟨by rw [hwritten, hcaughtUp.written, List.append_nil], hshort hinv.own.1 c,
        wire.incomplete_nil⟩
    rw [(hreads.unique hresponses).1, hrequests] at hlength
    simp at hlength

/-- **The calls return.** -/
theorem eventually_returns (hl₀ : l₀.Inv H s₀)
    (hshort : ∀ {o : Own σ}, o.Inv H s₀ → ∀ c, ∀ r ∈ o.responses c, r.length < 2 ^ 32)
    {xs₀ : List (Bytes × Bytes)} (hxs₀ : Streams xs₀ l₀.trace)
    {schedule : ℕ → Event Choice LinkAct} (hfair : Fair schedule)
    (hstanding : ∀ n, ∃ t, l₀.Standing (linkRun H start l₀ (upTo schedule n)).world t) :
    ∃ N, ∀ n ≥ N, ∃ session, (linkRun H start l₀ (upTo schedule n)).rest = .ret session ∧
      session.todo = [] := by
  -- the client comes to wait for good
  obtain ⟨N₁, hclient⟩ := (Session.halting start).eventually_waits (K := linkKernel H) l₀ schedule
  set cfg := fun n => linkRun H start l₀ (upTo schedule n) with hcfg
  have hstep : ∀ n, cfg (n + 1) = (linkKernel H).step Session.next (cfg n) (schedule n) := fun n =>
    Kernel.run_upTo_succ ..
  have hkeeps : ∀ n ≥ N₁, ∀ k, schedule n = .turn (.transfer k) → cfg (n + 1) = cfg n := by
    intro n hn k hk
    rw [hstep, hk]
    exact Kernel.Waits.step (hclient n hn _ hk)
  -- and then the server does
  have hmoves : ∀ n ≥ N₁, (∃ k, schedule n = .act (.server (.transfer k)) ∧
      ¬(serverKernel H).Waits (Flow.next SyncServer.startFrom) (.transfer k) (cfg n).world.server) →
      (serverKernel H).Turns (Flow.next SyncServer.startFrom) Transfers (cfg (n + 1)).world.server
        (cfg n).world.server := by
    rintro n - ⟨k, hk, hmoves⟩
    rw [hstep, hk]
    exact ⟨.transfer k, trivial, hmoves, rfl⟩
  have hstill : ∀ n ≥ N₁, (¬∃ k, schedule n = .act (.server (.transfer k)) ∧
      ¬(serverKernel H).Waits (Flow.next SyncServer.startFrom) (.transfer k)
        (cfg n).world.server) → cfg (n + 1) = cfg n := by
    intro n hn hstays
    generalize he : schedule n = e at hstays
    cases he ▸ hfair.undisturbed n with
    | client k => exact hkeeps n hn k he
    | server k =>
      have hwaits := not_not.mp fun hmoves => hstays ⟨k, rfl, hmoves⟩
      rw [hstep, he]
      change (⟨(cfg n).rest, (cfg n).world.step H (.turn (.transfer k))⟩ : Config _ _ _ _) = cfg n
      rw [Link.step, hwaits.step]
  obtain ⟨N₂, hN₂, hserver⟩ := eventually_still (x := fun n => (cfg n).world.server) hmoves
    (fun n hn hstays => by rw [hstill n hn hstays])
    ((serverConsumes H s₀).acc (linkRun_inv start hl₀ (upTo schedule N₁)).server)
  have hsame : ∀ n ≥ N₂, cfg n = cfg N₂ := by
    intro n hn
    induction n, hn using Nat.le_induction with
    | base => rfl
    | succ n hn ih => rw [hstill n (by omega) (hserver n hn), ih]
  obtain ⟨m, hm, k, hk⟩ := hfair.client N₂
  obtain ⟨m', hm', k', hk'⟩ := hfair.server N₂
  have hclientWaits := hclient m (by omega) _ hk
  have hserverWaits := not_not.mp fun hmoves => hserver m' hm' ⟨k', hk', hmoves⟩
  change (linkKernel H).Waits Session.next (.transfer k) (cfg m) at hclientWaits
  rw [hsame m hm] at hclientWaits
  rw [hsame m' hm'] at hserverWaits
  obtain ⟨t, ht⟩ := hstanding N₂
  refine ⟨N₂, fun n hn => ?_⟩
  change ∃ session, (cfg n).rest = .ret session ∧ session.todo = []
  rw [hsame n hn]
  exact returns_of_waits hl₀ hshort hxs₀ ht hclientWaits hserverWaits

end

end InterProcessCourier
