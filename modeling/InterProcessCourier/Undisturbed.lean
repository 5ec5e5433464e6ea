import InterProcessCourier.Containment
import InterProcessCourier.Interaction.Fairness
import InterProcessCourier.Replies

/-!
# A client and a server left to themselves

Runs in which nothing fails, and nobody moves but one client and the server. If the server answers
every request it gets, such a run stays `Calm`: the server has met no failure, and every operation
of the client succeeds or waits.

## Main results

* `calm_run` — a run stays calm as long as the requests are answered
-/

namespace InterProcessCourier

open Interaction

variable {σ : Type} {H : RequestHandler σ} {s₀ : σ}

/-- Nothing fails at this event, and the client or the server moves. -/
inductive Undisturbed : Event Choice LinkAct → Prop
  | client (k : ℕ) : Undisturbed (.turn (.transfer k))
  | server (k : ℕ) : Undisturbed (.act (.server (.transfer k)))

/-- A read delivers all that it asks for. -/
def Io.Full : Io → Prop
  | connected _ => True
  | wrote _ => True
  | read n bs => bs.length = n
  | failed _ => True

instance : DecidablePred Io.Full
  | .connected _ => .isTrue trivial
  | .wrote _ => .isTrue trivial
  | .read n bs => inferInstanceAs (Decidable (bs.length = n))
  | .failed _ => .isTrue trivial

/-- Every read of a history delivered all that it asked for. -/
def Full (t : List Io) : Prop := ∀ io ∈ t, io.Full

instance (t : List Io) : Decidable (Full t) := inferInstanceAs (Decidable (∀ io ∈ t, io.Full))

theorem Full.mono {t t' : List Io} (h : Full t') (ht : t <+: t') : Full t := fun io hio =>
  h io (ht.subset hio)

/-- An operation that the socket's history permits. -/
def ClientOp.Ready : ClientOp → List Io → Prop
  | connect, t => connectionOf t = none
  | readSome _, t => (connectionOf t).isSome
  | writeSome _, t => (connectionOf t).isSome

namespace Link

variable {l l' : Link σ}

/-- The client and the server are alone, and the server has met no failure. -/
structure Calm (l : Link σ) : Prop where
  clients : l.server.world.own.accepted ++ l.server.world.backlog = (connectionOf l.trace).toList
  faults : l.server.world.own.faults = []
  path : l.server.world.own.path = true

/-- The request that is handled next will be answered. -/
def Answerable (H : RequestHandler σ) (l : Link σ) : Prop :=
  ∀ c p, connectionOf l.trace = some c →
    l.server.world.own.requests c ++ [p] <+: (wire.deframe (sentOf l.trace)).1 →
    ∃ r, (H p l.server.world.own.state).1 = .ok r

theorem Calm.connectionOf_of_mem (h : l.Calm) {c : ℕ} (hc : c ∈ l.server.world.own.accepted) :
    connectionOf l.trace = some c := by
  have hmem : c ∈ (connectionOf l.trace).toList := h.clients ▸ List.mem_append_left _ hc
  simpa using hmem

theorem step_send_clients (l : Link σ) (c : ℕ) (bs : Bytes) :
    (l.step H (.act (.send c bs))).server.world.own.accepted ++
      (l.step H (.act (.send c bs))).server.world.backlog =
        l.server.world.own.accepted ++ l.server.world.backlog := by
  change (ClientAct.apply _ _).own.accepted ++ (ClientAct.apply _ _).backlog = _
  rw [ClientAct.apply]
  split_ifs <;> rfl

theorem Calm.ended_eq_false (h : l.Calm) (c : ℕ) : l.ended c = false := by
  simp [ended, h.faults]

/-- The client is connected by `c`, and is the only one. -/
structure Alone (l : Link σ) (c : ℕ) : Prop where
  connected : connectionOf l.trace = some c
  clients : l.server.world.own.accepted ++ l.server.world.backlog = [c]

theorem Calm.alone (h : l.Calm) {c : ℕ} (hc : connectionOf l.trace = some c) : l.Alone c :=
  ⟨hc, by rw [h.clients, hc]; rfl⟩

theorem Alone.eq_of_mem {c d : ℕ} (h : l.Alone c) (hd : d ∈ l.server.world.own.accepted) :
    d = c := by
  have hmem : d ∈ [c] := h.clients ▸ List.mem_append_left _ hd
  exact List.mem_singleton.mp hmem

/-! ### One step -/

theorem Alone.serverTurn {c : ℕ} (h : l.Alone c) (k : ℕ) :
    (l.step H (.turn (.transfer k))).Alone c := by
  rcases (serverKernel H).step_turn (Flow.next SyncServer.startFrom) l.server (.transfer k) with
    hsame | ⟨op, rest, r, -, hturn⟩
  · have hworld : (l.step H (.turn (.transfer k))).server.world = l.server.world := hsame
    exact ⟨h.connected, hworld ▸ h.clients⟩
  · exact ⟨h.connected, (turn_consumed hturn).clients.trans h.clients⟩

theorem Alone.clientTurn {c : ℕ} (h : l.Alone c) {op : ClientOp} {choice : Choice}
    {r : Except Exception (clientSignature.Ans op)}
    (hturn : (linkKernel H).perform op choice l = some (r, l')) : l'.Alone c := by
  have hconnected : connectionOf l'.trace = some c := by
    obtain ⟨t, ht⟩ := trace_linkTurn hturn
    rw [← ht, connectionOf_append, h.connected]
    rfl
  refine ⟨hconnected, ?_⟩
  cases op with
  | connect =>
    rcases linkTurn_connect hturn with ⟨d, -, hnone, -⟩ | ⟨code, what, -, rfl⟩
    · rw [h.connected] at hnone
      cases hnone
    · exact h.clients
  | writeSome bs =>
    rcases linkTurn_writeSome hturn with ⟨k, d, -, -, rfl⟩ | ⟨code, what, -, rfl⟩
    · rw [log_server, step_send_clients]
      exact h.clients
    · exact h.clients
  | readSome n =>
    rcases linkTurn_readSome hturn with ⟨chunk, d, -, -, -, rfl⟩ | ⟨code, what, -, rfl⟩
    · exact h.clients
    · exact h.clients

/-- **A turn of the server.** -/
theorem Calm.serverTurn (h : l.Calm) (hinv : l.Inv H s₀) (hanswerable : l.Answerable H) (k : ℕ) :
    (l.step H (.turn (.transfer k))).Calm := by
  rcases (serverKernel H).step_turn (Flow.next SyncServer.startFrom) l.server (.transfer k) with
    hsame | ⟨op, rest, r, hrest, hturn⟩
  · have hworld : (l.step H (.turn (.transfer k))).server.world = l.server.world := hsame
    exact ⟨hworld ▸ h.clients, hworld ▸ h.faults, hworld ▸ h.path⟩
  · have hsafe := hinv.server
    rw [hrest] at hsafe
    have hpre : op.pre l.server.world.own := hsafe.pre (serverRely_owns H s₀).toFits
    obtain ⟨hown, -⟩ := hinv.own
    refine ⟨(turn_consumed hturn).clients.trans h.clients, ?_, (path_turn ?_ hturn).trans h.path⟩
    · refine List.eq_nil_iff_forall_not_mem.mpr fun f hf => ?_
      rcases arises_of_mem hturn hf with hold | harises
      · rw [h.faults] at hold
        cases hold
      · cases harises with
        | endOfStream d n k =>
          -- the client has not closed
          obtain ⟨-, hserving, -⟩ := hpre
          have hopened := (hinv.connected d (h.connectionOf_of_mem hserving.mem_accepted)).opened
          have hsame := faults_readSome hopened hturn
          exact (List.ne_nil_of_mem hf) (hsame.trans h.faults)
        | handler d p choice e he =>
          obtain ⟨hserving, -, hp, hconsumed⟩ := hpre
          have hc := h.connectionOf_of_mem hserving.mem_accepted
          have hsent : wire.frames (l.server.world.own.requests d ++ [p]) <+: sentOf l.trace := by
            rw [← (hinv.connected d hc).sent, wire.frames_concat, ← hconsumed]
            exact List.prefix_append _ _
          have hshort : ∀ q ∈ l.server.world.own.requests d ++ [p], q.length < wire.bound := by
            simpa [or_imp, forall_and] using ⟨hown.short d, hp⟩
          obtain ⟨r, hr⟩ := hanswerable d p hc (wire.prefix_deframe hshort hsent)
          rw [hr] at he
          cases he
    · rintro rfl
      obtain ⟨f, hdoomed, -⟩ := hpre
      have hf := hdoomed.mem
      rw [h.faults] at hf
      cases hf

/-- **A turn of the client.** What it asks for is done. -/
theorem Calm.clientTurn (h : l.Calm) {op : ClientOp} (hready : op.Ready l.trace) {k : ℕ}
    {r : Except Exception (clientSignature.Ans op)}
    (hturn : (linkKernel H).perform op (.transfer k) l = some (r, l')) :
    l'.Calm ∧ ∃ io, l'.trace = l.trace ++ [io] ∧ ∀ op', io ≠ .failed op' := by
  cases op with
  | connect =>
    have hnone : connectionOf l.trace = none := hready
    simp only [linkKernel, ClientOp.turn, hnone, h.path] at hturn
    obtain ⟨-, rfl⟩ := Prod.mk.inj (Option.some.inj hturn)
    have hworld : (l.step H (.act (.connect l.server.world.unused))).server.world =
        { l.server.world with backlog := l.server.world.backlog ++ [l.server.world.unused] } :=
      if_neg (World.unused_notMem _)
    have hclients := h.clients
    rw [hnone] at hclients
    refine ⟨⟨?_, ?_, ?_⟩, _, rfl, by simp⟩
    · simp [hworld, hnone, ← List.append_assoc, hclients]
    · simpa [hworld] using h.faults
    · simpa [hworld] using h.path
  | writeSome bs =>
    obtain ⟨c, hc⟩ := Option.isSome_iff_exists.mp hready
    simp only [linkKernel, ClientOp.turn, hc, h.ended_eq_false] at hturn
    obtain ⟨-, rfl⟩ := Prod.mk.inj (Option.some.inj hturn)
    refine ⟨?_, _, rfl, by simp⟩
    have hown : (l.step H (.act (.send c (bs.take (takeCount k bs).1)))).server.world.own =
        l.server.world.own := ClientAct.apply_own _ _
    refine ⟨?_, ?_, ?_⟩
    · rw [log_server, step_send_clients, h.clients]
      simp [hc]
    · rw [log_server, hown, h.faults]
    · rw [log_server, hown, h.path]
  | readSome n =>
    obtain ⟨c, hc⟩ := Option.isSome_iff_exists.mp hready
    simp only [linkKernel, ClientOp.turn, hc, h.ended_eq_false] at hturn
    split_ifs at hturn with huntaken hended
    · obtain ⟨-, rfl⟩ := Prod.mk.inj (Option.some.inj hturn)
      exact ⟨⟨by simpa [hc] using h.clients, h.faults, h.path⟩, _, rfl, by simp⟩
    · cases hended

end Link

section Run

variable [Protobuf]

/-- **A step.** -/
theorem calm_step {cfg : Config clientSignature Exception Session (Link σ)}
    (h : cfg.world.Calm) (hinv : cfg.world.Inv H s₀)
    (hready : ∀ op k, cfg.rest = .call op k → op.Ready cfg.world.trace)
    (hanswerable : cfg.world.Answerable H) {e : Event Choice LinkAct} (he : Undisturbed e) :
    ((linkKernel H).step Session.next cfg e).world.Calm ∧
      (((linkKernel H).step Session.next cfg e).world.trace = cfg.world.trace ∨
        ∃ io, ((linkKernel H).step Session.next cfg e).world.trace = cfg.world.trace ++ [io] ∧
          ∀ op, io ≠ .failed op) := by
  cases he with
  | server k => exact ⟨h.serverTurn hinv hanswerable k, .inl rfl⟩
  | client k =>
    rcases (linkKernel H).step_turn Session.next cfg (.transfer k) with
      hsame | ⟨op, rest, r, hrest, hturn⟩
    · rw [hsame]
      exact ⟨h, .inl rfl⟩
    · obtain ⟨hcalm, hio⟩ := h.clientTurn (hready op rest hrest) hturn
      exact ⟨hcalm, .inr hio⟩

/-! ### Runs -/

/-- An application that goes on from `start`, at a server. -/
def linkRun (H : RequestHandler σ) (start : Session) (l₀ : Link σ)
    (es : List (Event Choice LinkAct)) : Config clientSignature Exception Session (Link σ) :=
  (linkKernel H).run Session.next ⟨.ret start, l₀⟩ es

/-- A client at a server that was just started. -/
theorem clientRun_eq_linkRun (client : SyncClient) (calls : List ClientCall)
    (es : List (Event Choice LinkAct)) :
    clientRun H s₀ client calls es = linkRun H ⟨client, [], calls⟩ (.init s₀) es :=
  rfl

/-- A client goes on from between two calls. -/
theorem clientRun_append_eq_linkRun {client : SyncClient} {calls : List ClientCall}
    {session : Session} {es : List (Event Choice LinkAct)}
    (h : (clientRun H s₀ client calls es).rest = .ret session)
    (fs : List (Event Choice LinkAct)) : clientRun H s₀ client calls (es ++ fs) =
      linkRun H session (clientRun H s₀ client calls es).world fs := by
  rw [clientRun_append, linkRun, ← h]

variable {start : Session} {l₀ : Link σ}

theorem linkRun_concat (es : List (Event Choice LinkAct)) (e : Event Choice LinkAct) :
    linkRun H start l₀ (es ++ [e]) = (linkKernel H).step Session.next (linkRun H start l₀ es) e :=
  Kernel.run_append ..

variable [LawfulProtobuf]

/-- **Every run, at every moment.** -/
theorem linkRun_safe (start : Session) (hl₀ : l₀.Inv H s₀) (es : List (Event Choice LinkAct)) :
    Safe (linkKernel H) (linkRely H s₀ (start.Inside l₀.trace))
      (Safe.Post (fun session l => start.Since l₀.trace session l.trace) fun _ _ => False)
      (linkRun H start l₀ es).rest (linkRun H start l₀ es).world :=
  socketRun_since (linkSocket H s₀ (start.Inside l₀.trace)) hl₀ es

theorem linkRun_inv (start : Session) (hl₀ : l₀.Inv H s₀) (es : List (Event Choice LinkAct)) :
    (linkRun H start l₀ es).world.Inv H s₀ :=
  (linkRun_safe start hl₀ es).inv (linkRely_owns H s₀ _).toFits

theorem linkRun_since (hl₀ : l₀.Inv H s₀) {es : List (Event Choice LinkAct)} {session : Session}
    (h : (linkRun H start l₀ es).rest = .ret session) :
    start.Since l₀.trace session (linkRun H start l₀ es).world.trace := by
  have hsafe := linkRun_safe start hl₀ es
  rw [h] at hsafe
  exact hsafe.post_ok (linkRely_owns H s₀ _).toFits

theorem linkRun_inside (hl₀ : l₀.Inv H s₀) {es : List (Event Choice LinkAct)} {op : ClientOp} {k}
    (h : (linkRun H start l₀ es).rest = .call op k) :
    start.Inside l₀.trace op (linkRun H start l₀ es).world.trace := by
  have hsafe := linkRun_safe start hl₀ es
  rw [h] at hsafe
  exact hsafe.pre (linkRely_owns H s₀ _).toFits

theorem linkRun_ne_raise (start : Session) (hl₀ : l₀.Inv H s₀) (es : List (Event Choice LinkAct))
    (e : Exception) :
    (linkRun H start l₀ es).rest ≠ .raise e := by
  intro hrest
  have hsafe := linkRun_safe start hl₀ es
  rw [hrest] at hsafe
  exact hsafe.post_error (linkRely_owns H s₀ _).toFits

omit [LawfulProtobuf] in
theorem trace_linkRun (es fs : List (Event Choice LinkAct)) :
    (linkRun H start l₀ es).world.trace <+: (linkRun H start l₀ (es ++ fs)).world.trace := by
  rw [linkRun, linkRun, Kernel.run_append]
  refine Kernel.run_keeps (K := linkKernel H) (P := fun l : Link σ =>
    (linkRun H start l₀ es).world.trace <+: l.trace) ?_ ?_ List.prefix_rfl fs
  · exact fun hp h => h.trans (trace_linkTurn hp)
  · intro a l h
    rw [show (linkKernel H).act a l = a.apply H l from rfl, a.apply_trace]
    exact h

omit [LawfulProtobuf] in
/-- A thread that has made all its calls has done what it does. -/
theorem linkRun_returned {session : Session} {es : List (Event Choice LinkAct)}
    (hrest : (linkRun H start l₀ es).rest = .ret session) (htodo : session.todo = [])
    (fs : List (Event Choice LinkAct)) : (linkRun H start l₀ (es ++ fs)).rest = .ret session ∧
      (linkRun H start l₀ (es ++ fs)).world.trace = (linkRun H start l₀ es).world.trace := by
  induction fs using List.reverseRecOn with
  | nil => exact ⟨by rwa [List.append_nil], by rw [List.append_nil]⟩
  | append_singleton fs e ih =>
    obtain ⟨hrest', htrace⟩ := ih
    rw [← List.append_assoc, linkRun_concat, ← htrace]
    generalize linkRun H start l₀ (es ++ fs) = cfg at *
    cases e with
    | act a => exact ⟨hrest', a.apply_trace _⟩
    | turn c =>
      have hwaits : (linkKernel H).Waits Session.next c cfg := by
        rw [Kernel.Waits, hrest']
        simp [Session.next, htodo]
      rw [hwaits.step]
      exact ⟨hrest', rfl⟩

/-- This has happened since `l₀`, nothing was cut off, and all is calm. -/
structure Link.Standing (l₀ l : Link σ) (t : List Io) : Prop where
  trace : l.trace = l₀.trace ++ t
  whole : Whole t
  calm : l.Calm

/-- **A run stays calm until it escapes**, if every operation is ready and every request is answered
as long as it does. -/
theorem calm_until (hl₀ : l₀.Inv H s₀) (hcalm : l₀.Calm) {E : Link σ → Prop}
    {es : List (Event Choice LinkAct)} (hes : ∀ e ∈ es, Undisturbed e)
    (hfull : ∀ t, (linkRun H start l₀ es).world.trace = l₀.trace ++ t → Full t)
    (hready : ∀ before, before <+: es → ∀ t,
      l₀.Standing (linkRun H start l₀ before).world t →
      E (linkRun H start l₀ before).world ∨
      (∀ op k, (linkRun H start l₀ before).rest = .call op k → op.Ready (l₀.trace ++ t)) ∧
      (linkRun H start l₀ before).world.Answerable H) :
    (∃ t, l₀.Standing (linkRun H start l₀ es).world t) ∨
      ∃ before, before <+: es ∧ E (linkRun H start l₀ before).world := by
  induction es using List.reverseRecOn with
  | nil => exact .inl ⟨[], by simp [linkRun], .nil, hcalm⟩
  | append_singleton es e ih =>
    have hfull' : ∀ t, (linkRun H start l₀ es).world.trace = l₀.trace ++ t → Full t := by
      intro t ht
      have hgrows : (linkRun H start l₀ es).world.trace <+:
          (linkRun H start l₀ (es ++ [e])).world.trace := trace_linkRun es [e]
      obtain ⟨t', ht'⟩ := hgrows
      rw [ht, List.append_assoc] at ht'
      exact (hfull _ ht'.symm).mono (List.prefix_append _ _)
    have hkept : es <+: es ++ [e] := List.prefix_append _ _
    rcases ih (fun e' he' => hes e' (by simp [he'])) hfull'
      (fun before hbefore => hready before (hbefore.trans hkept)) with
      ⟨t, ht⟩ | ⟨before, hbefore, hescaped⟩
    · rcases hready es hkept t ht with hescaped | ⟨hops, hanswerable⟩
      · exact .inr ⟨es, hkept, hescaped⟩
      · left
        have hstep := calm_step ht.calm (linkRun_inv start hl₀ es)
          (fun op k hrest => by rw [ht.trace]; exact hops op k hrest) hanswerable (hes e (by simp))
        rw [← linkRun_concat, ht.trace] at hstep
        obtain ⟨hcalm', hsame | ⟨io, hio, hsucceeds⟩⟩ := hstep
        · exact ⟨t, hsame, ht.whole, hcalm'⟩
        · rw [List.append_assoc] at hio
          refine ⟨t ++ [io], hio, whole_append.mpr ⟨ht.whole, fun io' hio' => ?_⟩, hcalm'⟩
          obtain rfl := List.mem_singleton.mp hio'
          cases io' with
          | connected c => trivial
          | wrote bs => trivial
          | read n bs => exact hfull _ hio (.read n bs) (by simp)
          | failed op => exact hsucceeds op rfl
    · exact .inr ⟨before, hbefore.trans hkept, hescaped⟩

/-- **A run stays calm**, if every operation is ready and every request is answered as long as it
does. -/
theorem calm_run (hl₀ : l₀.Inv H s₀) (hcalm : l₀.Calm) {es : List (Event Choice LinkAct)}
    (hes : ∀ e ∈ es, Undisturbed e)
    (hfull : ∀ t, (linkRun H start l₀ es).world.trace = l₀.trace ++ t → Full t)
    (hready : ∀ before, before <+: es → ∀ t,
      l₀.Standing (linkRun H start l₀ before).world t →
      (∀ op k, (linkRun H start l₀ before).rest = .call op k → op.Ready (l₀.trace ++ t)) ∧
      (linkRun H start l₀ before).world.Answerable H) :
    ∃ t, l₀.Standing (linkRun H start l₀ es).world t := by
  have hcalmly := calm_until (E := fun _ => False) hl₀ hcalm hes hfull
    fun before hbefore t ht => .inr (hready before hbefore t ht)
  simpa using hcalmly

omit [LawfulProtobuf] in
/-- **A connected client and the server stay alone**, whatever becomes of the connection. -/
theorem linkRun_alone {c : ℕ} (h : l₀.Alone c) {es : List (Event Choice LinkAct)}
    (hes : ∀ e ∈ es, Undisturbed e) : (linkRun H start l₀ es).world.Alone c := by
  induction es using List.reverseRecOn with
  | nil => exact h
  | append_singleton es e ih =>
    have halone := ih fun e' he' => hes e' (by simp [he'])
    rw [linkRun_concat]
    cases hes e (by simp) with
    | server k => exact halone.serverTurn k
    | client k =>
      rcases (linkKernel H).step_turn Session.next (linkRun H start l₀ es) (.transfer k) with
        hsame | ⟨op, rest, r, -, hturn⟩
      · rw [hsame]
        exact halone
      · exact halone.clientTurn hturn

end Run

end InterProcessCourier
