import InterProcessCourier.Interaction.Progress
import InterProcessCourier.ServerSafety
import Mathlib.Algebra.Order.BigOperators.Group.List
import Mathlib.Data.List.Induction

/-!
# The server comes to wait

While the clients keep still and no system call fails, every turn of the server is taken from a
finite stock: bytes that were sent and not read, ends of streams not met, connections not accepted.
`World.pending` counts it. The loops take from the stock at every pass, so the server comes to wait,
and it waits in one of two places: for a connection, with none in the backlog, or for bytes of an
open connection that it has read to the last.

## Main results

* `Arises` — the failure a turn can add, with its cause
* `serverConsumes` — the loops use up `World.pending`
* `waits_cases` — where the server waits
-/

namespace InterProcessCourier

open Interaction

variable {σ : Type} {H : RequestHandler σ} {w w' : World σ} {choice : Choice}

/-! ### Causes of failures -/

/-- What a turn at an operation can add to the failures. -/
inductive Arises (H : RequestHandler σ) (w : World σ) : ServerOp → Choice → Fault → Prop
  | listen (errno : Errno) (what : Bytes) :
    Arises H w .listen (.fail errno what) ⟨.listen, systemFailure errno what⟩
  | accept (errno : Errno) (what : Bytes) :
    Arises H w .accept (.fail errno what) ⟨.accept, systemFailure errno what⟩
  | read (c n : ℕ) (errno : Errno) (what : Bytes) :
    Arises H w (.readSome c n) (.fail errno what) ⟨.read c, systemFailure errno what⟩
  | endOfStream (c n k : ℕ) : Arises H w (.readSome c n) (.transfer k) (.endOfStream c)
  | write (c : ℕ) (bs : Bytes) (errno : Errno) (what : Bytes) :
    Arises H w (.writeSome c bs) (.fail errno what) ⟨.write c, systemFailure errno what⟩
  | handler (c : ℕ) (p : Bytes) (choice : Choice) (e : Exception)
    (h : (H p w.own.state).1 = .error e) : Arises H w (.handleRequest c p) choice ⟨.handler c, e⟩

theorem Arises.client? {op : ServerOp} {f : Fault} (h : Arises H w op choice f) :
    f.origin.client? = op.client? := by
  cases h <;> rfl

/-- A turn adds one failure at most. -/
theorem Arises.unique {op : ServerOp} {f g : Fault} (hf : Arises H w op choice f)
    (hg : Arises H w op choice g) : g = f := by
  cases hf with
  | handler c p choice e he =>
    cases hg with
    | handler _ _ _ e' he' => rw [Except.error.inj (he.symm.trans he')]
  | listen errno what => cases hg; rfl
  | accept errno what => cases hg; rfl
  | read c n errno what => cases hg; rfl
  | endOfStream c n k => cases hg; rfl
  | write c bs errno what => cases hg; rfl

/-- A turn adds no failure but one that arises. -/
theorem arises_of_mem {op : ServerOp} {r : Except Exception (serverSignature.Ans op)}
    (h : (serverKernel H).perform op choice w = some (r, w')) {f : Fault}
    (hf : f ∈ w'.own.faults) : f ∈ w.own.faults ∨ Arises H w op choice f := by
  have hfault : ∀ {g : Fault}, w.fault g = w' → Arises H w op choice g →
      f ∈ w.own.faults ∨ Arises H w op choice f := by
    rintro g rfl hg
    rcases World.mem_fault_faults.mp hf with hf | rfl
    · exact .inl hf
    · exact .inr hg
  cases op with
  | listen =>
    cases choice with
    | fail errno what => exact hfault (Prod.mk.inj (Option.some.inj h)).2 (.listen errno what)
    | transfer k => exact .inl ((Prod.mk.inj (Option.some.inj h)).2 ▸ hf)
  | accept =>
    cases choice with
    | fail errno what => exact hfault (Prod.mk.inj (Option.some.inj h)).2 (.accept errno what)
    | transfer k =>
      simp only [serverKernel, ServerOp.turn] at h
      split at h
      · cases h
      · obtain ⟨-, rfl⟩ := Prod.mk.inj (Option.some.inj h)
        exact .inl hf
  | readSome c n =>
    cases choice with
    | fail errno what => exact hfault (Prod.mk.inj (Option.some.inj h)).2 (.read c n errno what)
    | transfer k =>
      simp only [serverKernel, ServerOp.turn] at h
      split_ifs at h
      · obtain ⟨-, rfl⟩ := Prod.mk.inj (Option.some.inj h)
        exact .inl hf
      · exact hfault (Prod.mk.inj (Option.some.inj h)).2 (.endOfStream c n k)
  | writeSome c bs =>
    cases choice with
    | fail errno what => exact hfault (Prod.mk.inj (Option.some.inj h)).2 (.write c bs errno what)
    | transfer k =>
      obtain ⟨-, rfl⟩ := Prod.mk.inj (Option.some.inj h)
      exact .inl hf
  | handleRequest c p =>
    obtain ⟨-, rfl⟩ := turn_handleRequest h
    rcases (Own.mem_call_faults ..).mp hf with hf | ⟨e, he, rfl⟩
    · exact .inl hf
    · exact .inr (.handler c p choice e he)
  | unlink =>
    obtain ⟨-, rfl⟩ := turn_unlink h
    exact .inl hf

/-- A read from a client that has not closed adds no failure. -/
theorem faults_readSome {c n k : ℕ} {r : Except Exception (Chunk n)} (hopen : w.closed c = false)
    (h : (serverKernel H).perform (.readSome c n) (.transfer k) w = some (r, w')) :
    w'.own.faults = w.own.faults := by
  simp only [serverKernel, ServerOp.turn] at h
  split_ifs at h with hunread hclosed
  · obtain ⟨-, rfl⟩ := Prod.mk.inj (Option.some.inj h)
    rfl
  · rw [hopen] at hclosed
    cases hclosed

/-! ### Runs without system failures -/

/-- No system call fails at this event. -/
def Smooth {A : Type} : Event Choice A → Prop
  | .turn (.transfer _) => True
  | .turn (.fail _ _) => False
  | .act _ => True

theorem smooth_turns {A : Type} (sizes : ℕ → ℕ) (n : ℕ) :
    ∀ e ∈ (turns (fun i => .transfer (sizes i)) n : List (Event Choice A)), Smooth e := by
  intro e he
  obtain ⟨i, -, rfl⟩ := List.mem_map.mp he
  trivial

/-- An event of any run of the server. -/
theorem faults_step {α : Type} {next : α → Option (ServerCode α)}
    {cfg : Config serverSignature Exception α (World σ)} {e : Event Choice ClientAct} {f : Fault}
    (hf : f ∈ ((serverKernel H).step next cfg e).world.own.faults) :
    f ∈ cfg.world.own.faults ∨ ∃ op k choice, cfg.rest = .call op k ∧ e = .turn choice ∧
      Arises H cfg.world op choice f := by
  cases e with
  | act a => exact .inl (by simpa [Kernel.step, serverKernel, a.apply_own] using hf)
  | turn choice =>
    rcases (serverKernel H).step_turn next cfg choice with hsame | ⟨op, k, r, hrest, hp⟩
    · exact .inl (by rwa [hsame] at hf)
    · exact (arises_of_mem hp hf).imp_right fun h => ⟨op, k, choice, hrest, rfl, h⟩

/-- **The failures of a run.** What holds of those it starts with, and of every one that arises,
holds of all. -/
theorem faults_run {α : Type} {next : α → Option (ServerCode α)} {P : Fault → Prop}
    {cfg : Config serverSignature Exception α (World σ)} (hcfg : ∀ f ∈ cfg.world.own.faults, P f)
    {es : List (Event Choice ClientAct)}
    (hes : ∀ before choice, before ++ [.turn choice] <+: es → ∀ op k f,
      ((serverKernel H).run next cfg before).rest = .call op k →
      Arises H ((serverKernel H).run next cfg before).world op choice f → P f) :
    ∀ f ∈ ((serverKernel H).run next cfg es).world.own.faults, P f := by
  induction es using List.reverseRecOn with
  | nil => exact hcfg
  | append_singleton es e ih =>
    intro f hf
    rw [Kernel.run_append] at hf
    rcases faults_step hf with hf | ⟨op, k, choice, hrest, rfl, harises⟩
    · exact ih (fun before choice h => hes before choice (h.trans (List.prefix_append es [e]))) f hf
    · exact hes es choice List.prefix_rfl op k f hrest harises

/-- Without system failures, and with a request handler that returns, the only failures are the ends
of streams. -/
theorem endOfStream_of_smooth {α : Type} {next : α → Option (ServerCode α)}
    (hreturns : ∀ p s, ∃ r, (H p s).1 = .ok r)
    {cfg : Config serverSignature Exception α (World σ)}
    (hcfg : ∀ f ∈ cfg.world.own.faults, ∃ c, f = .endOfStream c)
    {es : List (Event Choice ClientAct)} (hes : ∀ e ∈ es, Smooth e) :
    ∀ f ∈ ((serverKernel H).run next cfg es).world.own.faults, ∃ c, f = .endOfStream c := by
  refine faults_run hcfg fun before choice hbefore op k f _ harises => ?_
  have hsmooth := hes (.turn choice) (hbefore.subset (by simp))
  cases harises with
  | endOfStream c n k => exact ⟨c, rfl⟩
  | handler c p choice e h =>
    obtain ⟨r, hr⟩ := hreturns p ((serverKernel H).run next cfg before).world.own.state
    rw [hr] at h
    cases h
  | _ => exact hsmooth.elim

/-! ### The stock -/

/-- What a turn leaves of what there was. -/
structure World.Consumed (w w' : World σ) : Prop where
  accepted : w.own.accepted <+: w'.own.accepted
  clients : w'.own.accepted ++ w'.backlog = w.own.accepted ++ w.backlog
  backlog : w'.backlog.length ≤ w.backlog.length
  faults : ∀ f ∈ w.own.faults, f ∈ w'.own.faults
  unread : ∀ c, (w'.unread c).length ≤ (w.unread c).length
  written : ∀ c, w.own.written c <+: w'.own.written c
  calls : w.own.calls <+: w'.own.calls
  closed : w'.closed = w.closed

theorem World.Consumed.refl (w : World σ) : w.Consumed w :=
  ⟨List.prefix_rfl, rfl, le_rfl, fun _ => id, fun _ => le_rfl, fun _ => List.prefix_rfl,
    List.prefix_rfl, rfl⟩

theorem turn_consumed {op : ServerOp} {r : Except Exception (serverSignature.Ans op)}
    (h : (serverKernel H).perform op choice w = some (r, w')) : w.Consumed w' := by
  have hfault : ∀ f : Fault, w.Consumed (w.fault f) := fun f =>
    { World.Consumed.refl w with
      faults := fun g hg => World.mem_fault_faults.mpr (.inl hg) }
  match op with
  | .listen =>
    rcases turn_listen h with ⟨-, rfl⟩ | ⟨errno, what, -, rfl⟩
    · exact .refl w'
    · exact hfault _
  | .accept =>
    rcases turn_accept h with ⟨client, rest, -, hbacklog, rfl⟩ | ⟨errno, what, -, rfl⟩
    · exact { World.Consumed.refl w with
        accepted := List.prefix_append _ _
        clients := by simp [World.withOwn, hbacklog]
        backlog := by simp [hbacklog] }
    · exact hfault _
  | .readSome client n =>
    rcases turn_readSome h with ⟨chunk, rest, -, hunread, rfl⟩ | ⟨-, -, -, rfl⟩ |
      ⟨errno, what, -, rfl⟩
    · refine { World.Consumed.refl w with unread := fun d => ?_ }
      rcases eq_or_ne d client with rfl | hd
      · simp [World.deliver, hunread]
      · simp [World.deliver, hd]
    · exact hfault _
    · exact hfault _
  | .writeSome client bs =>
    rcases turn_writeSome h with ⟨k, -, rfl⟩ | ⟨errno, what, -, rfl⟩
    · refine { World.Consumed.refl w with written := fun d => ?_ }
      rcases eq_or_ne d client with rfl | hd
      · simp [World.withOwn]
      · simp [World.withOwn, Own.emit_written_of_ne _ _ _ _ hd]
    · exact hfault _
  | .handleRequest client p =>
    obtain ⟨-, rfl⟩ := turn_handleRequest h
    exact { World.Consumed.refl w with
      accepted := by simp [World.withOwn]
      clients := by simp [World.withOwn]
      faults := fun f hf => (Own.mem_call_faults ..).mpr (.inl hf)
      written := fun d => by simp [World.withOwn]
      calls := by simp [World.withOwn] }
  | .unlink =>
    obtain ⟨-, rfl⟩ := turn_unlink h
    exact { World.Consumed.refl w with }

/-- What the server can still take from a connection: its unread bytes, and the end of its
stream. -/
def World.due (w : World σ) (c : ℕ) : ℕ :=
  if ∃ f ∈ w.own.faults, f.origin.client? = some c then 0 else (w.unread c).length + 1

theorem World.due_of_failed {c : ℕ} {f : Fault} (hf : f ∈ w.own.faults)
    (hc : f.origin.client? = some c) : w.due c = 0 := if_pos ⟨f, hf, hc⟩

theorem World.due_of_clean {c : ℕ} (h : ∀ f ∈ w.own.faults, f.origin.client? ≠ some c) :
    w.due c = (w.unread c).length + 1 := if_neg fun ⟨f, hf, hc⟩ => h f hf hc

/-- All that the server can still take. -/
def World.pending (w : World σ) : ℕ :=
  ((w.own.accepted ++ w.backlog).map w.due).sum + w.backlog.length

namespace World.Consumed

variable (h : w.Consumed w')

include h

theorem due_le (c : ℕ) : w'.due c ≤ w.due c := by
  by_cases hfailed : ∃ f ∈ w'.own.faults, f.origin.client? = some c
  · obtain ⟨f, hf, hc⟩ := hfailed
    rw [World.due_of_failed hf hc]
    exact Nat.zero_le _
  · push Not at hfailed
    rw [World.due_of_clean hfailed, World.due_of_clean fun f hf => hfailed f (h.faults f hf)]
    exact Nat.add_le_add_right (h.unread c) 1

theorem sum_due_le : ((w'.own.accepted ++ w'.backlog).map w'.due).sum ≤
    ((w.own.accepted ++ w.backlog).map w.due).sum := by
  rw [h.clients]
  exact List.sum_le_sum fun c _ => h.due_le c

theorem pending_le : w'.pending ≤ w.pending := Nat.add_le_add h.sum_due_le h.backlog

theorem pending_lt_of_due {c : ℕ} (hc : c ∈ w.own.accepted ++ w.backlog)
    (hlt : w'.due c < w.due c) : w'.pending < w.pending := by
  refine Nat.add_lt_add_of_lt_of_le ?_ h.backlog
  rw [h.clients]
  exact List.sum_lt_sum _ _ (fun d _ => h.due_le d) ⟨c, hc, hlt⟩

theorem pending_lt_of_backlog (hlt : w'.backlog.length < w.backlog.length) :
    w'.pending < w.pending :=
  Nat.add_lt_add_of_le_of_lt h.sum_due_le hlt

end World.Consumed

/-- The session in progress takes bytes, or meets the end. -/
theorem pending_lt_of_readSome {c n : ℕ} {r : Except Exception (Chunk n)} (hn : 0 < n)
    (hserving : Own.Serving c w.own)
    (h : (serverKernel H).perform (.readSome c n) choice w = some (r, w')) :
    w'.pending < w.pending := by
  refine (turn_consumed h).pending_lt_of_due (List.mem_append_left _ hserving.mem_accepted) ?_
  rw [World.due_of_clean hserving.clean]
  have hfailed : ∀ f : Fault, f.origin.client? = some c → (w.fault f).due c = 0 := fun f hf =>
    World.due_of_failed (World.mem_fault_faults.mpr (.inr rfl)) hf
  rcases turn_readSome h with ⟨chunk, rest, -, hunread, rfl⟩ | ⟨-, -, -, rfl⟩ |
    ⟨errno, what, -, rfl⟩
  · have hpos := List.length_pos_iff.mpr (chunk.2.2 hn)
    have hdue : (w.deliver c chunk.1 rest).due c = rest.length + 1 :=
      (World.due_of_clean (w := w.deliver c chunk.1 rest) hserving.clean).trans
        (by simp [World.deliver])
    rw [hdue, hunread, List.length_append]
    omega
  · rw [hfailed _ rfl]
    omega
  · rw [hfailed _ rfl]
    omega

theorem pending_lt_of_accept {k : ℕ} {r : Except Exception ℕ}
    (h : (serverKernel H).perform .accept (.transfer k) w = some (r, w')) :
    w'.pending < w.pending := by
  refine (turn_consumed h).pending_lt_of_backlog ?_
  simp only [serverKernel, ServerOp.turn] at h
  split at h
  · cases h
  · next client rest hbacklog =>
    obtain ⟨-, rfl⟩ := Prod.mk.inj (Option.some.inj h)
    simp [hbacklog]

/-! ### The loops -/

/-- The choices of a kernel in which no system call fails. -/
def Transfers : Choice → Prop
  | .transfer _ => True
  | .fail _ _ => False

theorem SyncUnixDomainSession.start_head (c : ℕ) :
    ∃ k, start c = .call (.readSome c payloadLengthHeaderSize) k := by
  have hread := Asio.read_pos (fun n => (ServerOp.readSome c n).perform)
    (by decide : 0 < payloadLengthHeaderSize)
  rw [start, exchange, readHeader, hread]
  exact ⟨_, rfl⟩

theorem SyncServer.startFrom_accept : ∃ k, startFrom .accept = .call .accept k := ⟨_, rfl⟩

theorem SyncServer.startFrom_session (c : ℕ) :
    ∃ k, startFrom (.session c) = .call (.readSome c payloadLengthHeaderSize) k := by
  obtain ⟨k, hk⟩ := SyncUnixDomainSession.start_head c
  simp only [startFrom, SyncUnixDomainServer.runFrom, hk]
  exact ⟨_, rfl⟩

/-- **The server uses up what there is.** -/
theorem serverConsumes (H : RequestHandler σ) (s₀ : σ) :
    (serverKernel H).Consumes (Flow.next SyncServer.startFrom) Transfers
      (fun cfg => Safe (serverKernel H) (serverRely H s₀) serverPost cfg.rest cfg.world)
      World.pending where
  step {_ c} h := serverSafe_run H s₀ h [.turn c]
  le _ _ h := (turn_consumed h).pending_le
  lt {a w p} h hnext := by
    match a with
    | .done r => cases hnext
    | .goto label =>
      obtain rfl := Option.some.inj hnext
      have hinv : label.inv w.own := h.post_ok (serverRely_owns H s₀).toFits
      cases label with
      | accept =>
        obtain ⟨k, hk⟩ := SyncServer.startFrom_accept
        refine ⟨.accept, k, hk, fun {c r w'} hc hp => ?_⟩
        cases c with
        | transfer m => exact pending_lt_of_accept hp
        | fail errno what => exact hc.elim
      | session d =>
        obtain ⟨k, hk⟩ := SyncServer.startFrom_session d
        refine ⟨.readSome d payloadLengthHeaderSize, k, hk, fun {c r w'} hc hp => ?_⟩
        cases c with
        | transfer m => exact pending_lt_of_readSome (by decide) hinv.toServing hp
        | fail errno what => exact hc.elim

/-- Where the server waits. -/
theorem waits_cases {op : ServerOp} (h : (serverKernel H).perform op choice w = none) :
    (op = .accept ∧ w.backlog = []) ∨
    ∃ c n, op = .readSome c n ∧ 0 < n ∧ w.unread c = [] ∧ w.closed c = false := by
  cases choice with
  | fail errno what => cases op <;> cases h
  | transfer k =>
    cases op with
    | accept =>
      simp only [serverKernel, ServerOp.turn] at h
      split at h
      · next hbacklog => exact .inl ⟨rfl, hbacklog⟩
      · cases h
    | readSome c n =>
      simp only [serverKernel, ServerOp.turn] at h
      split_ifs at h with hunread hclosed
      push Not at hunread
      exact .inr ⟨c, n, rfl, hunread.1, hunread.2, by simpa using hclosed⟩
    | listen => cases h
    | writeSome c bs => cases h
    | handleRequest c p => cases h
    | unlink => cases h

end InterProcessCourier
