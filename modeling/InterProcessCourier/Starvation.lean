import InterProcessCourier.Duplex
import InterProcessCourier.EndToEnd

/-!
# Who waits for whom

A server attends to one connection at a time, until its client closes it. Processes that are
connected in the meantime wait in the backlog, and no byte of theirs is read. This module is about
runs in which the system calls of the server succeed. Where those of the processes do too, a process
waits for good only behind one that has nothing left to ask, and keeps its connection.

## Main definitions

* `Own.Unharmed` — the server listens, and has met no failure but ends of streams
* `System.Calm` — the server is unharmed, and no request is cut
* `System.Still` — nobody can move

## Main results

* `server_survives` — where no system call of the server fails, no process ends it
* `served_alone` — of the processes that have not ended, one at most has been accepted
* `systemRun_calm` — where nothing fails at all, the system stays calm
* `stuck_behind_idle` — where nobody can move, a process that is done keeps the others waiting
-/

namespace InterProcessCourier

open Interaction

theorem Happened.of_concat {kind : List Io → Io → Prop} {t : List Io} {io : Io}
    (h : Happened kind (t ++ [io])) : Happened kind t ∨ kind t io := by
  obtain ⟨before, io', after, ht, hio⟩ := h
  rcases List.eq_nil_or_concat after with rfl | ⟨after, last, rfl⟩
  · obtain ⟨rfl, hlast⟩ := List.append_inj' ht rfl
    exact .inr (List.singleton_inj.mp hlast ▸ hio)
  · rw [List.concat_eq_append, ← List.cons_append, ← List.append_assoc] at ht
    exact .inl ⟨before, io', after, (List.append_inj' ht rfl).1, hio⟩

/-! ### One session after another -/

section

variable {σ : Type} {H : RequestHandler σ} {w w' : World σ}

/-- Every session but the last is over. -/
def Own.Successive (o : Own σ) : Prop :=
  ∀ c ∈ o.accepted.dropLast, ∃ f ∈ o.faults, f.origin.client? = some c

/-- A session begins when all others are over. -/
theorem Own.Successive.turn (h : w.own.Successive) {op : ServerOp} (hpre : op.pre w.own)
    {choice : Choice} {r : Except Exception (serverSignature.Ans op)}
    (hturn : (serverKernel H).perform op choice w = some (r, w')) : w'.own.Successive := by
  have hkept : ∀ c, (∃ f ∈ w.own.faults, f.origin.client? = some c) →
      ∃ f ∈ w'.own.faults, f.origin.client? = some c := fun c ⟨f, hf, hc⟩ =>
    ⟨f, (turn_consumed hturn).faults f hf, hc⟩
  by_cases hop : op = .accept
  · subst hop
    rcases turn_accept hturn with ⟨client, rest, -, -, rfl⟩ | ⟨errno, what, -, rfl⟩
    · intro c hc
      obtain ⟨-, hidle⟩ := hpre
      have hold : c ∈ w.own.accepted := by simpa [World.withOwn] using hc
      exact hkept c (hidle c hold)
    · exact fun c hc => hkept c (h c hc)
  · rw [Own.Successive, accepted_turn hop hturn]
    exact fun c hc => hkept c (h c hc)

/-- Of two sessions one is over. -/
theorem Own.Successive.over_or (h : w.own.Successive) {c d : ℕ} (hc : c ∈ w.own.accepted)
    (hd : d ∈ w.own.accepted) (hne : c ≠ d) :
    (∃ f ∈ w.own.faults, f.origin.client? = some c) ∨
      ∃ f ∈ w.own.faults, f.origin.client? = some d := by
  rcases List.eq_nil_or_concat w.own.accepted with hnil | ⟨cs, last, hcs⟩
  · rw [hnil] at hc
    cases hc
  · rw [Own.Successive, hcs, List.concat_eq_append, List.dropLast_concat] at h
    rw [hcs, List.concat_eq_append, List.mem_append, List.mem_singleton] at hc hd
    rcases hc with hc | rfl
    · exact .inl (h c hc)
    · rcases hd with hd | rfl
      · exact .inr (h d hd)
      · exact absurd rfl hne

end

/-! ### Systems without failures -/

/-- The server has met no failure but ends of streams, and listens. -/
structure Own.Unharmed {σ : Type} (o : Own σ) : Prop where
  faults : ∀ f ∈ o.faults, ∃ c, f = .endOfStream c
  path : o.path = true

/-- A turn of a client whose session goes on cuts no request, and no read of it fails. -/
theorem Link.uncut_of_turn {σ : Type} {H : RequestHandler σ} {l l' : Link σ} {op : ClientOp}
    {k : ℕ} {r : Except Exception (clientSignature.Ans op)}
    (hturn : (linkKernel H).perform op (.transfer k) l = some (r, l'))
    (hunused : connectionOf l.trace = none → sentOf l.trace = [])
    (hreads : ∀ n, op = .readSome n → (connectionOf l.trace).isSome)
    (hended : ∀ c, connectionOf l.trace = some c → l.ended c = false) :
    ∃ io, l'.trace = l.trace ++ [io] ∧ ¬io.TearsRequest l.trace ∧
      ∀ n, io ≠ .failed (.readSome n) := by
  cases op with
  | connect =>
    rcases linkTurn_connect hturn with ⟨c, -, -, -, rfl⟩ | ⟨code, what, -, rfl⟩
    · exact ⟨_, rfl, id, by simp⟩
    · exact ⟨_, rfl, id, by simp⟩
  | writeSome bs =>
    cases hc : connectionOf l.trace with
    | none =>
      simp only [linkKernel, ClientOp.turn, hc] at hturn
      obtain ⟨-, rfl⟩ := Prod.mk.inj (Option.some.inj hturn)
      refine ⟨_, rfl, fun htears => ?_, by simp⟩
      -- nothing has been sent
      change (wire.deframe (sentOf l.trace)).2 ≠ [] at htears
      rw [hunused hc, wire.deframe_of_incomplete wire.incomplete_nil] at htears
      exact htears rfl
    | some c =>
      simp only [linkKernel, ClientOp.turn, hc, hended c hc] at hturn
      obtain ⟨-, rfl⟩ := Prod.mk.inj (Option.some.inj hturn)
      exact ⟨_, rfl, id, by simp⟩
  | readSome n =>
    obtain ⟨c, hc⟩ := Option.isSome_iff_exists.mp (hreads n rfl)
    simp only [linkKernel, ClientOp.turn, hc, hended c hc] at hturn
    split_ifs at hturn with huntaken hfalse
    · obtain ⟨-, rfl⟩ := Prod.mk.inj (Option.some.inj hturn)
      exact ⟨_, rfl, id, by simp⟩
    · cases hfalse

/-- No system call of the server fails at this event. -/
def SystemEvent.Smooth {ι : Type} : SystemEvent ι → Prop
  | server (.transfer _) => True
  | server (.fail _ _) => False
  | party _ _ => True
  | exit _ => True

instance {ι : Type} : (e : SystemEvent ι) → Decidable e.Smooth
  | .server (.transfer _) => .isTrue trivial
  | .server (.fail _ _) => .isFalse id
  | .party _ _ => .isTrue trivial
  | .exit _ => .isTrue trivial

/-- Nothing fails at this event. -/
inductive SystemEvent.Undisturbed {ι : Type} : SystemEvent ι → Prop
  | server (k : ℕ) : Undisturbed (.server (.transfer k))
  | party (i : ι) (k : ℕ) : Undisturbed (.party i (.transfer k))
  | exit (i : ι) : Undisturbed (.exit i)

instance {ι : Type} : (e : SystemEvent ι) → Decidable e.Undisturbed
  | .server (.transfer k) => .isTrue (.server k)
  | .server (.fail _ _) => .isFalse nofun
  | .party i (.transfer k) => .isTrue (.party i k)
  | .party _ (.fail _ _) => .isFalse nofun
  | .exit i => .isTrue (.exit i)

section

variable [Protobuf] {ι σ : Type} {H : RequestHandler σ} {s₀ : σ} {apps : ι → Application}
  {s : System ι σ} {i j : ι} {c d : ℕ}

/-- The request handler answers whatever the application asks. -/
def Application.Answered (H : RequestHandler σ) (app : Application) : Prop :=
  ∀ call ∈ app.calls, ∀ payload, call.payload? = some payload →
    ∀ s, ∃ r, (H payload s).1 = .ok r

/-- All calls have returned. -/
def Party.Finished (p : Party) : Prop := ∃ session, p.thread = .ret session ∧ session.todo = []

instance (p : Party) : Decidable p.Finished :=
  match h : p.thread with
  | .ret session => decidable_of_iff (session.todo = []) (by simp [Party.Finished, h])
  | .raise _ => .isFalse (by simp [Party.Finished, h])
  | .call _ _ => .isFalse (by simp [Party.Finished, h])

namespace System

/-- The server is unharmed, no request is cut, and no read of a client has failed. -/
structure Calm (s : System ι σ) : Prop where
  unharmed : s.server.world.own.Unharmed
  uncut : ∀ i, ¬Happened Io.TearsRequest (s.party i).trace
  unfailed : ∀ i n, .failed (.readSome n) ∉ (s.party i).trace

theorem Calm.init (s₀ : σ) (apps : ι → Application) : (init s₀ apps).Calm where
  unharmed := ⟨nofun, rfl⟩
  uncut i h := by
    obtain ⟨before, io, after, ht, -⟩ := h
    cases before <;> cases ht
  unfailed _ _ hf := by cases hf

/-- With full reads, no frame is torn. -/
theorem Calm.untorn (h : s.Calm) (hfull : Full (s.party i).trace) :
    ¬Happened Io.Tears (s.party i).trace := by
  rintro ⟨before, io, after, ht, hio | hio⟩
  · exact h.uncut i ⟨before, io, after, ht, hio⟩
  · have hmem : io ∈ (s.party i).trace := by simp [ht]
    match io with
    | .failed (.readSome n) => exact h.unfailed i n hmem
    | .read n bs => exact (Nat.ne_of_lt hio) (hfull _ hmem)
    | .failed .connect => exact hio
    | .failed (.writeSome bs) => exact hio
    | .connected c => exact hio
    | .wrote bs => exact hio

/-- The session of a connection ends when its process has. -/
theorem Inv.gone_of_fault (h : s.Inv H s₀ apps) (hunharmed : s.server.world.own.Unharmed)
    (hc : connectionOf (s.party i).trace = some c) {f : Fault}
    (hf : f ∈ s.server.world.own.faults) (hclient : f.origin.client? = some c) :
    (s.party i).gone = true := by
  obtain ⟨d, rfl⟩ := hunharmed.faults f hf
  obtain rfl : d = c := Option.some.inj hclient
  obtain ⟨-, hshared⟩ := h.own
  rw [← ((h.sound i).tied d hc).closed]
  exact (hshared.drained d hf).closed

theorem Inv.ended_eq_false (h : s.Inv H s₀ apps) (hunharmed : s.server.world.own.Unharmed)
    (hi : (s.party i).gone = false) (hc : connectionOf (s.party i).trace = some c) :
    (s.link i).ended c = false := by
  refine List.any_eq_false.mpr fun f hf hclient => ?_
  have hgone := h.gone_of_fault hunharmed hc hf (by simpa using hclient)
  rw [hi] at hgone
  cases hgone

/-- A thread that reads has sent its request. -/
theorem Inv.connected_of_reads [LawfulProtobuf] (h : s.Inv H s₀ apps) {n : ℕ} {k}
    (hthread : (s.party i).thread = .call (.readSome n) k) :
    (connectionOf (s.party i).trace).isSome := by
  obtain ⟨start, -, hstands, -⟩ := (h.sound i).stands
  rcases hstands with ⟨hret, -⟩ | ⟨op, k, hop, call, todo, t, -, hwithin, htrace⟩
  · rw [hret] at hthread
    cases hthread
  · rw [hop] at hthread
    cases hthread
    by_contra hnone
    obtain ⟨hnothing, -⟩ := (h.sound i).orderly.unused _ List.prefix_rfl
      (Option.not_isSome_iff_eq_none.mp hnone)
    obtain ⟨payload, t', -, hmidway, hsent, -⟩ := hwithin.midway (by simp)
    rw [htrace, sentOf_append, hsent, hmidway.reading] at hnothing
    exact wire_frame_ne_nil payload (List.append_eq_nil_iff.mp hnothing).2

variable [DecidableEq ι]

/-! ### One step -/

/-- **A step at which no system call of the server fails.** -/
theorem Inv.unharmed_step [LawfulProtobuf] (h : s.Inv H s₀ apps)
    (hunharmed : s.server.world.own.Unharmed)
    (hfinal : ∀ i, Final Io.TearsRequest (s.party i).trace)
    (hanswered : ∀ i, (apps i).Answered H) {e : SystemEvent ι} (he : e.Smooth) :
    (s.step H e).server.world.own.Unharmed := by
  rcases h.own_step e with hsame | ⟨op, choice, r, rfl, hpre, hturn⟩
  · rw [hsame]
    exact hunharmed
  · obtain ⟨k, rfl⟩ : ∃ k, choice = .transfer k := by
      cases choice with
      | transfer k => exact ⟨k, rfl⟩
      | fail errno what => exact he.elim
    refine ⟨fun f hf => ?_, (path_turn ?_ hturn).trans hunharmed.path⟩
    · rcases arises_of_mem hturn hf with hold | harises
      · exact hunharmed.faults f hold
      · cases harises with
        | endOfStream c n k => exact ⟨c, rfl⟩
        | handler c p choice e he =>
          -- the payload is one that the application sends
          obtain ⟨hserving, -, hp, hconsumed⟩ := hpre
          obtain ⟨i, hi⟩ := h.owned c (List.mem_append_left _ hserving.mem_accepted)
          obtain ⟨start, hbook, hstands, -⟩ := (h.sound i).stands
          obtain ⟨tail, hreads⟩ := hstands.sent hbook (hfinal i)
          obtain ⟨hown, -⟩ := h.own
          have hsent : wire.frames (s.server.world.own.requests c ++ [p]) <+:
              sentOf (s.party i).trace := by
            rw [← ((h.sound i).tied c hi).sent, wire.frames_concat, ← hconsumed]
            exact List.prefix_append _ _
          have hshort : ∀ q ∈ s.server.world.own.requests c ++ [p], q.length < wire.bound := by
            simpa [or_imp, forall_and] using ⟨hown.short c, hp⟩
          have hops := wire.prefix_deframe hshort hsent
          rw [hreads.deframe_eq] at hops
          have hmem := hops.subset (List.mem_append_right _ (List.mem_singleton_self p))
          obtain ⟨⟨n, payload⟩, hop, rfl⟩ := List.mem_map.mp hmem
          obtain ⟨-, call, hcall, hpayload⟩ := hstands.mem_ops hbook hop
          obtain ⟨r, hr⟩ := hanswered i call (List.mem_of_getElem? hcall) payload hpayload
            s.server.world.own.state
          rw [hr] at he
          cases he
    · rintro rfl
      obtain ⟨f, hdoomed, -⟩ := hpre
      obtain ⟨d, rfl⟩ := hunharmed.faults f hdoomed.mem
      obtain ⟨-, -, -, hharmful⟩ := hdoomed
      cases hharmful

/-- **A party takes a turn.** -/
theorem Inv.calm_party [LawfulProtobuf] (h : s.Inv H s₀ apps) (hcalm : s.Calm)
    (hi : (s.party i).gone = false) (k : ℕ) : (s.step H (.party i (.transfer k))).Calm := by
  have hmoves := step_party_moves (H := H) hi (.transfer k)
  have hlink := congrArg Config.world (view_step_self (H := H) hi (.transfer k))
  have htrace : (∃ io, ((s.step H (.party i (.transfer k))).party i).trace =
      (s.party i).trace ++ [io] ∧ ¬io.TearsRequest (s.party i).trace ∧
        ∀ n, io ≠ .failed (.readSome n)) ∨
      ((s.step H (.party i (.transfer k))).party i).trace = (s.party i).trace := by
    rcases (linkKernel H).step_turn Session.next (s.view i) (.transfer k) with
      hsame | ⟨op, rest, r, hrest, hturn⟩
    · right
      exact congrArg Link.trace (hlink.trans hsame)
    · left
      rw [← hlink] at hturn
      refine Link.uncut_of_turn hturn
        (fun hnone => ((h.sound i).orderly.unused _ List.prefix_rfl hnone).1) ?_
        fun c hc => h.ended_eq_false hcalm.unharmed hi hc
      rintro n rfl
      exact h.connected_of_reads hrest
  have hother : ∀ j, i ≠ j → (s.step H (.party i (.transfer k))).party j = s.party j :=
    fun j hne => (h.toWired.step_foreign (H := H) (e := .party i (.transfer k)) hne).1
  refine ⟨?_, fun j => ?_, fun j n => ?_⟩
  · rw [show (s.step H (.party i (.transfer k))).server.world.own = s.server.world.own from
      hmoves.own]
    exact hcalm.unharmed
  · rcases eq_or_ne i j with rfl | hne
    · rcases htrace with ⟨io, hio, huncut, -⟩ | hsame
      · rw [hio]
        exact fun hcut => hcut.of_concat.elim (hcalm.uncut i) huncut
      · rw [hsame]
        exact hcalm.uncut i
    · rw [hother j hne]
      exact hcalm.uncut j
  · rcases eq_or_ne i j with rfl | hne
    · rcases htrace with ⟨io, hio, -, hsucceeds⟩ | hsame
      · rw [hio, List.mem_append, List.mem_singleton, not_or]
        exact ⟨hcalm.unfailed i n, (hsucceeds n).symm⟩
      · rw [hsame]
        exact hcalm.unfailed i n
    · rw [hother j hne]
      exact hcalm.unfailed j n

/-- **A party ends.** -/
theorem Calm.exit (hcalm : s.Calm) (i : ι) : (s.step H (.exit i)).Calm := by
  refine ⟨?_, fun j => ?_, fun j => ?_⟩
  · rw [own_exit]
    exact hcalm.unharmed
  · rw [trace_exit]
    exact hcalm.uncut j
  · rw [trace_exit]
    exact hcalm.unfailed j

/-- **A step of a run in which nothing fails.** -/
theorem Inv.calm_step [LawfulProtobuf] (h : s.Inv H s₀ apps) (hcalm : s.Calm)
    (hanswered : ∀ i, (apps i).Answered H) {e : SystemEvent ι} (he : e.Undisturbed) :
    (s.step H e).Calm := by
  cases he with
  | server k =>
    exact ⟨h.unharmed_step hcalm.unharmed (fun i => .of_not_happened (hcalm.uncut i)) hanswered
      (e := .server (.transfer k)) trivial, hcalm.uncut, hcalm.unfailed⟩
  | exit i => exact hcalm.exit i
  | party i k =>
    cases hi : (s.party i).gone with
    | true =>
      rw [(step_of_gone hi _).1]
      exact hcalm
    | false => exact h.calm_party hcalm hi k

end System

/-! ### Runs -/

variable [DecidableEq ι]

/-- **Runs in which nothing fails are calm.** -/
theorem systemRun_calm [LawfulProtobuf] (hanswered : ∀ i, (apps i).Answered H)
    {es : List (SystemEvent ι)} (hes : ∀ e ∈ es, e.Undisturbed) :
    (systemRun H s₀ apps es).Calm := by
  induction es using List.reverseRecOn with
  | nil => exact .init s₀ apps
  | append_singleton es e ih =>
    rw [systemRun_concat]
    exact (systemRun_inv H s₀ apps es).calm_step
      (ih fun e he => hes e (List.mem_append_left _ he)) hanswered (hes e (by simp))

theorem systemRun_successive [LawfulProtobuf] (H : RequestHandler σ) (s₀ : σ)
    (apps : ι → Application) (es : List (SystemEvent ι)) :
    (systemRun H s₀ apps es).server.world.own.Successive :=
  systemRun_own (fun hpre hturn h => h.turn hpre hturn) [] (fun c hc => by cases hc) es

/-- **Where no system call of the server fails**, it is unharmed. -/
theorem systemRun_unharmed [LawfulProtobuf] (hanswered : ∀ i, (apps i).Answered H)
    {es : List (SystemEvent ι)} (hes : ∀ e ∈ es, e.Smooth)
    (hfinal : ∀ i, Final Io.TearsRequest ((systemRun H s₀ apps es).party i).trace) :
    (systemRun H s₀ apps es).server.world.own.Unharmed := by
  induction es using List.reverseRecOn with
  | nil => exact ⟨nofun, rfl⟩
  | append_singleton es e ih =>
    have hfinal' : ∀ i, Final Io.TearsRequest ((systemRun H s₀ apps es).party i).trace := by
      intro i
      obtain ⟨t, ht⟩ := (systemRun_grows H s₀ apps es [e]).trace i
      exact (ht ▸ hfinal i).of_append
    have hunharmed := ih (fun e he => hes e (List.mem_append_left _ he)) hfinal'
    rw [systemRun_concat]
    exact (systemRun_inv H s₀ apps es).unharmed_step hunharmed hfinal' hanswered (hes e (by simp))

/-- **No process ends the server.** In every run in which no system call of the server fails, every
request asked for is one that the server answers and no process sends anything after a request it
has cut, the server keeps running, and the sessions it has given up are those of processes that have
ended, at the ends of their streams. Where the end of a process makes a read or a write of the
server fail, this says nothing. -/
theorem server_survives [LawfulProtobuf] (hanswered : ∀ i, (apps i).Answered H)
    (es : List (SystemEvent ι)) (hes : ∀ e ∈ es, e.Smooth)
    (hfinal : ∀ i, Final Io.TearsRequest ((systemRun H s₀ apps es).party i).trace) :
    let s := systemRun H s₀ apps es
    (∀ e, s.server.rest ≠ .raise e) ∧ (∀ r, s.server.rest ≠ .ret (.done r)) ∧
      ∀ f ∈ s.server.world.own.faults, ∃ c i, f = .endOfStream c ∧
        connectionOf (s.party i).trace = some c ∧ (s.party i).gone = true := by
  have hinv := systemRun_inv H s₀ apps es
  have hunharmed := systemRun_unharmed hanswered hes hfinal
  generalize systemRun H s₀ apps es = s at *
  have htame : ∀ f ∈ s.server.world.own.faults, f.Tame := by
    intro f hf
    obtain ⟨c, rfl⟩ := hunharmed.faults f hf
    exact .endOfStream c
  obtain ⟨hraise, hdone⟩ := not_left_of_tame hinv.server htame
  refine ⟨hraise, fun r hr => ?_, fun f hf => ?_⟩
  · obtain ⟨f, hf, hacceptor⟩ := hdone r hr
    obtain ⟨c, rfl⟩ := hunharmed.faults f hf
    simp [Fault.OfAcceptor, Fault.endOfStream] at hacceptor
  · obtain ⟨c, rfl⟩ := hunharmed.faults f hf
    obtain ⟨hown, -⟩ := hinv.own
    have haccepted : c ∈ s.server.world.own.accepted := by
      by_contra hc
      exact hown.faultless c hc _ hf rfl
    obtain ⟨i, hi⟩ := hinv.owned c (List.mem_append_left _ haccepted)
    exact ⟨c, i, rfl, hi, hinv.gone_of_fault hunharmed hi hf rfl⟩

/-- **One process at a time.** In every run in which no system call of the server fails, every
request asked for is one that the server answers and no process sends anything after a request it
has cut: as long as the process whose connection was accepted has not ended, every other process
that has not ended waits in the backlog, no byte of it is read, and none is written to it. -/
theorem served_alone [LawfulProtobuf] (hanswered : ∀ i, (apps i).Answered H)
    (es : List (SystemEvent ι)) (hes : ∀ e ∈ es, e.Smooth)
    (hfinal : ∀ i, Final Io.TearsRequest ((systemRun H s₀ apps es).party i).trace) (hne : i ≠ j)
    (hi : ((systemRun H s₀ apps es).party i).gone = false)
    (hj : ((systemRun H s₀ apps es).party j).gone = false)
    (hc : connectionOf ((systemRun H s₀ apps es).party i).trace = some c)
    (haccepted : c ∈ (systemRun H s₀ apps es).server.world.own.accepted)
    (hd : connectionOf ((systemRun H s₀ apps es).party j).trace = some d) :
    d ∈ (systemRun H s₀ apps es).server.world.backlog ∧
      (systemRun H s₀ apps es).server.world.own.consumed d = [] ∧
      (systemRun H s₀ apps es).server.world.own.written d = [] := by
  have hinv := systemRun_inv H s₀ apps es
  have hunharmed := systemRun_unharmed hanswered hes hfinal
  have hsuccessive := systemRun_successive H s₀ apps es
  generalize systemRun H s₀ apps es = s at *
  have hwaits : d ∉ s.server.world.own.accepted := by
    intro hd'
    have hcd : c ≠ d := by
      rintro rfl
      exact hne (hinv.distinct i j c hc hd)
    rcases hsuccessive.over_or haccepted hd' hcd with ⟨f, hf, hclient⟩ | ⟨f, hf, hclient⟩
    · have hgone := hinv.gone_of_fault hunharmed hc hf hclient
      rw [hi] at hgone
      cases hgone
    · have hgone := hinv.gone_of_fault hunharmed hd hf hclient
      rw [hj] at hgone
      cases hgone
  obtain ⟨hown, -⟩ := hinv.own
  exact ⟨(List.mem_append.mp (hinv.known j d hd)).resolve_left hwaits, hown.untouched d hwaits⟩

end

namespace TestProto

/-- A server that echoes answers what the two applications ask. -/
theorem answered_applications (i : Bool) :
    (applications i).Answered (SyncServer.registered .silentIgnore [echo]).requestHandler := by
  have hreflects : ((SyncServer.registered .silentIgnore [echo]).requestHandler reflectionPayload
      ()).1.toOption.isSome := by
    decide +kernel
  have hechoes : ∀ message ∈ [str "a", str "b"],
      ((SyncServer.registered .silentIgnore [echo]).requestHandler (greetingOf message)
        ()).1.toOption.isSome := by
    decide +kernel
  have hok : ∀ {r : Except Exception Bytes}, r.toOption.isSome → ∃ response, r = .ok response := by
    intro r hr
    cases r with
    | ok response => exact ⟨response, rfl⟩
    | error e => cases hr
  intro call hcall payload hpayload s
  cases i with
  | true =>
    rcases List.mem_pair.mp hcall with rfl | rfl
    · obtain rfl := Option.some.inj hpayload
      exact hok hreflects
    · obtain rfl := Option.some.inj hpayload
      exact hok (hechoes _ (by simp))
  | false =>
    rcases List.mem_pair.mp hcall with rfl | rfl
    · obtain rfl := Option.some.inj hpayload
      exact hok hreflects
    · obtain rfl := Option.some.inj hpayload
      exact hok (hechoes _ (by simp))

/-- The first process ends in the middle of a request. -/
def abandonedRun : List (SystemEvent Bool) :=
  List.replicate 6 (.party true (.transfer 2)) ++
    [.party true (.fail .brokenPipe (str "write_some: Broken pipe")), .exit true] ++
    partyTurns false 4 ++ daemonTurns 14 ++ partyTurns false 2

/-- The second process has its echo. -/
theorem server_survives_abandonedRun :
    let s := greetingSystem abandonedRun
    (s.server.world.own.consumed 1).length = 6 ∧
      s.server.world.own.written 2 = wire.frame (greetingOf (str "b")) ∧
      (∀ r, s.server.rest ≠ .ret (.done r)) ∧
      ∀ f ∈ s.server.world.own.faults, ∃ c i, f = .endOfStream c ∧
        connectionOf (s.party i).trace = some c ∧ (s.party i).gone = true :=
  ⟨by decide +kernel, by decide +kernel, (server_survives answered_applications abandonedRun
    (by decide +kernel) (by decide +kernel)).2⟩

/-- The first greeting has been echoed, and of the second no byte has been read. -/
theorem served_alone_greetingsRun :
    let s := greetingSystem (greetingsRun.take 18)
    s.server.world.own.written 1 = wire.frame (greetingOf (str "a")) ∧
      s.server.world.unread 2 = wire.frame (greetingOf (str "b")) ∧
      2 ∈ s.server.world.backlog ∧ s.server.world.own.consumed 2 = [] ∧
      s.server.world.own.written 2 = [] :=
  ⟨by decide +kernel, by decide +kernel,
    served_alone (i := true) (j := false) (c := 1) answered_applications
      (greetingsRun.take 18) (by decide +kernel) (by decide +kernel) (by decide)
      (by decide +kernel) (by decide +kernel) (by decide +kernel) (by decide +kernel)
      (by decide +kernel)⟩

end TestProto

/-! ### Waiting -/

section

variable [Protobuf] {ι σ : Type} {H : RequestHandler σ} {s₀ : σ} {apps : ι → Application}
  {s : System ι σ} {i : ι}

/-- A party that reads has sent one request more than it has taken responses. -/
theorem Party.Stands.reading [LawfulProtobuf] {app : Application} {p : Party} {start : Session}
    (h : p.Stands start) (hbook : p.Book app start) (huntorn : ¬Happened Io.Tears p.trace)
    {n : ℕ} {k} (hthread : p.thread = .call (.readSome n) k) (hn : 0 < n) :
    ∃ requests responses tail, wire.Reads (sentOf p.trace) requests [] ∧
      wire.Reads (takenOf p.trace) responses tail ∧ requests.length = responses.length + 1 := by
  rcases h with ⟨hret, -⟩ | ⟨op, k, hop, call, todo, t, -, hwithin, htrace⟩
  · rw [hret] at hthread
    cases hthread
  · rw [hop] at hthread
    cases hthread
    obtain ⟨payload, t', hpayload, hmidway, hsent', htaken'⟩ := hwithin.midway (by simp)
    obtain ⟨requests, responses, hsent, htaken, hrequests, hresponses, hlength⟩ :=
      hbook.balanced fun htorn => huntorn (htrace ▸ htorn.append t)
    refine ⟨requests ++ [payload], responses, takenOf t', ⟨?_, ?_, wire.incomplete_nil⟩,
      ⟨?_, hresponses, hmidway.incomplete hn⟩, by simp [hlength]⟩
    · rw [htrace, sentOf_append, hsent, hsent', hmidway.reading, wire.frames_concat,
        List.append_nil]
    · exact List.forall_mem_append.mpr ⟨hrequests, by simpa using hpayload⟩
    · rw [htrace, takenOf_append, htaken, htaken']

namespace System

/-- Where the server waits in a calm system, it has answered in full what it was sent. -/
theorem Inv.caughtUp (h : s.Inv H s₀ apps) (hcalm : s.Calm) {k : ℕ}
    (hserver : (serverKernel H).Waits (Flow.next SyncServer.startFrom) (.transfer k) s.server) :
    (s.server.world.backlog = [] ∨
      ∃ d ∈ s.server.world.own.accepted, s.server.world.closed d = false) ∧
    ∀ c ∈ s.server.world.own.accepted, s.server.world.CaughtUp c ∧
      (s.server.world.own.responses c).length = (s.server.world.own.requests c).length := by
  obtain ⟨hown, -⟩ := h.own
  have htame : ∀ f ∈ s.server.world.own.faults, f.Tame := by
    intro f hf
    obtain ⟨d, rfl⟩ := hcalm.unharmed.faults f hf
    exact .endOfStream d
  have hacceptor : ∀ f ∈ s.server.world.own.faults, ¬f.OfAcceptor := by
    intro f hf
    obtain ⟨d, rfl⟩ := hcalm.unharmed.faults f hf
    simp [Fault.OfAcceptor, Fault.endOfStream]
  obtain ⟨hbacklog, hcaughtUp⟩ := caughtUp_of_waits h.server htame hacceptor hserver
  refine ⟨hbacklog, fun c hc => ⟨hcaughtUp c hc fun f hf horigin => ?_, ?_⟩⟩
  · obtain ⟨d, rfl⟩ := hcalm.unharmed.faults f hf
    rw [show d = c from Origin.read.inj horigin]
  · have hreturned : ∀ k ∈ s.server.world.own.callsOf c, ∃ r, k.result = .ok r := by
      intro k hk
      cases hresult : k.result with
      | ok r => exact ⟨r, rfl⟩
      | error e =>
        obtain ⟨d, hd⟩ :=
          hcalm.unharmed.faults _ (hown.raised k (List.mem_of_mem_filter hk) e hresult)
        cases hd
    have hresults := congrArg List.length (Own.map_result_of_returned hreturned)
    simpa [Own.requests] using hresults.symm

/-- Where the server waits, a party waits because it is done, or because its connection has not been
accepted. -/
theorem Inv.backlog_of_waits [LawfulProtobuf] (h : s.Inv H s₀ apps) (hcalm : s.Calm)
    (hshort : ∀ c, ∀ r ∈ s.server.world.own.responses c, r.length < 2 ^ 32)
    (hfull : Full (s.party i).trace) {k k' : ℕ}
    (hserver : (serverKernel H).Waits (Flow.next SyncServer.startFrom) (.transfer k) s.server)
    (hparty : (linkKernel H).Waits Session.next (.transfer k') (s.view i)) :
    (s.party i).Finished ∨
      ∃ c, connectionOf (s.party i).trace = some c ∧ c ∈ s.server.world.backlog := by
  obtain ⟨start, hbook, hstands, -⟩ := (h.sound i).stands
  cases hthread : (s.party i).thread with
  | raise e =>
    rcases hstands with ⟨hret, -⟩ | ⟨op, rest, hop, -⟩
    · rw [hret] at hthread
      cases hthread
    · rw [hop] at hthread
      cases hthread
  | ret session =>
    left
    refine ⟨session, hthread, ?_⟩
    rw [Kernel.Waits, show (s.view i).rest = _ from hthread] at hparty
    cases htodo : session.todo with
    | nil => rfl
    | cons call todo => simp [Session.next, htodo] at hparty
  | call op rest =>
    right
    rw [Kernel.Waits, show (s.view i).rest = _ from hthread] at hparty
    obtain ⟨n, c, rfl, hc, hn, huntaken⟩ := linkTurn_waits hparty
    refine ⟨c, hc, (List.mem_append.mp (h.known i c hc)).resolve_left fun haccepted => ?_⟩
    obtain ⟨requests, responses, tail, hsent, htaken, hmore⟩ :=
      hstands.reading hbook (hcalm.untorn hfull) hthread hn
    obtain ⟨hcaughtUp, hlength⟩ := (h.caughtUp hcalm hserver).2 c haccepted
    have htied := (h.sound i).tied c hc
    have hrequests : s.server.world.own.requests c = requests := by
      rw [hcaughtUp.requests, htied.sent, hsent.deframe_eq]
    -- everything written has been taken
    have hwritten : takenOf (s.party i).trace = s.server.world.own.written c :=
      htied.taken.eq_of_length_le (List.drop_eq_nil_iff.mp huntaken)
    have hresponses : wire.Reads (takenOf (s.party i).trace) (s.server.world.own.responses c) [] :=
      ⟨by rw [hwritten, hcaughtUp.written, List.append_nil], hshort c, wire.incomplete_nil⟩
    rw [hrequests, hmore, (htaken.unique hresponses).1] at hlength
    omega

/-- The server waits, and so does every party that has not ended. -/
structure Still (H : RequestHandler σ) (s : System ι σ) : Prop where
  server : ∃ k, (serverKernel H).Waits (Flow.next SyncServer.startFrom) (.transfer k) s.server
  parties : ∀ i, (s.party i).gone = false →
    ∃ k, (linkKernel H).Waits Session.next (.transfer k) (s.view i)

/-- **Where nobody can move**, a party that has calls to make waits for one that has none. -/
theorem Inv.behind_of_still [LawfulProtobuf] (h : s.Inv H s₀ apps) (hcalm : s.Calm)
    (hshort : ∀ c, ∀ r ∈ s.server.world.own.responses c, r.length < 2 ^ 32)
    (hfull : ∀ i, Full (s.party i).trace) (hstill : s.Still H)
    (hi : (s.party i).gone = false) (hunfinished : ¬(s.party i).Finished) :
    ∃ c j d, connectionOf (s.party i).trace = some c ∧ c ∈ s.server.world.backlog ∧
      connectionOf (s.party j).trace = some d ∧ d ∈ s.server.world.own.accepted ∧
      (s.party j).gone = false ∧ (s.party j).Finished := by
  obtain ⟨k, hserver⟩ := hstill.server
  have hbacklog : ∀ j, (s.party j).gone = false → (s.party j).Finished ∨
      ∃ d, connectionOf (s.party j).trace = some d ∧ d ∈ s.server.world.backlog := by
    intro j hj
    obtain ⟨k', hwaits⟩ := hstill.parties j hj
    exact h.backlog_of_waits hcalm hshort (hfull j) hserver hwaits
  obtain ⟨c, hc, hbehind⟩ := (hbacklog i hi).resolve_left hunfinished
  -- the session in front is that of a process that has not ended
  obtain ⟨d, haccepted, hopen⟩ := (h.caughtUp hcalm hserver).1.resolve_left
    (List.ne_nil_of_mem hbehind)
  obtain ⟨j, hd⟩ := h.owned d (List.mem_append_left _ haccepted)
  have hj : (s.party j).gone = false := (((h.sound j).tied d hd).closed).symm.trans hopen
  refine ⟨c, j, d, hc, hbehind, hd, haccepted, hj, (hbacklog j hj).resolve_right ?_⟩
  rintro ⟨d', hd', hwaiting⟩
  obtain rfl : d = d' := Option.some.inj (hd.symm.trans hd')
  obtain ⟨-, hshared⟩ := h.own
  exact List.disjoint_of_nodup_append hshared.nodup haccepted hwaiting

end System

/-- **Nobody waits but behind a process that is done.** Where, in a run in which nothing fails,
neither the server nor any process can move, every process that has not ended and has not made all
its calls stands in the backlog, and the connection in front of it is that of a process that has
made all of its own and has not ended. -/
theorem stuck_behind_idle [DecidableEq ι] [LawfulProtobuf] (server : SyncServer σ)
    (hanswered : ∀ i, (apps i).Answered server.requestHandler) {es : List (SystemEvent ι)}
    (hes : ∀ e ∈ es, e.Undisturbed)
    (hfull : ∀ i, Full ((systemRun server.requestHandler s₀ apps es).party i).trace)
    (hstill : (systemRun server.requestHandler s₀ apps es).Still server.requestHandler) (i : ι)
    (hi : ((systemRun server.requestHandler s₀ apps es).party i).gone = false)
    (hunfinished : ¬((systemRun server.requestHandler s₀ apps es).party i).Finished) :
    let s := systemRun server.requestHandler s₀ apps es
    ∃ c j d, connectionOf (s.party i).trace = some c ∧ c ∈ s.server.world.backlog ∧
      connectionOf (s.party j).trace = some d ∧ d ∈ s.server.world.own.accepted ∧
      (s.party j).gone = false ∧ (s.party j).Finished :=
  (systemRun_inv _ s₀ apps es).behind_of_still (systemRun_calm hanswered hes)
    (length_responses_lt (systemRun_inv _ s₀ apps es).own.1) hfull hstill hi hunfinished

end

namespace TestProto

/-- The first process has its echo and stays. -/
def idleRun : List (SystemEvent Bool) :=
  partyTurns true 4 ++ partyTurns false 4 ++ daemonTurns 10 ++ partyTurns true 2 ++ daemonTurns 4

/-- The second waits for it. -/
theorem stuck_behind_idle_idleRun :
    let s := greetingSystem idleRun
    ∃ c j d, connectionOf (s.party false).trace = some c ∧ c ∈ s.server.world.backlog ∧
      connectionOf (s.party j).trace = some d ∧ d ∈ s.server.world.own.accepted ∧
      (s.party j).gone = false ∧ (s.party j).Finished :=
  stuck_behind_idle (SyncServer.registered .silentIgnore [echo]) answered_applications
    (by decide +kernel) (by decide +kernel)
    ⟨⟨1000, by decide +kernel⟩, fun i _ => ⟨1000, by revert i; decide +kernel⟩⟩ false
    (by decide +kernel) (by decide +kernel)

end TestProto

end InterProcessCourier
