import InterProcessCourier.ClientWorld

/-!
# What client and server keep true between them

`Link.Inv` ties the history of the client's socket to the server's share of the world: what the
client has written is what its connection has sent, and what it has read is an initial part of what
the server has written to that connection. Neither the server's turns nor other clients' acts touch
the history, and every operation of the client keeps the invariant; so the client's code is reasoned
about over its history alone, by the triples of `ClientTriple`.

`linkRely` leaves open what is to hold whenever the client asks for an operation. What a development
says about the middle of a run goes there.
-/

namespace InterProcessCourier

open Interaction

variable {σ : Type} {H : RequestHandler σ} {s₀ : σ} {l : Link σ} {c : ℕ}

namespace Link

/-- Connection `c` of the server is the client's socket. -/
structure Connected (l : Link σ) (c : ℕ) : Prop where
  known : c ∈ l.server.world.own.accepted ++ l.server.world.backlog
  sent : l.server.world.sent c = sentOf l.trace
  taken : takenOf l.trace <+: l.server.world.own.written c
  opened : l.server.world.closed c = false

/-- The invariant of client and server. -/
structure Inv (H : RequestHandler σ) (s₀ : σ) (l : Link σ) : Prop where
  server : Safe (serverKernel H) (serverRely H s₀) serverPost l.server.rest l.server.world
  orderly : Orderly l.trace
  connected : ∀ c, connectionOf l.trace = some c → l.Connected c

theorem Inv.unconnected (h : l.Inv H s₀) (hnone : connectionOf l.trace = none) :
    sentOf l.trace = [] ∧ takenOf l.trace = [] :=
  h.orderly.unused _ List.prefix_rfl hnone

theorem Inv.own (h : l.Inv H s₀) :
    l.server.world.own.Inv H s₀ ∧ l.server.world.Shared :=
  h.server.inv (serverRely_owns H s₀).toFits

theorem Inv.init (H : RequestHandler σ) (s₀ : σ) : (init s₀).Inv H s₀ where
  server w hw := by
    refine ⟨(serverRely_owns H s₀).valid hw ⟨.init H s₀, .init s₀⟩, ?_⟩
    change w.own.Healthy ∧ w.own.Idle
    rw [hw.1]
    exact ⟨nofun, nofun⟩
  orderly := .nil
  connected c hc := by cases hc

theorem Inv.safe_step (h : l.Inv H s₀) (e : Event Choice ClientAct) :
    Safe (serverKernel H) (serverRely H s₀) serverPost (l.step H e).server.rest
      (l.step H e).server.world :=
  serverSafe_run H s₀ h.server [e]

/-! ### The server's side moves -/

theorem Connected.turn (h : l.Connected c) (choice : Choice) :
    (l.step H (.turn choice)).Connected c := by
  rcases (serverKernel H).step_turn (Flow.next SyncServer.startFrom) l.server choice with
    hsame | ⟨op, k, r, -, hturn⟩
  · have hworld : (l.step H (.turn choice)).server.world = l.server.world := hsame
    exact ⟨hworld ▸ h.known, hworld ▸ h.sent, hworld ▸ h.taken, hworld ▸ h.opened⟩
  · have hconsumed := turn_consumed hturn
    refine ⟨?_, ?_, h.taken.trans (hconsumed.written c), ?_⟩
    · exact hconsumed.clients ▸ h.known
    · exact (congrFun (sent_turn hturn) c).trans h.sent
    · exact (congrFun hconsumed.closed c).trans h.opened

/-- Connections stay known. -/
theorem mem_apply (a : ClientAct) {w : World σ} (hc : c ∈ w.own.accepted ++ w.backlog) :
    c ∈ (a.apply w).own.accepted ++ (a.apply w).backlog := by
  cases a with
  | connect d =>
    rw [ClientAct.apply]
    split_ifs
    · exact hc
    · rw [← List.append_assoc]
      exact List.mem_append_left _ hc
  | send d bs => rw [ClientAct.apply]; split_ifs <;> exact hc
  | close d => rw [ClientAct.apply]; split_ifs <;> exact hc

/-- Other clients act on connections of their own. -/
theorem Connected.other (h : l.Connected c) {a : ClientAct} (ha : a.client ≠ c) :
    (l.step H (.act a)).Connected c := by
  refine ⟨mem_apply a h.known, ?_, ?_, ?_⟩
  · exact (sent_act_of_ne l.server.world ha).trans h.sent
  · have hown : (l.step H (.act a)).server.world.own = l.server.world.own := a.apply_own _
    rw [hown]
    exact h.taken
  · refine Eq.trans ?_ h.opened
    cases a with
    | connect d =>
      change (ClientAct.apply _ _).closed c = _
      rw [ClientAct.apply]
      split_ifs <;> rfl
    | send d bs =>
      change (ClientAct.apply _ _).closed c = _
      rw [ClientAct.apply]
      split_ifs <;> rfl
    | close d =>
      change (ClientAct.apply _ _).closed c = _
      rw [ClientAct.apply]
      split_ifs
      · exact Function.update_of_ne (Ne.symm ha) _ _
      · rfl

/-- **What happens without the client keeps the invariant.** -/
theorem Inv.act (h : l.Inv H s₀) (a : LinkAct) : (a.apply H l).Inv H s₀ := by
  cases a with
  | server choice =>
    exact ⟨h.safe_step (.turn choice), h.orderly, fun c hc => (h.connected c hc).turn choice⟩
  | other a =>
    rw [LinkAct.apply]
    split_ifs with ha
    · exact h
    · refine ⟨h.safe_step (.act a), h.orderly, fun c hc => (h.connected c hc).other ?_⟩
      rintro rfl
      exact ha hc

/-! ### The operations of the client -/

/-- An operation that moves no bytes and does not connect. -/
theorem Inv.failed (h : l.Inv H s₀) (op : ClientOp) : (l.log (.failed op)).Inv H s₀ where
  server := h.server
  orderly := h.orderly.concat nofun fun _ _ => ⟨rfl, rfl⟩
  connected c hc := by
    have hold := h.connected c (by simpa using hc)
    exact ⟨hold.known, by simpa using hold.sent, by simpa using hold.taken, hold.opened⟩

/-- A new connection starts with nothing sent and nothing written. -/
theorem Inv.connect (h : l.Inv H s₀) (hnone : connectionOf l.trace = none)
    (hc : c ∉ l.server.world.own.accepted ++ l.server.world.backlog) :
    ((l.step H (.act (.connect c))).log (.connected c)).Inv H s₀ where
  server := h.safe_step _
  orderly := h.orderly.concat (fun _ => hnone) fun _ _ => ⟨rfl, rfl⟩
  connected d hd := by
    obtain rfl : c = d := by simpa [hnone] using hd
    obtain ⟨hown, hshared⟩ := h.own
    obtain ⟨hunread, hopen⟩ := hshared.fresh c hc
    obtain ⟨hconsumed, hwritten⟩ := hown.untouched c fun hm => hc (List.mem_append_left _ hm)
    obtain ⟨hsent, htaken⟩ := h.unconnected hnone
    have hworld : (l.step H (.act (.connect c))).server.world =
        { l.server.world with backlog := l.server.world.backlog ++ [c] } := if_neg hc
    refine ⟨by simp [hworld], ?_, ?_, by simp [hworld, hopen]⟩
    · simp [hworld, World.sent, hconsumed, hunread, hsent]
    · simp [htaken]

theorem Inv.wrote (h : l.Inv H s₀) (hc : connectionOf l.trace = some c) (bs : Bytes) :
    ((l.step H (.act (.send c bs))).log (.wrote bs)).Inv H s₀ where
  server := h.safe_step _
  orderly := h.orderly.concat nofun fun hnone => by simp [hc] at hnone
  connected d hd := by
    obtain rfl : c = d := by simpa [hc] using hd
    have hold := h.connected c hc
    have hworld : (l.step H (.act (.send c bs))).server.world =
        { l.server.world with
          unread := Function.update l.server.world.unread c (l.server.world.unread c ++ bs) } :=
      if_pos ⟨hold.known, hold.opened⟩
    refine ⟨by simpa [hworld] using hold.known, ?_, ?_, by simpa [hworld] using hold.opened⟩
    · have hsent := hold.sent
      simp only [World.sent] at hsent
      simp [hworld, World.sent, ← List.append_assoc, hsent]
    · simpa [hworld] using hold.taken

theorem Inv.read (h : l.Inv H s₀) (hc : connectionOf l.trace = some c) {n : ℕ} {bs : Bytes}
    (hbs : bs <+: l.untaken c) : (l.log (.read n bs)).Inv H s₀ where
  server := h.server
  orderly := h.orderly.concat nofun fun hnone => by simp [hc] at hnone
  connected d hd := by
    obtain rfl : c = d := by simpa [hc] using hd
    have hold := h.connected c hc
    refine ⟨hold.known, by simpa using hold.sent, ?_, hold.opened⟩
    obtain ⟨rest, hrest⟩ := hold.taken
    have hbs' : bs <+: rest := by
      rw [untaken, ← hrest, List.drop_left] at hbs
      exact hbs
    simpa [← hrest] using hbs'

end Link

/-! ### The client's code -/

section

variable (H s₀) (pre : ClientOp → List Io → Prop)

/-- The history of the socket is the client's own. -/
def linkRely : Rely clientSignature (Link σ) where
  env l l' := l'.trace = l.trace ∧ (l.Inv H s₀ → l'.Inv H s₀)
  inv l := l.Inv H s₀
  pre op l := pre op l.trace

theorem linkRely_owns : (linkRely H s₀ pre).Owns (linkKernel H) Link.trace where
  refl _ := ⟨rfl, id⟩
  trans h h' := ⟨h'.1.trans h.1, h'.2 ∘ h.2⟩
  act a l _ := ⟨a.apply_trace l, fun h => h.act a⟩
  view_eq h := h.1
  valid h := h.2

/-- A triple about the client's code. -/
abbrev ClientTriple {α : Type} (P : List Io → Prop) (p : ClientCode α) (ok : α → List Io → Prop)
    (err : Exception → List Io → Prop) : Prop :=
  Triple (linkKernel H) (linkRely H s₀ pre) Link.trace P p ok err

end

variable {pre : ClientOp → List Io → Prop} {t : List Io}

/-- How an operation fails. -/
def FailedAt (t : List Io) (op : ClientOp) (e : Exception) (t' : List Io) : Prop :=
  (∃ code what, e = .systemError code what) ∧ t' = t ++ [.failed op]

theorem triple_connect (hpre : pre .connect t) :
    ClientTriple H s₀ pre (· = t) ClientOp.connect.perform
      (fun _ t' => ∃ c, t' = t ++ [.connected c]) (FailedAt t .connect) := by
  refine Triple.perform (linkRely_owns H s₀ pre) fun l hinv hl => ?_
  subst hl
  refine ⟨hpre, fun ch r l' hr => ?_⟩
  rcases linkTurn_connect hr with ⟨c, rfl, hnone, hc, rfl⟩ | ⟨code, what, rfl, rfl⟩
  · exact ⟨Link.Inv.connect hinv hnone hc, c, rfl⟩
  · exact ⟨Link.Inv.failed hinv _, ⟨code, what, rfl⟩, rfl⟩

theorem clientTriple_writeSome {bs : Bytes} (hpre : pre (.writeSome bs) t) :
    ClientTriple H s₀ pre (· = t) (ClientOp.writeSome bs).perform
      (fun k t' => t' = t ++ [.wrote (bs.take k.1)]) (FailedAt t (.writeSome bs)) := by
  refine Triple.perform (linkRely_owns H s₀ pre) fun l hinv hl => ?_
  subst hl
  refine ⟨hpre, fun ch r l' hr => ?_⟩
  rcases linkTurn_writeSome hr with ⟨k, c, rfl, hc, rfl⟩ | ⟨code, what, rfl, rfl⟩
  · exact ⟨Link.Inv.wrote hinv hc _, rfl⟩
  · exact ⟨Link.Inv.failed hinv _, ⟨code, what, rfl⟩, rfl⟩

theorem clientTriple_readSome {n : ℕ} (hpre : pre (.readSome n) t) :
    ClientTriple H s₀ pre (· = t) (ClientOp.readSome n).perform
      (fun chunk t' => t' = t ++ [.read n chunk.1]) (FailedAt t (.readSome n)) := by
  refine Triple.perform (linkRely_owns H s₀ pre) fun l hinv hl => ?_
  subst hl
  refine ⟨hpre, fun ch r l' hr => ?_⟩
  rcases linkTurn_readSome hr with ⟨chunk, c, rfl, hc, hchunk, rfl⟩ | ⟨code, what, rfl, rfl⟩
  · exact ⟨Link.Inv.read hinv hc hchunk, rfl⟩
  · exact ⟨Link.Inv.failed hinv _, ⟨code, what, rfl⟩, rfl⟩

/-! ### Sockets -/

/-- Surroundings in which the operations of a client do to the history of its socket what they are
named for, or fail. -/
structure Socket {W C A : Type} (K : Kernel clientSignature Exception W C A)
    (R : Rely clientSignature W) (trace : W → List Io) (pre : ClientOp → List Io → Prop) :
    Prop where
  owns : R.Owns K trace
  connect : ∀ {t}, pre .connect t → Triple K R trace (· = t) ClientOp.connect.perform
    (fun _ t' => ∃ c, t' = t ++ [.connected c]) (FailedAt t .connect)
  writeSome : ∀ {t bs}, pre (.writeSome bs) t →
    Triple K R trace (· = t) (ClientOp.writeSome bs).perform
      (fun k t' => t' = t ++ [.wrote (bs.take k.1)]) (FailedAt t (.writeSome bs))
  readSome : ∀ {t n}, pre (.readSome n) t →
    Triple K R trace (· = t) (ClientOp.readSome n).perform
      (fun chunk t' => t' = t ++ [.read n chunk.1]) (FailedAt t (.readSome n))

variable (H s₀ pre) in
/-- The client's socket at the server. -/
theorem linkSocket : Socket (linkKernel H) (linkRely H s₀ pre) Link.trace pre :=
  ⟨linkRely_owns H s₀ pre, triple_connect, clientTriple_writeSome, clientTriple_readSome⟩

end InterProcessCourier
