import InterProcessCourier.System

/-!
# What a system keeps true

`System.Inv` says, of every moment of every run, where each party stands: which of its calls have
returned, that each did what `Performs` allows, and at which point of the next call the thread is.
A party that has ended stands where it ended. What a party has sent and taken stays tied to the
server's share of the world, whether the party has ended or not.

While a party has not ended, `Party.Alive` says also what its thread will do. The server's turns and
other parties leave it alone, by `Wired.step_foreign`, and each of its own turns keeps it.

## Main results

* `systemRun_inv` — every run, at every moment
* `systemRun_own` — what every turn of the server keeps, a run keeps
-/

namespace InterProcessCourier

open Interaction

/-- Other clients' acts neither open nor close a connection. -/
theorem closed_act_of_ne {σ : Type} (w : World σ) {a : ClientAct} {c : ℕ} (ha : a.client ≠ c) :
    (a.apply w).closed c = w.closed c := by
  cases a with
  | connect d => rw [ClientAct.apply]; split_ifs <;> rfl
  | send d bs => rw [ClientAct.apply]; split_ifs <;> rfl
  | close d =>
    rw [ClientAct.apply]
    split_ifs
    · exact Function.update_of_ne (Ne.symm ha) _ _
    · rfl

theorem Link.Inv.acts {σ : Type} {H : RequestHandler σ} {s₀ : σ} {l : Link σ} (h : l.Inv H s₀)
    (as : List LinkAct) :
    (as.foldl (fun l a => a.apply H l) l).Inv H s₀ := by
  induction as generalizing l with
  | nil => exact h
  | cons a as ih => exact ih (h.act a)

variable [Protobuf]

/-- Calls that have returned, and what they leave of the client. -/
inductive Recorded (client : SyncClient) : List Record → SyncClient → Prop
  | nil : Recorded client [] client
  | concat {rs : List Record} {call : ClientCall} {r : call.Result} {client' client'' : SyncClient}
    {t : List Io} (hrs : Recorded client rs client') (hcall : Performs client' call r client'' t) :
    Recorded client (rs ++ [⟨⟨call, r⟩, t⟩]) client''

/-- The thread stands at an operation of the call that follows `start`. -/
def Session.Calling (start : Session) (past : List Io) (op : ClientOp) (t : List Io) : Prop :=
  ∃ call todo t', start.todo = call :: todo ∧ Within start.client call op t' ∧ t = past ++ t'

/-- The call that follows `start` has returned. -/
def Session.Called (start : Session) (past : List Io) (session : Session) (t : List Io) : Prop :=
  ∃ call todo, ∃ r : call.Result, ∃ client' t', start.todo = call :: todo ∧
    Performs start.client call r client' t' ∧ t = past ++ t' ∧
    session = ⟨client', start.outcomes ++ [⟨call, r⟩], todo⟩

namespace Party

variable {σ : Type} {H : RequestHandler σ} {s₀ : σ} {app : Application} {p : Party}
  {start : Session} {server server' : ServerConfig σ}

/-- The calls of the application that have returned have led to `start`. -/
structure Book (app : Application) (p : Party) (start : Session) : Prop where
  outcomes : start.outcomes = p.records.map Record.outcome
  recorded : Recorded app.client p.records start.client
  calls : start.outcomes.map Outcome.call ++ start.todo = app.calls

/-- The thread stands after the calls that have returned, or in the next one. -/
def Stands (p : Party) (start : Session) : Prop :=
  p.thread = .ret start ∧ p.trace = p.past ∨
    ∃ op k, p.thread = .call op k ∧ start.Calling p.past op p.trace

/-- The party goes on from `start`, among the server and others. -/
structure Alive (H : RequestHandler σ) (s₀ : σ) (p : Party) (start : Session)
    (server : ServerConfig σ) : Prop where
  safe : Safe (linkKernel H) (linkRely H s₀ (start.Calling p.past))
    (Safe.Post (fun session l => session = start ∧ l.trace = p.past ∨
      start.Called p.past session l.trace) fun _ _ => False) p.thread ⟨p.trace, server⟩
  settled : ∀ session, p.thread = .ret session → session = start ∧ p.trace = p.past

theorem Alive.inv (h : p.Alive H s₀ start server) : (⟨p.trace, server⟩ : Link σ).Inv H s₀ :=
  h.safe.inv (linkRely_owns H s₀ _).toFits

theorem Alive.stands (h : p.Alive H s₀ start server) : p.Stands start := by
  have hsafe := h.safe
  have hsettled := h.settled
  generalize hthread : p.thread = thread at *
  cases thread with
  | ret session =>
    obtain ⟨rfl, htrace⟩ := hsettled session rfl
    exact .inl ⟨hthread, htrace⟩
  | raise e => exact (hsafe.post_error (linkRely_owns H s₀ _).toFits).elim
  | call op k => exact .inr ⟨op, k, hthread, hsafe.pre (linkRely_owns H s₀ _).toFits⟩

theorem Book.init (app : Application) :
    Book app { thread := .ret { client := app.client, todo := app.calls } }
      { client := app.client, todo := app.calls } :=
  ⟨rfl, .nil, rfl⟩

theorem Alive.init (H : RequestHandler σ) (s₀ : σ) (app : Application) :
    Alive H s₀ { thread := .ret { client := app.client, todo := app.calls } }
      { client := app.client, todo := app.calls } ⟨.ret (.goto .accept), .init s₀⟩ where
  safe l hl := ⟨hl.2 (.init H s₀), .inl ⟨rfl, hl.1⟩⟩
  settled session h := by
    cases h
    exact ⟨rfl, rfl⟩

/-- The surroundings move. -/
theorem Alive.env (h : p.Alive H s₀ start server)
    (hserver : (⟨p.trace, server⟩ : Link σ).Inv H s₀ →
      (⟨p.trace, server'⟩ : Link σ).Inv H s₀) : p.Alive H s₀ start server' where
  safe := h.safe.env (linkRely_owns H s₀ _).toFits ⟨rfl, hserver⟩
  settled := h.settled

theorem resume_eq {r : List Record} {thread : ClientCode Session} {trace : List Io}
    (h : p.returned thread trace = r) :
    p.resume thread trace = { p with thread, trace, records := p.records ++ r } := by
  rw [resume, h]

/-- Once the thread is back from a call, the call is on record. -/
theorem Book.settle (hbook : p.Book app start) {thread : ClientCode Session} {trace : List Io}
    (hsafe : Safe (linkKernel H) (linkRely H s₀ (start.Calling p.past))
      (Safe.Post (fun session l => session = start ∧ l.trace = p.past ∨
        start.Called p.past session l.trace) fun _ _ => False) thread ⟨trace, server⟩) :
    ∃ start', (p.resume thread trace).Book app start' ∧
      (p.resume thread trace).Alive H s₀ start' server := by
  have hR := (linkRely_owns H s₀ (start.Calling p.past)).toFits
  have hlength : start.outcomes.length = p.records.length := by rw [hbook.outcomes, List.length_map]
  cases thread with
  | raise e => exact (hsafe.post_error hR).elim
  | call op k =>
    refine ⟨start, ?_⟩
    rw [resume_eq (r := []) rfl, List.append_nil]
    exact ⟨⟨hbook.outcomes, hbook.recorded, hbook.calls⟩, ⟨hsafe, nofun⟩⟩
  | ret session =>
    rcases hsafe.post_ok hR with ⟨rfl, htrace⟩ |
      ⟨call, todo, r, client', t', htodo, hperforms, htrace, rfl⟩
    · refine ⟨session, ?_⟩
      rw [resume_eq (r := []) (by simp [returned, ← hlength]), List.append_nil]
      refine ⟨⟨hbook.outcomes, hbook.recorded, hbook.calls⟩, ⟨hsafe, fun session' h => ?_⟩⟩
      cases h
      exact ⟨rfl, htrace⟩
    · change trace = p.past ++ t' at htrace
      subst htrace
      refine ⟨⟨client', start.outcomes ++ [⟨call, r⟩], todo⟩, ?_⟩
      rw [resume_eq (r := [⟨⟨call, r⟩, t'⟩]) (by simp [returned, ← hlength])]
      refine ⟨⟨by simp [hbook.outcomes], hbook.recorded.concat hperforms, ?_⟩, ⟨?_, ?_⟩⟩
      · simpa [htodo] using hbook.calls
      · intro l hl
        refine ⟨hl.2 (hsafe.inv hR), .inl ⟨rfl, ?_⟩⟩
        rw [hl.1]
        simp [past]
      · intro session' h
        cases h
        exact ⟨rfl, by simp [past]⟩

/-! ### The connection of a party -/

/-- Connection `c` of the server is the socket of a party, ended or not. -/
structure Tied (p : Party) (w : World σ) (c : ℕ) : Prop where
  sent : w.sent c = sentOf p.trace
  taken : takenOf p.trace <+: w.own.written c
  closed : w.closed c = p.gone

/-- Where a party stands, ended or not. -/
structure Sound (H : RequestHandler σ) (s₀ : σ) (app : Application) (p : Party)
    (server : ServerConfig σ) : Prop where
  stands : ∃ start, p.Book app start ∧ p.Stands start ∧
    (p.gone = false → p.Alive H s₀ start server)
  orderly : Orderly p.trace
  tied : ∀ c, connectionOf p.trace = some c → p.Tied server.world c

theorem Sound.init (H : RequestHandler σ) (s₀ : σ) (app : Application) :
    Sound H s₀ app { thread := .ret { client := app.client, todo := app.calls } }
      ⟨.ret (.goto .accept), .init s₀⟩ where
  stands := ⟨_, .init _, (Alive.init H s₀ _).stands, fun _ => .init H s₀ _⟩
  orderly := .nil
  tied _ h := by cases h

variable {c : ℕ}

theorem Tied.turn (h : p.Tied server.world c) (choice : Choice) : p.Tied
    ((serverKernel H).step (Flow.next SyncServer.startFrom) server (.turn choice)).world c := by
  rcases (serverKernel H).step_turn (Flow.next SyncServer.startFrom) server choice with
    hsame | ⟨op, k, r, -, hturn⟩
  · rw [hsame]
    exact h
  · have hconsumed := turn_consumed hturn
    exact ⟨(congrFun (sent_turn hturn) c).trans h.sent, h.taken.trans (hconsumed.written c),
      (congrFun hconsumed.closed c).trans h.closed⟩

theorem Tied.act {w : World σ} (h : p.Tied w c) {a : ClientAct} (ha : a.client ≠ c) :
    p.Tied (a.apply w) c where
  sent := (sent_act_of_ne w ha).trans h.sent
  taken := by
    rw [a.apply_own]
    exact h.taken
  closed := (closed_act_of_ne w ha).trans h.closed

/-- What reaches a party from the rest of the system leaves its connection its own. -/
theorem Tied.foldl {l : Link σ} (h : p.Tied l.server.world c)
    (hc : connectionOf l.trace = some c) (as : List LinkAct) :
    p.Tied (as.foldl (fun l a => a.apply H l) l).server.world c := by
  induction as generalizing l with
  | nil => exact h
  | cons a as ih =>
    refine ih ?_ (by rw [a.apply_trace, hc])
    cases a with
    | server choice => exact h.turn choice
    | other a =>
      change p.Tied ((LinkAct.other a).apply H l).server.world c
      rw [LinkAct.apply]
      split_ifs with hown
      · exact h
      · exact h.act fun hac => hown (by rw [hc, hac])

/-- **What a party takes no part in.** -/
theorem Sound.env (h : p.Sound H s₀ app server) {as : List LinkAct}
    (has : (⟨p.trace, server'⟩ : Link σ) =
      as.foldl (fun l a => a.apply H l) ⟨p.trace, server⟩) : p.Sound H s₀ app server' where
  stands := by
    obtain ⟨start, hbook, hstands, halive⟩ := h.stands
    refine ⟨start, hbook, hstands, fun hgone => (halive hgone).env fun hinv => ?_⟩
    rw [has]
    exact hinv.acts as
  orderly := h.orderly
  tied c hc := by
    have htied := (h.tied c hc).foldl (H := H) (l := ⟨p.trace, server⟩) hc as
    rwa [← has] at htied

variable [LawfulProtobuf]

/-- **A turn of the party.** -/
theorem Alive.turn (h : p.Alive H s₀ start server) (hbook : p.Book app start) (choice : Choice) :
    let cfg := (linkKernel H).step Session.next ⟨p.thread, ⟨p.trace, server⟩⟩ (.turn choice)
    ∃ start', (p.resume cfg.rest cfg.world.trace).Book app start' ∧
      (p.resume cfg.rest cfg.world.trace).Alive H s₀ start' cfg.world.server := by
  refine hbook.settle ?_
  have hR := (linkRely_owns H s₀ (start.Calling p.past)).toFits
  obtain ⟨hsafe, hsettled⟩ := h
  generalize p.thread = thread at *
  cases thread with
  | raise e => exact (hsafe.post_error hR).elim
  | ret session =>
    obtain ⟨rfl, htrace⟩ := hsettled session rfl
    cases hnext : session.next with
    | none =>
      have hstep : (linkKernel H).step Session.next ⟨.ret session, ⟨p.trace, server⟩⟩
          (.turn choice) = ⟨.ret session, ⟨p.trace, server⟩⟩ := by
        simp [Kernel.step, hnext]
      rw [hstep]
      exact hsafe
    | some q =>
      have hstep : (linkKernel H).step Session.next ⟨.ret session, ⟨p.trace, server⟩⟩
          (.turn choice) = ⟨q, ⟨p.trace, server⟩⟩ := by
        simp [Kernel.step, hnext]
      rw [hstep]
      have hcalling : ∀ call todo op t, session.todo = call :: todo →
          Within session.client call op t → session.Calling p.past op (p.past ++ t) :=
        fun call todo op t htodo hwithin => ⟨call, todo, t, htodo, hwithin, rfl⟩
      have htriple := triple_next (linkSocket H s₀ (session.Calling p.past)) hnext hcalling
      refine (htriple ⟨p.trace, server⟩ (hsafe.inv hR) htrace).mono fun r l _ hr => ?_
      cases r with
      | ok session' => exact .inr hr
      | error e => exact hr
  | call op k =>
    cases hp : (linkKernel H).perform op choice ⟨p.trace, server⟩ with
    | none =>
      have hstep : (linkKernel H).step Session.next ⟨.call op k, ⟨p.trace, server⟩⟩
          (.turn choice) = ⟨.call op k, ⟨p.trace, server⟩⟩ := by
        simp [Kernel.step, hp]
      rw [hstep]
      exact hsafe
    | some rl =>
      obtain ⟨r, l'⟩ := rl
      rw [Kernel.step_call hp]
      exact (hsafe _ (hR.refl _)).2.2 choice r l' hp

end Party

/-! ### The system -/

namespace System

variable {ι σ : Type} {H : RequestHandler σ} {s₀ : σ} {apps : ι → Application} {s : System ι σ}

/-- The invariant of the system. -/
structure Inv (H : RequestHandler σ) (s₀ : σ) (apps : ι → Application) (s : System ι σ) : Prop
    extends s.Wired where
  server : Safe (serverKernel H) (serverRely H s₀) serverPost s.server.rest s.server.world
  sound : ∀ i, (s.party i).Sound H s₀ (apps i) s.server

theorem Inv.init (H : RequestHandler σ) (s₀ : σ) (apps : ι → Application) :
    (init s₀ apps).Inv H s₀ apps where
  toWired := .init s₀ apps
  server := (Link.Inv.init H s₀).server
  sound i := .init H s₀ (apps i)

theorem Inv.own (h : s.Inv H s₀ apps) : s.server.world.own.Inv H s₀ ∧ s.server.world.Shared :=
  h.server.inv (serverRely_owns H s₀).toFits

variable [DecidableEq ι]

/-- The server's side of a step. -/
theorem Inv.safe_step (h : s.Inv H s₀ apps) (e : SystemEvent ι) :
    Safe (serverKernel H) (serverRely H s₀) serverPost (s.step H e).server.rest
      (s.step H e).server.world := by
  cases e with
  | server choice => exact serverSafe_run H s₀ h.server [.turn choice]
  | party i choice =>
    cases hi : (s.party i).gone with
    | true =>
      rw [(step_of_gone hi choice).1]
      exact h.server
    | false =>
      rcases (step_party_moves (H := H) hi choice).server with hsame | ⟨a, hact, -⟩
      · rw [show (s.step H (.party i choice)).server = s.server from hsame]
        exact h.server
      · rw [show (s.step H (.party i choice)).server = _ from hact]
        exact serverSafe_run H s₀ h.server [.act a]
  | exit i =>
    cases hi : (s.party i).gone with
    | true =>
      rw [(step_of_gone hi (.transfer 0)).2]
      exact h.server
    | false =>
      cases hc : connectionOf (s.party i).trace with
      | none => simpa [step, hi, hc] using h.server
      | some c =>
        have hstep : (s.step H (.exit i)).server =
            (serverKernel H).step (Flow.next SyncServer.startFrom) s.server (.act (.close c)) := by
          simp [step, hi, hc, Link.step, System.link]
        rw [hstep]
        exact serverSafe_run H s₀ h.server [.act (.close c)]

/-- The parties' ends. -/
theorem step_exit_self {i : ι} (hi : (s.party i).gone = false) :
    (s.step H (.exit i)).party i = { s.party i with gone := true } := by
  simp [step, hi]

/-- **A party ends.** -/
theorem Inv.sound_exit (h : s.Inv H s₀ apps) {i : ι} (hi : (s.party i).gone = false) :
    ((s.step H (.exit i)).party i).Sound H s₀ (apps i) (s.step H (.exit i)).server := by
  obtain ⟨start, hbook, hstands, -⟩ := (h.sound i).stands
  rw [step_exit_self hi]
  refine ⟨⟨start, ⟨hbook.outcomes, hbook.recorded, hbook.calls⟩, hstands, nofun⟩,
    (h.sound i).orderly, fun c hc => ?_⟩
  have hworld : (s.step H (.exit i)).server.world = (ClientAct.close c).apply s.server.world := by
    have hconnected : connectionOf (s.party i).trace = some c := hc
    simp only [step, hi, hconnected]
    rfl
  have hold := (h.sound i).tied c hc
  rw [hworld]
  refine ⟨?_, ?_, ?_⟩
  · rw [sent_act]
    simpa using hold.sent
  · rw [ClientAct.apply_own]
    exact hold.taken
  · have hknown : c ∈ s.server.world.own.accepted ++ s.server.world.backlog := h.known i c hc
    rw [ClientAct.apply, if_pos hknown]
    exact Function.update_self ..

variable [LawfulProtobuf]

/-- **A party takes a turn.** -/
theorem Inv.sound_party (h : s.Inv H s₀ apps) {i : ι} (hi : (s.party i).gone = false)
    (choice : Choice) : ((s.step H (.party i choice)).party i).Sound H s₀ (apps i)
      (s.step H (.party i choice)).server := by
  obtain ⟨start, hbook, -, halive⟩ := (h.sound i).stands
  obtain ⟨start', hbook', halive'⟩ := (halive hi).turn hbook choice
  have hparty : (s.step H (.party i choice)).party i = (s.party i).resume
      ((linkKernel H).step Session.next (s.view i) (.turn choice)).rest
      ((linkKernel H).step Session.next (s.view i) (.turn choice)).world.trace := by
    simp [step_party hi]
  have hserver : (s.step H (.party i choice)).server =
      ((linkKernel H).step Session.next (s.view i) (.turn choice)).world.server := by
    rw [step_party hi]
  rw [hparty, hserver]
  refine ⟨⟨start', hbook', halive'.stands, fun _ => halive'⟩, halive'.inv.orderly, fun c hc => ?_⟩
  have hconnected := halive'.inv.connected c hc
  exact ⟨hconnected.sent, hconnected.taken, hconnected.opened.trans hi.symm⟩

/-- **A step.** -/
theorem Inv.step (h : s.Inv H s₀ apps) (e : SystemEvent ι) : (s.step H e).Inv H s₀ apps := by
  refine ⟨h.toWired.step e, h.safe_step e, fun i => ?_⟩
  by_cases he : e.Foreign i
  · obtain ⟨hparty, as, has⟩ := h.toWired.step_foreign (H := H) he
    have hlink : (⟨(s.party i).trace, (s.step H e).server⟩ : Link σ) = (s.step H e).link i := by
      rw [System.link, hparty]
    rw [hparty]
    exact (h.sound i).env (hlink.trans has)
  · cases hgone : (s.party i).gone with
    | true =>
      have hsame : s.step H e = s := by
        cases e with
        | server choice => exact absurd trivial he
        | party j choice =>
          obtain rfl : j = i := not_not.mp he
          exact (step_of_gone hgone choice).1
        | exit j =>
          obtain rfl : j = i := not_not.mp he
          exact (step_of_gone hgone (.transfer 0)).2
      rw [hsame]
      exact h.sound i
    | false =>
      cases e with
      | server choice => exact absurd trivial he
      | party j choice =>
        obtain rfl : j = i := not_not.mp he
        exact h.sound_party hgone choice
      | exit j =>
        obtain rfl : j = i := not_not.mp he
        exact h.sound_exit hgone

end System

/-- **Every run, at every moment.** -/
theorem systemRun_inv [LawfulProtobuf] {ι σ : Type} [DecidableEq ι] (H : RequestHandler σ) (s₀ : σ)
    (apps : ι → Application) (es : List (SystemEvent ι)) :
    (systemRun H s₀ apps es).Inv H s₀ apps := by
  induction es using List.reverseRecOn with
  | nil => exact .init H s₀ apps
  | append_singleton es e ih =>
    rw [systemRun_concat]
    exact ih.step e

/-! ### What is the server's own -/

section Own

variable {ι σ : Type} [DecidableEq ι] {H : RequestHandler σ} {s₀ : σ} {apps : ι → Application}
  {s : System ι σ}

/-- **Only a turn of the server** changes what is its own, and it asks for an operation that it may
ask for. -/
theorem System.Inv.own_step (h : s.Inv H s₀ apps) (e : SystemEvent ι) :
    (s.step H e).server.world.own = s.server.world.own ∨
      ∃ op choice, ∃ r : Except Exception (serverSignature.Ans op), e = .server choice ∧
        op.pre s.server.world.own ∧
        (serverKernel H).perform op choice s.server.world =
          some (r, (s.step H e).server.world) := by
  cases e with
  | exit i => exact .inl (own_exit s i)
  | party i choice =>
    left
    cases hi : (s.party i).gone with
    | true => rw [(step_of_gone hi choice).1]
    | false => exact (step_party_moves (H := H) hi choice).own
  | server choice =>
    rcases (serverKernel H).step_turn (Flow.next SyncServer.startFrom) s.server choice with
      hsame | ⟨op, rest, r, hrest, hturn⟩
    · exact .inl (congrArg World.own hsame)
    · have hsafe := h.server
      rw [hrest] at hsafe
      exact .inr ⟨op, choice, r, rfl, hsafe.pre (serverRely_owns H s₀).toFits, hturn⟩

/-- What every turn of the server keeps, a run keeps. -/
theorem systemRun_own [LawfulProtobuf] {P : Own σ → Prop}
    (hturn : ∀ {w w' : World σ} {op choice} {r : Except Exception (serverSignature.Ans op)},
      op.pre w.own → (serverKernel H).perform op choice w = some (r, w') → P w.own → P w'.own)
    (es : List (SystemEvent ι)) (h : P (systemRun H s₀ apps es).server.world.own)
    (fs : List (SystemEvent ι)) : P (systemRun H s₀ apps (es ++ fs)).server.world.own := by
  induction fs using List.reverseRecOn with
  | nil => rwa [List.append_nil]
  | append_singleton fs e ih =>
    rw [← List.append_assoc, systemRun_concat]
    rcases (systemRun_inv H s₀ apps (es ++ fs)).own_step e with
      hsame | ⟨op, choice, r, -, hpre, hperform⟩
    · rwa [hsame]
    · exact hturn hpre hperform ih

end Own

end InterProcessCourier
