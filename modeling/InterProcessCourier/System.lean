import InterProcessCourier.Attribution
import InterProcessCourier.Sessions

/-!
# A server and its clients

The whole system: one server, and any number of processes that each make calls on a client of their
own. A process may end at any moment, in the middle of a call or between two, and its socket is then
closed. The server's thread, the processes and their ends are interleaved in any order.

A `Party` is a process, with the history of its socket. `Party.records` is a history variable: the
calls that have returned, each with what happened at the socket in its course.

From where one party stands, the rest of the system is a server among other clients. This is
`party_simulates`: `systemRun` and `clientRun` agree on what a client can do and see. What follows
about systems is proved from `System.Wired` and the server's invariants.

## Main definitions

* `System`, `System.step`, `systemRun` — the system and its runs
* `System.Wired` — connections belong to one party each

## Main results

* `party_simulates` — a party of a system is a client among other clients
-/

namespace InterProcessCourier

open Interaction

/-! ### What a turn does to a link -/

section Moves

variable {σ : Type} {H : RequestHandler σ} {l l' : Link σ} {c : ℕ}

/-- What a turn of the client can come to, for its socket and the server. -/
inductive Link.Moves (H : RequestHandler σ) (l : Link σ) : Link σ → Prop
  | still : Moves H l l
  | connects {c : ℕ} (hnone : connectionOf l.trace = none)
    (hfresh : c ∉ l.server.world.own.accepted ++ l.server.world.backlog) :
    Moves H l ((l.step H (.act (.connect c))).log (.connected c))
  | writes {c : ℕ} (hc : connectionOf l.trace = some c) (bs : Bytes) :
    Moves H l ((l.step H (.act (.send c bs))).log (.wrote bs))
  | reads {c : ℕ} (hc : connectionOf l.trace = some c) (n : ℕ) {bs : Bytes}
    (hbs : bs <+: l.untaken c) : Moves H l (l.log (.read n bs))
  | fails (op : ClientOp) : Moves H l (l.log (.failed op))

theorem linkTurn_moves {op : ClientOp} {choice : Choice}
    {r : Except Exception (clientSignature.Ans op)}
    (h : (linkKernel H).perform op choice l = some (r, l')) : l.Moves H l' := by
  match op with
  | .connect =>
    rcases linkTurn_connect h with ⟨c, -, hnone, hfresh, rfl⟩ | ⟨code, what, -, rfl⟩
    · exact .connects hnone hfresh
    · exact .fails _
  | .writeSome bs =>
    rcases linkTurn_writeSome h with ⟨k, c, -, hc, rfl⟩ | ⟨code, what, -, rfl⟩
    · exact .writes hc _
    · exact .fails _
  | .readSome n =>
    rcases linkTurn_readSome h with ⟨chunk, c, -, hc, hchunk, rfl⟩ | ⟨code, what, -, rfl⟩
    · exact .reads hc n hchunk
    · exact .fails _

namespace Link.Moves

theorem trace (h : l.Moves H l') : l.trace <+: l'.trace := by
  cases h with
  | still => exact List.prefix_rfl
  | connects hnone hfresh => exact List.prefix_append _ _
  | writes hc bs => exact List.prefix_append _ _
  | reads hc n hbs => exact List.prefix_append _ _
  | fails op => exact List.prefix_append _ _

/-- The server notices nothing, or an act on the client's connection. -/
theorem server (h : l.Moves H l') : l'.server = l.server ∨
    ∃ a, l'.server = (l.step H (.act a)).server ∧ connectionOf l'.trace = some a.client ∧
      (connectionOf l.trace = some a.client ∨
        a.client ∉ l.server.world.own.accepted ++ l.server.world.backlog) := by
  cases h with
  | still => exact .inl rfl
  | @connects c hnone hfresh =>
    exact .inr ⟨.connect c, rfl, by simp [hnone, ClientAct.client], .inr hfresh⟩
  | @writes c hc bs => exact .inr ⟨.send c bs, rfl, by simp [hc, ClientAct.client], .inl hc⟩
  | reads hc n hbs => exact .inl rfl
  | fails op => exact .inl rfl

/-- A socket stays what it is, or becomes a new connection. -/
theorem connection (h : l.Moves H l') : connectionOf l'.trace = connectionOf l.trace ∨
    ∃ c, connectionOf l'.trace = some c ∧
      c ∉ l.server.world.own.accepted ++ l.server.world.backlog ∧
      c ∈ l'.server.world.own.accepted ++ l'.server.world.backlog := by
  cases h with
  | still => exact .inl rfl
  | @connects c hnone hfresh =>
    refine .inr ⟨c, by simp [hnone], hfresh, ?_⟩
    have hworld : (l.step H (.act (.connect c))).server.world =
        { l.server.world with backlog := l.server.world.backlog ++ [c] } := if_neg hfresh
    simp [hworld]
  | writes hc bs => exact .inl (by simp)
  | reads hc n hbs => exact .inl (by simp)
  | fails op => exact .inl (by simp)

theorem own (h : l.Moves H l') : l'.server.world.own = l.server.world.own := by
  rcases h.server with hsame | ⟨a, hact, -⟩
  · rw [hsame]
  · rw [hact]
    exact a.apply_own _

/-- A connection that the server comes to know is the client's. -/
theorem mem_connections (h : l.Moves H l')
    (hc : c ∈ l'.server.world.own.accepted ++ l'.server.world.backlog) :
    c ∈ l.server.world.own.accepted ++ l.server.world.backlog ∨
      connectionOf l'.trace = some c := by
  cases h with
  | still => exact .inl hc
  | @connects d hnone hfresh =>
    have hworld : (l.step H (.act (.connect d))).server.world =
        { l.server.world with backlog := l.server.world.backlog ++ [d] } := if_neg hfresh
    rw [Link.log_server, hworld, ← List.append_assoc, List.mem_append, List.mem_singleton] at hc
    exact hc.imp_right fun hd => by simp [hnone, hd]
  | @writes d hd bs =>
    left
    have hworld : (ClientAct.send d bs).apply l.server.world = l.server.world ∨
        (ClientAct.send d bs).apply l.server.world =
          { l.server.world with
            unread :=
              Function.update l.server.world.unread d (l.server.world.unread d ++ bs) } := by
      rw [ClientAct.apply]
      split_ifs
      · exact .inr rfl
      · exact .inl rfl
    change c ∈ (ClientAct.apply _ _).own.accepted ++ (ClientAct.apply _ _).backlog at hc
    rcases hworld with hworld | hworld <;> rwa [hworld] at hc
  | reads hd n hbs => exact .inl hc
  | fails op => exact .inl hc

/-- Connections stay known. -/
theorem known (h : l.Moves H l')
    (hc : c ∈ l.server.world.own.accepted ++ l.server.world.backlog) :
    c ∈ l'.server.world.own.accepted ++ l'.server.world.backlog := by
  rcases h.server with hsame | ⟨a, hact, -⟩
  · rwa [hsame]
  · rw [hact]
    exact Link.mem_apply a hc

end Link.Moves

end Moves

/-! ### Parties -/

section

variable [Protobuf]

/-- A call that has returned, and what happened at the socket in its course. -/
structure Record where
  outcome : Outcome
  io : List Io

/-- A process with a client. -/
structure Party where
  thread : ClientCode Session
  /-- What happened at the socket, oldest first. -/
  trace : List Io := []
  /-- The calls that have returned, oldest first. -/
  records : List Record := []
  /-- The process has ended. -/
  gone : Bool := false

namespace Party

variable (p : Party)

/-- What happened at the socket in the calls that have returned. -/
def past : List Io := p.records.flatMap Record.io

/-- The calls that have returned once the thread is here. -/
def returned (thread : ClientCode Session) (trace : List Io) : List Record :=
  match thread with
  | .ret session =>
    (session.outcomes.drop p.records.length).map fun outcome =>
      ⟨outcome, trace.drop p.past.length⟩
  | .raise _ => []
  | .call _ _ => []

/-- The process has taken a turn. -/
def resume (thread : ClientCode Session) (trace : List Io) : Party :=
  { p with thread, trace, records := p.records ++ p.returned thread trace }

end Party

/-- An application: its client, and the calls it makes on it. -/
structure Application where
  client : SyncClient
  calls : List ClientCall

/-- The server and the parties. -/
structure System (ι σ : Type) where
  party : ι → Party
  server : ServerConfig σ

/-- Who moves. -/
inductive SystemEvent (ι : Type)
  | server (choice : Choice)
  | party (i : ι) (choice : Choice)
  /-- The process ends. -/
  | exit (i : ι)
  deriving DecidableEq

/-- An event in which the party takes no part. -/
def SystemEvent.Foreign {ι : Type} (j : ι) : SystemEvent ι → Prop
  | server _ => True
  | party i _ => i ≠ j
  | exit i => i ≠ j

namespace System

variable {ι σ : Type}

/-- The server listens, and nobody has made a call. -/
def init (s₀ : σ) (apps : ι → Application) : System ι σ where
  party i := { thread := .ret { client := (apps i).client, todo := (apps i).calls } }
  server := ⟨.ret (.goto .accept), .init s₀⟩

/-- A party's socket and the server. -/
def link (s : System ι σ) (i : ι) : Link σ := ⟨(s.party i).trace, s.server⟩

/-- The system as a party sees it. -/
def view (s : System ι σ) (i : ι) : Config clientSignature Exception Session (Link σ) :=
  ⟨(s.party i).thread, s.link i⟩

variable [DecidableEq ι] (H : RequestHandler σ)

/-- One event. A process that has ended moves no more; the kernel closes its socket. -/
def step (s : System ι σ) : SystemEvent ι → System ι σ
  | .server choice =>
    { s with
      server := (serverKernel H).step (Flow.next SyncServer.startFrom) s.server (.turn choice) }
  | .party i choice =>
    if (s.party i).gone then s
    else
      let cfg := (linkKernel H).step Session.next (s.view i) (.turn choice)
      { party := Function.update s.party i ((s.party i).resume cfg.rest cfg.world.trace)
        server := cfg.world.server }
  | .exit i =>
    if (s.party i).gone then s
    else
      { party := Function.update s.party i { s.party i with gone := true }
        server :=
          match connectionOf (s.party i).trace with
          | some c => ((s.link i).step H (.act (.close c))).server
          | none => s.server }

end System

/-- The system, after some events. -/
def systemRun {ι σ : Type} [DecidableEq ι] (H : RequestHandler σ) (s₀ : σ)
    (apps : ι → Application) (es : List (SystemEvent ι)) : System ι σ :=
  es.foldl (System.step H) (.init s₀ apps)

section

variable {ι σ : Type} [DecidableEq ι] {H : RequestHandler σ} {s₀ : σ} {apps : ι → Application}

theorem systemRun_concat (es : List (SystemEvent ι)) (e : SystemEvent ι) :
    systemRun H s₀ apps (es ++ [e]) = (systemRun H s₀ apps es).step H e := by
  simp [systemRun]

end

theorem linkStep_moves {σ : Type} {H : RequestHandler σ}
    (cfg : Config clientSignature Exception Session (Link σ)) (choice : Choice) :
    cfg.world.Moves H ((linkKernel H).step Session.next cfg (.turn choice)).world := by
  rcases (linkKernel H).step_turn Session.next cfg choice with hsame | ⟨op, k, r, -, hturn⟩
  · rw [hsame]
    exact .still
  · exact linkTurn_moves hturn

/-- Acts of the surroundings, one after another. -/
theorem linkRun_acts {σ : Type} {H : RequestHandler σ} (p : ClientCode Session) (l : Link σ)
    (as : List LinkAct) : (linkKernel H).run Session.next ⟨p, l⟩ (as.map .act) =
      ⟨p, as.foldl (fun l a => a.apply H l) l⟩ := by
  induction as generalizing l with
  | nil => rfl
  | cons a as ih => exact ih _

/-! ### One party among the others -/

namespace System

variable {ι σ : Type} {H : RequestHandler σ} {s₀ : σ} {apps : ι → Application} {s : System ι σ}

/-- The connections that the server knows. -/
def connections (s : System ι σ) : List ℕ :=
  s.server.world.own.accepted ++ s.server.world.backlog

/-- Connections belong to one party each. -/
structure Wired (s : System ι σ) : Prop where
  known : ∀ i c, connectionOf (s.party i).trace = some c → c ∈ s.connections
  distinct : ∀ i j c, connectionOf (s.party i).trace = some c →
    connectionOf (s.party j).trace = some c → i = j
  owned : ∀ c ∈ s.connections, ∃ i, connectionOf (s.party i).trace = some c

theorem Wired.init (s₀ : σ) (apps : ι → Application) : (init s₀ apps).Wired where
  known _ _ h := by cases h
  distinct _ _ _ h := by cases h
  owned _ h := by cases h

/-- What another party does reaches a party as acts on a connection that is not its own. -/
theorem Wired.moves_other (hw : s.Wired) {i j : ι} (hne : i ≠ j) {l' : Link σ}
    (hmoves : (s.link i).Moves H l') :
    ∃ as : List LinkAct, (⟨(s.party j).trace, l'.server⟩ : Link σ) =
      as.foldl (fun l a => a.apply H l) (s.link j) := by
  rcases hmoves.server with hsame | ⟨a, hact, -, hconnection⟩
  · exact ⟨[], by rw [hsame]; rfl⟩
  · refine ⟨[.other a], ?_⟩
    have hother : connectionOf (s.link j).trace ≠ some a.client := by
      intro hj
      rcases hconnection with hi | hfresh
      · exact hne (hw.distinct i j _ hi hj)
      · exact hfresh (hw.known j _ hj)
    rw [hact, List.foldl_cons, List.foldl_nil, LinkAct.apply, if_neg hother]
    rfl

variable [DecidableEq ι]

theorem step_party {i : ι} (hi : (s.party i).gone = false) (choice : Choice) :
    s.step H (.party i choice) =
      let cfg := (linkKernel H).step Session.next (s.view i) (.turn choice)
      { party := Function.update s.party i ((s.party i).resume cfg.rest cfg.world.trace)
        server := cfg.world.server } := by
  simp [step, hi]

theorem step_of_gone {i : ι} (hi : (s.party i).gone = true) (choice : Choice) :
    s.step H (.party i choice) = s ∧ s.step H (.exit i) = s := by
  simp [step, hi]

/-- A party's turn is a turn of its own. -/
theorem view_step_self {i : ι} (hi : (s.party i).gone = false) (choice : Choice) :
    (s.step H (.party i choice)).view i =
      (linkKernel H).step Session.next (s.view i) (.turn choice) := by
  rw [step_party hi]
  simp [view, link, Party.resume]

/-- **What a party does not take part in** leaves it as it is, and reaches it as a server's turns
and as acts of other clients. -/
theorem Wired.step_foreign (hw : s.Wired) {j : ι} {e : SystemEvent ι} (he : e.Foreign j) :
    (s.step H e).party j = s.party j ∧
      ∃ as : List LinkAct, (s.step H e).link j = as.foldl (fun l a => a.apply H l) (s.link j) := by
  cases e with
  | server choice => exact ⟨rfl, [.server choice], rfl⟩
  | party i choice =>
    have hne : i ≠ j := he
    cases hi : (s.party i).gone with
    | true =>
      rw [(step_of_gone hi choice).1]
      exact ⟨rfl, [], rfl⟩
    | false =>
      rw [step_party hi]
      obtain ⟨as, has⟩ := hw.moves_other hne (linkStep_moves (H := H) (s.view i) choice)
      exact ⟨Function.update_of_ne hne.symm _ _, as, by simpa [link, hne.symm] using has⟩
  | exit i =>
    have hne : i ≠ j := he
    cases hi : (s.party i).gone with
    | true =>
      rw [(step_of_gone hi (.transfer 0)).2]
      exact ⟨rfl, [], rfl⟩
    | false =>
      refine ⟨by simp [step, hi, hne.symm], ?_⟩
      cases hc : connectionOf (s.party i).trace with
      | none => exact ⟨[], by simp [step, hi, hc, link, hne.symm]⟩
      | some c =>
        have hother : connectionOf (s.party j).trace ≠ some c := fun hj =>
          hne (hw.distinct i j c hc hj)
        refine ⟨[.other (.close c)], ?_⟩
        simp [step, hi, hc, link, hne.symm, LinkAct.apply, ClientAct.client, hother, Link.step]

/-- The party sees what it does not take part in. -/
theorem Wired.view_step_foreign (hw : s.Wired) {j : ι} {e : SystemEvent ι} (he : e.Foreign j) :
    ∃ as : List LinkAct,
      (s.step H e).view j = (linkKernel H).run Session.next (s.view j) (as.map .act) := by
  obtain ⟨hparty, as, has⟩ := hw.step_foreign (H := H) he
  refine ⟨as, ?_⟩
  rw [view, hparty, has]
  exact (linkRun_acts _ _ as).symm

/-! ### Runs -/

theorem connections_exit (s : System ι σ) (i : ι) :
    (s.step H (.exit i)).connections = s.connections := by
  simp only [step]
  split_ifs
  · rfl
  · split
    · next c hc =>
      change (ClientAct.apply _ _).own.accepted ++ (ClientAct.apply _ _).backlog = _
      rw [ClientAct.apply]
      split_ifs <;> rfl
    · rfl

/-- Nothing that is the server's own changes when a process ends. -/
theorem own_exit (s : System ι σ) (i : ι) :
    (s.step H (.exit i)).server.world.own = s.server.world.own := by
  simp only [step]
  split_ifs
  · rfl
  · split
    · exact ClientAct.apply_own _ _
    · rfl

theorem trace_exit (s : System ι σ) (i j : ι) :
    ((s.step H (.exit i)).party j).trace = (s.party j).trace := by
  rcases eq_or_ne j i with rfl | hne
  · cases hi : (s.party j).gone <;> simp [step, hi]
  · cases hi : (s.party i).gone <;> simp [step, hi, hne]

theorem connections_server (s : System ι σ) (choice : Choice) :
    (s.step H (.server choice)).connections = s.connections := by
  rcases (serverKernel H).step_turn (Flow.next SyncServer.startFrom) s.server choice with
    hsame | ⟨op, k, r, -, hturn⟩
  · rw [connections, connections, ← hsame]
    rfl
  · exact (turn_consumed hturn).clients

/-- What a party's turn does to its socket and the server. -/
theorem step_party_moves {i : ι} (hi : (s.party i).gone = false) (choice : Choice) :
    (s.link i).Moves H ((s.step H (.party i choice)).link i) := by
  have hmoves := linkStep_moves (H := H) (s.view i) choice
  rwa [← view_step_self hi] at hmoves

theorem Wired.step (hw : s.Wired) (e : SystemEvent ι) : (s.step H e).Wired := by
  cases e with
  | server choice =>
    refine ⟨?_, hw.distinct, ?_⟩
    · rw [connections_server]
      exact hw.known
    · rw [connections_server]
      exact hw.owned
  | exit i =>
    refine ⟨?_, ?_, ?_⟩
    · intro j c hc
      rw [trace_exit] at hc
      rw [connections_exit]
      exact hw.known j c hc
    · intro j k c hj hk
      rw [trace_exit] at hj hk
      exact hw.distinct j k c hj hk
    · intro c hc
      rw [connections_exit] at hc
      obtain ⟨j, hj⟩ := hw.owned c hc
      exact ⟨j, by rwa [trace_exit]⟩
  | party i choice =>
    cases hi : (s.party i).gone with
    | true =>
      rw [(step_of_gone hi choice).1]
      exact hw
    | false =>
      have hmoves := step_party_moves (H := H) hi choice
      have hother : ∀ j, i ≠ j → (s.step H (.party i choice)).party j = s.party j := fun j hne =>
        (hw.step_foreign (e := .party i choice) hne).1
      have hown : ∀ c, connectionOf (s.party i).trace = some c →
          connectionOf ((s.step H (.party i choice)).party i).trace = some c := by
        intro c hc
        obtain ⟨t, ht⟩ := hmoves.trace
        change connectionOf ((s.step H (.party i choice)).link i).trace = some c
        rw [← ht, connectionOf_append]
        change (connectionOf (s.party i).trace).or _ = _
        rw [hc]
        rfl
      -- the connection that a turn makes is nobody else's
      have hnew : ∀ c, connectionOf ((s.step H (.party i choice)).party i).trace = some c →
          ∀ j, i ≠ j → connectionOf (s.party j).trace ≠ some c := by
        intro c hc j hne hj
        rcases hmoves.connection with hsame | ⟨d, hd, hfresh, -⟩
        · exact hne (hw.distinct i j c (hsame.symm.trans hc) hj)
        · obtain rfl : d = c := Option.some.inj (hd.symm.trans hc)
          exact hfresh (hw.known j d hj)
      refine ⟨?_, ?_, ?_⟩
      · intro j c hc
        rcases eq_or_ne i j with rfl | hne
        · rcases hmoves.connection with hsame | ⟨d, hd, -, hknown⟩
          · exact hmoves.known (hw.known i c (hsame.symm.trans hc))
          · obtain rfl : d = c := Option.some.inj (hd.symm.trans hc)
            exact hknown
        · rw [hother j hne] at hc
          exact hmoves.known (hw.known j c hc)
      · intro j k c hj hk
        rcases eq_or_ne i j with rfl | hnej
        · rcases eq_or_ne i k with rfl | hnek
          · rfl
          · rw [hother k hnek] at hk
            exact absurd hk (hnew c hj k hnek)
        · rw [hother j hnej] at hj
          rcases eq_or_ne i k with rfl | hnek
          · exact absurd hj (hnew c hk j hnej)
          · rw [hother k hnek] at hk
            exact hw.distinct j k c hj hk
      · intro c hc
        rcases hmoves.mem_connections hc with hold | hi'
        · obtain ⟨j, hj⟩ := hw.owned c hold
          rcases eq_or_ne i j with rfl | hne
          · exact ⟨i, hown c hj⟩
          · exact ⟨j, by rwa [hother j hne]⟩
        · exact ⟨i, hi'⟩

end System

variable {ι σ : Type} [DecidableEq ι] {H : RequestHandler σ} {s₀ : σ} {apps : ι → Application}

theorem systemRun_wired (H : RequestHandler σ) (s₀ : σ) (apps : ι → Application)
    (es : List (SystemEvent ι)) : (systemRun H s₀ apps es).Wired := by
  induction es using List.reverseRecOn with
  | nil => exact .init s₀ apps
  | append_singleton es e ih =>
    rw [systemRun_concat]
    exact ih.step e

/-- A party that has ended does nothing more. -/
theorem System.step_gone {s : System ι σ} {i : ι} (hi : (s.party i).gone = true)
    (e : SystemEvent ι) : (s.step H e).party i = s.party i := by
  cases e with
  | server choice => rfl
  | party j choice =>
    rcases eq_or_ne j i with rfl | hne
    · rw [(step_of_gone hi choice).1]
    · cases hj : (s.party j).gone <;> simp [step, hj, hne.symm]
  | exit j =>
    rcases eq_or_ne j i with rfl | hne
    · rw [(step_of_gone hi (.transfer 0)).2]
    · cases hj : (s.party j).gone <;> simp [step, hj, hne.symm]

/-- **One party among the others.** Whatever the server and the other parties do, until it ends a
party stands where a single client among other clients can stand, and sees the server it could
see. -/
theorem party_simulates (H : RequestHandler σ) (s₀ : σ) (apps : ι → Application)
    (es : List (SystemEvent ι)) (i : ι) (hi : ((systemRun H s₀ apps es).party i).gone = false) :
    ∃ fs, (systemRun H s₀ apps es).view i =
      clientRun H s₀ (apps i).client (apps i).calls fs := by
  induction es using List.reverseRecOn with
  | nil => exact ⟨[], rfl⟩
  | append_singleton es e ih =>
    rw [systemRun_concat] at hi ⊢
    have hwired := systemRun_wired H s₀ apps es
    generalize systemRun H s₀ apps es = s at *
    have hbefore : (s.party i).gone = false := by
      cases hgone : (s.party i).gone with
      | false => rfl
      | true => rw [System.step_gone hgone, hgone] at hi
                cases hi
    obtain ⟨fs, hfs⟩ := ih hbefore
    by_cases he : e.Foreign i
    · obtain ⟨as, has⟩ := hwired.view_step_foreign (H := H) he
      exact ⟨fs ++ as.map .act, by rw [has, hfs, clientRun_append]⟩
    · cases e with
      | server choice => exact absurd trivial he
      | party j choice =>
        obtain rfl : j = i := not_not.mp he
        refine ⟨fs ++ [.turn choice], ?_⟩
        rw [System.view_step_self hbefore, hfs, clientRun_append]
        rfl
      | exit j =>
        obtain rfl : j = i := not_not.mp he
        simp [System.step, hbefore] at hi

end

namespace TestProto

/-- Two applications, each with a greeting. -/
def applications : Bool → Application
  | true => { client := unchecked, calls := [.connect, greet (str "a")] }
  | false => { client := unchecked, calls := [.connect, greet (str "b")] }

/-- Turns of a party, with nothing between them. -/
def partyTurns (i : Bool) (n : ℕ) : List (SystemEvent Bool) :=
  List.replicate n (.party i (.transfer 1000))

/-- Turns of the server, with nothing between them. -/
def daemonTurns (n : ℕ) : List (SystemEvent Bool) := List.replicate n (.server (.transfer 1000))

/-- Both have sent their greetings before the server reads the first, and the second is read when
the first process has ended. -/
def greetingsRun : List (SystemEvent Bool) :=
  partyTurns true 4 ++ partyTurns false 4 ++ daemonTurns 10 ++ partyTurns true 2 ++
    [.exit true] ++ daemonTurns 12 ++ partyTurns false 2

/-- A server that echoes, and the two applications. -/
abbrev greetingSystem (es : List (SystemEvent Bool)) : System Bool Unit :=
  systemRun (SyncServer.registered .silentIgnore [echo]).requestHandler () applications es

/-- The second application could be alone. -/
theorem party_simulates_greetingsRun :
    ((greetingSystem greetingsRun).party false).records.length = 2 ∧
      ∃ fs, (greetingSystem greetingsRun).view false =
        clientRun (SyncServer.registered .silentIgnore [echo]).requestHandler ()
          (applications false).client (applications false).calls fs :=
  ⟨by decide +kernel, party_simulates _ () applications greetingsRun false (by decide +kernel)⟩

end TestProto

end InterProcessCourier
