import InterProcessCourier.ServerProgress
import InterProcessCourier.SyncClient

/-!
# A client at its socket

The world a client's code runs in: the server's thread with all that surrounds it, and the client's
own socket. Of the socket only its history is kept, as a list of what the operations did; the bytes
sent and the bytes taken are read off it.

What the client writes is sent to the server, and what it reads is the next part of what the server
has written to its connection. A read waits for bytes, and meets the end of the stream once the
session is over. Between two operations of the client the server's thread takes turns, and other
clients act on connections of their own.
-/

namespace InterProcessCourier

open Interaction

/-! ### Histories of a socket -/

/-- What happened at the client's socket. -/
inductive Io
  /-- `connect` succeeded, as the connection of this number. -/
  | connected (connection : ℕ)
  /-- `write_some` took these bytes. -/
  | wrote (bs : Bytes)
  /-- `read_some` into a buffer of `asked` bytes delivered these. -/
  | read (asked : ℕ) (bs : Bytes)
  /-- The operation failed. -/
  | failed (op : ClientOp)
  deriving DecidableEq

namespace Io

/-- The connection made. -/
@[simp] def connection? : Io → Option ℕ
  | connected c => some c
  | wrote _ => none
  | read _ _ => none
  | failed _ => none

/-- The bytes sent. -/
@[simp] def sent : Io → Bytes
  | connected _ => []
  | wrote bs => bs
  | read _ _ => []
  | failed _ => []

/-- The bytes taken. -/
@[simp] def taken : Io → Bytes
  | connected _ => []
  | wrote _ => []
  | read _ bs => bs
  | failed _ => []

end Io

/-- The connection of the socket. -/
def connectionOf (t : List Io) : Option ℕ := t.findSome? Io.connection?

/-- The bytes the client has sent. -/
def sentOf (t : List Io) : Bytes := t.flatMap Io.sent

/-- The bytes the client has taken. -/
def takenOf (t : List Io) : Bytes := t.flatMap Io.taken

@[simp] theorem connectionOf_nil : connectionOf [] = none := rfl

@[simp] theorem sentOf_nil : sentOf [] = [] := rfl

@[simp] theorem takenOf_nil : takenOf [] = [] := rfl

@[simp] theorem connectionOf_cons (io : Io) (t : List Io) :
    connectionOf (io :: t) = io.connection?.or (connectionOf t) := by
  rw [connectionOf, List.findSome?_cons]
  cases io.connection? <;> rfl

@[simp] theorem sentOf_cons (io : Io) (t : List Io) : sentOf (io :: t) = io.sent ++ sentOf t := rfl

@[simp] theorem takenOf_cons (io : Io) (t : List Io) : takenOf (io :: t) = io.taken ++ takenOf t :=
  rfl

@[simp] theorem connectionOf_append (t t' : List Io) :
    connectionOf (t ++ t') = (connectionOf t).or (connectionOf t') := List.findSome?_append

@[simp] theorem sentOf_append (t t' : List Io) : sentOf (t ++ t') = sentOf t ++ sentOf t' :=
  List.flatMap_append

@[simp] theorem takenOf_append (t t' : List Io) : takenOf (t ++ t') = takenOf t ++ takenOf t' :=
  List.flatMap_append

@[simp] theorem sentOf_map_wrote (ws : List Bytes) : sentOf (ws.map .wrote) = ws.flatten := by
  simp [sentOf, List.flatMap_map, List.flatMap_id']

@[simp] theorem takenOf_map_wrote (ws : List Bytes) : takenOf (ws.map .wrote) = [] := by
  simp [takenOf, List.flatMap_map]

/-- The socket is connected once at most, and moves no bytes before. -/
structure Orderly (t : List Io) : Prop where
  once : ∀ before c after, t = before ++ .connected c :: after → connectionOf before = none
  unused : ∀ before, before <+: t → connectionOf before = none →
    sentOf before = [] ∧ takenOf before = []

theorem Orderly.nil : Orderly [] where
  once before c after h := by simp at h
  unused before h _ := by
    rw [List.prefix_nil.mp h]
    exact ⟨rfl, rfl⟩

theorem Orderly.concat {t : List Io} (h : Orderly t) {io : Io}
    (honce : io.connection?.isSome → connectionOf t = none)
    (hunused : connectionOf t = none → io.connection? = none → io.sent = [] ∧ io.taken = []) :
    Orderly (t ++ [io]) where
  once before c after ht := by
    rcases List.eq_nil_or_concat after with rfl | ⟨after, io', rfl⟩
    · obtain ⟨rfl, hio⟩ := List.append_inj' ht rfl
      exact honce (by rw [List.singleton_inj.mp hio]; rfl)
    · rw [List.concat_eq_append, ← List.cons_append, ← List.append_assoc] at ht
      exact h.once before c after (List.append_inj' ht rfl).1
  unused before hbefore hnone := by
    rcases List.prefix_concat_iff.mp hbefore with rfl | hbefore
    · rw [connectionOf_append, Option.or_eq_none_iff] at hnone
      obtain ⟨hsent, htaken⟩ := h.unused t List.prefix_rfl hnone.1
      obtain ⟨hsent', htaken'⟩ := hunused hnone.1 (by simpa using hnone.2)
      simp only [sentOf_append, sentOf_cons, sentOf_nil, hsent, hsent', takenOf_append,
        takenOf_cons, takenOf_nil, htaken, htaken', List.append_nil, and_self]
    · exact h.unused before hbefore hnone

/-! ### Client and server -/

/-- The server's thread and its world. -/
abbrev ServerConfig (σ : Type) :=
  Config serverSignature Exception (Flow RunLabel (SyncServerResult Unit)) (World σ)

/-- A client's socket and the server. -/
structure Link (σ : Type) where
  /-- What happened at the socket, oldest first. -/
  trace : List Io := []
  server : ServerConfig σ

/-- What happens between two operations of the client. -/
inductive LinkAct
  /-- The server's thread takes a turn. -/
  | server (choice : Choice)
  /-- Another client acts. -/
  | other (a : ClientAct)
  deriving DecidableEq

/-- A number that no connection has. -/
def World.unused {σ : Type} (w : World σ) : ℕ := (w.own.accepted ++ w.backlog).sum + 1

theorem World.unused_notMem {σ : Type} (w : World σ) : w.unused ∉ w.own.accepted ++ w.backlog := by
  intro hm
  have hle := List.le_sum_of_mem hm
  rw [World.unused] at hle
  omega

namespace Link

variable {σ : Type}

/-- The server listens, and the client has not connected. -/
def init (state : σ) : Link σ where
  server := ⟨.ret (.goto .accept), .init state⟩

/-- The server's side moves. -/
def step (H : RequestHandler σ) (l : Link σ) (e : Event Choice ClientAct) : Link σ :=
  { l with server := (serverKernel H).step (Flow.next SyncServer.startFrom) l.server e }

/-- Something happens at the socket. -/
def log (l : Link σ) (io : Io) : Link σ := { l with trace := l.trace ++ [io] }

/-- The session of a connection is over, and its socket closed. -/
def ended (l : Link σ) (c : ℕ) : Bool :=
  l.server.world.own.faults.any fun f => f.origin.client? = some c

/-- What the server has written to a connection and the client has not taken. -/
def untaken (l : Link σ) (c : ℕ) : Bytes :=
  (l.server.world.own.written c).drop (takenOf l.trace).length

@[simp] theorem step_trace (H : RequestHandler σ) (l : Link σ) (e : Event Choice ClientAct) :
    (l.step H e).trace = l.trace := rfl

@[simp] theorem log_trace (l : Link σ) (io : Io) : (l.log io).trace = l.trace ++ [io] := rfl

@[simp] theorem log_server (l : Link σ) (io : Io) : (l.log io).server = l.server := rfl

end Link

section Kernel

variable {σ : Type} (H : RequestHandler σ)

/-- A turn of the client at an operation. -/
def ClientOp.turn (choice : Choice) (l : Link σ) :
    (op : ClientOp) → Option (Except Exception (clientSignature.Ans op) × Link σ)
  | .connect =>
    match choice with
    | .fail errno what => some (.error (systemFailure errno what), l.log (.failed .connect))
    | .transfer _ =>
      if (connectionOf l.trace).isSome then
        some (.error (systemFailure .alreadyConnected
          (str "connect: Transport endpoint is already connected")), l.log (.failed .connect))
      else if l.server.world.own.path then
        let c := l.server.world.unused
        some (.ok (), (l.step H (.act (.connect c))).log (.connected c))
      else
        some (.error (systemFailure (.other 2) (str "connect: No such file or directory")),
          l.log (.failed .connect))
  | .writeSome bs =>
    match choice with
    | .fail errno what => some (.error (systemFailure errno what), l.log (.failed (.writeSome bs)))
    | .transfer k =>
      match connectionOf l.trace with
      | none =>
        some (.error (systemFailure (.other 107)
          (str "write_some: Transport endpoint is not connected")), l.log (.failed (.writeSome bs)))
      | some c =>
        if l.ended c then
          some (.error (systemFailure .brokenPipe (str "write_some: Broken pipe")),
            l.log (.failed (.writeSome bs)))
        else
          let count := takeCount k bs
          some (.ok count,
            (l.step H (.act (.send c (bs.take count.1)))).log (.wrote (bs.take count.1)))
  | .readSome n =>
    match choice with
    | .fail errno what => some (.error (systemFailure errno what), l.log (.failed (.readSome n)))
    | .transfer k =>
      match connectionOf l.trace with
      | none =>
        some (.error (systemFailure (.other 107)
          (str "read_some: Transport endpoint is not connected")), l.log (.failed (.readSome n)))
      | some c =>
        if h : 0 < n → l.untaken c ≠ [] then
          let chunk := takeChunk n k (l.untaken c) h
          some (.ok chunk, l.log (.read n chunk.1))
        else if l.ended c then some (.error endOfFile, l.log (.failed (.readSome n)))
        else none

/-- What happens without the client. -/
def LinkAct.apply (l : Link σ) : LinkAct → Link σ
  | server choice => l.step H (.turn choice)
  | other a => if connectionOf l.trace = some a.client then l else l.step H (.act a)

/-- A client among the server's thread and other clients. -/
def linkKernel : Kernel clientSignature Exception (Link σ) Choice LinkAct where
  perform op choice l := op.turn H choice l
  act a l := a.apply H l

variable {H} {choice : Choice} {l l' : Link σ}

/-! ### What a turn can do -/

/-- An operation fails with a `system_error`, and changes nothing but the history. -/
def ClientOp.Fails (op : ClientOp) (l : Link σ) (r : Except Exception (clientSignature.Ans op))
    (l' : Link σ) : Prop :=
  ∃ code what, r = .error (.systemError code what) ∧ l' = l.log (.failed op)

theorem linkTurn_connect {r : Except Exception Unit}
    (h : (linkKernel H).perform .connect choice l = some (r, l')) :
    (∃ c, r = .ok () ∧ connectionOf l.trace = none ∧
      c ∉ l.server.world.own.accepted ++ l.server.world.backlog ∧
      l' = (l.step H (.act (.connect c))).log (.connected c)) ∨
    ClientOp.Fails .connect l r l' := by
  cases choice with
  | fail errno what =>
    obtain ⟨rfl, rfl⟩ := Prod.mk.inj (Option.some.inj h)
    exact .inr ⟨_, _, rfl, rfl⟩
  | transfer k =>
    simp only [linkKernel, ClientOp.turn] at h
    split_ifs at h with hconnected hpath
    · obtain ⟨rfl, rfl⟩ := Prod.mk.inj (Option.some.inj h)
      exact .inr ⟨_, _, rfl, rfl⟩
    · obtain ⟨rfl, rfl⟩ := Prod.mk.inj (Option.some.inj h)
      exact .inl ⟨_, rfl, Option.not_isSome_iff_eq_none.mp hconnected, World.unused_notMem _, rfl⟩
    · obtain ⟨rfl, rfl⟩ := Prod.mk.inj (Option.some.inj h)
      exact .inr ⟨_, _, rfl, rfl⟩

theorem linkTurn_writeSome {bs : Bytes} {r : Except Exception (Taken bs)}
    (h : (linkKernel H).perform (.writeSome bs) choice l = some (r, l')) :
    (∃ (k : Taken bs) (c : ℕ), r = .ok k ∧ connectionOf l.trace = some c ∧
      l' = (l.step H (.act (.send c (bs.take k.1)))).log (.wrote (bs.take k.1))) ∨
    ClientOp.Fails (.writeSome bs) l r l' := by
  cases choice with
  | fail errno what =>
    obtain ⟨rfl, rfl⟩ := Prod.mk.inj (Option.some.inj h)
    exact .inr ⟨_, _, rfl, rfl⟩
  | transfer k =>
    simp only [linkKernel, ClientOp.turn] at h
    split at h
    · obtain ⟨rfl, rfl⟩ := Prod.mk.inj (Option.some.inj h)
      exact .inr ⟨_, _, rfl, rfl⟩
    · next c hc =>
      split_ifs at h
      · obtain ⟨rfl, rfl⟩ := Prod.mk.inj (Option.some.inj h)
        exact .inr ⟨_, _, rfl, rfl⟩
      · obtain ⟨rfl, rfl⟩ := Prod.mk.inj (Option.some.inj h)
        exact .inl ⟨takeCount k bs, c, rfl, hc, rfl⟩

theorem linkTurn_readSome {n : ℕ} {r : Except Exception (Chunk n)}
    (h : (linkKernel H).perform (.readSome n) choice l = some (r, l')) :
    (∃ (chunk : Chunk n) (c : ℕ), r = .ok chunk ∧ connectionOf l.trace = some c ∧
      chunk.1 <+: l.untaken c ∧ l' = l.log (.read n chunk.1)) ∨
    ClientOp.Fails (.readSome n) l r l' := by
  cases choice with
  | fail errno what =>
    obtain ⟨rfl, rfl⟩ := Prod.mk.inj (Option.some.inj h)
    exact .inr ⟨_, _, rfl, rfl⟩
  | transfer k =>
    simp only [linkKernel, ClientOp.turn] at h
    split at h
    · obtain ⟨rfl, rfl⟩ := Prod.mk.inj (Option.some.inj h)
      exact .inr ⟨_, _, rfl, rfl⟩
    · next c hc =>
      split_ifs at h
      · obtain ⟨rfl, rfl⟩ := Prod.mk.inj (Option.some.inj h)
        exact .inl ⟨_, c, rfl, hc, List.take_prefix _ _, rfl⟩
      · obtain ⟨rfl, rfl⟩ := Prod.mk.inj (Option.some.inj h)
        exact .inr ⟨_, _, rfl, rfl⟩

/-- No operation of the client changes what is the server's own. -/
theorem own_linkTurn {op : ClientOp} {r : Except Exception (clientSignature.Ans op)}
    (h : (linkKernel H).perform op choice l = some (r, l')) :
    l'.server.world.own = l.server.world.own := by
  have hact : ∀ a, (l.step H (.act a)).server.world.own = l.server.world.own := fun a =>
    a.apply_own _
  match op with
  | .connect =>
    rcases linkTurn_connect h with ⟨c, -, -, -, rfl⟩ | ⟨code, what, -, rfl⟩
    · exact hact _
    · rfl
  | .writeSome bs =>
    rcases linkTurn_writeSome h with ⟨k, c, -, -, rfl⟩ | ⟨code, what, -, rfl⟩
    · exact hact _
    · rfl
  | .readSome n =>
    rcases linkTurn_readSome h with ⟨chunk, c, -, -, -, rfl⟩ | ⟨code, what, -, rfl⟩ <;> rfl

/-- The history only grows. -/
theorem trace_linkTurn {op : ClientOp} {r : Except Exception (clientSignature.Ans op)}
    (h : (linkKernel H).perform op choice l = some (r, l')) : l.trace <+: l'.trace := by
  match op with
  | .connect =>
    rcases linkTurn_connect h with ⟨c, -, -, -, rfl⟩ | ⟨code, what, -, rfl⟩ <;>
      exact List.prefix_append _ _
  | .writeSome bs =>
    rcases linkTurn_writeSome h with ⟨k, c, -, -, rfl⟩ | ⟨code, what, -, rfl⟩ <;>
      exact List.prefix_append _ _
  | .readSome n =>
    rcases linkTurn_readSome h with ⟨chunk, c, -, -, -, rfl⟩ | ⟨code, what, -, rfl⟩ <;>
      exact List.prefix_append _ _

/-- The server's side moves by events of its own, and the history stays. -/
theorem LinkAct.apply_server (a : LinkAct) (l : Link σ) :
    a.apply H l = l ∨ ∃ e, a.apply H l = l.step H e := by
  cases a with
  | server choice => exact .inr ⟨.turn choice, rfl⟩
  | other a =>
    rw [apply]
    split_ifs
    · exact .inl rfl
    · exact .inr ⟨.act a, rfl⟩

@[simp] theorem LinkAct.apply_trace (a : LinkAct) (l : Link σ) : (a.apply H l).trace = l.trace := by
  rcases a.apply_server (H := H) l with hsame | ⟨e, hstep⟩
  · rw [hsame]
  · rw [hstep, Link.step_trace]

/-- The invocations of the request handler stay on record. -/
theorem calls_step (l : Link σ) (e : Event Choice ClientAct) :
    l.server.world.own.calls <+: (l.step H e).server.world.own.calls := by
  cases e with
  | act a => rw [show (l.step H (.act a)).server.world.own = _ from a.apply_own _]
  | turn c =>
    rcases (serverKernel H).step_turn (Flow.next SyncServer.startFrom) l.server c with
      hsame | ⟨op, k, r, -, hturn⟩
    · rw [show (l.step H (.turn c)).server.world = _ from hsame]
    · exact (turn_consumed hturn).calls

/-- Any operation can fail. -/
theorem linkTurn_fail (op : ClientOp) (errno : Errno) (what : Bytes) (l : Link σ) :
    (linkKernel H).perform op (.fail errno what) l =
      some (.error (systemFailure errno what), l.log (.failed op)) := by
  cases op <;> rfl

end Kernel

end InterProcessCourier
