import InterProcessCourier.ClientSession

/-!
# A client at any peer

The calls of a client whose peer may do anything: refuse, take as much of a request as it likes,
send any bytes at any moment, send nothing, or close. Nothing is left of the world but the history
of the socket, and an `Answer` for every operation. What holds of every run of `peerRun` holds
whatever server the client talks to, if it talks to one at all.

## Main results

* `peerRun_safe` — every run, at every moment, is in the course of a sequence of calls
* `peerRun_since` — and so is what happens between two moments of one
-/

namespace InterProcessCourier

open Interaction

/-- What the peer, and the kernel, make of an operation. -/
inductive Answer
  /-- A connection is accepted under this number, at most so many bytes are moved, and these are the
  ones that have come. -/
  | moves (k : ℕ) (arrived : Bytes)
  | fails (code : ErrorCode) (what : Bytes)

/-- A turn of the client at an operation, over the history of its socket. Connecting a socket that
is connected fails. -/
def ClientOp.answered (answer : Answer) (t : List Io) :
    (op : ClientOp) → Option (Except Exception (clientSignature.Ans op) × List Io)
  | .connect =>
    match answer with
    | .fails code what => some (.error (.systemError code what), t ++ [.failed .connect])
    | .moves k _ =>
      if (connectionOf t).isSome then
        some (.error (systemFailure .alreadyConnected
          (str "connect: Transport endpoint is already connected")), t ++ [.failed .connect])
      else some (.ok (), t ++ [.connected k])
  | .writeSome bs =>
    match answer with
    | .fails code what => some (.error (.systemError code what), t ++ [.failed (.writeSome bs)])
    | .moves k _ =>
      if (connectionOf t).isSome then
        let count := takeCount k bs
        some (.ok count, t ++ [.wrote (bs.take count.1)])
      else
        some (.error (systemFailure (.other 107)
          (str "write_some: Transport endpoint is not connected")), t ++ [.failed (.writeSome bs)])
  | .readSome n =>
    match answer with
    | .fails code what => some (.error (.systemError code what), t ++ [.failed (.readSome n)])
    | .moves k arrived =>
      if (connectionOf t).isSome then
        if h : 0 < n → arrived ≠ [] then
          let chunk := takeChunk n k arrived h
          some (.ok chunk, t ++ [.read n chunk.1])
        else none
      else
        some (.error (systemFailure (.other 107)
          (str "read_some: Transport endpoint is not connected")), t ++ [.failed (.readSome n)])

/-- A client and whatever is at the other end. -/
def peerKernel : Kernel clientSignature Exception (List Io) Answer Empty where
  perform op answer t := op.answered answer t
  act a _ := a.elim

/-- Nobody else touches the socket. -/
def peerRely (pre : ClientOp → List Io → Prop) : Rely clientSignature (List Io) where
  env t t' := t' = t
  inv := Orderly
  pre := pre

variable {pre : ClientOp → List Io → Prop} {t t' : List Io} {answer : Answer}

theorem peerRely_owns (pre : ClientOp → List Io → Prop) : (peerRely pre).Owns peerKernel id where
  refl _ := rfl
  trans h h' := h'.trans h
  act a := a.elim
  view_eq h := h
  valid h hinv := h ▸ hinv

/-! ### What a turn can do -/

theorem Orderly.failed (h : Orderly t) (op : ClientOp) : Orderly (t ++ [.failed op]) :=
  h.concat nofun fun _ _ => ⟨rfl, rfl⟩

theorem peerTurn_connect {r : Except Exception Unit}
    (h : peerKernel.perform .connect answer t = some (r, t')) :
    (∃ c, r = .ok () ∧ connectionOf t = none ∧ t' = t ++ [.connected c]) ∨
    ∃ code what, r = .error (.systemError code what) ∧ t' = t ++ [.failed .connect] := by
  cases answer with
  | fails code what =>
    obtain ⟨rfl, rfl⟩ := Prod.mk.inj (Option.some.inj h)
    exact .inr ⟨_, _, rfl, rfl⟩
  | moves k arrived =>
    simp only [peerKernel, ClientOp.answered] at h
    split_ifs at h with hconnected
    · obtain ⟨rfl, rfl⟩ := Prod.mk.inj (Option.some.inj h)
      exact .inr ⟨_, _, rfl, rfl⟩
    · obtain ⟨rfl, rfl⟩ := Prod.mk.inj (Option.some.inj h)
      exact .inl ⟨k, rfl, Option.not_isSome_iff_eq_none.mp hconnected, rfl⟩

theorem peerTurn_writeSome {bs : Bytes} {r : Except Exception (Taken bs)}
    (h : peerKernel.perform (.writeSome bs) answer t = some (r, t')) :
    (∃ k : Taken bs, r = .ok k ∧ (connectionOf t).isSome ∧ t' = t ++ [.wrote (bs.take k.1)]) ∨
    ∃ code what, r = .error (.systemError code what) ∧ t' = t ++ [.failed (.writeSome bs)] := by
  cases answer with
  | fails code what =>
    obtain ⟨rfl, rfl⟩ := Prod.mk.inj (Option.some.inj h)
    exact .inr ⟨_, _, rfl, rfl⟩
  | moves k arrived =>
    simp only [peerKernel, ClientOp.answered] at h
    split_ifs at h with hconnected
    · obtain ⟨rfl, rfl⟩ := Prod.mk.inj (Option.some.inj h)
      exact .inl ⟨takeCount k bs, rfl, hconnected, rfl⟩
    · obtain ⟨rfl, rfl⟩ := Prod.mk.inj (Option.some.inj h)
      exact .inr ⟨_, _, rfl, rfl⟩

theorem peerTurn_readSome {n : ℕ} {r : Except Exception (Chunk n)}
    (h : peerKernel.perform (.readSome n) answer t = some (r, t')) :
    (∃ chunk : Chunk n, r = .ok chunk ∧ (connectionOf t).isSome ∧ t' = t ++ [.read n chunk.1]) ∨
    ∃ code what, r = .error (.systemError code what) ∧ t' = t ++ [.failed (.readSome n)] := by
  cases answer with
  | fails code what =>
    obtain ⟨rfl, rfl⟩ := Prod.mk.inj (Option.some.inj h)
    exact .inr ⟨_, _, rfl, rfl⟩
  | moves k arrived =>
    simp only [peerKernel, ClientOp.answered] at h
    split_ifs at h with hconnected harrived
    · obtain ⟨rfl, rfl⟩ := Prod.mk.inj (Option.some.inj h)
      exact .inl ⟨takeChunk n k arrived harrived, rfl, hconnected, rfl⟩
    · obtain ⟨rfl, rfl⟩ := Prod.mk.inj (Option.some.inj h)
      exact .inr ⟨_, _, rfl, rfl⟩

/-- The client's socket at any peer. -/
theorem peerSocket (pre : ClientOp → List Io → Prop) :
    Socket peerKernel (peerRely pre) id pre where
  owns := peerRely_owns pre
  connect {t} hpre := by
    refine Triple.perform (peerRely_owns pre) fun t' hinv ht => ?_
    obtain rfl : t' = t := ht
    refine ⟨hpre, fun answer r t'' hr => ?_⟩
    rcases peerTurn_connect hr with ⟨c, rfl, hnone, rfl⟩ | ⟨code, what, rfl, rfl⟩
    · exact ⟨Orderly.concat hinv (fun _ => hnone) nofun, c, rfl⟩
    · exact ⟨Orderly.failed hinv _, ⟨code, what, rfl⟩, rfl⟩
  writeSome {t bs} hpre := by
    refine Triple.perform (peerRely_owns pre) fun t' hinv ht => ?_
    obtain rfl : t' = t := ht
    refine ⟨hpre, fun answer r t'' hr => ?_⟩
    rcases peerTurn_writeSome hr with ⟨k, rfl, hconnected, rfl⟩ | ⟨code, what, rfl, rfl⟩
    · exact ⟨Orderly.concat hinv nofun fun hnone => by simp [hnone] at hconnected, rfl⟩
    · exact ⟨Orderly.failed hinv _, ⟨code, what, rfl⟩, rfl⟩
  readSome {t n} hpre := by
    refine Triple.perform (peerRely_owns pre) fun t' hinv ht => ?_
    obtain rfl : t' = t := ht
    refine ⟨hpre, fun answer r t'' hr => ?_⟩
    rcases peerTurn_readSome hr with ⟨chunk, rfl, hconnected, rfl⟩ | ⟨code, what, rfl, rfl⟩
    · exact ⟨Orderly.concat hinv nofun fun hnone => by simp [hnone] at hconnected, rfl⟩
    · exact ⟨Orderly.failed hinv _, ⟨code, what, rfl⟩, rfl⟩

/-! ### Runs -/

section

variable [Protobuf]

/-- The calls of an application, after some operations. -/
def peerRun (client : SyncClient) (calls : List ClientCall) (answers : List Answer) :
    Config clientSignature Exception Session (List Io) :=
  peerKernel.run Session.next ⟨.ret { client, todo := calls }, []⟩ (answers.map .turn)

theorem peerRun_append (client : SyncClient) (calls : List ClientCall)
    (answers more : List Answer) :
    peerRun client calls (answers ++ more) =
      peerKernel.run Session.next (peerRun client calls answers) (more.map .turn) := by
  rw [peerRun, List.map_append, Kernel.run_append]
  rfl

variable [LawfulProtobuf] (client : SyncClient) (calls : List ClientCall) (answers : List Answer)

/-- **Every run, at every moment.** -/
theorem peerRun_safe :
    Safe peerKernel (peerRely (Session.AtOp client calls))
      (Safe.Post (fun session t => session.Inv client calls t) fun _ _ => False)
      (peerRun client calls answers).rest (peerRun client calls answers).world :=
  socketRun_inv (peerSocket (Session.AtOp client calls)) .nil rfl _

/-- The thread never ends by an exception. -/
theorem peerRun_ne_raise (e : Exception) : (peerRun client calls answers).rest ≠ .raise e := by
  intro hrest
  have hsafe := peerRun_safe client calls answers
  rw [hrest] at hsafe
  exact hsafe.post_error (peerRely_owns _).toFits

variable {client calls answers}

theorem peerRun_session {session : Session}
    (h : (peerRun client calls answers).rest = .ret session) :
    session.Inv client calls (peerRun client calls answers).world := by
  have hsafe := peerRun_safe client calls answers
  rw [h] at hsafe
  exact hsafe.post_ok (peerRely_owns _).toFits

theorem peerRun_atOp {op : ClientOp} {k} (h : (peerRun client calls answers).rest = .call op k) :
    Session.AtOp client calls op (peerRun client calls answers).world := by
  have hsafe := peerRun_safe client calls answers
  rw [h] at hsafe
  exact hsafe.pre (peerRely_owns _).toFits

/-- **Between two moments.** -/
theorem peerRun_since {more : List Answer} {start session : Session}
    (hstart : (peerRun client calls answers).rest = .ret start)
    (h : (peerRun client calls (answers ++ more)).rest = .ret session) :
    start.Since (peerRun client calls answers).world session
      (peerRun client calls (answers ++ more)).world := by
  have hinv : Orderly (peerRun client calls answers).world :=
    (peerRun_safe client calls answers).inv (peerRely_owns _).toFits
  rw [peerRun_append] at h ⊢
  generalize peerRun client calls answers = cfg at *
  obtain ⟨p, t₀⟩ := cfg
  obtain rfl : p = .ret start := hstart
  have hsafe := socketRun_since (peerSocket (start.Inside t₀)) hinv (more.map .turn)
  rw [h] at hsafe
  exact hsafe.post_ok (peerRely_owns _).toFits

end

end InterProcessCourier
