import InterProcessCourier.Opening
import InterProcessCourier.Peer
import InterProcessCourier.TestProto

/-!
# Connecting again

What a failed `connect` leaves behind, whatever the peer has done. If the connection was refused,
the client is as it was, and can try again: at a server that was started in the meantime it
succeeds. If the connection was made, and it was the reflection that failed, the socket stays
connected, as nothing disconnects it, and the pair of the reflection request stays in the map.

## Main results

* `Session.retries` — an unconnected client connects to a server that was just started
* `connect_restored_iff` — when a failed `connect` leaves the client as it was
-/

namespace InterProcessCourier

open Interaction

/-- The peer refuses the connection: the thread takes up its call at one turn, and attempts to
connect at the next. -/
def Refuses (answers : List Answer) : Prop :=
  ∃ answer code what later, answers = answer :: .fails code what :: later

theorem peerTurn_trace {op : ClientOp} {answer : Answer} {t t' : List Io}
    {r : Except Exception (clientSignature.Ans op)}
    (h : peerKernel.perform op answer t = some (r, t')) : ∃ io, t' = t ++ [io] := by
  cases op with
  | connect =>
    rcases peerTurn_connect h with ⟨c, -, -, rfl⟩ | ⟨code, what, -, rfl⟩
    · exact ⟨_, rfl⟩
    · exact ⟨_, rfl⟩
  | writeSome bs =>
    rcases peerTurn_writeSome h with ⟨k, -, -, rfl⟩ | ⟨code, what, -, rfl⟩
    · exact ⟨_, rfl⟩
    · exact ⟨_, rfl⟩
  | readSome n =>
    rcases peerTurn_readSome h with ⟨chunk, -, -, rfl⟩ | ⟨code, what, -, rfl⟩
    · exact ⟨_, rfl⟩
    · exact ⟨_, rfl⟩

/-! ### A server that was just started -/

section

variable {σ : Type}

/-- A server that was just started, for a client whose socket has this history. -/
def Link.started (s₀ : σ) (t : List Io) : Link σ := { Link.init s₀ with trace := t }

variable {H : RequestHandler σ} {s₀ : σ} {t : List Io}

theorem Link.Inv.started (horderly : Orderly t) (hnone : connectionOf t = none) :
    (Link.started s₀ t).Inv H s₀ where
  server := (Link.Inv.init H s₀).server
  orderly := horderly
  connected c hc := by
    have hsome : connectionOf t = some c := hc
    rw [hnone] at hsome
    cases hsome

theorem Link.Calm.started (hnone : connectionOf t = none) : (Link.started s₀ t).Calm where
  clients := by
    show [] = (connectionOf t).toList
    rw [hnone]
    rfl
  faults := rfl
  path := rfl

end

section

variable [Protobuf]

/-- A following `connect` to a server that was just started succeeds, if the two are left to
themselves. -/
def Session.Retries (session : Session) (t : List Io) : Prop :=
  ∀ (σ : Type) (server : SyncServer σ) (s₀ : σ), server.Reflects →
    ∀ schedule : ℕ → Event Choice LinkAct, Fair schedule →
    let run := fun n => linkRun server.requestHandler { session with todo := [.connect] }
      (.started s₀ t) (upTo schedule n)
    (∀ n t', (run n).world.trace = t ++ t' → Full t') →
    ∃ N, ∀ n ≥ N, ∃ later, (run n).rest = .ret later ∧
      later.outcomes = session.outcomes ++ [⟨.connect, .ok ()⟩]

/-- A failed `connect` has left the client as it was, and it can be retried. -/
structure Session.Restored (start session : Session) (t : List Io) : Prop where
  pairs : ∀ name, session.client.requestResponsePairs.lookup name =
    start.client.requestResponsePairs.lookup name
  unconnected : connectionOf t = none
  retries : session.Retries t

/-! ### The first turns of a call -/

variable {client : SyncClient} {calls todo : List ClientCall} {answers more : List Answer}
  {start session : Session}

theorem peerRun_isPrefix (client : SyncClient) (calls : List ClientCall)
    (answers more : List Answer) :
    (peerRun client calls answers).world <+: (peerRun client calls (answers ++ more)).world := by
  rw [peerRun_append]
  refine Kernel.run_keeps (K := peerKernel) (P := fun t =>
    (peerRun client calls answers).world <+: t) ?_ ?_ List.prefix_rfl _
  · intro op answer t r t' hturn h
    obtain ⟨io, rfl⟩ := peerTurn_trace hturn
    exact h.trans (List.prefix_append _ _)
  · exact fun a => a.elim

/-- `connect` begins with the socket. -/
theorem Session.next_connect (session : Session) (h : session.todo = .connect :: todo) :
    ∃ k, session.next = some (.call .connect k) := by
  rw [Session.next, h]
  exact ⟨_, rfl⟩

/-- The turn at which the thread connects. -/
theorem peerRun_connecting (hstart : (peerRun client calls answers).rest = .ret start)
    (htodo : start.todo = .connect :: todo) (session : Session) (answer answer' : Answer) :
    (peerRun client calls (answers ++ [answer])).rest ≠ .ret session ∧
    ∀ r t', ClientOp.answered answer' (peerRun client calls answers).world .connect = some (r, t') →
      (peerRun client calls (answers ++ [answer, answer'])).world = t' := by
  obtain ⟨k, hnext⟩ := start.next_connect htodo
  rw [peerRun_append, peerRun_append]
  generalize peerRun client calls answers = cfg at *
  obtain ⟨p, w⟩ := cfg
  obtain rfl : p = .ret start := hstart
  refine ⟨by simp [Kernel.run, Kernel.step, hnext], fun r t' hanswered => ?_⟩
  simp only [List.map_cons, List.map_nil, Kernel.run, List.foldl_cons, List.foldl_nil, Kernel.step,
    hnext, Option.getD_some, peerKernel, hanswered]

/-- **The first thing that happens in a `connect`.** -/
theorem peerRun_connect (hstart : (peerRun client calls answers).rest = .ret start)
    (hnone : connectionOf (peerRun client calls answers).world = none)
    (htodo : start.todo = .connect :: todo)
    (hreturns : (peerRun client calls (answers ++ more)).rest = .ret session)
    (hne : session ≠ start) :
    (Refuses more ∧ (peerRun client calls answers).world ++ [.failed .connect] <+:
      (peerRun client calls (answers ++ more)).world) ∨
    (¬Refuses more ∧ ∃ c, (peerRun client calls answers).world ++ [.connected c] <+:
      (peerRun client calls (answers ++ more)).world) := by
  cases more with
  | nil =>
    rw [List.append_nil, hstart] at hreturns
    exact absurd (Program.ret.inj hreturns).symm hne
  | cons answer more =>
    cases more with
    | nil => exact absurd hreturns (peerRun_connecting hstart htodo session answer answer).1
    | cons answer' later =>
      have hprefix := peerRun_isPrefix client calls (answers ++ [answer, answer']) later
      rw [List.append_assoc, List.cons_append, List.cons_append, List.nil_append] at hprefix
      have hconnecting := (peerRun_connecting hstart htodo session answer answer').2
      cases answer' with
      | fails code what =>
        rw [hconnecting _ _ rfl] at hprefix
        exact .inl ⟨⟨answer, code, what, later, rfl⟩, hprefix⟩
      | moves c arrived =>
        rw [hconnecting (.ok ()) ((peerRun client calls answers).world ++ [.connected c])
          (by simp [ClientOp.answered, hnone])] at hprefix
        refine .inr ⟨?_, c, hprefix⟩
        rintro ⟨_, code, what, later', hmore⟩
        cases hmore

/-! ### Trying again -/

variable [LawfulProtobuf] {t : List Io}

/-- **An unconnected client connects** to a server that was just started. -/
theorem Session.retries (session : Session) (horderly : Orderly t) (hnone : connectionOf t = none) :
    session.Retries t := by
  intro σ server s₀ hserver schedule hfair run hfull
  set start : Session := { session with todo := [.connect] }
  have htodo : start.todo = .connect :: [] := rfl
  have hl₀ : (Link.started s₀ t).Inv server.requestHandler s₀ := .started horderly hnone
  have hstanding : ∀ n, ∃ t', (Link.started s₀ t).Standing (run n).world t' := fun n =>
    linkRun_standing hserver hl₀ (.started hnone) hnone htodo (by simp) (by simp)
      (hfair.undisturbed_upTo n) (hfull n)
  obtain ⟨hsent, htaken⟩ := horderly.unused t List.prefix_rfl hnone
  obtain ⟨N, hN⟩ := eventually_returns hl₀ length_responses_lt (.nil hsent htaken) hfair hstanding
  refine ⟨N, fun n hn => ?_⟩
  obtain ⟨later, hrest, hdone⟩ := hN n hn
  refine ⟨later, hrest, ?_⟩
  obtain ⟨t', ht'⟩ := hstanding n
  have hsince := linkRun_since hl₀ hrest
  rw [ht'.trace] at hsince
  rcases (linkRun_inv start hl₀ (upTo schedule n)).since_connect hserver hnone htodo hsince
    ⟨[], by rw [ht'.trace]; simp⟩ ht'.whole with ⟨rfl, -⟩ | ⟨os, xs, houtcomes, hcalls, -⟩
  · cases hdone
  · rw [hdone, List.append_nil, List.map_eq_nil_iff] at hcalls
    rw [houtcomes, hcalls]

/-- **A failed `connect` leaves the client as it was**, so that it can be retried, if and only if
the client does not reflect or the connection was refused. This holds of every unconnected client,
whatever it has been through, and whatever its peer does. -/
theorem connect_restored_iff (client : SyncClient) (calls : List ClientCall)
    (answers more : List Answer) {start session : Session} {error : Error SyncClientError}
    (hstart : (peerRun client calls answers).rest = .ret start)
    (hnone : connectionOf (peerRun client calls answers).world = none)
    (hreturns : (peerRun client calls (answers ++ more)).rest = .ret session)
    (hfails : session.outcomes = start.outcomes ++ [⟨.connect, .error error⟩]) :
    start.Restored session (peerRun client calls (answers ++ more)).world ↔
      start.client.clientOptions.validateReqResPairStrategy ≠ .serverReflection ∨ Refuses more := by
  have hinv : Orderly (peerRun client calls (answers ++ more)).world :=
    (peerRun_safe client calls (answers ++ more)).inv (peerRely_owns _).toFits
  obtain ⟨os, t, houtcomes, hworld, hall, hcalls⟩ := (peerRun_since hstart hreturns).performed
  rw [hfails] at houtcomes
  obtain rfl := List.append_cancel_left houtcomes
  have hne : session ≠ start := by
    rintro rfl
    simp at hfails
  have hfirst := peerRun_connect hstart hnone hcalls.symm hreturns hne
  rw [hworld] at hfirst hinv ⊢
  simp only [List.prefix_append_right_inj] at hfirst
  generalize hr : (Except.error error : SyncClientResult Unit) = r at hall
  generalize hclient : session.client = client' at hall
  cases hall.singleton with
  | unconnected message =>
    have hrefuses : Refuses more := by
      rcases hfirst with ⟨hrefuses, -⟩ | ⟨-, c, hconnected⟩
      · exact hrefuses
      · simp at hconnected
    have hstill :
        connectionOf ((peerRun client calls answers).world ++ [.failed .connect]) = none := by
      simpa using hnone
    exact ⟨fun _ => .inr hrefuses,
      fun _ => ⟨fun _ => by rw [hclient], hstill, session.retries hinv hstill⟩⟩
  | connected c h => cases hr
  | reflected c hreflects hexchange =>
    refine ⟨fun hrestored => ?_, ?_⟩
    · have hconnected := hrestored.unconnected
      simp [hnone] at hconnected
    · rintro (hstrategy | hrefuses)
      · exact absurd hreflects hstrategy
      · rcases hfirst with ⟨-, hfailed⟩ | ⟨hno, -⟩
        · simp at hfailed
        · exact absurd hrefuses hno

end

namespace TestProto

/-- A fresh client that reflects. -/
def reflectingClient : SyncClient where
  clientOptions := { validateReqResPairStrategy := .serverReflection }

/-- The connection is made, and closed before the reflection request is answered. -/
def unreflected : List Answer :=
  [.moves 0 [], .moves 1 [], .moves 1000 [], .fails .eof (str "read_some: End of file")]

/-- What the attempts to connect have come to. -/
def attempts (session : Session) : List (SyncClientResult Unit) :=
  session.outcomes.filterMap fun
    | ⟨.connect, r⟩ => some r
    | _ => none

/-- The pair of the reflection request is in the client's map. -/
def prepares (session : Session) : Bool :=
  (session.client.requestResponsePairs.lookup (fullName MappingReflectionRequest)).isSome

/-- The client has a new pair and a connection, and cannot connect again. -/
theorem not_restored_unreflected :
    ∃ session later,
      (peerRun reflectingClient [.connect, .connect] unreflected).rest = .ret session ∧
      attempts session = [.error ⟨.unableToReflectMappings, str "read_some: End of file"⟩] ∧
      prepares session = true ∧
      ¬Session.Restored ⟨reflectingClient, [], [.connect, .connect]⟩ session
        (peerRun reflectingClient [.connect, .connect] unreflected).world ∧
      (peerRun reflectingClient [.connect, .connect]
        (unreflected ++ [.moves 0 [], .moves 2 []])).rest = .ret later ∧
      attempts later = [.error ⟨.unableToReflectMappings, str "read_some: End of file"⟩,
        .error ⟨.unableToConnectToServer,
          str "connect: Transport endpoint is already connected"⟩] := by
  have hfirst : (peerRun reflectingClient [.connect, .connect] unreflected).rest.result?.map
      (fun r => r.map fun session => (attempts session, prepares session)) = some (.ok
        ([.error ⟨.unableToReflectMappings, str "read_some: End of file"⟩], true)) := by
    decide +kernel
  have hsecond : (peerRun reflectingClient [.connect, .connect]
      (unreflected ++ [.moves 0 [], .moves 2 []])).rest.result?.map (fun r => r.map attempts) =
        some (.ok [.error ⟨.unableToReflectMappings, str "read_some: End of file"⟩,
          .error ⟨.unableToConnectToServer,
            str "connect: Transport endpoint is already connected"⟩]) := by
    decide +kernel
  have hconnected : connectionOf
      (peerRun reflectingClient [.connect, .connect] unreflected).world = some 1 := by
    decide +kernel
  obtain ⟨session, hrest, hsession⟩ := Program.exists_ret_of_map hfirst
  obtain ⟨later, hlater, hattempts⟩ := Program.exists_ret_of_map hsecond
  refine ⟨session, later, hrest, congrArg Prod.fst hsession, congrArg Prod.snd hsession,
    fun h => ?_, hlater, hattempts⟩
  rw [h.unconnected] at hconnected
  cases hconnected

/-- A client that was refused can connect. -/
theorem connect_restored_iff_refused :
    Session.Restored ⟨reflectingClient, [], [.connect]⟩
      ⟨reflectingClient, [⟨.connect, .error ⟨.unableToConnectToServer,
        str "connect: Connection refused"⟩⟩], []⟩
      (peerRun reflectingClient [.connect]
        [.moves 0 [], .fails (.system (.other 111)) (str "connect: Connection refused")]).world :=
  (connect_restored_iff reflectingClient [.connect] []
    [.moves 0 [], .fails (.system (.other 111)) (str "connect: Connection refused")]
    rfl rfl rfl rfl).mpr (.inr ⟨_, _, _, _, rfl⟩)

end TestProto

end InterProcessCourier
