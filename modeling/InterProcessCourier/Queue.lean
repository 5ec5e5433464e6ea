import InterProcessCourier.Starvation

/-!
# First come, first served

Connections are accepted in the order in which they were made, and one session is over before the
next begins. So of two processes the one that connected first is done with, for good, before the
server reads a byte of the other, whatever fails and in whatever order the processes send.

## Main results

* `connections_isPrefix` — the queue, with those that have left it at its front, only grows at its
  end
* `first_come_first_served` — an earlier process is done with before a later one is read
-/

namespace InterProcessCourier

open Interaction

/-! ### The queue -/

section

variable {σ : Type} {H : RequestHandler σ} {l l' : Link σ} {w w' : World σ} {c d : ℕ}

/-- A client's turn adds a connection at the end of the queue, or none. -/
theorem Link.Moves.connections_isPrefix (h : l.Moves H l') :
    l.server.world.own.accepted ++ l.server.world.backlog <+:
      l'.server.world.own.accepted ++ l'.server.world.backlog := by
  cases h with
  | still => exact List.prefix_rfl
  | @connects d hnone hfresh =>
    have hworld : (l.step H (.act (.connect d))).server.world =
        { l.server.world with backlog := l.server.world.backlog ++ [d] } := if_neg hfresh
    rw [Link.log_server, hworld, ← List.append_assoc]
    exact List.prefix_append _ _
  | @writes d hd bs =>
    change _ <+: (ClientAct.apply _ _).own.accepted ++ (ClientAct.apply _ _).backlog
    rw [ClientAct.apply]
    split_ifs <;> exact List.prefix_rfl
  | reads hd n hbs => exact List.prefix_rfl
  | fails op => exact List.prefix_rfl

/-- The session of a connection has ended, by a failure. -/
def Own.Over (o : Own σ) (c : ℕ) : Prop := ∃ f ∈ o.faults, f.origin.client? = some c

/-- **What is over stays as it is.** -/
theorem Own.Over.turn (h : w.own.Over c) {op : ServerOp} (hpre : op.pre w.own) {choice : Choice}
    {r : Except Exception (serverSignature.Ans op)}
    (hturn : (serverKernel H).perform op choice w = some (r, w')) :
    w'.own.Over c ∧ w'.own.consumed c = w.own.consumed c ∧ w'.own.written c = w.own.written c ∧
      w'.own.callsOf c = w.own.callsOf c := by
  obtain ⟨f, hf, hclient⟩ := h
  refine ⟨⟨f, (turn_consumed hturn).faults f hf, hclient⟩, ?_⟩
  -- the session in progress is another
  have hne : ∀ {client}, Own.Serving client w.own → c ≠ client := by
    rintro client hserving rfl
    exact hserving.clean f hf hclient
  match op with
  | .listen =>
    rcases turn_listen hturn with ⟨-, rfl⟩ | ⟨errno, what, -, rfl⟩ <;> exact ⟨rfl, rfl, rfl⟩
  | .accept =>
    rcases turn_accept hturn with ⟨client, rest, -, -, rfl⟩ | ⟨errno, what, -, rfl⟩ <;>
      exact ⟨rfl, rfl, rfl⟩
  | .readSome client n =>
    obtain ⟨-, hserving, -⟩ := hpre
    rcases turn_readSome hturn with
      ⟨chunk, rest, -, -, rfl⟩ | ⟨-, -, -, rfl⟩ | ⟨errno, what, -, rfl⟩
    · exact ⟨Own.consume_consumed_of_ne _ _ _ _ (hne hserving), rfl, rfl⟩
    · exact ⟨rfl, rfl, rfl⟩
    · exact ⟨rfl, rfl, rfl⟩
  | .writeSome client bs =>
    obtain ⟨hserving, -⟩ := hpre
    rcases turn_writeSome hturn with ⟨k, -, rfl⟩ | ⟨errno, what, -, rfl⟩
    · exact ⟨rfl, Own.emit_written_of_ne _ _ _ _ (hne hserving), rfl⟩
    · exact ⟨rfl, rfl, rfl⟩
  | .handleRequest client p =>
    obtain ⟨hserving, -⟩ := hpre
    obtain ⟨-, rfl⟩ := turn_handleRequest hturn
    exact ⟨by simp [World.withOwn], by simp [World.withOwn],
      Own.call_callsOf_of_ne _ _ _ _ _ _ (hne hserving)⟩
  | .unlink =>
    obtain ⟨-, rfl⟩ := turn_unlink hturn
    exact ⟨rfl, rfl, rfl⟩

end

section

variable [Protobuf] {ι σ : Type} {H : RequestHandler σ} {s₀ : σ} {apps : ι → Application}
  {s : System ι σ} {i j : ι} {c d : ℕ} [DecidableEq ι]

theorem System.connections_isPrefix_step (s : System ι σ) (e : SystemEvent ι) :
    s.connections <+: (s.step H e).connections := by
  cases e with
  | server choice => rw [connections_server]
  | exit i => rw [connections_exit]
  | party i choice =>
    cases hi : (s.party i).gone with
    | true => rw [(step_of_gone hi choice).1]
    | false => exact (step_party_moves (H := H) hi choice).connections_isPrefix

/-- **The queue only grows at its end.** -/
theorem connections_isPrefix (H : RequestHandler σ) (s₀ : σ) (apps : ι → Application)
    (es fs : List (SystemEvent ι)) :
    (systemRun H s₀ apps es).connections <+: (systemRun H s₀ apps (es ++ fs)).connections := by
  induction fs using List.reverseRecOn with
  | nil => rw [List.append_nil]
  | append_singleton fs e ih =>
    rw [← List.append_assoc, systemRun_concat]
    exact ih.trans (System.connections_isPrefix_step _ e)

variable [LawfulProtobuf]

/-- What is over stays as it is, in every run. -/
theorem over_systemRun {es : List (SystemEvent ι)}
    (h : (systemRun H s₀ apps es).server.world.own.Over c) (fs : List (SystemEvent ι)) :
    let o := (systemRun H s₀ apps es).server.world.own
    let o' := (systemRun H s₀ apps (es ++ fs)).server.world.own
    o'.consumed c = o.consumed c ∧ o'.written c = o.written c ∧ o'.callsOf c = o.callsOf c := by
  intro o o'
  have hkept : o'.Over c ∧ o'.consumed c = o.consumed c ∧ o'.written c = o.written c ∧
      o'.callsOf c = o.callsOf c := by
    refine systemRun_own (P := fun o' => o'.Over c ∧ o'.consumed c = o.consumed c ∧
      o'.written c = o.written c ∧ o'.callsOf c = o.callsOf c) ?_ es ⟨h, rfl, rfl, rfl⟩ fs
    rintro w w' op choice r hpre hturn ⟨hover, hconsumed, hwritten, hcalls⟩
    obtain ⟨hover', hconsumed', hwritten', hcalls'⟩ := hover.turn hpre hturn
    exact ⟨hover', hconsumed'.trans hconsumed, hwritten'.trans hwritten, hcalls'.trans hcalls⟩
  exact hkept.2

/-- **First come, first served.** In every run of a server and any number of clients, with any order
of steps, failures and ends of processes: if a process had its connection when another had none, and
the connection of the other is accepted, then the session of the first is over, nothing more is read
of it or written to it or handled for it, and whatever was handled for it was so before anything of
the other. -/
theorem first_come_first_served (H : RequestHandler σ) (s₀ : σ) (apps : ι → Application)
    (es fs : List (SystemEvent ι))
    (hc : connectionOf ((systemRun H s₀ apps es).party i).trace = some c)
    (hnone : connectionOf ((systemRun H s₀ apps es).party j).trace = none)
    (hd : connectionOf ((systemRun H s₀ apps (es ++ fs)).party j).trace = some d)
    (haccepted : d ∈ (systemRun H s₀ apps (es ++ fs)).server.world.own.accepted) :
    let o := (systemRun H s₀ apps (es ++ fs)).server.world.own
    o.Over c ∧
      (∀ gs, let o' := (systemRun H s₀ apps (es ++ fs ++ gs)).server.world.own
        o'.consumed c = o.consumed c ∧ o'.written c = o.written c ∧ o'.callsOf c = o.callsOf c) ∧
      ∃ before after, o.calls = before ++ after ∧ (∀ k ∈ before, k.client ≠ d) ∧
        ∀ k ∈ after, k.client ≠ c := by
  intro o
  have hbefore := systemRun_inv H s₀ apps es
  have hinv := systemRun_inv H s₀ apps (es ++ fs)
  have hgrows := systemRun_grows H s₀ apps es fs
  have hqueue := connections_isPrefix H s₀ apps es fs
  have hsuccessive : o.Successive := systemRun_successive H s₀ apps (es ++ fs)
  obtain ⟨hown, hshared⟩ := hinv.own
  have hcknown : c ∈ (systemRun H s₀ apps es).connections := hbefore.known i c hc
  have hdunknown : d ∉ (systemRun H s₀ apps es).connections := by
    intro hdknown
    obtain ⟨k, hk⟩ := hbefore.owned d hdknown
    obtain rfl : k = j := hinv.distinct k j d (hgrows.connection hk) hd
    rw [hnone] at hk
    cases hk
  -- the connections known before are at the front of those accepted
  obtain ⟨ds, hds⟩ : (systemRun H s₀ apps es).connections <+: o.accepted := by
    rcases List.prefix_or_prefix_of_prefix hqueue (List.prefix_append o.accepted _) with h | h
    · exact h
    · exact absurd (h.subset haccepted) hdunknown
  have hdlate : d ∈ ds := by
    rw [← hds, List.mem_append] at haccepted
    exact haccepted.resolve_left hdunknown
  have hclate : c ∉ ds := by
    have hnodup := hshared.nodup.of_append_left
    rw [← hds] at hnodup
    exact fun hcds => List.disjoint_of_nodup_append hnodup hcknown hcds
  have hover : o.Over c := by
    refine hsuccessive c ?_
    rw [← hds, List.dropLast_append_of_ne_nil (List.ne_nil_of_mem hdlate)]
    exact List.mem_append_left _ hcknown
  have hclient : ∀ {cs : List ℕ} {k}, k ∈ cs.flatMap o.callsOf → k.client ∈ cs := by
    intro cs k hk
    obtain ⟨client, hmem, hkclient⟩ := List.mem_flatMap.mp hk
    have heq := (List.mem_filter.mp hkclient).2
    rwa [of_decide_eq_true heq]
  refine ⟨hover, fun gs => over_systemRun hover gs,
    (systemRun H s₀ apps es).connections.flatMap o.callsOf, ds.flatMap o.callsOf, ?_, ?_, ?_⟩
  · rw [← List.flatMap_append, hds]
    exact hown.grouped
  · rintro k hk rfl
    exact hdunknown (hclient hk)
  · rintro k hk rfl
    exact hclate (hclient hk)

end

namespace TestProto

/-- The greeting of the process that connected first is handled first. -/
theorem first_come_first_served_greetingsRun :
    let o := (greetingSystem greetingsRun).server.world.own
    o.Over 1 ∧ o.calls.map Call.client = [1, 2] ∧
      ∃ before after, o.calls = before ++ after ∧ (∀ k ∈ before, k.client ≠ 2) ∧
        ∀ k ∈ after, k.client ≠ 1 := by
  obtain ⟨hover, -, hcalls⟩ := first_come_first_served
    (SyncServer.registered .silentIgnore [echo]).requestHandler () applications
    (greetingsRun.take 4) (greetingsRun.drop 4) (i := true) (j := false) (c := 1) (d := 2)
    (by decide +kernel) (by decide +kernel) (by decide +kernel) (by decide +kernel)
  rw [List.take_append_drop] at hover hcalls
  exact ⟨hover, by decide +kernel, hcalls⟩

end TestProto

end InterProcessCourier
