import InterProcessCourier.ServerWorld

/-!
# What the server keeps true

The invariant of the server's share of the world, and that each of its operations keeps it.

`Own.Inv` relates, for every connection, the four things the server does with it: whole frames of
what was read are exactly the requests handled, what was written is an initial part of the framed
responses, and the invocations of the request handler are grouped by connection, in the order of
acceptance. `Own.AtFrame` says more of the connection being served, between two requests: everything
read has been handled, and everything handled has been answered.

`World.Shared` is the part that also speaks of the clients: connections are numbered once, and a
stream that the server has seen the end of was read to its last whole frame.
-/

namespace InterProcessCourier

/-- The codes on which `SyncUnixDomainSession::start` takes the client to have disconnected. -/
def Exception.disconnects : Exception → Bool
  | systemError code _ => code = .eof ∨ code = .system .badDescriptor
  | _ => false

/-- A failure that ends a session and not the server. -/
def Fault.harmless (f : Fault) : Bool :=
  match f.origin with
  | .read _ => f.exception.disconnects
  | .handler _ => f.exception.disconnects
  | .listen => false
  | .accept => false
  | .write _ => false

namespace Own

variable {σ : Type} {H : RequestHandler σ} {s₀ : σ} {o : Own σ} {c : ℕ}

/-- The invariant of the server's share, for a server that started with handler state `s₀`. -/
structure Inv (H : RequestHandler σ) (s₀ : σ) (o : Own σ) : Prop where
  /-- Sessions do not interleave. -/
  grouped : o.calls = o.accepted.flatMap o.callsOf
  framed : ∀ c, wire.frames (o.requests c) <+: o.consumed c
  short : ∀ c, ∀ p ∈ o.requests c, p.length < 2 ^ 32
  answered : ∀ c, o.written c <+: wire.frames (o.responses c)
  /-- Only the last invocation for a client may have raised. -/
  returned : ∀ c, ∀ k ∈ (o.callsOf c).dropLast, ∃ r, k.result = .ok r
  untouched : ∀ c ∉ o.accepted, o.consumed c = [] ∧ o.written c = []
  faultless : ∀ c ∉ o.accepted, ∀ f ∈ o.faults, f.origin.client? ≠ some c
  raised : ∀ k ∈ o.calls, ∀ e, k.result = .error e → ⟨.handler k.client, e⟩ ∈ o.faults
  /-- Only a request handler raises what is not a `system_error`. -/
  foreign : ∀ f ∈ o.faults, f.exception.systemError? = none →
    ∃ k ∈ o.calls, k.result = .error f.exception
  results : ∀ k ∈ o.calls, k.result = (H k.request k.state).1
  /-- The handler's state is passed along. -/
  threaded : callAll (o.calls.map fun k => H k.request) s₀ = (o.calls.map Call.result, o.state)

/-- No failure so far has ended the server. -/
def Healthy (o : Own σ) : Prop := ∀ f ∈ o.faults, f.harmless = true

/-- Every accepted client's session has ended, and did so by a failure. -/
def Idle (o : Own σ) : Prop := ∀ c ∈ o.accepted, ∃ f ∈ o.faults, f.origin.client? = some c

/-- The session of `c` is the one in progress, and no session before it ended the server. -/
structure Serving (c : ℕ) (o : Own σ) : Prop where
  healthy : o.Healthy
  current : ∃ cs, o.accepted = cs ++ [c]
  others : ∀ d ∈ o.accepted, d ≠ c → ∃ f ∈ o.faults, f.origin.client? = some d
  clean : ∀ f ∈ o.faults, f.origin.client? ≠ some c

/-- Every request of a client was answered in full. -/
structure Answered (c : ℕ) (o : Own σ) : Prop where
  returned : ∀ k ∈ o.callsOf c, ∃ r, k.result = .ok r
  written : o.written c = wire.frames (o.responses c)

/-- The session of `c` stands between two requests. -/
structure AtFrame (c : ℕ) (o : Own σ) : Prop extends Serving c o, Answered c o where
  consumed : o.consumed c = wire.frames (o.requests c)

/-- The session of `c` has read part of a frame. -/
structure Reading (c : ℕ) (o : Own σ) : Prop extends Answered c o where
  cut : ∃ got, wire.Incomplete got ∧ o.consumed c = wire.frames (o.requests c) ++ got

theorem Serving.mem_accepted (h : Serving c o) : c ∈ o.accepted := by
  obtain ⟨cs, hcs⟩ := h.current
  simp [hcs]

/-- What does not accept and does not fail leaves the session in progress. -/
theorem Serving.of_eq {o' : Own σ} (h : Serving c o) (haccepted : o'.accepted = o.accepted)
    (hfaults : o'.faults = o.faults) : Serving c o' where
  healthy := by rw [Healthy, hfaults]; exact h.healthy
  current := by rw [haccepted]; exact h.current
  others := by rw [haccepted, hfaults]; exact h.others
  clean := by rw [hfaults]; exact h.clean

theorem AtFrame.reading (h : AtFrame c o) {got : Bytes} (hgot : wire.Incomplete got) :
    Reading c (o.consume c got) where
  returned := h.returned
  written := h.written
  cut := ⟨got, hgot, by rw [consume_consumed_self, h.consumed, consume_requests]⟩

/-- The results of requests that were all answered. -/
theorem map_result_of_returned (h : ∀ k ∈ o.callsOf c, ∃ r, k.result = .ok r) :
    (o.callsOf c).map Call.result = (o.responses c).map .ok := by
  rw [responses]
  generalize o.callsOf c = ks at h
  induction ks with
  | nil => rfl
  | cons k ks ih =>
    obtain ⟨r, hr⟩ := h k (by simp)
    rw [List.map_cons, List.filterMap_cons, hr, ih fun k' hk' => h k' (by simp [hk'])]
    rfl

/-- The invocations of a server that has served one client. -/
theorem Inv.calls_eq_callsOf (h : o.Inv H s₀) (hclients : ∀ d ∈ o.accepted, d = c) :
    o.calls = o.callsOf c := by
  rw [callsOf, List.filter_eq_self.mpr]
  intro k hk
  rw [h.grouped] at hk
  obtain ⟨d, hd, hkd⟩ := List.mem_flatMap.mp hk
  obtain rfl := hclients d hd
  exact (List.mem_filter.mp hkd).2

/-- The handler's state, passed along the requests of the one client. -/
theorem Inv.threaded_requests (h : o.Inv H s₀) (hclients : ∀ d ∈ o.accepted, d = c) :
    callAll ((o.requests c).map H) s₀ = ((o.callsOf c).map Call.result, o.state) := by
  rw [requests, ← h.calls_eq_callsOf hclients, List.map_map]
  exact h.threaded

/-! ### The operations keep the invariant -/

theorem callsOf_of_notMem (h : o.Inv H s₀) {d : ℕ} (hd : d ∉ o.accepted) : o.callsOf d = [] := by
  rw [callsOf, h.grouped, List.filter_eq_nil_iff]
  intro k hk
  obtain ⟨e, he, hke⟩ := List.mem_flatMap.mp hk
  simp only [callsOf, List.mem_filter, decide_eq_true_eq] at hke
  simp only [decide_eq_true_eq, hke.2]
  exact fun hc => hd (hc ▸ he)

theorem Inv.init (H : RequestHandler σ) (s₀ : σ) : ({ state := s₀ } : Own σ).Inv H s₀ where
  grouped := rfl
  framed _ := List.nil_prefix
  short _ := by simp [requests, callsOf]
  answered _ := List.nil_prefix
  returned _ := by simp [callsOf]
  untouched _ _ := ⟨rfl, rfl⟩
  faultless _ _ := by simp
  raised := by simp
  foreign := by simp
  results := by simp
  threaded := rfl

theorem Inv.consume (h : o.Inv H s₀) (hc : c ∈ o.accepted) (bs : Bytes) :
    (o.consume c bs).Inv H s₀ where
  grouped := h.grouped
  framed d := by
    rcases eq_or_ne d c with rfl | hd
    · simpa using (h.framed d).trans (List.prefix_append _ bs)
    · simpa [consume_consumed_of_ne o c d bs hd] using h.framed d
  short := h.short
  answered := h.answered
  returned := h.returned
  untouched d hd := by
    rw [consume_consumed_of_ne o c d bs fun he => hd (he ▸ hc)]
    exact h.untouched d hd
  faultless := h.faultless
  raised := h.raised
  foreign := h.foreign
  results := h.results
  threaded := h.threaded

theorem Inv.emit (h : o.Inv H s₀) (hc : c ∈ o.accepted) {bs : Bytes}
    (hbs : o.written c ++ bs <+: wire.frames (o.responses c)) : (o.emit c bs).Inv H s₀ where
  grouped := h.grouped
  framed := h.framed
  short := h.short
  answered d := by
    rcases eq_or_ne d c with rfl | hd
    · simpa using hbs
    · simpa [emit_written_of_ne o c d bs hd] using h.answered d
  returned := h.returned
  untouched d hd := by
    rw [emit_written_of_ne o c d bs fun he => hd (he ▸ hc)]
    exact h.untouched d hd
  faultless := h.faultless
  raised := h.raised
  foreign := h.foreign
  results := h.results
  threaded := h.threaded

theorem Inv.fault (h : o.Inv H s₀) {f : Fault}
    (hf : ∀ d, f.origin.client? = some d → d ∈ o.accepted)
    (hsystem : f.exception.systemError?.isSome) : (o.fault f).Inv H s₀ where
  grouped := h.grouped
  framed := h.framed
  short := h.short
  answered := h.answered
  returned := h.returned
  untouched := h.untouched
  faultless d hd g hg := by
    rcases List.mem_append.mp hg with hg | hg
    · exact h.faultless d hd g hg
    · rw [List.mem_singleton.mp hg]
      exact fun he => hd (hf d he)
  raised k hk e he := List.mem_append_left _ (h.raised k hk e he)
  foreign g hg hnone := by
    rcases List.mem_append.mp hg with hg | hg
    · exact h.foreign g hg hnone
    · rw [List.mem_singleton.mp hg] at hnone
      simp [hnone] at hsystem
  results := h.results
  threaded := h.threaded

theorem Inv.accept (h : o.Inv H s₀) (hc : c ∉ o.accepted) : (o.accept c).Inv H s₀ where
  grouped := by
    have hnil := callsOf_of_notMem h hc
    have hfun : (o.accept c).callsOf = o.callsOf := rfl
    rw [hfun, accept_calls, accept_accepted, List.flatMap_append, ← h.grouped]
    simp [hnil]
  framed := h.framed
  short := h.short
  answered := h.answered
  returned := h.returned
  untouched d hd := h.untouched d fun hm => hd (by simp [hm])
  faultless d hd := h.faultless d fun hm => hd (by simp [hm])
  raised := h.raised
  foreign := h.foreign
  results := h.results
  threaded := h.threaded

theorem Inv.unlink (h : o.Inv H s₀) : o.unlink.Inv H s₀ where
  grouped := h.grouped
  framed := h.framed
  short := h.short
  answered := h.answered
  returned := h.returned
  untouched := h.untouched
  faultless := h.faultless
  raised := h.raised
  foreign := h.foreign
  results := h.results
  threaded := h.threaded

/-- A call goes to the end of the last session's group. -/
theorem Inv.call (h : o.Inv H s₀) {cs : List ℕ} (hc : o.accepted = cs ++ [c])
    (hnodup : o.accepted.Nodup) (hreturned : ∀ k ∈ o.callsOf c, ∃ r, k.result = .ok r)
    {p : Bytes} (hp : p.length < 2 ^ 32)
    (hframe : wire.frames (o.requests c) ++ wire.frame p <+: o.consumed c) :
    (o.call c p (H p o.state).1 (H p o.state).2).Inv H s₀ where
  grouped := by
    have hcs : c ∉ cs := by
      rw [hc] at hnodup
      exact fun hm => (List.disjoint_of_nodup_append hnodup) hm (by simp)
    have hold : cs.flatMap (o.call c p (H p o.state).1 (H p o.state).2).callsOf
        = cs.flatMap o.callsOf := by
      refine List.flatMap_congr fun d hd => ?_
      exact call_callsOf_of_ne o c d p _ _ fun he => hcs (he ▸ hd)
    have := h.grouped
    rw [hc, List.flatMap_append] at this
    rw [call_accepted, call_calls, hc, List.flatMap_append, hold, this]
    simp
  framed d := by
    rcases eq_or_ne d c with rfl | hd
    · simpa using hframe
    · rw [call_requests_of_ne o c d p _ _ hd, call_consumed]
      exact h.framed d
  short d := by
    rcases eq_or_ne d c with rfl | hd
    · intro q hq
      rw [call_requests_self, List.mem_append, List.mem_singleton] at hq
      rcases hq with hq | rfl
      · exact h.short d q hq
      · exact hp
    · rw [call_requests_of_ne o c d p _ _ hd]
      exact h.short d
  answered d := by
    rcases eq_or_ne d c with rfl | hd
    · rw [call_responses_self, Framing.Format.frames_append]
      simpa using (h.answered d).trans (List.prefix_append _ _)
    · rw [call_responses_of_ne o c d p _ _ hd, call_written]
      exact h.answered d
  returned d := by
    rcases eq_or_ne d c with rfl | hd
    · rw [call_callsOf_self, List.dropLast_concat]
      exact hreturned
    · rw [call_callsOf_of_ne o c d p _ _ hd]
      exact h.returned d
  untouched d hd := by simpa using h.untouched d (by simpa using hd)
  faultless d hd f hf := by
    rw [call_accepted] at hd
    rcases (mem_call_faults ..).mp hf with hf | ⟨e, -, rfl⟩
    · exact h.faultless d hd f hf
    · rintro ⟨⟩
      exact hd (by simp [hc])
  raised k hk e he := by
    rw [call_calls, List.mem_append, List.mem_singleton] at hk
    rw [mem_call_faults]
    rcases hk with hk | rfl
    · exact .inl (h.raised k hk e he)
    · exact .inr ⟨e, he, rfl⟩
  foreign f hf hnone := by
    rw [call_calls]
    rcases (mem_call_faults ..).mp hf with hf | ⟨e, he, rfl⟩
    · obtain ⟨k, hk, hke⟩ := h.foreign f hf hnone
      exact ⟨k, by simp [hk], hke⟩
    · exact ⟨⟨c, p, o.state, (H p o.state).1⟩, by simp, he⟩
  results k hk := by
    rw [call_calls, List.mem_append, List.mem_singleton] at hk
    rcases hk with hk | rfl
    · exact h.results k hk
    · rfl
  threaded := by
    rw [call_calls, List.map_append, callAll_append, h.threaded, List.map_append, call_state]
    rfl

end Own

/-! ### What is shared with the clients -/

namespace World

variable {σ : Type} {w w' : World σ} {c : ℕ}

/-- The stream of `c` was read to its end, and every whole frame of it was handled and answered. -/
structure Drained (w : World σ) (c : ℕ) : Prop extends w.own.Reading c where
  closed : w.closed c = true
  unread : w.unread c = []

/-- What the server relies on, and the clients cannot break. -/
structure Shared (w : World σ) : Prop where
  nodup : (w.own.accepted ++ w.backlog).Nodup
  fresh : ∀ c ∉ w.own.accepted ++ w.backlog, w.unread c = [] ∧ w.closed c = false
  drained : ∀ c, Fault.endOfStream c ∈ w.own.faults → w.Drained c

theorem Shared.init (s : σ) : (init s).Shared where
  nodup := by simp [World.init]
  fresh _ _ := ⟨rfl, rfl⟩
  drained := by simp [World.init]

theorem Shared.nodup_accepted (h : w.Shared) : w.own.accepted.Nodup :=
  (List.nodup_append.mp h.nodup).1

/-- Clients keep their numbers apart, and can no longer reach a stream that has ended. -/
theorem Shared.act (h : w.Shared) (a : ClientAct) : (a.apply w).Shared := by
  cases a with
  | connect c =>
    rw [ClientAct.apply]
    split_ifs with hc
    · exact h
    · refine ⟨?_, fun d hd => h.fresh d fun hm => hd ?_, fun d hd => ⟨(h.drained d hd).toReading,
        (h.drained d hd).closed, (h.drained d hd).unread⟩⟩
      · rw [← List.append_assoc, List.nodup_append]
        exact ⟨h.nodup, List.nodup_singleton c, fun a ha b hb => by
          rintro rfl
          exact hc (List.mem_singleton.mp hb ▸ ha)⟩
      · rw [← List.append_assoc]
        exact List.mem_append_left _ hm
  | send c bs =>
    rw [ClientAct.apply]
    split_ifs with hc
    · refine ⟨h.nodup, fun d hd => ?_, fun d hd => ⟨(h.drained d hd).toReading,
        (h.drained d hd).closed, ?_⟩⟩
      · have hne : d ≠ c := fun he => hd (he ▸ hc.1)
        simpa [hne] using h.fresh d hd
      · have hne : d ≠ c := by
          rintro rfl
          rw [(h.drained d hd).closed] at hc
          exact absurd hc.2 (by simp)
        simpa [hne] using (h.drained d hd).unread
    · exact h
  | close c =>
    rw [ClientAct.apply]
    split_ifs with hc
    · refine ⟨h.nodup, fun d hd => ?_, fun d hd => ⟨(h.drained d hd).toReading, ?_,
        (h.drained d hd).unread⟩⟩
      · have hne : d ≠ c := fun he => hd (he ▸ hc)
        simpa [hne] using h.fresh d hd
      · rcases eq_or_ne d c with rfl | hne
        · simp
        · simpa [hne] using (h.drained d hd).closed
    · exact h

/-- A step of the server that moves bytes or makes a call, for the client it serves. -/
structure Concerns (c : ℕ) (w w' : World σ) : Prop where
  accepted : w'.own.accepted = w.own.accepted
  backlog : w'.backlog = w.backlog
  faults : w'.own.faults = w.own.faults
  consumed : ∀ d ≠ c, w'.own.consumed d = w.own.consumed d
  written : ∀ d ≠ c, w'.own.written d = w.own.written d
  callsOf : ∀ d ≠ c, w'.own.callsOf d = w.own.callsOf d
  unread : ∀ d ≠ c, w'.unread d = w.unread d
  closed : ∀ d ≠ c, w'.closed d = w.closed d

theorem Shared.concerns (h : w.Shared) (hc : Concerns c w w') (hmem : c ∈ w.own.accepted)
    (hopen : Fault.endOfStream c ∉ w.own.faults) : w'.Shared where
  nodup := by rw [hc.accepted, hc.backlog]; exact h.nodup
  fresh d hd := by
    rw [hc.accepted, hc.backlog] at hd
    have hne : d ≠ c := fun he => hd (List.mem_append_left _ (he ▸ hmem))
    rw [hc.unread d hne, hc.closed d hne]
    exact h.fresh d hd
  drained d hd := by
    rw [hc.faults] at hd
    have hne : d ≠ c := fun he => hopen (he ▸ hd)
    have hold := h.drained d hd
    have hreq : w'.own.requests d = w.own.requests d := by
      rw [Own.requests, hc.callsOf d hne, Own.requests]
    have hresp : w'.own.responses d = w.own.responses d := by
      rw [Own.responses, hc.callsOf d hne, Own.responses]
    refine ⟨⟨⟨?_, ?_⟩, ?_⟩, ?_, ?_⟩
    · rw [hc.callsOf d hne]; exact hold.returned
    · rw [hc.written d hne, hresp]; exact hold.written
    · rw [hc.consumed d hne, hreq]; exact hold.cut
    · rw [hc.closed d hne]; exact hold.closed
    · rw [hc.unread d hne]; exact hold.unread

theorem Concerns.deliver (w : World σ) (c : ℕ) (bs rest : Bytes) :
    Concerns c w (w.deliver c bs rest) where
  accepted := rfl
  backlog := rfl
  faults := rfl
  consumed d hd := Own.consume_consumed_of_ne w.own c d bs hd
  written _ _ := rfl
  callsOf _ _ := rfl
  unread d hd := by simp [World.deliver, hd]
  closed _ _ := rfl

theorem Concerns.emit (w : World σ) (c : ℕ) (bs : Bytes) :
    Concerns c w (w.withOwn (w.own.emit c bs)) where
  accepted := rfl
  backlog := rfl
  faults := rfl
  consumed _ _ := rfl
  written d hd := Own.emit_written_of_ne w.own c d bs hd
  callsOf _ _ := rfl
  unread _ _ := rfl
  closed _ _ := rfl

theorem Concerns.log (w : World σ) (c : ℕ) (p : Bytes) (r : Except Exception Bytes) (s : σ) :
    Concerns c w (w.withOwn (w.own.log c p r s)) where
  accepted := rfl
  backlog := rfl
  faults := rfl
  consumed _ _ := rfl
  written _ _ := rfl
  callsOf d hd := by simp [World.withOwn, Own.log, Own.callsOf, Ne.symm hd]
  unread _ _ := rfl
  closed _ _ := rfl

theorem Shared.fault (h : w.Shared) {f : Fault}
    (hf : ∀ c, f = .endOfStream c → w.Drained c) : (w.fault f).Shared where
  nodup := h.nodup
  fresh := h.fresh
  drained c hc := by
    have hold : w.Drained c := by
      rcases List.mem_append.mp hc with hc | hc
      · exact h.drained c hc
      · exact hf c (List.mem_singleton.mp hc).symm
    exact ⟨⟨⟨hold.returned, hold.written⟩, hold.cut⟩, hold.closed, hold.unread⟩

theorem Shared.call (h : w.Shared) (hmem : c ∈ w.own.accepted)
    (hopen : Fault.endOfStream c ∉ w.own.faults) (p : Bytes) (r : Except Exception Bytes) (s : σ) :
    (w.withOwn (w.own.call c p r s)).Shared := by
  have hlog := h.concerns (.log w c p r s) hmem hopen
  cases r with
  | ok a => exact hlog
  | error e => exact hlog.fault fun d hd => by simp [Fault.endOfStream] at hd

theorem Shared.accept (h : w.Shared) {rest : List ℕ} (hc : w.backlog = c :: rest) :
    Shared { w.withOwn (w.own.accept c) with backlog := rest } where
  nodup := by
    have := h.nodup
    rw [hc] at this
    simpa [World.withOwn, List.append_assoc] using this
  fresh d hd := h.fresh d fun hm => hd (by simpa [World.withOwn, hc] using hm)
  drained d hd := by
    have hold := h.drained d hd
    exact ⟨⟨⟨hold.returned, hold.written⟩, hold.cut⟩, hold.closed, hold.unread⟩

theorem Shared.unlink (h : w.Shared) : (w.withOwn w.own.unlink).Shared where
  nodup := h.nodup
  fresh := h.fresh
  drained d hd := by
    have hold := h.drained d hd
    exact ⟨⟨⟨hold.returned, hold.written⟩, hold.cut⟩, hold.closed, hold.unread⟩

end World

end InterProcessCourier
