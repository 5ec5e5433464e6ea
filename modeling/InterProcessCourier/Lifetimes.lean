import InterProcessCourier.Containment

/-!
# The socket file

The constructor of `SyncUnixDomainServer` makes the socket file, by binding its path, and `run`
removes it where it returns an error. The destructor does not remove it, and neither does an
exception that leaves `run`: `released_iff` says which lifetimes of servers, one after another on
one path, leave the path to the next. -/

namespace InterProcessCourier

open Interaction

/-! ### One run -/

section

variable {σ : Type} {H : RequestHandler σ} {s₀ : σ} {w w' : World σ}

/-- Nothing is asked of the clients but to leave the server's share alone. -/
def pathRely : Rely serverSignature (World σ) where
  env w w' := w'.own = w.own
  inv _ := True
  pre _ _ := True

theorem pathRely_owns (H : RequestHandler σ) :
    (pathRely (σ := σ)).Owns (serverKernel H) fun w => w.own.path where
  refl _ := rfl
  trans h h' := h'.trans h
  act a w _ := a.apply_own w
  view_eq h := congrArg Own.path h
  valid _ := id

/-- A triple about the socket file. -/
abbrev PathTriple (H : RequestHandler σ) {α : Type} (P : Bool → Prop) (p : ServerCode α)
    (ok : α → Bool → Prop) (err : Exception → Bool → Prop) : Prop :=
  Triple (serverKernel H) pathRely (fun w => w.own.path) P p ok err

/-- Code that does not remove the socket file leaves it there, also where it raises. -/
theorem pathTriple_of_asks {α : Type} {p : ServerCode α} (hp : p.Asks (· ≠ ServerOp.unlink)) :
    PathTriple H (· = true) p (fun _ => (· = true)) fun _ => (· = true) :=
  Triple.of_asks (pathRely_owns H) hp fun _ hop _ _ hw =>
    ⟨trivial, fun _ _ _ hr => ⟨trivial, (path_turn hop hr).trans hw⟩⟩

theorem pathTriple_perform {op : ServerOp} (hop : op ≠ .unlink) :
    PathTriple H (· = true) op.perform (fun _ => (· = true)) fun _ => (· = true) :=
  pathTriple_of_asks (Program.asks_perform hop)

theorem pathTriple_unlink {P : Bool → Prop} :
    PathTriple H P ServerOp.unlink.perform (fun _ => (· = false)) fun _ _ => False := by
  refine Triple.perform (pathRely_owns H) fun w _ _ => ⟨trivial, fun c r w' hr => ⟨trivial, ?_⟩⟩
  obtain ⟨rfl, rfl⟩ := turn_unlink hr
  exact (rfl : (w.own.unlink).path = false)

/-- The socket file is there as long as the loops run. -/
def pathPost {L ρ : Type} : Flow L ρ → Bool → Prop
  | .goto _, path => path = true
  | .done _, path => path = false

theorem pathTriple_guarded {body : ServerCode (Flow RunLabel (UnixDomainServerResult Unit))}
    (h : PathTriple H (· = true) body pathPost fun _ => (· = true)) :
    PathTriple H (· = true) (SyncUnixDomainServer.guarded body) pathPost fun _ => (· = true) := by
  have hV := pathRely_owns H
  refine triple_catchSystemError hV h (fun code what => ?_) fun _ _ _ => id
  exact (pathTriple_unlink.mono (fun _ => id) (fun _ _ => id) fun _ _ => False.elim).bind hV
    fun _ => Triple.ret hV fun _ => id

theorem pathTriple_run :
    PathTriple H (· = true) SyncUnixDomainServer.run pathPost fun _ => (· = true) := by
  have hlisten : PathTriple H (· = true) ServerOp.listen.perform (fun _ => (· = true))
      fun _ => (· = true) := pathTriple_perform nofun
  exact pathTriple_guarded (hlisten.bind (pathRely_owns H)
    fun _ => Triple.ret (pathRely_owns H) fun _ => id)

theorem pathTriple_runFrom (label : RunLabel) :
    PathTriple H (· = true) (SyncUnixDomainServer.runFrom label) pathPost fun _ => (· = true) := by
  have hV := pathRely_owns H
  refine pathTriple_guarded ?_
  match label with
  | .accept =>
    have haccept : PathTriple H (· = true) ServerOp.accept.perform (fun _ => (· = true))
        fun _ => (· = true) := pathTriple_perform nofun
    exact haccept.bind hV fun _ => Triple.ret hV fun _ => id
  | .session c =>
    have hsession : (SyncUnixDomainSession.start c).Asks (· ≠ ServerOp.unlink) :=
      (SyncUnixDomainSession.start_asks c).mono fun op hop => by
        rintro rfl
        cases hop
    refine (pathTriple_of_asks hsession).bind hV fun r => ?_
    match r with
    | .goto () => exact Triple.ret hV fun _ => id
    | .done (.ok ()) => exact Triple.ret hV fun _ => id
    | .done (.error error) =>
      exact (pathTriple_unlink.mono (fun _ => id) (fun _ _ => id) fun _ _ => False.elim).bind hV
        fun _ => Triple.ret hV fun _ => id

theorem pathTriple_report (r : Flow RunLabel (UnixDomainServerResult Unit)) :
    PathTriple H (pathPost r) (SyncServer.report r) pathPost fun _ => (· = true) := by
  have hV := pathRely_owns H
  match r with
  | .goto l => exact Triple.ret hV fun _ => id
  | .done (.ok ()) => exact Triple.ret hV fun _ => id
  | .done (.error error) => exact Triple.ret hV fun _ => id

/-- **What a run makes of the socket file.** It is removed if `start` returns, and left if an
exception leaves `start`. -/
theorem serverRun_path (H : RequestHandler σ) (s₀ : σ) (es : List (Event Choice ClientAct)) :
    Safe (serverKernel H) pathRely
      (Safe.blocksPost (fun _ w => w.own.path = true) (fun _ w => w.own.path = false)
        fun _ w => w.own.path = true)
      (serverRun H s₀ es).rest (serverRun H s₀ es).world := by
  have hV := pathRely_owns H
  have hpost : ∀ (r : Except Exception (Flow RunLabel (SyncServerResult Unit))) (w : World σ),
      Safe.Post (fun a w => pathPost a w.own.path) (fun _ w => w.own.path = true) r w →
      Safe.blocksPost (fun _ w => w.own.path = true) (fun _ w => w.own.path = false)
        (fun _ w => w.own.path = true) r w := by
    intro r w hr
    match r with
    | .ok (.goto l) => exact hr
    | .ok (.done result) => exact hr
    | .error e => exact hr
  refine Safe.run_blocks hV.toFits (fun l w hinv hw => ?_) ?_ es
  · exact ((pathTriple_runFrom l).bind hV pathTriple_report w hinv hw).mono fun r w _ => hpost r w
  · exact (pathTriple_run.bind hV pathTriple_report (World.init s₀) trivial rfl).mono
      fun r w _ => hpost r w

/-- A run of the server that has been left released the socket file exactly if no request handler
has raised anything but a `system_error`. -/
theorem path_eq_false_iff {es : List (Event Choice ClientAct)}
    (hleft : (Flow.outcome? (serverRun H s₀ es).rest).isSome) :
    (serverRun H s₀ es).world.own.path = false ↔ SyncServer.Reports (serverRun H s₀ es) := by
  have hR := (pathRely_owns H).toFits
  have hpath := serverRun_path H s₀ es
  have hsafe := serverRun_safe H s₀ es
  obtain ⟨outcome, houtcome⟩ := Option.isSome_iff_exists.mp hleft
  cases outcome with
  | ok result =>
    have hrest := Flow.outcome?_eq_ok.mp houtcome
    rw [hrest] at hpath hsafe
    refine iff_of_true (hpath.post_ok hR) ⟨fun e he => ?_, fun r hr => ?_⟩
    · rw [hrest] at he
      cases he
    · rw [hrest] at hr
      cases hr
      exact hsafe.post_ok (serverRely_owns H s₀).toFits
  | error e =>
    have hrest := Flow.outcome?_eq_error.mp houtcome
    rw [hrest] at hpath
    have htrue : (serverRun H s₀ es).world.own.path = true := hpath.post_error hR
    rw [htrue]
    exact iff_of_false nofun fun hreports => hreports.1 e hrest

end

/-! ### One lifetime after another -/

section

variable {σ : Type} [Protobuf]

/-- A server from its construction to its destruction. -/
structure Lifetime (σ : Type) [Protobuf] where
  strategy : DuplicateRequestResponsePairRegistrationStrategy
  /-- The handlers registered, in order. -/
  handlers : List (GenericHandler σ)
  /-- The state of the handlers. -/
  state : σ
  /-- What happens in `start`, if it is called. -/
  started : Option (List (Event Choice ClientAct))
  /-- A server is not destroyed before `start` has been left. -/
  left : ∀ es, started = some es →
    (Flow.outcome?
      (serverRun (SyncServer.registered strategy handlers).requestHandler state es).rest).isSome

/-- The constructor of `SyncUnixDomainServer`, on whether the socket file exists. Binding to a path
that exists fails. -/
def SyncUnixDomainServer.bind : Method Bool Unit := fun path =>
  if path then (.error (systemFailure (.other 98) (str "bind: Address already in use")), true)
  else (.ok (), true)

namespace Lifetime

/-- The server with its handlers registered. -/
def server (l : Lifetime σ) : SyncServer σ := SyncServer.registered l.strategy l.handlers

/-- Whether the socket file exists after the lifetime of a server that was constructed. The
destructor closes the acceptor, which leaves the file. -/
def path (l : Lifetime σ) : Bool :=
  l.started.elim true fun es => (serverRun l.server.requestHandler l.state es).world.own.path

/-- A lifetime, on whether the socket file exists: none of it happens if the constructor throws. -/
def live (l : Lifetime σ) : Method Bool Unit := fun path =>
  match SyncUnixDomainServer.bind path with
  | (.error e, path') => (.error e, path')
  | (.ok (), _) => (.ok (), l.path)

@[simp] theorem live_false (l : Lifetime σ) : l.live false = (.ok (), l.path) := rfl

/-- Every server can be constructed, and after each lifetime the path does not exist. -/
def Released (ls : List (Lifetime σ)) : Prop :=
  ∀ done, done <+: ls →
    callAll (done.map live) false = (List.replicate done.length (.ok ()), false)

/-- `start` was called, and every payload the request handler was invoked on decodes to a message of
a registered type whose handler raises nothing but `boost::system::system_error`. -/
def Contained (l : Lifetime σ) : Prop :=
  ∃ es, l.started = some es ∧
    ∀ k ∈ (serverRun l.server.requestHandler l.state es).world.own.calls,
      l.server.Contains k.request k.state

/-- Lifetimes release the path if each of them does. -/
theorem released_iff_path (ls : List (Lifetime σ)) : Released ls ↔ ∀ l ∈ ls, l.path = false := by
  constructor
  · intro h l hl
    obtain ⟨before, after, rfl⟩ := List.append_of_mem hl
    have hbefore := h before (List.prefix_append _ _)
    have hafter := h (before ++ [l]) ⟨after, by simp⟩
    rw [List.map_append, List.map_singleton, callAll_concat, hbefore] at hafter
    exact congrArg Prod.snd hafter
  · intro h done hdone
    induction done using List.reverseRecOn with
    | nil => rfl
    | append_singleton done l ih =>
      rw [List.map_append, List.map_singleton, callAll_concat,
        ih ((List.prefix_append done [l]).trans hdone), live_false, h l (hdone.subset (by simp))]
      simp [List.replicate_succ']

variable [LawfulProtobuf]

theorem path_eq_false_iff (l : Lifetime σ) : l.path = false ↔ l.Contained := by
  cases hstarted : l.started with
  | none => simp [path, Contained, hstarted]
  | some es =>
    simp only [path, Contained, hstarted, Option.elim_some, Option.some.injEq, exists_eq_left']
    exact (InterProcessCourier.path_eq_false_iff (l.left es hstarted)).trans
      (SyncServer.reports_iff l.strategy l.handlers l.state es)

/-- **When the path is released.** Of servers that live one after another on one path, every one can
bind it and none leaves it behind exactly if each was started and contained every payload it was
given. -/
theorem released_iff (ls : List (Lifetime σ)) : Released ls ↔ ∀ l ∈ ls, l.Contained := by
  rw [released_iff_path]
  exact forall₂_congr fun l _ => l.path_eq_false_iff

end Lifetime

end

namespace TestProto

/-- A server that is never started. -/
def idleLifetime : Lifetime Unit where
  strategy := .silentIgnore
  handlers := [echo]
  state := ()
  started := none
  left := nofun

/-- A server whose acceptor fails after it has echoed a greeting. -/
def failedLifetime : Lifetime Unit where
  strategy := .silentIgnore
  handlers := [echo]
  state := ()
  started := some acceptorRun
  left es hes := by
    obtain rfl := Option.some.inj hes
    decide +kernel

/-- A server that a client sends a payload of no type. -/
def rejectedLifetime : Lifetime Unit where
  strategy := .silentIgnore
  handlers := [echo]
  state := ()
  started := some rejectedRun
  left es hes := by
    obtain rfl := Option.some.inj hes
    decide +kernel

/-- A failing acceptor releases the path, again and again. -/
theorem released_iff_failed : Lifetime.Released [failedLifetime, failedLifetime] := by
  refine (Lifetime.released_iff _).mpr fun l hl => ?_
  obtain rfl : l = failedLifetime := by simpa using hl
  exact ⟨acceptorRun, rfl, contains_acceptorRun⟩

/-- A server that is not started, or is left by the exception of a rejected payload, keeps the next
one from binding. -/
theorem not_released :
    callAll ([idleLifetime, idleLifetime].map Lifetime.live) false =
      ([.ok (), .error (systemFailure (.other 98) (str "bind: Address already in use"))], true) ∧
    callAll ([rejectedLifetime, idleLifetime].map Lifetime.live) false =
      ([.ok (), .error (systemFailure (.other 98) (str "bind: Address already in use"))], true) ∧
    ¬Lifetime.Released [idleLifetime, idleLifetime] ∧
    ¬Lifetime.Released [rejectedLifetime, idleLifetime] := by
  have hidle : callAll ([idleLifetime, idleLifetime].map Lifetime.live) false =
      ([.ok (), .error (systemFailure (.other 98) (str "bind: Address already in use"))],
        true) := by
    decide +kernel
  have hrejected : callAll ([rejectedLifetime, idleLifetime].map Lifetime.live) false =
      ([.ok (), .error (systemFailure (.other 98) (str "bind: Address already in use"))],
        true) := by
    decide +kernel
  refine ⟨hidle, hrejected, fun h => ?_, fun h => ?_⟩
  · exact absurd (congrArg Prod.snd (hidle.symm.trans (h _ List.prefix_rfl))) nofun
  · exact absurd (congrArg Prod.snd (hrejected.symm.trans (h _ List.prefix_rfl))) nofun

end TestProto

end InterProcessCourier
