import InterProcessCourier.Dialogue
import InterProcessCourier.Dispatch
import InterProcessCourier.TestProto

/-!
# What reaches the other side

Two results about the calls of one client, over any run: the server handles the payloads that the
client has sent and nothing else, and a call returns the decoding of the response to its own
request. Both need that nothing is sent after a torn frame. The library does not see to that: it
goes on using a socket on which a frame was torn, and each result is followed by a run in which that
goes wrong.

## Main results

* `requests_sent` — what the server handles
* `responses_attributed` — what the client's calls return
-/

namespace InterProcessCourier

open Interaction

/-! ### The server's side of an exchange -/

section Answers

variable {σ : Type} {H : RequestHandler σ} {s₀ : σ} {o : Own σ} {c : ℕ}

/-- The requests of a client that were answered, each with its response. -/
def Own.answers (o : Own σ) (c : ℕ) : List (Bytes × Bytes) :=
  (o.callsOf c).filterMap fun k => k.result.toOption.map (k.request, ·)

theorem Own.answers_map_snd : (o.answers c).map Prod.snd = o.responses c := by
  rw [Own.answers, Own.responses, List.map_filterMap]
  congr 1
  funext k
  cases k.result <;> rfl

/-- Only the last request of a client can be without a response. -/
theorem Own.Inv.answers_map_fst (h : o.Inv H s₀) (c : ℕ) :
    (o.answers c).map Prod.fst <+: o.requests c := by
  have hreturned := h.returned c
  rw [Own.answers, Own.requests]
  generalize o.callsOf c = ks at hreturned
  have hall : ∀ ks : List (Call σ), (∀ k ∈ ks, ∃ r, k.result = .ok r) →
      (ks.filterMap fun k => k.result.toOption.map (k.request, ·)).map Prod.fst =
        ks.map Call.request := by
    intro ks hks
    induction ks with
    | nil => rfl
    | cons k ks ih =>
      obtain ⟨r, hr⟩ := hks k (by simp)
      rw [List.filterMap_cons, hr, List.map_cons, ← ih fun k' hk' => hks k' (by simp [hk'])]
      rfl
  rcases List.eq_nil_or_concat ks with rfl | ⟨ks, k, rfl⟩
  · exact List.prefix_rfl
  · rw [List.concat_eq_append, List.dropLast_concat] at hreturned
    rw [List.concat_eq_append, List.filterMap_append, List.map_append, List.map_append,
      hall ks hreturned]
    refine (List.prefix_append_right_inj _).mpr ?_
    cases hk : k.result <;> simp [hk, Except.toOption]

theorem Own.Inv.length_responses_le (h : o.Inv H s₀) (c : ℕ) :
    (o.responses c).length ≤ (o.requests c).length := by
  rw [← Own.answers_map_snd, List.length_map]
  simpa using (h.answers_map_fst c).length_le

variable {l : Link σ}

/-- The server handles what the client's stream spells. -/
theorem Link.Inv.requests_isPrefix (h : l.Inv H s₀) (hc : connectionOf l.trace = some c) :
    l.server.world.own.requests c <+: (wire.deframe (sentOf l.trace)).1 := by
  obtain ⟨hinv, -⟩ := h.own
  rw [← (h.connected c hc).sent]
  exact wire.prefix_deframe (hinv.short c) ((hinv.framed c).trans (List.prefix_append _ _))

/-- Whole frames that the client has taken are the first responses. -/
theorem Link.Inv.responses_isPrefix (h : l.Inv H s₀) (hc : connectionOf l.trace = some c)
    (hshort : ∀ r ∈ l.server.world.own.responses c, r.length < 2 ^ 32) {rs : List Bytes}
    (hrs : ∀ r ∈ rs, r.length < 2 ^ 32) (htaken : wire.frames rs <+: takenOf l.trace) :
    rs <+: l.server.world.own.responses c := by
  obtain ⟨hinv, -⟩ := h.own
  have hframes := htaken.trans ((h.connected c hc).taken.trans (hinv.answered c))
  simpa [wire.deframe_frames hshort] using wire.prefix_deframe hrs hframes

end Answers

/-- Two lists of pairs, one in front of the other on either side. -/
theorem isPrefix_of_map {α β : Type} {xs ys : List (α × β)}
    (hfst : xs.map Prod.fst <+: ys.map Prod.fst) (hsnd : xs.map Prod.snd <+: ys.map Prod.snd) :
    xs <+: ys := by
  induction xs generalizing ys with
  | nil => exact List.nil_prefix
  | cons x xs ih =>
    cases ys with
    | nil => simp at hfst
    | cons y ys =>
      obtain ⟨hx, hxs⟩ := List.cons_prefix_cons.mp hfst
      obtain ⟨hx', hxs'⟩ := List.cons_prefix_cons.mp hsnd
      exact List.cons_prefix_cons.mpr ⟨Prod.ext hx hx', ih hxs hxs'⟩

/-! ### What the server handles -/

section

variable [Protobuf] [LawfulProtobuf] {σ : Type}

/-- **The server handles what the client has sent.** At every moment of a run in which nothing is
sent after a torn request: once the call in progress has returned, which it can, the requests that
were handled by that moment are the first of the payloads that the calls have sent, and what the
client has written is the frames of those payloads and at most the beginning of another. -/
theorem requests_sent (H : RequestHandler σ) (s₀ : σ) (client : SyncClient)
    (calls : List ClientCall) (es : List (Event Choice LinkAct))
    (hfinal : Final Io.TearsRequest (clientRun H s₀ client calls es).world.trace) :
    let now := clientRun H s₀ client calls es
    (∃ fs session, (clientRun H s₀ client calls (es ++ fs)).rest = .ret session ∧
      Final Io.TearsRequest (clientRun H s₀ client calls (es ++ fs)).world.trace) ∧
    ∀ fs session c, let later := clientRun H s₀ client calls (es ++ fs)
      later.rest = .ret session → Final Io.TearsRequest later.world.trace →
      connectionOf later.world.trace = some c →
      ∃ xss tail, List.Forall₂ Outcome.Exchanges session.outcomes xss ∧
        wire.Reads (sentOf later.world.trace) (sentPayloads xss.flatten) tail ∧
        now.world.server.world.own.requests c <+: sentPayloads xss.flatten := by
  intro now
  constructor
  · obtain ⟨fs, ops, session, hrest, htrace⟩ := clientRun_returns H s₀ client calls es
    exact ⟨fs, session, hrest, by rw [htrace]; exact hfinal.append_failed ops⟩
  · intro fs session c later hrest hlater hc
    obtain ⟨xss, hxss, hdialogue⟩ := (clientRun_session hrest).performed.dialogue
    obtain ⟨tail, hsent, hcut, -⟩ := hdialogue.sent hlater
    have hreads : wire.Reads (sentOf later.world.trace) (sentPayloads xss.flatten) tail :=
      ⟨hsent, hdialogue.length_lt, hcut⟩
    refine ⟨xss, tail, hxss, hreads, ?_⟩
    have hhandled := (clientRun_inv H s₀ client calls (es ++ fs)).requests_isPrefix hc
    rw [hreads.deframe_eq] at hhandled
    refine List.IsPrefix.trans ?_ hhandled
    exact ((calls_clientRun H s₀ client calls es fs).filter _).map _

end

namespace TestProto

/-- A client that does not validate. -/
def unchecked : SyncClient where
  clientOptions := { validateReqResPairStrategy := .noValidation }

/-- A greeting to be echoed. -/
def greet (message : Bytes) : ClientCall :=
  @ClientCall.sendRequest _ TestType.helloWorld TestType.helloWorld { message }

/-- The same greeting, as it is sent. -/
def greetingOf (message : Bytes) : Bytes :=
  makePayloadFromProto (T := TestType.helloWorld) { message }

/-- What the greetings gave back. -/
def replies (session : Session) : List (SyncClientResult HelloWorld) :=
  session.outcomes.filterMap fun
    | ⟨.sendRequest TestType.helloWorld _, r⟩ => some r
    | _ => none

/-- The client takes turns, and moves at most `k` bytes at each. -/
def clientTurns (n k : ℕ) : List (Event Choice LinkAct) := List.replicate n (.turn (.transfer k))

/-- The server takes turns. -/
def serverTurns (n : ℕ) : List (Event Choice LinkAct) :=
  List.replicate n (.act (.server (.transfer 1000)))

/-- Two greetings on one connection, after some events. -/
abbrev twoGreetings (first second : Bytes) (es : List (Event Choice LinkAct)) :
    Config clientSignature Exception Session (Link Unit) :=
  clientRun (SyncServer.registered .silentIgnore [echo]).requestHandler () unchecked
    [.connect, greet first, greet second] es

/-- What two greetings gave back. -/
abbrev repliesOf (cfg : Config clientSignature Exception Session (Link Unit)) :
    Option (Except Exception (List (SyncClientResult HelloWorld))) :=
  cfg.rest.result?.map fun r => r.map replies

/-- The first write fails after five bytes. -/
def tornRequestRun : List (Event Choice LinkAct) :=
  clientTurns 3 1000 ++ [.turn (.transfer 5),
    .turn (.fail (.other 105) (str "write_some: No buffer space available"))] ++
    clientTurns 2 1000 ++ serverTurns 10 ++ clientTurns 1 1000

/-- The request that failed is begun, and the request that was sent makes up the rest of it. -/
theorem not_sent_tornRequestRun :
    repliesOf (twoGreetings (str "a") (str "b") tornRequestRun) =
      some (.ok [.error ⟨.unableToSendMessage, str "write_some: No buffer space available"⟩,
        .error ⟨.unableToReceiveMessage, str "End of file"⟩]) ∧
    (twoGreetings (str "a") (str "b") tornRequestRun).world.server.world.own.requests 1 =
      [(greetingOf (str "a")).take 1 ++ (wire.frame (greetingOf (str "b"))).take 34] ∧
    ¬(twoGreetings (str "a") (str "b") tornRequestRun).world.server.world.own.requests 1 <+:
      [greetingOf (str "b")] := by
  decide +kernel

/-- The first write fails at once. -/
def unsentRequestRun : List (Event Choice LinkAct) :=
  clientTurns 3 1000 ++
    [.turn (.fail (.other 105) (str "write_some: No buffer space available"))] ++
    clientTurns 1 1000 ++ clientTurns 2 20 ++ serverTurns 10 ++ clientTurns 2 1000

/-- Only the second greeting is handled. -/
theorem requests_sent_unsentRequestRun :
    ∃ session xss tail,
      (twoGreetings (str "a") (str "b") unsentRequestRun).rest = .ret session ∧
      replies session = [.error ⟨.unableToSendMessage, str "write_some: No buffer space available"⟩,
        .ok { message := str "b" }] ∧
      List.Forall₂ Outcome.Exchanges session.outcomes xss ∧
      wire.Reads (sentOf (twoGreetings (str "a") (str "b") unsentRequestRun).world.trace)
        (sentPayloads xss.flatten) tail ∧
      [greetingOf (str "b")] <+: sentPayloads xss.flatten := by
  have hfinal : Final Io.TearsRequest
      (twoGreetings (str "a") (str "b") unsentRequestRun).world.trace := by
    decide +kernel
  have hreplies : repliesOf (twoGreetings (str "a") (str "b") unsentRequestRun) = some (.ok
      [.error ⟨.unableToSendMessage, str "write_some: No buffer space available"⟩,
        .ok { message := str "b" }]) := by
    decide +kernel
  obtain ⟨session, hrest, hsession⟩ := Program.exists_ret_of_map hreplies
  obtain ⟨-, hsent⟩ := requests_sent (SyncServer.registered .silentIgnore [echo]).requestHandler ()
    unchecked [.connect, greet (str "a"), greet (str "b")] unsentRequestRun hfinal
  obtain ⟨xss, tail, hxss, hreads, hrequests⟩ := hsent [] session 1 (by simpa using hrest)
    (by simpa using hfinal) (by decide +kernel)
  rw [List.append_nil] at hreads
  refine ⟨session, xss, tail, hrest, hsession, hxss, hreads, ?_⟩
  have hhandled : (twoGreetings (str "a") (str "b")
      unsentRequestRun).world.server.world.own.requests 1 = [greetingOf (str "b")] := by
    decide +kernel
  exact hhandled ▸ hrequests

end TestProto

section

variable [Protobuf] [LawfulProtobuf] {σ : Type}

/-! ### What the calls return -/

/-- The responses of a server fit their headers. -/
theorem length_responses_lt {server : SyncServer σ} {s₀ : σ} {o : Own σ}
    (h : o.Inv server.requestHandler s₀) (c : ℕ) : ∀ r ∈ o.responses c, r.length < 2 ^ 32 := by
  intro r hr
  obtain ⟨k, hk, hresult⟩ := List.mem_filterMap.mp hr
  cases hok : k.result with
  | error e => simp [hok, Except.toOption] at hresult
  | ok response =>
    obtain rfl : response = r := by simpa [hok, Except.toOption] using hresult
    rw [h.results k (List.mem_of_mem_filter hk)] at hok
    obtain ⟨T, m, rfl⟩ := SyncServer.requestHandler_eq_ok hok
    exact length_makePayloadFromProto_lt m

/-- **Responses are attributed to their requests.** Between any two calls of a run in which nothing
is sent after a torn frame, the exchanges that ended with a response are the first that the server
has answered, request by request, and unless a frame was torn, every response was taken to its
end. -/
theorem responses_attributed (server : SyncServer σ) (s₀ : σ) (client : SyncClient)
    (calls : List ClientCall) (es : List (Event Choice LinkAct)) (session : Session)
    (hreturned : (clientRun server.requestHandler s₀ client calls es).rest = .ret session)
    (hfinal : Final Io.Tears (clientRun server.requestHandler s₀ client calls es).world.trace) :
    let l := (clientRun server.requestHandler s₀ client calls es).world
    ∃ xss, List.Forall₂ Outcome.Exchanges session.outcomes xss ∧
      (connectionOf l.trace = none → completed xss.flatten = []) ∧
      ∀ c, connectionOf l.trace = some c →
        completed xss.flatten <+: l.server.world.own.answers c ∧
        (Happened Io.Tears l.trace ∨
          takenOf l.trace = wire.frames (l.server.world.own.responses c)) := by
  intro l
  have hlink : l.Inv server.requestHandler s₀ := clientRun_inv _ s₀ client calls es
  obtain ⟨hown, -⟩ := hlink.own
  obtain ⟨xss, hxss, hdialogue⟩ := (clientRun_session hreturned).performed.dialogue
  have htaken := hdialogue.taken hfinal
  have hframes : wire.frames ((completed xss.flatten).map Prod.snd) <+: takenOf l.trace := by
    rcases htaken with ⟨-, htaken⟩ | ⟨-, -, -, htaken⟩
    · rw [htaken]
    · exact htaken
  have hpayloads : (completed xss.flatten).map Prod.fst <+: sentPayloads xss.flatten ∧
      (sentPayloads xss.flatten).length ≤ (completed xss.flatten).length + 1 := by
    rcases htaken with ⟨hpayloads, -⟩ | ⟨-, hpayloads, hlength, -⟩
    · simp [hpayloads]
    · exact ⟨hpayloads, hlength⟩
  refine ⟨xss, hxss, fun hnone => ?_, fun c hc => ?_⟩
  · rw [(hlink.unconnected hnone).2] at hframes
    have hnil := List.prefix_nil.mp hframes
    cases hcompleted : completed xss.flatten with
    | nil => rfl
    | cons x xs => simp [hcompleted, wire_frame_ne_nil] at hnil
  · have hresponses : (completed xss.flatten).map Prod.snd <+: l.server.world.own.responses c := by
      refine hlink.responses_isPrefix hc (length_responses_lt hown c) (fun r hr => ?_) hframes
      obtain ⟨x, hx, rfl⟩ := List.mem_map.mp hr
      exact hdialogue.length_completed_lt x hx
    have hrequests : l.server.world.own.requests c <+: sentPayloads xss.flatten := by
      obtain ⟨tail, hsent, hcut, -⟩ := hdialogue.sent (hfinal.mono fun _ _ => .inl)
      have hhandled := hlink.requests_isPrefix hc
      rwa [wire.deframe_eq hdialogue.length_lt hcut hsent] at hhandled
    -- the counts leave no room: one request at most is without its response
    have hcount := hown.length_responses_le c
    have hcompleted := hresponses.length_le
    rw [List.length_map] at hcompleted
    have hfst : (completed xss.flatten).map Prod.fst <+: l.server.world.own.requests c :=
      List.prefix_of_prefix_length_le hpayloads.1 hrequests (by rw [List.length_map]; omega)
    have hsnd := hresponses
    rw [← Own.answers_map_snd] at hsnd
    have hlength := hsnd.length_le
    refine ⟨isPrefix_of_map (List.prefix_of_prefix_length_le hfst (hown.answers_map_fst c)
      (by simpa using hlength)) hsnd, ?_⟩
    rcases htaken with ⟨hsame, htaken⟩ | ⟨htorn, -⟩
    · right
      have hle := hrequests.length_le
      rw [hsame, List.length_map] at hle
      rw [htaken, hresponses.eq_of_length (by rw [List.length_map]; omega)]
    · exact .inl htorn

end

namespace TestProto

/-- A greeting that holds the frame of another. -/
def nested : Bytes := wire.frame (greetingOf (str "x"))

/-- The first response is read in two pieces, of which the second is the inner frame. -/
def tornResponseRun : List (Event Choice LinkAct) :=
  clientTurns 4 1000 ++ serverTurns 10 ++ clientTurns 1 1000 ++ clientTurns 1 34 ++
    clientTurns 4 1000 ++ serverTurns 10

/-- The second call returns what the message of the first response holds. -/
theorem misattributed_tornResponseRun :
    repliesOf (twoGreetings nested (str "b") tornResponseRun) =
      some (.ok [.error ⟨.unableToReceiveMessage, []⟩, .ok { message := str "x" }]) ∧
    (twoGreetings nested (str "b") tornResponseRun).world.server.world.own.answers 1 =
      [(greetingOf nested, greetingOf nested), (greetingOf (str "b"), greetingOf (str "b"))] ∧
    takenOf (twoGreetings nested (str "b") tornResponseRun).world.trace ≠
      wire.frames [greetingOf nested, greetingOf (str "b")] := by
  decide +kernel

/-- Both responses are read whole. -/
def wholeRun : List (Event Choice LinkAct) :=
  clientTurns 4 1000 ++ serverTurns 10 ++ clientTurns 4 1000 ++ serverTurns 10 ++ clientTurns 2 1000

/-- Both greetings come back. -/
theorem responses_attributed_wholeRun :
    ∃ session xss, (twoGreetings nested (str "b") wholeRun).rest = .ret session ∧
      replies session = [.ok { message := nested }, .ok { message := str "b" }] ∧
      List.Forall₂ Outcome.Exchanges session.outcomes xss ∧
      completed xss.flatten <+:
        [(greetingOf nested, greetingOf nested), (greetingOf (str "b"), greetingOf (str "b"))] := by
  have hreplies : repliesOf (twoGreetings nested (str "b") wholeRun) =
      some (.ok [.ok { message := nested }, .ok { message := str "b" }]) := by
    decide +kernel
  obtain ⟨session, hrest, hsession⟩ := Program.exists_ret_of_map hreplies
  obtain ⟨xss, hxss, -, hattributed⟩ := responses_attributed
    (SyncServer.registered .silentIgnore [echo]) () unchecked
    [.connect, greet nested, greet (str "b")] wholeRun session hrest (by decide +kernel)
  have hconnected : connectionOf (twoGreetings nested (str "b") wholeRun).world.trace = some 1 := by
    decide +kernel
  have hserver : (twoGreetings nested (str "b") wholeRun).world.server.world.own.answers 1 =
      [(greetingOf nested, greetingOf nested), (greetingOf (str "b"), greetingOf (str "b"))] := by
    decide +kernel
  rw [twoGreetings] at hconnected hserver
  obtain ⟨hanswers, -⟩ := hattributed 1 hconnected
  rw [hserver] at hanswers
  exact ⟨session, xss, hrest, hsession, hxss, hanswers⟩

end TestProto

end InterProcessCourier
