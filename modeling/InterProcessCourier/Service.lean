import InterProcessCourier.Starvation
import Mathlib.Order.Filter.AtTopBot.Basic
import Mathlib.Order.Filter.Finite

/-!
# Everybody is served

Endless runs of a server and finitely many processes in which nothing fails. Every process makes
finitely many calls, so from some moment on only the server moves; what it can still do is used up,
and nothing changes any more. Where nothing changes, somebody waits only behind a process that is
done and stays. If those that are done leave, nobody waits.

## Main definitions

* `Attended` — schedules in which nothing fails, everybody gets turns, and a process ends after its
  last call

## Main results

* `eventually_idle` — a system left to itself comes to rest
* `eventually_served` — in an attended system all calls of all processes return
-/

namespace InterProcessCourier

open Interaction

/-- An exchange that begins at a whole frame and tears none ends with a response, or has sent
nothing. -/
theorem Exchange.replied_of_untorn {payload : Bytes} {r : SyncClientResult Bytes}
    {before t : List Io} (h : Exchange payload r t) (hpayload : payload.length < 2 ^ 32)
    {ps : List Bytes} (hbefore : wire.Reads (sentOf before) ps [])
    (huntorn : ¬Happened Io.Tears (before ++ t)) :
    (∃ response, r = .ok response) ∨ sentOf t = [] := by
  cases h with
  | done hframe hheader hresponse => exact .inl ⟨_, rfl⟩
  | @lost n t hmidway message =>
    refine absurd ?_ huntorn
    rw [← List.append_assoc]
    exact Happened.last (.inr trivial)
  | @short n bs t hmidway hbs message =>
    refine absurd ?_ huntorn
    rw [← List.append_assoc]
    exact Happened.last (.inr hbs)
  | @unsent bs t hmidway message =>
    obtain ⟨hframe, hbs, -⟩ := hmidway.writing
    by_contra hnot
    refine huntorn ?_
    rw [← List.append_assoc]
    refine Happened.last (.inl ?_)
    have hcut : wire.Incomplete (sentOf t) :=
      wire.incomplete_of_prefix hpayload ⟨bs, hframe⟩ fun he => hbs (by simpa [he] using hframe)
    have hspell : sentOf (before ++ t) = wire.frames ps ++ sentOf t := by
      rw [sentOf_append, hbefore.eq, List.append_nil]
    change (wire.deframe (sentOf (before ++ t))).2 ≠ []
    rw [wire.deframe_eq hbefore.lt hcut hspell]
    intro hnil
    exact hnot (.inr (by simpa using hnil))

section

variable [Protobuf] {ι σ : Type} {H : RequestHandler σ} {s₀ : σ} {apps : ι → Application}
  {s : System ι σ} {i : ι}

/-! ### Coming to rest -/

/-- Nothing is added to the record by a thread that stays where it is. -/
theorem Party.resume_self {app : Application} {p : Party} {start : Session} (h : p.Stands start)
    (hbook : p.Book app start) : p.resume p.thread p.trace = p := by
  have hnone : p.returned p.thread p.trace = [] := by
    rcases h with ⟨hret, -⟩ | ⟨op, k, hop, -⟩
    · have hall : (p.records.map Record.outcome).drop p.records.length = [] :=
        List.drop_of_length_le (by rw [List.length_map])
      rw [hret, returned, hbook.outcomes, hall, List.map_nil]
    · rw [hop, returned]
  rw [resume_eq hnone, List.append_nil]

namespace System

variable [DecidableEq ι]

/-- The event changes nothing. -/
def Idles (H : RequestHandler σ) (s : System ι σ) : SystemEvent ι → Prop
  | .server choice => (serverKernel H).Waits (Flow.next SyncServer.startFrom) choice s.server
  | .party i choice => (s.party i).gone = true ∨ (linkKernel H).Waits Session.next choice (s.view i)
  | .exit i => (s.party i).gone = true

theorem Inv.step_idle (h : s.Inv H s₀ apps) {e : SystemEvent ι} (he : s.Idles H e) :
    s.step H e = s := by
  cases e with
  | server choice =>
    have hwaits : (serverKernel H).Waits (Flow.next SyncServer.startFrom) choice s.server := he
    rw [System.step, hwaits.step]
  | exit i => exact (step_of_gone he (.transfer 0)).2
  | party i choice =>
    cases hi : (s.party i).gone with
    | true => exact (step_of_gone hi choice).1
    | false =>
      have hwaits : (linkKernel H).Waits Session.next choice (s.view i) :=
        he.resolve_left (by simp [hi])
      obtain ⟨start, hbook, hstands, -⟩ := (h.sound i).stands
      have hsame : (s.party i).resume (s.view i).rest (s.view i).world.trace = s.party i :=
        Party.resume_self hstands hbook
      rw [step_party hi, hwaits.step]
      simp only [hsame, Function.update_eq_self]
      rfl

end System

variable [DecidableEq ι]

/-- The system before a moment of an endless schedule. -/
abbrev systemUpTo (H : RequestHandler σ) (s₀ : σ) (apps : ι → Application)
    (schedule : ℕ → SystemEvent ι) (n : ℕ) : System ι σ :=
  systemRun H s₀ apps (upTo schedule n)

variable {schedule : ℕ → SystemEvent ι}

theorem systemUpTo_succ (H : RequestHandler σ) (s₀ : σ) (apps : ι → Application)
    (schedule : ℕ → SystemEvent ι) (n : ℕ) :
    systemUpTo H s₀ apps schedule (n + 1) =
      (systemUpTo H s₀ apps schedule n).step H (schedule n) := by
  rw [systemUpTo, upTo_succ, systemRun_concat]

/-- What has ended stays ended. -/
theorem systemUpTo_gone {m n : ℕ} (hmn : m ≤ n)
    (hi : ((systemUpTo H s₀ apps schedule m).party i).gone = true) :
    (systemUpTo H s₀ apps schedule n).party i = (systemUpTo H s₀ apps schedule m).party i := by
  induction n, hmn using Nat.le_induction with
  | base => rfl
  | succ n hn ih =>
    rw [systemUpTo_succ, System.step_gone (by rw [ih, hi]), ih]

variable [LawfulProtobuf]

/-- A party takes finitely many turns that change something. -/
theorem eventually_idle_party (H : RequestHandler σ) (s₀ : σ) (apps : ι → Application)
    (schedule : ℕ → SystemEvent ι) (i : ι) : ∃ N, ∀ n ≥ N, ∀ choice,
      schedule n = .party i choice → (systemUpTo H s₀ apps schedule n).Idles H (schedule n) := by
  have hmoves : ∀ n ≥ 0, (∃ choice, schedule n = .party i choice ∧
      ¬(systemUpTo H s₀ apps schedule n).Idles H (schedule n)) →
      Continues Session.next ((systemUpTo H s₀ apps schedule (n + 1)).party i).thread
        ((systemUpTo H s₀ apps schedule n).party i).thread := by
    rintro n - ⟨choice, he, hmoves⟩
    rw [he] at hmoves
    obtain ⟨hi, hwaits⟩ := not_or.mp hmoves
    rw [systemUpTo_succ, he]
    have hview := System.view_step_self (H := H) (Bool.eq_false_of_not_eq_true hi) choice
    have hcontinues := Kernel.step_continues hwaits
    rwa [← hview] at hcontinues
  have hstill : ∀ n ≥ 0, (¬∃ choice, schedule n = .party i choice ∧
      ¬(systemUpTo H s₀ apps schedule n).Idles H (schedule n)) →
      ((systemUpTo H s₀ apps schedule (n + 1)).party i).thread =
        ((systemUpTo H s₀ apps schedule n).party i).thread := by
    rintro n - hstays
    have hinv := systemRun_inv H s₀ apps (upTo schedule n)
    rw [systemUpTo_succ]
    by_cases he : (schedule n).Foreign i
    · rw [(hinv.toWired.step_foreign (H := H) he).1]
    · generalize schedule n = e at *
      cases e with
      | server choice => exact absurd trivial he
      | party j choice =>
        obtain rfl : j = i := not_not.mp he
        rw [hinv.step_idle (not_not.mp fun hmoves => hstays ⟨choice, rfl, hmoves⟩)]
      | exit j =>
        obtain rfl : j = i := not_not.mp he
        cases hj : ((systemUpTo H s₀ apps schedule n).party j).gone with
        | true => rw [System.step_gone hj]
        | false => rw [System.step_exit_self hj]
  obtain ⟨N, -, hN⟩ := eventually_still
    (x := fun n => ((systemUpTo H s₀ apps schedule n).party i).thread) hmoves hstill
    (Session.halting _)
  exact ⟨N, fun n hn choice he => not_not.mp fun hmoves => hN n hn ⟨choice, he, hmoves⟩⟩

omit [LawfulProtobuf] in
/-- A process ends once. -/
theorem eventually_idle_exit (H : RequestHandler σ) (s₀ : σ) (apps : ι → Application)
    (schedule : ℕ → SystemEvent ι) (i : ι) : ∃ N, ∀ n ≥ N, schedule n = .exit i →
      ((systemUpTo H s₀ apps schedule n).party i).gone = true := by
  by_cases hends : ∃ m, ((systemUpTo H s₀ apps schedule m).party i).gone = true
  · obtain ⟨m, hm⟩ := hends
    exact ⟨m, fun n hn _ => by rw [systemUpTo_gone hn hm, hm]⟩
  · refine ⟨0, fun n _ he => ?_⟩
    by_contra hi
    refine hends ⟨n + 1, ?_⟩
    rw [systemUpTo_succ, he, System.step_exit_self (Bool.eq_false_of_not_eq_true hi)]

/-- **Left to itself, a system of finitely many processes comes to rest.** -/
theorem eventually_idle [Finite ι] (H : RequestHandler σ) (s₀ : σ) (apps : ι → Application)
    (hschedule : ∀ n, (schedule n).Undisturbed) :
    ∃ N, ∀ n ≥ N, (systemUpTo H s₀ apps schedule n).Idles H (schedule n) ∧
      systemUpTo H s₀ apps schedule n = systemUpTo H s₀ apps schedule N := by
  have hparties := Filter.eventually_all.mpr fun i =>
    Filter.eventually_atTop.mpr (eventually_idle_party H s₀ apps schedule i)
  have hexits := Filter.eventually_all.mpr fun i =>
    Filter.eventually_atTop.mpr (eventually_idle_exit H s₀ apps schedule i)
  obtain ⟨N₁, hrest⟩ := Filter.eventually_atTop.mp (hparties.and hexits)
  have hinv : ∀ n, (systemUpTo H s₀ apps schedule n).Inv H s₀ apps := fun n =>
    systemRun_inv H s₀ apps (upTo schedule n)
  -- from here on nobody moves but the server
  have hmoves : ∀ n ≥ N₁, ¬(systemUpTo H s₀ apps schedule n).Idles H (schedule n) →
      (serverKernel H).Turns (Flow.next SyncServer.startFrom) Transfers
        (systemUpTo H s₀ apps schedule (n + 1)).server
        (systemUpTo H s₀ apps schedule n).server := by
    intro n hn hmoves
    rw [systemUpTo_succ]
    obtain ⟨hparty, hexit⟩ := hrest n hn
    have hundisturbed := hschedule n
    generalize schedule n = e at *
    cases hundisturbed with
    | server k => exact ⟨.transfer k, trivial, hmoves, rfl⟩
    | party i k => exact absurd (hparty i _ rfl) hmoves
    | exit i => exact absurd (hexit i rfl) hmoves
  obtain ⟨N, hN, hidles⟩ := eventually_still
    (x := fun n => (systemUpTo H s₀ apps schedule n).server) hmoves
    (fun n _ hidle => by rw [systemUpTo_succ, (hinv n).step_idle (not_not.mp hidle)])
    ((serverConsumes H s₀).acc (hinv N₁).server)
  refine ⟨N, fun n hn => ⟨not_not.mp (hidles n hn), ?_⟩⟩
  induction n, hn using Nat.le_induction with
  | base => rfl
  | succ n hn ih =>
    rw [systemUpTo_succ, (hinv n).step_idle (not_not.mp (hidles n hn)), ih]

/-! ### Everybody is served -/

/-- **A call that has sent anything** has come back with a response. -/
theorem Recorded.from_of_sent {client client' : SyncClient} {rs : List Record}
    (h : Recorded client rs client') (huntorn : ¬Happened Io.Tears (rs.flatMap Record.io))
    {rec : Record} (hrec : rec ∈ rs) (hsent : sentOf rec.io ≠ []) :
    ∃ response, rec.outcome.From response := by
  induction h with
  | nil => cases hrec
  | @concat rs call r client' client'' t hrs hcall ih =>
    rw [List.flatMap_append, List.flatMap_singleton] at huntorn
    rcases List.mem_append.mp hrec with hrec | hrec
    · exact ih (fun htorn => huntorn (htorn.append t)) hrec
    · obtain rfl := List.mem_singleton.mp hrec
      obtain ⟨xs, hdialogue, -⟩ := hrs.dialogue
      have hpast : ¬Happened Io.TearsRequest (rs.flatMap Record.io) := by
        rintro ⟨before, io, after, ht, hio⟩
        exact huntorn (Happened.append ⟨before, io, after, ht, .inl hio⟩ t)
      obtain ⟨tail, hspell, hcut, htorn⟩ := hdialogue.sent (.of_not_happened hpast)
      obtain rfl : tail = [] := not_not.mp fun hne => hpast (htorn hne)
      have hbefore : wire.Reads (sentOf (rs.flatMap Record.io)) (sentPayloads xs) [] :=
        ⟨hspell, hdialogue.length_lt, hcut⟩
      cases hcall with
      | registers RequestType ResponseType => exact absurd rfl hsent
      | unconnected message => exact absurd rfl hsent
      | connected c h => exact absurd rfl hsent
      | refused request h => exact absurd rfl hsent
      | @reflected c x t h hexchange =>
        rw [List.append_cons] at huntorn
        have hconnected : wire.Reads (sentOf (rs.flatMap Record.io ++ [.connected c]))
            (sentPayloads xs) [] := by
          simpa using hbefore
        rcases hexchange.replied_of_untorn length_reflectionPayload_lt hconnected huntorn with
          ⟨response, rfl⟩ | hnothing
        · exact ⟨response, .reflected client'⟩
        · exact absurd hnothing hsent
      | @exchanged RequestType ResponseType request x t h hexchange =>
        rcases hexchange.replied_of_untorn (length_makePayloadFromProto_lt request) hbefore
          huntorn with ⟨response, rfl⟩ | hnothing
        · exact ⟨response, .answered ResponseType request⟩
        · exact absurd hnothing hsent

/-- Nothing fails, the server and every process get their turns again and again, reads are full, and
a process ends some time after its last call. -/
structure Attended (H : RequestHandler σ) (s₀ : σ) (apps : ι → Application)
    (schedule : ℕ → SystemEvent ι) : Prop where
  undisturbed : ∀ n, (schedule n).Undisturbed
  server : ∀ n, ∃ m ≥ n, ∃ k, schedule m = .server (.transfer k)
  party : ∀ i n, ∃ m ≥ n, ∃ k, schedule m = .party i (.transfer k)
  full : ∀ n i, Full ((systemUpTo H s₀ apps schedule n).party i).trace
  /-- No process ends before it has made its calls. -/
  patient : ∀ n i, schedule n = .exit i → ((systemUpTo H s₀ apps schedule n).party i).Finished
  leaves : ∀ n i, ((systemUpTo H s₀ apps schedule n).party i).Finished →
    ∃ m ≥ n, schedule m = .exit i

omit [LawfulProtobuf] in
/-- A process that has ended had made all its calls. -/
theorem Attended.finished (h : Attended H s₀ apps schedule) {n : ℕ}
    (hi : ((systemUpTo H s₀ apps schedule n).party i).gone = true) :
    ((systemUpTo H s₀ apps schedule n).party i).Finished := by
  induction n with
  | zero => cases hi
  | succ n ih =>
    cases hbefore : ((systemUpTo H s₀ apps schedule n).party i).gone with
    | true =>
      rw [systemUpTo_gone (Nat.le_succ n) hbefore]
      exact ih hbefore
    | false =>
      -- it ends now
      have hwired := systemRun_wired H s₀ apps (upTo schedule n)
      rw [systemUpTo_succ] at hi ⊢
      by_cases he : (schedule n).Foreign i
      · rw [(hwired.step_foreign (H := H) he).1, hbefore] at hi
        cases hi
      · cases hevent : schedule n with
        | server choice =>
          rw [hevent] at he
          exact absurd trivial he
        | party j choice =>
          rw [hevent] at he hi
          obtain rfl : j = i := not_not.mp he
          rw [System.step_party hbefore] at hi
          simp only [Function.update_self, Party.resume, hbefore] at hi
          cases hi
        | exit j =>
          rw [hevent] at he
          obtain rfl : j = i := not_not.mp he
          rw [System.step_exit_self hbefore]
          exact h.patient n j hevent

/-- **Everybody is served.** In every run of a server and finitely many processes in which nothing
fails, everybody gets turns, and processes end after their last calls and not before: all calls of
all processes return, and each that has sent anything returns what it makes of a response. -/
theorem eventually_served [Finite ι] (server : SyncServer σ)
    (hanswered : ∀ i, (apps i).Answered server.requestHandler)
    (hattended : Attended server.requestHandler s₀ apps schedule) :
    ∃ N, ∀ n ≥ N, ∀ i, let p := (systemUpTo server.requestHandler s₀ apps schedule n).party i
      p.gone = true ∧ p.records.map (fun rec => rec.outcome.call) = (apps i).calls ∧
      ∀ rec ∈ p.records, sentOf rec.io ≠ [] → ∃ response, rec.outcome.From response := by
  obtain ⟨N, hidle⟩ := eventually_idle server.requestHandler s₀ apps hattended.undisturbed
  have hcalm : (systemUpTo server.requestHandler s₀ apps schedule N).Calm :=
    systemRun_calm hanswered fun e he => by
      obtain ⟨m, rfl⟩ := mem_upTo he
      exact hattended.undisturbed m
  have hinv : (systemUpTo server.requestHandler s₀ apps schedule N).Inv server.requestHandler s₀
    apps := systemRun_inv _ s₀ apps _
  have hfull := hattended.full N
  have hgone : ∀ i, ((systemUpTo server.requestHandler s₀ apps schedule N).party i).Finished →
      ((systemUpTo server.requestHandler s₀ apps schedule N).party i).gone = true := by
    intro i hfinished
    obtain ⟨m, hm, he⟩ := hattended.leaves N i hfinished
    obtain ⟨hidles, hsame⟩ := hidle m hm
    rw [he, hsame] at hidles
    exact hidles
  have hstill : (systemUpTo server.requestHandler s₀ apps schedule N).Still
      server.requestHandler := by
    refine ⟨?_, fun i hi => ?_⟩
    · obtain ⟨m, hm, k, he⟩ := hattended.server N
      obtain ⟨hidles, hsame⟩ := hidle m hm
      rw [he, hsame] at hidles
      exact ⟨k, hidles⟩
    · obtain ⟨m, hm, k, he⟩ := hattended.party i N
      obtain ⟨hidles, hsame⟩ := hidle m hm
      rw [he, hsame] at hidles
      exact ⟨k, hidles.resolve_left (by simp [hi])⟩
  have hfinished : ∀ i,
      ((systemUpTo server.requestHandler s₀ apps schedule N).party i).Finished := by
    intro i
    by_contra hunfinished
    have hi : ((systemUpTo server.requestHandler s₀ apps schedule N).party i).gone = false :=
      Bool.eq_false_of_not_eq_true fun hends => hunfinished (hattended.finished hends)
    obtain ⟨c, j, d, -, -, -, -, hj, hdone⟩ := hinv.behind_of_still hcalm
      (length_responses_lt hinv.own.1) hfull hstill hi hunfinished
    rw [hgone j hdone] at hj
    cases hj
  refine ⟨N, fun n hn i => ?_⟩
  rw [(hidle n hn).2]
  obtain ⟨session, hret, htodo⟩ := hfinished i
  obtain ⟨start, hbook, hstands, -⟩ := (hinv.sound i).stands
  rcases hstands with ⟨hthread, htrace⟩ | ⟨op, k, hop, -⟩
  · rw [hthread] at hret
    cases hret
    refine ⟨hgone i (hfinished i), ?_, fun rec hrec hsent => ?_⟩
    · rw [← hbook.calls, htodo, List.append_nil, hbook.outcomes, List.map_map]
      rfl
    · refine hbook.recorded.from_of_sent ?_ hrec hsent
      rw [← Party.past, ← htrace]
      exact hcalm.untorn (hfull i)
  · rw [hop] at hret
    cases hret

end

namespace TestProto

/-- Both processes have made their calls and ended. -/
def servedRun : List (SystemEvent Bool) := greetingsRun ++ [.exit false]

/-- Everybody in turn. -/
def inTurn (n : ℕ) : SystemEvent Bool :=
  match n % 5 with
  | 0 => .server (.transfer 1000)
  | 1 => .party true (.transfer 1000)
  | 2 => .party false (.transfer 1000)
  | 3 => .exit true
  | _ => .exit false

/-- The run goes on for ever. -/
def endlessly (n : ℕ) : SystemEvent Bool := servedRun[n]?.getD (inTurn n)

/-- The server and the two applications before a moment. -/
abbrev served (n : ℕ) : System Bool Unit :=
  systemUpTo (SyncServer.registered .silentIgnore [echo]).requestHandler () applications endlessly n

theorem endlessly_of_le {n : ℕ} (hn : 36 ≤ n) : endlessly n = inTurn n := by
  have hnone : servedRun[n]? = none := List.getElem?_eq_none (by
    have hlength : servedRun.length = 36 := by decide
    omega)
  rw [endlessly, hnone, Option.getD_none]

theorem inTurn_of_mod {n r : ℕ} (h : n % 5 = r % 5) : inTurn n = inTurn r := by
  rw [inTurn, h, inTurn]

theorem served_party (i : Bool) {n : ℕ} (hn : 36 ≤ n) :
    (served n).party i = (served 36).party i := by
  have hgone : ∀ i, ((served 36).party i).gone = true := by decide +kernel
  exact systemUpTo_gone hn (hgone i)

theorem attended_endlessly :
    Attended (SyncServer.registered .silentIgnore [echo]).requestHandler () applications
      endlessly where
  undisturbed n := by
    have hbefore : ∀ n < 36, (endlessly n).Undisturbed := by decide
    rcases Nat.lt_or_ge n 36 with hn | hn
    · exact hbefore n hn
    · rw [endlessly_of_le hn, inTurn]
      split <;> constructor
  server n := ⟨5 * (n + 8), by omega, 1000, by
    rw [endlessly_of_le (by omega), inTurn_of_mod (r := 0) (by omega)]
    rfl⟩
  party i n := by
    cases i with
    | true => exact ⟨5 * (n + 8) + 1, by omega, 1000, by
        rw [endlessly_of_le (by omega), inTurn_of_mod (r := 1) (by omega)]
        rfl⟩
    | false => exact ⟨5 * (n + 8) + 2, by omega, 1000, by
        rw [endlessly_of_le (by omega), inTurn_of_mod (r := 2) (by omega)]
        rfl⟩
  full n i := by
    have hfull : ∀ i, Full ((served 36).party i).trace := by decide +kernel
    rcases Nat.le_total n 36 with hn | hn
    · obtain ⟨m, hm⟩ := Nat.exists_eq_add_of_le hn
      have hgrows := systemRun_grows (SyncServer.registered .silentIgnore [echo]).requestHandler ()
        applications (upTo endlessly n) (upTo (fun k => endlessly (n + k)) m)
      rw [← upTo_add, ← hm] at hgrows
      exact (hfull i).mono (hgrows.trace i)
    · rw [served_party i hn]
      exact hfull i
  patient n i he := by
    have hbefore : ∀ n < 36, ∀ i, endlessly n = .exit i → ((served n).party i).Finished := by
      decide +kernel
    have hafter : ∀ i, ((served 36).party i).Finished := by decide +kernel
    rcases Nat.lt_or_ge n 36 with hn | hn
    · exact hbefore n hn i he
    · rw [served_party i hn]
      exact hafter i
  leaves n i _ := by
    cases i with
    | true => exact ⟨5 * (n + 8) + 3, by omega, by
        rw [endlessly_of_le (by omega), inTurn_of_mod (r := 3) (by omega)]
        rfl⟩
    | false => exact ⟨5 * (n + 8) + 4, by omega, by
        rw [endlessly_of_le (by omega), inTurn_of_mod (r := 4) (by omega)]
        rfl⟩

/-- Both greetings come back. -/
theorem eventually_served_endlessly :
    ∃ N, ∀ n ≥ N, ∀ i, ((served n).party i).gone = true ∧
      ((served n).party i).records.map (fun rec => rec.outcome.call) = (applications i).calls ∧
      ∀ rec ∈ ((served n).party i).records, sentOf rec.io ≠ [] →
        ∃ response, rec.outcome.From response :=
  eventually_served (SyncServer.registered .silentIgnore [echo]) answered_applications
    attended_endlessly

end TestProto

end InterProcessCourier
