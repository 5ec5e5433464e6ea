import Mathlib.Data.Nat.Find
import InterProcessCourier.Interaction.Progress

/-!
# Endless schedules

A schedule says what happens at every moment, for ever; a run of a schedule has no last moment. What
cannot go on for ever comes to rest: `eventually_still` is the argument, over any relation without
endless descents. A program whose loops end whatever it is answered, `Halting`, therefore takes only
finitely many turns that change something, however long the schedule gives it turns.
-/

namespace Interaction

variable {S : Signature} {ε α β W C A : Type} {K : Kernel S ε W C A}
  {next : α → Option (Program S ε α)}

/-- The events of a schedule before a moment. -/
def upTo {E : Type} (schedule : ℕ → E) (n : ℕ) : List E := (List.range n).map schedule

@[simp] theorem upTo_zero {E : Type} (schedule : ℕ → E) : upTo schedule 0 = [] := rfl

theorem upTo_succ {E : Type} (schedule : ℕ → E) (n : ℕ) :
    upTo schedule (n + 1) = upTo schedule n ++ [schedule n] := by
  simp [upTo, List.range_succ]

theorem mem_upTo {E : Type} {schedule : ℕ → E} {n : ℕ} {e : E} (h : e ∈ upTo schedule n) :
    ∃ i, schedule i = e := by
  obtain ⟨i, -, hi⟩ := List.mem_map.mp h
  exact ⟨i, hi⟩

theorem upTo_add {E : Type} (schedule : ℕ → E) (m n : ℕ) :
    upTo schedule (m + n) = upTo schedule m ++ upTo (fun i => schedule (m + i)) n := by
  induction n with
  | zero => simp
  | succ n ih => rw [← Nat.add_assoc, upTo_succ, ih, upTo_succ, List.append_assoc]

theorem Kernel.run_upTo_succ (K : Kernel S ε W C A) (next : α → Option (Program S ε α))
    (cfg : Config S ε α W) (schedule : ℕ → Event C A) (n : ℕ) :
    K.run next cfg (upTo schedule (n + 1)) =
      K.step next (K.run next cfg (upTo schedule n)) (schedule n) := by
  rw [upTo_succ, Kernel.run_append]
  rfl

/-- **What descends comes to rest.** A sequence that descends whenever it moves moves finitely
often. -/
theorem eventually_still {X : Type*} {r : X → X → Prop} {x : ℕ → X} {P : ℕ → Prop} {n₀ : ℕ}
    (hmoves : ∀ n ≥ n₀, P n → r (x (n + 1)) (x n)) (hstill : ∀ n ≥ n₀, ¬P n → x (n + 1) = x n)
    (hacc : Acc r (x n₀)) : ∃ N ≥ n₀, ∀ n ≥ N, ¬P n := by
  generalize hx : x n₀ = y at hacc
  induction hacc generalizing n₀ with
  | intro y _ ih =>
    by_cases hrest : ∃ i, P (n₀ + i)
    · classical
      -- nothing has moved before the first move
      have hfirst : ∀ i ≤ Nat.find hrest, x (n₀ + i) = y := by
        intro i hi
        induction i with
        | zero => exact hx
        | succ i ihi =>
          rw [← ihi (by omega)]
          exact hstill (n₀ + i) (by omega) (Nat.find_min hrest hi)
      have hdescends := hmoves _ (Nat.le_add_right _ _) (Nat.find_spec hrest)
      rw [hfirst _ le_rfl] at hdescends
      have hlater : ∀ n ≥ n₀ + Nat.find hrest + 1, P n → r (x (n + 1)) (x n) :=
        fun n hn => hmoves n (by omega)
      obtain ⟨N, hN, hstays⟩ := ih _ hdescends hlater (fun n hn => hstill n (by omega)) rfl
      exact ⟨N, by omega, hstays⟩
    · refine ⟨n₀, le_rfl, fun n hn hmove => hrest ⟨n - n₀, ?_⟩⟩
      rwa [Nat.add_sub_cancel' hn]

/-! ### Halting programs -/

/-- What is left of a program after a turn. -/
inductive Continues (next : α → Option (Program S ε α)) : Program S ε α → Program S ε α → Prop
  | call (op : S.Op) (k : Except ε (S.Ans op) → Program S ε α) (r : Except ε (S.Ans op)) :
    Continues next (k r) (.call op k)
  | ret {a : α} {p : Program S ε α} (h : next a = some p) : Continues next p (.ret a)

/-- The program ends, whatever it is answered. -/
def Halting (next : α → Option (Program S ε α)) (p : Program S ε α) : Prop := Acc (Continues next) p

theorem halting_ret {a : α} (h : ∀ p, next a = some p → Halting next p) :
    Halting next (.ret a) := by
  refine ⟨_, fun p' hp => ?_⟩
  cases hp with
  | ret hnext => exact h p' hnext

theorem halting_raise (e : ε) : Halting next (.raise e) := ⟨_, fun _ h => by cases h⟩

/-- A program of finite depth halts if what follows it does. -/
theorem halting_bind (p : Program S ε β) {f : β → Program S ε α} (hf : ∀ b, Halting next (f b)) :
    Halting next (p >>= f) := by
  induction p with
  | ret b => exact hf b
  | raise e => exact halting_raise e
  | call op k ih =>
    refine ⟨_, fun p' hp => ?_⟩
    rw [Program.call_bind] at hp
    cases hp with
    | call _ _ r => exact ih r

/-- A turn either changes nothing, or leaves less of the program. -/
theorem Kernel.step_continues {cfg : Config S ε α W} {c : C} (h : ¬K.Waits next c cfg) :
    Continues next (K.step next cfg (.turn c)).rest cfg.rest := by
  obtain ⟨p, w⟩ := cfg
  cases p with
  | ret a =>
    obtain ⟨p, hnext⟩ := Option.ne_none_iff_exists'.mp h
    simp only [Kernel.step, hnext]
    exact .ret hnext
  | raise e => exact absurd trivial h
  | call op k =>
    obtain ⟨rw, hp⟩ := Option.ne_none_iff_exists'.mp h
    rw [Kernel.step_call hp]
    exact .call op k rw.1

/-- **A halting program comes to wait for good**, whatever its surroundings do. -/
theorem Halting.eventually_waits {p : Program S ε α} (h : Halting next p) (w : W)
    (schedule : ℕ → Event C A) :
    ∃ N, ∀ n ≥ N, ∀ c, schedule n = .turn c →
      K.Waits next c (K.run next ⟨p, w⟩ (upTo schedule n)) := by
  have hmoves : ∀ n ≥ 0, (∃ c, schedule n = .turn c ∧
      ¬K.Waits next c (K.run next ⟨p, w⟩ (upTo schedule n))) →
      Continues next (K.run next ⟨p, w⟩ (upTo schedule (n + 1))).rest
        (K.run next ⟨p, w⟩ (upTo schedule n)).rest := by
    rintro n - ⟨c, hc, hmoves⟩
    rw [Kernel.run_upTo_succ, hc]
    exact Kernel.step_continues hmoves
  have hstill : ∀ n ≥ 0, (¬∃ c, schedule n = .turn c ∧
      ¬K.Waits next c (K.run next ⟨p, w⟩ (upTo schedule n))) →
      (K.run next ⟨p, w⟩ (upTo schedule (n + 1))).rest =
        (K.run next ⟨p, w⟩ (upTo schedule n)).rest := by
    rintro n - hstays
    rw [Kernel.run_upTo_succ]
    cases he : schedule n with
    | act a => rfl
    | turn c => rw [Kernel.Waits.step (not_not.mp fun hmoves => hstays ⟨c, he, hmoves⟩)]
  obtain ⟨N, -, hN⟩ := eventually_still
    (x := fun n => (K.run next ⟨p, w⟩ (upTo schedule n)).rest) hmoves hstill h
  exact ⟨N, fun n hn c hc => not_not.mp fun hmoves => hN n hn ⟨c, hc, hmoves⟩⟩

end Interaction
