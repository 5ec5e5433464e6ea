import InterProcessCourier.Interaction.Run
import Mathlib.Data.List.Basic

/-!
# Progress

Without interference a program can only do finitely much before it has to wait. Between two visits
of a loop's head this is because a program is a tree; across visits it is because something is
consumed: `Consumes` asks that no operation adds to a measure of the world, and that the operation
at the head of every loop takes from it, as long as an invariant holds. `Consumes.acc` is then the
only induction that a termination or a liveness argument needs, and `Consumes.settles` its
consequence for every sequence of choices.

A configuration *waits* when the operation it stands at is not enabled, or there is nothing left to
run.
-/

namespace Interaction

variable {S : Signature} {ε α W C A : Type} {K : Kernel S ε W C A}
  {next : α → Option (Program S ε α)}

/-- A turn would change nothing. -/
def Kernel.Waits (K : Kernel S ε W C A) (next : α → Option (Program S ε α)) (c : C)
    (cfg : Config S ε α W) : Prop :=
  match cfg.rest with
  | .ret a => next a = none
  | .raise _ => True
  | .call op _ => K.perform op c cfg.world = none

instance (K : Kernel S ε W C A) (next : α → Option (Program S ε α)) (c : C) :
    (cfg : Config S ε α W) → Decidable (K.Waits next c cfg)
  | ⟨.ret a, _⟩ => inferInstanceAs (Decidable (next a = none))
  | ⟨.raise _, _⟩ => .isTrue trivial
  | ⟨.call op _, w⟩ => inferInstanceAs (Decidable (K.perform op c w = none))

/-- Turns with nothing between them. -/
def turns (cs : ℕ → C) (n : ℕ) : List (Event C A) := (List.range n).map fun i => .turn (cs i)

theorem turns_succ (cs : ℕ → C) (n : ℕ) :
    (turns cs (n + 1) : List (Event C A)) = .turn (cs 0) :: turns (fun i => cs (i + 1)) n := by
  simp [turns, List.range_succ_eq_map, Function.comp_def]

theorem turns_add (cs : ℕ → C) (m n : ℕ) :
    (turns cs (m + n) : List (Event C A)) = turns cs m ++ turns (fun i => cs (m + i)) n := by
  simp [turns, List.range_add, Function.comp_def]

/-- What every operation keeps, turns keep. -/
theorem Kernel.run_turns {P : W → Prop}
    (hP : ∀ {op c w r w'}, K.perform op c w = some (r, w') → P w → P w')
    {cfg : Config S ε α W} (h : P cfg.world) (cs : ℕ → C) (n : ℕ) :
    P (K.run next cfg (turns cs n)).world := by
  induction n generalizing cfg cs with
  | zero => exact h
  | succ n ih =>
    rw [turns_succ, Kernel.run_cons]
    refine ih ?_ _
    rcases K.step_turn next cfg (cs 0) with hsame | ⟨op, k, r, -, hp⟩
    · rwa [hsame]
    · exact hP hp h

/-- Operations only use up what there is, and the head of every loop uses up some of it. -/
structure Kernel.Consumes (K : Kernel S ε W C A) (next : α → Option (Program S ε α))
    (allowed : C → Prop) (inv : Config S ε α W → Prop) (measure : W → ℕ) : Prop where
  step : ∀ {cfg c}, inv cfg → inv (K.step next cfg (.turn c))
  le : ∀ {op k c w r w'}, inv ⟨.call op k, w⟩ → allowed c → K.perform op c w = some (r, w') →
    measure w' ≤ measure w
  lt : ∀ {a w p}, inv ⟨.ret a, w⟩ → next a = some p → ∃ op k, p = .call op k ∧
    ∀ {c r w'}, allowed c → K.perform op c w = some (r, w') → measure w' < measure w

/-- A turn that changes something, with an allowed choice. -/
def Kernel.Turns (K : Kernel S ε W C A) (next : α → Option (Program S ε α)) (allowed : C → Prop)
    (cfg' cfg : Config S ε α W) : Prop :=
  ∃ c, allowed c ∧ ¬K.Waits next c cfg ∧ cfg' = K.step next cfg (.turn c)

/-- Where a turn would change nothing, it changes nothing. -/
theorem Kernel.Waits.step {c : C} {cfg : Config S ε α W} (h : K.Waits next c cfg) :
    K.step next cfg (.turn c) = cfg := by
  obtain ⟨p, w⟩ := cfg
  cases p with
  | ret a =>
    change next a = none at h
    simp [Kernel.step, h]
  | raise e => rfl
  | call op k =>
    change K.perform op c w = none at h
    simp [Kernel.step, h]

/-- **What is used up runs out.** There is no endless sequence of turns that change something. -/
theorem Kernel.Consumes.acc {allowed : C → Prop} {inv : Config S ε α W → Prop}
    {measure : W → ℕ} (h : K.Consumes next allowed inv measure) {cfg : Config S ε α W}
    (hinv : inv cfg) : Acc (K.Turns next allowed) cfg := by
  obtain ⟨p, w⟩ := cfg
  induction hm : measure w using Nat.strongRecOn generalizing p w with
  | ind m outer =>
    induction p generalizing w with
    | raise e =>
      refine ⟨_, ?_⟩
      rintro cfg' ⟨c, -, hmoves, -⟩
      exact absurd trivial hmoves
    | ret a =>
      refine ⟨_, ?_⟩
      rintro cfg' ⟨c, hc, hmoves, hcfg⟩
      obtain ⟨p, hnext⟩ := Option.ne_none_iff_exists'.mp hmoves
      obtain ⟨op, k, rfl, hlt⟩ := h.lt hinv hnext
      have hfirst : K.step next ⟨.ret a, w⟩ (.turn c) = ⟨.call op k, w⟩ := by
        simp [Kernel.step, hnext]
      have hinv₁ : inv ⟨.call op k, w⟩ := hfirst ▸ h.step hinv
      rw [hcfg, hfirst]
      -- the operation at the head takes from the measure
      refine ⟨_, ?_⟩
      rintro cfg'' ⟨c', hc', hmoves', hcfg'⟩
      obtain ⟨⟨r, w'⟩, hp⟩ := Option.ne_none_iff_exists'.mp hmoves'
      have hsecond : K.step next ⟨.call op k, w⟩ (.turn c') = ⟨k r, w'⟩ := Kernel.step_call hp
      rw [hcfg', hsecond]
      exact outer _ (hm ▸ hlt hc' hp) _ _ (hsecond ▸ h.step hinv₁) rfl
    | call op k inner =>
      refine ⟨_, ?_⟩
      rintro cfg' ⟨c, hc, hmoves, hcfg⟩
      obtain ⟨⟨r, w'⟩, hp⟩ := Option.ne_none_iff_exists'.mp hmoves
      have hstep : K.step next ⟨.call op k, w⟩ (.turn c) = ⟨k r, w'⟩ := Kernel.step_call hp
      have hinv' : inv ⟨k r, w'⟩ := hstep ▸ h.step hinv
      rw [hcfg, hstep]
      rcases Nat.lt_or_eq_of_le (h.le hinv hc hp) with hlt | heq
      · exact outer _ (hm ▸ hlt) _ _ hinv' rfl
      · exact inner r w' hinv' (heq.trans hm)

/-- **A program left to itself comes to wait.** -/
theorem Kernel.Consumes.settles {allowed : C → Prop} {inv : Config S ε α W → Prop}
    {measure : W → ℕ} (h : K.Consumes next allowed inv measure) {cfg : Config S ε α W}
    (hinv : inv cfg) {cs : ℕ → C} (hcs : ∀ i, allowed (cs i)) :
    ∃ n, K.Waits next (cs n) (K.run next cfg (turns cs n)) := by
  have hacc := h.acc hinv
  induction hacc generalizing cs with
  | intro cfg _ ih =>
    by_cases hwaits : K.Waits next (cs 0) cfg
    · exact ⟨0, hwaits⟩
    · obtain ⟨n, hn⟩ := ih _ ⟨cs 0, hcs 0, hwaits, rfl⟩ (h.step hinv) fun i => hcs (i + 1)
      refine ⟨n + 1, ?_⟩
      rw [turns_succ, Kernel.run_cons]
      exact hn

end Interaction
