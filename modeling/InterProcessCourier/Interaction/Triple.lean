import InterProcessCourier.Interaction.Run

/-!
# Triples over what a program owns

Interference usually leaves a part of the world alone: what the program alone writes. On that part
`Safe` becomes a Hoare triple with one postcondition for the value and one for the exception, and
the rules lose every mention of the surroundings. Only the rule for one operation,
`Triple.perform`, still looks at the world as a whole.
-/

namespace Interaction

variable {S : Signature} {ε α β W C A V : Type}

/-- A rely condition under which `view` is the program's own: the surroundings neither change it
nor invalidate the world. -/
structure Rely.Owns (R : Rely S W) (K : Kernel S ε W C A) (view : W → V) : Prop
    extends R.Fits K where
  view_eq : ∀ {w w'}, R.env w w' → view w' = view w
  valid : ∀ {w w'}, R.env w w' → R.inv w → R.inv w'

/-- From a valid world that satisfies `P`, the program is safe; it returns an `a` with `ok a`, or
raises an `e` with `err e`. -/
def Triple (K : Kernel S ε W C A) (R : Rely S W) (view : W → V) (P : V → Prop)
    (p : Program S ε α) (ok : α → V → Prop) (err : ε → V → Prop) : Prop :=
  ∀ w, R.inv w → P (view w) →
    Safe K R (Safe.Post (fun a w => ok a (view w)) fun e w => err e (view w)) p w

namespace Triple

variable {K : Kernel S ε W C A} {R : Rely S W} {view : W → V} {P P' : V → Prop}
  {p : Program S ε α} {ok ok' : α → V → Prop} {err err' : ε → V → Prop}

/-- The rule of consequence. -/
theorem mono (h : Triple K R view P' p ok' err') (hP : ∀ v, P v → P' v)
    (hok : ∀ a v, ok' a v → ok a v) (herr : ∀ e v, err' e v → err e v) :
    Triple K R view P p ok err := by
  intro w hinv hw
  refine (h w hinv (hP _ hw)).mono fun r w _ hr => ?_
  cases r with
  | ok a => exact hok a _ hr
  | error e => exact herr e _ hr

theorem pre (h : Triple K R view P' p ok err) (hP : ∀ v, P v → P' v) :
    Triple K R view P p ok err :=
  h.mono hP (fun _ _ => id) fun _ _ => id

/-- A precondition that names the state it holds in. -/
theorem of_eq (h : ∀ v, P v → Triple K R view (· = v) p ok err) : Triple K R view P p ok err :=
  fun w hinv hw => h _ hw w hinv rfl

theorem ret (hV : R.Owns K view) {a : α} (h : ∀ v, P v → ok a v) :
    Triple K R view P (.ret a) ok err := by
  refine fun w hinv hw => Safe.ret fun w' henv => ⟨hV.valid henv hinv, ?_⟩
  rw [Safe.Post_ok, hV.view_eq henv]
  exact h _ hw

theorem raise (hV : R.Owns K view) {e : ε} (h : ∀ v, P v → err e v) :
    Triple K R view P (.raise e) ok err := by
  refine fun w hinv hw => Safe.raise fun w' henv => ⟨hV.valid henv hinv, ?_⟩
  rw [Safe.Post_error, hV.view_eq henv]
  exact h _ hw

/-- Sequencing. -/
theorem bind (hV : R.Owns K view) {p : Program S ε β} {f : β → Program S ε α}
    {Q : β → V → Prop} (h : Triple K R view P p Q err)
    (hf : ∀ b, Triple K R view (Q b) (f b) ok err) : Triple K R view P (p >>= f) ok err :=
  fun w hinv hw => (h w hinv hw).bind_post hV.toFits fun b w' hinv' hb => hf b w' hinv' hb

/-- `try … catch …`. -/
theorem handle (hV : R.Owns K view) {f : ε → Program S ε α} {E : ε → V → Prop}
    (h : Triple K R view P p ok E) (hf : ∀ e, Triple K R view (E e) (f e) ok err) :
    Triple K R view P (tryCatch p f) ok err :=
  fun w hinv hw => (h w hinv hw).handle hV.toFits (fun _ _ => id)
    fun e w' hinv' he => hf e w' hinv' he

/-- One operation, in any valid world. -/
theorem perform (hV : R.Owns K view) {op : S.Op} {ok : S.Ans op → V → Prop}
    (h : ∀ w, R.inv w → P (view w) → R.pre op w ∧
      ∀ c r w', K.perform op c w = some (r, w') → R.inv w' ∧
        Safe.Post (fun a w => ok a (view w)) (fun e w => err e (view w)) r w') :
    Triple K R view P (Program.perform op) ok err := by
  intro w hinv hw
  refine Safe.perform fun w₁ h₁ => ?_
  have hinv₁ := hV.valid h₁ hinv
  obtain ⟨hpre, hturn⟩ := h w₁ hinv₁ (by rwa [hV.view_eq h₁])
  refine ⟨hinv₁, hpre, fun c r w₂ hr w₃ h₃ => ?_⟩
  obtain ⟨hinv₂, hpost⟩ := hturn c r w₂ hr
  refine ⟨hV.valid h₃ hinv₂, ?_⟩
  cases r with
  | ok a => simpa [hV.view_eq h₃] using hpost
  | error e => simpa [hV.view_eq h₃] using hpost

/-- A program keeps what each of its operations keeps. -/
theorem of_asks (hV : R.Owns K view) {allowed : S.Op → Prop} (hp : p.Asks allowed)
    (h : ∀ op, allowed op → ∀ w, R.inv w → P (view w) → R.pre op w ∧
      ∀ c r w', K.perform op c w = some (r, w') → R.inv w' ∧ P (view w')) :
    Triple K R view P p (fun _ => P) fun _ => P := by
  induction p with
  | ret a => exact ret hV fun _ => id
  | raise e => exact raise hV fun _ => id
  | call op k ih =>
    intro w hinv hw w' henv
    have hinv' := hV.valid henv hinv
    obtain ⟨hpre, hturn⟩ := h op hp.1 w' hinv' (by rwa [hV.view_eq henv])
    refine ⟨hinv', hpre, fun c r w'' hr => ?_⟩
    exact ih r (hp.2 r) w'' (hturn c r w'' hr).1 (hturn c r w'' hr).2

end Triple

end Interaction
