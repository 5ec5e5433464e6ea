import InterProcessCourier.Interaction.Program

/-!
# Running a program among other threads

A `Kernel` says what the operations do to a world, and what else may happen to that world between
two of them. A run is a list of events, each of which either gives the program a turn at its next
operation or lets the surroundings act; the order is arbitrary, so a list of events is one
interleaving. A turn at an operation that has to wait changes nothing.

Loops are not part of a program. When a program returns a value for which `next` has a successor,
the successor takes its place: `while (true)` is a `next` that answers with the loop's body.

## Safety under interference

`Safe` is the run invariant, as a predicate on what is left of the program. It is a recursion on
the tree: at every point, after any interference, the world is valid, the operation about to be
asked for is asked in a state that permits it, and whatever it answers leads to a safe remainder.
`Safe.run` is the only induction over runs; a development then proves one `Safe` statement for
each of its functions.
-/

namespace Interaction

variable {S : Signature} {ε α β W C A : Type}

/-- What the operations do. `perform` is given the surroundings' choice, and answers `none` when
the operation has to wait; `act` is everything that happens without the program. -/
structure Kernel (S : Signature) (ε W C A : Type) where
  /-- One turn at an operation. -/
  perform : (op : S.Op) → C → W → Option (Except ε (S.Ans op) × W)
  /-- One step of the surroundings. -/
  act : A → W → W

/-- Who moves. -/
inductive Event (C A : Type)
  | turn (c : C)
  | act (a : A)
  deriving DecidableEq

/-- What is left of the program, and the world it runs in. -/
structure Config (S : Signature) (ε α W : Type) where
  /-- The program still to be run. -/
  rest : Program S ε α
  /-- The world as it stands. -/
  world : W

/-- One event. `next` restarts the program after a value that continues a loop. -/
def Kernel.step (K : Kernel S ε W C A) (next : α → Option (Program S ε α))
    (cfg : Config S ε α W) : Event C A → Config S ε α W
  | .act a => ⟨cfg.rest, K.act a cfg.world⟩
  | .turn c =>
    match cfg.rest with
    | .ret a => ⟨(next a).getD (.ret a), cfg.world⟩
    | .raise e => ⟨.raise e, cfg.world⟩
    | .call op k =>
      match K.perform op c cfg.world with
      | none => ⟨.call op k, cfg.world⟩
      | some (r, w) => ⟨k r, w⟩

/-- An interleaving. -/
def Kernel.run (K : Kernel S ε W C A) (next : α → Option (Program S ε α))
    (cfg : Config S ε α W) (es : List (Event C A)) : Config S ε α W :=
  es.foldl (K.step next) cfg

@[simp] theorem Kernel.run_nil (K : Kernel S ε W C A) (next : α → Option (Program S ε α))
    (cfg : Config S ε α W) : K.run next cfg [] = cfg := rfl

@[simp] theorem Kernel.run_cons (K : Kernel S ε W C A) (next : α → Option (Program S ε α))
    (cfg : Config S ε α W) (e : Event C A) (es : List (Event C A)) :
    K.run next cfg (e :: es) = K.run next (K.step next cfg e) es := rfl

theorem Kernel.run_append (K : Kernel S ε W C A) (next : α → Option (Program S ε α))
    (cfg : Config S ε α W) (es fs : List (Event C A)) :
    K.run next cfg (es ++ fs) = K.run next (K.run next cfg es) fs :=
  List.foldl_append

/-- A turn at an operation that need not wait. -/
theorem Kernel.step_call {K : Kernel S ε W C A} {next : α → Option (Program S ε α)} {op : S.Op}
    {k : Except ε (S.Ans op) → Program S ε α} {c : C} {w w' : W} {r : Except ε (S.Ans op)}
    (h : K.perform op c w = some (r, w')) :
    K.step next ⟨.call op k, w⟩ (.turn c) = ⟨k r, w'⟩ := by
  simp [Kernel.step, h]

/-- A turn at the first operation of a sequence. -/
theorem Kernel.step_perform {K : Kernel S ε W C A} {next : α → Option (Program S ε α)} {op : S.Op}
    {f : S.Ans op → Program S ε α} {c : C} {w w' : W} {a : S.Ans op}
    (h : K.perform op c w = some (.ok a, w')) :
    K.step next ⟨Program.perform op >>= f, w⟩ (.turn c) = ⟨f a, w'⟩ := by
  simp [Kernel.step, Program.perform, h]

/-- What a turn does to the world, an operation does. -/
theorem Kernel.step_turn (K : Kernel S ε W C A) (next : α → Option (Program S ε α))
    (cfg : Config S ε α W) (c : C) :
    (K.step next cfg (.turn c)).world = cfg.world ∨ ∃ op k r, cfg.rest = .call op k ∧
      K.perform op c cfg.world = some (r, (K.step next cfg (.turn c)).world) := by
  obtain ⟨p, w⟩ := cfg
  cases p with
  | ret a => exact .inl rfl
  | raise e => exact .inl rfl
  | call op k =>
    simp only [Kernel.step]
    cases hp : K.perform op c w with
    | none => exact .inl rfl
    | some rw => exact .inr ⟨op, k, rw.1, rfl, hp⟩

/-- What every operation and every step of the surroundings keep, a run keeps. -/
theorem Kernel.run_keeps {K : Kernel S ε W C A} {next : α → Option (Program S ε α)} {P : W → Prop}
    (hperform : ∀ {op c w r w'}, K.perform op c w = some (r, w') → P w → P w')
    (hact : ∀ a w, P w → P (K.act a w)) {cfg : Config S ε α W} (h : P cfg.world)
    (es : List (Event C A)) : P (K.run next cfg es).world := by
  induction es generalizing cfg with
  | nil => exact h
  | cons e es ih =>
    refine ih ?_
    cases e with
    | act a => exact hact a _ h
    | turn c =>
      rcases K.step_turn next cfg c with hsame | ⟨op, k, r, -, hp⟩
      · rwa [hsame]
      · exact hperform hp h

/-- A run asks for no operation that its blocks do not ask for. -/
theorem Kernel.run_asks {K : Kernel S ε W C A} {next : α → Option (Program S ε α)}
    {P : S.Op → Prop} (hnext : ∀ a p, next a = some p → p.Asks P) {cfg : Config S ε α W}
    (h : cfg.rest.Asks P) (es : List (Event C A)) : (K.run next cfg es).rest.Asks P := by
  induction es generalizing cfg with
  | nil => exact h
  | cons e es ih =>
    refine ih ?_
    obtain ⟨p, w⟩ := cfg
    cases e with
    | act a => exact h
    | turn c =>
      cases p with
      | ret a =>
        simp only [Kernel.step]
        cases hn : next a with
        | none => trivial
        | some p => exact hnext a p hn
      | raise e => trivial
      | call op k =>
        simp only [Kernel.step]
        cases K.perform op c w with
        | none => exact h
        | some rw => exact h.2 rw.1

/-- A run returns nothing that its blocks do not return. -/
theorem Kernel.run_returns {K : Kernel S ε W C A} {next : α → Option (Program S ε α)}
    {Q : α → Prop} (hnext : ∀ a p, next a = some p → p.Returns Q) {cfg : Config S ε α W}
    (h : cfg.rest.Returns Q) (es : List (Event C A)) : (K.run next cfg es).rest.Returns Q := by
  induction es generalizing cfg with
  | nil => exact h
  | cons e es ih =>
    refine ih ?_
    obtain ⟨p, w⟩ := cfg
    cases e with
    | act a => exact h
    | turn c =>
      cases p with
      | ret a =>
        simp only [Kernel.step]
        cases hn : next a with
        | none => exact h
        | some p => exact hnext a p hn
      | raise e => trivial
      | call op k =>
        simp only [Kernel.step]
        cases K.perform op c w with
        | none => exact h
        | some rw => exact h rw.1

/-! ### Loops -/

/-- Where a loop body leaves control: at the head of a loop, or out of all of them. -/
inductive Flow (L ρ : Type)
  | goto (l : L)
  | done (r : ρ)
  deriving DecidableEq

/-- Going on at a label means running its block. -/
def Flow.next {L ρ : Type} (blocks : L → Program S ε (Flow L ρ)) :
    Flow L ρ → Option (Program S ε (Flow L ρ))
  | goto l => some (blocks l)
  | done _ => none

/-- What a run has come to, once it has left its loops. -/
def Flow.outcome? {L ρ : Type} : Program S ε (Flow L ρ) → Option (Except ε ρ)
  | .ret (.done r) => some (.ok r)
  | .raise e => some (.error e)
  | .ret (.goto _) => none
  | .call _ _ => none

theorem Flow.outcome?_eq_ok {L ρ : Type} {p : Program S ε (Flow L ρ)} {r : ρ} :
    outcome? p = some (.ok r) ↔ p = .ret (.done r) := by
  match p with
  | .ret (.done r') => simp [outcome?]
  | .ret (.goto l) => simp [outcome?]
  | .raise e => simp [outcome?]
  | .call op k => simp [outcome?]

theorem Flow.outcome?_eq_error {L ρ : Type} {p : Program S ε (Flow L ρ)} {e : ε} :
    outcome? p = some (.error e) ↔ p = .raise e := by
  match p with
  | .ret (.done r) => simp [outcome?]
  | .ret (.goto l) => simp [outcome?]
  | .raise e' => simp [outcome?]
  | .call op k => simp [outcome?]

/-! ### Safety -/

/-- What may be assumed of the surroundings and what must be maintained against them. -/
structure Rely (S : Signature) (W : Type) where
  /-- How the surroundings may change the world while the program waits. -/
  env : W → W → Prop
  /-- What holds at every moment. -/
  inv : W → Prop
  /-- What holds whenever the program is about to ask for an operation. -/
  pre : S.Op → W → Prop

/-- A rely condition that fits a kernel: interference is reflexive and transitive, and covers
every step of the surroundings from a valid world. -/
structure Rely.Fits (R : Rely S W) (K : Kernel S ε W C A) : Prop where
  refl : ∀ w, R.env w w
  trans : ∀ {w₁ w₂ w₃}, R.env w₁ w₂ → R.env w₂ w₃ → R.env w₁ w₃
  act : ∀ a w, R.inv w → R.env w (K.act a w)

/-- Every run of the program from this world keeps `R.inv`, asks for each operation in a state
that satisfies `R.pre`, and ends in `Q`. -/
def Safe (K : Kernel S ε W C A) (R : Rely S W) (Q : Except ε α → W → Prop) :
    Program S ε α → W → Prop
  | .ret a, w => ∀ w', R.env w w' → R.inv w' ∧ Q (.ok a) w'
  | .raise e, w => ∀ w', R.env w w' → R.inv w' ∧ Q (.error e) w'
  | .call op k, w => ∀ w', R.env w w' → R.inv w' ∧ R.pre op w' ∧
      ∀ c r w'', K.perform op c w' = some (r, w'') → Safe K R Q (k r) w''

namespace Safe

variable {K : Kernel S ε W C A} {R : Rely S W} {Q Q' : Except ε α → W → Prop}
  {p : Program S ε α} {w w' : W}

/-- Safety survives interference. -/
theorem env (hR : R.Fits K) (h : Safe K R Q p w) (hw : R.env w w') : Safe K R Q p w' := by
  cases p with
  | ret a => exact fun _ hw' => h _ (hR.trans hw hw')
  | raise e => exact fun _ hw' => h _ (hR.trans hw hw')
  | call op k => exact fun _ hw' => h _ (hR.trans hw hw')

theorem inv (hR : R.Fits K) (h : Safe K R Q p w) : R.inv w := by
  cases p with
  | ret a => exact (h _ (hR.refl w)).1
  | raise e => exact (h _ (hR.refl w)).1
  | call op k => exact (h _ (hR.refl w)).1

theorem pre (hR : R.Fits K) {op : S.Op} {k : Except ε (S.Ans op) → Program S ε α}
    (h : Safe K R Q (.call op k) w) : R.pre op w :=
  (h _ (hR.refl w)).2.1

theorem post_ok (hR : R.Fits K) {a : α} (h : Safe K R Q (.ret a) w) : Q (.ok a) w :=
  (h _ (hR.refl w)).2

theorem post_error (hR : R.Fits K) {e : ε} (h : Safe K R Q (.raise e) w) : Q (.error e) w :=
  (h _ (hR.refl w)).2

/-- The rule of consequence. -/
theorem mono (h : Safe K R Q p w) (hQ : ∀ r w, R.inv w → Q r w → Q' r w) : Safe K R Q' p w := by
  induction p generalizing w with
  | ret a => exact fun _ hw => ⟨(h _ hw).1, hQ _ _ (h _ hw).1 (h _ hw).2⟩
  | raise e => exact fun _ hw => ⟨(h _ hw).1, hQ _ _ (h _ hw).1 (h _ hw).2⟩
  | call op k ih =>
    intro w' hw
    obtain ⟨hinv, hpre, hk⟩ := h w' hw
    exact ⟨hinv, hpre, fun c r w'' hp => ih r (hk c r w'' hp)⟩

/-- The rule for sequencing: the first program ends where the second is safe to start, and an
exception it raises is the exception of the whole. -/
theorem bind (hR : R.Fits K) {p : Program S ε β} {f : β → Program S ε α}
    {P : Except ε β → W → Prop} (h : Safe K R P p w)
    (hok : ∀ b w, R.inv w → P (.ok b) w → Safe K R Q (f b) w)
    (herr : ∀ e w, P (.error e) w → Q (.error e) w) : Safe K R Q (p >>= f) w := by
  induction p generalizing w with
  | ret b => exact hok b w (h w (hR.refl w)).1 (h w (hR.refl w)).2
  | raise e => exact fun _ hw => ⟨(h _ hw).1, herr _ _ (h _ hw).2⟩
  | call op k ih =>
    intro w' hw
    obtain ⟨hinv, hpre, hk⟩ := h w' hw
    exact ⟨hinv, hpre, fun c r w'' hp => ih r (hk c r w'' hp)⟩

/-- The rule for `try … catch …`. -/
theorem handle (hR : R.Fits K) {p : Program S ε α} {f : ε → Program S ε α}
    {P : Except ε α → W → Prop} (h : Safe K R P p w)
    (hok : ∀ a w, P (.ok a) w → Q (.ok a) w)
    (herr : ∀ e w, R.inv w → P (.error e) w → Safe K R Q (f e) w) :
    Safe K R Q (tryCatch p f) w := by
  induction p generalizing w with
  | ret a => exact fun _ hw => ⟨(h _ hw).1, hok _ _ (h _ hw).2⟩
  | raise e => exact herr e w (h w (hR.refl w)).1 (h w (hR.refl w)).2
  | call op k ih =>
    intro w' hw
    obtain ⟨hinv, hpre, hk⟩ := h w' hw
    exact ⟨hinv, hpre, fun c r w'' hp => ih r (hk c r w'' hp)⟩

/-- A postcondition given for the value and for the exception separately. -/
def Post (ok : α → W → Prop) (err : ε → W → Prop) : Except ε α → W → Prop
  | .ok a, w => ok a w
  | .error e, w => err e w

@[simp] theorem Post_ok (ok : α → W → Prop) (err : ε → W → Prop) (a : α) (w : W) :
    Post ok err (.ok a) w ↔ ok a w := Iff.rfl

@[simp] theorem Post_error (ok : α → W → Prop) (err : ε → W → Prop) (e : ε) (w : W) :
    Post ok err (.error e) w ↔ err e w := Iff.rfl

/-- The postcondition of a loop body: the invariant of the loop it goes on with, or the
postcondition of leaving. -/
def blocksPost {L ρ : Type} (J : L → W → Prop) (O : ρ → W → Prop) (E : ε → W → Prop) :
    Except ε (Flow L ρ) → W → Prop :=
  Post (fun a w => match a with | .goto l => J l w | .done r => O r w) E

/-- Sequencing when both halves fail alike. -/
theorem bind_post (hR : R.Fits K) {p : Program S ε β} {f : β → Program S ε α}
    {P : β → W → Prop} {O : α → W → Prop} {E : ε → W → Prop} (h : Safe K R (Post P E) p w)
    (hok : ∀ b w, R.inv w → P b w → Safe K R (Post O E) (f b) w) :
    Safe K R (Post O E) (p >>= f) w :=
  h.bind hR hok fun _ _ => id

/-- A value, with a postcondition that survives interference. -/
theorem ret {a : α} (h : ∀ w', R.env w w' → R.inv w' ∧ Q (.ok a) w') :
    Safe K R Q (.ret a) w := h

/-- An exception, with a postcondition that survives interference. -/
theorem raise {e : ε} (h : ∀ w', R.env w w' → R.inv w' ∧ Q (.error e) w') :
    Safe K R Q (.raise e) w := h

/-- One operation: its precondition holds after any interference, and every answer leads to a
postcondition that survives interference. -/
theorem perform {op : S.Op} {Q : Except ε (S.Ans op) → W → Prop}
    (h : ∀ w', R.env w w' → R.inv w' ∧ R.pre op w' ∧
      ∀ c r w'', K.perform op c w' = some (r, w'') → ∀ w''', R.env w'' w''' →
        R.inv w''' ∧ Q r w''') :
    Safe K R Q (Program.perform op) w := by
  intro w' hw
  obtain ⟨hinv, hpre, hk⟩ := h w' hw
  refine ⟨hinv, hpre, fun c r w'' hp => ?_⟩
  cases r with
  | ok a => exact hk c _ w'' hp
  | error e => exact hk c _ w'' hp

/-- One event preserves safety, provided every value that continues the loop does so safely. -/
theorem step (hR : R.Fits K) {next : α → Option (Program S ε α)}
    (hnext : ∀ a w p, next a = some p → R.inv w → Q (.ok a) w → Safe K R Q p w)
    {cfg : Config S ε α W} (h : Safe K R Q cfg.rest cfg.world) (e : Event C A) :
    Safe K R Q (K.step next cfg e).rest (K.step next cfg e).world := by
  obtain ⟨p, w⟩ := cfg
  cases e with
  | act a => exact h.env hR (hR.act a w (h.inv hR))
  | turn c =>
    cases p with
    | ret a =>
      simp only [Kernel.step]
      cases hn : next a with
      | none => exact h
      | some p => exact hnext a w p hn (h.inv hR) (h.post_ok hR)
    | raise e => exact h
    | call op k =>
      simp only [Kernel.step]
      cases hp : K.perform op c w with
      | none => exact h
      | some rw => exact (h w (hR.refl w)).2.2 c rw.1 rw.2 hp

/-- **Safety of a run.** -/
theorem run (hR : R.Fits K) {next : α → Option (Program S ε α)}
    (hnext : ∀ a w p, next a = some p → R.inv w → Q (.ok a) w → Safe K R Q p w)
    {cfg : Config S ε α W} (h : Safe K R Q cfg.rest cfg.world) (es : List (Event C A)) :
    Safe K R Q (K.run next cfg es).rest (K.run next cfg es).world := by
  induction es generalizing cfg with
  | nil => exact h
  | cons e es ih => exact ih (h.step hR hnext e)

/-- **Safety of loops.** `J l` is the invariant at the head of loop `l`, and each block keeps it. -/
theorem run_blocks {L ρ : Type} (hR : R.Fits K) {blocks : L → Program S ε (Flow L ρ)}
    {J : L → W → Prop} {O : ρ → W → Prop} {E : ε → W → Prop}
    (hblocks : ∀ l w, R.inv w → J l w → Safe K R (blocksPost J O E) (blocks l) w)
    {cfg : Config S ε (Flow L ρ) W} (h : Safe K R (blocksPost J O E) cfg.rest cfg.world)
    (es : List (Event C A)) :
    Safe K R (blocksPost J O E) (K.run (Flow.next blocks) cfg es).rest
      (K.run (Flow.next blocks) cfg es).world := by
  refine h.run hR (fun a w p hp hinv ha => ?_) es
  cases a with
  | goto l =>
    obtain rfl : blocks l = p := Option.some.inj hp
    exact hblocks l w hinv ha
  | done r => cases hp

end Safe

end Interaction
