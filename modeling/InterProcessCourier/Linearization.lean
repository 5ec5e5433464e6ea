import Mathlib.Data.List.Nodup
import Mathlib.Data.Set.List
import Mathlib.Logic.Function.Basic

/-!
# Linearizability

Concurrent operations on an object that takes one operation at a time. A `History` is what can be
observed of them at the moments of a run: which have been invoked and which have returned. It is
linearizable if the operations could have been carried out one after another: each between its
invocation and its return, with the results that were seen.

An object that is reached over sessions keeps a log of what it has carried out, session after
session or mixed in any order. If the entries of every session are, in order, operations of that
session, none of them before its invocation and none of those that have returned missing, then the
log is a linearization, once every entry is given the operation it stands for. That is
`Serialized.linearizes`. Entries and operations are paired by `deal`.

## Main definitions

* `Linearization.History`, `Linearization.Linearizes` — histories and their linearizations
* `Linearization.deal` — every entry of a log takes the next label of its key

## Main results

* `Linearization.Serialized.linearizes` — a log that serves sessions in order is a linearization
* `Linearization.Linearizes.decode` — linearizability behind an encoding of inputs and outputs
-/

namespace Linearization

/-! ### Dealing labels to a log -/

section Deal

variable {X K L : Type} [DecidableEq K] (key : X → K)

/-- Every entry takes the next label of its key. An entry whose key has run out of labels is left
out. -/
def deal : List X → (K → List L) → List (X × L)
  | [], _ => []
  | x :: xs, labels =>
    match labels (key x) with
    | [] => deal xs labels
    | l :: ls => (x, l) :: deal xs (Function.update labels (key x) ls)

variable {key} {xs xs' : List X} {labels labels' : K → List L}

theorem deal_cons_of_nil {x : X} (h : labels (key x) = []) :
    deal key (x :: xs) labels = deal key xs labels := by
  simp [deal, h]

theorem deal_cons_of_cons {x : X} {l : L} {ls : List L} (h : labels (key x) = l :: ls) :
    deal key (x :: xs) labels =
      (x, l) :: deal key xs (Function.update labels (key x) ls) := by
  simp [deal, h]

/-- The entries of one key are paired with the labels of that key, in order. -/
theorem filter_deal (xs : List X) (labels : K → List L) (k : K) :
    (deal key xs labels).filter (fun p => key p.1 = k) =
      (xs.filter fun x => key x = k).zip (labels k) := by
  induction xs generalizing labels with
  | nil => rfl
  | cons x xs ih =>
    cases hlabels : labels (key x) with
    | nil =>
      rw [deal_cons_of_nil hlabels, ih]
      rcases eq_or_ne (key x) k with rfl | hne
      · simp [hlabels]
      · simp [hne]
    | cons l ls =>
      rw [deal_cons_of_cons hlabels]
      rcases eq_or_ne (key x) k with rfl | hne
      · simp [ih, hlabels]
      · simp [ih, hne, hne.symm]

theorem mem_deal_iff {x : X} {l : L} : (x, l) ∈ deal key xs labels ↔
    (x, l) ∈ (xs.filter fun y => key y = key x).zip (labels (key x)) := by
  rw [← filter_deal, List.mem_filter]
  simp

/-- Every key has labels for all its entries. -/
def Enough (key : X → K) (xs : List X) (labels : K → List L) : Prop :=
  ∀ k, (xs.filter fun x => key x = k).length ≤ (labels k).length

/-- With labels for all but the first entry's key, and one more for that. -/
theorem Enough.cons {x : X} (h : Enough key (x :: xs) labels) :
    ∃ l ls, labels (key x) = l :: ls ∧ Enough key xs (Function.update labels (key x) ls) := by
  cases hlabels : labels (key x) with
  | nil =>
    have hfirst := h (key x)
    simp [hlabels] at hfirst
  | cons l ls =>
    refine ⟨l, ls, rfl, fun k => ?_⟩
    have hk := h k
    rcases eq_or_ne (key x) k with rfl | hne
    · simpa [hlabels] using hk
    · simpa [hne, hne.symm] using hk

theorem deal_map_fst (h : Enough key xs labels) : (deal key xs labels).map Prod.fst = xs := by
  induction xs generalizing labels with
  | nil => rfl
  | cons x xs ih =>
    obtain ⟨l, ls, hlabels, hrest⟩ := h.cons
    rw [deal_cons_of_cons hlabels, List.map_cons, ih hrest]

/-- A longer log with more labels begins with the same pairs. -/
theorem deal_mono (h : Enough key xs labels) (hxs : xs <+: xs')
    (hlabels : ∀ k, labels k <+: labels' k) : deal key xs labels <+: deal key xs' labels' := by
  induction xs generalizing labels labels' xs' with
  | nil => exact List.nil_prefix
  | cons x xs ih =>
    obtain ⟨rest, rfl⟩ := hxs
    obtain ⟨l, ls, hx, hrest⟩ := h.cons
    obtain ⟨more, hmore⟩ := hlabels (key x)
    rw [hx, List.cons_append] at hmore
    rw [List.cons_append, deal_cons_of_cons hx, deal_cons_of_cons hmore.symm]
    refine List.cons_prefix_cons.mpr ⟨rfl, ih hrest (List.prefix_append _ _) fun k => ?_⟩
    rcases eq_or_ne k (key x) with rfl | hne
    · simp
    · simpa [hne] using hlabels k

/-- No label is dealt twice. -/
theorem deal_nodup (hnodup : ∀ k, (labels k).Nodup)
    (hdisjoint : ∀ k k' l, l ∈ labels k → l ∈ labels k' → k = k') :
    ((deal key xs labels).map Prod.snd).Nodup := by
  induction xs generalizing labels with
  | nil => exact List.nodup_nil
  | cons x xs ih =>
    cases hlabels : labels (key x) with
    | nil =>
      rw [deal_cons_of_nil hlabels]
      exact ih hnodup hdisjoint
    | cons l ls =>
      have hx := hnodup (key x)
      rw [hlabels, List.nodup_cons] at hx
      -- what is left of the labels
      have hless : ∀ k m, m ∈ Function.update labels (key x) ls k → m ∈ labels k := by
        intro k m hm
        rcases eq_or_ne k (key x) with rfl | hne
        · rw [Function.update_self] at hm
          rw [hlabels]
          exact List.mem_cons_of_mem _ hm
        · rwa [Function.update_of_ne hne] at hm
      rw [deal_cons_of_cons hlabels, List.map_cons, List.nodup_cons]
      constructor
      · intro hl
        obtain ⟨⟨y, m⟩, hy, rfl⟩ := List.mem_map.mp hl
        have hm := (List.of_mem_zip (mem_deal_iff.mp hy)).2
        have hkey : key y = key x :=
          hdisjoint _ _ _ (hless _ _ hm) (by rw [hlabels]; exact List.mem_cons_self)
        rw [hkey, Function.update_self] at hm
        exact hx.1 hm
      · refine ih (fun k => ?_) fun k k' m hm hm' => hdisjoint k k' m (hless _ _ hm) (hless _ _ hm')
        rcases eq_or_ne k (key x) with rfl | hne
        · rw [Function.update_self]
          exact hx.2
        · rw [Function.update_of_ne hne]
          exact hnodup k

end Deal

/-! ### Histories -/

variable {Op In Out State : Type}

/-- The outputs of an object that is given one input after another. -/
def outputs (object : In → State → Out × State) : List In → State → List Out
  | [], _ => []
  | i :: is, s => (object i s).1 :: outputs object is (object i s).2

/-- What is observed of operations at the moments of a run. -/
structure History (Op In Out : Type) where
  /-- By this moment the operation had been invoked. -/
  invoked : ℕ → Op → Prop
  /-- By this moment the operation had returned with a result. -/
  returned : ℕ → Op → Prop
  /-- The input of the operation. -/
  input : Op → In → Prop
  /-- The result with which it has returned comes from this output. -/
  output : Op → Out → Prop

/-- One operation is in front of another. -/
def Precedes (order : List Op) (a b : Op) : Prop :=
  ∃ before after, order = before ++ after ∧ a ∈ before ∧ b ∈ after

/-- The operations of a history up to a moment, as if carried out in this order. -/
structure Linearizes (object : In → State → Out × State) (s₀ : State) (h : History Op In Out)
    (last : ℕ) (order : List (Op × In × Out)) : Prop where
  once : (order.map Prod.fst).Nodup
  legal : outputs object (order.map fun x => x.2.1) s₀ = order.map fun x => x.2.2
  invoked : ∀ x ∈ order, h.invoked last x.1 ∧ h.input x.1 x.2.1
  complete : ∀ op, h.returned last op → ∃ x ∈ order, x.1 = op ∧ h.output op x.2.2
  /-- What had returned before another operation was invoked comes before it. -/
  ordered : ∀ n ≤ last, ∀ a b, h.returned n a → ¬h.invoked n b → b ∈ order.map Prod.fst →
    Precedes (order.map Prod.fst) a b

/-- The log of an object that serves the operations of each session in order. -/
structure Serialized {X K : Type} [DecidableEq K] (object : In → State → Out × State) (s₀ : State)
    (h : History Op In Out) (last : ℕ) (key : X → K) (input : X → In) (output : X → Out)
    (log : ℕ → List X) (ops : ℕ → K → List Op) : Prop where
  log_mono : ∀ n ≤ last, log n <+: log last
  ops_mono : ∀ n ≤ last, ∀ k, ops n k <+: ops last k
  legal : outputs object ((log last).map input) s₀ = (log last).map output
  enough : ∀ n ≤ last, Enough key (log n) (ops n)
  nodup : ∀ k, (ops last k).Nodup
  disjoint : ∀ k k' op, op ∈ ops last k → op ∈ ops last k' → k = k'
  invoked : ∀ n ≤ last, ∀ k, ∀ op ∈ ops n k, h.invoked n op
  inputs : ∀ k, ∀ p ∈ ((log last).filter fun x => key x = k).zip (ops last k),
    h.input p.2 (input p.1)
  returned : ∀ n ≤ last, ∀ op, h.returned n op → ∃ k, ∃ x,
    (x, op) ∈ ((log n).filter fun x => key x = k).zip (ops n k) ∧
      (n = last → h.output op (output x))

/-- **The log is a linearization.** -/
theorem Serialized.linearizes {X K : Type} [DecidableEq K] {object : In → State → Out × State}
    {s₀ : State} {h : History Op In Out} {last : ℕ} {key : X → K} {input : X → In}
    {output : X → Out} {log : ℕ → List X} {ops : ℕ → K → List Op}
    (hs : Serialized object s₀ h last key input output log ops) :
    ∃ order, Linearizes object s₀ h last order ∧
      order.map Prod.snd = (log last).map fun x => (input x, output x) := by
  have hops : ∀ n, (deal key (log n) (ops n)).map Prod.snd =
      ((deal key (log n) (ops n)).map fun p => (p.2, input p.1, output p.1)).map Prod.fst := by
    intro n
    rw [List.map_map]
    rfl
  have hdealt : ∀ {n k x op}, (x, op) ∈ ((log n).filter fun x => key x = k).zip (ops n k) →
      (x, op) ∈ deal key (log n) (ops n) := by
    intro n k x op hx
    have hmem := (@filter_deal _ _ _ _ key (log n) (ops n) k).symm ▸ hx
    exact (List.mem_filter.mp hmem).1
  have hlog := deal_map_fst (hs.enough last (Nat.le_refl last))
  refine ⟨(deal key (log last) (ops last)).map fun p => (p.2, input p.1, output p.1),
    ⟨?_, ?_, ?_, ?_, ?_⟩, ?_⟩
  · rw [← hops]
    exact deal_nodup hs.nodup hs.disjoint
  · have hlegal := hs.legal
    rw [← hlog] at hlegal
    simpa [Function.comp_def] using hlegal
  · intro x hx
    obtain ⟨p, hp, rfl⟩ := List.mem_map.mp hx
    have hzip := mem_deal_iff.mp hp
    exact ⟨hs.invoked last (Nat.le_refl last) _ _ (List.of_mem_zip hzip).2, hs.inputs _ _ hzip⟩
  · intro op hop
    obtain ⟨k, x, hx, hout⟩ := hs.returned last (Nat.le_refl last) op hop
    exact ⟨_, List.mem_map_of_mem (hdealt hx), rfl, hout rfl⟩
  · intro n hn a b ha hb hmem
    rw [← hops] at hmem ⊢
    obtain ⟨k, x, hx, -⟩ := hs.returned n hn a ha
    -- what had been dealt by then
    obtain ⟨rest, hrest⟩ := deal_mono (hs.enough n hn) (hs.log_mono n hn) (hs.ops_mono n hn)
    refine ⟨(deal key (log n) (ops n)).map Prod.snd, rest.map Prod.snd, ?_, ?_, ?_⟩
    · rw [← hrest, List.map_append]
    · exact List.mem_map.mpr ⟨_, hdealt hx, rfl⟩
    · rw [← hrest, List.map_append, List.mem_append] at hmem
      refine hmem.resolve_left fun hold => hb ?_
      obtain ⟨p, hp, rfl⟩ := List.mem_map.mp hold
      exact hs.invoked n hn _ _ (List.of_mem_zip (mem_deal_iff.mp hp)).2
  · have hpairs := congrArg (List.map fun x => (input x, output x)) hlog
    simpa [Function.comp_def] using hpairs

/-! ### Encodings -/

section Encoding

variable {In' Out' : Type} {object : In → State → Out × State}
  {object' : In' → State → Out' × State} {encode : In' → In} {encodeOut : Out' → Out}
  {good : In' → Prop}

/-- One object is another behind an encoding, as far as these inputs go. -/
def Encodes (object : In → State → Out × State) (object' : In' → State → Out' × State)
    (encode : In' → In) (encodeOut : Out' → Out) (good : In' → Prop) : Prop :=
  ∀ i, good i → ∀ s, object (encode i) s = (encodeOut (object' i s).1, (object' i s).2)

/-- Operations carried out one after another, with their outputs. -/
def carryOut (object : In → State → Out × State) : List (Op × In) → State → List (Op × In × Out)
  | [], _ => []
  | (op, i) :: xs, s => (op, i, (object i s).1) :: carryOut object xs (object i s).2

theorem outputs_carryOut (object : In → State → Out × State) (xs : List (Op × In)) (s : State) :
    outputs object ((carryOut object xs s).map fun x => x.2.1) s =
      (carryOut object xs s).map fun x => x.2.2 := by
  induction xs generalizing s with
  | nil => rfl
  | cons x xs ih => rw [carryOut, List.map_cons, List.map_cons, outputs, ih]

theorem mem_carryOut {xs : List (Op × In)} {s : State} {x : Op × In × Out}
    (h : x ∈ carryOut object xs s) :
    (x.1, x.2.1) ∈ xs ∧ ∃ s', x.2.2 = (object x.2.1 s').1 := by
  induction xs generalizing s with
  | nil => cases h
  | cons y xs ih =>
    rcases List.mem_cons.mp h with rfl | h
    · exact ⟨List.mem_cons_self, s, rfl⟩
    · obtain ⟨hmem, hout⟩ := ih h
      exact ⟨List.mem_cons_of_mem _ hmem, hout⟩

/-- What is carried out behind the encoding. -/
theorem Encodes.carryOut (h : Encodes object object' encode encodeOut good)
    {xs : List (Op × In')} (hgood : ∀ x ∈ xs, good x.2) {order : List (Op × In × Out)} {s : State}
    (hxs : xs.map (Prod.map id encode) = order.map fun x => (x.1, x.2.1))
    (hlegal : outputs object (order.map fun x => x.2.1) s = order.map fun x => x.2.2) :
    (carryOut object' xs s).map (Prod.map id (Prod.map encode encodeOut)) = order := by
  induction xs generalizing order s with
  | nil =>
    rw [List.map_nil, eq_comm, List.map_eq_nil_iff] at hxs
    rw [hxs]
    rfl
  | cons x xs ih =>
    match order with
    | [] => cases hxs
    | y :: order =>
      obtain ⟨op, i⟩ := x
      obtain ⟨op', i', o'⟩ := y
      rw [List.map_cons, List.map_cons] at hxs hlegal
      obtain ⟨hfirst, hrest⟩ := List.cons.inj hxs
      obtain ⟨rfl, rfl⟩ := Prod.mk.inj hfirst
      rw [outputs, h i (hgood _ List.mem_cons_self) s] at hlegal
      obtain ⟨rfl, hlater⟩ := List.cons.inj hlegal
      rw [Linearization.carryOut, List.map_cons,
        ih (fun x hx => hgood x (List.mem_cons_of_mem _ hx)) hrest hlater]
      rfl

/-- **Linearizability behind an encoding.** What is linearizable for the encoded object is so for
the object that it encodes. -/
theorem Linearizes.decode {s₀ : State} {h : History Op In Out} {h' : History Op In' Out'}
    {last : ℕ} {order : List (Op × In × Out)} (hlin : Linearizes object s₀ h last order)
    (hencodes : Encodes object object' encode encodeOut good)
    (hinvoked : ∀ n op, h.invoked n op ↔ h'.invoked n op)
    (hreturned : ∀ n op, h'.returned n op → h.returned n op)
    (hinput : ∀ op i, h.input op i → ∃ i', good i' ∧ encode i' = i ∧ h'.input op i')
    (houtput : ∀ op i' s, h'.returned last op → good i' →
      h.output op (encodeOut (object' i' s).1) → h'.output op (object' i' s).1) :
    ∃ order', Linearizes object' s₀ h' last order' ∧
      order'.map (Prod.map id (Prod.map encode encodeOut)) = order := by
  -- what the inputs encode
  obtain ⟨ys, hys⟩ : (order.map fun x => (x.1, x.2.1)) ∈ Set.range (List.map
      fun y : { x : Op × In' // good x.2 ∧ h'.input x.1 x.2 } => y.1.map id encode) := by
    rw [Set.range_list_map]
    intro y hy
    obtain ⟨x, hx, rfl⟩ := List.mem_map.mp hy
    obtain ⟨i', hgood, hencode, hi'⟩ := hinput x.1 x.2.1 (hlin.invoked x hx).2
    exact ⟨⟨(x.1, i'), hgood, hi'⟩, Prod.ext rfl hencode⟩
  have hxs : ∀ x ∈ ys.map Subtype.val, good x.2 ∧ h'.input x.1 x.2 := by
    intro x hx
    obtain ⟨y, -, rfl⟩ := List.mem_map.mp hx
    exact y.2
  have hencoded : (carryOut object' (ys.map Subtype.val) s₀).map
      (Prod.map id (Prod.map encode encodeOut)) = order :=
    hencodes.carryOut (fun x hx => (hxs x hx).1) (by rw [← hys, List.map_map]; rfl) hlin.legal
  have hops : (carryOut object' (ys.map Subtype.val) s₀).map Prod.fst = order.map Prod.fst := by
    rw [← hencoded, List.map_map]
    rfl
  refine ⟨carryOut object' (ys.map Subtype.val) s₀,
    ⟨hops ▸ hlin.once, outputs_carryOut .., fun x hx => ?_, fun op hop => ?_,
      fun n hn a b ha hb hmem => ?_⟩, hencoded⟩
  · obtain ⟨hmem, -⟩ := mem_carryOut hx
    have hin : x.1 ∈ order.map Prod.fst := hops ▸ List.mem_map_of_mem hx
    obtain ⟨y, hy, hyx⟩ := List.mem_map.mp hin
    exact ⟨(hinvoked last x.1).mp (hyx ▸ (hlin.invoked y hy).1), (hxs _ hmem).2⟩
  · obtain ⟨y, hy, rfl, hout⟩ := hlin.complete op (hreturned last op hop)
    rw [← hencoded] at hy
    obtain ⟨x, hx, rfl⟩ := List.mem_map.mp hy
    obtain ⟨hmem, s, hs⟩ := mem_carryOut hx
    refine ⟨x, hx, rfl, ?_⟩
    rw [hs]
    exact houtput x.1 x.2.1 s hop (hxs _ hmem).1 (hs ▸ hout)
  · rw [hops] at hmem ⊢
    exact hlin.ordered n hn a b (hreturned n a ha) (fun hb' => hb ((hinvoked n b).mp hb')) hmem

end Encoding

end Linearization
