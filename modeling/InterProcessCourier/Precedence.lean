import Mathlib.Data.List.AList
import Mathlib.Data.List.Induction

/-!
# First and last bindings of a history

A history binds keys to values, oldest binding first. A store that is filled from it keeps, for
each key, either the first binding or the last one; which of the two is the store's *precedence*.

`put` is one write under a precedence, and `fill` a history of them. `lookup_fill` says that the
store is the reference reading of its history, for histories of any length.
-/

namespace Precedence

variable {K V V' : Type*} [DecidableEq K]

/-- The oldest value bound to a key. -/
def first (h : List (K × V)) (k : K) : Option V := (h.find? fun b => b.1 = k).map Prod.snd

/-- The newest value bound to a key. -/
def last (h : List (K × V)) (k : K) : Option V := first h.reverse k

/-- The value that counts: the newest if writes override, else the oldest. -/
def effective (override : Bool) (h : List (K × V)) (k : K) : Option V :=
  if override then last h k else first h k

@[simp] theorem first_nil (k : K) : first ([] : List (K × V)) k = none := rfl

@[simp] theorem last_nil (k : K) : last ([] : List (K × V)) k = none := rfl

@[simp] theorem effective_nil (o : Bool) (k : K) : effective o ([] : List (K × V)) k = none := by
  simp [effective]

theorem first_append (h h' : List (K × V)) (k : K) :
    first (h ++ h') k = (first h k).or (first h' k) := by
  rw [first, List.find?_append, first, first]
  cases h.find? fun b => b.1 = k <;> rfl

theorem last_append (h h' : List (K × V)) (k : K) :
    last (h ++ h') k = (last h' k).or (last h k) := by
  rw [last, List.reverse_append, first_append, last, last]

theorem first_singleton (k k' : K) (v : V) :
    first [(k, v)] k' = if k = k' then some v else none := by
  by_cases h : k = k' <;> simp [first, h]

theorem last_singleton (k k' : K) (v : V) :
    last [(k, v)] k' = if k = k' then some v else none := first_singleton k k' v

theorem first_isSome_iff (h : List (K × V)) (k : K) :
    (first h k).isSome ↔ k ∈ h.map Prod.fst := by
  simp [first]

theorem last_isSome_iff (h : List (K × V)) (k : K) :
    (last h k).isSome ↔ k ∈ h.map Prod.fst := by
  rw [last, first_isSome_iff, List.map_reverse, List.mem_reverse]

theorem effective_isSome_iff (o : Bool) (h : List (K × V)) (k : K) :
    (effective o h k).isSome ↔ k ∈ h.map Prod.fst := by
  cases o
  · exact first_isSome_iff h k
  · exact last_isSome_iff h k

theorem effective_eq_none_iff (o : Bool) (h : List (K × V)) (k : K) :
    effective o h k = none ↔ k ∉ h.map Prod.fst := by
  rw [← effective_isSome_iff o h k, Option.not_isSome_iff_eq_none]

theorem effective_map (o : Bool) (f : V → V') (h : List (K × V)) (k : K) :
    effective o (h.map fun b => (b.1, f b.2)) k = (effective o h k).map f := by
  have hfirst : ∀ h : List (K × V),
      first (h.map fun b => (b.1, f b.2)) k = (first h k).map f := by
    intro h
    rw [first, List.find?_map, first]
    cases hf : h.find? ((fun b : K × V' => decide (b.1 = k)) ∘ fun b => (b.1, f b.2)) <;>
      simp only [Function.comp_def] at hf <;> simp [hf]
  cases o
  · exact hfirst h
  · have := hfirst h.reverse
    rwa [List.map_reverse] at this

/-- What counts is one of the bindings. -/
theorem mem_of_effective {o : Bool} {h : List (K × V)} {k : K} {v : V}
    (hv : effective o h k = some v) : (k, v) ∈ h := by
  have hfirst : ∀ h : List (K × V), first h k = some v → (k, v) ∈ h := by
    intro h hv
    obtain ⟨⟨k', v'⟩, hf, rfl⟩ := Option.map_eq_some_iff.mp hv
    have hk := List.find?_some hf
    simp only [decide_eq_true_eq] at hk
    subst hk
    exact List.mem_of_find?_eq_some hf
  cases o
  · exact hfirst h hv
  · exact List.mem_reverse.mp (hfirst _ hv)

/-- **One more binding.** It counts when it overrides, or is the first of its key. -/
theorem effective_concat (o : Bool) (h : List (K × V)) (k k' : K) (v : V) :
    effective o (h ++ [(k, v)]) k' =
      if k = k' ∧ (o = true ∨ k ∉ h.map Prod.fst) then some v else effective o h k' := by
  cases o with
  | true =>
    simp only [effective, if_true, last_append, last_singleton, true_or, and_true]
    split_ifs <;> rfl
  | false =>
    simp only [effective, Bool.false_eq_true, if_false, first_append, first_singleton, false_or]
    by_cases hk : k = k'
    · subst hk
      by_cases hmem : k ∈ h.map Prod.fst
      · obtain ⟨w, hw⟩ := Option.isSome_iff_exists.mp ((first_isSome_iff h k).mpr hmem)
        have hno : ¬(k = k ∧ k ∉ h.map Prod.fst) := fun hc => hc.2 hmem
        rw [if_pos rfl, hw, if_neg hno]
        rfl
      · have hnone : first h k = none :=
          Option.not_isSome_iff_eq_none.mp fun hs => hmem ((first_isSome_iff h k).mp hs)
        rw [if_pos rfl, hnone, if_pos ⟨rfl, hmem⟩]
        rfl
    · rw [if_neg hk, if_neg fun hc => hk hc.1, Option.or_none]

/-- A key that a prior history does not bind is bound by what follows. -/
theorem effective_append_of_notMem (o : Bool) {h h' : List (K × V)} {k : K}
    (hk : k ∉ h.map Prod.fst) : effective o (h ++ h') k = effective o h' k := by
  have hnone := (effective_eq_none_iff o h k).mpr hk
  cases o <;> simp_all [effective, first_append, last_append]

/-- A key that what follows does not bind is bound by the prior history. -/
theorem effective_append_of_notMem_right (o : Bool) {h h' : List (K × V)} {k : K}
    (hk : k ∉ h'.map Prod.fst) : effective o (h ++ h') k = effective o h k := by
  have hnone := (effective_eq_none_iff o h' k).mpr hk
  cases o <;> simp_all [effective, first_append, last_append]

/-! ### A store filled from a history -/

variable {V : Type*}

/-- One write: a key that is already there is written again only under override. -/
def put (o : Bool) (m : AList fun _ : K => V) (k : K) (v : V) : AList fun _ : K => V :=
  if (m.lookup k).isSome ∧ o = false then m else m.insert k v

theorem lookup_put (o : Bool) (m : AList fun _ : K => V) (k k' : K) (v : V) :
    (put o m k v).lookup k' =
      if k = k' ∧ (o = true ∨ (m.lookup k).isSome = false) then some v else m.lookup k' := by
  by_cases hk : k = k'
  · subst hk
    cases o <;> cases h : (m.lookup k) <;> simp [put, h]
  · rw [if_neg fun hc => hk hc.1, put]
    split_ifs
    · rfl
    · exact AList.lookup_insert_ne (Ne.symm hk)

/-- A store filled write by write. -/
def fill (o : Bool) (h : List (K × V)) : AList fun _ : K => V :=
  h.foldl (fun m b => put o m b.1 b.2) ∅

@[simp] theorem fill_nil (o : Bool) : fill o ([] : List (K × V)) = ∅ := rfl

theorem fill_concat (o : Bool) (h : List (K × V)) (b : K × V) :
    fill o (h ++ [b]) = put o (fill o h) b.1 b.2 := by
  simp [fill]

/-- **A store filled write by write is the reference reading of its history.** -/
theorem lookup_fill (o : Bool) (h : List (K × V)) (k : K) :
    (fill o h).lookup k = effective o h k := by
  induction h using List.reverseRecOn generalizing k with
  | nil => simp
  | append_singleton h b ih =>
    rw [fill_concat, lookup_put, ih, ih, effective_concat]
    have hmem : (effective o h b.1).isSome = false ↔ b.1 ∉ h.map Prod.fst := by
      rw [← effective_isSome_iff o, Bool.not_eq_true]
    simp only [hmem]

theorem lookup_fill_isSome_iff (o : Bool) (h : List (K × V)) (k : K) :
    ((fill o h).lookup k).isSome ↔ k ∈ h.map Prod.fst := by
  rw [lookup_fill, effective_isSome_iff]

@[simp] theorem put_true (m : AList fun _ : K => V) (k : K) (v : V) :
    put true m k v = m.insert k v := if_neg fun hc => by cases hc.2

/-- **One store written into another.** -/
theorem lookup_foldl_put (o : Bool) (m' m : AList fun _ : K => V) (k : K) :
    (m'.entries.foldl (fun m b => put o m b.1 b.2) m).lookup k =
      if o = true then (m'.lookup k).or (m.lookup k) else (m.lookup k).or (m'.lookup k) := by
  obtain ⟨entries, hnodup⟩ := m'
  induction entries generalizing m with
  | nil =>
    have hnone : (⟨[], hnodup⟩ : AList fun _ : K => V).lookup k = none := rfl
    cases o <;> simp [hnone]
  | cons b rest ih =>
    obtain ⟨hnew, hrest⟩ := List.nodupKeys_cons.mp hnodup
    have hlookup : (⟨b :: rest, hnodup⟩ : AList fun _ : K => V).lookup k =
        if b.1 = k then some b.2 else (⟨rest, hrest⟩ : AList fun _ : K => V).lookup k := by
      by_cases hk : b.1 = k
      · subst hk
        rw [if_pos rfl]
        exact List.dlookup_cons_eq rest b.1 b.2
      · rw [if_neg hk]
        exact List.dlookup_cons_ne _ b (Ne.symm hk)
    have hnone : b.1 = k → (⟨rest, hrest⟩ : AList fun _ : K => V).lookup k = none := by
      rintro rfl
      exact List.dlookup_eq_none.mpr hnew
    rw [List.foldl_cons, ih (put o m b.1 b.2) hrest, hlookup, lookup_put]
    by_cases hk : b.1 = k
    · subst hk
      rw [hnone rfl]
      cases o <;> cases m.lookup b.1 <;> simp
    · simp [hk]

end Precedence
