import Mathlib.Data.List.Basic
import Mathlib.Data.List.Infix

/-!
# Length-prefixed framing

A message travels as a header of fixed width that spells its length, followed by the message. A
`Format` is a header coding over any alphabet: its two functions are inverse to each other below
a bound, which for a fixed width is the number of values a header can take.

`deframe` reads a stream to its end. The point of the module is that a stream has only one
reading: it is a list of frames followed by a proper prefix of a frame, in exactly one way, and
a longer stream is read as an extension of a shorter one. A receiver that is handed a stream in
pieces, and stops anywhere, has therefore seen an initial part of the one list.

## Main results

* `Framing.Format.flatten_deframe`, `deframe_eq` — the reading exists, and is the only one
* `Framing.Format.prefix_deframe` — whole frames at the front of a stream are its first messages
* `Framing.Format.deframe_mono` — a longer stream only adds messages
-/

namespace Framing

/-- A coding of message lengths as headers of one width. -/
structure Format (α : Type*) where
  /-- The width of a header. -/
  headerSize : ℕ
  /-- Lengths below this one have a header of their own. -/
  bound : ℕ
  /-- The header of a length. -/
  encode : ℕ → List α
  /-- The length a header spells. -/
  decode : List α → ℕ
  headerSize_pos : 0 < headerSize
  length_encode : ∀ n, (encode n).length = headerSize
  decode_encode : ∀ n < bound, decode (encode n) = n
  encode_decode : ∀ h : List α, h.length = headerSize → encode (decode h) = h
  decode_lt : ∀ h : List α, h.length = headerSize → decode h < bound

namespace Format

variable {α : Type*} (F : Format α)

attribute [simp] length_encode

/-- A message behind its header. -/
def frame (m : List α) : List α := F.encode m.length ++ m

/-- A list of messages as one stream. -/
def frames (ms : List (List α)) : List α := (ms.map F.frame).flatten

@[simp] theorem length_frame (m : List α) : (F.frame m).length = F.headerSize + m.length := by
  simp [frame]

@[simp] theorem frames_nil : F.frames [] = [] := rfl

@[simp] theorem frames_cons (m : List α) (ms : List (List α)) :
    F.frames (m :: ms) = F.frame m ++ F.frames ms := rfl

@[simp] theorem frames_append (ms ns : List (List α)) :
    F.frames (ms ++ ns) = F.frames ms ++ F.frames ns := by
  simp [frames]

theorem frames_concat (ms : List (List α)) (m : List α) :
    F.frames (ms ++ [m]) = F.frames ms ++ F.frame m := by simp

/-- A header and as many symbols as it spells are a frame. -/
theorem frame_of_header {h m : List α} (hh : h.length = F.headerSize)
    (hm : m.length = F.decode h) : F.frame m = h ++ m := by
  rw [frame, hm, F.encode_decode h hh]

/-- `t` is cut inside a header or inside the body its header announces. -/
def Incomplete (t : List α) : Prop := t.length < F.headerSize + F.decode (t.take F.headerSize) ∨
  t.length < F.headerSize

instance (t : List α) : Decidable (F.Incomplete t) :=
  inferInstanceAs (Decidable (_ ∨ _))

theorem incomplete_nil : F.Incomplete [] := Or.inr F.headerSize_pos

/-- A stream that is not cut starts with a frame. -/
theorem exists_frame_of_not_incomplete {t : List α} (h : ¬F.Incomplete t) :
    ∃ m rest, t = F.frame m ++ rest ∧ m.length < F.bound ∧
      m = (t.drop F.headerSize).take (F.decode (t.take F.headerSize)) ∧
      rest = t.drop (F.headerSize + F.decode (t.take F.headerSize)) := by
  simp only [Incomplete, not_or, Nat.not_lt] at h
  have hh : (t.take F.headerSize).length = F.headerSize := by simp [h.2]
  have hm : ((t.drop F.headerSize).take (F.decode (t.take F.headerSize))).length
      = F.decode (t.take F.headerSize) := by
    rw [List.length_take, List.length_drop]
    omega
  refine ⟨_, _, ?_, by rw [hm]; exact F.decode_lt _ hh, rfl, rfl⟩
  rw [F.frame_of_header hh hm, List.append_assoc, ← List.drop_drop, List.take_append_drop,
    List.take_append_drop]

/-- The header of a message in front of a stream, and what follows it. -/
theorem take_frame_append (m t : List α) :
    (F.frame m ++ t).take F.headerSize = F.encode m.length := by
  rw [frame, List.append_assoc, List.take_append_of_le_length (by simp), List.take_of_length_le]
  simp

theorem drop_frame_append (m t : List α) :
    (F.frame m ++ t).drop F.headerSize = m ++ t := by
  rw [frame, List.append_assoc]
  conv_lhs => rw [← F.length_encode m.length]
  exact List.drop_left

theorem not_incomplete_frame {m : List α} (hm : m.length < F.bound) (t : List α) :
    ¬F.Incomplete (F.frame m ++ t) := by
  simp only [Incomplete, not_or, Nat.not_lt, F.take_frame_append, F.decode_encode _ hm,
    List.length_append, length_frame]
  omega

/-- A proper prefix of a frame is cut. -/
theorem incomplete_of_prefix {m t : List α} (hm : m.length < F.bound) (h : t <+: F.frame m)
    (hne : t ≠ F.frame m) : F.Incomplete t := by
  have hlt : t.length < (F.frame m).length :=
    lt_of_le_of_ne h.length_le fun hl => hne (h.eq_of_length hl)
  rw [length_frame] at hlt
  by_cases hh : t.length < F.headerSize
  · exact Or.inr hh
  · obtain ⟨s, hs⟩ := h
    left
    have : t.take F.headerSize = F.encode m.length := by
      have := F.take_frame_append m []
      rw [List.append_nil, ← hs, List.take_append_of_le_length (by omega)] at this
      exact this
    rw [this, F.decode_encode _ hm]
    exact hlt

/-! ### Reading a stream -/

/-- The messages of a stream, and what is left behind the last whole frame. -/
def deframe (s : List α) : List (List α) × List α :=
  if F.Incomplete s then ([], s)
  else
    let n := F.decode (s.take F.headerSize)
    let r := deframe (s.drop (F.headerSize + n))
    ((s.drop F.headerSize).take n :: r.1, r.2)
termination_by s.length
decreasing_by
  rename_i h
  simp only [Incomplete, not_or, Nat.not_lt] at h
  have := F.headerSize_pos
  rw [List.length_drop]
  omega

theorem deframe_of_incomplete {s : List α} (h : F.Incomplete s) : F.deframe s = ([], s) := by
  rw [deframe, if_pos h]

theorem deframe_frame_append {m : List α} (hm : m.length < F.bound) (t : List α) :
    F.deframe (F.frame m ++ t) = (m :: (F.deframe t).1, (F.deframe t).2) := by
  rw [deframe, if_neg (F.not_incomplete_frame hm t)]
  simp only [F.take_frame_append, F.decode_encode _ hm, F.drop_frame_append, List.take_left']
  rw [← List.drop_drop, F.drop_frame_append, List.drop_left]

theorem deframe_frames_append {ms : List (List α)} (hms : ∀ m ∈ ms, m.length < F.bound)
    (t : List α) :
    F.deframe (F.frames ms ++ t) = (ms ++ (F.deframe t).1, (F.deframe t).2) := by
  induction ms with
  | nil => simp
  | cons m ms ih =>
    rw [frames_cons, List.append_assoc, F.deframe_frame_append (hms m (by simp)),
      ih fun m' hm' => hms m' (by simp [hm'])]
    simp

/-- **There is no other reading.** -/
theorem deframe_eq {ms : List (List α)} {t s : List α} (hms : ∀ m ∈ ms, m.length < F.bound)
    (ht : F.Incomplete t) (hs : s = F.frames ms ++ t) : F.deframe s = (ms, t) := by
  rw [hs, F.deframe_frames_append hms, F.deframe_of_incomplete ht]
  simp

/-- The induction over a stream: it is cut, or a frame comes first. -/
theorem stream_induction {motive : List α → Prop} (cut : ∀ t, F.Incomplete t → motive t)
    (cons : ∀ m t, m.length < F.bound → motive t → motive (F.frame m ++ t)) (s : List α) :
    motive s := by
  induction hn : s.length using Nat.strong_induction_on generalizing s with
  | _ n ih =>
    by_cases h : F.Incomplete s
    · exact cut s h
    · obtain ⟨m, rest, hs, hm, -, -⟩ := F.exists_frame_of_not_incomplete h
      have hlen : rest.length < n := by
        have := F.headerSize_pos
        rw [← hn, hs, List.length_append, length_frame]
        omega
      exact hs ▸ cons m rest hm (ih _ hlen rest rfl)

/-- **Every stream is its messages, framed, and a cut rest.** -/
theorem deframe_spec (s : List α) : s = F.frames (F.deframe s).1 ++ (F.deframe s).2 ∧
    (∀ m ∈ (F.deframe s).1, m.length < F.bound) ∧ F.Incomplete (F.deframe s).2 := by
  induction s using F.stream_induction with
  | cut t h => simp [F.deframe_of_incomplete h, h]
  | cons m t hm ih =>
    rw [F.deframe_frame_append hm]
    refine ⟨by rw [frames_cons, List.append_assoc, ← ih.1], ?_, ih.2.2⟩
    intro m' hm'
    rcases List.mem_cons.mp hm' with rfl | h
    · exact hm
    · exact ih.2.1 m' h

/-- `s` is the frames of `ms` followed by the cut `t`. -/
structure Reads (s : List α) (ms : List (List α)) (t : List α) : Prop where
  eq : s = F.frames ms ++ t
  lt : ∀ m ∈ ms, m.length < F.bound
  cut : F.Incomplete t

variable {F} in
theorem Reads.deframe_eq {s : List α} {ms : List (List α)} {t : List α} (h : F.Reads s ms t) :
    F.deframe s = (ms, t) :=
  F.deframe_eq h.lt h.cut h.eq

variable {F} in
/-- A stream is read in one way. -/
theorem Reads.unique {s : List α} {ms ms' : List (List α)} {t t' : List α} (h : F.Reads s ms t)
    (h' : F.Reads s ms' t') : ms' = ms ∧ t' = t :=
  Prod.mk.inj (h'.deframe_eq.symm.trans h.deframe_eq)

theorem flatten_deframe (s : List α) : F.frames (F.deframe s).1 ++ (F.deframe s).2 = s :=
  (F.deframe_spec s).1.symm

@[simp] theorem deframe_frames {ms : List (List α)} (hms : ∀ m ∈ ms, m.length < F.bound) :
    F.deframe (F.frames ms) = (ms, []) :=
  F.deframe_eq hms F.incomplete_nil (by simp)

/-- Frames of different messages differ. -/
theorem frame_injective {m m' : List α} (hm : m.length < F.bound) (hm' : m'.length < F.bound)
    (h : F.frame m = F.frame m') : m = m' := by
  have hread : F.deframe (F.frames [m]) = ([m], []) := F.deframe_frames (by simpa using hm)
  rw [frames_cons, h, ← frames_cons, F.deframe_frames (by simpa using hm')] at hread
  exact (List.singleton_inj.mp (congrArg Prod.fst hread)).symm

/-- Whole frames at the front of a stream are its first messages. -/
theorem prefix_deframe {ms : List (List α)} {s : List α} (hms : ∀ m ∈ ms, m.length < F.bound)
    (h : F.frames ms <+: s) : ms <+: (F.deframe s).1 := by
  obtain ⟨t, rfl⟩ := h
  rw [F.deframe_frames_append hms]
  exact List.prefix_append ms _

/-- Reading on adds messages and changes none. -/
theorem deframe_mono {s t : List α} (h : s <+: t) : (F.deframe s).1 <+: (F.deframe t).1 := by
  obtain ⟨hs, hb, -⟩ := F.deframe_spec s
  refine F.prefix_deframe hb (List.IsPrefix.trans ?_ h)
  exact ⟨(F.deframe s).2, hs.symm⟩

end Format

end Framing
