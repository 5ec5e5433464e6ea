import InterProcessCourier.Framing

/-!
# Stop and wait

Two sides talk over two streams of frames. One of them asks, and does not ask again before it has
the answer; the other answers what it has read, in order. Then there is never more than one frame
under way, in one of the two directions: whoever writes, the other has nothing on its way to it.

Each side is described by what it has done alone. `Asks` is about the streams as the asking side
sees them, what it has written and what it has taken; `Answers` is about what the answering side has
consumed and written.

## Main results

* `Framing.Asks.oneWay` — one direction is clear, and in the other there is part of one frame
-/

namespace Framing

variable {α : Type*} {F : Format α}

/-- The side that answers has read these requests whole, and has written some of these answers. -/
structure Answers (F : Format α) (consumed written : List α) (requests answers : List (List α)) :
    Prop where
  read : F.frames requests <+: consumed
  written : written <+: F.frames answers
  requests_lt : ∀ m ∈ requests, m.length < F.bound
  answers_lt : ∀ m ∈ answers, m.length < F.bound
  backed : answers.length ≤ requests.length

/-- The side that asks either has all its answers, and writes a request or none, or waits for the
answer to its last request. What it asks satisfies `P`. -/
inductive Asks (F : Format α) (P : List α → Prop) (sent taken : List α) : Prop
  | asking {asked answered : List (List α)} {part : List α} (hsent : sent = F.frames asked ++ part)
    (htaken : taken = F.frames answered) (hasked : ∀ m ∈ asked, m.length < F.bound)
    (hanswered : ∀ m ∈ answered, m.length < F.bound) (hlength : asked.length = answered.length)
    (hcut : F.Incomplete part) (hpart : part ≠ [] → ∃ m, P m ∧ part <+: F.frame m)
  | waiting {asked answered : List (List α)} {m part : List α} (hm : P m)
    (hsent : sent = F.frames (asked ++ [m])) (htaken : taken = F.frames answered ++ part)
    (hasked : ∀ m' ∈ asked ++ [m], m'.length < F.bound)
    (hanswered : ∀ m' ∈ answered, m'.length < F.bound) (hlength : asked.length = answered.length)

section

variable {P : List α → Prop} {consumed unread written taken untaken : List α}
  {requests answers asked answered : List (List α)}

/-- The answers that have been taken are the first. -/
theorem Answers.answered_isPrefix (h : Answers F consumed written requests answers)
    (hanswered : ∀ m ∈ answered, m.length < F.bound) (htaken : F.frames answered <+: written) :
    answered <+: answers := by
  have hread := F.prefix_deframe hanswered (htaken.trans h.written)
  rwa [F.deframe_frames h.answers_lt] at hread

/-- The requests that have been read are the first. -/
theorem Answers.requests_isPrefix (h : Answers F consumed written requests answers)
    {part : List α} (hsent : consumed ++ unread = F.frames asked ++ part)
    (hasked : ∀ m ∈ asked, m.length < F.bound) (hcut : F.Incomplete part) :
    requests <+: asked := by
  have hread := F.prefix_deframe h.requests_lt (h.read.trans (List.prefix_append _ unread))
  rwa [F.deframe_eq hasked hcut hsent] at hread

/-- What is unread, when as many requests have been read as have been sent whole. -/
theorem Answers.unread_isSuffix (h : Answers F consumed written requests answers) {part : List α}
    (hsent : consumed ++ unread = F.frames asked ++ part) (hall : asked <+: requests) :
    unread <:+ part := by
  obtain ⟨rest, hrest⟩ := hall
  obtain ⟨more, hmore⟩ := h.read
  rw [← hmore, ← hrest, F.frames_append, List.append_assoc, List.append_assoc] at hsent
  rw [← List.append_cancel_left hsent, ← List.append_assoc]
  exact List.suffix_append _ _

/-- **One frame is under way at most.** -/
theorem Asks.oneWay (h : Asks F P (consumed ++ unread) taken) (htaken : written = taken ++ untaken)
    (h' : Answers F consumed written requests answers) :
    untaken = [] ∧ (unread ≠ [] → ∃ m, P m ∧ unread <:+: F.frame m) ∨
      unread = [] ∧ ∃ m ∈ answers, untaken <:+: F.frame m := by
  have hback := h'.backed
  cases h with
  | @asking asked answered part hsent hanswered hasked hshort hlength hcut hpart =>
    have hall := h'.answered_isPrefix hshort (by
      rw [htaken, hanswered]
      exact List.prefix_append _ _)
    have hread := h'.requests_isPrefix hsent hasked hcut
    have hle := hread.length_le
    have hle' := hall.length_le
    left
    constructor
    · -- no more has been answered than was asked
      have hsame : answered = answers := hall.eq_of_length (by omega)
      have hwritten := h'.written
      rw [htaken, hanswered, hsame] at hwritten
      exact List.append_right_eq_self.mp (hwritten.eq_of_length_le (by simp))
    · intro hne
      have hsuffix := h'.unread_isSuffix hsent (hread.eq_of_length (by omega) ▸ List.prefix_rfl)
      obtain ⟨m, hm, hframe⟩ := hpart fun hnil => hne (List.suffix_nil.mp (hnil ▸ hsuffix))
      exact ⟨m, hm, hsuffix.isInfix.trans hframe.isInfix⟩
  | @waiting asked answered m part hm hsent hanswered hasked hshort hlength =>
    have hall := h'.answered_isPrefix hshort
      (by rw [htaken, hanswered, List.append_assoc]; exact List.prefix_append _ _)
    have hsent' : consumed ++ unread = F.frames (asked ++ [m]) ++ [] := by
      rw [hsent, List.append_nil]
    have hread := h'.requests_isPrefix hsent' hasked F.incomplete_nil
    have hle := hread.length_le
    have hle' := hall.length_le
    rw [List.length_append, List.length_singleton] at hle
    rcases Nat.lt_or_ge answered.length answers.length with hlt | hge
    · -- the answer to the last request is under way, so the request has been read
      right
      have hunread := h'.unread_isSuffix hsent'
        (hread.eq_of_length (by simp; omega) ▸ List.prefix_rfl)
      refine ⟨List.suffix_nil.mp hunread, ?_⟩
      obtain ⟨last, rfl⟩ := hall
      match last with
      | [] => simp at hlt
      | [r] =>
        refine ⟨r, by simp, ?_⟩
        have hwritten := h'.written
        rw [htaken, hanswered, F.frames_concat, List.append_assoc,
          List.prefix_append_right_inj] at hwritten
        exact (List.suffix_append _ _).isInfix.trans hwritten.isInfix
      | _ :: _ :: _ =>
        simp at hback hlt
        omega
    · left
      have hsame : answered = answers := hall.eq_of_length (by omega)
      have hwritten := h'.written
      rw [htaken, hanswered, hsame, List.append_assoc] at hwritten
      have hnil := List.append_right_eq_self.mp (hwritten.eq_of_length_le (by simp))
      refine ⟨(List.append_eq_nil_iff.mp hnil).2, fun _ => ⟨m, hm, ?_⟩⟩
      -- the requests before it have been read
      have hbefore : asked <+: requests := List.prefix_of_prefix_length_le
        (List.prefix_append _ _) hread (by omega)
      rw [F.frames_concat] at hsent
      exact (h'.unread_isSuffix hsent hbefore).isInfix

end

end Framing
