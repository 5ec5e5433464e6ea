import InterProcessCourier.Basic
import InterProcessCourier.Interaction.Progress

/-!
# The composed socket operations

A socket moves some of the bytes it is asked to move: `read_some` at least one and at most `n`,
`write_some` a non-empty initial part. `boost::asio::read` and `boost::asio::write` repeat them
until everything has moved, and fail with the first failure. Both are finite programs, because
every step moves something; that is why the answers to `read_some` and `write_some` carry it in
their types.

`triple_read` and `triple_write` are the loop rules: an invariant of the bytes moved so far is
enough. `run_read` says more of a stream that has the bytes: whatever pieces they come in, they are
read.
-/

namespace InterProcessCourier

open Interaction

/-- What `read_some` delivers into a buffer of `n` bytes. -/
abbrev Chunk (n : ℕ) := { bs : Bytes // bs.length ≤ n ∧ (0 < n → bs ≠ []) }

/-- How many bytes of `bs` `write_some` takes. -/
abbrev Taken (bs : Bytes) := { k : ℕ // k ≤ bs.length ∧ (bs ≠ [] → 0 < k) }

namespace Asio

variable {S : Signature}

/-- `boost::asio::read`: the bytes put into a buffer of `n`. -/
def read (readSome : (n : ℕ) → Program S Exception (Chunk n)) (n : ℕ) :
    Program S Exception Bytes :=
  if _h : n = 0 then pure []
  else do
    let chunk ← readSome n
    let rest ← read readSome (n - chunk.1.length)
    return chunk.1 ++ rest
termination_by n
decreasing_by
  have := List.length_pos_iff.mpr (chunk.2.2 (Nat.pos_of_ne_zero _h))
  omega

theorem read_pos (readSome : (n : ℕ) → Program S Exception (Chunk n)) {n : ℕ} (hn : 0 < n) :
    read readSome n = (do
      let chunk ← readSome n
      let rest ← read readSome (n - chunk.1.length)
      return chunk.1 ++ rest) := by
  rw [read, dif_neg (Nat.ne_of_gt hn)]

/-- `boost::asio::write`. -/
def write (writeSome : (bs : Bytes) → Program S Exception (Taken bs)) (bs : Bytes) :
    Program S Exception Unit :=
  if _h : bs = [] then pure ()
  else do
    let k ← writeSome bs
    write writeSome (bs.drop k.1)
termination_by bs.length
decreasing_by
  have := k.2.2 _h
  have := List.length_pos_iff.mpr _h
  rw [List.length_drop]
  omega

/-- `boost::asio::read` never comes back short. -/
theorem read_returns (readSome : (n : ℕ) → Program S Exception (Chunk n)) (n : ℕ) :
    (read readSome n).Returns fun bs => bs.length = n := by
  induction n using Nat.strong_induction_on with
  | _ n ih =>
    rw [read]
    split_ifs with hzero
    · exact hzero.symm
    · refine (Program.returns_true _).bind fun chunk _ => ?_
      have hpos := List.length_pos_iff.mpr (chunk.2.2 (Nat.pos_of_ne_zero hzero))
      have hle := chunk.2.1
      refine (ih (n - chunk.1.length) (by omega)).bind fun rest hrest => ?_
      change (chunk.1 ++ rest).length = n
      rw [List.length_append]
      omega

section Asks

variable {P : S.Op → Prop}

theorem asks_read {readSome : (n : ℕ) → Program S Exception (Chunk n)}
    (h : ∀ n, (readSome n).Asks P) (n : ℕ) : (read readSome n).Asks P := by
  induction n using Nat.strong_induction_on with
  | _ n ih =>
    rw [read]
    split_ifs with hzero
    · trivial
    · refine (h n).bind fun chunk => Program.Asks.bind (ih _ ?_) fun _ => trivial
      have := List.length_pos_iff.mpr (chunk.2.2 (Nat.pos_of_ne_zero hzero))
      omega

theorem asks_write {writeSome : (bs : Bytes) → Program S Exception (Taken bs)}
    (h : ∀ bs, (writeSome bs).Asks P) (bs : Bytes) : (write writeSome bs).Asks P := by
  induction hm : bs.length using Nat.strong_induction_on generalizing bs with
  | _ m ih =>
    subst hm
    rw [write]
    split_ifs with hnil
    · trivial
    · refine (h bs).bind fun k => ih _ ?_ _ rfl
      have := k.2.2 hnil
      have := List.length_pos_iff.mpr hnil
      rw [List.length_drop]
      omega

end Asks

section Triple

variable {W C A V : Type} {K : Kernel S Exception W C A} {R : Rely S W} {view : W → V}
  {err : Exception → V → Prop} {J : Bytes → V → Prop}

/-- The loop rule for `read`, from a point where `got` has been read. -/
theorem triple_read_from (hV : R.Owns K view)
    {readSome : (n : ℕ) → Program S Exception (Chunk n)} {n : ℕ}
    (hread : ∀ got, got.length < n →
      Triple K R view (J got) (readSome (n - got.length)) (fun c => J (got ++ c.1)) err)
    {got : Bytes} (hlen : got.length ≤ n) :
    Triple K R view (J got) (read readSome (n - got.length))
      (fun bs v => (got ++ bs).length = n ∧ J (got ++ bs) v) err := by
  induction hm : n - got.length using Nat.strong_induction_on generalizing got with
  | _ m ih =>
    subst hm
    rw [read]
    split_ifs with hzero
    · refine Triple.ret hV fun v hv => ?_
      rw [List.append_nil]
      exact ⟨by omega, hv⟩
    · refine (hread got (by omega)).bind hV fun chunk => ?_
      have hpos := List.length_pos_iff.mpr (chunk.2.2 (Nat.pos_of_ne_zero hzero))
      have hle := chunk.2.1
      have hsub : n - (got ++ chunk.1).length = n - got.length - chunk.1.length := by
        rw [List.length_append]
        omega
      have hrest := ih (n - (got ++ chunk.1).length) (by rw [hsub]; omega)
        (by rw [List.length_append]; omega) rfl
      rw [hsub] at hrest
      refine hrest.bind hV fun bs => Triple.ret hV fun v hv => ?_
      rwa [List.append_assoc] at hv

/-- The loop rule for `read`. `J got` says that `got` has been read so far. -/
theorem triple_read (hV : R.Owns K view) {readSome : (n : ℕ) → Program S Exception (Chunk n)}
    {n : ℕ} (hread : ∀ got, got.length < n →
      Triple K R view (J got) (readSome (n - got.length)) (fun c => J (got ++ c.1)) err) :
    Triple K R view (J []) (read readSome n) (fun bs v => bs.length = n ∧ J bs v) err :=
  triple_read_from hV hread (Nat.zero_le n)

/-- The loop rule for `write`, from a point where `out` has been written of `total`. -/
theorem triple_write_from (hV : R.Owns K view)
    {writeSome : (bs : Bytes) → Program S Exception (Taken bs)} {total : Bytes}
    (hwrite : ∀ out bs, bs ≠ [] → out ++ bs = total →
      Triple K R view (J out) (writeSome bs) (fun k => J (out ++ bs.take k.1)) err)
    {out bs : Bytes} (htotal : out ++ bs = total) :
    Triple K R view (J out) (write writeSome bs) (fun _ => J total) err := by
  induction hm : bs.length using Nat.strong_induction_on generalizing out bs with
  | _ m ih =>
    subst hm
    rw [write]
    split_ifs with hnil
    · rw [hnil, List.append_nil] at htotal
      exact Triple.ret hV fun v hv => htotal ▸ hv
    · refine (hwrite out bs hnil htotal).bind hV fun k => ?_
      have hpos := k.2.2 hnil
      have hlen := List.length_pos_iff.mpr hnil
      refine ih (bs.drop k.1).length (by rw [List.length_drop]; omega) ?_ rfl
      rw [List.append_assoc, List.take_append_drop, htotal]

/-- The loop rule for `write`. `J out` says that `out` has been written so far. -/
theorem triple_write (hV : R.Owns K view)
    {writeSome : (bs : Bytes) → Program S Exception (Taken bs)} {total : Bytes}
    (hwrite : ∀ out bs, bs ≠ [] → out ++ bs = total →
      Triple K R view (J out) (writeSome bs) (fun k => J (out ++ bs.take k.1)) err) :
    Triple K R view (J []) (write writeSome total) (fun _ => J total) err :=
  triple_write_from hV hwrite (List.nil_append total)

end Triple

section Run

variable {W C A α : Type} {K : Kernel S Exception W C A} {next : α → Option (Program S Exception α)}
  (readSome : (n : ℕ) → Program S Exception (Chunk n)) {total : Bytes} (world : Bytes → W)

/-- The rule for a run of `read` that is never short of bytes, from a point where `got` has been
read of `total`. `world bs` is the world in which `bs` has been read. -/
theorem run_read_from {cs : ℕ → C}
    (hread : ∀ i got, got <+: total → got.length < total.length →
      ∃ chunk : Chunk (total.length - got.length), got ++ chunk.1 <+: total ∧
        ∀ k, K.step next ⟨readSome (total.length - got.length) >>= k, world got⟩ (.turn (cs i)) =
          ⟨k chunk, world (got ++ chunk.1)⟩)
    {got : Bytes} (hgot : got <+: total) (k : Bytes → Program S Exception α) :
    ∃ i, K.run next ⟨read readSome (total.length - got.length) >>= k, world got⟩ (turns cs i) =
      ⟨k (total.drop got.length), world total⟩ := by
  induction hm : total.length - got.length using Nat.strong_induction_on generalizing got k cs with
  | _ m ih =>
    subst hm
    have hle := hgot.length_le
    rcases Nat.eq_zero_or_pos (total.length - got.length) with hzero | hpos
    · obtain rfl := hgot.eq_of_length (by omega)
      refine ⟨0, ?_⟩
      rw [hzero, read, dif_pos rfl, List.drop_length]
      rfl
    · obtain ⟨⟨piece, hpiece⟩, hprefix, hstep⟩ := hread 0 got hgot (by omega)
      have hsome := List.length_pos_iff.mpr (hpiece.2 hpos)
      have hlength := hprefix.length_le
      have hdrop : piece ++ total.drop (got ++ piece).length = total.drop got.length := by
        obtain ⟨rest, hrest⟩ := hprefix
        rw [← hrest, List.drop_left, List.append_assoc, List.drop_left]
      rw [List.length_append] at hlength
      obtain ⟨i, hi⟩ := ih (total.length - (got ++ piece).length)
        (by rw [List.length_append]; omega) (fun i => hread (i + 1)) hprefix
        (fun bs => k (piece ++ bs)) rfl
      refine ⟨i + 1, ?_⟩
      rw [turns_succ, Kernel.run_cons, read_pos _ hpos, Program.bind_assoc, hstep,
        Program.bind_assoc]
      rw [hdrop, List.length_append, ← Nat.sub_sub] at hi
      exact hi

/-- The rule for a run of `read` that is never short of bytes. -/
theorem run_read {cs : ℕ → C}
    (hread : ∀ i got, got <+: total → got.length < total.length →
      ∃ chunk : Chunk (total.length - got.length), got ++ chunk.1 <+: total ∧
        ∀ k, K.step next ⟨readSome (total.length - got.length) >>= k, world got⟩ (.turn (cs i)) =
          ⟨k chunk, world (got ++ chunk.1)⟩)
    (k : Bytes → Program S Exception α) :
    ∃ i, K.run next ⟨read readSome total.length >>= k, world []⟩ (turns cs i) =
      ⟨k total, world total⟩ :=
  run_read_from readSome world hread List.nil_prefix k

end Run

end Asio

end InterProcessCourier
