import Mathlib.Algebra.Order.Ring.Nat
import Mathlib.Data.List.Basic

/-!
# The Protocol Buffers wire format

Varints, and records of fields that hold a varint, a word of fixed length or a length-delimited run
of bytes. Decoding undoes encoding for every list of fields, at any offset and with any bytes
behind.

Encoding is a recursion on a number of digits and decoding one on the input, so that both
evaluate.
-/

namespace ProtoWire

/-! ### Varints -/

/-- Base 128, least significant digit first, in at most `w + 1` digits. -/
def varintDigits : ℕ → ℕ → List UInt8
  | 0, n => [UInt8.ofNat (n % 128)]
  | w + 1, n =>
    if n < 128 then [UInt8.ofNat n]
    else UInt8.ofNat (n % 128 + 128) :: varintDigits w (n / 128)

/-- The varint of a number below `2 ^ 64`. -/
def varint (n : ℕ) : List UInt8 := varintDigits 9 n

/-- A varint of at most `w + 1` bytes, and what follows it. -/
def readDigits : ℕ → List UInt8 → Option (ℕ × List UInt8)
  | _, [] => none
  | w, b :: bs =>
    if b.toNat < 128 then some (b.toNat, bs)
    else match w with
      | 0 => none
      | w + 1 => (readDigits w bs).map fun r => (b.toNat - 128 + 128 * r.1, r.2)

/-- A varint, of which sixty-four bits count, and what follows it. -/
def readVarint (bs : List UInt8) : Option (ℕ × List UInt8) :=
  (readDigits 9 bs).map fun r => (r.1 % 2 ^ 64, r.2)

theorem readDigits_varintDigits {w n : ℕ} (h : n < 128 ^ (w + 1)) (rest : List UInt8) :
    readDigits w (varintDigits w n ++ rest) = some (n, rest) := by
  have hsmall : ∀ k < 128, (UInt8.ofNat k).toNat = k := fun k hk => by
    rw [UInt8.toNat_ofNat']
    omega
  induction w generalizing n with
  | zero =>
    have hn : n % 128 = n := Nat.mod_eq_of_lt (by omega)
    simp [varintDigits, readDigits, hn, hsmall n (by omega), show n < 128 by omega]
  | succ w ih =>
    rw [varintDigits]
    split_ifs with hlt
    · simp [readDigits, hsmall n hlt, hlt]
    · have hhigh : (UInt8.ofNat (n % 128 + 128)).toNat = n % 128 + 128 := by
        rw [UInt8.toNat_ofNat']
        omega
      have hdiv : n / 128 < 128 ^ (w + 1) := by
        rw [Nat.div_lt_iff_lt_mul (by decide), ← Nat.pow_succ]
        exact h
      rw [List.cons_append, readDigits, hhigh, if_neg (by omega), ih hdiv]
      simp only [Option.map_some, Option.some.injEq, Prod.mk.injEq, and_true]
      omega

theorem readVarint_varint {n : ℕ} (h : n < 2 ^ 64) (rest : List UInt8) :
    readVarint (varint n ++ rest) = some (n, rest) := by
  have hdigits := readDigits_varintDigits
    (Nat.lt_of_lt_of_le h (by decide : 2 ^ 64 ≤ 128 ^ (9 + 1))) rest
  rw [readVarint, varint, hdigits, Option.map_some, Nat.mod_eq_of_lt h]

theorem varint_ne_nil (n : ℕ) : varint n ≠ [] := by
  rw [varint, varintDigits]
  split_ifs <;> simp

/-! ### Fields -/

/-- What a field holds. -/
inductive Value
  | varint (n : ℕ)
  | fixed64 (bs : List UInt8)
  | bytes (bs : List UInt8)
  | fixed32 (bs : List UInt8)
  deriving DecidableEq

/-- The wire type of a value. -/
def Value.wireType : Value → ℕ
  | varint _ => 0
  | fixed64 _ => 1
  | bytes _ => 2
  | fixed32 _ => 5

/-- The payload behind the key of a field. -/
def Value.encode : Value → List UInt8
  | varint n => ProtoWire.varint n
  | fixed64 bs => bs
  | bytes bs => ProtoWire.varint bs.length ++ bs
  | fixed32 bs => bs

/-- A field: its number and what it holds. -/
abbrev Field := ℕ × Value

/-- A field on the wire. -/
def encodeField (f : Field) : List UInt8 := varint (8 * f.1 + f.2.wireType) ++ f.2.encode

/-- A record on the wire. -/
def encode (fs : List Field) : List UInt8 := (fs.map encodeField).flatten

@[simp] theorem encode_nil : encode [] = [] := rfl

@[simp] theorem encode_cons (f : Field) (fs : List Field) :
    encode (f :: fs) = encodeField f ++ encode fs := rfl

/-- So many bytes, and what follows them. -/
def readBytes (n : ℕ) (bs : List UInt8) : Option (List UInt8 × List UInt8) :=
  if n ≤ bs.length then some (bs.take n, bs.drop n) else none

/-- A value, and what follows it. A group, of wire types 3 and 4, is not read. -/
def readValue (wireType : ℕ) (bs : List UInt8) : Option (Value × List UInt8) :=
  match wireType with
  | 0 => (readVarint bs).map fun r => (.varint r.1, r.2)
  | 1 => (readBytes 8 bs).map fun r => (.fixed64 r.1, r.2)
  | 2 => do
    let (n, bs) ← readVarint bs
    (readBytes n bs).map fun r => (.bytes r.1, r.2)
  | 5 => (readBytes 4 bs).map fun r => (.fixed32 r.1, r.2)
  | _ => none

/-- The fields of at most so many bytes. Numbers of fields are positive, and keys have thirty-two
bits. -/
def decodeWithin : ℕ → List UInt8 → Option (List Field)
  | _, [] => some []
  | 0, _ :: _ => none
  | fuel + 1, b :: bs => do
    let (key, bs) ← readVarint (b :: bs)
    if 8 ≤ key ∧ key < 2 ^ 32 then
      let (value, bs) ← readValue (key % 8) bs
      let fs ← decodeWithin fuel bs
      return (key / 8, value) :: fs
    else none

/-- The fields of a record. -/
def decode (bs : List UInt8) : Option (List Field) := decodeWithin bs.length bs

/-- The field can be written. -/
def Field.Fits (f : Field) : Prop :=
  0 < f.1 ∧ f.1 < 2 ^ 29 ∧
    match f.2 with
    | .varint n => n < 2 ^ 64
    | .fixed64 bs => bs.length = 8
    | .bytes bs => bs.length < 2 ^ 64
    | .fixed32 bs => bs.length = 4

@[simp] theorem readBytes_append (bs rest : List UInt8) :
    readBytes bs.length (bs ++ rest) = some (bs, rest) := by
  simp [readBytes]

theorem readValue_encode {f : Field} (h : f.Fits) (rest : List UInt8) :
    readValue f.2.wireType (f.2.encode ++ rest) = some (f.2, rest) := by
  obtain ⟨number, value⟩ := f
  obtain ⟨-, -, h⟩ := h
  cases value with
  | varint n => simp [Value.wireType, Value.encode, readValue, readVarint_varint h]
  | fixed64 bs =>
    have hread := readBytes_append bs rest
    rw [show bs.length = 8 from h] at hread
    simp [Value.wireType, Value.encode, readValue, hread]
  | bytes bs =>
    simp [Value.wireType, Value.encode, readValue, List.append_assoc, readVarint_varint h]
  | fixed32 bs =>
    have hread := readBytes_append bs rest
    rw [show bs.length = 4 from h] at hread
    simp [Value.wireType, Value.encode, readValue, hread]

theorem Value.wireType_lt (v : Value) : v.wireType < 8 := by
  cases v <;> simp [wireType]

theorem decodeWithin_encode {fs : List Field} (h : ∀ f ∈ fs, f.Fits) {fuel : ℕ}
    (hfuel : (encode fs).length ≤ fuel) : decodeWithin fuel (encode fs) = some fs := by
  induction fs generalizing fuel with
  | nil => cases fuel <;> rfl
  | cons f fs ih =>
    have hf := h f (by simp)
    obtain ⟨hpos, hlt, -⟩ := id hf
    have htype := f.2.wireType_lt
    have hkey := readVarint_varint (show 8 * f.1 + f.2.wireType < 2 ^ 64 by omega)
    obtain ⟨b, bs, hb⟩ := List.exists_cons_of_ne_nil (varint_ne_nil (8 * f.1 + f.2.wireType))
    have hbytes : encode (f :: fs) = b :: (bs ++ (f.2.encode ++ encode fs)) := by
      rw [encode_cons, encodeField, hb]
      simp
    rw [hbytes] at hfuel ⊢
    obtain _ | fuel := fuel
    · simp at hfuel
    have hread : readVarint (b :: (bs ++ (f.2.encode ++ encode fs))) =
        some (8 * f.1 + f.2.wireType, f.2.encode ++ encode fs) := by
      rw [← List.cons_append, ← hb]
      exact hkey _
    have hrange : 8 ≤ 8 * f.1 + f.2.wireType ∧ 8 * f.1 + f.2.wireType < 2 ^ 32 := by omega
    have hmod : (8 * f.1 + f.2.wireType) % 8 = f.2.wireType := by omega
    have hdiv : (8 * f.1 + f.2.wireType) / 8 = f.1 := by omega
    have hrest : decodeWithin fuel (encode fs) = some fs :=
      ih (fun f' hf' => h f' (by simp [hf']))
        (by simp only [List.length_cons, List.length_append] at hfuel; omega)
    simp only [decodeWithin, hread, Option.bind_eq_bind, Option.bind_some, if_pos hrange, hmod,
      hdiv, readValue_encode hf, hrest]
    rfl

/-- **Decoding undoes encoding.** -/
theorem decode_encode {fs : List Field} (h : ∀ f ∈ fs, f.Fits) : decode (encode fs) = some fs :=
  decodeWithin_encode h (Nat.le_refl _)

theorem length_le_encodeField {f : Field} {bs : List UInt8} (h : f.2 = .bytes bs) :
    bs.length ≤ (encodeField f).length := by
  rw [encodeField, h, Value.encode]
  simp only [List.length_append]
  omega

theorem length_encodeField_le {f : Field} {fs : List Field} (h : f ∈ fs) :
    (encodeField f).length ≤ (encode fs).length := by
  obtain ⟨before, after, rfl⟩ := List.append_of_mem h
  simp only [encode, List.map_append, List.map_cons, List.flatten_append, List.flatten_cons,
    List.length_append]
  omega

/-- In a short record every run of bytes is short. -/
theorem fits_of_length {f : Field} {fs : List Field} {bs : List UInt8} (hf : f ∈ fs)
    (hbytes : f.2 = .bytes bs) (hpos : 0 < f.1) (hnumber : f.1 < 2 ^ 29)
    (hlength : (encode fs).length < 2 ^ 31) : f.Fits := by
  have hle := Nat.le_trans (length_le_encodeField hbytes) (length_encodeField_le hf)
  refine ⟨hpos, hnumber, ?_⟩
  rw [hbytes]
  dsimp only
  omega

end ProtoWire
