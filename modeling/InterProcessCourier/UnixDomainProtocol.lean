import InterProcessCourier.Basic
import InterProcessCourier.Framing

/-!
# The wire format

Both ends prefix a message with its length, as the four bytes that a `std::uint32_t` occupies in
memory. The two ends share a machine, hence a byte order; it is little-endian on every platform
the library is built for.

The library has two framing encoders, in `SyncUnixDomainClient::sendMessage` and in
`SyncUnixDomainSession::readBody`. They size their buffer differently, and `frameRequest_eq` and
`frameResponse_eq` say what each writes: the same frame below `2 ^ 32` bytes, and above it a
buffer overrun on one side and a header that lies on the other.
-/

namespace InterProcessCourier

/-- `k_payload_length_header_size`. -/
def payloadLengthHeaderSize : ℕ := 4

/-! ### Integers in memory -/

/-- The low `w` bytes of `n`, least significant first. -/
def storeLE : ℕ → ℕ → Bytes
  | 0, _ => []
  | w + 1, n => UInt8.ofNat n :: storeLE w (n / 256)

/-- The number that little-endian bytes spell. -/
def loadLE : Bytes → ℕ
  | [] => 0
  | b :: bs => b.toNat + 256 * loadLE bs

@[simp] theorem length_storeLE (w n : ℕ) : (storeLE w n).length = w := by
  induction w generalizing n with
  | zero => rfl
  | succ w ih => simp [storeLE, ih]

theorem loadLE_storeLE (w n : ℕ) : loadLE (storeLE w n) = n % 256 ^ w := by
  induction w generalizing n with
  | zero => simp [storeLE, loadLE, Nat.mod_one]
  | succ w ih =>
    rw [storeLE, loadLE, ih, Nat.pow_succ, Nat.mul_comm (256 ^ w), Nat.mod_mul]
    simp

theorem loadLE_lt (bs : Bytes) : loadLE bs < 256 ^ bs.length := by
  induction bs with
  | nil => simp [loadLE]
  | cons b bs ih =>
    have hb := b.toNat_lt
    rw [loadLE, List.length_cons, Nat.pow_succ]
    omega

theorem storeLE_loadLE (bs : Bytes) : storeLE bs.length (loadLE bs) = bs := by
  induction bs with
  | nil => rfl
  | cons b bs ih =>
    have hb := b.toNat_lt
    have hdiv : (b.toNat + 256 * loadLE bs) / 256 = loadLE bs := by omega
    have hlow : UInt8.ofNat (b.toNat + 256 * loadLE bs) = b := by
      apply UInt8.toNat_inj.mp
      rw [UInt8.toNat_ofNat']
      omega
    rw [List.length_cons, loadLE, storeLE, hdiv, ih, hlow]

theorem storeLE_mod (w n : ℕ) : storeLE w (n % 256 ^ w) = storeLE w n := by
  conv_rhs => rw [← storeLE_loadLE (storeLE w n), length_storeLE, loadLE_storeLE]

/-- The frames of the library: four little-endian bytes, then the message. -/
def wire : Framing.Format UInt8 where
  headerSize := payloadLengthHeaderSize
  bound := 2 ^ 32
  encode := storeLE payloadLengthHeaderSize
  decode := loadLE
  headerSize_pos := by decide
  length_encode := length_storeLE _
  decode_encode n hn := by
    rw [loadLE_storeLE]
    exact Nat.mod_eq_of_lt hn
  encode_decode h hh := by rw [← hh, storeLE_loadLE]
  decode_lt h hh := by
    have := loadLE_lt h
    rwa [hh] at this

@[simp] theorem wire_headerSize : wire.headerSize = payloadLengthHeaderSize := rfl

@[simp] theorem wire_bound : wire.bound = 2 ^ 32 := rfl

@[simp] theorem wire_decode (h : Bytes) : wire.decode h = loadLE h := rfl

@[simp] theorem wire_encode (n : ℕ) : wire.encode n = storeLE payloadLengthHeaderSize n := rfl

theorem wire_frame_ne_nil (m : Bytes) : wire.frame m ≠ [] := by
  rw [← List.length_pos_iff, Framing.Format.length_frame]
  exact Nat.add_pos_left wire.headerSize_pos _

/-! ### The encoders -/

/-- `buffer.resize(n)` on an empty buffer. -/
def resize (n : ℕ) : Bytes := List.replicate n 0

/-- `std::memcpy(buffer.data() + offset, source.data(), source.length())`. -/
def memcpy (buffer : Bytes) (offset : ℕ) (source : Bytes) : Except Exception Bytes :=
  if offset + source.length ≤ buffer.length then
    .ok (buffer.take offset ++ source ++ buffer.drop (offset + source.length))
  else .error .undefinedBehaviour

/-- A `std::uint32_t` as it lies in memory. -/
def UInt32.inMemory (n : UInt32) : Bytes := storeLE payloadLengthHeaderSize n.toNat

/-- The buffer `sendMessage` builds: sized by the length cut to 32 bits, filled by the length. -/
def frameRequest (message : Bytes) : Except Exception Bytes := do
  let payloadLength : UInt32 := message.length.toUInt32
  let payloadBuffer := resize (payloadLengthHeaderSize + payloadLength.toNat)
  let payloadBuffer ← memcpy payloadBuffer 0 (UInt32.inMemory payloadLength)
  memcpy payloadBuffer payloadLengthHeaderSize message

/-- The buffer `readBody` builds: sized and filled by the length, headed by the length cut to 32
bits. -/
def frameResponse (response : Bytes) : Except Exception Bytes := do
  let responseLength : UInt32 := response.length.toUInt32
  let responseMessageBuffer := resize (payloadLengthHeaderSize + response.length)
  let responseMessageBuffer ←
    memcpy responseMessageBuffer 0 (UInt32.inMemory responseLength)
  memcpy responseMessageBuffer payloadLengthHeaderSize response

theorem inMemory_length (n : UInt32) : (UInt32.inMemory n).length = payloadLengthHeaderSize :=
  length_storeLE _ _

theorem inMemory_toUInt32 (n : ℕ) :
    UInt32.inMemory n.toUInt32 = storeLE payloadLengthHeaderSize n := by
  rw [UInt32.inMemory, Nat.toUInt32_eq, UInt32.toNat_ofNat']
  exact storeLE_mod payloadLengthHeaderSize n

/-- Writing a header and a body into a buffer that holds both. -/
theorem memcpy_header_body {header : Bytes} (body : Bytes) (n : ℕ)
    (hheader : header.length = payloadLengthHeaderSize) (hn : body.length ≤ n) :
    (memcpy (resize (payloadLengthHeaderSize + n)) 0 header >>= fun b =>
        memcpy b payloadLengthHeaderSize body) =
      .ok (header ++ body ++ resize (n - body.length)) := by
  have hfst : memcpy (resize (payloadLengthHeaderSize + n)) 0 header
      = .ok (header ++ resize n) := by
    rw [memcpy, if_pos (by simp [resize, hheader])]
    simp [resize, hheader]
  have hsnd : memcpy (header ++ resize n) payloadLengthHeaderSize body
      = .ok (header ++ body ++ resize (n - body.length)) := by
    rw [memcpy, if_pos (by simp [resize, hheader, hn]), ← hheader, List.take_left,
      ← List.drop_drop, List.drop_left]
    simp [resize]
  rw [hfst]
  exact hsnd

theorem frameRequest_eq {message : Bytes} (h : message.length < 2 ^ 32) :
    frameRequest message = .ok (wire.frame message) := by
  have hlen : (message.length.toUInt32).toNat = message.length := by
    rw [Nat.toUInt32_eq, UInt32.toNat_ofNat']
    exact Nat.mod_eq_of_lt h
  have := memcpy_header_body message message.length (inMemory_length message.length.toUInt32) le_rfl
  simpa [frameRequest, hlen, Framing.Format.frame, resize, inMemory_toUInt32] using this

/-- A request too long for its header overruns the buffer. -/
theorem frameRequest_overrun {message : Bytes} (h : 2 ^ 32 ≤ message.length) :
    frameRequest message = .error .undefinedBehaviour := by
  have hlen : (message.length.toUInt32).toNat < message.length := by
    rw [Nat.toUInt32_eq, UInt32.toNat_ofNat']
    exact lt_of_lt_of_le (Nat.mod_lt _ (by decide)) h
  have hfst : memcpy (resize (payloadLengthHeaderSize + (message.length.toUInt32).toNat)) 0
      (UInt32.inMemory message.length.toUInt32) =
        .ok (UInt32.inMemory message.length.toUInt32 ++
          resize (message.length.toUInt32).toNat) := by
    rw [memcpy, if_pos (by simp [resize, inMemory_length])]
    simp [resize, inMemory_length]
  rw [frameRequest, hfst]
  refine if_neg ?_
  simp only [List.length_append, inMemory_length, resize, List.length_replicate]
  omega

/-- A response is written whole, behind the low 32 bits of its length. -/
theorem frameResponse_eq (response : Bytes) :
    frameResponse response = .ok (wire.frame response) := by
  have := memcpy_header_body response response.length (inMemory_length response.length.toUInt32)
    le_rfl
  simpa [frameResponse, Framing.Format.frame, resize, inMemory_toUInt32] using this

end InterProcessCourier
