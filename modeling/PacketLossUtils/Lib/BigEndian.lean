import Mathlib.Data.Nat.Init
import Mathlib.Tactic.Ring

/-! Big-endian numbers of a fixed width, and bits packed eight to a byte. -/
namespace BigEndian

variable {k n : ℕ} {bits : List Bool} {bytes : List UInt8}

/-- The `k` low bytes of `n`, most significant first. -/
def encode : ℕ → ℕ → List UInt8
  | 0, _ => []
  | k + 1, n => UInt8.ofNat (n / 256 ^ k) :: encode k n

def decode (bytes : List UInt8) : ℕ := bytes.foldl (fun n b => n * 256 + b.toNat) 0

@[simp] theorem length_encode (k n : ℕ) : (encode k n).length = k := by
  induction k with
  | zero => rfl
  | succ k ih => rw [encode, List.length_cons, ih]

theorem foldl_encode (k n m : ℕ) :
    (encode k n).foldl (fun n b => n * 256 + b.toNat) m = m * 256 ^ k + n % 256 ^ k := by
  induction k generalizing m with
  | zero => simp [encode, Nat.mod_one]
  | succ k ih =>
    have hsplit : n % 256 ^ (k + 1) = n % 256 ^ k + 256 ^ k * (n / 256 ^ k % 256) := by
      rw [Nat.pow_succ, Nat.mod_mul]
    rw [encode, List.foldl_cons, ih, UInt8.toNat_ofNat', hsplit, Nat.pow_succ]
    ring

theorem decode_encode (k n : ℕ) : decode (encode k n) = n % 256 ^ k := by
  rw [decode, foldl_encode, Nat.zero_mul, Nat.zero_add]

theorem decode_encode_of_lt (h : n < 256 ^ k) : decode (encode k n) = n := by
  rw [decode_encode, Nat.mod_eq_of_lt h]

theorem foldl_decode (bytes : List UInt8) (m : ℕ) :
    bytes.foldl (fun n b => n * 256 + b.toNat) m = m * 256 ^ bytes.length + decode bytes := by
  induction bytes generalizing m with
  | nil => simp [decode]
  | cons b bytes ih =>
    rw [decode, List.foldl_cons, List.foldl_cons, ih, ih (0 * 256 + b.toNat), List.length_cons,
      Nat.pow_succ]
    ring

theorem decode_cons (b : UInt8) (bytes : List UInt8) :
    decode (b :: bytes) = b.toNat * 256 ^ bytes.length + decode bytes := by
  rw [decode, List.foldl_cons, foldl_decode, Nat.zero_mul, Nat.zero_add]

theorem decode_lt (bytes : List UInt8) : decode bytes < 256 ^ bytes.length := by
  induction bytes with
  | nil => simp [decode]
  | cons b bytes ih =>
    have hb : b.toNat < 256 := b.toNat_lt
    rw [decode_cons, List.length_cons, Nat.pow_succ]
    calc b.toNat * 256 ^ bytes.length + decode bytes
        < b.toNat * 256 ^ bytes.length + 256 ^ bytes.length := by omega
      _ = (b.toNat + 1) * 256 ^ bytes.length := by ring
      _ ≤ 256 * 256 ^ bytes.length := Nat.mul_le_mul_right _ hb
      _ = 256 ^ bytes.length * 256 := Nat.mul_comm ..

/-- Only the `k` low bytes are written. -/
theorem encode_add_mul (k m n : ℕ) : encode k (m * 256 ^ k + n) = encode k n := by
  induction k generalizing m with
  | zero => rfl
  | succ k ih =>
    have hsplit : m * 256 ^ (k + 1) + n = m * 256 * 256 ^ k + n := by
      rw [Nat.pow_succ]
      ring
    have hhead : UInt8.ofNat ((m * 256 * 256 ^ k + n) / 256 ^ k) = UInt8.ofNat (n / 256 ^ k) := by
      apply UInt8.toNat_inj.mp
      rw [UInt8.toNat_ofNat', UInt8.toNat_ofNat', Nat.add_comm,
        Nat.add_mul_div_right _ _ (Nat.pow_pos (by decide)), Nat.add_mul_mod_self_right]
    rw [encode, hsplit, ih, hhead, ← encode]

/-- Bytes are the one way to write the number they stand for. -/
theorem encode_decode (bytes : List UInt8) : encode bytes.length (decode bytes) = bytes := by
  induction bytes with
  | nil => rfl
  | cons b bytes ih =>
    have hhead : (b.toNat * 256 ^ bytes.length + decode bytes) / 256 ^ bytes.length =
        b.toNat := by
      rw [Nat.add_comm, Nat.add_mul_div_right _ _ (Nat.pow_pos (by decide)),
        Nat.div_eq_of_lt (decode_lt bytes), Nat.zero_add]
    rw [decode_cons, List.length_cons, encode, hhead, encode_add_mul, ih]
    simp

/-- Byte `i` of the packed bits, the bit of lowest index in the lowest place. -/
def packByte (bits : List Bool) (i : ℕ) : UInt8 :=
  UInt8.ofNat (Nat.ofBits fun j : Fin 8 => bits.getD (8 * i + j) false)

def packBits (bits : List Bool) : List UInt8 :=
  (List.range ((bits.length + 7) / 8)).map (packByte bits)

def unpackBits (n : ℕ) (bytes : List UInt8) : List Bool :=
  (List.range n).map fun i => (bytes.getD (i / 8) 0).toNat.testBit (i % 8)

@[simp] theorem length_packBits (bits : List Bool) :
    (packBits bits).length = (bits.length + 7) / 8 := by
  simp [packBits]

@[simp] theorem length_unpackBits (n : ℕ) (bytes : List UInt8) :
    (unpackBits n bytes).length = n := by
  simp [unpackBits]

theorem toNat_packByte (bits : List Bool) (i : ℕ) :
    (packByte bits i).toNat = Nat.ofBits fun j : Fin 8 => bits.getD (8 * i + j) false := by
  rw [packByte, UInt8.toNat_ofNat', Nat.mod_eq_of_lt (Nat.ofBits_lt_two_pow _)]

/-- The places above the last bit of the last byte are zero. -/
theorem testBit_packByte (bits : List Bool) (i : ℕ) {j : ℕ} (hj : j < 8) :
    (packByte bits i).toNat.testBit j = bits.getD (8 * i + j) false := by
  rw [toNat_packByte, Nat.testBit_ofBits_lt _ _ hj]

theorem unpackBits_packBits (bits : List Bool) :
    unpackBits bits.length (packBits bits) = bits := by
  apply List.ext_getElem
  · simp
  · intro i hi hi'
    have hbyte : i / 8 < (bits.length + 7) / 8 := by omega
    have hget : (packBits bits).getD (i / 8) 0 = packByte bits (i / 8) := by
      simp [packBits, List.getD_eq_getElem?_getD, hbyte]
    simp only [unpackBits, List.getElem_map, List.getElem_range, hget]
    rw [testBit_packByte bits _ (Nat.mod_lt i (by decide)), Nat.div_add_mod,
      List.getD_eq_getElem?_getD,
      List.getElem?_eq_getElem hi', Option.getD_some]

theorem getD_unpackBits (n : ℕ) (bytes : List UInt8) (i : ℕ) :
    (unpackBits n bytes).getD i false =
      (decide (i < n) && (bytes.getD (i / 8) 0).toNat.testBit (i % 8)) := by
  rw [unpackBits, List.getD_eq_getElem?_getD, List.getElem?_map]
  by_cases hi : i < n
  · rw [List.getElem?_range hi]
    simp [hi]
  · rw [List.getElem?_eq_none (by simpa using hi)]
    simp [hi]

/-- Bytes without a bit above the last one are packed back. -/
theorem packBits_unpackBits (hlen : bytes.length = (n + 7) / 8)
    (hclear : ∀ i, n ≤ i → (bytes.getD (i / 8) 0).toNat.testBit (i % 8) = false) :
    packBits (unpackBits n bytes) = bytes := by
  apply List.ext_getElem
  · simp [hlen]
  · intro i hi hi'
    simp only [packBits, List.getElem_map, List.getElem_range]
    apply UInt8.toNat_inj.mp
    apply Nat.eq_of_testBit_eq
    intro j
    rcases Nat.lt_or_ge j 8 with hj | hj
    · have hbyte : bytes.getD ((8 * i + j) / 8) 0 = bytes[i] := by
        rw [show (8 * i + j) / 8 = i by omega, List.getD_eq_getElem?_getD,
          List.getElem?_eq_getElem hi', Option.getD_some]
      have hplace : (8 * i + j) % 8 = j := by omega
      have hclear := hclear (8 * i + j)
      rw [testBit_packByte _ _ hj, getD_unpackBits]
      rw [hbyte, hplace] at hclear ⊢
      by_cases hin : 8 * i + j < n
      · simp [hin]
      · simp [hin, hclear (by omega)]
    · have hsmall (b : UInt8) : b.toNat.testBit j = false :=
        Nat.testBit_lt_two_pow (b.toNat_lt.trans_le (Nat.pow_le_pow_right (by decide) hj))
      rw [hsmall, hsmall]

end BigEndian
