import Mathlib

/-! # Big-endian byte strings -/

namespace PlexusTransport.BigEndian

/-- The number a byte string spells, its first byte the highest. -/
def fromBe (b : List UInt8) : Nat := b.foldl (fun n x => n * 256 + x.toNat) 0

/-- The low `k` bytes of a number. -/
def toBe : Nat → Nat → List UInt8
  | 0, _ => []
  | k + 1, n => UInt8.ofNat (n / 256 ^ k) :: toBe k n

theorem fromBe_foldl (bs : List UInt8) (n : Nat) :
    bs.foldl (fun n x => n * 256 + x.toNat) n = n * 256 ^ bs.length + fromBe bs := by
  induction bs generalizing n with
  | nil => simp [fromBe]
  | cons b bs ih =>
      conv_rhs => rw [fromBe, List.foldl_cons, ih]
      rw [List.foldl_cons, ih, List.length_cons, Nat.pow_succ]
      ring

theorem fromBe_cons (b : UInt8) (bs : List UInt8) :
    fromBe (b :: bs) = b.toNat * 256 ^ bs.length + fromBe bs := by
  rw [fromBe, List.foldl_cons, fromBe_foldl, Nat.zero_mul, Nat.zero_add]

theorem fromBe_lt (bs : List UInt8) : fromBe bs < 256 ^ bs.length := by
  induction bs with
  | nil => simp [fromBe]
  | cons b bs ih =>
      rw [fromBe_cons, List.length_cons, Nat.pow_succ]
      have := b.toNat_lt
      have : b.toNat * 256 ^ bs.length ≤ 255 * 256 ^ bs.length :=
        Nat.mul_le_mul_right _ (by omega)
      omega

@[simp] theorem length_toBe (k n : Nat) : (toBe k n).length = k := by
  induction k with
  | zero => rfl
  | succ k ih => simp [toBe, ih]

theorem fromBe_toBe (k n : Nat) : fromBe (toBe k n) = n % 256 ^ k := by
  induction k with
  | zero => simp [toBe, fromBe, Nat.mod_one]
  | succ k ih =>
      have top : (UInt8.ofNat (n / 256 ^ k)).toNat = n / 256 ^ k % 256 := by simp
      rw [toBe, fromBe_cons, length_toBe, ih, top, Nat.mul_comm, Nat.pow_succ, Nat.mod_mul]
      ring

end PlexusTransport.BigEndian
