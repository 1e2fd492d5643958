import Mathlib.Algebra.Group.Nat.Defs
import Mathlib.Data.List.Basic
import Mathlib.Data.List.Induction

/-!
# Big-endian numbers and counted fields

Numbers written with the most significant byte first, and byte strings that carry
their own length in front of them.
-/

namespace BigEndian

/-- The last `k` bytes of a number. -/
def encode : Nat → Nat → List UInt8
  | 0, _ => []
  | k + 1, n => encode k (n / 256) ++ [UInt8.ofNat n]

/-- The number that bytes stand for. -/
def value (bs : List UInt8) : Nat := bs.foldl (fun n b => 256 * n + b.toNat) 0

@[simp] theorem encode_length (k n : Nat) : (encode k n).length = k := by
  induction k generalizing n with
  | zero => rfl
  | succ k ih => simp [encode, ih]

@[simp] theorem value_nil : value [] = 0 := rfl

@[simp] theorem value_concat (bs : List UInt8) (b : UInt8) :
    value (bs ++ [b]) = 256 * value bs + b.toNat := by
  simp [value]

/-- A number that fits is read back. -/
theorem value_encode (k n : Nat) (h : n < 256 ^ k) : value (encode k n) = n := by
  induction k generalizing n with
  | zero =>
    have : n = 0 := by simpa using h
    simp [encode, this]
  | succ k ih =>
    have hdiv : n / 256 < 256 ^ k := by
      rw [Nat.div_lt_iff_lt_mul (by omega)]
      simpa [Nat.pow_succ] using h
    have hlast : (UInt8.ofNat n).toNat = n % 256 := by simp
    rw [encode, value_concat, ih _ hdiv, hlast]
    omega

theorem value_lt (bs : List UInt8) : value bs < 256 ^ bs.length := by
  induction bs using List.reverseRecOn with
  | nil => simp
  | append_singleton bs b ih =>
    have hb := b.toNat_lt
    rw [value_concat, List.length_append, List.length_singleton, Nat.pow_succ]
    omega

/-- Bytes are the encoding of their number. -/
theorem encode_value (bs : List UInt8) : encode bs.length (value bs) = bs := by
  induction bs using List.reverseRecOn with
  | nil => rfl
  | append_singleton bs b ih =>
    have hb := b.toNat_lt
    have hquot : (256 * value bs + b.toNat) / 256 = value bs := by omega
    have hlast : UInt8.ofNat (256 * value bs + b.toNat) = b := by
      apply UInt8.toNat_inj.mp
      simp
    rw [value_concat, List.length_append, List.length_singleton, encode, hquot, ih, hlast]

/-- A byte string behind its length in `k` bytes. -/
def counted (k : Nat) (data : List UInt8) : List UInt8 := encode k data.length ++ data

@[simp] theorem counted_length (k : Nat) (data : List UInt8) :
    (counted k data).length = k + data.length := by
  simp [counted]

/-- A counted field ends where its length says. -/
theorem counted_append_inj {k : Nat} {a b x y : List UInt8} (ha : a.length < 256 ^ k)
    (hb : b.length < 256 ^ k) (h : counted k a ++ x = counted k b ++ y) : a = b ∧ x = y := by
  unfold counted at h
  rw [List.append_assoc, List.append_assoc] at h
  obtain ⟨hcount, hrest⟩ := List.append_inj h (by simp)
  have hlen : a.length = b.length := by
    rw [← value_encode k a.length ha, hcount, value_encode k b.length hb]
  exact List.append_inj hrest hlen

end BigEndian
