import Mathlib.Data.List.Basic
import Mathlib.Tactic

/-!
# Fixed-width digits

Two ways in which a program writes a natural number in a fixed number of digits.

* `leBytes w n`: the `w` bytes of `n`, least significant first (the memory image of an
  unsigned integer on a little-endian machine); `leValue` reads them back.
* `hexFixed w n`: the `w` lower-case hexadecimal digits of `n`, most significant first
  (what `printf` writes for `%0wx` when the number fits); two numbers with the same digits
  agree modulo `16 ^ w`.
-/

namespace WispRelay
namespace FixedWidth

/-- The `w` low bytes of `n`, least significant first. -/
def leBytes : Nat → Nat → List UInt8
  | 0, _ => []
  | w + 1, n => UInt8.ofNat n :: leBytes w (n / 256)

/-- The number whose little-endian bytes are given. -/
def leValue : List UInt8 → Nat
  | [] => 0
  | b :: bs => b.toNat + 256 * leValue bs

@[simp] theorem leBytes_length (w n : Nat) :
    (leBytes w n).length = w := by
  induction w generalizing n with
  | zero => rfl
  | succ w ih => simp [leBytes, ih]

/-- Reading back `w` bytes gives the number modulo `256 ^ w`. -/
theorem leValue_leBytes (w n : Nat) :
    leValue (leBytes w n) = n % 256 ^ w := by
  induction w generalizing n with
  | zero =>
      simp [leBytes, leValue, Nat.mod_one]
  | succ w ih =>
      have hbyte : (UInt8.ofNat n).toNat = n % 256 := by
        simp
      simp only [leBytes, leValue, ih, hbyte]
      rw [pow_succ, Nat.mul_comm (256 ^ w) 256, Nat.mod_mul]

/-- The character code of a hexadecimal digit, lower case. -/
def hexDigit (d : Nat) : UInt8 :=
  if d < 10 then UInt8.ofNat (48 + d) else UInt8.ofNat (87 + d)

theorem hexDigit_injective {a b : Nat} (ha : a < 16) (hb : b < 16)
    (h : hexDigit a = hexDigit b) : a = b := by
  have hnat : (hexDigit a).toNat = (hexDigit b).toNat := by
    rw [h]
  unfold hexDigit at hnat
  split at hnat <;> split at hnat <;> simp at hnat <;> omega

/-- The `w` hexadecimal digits of `n`, most significant first. -/
def hexFixed : Nat → Nat → List UInt8
  | 0, _ => []
  | w + 1, n => hexFixed w (n / 16) ++ [hexDigit (n % 16)]

@[simp] theorem hexFixed_length (w n : Nat) :
    (hexFixed w n).length = w := by
  induction w generalizing n with
  | zero => rfl
  | succ w ih => simp [hexFixed, ih]

/-- Equal digit strings come from numbers that agree modulo `16 ^ w`. -/
theorem hexFixed_injective (w a b : Nat)
    (h : hexFixed w a = hexFixed w b) : a % 16 ^ w = b % 16 ^ w := by
  induction w generalizing a b with
  | zero =>
      simp [Nat.mod_one]
  | succ w ih =>
      simp only [hexFixed] at h
      obtain ⟨hhigh, hlow⟩ := List.append_inj' h rfl
      have hdigit : a % 16 = b % 16 :=
        hexDigit_injective (Nat.mod_lt _ (by decide)) (Nat.mod_lt _ (by decide))
          (by simpa using hlow)
      have hrest := ih (a / 16) (b / 16) hhigh
      rw [pow_succ, Nat.mul_comm (16 ^ w) 16, Nat.mod_mul, Nat.mod_mul, hdigit, hrest]

/-- A 32-bit number is determined by its eight hexadecimal digits. -/
theorem hexFixed_uint32_injective {a b : UInt32}
    (h : hexFixed 8 a.toNat = hexFixed 8 b.toNat) : a = b := by
  have hmod := hexFixed_injective 8 a.toNat b.toNat h
  have ha := a.toNat_lt
  have hb := b.toNat_lt
  apply UInt32.toNat_inj.mp
  omega

/-- A 32-bit counter that has not reached its last value advances by one. -/
theorem toNat_succ
    {n : UInt32}
    (h : n.toNat + 1 < 2 ^ 32) :
    (n + 1).toNat = n.toNat + 1 := by
  rw [UInt32.toNat_add]
  exact Nat.mod_eq_of_lt h

end FixedWidth
end WispRelay
