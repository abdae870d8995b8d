import PostEditor.JsonReader
import Mathlib.Algebra.Order.Archimedean.Basic
import Mathlib.Algebra.Order.Field.Basic
import Mathlib.Algebra.Order.Field.Power
import Mathlib.Tactic.FieldSimp
import Mathlib.Tactic.Linarith
import Mathlib.Tactic.NormNum

namespace PostEditor

namespace Double

theorem leading_natCast {n : Nat} (positive : 0 < n) : leading n = n.log2 := by
  have reached : (2 : Rat) ^ (n.log2 : Int) ≤ n := by
    rw [zpow_natCast]
    exact_mod_cast Nat.log2_self_le positive.ne'
  have place : ((n : Rat).num.natAbs.log2 : Int) - (n : Rat).den.log2 = n.log2 := by
    have one : Nat.log2 1 = 0 := by decide
    simp only [Rat.num_natCast, Int.natAbs_natCast, Rat.den_natCast, one, Nat.cast_zero, Int.sub_zero]
  simp only [leading]
  rw [place, if_pos reached]

theorem gap_pos (x : Rat) : 0 < gap x := zpow_pos rfl _

/-- Around whole numbers doubles are no further apart than the number is from zero. -/
theorem gap_natCast_le {n : Nat} (positive : 0 < n) : gap n ≤ n :=
  calc gap n = 2 ^ max ((n.log2 : Int) - 52) (-1074) := by rw [gap, leading_natCast positive]
    _ ≤ 2 ^ (n.log2 : Int) := zpow_le_zpow_right₀ (by norm_num) (by omega)
    _ ≤ n := by
      rw [zpow_natCast]
      exact_mod_cast Nat.log2_self_le positive.ne'

theorem roundEven_le (x : Rat) : (roundEven x : Rat) ≤ x + 1 := by
  have below := Rat.floor_le x
  simp only [roundEven]
  split
  · push_cast
    linarith
  · linarith

theorem nearest_natCast_le {n : Nat} (positive : 0 < n) : nearest n ≤ 2 * n := by
  have distance := gap_pos n
  calc nearest n = roundEven (n / gap n) * gap n := rfl
    _ ≤ (n / gap n + 1) * gap n := mul_le_mul_of_nonneg_right (roundEven_le _) distance.le
    _ = n + gap n := by field_simp
    _ ≤ 2 * n := by linarith [gap_natCast_le positive]

end Double

namespace Numeral

def ofNat (n : Nat) : Numeral := ⟨false, Text.ofNat n, none, none⟩

theorem le_ofDigitChars (n : Nat) (ds : Text) : n ≤ Nat.ofDigitChars 10 ds n := by
  rw [Nat.ofDigitChars_eq_ofDigitChars_zero]
  exact Nat.le_add_right_of_le (Nat.le_mul_of_pos_left n (Nat.pow_pos (by omega)))

theorem appendDigits_eq {n : Nat} {ds : Text} (small : Nat.ofDigitChars 10 ds n < 0x10000000000000000) :
    appendDigits n ds = (Nat.ofDigitChars 10 ds n, ds.length) := by
  induction ds generalizing n with
  | nil => rfl
  | cons c ds ih =>
    rw [Nat.ofDigitChars_cons] at small ⊢
    have room := Nat.lt_of_le_of_lt (le_ofDigitChars _ ds) small
    simp only [appendDigits, if_pos room, ih small, List.length_cons]

theorem scaled_ofNat {n : Nat} (small : n < 0x10000000000000000) : (ofNat n).scaled = (n, 0) := by
  have appended : appendDigits 0 (Text.ofNat n) = (n, (Text.ofNat n).length) := by
    have value : Nat.ofDigitChars 10 (Text.ofNat n) 0 = n := Text.toNat_ofNat n
    rw [appendDigits_eq (by rwa [value]), value]
  simp only [scaled, ofNat, appended, Option.getD_none, appendDigits]
  simp

theorem overflows_ofNat {n : Nat} (small : n < 0x10000000000000000) : (ofNat n).overflows = false := by
  simp only [overflows, scaled_ofNat small]
  rcases Nat.eq_zero_or_pos n with rfl | positive
  · rfl
  · have one : Double.nearest 1 = 1 := by decide +kernel
    have fits : Double.nearest n < Double.bound :=
      calc Double.nearest n ≤ 2 * n := Double.nearest_natCast_le positive
        _ ≤ 2 * 0x10000000000000000 := by
          have cast : (n : Rat) ≤ 0x10000000000000000 := by exact_mod_cast small.le
          linarith
        _ < Double.bound := by decide +kernel
    simp [one, fits]

theorem toNat?_ofNat (n : Nat) : (ofNat n).toNat? = some n := by
  simp [toNat?, ofNat]

end Numeral

/-- A number below 2^32 is read back from its digits. -/
theorem Json.word?_ofNat {n : Nat} (small : n < 0x100000000) : Json.word? (.number (.ofNat n)) = some n := by
  simp [Json.word?, Numeral.toNat?_ofNat, small]

end PostEditor
