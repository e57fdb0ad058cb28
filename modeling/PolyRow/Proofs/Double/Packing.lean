import Mathlib
import PolyRow.Scalar

/-!
# Doubles and their parts

A double is 64 bits, and its arithmetic is done on what the bits stand for: a
sign, an infinity, no number at all, or a whole mantissa times a power of two.
Between operations the parts are packed into the bits and unpacked again. Parts
in canonical form come through unchanged, unless the exponent is too large for
the format: then an infinity comes out. Unpacking gives canonical parts only, so
packing loses something for a freshly computed result at most.

## Main results

* `canonical_unpack`: parts that come from bits are canonical.
* `repack_of_fits`: canonical parts with an exponent of the format survive.
* `repack_of_gt`: above the greatest exponent an infinity comes out.
-/

namespace PolyRow.Double

open Float.Model (Format UnpackedFloat)
open Float.Model.UnpackedFloat

/-! ## Canonical parts -/

/-- The mantissa has at most 53 bits, the exponent is at least the least of the
format, and a mantissa of fewer bits goes with the least exponent alone. An
exponent may still be too large. -/
def Canonical : UnpackedFloat → Prop
  | .finite _ m e _ => m < 2 ^ 53 ∧ -1074 ≤ e ∧ (2 ^ 52 ≤ m ∨ e = -1074)
  | _ => True

/-- The exponents that the format has, in front of a whole mantissa. -/
def Fits : UnpackedFloat → Prop
  | .finite _ _ e _ => e ≤ 971
  | _ => True

/-- The bit in front of the mantissa counts for `2 ^ 52`. -/
private theorem toNat_one_append (v : BitVec 52) : (1#1 ++ v).toNat = 2 ^ 52 + v.toNat := by
  rw [BitVec.toNat_append, ← Nat.shiftLeft_add_eq_or_of_lt v.isLt]
  simp [Nat.shiftLeft_eq]

private theorem toNat_ne_zero {n : Nat} {v : BitVec n} (h : v ≠ 0#n) : v.toNat ≠ 0 := by
  intro hv
  exact h (BitVec.eq_of_toNat_eq hv)

theorem canonical_unpack (b : BitVec Format.binary64.numBits) :
    Canonical (UnpackedFloat.unpack .binary64 b) := by
  have hmantissa : (unpackMantissa b).toNat < 2 ^ 52 := (unpackMantissa b).isLt
  have hbias : Format.binary64.exponentBias = 1023 := rfl
  unfold UnpackedFloat.unpack
  simp only
  split
  · split <;> trivial
  · split
    · split
      · trivial
      · rename_i hzero _
        rw [hzero, hbias]
        exact ⟨by omega, by decide, .inr rfl⟩
    · rename_i hnonzero
      have hexponent : (unpackExponent b).toNat ≠ 0 := toNat_ne_zero hnonzero
      have happend := toNat_one_append (unpackMantissa b)
      rw [hbias]
      exact ⟨by omega, by omega, .inl (by omega)⟩

theorem fits_unpack (b : BitVec Format.binary64.numBits) :
    Fits (UnpackedFloat.unpack .binary64 b) := by
  have hbits : (unpackExponent b).toNat < 2 ^ 11 := (unpackExponent b).isLt
  have hbias : Format.binary64.exponentBias = 1023 := rfl
  unfold UnpackedFloat.unpack
  simp only
  split
  · split <;> trivial
  · rename_i hones
    have hexponent : (unpackExponent b).toNat ≠ 2047 := by
      intro h
      exact hones (BitVec.eq_of_toNat_eq h)
    split
    · split
      · trivial
      · rename_i hzero _
        rw [hzero, hbias]
        show (_ : Int) ≤ 971
        decide
    · rw [hbias]
      show (_ : Int) ≤ 971
      omega

/-! ## Packing -/

/-- What the three fields stand for. -/
private theorem unpack_packComponents (s : Sign) (e : BitVec 11) (m : BitVec 52) :
    UnpackedFloat.unpack .binary64 (packComponents .binary64 s e m) =
      if e = -1#11 then
        if m = 0#52 then .infinity s else .notANumber
      else if e = 0#11 then
        if h : m = 0#52 then .zero s
        else .finite s m.toNat (-1074) (Nat.pos_of_ne_zero (toNat_ne_zero h))
      else .finite s (1#1 ++ m).toNat (e.toNat - 1075) (by rw [toNat_one_append]; omega) := by
  unfold UnpackedFloat.unpack
  simp only [unpackMantissa_packComponents, unpackExponent_packComponents,
    unpackSign_packComponents, Sign.ofBitVec_toBitVec]
  by_cases hones : e = -1#11
  · rw [if_pos hones, if_pos hones]
  · rw [if_neg hones, if_neg hones]
    by_cases hzero : e = 0#11
    · rw [if_pos hzero, if_pos hzero]
      subst hzero
      rfl
    · rw [if_neg hzero, if_neg hzero]
      rfl

/-- The parts of a number that fits, in the fields. -/
private theorem pack_finite {s : Sign} {m : Nat} {e : Int} {hm : 0 < m} (he : e ≤ 971) :
    UnpackedFloat.pack .binary64 (.finite s m e hm) =
      if m.log2 + 1 = 53 then
        packComponents .binary64 s (BitVec.ofNat 11 (e + 1075).toNat) (BitVec.ofNat 52 m)
      else packComponents .binary64 s 0#11 (BitVec.ofNat 52 m) := by
  have hbias : e + (Format.binary64.exponentBias : Int) + (52 : Nat) = e + 1075 := by
    show e + (1023 : Nat) + (52 : Nat) = e + 1075
    omega
  unfold UnpackedFloat.pack
  simp only [hbias]
  rw [if_neg (by omega)]
  rfl

/-- What is left of the parts after they were packed into bits. -/
def repack (u : UnpackedFloat) : UnpackedFloat :=
  UnpackedFloat.unpack .binary64 (UnpackedFloat.pack .binary64 u)

@[simp] theorem repack_notANumber : repack .notANumber = .notANumber := rfl

@[simp] theorem repack_infinity (s : Sign) : repack (.infinity s) = .infinity s := by
  cases s <;> rfl

@[simp] theorem repack_zero (s : Sign) : repack (.zero s) = .zero s := by
  cases s <;> rfl

/-- The exponent field of a number that fits. -/
private theorem toNat_exponentField {e : Int} (hlow : -1074 ≤ e) (hhigh : e ≤ 971) :
    (BitVec.ofNat 11 (e + 1075).toNat).toNat = (e + 1075).toNat := by
  rw [BitVec.toNat_ofNat]
  exact Nat.mod_eq_of_lt (by omega)

/-- Canonical parts with an exponent of the format survive. -/
theorem repack_of_fits {u : UnpackedFloat} (hu : Canonical u) (hfits : Fits u) : repack u = u := by
  cases u with
  | notANumber => exact repack_notANumber
  | infinity s => exact repack_infinity s
  | zero s => exact repack_zero s
  | finite s m e hm =>
      obtain ⟨hbits, hlow, hnormal⟩ := hu
      have hhigh : e ≤ 971 := hfits
      have hfield := toNat_exponentField hlow hhigh
      have hones : BitVec.ofNat 11 (e + 1075).toNat ≠ -1#11 := by
        intro h
        have hvalue : (e + 1075).toNat = 2047 := hfield.symm.trans (congrArg BitVec.toNat h)
        omega
      unfold repack
      rw [pack_finite hhigh]
      by_cases hwide : 2 ^ 52 ≤ m
      · have hlog : m.log2 + 1 = 53 := by
          have := (Nat.log2_eq_iff (by omega)).2 ⟨hwide, hbits⟩
          omega
        have hnonzero : BitVec.ofNat 11 (e + 1075).toNat ≠ 0#11 := by
          intro h
          have hvalue : (e + 1075).toNat = 0 := hfield.symm.trans (congrArg BitVec.toNat h)
          omega
        have hmantissa : (1#1 ++ BitVec.ofNat 52 m).toNat = m := by
          rw [toNat_one_append, BitVec.toNat_ofNat]
          omega
        rw [if_pos hlog, unpack_packComponents, if_neg hones, if_neg hnonzero]
        simp only [hmantissa, hfield]
        congr 1
        omega
      · have hlog : m.log2 + 1 ≠ 53 := by
          have := (Nat.log2_lt (by omega)).2 (show m < 2 ^ 52 by omega)
          omega
        have hmantissa : (BitVec.ofNat 52 m).toNat = m := by
          rw [BitVec.toNat_ofNat]
          exact Nat.mod_eq_of_lt (by omega)
        have hnonzero : BitVec.ofNat 52 m ≠ 0#52 := by
          intro h
          have hvalue : m = 0 := hmantissa.symm.trans (congrArg BitVec.toNat h)
          omega
        rw [if_neg hlog, unpack_packComponents, if_neg (by decide), if_pos rfl, dif_neg hnonzero]
        simp only [hmantissa]
        congr 1
        exact (hnormal.resolve_left hwide).symm

/-- Above the greatest exponent an infinity comes out. -/
theorem repack_of_gt {s : Sign} {m : Nat} {e : Int} {hm : 0 < m} (h : 971 < e) :
    repack (.finite s m e hm) = .infinity s := by
  have hpack : UnpackedFloat.pack .binary64 (.finite s m e hm) =
      UnpackedFloat.pack .binary64 (.infinity s) := by
    unfold UnpackedFloat.pack
    simp only
    rw [if_pos]
    show 2048 ≤ (e + (1023 : Nat) + (52 : Nat)).toNat + 1
    omega
  unfold repack
  rw [hpack]
  exact repack_infinity s

end PolyRow.Double
