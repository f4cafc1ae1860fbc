import Mathlib.Data.BitVec
import Mathlib.Data.Nat.Log
import Mathlib.Order.Monotone.Basic
import Mathlib.Tactic.Ring

/-! Binary floating point formats as bit patterns: sign, biased exponent and fraction.
A finite value is an integer multiple of the least subnormal; comparison, rounding and the
conversions are computed on that integer, so they are exact and can be evaluated. -/
namespace BinaryFloat

structure Format where
  expBits : Nat
  fracBits : Nat
  deriving DecidableEq

namespace Format

abbrev width (f : Format) : Nat := 1 + f.expBits + f.fracBits

/-- Bits below the sign. -/
abbrev payloadBits (f : Format) : Nat := f.expBits + f.fracBits

/-- The payload of infinity: all exponent bits set, fraction zero. -/
def infPayload (f : Format) : Nat := (2^f.expBits - 1) * 2^f.fracBits

/-- The number one is `2 ^ oneExp` least subnormals. -/
def oneExp (f : Format) : Nat := 2^(f.expBits - 1) - 2 + f.fracBits

/-- A payload in units of the least subnormal. Infinity gets the first value past the
finite range, so that it compares above every finite value. -/
def magnitudeOf (f : Format) (payload : Nat) : Nat :=
  if payload / 2^f.fracBits = 0 then payload % 2^f.fracBits
  else (2^f.fracBits + payload % 2^f.fracBits) * 2^(payload / 2^f.fracBits - 1)

theorem magnitudeOf_lt_succ (f : Format) (n : Nat) : f.magnitudeOf n < f.magnitudeOf (n+1) := by
  have hp : 0 < 2^f.fracBits := Nat.two_pow_pos _
  have hF := Nat.mod_lt n hp
  have hn := Nat.div_add_mod n (2^f.fracBits)
  generalize hE : n / 2^f.fracBits = E at hn
  generalize hR : n % 2^f.fracBits = F at hn hF
  rw [magnitudeOf, magnitudeOf, hE, hR]
  by_cases hlast : F + 1 < 2^f.fracBits
  · have hd : (n+1) / 2^f.fracBits = E := by
      rw [← hn, Nat.add_assoc, Nat.mul_add_div hp, Nat.div_eq_of_lt hlast, Nat.add_zero]
    have hm : (n+1) % 2^f.fracBits = F + 1 := by
      rw [← hn, Nat.add_assoc, Nat.mul_add_mod, Nat.mod_eq_of_lt hlast]
    rw [hd, hm]
    split
    · omega
    · exact Nat.mul_lt_mul_of_pos_right (by omega) (Nat.two_pow_pos _)
  · have hs : n + 1 = 2^f.fracBits * (E+1) := by
      have := Nat.mul_add_one (2^f.fracBits) E
      omega
    have hd : (n+1) / 2^f.fracBits = E + 1 := by rw [hs, Nat.mul_div_cancel_left _ hp]
    have hm : (n+1) % 2^f.fracBits = 0 := by rw [hs, Nat.mul_mod_right]
    rw [hd, hm, if_neg (Nat.succ_ne_zero E), Nat.add_sub_cancel]
    cases E with
    | zero => simpa using hF
    | succ E =>
      rw [if_neg (Nat.succ_ne_zero E), Nat.add_sub_cancel]
      calc (2^f.fracBits + F) * 2^E < (2 * 2^f.fracBits) * 2^E :=
            Nat.mul_lt_mul_of_pos_right (by omega) (Nat.two_pow_pos _)
        _ = (2^f.fracBits + 0) * 2^(E+1) := by ring

/-- Larger payloads are larger numbers. -/
theorem magnitudeOf_strictMono (f : Format) : StrictMono f.magnitudeOf :=
  strictMono_nat_of_lt_succ f.magnitudeOf_lt_succ

end Format

def binary32 : Format := ⟨8, 23⟩
def binary64 : Format := ⟨11, 52⟩

/-- One bit pattern of the format. -/
structure Binary (f : Format) where
  bits : BitVec f.width
  deriving DecidableEq

namespace Binary
variable {f g : Format}

def sign (x : Binary f) : Bool := x.bits.msb

def payload (x : Binary f) : Nat := x.bits.toNat % 2^f.payloadBits

def magnitude (x : Binary f) : Nat := f.magnitudeOf x.payload

/-- The value in least subnormals. -/
def scaled (x : Binary f) : Int := if x.sign then -(x.magnitude : Int) else x.magnitude

def IsNaN (x : Binary f) : Prop := f.infPayload < x.payload

def IsInf (x : Binary f) : Prop := x.payload = f.infPayload

def IsZero (x : Binary f) : Prop := x.payload = 0

instance (x : Binary f) : Decidable x.IsNaN := inferInstanceAs (Decidable (_ < _))
instance (x : Binary f) : Decidable x.IsInf := inferInstanceAs (Decidable (_ = _))
instance (x : Binary f) : Decidable x.IsZero := inferInstanceAs (Decidable (_ = _))

/-- The language's `x < y`: false as soon as one side is a NaN. -/
def Lt (x y : Binary f) : Prop := ¬ x.IsNaN ∧ ¬ y.IsNaN ∧ x.scaled < y.scaled

/-- The language's `x <= y`. -/
def Le (x y : Binary f) : Prop := ¬ x.IsNaN ∧ ¬ y.IsNaN ∧ x.scaled ≤ y.scaled

/-- The language's `x == y`: a NaN equals nothing, the two zeros are equal. -/
def Same (x y : Binary f) : Prop := ¬ x.IsNaN ∧ ¬ y.IsNaN ∧ x.scaled = y.scaled

instance (x y : Binary f) : Decidable (x.Lt y) := inferInstanceAs (Decidable (_ ∧ _ ∧ _))
instance (x y : Binary f) : Decidable (x.Le y) := inferInstanceAs (Decidable (_ ∧ _ ∧ _))
instance (x y : Binary f) : Decidable (x.Same y) := inferInstanceAs (Decidable (_ ∧ _ ∧ _))

theorem Lt.trans {x y z : Binary f} (hxy : x.Lt y) (hyz : y.Lt z) : x.Lt z :=
  ⟨hxy.1, hyz.2.1, hxy.2.2.trans hyz.2.2⟩

theorem Lt.trans_le {x y z : Binary f} (hxy : x.Lt y) (hyz : y.Le z) : x.Lt z :=
  ⟨hxy.1, hyz.2.1, lt_of_lt_of_le hxy.2.2 hyz.2.2⟩

theorem Lt.not_lt {x y : Binary f} (h : x.Lt y) : ¬ y.Lt x := fun h' => lt_asymm h.2.2 h'.2.2

/-- A strict order on all bit patterns; a NaN is not comparable to anything. -/
instance : IsStrictOrder (Binary f) Binary.Lt where
  irrefl _ h := lt_irrefl _ h.2.2
  trans _ _ _ hxy hyz := hxy.trans hyz

/-- Numbers are ordered totally. -/
theorem le_of_not_lt {x y : Binary f} (hx : ¬ x.IsNaN) (hy : ¬ y.IsNaN) (h : ¬ y.Lt x) : x.Le y :=
  ⟨hx, hy, Int.not_lt.mp fun hlt => h ⟨hy, hx, hlt⟩⟩

private theorem toNat_eq (x : Binary f) :
    x.bits.toNat = (if x.sign then 2^f.payloadBits else 0) + x.payload := by
  have hw : f.width = f.payloadBits + 1 := by simp only [Format.width, Format.payloadBits]; omega
  have hlt : x.bits.toNat < 2^f.payloadBits * 2 := by
    rw [← pow_succ, ← hw]
    exact x.bits.isLt
  have hs : x.sign = decide (2^f.payloadBits ≤ x.bits.toNat) := by
    have hp : f.width - 1 = f.payloadBits := by omega
    rw [sign, BitVec.msb_eq_decide, hp]
  rw [hs, payload]
  by_cases h : 2^f.payloadBits ≤ x.bits.toNat
  · have hm : x.bits.toNat % 2^f.payloadBits = x.bits.toNat - 2^f.payloadBits := by
      rw [Nat.mod_eq_sub_mod h, Nat.mod_eq_of_lt (by omega)]
    simp only [h, decide_true, if_true, hm]
    omega
  · simp only [h, decide_false, Bool.false_eq_true, if_false, Nat.zero_add]
    exact (Nat.mod_eq_of_lt (by omega)).symm

/-- Sign and payload determine the pattern. -/
theorem ext_of_sign_payload {x y : Binary f} (hs : x.sign = y.sign) (hp : x.payload = y.payload) :
    x = y := by
  obtain ⟨a⟩ := x
  obtain ⟨b⟩ := y
  congr 1
  apply BitVec.eq_of_toNat_eq
  have hx := toNat_eq (f := f) ⟨a⟩
  have hy := toNat_eq (f := f) ⟨b⟩
  simp only at hx hy
  rw [hx, hy, hs, hp]

/-- Away from zero and NaN, `==` compares bit patterns. -/
theorem same_iff_eq {x y : Binary f} (hy : ¬ y.IsNaN) (hz : y.scaled ≠ 0) : x.Same y ↔ x = y := by
  constructor
  · rintro ⟨_, _, he⟩
    have hm : x.magnitude = y.magnitude ∧ x.sign = y.sign := by
      rw [scaled, scaled] at he
      rw [scaled] at hz
      cases hsx : x.sign <;> cases hsy : y.sign <;> simp [hsx, hsy] at he hz ⊢ <;> omega
    exact ext_of_sign_payload hm.2 (f.magnitudeOf_strictMono.injective hm.1)
  · rintro rfl
    exact ⟨hy, hy, rfl⟩

/-- The pattern with the given sign and payload. -/
def ofParts (f : Format) (negative : Bool) (payload : Nat) : Binary f :=
  ⟨BitVec.ofNat f.width ((if negative then 2^f.payloadBits else 0) + payload)⟩

/-- The quiet NaN. -/
def nan (f : Format) : Binary f := ofParts f false (f.infPayload + 2^(f.fracBits - 1))

/-- `n / d` to the nearest integer, ties to even. -/
def divRoundEven (n d : Nat) : Nat :=
  if 2 * (n % d) < d then n / d
  else if d < 2 * (n % d) then n / d + 1
  else n / d + n / d % 2

/-- The payload nearest to `n / d` least subnormals, ties to even, overflowing to infinity. -/
def roundPayload (f : Format) (n d : Nat) : Nat :=
  let shift := (n / d).log2 - f.fracBits
  min (shift * 2^f.fracBits + divRoundEven n (d * 2^shift)) f.infPayload

/-- Conversion of an integer. -/
def ofInt (f : Format) (z : Int) : Binary f :=
  ofParts f (decide (z < 0)) (roundPayload f (z.natAbs * 2^f.oneExp) 1)

def ofNat (f : Format) (n : Nat) : Binary f := ofInt f n

/-- Division, correctly rounded. -/
def div (x y : Binary f) : Binary f :=
  if x.IsNaN ∨ y.IsNaN ∨ (x.IsInf ∧ y.IsInf) ∨ (x.IsZero ∧ y.IsZero) then nan f
  else if x.IsInf ∨ y.IsZero then ofParts f (x.sign != y.sign) f.infPayload
  else if y.IsInf then ofParts f (x.sign != y.sign) 0
  else ofParts f (x.sign != y.sign) (roundPayload f (x.magnitude * 2^f.oneExp) y.magnitude)

/-- Conversion to another format, correctly rounded. -/
def convert (g : Format) (x : Binary f) : Binary g :=
  if x.IsNaN then nan g
  else if x.IsInf then ofParts g x.sign g.infPayload
  else ofParts g x.sign (roundPayload g (x.magnitude * 2^g.oneExp) (2^f.oneExp))

/-- Truncation of a finite value toward zero; the language leaves the others undefined. -/
def truncate (x : Binary f) : Int :=
  if x.sign then -((x.magnitude / 2^f.oneExp : Nat) : Int) else (x.magnitude / 2^f.oneExp : Nat)

end Binary
end BinaryFloat
