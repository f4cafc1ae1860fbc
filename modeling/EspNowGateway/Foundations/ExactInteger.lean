import EspNowGateway.Foundations.BinaryFloat

/-! Integers that a binary format holds exactly: those with no more digits than its significand. Their
conversion to another format rounds once, as if it had been made from the integer. -/
namespace BinaryFloat

/-- All integers with no more digits than the significand are in the finite range. -/
structure Format.Roomy (f : Format) : Prop where
  expBits : 2 ≤ f.expBits
  fracBits : f.fracBits < 2^(f.expBits - 1)

theorem binary32_roomy : binary32.Roomy := ⟨by decide, by decide⟩

theorem binary64_roomy : binary64.Roomy := ⟨by decide, by decide⟩

theorem Format.infPayload_lt (f : Format) : f.infPayload < 2^f.payloadBits := by
  rw [Format.infPayload, Format.payloadBits, Nat.pow_add]
  exact Nat.mul_lt_mul_of_pos_right (Nat.sub_lt (Nat.two_pow_pos _) Nat.one_pos) (Nat.two_pow_pos _)

/-- The payload of a full significand. -/
theorem Format.magnitudeOf_full (f : Format) {k s : Nat} (hlow : 2^f.fracBits ≤ k)
    (hhigh : k < 2^(f.fracBits + 1)) : f.magnitudeOf (s * 2^f.fracBits + k) = k * 2^s := by
  rw [Nat.pow_succ] at hhigh
  obtain ⟨r, rfl⟩ := Nat.exists_eq_add_of_le hlow
  have hr : r < 2^f.fracBits := by omega
  have hsplit : s * 2^f.fracBits + (2^f.fracBits + r) = 2^f.fracBits * (s+1) + r := by ring
  have hdiv : (2^f.fracBits * (s+1) + r) / 2^f.fracBits = s + 1 := by
    rw [Nat.mul_add_div (Nat.two_pow_pos _), Nat.div_eq_of_lt hr, Nat.add_zero]
  rw [hsplit, magnitudeOf, hdiv, if_neg (Nat.succ_ne_zero s), Nat.mul_add_mod, Nat.mod_eq_of_lt hr,
    Nat.add_sub_cancel]

namespace Binary
variable {f g : Format}

theorem divRoundEven_mul_right (n d : Nat) {c : Nat} (hc : 0 < c) :
    divRoundEven (n * c) (d * c) = divRoundEven n d := by
  have hmod : 2 * (n * c % (d * c)) = 2 * (n % d) * c := by rw [Nat.mul_mod_mul_right, Nat.mul_assoc]
  simp only [divRoundEven, hmod, Nat.mul_div_mul_right _ _ hc, Nat.mul_lt_mul_right hc]

theorem divRoundEven_exact (k : Nat) {d : Nat} (hd : 0 < d) : divRoundEven (k * d) d = k := by
  rw [divRoundEven, Nat.mul_mod_left, Nat.mul_zero, if_pos hd, Nat.mul_div_cancel _ hd]

/-- A quotient without a remainder is rounded as the integer that it is. -/
theorem roundPayload_mul_right (n : Nat) {d : Nat} (hd : 0 < d) :
    roundPayload f (n * d) d = roundPayload f n 1 := by
  have hround (shift : Nat) : divRoundEven (n * d) (d * 2^shift) = divRoundEven n (1 * 2^shift) := by
    rw [Nat.mul_comm d, divRoundEven_mul_right _ _ hd, Nat.one_mul]
  simp only [roundPayload, Nat.mul_div_cancel _ hd, Nat.div_one, hround]

/-- Nothing is rounded in a full significand. -/
theorem roundPayload_full {k s : Nat} (hlow : 2^f.fracBits ≤ k) (hhigh : k < 2^(f.fracBits + 1)) :
    roundPayload f (k * 2^s) 1 = min (s * 2^f.fracBits + k) f.infPayload := by
  have hne : k * 2^s ≠ 0 :=
    Nat.mul_ne_zero ((Nat.two_pow_pos _).trans_le hlow).ne' (Nat.two_pow_pos s).ne'
  have hlog : (k * 2^s).log2 = f.fracBits + s := by
    rw [Nat.log2_eq_iff hne, Nat.pow_add]
    refine ⟨Nat.mul_le_mul_right _ hlow, ?_⟩
    rw [Nat.add_right_comm, Nat.pow_add]
    exact Nat.mul_lt_mul_of_pos_right hhigh (Nat.two_pow_pos s)
  simp only [roundPayload, Nat.div_one, hlog, Nat.add_sub_cancel_left, Nat.one_mul,
    divRoundEven_exact _ (Nat.two_pow_pos s)]

@[simp] theorem payload_ofParts (negative : Bool) {p : Nat} (h : p < 2^f.payloadBits) :
    (ofParts f negative p).payload = p := by
  have hw : f.width = f.payloadBits + 1 := by
    simp only [Format.width, Format.payloadBits]
    omega
  have hmod (n : Nat) : n % 2^f.width % 2^f.payloadBits = n % 2^f.payloadBits :=
    Nat.mod_mod_of_dvd n (Nat.pow_dvd_pow 2 (hw ▸ Nat.le_succ _))
  rw [payload, ofParts, BitVec.toNat_ofNat, hmod]
  cases negative
  · rw [if_neg Bool.false_ne_true, Nat.zero_add, Nat.mod_eq_of_lt h]
  · rw [if_pos rfl, Nat.add_mod_left, Nat.mod_eq_of_lt h]

/-- An integer with no more digits than the significand, written with a full one. -/
theorem exists_full (hf : f.Roomy) {n : Nat} (hpos : n ≠ 0) (hn : n < 2^(f.fracBits + 1)) :
    ∃ k s, n * 2^f.oneExp = k * 2^s ∧ 2^f.fracBits ≤ k ∧ k < 2^(f.fracBits + 1) ∧
      s * 2^f.fracBits + k < f.infPayload := by
  obtain ⟨hlow, hhigh⟩ := (Nat.log2_eq_iff hpos).mp rfl
  have hlog : n.log2 ≤ f.fracBits := Nat.lt_succ_iff.mp ((Nat.log2_lt hpos).mpr hn)
  obtain ⟨gap, hgap⟩ := Nat.exists_eq_add_of_le hlog
  have hhalf : 2 ≤ 2^(f.expBits - 1) := Nat.le_self_pow (by have := hf.expBits; omega) 2
  have hwhole : 2^f.expBits = 2^(f.expBits - 1) * 2 := by
    rw [← Nat.pow_succ, Nat.succ_eq_add_one, Nat.sub_add_cancel (Nat.le_of_succ_le hf.expBits)]
  have hroom := hf.fracBits
  have hone : gap ≤ f.oneExp := by
    rw [Format.oneExp]
    omega
  have hk : n * 2^gap < 2^(f.fracBits + 1) := by
    rw [hgap, Nat.add_right_comm, Nat.pow_add]
    exact Nat.mul_lt_mul_of_pos_right hhigh (Nat.two_pow_pos gap)
  refine ⟨n * 2^gap, f.oneExp - gap, ?_, ?_, hk, ?_⟩
  · rw [Nat.mul_assoc, ← Nat.pow_add, Nat.add_sub_cancel' hone]
  · rw [hgap, Nat.pow_add]
    exact Nat.mul_le_mul_right _ hlow
  · -- the exponent stays two below the one of infinity
    have hs : f.oneExp - gap + 2 ≤ 2^f.expBits - 1 := by
      rw [Format.oneExp]
      omega
    calc (f.oneExp - gap) * 2^f.fracBits + n * 2^gap
        < (f.oneExp - gap) * 2^f.fracBits + 2^(f.fracBits + 1) := Nat.add_lt_add_left hk _
      _ = (f.oneExp - gap + 2) * 2^f.fracBits := by ring
      _ ≤ f.infPayload := Nat.mul_le_mul_right _ hs

/-- Its payload is finite and stands for the integer itself. -/
theorem roundPayload_exact (hf : f.Roomy) {n : Nat} (hn : n < 2^(f.fracBits + 1)) :
    roundPayload f (n * 2^f.oneExp) 1 < f.infPayload ∧
      f.magnitudeOf (roundPayload f (n * 2^f.oneExp) 1) = n * 2^f.oneExp := by
  rcases Nat.eq_zero_or_pos n with rfl | hpos
  · obtain ⟨_, _, _, _, _, hinf⟩ := exists_full hf Nat.one_ne_zero
      (Nat.one_lt_two_pow (Nat.succ_ne_zero f.fracBits))
    have hzero : roundPayload f (0 * 2^f.oneExp) 1 = 0 := by
      simp [roundPayload, divRoundEven, Nat.log2_zero]
    rw [hzero, Nat.zero_mul, Format.magnitudeOf, Nat.zero_div, if_pos rfl, Nat.zero_mod]
    exact ⟨(Nat.zero_le _).trans_lt hinf, rfl⟩
  · obtain ⟨k, s, hsplit, hlow, hhigh, hinf⟩ := exists_full hf hpos.ne' hn
    rw [hsplit, roundPayload_full hlow hhigh, Nat.min_eq_left hinf.le]
    exact ⟨hinf, f.magnitudeOf_full hlow hhigh⟩

theorem sign_ofParts_false {p : Nat} (h : p < 2^f.payloadBits) : (ofParts f false p).sign = false := by
  have hw : f.width = f.payloadBits + 1 := by
    simp only [Format.width, Format.payloadBits]
    omega
  have hlt : p < 2^f.width := h.trans (Nat.pow_lt_pow_right Nat.one_lt_two (hw ▸ Nat.lt_succ_self _))
  rw [sign, ofParts, BitVec.msb_eq_decide, if_neg Bool.false_ne_true, Nat.zero_add, BitVec.toNat_ofNat,
    Nat.mod_eq_of_lt hlt, hw, Nat.add_sub_cancel]
  exact decide_eq_false (Nat.not_le.mpr h)

private theorem ofNat_eq (f : Format) (n : Nat) :
    ofNat f n = ofParts f false (roundPayload f (n * 2^f.oneExp) 1) := by
  rw [ofNat, ofInt, Int.natAbs_natCast, decide_eq_false (Int.not_lt.mpr (Int.natCast_nonneg n))]

/-- The conversion of an integer that fits is a positive finite number of the same value. -/
theorem ofNat_exact (hf : f.Roomy) {n : Nat} (hn : n < 2^(f.fracBits + 1)) :
    (ofNat f n).sign = false ∧ (ofNat f n).payload < f.infPayload ∧
      (ofNat f n).magnitude = n * 2^f.oneExp := by
  obtain ⟨hinf, hvalue⟩ := roundPayload_exact hf hn
  have hlt := hinf.trans f.infPayload_lt
  rw [ofNat_eq, magnitude, sign_ofParts_false hlt, payload_ofParts false hlt]
  exact ⟨rfl, hinf, hvalue⟩

theorem ofNat_scaled (hf : f.Roomy) {n : Nat} (hn : n < 2^(f.fracBits + 1)) :
    (ofNat f n).scaled = n * 2^f.oneExp := by
  obtain ⟨hsign, _, hvalue⟩ := ofNat_exact hf hn
  rw [scaled, hsign, hvalue, if_neg Bool.false_ne_true]
  push_cast
  rfl

/-- An integer that fits the first format is rounded once, by the second. -/
theorem convert_ofNat (hf : f.Roomy) (g : Format) {n : Nat} (hn : n < 2^(f.fracBits + 1)) :
    (ofNat f n).convert g = ofNat g n := by
  obtain ⟨hsign, hinf, hvalue⟩ := ofNat_exact hf hn
  have hnan : ¬ (ofNat f n).IsNaN := Nat.not_lt.mpr hinf.le
  have hfin : ¬ (ofNat f n).IsInf := hinf.ne
  rw [convert, if_neg hnan, if_neg hfin, hsign, hvalue, Nat.mul_right_comm,
    roundPayload_mul_right _ (Nat.two_pow_pos _), ofNat_eq]

end Binary
end BinaryFloat
