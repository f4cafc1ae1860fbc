import EspNowGateway.Foundations.ByteLayout

/-! Numbers as bytes of seven bits each, lowest first; the high bit says that more bytes follow.
A numeral is any such string, not only the shortest one for its value. -/
namespace Base128
open ByteLayout (Byte)

/-- The byte is not the last one. -/
def more (b : Byte) : Bool := 128 ≤ b.toNat

/-- The seven bits that count. -/
def digit (b : Byte) : Nat := b.toNat % 128

def value : List Byte → Nat
  | [] => 0
  | b :: bs => digit b + 128 * value bs

/-- Exactly the last byte ends the string. -/
def Numeral : List Byte → Prop
  | [] => False
  | b :: bs => if more b then Numeral bs else bs = []

instance decidableNumeral : (ds : List Byte) → Decidable (Numeral ds)
  | [] => isFalse id
  | b :: bs =>
    if h : more b then
      have := decidableNumeral bs
      decidable_of_iff (Numeral bs) (by rw [Numeral, if_pos h])
    else decidable_of_iff (bs = []) (by rw [Numeral, if_neg h])

/-- The numeral of `n` with at most the given number of digits. -/
def encode : Nat → Nat → List Byte
  | 0, _ => []
  | k+1, n => if n < 128 then [BitVec.ofNat 8 n] else BitVec.ofNat 8 (n % 128 + 128) :: encode k (n / 128)

/-- The numeral at the front of the bytes, if it ends within `k` of them. -/
def split : Nat → List Byte → Option (List Byte × List Byte)
  | 0, _ => none
  | _+1, [] => none
  | k+1, b :: bs => if more b then (split k bs).map fun r => (b :: r.1, r.2) else some ([b], bs)

private theorem toNat_ofNat {n : Nat} (h : n < 256) : (BitVec.ofNat 8 n).toNat = n := by
  rw [BitVec.toNat_ofNat, Nat.mod_eq_of_lt h]

theorem Numeral.ne_nil {ds : List Byte} (h : Numeral ds) : ds ≠ [] := by
  rintro rfl
  exact h

private theorem encode_small {n : Nat} (h : n < 128) (k : Nat) :
    Numeral (encode (k+1) n) ∧ value (encode (k+1) n) = n ∧ (encode (k+1) n).length = 1 := by
  have hbyte : (BitVec.ofNat 8 n).toNat = n := toNat_ofNat (by omega)
  have hlast : more (BitVec.ofNat 8 n) = false := by
    rw [more, hbyte]
    exact decide_eq_false (by omega)
  rw [encode, if_pos h]
  refine ⟨?_, ?_, rfl⟩
  · rw [Numeral, hlast]
    rfl
  · rw [value, digit, hbyte, value]
    omega

/-- The encoder writes numerals, and they have the encoded value. -/
theorem encode_spec (k n : Nat) (h : n < 128^(k+1)) :
    Numeral (encode (k+1) n) ∧ value (encode (k+1) n) = n ∧ (encode (k+1) n).length ≤ k+1 := by
  induction k generalizing n with
  | zero =>
    obtain ⟨hnum, hval, hlen⟩ := encode_small (by omega : n < 128) 0
    exact ⟨hnum, hval, hlen.le⟩
  | succ k ih =>
    by_cases hsmall : n < 128
    · obtain ⟨hnum, hval, hlen⟩ := encode_small hsmall (k+1)
      exact ⟨hnum, hval, by omega⟩
    · have hdiv : n / 128 < 128^(k+1) := by
        rw [Nat.pow_succ] at h
        exact (Nat.div_lt_iff_lt_mul (by decide)).mpr h
      obtain ⟨hnum, hval, hlen⟩ := ih (n / 128) hdiv
      have hbyte : (BitVec.ofNat 8 (n % 128 + 128)).toNat = n % 128 + 128 := toNat_ofNat (by omega)
      have hmore : more (BitVec.ofNat 8 (n % 128 + 128)) = true := by
        rw [more, hbyte]
        exact decide_eq_true (by omega)
      rw [encode, if_neg hsmall]
      refine ⟨?_, ?_, ?_⟩
      · rw [Numeral, if_pos hmore]
        exact hnum
      · rw [value, digit, hbyte, hval]
        omega
      · rw [List.length_cons]
        omega

/-- A place more than the number needs stays empty. -/
theorem encode_more {k n : Nat} (h : n < 128^(k+1)) : encode (k+2) n = encode (k+1) n := by
  induction k generalizing n with
  | zero =>
    have hsmall : n < 128 := by omega
    rw [encode, if_pos hsmall, encode, if_pos hsmall]
  | succ k ih =>
    have hdiv : n / 128 < 128^(k+1) := by
      rw [Nat.pow_succ] at h
      exact (Nat.div_lt_iff_lt_mul (by decide)).mpr h
    have hlonger : encode (k+3) n = if n < 128 then [BitVec.ofNat 8 n] else
        BitVec.ofNat 8 (n % 128 + 128) :: encode (k+2) (n / 128) := rfl
    rw [hlonger, ih hdiv]
    rfl

theorem encode_length_pos (k n : Nat) : 0 < (encode (k+1) n).length := by
  rw [encode]
  split <;> simp

/-- A numeral in front is split off whole. -/
theorem split_append {k : Nat} {ds : List Byte} (h : Numeral ds) (hk : ds.length ≤ k)
    (rest : List Byte) : split k (ds ++ rest) = some (ds, rest) := by
  induction ds generalizing k with
  | nil => exact absurd rfl h.ne_nil
  | cons b bs ih =>
    cases k with
    | zero => simp at hk
    | succ k =>
      rw [List.cons_append, split]
      rw [Numeral] at h
      split at h
      · rename_i hb
        rw [if_pos hb, ih h (by simpa using hk)]
        rfl
      · rename_i hb
        rw [if_neg hb, h]
        rfl

end Base128
