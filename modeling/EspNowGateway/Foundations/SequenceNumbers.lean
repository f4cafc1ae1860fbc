import Mathlib.Data.BitVec
import Mathlib.Data.List.Nodup

/-! Numbers that a wrapping counter puts on a stream of items, in a field that may be narrower
than the counter. While both wrap, the distance of two numbers is still the distance of their
items, modulo the field. -/
namespace SequenceNumbers

variable {v w : Nat} {c : BitVec w}

/-- The number of the `n`-th item behind the counter value `c`, in a field of `v` bits. -/
def stamp (v : Nat) (c : BitVec w) (n : Nat) : BitVec v := (c + BitVec.ofNat w n).setWidth v

/-- The numbers of a stream that began at the counter value `c`. -/
def Consecutive (c : BitVec w) (l : List (BitVec v)) : Prop :=
  ∀ n (h : n < l.length), l[n] = stamp v c n

/-- In a field that is not wider than the counter, the counter's own wrap does not show. -/
theorem stamp_eq_add (hv : v ≤ w) (c : BitVec w) (n : Nat) :
    stamp v c n = c.setWidth v + BitVec.ofNat v n := by
  rw [stamp, BitVec.setWidth_add _ _ hv, BitVec.setWidth_ofNat_of_le hv]

theorem stamp_succ (hv : v ≤ w) (c : BitVec w) (n : Nat) : stamp v c (n+1) = stamp v c n + 1 := by
  rw [stamp_eq_add hv, stamp_eq_add hv, BitVec.ofNat_add, BitVec.add_assoc]
  rfl

/-- The distance of two numbers is the distance of their items. -/
theorem stamp_sub (hv : v ≤ w) (c : BitVec w) {i j : Nat} (hij : i ≤ j) :
    (stamp v c j - stamp v c i).toNat = (j - i) % 2^v := by
  have hj : stamp v c j = BitVec.ofNat v (j - i) + stamp v c i := by
    have hn : BitVec.ofNat v j = BitVec.ofNat v i + BitVec.ofNat v (j - i) := by
      rw [← BitVec.ofNat_add, Nat.add_sub_cancel' hij]
    rw [stamp_eq_add hv, stamp_eq_add hv, hn, ← BitVec.add_assoc, BitVec.add_comm]
  rw [hj, BitVec.add_sub_cancel, BitVec.toNat_ofNat]

theorem stamp_ne (hv : v ≤ w) (c : BitVec w) {i j : Nat} (hij : i < j) (hlt : j - i < 2^v) :
    stamp v c i ≠ stamp v c j := by
  intro h
  have hd := stamp_sub hv c hij.le
  rw [h, BitVec.sub_self, BitVec.toNat_zero, Nat.mod_eq_of_lt hlt] at hd
  omega

namespace Consecutive
variable {l : List (BitVec v)}

theorem nil : Consecutive c ([] : List (BitVec v)) := fun _ h => absurd h (Nat.not_lt_zero _)

/-- The next item takes the next number. -/
theorem concat (h : Consecutive c l) : Consecutive c (l ++ [stamp v c l.length]) := by
  intro n hn
  rw [List.getElem_append]
  split
  · exact h n _
  · rename_i hlast
    have hlen : n = l.length := by simp at hn; omega
    simp [hlen]

theorem succ (h : Consecutive c l) (hv : v ≤ w) (n : Nat) (hn : n + 1 < l.length) :
    l[n+1] = l[n] + 1 := by
  rw [h _ hn, h n (Nat.lt_of_succ_lt hn), stamp_succ hv]

theorem sub (h : Consecutive c l) (hv : v ≤ w) {i j : Nat} (hij : i ≤ j) (hj : j < l.length) :
    (l[j] - l[i]).toNat = (j - i) % 2^v := by
  rw [h j hj, h i (lt_of_le_of_lt hij hj), stamp_sub hv c hij]

/-- As many items in a row as the field has values are told apart. -/
theorem nodup_window (h : Consecutive c l) (hv : v ≤ w) (k : Nat) :
    ((l.drop k).take (2^v)).Nodup := by
  rw [List.nodup_iff_pairwise_ne, List.pairwise_iff_getElem]
  intro i j hi hj hij
  rw [List.length_take] at hj
  rw [List.getElem_take, List.getElem_take, List.getElem_drop, List.getElem_drop, h, h]
  exact stamp_ne hv c (by omega) (by omega)

end Consecutive
end SequenceNumbers
