import Mathlib.Data.BitVec
import Mathlib.Logic.Equiv.Basic

/-! Fixed-width memory layouts. A layout of `α` on `n` bytes is an equivalence between the
values of `α` and all `n`-byte images, so a packed record has neither padding nor a trap
representation: every byte belongs to a field and every image is the image of one value. -/
namespace ByteLayout

abbrev Byte := BitVec 8

/-- The values of `α` stored in exactly `n` bytes of memory. -/
abbrev Layout (α : Type) (n : Nat) := α ≃ Vector Byte n

/-- The image of a value, one byte after the other. -/
def store {α : Type} {n : Nat} (l : Layout α n) (a : α) : Vector Byte n := l a

/-- The value an image stands for. -/
def load {α : Type} {n : Nat} (l : Layout α n) (image : Vector Byte n) : α := l.symm image

@[simp] theorem load_store {α : Type} {n : Nat} (l : Layout α n) (a : α) :
    load l (store l a) = a := l.symm_apply_apply a

@[simp] theorem store_load {α : Type} {n : Nat} (l : Layout α n) (image : Vector Byte n) :
    store l (load l image) = image := l.apply_symm_apply image

/-- A raw byte array is its own image. -/
def bytes (n : Nat) : Layout (Vector Byte n) n := Equiv.refl _

/-- Bit `j` of a little-endian word is bit `j % 8` of byte `j / 8`. -/
def fromBytes {k : Nat} (v : Vector Byte k) : BitVec (8*k) :=
  (BitVec.iunfoldr (fun (j : Fin (8*k)) (_ : Unit) => ((), v[j.val/8].getLsbD (j.val%8))) ()).2

theorem fromBytes_getLsbD {k : Nat} (v : Vector Byte k) (j : Nat) (hj : j < 8*k) :
    (fromBytes v).getLsbD j = v[j/8].getLsbD (j%8) :=
  BitVec.iunfoldr_getLsbD (fun _ => ()) ⟨j, hj⟩ (fun _ => rfl)

/-- Unsigned words, least significant byte first. -/
def word (k : Nat) : Layout (BitVec (8*k)) k where
  toFun x := Vector.ofFn fun i => x.extractLsb' (8*i.val) 8
  invFun := fromBytes
  left_inv x := by
    apply BitVec.eq_of_getLsbD_eq
    intro j hj
    have hm : j % 8 < 8 := Nat.mod_lt _ (by decide)
    rw [fromBytes_getLsbD _ j hj, Vector.getElem_ofFn, BitVec.getLsbD_extractLsb',
      decide_eq_true hm, Bool.true_and, Nat.div_add_mod]
  right_inv v := by
    apply Vector.ext
    intro i hi
    apply BitVec.eq_of_getLsbD_eq
    intro j hj
    have hd : (8*i + j) / 8 = i := by omega
    have hm : (8*i + j) % 8 = j := by omega
    rw [Vector.getElem_ofFn, BitVec.getLsbD_extractLsb', decide_eq_true hj, Bool.true_and,
      fromBytes_getLsbD _ _ (by omega)]
    simp only [hd, hm]

/-- One field directly followed by another. -/
def append {α β : Type} {m n : Nat} (l : Layout α m) (r : Layout β n) :
    Layout (α × β) (m+n) where
  toFun p := l p.1 ++ r p.2
  invFun v := (l.symm (Vector.ofFn fun i => v[i.val]), r.symm (Vector.ofFn fun i => v[m+i.val]))
  left_inv p := by
    have hl : (Vector.ofFn fun i : Fin m => (l p.1 ++ r p.2)[i.val]) = l p.1 := by
      apply Vector.ext
      intro i hi
      rw [Vector.getElem_ofFn, Vector.getElem_append_left]
    have hr : (Vector.ofFn fun i : Fin n => (l p.1 ++ r p.2)[m+i.val]) = r p.2 := by
      apply Vector.ext
      intro i hi
      rw [Vector.getElem_ofFn, Vector.getElem_append_right (by omega) (by omega)]
      simp only [Nat.add_sub_cancel_left]
    simp only [hl, hr, Equiv.symm_apply_apply]
  right_inv v := by
    apply Vector.ext
    intro i hi
    simp only [Equiv.apply_symm_apply, Vector.getElem_append, Vector.getElem_ofFn]
    split
    · rfl
    · congr 1
      omega

/-- The bytes of the `i`-th of `k` equal fields. -/
def field {k n : Nat} (v : Vector Byte (k*n)) (i : Fin k) : Vector Byte n :=
  Vector.ofFn fun j =>
    have hi : n*i.val + n ≤ k*n := by
      rw [← Nat.mul_succ, Nat.mul_comm k n]
      exact Nat.mul_le_mul_left n i.isLt
    v[n*i.val + j.val]

/-- `k` fields of one layout, in index order. -/
def array {α : Type} {n : Nat} (k : Nat) (l : Layout α n) : Layout (Vector α k) (k*n) where
  toFun xs := Vector.ofFn fun j =>
    have hj : j.val < n*k := Nat.lt_of_lt_of_eq j.isLt (Nat.mul_comm k n)
    have hn : 0 < n := Nat.pos_of_ne_zero (by rintro rfl; omega)
    have hd : j.val/n < k := Nat.div_lt_of_lt_mul hj
    have hm : j.val%n < n := Nat.mod_lt _ hn
    (l xs[j.val/n])[j.val%n]
  invFun v := Vector.ofFn fun i => l.symm (field v i)
  left_inv xs := by
    apply Vector.ext
    intro i hi
    rw [Vector.getElem_ofFn, Equiv.symm_apply_eq]
    apply Vector.ext
    intro j hj
    have hd : (n*i + j) / n = i := by
      rw [Nat.mul_add_div (by omega), Nat.div_eq_of_lt hj, Nat.add_zero]
    have hm : (n*i + j) % n = j := by rw [Nat.mul_add_mod, Nat.mod_eq_of_lt hj]
    simp only [field, Vector.getElem_ofFn, hd, hm]
  right_inv v := by
    apply Vector.ext
    intro j hj
    simp only [Vector.getElem_ofFn, Equiv.apply_symm_apply, field, Nat.div_add_mod]

theorem word_zero (k : Nat) : word k 0 = Vector.replicate k 0 := by
  apply Vector.ext
  intro i hi
  apply BitVec.eq_of_getLsbD_eq
  intro j hj
  change (Vector.ofFn fun i : Fin k => (0 : BitVec (8*k)).extractLsb' (8*i.val) 8)[i].getLsbD j = _
  simp

theorem append_replicate {α β : Type} {m n : Nat} (l : Layout α m) (r : Layout β n) {a : α} {b : β}
    {c : Byte} (ha : l a = Vector.replicate m c) (hb : r b = Vector.replicate n c) :
    append l r (a, b) = Vector.replicate (m+n) c := by
  change l a ++ r b = _
  rw [ha, hb]
  apply Vector.ext
  intro i hi
  simp

theorem array_replicate {α : Type} {n : Nat} (k : Nat) (l : Layout α n) {a : α} {c : Byte}
    (ha : l a = Vector.replicate n c) :
    array k l (Vector.replicate k a) = Vector.replicate (k*n) c := by
  apply Vector.ext
  intro i hi
  simp [array, ha]

end ByteLayout
