import EspNowGateway.Foundations.ByteLayout
import Mathlib.Data.List.GetD
import Mathlib.Data.List.TakeWhile

/-! C character arrays of a fixed size: filling, copying and reading as a string. An access
past the array is not defined here; a string that is not closed inside its array has no text. -/
namespace CArray
open ByteLayout (Byte)

variable {n : Nat}

/-- The bytes of an ASCII literal. -/
def ascii (s : String) : List Byte := s.toList.map fun c => BitVec.ofNat 8 c.toNat

/-- `memset(dst, c, k)`. -/
def memset (dst : Vector Byte n) (c : Byte) (k : Nat) : Vector Byte n :=
  Vector.ofFn fun i => if i.val < k then c else dst[i]

/-- `memcpy(dst, src, k)`; the byte after the text is the terminator of `c_str()`. -/
def memcpy (dst : Vector Byte n) (src : List Byte) (k : Nat) : Vector Byte n :=
  Vector.ofFn fun i => if i.val < k then src.getD i.val 0 else dst[i]

/-- The array is a C string: one of its own bytes is NUL. -/
def Closed (v : Vector Byte n) : Prop := (0 : Byte) ∈ v.toList

instance (v : Vector Byte n) : Decidable (Closed v) := inferInstanceAs (Decidable (_ ∈ _))

/-- Reading the array as a C string; `none` is a read past the array. -/
def text (v : Vector Byte n) : Option (List Byte) :=
  if Closed v then some (v.toList.takeWhile (· ≠ 0)) else none

/-- The array that starts with `t` and is zero behind it. -/
def padded (n : Nat) (t : List Byte) : Vector Byte n := Vector.ofFn fun i => t.getD i.val 0

@[simp] theorem getElem_memset (dst : Vector Byte n) (c : Byte) (k i : Nat) (h : i < n) :
    (memset dst c k)[i] = if i < k then c else dst[i] := by simp [memset]

@[simp] theorem getElem_memcpy (dst : Vector Byte n) (src : List Byte) (k i : Nat) (h : i < n) :
    (memcpy dst src k)[i] = if i < k then src.getD i 0 else dst[i] := by simp [memcpy]

@[simp] theorem getElem_padded (t : List Byte) (i : Nat) (h : i < n) :
    (padded n t)[i] = t.getD i 0 := by simp [padded]

/-- A `memset` over the whole array forgets what it held. -/
theorem memset_all (dst : Vector Byte n) (c : Byte) : memset dst c n = Vector.replicate n c := by
  apply Vector.ext
  intro i hi
  simp [hi]

theorem padded_nil : padded n [] = Vector.replicate n 0 := by
  apply Vector.ext
  intro i hi
  simp

/-- A copy over an array that is zero from `k` on leaves exactly the copied bytes. -/
theorem memcpy_of_zero_tail (dst : Vector Byte n) (src : List Byte) (k : Nat)
    (htail : ∀ i (h : i < n), k ≤ i → dst[i] = 0) :
    memcpy dst src k = padded n (src.take k) := by
  apply Vector.ext
  intro i hi
  rw [getElem_memcpy, getElem_padded]
  split
  · rename_i hk
    simp [hk]
  · rename_i hk
    rw [htail i hi (by omega), List.getD_eq_default _ _ (by simp; omega)]

theorem closed_iff (v : Vector Byte n) : Closed v ↔ ∃ i, ∃ h : i < n, v[i] = 0 := by
  simp only [Closed, Vector.mem_toList_iff, Vector.mem_iff_getElem]

theorem closed_of_zero (v : Vector Byte n) (i : Nat) (h : i < n) (hz : v[i] = 0) : Closed v :=
  (closed_iff v).mpr ⟨i, h, hz⟩

/-- A padded text that leaves room for its terminator is a C string. -/
theorem padded_closed (t : List Byte) (h : t.length < n) : Closed (padded n t) :=
  closed_of_zero _ t.length h (by simp)

theorem text_eq_some_iff_closed (v : Vector Byte n) : (∃ t, text v = some t) ↔ Closed v := by
  rw [text]
  split <;> simp_all

private theorem padded_toList (t : List Byte) (h : t.length ≤ n) :
    (padded n t).toList = t ++ List.replicate (n - t.length) 0 := by
  apply List.ext_getElem
  · simp; omega
  · intro i hi _
    rw [Vector.getElem_toList, getElem_padded, List.getElem_append]
    split
    · rename_i ht
      simp [ht]
    · rename_i ht
      rw [List.getD_eq_default _ _ (by omega), List.getElem_replicate]

/-- A text up to its first NUL, as C string functions see it. -/
def upToNul (t : List Byte) : List Byte := t.takeWhile (· ≠ 0)

private theorem ne_nul {t : List Byte} (hz : (0 : Byte) ∉ t) : ∀ b ∈ t, decide (b ≠ 0) = true := by
  intro b hb
  simp only [decide_eq_true_eq]
  rintro rfl
  exact hz hb

theorem upToNul_of_nulFree {t : List Byte} (hz : (0 : Byte) ∉ t) : upToNul t = t :=
  List.takeWhile_eq_self_iff.mpr (ne_nul hz)

/-- Reading back a stored text gives the text up to its first NUL. -/
theorem text_padded_upToNul (t : List Byte) (h : t.length < n) :
    text (padded n t) = some (upToNul t) := by
  have hrep : List.replicate (n - t.length) (0 : Byte) = 0 :: List.replicate (n - t.length - 1) 0 := by
    rw [← List.replicate_succ, Nat.sub_add_cancel (by omega)]
  rw [text, if_pos (padded_closed t h), padded_toList t (by omega), hrep, upToNul,
    List.takeWhile_append]
  split
  · rename_i hall
    rw [List.takeWhile_cons_of_neg (by simp), List.append_nil,
      (List.takeWhile_prefix _).eq_of_length hall]
  · rfl

/-- Reading back a stored NUL-free text gives the text. -/
theorem text_padded (t : List Byte) (h : t.length < n) (hz : (0 : Byte) ∉ t) :
    text (padded n t) = some t := by
  rw [text_padded_upToNul t h, upToNul_of_nulFree hz]

/-- An array that begins with a NUL-free text reads as that text exactly when the next byte
ends it. -/
theorem text_eq_iff (v : Vector Byte n) (t : List Byte) (ht : t.length < n) (hz : (0 : Byte) ∉ t)
    (hpre : ∀ i (h : i < t.length), v[i] = t[i]) : text v = some t ↔ v[t.length] = 0 := by
  have htake : v.toList.take t.length = t := by
    apply List.ext_getElem
    · simp; omega
    · intro i _ hi
      rw [List.getElem_take, Vector.getElem_toList, hpre i hi]
  have hdrop : v.toList.drop t.length = v[t.length] :: v.toList.drop (t.length + 1) := by
    rw [List.drop_eq_getElem_cons (by simpa using ht), Vector.getElem_toList]
  have hsplit : v.toList = t ++ v[t.length] :: v.toList.drop (t.length + 1) := by
    rw [← hdrop]
    conv_lhs => rw [← List.take_append_drop t.length v.toList, htake]
  have hread : v.toList.takeWhile (· ≠ 0) =
      t ++ (v[t.length] :: v.toList.drop (t.length + 1)).takeWhile (· ≠ 0) := by
    conv_lhs => rw [hsplit, List.takeWhile_append_of_pos (ne_nul hz)]
  constructor
  · intro h
    rw [text] at h
    split at h
    · by_contra hne
      rw [hread, List.takeWhile_cons_of_pos (by simpa using hne)] at h
      simp at h
    · cases h
  · intro hend
    rw [text, if_pos (closed_of_zero v t.length ht hend), hread,
      List.takeWhile_cons_of_neg (by simp [hend]), List.append_nil]

end CArray
