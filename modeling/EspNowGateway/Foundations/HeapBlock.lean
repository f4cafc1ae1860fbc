import Mathlib.Data.Vector.Basic
import Mathlib.Data.List.Basic

/-! A block of memory of a fixed size. A read or a write past its end is not defined, so a
function that ends has stayed inside; what a block holds at a place is an assertion of its own,
which writes elsewhere leave alone. -/
namespace HeapBlock

variable {α : Type} {n : Nat}

/-- Reading `block[i]`. -/
def load (block : Vector α n) (i : Nat) : Option α := block[i]?

/-- `block[i] = a`. -/
def store (block : Vector α n) (i : Nat) (a : α) : Option (Vector α n) :=
  if h : i < n then some (block.set i a) else none

/-- Consecutive stores from `i` on. -/
def storeAll : List α → Nat → Vector α n → Option (Vector α n)
  | [], _, block => some block
  | a :: as, i, block => (store block i a).bind (storeAll as (i+1))

/-- The `k` entries from `i` on. -/
def slice (block : Vector α n) (i k : Nat) : Option (List α) :=
  if i + k ≤ n then some ((block.toList.drop i).take k) else none

/-- The block holds `as` from place `i` on. -/
def Holds (block : Vector α n) (i : Nat) (as : List α) : Prop :=
  ∀ k (h : k < as.length), block[i+k]? = some as[k]

theorem Holds.nil (block : Vector α n) (i : Nat) : Holds block i [] :=
  fun _ h => absurd h (Nat.not_lt_zero _)

theorem Holds.load {block : Vector α n} {i : Nat} {a : α} {as : List α}
    (h : Holds block i (a :: as)) : load block i = some a := h 0 (Nat.zero_lt_succ _)

theorem Holds.move {block : Vector α n} {i j : Nat} {as : List α} (h : Holds block i as)
    (hij : i = j) : Holds block j as := hij ▸ h

theorem Holds.drop {block : Vector α n} {i : Nat} {as : List α} (h : Holds block i as) (k : Nat) :
    Holds block (i + k) (as.drop k) := by
  intro j hj
  rw [List.length_drop] at hj
  rw [List.getElem_drop, Nat.add_assoc]
  exact h (k + j) (by omega)

theorem holds_append_iff {block : Vector α n} {i : Nat} {s t : List α} :
    Holds block i (s ++ t) ↔ Holds block i s ∧ Holds block (i + s.length) t := by
  constructor
  · intro h
    refine ⟨fun k hk => ?_, fun k hk => ?_⟩
    · have hlt : k < (s ++ t).length := by
        rw [List.length_append]
        omega
      rw [h k hlt, List.getElem_append_left hk]
    · have hlt : s.length + k < (s ++ t).length := by
        rw [List.length_append]
        omega
      rw [Nat.add_assoc, h _ hlt, List.getElem_append_right (Nat.le_add_right _ _)]
      simp only [Nat.add_sub_cancel_left]
  · rintro ⟨hs, ht⟩ k hk
    rw [List.getElem_append]
    split
    · rename_i hlt
      exact hs k hlt
    · rename_i hge
      rw [List.length_append] at hk
      have h := ht (k - s.length) (by omega)
      rwa [Nat.add_assoc, Nat.add_sub_cancel' (by omega)] at h

/-- Reading where the contents are known. -/
theorem Holds.slice {block : Vector α n} {i : Nat} {as : List α} (h : Holds block i as)
    (hi : i + as.length ≤ n) : slice block i as.length = some as := by
  rw [HeapBlock.slice, if_pos hi]
  congr 1
  apply List.ext_getElem
  · simp
    omega
  · intro k _ hk
    have hget := h k hk
    rw [Vector.getElem?_eq_getElem (by omega)] at hget
    rw [List.getElem_take, List.getElem_drop, Vector.getElem_toList]
    exact Option.some.inj hget

/-- A block begins with what it holds. -/
theorem Holds.toList {block : Vector α n} {as : List α} (h : Holds block 0 as) (hn : as.length ≤ n) :
    block.toList = as ++ block.toList.drop as.length := by
  have hslice := h.slice (by rwa [Nat.zero_add])
  rw [HeapBlock.slice, if_pos (by rwa [Nat.zero_add]), List.drop_zero] at hslice
  exact (List.take_append_drop as.length _).symm.trans (congrArg (· ++ _) (Option.some.inj hslice))

/-- From place `k` on, nothing has been written. -/
def Kept (k : Nat) (block block' : Vector α n) : Prop := ∀ j, k ≤ j → block'[j]? = block[j]?

theorem Kept.refl (k : Nat) (block : Vector α n) : Kept k block block := fun _ _ => rfl

theorem Kept.trans {k : Nat} {block block' block'' : Vector α n} (h : Kept k block block')
    (h' : Kept k block' block'') : Kept k block block'' :=
  fun j hj => (h' j hj).trans (h j hj)

theorem Kept.mono {k l : Nat} {block block' : Vector α n} (h : Kept k block block') (hkl : k ≤ l) :
    Kept l block block' := fun j hj => h j (Nat.le_trans hkl hj)

theorem Kept.drop {k : Nat} {block block' : Vector α n} (h : Kept k block block') :
    block'.toList.drop k = block.toList.drop k := by
  apply List.ext_getElem?
  intro i
  rw [List.getElem?_drop, List.getElem?_drop, Vector.getElem?_toList, Vector.getElem?_toList]
  exact h (k + i) (Nat.le_add_right k i)

theorem store_isSome_iff (block : Vector α n) (i : Nat) (a : α) :
    (∃ block', store block i a = some block') ↔ i < n := by
  rw [store]
  split <;> simp_all

theorem store_eq {block : Vector α n} {i : Nat} (hi : i < n) (a : α) :
    store block i a = some (block.set i a) := dif_pos hi

/-- A store changes its own place only. -/
theorem store_getElem? {block block' : Vector α n} {i : Nat} {a : α}
    (h : store block i a = some block') (j : Nat) :
    block'[j]? = if i = j then some a else block[j]? := by
  rw [store] at h
  split at h
  · rename_i hi
    rw [← Option.some.inj h, Vector.getElem?_set hi]
  · cases h

theorem store_holds {block block' : Vector α n} {i : Nat} {a : α}
    (h : store block i a = some block') : Holds block' i [a] := by
  intro k hk
  obtain rfl : k = 0 := by simpa using hk
  rw [store_getElem? h, if_pos (Nat.add_zero i).symm]
  rfl

/-- What lies elsewhere stays. -/
theorem store_frame {block block' : Vector α n} {i : Nat} {a : α}
    (h : store block i a = some block') {j : Nat} {as : List α} (hold : Holds block j as)
    (hdisj : i < j ∨ j + as.length ≤ i) : Holds block' j as := by
  intro k hk
  rw [store_getElem? h, if_neg (by omega)]
  exact hold k hk

theorem store_kept {block block' : Vector α n} {i k : Nat} {a : α}
    (h : store block i a = some block') (hik : i < k) : Kept k block block' := by
  intro j hj
  rw [store_getElem? h, if_neg (by omega)]

theorem storeAll_isSome_iff (as : List α) (i : Nat) (block : Vector α n) :
    (∃ block', storeAll as i block = some block') ↔ as = [] ∨ i + as.length ≤ n := by
  induction as generalizing i block with
  | nil => simp [storeAll]
  | cons a as ih =>
    rw [storeAll]
    by_cases hi : i < n
    · rw [store_eq hi, Option.bind_some, ih]
      cases as with
      | nil => simp; omega
      | cons b as => simp; omega
    · have hnone : store block i a = none := dif_neg hi
      simp [hnone]
      omega

/-- Consecutive stores change their own places only. -/
theorem storeAll_getElem? {as : List α} {i : Nat} {block block' : Vector α n}
    (h : storeAll as i block = some block') (j : Nat) :
    block'[j]? = if i ≤ j ∧ j < i + as.length then as[j - i]? else block[j]? := by
  induction as generalizing i block with
  | nil =>
    obtain rfl := Option.some.inj h
    rw [if_neg (by simp)]
  | cons a as ih =>
    obtain ⟨mid, hmid, hrest⟩ := Option.bind_eq_some_iff.mp h
    rw [ih hrest, store_getElem? hmid, List.length_cons]
    rcases Nat.lt_trichotomy j i with hlt | rfl | hgt
    · rw [if_neg (by omega), if_neg (by omega), if_neg (by omega)]
    · rw [if_neg (by omega), if_pos rfl, if_pos (by omega), Nat.sub_self]
      rfl
    · rw [if_neg (by omega : ¬ i = j)]
      have hsub : j - i = j - (i + 1) + 1 := by omega
      rw [hsub, List.getElem?_cons_succ]
      by_cases hin : j < i + (as.length + 1)
      · rw [if_pos (by omega), if_pos (by omega)]
      · rw [if_neg (by omega), if_neg (by omega)]

theorem storeAll_holds {as : List α} {i : Nat} {block block' : Vector α n}
    (h : storeAll as i block = some block') : Holds block' i as := by
  intro k hk
  rw [storeAll_getElem? h, if_pos (by omega), Nat.add_sub_cancel_left, List.getElem?_eq_getElem hk]

theorem storeAll_frame {as : List α} {i : Nat} {block block' : Vector α n}
    (h : storeAll as i block = some block') {j : Nat} {bs : List α} (hold : Holds block j bs)
    (hdisj : i + as.length ≤ j ∨ j + bs.length ≤ i) : Holds block' j bs := by
  intro k hk
  rw [storeAll_getElem? h, if_neg (by omega)]
  exact hold k hk

theorem storeAll_kept {as : List α} {i k : Nat} {block block' : Vector α n}
    (h : storeAll as i block = some block') (hik : i + as.length ≤ k) : Kept k block block' := by
  intro j hj
  rw [storeAll_getElem? h, if_neg (by omega)]

/-- Stores that fit are done. -/
theorem storeAll_ok {s : List α} {i : Nat} (block : Vector α n) (h : i + s.length ≤ n) :
    ∃ block', storeAll s i block = some block' ∧ Holds block' i s ∧
      ∀ j (bs : List α), Holds block j bs → i + s.length ≤ j ∨ j + bs.length ≤ i →
        Holds block' j bs := by
  obtain ⟨block', hb⟩ := (storeAll_isSome_iff s i block).mpr (Or.inr h)
  exact ⟨block', hb, storeAll_holds hb, fun _ _ => storeAll_frame hb⟩

theorem store_ok {i : Nat} (block : Vector α n) (hi : i < n) (a : α) :
    ∃ block', store block i a = some block' ∧ Holds block' i [a] ∧
      ∀ j (bs : List α), Holds block j bs → i < j ∨ j + bs.length ≤ i → Holds block' j bs :=
  ⟨_, store_eq hi a, store_holds (store_eq hi a), fun _ _ => store_frame (store_eq hi a)⟩

theorem slice_eq_none {block : Vector α n} {i k : Nat} (h : n < i + k) : slice block i k = none :=
  if_neg (Nat.not_le_of_lt h)

end HeapBlock
