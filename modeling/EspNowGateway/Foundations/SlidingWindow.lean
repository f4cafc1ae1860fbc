import Mathlib.Data.List.Basic

/-! A window over the last values of a stream, kept in an array of fixed size. Each new value
moves the others one place to the front, in place, and is written last. -/
namespace SlidingWindow

variable {α : Type} {n : Nat}

/-- The loop that moves the first `k` places. -/
def shift (v : Vector α (n+1)) (k : Nat) (hk : k ≤ n) : Vector α (n+1) :=
  Nat.fold k (fun i _ v => v.set i v[i+1]) v

def push (v : Vector α (n+1)) (x : α) : Vector α (n+1) := (shift v n (Nat.le_refl n)).set n x

/-- The loop reads every place before it overwrites it. -/
theorem getElem_shift (v : Vector α (n+1)) (k : Nat) (hk : k ≤ n) (j : Nat) (hj : j < n+1) :
    (shift v k hk)[j] = if h : j < k then v[j+1] else v[j] := by
  induction k generalizing j with
  | zero => rfl
  | succ k ih =>
    have hstep : shift v (k+1) hk =
        (shift v k (Nat.le_of_succ_le hk)).set k (shift v k (Nat.le_of_succ_le hk))[k+1] := rfl
    rw [hstep, Vector.getElem_set]
    by_cases hjk : k = j
    · subst hjk
      rw [if_pos rfl, ih _ (k+1), dif_neg (Nat.not_succ_lt_self), dif_pos (Nat.lt_succ_self k)]
    · rw [if_neg hjk, ih]
      by_cases hlt : j < k
      · rw [dif_pos hlt, dif_pos (Nat.lt_succ_of_lt hlt)]
      · rw [dif_neg hlt, dif_neg (by omega)]

theorem toList_push (v : Vector α (n+1)) (x : α) : (push v x).toList = v.toList.tail ++ [x] := by
  apply List.ext_getElem
  · simp
  · intro i h₁ h₂
    have hi : i < n + 1 := by simpa using h₁
    rw [Vector.getElem_toList, List.getElem_append]
    change ((shift v n (Nat.le_refl n)).set n x)[i] = _
    rw [Vector.getElem_set, getElem_shift]
    by_cases hlast : i < n
    · simp [hlast, Nat.ne_of_gt hlast]
    · obtain rfl : n = i := by omega
      simp

/-- After any number of values the window holds the last of them, behind what is left of its
first content. -/
theorem toList_pushAll (v : Vector α (n+1)) (xs : List α) :
    (xs.foldl push v).toList = (v.toList ++ xs).drop xs.length := by
  induction xs generalizing v with
  | nil => simp
  | cons x xs ih =>
    obtain ⟨a, l, hl⟩ : ∃ a l, v.toList = a :: l :=
      List.exists_cons_of_length_eq_add_one v.length_toList
    rw [List.foldl_cons, ih, toList_push, hl, List.tail_cons, List.append_assoc,
      List.singleton_append, List.length_cons, List.cons_append, List.drop_succ_cons]

/-- Copies of one value leave the window as it was exactly when it held nothing else. -/
theorem pushAll_replicate_eq_iff (v : Vector α (n+1)) (x : α) {k : Nat} (hk : 0 < k) :
    (List.replicate k x).foldl push v = v ↔ v = Vector.replicate (n+1) x := by
  rw [← Vector.toList_inj, toList_pushAll, List.length_replicate]
  constructor
  · intro h
    -- each place holds what is `k` places behind it, and behind the window there is only `x`
    have hplace : ∀ m i (hi : i < n + 1), n + 1 - i ≤ m → v[i] = x := by
      intro m
      induction m with
      | zero => intro i hi hm; omega
      | succ m ih =>
        intro i hi hm
        have hi' : i < ((v.toList ++ List.replicate k x).drop k).length := by simp; omega
        have hmoved : ((v.toList ++ List.replicate k x).drop k)[i] = v[i] := by
          rw [List.getElem_of_eq h hi', Vector.getElem_toList]
        rw [← hmoved, List.getElem_drop, List.getElem_append]
        split
        · rename_i hin
          rw [Vector.length_toList] at hin
          rw [Vector.getElem_toList]
          exact ih (k + i) hin (by omega)
        · exact List.getElem_replicate _
    apply Vector.ext
    intro i hi
    rw [Vector.getElem_replicate]
    exact hplace (n + 1 - i) i hi (Nat.le_refl _)
  · rintro rfl
    rw [Vector.toList_replicate, List.replicate_append_replicate, List.drop_replicate,
      Nat.add_sub_cancel]

end SlidingWindow
