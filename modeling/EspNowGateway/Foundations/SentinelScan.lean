import Mathlib.Order.RelClasses
import Mathlib.Data.List.Basic

/-! A scan for the best element of a list, with one accumulator and no flag: a sentinel stands
for an empty place in the list and, in the accumulator, for nothing found so far. `better` is any
strict order; both scans for an extreme are this one, over an order and over its converse. -/
namespace SentinelScan

variable {α : Type}

/-- The accumulator `best` over the values that were met. -/
inductive Best (better : α → α → Prop) (sentinel : α) : List α → α → Prop where
  | none : Best better sentinel [] sentinel
  | some {met : List α} {best : α} (hmem : best ∈ met) (hbest : ∀ y ∈ met, ¬ better y best) :
    Best better sentinel met best

variable {better : α → α → Prop} {sentinel : α}

theorem Best.of_nil {best : α} (h : Best better sentinel [] best) : best = sentinel := by
  cases h with
  | none => rfl
  | some hmem _ => cases hmem

theorem Best.of_ne_nil {met : List α} {best : α} (h : Best better sentinel met best) (hne : met ≠ []) :
    best ∈ met ∧ ∀ y ∈ met, ¬ better y best := by
  cases h with
  | none => exact absurd rfl hne
  | some hmem hbest => exact ⟨hmem, hbest⟩

variable (better) [DecidableRel better] (empty : α → Prop) [DecidablePred empty]

/-- The body of the scan. -/
def keep (best x : α) : α :=
  if empty x then best else if empty best then x else if better x best then x else best

variable {better empty}

/-- One value more. -/
theorem Best.keep [IsStrictOrder α better] {met : List α} {best x : α}
    (hsentinel : empty sentinel) (hmet : ∀ y ∈ met, ¬ empty y) (h : Best better sentinel met best)
    (hx : ¬ empty x) : Best better sentinel (met ++ [x]) (keep better empty best x) := by
  rw [SentinelScan.keep, if_neg hx]
  cases h with
  | none =>
    rw [if_pos hsentinel]
    refine .some (by simp) fun y hy => ?_
    rw [List.nil_append, List.mem_singleton] at hy
    exact hy ▸ irrefl y
  | some hmem hbest =>
    rw [if_neg (hmet best hmem)]
    split
    · rename_i hlt
      refine .some (by simp) fun y hy hyx => ?_
      rcases List.mem_append.mp hy with hy | hy
      · -- a better one than `x` would have been better than the old best one
        exact hbest y hy (IsTrans.trans _ _ _ hyx hlt)
      · obtain rfl := List.mem_singleton.mp hy
        exact irrefl _ hyx
    · rename_i hnot
      refine .some (by simp [hmem]) fun y hy => ?_
      rcases List.mem_append.mp hy with hy | hy
      · exact hbest y hy
      · exact List.mem_singleton.mp hy ▸ hnot

private theorem foldl_keep [IsStrictOrder α better] (hsentinel : empty sentinel) (xs : List α)
    {met : List α} {best : α} (hmet : ∀ y ∈ met, ¬ empty y) (h : Best better sentinel met best) :
    Best better sentinel (met ++ xs.filter fun x => ¬ empty x)
      (xs.foldl (SentinelScan.keep better empty) best) := by
  induction xs generalizing met best with
  | nil => simpa using h
  | cons x xs ih =>
    rw [List.foldl_cons]
    by_cases hx : empty x
    · rw [SentinelScan.keep, if_pos hx, List.filter_cons_of_neg (by simp [hx])]
      exact ih hmet h
    · have hmet' : ∀ y ∈ met ++ [x], ¬ empty y := by
        intro y hy
        rcases List.mem_append.mp hy with hy | hy
        · exact hmet y hy
        · exact List.mem_singleton.mp hy ▸ hx
      have hnext := ih hmet' (h.keep hsentinel hmet hx)
      rwa [List.append_assoc, List.singleton_append, ← List.filter_cons_of_pos (by simp [hx])] at hnext

variable (better empty)

/-- The scan ends with a best one of the values that are not empty, or with the sentinel when
there is none. -/
theorem scan_best [IsStrictOrder α better] (hsentinel : empty sentinel) (xs : List α) :
    Best better sentinel (xs.filter fun x => ¬ empty x)
      (xs.foldl (SentinelScan.keep better empty) sentinel) := by
  have hnone : ∀ y ∈ ([] : List α), ¬ empty y := by simp
  simpa using foldl_keep hsentinel xs hnone .none

end SentinelScan
