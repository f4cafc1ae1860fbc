import Mathlib.Data.Option.Basic
import Mathlib.Data.List.Basic

/-! Runs of a partial step function. A run is the list of its actions; it exists when every
action is enabled where it is taken. -/
namespace PartialRun

variable {σ α : Type}

def run (step : σ → α → Option σ) : σ → List α → Option σ
  | s, [] => some s
  | s, a :: as => (step s a).bind fun t => run step t as

@[simp] theorem run_nil (step : σ → α → Option σ) (s : σ) : run step s [] = some s := rfl

theorem run_cons (step : σ → α → Option σ) (s : σ) (a : α) (as : List α) :
    run step s (a :: as) = (step s a).bind fun t => run step t as := rfl

theorem run_append (step : σ → α → Option σ) (s : σ) (as bs : List α) :
    run step s (as ++ bs) = (run step s as).bind fun t => run step t bs := by
  induction as generalizing s with
  | nil => rfl
  | cons a as ih =>
    rw [List.cons_append, run_cons, run_cons, Option.bind_assoc]
    congr 1
    funext t
    exact ih t

/-- Every action of the run meets the condition `P` where it is taken. -/
def Along (step : σ → α → Option σ) (P : σ → α → Prop) : σ → List α → Prop
  | _, [] => True
  | s, a :: as => P s a ∧ (step s a).elim True fun t => Along step P t as

theorem along_of_forall (step : σ → α → Option σ) (Allowed : α → Prop) (s : σ) {as : List α}
    (hallowed : ∀ a ∈ as, Allowed a) : Along step (fun _ => Allowed) s as := by
  induction as generalizing s with
  | nil => trivial
  | cons a as ih =>
    obtain ⟨ha, hrest⟩ := List.forall_mem_cons.mp hallowed
    refine ⟨ha, ?_⟩
    cases step s a with
    | none => trivial
    | some t => exact ih t hrest

/-- A run along a condition in two parts. -/
theorem along_append {step : σ → α → Option σ} {P : σ → α → Prop} {s t : σ} {as bs : List α}
    (h : Along step P s (as ++ bs)) (hrun : run step s as = some t) :
    Along step P s as ∧ Along step P t bs := by
  induction as generalizing s with
  | nil =>
    obtain rfl := Option.some.inj hrun
    exact ⟨trivial, h⟩
  | cons a as ih =>
    obtain ⟨u, hu, hrest⟩ := Option.bind_eq_some_iff.mp hrun
    obtain ⟨ha, h⟩ := h
    rw [hu] at h
    obtain ⟨hfirst, hsecond⟩ := ih h hrest
    refine ⟨⟨ha, ?_⟩, hsecond⟩
    rw [hu]
    exact hfirst

/-- What every step under the condition preserves holds at the end of every run along it. -/
theorem run_invariant_along (step : σ → α → Option σ) (P : σ → α → Prop) (Inv : σ → Prop)
    (hstep : ∀ s a t, P s a → Inv s → step s a = some t → Inv t)
    {s t : σ} {as : List α} (hs : Inv s) (halong : Along step P s as)
    (hrun : run step s as = some t) : Inv t := by
  induction as generalizing s with
  | nil => exact Option.some.inj hrun ▸ hs
  | cons a as ih =>
    obtain ⟨u, hu, hrest⟩ := Option.bind_eq_some_iff.mp hrun
    obtain ⟨ha, halong⟩ := halong
    rw [hu] at halong
    exact ih (hstep s a u ha hs hu) halong hrest

/-- What every allowed step preserves holds at the end of every allowed run. -/
theorem run_invariant (step : σ → α → Option σ) (Allowed : α → Prop) (Inv : σ → Prop)
    (hstep : ∀ s a t, Allowed a → Inv s → step s a = some t → Inv t)
    {s t : σ} {as : List α} (hs : Inv s) (hallowed : ∀ a ∈ as, Allowed a)
    (hrun : run step s as = some t) : Inv t :=
  run_invariant_along step (fun _ => Allowed) Inv hstep hs (along_of_forall step Allowed s hallowed) hrun

/-- A fact that no step undoes is never undone by a run. -/
theorem run_persistent (step : σ → α → Option σ) (P : σ → Prop)
    (hstep : ∀ s a t, step s a = some t → P s → P t)
    {s t : σ} {as : List α} (hrun : run step s as = some t) (hs : P s) : P t :=
  run_invariant step (fun _ => True) P (fun s a t _ hp h => hstep s a t h hp) hs
    (fun _ _ => trivial) hrun

end PartialRun
