import EspNowGateway.Foundations.ExpiringRegister

/-! A periodic task on a wrapping clock. A polling loop runs the task when the `w`-bit time stamp of
its last run is a period old, and stamps it anew. Against unbounded real time the task runs exactly
when it is due, however often the clock has wrapped, as long as the loop looks often enough. -/
namespace PeriodicTask
open ExpiringRegister

/-- One look of the loop: when it compares, and when it stamps the task if it runs it. -/
structure Look where
  check : Nat
  stamp : Nat

/-- The look at power-up. -/
def Look.start : Look := ⟨0, 0⟩

/-- The task is due by the wrapped difference. -/
def Due {w : Nat} (period : Nat) (stamp : BitVec w) (t : Nat) : Prop :=
  period ≤ (clock w t - stamp).toNat

instance {w : Nat} (period : Nat) (stamp : BitVec w) (t : Nat) : Decidable (Due period stamp t) :=
  inferInstanceAs (Decidable (_ ≤ _))

def look {w : Nat} (period : Nat) (stamp : BitVec w) (l : Look) : BitVec w :=
  if Due period stamp l.check then clock w l.stamp else stamp

/-- The same in real time: the task's last run. -/
def lastRun (period : Nat) (last : Nat) (l : Look) : Nat :=
  if last + period ≤ l.check then l.stamp else last

/-- The stamp is that of the run at `last`, which at the check `c` was not yet a period old. -/
structure Tracks {w : Nat} (period c last : Nat) (stamp : BitVec w) : Prop where
  stamp : stamp = clock w last
  recent : c < last + period

/-- Real time goes on, and two checks are closer than the clock's blind spot. -/
structure Soon (w period : Nat) (l next : Look) : Prop where
  ordered : l.check ≤ l.stamp
  later : l.stamp ≤ next.check
  gap : next.check - l.check + period ≤ 2^w

variable {w period : Nat}

/-- The wrapped comparison against the real one. -/
theorem Tracks.due_iff {c last t : Nat} {stamp : BitVec w} (h : Tracks period c last stamp)
    (hlast : last ≤ t) (hgap : t - c + period ≤ 2^w) : Due period stamp t ↔ last + period ≤ t := by
  obtain ⟨rfl, hrecent⟩ := h
  rw [Due, clock_sub_toNat hlast (by omega)]
  omega

/-- One look keeps track. -/
theorem Tracks.look {c last : Nat} {stamp : BitVec w} (h : Tracks period c last stamp)
    (hperiod : 0 < period) {l : Look} (hordered : l.check ≤ l.stamp) (hlast : last ≤ l.check)
    (hgap : l.check - c + period ≤ 2^w) :
    Tracks period l.check (lastRun period last l) (PeriodicTask.look period stamp l) := by
  have hdue := h.due_iff hlast hgap
  rw [PeriodicTask.look, lastRun]
  by_cases hreal : last + period ≤ l.check
  · rw [if_pos (hdue.mpr hreal), if_pos hreal]
    exact ⟨rfl, by omega⟩
  · rw [if_neg (fun h => hreal (hdue.mp h)), if_neg hreal]
    exact ⟨h.stamp, by omega⟩

theorem lastRun_le {last : Nat} {l : Look} (hordered : l.check ≤ l.stamp) (hlast : last ≤ l.check) :
    lastRun period last l ≤ l.stamp := by
  rw [lastRun]
  split
  · exact Nat.le_refl _
  · exact hlast.trans hordered

/-- After any number of looks. -/
private theorem Tracks.looks {last : Nat} {stamp : BitVec w} {first l : Look} {ls : List Look}
    (h : first.check ≤ first.stamp → Tracks period first.check last stamp ∧ last ≤ first.stamp)
    (hperiod : 0 < period) (hchain : List.IsChain (Soon w period) (first :: ls ++ [l])) :
    ∃ c, Tracks period c (ls.foldl (lastRun period) last) (ls.foldl (PeriodicTask.look period) stamp) ∧
      ls.foldl (lastRun period) last ≤ l.check ∧ l.check - c + period ≤ 2^w := by
  induction ls generalizing first last stamp with
  | nil =>
    obtain ⟨hordered, hlater, hgap⟩ := (List.isChain_cons_cons.mp hchain).1
    obtain ⟨htracks, hlast⟩ := h hordered
    exact ⟨first.check, htracks, hlast.trans hlater, hgap⟩
  | cons next ls ih =>
    obtain ⟨⟨hordered, hlater, hgap⟩, hrest⟩ := List.isChain_cons_cons.mp hchain
    obtain ⟨htracks, hlast⟩ := h hordered
    have hseen := hlast.trans hlater
    exact ih (fun hordered => ⟨htracks.look hperiod hordered hseen hgap, lastRun_le hordered hseen⟩)
      hrest

/-- The task was stamped at `first`; after any looks the wrapped comparison is the real one. -/
theorem due_iff_real {first l : Look} {ls : List Look} (hperiod : 0 < period)
    (hchain : List.IsChain (Soon w period) (first :: ls ++ [l])) :
    Due period (ls.foldl (look period) (clock w first.stamp)) l.check ↔
      ls.foldl (lastRun period) first.stamp + period ≤ l.check := by
  have hstart : first.check ≤ first.stamp →
      Tracks period first.check first.stamp (clock w first.stamp) ∧ first.stamp ≤ first.stamp :=
    fun hordered => ⟨⟨rfl, by omega⟩, Nat.le_refl _⟩
  obtain ⟨c, htracks, hlast, hgap⟩ := Tracks.looks hstart hperiod hchain
  exact htracks.due_iff hlast hgap

end PeriodicTask
