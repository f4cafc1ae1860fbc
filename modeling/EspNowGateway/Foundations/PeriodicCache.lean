import Mathlib.Data.List.Basic

/-! A measured value that is kept for a fixed number of further reads. A counter beside the value
says how often it was reused; after a reset the counter is full, so that the next read measures.
The log of a run, newest entry first, says what each read measured and what it returned. -/
namespace PeriodicCache

structure Cache (α : Type) where
  value : α
  uses : Nat

inductive Event (α : Type) where
  | read (measurement : α)
  | reset

/-- `measured` is what the read measured, if it did. -/
inductive Entry (α : Type) where
  | read (measured : Option α) (returned : α)
  | reset

variable {α : Type} (limit : Nat) (initial : α)

def fresh : Cache α := ⟨initial, limit⟩

def Cache.read (c : Cache α) (measurement : α) : Cache α :=
  if c.uses < limit then { c with uses := c.uses + 1 } else ⟨measurement, 0⟩

def Cache.entry (c : Cache α) (measurement : α) : Entry α :=
  .read (if c.uses < limit then none else some measurement) (c.read limit measurement).value

def step (s : Cache α × List (Entry α)) : Event α → Cache α × List (Entry α)
  | .read m => (s.1.read limit m, s.1.entry limit m :: s.2)
  | .reset => (fresh limit initial, .reset :: s.2)

def run (es : List (Event α)) : Cache α × List (Entry α) :=
  es.foldl (step limit initial) (fresh limit initial, [])

/-- The last measurement since the last reset, and how many reads have reused it. -/
def lastMeasured : List (Entry α) → Option (α × Nat)
  | [] => none
  | .reset :: _ => none
  | .read (some m) _ :: _ => some (m, 0)
  | .read none _ :: log => (lastMeasured log).map fun a => (a.1, a.2 + 1)

/-- The counter is the age of the value, and is full when there is no measured value. -/
def Counts (c : Cache α) (log : List (Entry α)) : Prop :=
  c.uses ≤ limit ∧
    (lastMeasured log = some (c.value, c.uses) ∨ lastMeasured log = none ∧ c.uses = limit)

/-- Each read of the log returned the last measurement, which was not too old for it, and
measured only when the one before had been reused as often as it may be. -/
def Kept (log : List (Entry α)) : Prop :=
  ∀ measured returned earlier, (Entry.read measured returned :: earlier) <:+ log →
    (∃ age ≤ limit, lastMeasured (.read measured returned :: earlier) = some (returned, age)) ∧
      (measured.isSome → ∀ m age, lastMeasured earlier = some (m, age) → age = limit)

variable {limit initial}

theorem counts_fresh (log : List (Entry α)) (h : lastMeasured log = none) :
    Counts limit (fresh limit initial) log := ⟨Nat.le_refl _, Or.inr ⟨h, rfl⟩⟩

/-- One read. -/
theorem Counts.read {c : Cache α} {log : List (Entry α)} (h : Counts limit c log) (m : α) :
    Counts limit (c.read limit m) (c.entry limit m :: log) ∧
      (∃ age ≤ limit, lastMeasured (c.entry limit m :: log) = some ((c.read limit m).value, age)) ∧
      (¬ c.uses < limit → ∀ m' age, lastMeasured log = some (m', age) → age = limit) := by
  obtain ⟨hle, hlast⟩ := h
  rw [Cache.entry, Cache.read]
  by_cases hreuse : c.uses < limit
  · have hold : lastMeasured log = some (c.value, c.uses) := by
      rcases hlast with hlast | ⟨_, hfull⟩
      · exact hlast
      · omega
    have hnew : lastMeasured (.read none c.value :: log) = some (c.value, c.uses + 1) := by
      rw [lastMeasured, hold]
      rfl
    simp only [if_pos hreuse]
    exact ⟨⟨hreuse, Or.inl hnew⟩, ⟨c.uses + 1, hreuse, hnew⟩, fun hn => absurd hreuse hn⟩
  · simp only [if_neg hreuse]
    refine ⟨⟨Nat.zero_le _, Or.inl rfl⟩, ⟨0, Nat.zero_le _, rfl⟩, fun _ m' age hold => ?_⟩
    rcases hlast with hlast | ⟨hnone, _⟩
    · rw [hlast] at hold
      obtain ⟨_, rfl⟩ := Prod.mk.inj (Option.some.inj hold)
      omega
    · rw [hnone] at hold
      cases hold

theorem Kept.reset {log : List (Entry α)} (h : Kept limit log) : Kept limit (.reset :: log) := by
  intro measured returned earlier hsuffix
  rcases List.suffix_cons_iff.mp hsuffix with heq | hsuffix
  · cases heq
  · exact h measured returned earlier hsuffix

/-- One event of a run. -/
theorem step_keeps {s : Cache α × List (Entry α)} (hc : Counts limit s.1 s.2) (hk : Kept limit s.2)
    (e : Event α) :
    Counts limit (step limit initial s e).1 (step limit initial s e).2 ∧
      Kept limit (step limit initial s e).2 := by
  cases e with
  | reset => exact ⟨counts_fresh _ rfl, hk.reset⟩
  | read m =>
    obtain ⟨hcounts, hage, hperiod⟩ := hc.read m
    refine ⟨hcounts, fun measured returned earlier hsuffix => ?_⟩
    rcases List.suffix_cons_iff.mp hsuffix with heq | hsuffix
    · obtain ⟨hentry, rfl⟩ := List.cons.inj heq
      obtain ⟨hmeasured, hreturned⟩ := Entry.read.inj hentry
      rw [heq, hreturned]
      refine ⟨hage, fun hsome => hperiod fun hreuse => ?_⟩
      rw [hmeasured, if_pos hreuse] at hsome
      cases hsome
    · exact hk measured returned earlier hsuffix

/-- Every read of every run. -/
theorem run_kept (es : List (Event α)) : Kept limit (run limit initial es).2 := by
  have hgen : ∀ (es : List (Event α)) (s : Cache α × List (Entry α)), Counts limit s.1 s.2 →
      Kept limit s.2 → Kept limit (es.foldl (step limit initial) s).2 := by
    intro es
    induction es with
    | nil => exact fun _ _ hk => hk
    | cons e es ih =>
      intro s hc hk
      obtain ⟨hc', hk'⟩ := step_keeps hc hk e
      exact ih _ hc' hk'
  refine hgen es _ (counts_fresh [] rfl) fun measured returned earlier hsuffix => ?_
  cases List.suffix_nil.mp hsuffix

end PeriodicCache
