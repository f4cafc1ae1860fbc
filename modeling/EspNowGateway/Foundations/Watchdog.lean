import EspNowGateway.Foundations.PartialRun

/-! A watchdog on a connection. When either direction has been silent for longer than a limit it
asks the other side; when that happens again before an answer, it gives the connection up. Its time
does not wrap. -/
namespace Watchdog
open PartialRun

/-- When something was last heard and said, whether a question is open and since when, when the
watchdog last looked, and the time. -/
structure State where
  lastIn : Nat
  lastOut : Nat
  waiting : Bool
  asked : Nat
  polled : Nat
  now : Nat

/-- Traffic of either kind, with an answer among it or not, and a look of the watchdog. -/
inductive Signal where
  | traffic (heard said answered : Bool)
  | poll
  deriving DecidableEq

/-- The watchdog is due at time `t`. -/
def Due (limit t : Nat) (s : State) : Prop := limit < t - s.lastIn ∨ limit < t - s.lastOut

instance (limit t : Nat) (s : State) : Decidable (Due limit t s) := inferInstanceAs (Decidable (_ ∨ _))

/-- A signal at a time; nothing when the connection is given up. -/
def step (limit : Nat) (s : State) : Nat × Signal → Option State
  | (t, .traffic heard said answered) => some { s with
      lastIn := if heard then t else s.lastIn
      lastOut := if said then t else s.lastOut
      waiting := s.waiting && !answered
      now := t }
  | (t, .poll) =>
    if Due limit t s then
      if s.waiting then none
      else some { lastIn := t, lastOut := t, waiting := true, asked := t, polled := t, now := t }
    else some { s with polled := t, now := t }

/-- Time goes on, and the watchdog looks often enough. -/
def Timely (delay : Nat) (s : State) (e : Nat × Signal) : Prop := s.now ≤ e.1 ∧ e.1 ≤ s.polled + delay

/-- What holds as long as the connection does. -/
structure Sound (limit delay : Nat) (s : State) : Prop where
  heard : s.lastIn ≤ s.now
  said : s.lastOut ≤ s.now
  looked : s.polled ≤ s.now
  soon : s.now ≤ s.polled + delay
  freshIn : s.polled ≤ s.lastIn + limit
  freshOut : s.polled ≤ s.lastOut + limit
  asked : s.waiting = true → s.asked ≤ s.lastIn ∧ s.asked ≤ s.lastOut

section Run
variable {limit delay : Nat}

theorem poll_some {s s' : State} {t : Nat} (h : step limit s (t, .poll) = some s') :
    s'.polled = t ∧ s'.now = t := by
  rw [step] at h
  split at h
  · split at h
    · cases h
    · obtain rfl := Option.some.inj h
      exact ⟨rfl, rfl⟩
  · obtain rfl := Option.some.inj h
    exact ⟨rfl, rfl⟩

theorem Sound.step {s s' : State} {e : Nat × Signal} (h : Sound limit delay s)
    (htime : Timely delay s e) (hstep : step limit s e = some s') : Sound limit delay s' := by
  obtain ⟨t, signal⟩ := e
  obtain ⟨hle, hsoon⟩ := htime
  obtain ⟨h₁, h₂, h₃, h₄, h₅, h₆, h₇⟩ := h
  dsimp only at hle hsoon
  cases signal with
  | traffic heard said answered =>
    obtain rfl := Option.some.inj hstep
    have hin : s.lastIn ≤ (if heard then t else s.lastIn) ∧ (if heard then t else s.lastIn) ≤ t := by
      split
      · exact ⟨Nat.le_trans h₁ hle, Nat.le_refl _⟩
      · exact ⟨Nat.le_refl _, Nat.le_trans h₁ hle⟩
    have hout : s.lastOut ≤ (if said then t else s.lastOut) ∧ (if said then t else s.lastOut) ≤ t := by
      split
      · exact ⟨Nat.le_trans h₂ hle, Nat.le_refl _⟩
      · exact ⟨Nat.le_refl _, Nat.le_trans h₂ hle⟩
    refine ⟨hin.2, hout.2, Nat.le_trans h₃ hle, hsoon, ?_, ?_, fun hw => ?_⟩
    · exact Nat.le_trans h₅ (Nat.add_le_add_right hin.1 _)
    · exact Nat.le_trans h₆ (Nat.add_le_add_right hout.1 _)
    · obtain ⟨hwaiting, -⟩ := Bool.and_eq_true_iff.mp hw
      obtain ⟨hasked, hasked'⟩ := h₇ hwaiting
      exact ⟨Nat.le_trans hasked hin.1, Nat.le_trans hasked' hout.1⟩
  | poll =>
    rw [Watchdog.step] at hstep
    split at hstep
    · split at hstep
      · cases hstep
      · obtain rfl := Option.some.inj hstep
        exact ⟨Nat.le_refl _, Nat.le_refl _, Nat.le_refl _, Nat.le_add_right _ _,
          Nat.le_add_right _ _, Nat.le_add_right _ _, fun _ => ⟨Nat.le_refl _, Nat.le_refl _⟩⟩
    · rename_i hdue
      obtain ⟨hin, hout⟩ := not_or.mp hdue
      obtain rfl := Option.some.inj hstep
      refine ⟨Nat.le_trans h₁ hle, Nat.le_trans h₂ hle, Nat.le_refl _, Nat.le_add_right _ _, ?_, ?_, h₇⟩
      · dsimp only
        omega
      · dsimp only
        omega

/-- The connection is never silent for long in the outward direction. -/
theorem Sound.now_le {s : State} (h : Sound limit delay s) : s.now ≤ s.lastOut + limit + delay := by
  have hsoon := h.soon
  have hfresh := h.freshOut
  omega

/-- The connection is given up only when a question has been open for longer than the limit. -/
theorem Sound.asked_long_ago {s : State} (h : Sound limit delay s) {t : Nat}
    (hnone : Watchdog.step limit s (t, .poll) = none) : s.waiting = true ∧ s.asked + limit < t := by
  rw [Watchdog.step] at hnone
  split at hnone
  · rename_i hdue
    split at hnone
    · rename_i hwaiting
      obtain ⟨hin, hout⟩ := h.asked hwaiting
      refine ⟨hwaiting, ?_⟩
      rcases hdue with hdue | hdue
      · omega
      · omega
    · cases hnone
  · cases hnone

/-- Since time `s₀` nothing has been heard. -/
structure Deaf (limit delay s₀ : Nat) (s : State) : Prop where
  sound : Sound limit delay s
  lastIn : s.lastIn ≤ s₀ ∨ s.waiting = true ∧ s.lastIn ≤ s₀ + limit + delay

theorem Deaf.step {s₀ : Nat} {s s' : State} {e : Nat × Signal} (h : Deaf limit delay s₀ s)
    (htime : Timely delay s e) (hdeaf : (∃ said, e.2 = .traffic false said false) ∨ e.2 = .poll)
    (hstep : step limit s e = some s') : Deaf limit delay s₀ s' := by
  refine ⟨h.sound.step htime hstep, ?_⟩
  have hin := h.lastIn
  obtain ⟨t, signal⟩ := e
  dsimp only at hdeaf
  rcases hdeaf with ⟨said, rfl⟩ | rfl
  · obtain rfl := Option.some.inj hstep
    dsimp only [Bool.false_eq_true, if_false]
    rw [Bool.not_false, Bool.and_true]
    exact hin
  · have hfresh := h.sound.freshIn
    obtain ⟨-, hsoon⟩ := htime
    dsimp only at hsoon
    rw [Watchdog.step] at hstep
    split at hstep
    · split at hstep
      · cases hstep
      · rename_i hwaiting
        obtain rfl := Option.some.inj hstep
        -- no question was open, so what was last heard is older than `s₀`
        have hold : s.lastIn ≤ s₀ := hin.resolve_right fun hw => hwaiting hw.1
        right
        refine ⟨rfl, ?_⟩
        dsimp only
        omega
    · obtain rfl := Option.some.inj hstep
      exact hin

/-- Nothing is heard in these signals. -/
def Quiet (es : List (Nat × Signal)) : Prop :=
  ∀ e ∈ es, (∃ said, e.2 = .traffic false said false) ∨ e.2 = .poll

theorem run_deaf {s₀ : Nat} {s s' : State} {es : List (Nat × Signal)} (h : Deaf limit delay s₀ s)
    (htimely : Along (step limit) (Timely delay) s es) (hquiet : Quiet es)
    (hrun : run (step limit) s es = some s') : Deaf limit delay s₀ s' := by
  induction es generalizing s with
  | nil => exact Option.some.inj hrun ▸ h
  | cons e es ih =>
    obtain ⟨u, hstep, hrest⟩ := Option.bind_eq_some_iff.mp hrun
    obtain ⟨htime, htimely⟩ := htimely
    obtain ⟨he, hes⟩ := List.forall_mem_cons.mp hquiet
    rw [hstep] at htimely
    exact ih (h.step htime he hstep) htimely hes hrest

/-- A connection on which nothing is heard any more is given up in bounded time. -/
theorem Deaf.now_le {s₀ : Nat} {s : State} (h : Deaf limit delay s₀ s) :
    s.now ≤ s₀ + 2 * (limit + delay) := by
  have hsoon := h.sound.soon
  have hfresh := h.sound.freshIn
  have hin := h.lastIn
  omega

end Run
end Watchdog
