import EspNowGateway.Display.Screen

/-! The button, the backlight and the LED over whole runs of the dongle's loop. The light goes on
with a press in the dark; it goes off with a press, or fifteen seconds of real time later. -/
namespace EspNowGateway.Display
open ByteLayout BinaryFloat Radio Sender PeriodicTask ExpiringRegister

variable {tw : Nat}

namespace Turn

/-- The turn as the button's clock sees it. -/
def buttonLook (k : Turn tw) : Look := ⟨k.times.buttonCheck, k.times.buttonStamp⟩

/-- The light in real time: since when it is on. -/
def light (k : Turn tw) : Option Nat → Option Nat
  | none => if k.pressed then some k.times.buttonStamp else none
  | some since => if since + 15001 ≤ k.times.buttonCheck ∨ k.pressed then none else some since

end Turn

/-- Since when the light is on after a run that began with it. -/
def litSince (ks : List (Turn tw)) : Option Nat := ks.foldl (fun since k => k.light since) (some 0)

theorem litSince_concat (ks : List (Turn tw)) (k : Turn tw) :
    litSince (ks ++ [k]) = k.light (litSince ks) := by
  rw [litSince, List.foldl_append]
  rfl

/-- Nothing puts the light out that is on since `since`. -/
def Undisturbed (since : Nat) (ks : List (Turn tw)) : Prop :=
  ∀ k ∈ ks, k.pressed = false ∧ k.times.buttonCheck ≤ since + 15000

theorem Undisturbed.concat_iff {since : Nat} {ks : List (Turn tw)} {k : Turn tw} :
    Undisturbed since (ks ++ [k]) ↔
      Undisturbed since ks ∧ k.pressed = false ∧ k.times.buttonCheck ≤ since + 15000 := by
  rw [Undisturbed, List.forall_mem_append, List.forall_mem_singleton]
  exact Iff.rfl

/-- The light is on since power-up, or since a press in the dark. -/
def LitBy (ks : List (Turn tw)) (since : Nat) : Prop :=
  (since = 0 ∧ Undisturbed 0 ks) ∨ ∃ ks₁ k ks₂, ks = ks₁ ++ k :: ks₂ ∧ litSince ks₁ = none ∧
    k.pressed = true ∧ since = k.times.buttonStamp ∧ Undisturbed since ks₂

theorem LitBy.concat_iff {ks : List (Turn tw)} {k : Turn tw} {since : Nat} :
    LitBy (ks ++ [k]) since ↔
      (LitBy ks since ∧ k.pressed = false ∧ k.times.buttonCheck ≤ since + 15000) ∨
        (litSince ks = none ∧ k.pressed = true ∧ since = k.times.buttonStamp) := by
  constructor
  · rintro (⟨rfl, h⟩ | ⟨ks₁, k₁, ks₂, hsplit, hdark, hpressed, hsince, hrest⟩)
    · obtain ⟨h, hk⟩ := Undisturbed.concat_iff.mp h
      exact Or.inl ⟨Or.inl ⟨rfl, h⟩, hk⟩
    · rcases List.eq_nil_or_concat ks₂ with rfl | ⟨ks₂, k₂, rfl⟩
      · obtain ⟨rfl, hk⟩ := List.append_inj' hsplit rfl
        obtain rfl := List.singleton_inj.mp hk
        exact Or.inr ⟨hdark, hpressed, hsince⟩
      · rw [List.concat_eq_append] at hsplit hrest
        rw [← List.cons_append, ← List.append_assoc] at hsplit
        obtain ⟨rfl, hk⟩ := List.append_inj' hsplit rfl
        obtain rfl := List.singleton_inj.mp hk
        obtain ⟨hrest, hk⟩ := Undisturbed.concat_iff.mp hrest
        exact Or.inl ⟨Or.inr ⟨ks₁, k₁, ks₂, rfl, hdark, hpressed, hsince, hrest⟩, hk⟩
  · rintro (⟨⟨rfl, h⟩ | ⟨ks₁, k₁, ks₂, rfl, hdark, hpressed, hsince, hrest⟩, hk⟩ |
      ⟨hdark, hpressed, hsince⟩)
    · exact Or.inl ⟨rfl, Undisturbed.concat_iff.mpr ⟨h, hk⟩⟩
    · refine Or.inr ⟨ks₁, k₁, ks₂ ++ [k], ?_, hdark, hpressed, hsince,
        Undisturbed.concat_iff.mpr ⟨hrest, hk⟩⟩
      rw [List.append_assoc, List.cons_append]
    · exact Or.inr ⟨ks, k, [], rfl, hdark, hpressed, hsince, fun _ hk => by cases hk⟩

theorem Turn.light_iff (k : Turn tw) (lit : Option Nat) (since : Nat) : k.light lit = some since ↔
    (lit = some since ∧ k.pressed = false ∧ k.times.buttonCheck ≤ since + 15000) ∨
      (lit = none ∧ k.pressed = true ∧ since = k.times.buttonStamp) := by
  cases lit with
  | none =>
    rw [Turn.light]
    cases k.pressed
    · simp
    · simp [eq_comm]
  | some a =>
    rw [Turn.light]
    cases k.pressed
    · simp only [Bool.false_eq_true, or_false, Option.ite_none_left_eq_some, Option.some.injEq]
      constructor
      · rintro ⟨hearly, rfl⟩
        exact Or.inl ⟨rfl, trivial, by omega⟩
      · rintro (⟨rfl, -, hearly⟩ | ⟨h, -⟩)
        · exact ⟨by omega, rfl⟩
        · cases h
    · simp

/-- Since when the light is on, in closed form. -/
theorem litSince_iff {ks : List (Turn tw)} {since : Nat} : litSince ks = some since ↔ LitBy ks since := by
  induction ks using List.reverseRecOn with
  | nil =>
    rw [LitBy]
    constructor
    · intro h
      exact Or.inl ⟨(Option.some.inj h).symm, fun _ hk => by cases hk⟩
    · rintro (⟨rfl, -⟩ | ⟨ks₁, k, ks₂, hsplit, -⟩)
      · rfl
      · exact absurd hsplit.symm (List.append_ne_nil_of_right_ne_nil _ (List.cons_ne_nil _ _))
  | append_singleton ks k ih => rw [litSince_concat, k.light_iff, LitBy.concat_iff, ih]

/-- Two states that agree on the light. -/
structure SameLight (s s' : Dongle) : Prop where
  tftActive : s.tftActive = s'.tftActive
  ledStatus : s.ledStatus = s'.ledStatus
  tftLedaPin : s.tftLedaPin = s'.tftLedaPin
  lastPressedMs : s.lastPressedMs = s'.lastPressedMs

/-- Only the button touches the light; the LED takes the turn's colours. -/
theorem result_light (k : Turn tw) (s : Dongle) :
    SameLight (k.result s) (s.processButton 15000 k.times k.pressed) ∧
      (k.result s).leds = if (k.result s).ledStatus then (indicated s k.times).colors.on
        else (indicated s k.times).colors.off := by
  have hbutton : SameLight ((indicated s k.times).processButton 15000 k.times k.pressed)
      (s.processButton 15000 k.times k.pressed) ∧
      ((indicated s k.times).processButton 15000 k.times k.pressed).colors =
        (indicated s k.times).colors := by
    have hactive : (indicated s k.times).tftActive = s.tftActive := rfl
    have hlast : (indicated s k.times).lastPressedMs = s.lastPressedMs := rfl
    rw [Dongle.processButton, Dongle.processButton, hactive, hlast]
    split_ifs <;> exact ⟨⟨rfl, rfl, rfl, rfl⟩, rfl⟩
  have hscreen : ∀ v : Dongle, SameLight (v.updateScreen k.times) v ∧
      (v.updateScreen k.times).leds = v.leds := by
    intro v
    rw [Dongle.updateScreen]
    split <;> exact ⟨⟨rfl, rfl, rfl, rfl⟩, rfl⟩
  have hreceived : SameLight (k.result s) (s.refresh k.times k.pressed) ∧
      (k.result s).leds = (s.refresh k.times k.pressed).leds := by
    rw [Turn.result]
    split <;> exact ⟨⟨rfl, rfl, rfl, rfl⟩, rfl⟩
  obtain ⟨⟨hactive, hled, hpin, hlast⟩, hcolors⟩ := hbutton
  obtain ⟨⟨hactive', hled', hpin', hlast'⟩, hleds'⟩ :=
    hscreen ((indicated s k.times).processButton 15000 k.times k.pressed).updateLed
  obtain ⟨⟨hactive'', hled'', hpin'', hlast''⟩, hleds''⟩ := hreceived
  refine ⟨⟨hactive''.trans (hactive'.trans hactive), hled''.trans (hled'.trans hled),
    hpin''.trans (hpin'.trans hpin), hlast''.trans (hlast'.trans hlast)⟩, ?_⟩
  rw [hleds'', hled'', ← hcolors]
  exact hleds'.trans (hled' ▸ rfl)

/-- The dongle's light against the real one; the time stamp tracks it while it is on. -/
structure Shines (first : Look) (lit : Option Nat) (s : Dongle) : Prop where
  tftActive : s.tftActive = lit.isSome
  ledStatus : s.ledStatus = lit.isSome
  tftLedaPin : s.tftLedaPin = lit.isNone
  tracks : first.check ≤ first.stamp → ∀ since ∈ lit,
    Tracks 15001 first.check since s.lastPressedMs ∧ since ≤ first.stamp

/-- One turn. -/
theorem Shines.turn {first : Look} {lit : Option Nat} {s : Dongle} (h : Shines first lit s)
    {k : Turn tw} (hsoon : Soon 32 15001 first k.buttonLook) :
    Shines k.buttonLook (k.light lit) (k.result s) := by
  obtain ⟨⟨hactive, hled, hpin, hlast⟩, -⟩ := result_light k s
  obtain ⟨hordered, hlater, hgap⟩ := hsoon
  have hs := h.tftActive
  cases lit with
  | none =>
    rw [Dongle.processButton, if_neg (by rw [hs]; exact Bool.false_ne_true)] at hactive hled hpin hlast
    rw [Turn.light]
    cases hpressed : k.pressed with
    | true =>
      rw [if_pos hpressed] at hactive hled hpin hlast
      rw [if_pos rfl]
      refine ⟨hactive, hled, hpin, fun hordered' since hsince => ?_⟩
      obtain rfl := Option.some.inj hsince
      exact ⟨⟨hlast, Nat.lt_succ_of_le (hordered'.trans (Nat.le_add_right _ 15000))⟩, Nat.le_refl _⟩
    | false =>
      rw [if_neg (by rw [hpressed]; exact Bool.false_ne_true)] at hactive hled hpin hlast
      rw [if_neg Bool.false_ne_true]
      exact ⟨hactive.trans hs, hled.trans h.ledStatus, hpin.trans h.tftLedaPin,
        fun _ since hsince => by cases hsince⟩
  | some since =>
    obtain ⟨htracks, hseen⟩ := h.tracks hordered since rfl
    have hdue : 15000 < (millis k.times.buttonCheck - s.lastPressedMs).toNat ↔
        since + 15001 ≤ k.times.buttonCheck := htracks.due_iff (hseen.trans hlater) hgap
    have hon : s.tftActive = true := hs
    have hout := or_congr_left hdue (c := k.pressed = true)
    rw [Dongle.processButton, if_pos hon] at hactive hled hpin hlast
    rw [Turn.light]
    by_cases hoff : since + 15001 ≤ k.times.buttonCheck ∨ k.pressed = true
    · rw [if_pos (hout.mpr hoff)] at hactive hled hpin hlast
      rw [if_pos hoff]
      exact ⟨hactive, hled, hpin, fun _ since hsince => by cases hsince⟩
    · rw [if_neg (mt hout.mp hoff)] at hactive hled hpin hlast
      rw [if_neg hoff]
      refine ⟨hactive.trans hs, hled.trans h.ledStatus, hpin.trans h.tftLedaPin, ?_⟩
      intro hordered' since' hsince
      obtain rfl := Option.some.inj hsince
      refine ⟨⟨hlast.trans htracks.stamp, Nat.lt_of_not_le fun hd => hoff (Or.inl hd)⟩, ?_⟩
      exact (hseen.trans hlater).trans hordered'

/-- Looks at the button's clock that are close enough. -/
def ButtonPaced (ks : List (Turn tw)) : Prop :=
  List.IsChain (Soon 32 15001) (Look.start :: ks.map Turn.buttonLook)

theorem ButtonPaced.earlier {ks₁ ks₂ : List (Turn tw)} (h : ButtonPaced (ks₁ ++ ks₂)) :
    ButtonPaced ks₁ := by
  rw [ButtonPaced, List.map_append, ← List.cons_append] at h
  exact h.left_of_append

theorem Shines.run {ks : List (Turn tw)} {first : Look} {lit : Option Nat} {s : Dongle}
    (h : Shines first lit s)
    (hchain : List.IsChain (Soon 32 15001) (first :: ks.map Turn.buttonLook)) :
    ∃ last, Shines last (ks.foldl (fun lit k => k.light lit) lit)
      (ks.foldl (fun s k => k.result s) s) := by
  induction ks generalizing first lit s with
  | nil => exact ⟨first, h⟩
  | cons k ks ih =>
    obtain ⟨hsoon, hrest⟩ := List.isChain_cons_cons.mp hchain
    exact ih (h.turn hsoon) hrest

/-- The dongle's light is the real one. -/
theorem ButtonPaced.shines {ks : List (Turn tw)} (h : ButtonPaced ks) :
    ∃ last, Shines last (litSince ks) (stateAfter ks) := by
  refine Shines.run ⟨rfl, rfl, rfl, fun _ since hsince => ?_⟩ h
  obtain rfl := Option.some.inj hsince
  exact ⟨⟨rfl, by decide⟩, Nat.le_refl 0⟩

theorem ButtonPaced.lit_iff {ks : List (Turn tw)} (h : ButtonPaced ks) :
    (stateAfter ks).tftActive = true ↔ Undisturbed 0 ks ∨ ∃ ks₁ k ks₂, ks = ks₁ ++ k :: ks₂ ∧
      (stateAfter ks₁).tftActive = false ∧ k.pressed = true ∧
      Undisturbed k.times.buttonStamp ks₂ := by
  obtain ⟨_, hshines⟩ := h.shines
  rw [hshines.tftActive, Option.isSome_iff_exists]
  simp only [litSince_iff]
  constructor
  · rintro ⟨since, ⟨-, hall⟩ | ⟨ks₁, k, ks₂, rfl, hdark, hpressed, rfl, hrest⟩⟩
    · exact Or.inl hall
    · obtain ⟨_, hfirst⟩ := h.earlier.shines
      exact Or.inr ⟨ks₁, k, ks₂, rfl, hfirst.tftActive.trans (hdark ▸ rfl), hpressed, hrest⟩
  · rintro (hall | ⟨ks₁, k, ks₂, rfl, hdark, hpressed, hrest⟩)
    · exact ⟨0, Or.inl ⟨rfl, hall⟩⟩
    · obtain ⟨_, hfirst⟩ := h.earlier.shines
      rw [hfirst.tftActive, Option.isSome_eq_false_iff, Option.isNone_iff_eq_none] at hdark
      exact ⟨_, Or.inr ⟨ks₁, k, ks₂, rfl, hdark, hpressed, rfl, hrest⟩⟩

/-- Over any run, however often the clock wraps: the backlight and the LED's brightness agree; they
are on exactly when nothing has disturbed the light since power-up or since a press in the dark, that
is for at most fifteen seconds; and the LED's colour tells the most urgent of the fresh readings. -/
theorem backlight_and_led {ks : List (Turn tw)} (hks : ∀ k ∈ ks, k.Measured)
    (hspaced : List.IsChain Spaced ks) (hbutton : ButtonPaced ks) :
    ∃ s, run ks .boot = .ok s ∧ s.ledStatus = s.tftActive ∧ s.tftLedaPin = !s.tftActive ∧
      (s.tftActive = true ↔ Undisturbed 0 ks ∨ ∃ ks₁ k ks₂ s₁, ks = ks₁ ++ k :: ks₂ ∧
        run ks₁ .boot = .ok s₁ ∧ s₁.tftActive = false ∧ k.pressed = true ∧
        Undisturbed k.times.buttonStamp ks₂) ∧
      ∀ ks₁ k, ks = ks₁ ++ [k] → ∃ colors, Alarm (fun side => fresh side ks₁ k.times) colors ∧
        s.leds = if s.tftActive then colors.on else colors.off := by
  have hnamed : ∀ k ∈ ks, ∀ f ∈ k.received, f.WellNamed := fun k hk f hf => (hks k hk f hf).1
  obtain ⟨_, hshines⟩ := hbutton.shines
  refine ⟨stateAfter ks, run_eq ks hnamed .boot, hshines.ledStatus.trans hshines.tftActive.symm, ?_,
    ?_, ?_⟩
  · rw [hshines.tftLedaPin, hshines.tftActive, Option.not_isSome]
  · rw [hbutton.lit_iff]
    refine or_congr Iff.rfl (exists_congr fun ks₁ => exists_congr fun k => exists_congr fun ks₂ => ?_)
    constructor
    · rintro ⟨rfl, hdark, hpressed, hrest⟩
      exact ⟨_, rfl, run_eq ks₁ (fun k hk => hnamed k (List.mem_append_left _ hk)) .boot, hdark,
        hpressed, hrest⟩
    · rintro ⟨s₁, rfl, hrun, hdark, hpressed, hrest⟩
      obtain rfl := Except.ok.inj
        ((run_eq ks₁ (fun k hk => hnamed k (List.mem_append_left _ hk)) .boot).symm.trans hrun)
      exact ⟨rfl, hdark, hpressed, hrest⟩
  · rintro ks₁ k rfl
    obtain ⟨r, hr, hvalue⟩ := stateAfter_holds (fun k hk => hks k (List.mem_append_left _ hk))
      (paced_of_chain hspaced)
    have halarm := alarm_of_holds hr
    simp only [hvalue] at halarm
    obtain ⟨hlight, hleds⟩ := result_light k (stateAfter ks₁)
    refine ⟨_, halarm, ?_⟩
    rw [stateAfter_concat] at hshines ⊢
    rw [hleds, hshines.ledStatus, ← hshines.tftActive]
    rfl

/-- Sixteen seconds without a press. -/
theorem backlight_and_led_untouched : ∃ s, run [(⟨.all 16000, false, none⟩ : Turn 4)] .boot = .ok s ∧
    s.tftActive = false ∧ s.tftLedaPin = true := by
  have hmeasured : ∀ k ∈ [(⟨.all 16000, false, none⟩ : Turn 4)], k.Measured := by
    intro k hk f hf
    obtain rfl := List.mem_singleton.mp hk
    cases hf
  have hbutton : ButtonPaced [(⟨.all 16000, false, none⟩ : Turn 4)] :=
    List.isChain_cons_cons.mpr ⟨⟨by decide, by decide, by decide⟩, List.isChain_singleton _⟩
  obtain ⟨s, hrun, -, hpin, hlit, -⟩ :=
    backlight_and_led hmeasured (List.isChain_singleton _) hbutton
  have hdark : s.tftActive = false := by
    rw [← Bool.not_eq_true, hlit]
    rintro (hall | ⟨ks₁, k, ks₂, s₁, hsplit, -, -, hpressed, -⟩)
    · exact absurd (hall _ (List.mem_singleton_self _)).2 (by decide)
    · have hk : k ∈ [(⟨.all 16000, false, none⟩ : Turn 4)] :=
        hsplit ▸ List.mem_append_right _ (List.mem_cons_self ..)
      obtain rfl := List.mem_singleton.mp hk
      cases hpressed
  rw [hdark] at hpin
  exact ⟨s, hrun, hdark, hpin⟩

end EspNowGateway.Display
