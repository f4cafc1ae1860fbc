import EspNowGateway.Display.Freshness

/-! Two runs of the dongle's loop that differ in the other sensor's packets only. The rows share
no reading; what one row can tell of the other is whether it has a temperature at all. -/
namespace EspNowGateway.Display
open ByteLayout BinaryFloat CArray Radio Sender

variable {tw : Nat}

namespace Turn

/-- The received packet, when the name that it carries is the row's. -/
def ownPacket (side : Side) (k : Turn tw) : Option (EspPacket tw) :=
  k.received.bind fun f =>
    if EspParam.storedString f.senderName = side.name then some f.packet else none

/-- A received packet comes from a sender whose name is a C string. -/
def Named (k : Turn tw) : Prop := ∀ f ∈ k.received, (0 : Byte) ∉ f.senderName

/-- Below 256 characters a sender is known by its full name. -/
theorem ownPacket_of_wellNamed (side : Side) {k : Turn tw} (hk : ∀ f ∈ k.received, f.WellNamed) :
    k.ownPacket side = k.received.bind fun f =>
      if f.senderName = side.name then some f.packet else none := by
  have hlen : side.name.length < paramStringLen - 1 := by cases side <;> decide
  cases hr : k.received with
  | none => rw [ownPacket, hr]; rfl
  | some f =>
    have hname := EspParam.storedString_eq_iff (hk f hr).2 hlen
    simp only [ownPacket, hr, Option.bind_some, hname]

/-- What one turn does to a row. -/
theorem apply_row {k : Turn tw} (hk : k.Named) (s : Dongle) :
    ∃ s', k.apply s = .ok s' ∧ ∀ side : Side, side.row s' =
      match k.ownPacket side with
      | none => side.row (s.refresh k.times k.pressed)
      | some p => (side.row (s.refresh k.times k.pressed)).receive p (millis (k.times.rcvd 0)) := by
  rw [apply, Dongle.turn]
  cases hr : k.received with
  | none =>
    refine ⟨_, rfl, fun side => ?_⟩
    simp only [ownPacket, hr, Option.bind_none]
  | some f =>
    refine ⟨_, Dongle.handle_sensor f (hk f hr) k.times _, fun side => ?_⟩
    simp only [ownPacket, hr, Option.bind_some]
    cases side
    · by_cases hname : EspParam.storedString f.senderName = topName
      · simp only [Side.row, Side.name, hname, if_true]
      · simp only [Side.row, Side.name, hname, if_false]
    · by_cases hname : EspParam.storedString f.senderName = botName
      · simp only [Side.row, Side.name, hname, if_true]
      · simp only [Side.row, Side.name, hname, if_false]

end Turn

namespace SameReadings

theorem refl (c : Channel) : SameReadings c c := ⟨rfl, rfl, rfl, rfl⟩

theorem symm {c c' : Channel} (h : SameReadings c c') : SameReadings c' c :=
  ⟨h.temp.symm, h.lastRcvd.symm, h.volts.symm, h.history.symm⟩

theorem trans {c c' c'' : Channel} (h : SameReadings c c') (h' : SameReadings c' c'') :
    SameReadings c c'' :=
  ⟨h.temp.trans h'.temp, h.lastRcvd.trans h'.lastRcvd, h.volts.trans h'.volts,
    h.history.trans h'.history⟩

theorem expire {c c' : Channel} (h : SameReadings c c') (now : BitVec 32) :
    SameReadings (c.expire now) (c'.expire now) := by
  rw [Channel.expire, Channel.expire, h.lastRcvd]
  split
  · exact ⟨rfl, rfl, h.volts, h.history⟩
  · exact h

theorem receive {c c' : Channel} (h : SameReadings c c') (p : EspPacket tw) (now : BitVec 32) :
    SameReadings (c.receive p now) (c'.receive p now) :=
  ⟨rfl, rfl, rfl, congrArg (addToHistory · p.tempC) h.history⟩

end SameReadings

/-- Two turns at the same times that bring the row the same packet, or none; the button and the
packets for others are free. -/
structure SameFor (side : Side) (k k' : Turn tw) : Prop where
  times : k.times = k'.times
  own : k.ownPacket side = k'.ownPacket side

/-- One turn keeps the row's readings alike. -/
private theorem turn_agrees {side : Side} {k k' : Turn tw} (hk : k.Named) (hk' : k'.Named)
    (h : SameFor side k k') {s s' : Dongle} (hs : SameReadings (side.row s) (side.row s')) :
    ∃ u u', k.apply s = .ok u ∧ k'.apply s' = .ok u' ∧ SameReadings (side.row u) (side.row u') := by
  obtain ⟨htimes, hown⟩ := h
  obtain ⟨u, hu, hrow⟩ := Turn.apply_row hk s
  obtain ⟨u', hu', hrow'⟩ := Turn.apply_row hk' s'
  have hrefreshed : SameReadings (side.row (s.refresh k.times k.pressed))
      (side.row (s'.refresh k.times k'.pressed)) :=
    (refresh_row side k.times k.pressed s).trans
      ((hs.expire (millis (side.check k.times))).trans (refresh_row side k.times k'.pressed s').symm)
  refine ⟨u, u', hu, hu', ?_⟩
  rw [hrow, hrow', ← hown, ← htimes]
  cases k.ownPacket side with
  | none => exact hrefreshed
  | some p => exact hrefreshed.receive p _

/-- Whole runs keep the row's readings alike. -/
theorem runs_agree {side : Side} {ks ks' : List (Turn tw)} (h : List.Forall₂ (SameFor side) ks ks')
    (hks : ∀ k ∈ ks, k.Named) (hks' : ∀ k ∈ ks', k.Named) {s s' : Dongle}
    (hs : SameReadings (side.row s) (side.row s')) :
    ∃ u u', run ks s = .ok u ∧ run ks' s' = .ok u' ∧ SameReadings (side.row u) (side.row u') := by
  induction h generalizing s s' with
  | nil => exact ⟨s, s', rfl, rfl, hs⟩
  | cons hk _ ih =>
    obtain ⟨hkn, hrest⟩ := List.forall_mem_cons.mp hks
    obtain ⟨hkn', hrest'⟩ := List.forall_mem_cons.mp hks'
    obtain ⟨v, v', hv, hv', hsame⟩ := turn_agrees hkn hkn' hk hs
    obtain ⟨u, u', hu, hu', hagree⟩ := ih hrest hrest' hsame
    refine ⟨u, u', ?_, ?_, hagree⟩
    · rw [run, List.foldlM_cons, hv]
      exact hu
    · rw [run, List.foldlM_cons, hv']
      exact hu'

/-- A row with a temperature that is not above its yellow limit. -/
private theorem fontColor_cool (side : Side) (N : Prop) [Decidable N] {temp : F32}
    (hcool : ¬ side.yellowC.Lt temp) :
    fontColor N side.yellowC side.redC temp = if N then .blue else .darkGreen := by
  have hred : ¬ side.redC.Lt temp := fun h => hcool (side.yellowC_lt_redC.trans h)
  rw [fontColor, if_neg hred, if_neg hcool]

/-- Whether there is data shows in the colour of a row below its yellow limit only. -/
private theorem fontColor_ne_iff (side : Side) (N N' : Prop) [Decidable N] [Decidable N'] (temp : F32) :
    fontColor N side.yellowC side.redC temp ≠ fontColor N' side.yellowC side.redC temp ↔
      ¬ side.yellowC.Lt temp ∧ ¬ (N ↔ N') := by
  by_cases hyellow : side.yellowC.Lt temp
  · simp [fontColor, hyellow]
  · rw [fontColor_cool side N hyellow, fontColor_cool side N' hyellow]
    by_cases hN : N <;> by_cases hN' : N' <;> simp [hyellow, hN, hN']

private theorem indicated_fontColor (side : Side) (s : Dongle) (t : Times) :
    (side.row (indicated s t)).fontColor =
      fontColor (indicated s t).NoData side.yellowC side.redC (side.row (indicated s t)).temp := by
  cases side <;> rfl

private theorem noData_iff (side : Side) (s : Dongle) :
    s.NoData ↔ (side.row s).temp.Same noTemp ∨ (side.other.row s).temp.Same noTemp := by
  cases side
  · exact Iff.rfl
  · exact or_comm

private theorem indicated_cool (side : Side) (s : Dongle) (t : Times)
    (hreal : ¬ (side.row (indicated s t)).temp.Same noTemp)
    (hcool : ¬ side.yellowC.Lt (side.row (indicated s t)).temp) :
    (side.row (indicated s t)).fontColor =
      if (side.other.row (indicated s t)).temp.Same noTemp then .blue else .darkGreen := by
  rw [indicated_fontColor, fontColor_cool side _ hcool]
  have hdata := (noData_iff side (indicated s t)).trans (or_iff_right hreal)
  simp only [hdata]

/-- Runs that give a row the same packets at the same times agree on its readings. The colour
of its text differs exactly when the row has a temperature that is not above its yellow limit
and the other row has one in only one of the runs; it is then blue where the other row has none and
dark green where it has one. -/
theorem rows_isolated_but_blue (side : Side) {ks ks' : List (Turn tw)} (hks : ∀ k ∈ ks, k.Named)
    (hks' : ∀ k ∈ ks', k.Named) (h : List.Forall₂ (SameFor side) ks ks') (t : Times) (s : Dongle) :
    ∃ u u', run ks s = .ok u ∧ run ks' s = .ok u' ∧
      SameReadings (side.row (indicated u t)) (side.row (indicated u' t)) ∧
      ((side.row (indicated u t)).fontColor ≠ (side.row (indicated u' t)).fontColor ↔
        ¬ (side.row (indicated u t)).temp.Same noTemp ∧
          ¬ side.yellowC.Lt (side.row (indicated u t)).temp ∧
          ¬ ((side.other.row (indicated u t)).temp.Same noTemp ↔
            (side.other.row (indicated u' t)).temp.Same noTemp)) ∧
      ((side.row (indicated u t)).fontColor ≠ (side.row (indicated u' t)).fontColor →
        (side.row (indicated u t)).fontColor =
            (if (side.other.row (indicated u t)).temp.Same noTemp then .blue else .darkGreen) ∧
          (side.row (indicated u' t)).fontColor =
            if (side.other.row (indicated u' t)).temp.Same noTemp then .blue else .darkGreen) := by
  obtain ⟨u, u', hu, hu', hagree⟩ := runs_agree h hks hks' (SameReadings.refl (side.row s))
  have hsame : SameReadings (side.row (indicated u t)) (side.row (indicated u' t)) :=
    (indicated_row side u t).trans
      ((hagree.expire (millis (side.check t))).trans (indicated_row side u' t).symm)
  have hdiffer : (side.row (indicated u t)).fontColor ≠ (side.row (indicated u' t)).fontColor ↔
      ¬ (side.row (indicated u t)).temp.Same noTemp ∧
        ¬ side.yellowC.Lt (side.row (indicated u t)).temp ∧
        ¬ ((side.other.row (indicated u t)).temp.Same noTemp ↔
          (side.other.row (indicated u' t)).temp.Same noTemp) := by
    rw [indicated_fontColor, indicated_fontColor, ← hsame.temp, fontColor_ne_iff, noData_iff side,
      noData_iff side, ← hsame.temp]
    tauto
  refine ⟨u, u', hu, hu', hsame, hdiffer, fun hne => ?_⟩
  obtain ⟨hreal, hcool, -⟩ := hdiffer.mp hne
  refine ⟨indicated_cool side u t hreal hcool, indicated_cool side u' t ?_ ?_⟩
  · rw [← hsame.temp]
    exact hreal
  · rw [← hsame.temp]
    exact hcool

/-- Twenty degrees of frost in the upper row, then nothing more. -/
def upperOnly : List (Turn 4) :=
  [⟨.all 1000, false, some (.steady topName (.ofInt _ (-20)))⟩, ⟨.all 2000, false, none⟩]

/-- The same, then three degrees in the lower row. -/
def bothRows : List (Turn 4) :=
  [⟨.all 1000, false, some (.steady topName (.ofInt _ (-20)))⟩,
    ⟨.all 2000, false, some (.steady botName (.ofInt _ 3))⟩]

private theorem upperOnly_wellNamed : ∀ k ∈ upperOnly, ∀ f ∈ k.received, f.WellNamed := by
  intro k hk f hf
  rcases List.mem_pair.mp hk with rfl | rfl
  · obtain rfl := Option.some.inj hf
    decide
  · cases hf

private theorem bothRows_wellNamed : ∀ k ∈ bothRows, ∀ f ∈ k.received, f.WellNamed := by
  intro k hk f hf
  rcases List.mem_pair.mp hk with rfl | rfl <;> obtain rfl := Option.some.inj hf <;> decide

private theorem upperOnly_same : List.Forall₂ (SameFor .top) upperOnly bothRows :=
  .cons ⟨rfl, rfl⟩ (.cons ⟨rfl, rfl⟩ .nil)

theorem rows_isolated_but_blue_upper : ∃ u u', run upperOnly .boot = .ok u ∧
    run bothRows .boot = .ok u' ∧ (indicated u (.all 3000)).top.temp = (indicated u' (.all 3000)).top.temp := by
  obtain ⟨u, u', hu, hu', hsame, _⟩ := rows_isolated_but_blue .top
    (fun k hk f hf => (upperOnly_wellNamed k hk f hf).1)
    (fun k hk f hf => (bothRows_wellNamed k hk f hf).1) upperOnly_same (.all 3000) .boot
  exact ⟨u, u', hu, hu', hsame.temp⟩

/-- The lower sensor's packet turns the upper row from blue to green. -/
theorem lower_packet_recolours_upper_row : ¬ ∀ (side : Side) (ks ks' : List (Turn 4)),
    (∀ k ∈ ks, ∀ f ∈ k.received, f.WellNamed) → (∀ k ∈ ks', ∀ f ∈ k.received, f.WellNamed) →
    List.Forall₂ (SameFor side) ks ks' → ∀ (t : Times) (s u u' : Dongle),
    run ks s = .ok u → run ks' s = .ok u' →
      side.row (indicated u t) = side.row (indicated u' t) := by
  intro hclaim
  have hcolor : (indicated (upperOnly.foldl (fun s k => k.result s) .boot) (.all 3000)).top.fontColor =
      .blue := by decide +kernel
  have hcolor' : (indicated (bothRows.foldl (fun s k => k.result s) .boot) (.all 3000)).top.fontColor =
      .darkGreen := by decide +kernel
  have hrow := congrArg Channel.fontColor
    (hclaim .top _ _ upperOnly_wellNamed bothRows_wellNamed upperOnly_same (.all 3000) .boot _ _
      (run_eq _ upperOnly_wellNamed _) (run_eq _ bothRows_wellNamed _))
  exact absurd (hcolor.symm.trans (hrow.trans hcolor')) (by decide)

end EspNowGateway.Display
