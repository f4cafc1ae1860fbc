import EspNowGateway.Display.Freshness

/-! A broken probe end to end: the sensor repeats a rejected measurement but sends the last one
all the same, and no later stage looks at it again. -/
namespace EspNowGateway.Display
open ByteLayout BinaryFloat Radio Sender

variable {tw : Nat}

/-- Outside the range that `tsReadDallas` accepts. -/
def OutOfRange (t : F32) : Prop := t.Lt (.ofInt _ (-50)) ∨ (Binary.ofInt _ 85).Le t

instance (t : F32) : Decidable (OutOfRange t) := inferInstanceAs (Decidable (_ ∨ _))

theorem OutOfRange.rejected {t : F32} (h : OutOfRange t) : Rejected t := by
  rcases h with h | h
  · exact Or.inl h
  · exact Or.inr (Or.inl h)

/-- The reading `v` is not taken for a good one: the LED does not say so at the next checks, and
the history has no new entry for it. -/
structure ShownAsFailed (side : Side) (v : F32) (before after : Dongle) (next : Times) : Prop where
  led : (after.updateTemp next).processTempIndication.colors ≠ ledOk
  history : (side.row after).history ≠ addToHistory (side.row before).history v

/-- The yellow limit is within the sensor's range. -/
private theorem yellowC_in_range (side : Side) : (Binary.ofInt _ (-50)).Lt side.yellowC ∧
    side.yellowC.Lt (.ofInt _ 85) := by
  cases side <;> decide +kernel

/-- The row takes over the last of three rejected readings. -/
private theorem handle_failed (side : Side) {s : Sensor tw} {w : Wake}
    (hup : s.radio.initRadio w.radio.init = true) (hname : s.espSenderName = side.name)
    (h₁ : OutOfRange w.sensors.first) (h₂ : OutOfRange w.sensors.second) (d : Dongle) (t : Times) :
    ∃ d', d.handle (some (SensorFrame.ofWake s w hup).packet) t = .ok d' ∧
      (side.row d').temp = w.sensors.third ∧ (side.row d').lastRcvd = millis (t.rcvd 0) ∧
      (side.row d').history = addToHistory (side.row d).history w.sensors.third ∧
      ∀ other : Side, other ≠ side → other.row d' = other.row d := by
  have hnamed : (SensorFrame.ofWake s w hup).WellNamed := by
    change (0 : Byte) ∉ s.espSenderName ∧ s.espSenderName.length < 256
    rw [hname]
    cases side <;> decide
  have htemp : (SensorFrame.ofWake s w hup).packet.tempC = w.sensors.third := by
    rw [(SensorFrame.ofWake_content s w hup).1, tsReadDallas_of_rejected h₁.rejected h₂.rejected]
  have hne : topName ≠ botName := by decide
  refine ⟨_, Dongle.handle_delivery ⟨SensorFrame.ofWake s w hup, t⟩ d hnamed, ?_⟩
  have hsender : (SensorFrame.ofWake s w hup).senderName = side.name := hname
  rw [Dongle.absorb, Channel.absorb, Channel.absorb]
  rw [hsender]
  cases side with
  | top =>
    simp only [Side.row, Side.name, hne, if_true, if_false, Channel.receive, htemp, true_and]
    rintro (_ | _) hother
    · exact absurd rfl hother
    · rfl
  | bot =>
    simp only [Side.row, Side.name, hne.symm, if_true, if_false, Channel.receive, htemp, true_and]
    rintro (_ | _) hother
    · rfl
    · exact absurd rfl hother

/-- With the other row fresh and cool the LED is OK exactly for a real reading below the range. -/
private theorem led_ok_iff {side : Side} {u : Dongle} {v : F32} (hv : OutOfRange v)
    (htemp : (side.row u).temp = v)
    (hother : ∀ other : Side, other ≠ side → ¬ (other.row u).temp.Same noTemp ∧
      ¬ other.yellowC.Lt (other.row u).temp) :
    u.ledColors = ledOk ↔ v.Lt (.ofInt _ (-50)) ∧ ¬ v.Same noTemp := by
  rw [(ledColors_iff u).2.2.2]
  constructor
  · rintro ⟨_, hyellow, hnone⟩
    have hcool : ¬ side.yellowC.Lt v := fun h => hyellow ⟨side, htemp.symm ▸ h⟩
    refine ⟨hv.resolve_right fun h => hcool ((yellowC_in_range side).2.trans_le h), fun h => ?_⟩
    exact hnone ⟨side, htemp.symm ▸ h⟩
  · rintro ⟨hcold, hreal⟩
    have hrow : ∀ row : Side, ¬ (row.row u).temp.Same noTemp ∧ ¬ row.yellowC.Lt (row.row u).temp := by
      intro row
      by_cases h : row = side
      · subst h
        rw [htemp]
        exact ⟨hreal, (hcold.trans (yellowC_in_range row).1).not_lt⟩
      · exact hother row h
    refine ⟨?_, ?_, ?_⟩
    · rintro ⟨row, h⟩
      exact (hrow row).2 (row.yellowC_lt_redC.trans h)
    · rintro ⟨row, h⟩
      exact (hrow row).2 h
    · rintro ⟨row, h⟩
      exact (hrow row).1 h

/-- The LED at the next checks, which still find the reading in force. -/
private theorem led_after_failed {side : Side} {d : Dongle} {v : F32} {rcvd : Nat} (hv : OutOfRange v)
    (htemp : (side.row d).temp = v) (hrcvd : (side.row d).lastRcvd = millis rcvd) (next : Times)
    (hyoung : (millis (side.check next) - millis rcvd).toNat ≤ tempLifeTimeMs)
    (hother : ∀ other : Side, other ≠ side → ¬ (other.row (d.updateTemp next)).temp.Same noTemp ∧
      ¬ other.yellowC.Lt (other.row (d.updateTemp next)).temp) :
    (d.updateTemp next).processTempIndication.colors = ledOk ↔
      v.Lt (.ofInt _ (-50)) ∧ ¬ v.Same noTemp := by
  refine led_ok_iff hv ?_ hother
  rw [updateTemp_row, Channel.expire, hrcvd, if_neg (Nat.not_lt_of_le hyoung), htemp]

/-- Whatever the probe returned and whatever the dongle showed before: the rejected reading
becomes an entry of the history, and below the range it turns the LED to OK. -/
theorem failed_probe_never_flagged (side : Side) {s : Sensor tw} {w : Wake}
    (hup : s.radio.initRadio w.radio.init = true) (hname : s.espSenderName = side.name)
    (h₁ : OutOfRange w.sensors.first) (h₂ : OutOfRange w.sensors.second)
    (h₃ : OutOfRange w.sensors.third) (d : Dongle) (t next : Times) :
    ∃ d', d.handle (some (SensorFrame.ofWake s w hup).packet) t = .ok d' ∧
      ¬ ShownAsFailed side w.sensors.third d d' next ∧
      ((millis (side.check next) - millis (t.rcvd 0)).toNat ≤ tempLifeTimeMs →
        (∀ other : Side, other ≠ side → ¬ (other.row (d'.updateTemp next)).temp.Same noTemp ∧
          ¬ other.yellowC.Lt (other.row (d'.updateTemp next)).temp) →
        ((d'.updateTemp next).processTempIndication.colors = ledOk ↔
          w.sensors.third.Lt (.ofInt _ (-50)) ∧ ¬ w.sensors.third.Same noTemp)) := by
  obtain ⟨d', hhandle, htemp, hrcvd, hhistory, _⟩ := handle_failed side hup hname h₁ h₂ d t
  exact ⟨d', hhandle, fun h => h.history hhistory, led_after_failed h₃ htemp hrcvd next⟩

/-- The sensor of the upper row, with a probe that answers -127. -/
def unplugged : Sensor 4 := ⟨.zero 4, 0, 0, 0, topName, .boot 4⟩

def unpluggedWake : Wake :=
  ⟨⟨.ofInt _ (-127), .ofInt _ (-127), .ofInt _ (-127)⟩, 3300, ⟨⟨true, .ok⟩, 0, true⟩⟩

/-- Four degrees in the lower row. -/
private def cool : Turn 4 := ⟨.all 1000, false, some (.steady botName (.ofInt _ 4))⟩

private theorem cool_wellNamed : ∀ k ∈ [cool], ∀ f ∈ k.received, f.WellNamed := by
  intro k hk f hf
  obtain rfl := List.mem_singleton.mp hk
  obtain rfl := Option.some.inj hf
  decide

private theorem unplugged_range : OutOfRange (.ofInt _ (-127)) := by decide +kernel

/-- The lower row is fresh and cool after whatever leaves it alone. -/
private theorem cool_other {d' : Dongle}
    (hrest : ∀ other : Side, other ≠ .top →
      other.row d' = other.row ((cool.result .boot).refresh (.all 2000) false)) :
    ∀ other : Side, other ≠ .top → ¬ (other.row (d'.updateTemp (.all 3000))).temp.Same noTemp ∧
      ¬ other.yellowC.Lt (other.row (d'.updateTemp (.all 3000))).temp := by
  rintro (_ | _) hne
  · exact absurd rfl hne
  · rw [updateTemp_row, hrest .bot hne]
    decide +kernel

theorem failed_probe_never_flagged_unplugged : ∃ d',
    ((cool.result .boot).refresh (.all 2000) false).handle
        (some (SensorFrame.ofWake unplugged unpluggedWake rfl).packet) (.all 2000) = .ok d' ∧
      ¬ ShownAsFailed .top (.ofInt _ (-127)) ((cool.result .boot).refresh (.all 2000) false) d'
        (.all 3000) ∧
      (d'.updateTemp (.all 3000)).processTempIndication.colors = ledOk := by
  obtain ⟨d', hhandle, hshown, hled⟩ := failed_probe_never_flagged .top (s := unplugged)
    (w := unpluggedWake) rfl rfl unplugged_range unplugged_range unplugged_range
    ((cool.result .boot).refresh (.all 2000) false) (.all 2000) (.all 3000)
  obtain ⟨d'', hhandle', -, -, -, hrest⟩ := handle_failed .top (s := unplugged)
    (w := unpluggedWake) rfl rfl unplugged_range unplugged_range
    ((cool.result .boot).refresh (.all 2000) false) (.all 2000)
  obtain rfl := Except.ok.inj (hhandle.symm.trans hhandle')
  refine ⟨d', hhandle, hshown, (hled ?_ (cool_other hrest)).mpr ?_⟩
  · decide
  · decide +kernel

/-- Four degrees in the lower row, then the unplugged probe in the upper one: a green LED. -/
theorem unplugged_probe_shown_ok : ¬ ∀ (side : Side) (s : Sensor 4) (w : Wake)
    (hup : s.radio.initRadio w.radio.init = true), s.espSenderName = side.name →
    OutOfRange w.sensors.first → OutOfRange w.sensors.second → OutOfRange w.sensors.third →
    ∀ (ks : List (Turn 4)) (d d' : Dongle) (t next : Times), run ks .boot = .ok d →
    (d.refresh t false).handle (some (SensorFrame.ofWake s w hup).packet) t = .ok d' →
    (∀ other : Side, other ≠ side → ¬ (other.row (d'.updateTemp next)).temp.Same noTemp ∧
      ¬ other.yellowC.Lt (other.row (d'.updateTemp next)).temp) →
    ShownAsFailed side w.sensors.third (d.refresh t false) d' next := by
  intro hclaim
  have hrun : run [cool] .boot = .ok (cool.result .boot) := run_eq _ cool_wellNamed _
  obtain ⟨d', hhandle, htemp, hrcvd, -, hrest⟩ := handle_failed .top (s := unplugged)
    (w := unpluggedWake) rfl rfl unplugged_range unplugged_range
    ((cool.result .boot).refresh (.all 2000) false) (.all 2000)
  have hother := cool_other hrest
  have hclaimed := hclaim .top unplugged unpluggedWake rfl rfl unplugged_range unplugged_range
    unplugged_range [cool] _ d' (.all 2000) (.all 3000) hrun hhandle hother
  exact hclaimed.led ((led_after_failed unplugged_range htemp hrcvd _ (by decide) hother).mpr
    (by decide +kernel))

end EspNowGateway.Display
