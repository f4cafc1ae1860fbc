import EspNowGateway.Display.Freshness

/-! Packets without a measurement. The sender's library marks a missing temperature or battery
value by `PARAM_NO_VAL_16`; the rows have a mark of their own and take this one for a number. -/
namespace EspNowGateway.Display
open ByteLayout BinaryFloat Radio Sender

variable {tw : Nat}

/-- One of the calls gives the packet the row's name. -/
def Names (side : Side) (cs : List AddCall) : Prop := ∃ c ∈ cs, deviceOf c = some side.name

/-- Yellow or red. -/
def Alarming (colors : LedColors) : Prop := colors = ledYellowZone ∨ colors = ledRedZone

/-- No temperature has changed, and the checks at `next` raise no alarm that was not there. -/
structure TemperaturesKept (before after : Dongle) (next : Times) : Prop where
  temp : ∀ side : Side, (side.row after).temp = (side.row before).temp
  history : ∀ side : Side, (side.row after).history = (side.row before).history
  quiet : ¬ Alarming before.colors → ¬ Alarming (indicated after next).colors

def VoltagesKept (before after : Dongle) : Prop :=
  ∀ side : Side, (side.row after).volts = (side.row before).volts

private theorem slotReadings_length (name : List Byte) (p : EspPacket tw) (t : Times) (cs : List AddCall) :
    (slotReadings name p t cs).length = cs.countP fun c => deviceOf c = some name := by
  conv_rhs => rw [← List.zipIdx_map_fst 0 cs, List.countP_map, List.countP_eq_length_filter]
  rw [slotReadings, List.length_map]
  rfl

private theorem slotReadings_ne_nil_iff {side : Side} {p : EspPacket tw} {t : Times}
    {cs : List AddCall} : slotReadings side.name p t cs ≠ [] ↔ Names side cs := by
  rw [← List.length_pos_iff, slotReadings_length, List.countP_pos_iff, Names]
  simp

/-- Every reading of one packet is the packet's. -/
private theorem slotReadings_uniform {name : List Byte} {p : EspPacket tw} {t : Times}
    {cs : List AddCall} {r : Reading} (hr : r ∈ slotReadings name p t cs) :
    r.tempC = p.tempC ∧ r.batVCC = p.batVCC := by
  obtain ⟨slot, _, rfl⟩ := List.mem_map.mp hr
  exact ⟨rfl, rfl⟩

/-- A log of one value over and over. -/
private theorem Shows.repeated {before c : Channel} {log : List Reading} (h : Shows before log c)
    (hne : log ≠ []) {tempC : F32} {batVCC : BitVec 16}
    (huniform : ∀ r ∈ log, r.tempC = tempC ∧ r.batVCC = batVCC) :
    c.temp = tempC ∧ c.volts = Display.volts batVCC ∧
      (c.history = before.history ↔ before.history = Vector.replicate historySize tempC) := by
  obtain ⟨hlastC, hlastV⟩ := huniform _ (List.getLast_mem hne)
  have htemps : (log.map fun r => r.tempC) = List.replicate log.length tempC := by
    rw [List.map_congr_left fun r hr => (huniform r hr).1, List.map_const']
  have hpush : c.history = (List.replicate log.length tempC).foldl SlidingWindow.push before.history := by
    rw [← Vector.toList_inj, SlidingWindow.toList_pushAll, h.history, htemps, List.length_replicate]
  refine ⟨?_, ?_, ?_⟩
  · rw [h.temp, List.getLast?_eq_some_getLast hne, Option.map_some, Option.getD_some, hlastC]
  · rw [h.volts, List.getLast?_eq_some_getLast hne, Option.map_some, Option.getD_some, hlastV]
  · rw [hpush]
    exact SlidingWindow.pushAll_replicate_eq_iff before.history tempC (List.length_pos_iff.mpr hne)

/-- What a packet of any add calls leaves in a row that it names, and in one that it does not. -/
private theorem handle_row {cs : List AddCall} {p : EspPacket tw} (hp : Represents cs p) (t : Times)
    (s : Dongle) : ∃ s', s.handle (some p) t = .ok s' ∧ ∀ side : Side,
      (Names side cs → (side.row s').temp = p.tempC ∧ (side.row s').volts = Display.volts p.batVCC ∧
        ((side.row s').history = (side.row s).history ↔
          (side.row s).history = Vector.replicate historySize p.tempC)) ∧
      (¬ Names side cs → side.row s' = side.row s) := by
  refine ⟨_, Dongle.handle_learns hp t s, fun side => ?_⟩
  have hrow : side.row { s with
      top := (slotReadings topName p t cs).foldl Channel.learn s.top
      bot := (slotReadings botName p t cs).foldl Channel.learn s.bot } =
      (slotReadings side.name p t cs).foldl Channel.learn (side.row s) := by
    cases side <;> rfl
  rw [hrow]
  constructor
  · intro hnamed
    exact (Channel.learn_shows _ _).repeated (slotReadings_ne_nil_iff.mpr hnamed)
      fun r hr => slotReadings_uniform hr
  · intro hother
    rw [not_not.mp (mt slotReadings_ne_nil_iff.mp hother), List.foldl_nil]

/-- The red limit is above the yellow one. -/
private theorem alarming_iff (s : Dongle) :
    Alarming s.ledColors ↔ ∃ side : Side, side.yellowC.Lt (side.row s).temp := by
  obtain ⟨hred, hyellow, _, _⟩ := ledColors_iff s
  rw [Alarming, hred, hyellow]
  constructor
  · rintro (⟨_, h⟩ | ⟨side, h⟩)
    · exact h
    · exact ⟨side, side.yellowC_lt_redC.trans h⟩
  · intro h
    by_cases hr : ∃ side : Side, side.redC.Lt (side.row s).temp
    · exact Or.inr hr
    · exact Or.inl ⟨hr, h⟩

/-- Up to the receiver the LED's colours are those of the rows. -/
private theorem refresh_colors (s : Dongle) (t : Times) (pressed : Bool) :
    (s.refresh t pressed).colors = (s.refresh t pressed).ledColors := by
  have hbutton (u : Dongle) : (u.processButton 15000 t pressed).colors = u.colors ∧
      (u.processButton 15000 t pressed).ledColors = u.ledColors := by
    rw [Dongle.processButton]
    split_ifs <;> exact ⟨rfl, rfl⟩
  have hscreen (u : Dongle) : (u.updateScreen t).colors = u.colors ∧
      (u.updateScreen t).ledColors = u.ledColors := by
    rw [Dongle.updateScreen]
    split <;> exact ⟨rfl, rfl⟩
  have h := hbutton (s.updateTemp t).processTempIndication
  rw [Dongle.refresh, (hscreen _).1, (hscreen _).2]
  exact h.1.trans h.2.symm

/-- A row that expires does not get above a limit. -/
private theorem quiet_of_temp {before after : Dongle} (hcolors : before.colors = before.ledColors)
    (htemp : ∀ side : Side, (side.row after).temp = (side.row before).temp) (next : Times) :
    ¬ Alarming before.colors → ¬ Alarming (indicated after next).colors := by
  change _ → ¬ Alarming (after.updateTemp next).ledColors
  rw [hcolors, alarming_iff, alarming_iff, not_imp_not]
  rintro ⟨side, hyellow⟩
  refine ⟨side, ?_⟩
  rw [updateTemp_row, Channel.expire] at hyellow
  split at hyellow
  · have hlimit : ¬ side.yellowC.Lt noTemp := by cases side <;> decide +kernel
    exact absurd hyellow hlimit
  · exact htemp side ▸ hyellow

/-- Rows that take the temperature `v` keep theirs when it is what they hold everywhere. -/
private theorem temperaturesKept_iff {before after : Dongle} {named : Side → Prop} {v : F32}
    (hcolors : before.colors = before.ledColors)
    (hin : ∀ side, named side → (side.row after).temp = v ∧
      ((side.row after).history = (side.row before).history ↔
        (side.row before).history = Vector.replicate historySize v))
    (hout : ∀ side, ¬ named side → side.row after = side.row before) (next : Times) :
    TemperaturesKept before after next ↔ ∀ side, named side → (side.row before).temp = v ∧
      (side.row before).history = Vector.replicate historySize v := by
  constructor
  · intro hkept side hnamed
    obtain ⟨htemp, hhistory⟩ := hin side hnamed
    exact ⟨(hkept.temp side).symm.trans htemp, hhistory.mp (hkept.history side)⟩
  · intro hmarked
    have htemp (side : Side) : (side.row after).temp = (side.row before).temp := by
      by_cases hnamed : named side
      · exact (hin side hnamed).1.trans (hmarked side hnamed).1.symm
      · rw [hout side hnamed]
    refine ⟨htemp, fun side => ?_, quiet_of_temp hcolors htemp next⟩
    by_cases hnamed : named side
    · exact (hin side hnamed).2.mpr (hmarked side hnamed).2
    · rw [hout side hnamed]

private theorem voltagesKept_iff {before after : Dongle} {named : Side → Prop} {v : F32}
    (hin : ∀ side, named side → (side.row after).volts = v)
    (hout : ∀ side, ¬ named side → side.row after = side.row before) :
    VoltagesKept before after ↔ ∀ side, named side → (side.row before).volts = v := by
  refine forall_congr' fun side => ?_
  by_cases hnamed : named side
  · rw [hin side hnamed]
    exact ⟨fun h _ => h.symm, fun h => (h hnamed).symm⟩
  · rw [hout side hnamed]
    exact ⟨fun _ h => absurd h hnamed, fun _ => rfl⟩

/-- A packet of any add calls without a temperature leaves both rows' temperatures alone exactly
when each row that it names shows the mark as a temperature already, now and in its whole
history; and without a battery value, when it shows the mark as a voltage. -/
theorem no_value_kept_iff {m f : Frame tw} {cs : List AddCall} {o : SendOutcome} {batVCC_ : BitVec 16}
    {tempC_ : F32} {timestamp_ : BitVec (8*tw)} {r : EspRadio tw}
    (hsent : broadcast m cs o batVCC_ tempC_ timestamp_ r = some f) (s : Dongle) (t next : Times)
    (pressed : Bool) :
    let before := s.refresh t pressed
    ∃ after, before.handle (some (load (EspPacket.layout tw) f)) t = .ok after ∧
      (tempC_ = RadioState.noTempC → (TemperaturesKept before after next ↔
        ∀ side : Side, Names side (cs.take paramMaxNum) →
          (side.row before).temp = RadioState.noTempC ∧
            (side.row before).history = Vector.replicate historySize RadioState.noTempC)) ∧
      (batVCC_ = RadioState.noBatVCC → (VoltagesKept before after ↔
        ∀ side : Side, Names side (cs.take paramMaxNum) →
          (side.row before).volts = volts RadioState.noBatVCC)) := by
  intro before
  obtain ⟨hheader, hp⟩ := broadcast_represents hsent
  obtain ⟨after, hafter, hrow⟩ := handle_row hp t before
  have hout (side : Side) := (hrow side).2
  refine ⟨after, hafter, ?_, ?_⟩
  · rintro rfl
    rw [hheader.tempC] at hrow
    refine temperaturesKept_iff (refresh_colors s t pressed) (fun side hnamed => ?_) hout next
    obtain ⟨htemp, _, hhistory⟩ := (hrow side).1 hnamed
    exact ⟨htemp, hhistory⟩
  · rintro rfl
    rw [hheader.batVCC] at hrow
    exact voltagesKept_iff (fun side hnamed => ((hrow side).1 hnamed).2.1) hout

/-- One call, with the upper sensor's name. -/
def unmeasured : List AddCall := [.string deviceNameKey topName]

private theorem unmeasured_names : Names .top (unmeasured.take paramMaxNum) :=
  ⟨.string deviceNameKey topName, List.mem_singleton.mpr rfl, by decide⟩

/-- The packet carries two default arguments, and the upper row of a fresh dongle takes both. -/
theorem no_value_kept_iff_unmeasured : ∃ (f : Frame 4) (after : Dongle),
    broadcast (Vector.replicate _ 0) unmeasured ⟨⟨true, .ok⟩, 0, true⟩ RadioState.noBatVCC
      RadioState.noTempC (RadioState.noTimestamp 4) (.boot 4) = some f ∧
    (Dongle.boot.refresh (.all 1000) false).handle (some (load (EspPacket.layout 4) f)) (.all 1000) =
      .ok after ∧
    ¬ TemperaturesKept (Dongle.boot.refresh (.all 1000) false) after (.all 2000) ∧
    ¬ VoltagesKept (Dongle.boot.refresh (.all 1000) false) after := by
  have hsent : broadcast (Vector.replicate _ 0) unmeasured ⟨⟨true, .ok⟩, 0, true⟩ RadioState.noBatVCC
      RadioState.noTempC (RadioState.noTimestamp 4) (.boot 4) = some _ := rfl
  obtain ⟨after, hafter, htemp, hvolts⟩ :=
    no_value_kept_iff hsent .boot (.all 1000) (.all 2000) false
  refine ⟨_, after, hsent, hafter, fun h => ?_, fun h => ?_⟩
  · exact absurd ((htemp rfl).mp h .top unmeasured_names).1 (by decide +kernel)
  · exact absurd ((hvolts rfl).mp h .top unmeasured_names) (by decide +kernel)

/-- A missing temperature becomes the row's temperature. -/
theorem missing_temperature_stored : ¬ ∀ (m f : Frame 4) (cs : List AddCall) (o : SendOutcome)
    (batVCC_ : BitVec 16) (tempC_ : F32) (timestamp_ : BitVec (8*4)) (r : EspRadio 4),
    broadcast m cs o batVCC_ tempC_ timestamp_ r = some f →
    (∃ side, Names side (cs.take paramMaxNum)) →
    ∀ (ks : List (Turn 4)) (s after : Dongle) (t next : Times) (pressed : Bool), run ks .boot = .ok s →
    (s.refresh t pressed).handle (some (load (EspPacket.layout 4) f)) t = .ok after →
      (tempC_ = RadioState.noTempC → TemperaturesKept (s.refresh t pressed) after next) ∧
        (batVCC_ = RadioState.noBatVCC → VoltagesKept (s.refresh t pressed) after) := by
  intro hclaim
  have hsent : broadcast (Vector.replicate _ 0) unmeasured ⟨⟨true, .ok⟩, 0, true⟩ RadioState.noBatVCC
      RadioState.noTempC (RadioState.noTimestamp 4) (.boot 4) = some _ := rfl
  obtain ⟨hheader, hp⟩ := broadcast_represents hsent
  obtain ⟨after, hafter, hrow⟩ := handle_row hp (.all 1000) (Dongle.boot.refresh (.all 1000) false)
  have hkept := (hclaim _ _ _ _ _ _ _ _ hsent ⟨.top, unmeasured_names⟩ [] .boot after (.all 1000)
    (.all 2000) false rfl hafter).1 rfl
  have htemp := ((hrow .top).1 unmeasured_names).1
  rw [hheader.tempC, hkept.temp .top] at htemp
  exact absurd htemp (by decide +kernel)

end EspNowGateway.Display
