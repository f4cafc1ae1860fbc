import EspNowGateway.Display.Routing
import EspNowGateway.Foundations.ExpiringRegister

/-! Whole runs of the dongle's loop against real time. Each row is an expiring register over the
wrapping clock; what it shows after `updateTemp` is its sensor's reading of the last quarter of
an hour, and the LED follows from these readings. -/
namespace EspNowGateway.Display
open ByteLayout BinaryFloat Radio Sender ExpiringRegister

variable {tw : Nat}

/-- The two rows, with their own names and limits. -/
inductive Side where
  | top
  | bot
  deriving DecidableEq, Repr

namespace Side

def name : Side → List Byte
  | .top => topName
  | .bot => botName

def redC : Side → F32
  | .top => topRedC
  | .bot => botRedC

def yellowC : Side → F32
  | .top => topYellowC
  | .bot => botYellowC

def row : Side → Dongle → Channel
  | .top, s => s.top
  | .bot, s => s.bot

def check : Side → Times → Nat
  | .top, t => t.topCheck
  | .bot, t => t.botCheck

def other : Side → Side
  | .top => .bot
  | .bot => .top

theorem yellowC_lt_redC (side : Side) : side.yellowC.Lt side.redC := by
  cases side <;> decide +kernel

theorem check_le_rcvd (side : Side) (t : Times) : side.check t ≤ t.rcvd 0 := by
  cases side
  · exact t.checks.trans (t.rcvdLast 0)
  · exact t.rcvdLast 0

end Side

/-- One turn of the loop in a run: its clock readings, the button and the packet it received. -/
structure Turn (tw : Nat) where
  times : Times
  pressed : Bool
  received : Option (SensorFrame tw)

namespace Turn

/-- The reading of the sensor `name` that the turn processed, and when. -/
def reading (name : List Byte) (k : Turn tw) : Option (Nat × F32) :=
  k.received.bind fun f =>
    if f.senderName = name then some (k.times.rcvd 0, f.packet.tempC) else none

theorem reading_time {name : List Byte} {k : Turn tw} {a : Nat × F32} (h : a ∈ k.reading name) :
    a.1 = k.times.rcvd 0 := by
  rw [reading] at h
  cases hk : k.received with
  | none => simp [hk] at h
  | some f =>
    rw [hk, Option.bind_some, Option.mem_def] at h
    split at h
    · exact (Option.some.inj h) ▸ rfl
    · cases h

/-- The turn as its row's register sees it. -/
def round (side : Side) (k : Turn tw) : Round F32 where
  check := side.check k.times
  arrival := k.reading side.name
  ordered _ ha := reading_time ha ▸ side.check_le_rcvd k.times

end Turn

/-- Turns follow each other in real time, and two checks of a row are closer than the 32-bit
clock's blind spot. -/
def Spaced (k next : Turn tw) : Prop :=
  k.times.rcvd 0 ≤ next.times.topCheck ∧
    next.times.topCheck - k.times.topCheck < 2^32 - tempLifeTimeMs ∧
    next.times.botCheck - k.times.botCheck < 2^32 - tempLifeTimeMs

theorem Spaced.follows {k next : Turn tw} (h : Spaced k next) (side : Side) :
    Follows 32 tempLifeTimeMs (k.round side) (next.round side) := by
  obtain ⟨hnext, htop, hbot⟩ := h
  have hle : k.times.rcvd 0 ≤ side.check next.times := by
    cases side
    · exact hnext
    · exact hnext.trans next.times.checks
  refine ⟨fun a ha => ?_, (side.check_le_rcvd k.times).trans hle, ?_⟩
  · rw [Turn.reading_time ha]
    exact hle
  · cases side
    · exact htop
    · exact hbot

/-- The row holds what the register holds; `noTemp` stands for an empty register. -/
structure Holds (r : Register F32 32) (c : Channel) : Prop where
  temp : c.temp = r.value.getD noTemp
  lastRcvd : c.lastRcvd = r.stamp
  real : ∀ v ∈ r.value, ¬ v.Same noTemp

theorem Holds.expire {r : Register F32 32} {c : Channel} (h : Holds r c) (t : Nat) :
    Holds (expire tempLifeTimeMs t r) (c.expire (millis t)) := by
  obtain ⟨htemp, hstamp, hreal⟩ := h
  rw [ExpiringRegister.expire, Channel.expire, hstamp]
  split
  · exact ⟨rfl, rfl, by simp⟩
  · exact ⟨htemp, hstamp, hreal⟩

/-- The sentinel marks exactly the empty register. -/
theorem Holds.no_temp_iff {r : Register F32 32} {c : Channel} (h : Holds r c) :
    c.temp.Same noTemp ↔ r.value = none := by
  rw [h.temp]
  cases hv : r.value with
  | none => simp [same_noTemp_iff]
  | some v => simp [h.real v hv]

theorem Holds.of_same {r : Register F32 32} {c c' : Channel} (h : Holds r c)
    (htemp : c'.temp = c.temp) (hrcvd : c'.lastRcvd = c.lastRcvd) : Holds r c' :=
  ⟨htemp.trans h.temp, hrcvd.trans h.lastRcvd, h.real⟩

/-- Two states of a row that differ at most in the colour of its text. -/
structure SameReadings (c c' : Channel) : Prop where
  temp : c.temp = c'.temp
  lastRcvd : c.lastRcvd = c'.lastRcvd
  volts : c.volts = c'.volts
  history : c.history = c'.history

/-- Between the check and the receiver the loop changes no row's value. -/
theorem refresh_row (side : Side) (t : Times) (pressed : Bool) (s : Dongle) :
    SameReadings (side.row (s.refresh t pressed)) ((side.row s).expire (millis (side.check t))) := by
  have hbutton (u : Dongle) : side.row (u.processButton 15000 t pressed) = side.row u := by
    rw [Dongle.processButton]
    cases side <;> split_ifs <;> rfl
  have hscreen (u : Dongle) : side.row (u.updateScreen t) = side.row u := by
    rw [Dongle.updateScreen]
    cases side <;> split <;> rfl
  have hrow : side.row (s.refresh t pressed) = side.row (s.updateTemp t).processTempIndication := by
    rw [Dongle.refresh, hscreen]
    cases side
    · exact hbutton (s.updateTemp t).processTempIndication
    · exact hbutton (s.updateTemp t).processTempIndication
  rw [hrow]
  cases side <;> exact ⟨rfl, rfl, rfl, rfl⟩

namespace Turn

def apply (k : Turn tw) (s : Dongle) : Except Fault Dongle :=
  s.turn k.times k.pressed (k.received.map SensorFrame.packet)

/-- The state after the turn. -/
def result (k : Turn tw) (s : Dongle) : Dongle :=
  match k.received with
  | none => s.refresh k.times k.pressed
  | some f => (s.refresh k.times k.pressed).absorb ⟨f, k.times⟩

/-- A received packet is a sensor's, with a temperature that is not the dongle's sentinel. -/
def Measured (k : Turn tw) : Prop :=
  ∀ f ∈ k.received, f.WellNamed ∧ ¬ f.packet.tempC.Same noTemp

theorem apply_eq {k : Turn tw} (hk : ∀ f ∈ k.received, f.WellNamed) (s : Dongle) :
    k.apply s = .ok (k.result s) := by
  rw [apply, result, Dongle.turn]
  cases hr : k.received with
  | none => rfl
  | some f => exact Dongle.handle_delivery ⟨f, k.times⟩ _ (hk f hr)

end Turn

/-- One turn of the loop is one turn of the row's register. -/
theorem Holds.turn {r : Register F32 32} {side : Side} {s : Dongle} (h : Holds r (side.row s))
    {k : Turn tw} (hk : k.Measured) :
    Holds (poll tempLifeTimeMs r (k.round side)) (side.row (k.result s)) := by
  have hrow := refresh_row side k.times k.pressed s
  have hchecked := (h.expire (side.check k.times)).of_same hrow.temp hrow.lastRcvd
  rw [poll, Turn.result]
  cases hr : k.received with
  | none =>
    have harr : (k.round side).arrival = none := by simp [Turn.round, Turn.reading, hr]
    rw [harr]
    exact hchecked
  | some f =>
    have hrow : side.row ((s.refresh k.times k.pressed).absorb ⟨f, k.times⟩) =
        (side.row (s.refresh k.times k.pressed)).absorb side.name ⟨f, k.times⟩ := by
      cases side <;> rfl
    dsimp only
    rw [hrow, Channel.absorb]
    by_cases hname : f.senderName = side.name
    · have harr : (k.round side).arrival = some (k.times.rcvd 0, f.packet.tempC) := by
        simp [Turn.round, Turn.reading, hr, hname]
      rw [harr, if_pos hname]
      exact ⟨rfl, rfl, fun v hv => Option.some.inj hv ▸ (hk f hr).2⟩
    · have harr : (k.round side).arrival = none := by
        simp [Turn.round, Turn.reading, hr, hname]
      rw [harr, if_neg hname]
      exact hchecked

def run (ks : List (Turn tw)) (s : Dongle) : Except Fault Dongle :=
  ks.foldlM (fun s k => k.apply s) s

theorem run_eq (ks : List (Turn tw)) (hks : ∀ k ∈ ks, ∀ f ∈ k.received, f.WellNamed) (s : Dongle) :
    run ks s = .ok (ks.foldl (fun s k => k.result s) s) := by
  induction ks generalizing s with
  | nil => rfl
  | cons k ks ih =>
    rw [run, List.foldlM_cons, Turn.apply_eq (hks k (by simp))]
    exact ih (fun j hj => hks j (by simp [hj])) _

/-- The loop on the radio: in each turn its packet arrives, if there is one, and the turn's
`processReceiver` takes it. -/
def runOnAir (ks : List (Turn tw × Air)) (s : Dongle × EspRadio tw) :
    Except Fault (Dongle × EspRadio tw) :=
  ks.foldlM (fun s k => Dongle.onAir k.1.received k.2 k.1.times
    (s.1.refresh k.1.times k.1.pressed, s.2)) s

theorem runOnAir_eq (ks : List (Turn tw × Air))
    (hks : ∀ k ∈ ks.map Prod.fst, ∀ f ∈ k.received, f.WellNamed) (s : Dongle) {r : EspRadio tw}
    (hr : r.Ready []) :
    ∃ r', runOnAir ks (s, r) = .ok ((ks.map Prod.fst).foldl (fun s k => k.result s) s, r') ∧
      r'.Ready [] := by
  refine Dongle.foldlM_ready (f := fun s (k : Turn tw) => k.result s) (fun k hk s r hr => ?_) s hr
  have hname := hks k.1 (List.mem_map_of_mem hk)
  exact Dongle.onAir_ready k.1.received k.2 k.1.times (Turn.apply_eq hname s) hr

/-- A run of the loop is a run of both registers. -/
theorem run_holds (ks : List (Turn tw)) (hks : ∀ k ∈ ks, k.Measured) {s : Dongle}
    {r : Side → Register F32 32} (h : ∀ side, Holds (r side) (side.row s)) :
    ∃ s', run ks s = .ok s' ∧ ∀ side : Side, Holds
      ((ks.map fun k => k.round side).foldl (poll tempLifeTimeMs) (r side)) (side.row s') := by
  refine ⟨_, run_eq ks (fun k hk f hf => (hks k hk f hf).1) s, ?_⟩
  induction ks generalizing s r with
  | nil => exact h
  | cons k ks ih =>
    exact ih (fun j hj => hks j (by simp [hj])) fun side => (h side).turn (hks k (by simp))

/-- The turn that has only got as far as its checks. -/
def Turn.idle (t : Times) : Turn tw := ⟨t, false, none⟩

/-- The run `ks` and the checks at `t` keep to the spacing of the clock. -/
def Paced (ks : List (Turn tw)) (t : Times) : Prop := List.IsChain Spaced (ks ++ [.idle t])

/-- The sensor's last reading in a run, and when it was processed. -/
def lastReading (name : List Byte) (ks : List (Turn tw)) : Option (Nat × F32) :=
  ks.foldl (fun last k => (k.reading name).or last) none

/-- The sensor's last reading, if it is young enough at the row's check. -/
def fresh (side : Side) (ks : List (Turn tw)) (t : Times) : Option F32 :=
  inForce tempLifeTimeMs (side.check t) (lastReading side.name ks)

/-- What the LED says about the readings `v`. -/
structure Alarm (v : Side → Option F32) (colors : LedColors) : Prop where
  red : colors = ledRedZone ↔ ∃ side, ∃ x ∈ v side, side.redC.Lt x
  yellow : colors = ledYellowZone ↔
    (¬ ∃ side, ∃ x ∈ v side, side.redC.Lt x) ∧ ∃ side, ∃ x ∈ v side, side.yellowC.Lt x
  noData : colors = ledNoData ↔
    (¬ ∃ side, ∃ x ∈ v side, side.redC.Lt x) ∧ (¬ ∃ side, ∃ x ∈ v side, side.yellowC.Lt x) ∧
      ∃ side, v side = none
  ok : colors = ledOk ↔
    (¬ ∃ side, ∃ x ∈ v side, side.redC.Lt x) ∧ (¬ ∃ side, ∃ x ∈ v side, side.yellowC.Lt x) ∧
      ¬ ∃ side, v side = none

private theorem exceeds_iff {limit : F32} (hlimit : ¬ limit.Lt noTemp) (v : Option F32) :
    limit.Lt (v.getD noTemp) ↔ ∃ x ∈ v, limit.Lt x := by
  cases v with
  | none => simp [hlimit]
  | some x => simp

private theorem exists_side (P : Side → Prop) : (∃ side, P side) ↔ P .top ∨ P .bot := by
  constructor
  · rintro ⟨_ | _, h⟩
    · exact Or.inl h
    · exact Or.inr h
  · rintro (h | h)
    · exact ⟨.top, h⟩
    · exact ⟨.bot, h⟩

/-- The four colours are different, so the one that is set tells which condition was the last. -/
private theorem colors_iff (R Y N : Prop) [Decidable R] [Decidable Y] [Decidable N] :
    let colors := if R then ledRedZone else if Y then ledYellowZone else if N then ledNoData else ledOk
    (colors = ledRedZone ↔ R) ∧ (colors = ledYellowZone ↔ ¬ R ∧ Y) ∧
      (colors = ledNoData ↔ ¬ R ∧ ¬ Y ∧ N) ∧ (colors = ledOk ↔ ¬ R ∧ ¬ Y ∧ ¬ N) := by
  have hdistinct : ledRedZone ≠ ledYellowZone ∧ ledRedZone ≠ ledNoData ∧ ledRedZone ≠ ledOk ∧
      ledYellowZone ≠ ledNoData ∧ ledYellowZone ≠ ledOk ∧ ledNoData ≠ ledOk := by decide
  obtain ⟨hry, hrn, hro, hyn, hyo, hno⟩ := hdistinct
  by_cases hR : R
  · simp [hR, hry, hrn, hro]
  · by_cases hY : Y
    · simp [hR, hY, hry.symm, hyn, hyo]
    · by_cases hN : N
      · simp [hR, hY, hN, hrn.symm, hyn.symm, hno]
      · simp [hR, hY, hN, hro.symm, hyo.symm, hno.symm]

/-- The LED against the two rows. -/
theorem ledColors_iff (s : Dongle) :
    let red := ∃ side : Side, side.redC.Lt (side.row s).temp
    let yellow := ∃ side : Side, side.yellowC.Lt (side.row s).temp
    let noData := ∃ side : Side, (side.row s).temp.Same noTemp
    (s.ledColors = ledRedZone ↔ red) ∧ (s.ledColors = ledYellowZone ↔ ¬ red ∧ yellow) ∧
      (s.ledColors = ledNoData ↔ ¬ red ∧ ¬ yellow ∧ noData) ∧
      (s.ledColors = ledOk ↔ ¬ red ∧ ¬ yellow ∧ ¬ noData) := by
  simp only [exists_side]
  exact colors_iff (topRedC.Lt s.top.temp ∨ botRedC.Lt s.bot.temp)
    (topYellowC.Lt s.top.temp ∨ botYellowC.Lt s.bot.temp) s.NoData

/-- The colours follow from what the two registers hold. -/
theorem alarm_of_holds {s : Dongle} {r : Side → Register F32 32}
    (h : ∀ side : Side, Holds (r side) (side.row s)) :
    Alarm (fun side => (r side).value) s.ledColors := by
  have hlimits : ∀ side : Side, ¬ side.redC.Lt noTemp ∧ ¬ side.yellowC.Lt noTemp := by
    intro side
    cases side <;> decide +kernel
  have hR : (∃ side : Side, side.redC.Lt (side.row s).temp) ↔
      ∃ side : Side, ∃ x ∈ (r side).value, side.redC.Lt x := exists_congr fun side => by
    rw [(h side).temp, exceeds_iff (hlimits side).1]
  have hY : (∃ side : Side, side.yellowC.Lt (side.row s).temp) ↔
      ∃ side : Side, ∃ x ∈ (r side).value, side.yellowC.Lt x := exists_congr fun side => by
    rw [(h side).temp, exceeds_iff (hlimits side).2]
  have hN : (∃ side : Side, (side.row s).temp.Same noTemp) ↔ ∃ side, (r side).value = none :=
    exists_congr fun side => (h side).no_temp_iff
  obtain ⟨hred, hyellow, hnone, hok⟩ := ledColors_iff s
  constructor
  · exact hred.trans hR
  · exact hyellow.trans (and_congr (not_congr hR) hY)
  · exact hnone.trans (and_congr (not_congr hR) (and_congr (not_congr hY) hN))
  · exact hok.trans (and_congr (not_congr hR) (and_congr (not_congr hY) (not_congr hN)))

private theorem boot_holds (side : Side) : Holds ⟨none, 0⟩ (side.row .boot) := by
  cases side <;> exact ⟨rfl, rfl, by simp⟩

theorem updateTemp_row (side : Side) (t : Times) (s : Dongle) :
    side.row (s.updateTemp t) = (side.row s).expire (millis (side.check t)) := by
  cases side <;> rfl

/-- The state right after `processTempIndication` at `t`. -/
def indicated (s : Dongle) (t : Times) : Dongle := (s.updateTemp t).processTempIndication

theorem indicated_row (side : Side) (s : Dongle) (t : Times) :
    SameReadings (side.row (indicated s t)) ((side.row s).expire (millis (side.check t))) := by
  cases side <;> exact ⟨rfl, rfl, rfl, rfl⟩

/-- Over any run, on a started receiver or without the radio's part, however often the clock wraps:
right after `updateTemp` a row holds its sensor's last reading exactly while that is young enough,
and the LED then tells the most urgent of the fresh readings. -/
theorem fresh_readings_and_alarm (ks : List (Turn tw)) (t : Times) (hks : ∀ k ∈ ks, k.Measured)
    (hpaced : Paced ks t) :
    ∃ s, run ks .boot = .ok s ∧
      (∀ side : Side,
        (¬ (side.row (s.updateTemp t)).temp.Same noTemp ↔
          ∃ k ∈ ks, ∃ a ∈ k.reading side.name, side.check t - a.1 ≤ tempLifeTimeMs) ∧
        (side.row (s.updateTemp t)).temp = (fresh side ks t).getD noTemp) ∧
      Alarm (fun side => fresh side ks t) (s.updateTemp t).processTempIndication.colors ∧
      ∀ (ks' : List (Turn tw × Air)) (r : EspRadio tw), ks'.map Prod.fst = ks → r.Ready [] →
        ∃ r', runOnAir ks' (.boot, r) = .ok (s, r') ∧ r'.Ready [] := by
  obtain ⟨s, hrun, hs⟩ := run_holds ks hks boot_holds
  have hchain (side : Side) : List.IsChain (Follows 32 tempLifeTimeMs)
      (ks.map (fun k => k.round side) ++ [.checkOnly (side.check t)]) := by
    have h := (List.isChain_map (fun k : Turn tw => k.round side)).mpr
      (hpaced.imp fun k next h => h.follows side)
    rwa [List.map_append] at h
  have hlast (side : Side) : latest none (ks.map fun k => k.round side) = lastReading side.name ks :=
    List.foldl_map
  have hvalue (side : Side) := expire_value _ _ ⟨none, 0⟩ rfl (hchain side)
  have hholds (side : Side) := (hs side).expire (side.check t)
  simp only [← updateTemp_row] at hholds
  refine ⟨s, hrun, fun side => ⟨?_, ?_⟩, ?_, ?_⟩
  · rw [(hholds side).no_temp_iff, hvalue, ← ne_eq, ← Option.isSome_iff_ne_none,
      inForce_isSome_iff (hchain side)]
    simp [Turn.round]
  · rw [(hholds side).temp, hvalue, hlast, fresh]
  · have h := alarm_of_holds hholds
    simp only [hvalue, hlast] at h
    exact h
  · rintro ks' r rfl hr
    have hnamed : ∀ k ∈ ks'.map Prod.fst, ∀ f ∈ k.received, f.WellNamed :=
      fun k hk f hf => (hks k hk f hf).1
    obtain ⟨r', hair, hr'⟩ := runOnAir_eq ks' hnamed .boot hr
    obtain rfl := Except.ok.inj (hrun.symm.trans (run_eq _ hnamed .boot))
    exact ⟨r', hair, hr'⟩

/-- Twenty degrees in the lower row, read again just after the clock has wrapped. -/
theorem fresh_readings_and_alarm_wrapped : ∃ s,
    run [⟨.all (2^32 - 100), false, some (.steady botName (.ofInt _ 20))⟩] .boot = .ok s ∧
      (s.updateTemp (.all (2^32 + 100))).processTempIndication.colors = ledRedZone := by
  have hmeasured : ∀ k ∈ [(⟨.all (2^32 - 100), false, some (.steady botName (.ofInt _ 20))⟩ : Turn 4)],
      k.Measured := by
    intro k hk f hf
    obtain rfl := List.mem_singleton.mp hk
    obtain rfl := Option.some.inj hf
    rw [SensorFrame.steady_tempC]
    exact ⟨by decide, by decide +kernel⟩
  have hpaced : Paced [(⟨.all (2^32 - 100), false, some (.steady botName (.ofInt _ 20))⟩ : Turn 4)]
      (.all (2^32 + 100)) := by
    refine List.isChain_cons_cons.mpr ⟨⟨?_, ?_, ?_⟩, List.isChain_singleton _⟩ <;> decide
  obtain ⟨s, hrun, _, halarm, _⟩ := fresh_readings_and_alarm _ _ hmeasured hpaced
  refine ⟨s, hrun, halarm.red.mpr ⟨.bot, _, rfl, ?_⟩⟩
  rw [SensorFrame.steady_tempC]
  decide +kernel

end EspNowGateway.Display
