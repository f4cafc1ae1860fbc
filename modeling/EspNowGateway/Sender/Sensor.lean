import EspNowGateway.Radio.PacketBuilder

/-! The battery sensor: a temperature measured up to three times, a battery reading that is
kept over deep sleeps, and the one packet that a wake-up broadcasts. -/
namespace EspNowGateway.Sender
open ByteLayout BinaryFloat CArray Radio

def deviceNameKey : List Byte := ascii "deviceName"
def tempErrCountKey : List Byte := ascii "tempErrCount"

def sendVccAfterBoots : Int := 10

/-- What `getTempCByIndex(0)` returns, call after call; most wake-ups ask only once. -/
structure Readings where
  first : F32
  second : F32
  third : F32

/-- Outside the sensor's range, or its power-on value. -/
def Rejected (t : F32) : Prop :=
  t.Lt (.ofInt _ (-50)) ∨ (Binary.ofInt _ 85).Le t ∨ t.Same (.ofInt _ 25)

instance (t : F32) : Decidable (Rejected t) := inferInstanceAs (Decidable (_ ∨ _ ∨ _))

/-- The third reading is returned unchecked. -/
def tsReadDallas (sensors : Readings) (errCount : BitVec 32) : F32 × BitVec 32 :=
  let (t, next, errCount) :=
    if Rejected sensors.first then (sensors.second, sensors.third, errCount + 1)
    else (sensors.first, sensors.second, errCount)
  if Rejected t then (next, errCount + 1) else (t, errCount)

/-- Three readings that are all rejected: the last one is the measured temperature anyway. -/
theorem tsReadDallas_of_rejected {sensors : Readings} (h₁ : Rejected sensors.first)
    (h₂ : Rejected sensors.second) (errCount : BitVec 32) :
    tsReadDallas sensors errCount = (sensors.third, errCount + 1 + 1) := by
  simp only [tsReadDallas, h₁, h₂, if_true]

theorem tsReadDallas_of_accepted {sensors : Readings} (h : ¬ Rejected sensors.first)
    (errCount : BitVec 32) : tsReadDallas sensors errCount = (sensors.first, errCount) := by
  simp only [tsReadDallas, h, if_false]

/-- The globals of the sender and its radio. -/
structure Sensor (tw : Nat) where
  rData : EspPacket tw
  vccMv : Int
  vccCntr : Int
  tempErrCount : BitVec 32
  espSenderName : List Byte
  radio : EspRadio tw

/-- What the outside answers during one wake-up. -/
structure Wake where
  sensors : Readings
  batteryMv : Int
  radio : SendOutcome

/-- The language's conversion to `uint16_t`; out of range values wrap on this target. -/
def toUint16 (x : F32) : BitVec 16 := BitVec.ofInt 16 x.truncate

namespace Sensor
variable {tw : Nat}

/-- A cold start. -/
def powerUp (tw : Nat) (espSenderName : List Byte) : Sensor tw :=
  ⟨.initial tw, 0, sendVccAfterBoots, 0, espSenderName, .boot tw⟩

/-- A wake-up from deep sleep: RTC memory alone has kept its values. -/
def deepSleep (s : Sensor tw) : Sensor tw :=
  { s with rData := .initial tw, radio := s.radio.deepSleep }

/-- The battery is measured on every eleventh call. -/
def getVcc (batteryMv : Int) (s : Sensor tw) : Int × Sensor tw :=
  let s := if s.vccCntr < sendVccAfterBoots then { s with vccCntr := s.vccCntr + 1 }
    else { s with vccCntr := 0, vccMv := batteryMv }
  (s.vccMv, s)

def sendEspPacket (w : Wake) (s : Sensor tw) : Sensor tw × Option (Frame tw) :=
  let (tempC, tempErrCount) := tsReadDallas w.sensors s.tempErrCount
  let s := { s with tempErrCount := tempErrCount }
  let (vcc, s) := s.getVcc w.batteryMv
  let batVmv : F32 := .ofInt _ vcc
  let rData := s.rData.erase
  let rData := (rData.addString deviceNameKey s.espSenderName).2
  let rData := (rData.addNumeric tempErrCountKey (.ofNat _ s.tempErrCount.toNat)).2
  let sent := RadioState.sendPacket w.radio rData (toUint16 batVmv) tempC
    (RadioState.noTimestamp tw) s.radio
  ({ s with rData := sent.rData, radio := sent.radio }, sent.frame)

/-- The add calls of a packet: the sender's name and its error count. -/
def addCalls (espSenderName : List Byte) (tempErrCount : BitVec 32) : List AddCall :=
  [.string deviceNameKey espSenderName, .numeric tempErrCountKey (.ofNat _ tempErrCount.toNat)]

@[simp] theorem getVcc_espSenderName (b : Int) (s : Sensor tw) :
    (s.getVcc b).2.espSenderName = s.espSenderName := by
  rw [getVcc]
  split <;> rfl

@[simp] theorem getVcc_tempErrCount (b : Int) (s : Sensor tw) :
    (s.getVcc b).2.tempErrCount = s.tempErrCount := by
  rw [getVcc]
  split <;> rfl

/-- What a wake-up hands to the radio: the broadcast of the two add calls with the measurement
in the header. -/
theorem sendEspPacket_frame (w : Wake) (s : Sensor tw) :
    let measured := tsReadDallas w.sensors s.tempErrCount
    let kept := ({ s with tempErrCount := measured.2 }).getVcc w.batteryMv
    (s.sendEspPacket w).2 = broadcast (store (EspPacket.layout tw) kept.2.rData)
      (addCalls s.espSenderName measured.2) w.radio (toUint16 (.ofInt _ kept.1)) measured.1
      (RadioState.noTimestamp tw) kept.2.radio := by
  intro measured kept
  rw [broadcast, load_store]
  simp only [sendEspPacket, addCalls, List.foldl_cons, List.foldl_nil, EspPacket.add,
    getVcc_espSenderName, getVcc_tempErrCount]
  rfl

@[simp] theorem getVcc_radio (b : Int) (s : Sensor tw) : (s.getVcc b).2.radio = s.radio := by
  rw [getVcc]
  split <;> rfl

/-- With the radio up, the packet that the wake-up leaves behind has been handed over. -/
theorem sendEspPacket_sent (s : Sensor tw) (w : Wake) (h : s.radio.initRadio w.radio.init = true) :
    (s.sendEspPacket w).2 = some (store (EspPacket.layout tw) (s.sendEspPacket w).1.rData) := by
  simp only [sendEspPacket, RadioState.sendPacket_frame, getVcc_radio, h, if_true]

end Sensor

/-- A packet in the air: some sender of that name has broadcast it. -/
structure SensorFrame (tw : Nat) where
  senderName : List Byte
  packet : EspPacket tw
  sent : ∃ (s : Sensor tw) (w : Wake), s.espSenderName = senderName ∧
    (s.sendEspPacket w).2 = some (store (EspPacket.layout tw) packet)

namespace SensorFrame
variable {tw : Nat}

/-- The sender's name is a C string short enough for its 8-bit length. -/
def WellNamed (f : SensorFrame tw) : Prop :=
  (0 : Byte) ∉ f.senderName ∧ f.senderName.length < 256

instance (f : SensorFrame tw) : Decidable f.WellNamed := inferInstanceAs (Decidable (_ ∧ _))

/-- The packet of a wake-up that reached the radio. -/
def ofWake (s : Sensor tw) (w : Wake) (h : s.radio.initRadio w.radio.init = true) :
    SensorFrame tw where
  senderName := s.espSenderName
  packet := (s.sendEspPacket w).1.rData
  sent := ⟨s, w, rfl, s.sendEspPacket_sent w h⟩

private theorem broadcast_of_sent (f : SensorFrame tw) : ∃ m cs o b t ts r, ∃ count,
    cs = Sensor.addCalls f.senderName count ∧
      broadcast m cs o b t ts r = some (store (EspPacket.layout tw) f.packet) := by
  obtain ⟨s, w, hname, hsent⟩ := f.sent
  rw [Sensor.sendEspPacket_frame] at hsent
  exact ⟨_, _, _, _, _, _, _, _, by rw [hname], hsent⟩

theorem protocol (f : SensorFrame tw) : f.packet.espProtocolID = espProtocolID := by
  obtain ⟨_, _, _, _, _, _, _, _, _, hb⟩ := f.broadcast_of_sent
  have h := (broadcast_represents hb).1.espProtocolID
  rwa [load_store] at h

/-- Slot 0 holds the name, slot 1 the error count. -/
theorem represents (f : SensorFrame tw) :
    ∃ count, Represents (Sensor.addCalls f.senderName count) f.packet := by
  obtain ⟨_, _, _, _, _, _, _, count, rfl, hb⟩ := f.broadcast_of_sent
  have h := (broadcast_represents hb).2
  rw [load_store] at h
  exact ⟨count, h⟩

/-- The measurement is in the header, the name and the error count are in the slots. -/
theorem ofWake_content (s : Sensor tw) (w : Wake) (h : s.radio.initRadio w.radio.init = true) :
    (ofWake s w h).packet.tempC = (tsReadDallas w.sensors s.tempErrCount).1 ∧
      Represents (Sensor.addCalls s.espSenderName (tsReadDallas w.sensors s.tempErrCount).2)
        (ofWake s w h).packet := by
  have hsent := s.sendEspPacket_sent w h
  rw [Sensor.sendEspPacket_frame] at hsent
  obtain ⟨hheader, hslots⟩ := broadcast_represents hsent
  rw [load_store] at hheader hslots
  exact ⟨hheader.tempC, hslots⟩

/-- A sensor of the given name and radio whose probe returns `t` three times. -/
def steady (name : List Byte) (t : F32) : SensorFrame 4 :=
  .ofWake ⟨.zero 4, 0, 0, 0, name, .boot 4⟩ ⟨⟨t, t, t⟩, 3300, ⟨⟨true, .ok⟩, 0, true⟩⟩ rfl

theorem steady_tempC (name : List Byte) (t : F32) : (steady name t).packet.tempC = t := by
  have h := (ofWake_content ⟨.zero 4, 0, 0, 0, name, .boot 4⟩
    ⟨⟨t, t, t⟩, 3300, ⟨⟨true, .ok⟩, 0, true⟩⟩ rfl).1
  rw [steady, h]
  by_cases ht : Rejected t
  · rw [tsReadDallas_of_rejected ht ht]
  · rw [tsReadDallas_of_accepted ht]

/-- Two temperatures that need no repeat leave the same parameters. -/
theorem steady_same_params (name : List Byte) {t u : F32} (ht : ¬ Rejected t) (hu : ¬ Rejected u) :
    (steady name t).packet.params = (steady name u).packet.params ∧
      (steady name t).packet.paramsCount = (steady name u).packet.paramsCount := by
  have hcontent (v : F32) (hv : ¬ Rejected v) :
      Represents (Sensor.addCalls name 0) (steady name v).packet := by
    have h := (ofWake_content ⟨.zero 4, 0, 0, 0, name, .boot 4⟩
      ⟨⟨v, v, v⟩, 3300, ⟨⟨true, .ok⟩, 0, true⟩⟩ rfl).2
    rw [tsReadDallas_of_accepted hv] at h
    exact h
  exact (hcontent t ht).unique (hcontent u hu)

end SensorFrame

end EspNowGateway.Sender
