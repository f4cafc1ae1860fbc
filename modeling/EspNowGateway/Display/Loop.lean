import EspNowGateway.Foundations.SlidingWindow
import EspNowGateway.Radio.PacketBuilder

/-! The display dongle: two sensor channels, their history, the LED and the screen, and the
endless loop over them. Every reading of `millis()` has its own place in `Times`. -/
namespace EspNowGateway.Display
open ByteLayout BinaryFloat CArray Radio

def noTemp : F32 := .ofInt _ (-400)

/-- The sentinel is one bit pattern. -/
theorem same_noTemp_iff {x : F32} : x.Same noTemp ↔ x = noTemp :=
  Binary.same_iff_eq (by decide +kernel) (by decide +kernel)

def topName : List Byte := ascii "Balcony2"
def topRedC : F32 := .ofInt _ (-10)
def topYellowC : F32 := .ofInt _ (-15)

def botName : List Byte := ascii "Balcony3"
def botRedC : F32 := .ofInt _ 7
def botYellowC : F32 := .ofInt _ 5

def tempLifeTimeMs : Nat := 15*60000

abbrev historySize : Nat := 100

abbrev History := Vector F32 historySize

def addToHistory (historyArr : History) (temp : F32) : History :=
  (Nat.fold (historySize - 1) (fun i _ arr => arr.set i arr[i+1]) historyArr).set (historySize - 1) temp

theorem addToHistory_eq_push (historyArr : History) (temp : F32) :
    addToHistory historyArr temp = SlidingWindow.push historyArr temp := by
  rw [addToHistory, SlidingWindow.push, SlidingWindow.shift]
  rfl

/-- The body of `findInHistory`, over its two results. -/
def findStep (found : F32 × F32) (entry : F32) : F32 × F32 :=
  let (minTemp, maxTemp) := found
  if entry.Same noTemp then found
  else
    (if minTemp.Same noTemp then entry else if entry.Lt minTemp then entry else minTemp,
      if maxTemp.Same noTemp then entry else if maxTemp.Lt entry then entry else maxTemp)

def findInHistory (historyArr : History) : F32 × F32 :=
  historyArr.toList.foldl findStep (noTemp, noTemp)

def resetHistory : History := Vector.replicate historySize noTemp

structure Rgb where
  r : BitVec 8
  g : BitVec 8
  b : BitVec 8
  deriving DecidableEq, Repr

/-- The LED's two colours; which of them is lit depends on `ledStatus`. -/
structure LedColors where
  on : Rgb
  off : Rgb
  deriving DecidableEq, Repr

def ledOk : LedColors := ⟨⟨0, 50, 0⟩, ⟨0, 1, 0⟩⟩
def ledNoData : LedColors := ⟨⟨0, 0, 50⟩, ⟨0, 0, 5⟩⟩
def ledRedZone : LedColors := ⟨⟨55, 0, 0⟩, ⟨255, 0, 0⟩⟩
def ledYellowZone : LedColors := ⟨⟨55, 55, 0⟩, ⟨5, 5, 0⟩⟩

inductive FontColor where
  | green
  | darkGreen
  | blue
  | yellow
  | red
  deriving DecidableEq, Repr

/-- The globals of one sensor: `topTemp`, `lastTopRcvd`, `topV`, `topHistory` and
`topFontColor`, or those of the bottom row. -/
structure Channel where
  temp : F32
  lastRcvd : BitVec 32
  volts : F32
  history : History
  fontColor : FontColor

/-- One row of the screen; a missing value is shown as N/A. -/
structure ScreenRow where
  temp : Option F32
  fontColor : FontColor
  agoMn : Nat
  volts : F32
  minT : Option F32
  maxT : Option F32

structure Dongle where
  top : Channel
  bot : Channel
  lastPressedMs : BitVec 32
  tftActive : Bool
  tftLedaPin : Bool
  lastScreenUpdatedMs : BitVec 32
  ledStatus : Bool
  colors : LedColors
  leds : Rgb
  screen : Option (ScreenRow × ScreenRow)

/-- The real times, in milliseconds since power-up, at which one turn of the loop reads the
clock, as far as their order matters in program order. -/
structure Times where
  topCheck : Nat
  botCheck : Nat
  buttonCheck : Nat
  buttonStamp : Nat
  screenCheck : Nat
  topAgo : Nat
  botAgo : Nat
  screenStamp : Nat
  rcvd : Nat → Nat
  checks : topCheck ≤ botCheck
  rcvdLast : ∀ i, botCheck ≤ rcvd i

/-- All clock readings of a turn at one real time. -/
def Times.all (t : Nat) : Times :=
  ⟨t, t, t, t, t, t, t, t, fun _ => t, Nat.le_refl t, fun _ => Nat.le_refl t⟩

/-- The 32-bit clock. -/
abbrev millis (t : Nat) : BitVec 32 := BitVec.ofNat 32 t

/-- `(float) batVCC / 1000`. -/
def volts (batVCC : BitVec 16) : F32 := (Binary.ofNat _ batVCC.toNat).div (.ofNat _ 1000)

namespace Channel

def boot : Channel := ⟨noTemp, 0, ⟨0⟩, resetHistory, .green⟩

def expire (now : BitVec 32) (c : Channel) : Channel :=
  if tempLifeTimeMs < (now - c.lastRcvd).toNat then { c with temp := noTemp } else c

def receive {tw : Nat} (rData : EspPacket tw) (now : BitVec 32) (c : Channel) : Channel :=
  { c with
    temp := rData.tempC
    lastRcvd := now
    history := addToHistory c.history rData.tempC
    volts := Display.volts rData.batVCC }

/-- N/A for the value that stands for no temperature. -/
def shown (t : F32) : Option F32 := if t.Same noTemp then none else some t

def row (now : BitVec 32) (c : Channel) : ScreenRow :=
  let (minT, maxT) := findInHistory c.history
  ⟨shown c.temp, c.fontColor, (now - c.lastRcvd).toNat / 60000, c.volts, shown minT, shown maxT⟩

end Channel

/-- Later conditions override earlier ones. -/
def fontColor (noData : Prop) [Decidable noData] (yellowC redC temp : F32) : FontColor :=
  let color := .darkGreen
  let color := if noData then .blue else color
  let color := if yellowC.Lt temp then .yellow else color
  if redC.Lt temp then .red else color

namespace Dongle

/-- When the loop starts. -/
def boot : Dongle where
  top := .boot
  bot := .boot
  lastPressedMs := 0
  tftActive := true
  tftLedaPin := false
  lastScreenUpdatedMs := 0
  ledStatus := true
  colors := ⟨⟨10, 10, 10⟩, ⟨0, 1, 0⟩⟩
  leds := ⟨10, 10, 10⟩
  screen := none

def updateTemp (t : Times) (s : Dongle) : Dongle :=
  { s with top := s.top.expire (millis t.topCheck), bot := s.bot.expire (millis t.botCheck) }

def NoData (s : Dongle) : Prop := s.top.temp.Same noTemp ∨ s.bot.temp.Same noTemp

instance (s : Dongle) : Decidable s.NoData := inferInstanceAs (Decidable (_ ∨ _))

/-- The LED part of `processTempIndication`; later conditions override earlier ones. -/
def ledColors (s : Dongle) : LedColors :=
  let colors := ledOk
  let colors := if s.NoData then ledNoData else colors
  let colors := if topYellowC.Lt s.top.temp ∨ botYellowC.Lt s.bot.temp then ledYellowZone else colors
  if topRedC.Lt s.top.temp ∨ botRedC.Lt s.bot.temp then ledRedZone else colors

def processTempIndication (s : Dongle) : Dongle :=
  { s with
    colors := s.ledColors
    top := { s.top with fontColor := fontColor s.NoData topYellowC topRedC s.top.temp }
    bot := { s.bot with fontColor := fontColor s.NoData botYellowC botRedC s.bot.temp } }

/-- The waits for the button to be released only let time pass. -/
def processButton (intMs : Nat) (t : Times) (pressed : Bool) (s : Dongle) : Dongle :=
  if s.tftActive then
    if intMs < (millis t.buttonCheck - s.lastPressedMs).toNat ∨ pressed then
      { s with
        tftLedaPin := true
        tftActive := false
        ledStatus := false
        lastPressedMs := millis t.buttonStamp }
    else s
  else if pressed then
    { s with
      tftLedaPin := false
      ledStatus := true
      tftActive := true
      lastPressedMs := millis t.buttonStamp }
  else s

def updateLed (s : Dongle) : Dongle :=
  { s with leds := if s.ledStatus then s.colors.on else s.colors.off }

def updateScreen (t : Times) (s : Dongle) : Dongle :=
  if (millis t.screenCheck - s.lastScreenUpdatedMs).toNat < 3000 then s
  else { s with
    lastScreenUpdatedMs := millis t.screenStamp
    screen := some (s.top.row (millis t.topAgo), s.bot.row (millis t.botAgo)) }

variable {tw : Nat}

/-- The body of the loop in `processReceiver`. -/
def handleParam (rData : EspPacket tw) (t : Times) (s : Dongle) (i : Nat) (slot : EspParam) :
    Except Fault Dongle := do
  if slot.paramType = ParamType.ptString.tag then
    if (← slot.nameText) = ascii "deviceName" then
      let s := if (← slot.strText) = topName then
        { s with top := s.top.receive rData (millis (t.rcvd i)) } else s
      let s := if (← slot.strText) = botName then
        { s with bot := s.bot.receive rData (millis (t.rcvd i)) } else s
      pure s
    else pure s
  else pure s

/-- The strings that the body reads. -/
theorem handleParam_ok_iff (rData : EspPacket tw) (t : Times) (s : Dongle) (i : Nat) (x : EspParam) :
    (∃ s', handleParam rData t s i x = .ok s') ↔
      (x.paramType = ParamType.ptString.tag → Closed x.paramName ∧
        (x.nameText = .ok (ascii "deviceName") → Closed x.strParam)) := by
  rw [← x.nameText_ok_iff, ← x.strText_ok_iff]
  rw [handleParam]
  by_cases hstr : x.paramType = ParamType.ptString.tag
  · cases x.nameText with
    | error e => simp [hstr, bind, Except.bind]
    | ok name =>
      by_cases hname : name = ascii "deviceName"
      · cases x.strText <;> simp [hstr, hname, bind, Except.bind, pure, Except.pure]
      · simp [hstr, hname, bind, Except.bind, pure, Except.pure]
  · simp [hstr, pure, Except.pure]

/-- What follows a `receivePacket` that returned true. -/
def handlePacket (rData : EspPacket tw) (t : Times) (s : Dongle) : Except Fault Dongle := do
  let _ ← rData.print
  rData.forParams (handleParam rData t) s

def handle (received : Option (EspPacket tw)) (t : Times) (s : Dongle) : Except Fault Dongle :=
  match received with
  | none => pure s
  | some rData => s.handlePacket rData t

def processReceiver (o : ReceiveOutcome) (t : Times) (s : Dongle) (r : EspRadio tw) :
    Except Fault (Dongle × EspRadio tw) := do
  let (received, r) ← r.receivePacket o
  let s ← s.handle received t
  pure (s, r)

/-- The turn up to `processReceiver`. -/
def refresh (t : Times) (pressed : Bool) (s : Dongle) : Dongle :=
  let s := s.updateTemp t
  let s := s.processTempIndication
  let s := s.processButton 15000 t pressed
  let s := s.updateLed
  s.updateScreen t

/-- One turn of the loop in `dongleSetup`; `received` is what its `receivePacket` returns. -/
def turn (t : Times) (pressed : Bool) (received : Option (EspPacket tw)) (s : Dongle) :
    Except Fault Dongle :=
  (s.refresh t pressed).handle received t

end Dongle
end EspNowGateway.Display
