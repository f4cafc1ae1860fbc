import EspNowGateway.Display.Loop
import EspNowGateway.Sender.Sensor

/-! Packets of any senders at the dongle. What a row shows is a function of its own sensor's
log of readings; the scan over the parameters finds the sensor by its full name. -/
namespace EspNowGateway.Display
open ByteLayout BinaryFloat CArray Radio Sender

variable {tw : Nat}

/-- A packet that the dongle receives, and the turn in which it does. -/
structure Delivery (tw : Nat) where
  frame : SensorFrame tw
  times : Times

/-- What comes with a packet into the queue: the memory behind its datagram, and the outcomes of a
start-up that a started receiver no longer needs. -/
structure Air where
  beyond : Nat → Byte
  start : ReceiveOutcome

/-- One entry of a sensor's log. -/
structure Reading where
  tempC : F32
  batVCC : BitVec 16
  rcvd : BitVec 32

def Delivery.reading (d : Delivery tw) : Reading :=
  ⟨d.frame.packet.tempC, d.frame.packet.batVCC, millis (d.times.rcvd 0)⟩

/-- The name that a receiver finds in the slot of a call under the key `deviceName`. -/
def deviceOf : AddCall → Option (List Byte)
  | .string pName str =>
    if upToNul (EspParam.storedName pName) = ascii "deviceName" then
      some (upToNul (EspParam.storedString str))
    else none
  | .numeric _ _ => none

/-- What the slots of the packet `p` under the name `name` add to that sensor's log. -/
def slotReadings (name : List Byte) (p : EspPacket tw) (t : Times) (cs : List AddCall) : List Reading :=
  (cs.zipIdx.filter fun slot => deviceOf slot.1 = some name).map fun slot =>
    ⟨p.tempC, p.batVCC, millis (t.rcvd slot.2)⟩

/-- The log of the sensor called `name`. -/
def readings (name : List Byte) (ds : List (Delivery tw)) : List Reading :=
  (ds.filter fun d => d.frame.senderName = name).map Delivery.reading

/-- A sender's own name is found as it was stored. -/
theorem deviceOf_name {name : List Byte} (hz : (0 : Byte) ∉ name) :
    deviceOf (.string deviceNameKey name) = some (EspParam.storedString name) := by
  have hkey : upToNul (EspParam.storedName deviceNameKey) = ascii "deviceName" := by decide
  rw [deviceOf, if_pos hkey, upToNul_of_nulFree (EspParam.storedString_nulFree hz)]

/-- The row `c` after the sensor's log, when it was `before`. -/
structure Shows (before : Channel) (log : List Reading) (c : Channel) : Prop where
  temp : c.temp = (log.getLast?.map fun r => r.tempC).getD before.temp
  volts : c.volts = (log.getLast?.map fun r => Display.volts r.batVCC).getD before.volts
  lastRcvd : c.lastRcvd = (log.getLast?.map fun r => r.rcvd).getD before.lastRcvd
  history : c.history.toList =
    (before.history.toList ++ log.map fun r => r.tempC).drop log.length
  fontColor : c.fontColor = before.fontColor

namespace Channel

/-- One slot of the packet `p`, seen by the row of the sensor `name`. -/
def readSlot (name : List Byte) (p : EspPacket tw) (t : Times) (c : Channel) (slot : AddCall × Nat) :
    Channel :=
  if deviceOf slot.1 = some name then c.receive p (millis (t.rcvd slot.2)) else c

/-- One delivery, seen by the row of the sensor `name`. -/
def absorb (name : List Byte) (c : Channel) (d : Delivery tw) : Channel :=
  if d.frame.senderName = name then c.receive d.frame.packet (millis (d.times.rcvd 0)) else c

/-- The row learns a reading of its sensor. -/
def learn (c : Channel) (r : Reading) : Channel :=
  { c with
    temp := r.tempC
    lastRcvd := r.rcvd
    volts := Display.volts r.batVCC
    history := addToHistory c.history r.tempC }

theorem foldl_absorb (name : List Byte) (ds : List (Delivery tw)) (c : Channel) :
    ds.foldl (absorb name) c = (readings name ds).foldl learn c := by
  rw [readings, List.foldl_map, List.foldl_filter]
  congr 1
  funext c d
  by_cases h : d.frame.senderName = name
  · simp only [absorb, h, decide_true, if_true]
    rfl
  · simp only [absorb, h, decide_false, Bool.false_eq_true, if_false]

theorem foldl_readSlot (name : List Byte) (p : EspPacket tw) (t : Times) (cs : List AddCall) (c : Channel) :
    cs.zipIdx.foldl (readSlot name p t) c = (slotReadings name p t cs).foldl learn c := by
  rw [slotReadings, List.foldl_map, List.foldl_filter]
  congr 1
  funext c slot
  by_cases h : deviceOf slot.1 = some name
  · simp only [readSlot, h, decide_true, if_true]
    rfl
  · simp only [readSlot, h, decide_false, Bool.false_eq_true, if_false]

private theorem learn_history (log : List Reading) (c : Channel) :
    (log.foldl learn c).history = (log.map fun r => r.tempC).foldl SlidingWindow.push c.history := by
  induction log generalizing c with
  | nil => rfl
  | cons r log ih =>
    rw [List.foldl_cons, ih, learn, addToHistory_eq_push, List.map_cons, List.foldl_cons]

private theorem last_cons {β : Type} (g : Reading → β) (r : Reading) (log : List Reading) (b : β) :
    (((r :: log).getLast?).map g).getD b = (log.getLast?.map g).getD (g r) := by
  rw [List.getLast?_cons]
  cases log.getLast? <;> rfl

private theorem learn_last (log : List Reading) (c : Channel) :
    let c' := log.foldl learn c
    c'.temp = (log.getLast?.map fun r => r.tempC).getD c.temp ∧
      c'.volts = (log.getLast?.map fun r => Display.volts r.batVCC).getD c.volts ∧
      c'.lastRcvd = (log.getLast?.map fun r => r.rcvd).getD c.lastRcvd ∧ c'.fontColor = c.fontColor := by
  induction log generalizing c with
  | nil => exact ⟨rfl, rfl, rfl, rfl⟩
  | cons r log ih =>
    have h := ih (c.learn r)
    simp only [List.foldl_cons, last_cons]
    dsimp only [learn] at h ⊢
    exact h

/-- A row keeps exactly the log that it learns. -/
theorem learn_shows (log : List Reading) (c : Channel) : Shows c log (log.foldl learn c) := by
  obtain ⟨htemp, hvolts, hrcvd, hcolor⟩ := learn_last log c
  refine ⟨htemp, hvolts, hrcvd, ?_, hcolor⟩
  rw [learn_history, SlidingWindow.toList_pushAll, List.length_map]

end Channel

namespace Dongle

def absorb (s : Dongle) (d : Delivery tw) : Dongle :=
  { s with top := s.top.absorb topName d, bot := s.bot.absorb botName d }

/-- What is done to the rows one by one. -/
private theorem foldl_rows {β : Type} (top bot : Channel → β → Channel) (xs : List β) (s : Dongle) :
    xs.foldl (fun s x => { s with top := top s.top x, bot := bot s.bot x }) s =
      { s with top := xs.foldl top s.top, bot := xs.foldl bot s.bot } := by
  induction xs generalizing s with
  | nil => rfl
  | cons x xs ih =>
    rw [List.foldl_cons, ih]
    rfl

theorem foldl_absorb (ds : List (Delivery tw)) (s : Dongle) :
    ds.foldl absorb s = { s with
      top := ds.foldl (Channel.absorb topName) s.top
      bot := ds.foldl (Channel.absorb botName) s.bot } := foldl_rows _ _ ds s

def readSlot (p : EspPacket tw) (t : Times) (s : Dongle) (slot : AddCall × Nat) : Dongle :=
  { s with top := s.top.readSlot topName p t slot, bot := s.bot.readSlot botName p t slot }

private theorem handleParam_slot (p : EspPacket tw) (t : Times) (s : Dongle) (i : Nat) (c : AddCall) :
    handleParam p t s i c.slot = .ok (s.readSlot p t (c, i)) := by
  cases c with
  | string n str =>
    rw [handleParam, readSlot, Channel.readSlot, Channel.readSlot]
    simp only [AddCall.slot_paramType, AddCall.kind, if_true, AddCall.slot_nameText, AddCall.name,
      AddCall.slot_strText, deviceOf, bind, Except.bind]
    by_cases hkey : upToNul (EspParam.storedName n) = ascii "deviceName"
    · simp only [hkey, if_true, Option.some.injEq]
      split_ifs <;> rfl
    · simp only [hkey, if_false, reduceCtorEq]
      rfl
  | numeric n v =>
    have hne : ParamType.ptNumeric.tag ≠ ParamType.ptString.tag := by decide
    simp only [handleParam, AddCall.slot_paramType, AddCall.kind, hne, if_false]
    rfl

/-- Each row scans the slots of a packet that add calls have built, whatever their arguments. -/
theorem handle_represents {cs : List AddCall} {p : EspPacket tw} (hp : Represents cs p) (t : Times)
    (s : Dongle) : s.handle (some p) t = .ok (cs.zipIdx.foldl (readSlot p t) s) := by
  obtain ⟨printed, hprint⟩ := hp.print_ok
  have hloop : ∀ (slots : List (AddCall × Nat)) (s : Dongle),
      slots.foldlM (fun s ci => handleParam p t s ci.2 ci.1.slot) s =
        .ok (slots.foldl (readSlot p t) s) := by
    intro slots
    induction slots with
    | nil => exact fun _ => rfl
    | cons slot slots ih =>
      intro s
      rw [List.foldlM_cons, handleParam_slot]
      exact ih _
  change s.handlePacket p t = _
  rw [handlePacket, hprint]
  change p.forParams (handleParam p t) s = _
  rw [hp.forParams_eq, hloop]

/-- Each row learns what the packet's slots under its name say. -/
theorem handle_learns {cs : List AddCall} {p : EspPacket tw} (hp : Represents cs p) (t : Times)
    (s : Dongle) : s.handle (some p) t = .ok { s with
      top := (slotReadings topName p t cs).foldl Channel.learn s.top
      bot := (slotReadings botName p t cs).foldl Channel.learn s.bot } := by
  have hrows : cs.zipIdx.foldl (readSlot p t) s = _ :=
    foldl_rows (Channel.readSlot topName p t) (Channel.readSlot botName p t) cs.zipIdx s
  rw [handle_represents hp, hrows, Channel.foldl_readSlot, Channel.foldl_readSlot]

/-- The packet of a sender with a name of any length: a row takes its reading when the name that
the packet carries is the row's. -/
theorem handle_sensor (f : SensorFrame tw) (hz : (0 : Byte) ∉ f.senderName) (t : Times) (s : Dongle) :
    s.handle (some f.packet) t = .ok { s with
      top := if EspParam.storedString f.senderName = topName then
        s.top.receive f.packet (millis (t.rcvd 0)) else s.top
      bot := if EspParam.storedString f.senderName = botName then
        s.bot.receive f.packet (millis (t.rcvd 0)) else s.bot } := by
  obtain ⟨count, hp⟩ := f.represents
  rw [handle_represents hp]
  simp only [Sensor.addCalls, List.zipIdx_cons, List.zipIdx_nil, List.foldl_cons, List.foldl_nil,
    readSlot, Channel.readSlot, deviceOf_name hz, Option.some.injEq]
  rfl

/-- One packet of a sender: the row of that name takes its reading, every other value stays. -/
theorem handle_delivery (d : Delivery tw) (s : Dongle)
    (hname : d.frame.WellNamed) :
    s.handle (some d.frame.packet) d.times = .ok (s.absorb d) := by
  have htop : EspParam.storedString d.frame.senderName = topName ↔ _ :=
    EspParam.storedString_eq_iff hname.2 (by decide)
  have hbot : EspParam.storedString d.frame.senderName = botName ↔ _ :=
    EspParam.storedString_eq_iff hname.2 (by decide)
  rw [handle_sensor d.frame hname.1]
  simp only [htop, hbot]
  rfl

def handleAll (ds : List (Delivery tw)) (s : Dongle) : Except Fault Dongle :=
  ds.foldlM (fun s d => s.handle (some d.frame.packet) d.times) s

theorem handleAll_eq (ds : List (Delivery tw)) (s : Dongle)
    (hds : ∀ d ∈ ds, d.frame.WellNamed) :
    handleAll ds s = .ok (ds.foldl absorb s) := by
  induction ds generalizing s with
  | nil => rfl
  | cons d ds ih =>
    rw [handleAll, List.foldlM_cons, handle_delivery d s (hds d (by simp))]
    exact ih (s.absorb d) fun e he => hds e (by simp [he])

/-- A packet arrives, if there is one, and `processReceiver` is called. -/
def onAir (received : Option (SensorFrame tw)) (a : Air) (t : Times) (s : Dongle × EspRadio tw) :
    Except Fault (Dongle × EspRadio tw) := do
  let r ← match received with
    | none => pure s.2
    | some f => (s.2.onDataRecv (store (EspPacket.layout tw) f.packet).toList a.beyond).map Prod.snd
  s.1.processReceiver a.start t r

/-- A started receiver hands over what has arrived. -/
theorem onAir_ready (received : Option (SensorFrame tw)) (a : Air) (t : Times) {s s' : Dongle}
    (hhandle : s.handle (received.map SensorFrame.packet) t = .ok s') {r : EspRadio tw}
    (hr : r.Ready []) : ∃ r', onAir received a t (s, r) = .ok (s', r') ∧ r'.Ready [] := by
  cases received with
  | none =>
    obtain ⟨r', hreceive, hr'⟩ := RadioState.receivePacket_head hr a.start
    have hhandle' : s.handle (none : Option (EspPacket tw)) t = .ok s' := hhandle
    refine ⟨r', ?_, hr'⟩
    simp only [onAir, processReceiver, hreceive, List.head?_nil, Option.bind_none, hhandle', bind,
      Except.bind, pure, Except.pure]
  | some f =>
    obtain ⟨r₁, hrecv, hr₁⟩ := RadioState.onDataRecv_ready hr (by decide : 0 < espNowQLen)
      (store (EspPacket.layout tw) f.packet).toList a.beyond
    rw [RadioState.copyDatagram_toList] at hr₁
    obtain ⟨r', hreceive, hr'⟩ := RadioState.receivePacket_ready hr₁ a.start
    rw [RadioState.accept_store _ f.protocol] at hreceive
    have hhandle' : s.handle (some f.packet) t = .ok s' := hhandle
    refine ⟨r', ?_, hr'⟩
    simp only [onAir, processReceiver, hrecv, hreceive, hhandle', Except.map, bind, Except.bind, pure,
      Except.pure]

/-- What one step does on a started receiver, many steps do. -/
theorem foldlM_ready {β : Type} {f : Dongle → β → Dongle}
    {call : Dongle × EspRadio tw → β × Air → Except Fault (Dongle × EspRadio tw)}
    {xs : List (β × Air)} (hcall : ∀ x ∈ xs, ∀ (s : Dongle) (r : EspRadio tw), r.Ready [] →
      ∃ r', call (s, r) x = .ok (f s x.1, r') ∧ r'.Ready []) (s : Dongle) {r : EspRadio tw}
    (hr : r.Ready []) :
    ∃ r', xs.foldlM call (s, r) = .ok ((xs.map Prod.fst).foldl f s, r') ∧ r'.Ready [] := by
  induction xs generalizing s r with
  | nil => exact ⟨r, rfl, hr⟩
  | cons x xs ih =>
    obtain ⟨hx, hxs⟩ := List.forall_mem_cons.mp hcall
    obtain ⟨r₁, hfirst, hr₁⟩ := hx s r hr
    obtain ⟨r', hrest, hr'⟩ := ih hxs (f s x.1) hr₁
    refine ⟨r', ?_, hr'⟩
    rw [List.foldlM_cons, hfirst]
    exact hrest

/-- Each packet arrives, and the next `processReceiver` takes it. -/
def processAll (ds : List (Delivery tw × Air)) (s : Dongle × EspRadio tw) :
    Except Fault (Dongle × EspRadio tw) :=
  ds.foldlM (fun s d => onAir (some d.1.frame) d.2 d.1.times s) s

theorem processAll_eq (ds : List (Delivery tw × Air)) (s : Dongle)
    (hds : ∀ d ∈ ds.map Prod.fst, d.frame.WellNamed) {r : EspRadio tw} (hr : r.Ready []) :
    ∃ r', processAll ds (s, r) = .ok ((ds.map Prod.fst).foldl absorb s, r') ∧ r'.Ready [] := by
  refine foldlM_ready (fun d hd s r hr => ?_) s hr
  have hname := hds d.1 (List.mem_map_of_mem hd)
  exact onAir_ready (some d.1.frame) d.2 d.1.times (handle_delivery d.1 s hname) hr

theorem absorb_other {d : Delivery tw} (htop : d.frame.senderName ≠ topName)
    (hbot : d.frame.senderName ≠ botName) (s : Dongle) : s.absorb d = s := by
  rw [absorb, Channel.absorb, Channel.absorb, if_neg htop, if_neg hbot]

theorem foldl_absorb_filter (ds : List (Delivery tw)) (s : Dongle) :
    (ds.filter fun d => d.frame.senderName = topName ∨ d.frame.senderName = botName).foldl absorb s =
      ds.foldl absorb s := by
  rw [List.foldl_filter]
  congr 1
  funext s d
  by_cases h : d.frame.senderName = topName ∨ d.frame.senderName = botName
  · simp only [h, decide_true, if_true]
  · rw [not_or] at h
    simp only [h, decide_false, or_self, Bool.false_eq_true, if_false, absorb_other h.1 h.2]

/-- Over any deliveries of any senders each row refines its own sensor's log, and the packets
under other names can be left out without a difference; on a started receiver the calls of
`processReceiver` come to the same. -/
theorem routing_refines_log (ds : List (Delivery tw)) (s : Dongle)
    (hds : ∀ d ∈ ds, d.frame.WellNamed) :
    ∃ s', handleAll ds s = .ok s' ∧
      Shows s.top (readings topName ds) s'.top ∧ Shows s.bot (readings botName ds) s'.bot ∧
      { s' with top := s.top, bot := s.bot } = s ∧
      handleAll (ds.filter fun d => d.frame.senderName = topName ∨ d.frame.senderName = botName) s =
        .ok s' ∧
      ∀ (ds' : List (Delivery tw × Air)) (r : EspRadio tw), ds'.map Prod.fst = ds → r.Ready [] →
        ∃ r', processAll ds' (s, r) = .ok (s', r') ∧ r'.Ready [] := by
  refine ⟨ds.foldl absorb s, handleAll_eq ds s hds, ?_, ?_, ?_, ?_, ?_⟩
  · rw [foldl_absorb]
    dsimp only
    rw [Channel.foldl_absorb]
    exact Channel.learn_shows (readings topName ds) s.top
  · rw [foldl_absorb]
    dsimp only
    rw [Channel.foldl_absorb]
    exact Channel.learn_shows (readings botName ds) s.bot
  · rw [foldl_absorb]
  · rw [handleAll_eq _ s fun d hd => hds d (List.mem_of_mem_filter hd), foldl_absorb_filter]
  · rintro ds' r rfl hr
    exact processAll_eq ds' s hds hr

/-- A sensor without a row, then one of the upper row. -/
def twoSensors : List (Delivery 4) :=
  [⟨.steady (ascii "Balcony2 of the neighbours") (.ofInt _ 20), .all 1⟩,
    ⟨.steady topName (.ofInt _ (-20)), .all 2⟩]

theorem routing_refines_log_twoSensors : ∃ s', handleAll twoSensors .boot = .ok s' ∧
    s'.top.temp = .ofInt _ (-20) ∧ s'.bot.temp = noTemp := by
  have hnames : ∀ d ∈ twoSensors, d.frame.WellNamed := by decide
  have htopLog : readings topName twoSensors = [⟨_, _, _⟩] := rfl
  have hbotLog : readings botName twoSensors = [] := rfl
  obtain ⟨s', hrun, htop, hbot, _⟩ := routing_refines_log twoSensors .boot hnames
  refine ⟨s', hrun, ?_, ?_⟩
  · rw [htop.temp, htopLog, List.getLast?_singleton, Option.map_some, Option.getD_some]
    dsimp only
    rw [SensorFrame.steady_tempC]
  · rw [hbot.temp, hbotLog]
    rfl

end Dongle
end EspNowGateway.Display
