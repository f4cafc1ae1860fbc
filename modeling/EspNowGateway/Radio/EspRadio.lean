import EspNowGateway.Foundations.QueueHeap
import EspNowGateway.Radio.EspPacket

/-! The radio functions over one state: the globals of the radio library, the queues of the
operating system and whether ESP-NOW holds the receive callback. What ESP-NOW and the
operating system answer to a call is an argument. -/
namespace EspNowGateway.Radio
open ByteLayout BinaryFloat CArray QueueHeap

abbrev espNowQLen : Nat := 20

/-- The bytes of one packet, as they are sent and queued. -/
abbrev Frame (tw : Nat) := Vector Byte (EspPacket.sizeof tw)

inductive AddPeerStatus where
  | ok
  | notInit
  | arg
  | full
  | noMem
  | exist
  | other
  deriving DecidableEq, Repr

/-- What ESP-NOW answers to the two calls of `initRadio`. -/
structure InitOutcome where
  espNowInit : Bool
  addPeer : AddPeerStatus

/-- What the operating system and ESP-NOW answer to the two calls of `startReceiver`. -/
structure StartOutcome where
  queueCreate : Bool
  registerCb : Bool

structure ReceiveOutcome where
  init : InitOutcome
  start : StartOutcome

structure SendOutcome where
  init : InitOutcome
  millis : BitVec 32
  espNowSend : Bool

structure RadioState (φ : Type) where
  wasRadioInit : Bool
  receiverWasStarted : Bool
  radioQ : Option Handle
  espPacketID : BitVec 32
  heap : Heap φ
  cbRegistered : Bool

abbrev EspRadio (tw : Nat) := RadioState (Frame tw)

/-- The packet and the radio after a `sendPacket`, the bytes handed to ESP-NOW and what a
successful send printed. -/
structure Sent (π φ : Type) where
  rData : π
  radio : RadioState φ
  frame : Option φ
  printed : Option (Except Fault EspPacket.PrintedPacket)

namespace RadioState
variable {tw : Nat}

/-- After a power-up. -/
def boot (tw : Nat) : EspRadio tw := ⟨false, false, none, 0, empty, false⟩

/-- After a wake-up from deep sleep: RTC memory alone has kept its value. -/
def deepSleep (r : EspRadio tw) : EspRadio tw := { boot tw with espPacketID := r.espPacketID }

/-- The return value of `initRadio`; its caller stores it in `wasRadioInit`. -/
def initRadio (o : InitOutcome) (r : EspRadio tw) : Bool :=
  if r.wasRadioInit then true
  else if !o.espNowInit then false
  else match o.addPeer with
    | .ok => true
    | .notInit => false
    | .arg => false
    | .full => false
    | .noMem => false
    | .exist => true
    | .other => false

/-- The default arguments of `sendPacket`. -/
def noBatVCC : BitVec 16 := BitVec.ofNat 16 paramNoVal16
def noTempC : F32 := .ofNat _ paramNoVal16
def noTimestamp (tw : Nat) : BitVec (8*tw) := BitVec.ofNat (8*tw) paramNoVal32

def sendPacket (o : SendOutcome) (rData : EspPacket tw) (batVCC_ : BitVec 16) (tempC_ : F32)
    (timestamp_ : BitVec (8*tw)) (r : EspRadio tw) : Sent (EspPacket tw) (Frame tw) :=
  let r := { r with wasRadioInit := r.initRadio o.init }
  if !r.wasRadioInit then ⟨rData, r, none, none⟩
  else
    let rData := { rData with
      espProtocolID := espProtocolID
      ms := o.millis
      packetID := r.espPacketID.setWidth 16
      batVCC := batVCC_
      tempC := tempC_
      timestamp := timestamp_ }
    let r := { r with espPacketID := r.espPacketID + 1 }
    ⟨rData, r, some (store (EspPacket.layout tw) rData),
      if o.espNowSend then some rData.print else none⟩

/-- The memory at the callback's pointer: the datagram's own bytes, then what lies behind them. -/
def memoryAt (incomingData : List Byte) (beyond : Nat → Byte) (i : Nat) : Byte :=
  if h : i < incomingData.length then incomingData[i] else beyond (i - incomingData.length)

/-- `memcpy(&rData, incomingData, sizeof(tEspPacket))`. -/
def copyDatagram (tw : Nat) (incomingData : List Byte) (beyond : Nat → Byte) : Frame tw :=
  Vector.ofFn fun i => memoryAt incomingData beyond i.val

/-- `xQueueSend(radioQ, ..)`: a frame that still finds the queue full after the wait is lost. -/
def queueSend (r : EspRadio tw) (f : Frame tw) : Except Fault (Bool × EspRadio tw) :=
  match r.radioQ.bind fun h => send espNowQLen r.heap h f with
  | none => .error .nullQueue
  | some (accepted, heap) => .ok (accepted, { r with heap := heap })

/-- The datagram's length is an argument of the callback that its body does not read. -/
def onDataRecv (incomingData : List Byte) (beyond : Nat → Byte) (r : EspRadio tw) :
    Except Fault (Bool × EspRadio tw) :=
  r.queueSend (copyDatagram tw incomingData beyond)

/-- `radioQ = xQueueCreate(..)`. -/
def createQueue (created : Bool) (r : EspRadio tw) : EspRadio tw :=
  if created then { r with radioQ := some (create r.heap).1, heap := (create r.heap).2 }
  else { r with radioQ := none }

/-- `esp_now_register_recv_cb(OnDataRecv) == ESP_OK`. -/
def registerCb (registered : Bool) (r : EspRadio tw) : EspRadio tw :=
  { r with cbRegistered := r.cbRegistered || registered }

def startReceiver (o : StartOutcome) (r : EspRadio tw) : Bool × EspRadio tw :=
  if r.receiverWasStarted then (true, r)
  else
    let r := r.createQueue o.queueCreate
    let r := r.registerCb o.registerCb
    if o.registerCb then (true, r) else (false, r)

/-- `xQueueReceive(radioQ, ..)`. -/
def queueReceive (r : EspRadio tw) : Except Fault (Option (Frame tw) × EspRadio tw) :=
  match r.radioQ.bind fun h => receive r.heap h with
  | none => .error .nullQueue
  | some (item, heap) => .ok (item, { r with heap := heap })

/-- The protocol check: the packet when it passes. -/
def accept (f : Frame tw) : Option (EspPacket tw) :=
  let rData := load (EspPacket.layout tw) f
  if rData.espProtocolID ≠ espProtocolID then none else some rData

/-- `receivePacket`: the packet when it returns true. -/
def receivePacket (o : ReceiveOutcome) (r : EspRadio tw) :
    Except Fault (Option (EspPacket tw) × EspRadio tw) :=
  let r := { r with wasRadioInit := r.initRadio o.init }
  if !r.wasRadioInit then .ok (none, r)
  else
    let (started, r) := r.startReceiver o.start
    let r := { r with receiverWasStarted := started }
    if !r.receiverWasStarted then .ok (none, r)
    else do
      let (item, r) ← r.queueReceive
      pure (item.bind accept, r)

/-- One `receivePacket` call after the other. -/
def receiveRun : List ReceiveOutcome → EspRadio tw →
    Except Fault (List (Option (EspPacket tw)) × EspRadio tw)
  | [], r => .ok ([], r)
  | o :: os, r => do
    let (p, r) ← r.receivePacket o
    let (ps, r) ← receiveRun os r
    pure (p :: ps, r)

/-- The receiver runs and `q` is what its queue holds. -/
def Ready (r : EspRadio tw) (q : List (Frame tw)) : Prop :=
  r.wasRadioInit = true ∧ r.receiverWasStarted = true ∧
    ∃ h, r.radioQ = some h ∧ contents r.heap h = some q

/-- After a start-up in which everything succeeded. -/
def started (tw : Nat) : EspRadio tw := ⟨true, true, some 0, 0, ⟨[[]]⟩, true⟩

theorem started_ready : (started tw).Ready [] := ⟨rfl, rfl, 0, rfl, rfl⟩

example : (boot tw).receivePacket ⟨⟨true, .ok⟩, ⟨true, true⟩⟩ = .ok (none, started tw) := rfl

theorem initRadio_of_init (o : InitOutcome) (r : EspRadio tw) (h : r.wasRadioInit = true) :
    r.initRadio o = true := by simp only [initRadio, h, if_true]

/-- Without a radio nothing is sent and nothing is stamped. -/
theorem sendPacket_down {o : SendOutcome} {r : EspRadio tw} (h : r.initRadio o.init = false)
    (p : EspPacket tw) (b : BitVec 16) (t : F32) (ts : BitVec (8*tw)) :
    sendPacket o p b t ts r = ⟨p, { r with wasRadioInit := false }, none, none⟩ := by
  simp only [sendPacket, h]
  rfl

theorem sendPacket_up {o : SendOutcome} {r : EspRadio tw} (h : r.initRadio o.init = true)
    (p : EspPacket tw) (b : BitVec 16) (t : F32) (ts : BitVec (8*tw)) :
    let rData := { p with
      espProtocolID := Radio.espProtocolID
      ms := o.millis
      packetID := r.espPacketID.setWidth 16
      batVCC := b
      tempC := t
      timestamp := ts }
    sendPacket o p b t ts r = ⟨rData,
      { r with wasRadioInit := true, espPacketID := r.espPacketID + 1 },
      some (store (EspPacket.layout tw) rData),
      if o.espNowSend then some rData.print else none⟩ := by
  intro rData
  simp only [sendPacket, h]
  rfl

/-- The bytes handed to ESP-NOW are the packet's own. -/
theorem sendPacket_frame (o : SendOutcome) (p : EspPacket tw) (b : BitVec 16) (t : F32)
    (ts : BitVec (8*tw)) (r : EspRadio tw) : (sendPacket o p b t ts r).frame =
      if r.initRadio o.init then some (store (EspPacket.layout tw) (sendPacket o p b t ts r).rData)
      else none := by
  cases h : r.initRadio o.init with
  | false =>
    rw [sendPacket_down h]
    rfl
  | true =>
    rw [sendPacket_up h]
    rfl

/-- What a receive from the queue can have done. -/
theorem queueReceive_ok {r r' : EspRadio tw} {item : Option (Frame tw)}
    (h : r.queueReceive = .ok (item, r')) :
    ∃ k heap, r.radioQ = some k ∧ receive r.heap k = some (item, heap) ∧
      r' = { r with heap := heap } := by
  rw [queueReceive] at h
  split at h
  · cases h
  · rename_i item' heap hq
    obtain ⟨rfl, rfl⟩ := Prod.mk.inj (Except.ok.inj h)
    obtain ⟨k, hk, hreceive⟩ := Option.bind_eq_some_iff.mp hq
    exact ⟨k, heap, hk, hreceive, rfl⟩

/-- A started receiver goes straight to its queue. -/
theorem receivePacket_started {r : EspRadio tw} (hinit : r.wasRadioInit = true)
    (hstart : r.receiverWasStarted = true) (o : ReceiveOutcome) :
    r.receivePacket o = r.queueReceive >>= fun x => pure (x.1.bind accept, x.2) := by
  obtain ⟨init, started, radioQ, packetID, heap, cb⟩ := r
  obtain rfl : init = true := hinit
  obtain rfl : started = true := hstart
  rfl

/-- A ready receiver takes the oldest frame, if there is one, and returns what the protocol
check makes of it. -/
theorem receivePacket_head {r : EspRadio tw} {q : List (Frame tw)} (hr : r.Ready q)
    (o : ReceiveOutcome) :
    ∃ r', r.receivePacket o = .ok (q.head?.bind accept, r') ∧ r'.Ready q.tail := by
  obtain ⟨hinit, hstart, h, hq, hc⟩ := hr
  rw [receivePacket_started hinit hstart o]
  cases q with
  | nil =>
    refine ⟨r, ?_, hinit, hstart, h, hq, hc⟩
    simp only [queueReceive, hq, Option.bind_some, receive_nil hc]
    rw [← hq]
    rfl
  | cons f q =>
    refine ⟨{ r with heap := update r.heap h q }, ?_, hinit, hstart, h, hq, contents_update_self hc⟩
    simp only [queueReceive, hq, Option.bind_some, receive_cons hc]
    rw [← hq]
    rfl

theorem receivePacket_ready {r : EspRadio tw} {f : Frame tw} {q : List (Frame tw)}
    (hr : r.Ready (f :: q)) (o : ReceiveOutcome) :
    ∃ r', r.receivePacket o = .ok (accept f, r') ∧ r'.Ready q := receivePacket_head hr o

/-- A ready receiver without room drops the frame. -/
theorem onDataRecv_full {r : EspRadio tw} {q : List (Frame tw)} (hr : r.Ready q)
    (hfull : espNowQLen ≤ q.length) (incomingData : List Byte) (beyond : Nat → Byte) :
    r.onDataRecv incomingData beyond = .ok (false, r) := by
  obtain ⟨init, started, radioQ, packetID, heap, cb⟩ := r
  obtain ⟨_, _, h, rfl, hc⟩ := hr
  simp only [onDataRecv, queueSend, Option.bind_some, send_full hc hfull]

/-- A ready receiver with room queues the copied frame behind the others. -/
theorem onDataRecv_ready {r : EspRadio tw} {q : List (Frame tw)} (hr : r.Ready q)
    (hroom : q.length < espNowQLen) (incomingData : List Byte) (beyond : Nat → Byte) :
    ∃ r', r.onDataRecv incomingData beyond = .ok (true, r') ∧
      r'.Ready (q ++ [copyDatagram tw incomingData beyond]) := by
  obtain ⟨hinit, hstart, h, hq, hc⟩ := hr
  refine ⟨{ r with heap := update r.heap h (q ++ [copyDatagram tw incomingData beyond]) }, ?_,
    hinit, hstart, h, hq, contents_update_self hc⟩
  simp only [onDataRecv, queueSend, hq, Option.bind_some, send_room hc hroom]

/-- Calls in a row return what the protocol check makes of the oldest frames. -/
theorem receiveRun_ready (q rest : List (Frame tw)) {r : EspRadio tw} (hr : r.Ready (q ++ rest))
    (os : List ReceiveOutcome) (hos : os.length = q.length) :
    ∃ r', receiveRun os r = .ok (q.map accept, r') ∧ r'.Ready rest := by
  induction q generalizing r os with
  | nil =>
    obtain rfl := List.length_eq_zero_iff.mp hos
    exact ⟨r, rfl, hr⟩
  | cons f q ih =>
    obtain ⟨o, os, rfl⟩ := List.exists_cons_of_length_eq_add_one hos
    obtain ⟨r₁, h₁, hr₁⟩ := receivePacket_ready hr o
    obtain ⟨r₂, h₂, hr₂⟩ := ih hr₁ os (Nat.succ.inj hos)
    refine ⟨r₂, ?_, hr₂⟩
    simp only [receiveRun, h₁, h₂, bind, Except.bind, pure, Except.pure, List.map_cons]

/-- A datagram arrives, and the calls `os` take what was queued before it. -/
def deliver (incomingData : List Byte) (beyond : Nat → Byte) (os : List ReceiveOutcome)
    (r : EspRadio tw) : Except Fault (EspRadio tw) := do
  let (_, r) ← r.onDataRecv incomingData beyond
  let (_, r) ← receiveRun os r
  pure r

/-- Behind any backlog with room left, the copied datagram is the next frame to be read. -/
theorem deliver_ready {r : EspRadio tw} {q : List (Frame tw)} (hr : r.Ready q)
    (hroom : q.length < espNowQLen) (incomingData : List Byte) (beyond : Nat → Byte)
    (os : List ReceiveOutcome) (hos : os.length = q.length) :
    ∃ r', deliver incomingData beyond os r = .ok r' ∧
      r'.Ready [copyDatagram tw incomingData beyond] := by
  obtain ⟨r₁, h₁, hr₁⟩ := onDataRecv_ready hr hroom incomingData beyond
  obtain ⟨r₂, h₂, hr₂⟩ := receiveRun_ready q _ hr₁ os hos
  refine ⟨r₂, ?_, hr₂⟩
  simp only [deliver, h₁, h₂, bind, Except.bind, pure, Except.pure]

/-- A complete datagram is copied without touching the memory behind it. -/
theorem copyDatagram_toList (f : Frame tw) (beyond : Nat → Byte) :
    copyDatagram tw f.toList beyond = f := by
  apply Vector.ext
  intro i hi
  simp [copyDatagram, memoryAt]

theorem accept_store (p : EspPacket tw) (h : p.espProtocolID = espProtocolID) :
    accept (store (EspPacket.layout tw) p) = some p := by
  simp only [accept, load_store, h, ne_eq, not_true_eq_false, if_false]

theorem accept_eq_some_iff {f : Frame tw} {p : EspPacket tw} :
    accept f = some p ↔
      load (EspPacket.layout tw) f = p ∧ p.espProtocolID = Radio.espProtocolID := by
  simp only [accept]
  split
  · rename_i h
    constructor
    · intro hn
      cases hn
    · rintro ⟨rfl, he⟩
      exact absurd he h
  · rename_i h
    constructor
    · intro hs
      obtain rfl := Option.some.inj hs
      exact ⟨rfl, not_not.mp h⟩
    · rintro ⟨rfl, _⟩
      rfl

/-- The four bytes that the protocol check compares. -/
def protocolBytes : List Byte := (store (word 4) espProtocolID).toList

/-- The check passes for a datagram that begins with them, whatever follows. -/
theorem accept_copyDatagram {incomingData : List Byte} {beyond : Nat → Byte} :
    (load (EspPacket.layout tw) (copyDatagram tw incomingData beyond)).espProtocolID =
        Radio.espProtocolID ↔
      (List.range 4).map (memoryAt incomingData beyond) = protocolBytes := by
  change (word 4).symm (Vector.ofFn fun i : Fin 4 => (copyDatagram tw incomingData beyond)[i.val]) =
    _ ↔ _
  rw [Equiv.symm_apply_eq, ← Vector.toList_inj]
  have hlist : (Vector.ofFn fun i : Fin 4 => (copyDatagram tw incomingData beyond)[i.val]).toList =
      (List.range 4).map (memoryAt incomingData beyond) := by
    apply List.ext_getElem
    · simp
    · intro i h₁ h₂
      simp [copyDatagram]
  rw [hlist]
  rfl

end RadioState
end EspNowGateway.Radio
