import EspNowGateway.Sender.Sensor

/-! One turn of the gateway: the ThingsBoard calls it makes, in order. The connection, the
clock and the WiFi driver are inputs; the packet is whatever the radio delivers. -/
namespace EspNowGateway.Gateway
open ByteLayout BinaryFloat CArray Radio

def telemetrySendInterval : Nat := 10000

inductive AttrValue where
  | number (v : F32)
  | integer (v : Int)
  | string (t : List Byte)
  deriving DecidableEq

/-- One `sendAttributeData` call. -/
structure Publish where
  key : List Byte
  value : AttrValue
  deriving DecidableEq

structure GwState where
  espPackCntr : BitVec 32
  previousDataSend : BitVec 32

/-- What the outside answers during one turn; `reconnect` returns only with WiFi up. -/
structure GwInputs where
  connected : Bool
  connect : Bool
  macAddress : List Byte
  dueMillis : BitVec 32
  sentMillis : BitVec 32
  rssi : Int
  channel : Int
  bssid : List Byte
  localIp : List Byte
  ssid : List Byte
  receive : ReceiveOutcome

/-- The body of the publish loop. -/
def publishParam (calls : List Publish) (_ : Nat) (slot : EspParam) :
    Except Fault (List Publish) := do
  if slot.paramType = ParamType.ptNumeric.tag then
    pure (calls ++ [⟨← slot.nameText, .number slot.numParam⟩])
  else if slot.paramType = ParamType.ptString.tag then
    pure (calls ++ [⟨← slot.nameText, .string (← slot.strText)⟩])
  else pure calls

/-- The strings that the body reads. -/
theorem publishParam_ok_iff (calls : List Publish) (i : Nat) (x : EspParam) :
    (∃ calls', publishParam calls i x = .ok calls') ↔
      (x.paramType = ParamType.ptNumeric.tag → Closed x.paramName) ∧
        (x.paramType = ParamType.ptString.tag → Closed x.paramName ∧ Closed x.strParam) := by
  have hne : ParamType.ptNumeric.tag ≠ ParamType.ptString.tag := by decide
  rw [← x.nameText_ok_iff, ← x.strText_ok_iff]
  rw [publishParam]
  by_cases hnum : x.paramType = ParamType.ptNumeric.tag
  · cases x.nameText <;> simp [hnum, hne, bind, Except.bind, pure, Except.pure]
  · by_cases hstr : x.paramType = ParamType.ptString.tag
    · cases x.nameText <;> cases x.strText <;>
        simp [hstr, hne.symm, bind, Except.bind, pure, Except.pure]
    · simp [hnum, hstr, pure, Except.pure]

/-- What follows a `receivePacket` that returned true. -/
def publishPacket {tw : Nat} (rData : EspPacket tw) (calls : List Publish) :
    Except Fault (List Publish) := do
  let _ ← rData.print
  rData.forParams publishParam calls

/-- The attributes of a fresh connection, and the link attributes when they are due. -/
def statusCalls (i : GwInputs) (s : GwState) : GwState × List Publish :=
  let greeting := if i.connected then [] else [⟨ascii "macAddress", .string i.macAddress⟩]
  if telemetrySendInterval < (i.dueMillis - s.previousDataSend).toNat then
    ({ s with previousDataSend := i.sentMillis }, greeting ++
      [⟨ascii "rssi", .integer i.rssi⟩, ⟨ascii "channel", .integer i.channel⟩,
        ⟨ascii "bssid", .string i.bssid⟩, ⟨ascii "localIp", .string i.localIp⟩,
        ⟨ascii "ssid", .string i.ssid⟩])
  else (s, greeting)

def gwLoop {tw : Nat} (i : GwInputs) (s : GwState) (r : EspRadio tw) :
    Except Fault (GwState × EspRadio tw × List Publish) := do
  if !i.connected && !i.connect then pure (s, r, [])
  else
    let (s, calls) := statusCalls i s
    let (received, r) ← r.receivePacket i.receive
    match received with
    | none => pure (s, r, calls)
    | some rData =>
      let calls ← publishPacket rData calls
      pure ({ s with espPackCntr := s.espPackCntr + 1 }, r, calls)

end EspNowGateway.Gateway
