import EspNowGateway.Foundations.ExactInteger
import EspNowGateway.Sender.BatteryCache
import EspNowGateway.System.GatewayRun

/-! The error count from the probe to the cloud: each rejected reading is counted in RTC memory, the
count travels as a float, and the gateway publishes it as an attribute. -/
namespace EspNowGateway.System
open BinaryFloat ByteLayout CArray Radio Sender Sensor Gateway RadioState

variable {tw : Nat}

/-- How many readings of one measurement are thrown away; the third one never is. -/
def rejected (sensors : Readings) : Nat :=
  if Rejected sensors.first then if Rejected sensors.second then 2 else 1 else 0

theorem tsReadDallas_count (sensors : Readings) (errCount : BitVec 32) :
    (tsReadDallas sensors errCount).2 = errCount + BitVec.ofNat 32 (rejected sensors) := by
  by_cases h₁ : Rejected sensors.first
  · by_cases h₂ : Rejected sensors.second
    · rw [tsReadDallas_of_rejected h₁ h₂, rejected, if_pos h₁, if_pos h₂, BitVec.add_assoc]
      rfl
    · simp only [tsReadDallas, rejected, h₁, h₂, if_true, if_false]
      rfl
  · rw [tsReadDallas_of_accepted h₁, rejected, if_neg h₁, BitVec.add_zero]

def poweredUp : BootEvent → Bool
  | .powerUp => true
  | _ => false

def wakeOf : BootEvent → Option Wake
  | .sendEspPacket w => some w
  | _ => none

/-- The wake-ups since the last cold start, newest first. -/
def wakesSincePowerUp (es : List BootEvent) : List Wake :=
  (es.reverse.takeWhile fun e => !poweredUp e).filterMap wakeOf

/-- All readings that were thrown away since the last cold start. -/
def rejections (es : List BootEvent) : Nat :=
  ((wakesSincePowerUp es).map fun w => rejected w.sensors).sum

theorem rejections_concat (es : List BootEvent) (e : BootEvent) :
    rejections (es ++ [e]) = match e with
      | .sendEspPacket w => rejected w.sensors + rejections es
      | .deepSleep => rejections es
      | .powerUp => 0 := by
  rw [rejections, wakesSincePowerUp, List.reverse_append, List.reverse_singleton, List.singleton_append]
  cases e with
  | sendEspPacket w =>
    rw [List.takeWhile_cons_of_pos rfl]
    exact List.sum_cons
  | deepSleep =>
    rw [List.takeWhile_cons_of_pos rfl]
    rfl
  | powerUp =>
    rw [List.takeWhile_cons_of_neg Bool.false_ne_true]
    rfl

private theorem bootRun_concat (tw : Nat) (name : List Byte) (es : List BootEvent) (e : BootEvent) :
    bootRun tw name (es ++ [e]) = bootStep (bootRun tw name es) e := by
  rw [bootRun, bootRun, List.foldl_append, List.foldl_cons, List.foldl_nil]

/-- The counter in RTC memory is the sum over the wake-ups, in 32 bits. -/
theorem bootRun_tempErrCount (tw : Nat) (name : List Byte) (es : List BootEvent) :
    (bootRun tw name es).1.tempErrCount = BitVec.ofNat 32 (rejections es) ∧
      (bootRun tw name es).1.espSenderName = name := by
  induction es using List.reverseRecOn with
  | nil => exact ⟨rfl, rfl⟩
  | append_singleton es e ih =>
    obtain ⟨hcount, hname⟩ := ih
    rw [bootRun_concat, rejections_concat]
    cases e with
    | sendEspPacket w =>
      simp only [bootStep, sendEspPacket, getVcc_tempErrCount, getVcc_espSenderName]
      rw [tsReadDallas_count, hcount, Nat.add_comm, BitVec.ofNat_add]
      exact ⟨rfl, hname⟩
    | deepSleep => exact ⟨hcount, hname⟩
    | powerUp => exact ⟨rfl, hname⟩

/-- A counter of 32 bits goes through the double of the packet's builder without a loss, so that the
packet holds the nearest float. -/
theorem errCount_bootRun (tw : Nat) (name : List Byte) (es : List BootEvent) (w : Wake)
    (h : (bootRun tw name es).1.radio.initRadio w.radio.init = true) :
    errCount (.ofWake (bootRun tw name es).1 w h) =
      .ofNat binary32 (rejections (es ++ [.sendEspPacket w]) % 2^32) := by
  rw [errCount_ofWake, tsReadDallas_count, (bootRun_tempErrCount tw name es).1, ← BitVec.ofNat_add,
    rejections_concat, Nat.add_comm, BitVec.toNat_ofNat]
  refine Binary.convert_ofNat binary64_roomy _ ((Nat.mod_lt _ (Nat.two_pow_pos 32)).trans ?_)
  exact Nat.pow_lt_pow_right Nat.one_lt_two (by decide)

/-- A packet that arrives at an idle gateway is published by the next turn with a connection. -/
private theorem one_published {f : SensorFrame tw} (hf : (0 : Byte) ∉ f.senderName) {i : GwInputs}
    (hi : (i.connected || i.connect) = true) (s : GwState) {r : EspRadio tw} (hr : r.Ready []) :
    ∃ run, gwRun [.arrive f fun _ => 0, .turn i] ⟨s, r, [], 0⟩ = .ok run ∧ AllPublished run := by
  obtain ⟨accepted, r', hrecv, hr', hroom⟩ := onDataRecv_image (q := []) hr f fun _ => 0
  obtain rfl : accepted = true := hroom.mpr (Nat.zero_lt_succ _)
  have harrive : gwStep ⟨s, r, [], 0⟩ (.arrive f fun _ => 0) = .ok ⟨s, r', [], 0⟩ := by
    simp only [gwStep, hrecv]
    rfl
  obtain ⟨run, hturn, hlost, hready, _⟩ := gwStep_turn (w := ⟨s, r', [], 0⟩) (q := [f]) hr'
    (List.forall_mem_singleton.mpr hf) i
  rw [hi] at hready
  refine ⟨run, ?_, hlost, hready⟩
  rw [gwRun, List.foldlM_cons, harrive]
  change (gwStep ⟨s, r', [], 0⟩ (.turn i) >>= fun w => pure w) = _
  rw [hturn]
  rfl

/-- The probe is broken at the first start; after a sleep it answers with its power-on value once. -/
def brokenOnce : List BootEvent :=
  [.sendEspPacket ⟨⟨.ofInt _ (-127), .ofInt _ (-127), .ofInt _ (-127)⟩, 3300, ⟨⟨true, .ok⟩, 0, true⟩⟩,
    .deepSleep]

def lateProbe : Wake := ⟨⟨.ofInt _ 85, .ofInt _ 20, .ofInt _ 20⟩, 3300, ⟨⟨true, .ok⟩, 0, true⟩⟩

/-- Any sensor after any history of its own, and a gateway that has published everything, this sensor's
packet last: the attributes name the sensor and count the readings that it has thrown away since its
last cold start, exactly as long as there are less than 2^24 of them. -/
theorem rejections_published (name : List Byte) (boots : List BootEvent) (w : Wake)
    (hup : (bootRun tw name boots).1.radio.initRadio w.radio.init = true)
    {es : List (GwEvent tw)} (hes : ∀ f ∈ es.filterMap GwEvent.arrival, (0 : Byte) ∉ f.senderName)
    (hlast : (es.filterMap GwEvent.arrival).getLast? = some (.ofWake (bootRun tw name boots).1 w hup))
    {s : GwState} {r : EspRadio tw} (hr : r.Ready []) {run : GwRun (EspRadio tw)}
    (hrun : gwRun es ⟨s, r, [], 0⟩ = .ok run) (hall : AllPublished run)
    (m : List Byte → Option AttrValue) :
    let n := rejections (boots ++ [.sendEspPacket w])
    let count : F32 := .ofNat binary32 (n % 2^32)
    attributes m run.calls deviceNameKey = some (.string (EspParam.storedString name)) ∧
      attributes m run.calls tempErrCountKey = some (.number count) ∧
      (n < 2^24 → count.scaled = n * 2^binary32.oneExp) := by
  intro n count
  have hmap := attributes_run hes hr hrun hall m
  rw [hlast, Option.toList_some, List.flatMap_singleton] at hmap
  obtain ⟨hdevice, hcount⟩ := attributes_sensorCalls
    (attributes m (statusAll (es.filterMap GwEvent.turnOf) s)) (.ofWake (bootRun tw name boots).1 w hup)
  rw [hmap, hdevice, hcount, errCount_bootRun]
  refine ⟨?_, rfl, fun hn => ?_⟩
  · have hsender : (SensorFrame.ofWake (bootRun tw name boots).1 w hup).senderName = name :=
      (bootRun_tempErrCount tw name boots).2
    rw [hsender]
  · have hmod : n % 2^32 = n := Nat.mod_eq_of_lt (hn.trans (Nat.pow_lt_pow_right Nat.one_lt_two (by decide)))
    rw [← Binary.ofNat_scaled binary32_roomy hn, ← hmod]

theorem rejections_published_three : ∃ run : GwRun (EspRadio 4),
    attributes (fun _ => none) run.calls deviceNameKey = some (.string (ascii "Balcony3")) ∧
      attributes (fun _ => none) run.calls tempErrCountKey = some (.number (.ofNat _ 3)) ∧
      (Binary.ofNat binary32 3).scaled = 3 * 2^binary32.oneExp := by
  have hup : (bootRun 4 (ascii "Balcony3") brokenOnce).1.radio.initRadio lateProbe.radio.init = true := rfl
  let f := SensorFrame.ofWake (bootRun 4 (ascii "Balcony3") brokenOnce).1 lateProbe hup
  have hnamed : (0 : Byte) ∉ f.senderName := by
    change (0 : Byte) ∉ ascii "Balcony3"
    decide
  obtain ⟨run, hrun, hall⟩ := one_published hnamed (i := quietTurn) rfl ⟨0, 0⟩ started_ready
  have hcount : rejections (brokenOnce ++ [.sendEspPacket lateProbe]) = 3 := by decide +kernel
  have hes : ∀ g ∈ [GwEvent.arrive f fun _ => 0, .turn quietTurn].filterMap GwEvent.arrival,
      (0 : Byte) ∉ g.senderName := List.forall_mem_singleton.mpr hnamed
  have h := rejections_published (ascii "Balcony3") brokenOnce lateProbe hup hes rfl started_ready hrun
    hall fun _ => none
  simp only [hcount] at h
  exact ⟨run, h.1, h.2.1, h.2.2 (by decide)⟩

end EspNowGateway.System
