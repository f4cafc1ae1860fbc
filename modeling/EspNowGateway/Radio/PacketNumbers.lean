import EspNowGateway.Foundations.SequenceNumbers
import EspNowGateway.Radio.EspRadio

/-! The numbers of the broadcast packets, over any number of deep sleeps. A call that hands its
packet to ESP-NOW uses up one number, whatever becomes of the packet; a call that finds no radio
uses up none. -/
namespace EspNowGateway.Radio
open ByteLayout BinaryFloat SequenceNumbers

variable {tw : Nat}

/-- A `sendPacket` call with what the outside answers to it. -/
structure SendCall (tw : Nat) where
  outcome : SendOutcome
  rData : EspPacket tw
  batVCC_ : BitVec 16
  tempC_ : F32
  timestamp_ : BitVec (8*tw)

def SendCall.sent (c : SendCall tw) (r : EspRadio tw) : Sent (EspPacket tw) (Frame tw) :=
  RadioState.sendPacket c.outcome c.rData c.batVCC_ c.tempC_ c.timestamp_ r

inductive SenderStep (tw : Nat) where
  | sendPacket (call : SendCall tw)
  | deepSleep

/-- The radio and the frames handed to ESP-NOW so far. -/
structure Sending (φ : Type) where
  radio : RadioState φ
  frames : List φ

abbrev OnAir (tw : Nat) := Sending (Frame tw)

namespace OnAir

def step (s : OnAir tw) : SenderStep tw → OnAir tw
  | .sendPacket call => ⟨(call.sent s.radio).radio, s.frames ++ (call.sent s.radio).frame.toList⟩
  | .deepSleep => { s with radio := s.radio.deepSleep }

def run (s : OnAir tw) (steps : List (SenderStep tw)) : OnAir tw := steps.foldl step s

def packetIDs (s : OnAir tw) : List (BitVec 16) :=
  s.frames.map fun f => (load (EspPacket.layout tw) f).packetID

/-- The counter has moved by one for each frame, and each frame has taken its number. -/
structure Numbered (c : BitVec 32) (s : OnAir tw) : Prop where
  counter : s.radio.espPacketID = c + BitVec.ofNat 32 s.frames.length
  numbers : Consecutive c s.packetIDs

theorem Numbered.start (r : EspRadio tw) : Numbered r.espPacketID ⟨r, []⟩ where
  counter := (BitVec.add_zero _).symm
  numbers := Consecutive.nil

/-- Without a radio neither the packet nor the counter moves. -/
theorem sent_down {c : SendCall tw} {r : EspRadio tw} (h : r.initRadio c.outcome.init = false) :
    (c.sent r).frame = none ∧ (c.sent r).rData = c.rData ∧
      (c.sent r).radio.espPacketID = r.espPacketID := by
  rw [SendCall.sent, RadioState.sendPacket_down h]
  exact ⟨rfl, rfl, rfl⟩

/-- With one, the frame takes the next number before anything can go wrong with it. -/
theorem sent_up {c : SendCall tw} {r : EspRadio tw} (h : r.initRadio c.outcome.init = true) :
    ∃ f, (c.sent r).frame = some f ∧
      (load (EspPacket.layout tw) f).packetID = r.espPacketID.setWidth 16 ∧
      (c.sent r).radio.espPacketID = r.espPacketID + 1 := by
  rw [SendCall.sent, RadioState.sendPacket_up h]
  refine ⟨_, rfl, ?_, rfl⟩
  rw [load_store]

/-- One call or one sleep. -/
theorem Numbered.step {c : BitVec 32} {s : OnAir tw} (h : Numbered c s) (a : SenderStep tw) :
    Numbered c (s.step a) := by
  cases a with
  | deepSleep => exact ⟨h.counter, h.numbers⟩
  | sendPacket call =>
    cases hup : s.radio.initRadio call.outcome.init with
    | false =>
      obtain ⟨hframe, _, hcounter⟩ := sent_down hup
      have hframes : (s.step (.sendPacket call)).frames = s.frames := by
        simp only [OnAir.step, hframe, Option.toList_none, List.append_nil]
      constructor
      · rw [hframes]
        exact hcounter.trans h.counter
      · rw [packetIDs, hframes]
        exact h.numbers
    | true =>
      obtain ⟨f, hframe, hid, hcounter⟩ := sent_up hup
      have hframes : (s.step (.sendPacket call)).frames = s.frames ++ [f] := by
        simp only [OnAir.step, hframe, Option.toList_some]
      have hlen : s.packetIDs.length = s.frames.length := List.length_map _
      constructor
      · rw [hframes, List.length_append, List.length_singleton, BitVec.ofNat_add, ← BitVec.add_assoc,
          ← h.counter]
        exact hcounter
      · have hnext : (load (EspPacket.layout tw) f).packetID = stamp 16 c s.packetIDs.length := by
          rw [hid, h.counter, hlen, stamp]
        rw [packetIDs, hframes, List.map_append, List.map_singleton, hnext]
        exact h.numbers.concat

/-- Any number of them. -/
theorem Numbered.run {c : BitVec 32} {s : OnAir tw} (h : Numbered c s) (steps : List (SenderStep tw)) :
    Numbered c (s.run steps) := by
  induction steps generalizing s with
  | nil => exact h
  | cons a steps ih => exact ih (h.step a)

/-- Over any run of calls and deep sleeps, from any value of the counter, the handed over frames
carry consecutive numbers modulo 2^16, so that 2^16 in a row are told apart and the distance of
two numbers counts the hand-overs between them; a call without a radio leaves no trace. -/
theorem packet_numbers (r : EspRadio tw) (steps : List (SenderStep tw)) :
    let s := run ⟨r, []⟩ steps
    (∀ n (h : n + 1 < s.packetIDs.length), s.packetIDs[n+1] = s.packetIDs[n] + 1) ∧
      (∀ k, ((s.packetIDs.drop k).take (2^16)).Nodup) ∧
      (∀ i j (_ : i ≤ j) (hj : j < s.packetIDs.length),
        (s.packetIDs[j] - s.packetIDs[i]).toNat = (j - i) % 2^16) ∧
      ∀ call : SendCall tw,
        (s.radio.initRadio call.outcome.init = false →
          (s.step (.sendPacket call)).frames = s.frames ∧ (call.sent s.radio).rData = call.rData ∧
            (s.step (.sendPacket call)).radio.espPacketID = s.radio.espPacketID) ∧
        (s.radio.initRadio call.outcome.init = true →
          ∃ f, (s.step (.sendPacket call)).frames = s.frames ++ [f] ∧
            (load (EspPacket.layout tw) f).packetID = s.radio.espPacketID.setWidth 16) := by
  intro s
  have hs : Numbered r.espPacketID s := (Numbered.start r).run steps
  have hw : 16 ≤ 32 := by decide
  refine ⟨hs.numbers.succ hw, hs.numbers.nodup_window hw, fun i j hij hj => hs.numbers.sub hw hij hj,
    fun call => ⟨fun hdown => ?_, fun hup => ?_⟩⟩
  · obtain ⟨hframe, hdata, hcounter⟩ := sent_down hdown
    refine ⟨?_, hdata, hcounter⟩
    simp only [step, hframe, Option.toList_none, List.append_nil]
  · obtain ⟨f, hframe, hid, _⟩ := sent_up hup
    refine ⟨f, ?_, hid⟩
    simp only [step, hframe, Option.toList_some]

end OnAir
end EspNowGateway.Radio
