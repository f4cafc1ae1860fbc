import EspNowGateway.Gateway.ThingsBoard
import EspNowGateway.System.GatewayRun

/-! The gateway from its radio to the byte streams of its broker connections. The connection comes
and goes, the broker answers or refuses, and turns with and without it alternate; on the streams
stands what the calls ask for, as long as it fits and the connection holds. -/
namespace EspNowGateway.System
open ByteLayout CArray PartialRun Radio Sender Gateway Mqtt RadioState ThingsBoard

variable {tw : Nat}

/-- What the outside answers during one turn. The client answers `connected` and `connect` of the
link itself; `called` is the client after a callback, which is followed no further, as the gateway
has subscribed to nothing. -/
structure TurnAnswers where
  link : GwInputs
  connect : ConnectAnswers
  send : Nat → SendAnswers
  loopAt : BitVec 32
  loopRoom : Nat
  called : PubSubClient maxMessageSize

inductive UplinkEvent (tw : Nat) where
  | arrive (f : SensorFrame tw) (beyond : Nat → Byte)
  | bytes (bs : List (Option Byte))
  | lost
  | turn (i : TurnAnswers)

namespace UplinkEvent

def arrival : UplinkEvent tw → Option (SensorFrame tw)
  | .arrive f _ => some f
  | _ => none

/-- The connection takes every write as a whole. -/
def Whole : UplinkEvent tw → Prop
  | .turn i => maxMessageSize.toNat ≤ i.connect.room ∧
      (∀ k, maxMessageSize.toNat ≤ (i.send k).room) ∧ maxMessageSize.toNat ≤ i.loopRoom
  | _ => True

/-- No connection breaks between two calls of a turn. -/
def Steady : UplinkEvent tw → Prop
  | .turn i => ∀ k, (i.send k).alive = true
  | _ => True

/-- The broker sends whole packets and publishes nothing to a client that has subscribed to nothing. -/
def Orderly : UplinkEvent tw → Prop
  | .bytes bs => ∃ p : StreamPacket, bs = p.bytes.map some ∧ p.NoPublication
  | .turn i => ∃ ps, i.connect.incoming = streamOf ps ∧ ∀ p ∈ ps, p.NoPublication
  | _ => True

/-- The sender's name has no NUL. -/
def Named : UplinkEvent tw → Prop
  | .arrive f _ => (0 : Byte) ∉ f.senderName
  | _ => True

end UplinkEvent

/-- The gateway with its current connection and the ones before; `stood` are the calls that found
their connection standing. -/
structure Uplink (tw : Nat) where
  gw : GwRun (EspRadio tw)
  session : Session maxMessageSize
  past : List (Session maxMessageSize)
  stood : List Publish

namespace Uplink

def sessions (w : Uplink tw) : List (Session maxMessageSize) := w.past ++ [w.session]

/-- The messages that the callback was called with. -/
def delivered (w : Uplink tw) : List Message := w.sessions.flatMap Session.delivered

/-- What a reader of all the streams finds published. -/
def published (w : Uplink tw) : Option (List Posting) :=
  (w.sessions.mapM fun s => ControlPacket.code.readAll s.client.written).map fun qss =>
    qss.flatten.filterMap ControlPacket.posting

/-- Before the first turn; the contents of the buffer are arbitrary. -/
def boot (r : EspRadio tw) (buffer : Vector Byte maxMessageSize.toNat) : Uplink tw where
  gw := ⟨⟨0, 0⟩, r, [], 0⟩
  session := ⟨⟨buffer, 15, 0, 0, 0, false, mqttDisconnected, false, [], []⟩, [], []⟩
  past := []
  stood := []

/-- The first part of a turn: the gateway is connected, or it connects, or it gives up. -/
def ensureConnected (a : ConnectAnswers) (w : Uplink tw) : Option (Bool × Bool × Uplink tw) := do
  let (up, c) := w.session.client.connected
  let session := { w.session with client := c }
  if up then some (true, true, { w with session := session })
  else do
    let (joined, c) ← connectToHost a c
    some (false, joined, if a.dialed then
      { w with session := ⟨c, [], []⟩, past := w.past ++ [session] }
      else { w with session := { session with client := c } })

/-- The part of a turn on a connection: the calls, then `tb.loop()`. -/
def publishCalls (json : Publish → List Byte) (i : TurnAnswers) (calls : List Publish)
    (w : Uplink tw) : Option (Uplink tw) := do
  let session ← sendAll json i.send 0 calls w.session
  let (_, messages, c) ← session.client.loop i.loopAt i.loopRoom
  some { w with
    session := { session with
      client := if messages.isEmpty then c else i.called
      delivered := session.delivered ++ messages }
    stood := w.stood ++ standing i.send 0 calls }

def turn (json : Publish → List Byte) (i : TurnAnswers) (w : Uplink tw) : Option (Uplink tw) := do
  let (up, joined, w) ← w.ensureConnected i.connect
  let (s, r, calls) ← (gwLoop { i.link with connected := up, connect := joined } w.gw.state
    w.gw.radio).toOption
  let w := { w with
    gw := { w.gw with state := s, radio := r, calls := w.gw.calls ++ calls } }
  if joined then w.publishCalls json i calls else some w

def step (json : Publish → List Byte) (w : Uplink tw) : UplinkEvent tw → Option (Uplink tw)
  | .arrive f beyond => (gwStep w.gw (.arrive f beyond)).toOption.map fun gw => { w with gw := gw }
  | .bytes bs => some { w with
      session := { w.session with client := w.session.client.arrive bs } }
  | .lost => some { w with
      session := { w.session with client := { w.session.client with up := false } } }
  | .turn i => w.turn json i

theorem ensureConnected_frame {w w' : Uplink tw} {a : ConnectAnswers} {up joined : Bool}
    (h : w.ensureConnected a = some (up, joined, w')) :
    w'.gw = w.gw ∧ w'.stood = w.stood ∧ w'.delivered = w.delivered ∧ (up = true → joined = true) := by
  rw [Uplink.ensureConnected] at h
  dsimp only at h
  split at h
  · obtain ⟨rfl, hrest⟩ := Prod.mk.inj (Option.some.inj h)
    obtain ⟨rfl, rfl⟩ := Prod.mk.inj hrest
    exact ⟨rfl, rfl, by simp [delivered, sessions], id⟩
  · obtain ⟨⟨accepted, c⟩, -, h⟩ := Option.bind_eq_some_iff.mp h
    obtain ⟨rfl, hrest⟩ := Prod.mk.inj (Option.some.inj h)
    obtain ⟨-, rfl⟩ := Prod.mk.inj hrest
    split
    · exact ⟨rfl, rfl, by simp [delivered, sessions], fun hup => by cases hup⟩
    · exact ⟨rfl, rfl, by simp [delivered, sessions], fun hup => by cases hup⟩

private theorem ok_of_toOption {α : Type} {x : Except Fault α} {a : α} (h : x.toOption = some a) :
    x = .ok a := by
  cases x with
  | error => cases h
  | ok b => rw [Option.some.inj h]

private theorem gwStep_arrive_calls {w w' : GwRun (EspRadio tw)} {f : SensorFrame tw}
    {beyond : Nat → Byte} (h : gwStep w (.arrive f beyond) = .ok w') : w'.calls = w.calls := by
  rw [gwStep] at h
  cases hrecv : w.radio.onDataRecv (image f).toList beyond with
  | error fault =>
    rw [hrecv] at h
    cases h
  | ok r =>
    rw [hrecv] at h
    rw [← Except.ok.inj h]

private theorem gwLoop_down {i : GwInputs} (hi : (i.connected || i.connect) = false) (s : GwState)
    (r : EspRadio tw) : gwLoop i s r = .ok (s, r, []) := by
  rw [gwLoop, ← Bool.not_or, hi]
  rfl

/-- The turn, taken apart. -/
theorem turn_cases {json : Publish → List Byte} {i : TurnAnswers} {w w' : Uplink tw}
    (h : w.turn json i = some w') : ∃ up joined w₁ s r calls,
      w.ensureConnected i.connect = some (up, joined, w₁) ∧
      gwLoop { i.link with connected := up, connect := joined } w₁.gw.state w₁.gw.radio =
        .ok (s, r, calls) ∧
      let w₂ := { w₁ with
        gw := { w₁.gw with state := s, radio := r, calls := w₁.gw.calls ++ calls } }
      (if joined = true then w₂.publishCalls json i calls else some w₂) = some w' := by
  obtain ⟨⟨up, joined, w₁⟩, hensure, h⟩ := Option.bind_eq_some_iff.mp h
  obtain ⟨⟨s, r, calls⟩, hloop, h⟩ := Option.bind_eq_some_iff.mp h
  exact ⟨up, joined, w₁, s, r, calls, hensure, ok_of_toOption hloop, h⟩

/-- What a turn adds on its connection. -/
theorem publishCalls_adds {json : Publish → List Byte} {i : TurnAnswers} {calls : List Publish}
    {w w' : Uplink tw} (h : w.publishCalls json i calls = some w') :
    w.delivered <+: w'.delivered ∧ w'.gw = w.gw ∧ w'.stood = w.stood ++ standing i.send 0 calls := by
  obtain ⟨session, hall, h⟩ := Option.bind_eq_some_iff.mp h
  obtain ⟨⟨r, messages, c⟩, -, h⟩ := Option.bind_eq_some_iff.mp h
  obtain rfl := Option.some.inj h
  refine ⟨?_, rfl, rfl⟩
  simp only [delivered, sessions, List.flatMap_append, List.flatMap_singleton, sendAll_delivered hall]
  rw [← List.append_assoc]
  exact List.prefix_append _ _

/-- What the events add, whatever they are. -/
theorem step_adds {json : Publish → List Byte} {w w' : Uplink tw} {e : UplinkEvent tw}
    (h : w.step json e = some w') : w.delivered <+: w'.delivered ∧
      (e.Steady → w.stood = w.gw.calls → w'.stood = w'.gw.calls) ∧
      ∃ es', gwRun es' w.gw = .ok w'.gw ∧
        es'.filterMap GwEvent.arrival = e.arrival.toList := by
  cases e with
  | arrive f beyond =>
    obtain ⟨gw, hgw, rfl⟩ := Option.map_eq_some_iff.mp h
    have hstep := ok_of_toOption hgw
    refine ⟨List.prefix_rfl, fun _ hstood => hstood.trans (gwStep_arrive_calls hstep).symm,
      [.arrive f beyond], ?_, rfl⟩
    rw [gwRun, List.foldlM_cons, hstep]
    rfl
  | bytes bs =>
    obtain rfl := Option.some.inj h
    exact ⟨by simp [delivered, sessions], fun _ => id, [], rfl, rfl⟩
  | lost =>
    obtain rfl := Option.some.inj h
    exact ⟨by simp [delivered, sessions], fun _ => id, [], rfl, rfl⟩
  | turn i =>
    obtain ⟨up, joined, w₁, s, r, calls, hensure, hloop, h⟩ := turn_cases h
    obtain ⟨hgw, hstood₁, hdelivered, hup⟩ := ensureConnected_frame hensure
    have hturn : gwRun [.turn { i.link with connected := up, connect := joined }] w.gw =
        .ok { w₁.gw with state := s, radio := r, calls := w₁.gw.calls ++ calls } := by
      rw [gwRun, List.foldlM_cons, gwStep, ← hgw, hloop]
      rfl
    cases joined with
    | true =>
      obtain ⟨hgrown, hgw', hstood'⟩ := publishCalls_adds h
      refine ⟨hdelivered ▸ hgrown, fun hsteady hstood => ?_, _, hturn.trans (congrArg Except.ok hgw'.symm), rfl⟩
      rw [hstood', standing_of_alive hsteady, hgw']
      dsimp only
      rw [hstood₁, hstood, hgw]
    | false =>
      obtain rfl := Option.some.inj h
      refine ⟨hdelivered ▸ List.prefix_rfl, fun _ hstood => ?_, _, hturn, rfl⟩
      have hdown : up = false := by
        rw [← Bool.not_eq_true]
        exact fun h => Bool.false_ne_true (hup h)
      subst hdown
      rw [gwLoop_down rfl] at hloop
      obtain ⟨-, hrest⟩ := Prod.mk.inj (Except.ok.inj hloop)
      obtain ⟨-, rfl⟩ := Prod.mk.inj hrest
      dsimp only
      rw [List.append_nil, hstood₁, hstood, hgw]

/-- A run from one state to another, as a run of the radio side and what it adds. -/
theorem run_adds {json : Publish → List Byte} {w w' : Uplink tw} {es : List (UplinkEvent tw)}
    (hrun : run (step json) w es = some w') : w.delivered <+: w'.delivered ∧
      ((∀ e ∈ es, e.Steady) → w.stood = w.gw.calls → w'.stood = w'.gw.calls) ∧
      ∃ es', gwRun es' w.gw = .ok w'.gw ∧
        es'.filterMap GwEvent.arrival = es.filterMap UplinkEvent.arrival := by
  induction es generalizing w with
  | nil =>
    obtain rfl := Option.some.inj hrun
    exact ⟨List.prefix_rfl, fun _ => id, [], rfl, rfl⟩
  | cons e es ih =>
    obtain ⟨w₁, hstep, hrest⟩ := Option.bind_eq_some_iff.mp hrun
    obtain ⟨hgrown, hstood, es₁, hrun₁, harrivals₁⟩ := step_adds hstep
    obtain ⟨hgrown', hstood', es₂, hrun₂, harrivals₂⟩ := ih hrest
    refine ⟨hgrown.trans hgrown', fun hsteady h => ?_, es₁ ++ es₂, ?_, ?_⟩
    · obtain ⟨he, hes⟩ := List.forall_mem_cons.mp hsteady
      exact hstood' hes (hstood he h)
    · rw [gwRun, List.foldlM_append]
      change (gwRun es₁ w.gw >>= fun w => gwRun es₂ w) = _
      rw [hrun₁]
      exact hrun₂
    · rw [List.filterMap_append, harrivals₁, harrivals₂]
      cases harrival : e.arrival with
      | none => rw [List.filterMap_cons_none harrival]; rfl
      | some f => rw [List.filterMap_cons_some harrival]; rfl

end Uplink
end EspNowGateway.System
