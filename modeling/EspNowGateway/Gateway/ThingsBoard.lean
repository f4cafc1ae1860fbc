import EspNowGateway.Gateway.GwLoop
import EspNowGateway.Mqtt.SessionInput
import EspNowGateway.Mqtt.SessionStream

/-! The ThingsBoard client on top of the MQTT client: it opens a session for the gateway's token and
sends each attribute as one publication. The text that ArduinoJson makes of an attribute is a
parameter. -/
namespace EspNowGateway.Gateway
open ByteLayout CArray HeapBlock PartialRun Mqtt

def maxMessageSize : BitVec 16 := 1024

def token : List Byte := ascii "OxXb0e5fqqmDZqLPr2hh"

def defaultClientId : List Byte := ascii "TbDev"

def attributeTopic : List Byte := ascii "v1/devices/me/attributes"

/-- What the outside answers to one call; a connection that has broken is found broken. -/
structure SendAnswers where
  alive : Bool
  now : BitVec 32
  room : Nat

namespace ThingsBoard
variable {bufferSize : BitVec 16}

/-- Nothing has been subscribed to, so there is nothing to resubscribe to. -/
def connectToHost (a : ConnectAnswers) (c : PubSubClient bufferSize) :
    Option (Bool × PubSubClient bufferSize) :=
  c.connect a defaultClientId (some token) none none true

def sendJsonString (now : BitVec 32) (room : Nat) (topic json : List Byte)
    (c : PubSubClient bufferSize) : Option (Bool × PubSubClient bufferSize) :=
  let json := upToNul json
  if bufferSize.toNat < json.length then some (false, c)
  else c.publish now room topic json false

/-- One field is never too many for the document, and its text has the length that was measured. -/
def sendAttributeData (json : Publish → List Byte) (a : SendAnswers) (p : Publish)
    (c : PubSubClient bufferSize) : Option (Bool × PubSubClient bufferSize) :=
  sendJsonString a.now a.room attributeTopic (json p) c

/-- The publication that a call asks for. -/
def posting (json : Publish → List Byte) (p : Publish) : Posting :=
  ⟨false, attributeTopic, upToNul (json p)⟩

/-- One call in a session. -/
def send (json : Publish → List Byte) (a : SendAnswers) (p : Publish) (s : Session bufferSize) :
    Option (Session bufferSize) := do
  let c := if a.alive then s.client else { s.client with up := false }
  let (sent, c) ← sendAttributeData json a p c
  some { s with
    client := c, confirmed := if sent then s.confirmed ++ [posting json p] else s.confirmed }

/-- The calls of a turn, from the `k`-th on. -/
def sendAll (json : Publish → List Byte) (answers : Nat → SendAnswers) :
    Nat → List Publish → Session bufferSize → Option (Session bufferSize)
  | _, [], s => some s
  | k, p :: ps, s => (send json (answers k) p s).bind (sendAll json answers (k+1) ps)

theorem sendAll_delivered {json : Publish → List Byte} {answers : Nat → SendAnswers} {k : Nat}
    {ps : List Publish} {s s' : Session bufferSize} (h : sendAll json answers k ps s = some s') :
    s'.delivered = s.delivered := by
  induction ps generalizing k s with
  | nil =>
    obtain rfl := Option.some.inj h
    rfl
  | cons p ps ih =>
    obtain ⟨s₁, hsend, h⟩ := Option.bind_eq_some_iff.mp h
    obtain ⟨⟨sent, c⟩, -, hsend⟩ := Option.bind_eq_some_iff.mp hsend
    obtain rfl := Option.some.inj hsend
    rw [ih h]

/-- What a call does, as events of the session. -/
def sendEvents (bufferSize : BitVec 16) (json : Publish → List Byte) (a : SendAnswers) (p : Publish) :
    List SessionEvent :=
  (if a.alive then [] else [.lost]) ++
    if bufferSize.toNat < (upToNul (json p)).length then []
    else [.publish a.now a.room attributeTopic (upToNul (json p)) false]

def sendAllEvents (bufferSize : BitVec 16) (json : Publish → List Byte)
    (answers : Nat → SendAnswers) : Nat → List Publish → List SessionEvent
  | _, [] => []
  | k, p :: ps => sendEvents bufferSize json (answers k) p ++
    sendAllEvents bufferSize json answers (k+1) ps

theorem send_run (json : Publish → List Byte) (a : SendAnswers) (p : Publish)
    (s : Session bufferSize) :
    send json a p s = run Session.step s (sendEvents bufferSize json a p) := by
  have htopic : upToNul attributeTopic = attributeTopic := by decide
  -- the call itself, on a connection that has or has not been found broken
  have hcall : ∀ s' : Session bufferSize, s'.confirmed = s.confirmed → s'.delivered = s.delivered →
      (sendAttributeData json a p s'.client).bind (fun r => some { s with
        client := r.2
        confirmed := if r.1 then s.confirmed ++ [posting json p] else s.confirmed }) =
      run Session.step s' (if bufferSize.toNat < (upToNul (json p)).length then []
        else [.publish a.now a.room attributeTopic (upToNul (json p)) false]) := by
    intro s' hconfirmed hdelivered
    rw [sendAttributeData, sendJsonString]
    split
    · rw [run_nil, Option.bind_some, ← hconfirmed, ← hdelivered]
      rfl
    · rw [run_cons, Session.step, htopic, hconfirmed]
      cases s'.client.publish a.now a.room attributeTopic (upToNul (json p)) false with
      | none => rfl
      | some r =>
        simp only [Option.bind_some, Option.map_some, run_nil, hdelivered]
        rfl
  cases halive : a.alive with
  | true =>
    rw [send, sendEvents, halive]
    exact hcall s rfl rfl
  | false =>
    rw [send, sendEvents, halive]
    exact hcall { s with client := { s.client with up := false } } rfl rfl

theorem sendAll_run (json : Publish → List Byte) (answers : Nat → SendAnswers) (k : Nat)
    (ps : List Publish) (s : Session bufferSize) :
    sendAll json answers k ps s =
      run Session.step s (sendAllEvents bufferSize json answers k ps) := by
  induction ps generalizing k s with
  | nil => rfl
  | cons p ps ih =>
    rw [sendAll, sendAllEvents, run_append, send_run]
    congr 1
    funext s'
    exact ih (k+1) s'

/-- The events are losses of the connection and publications that are not too long. -/
theorem mem_sendAllEvents {json : Publish → List Byte} {answers : Nat → SendAnswers} {k : Nat}
    {ps : List Publish} {e : SessionEvent} (he : e ∈ sendAllEvents bufferSize json answers k ps) :
    e = .lost ∨ ∃ j payload, e = .publish (answers j).now (answers j).room attributeTopic payload false ∧
      payload.length ≤ bufferSize.toNat := by
  induction ps generalizing k with
  | nil => cases he
  | cons p ps ih =>
    rcases List.mem_append.mp he with he | he
    · rcases List.mem_append.mp he with he | he
      · split at he
        · cases he
        · exact Or.inl (List.mem_singleton.mp he)
      · split at he
        · cases he
        · rename_i hlong
          exact Or.inr ⟨k, _, List.mem_singleton.mp he, Nat.not_lt.mp hlong⟩
    · exact ih he

/-- Every write of these calls is taken whole. -/
theorem sendAllEvents_whole {json : Publish → List Byte} {answers : Nat → SendAnswers} {n : Nat}
    (h : ∀ k, n ≤ (answers k).room) (k : Nat) (ps : List Publish) :
    ∀ e ∈ sendAllEvents bufferSize json answers k ps, e.Whole n := by
  intro e he
  rcases mem_sendAllEvents he with rfl | ⟨j, payload, rfl, -⟩
  · trivial
  · exact h j

/-- A turn of calls and the `tb.loop()` behind them, while the broker publishes nothing. -/
theorem sendAll_loop_exists (hsize : 7 ≤ bufferSize.toNat) (json : Publish → List Byte)
    (answers : Nat → SendAnswers) (ps : List Publish) {s : Session bufferSize} (h : s.Orderly)
    (t : BitVec 32) (room : Nat) :
    ∃ s₁ r c, sendAll json answers 0 ps s = some s₁ ∧ s₁.client.loop t room = some (r, [], c) ∧
      s₁.delivered = s.delivered ∧ Session.Orderly { s₁ with client := c } := by
  have hevents : ∀ e ∈ sendAllEvents bufferSize json answers 0 ps ++ [.loop t room],
      e.Fit bufferSize.toNat ∧ e.Brings [] [] [] := by
    intro e he
    rcases List.mem_append.mp he with he | he
    · rcases mem_sendAllEvents he with rfl | ⟨j, payload, rfl, hle⟩
      · exact ⟨trivial, rfl⟩
      · have hsize := bufferSize.isLt
        refine ⟨?_, rfl, rfl⟩
        change payload.length < 2^32 - 2^17
        omega
    · obtain rfl := List.mem_singleton.mp he
      exact ⟨trivial, rfl, rfl, rfl⟩
  obtain ⟨s', hrun, horderly, hdelivered⟩ := h.run hsize (fun e he => (hevents e he).1)
    (Session.bring_nil fun e he => (hevents e he).2) fun _ hp => by cases hp
  rw [run_append, ← sendAll_run] at hrun
  obtain ⟨s₁, hall, hrun⟩ := Option.bind_eq_some_iff.mp hrun
  obtain ⟨s₂, hstep, hrun⟩ := Option.bind_eq_some_iff.mp hrun
  obtain rfl := Option.some.inj hrun
  obtain ⟨⟨r, messages, c⟩, hloop, rfl⟩ := Option.map_eq_some_iff.mp hstep
  have hsame := sendAll_delivered hall
  have hnone : messages = [] := by
    dsimp only at hdelivered
    rw [hsame] at hdelivered
    exact List.append_right_eq_self.mp hdelivered
  subst hnone
  refine ⟨s₁, r, c, hall, hloop, hsame, ?_⟩
  exact ⟨horderly.settled, horderly.unread⟩

/-- The calls of a turn that are made before the connection is found broken. -/
def standing (answers : Nat → SendAnswers) : Nat → List Publish → List Publish
  | _, [] => []
  | k, p :: ps => if (answers k).alive then p :: standing answers (k+1) ps else []

theorem standing_of_alive {answers : Nat → SendAnswers} (h : ∀ k, (answers k).alive = true) (k : Nat)
    (ps : List Publish) : standing answers k ps = ps := by
  induction ps generalizing k with
  | nil => rfl
  | cons p ps ih => rw [standing, if_pos (h k), ih]

/-- The text of the attribute fits the buffer behind its topic. -/
def fits (bufferSize : BitVec 16) (json : Publish → List Byte) (p : Publish) : Bool :=
  mqttMaxHeaderSize + 2 + attributeTopic.length + (upToNul (json p)).length ≤ bufferSize.toNat

/-- One call on any connection. -/
theorem send_spec (json : Publish → List Byte) {a : SendAnswers} (hroom : bufferSize.toNat ≤ a.room)
    (p : Publish) (s : Session bufferSize) :
    ∃ c', send json a p s = some ⟨c', s.confirmed ++
        (if s.client.Live ∧ a.alive = true then [p].filter (fits bufferSize json) else []).map
          (posting json), s.delivered⟩ ∧
      (c'.Live ↔ s.client.Live ∧ a.alive = true) := by
  have hsize := bufferSize.isLt
  have htopic : upToNul attributeTopic = attributeTopic := by decide
  generalize hc : (if a.alive then s.client else { s.client with up := false }) = c
  have hlive : c.Live ↔ s.client.Live ∧ a.alive = true := by
    rw [← hc]
    cases a.alive with
    | true => simp
    | false => exact iff_of_false (fun h => Bool.false_ne_true h.1) fun h => Bool.false_ne_true h.2
  have hnot : ¬ c.Live → ¬ c.connected.2.Live := by
    intro h hconn
    have hfalse := PubSubClient.connected_fst_of_not_live h
    rw [PubSubClient.connected] at hconn hfalse
    split at hconn
    · exact h hconn
    · split at hconn
      · exact Bool.false_ne_true hconn.1
      · exact h hconn
  rw [send, hc, sendAttributeData, sendJsonString]
  simp only [← hlive]
  by_cases hlong : bufferSize.toNat < (upToNul (json p)).length
  · rw [if_pos hlong]
    have hno : fits bufferSize json p = false := by
      rw [fits, decide_eq_false_iff_not]
      omega
    refine ⟨c, ?_, Iff.rfl⟩
    simp [hno]
  · rw [if_neg hlong]
    obtain ⟨buffer', hspec⟩ := PubSubClient.publish_spec c a.now a.room attributeTopic
      (by omega : (upToNul (json p)).length < 2^32 - 2^17) false
    rw [htopic] at hspec
    rw [hspec]
    by_cases hl : c.Live
    · by_cases hfit : mqttMaxHeaderSize + 2 + attributeTopic.length + (upToNul (json p)).length ≤
          bufferSize.toNat
      · have hbody : mqttMaxHeaderSize + (ControlPacket.publish false attributeTopic
            (upToNul (json p))).body.length ≤ bufferSize.toNat := by
          simp only [ControlPacket.body, List.length_append, lengthPrefixed_length]
          omega
        obtain ⟨-, hsent, -⟩ := PubSubClient.after_written hbody hroom a.now buffer' c
        have hyes : fits bufferSize json p = true := decide_eq_true hfit
        refine ⟨c.after (.publish false attributeTopic (upToNul (json p))) a.now a.room buffer', ?_,
          iff_of_true hl hl⟩
        rw [if_pos ⟨hl, hfit⟩, hsent]
        simp [hl, hyes]
      · have hno : fits bufferSize json p = false := decide_eq_false hfit
        refine ⟨c.connected.2, ?_, ?_⟩
        · rw [if_neg fun h => hfit h.2]
          simp [hno]
        · rw [PubSubClient.connected_of_live hl]
    · refine ⟨c.connected.2, ?_, iff_of_false (hnot hl) hl⟩
      rw [if_neg fun h => hl h.1]
      simp [hl]

/-- All calls of a turn: what fits goes out as long as the connection stands. -/
theorem sendAll_spec (json : Publish → List Byte) {answers : Nat → SendAnswers}
    (hroom : ∀ k, bufferSize.toNat ≤ (answers k).room) (k : Nat) (ps : List Publish)
    (s : Session bufferSize) :
    ∃ c', sendAll json answers k ps s = some ⟨c', s.confirmed ++
        ((if s.client.Live then standing answers k ps else []).filter (fits bufferSize json)).map
          (posting json), s.delivered⟩ := by
  induction ps generalizing k s with
  | nil =>
    refine ⟨s.client, ?_⟩
    simp [sendAll, standing]
  | cons p ps ih =>
    obtain ⟨c₁, hsend, hlive₁⟩ := send_spec json (hroom k) p s
    obtain ⟨c', hall⟩ := ih (k+1) ⟨c₁, s.confirmed ++
        (if s.client.Live ∧ (answers k).alive = true then [p].filter (fits bufferSize json) else []).map
          (posting json), s.delivered⟩
    refine ⟨c', ?_⟩
    rw [sendAll, hsend, Option.bind_some, hall, List.append_assoc, ← List.map_append, standing]
    congr 4
    by_cases hl : s.client.Live
    · by_cases ha : (answers k).alive = true
      · rw [if_pos ⟨hl, ha⟩, if_pos (hlive₁.mpr ⟨hl, ha⟩), if_pos hl, if_pos ha, ← List.filter_append]
        rfl
      · rw [if_neg fun h => ha h.2, if_neg fun h => ha (hlive₁.mp h).2, if_pos hl, if_neg ha]
        rfl
    · rw [if_neg fun h => hl h.1, if_neg fun h => hl (hlive₁.mp h).1, if_neg hl]
      rfl

end ThingsBoard
end EspNowGateway.Gateway
