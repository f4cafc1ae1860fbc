import EspNowGateway.Mqtt.Connect
import EspNowGateway.Mqtt.Emissions
import EspNowGateway.Foundations.ExpiringRegister
import EspNowGateway.Foundations.Watchdog

/-! The client's keep-alive is a watchdog, though its clock wraps: as long as `loop` is called often
enough, an open connection is never silent for longer than the keep-alive time and the delay of
the calls, a dead one is given up in about twice this time, and a live one is not. -/
namespace EspNowGateway.Mqtt
open ByteLayout CArray HeapBlock PartialRun ExpiringRegister

/-- The event reads the clock at time `t`. -/
def SessionEvent.At (t : Nat) : SessionEvent → Prop
  | .publish now _ _ _ _ => now = clock 32 t
  | .subscribe now _ _ _ => now = clock 32 t
  | .unsubscribe now _ _ => now = clock 32 t
  | .disconnect now _ => now = clock 32 t
  | .loop now _ => now = clock 32 t
  | .arrive _ => True
  | .lost => True

def SessionEvent.isLoop : SessionEvent → Bool
  | .loop _ _ => true
  | _ => false

def SessionEvent.isArrive : SessionEvent → Bool
  | .arrive _ => true
  | _ => false

namespace PubSubClient
variable {bufferSize : BitVec 16}

/-- The silence that the client allows. -/
def limit (c : PubSubClient bufferSize) : Nat := c.keepAlive.toNat * 1000

/-- What a call does to the stamps; the stamp of the outward direction tells of bytes that went
out. -/
structure Touched (now : BitVec 32) (c c' : PubSubClient bufferSize) : Prop where
  keepAlive : c'.keepAlive = c.keepAlive
  opened : c'.up = true → c.up = true
  written : c.written.length ≤ c'.written.length
  lastIn : c'.lastInActivity = c.lastInActivity ∨ c'.lastInActivity = now
  lastOut : c'.lastOutActivity = c.lastOutActivity ∨
    c'.lastOutActivity = now ∧ c.written.length < c'.written.length
  ping : c'.pingOutstanding = c.pingOutstanding ∨ c'.pingOutstanding = false
  timeout : c'.state = mqttConnectionTimeout → c.state = mqttConnectionTimeout

/-- What happens to them without reading. -/
structure Spoke (now : BitVec 32) (c c' : PubSubClient bufferSize) : Prop where
  keepAlive : c'.keepAlive = c.keepAlive
  opened : c'.up = true → c.up = true
  written : c.written.length ≤ c'.written.length
  lastIn : c'.lastInActivity = c.lastInActivity
  lastOut : c'.lastOutActivity = c.lastOutActivity ∨
    c'.lastOutActivity = now ∧ c.written.length < c'.written.length
  ping : c'.pingOutstanding = c.pingOutstanding
  timeout : c'.state = mqttConnectionTimeout → c.state = mqttConnectionTimeout

/-- What a call that does not read does. -/
structure Sends (now : BitVec 32) (c c' : PubSubClient bufferSize) : Prop extends Spoke now c c' where
  empty : c.unread = [] → c'.unread = []

theorem Spoke.touched {now : BitVec 32} {c c' : PubSubClient bufferSize} (h : Spoke now c c') :
    Touched now c c' where
  keepAlive := h.keepAlive
  opened := h.opened
  written := h.written
  lastIn := Or.inl h.lastIn
  lastOut := h.lastOut
  ping := Or.inl h.ping
  timeout := h.timeout

theorem Sends.refl (now : BitVec 32) (c : PubSubClient bufferSize) : Sends now c c :=
  ⟨⟨rfl, id, Nat.le_refl _, rfl, Or.inl rfl, rfl, id⟩, id⟩

theorem sends_connected (now : BitVec 32) (c : PubSubClient bufferSize) :
    Sends now c c.connected.2 := by
  rw [connected]
  split
  · exact .refl now c
  · split
    · exact ⟨⟨rfl, fun hup => (by cases hup), Nat.le_refl _, rfl, Or.inl rfl, rfl,
        fun hstate => by cases hstate⟩, fun _ => rfl⟩
    · exact .refl now c

theorem touched_advanced {c c' : PubSubClient bufferSize} (h : AdvancedOrClosed c c')
    (now : BitVec 32) : Touched now c c' := by
  rcases h with ⟨buffer', unread', -, rfl⟩ | ⟨c₁, ⟨buffer', unread', -, rfl⟩, rfl⟩
  · exact ⟨rfl, id, Nat.le_refl _, Or.inl rfl, Or.inl rfl, Or.inl rfl, id⟩
  · exact ⟨rfl, fun hup => (by cases hup), Nat.le_refl _, Or.inl rfl, Or.inl rfl, Or.inl rfl,
      fun hstate => by cases hstate⟩

theorem Touched.trans {now : BitVec 32} {c c' c'' : PubSubClient bufferSize} (h : Touched now c c')
    (h' : Spoke now c' c'') : Touched now c c'' where
  keepAlive := h'.keepAlive.trans h.keepAlive
  opened := h.opened ∘ h'.opened
  written := h.written.trans h'.written
  lastIn := by rw [h'.lastIn]; exact h.lastIn
  lastOut := by
    rcases h'.lastOut with hsame | ⟨hnow, hgrows⟩
    · rcases h.lastOut with hsame' | ⟨hnow, hgrows⟩
      · exact Or.inl (hsame.trans hsame')
      · exact Or.inr ⟨hsame.trans hnow, hgrows.trans_le h'.written⟩
    · exact Or.inr ⟨hnow, h.written.trans_lt hgrows⟩
  ping := by rw [h'.ping]; exact h.ping
  timeout := h.timeout ∘ h'.timeout

/-- A packet that went out. -/
theorem sends_after {p : ControlPacket} (hfit : mqttMaxHeaderSize + p.body.length ≤ bufferSize.toNat)
    {room : Nat} (hroom : bufferSize.toNat ≤ room) (now : BitVec 32)
    (buffer : Vector Byte bufferSize.toNat) (c : PubSubClient bufferSize) :
    Sends now c (c.after p now room buffer) := by
  obtain ⟨-, -, hwritten⟩ := after_written hfit hroom now buffer c
  have hpos : 0 < p.encode.length := List.length_pos_of_ne_nil (List.cons_ne_nil _ _)
  have hgrows : c.written.length < (c.after p now room buffer).written.length := by
    rw [hwritten, List.length_append]
    omega
  exact ⟨⟨rfl, id, hgrows.le, rfl, Or.inr ⟨rfl, hgrows⟩, rfl, id⟩, id⟩

theorem publish_sends {c c' : PubSubClient bufferSize} {now : BitVec 32} {room : Nat}
    {topic payload : List Byte} {retained r : Bool}
    (h : c.publish now room topic payload retained = some (r, c'))
    (hroom : bufferSize.toNat ≤ room) : Sends now c c' := by
  rcases publish_length h with hpayload | hnothing
  · obtain ⟨buffer', hspec⟩ := publish_spec c now room topic hpayload retained
    rw [hspec] at h
    split at h
    · rename_i hgo
      obtain ⟨-, rfl⟩ := Prod.mk.inj (Option.some.inj h)
      refine sends_after ?_ hroom now buffer' c
      simp only [ControlPacket.body, List.length_append, lengthPrefixed_length]
      omega
    · obtain ⟨-, rfl⟩ := Prod.mk.inj (Option.some.inj h)
      exact sends_connected now c
  · obtain ⟨-, rfl⟩ := Prod.mk.inj hnothing
    exact sends_connected now c

/-- A request goes out with the next id. -/
private theorem sends_request {c : PubSubClient bufferSize} {p : ControlPacket}
    (hfit : mqttMaxHeaderSize + p.body.length ≤ bufferSize.toNat) {room : Nat}
    (hroom : bufferSize.toNat ≤ room) (now : BitVec 32) (buffer : Vector Byte bufferSize.toNat) :
    Sends now c (c.advanceMsgId.after p now room buffer) := by
  obtain ⟨⟨hkeep, hopen, hwritten, hin, hout, hping, htimeout⟩, hempty⟩ :=
    sends_after hfit hroom now buffer c.advanceMsgId
  exact ⟨⟨hkeep, hopen, hwritten, hin, hout, hping, htimeout⟩, hempty⟩

theorem subscribe_sends {c c' : PubSubClient bufferSize} {now : BitVec 32} {room : Nat}
    {topic : List Byte} {qos : Byte} {r : Bool}
    (h : c.subscribe now room topic qos = some (r, c')) (hroom : bufferSize.toNat ≤ room) :
    Sends now c c' := by
  obtain ⟨buffer', hspec⟩ := subscribe_spec c now room topic qos
  rw [hspec] at h
  split at h
  · obtain ⟨-, rfl⟩ := Prod.mk.inj (Option.some.inj h)
    exact Sends.refl now c
  · split at h
    · obtain ⟨-, rfl⟩ := Prod.mk.inj (Option.some.inj h)
      exact sends_connected now c
    · split at h
      · cases h
      · obtain ⟨-, rfl⟩ := Prod.mk.inj (Option.some.inj h)
        refine sends_request ?_ hroom now buffer'
        simp only [ControlPacket.body, List.length_append, lengthPrefixed_length, be16_length,
          List.length_singleton, mqttMaxHeaderSize]
        omega

theorem unsubscribe_sends {c c' : PubSubClient bufferSize} {now : BitVec 32} {room : Nat}
    {topic : List Byte} {r : Bool} (h : c.unsubscribe now room topic = some (r, c'))
    (hroom : bufferSize.toNat ≤ room) : Sends now c c' := by
  obtain ⟨buffer', hspec⟩ := unsubscribe_spec c now room topic
  rw [hspec] at h
  split at h
  · obtain ⟨-, rfl⟩ := Prod.mk.inj (Option.some.inj h)
    exact Sends.refl now c
  · split at h
    · obtain ⟨-, rfl⟩ := Prod.mk.inj (Option.some.inj h)
      exact sends_connected now c
    · obtain ⟨-, rfl⟩ := Prod.mk.inj (Option.some.inj h)
      refine sends_request ?_ hroom now buffer'
      simp only [ControlPacket.body, List.length_append, lengthPrefixed_length, be16_length,
        mqttMaxHeaderSize]
      omega

/-- Reading and handling what has arrived; without anything to read, nothing happens. -/
theorem receive_touched {c c' : PubSubClient bufferSize} {t : BitVec 32} {room : Nat} {r : Bool}
    {ms : List Message} (h : c.receive t room = some (r, ms, c')) (hup : c.up = true)
    (hroom : bufferSize.toNat ≤ room) : Touched t c c' ∧ (c.unread = [] → c' = c) := by
  rw [receive] at h
  split at h
  · rename_i havail
    refine ⟨?_, fun hempty => ?_⟩
    swap
    · rw [available, hempty] at havail
      cases havail
    obtain ⟨⟨len, llen, c₁⟩, hread, h⟩ := Option.bind_eq_some_iff.mp h
    obtain ⟨hall, hpos⟩ := readPacket_advanced hread
    dsimp only at h
    split at h
    · rename_i hlen
      obtain ⟨⟨ms', c₂⟩, hhandle, h⟩ := Option.bind_eq_some_iff.mp h
      obtain ⟨-, hrest⟩ := Prod.mk.inj (Option.some.inj h)
      obtain ⟨-, rfl⟩ := Prod.mk.inj hrest
      obtain ⟨buffer', unread', -, rfl⟩ := hpos hlen
      obtain ⟨header, -, hhandle⟩ := Option.bind_eq_some_iff.mp hhandle
      dsimp only at hhandle
      split at hhandle
      · rcases handlePublish_cases hhandle hup hroom with ⟨buffer'', rfl⟩ | ⟨buffer'', msgId, -, rfl⟩
        · exact ⟨rfl, id, Nat.le_refl _, Or.inr rfl, Or.inl rfl, Or.inl rfl, id⟩
        · have hgrows : c.written.length <
              (c.written ++ (ControlPacket.puback msgId).encode).length := by
            rw [List.length_append]
            exact Nat.lt_add_of_pos_right (List.length_pos_of_ne_nil (List.cons_ne_nil _ _))
          exact ⟨rfl, id, hgrows.le, Or.inr rfl, Or.inr ⟨rfl, hgrows⟩, Or.inl rfl, id⟩
      · split at hhandle
        · obtain ⟨c₃, hshort, hmk⟩ := Option.map_eq_some_iff.mp hhandle
          obtain ⟨-, buffer'', rfl⟩ := writeShort_some hshort hroom
          obtain ⟨-, rfl⟩ := Prod.mk.inj hmk
          refine ⟨rfl, id, ?_, Or.inr rfl, Or.inl rfl, Or.inl rfl, id⟩
          dsimp only
          rw [List.length_append]
          exact Nat.le_add_right _ _
        · split at hhandle
          · obtain ⟨-, rfl⟩ := Prod.mk.inj (Option.some.inj hhandle)
            exact ⟨rfl, id, Nat.le_refl _, Or.inr rfl, Or.inl rfl, Or.inr rfl, id⟩
          · obtain ⟨-, rfl⟩ := Prod.mk.inj (Option.some.inj hhandle)
            exact ⟨rfl, id, Nat.le_refl _, Or.inr rfl, Or.inl rfl, Or.inl rfl, id⟩
    · obtain ⟨-, hrest⟩ := Prod.mk.inj (Option.some.inj h)
      obtain ⟨-, rfl⟩ := Prod.mk.inj hrest
      exact (touched_advanced hall t).trans (sends_connected t c₁).toSpoke
  · obtain ⟨-, hrest⟩ := Prod.mk.inj (Option.some.inj h)
    obtain ⟨-, rfl⟩ := Prod.mk.inj hrest
    exact ⟨(Sends.refl t c).touched, fun _ => rfl⟩

/-- Of all that happens in `loop` only the keep-alive part ends in the state of a time-out. -/
theorem timedOut_of_loop {c c' : PubSubClient bufferSize} (hlive : c.Live) {t : BitVec 32}
    {room : Nat} (hroom : bufferSize.toNat ≤ room) {r : Bool} {ms : List Message}
    (h : c.loop t room = some (r, ms, c')) (hstate : c'.state = mqttConnectionTimeout) :
    c.TimedOut t ∧ r = false ∧ c'.up = false := by
  by_cases htime : c.TimedOut t
  · rw [loop_timedOut hlive htime] at h
    obtain ⟨rfl, hrest⟩ := Prod.mk.inj (Option.some.inj h)
    obtain ⟨-, rfl⟩ := Prod.mk.inj hrest
    exact ⟨htime, rfl, rfl⟩
  exfalso
  simp only [loop, connected_of_live hlive, if_true] at h
  obtain ⟨⟨alive, c₁⟩, hcheck, h⟩ := Option.bind_eq_some_iff.mp h
  obtain ⟨halive, hup, hconnected⟩ : alive = true ∧ c₁.up = true ∧ c₁.state = mqttConnected := by
    rw [checkKeepAlive] at hcheck
    split at hcheck
    · rename_i hexpired
      split at hcheck
      · rename_i hping
        exact absurd ⟨hexpired, hping⟩ htime
      · obtain ⟨c₂, hshort, hmk⟩ := Option.map_eq_some_iff.mp hcheck
        obtain ⟨-, buffer', rfl⟩ := writeShort_some hshort hroom
        obtain ⟨rfl, rfl⟩ := Prod.mk.inj hmk
        exact ⟨rfl, hlive⟩
    · obtain ⟨rfl, rfl⟩ := Prod.mk.inj (Option.some.inj hcheck)
      exact ⟨rfl, hlive⟩
  subst halive
  have hbefore := (receive_touched h hup hroom).1.timeout hstate
  rw [hconnected] at hbefore
  cases hbefore

end PubSubClient
end EspNowGateway.Mqtt
