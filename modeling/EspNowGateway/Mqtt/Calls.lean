import EspNowGateway.Mqtt.Output

/-! The calls of the client as a user sees them: which control packet each of them puts on the
connection, and when it puts none. -/
namespace EspNowGateway.Mqtt
open ByteLayout CArray HeapBlock

/-- The limited length is as good as the length for a check against the limit. -/
theorem lt_add_strnlen_iff {k : Nat} (hk : 0 < k) (s : List Byte) (n : Nat) :
    n < k + strnlen s n ↔ ¬ k + (upToNul s).length ≤ n := by
  rw [strnlen]
  omega

namespace PubSubClient
variable {bufferSize : BitVec 16}

/-- The client after a control packet went out. -/
def after (p : ControlPacket) (now : BitVec 32) (room : Nat)
    (buffer : Vector Byte bufferSize.toNat) (c : PubSubClient bufferSize) : PubSubClient bufferSize :=
  { c with
    buffer := buffer, written := c.written ++ p.encode.take room, lastOutActivity := now }

/-- The call reports whether all of the packet went out. -/
def sent (p : ControlPacket) (now : BitVec 32) (room : Nat)
    (buffer : Vector Byte bufferSize.toNat) (c : PubSubClient bufferSize) :
    Bool × PubSubClient bufferSize := (p.encode.length ≤ room, c.after p now room buffer)

/-- A body in the buffer goes out as the packet that has it. -/
theorem write_packet {c : PubSubClient bufferSize} (hup : c.up = true) (p : ControlPacket)
    (hbody : Holds c.buffer mqttMaxHeaderSize p.body)
    (hfit : mqttMaxHeaderSize + p.body.length ≤ bufferSize.toNat) (now : BitVec 32) (room : Nat) :
    ∃ buffer', c.write now room p.header p.body.length = some (c.sent p now room buffer') :=
  write_ok hup hbody hfit now room p.header

/-- A publication that fits goes out as one packet; otherwise nothing does. -/
theorem publish_spec (c : PubSubClient bufferSize) (now : BitVec 32) (room : Nat)
    (topic : List Byte) {payload : List Byte} (hpayload : payload.length < 2^32 - 2^17)
    (retained : Bool) :
    ∃ buffer', c.publish now room topic payload retained = some (
      if c.Live ∧ mqttMaxHeaderSize + 2 + (upToNul topic).length + payload.length ≤ bufferSize.toNat
      then c.sent (.publish retained (upToNul topic) payload) now room buffer'
      else (false, c.connected.2)) := by
  have hsize := bufferSize.isLt
  have hsum : (mqttMaxHeaderSize + 2 + strnlen topic bufferSize.toNat + payload.length) % 2^32 =
      mqttMaxHeaderSize + 2 + strnlen topic bufferSize.toNat + payload.length := by
    apply Nat.mod_eq_of_lt
    simp only [strnlen, mqttMaxHeaderSize]
    omega
  have hlong : bufferSize.toNat < mqttMaxHeaderSize + 2 + strnlen topic bufferSize.toNat + payload.length ↔
      ¬ mqttMaxHeaderSize + 2 + (upToNul topic).length + payload.length ≤ bufferSize.toNat := by
    simp only [strnlen, mqttMaxHeaderSize]
    omega
  by_cases hlive : c.Live
  · rw [publish, connected_of_live hlive]
    simp only [if_true, hsum, hlive, true_and]
    by_cases hfit : mqttMaxHeaderSize + 2 + (upToNul topic).length + payload.length ≤ bufferSize.toNat
    · rw [if_neg (fun h => hlong.mp h hfit)]
      simp only [if_pos hfit]
      obtain ⟨buffer₁, h₁, hheld₁, _⟩ := writeString_ok (s := topic) c.buffer
        (by omega : mqttMaxHeaderSize + 2 + (upToNul topic).length ≤ bufferSize.toNat)
      obtain ⟨buffer₂, h₂, hheld₂, hframe₂⟩ := storeAll_ok (s := payload) buffer₁ hfit
      have hlen : mqttMaxHeaderSize + 2 + (upToNul topic).length + payload.length - mqttMaxHeaderSize =
          (ControlPacket.publish retained (upToNul topic) payload).body.length := by
        simp only [ControlPacket.body, List.length_append, lengthPrefixed_length]
        omega
      have hbody : Holds buffer₂ mqttMaxHeaderSize
          (ControlPacket.publish retained (upToNul topic) payload).body := by
        refine holds_append_iff.mpr ⟨hframe₂ _ _ hheld₁ ?_, ?_⟩
        · right
          rw [lengthPrefixed_length]
          omega
        · rw [lengthPrefixed_length, Nat.add_comm _ 2, ← Nat.add_assoc]
          exact hheld₂
      obtain ⟨buffer₃, h₃⟩ := write_packet (c := { c with buffer := buffer₂ }) hlive.1
        (.publish retained (upToNul topic) payload) hbody (by omega) now room
      refine ⟨buffer₃, ?_⟩
      have hheader : (if retained then mqttPublish ||| 1 else mqttPublish) =
          (ControlPacket.publish retained (upToNul topic) payload).header := by
        cases retained <;> rfl
      simp only [h₁, h₂, Option.bind_eq_bind, Option.bind_some, hlen, hheader, h₃]
      rfl
    · rw [if_pos (hlong.mpr hfit)]
      exact ⟨c.buffer, by rw [if_neg hfit]⟩
  · refine ⟨c.buffer, ?_⟩
    have hno : ¬ (c.Live ∧
        mqttMaxHeaderSize + 2 + (upToNul topic).length + payload.length ≤ bufferSize.toNat) :=
      fun h => hlive h.1
    simp only [publish, connected_fst_of_not_live hlive, Bool.false_eq_true, if_false, if_neg hno]

/-- A message id and a topic at the front of a body. -/
private theorem idAndTopic_ok (id : BitVec 16) (topic : List Byte)
    (buffer : Vector Byte bufferSize.toNat)
    (hfit : mqttMaxHeaderSize + 4 + (upToNul topic).length ≤ bufferSize.toNat) :
    ∃ buffer₁ buffer₂ buffer₃, store buffer mqttMaxHeaderSize (msb id) = some buffer₁ ∧
      store buffer₁ (mqttMaxHeaderSize + 1) (lsb id) = some buffer₂ ∧
      writeString topic (mqttMaxHeaderSize + 2) buffer₂ =
        some (mqttMaxHeaderSize + 4 + (upToNul topic).length, buffer₃) ∧
      Holds buffer₃ mqttMaxHeaderSize (be16 id ++ lengthPrefixed (upToNul topic)) := by
  obtain ⟨buffer₁, h₁, hheld₁, _⟩ :=
    store_ok buffer (by omega : mqttMaxHeaderSize < bufferSize.toNat) (msb id)
  obtain ⟨buffer₂, h₂, hheld₂, hframe₂⟩ :=
    store_ok buffer₁ (by omega : mqttMaxHeaderSize + 1 < bufferSize.toNat) (lsb id)
  obtain ⟨buffer₃, h₃, hheld₃, hframe₃⟩ := writeString_ok (s := topic) buffer₂
    (by omega : mqttMaxHeaderSize + 2 + 2 + (upToNul topic).length ≤ bufferSize.toNat)
  have hid : Holds buffer₂ mqttMaxHeaderSize (be16 id) := by
    rw [← msb_lsb]
    refine holds_append_iff (s := [msb id]).mpr ⟨?_, hheld₂⟩
    exact hframe₂ _ _ hheld₁ (by simp)
  refine ⟨buffer₁, buffer₂, buffer₃, h₁, h₂, h₃, holds_append_iff.mpr ⟨?_, hheld₃⟩⟩
  exact hframe₃ _ _ hid (by simp)

/-- The packets of `subscribe`: with a topic nine bytes shorter than the buffer the level is
stored behind the buffer's end. -/
theorem subscribe_spec (c : PubSubClient bufferSize) (now : BitVec 32) (room : Nat)
    (topic : List Byte) (qos : Byte) :
    ∃ buffer', c.subscribe now room topic qos =
      if 1 < qos.toNat ∨ ¬ 9 + (upToNul topic).length ≤ bufferSize.toNat then some (false, c)
      else if ¬ c.Live then some (false, c.connected.2)
      else if bufferSize.toNat = 9 + (upToNul topic).length then none
      else some (c.advanceMsgId.sent (.subscribe c.advanceMsgId.nextMsgId (upToNul topic) qos)
        now room buffer') := by
  by_cases hqos : 1 < qos.toNat
  · exact ⟨c.buffer, by rw [subscribe, if_pos hqos, if_pos (Or.inl hqos)]⟩
  by_cases hfit : 9 + (upToNul topic).length ≤ bufferSize.toNat
  swap
  · refine ⟨c.buffer, ?_⟩
    rw [subscribe, if_neg hqos, if_pos ((lt_add_strnlen_iff (by decide) _ _).mpr hfit),
      if_pos (Or.inr hfit)]
  have hpass : ¬ (1 < qos.toNat ∨ ¬ 9 + (upToNul topic).length ≤ bufferSize.toNat) := by
    rintro (h | h)
    · exact hqos h
    · exact h hfit
  have hcheck : ¬ bufferSize.toNat < 9 + strnlen topic bufferSize.toNat :=
    fun h => (lt_add_strnlen_iff (by decide) _ _).mp h hfit
  by_cases hlive : c.Live
  swap
  · refine ⟨c.buffer, ?_⟩
    simp only [subscribe, if_neg hqos, if_neg hcheck, connected_fst_of_not_live hlive,
      Bool.false_eq_true, if_false, if_neg hpass]
    rw [if_pos hlive]
  obtain ⟨buffer₁, buffer₂, buffer₃, h₁, h₂, h₃, hheld₃⟩ :=
    idAndTopic_ok c.advanceMsgId.nextMsgId topic c.buffer (by simpa [mqttMaxHeaderSize])
  have hbuffer : c.advanceMsgId.buffer = c.buffer := rfl
  by_cases hfull : bufferSize.toNat = 9 + (upToNul topic).length
  · have hbehind : store buffer₃ (mqttMaxHeaderSize + 4 + (upToNul topic).length) qos = none :=
      dif_neg (by simp only [mqttMaxHeaderSize]; omega)
    refine ⟨c.buffer, ?_⟩
    simp only [subscribe, if_neg hqos, if_neg hcheck, connected_of_live hlive, if_true,
      if_neg hpass, hlive, not_true_eq_false, if_false, hbuffer, h₁, h₂, h₃, Option.bind_eq_bind,
      Option.bind_some, hbehind, Option.bind_none]
    rw [if_pos hfull]
  · obtain ⟨buffer₄, h₄, hheld₄, hframe₄⟩ := store_ok buffer₃
      (by simp only [mqttMaxHeaderSize]; omega :
        mqttMaxHeaderSize + 4 + (upToNul topic).length < bufferSize.toNat) qos
    have hlen : mqttMaxHeaderSize + 4 + (upToNul topic).length + 1 - mqttMaxHeaderSize =
        (ControlPacket.subscribe c.advanceMsgId.nextMsgId (upToNul topic) qos).body.length := by
      simp only [ControlPacket.body, List.length_append, lengthPrefixed_length, be16_length,
        List.length_singleton]
      omega
    have hbody : Holds buffer₄ mqttMaxHeaderSize
        (ControlPacket.subscribe c.advanceMsgId.nextMsgId (upToNul topic) qos).body := by
      refine holds_append_iff.mpr ⟨hframe₄ _ _ hheld₃ ?_, ?_⟩
      · right
        simp only [List.length_append, lengthPrefixed_length, be16_length]
        omega
      · have hplace : mqttMaxHeaderSize + (be16 c.advanceMsgId.nextMsgId ++
            lengthPrefixed (upToNul topic)).length = mqttMaxHeaderSize + 4 + (upToNul topic).length := by
          simp only [List.length_append, lengthPrefixed_length, be16_length]
          omega
        rw [hplace]
        exact hheld₄
    obtain ⟨buffer₅, h₅⟩ := write_packet (c := { c.advanceMsgId with buffer := buffer₄ }) hlive.1
      _ hbody (by rw [← hlen]; simp only [mqttMaxHeaderSize]; omega) now room
    refine ⟨buffer₅, ?_⟩
    have hheader : mqttSubscribe ||| mqttQos1 =
        (ControlPacket.subscribe c.advanceMsgId.nextMsgId (upToNul topic) qos).header := rfl
    simp only [subscribe, if_neg hqos, if_neg hcheck, connected_of_live hlive, if_true,
      if_neg hpass, hlive, not_true_eq_false, if_false, hbuffer, h₁, h₂, h₃, h₄,
      Option.bind_eq_bind, Option.bind_some, if_neg hfull, hlen, hheader, h₅]
    rfl

/-- The packets of `unsubscribe`, whose check is exact. -/
theorem unsubscribe_spec (c : PubSubClient bufferSize) (now : BitVec 32) (room : Nat)
    (topic : List Byte) :
    ∃ buffer', c.unsubscribe now room topic = some (
      if ¬ 9 + (upToNul topic).length ≤ bufferSize.toNat then (false, c)
      else if ¬ c.Live then (false, c.connected.2)
      else c.advanceMsgId.sent (.unsubscribe c.advanceMsgId.nextMsgId (upToNul topic)) now room
        buffer') := by
  by_cases hfit : 9 + (upToNul topic).length ≤ bufferSize.toNat
  swap
  · refine ⟨c.buffer, ?_⟩
    rw [unsubscribe, if_pos ((lt_add_strnlen_iff (by decide) _ _).mpr hfit), if_pos hfit]
  have hcheck : ¬ bufferSize.toNat < 9 + strnlen topic bufferSize.toNat :=
    fun h => (lt_add_strnlen_iff (by decide) _ _).mp h hfit
  by_cases hlive : c.Live
  swap
  · refine ⟨c.buffer, ?_⟩
    simp only [unsubscribe, if_neg hcheck, connected_fst_of_not_live hlive, Bool.false_eq_true,
      if_false, hfit, not_true_eq_false]
    rw [if_pos hlive]
  obtain ⟨buffer₁, buffer₂, buffer₃, h₁, h₂, h₃, hheld₃⟩ :=
    idAndTopic_ok c.advanceMsgId.nextMsgId topic c.buffer (by simpa [mqttMaxHeaderSize])
  have hbuffer : c.advanceMsgId.buffer = c.buffer := rfl
  have hlen : mqttMaxHeaderSize + 4 + (upToNul topic).length - mqttMaxHeaderSize =
      (ControlPacket.unsubscribe c.advanceMsgId.nextMsgId (upToNul topic)).body.length := by
    simp only [ControlPacket.body, List.length_append, lengthPrefixed_length, be16_length]
    omega
  obtain ⟨buffer₄, h₄⟩ := write_packet (c := { c.advanceMsgId with buffer := buffer₃ }) hlive.1
    (.unsubscribe c.advanceMsgId.nextMsgId (upToNul topic)) hheld₃
    (by rw [← hlen]; simp only [mqttMaxHeaderSize]; omega) now room
  refine ⟨buffer₄, ?_⟩
  have hheader : mqttUnsubscribe ||| mqttQos1 =
      (ControlPacket.unsubscribe c.advanceMsgId.nextMsgId (upToNul topic)).header := rfl
  simp only [unsubscribe, if_neg hcheck, connected_of_live hlive, if_true, hfit, hlive,
    not_true_eq_false, if_false, hbuffer, h₁, h₂, h₃, Option.bind_eq_bind, Option.bind_some, hlen,
    hheader, h₄]
  rfl

end PubSubClient
end EspNowGateway.Mqtt
