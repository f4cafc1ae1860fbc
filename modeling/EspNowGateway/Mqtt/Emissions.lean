import EspNowGateway.Mqtt.Delivery
import EspNowGateway.Mqtt.Session

/-! What each call adds to the connection when the connection takes every write whole: a request
or a publication at the user's call, replies and pings in `loop`, whatever the broker sends. -/
namespace EspNowGateway.Mqtt
open ByteLayout CArray HeapBlock

namespace ControlPacket

def isConnect : ControlPacket → Bool
  | connect _ => true
  | _ => false

/-- The packets that the client sends without being asked by its user. -/
def isReply : ControlPacket → Bool
  | puback _ => true
  | pingreq => true
  | pingresp => true
  | _ => false

def posting : ControlPacket → Option Posting
  | publish retained topic payload => some ⟨retained, topic, payload⟩
  | _ => none

/-- The ids that requests go out with. -/
def requestId : ControlPacket → Option (BitVec 16)
  | subscribe id _ _ => some id
  | unsubscribe id _ => some id
  | _ => none

theorem posting_of_isReply {p : ControlPacket} (h : p.isReply = true) : p.posting = none := by
  cases p <;> (first | rfl | cases h)

theorem requestId_of_isReply {p : ControlPacket} (h : p.isReply = true) : p.requestId = none := by
  cases p <;> (first | rfl | cases h)

theorem isConnect_of_isReply {p : ControlPacket} (h : p.isReply = true) : p.isConnect = false := by
  cases p <;> (first | rfl | cases h)

theorem valid_of_isReply {p : ControlPacket} (h : p.isReply = true) : p.Valid := by
  cases p with
  | puback id => exact ⟨fun _ ht => (by cases ht), by change 2 < 2^28; decide⟩
  | pingreq => exact ⟨fun _ ht => (by cases ht), by decide⟩
  | pingresp => exact ⟨fun _ ht => (by cases ht), by decide⟩
  | _ => cases h

theorem encode_length_le {p : ControlPacket} {n : Nat} (hn : n < 2^16)
    (h : mqttMaxHeaderSize + p.body.length ≤ n) : p.encode.length ≤ n := by
  have hdigits : (Base128.encode 4 p.body.length).length ≤ 4 :=
    (Base128.encode_spec 3 p.body.length (by omega)).2.2
  simp only [mqttMaxHeaderSize] at h
  rw [encode, frame, List.length_cons, List.length_append]
  omega

end ControlPacket

namespace PubSubClient
variable {bufferSize : BitVec 16}

/-- An open connection belongs to an open session. -/
def Settled (c : PubSubClient bufferSize) : Prop := c.up = true → c.state = mqttConnected

theorem Live.settled {c : PubSubClient bufferSize} (h : c.Live) : c.Settled := fun _ => h.2

theorem Settled.live {c : PubSubClient bufferSize} (h : c.Settled) (hup : c.up = true) : c.Live :=
  ⟨hup, h hup⟩

/-- What a call adds to the connection, and what it does to the message ids. -/
structure Emits (c c' : PubSubClient bufferSize) (qs : List ControlPacket) : Prop where
  written : c'.written = c.written ++ ControlPacket.code.encodeAll qs
  valid : ∀ q ∈ qs, q.Valid
  fits : ∀ q ∈ qs, q.encode.length ≤ bufferSize.toNat
  later : ∀ q ∈ qs, q.isConnect = false
  ids : (qs.filterMap ControlPacket.requestId = [] ∧ c'.nextMsgId = c.nextMsgId) ∨
    (qs.filterMap ControlPacket.requestId = [c.advanceMsgId.nextMsgId] ∧
      c'.nextMsgId = c.advanceMsgId.nextMsgId)
  settled : c.Settled → c'.Settled

theorem Emits.nothing {c c' : PubSubClient bufferSize} (hwritten : c'.written = c.written)
    (hid : c'.nextMsgId = c.nextMsgId) (hsettled : c.Settled → c'.Settled) : Emits c c' [] where
  written := by
    rw [hwritten]
    exact (List.append_nil _).symm
  valid := fun _ h => by cases h
  fits := fun _ h => by cases h
  later := fun _ h => by cases h
  ids := Or.inl ⟨rfl, hid⟩
  settled := hsettled

theorem emits_connected (c : PubSubClient bufferSize) : Emits c c.connected.2 [] := by
  rw [connected]
  split
  · exact .nothing rfl rfl id
  · split
    · exact .nothing rfl rfl fun _ h => by cases h
    · exact .nothing rfl rfl id

/-- One whole packet. -/
theorem emits_one {c c' : PubSubClient bufferSize} {p : ControlPacket}
    (hwritten : c'.written = c.written ++ p.encode) (hvalid : p.Valid)
    (hfits : p.encode.length ≤ bufferSize.toNat) (hlater : p.isConnect = false)
    (hsettled : c.Settled → c'.Settled)
    (hids : (p.requestId = none ∧ c'.nextMsgId = c.nextMsgId) ∨
      (p.requestId = some c.advanceMsgId.nextMsgId ∧ c'.nextMsgId = c.advanceMsgId.nextMsgId)) :
    Emits c c' [p] where
  written := by
    rw [hwritten]
    congr 1
    exact (List.append_nil _).symm
  valid := by simpa using hvalid
  fits := by simpa using hfits
  later := by simpa using hlater
  ids := by
    rcases hids with ⟨hnone, hsame⟩ | ⟨hsome, hnext⟩
    · exact Or.inl ⟨by simp [hnone], hsame⟩
    · exact Or.inr ⟨by simp [hsome], hnext⟩
  settled := hsettled

/-- Two calls one after the other, the second of which makes no request. -/
theorem Emits.append {c c₁ c₂ : PubSubClient bufferSize} {qs qs' : List ControlPacket}
    (h : Emits c c₁ qs) (h' : Emits c₁ c₂ qs') (hreply : ∀ q ∈ qs', q.isReply = true)
    (hid : c₂.nextMsgId = c₁.nextMsgId) : Emits c c₂ (qs ++ qs') where
  written := by
    rw [h'.written, h.written, List.append_assoc]
    congr 1
    exact List.flatMap_append.symm
  valid := by
    intro q hq
    rcases List.mem_append.mp hq with hq | hq
    · exact h.valid q hq
    · exact h'.valid q hq
  fits := by
    intro q hq
    rcases List.mem_append.mp hq with hq | hq
    · exact h.fits q hq
    · exact h'.fits q hq
  later := by
    intro q hq
    rcases List.mem_append.mp hq with hq | hq
    · exact h.later q hq
    · exact h'.later q hq
  ids := by
    have hnone : qs'.filterMap ControlPacket.requestId = [] :=
      List.filterMap_eq_nil_iff.mpr fun q hq => ControlPacket.requestId_of_isReply (hreply q hq)
    rw [List.filterMap_append, hnone, List.append_nil, hid]
    exact h.ids
  settled := h'.settled ∘ h.settled

/-- A confirmed publication is in the buffer, so its length was checked without a wrap. -/
theorem publish_length {c c' : PubSubClient bufferSize} {now : BitVec 32} {room : Nat}
    {topic payload : List Byte} {retained r : Bool}
    (h : c.publish now room topic payload retained = some (r, c')) :
    payload.length < 2^32 - 2^17 ∨ (r, c') = (false, c.connected.2) := by
  have hsize := bufferSize.isLt
  by_contra hnot
  obtain ⟨hlong, hother⟩ := not_or.mp hnot
  rw [publish] at h
  dsimp only at h
  split at h
  · split at h
    · exact hother (Option.some.inj h).symm
    · obtain ⟨⟨length, buffer⟩, -, h⟩ := Option.bind_eq_some_iff.mp h
      obtain ⟨buffer', hstore, -⟩ := Option.bind_eq_some_iff.mp h
      rcases (storeAll_isSome_iff _ _ _).mp ⟨buffer', hstore⟩ with hnil | hle
      · rw [hnil] at hlong
        exact hlong (by decide)
      · omega
  · exact hother (Option.some.inj h).symm

/-- What a packet that fits adds. -/
theorem after_written {p : ControlPacket} (hfit : mqttMaxHeaderSize + p.body.length ≤ bufferSize.toNat)
    {room : Nat} (hroom : bufferSize.toNat ≤ room) (now : BitVec 32)
    (buffer : Vector Byte bufferSize.toNat) (c : PubSubClient bufferSize) :
    p.encode.length ≤ bufferSize.toNat ∧
      c.sent p now room buffer = (true, c.after p now room buffer) ∧
      (c.after p now room buffer).written = c.written ++ p.encode := by
  have hfits := ControlPacket.encode_length_le bufferSize.isLt hfit
  have hle := hfits.trans hroom
  refine ⟨hfits, ?_, ?_⟩
  · rw [sent, decide_eq_true hle]
  · change c.written ++ p.encode.take room = _
    rw [List.take_of_length_le hle]

theorem publish_emits {c c' : PubSubClient bufferSize} {now : BitVec 32} {room : Nat}
    {topic payload : List Byte} {retained r : Bool}
    (h : c.publish now room topic payload retained = some (r, c'))
    (hroom : bufferSize.toNat ≤ room) :
    ∃ qs, Emits c c' qs ∧ qs.filterMap ControlPacket.posting =
      if r then [⟨retained, upToNul topic, payload⟩] else [] := by
  have hsize := bufferSize.isLt
  rcases publish_length h with hpayload | hnothing
  · obtain ⟨buffer', hspec⟩ := publish_spec c now room topic hpayload retained
    rw [hspec] at h
    split at h
    · rename_i hgo
      obtain ⟨hlive, hfit⟩ := hgo
      have hbody : mqttMaxHeaderSize +
          (ControlPacket.publish retained (upToNul topic) payload).body.length ≤ bufferSize.toNat := by
        simp only [ControlPacket.body, List.length_append, lengthPrefixed_length]
        omega
      obtain ⟨hfits, hsent, hwritten⟩ := after_written hbody hroom now buffer' c
      obtain ⟨rfl, rfl⟩ := Prod.mk.inj (Option.some.inj (h.symm.trans (congrArg some hsent)))
      refine ⟨[.publish retained (upToNul topic) payload], emits_one hwritten ⟨?_, ?_⟩ hfits
        rfl id (Or.inl ⟨rfl, rfl⟩), rfl⟩
      · intro t ht
        obtain rfl := List.mem_singleton.mp ht
        omega
      · exact (Nat.le_add_left _ _).trans_lt (hbody.trans_lt (hsize.trans (by decide)))
    · obtain ⟨rfl, rfl⟩ := Prod.mk.inj (Option.some.inj h)
      exact ⟨[], emits_connected c, rfl⟩
  · obtain ⟨rfl, rfl⟩ := Prod.mk.inj hnothing
    exact ⟨[], emits_connected c, rfl⟩

/-- A request that fits. -/
private theorem request_emits {c c' : PubSubClient bufferSize} {p : ControlPacket} {now : BitVec 32}
    {room : Nat} {r : Bool} {buffer : Vector Byte bufferSize.toNat}
    (h : c.advanceMsgId.sent p now room buffer = (r, c'))
    (hfit : mqttMaxHeaderSize + p.body.length ≤ bufferSize.toNat) (hroom : bufferSize.toNat ≤ room)
    (htexts : ∀ t ∈ p.texts, t.length < 2^16)
    (hid : p.requestId = some c.advanceMsgId.nextMsgId) (hlater : p.isConnect = false)
    (hposting : p.posting = none) :
    ∃ qs, Emits c c' qs ∧ qs.filterMap ControlPacket.posting = [] := by
  obtain ⟨hfits, hsent, hwritten⟩ := after_written hfit hroom now buffer c.advanceMsgId
  obtain ⟨rfl, rfl⟩ := Prod.mk.inj (h.symm.trans hsent)
  refine ⟨[p], emits_one hwritten ⟨htexts, ?_⟩ hfits hlater id (Or.inr ⟨hid, rfl⟩), ?_⟩
  · exact (Nat.le_add_left _ _).trans_lt (hfit.trans_lt (bufferSize.isLt.trans (by decide)))
  · simp [hposting]

theorem subscribe_emits {c c' : PubSubClient bufferSize} {now : BitVec 32} {room : Nat}
    {topic : List Byte} {qos : Byte} {r : Bool}
    (h : c.subscribe now room topic qos = some (r, c')) (hroom : bufferSize.toNat ≤ room) :
    ∃ qs, Emits c c' qs ∧ qs.filterMap ControlPacket.posting = [] := by
  have hsize := bufferSize.isLt
  obtain ⟨buffer', hspec⟩ := subscribe_spec c now room topic qos
  rw [hspec] at h
  split at h
  · obtain ⟨rfl, rfl⟩ := Prod.mk.inj (Option.some.inj h)
    exact ⟨[], .nothing rfl rfl id, rfl⟩
  · rename_i hcheck
    obtain ⟨-, hle⟩ := not_or.mp hcheck
    split at h
    · obtain ⟨rfl, rfl⟩ := Prod.mk.inj (Option.some.inj h)
      exact ⟨[], emits_connected c, rfl⟩
    · split at h
      · cases h
      · refine request_emits (Option.some.inj h) ?_ hroom ?_ rfl rfl rfl
        · simp only [ControlPacket.body, List.length_append, lengthPrefixed_length, be16_length,
            List.length_singleton, mqttMaxHeaderSize]
          omega
        · intro t ht
          obtain rfl := List.mem_singleton.mp ht
          omega

theorem unsubscribe_emits {c c' : PubSubClient bufferSize} {now : BitVec 32} {room : Nat}
    {topic : List Byte} {r : Bool} (h : c.unsubscribe now room topic = some (r, c'))
    (hroom : bufferSize.toNat ≤ room) :
    ∃ qs, Emits c c' qs ∧ qs.filterMap ControlPacket.posting = [] := by
  have hsize := bufferSize.isLt
  obtain ⟨buffer', hspec⟩ := unsubscribe_spec c now room topic
  rw [hspec] at h
  split at h
  · obtain ⟨rfl, rfl⟩ := Prod.mk.inj (Option.some.inj h)
    exact ⟨[], .nothing rfl rfl id, rfl⟩
  · split at h
    · obtain ⟨rfl, rfl⟩ := Prod.mk.inj (Option.some.inj h)
      exact ⟨[], emits_connected c, rfl⟩
    · refine request_emits (Option.some.inj h) ?_ hroom ?_ rfl rfl rfl
      · simp only [ControlPacket.body, List.length_append, lengthPrefixed_length, be16_length,
          mqttMaxHeaderSize]
        omega
      · intro t ht
        obtain rfl := List.mem_singleton.mp ht
        omega

/-- A short packet, as far as the connection is open. -/
theorem writeShort_some {c c' : PubSubClient bufferSize} {header : Byte} {room : Nat}
    (h : c.writeShort room header = some c') (hroom : bufferSize.toNat ≤ room) :
    2 ≤ bufferSize.toNat ∧ ∃ buffer', c' = { c with
      buffer := buffer', written := c.written ++ if c.up then [header, 0] else [] } := by
  obtain ⟨buffer₁, h₁, h⟩ := Option.bind_eq_some_iff.mp h
  obtain ⟨buffer₂, h₂, h⟩ := Option.bind_eq_some_iff.mp h
  have hsize : 1 < bufferSize.toNat := (store_isSome_iff _ _ _).mp ⟨buffer₂, h₂⟩
  have hheld : Holds buffer₂ 0 [header, 0] :=
    holds_append_iff (s := [header]).mpr
      ⟨store_frame h₂ (store_holds h₁) (by simp), store_holds h₂⟩
  have hslice : slice buffer₂ 0 2 = some [header, 0] := hheld.slice hsize
  simp only [hslice, Option.bind_eq_bind, Option.bind_some, clientWrite] at h
  refine ⟨hsize, buffer₂, ?_⟩
  rw [← Option.some.inj h]
  split
  · rw [List.take_of_length_le (hsize.trans_le hroom)]
  · rw [List.append_nil]

theorem disconnect_emits {c c' : PubSubClient bufferSize} {now : BitVec 32} {room : Nat}
    (h : c.disconnect now room = some c') (hroom : bufferSize.toNat ≤ room) :
    ∃ qs, Emits c c' qs ∧ qs.filterMap ControlPacket.posting = [] := by
  obtain ⟨c₁, hshort, h⟩ := Option.bind_eq_some_iff.mp h
  obtain ⟨hsize, buffer', rfl⟩ := writeShort_some hshort hroom
  obtain rfl := Option.some.inj h
  by_cases hup : c.up = true
  · refine ⟨[.disconnect], emits_one ?_ ⟨fun _ ht => (by cases ht), by decide⟩ hsize rfl
      (fun _ hopen => by cases hopen) (Or.inl ⟨rfl, rfl⟩), rfl⟩
    simp only [stop, hup, if_true]
    rfl
  · refine ⟨[], .nothing ?_ rfl fun _ hopen => (by cases hopen), rfl⟩
    simp only [stop, hup, if_false, Bool.false_eq_true, List.append_nil]

/-- What the client does of its own: it answers and asks for answers. -/
structure Answers (c c' : PubSubClient bufferSize) (qs : List ControlPacket) : Prop where
  emits : Emits c c' qs
  reply : ∀ q ∈ qs, q.isReply = true
  nextMsgId : c'.nextMsgId = c.nextMsgId

theorem Answers.append {c c₁ c₂ : PubSubClient bufferSize} {qs qs' : List ControlPacket}
    (h : Answers c c₁ qs) (h' : Answers c₁ c₂ qs') : Answers c c₂ (qs ++ qs') where
  emits := h.emits.append h'.emits h'.reply h'.nextMsgId
  reply := by
    intro q hq
    rcases List.mem_append.mp hq with hq | hq
    · exact h.reply q hq
    · exact h'.reply q hq
  nextMsgId := h'.nextMsgId.trans h.nextMsgId

theorem Answers.nothing {c c' : PubSubClient bufferSize} (hwritten : c'.written = c.written)
    (hid : c'.nextMsgId = c.nextMsgId) (hsettled : c.Settled → c'.Settled) : Answers c c' [] :=
  ⟨.nothing hwritten hid hsettled, fun _ h => (by cases h), hid⟩

theorem answers_one {c c' : PubSubClient bufferSize} {p : ControlPacket} (hreply : p.isReply = true)
    (hfits : p.encode.length ≤ bufferSize.toNat) (hwritten : c'.written = c.written ++ p.encode)
    (hid : c'.nextMsgId = c.nextMsgId) (hsettled : c.Settled → c'.Settled) : Answers c c' [p] where
  emits := emits_one hwritten (ControlPacket.valid_of_isReply hreply) hfits
    (ControlPacket.isConnect_of_isReply hreply) hsettled
    (Or.inl ⟨ControlPacket.requestId_of_isReply hreply, hid⟩)
  reply := by simpa using hreply
  nextMsgId := hid

theorem answers_advanced {c c' : PubSubClient bufferSize} (h : AdvancedOrClosed c c') :
    Answers c c' [] := by
  rcases h with ⟨buffer', unread', -, rfl⟩ | ⟨c₁, ⟨buffer', unread', -, rfl⟩, rfl⟩
  · exact .nothing rfl rfl id
  · exact .nothing rfl rfl fun _ hopen => by cases hopen

theorem checkKeepAlive_answers {c c' : PubSubClient bufferSize} {t : BitVec 32} {room : Nat}
    {alive : Bool} (h : c.checkKeepAlive t room = some (alive, c')) (hup : c.up = true)
    (hroom : bufferSize.toNat ≤ room) : (∃ qs, Answers c c' qs) ∧ (alive = true → c'.up = true) := by
  rw [checkKeepAlive] at h
  split at h
  · split at h
    · obtain ⟨rfl, rfl⟩ := Prod.mk.inj (Option.some.inj h)
      exact ⟨⟨[], .nothing rfl rfl fun _ hopen => by cases hopen⟩, fun halive => by cases halive⟩
    · obtain ⟨c₁, hshort, hmk⟩ := Option.map_eq_some_iff.mp h
      obtain ⟨hsize, buffer', rfl⟩ := writeShort_some hshort hroom
      obtain ⟨rfl, rfl⟩ := Prod.mk.inj hmk
      refine ⟨⟨[.pingreq], answers_one rfl hsize ?_ rfl id⟩, fun _ => hup⟩
      simp only [hup, if_true]
      rfl
  · obtain ⟨rfl, rfl⟩ := Prod.mk.inj (Option.some.inj h)
    exact ⟨⟨[], .nothing rfl rfl id⟩, fun _ => hup⟩

/-- Handling a publication changes the buffer, and acknowledges what is to be acknowledged. -/
theorem handlePublish_cases {c c' : PubSubClient bufferSize} {t : BitVec 32} {room len llen : Nat}
    {ms : List Message} (h : c.handlePublish t room len llen = some (ms, c')) (hup : c.up = true)
    (hroom : bufferSize.toNat ≤ room) :
    (∃ buffer', c' = { c with buffer := buffer' }) ∨ ∃ buffer' msgId, 4 ≤ bufferSize.toNat ∧
      c' = { c with
        buffer := buffer', written := c.written ++ (ControlPacket.puback msgId).encode,
        lastOutActivity := t } := by
  obtain ⟨hi, -, h⟩ := Option.bind_eq_some_iff.mp h
  obtain ⟨lo, -, h⟩ := Option.bind_eq_some_iff.mp h
  obtain ⟨topic, -, h⟩ := Option.bind_eq_some_iff.mp h
  obtain ⟨buffer₁, -, h⟩ := Option.bind_eq_some_iff.mp h
  obtain ⟨buffer₂, -, h⟩ := Option.bind_eq_some_iff.mp h
  obtain ⟨header, -, h⟩ := Option.bind_eq_some_iff.mp h
  split at h
  · obtain ⟨idHi, -, h⟩ := Option.bind_eq_some_iff.mp h
    obtain ⟨idLo, -, h⟩ := Option.bind_eq_some_iff.mp h
    generalize BitVec.ofNat 16 (idHi.toNat * 256 + idLo.toNat) = msgId at h
    obtain ⟨buffer₃, h₃, h⟩ := Option.bind_eq_some_iff.mp h
    obtain ⟨buffer₄, h₄, h⟩ := Option.bind_eq_some_iff.mp h
    obtain ⟨buffer₅, h₅, h⟩ := Option.bind_eq_some_iff.mp h
    obtain ⟨buffer₆, h₆, h⟩ := Option.bind_eq_some_iff.mp h
    obtain ⟨bytes, hslice, h⟩ := Option.bind_eq_some_iff.mp h
    have hsize : 3 < bufferSize.toNat := (store_isSome_iff _ _ _).mp ⟨buffer₆, h₆⟩
    obtain ⟨_, _, _, _, h₃', h₄', h₅', h₆', hout⟩ := puback_ok msgId buffer₂ hsize
    obtain rfl := Option.some.inj (h₃.symm.trans h₃')
    obtain rfl := Option.some.inj (h₄.symm.trans h₄')
    obtain rfl := Option.some.inj (h₅.symm.trans h₅')
    obtain rfl := Option.some.inj (h₆.symm.trans h₆')
    obtain rfl := Option.some.inj (hslice.symm.trans hout)
    rw [clientWrite_up (c := { c with buffer := buffer₆ }) hup] at h
    have hwhole : (ControlPacket.puback msgId).encode.length ≤ room := by
      change 4 ≤ room
      omega
    rw [List.take_of_length_le hwhole] at h
    obtain ⟨-, rfl⟩ := Prod.mk.inj (Option.some.inj h)
    exact Or.inr ⟨buffer₆, msgId, hsize, rfl⟩
  · obtain ⟨-, rfl⟩ := Prod.mk.inj (Option.some.inj h)
    exact Or.inl ⟨buffer₂, rfl⟩

theorem handlePacket_answers {c c' : PubSubClient bufferSize} {t : BitVec 32} {room len llen : Nat}
    {ms : List Message} (h : c.handlePacket t room len llen = some (ms, c')) (hup : c.up = true)
    (hroom : bufferSize.toNat ≤ room) : ∃ qs, Answers c c' qs := by
  obtain ⟨header, -, h⟩ := Option.bind_eq_some_iff.mp h
  dsimp only at h
  split at h
  · rcases handlePublish_cases h hup hroom with ⟨buffer', rfl⟩ | ⟨buffer', msgId, hsize, rfl⟩
    · exact ⟨[], .nothing rfl rfl id⟩
    · exact ⟨[.puback msgId], answers_one rfl hsize rfl rfl id⟩
  · split at h
    · obtain ⟨c₁, hshort, hmk⟩ := Option.map_eq_some_iff.mp h
      obtain ⟨hsize, buffer', rfl⟩ := writeShort_some hshort hroom
      obtain ⟨-, rfl⟩ := Prod.mk.inj hmk
      refine ⟨[.pingresp], answers_one rfl hsize ?_ rfl id⟩
      simp only [hup, if_true]
      rfl
    · split at h
      · obtain ⟨-, rfl⟩ := Prod.mk.inj (Option.some.inj h)
        exact ⟨[], .nothing rfl rfl id⟩
      · obtain ⟨-, rfl⟩ := Prod.mk.inj (Option.some.inj h)
        exact ⟨[], .nothing rfl rfl id⟩

theorem receive_answers {c c' : PubSubClient bufferSize} {t : BitVec 32} {room : Nat} {r : Bool}
    {ms : List Message} (h : c.receive t room = some (r, ms, c')) (hup : c.up = true)
    (hroom : bufferSize.toNat ≤ room) : ∃ qs, Answers c c' qs := by
  rw [receive] at h
  split at h
  · obtain ⟨⟨len, llen, c₁⟩, hread, h⟩ := Option.bind_eq_some_iff.mp h
    obtain ⟨hall, hpos⟩ := readPacket_advanced hread
    dsimp only at h
    split at h
    · rename_i hlen
      obtain ⟨⟨ms', c₂⟩, hhandle, h⟩ := Option.bind_eq_some_iff.mp h
      obtain ⟨-, hrest⟩ := Prod.mk.inj (Option.some.inj h)
      obtain ⟨-, rfl⟩ := Prod.mk.inj hrest
      obtain ⟨buffer', unread', -, rfl⟩ := hpos hlen
      obtain ⟨qs, hqs⟩ := handlePacket_answers hhandle hup hroom
      have hfirst : Answers c
          { c with buffer := buffer', unread := unread', lastInActivity := t } [] :=
        .nothing rfl rfl id
      exact ⟨_, hfirst.append hqs⟩
    · obtain ⟨-, hrest⟩ := Prod.mk.inj (Option.some.inj h)
      obtain ⟨-, rfl⟩ := Prod.mk.inj hrest
      have hsecond : Answers c₁ c₁.connected.2 [] :=
        ⟨emits_connected c₁, fun _ hq => (by cases hq), (connected_frame c₁).2⟩
      exact ⟨_, (answers_advanced hall).append hsecond⟩
  · obtain ⟨-, hrest⟩ := Prod.mk.inj (Option.some.inj h)
    obtain ⟨-, rfl⟩ := Prod.mk.inj hrest
    exact ⟨[], .nothing rfl rfl id⟩

/-- Whatever the broker sends, a call of `loop` adds replies and pings only. -/
theorem loop_answers {c c' : PubSubClient bufferSize} {t : BitVec 32} {room : Nat} {r : Bool}
    {ms : List Message} (h : c.loop t room = some (r, ms, c')) (hroom : bufferSize.toNat ≤ room) :
    ∃ qs, Answers c c' qs := by
  by_cases hlive : c.Live
  · simp only [loop, connected_of_live hlive, if_true] at h
    obtain ⟨⟨alive, c₁⟩, hcheck, h⟩ := Option.bind_eq_some_iff.mp h
    obtain ⟨⟨qs, hqs⟩, halive⟩ := checkKeepAlive_answers hcheck hlive.1 hroom
    dsimp only at h
    split at h
    · rename_i hgo
      obtain ⟨qs', hqs'⟩ := receive_answers h (halive hgo) hroom
      exact ⟨_, hqs.append hqs'⟩
    · obtain ⟨-, hrest⟩ := Prod.mk.inj (Option.some.inj h)
      obtain ⟨-, rfl⟩ := Prod.mk.inj hrest
      exact ⟨qs, hqs⟩
  · rw [loop_not_live hlive] at h
    obtain ⟨-, hrest⟩ := Prod.mk.inj (Option.some.inj h)
    obtain ⟨-, rfl⟩ := Prod.mk.inj hrest
    exact ⟨[], emits_connected c, fun _ hq => (by cases hq), (connected_frame c).2⟩

end PubSubClient

end EspNowGateway.Mqtt
