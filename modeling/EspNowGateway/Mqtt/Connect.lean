import EspNowGateway.Mqtt.Calls
import EspNowGateway.Mqtt.Input

/-! Opening a session. The CONNECT is built string by string, each behind a check of the room
left; it goes out as one packet or not at all, and the session is open exactly when the broker's
answer says so. -/
namespace EspNowGateway.Mqtt
open ByteLayout CArray HeapBlock

/-- The packet that the arguments of `connect` stand for. -/
def connectPacket (keepAlive : BitVec 16) (id : List Byte) (user pass : Option (List Byte))
    (will : Option WillArgs) (cleanSession : Bool) : Connect where
  id := upToNul id
  login := user.map fun u => ⟨upToNul u, pass.map upToNul⟩
  will := will.map fun w =>
    ⟨upToNul w.willTopic, upToNul w.willMessage, w.willQos.setWidth 2, w.willRetain⟩
  cleanSession := cleanSession
  keepAlive := keepAlive

/-- The texts of a packet, as they go out. -/
def prefixedTexts (ss : List (List Byte)) : List Byte := ss.flatMap fun s => lengthPrefixed (upToNul s)

theorem prefixedTexts_cons (s : List Byte) (ss : List (List Byte)) :
    prefixedTexts (s :: ss) = lengthPrefixed (upToNul s) ++ prefixedTexts ss := rfl

/-- The flags, added to those of the will. -/
private def addFlags (v : Byte) (clean user pass : Bool) : Byte :=
  let v := if clean then v ||| 0x02 else v
  if user then if pass then v ||| 0x80 ||| ((0x80 : Byte) >>> 1) else v ||| 0x80 else v

private theorem addFlags_will : ∀ (qos : BitVec 2) (retain clean user pass : Bool),
    addFlags ((0x04 : Byte) ||| (qos.setWidth 8 <<< 3) ||| (if retain then (1 : Byte) <<< 5 else 0))
      clean user pass = Connect.flagBits true qos retain clean user (user && pass) := by decide

private theorem addFlags_noWill : ∀ clean user pass : Bool,
    addFlags 0 clean user pass = Connect.flagBits false 0 false clean user (user && pass) := by decide

namespace PubSubClient
variable {bufferSize : BitVec 16}

/-- The flags byte is put together as the packet has it, for a will's level of two bits. -/
theorem connectFlags_eq (keepAlive : BitVec 16) (id : List Byte) (user pass : Option (List Byte))
    {will : Option WillArgs} (hqos : ∀ w ∈ will, w.willQos.toNat < 4) (cleanSession : Bool) :
    connectFlags user pass will cleanSession =
      (connectPacket keepAlive id user pass will cleanSession).flags := by
  cases will with
  | none =>
    have hflags := addFlags_noWill cleanSession user.isSome pass.isSome
    cases user with
    | none => exact hflags
    | some u =>
      cases pass with
      | none => exact hflags
      | some p => exact hflags
  | some w =>
    obtain ⟨topic, qos, retain, message⟩ := w
    have hlt : qos.toNat < 4 := hqos _ rfl
    have hbits : qos = (qos.setWidth 2).setWidth 8 := by
      apply BitVec.eq_of_toNat_eq
      simp only [BitVec.toNat_setWidth]
      omega
    have hflags := addFlags_will (qos.setWidth 2) retain cleanSession user.isSome pass.isSome
    rw [← hbits] at hflags
    cases user with
    | none => exact hflags
    | some u =>
      cases pass with
      | none => exact hflags
      | some p => exact hflags

theorem connectStrings_texts (keepAlive : BitVec 16) (id : List Byte) (user pass : Option (List Byte))
    (will : Option WillArgs) (cleanSession : Bool) :
    (connectStrings id user pass will).map upToNul =
      (connectPacket keepAlive id user pass will cleanSession).texts := by
  cases will <;> cases user <;> cases pass <;> rfl

/-- All of the texts go into the buffer, or the connection is closed over the first that does not
fit. -/
theorem writeStrings_spec (ss : List (List Byte)) {length : Nat} (hlength : length ≤ bufferSize.toNat)
    (c : PubSubClient bufferSize) :
    ∃ buffer', c.writeStrings ss length = some (
        if length + (prefixedTexts ss).length ≤ bufferSize.toNat then
          (some (length + (prefixedTexts ss).length), { c with buffer := buffer' })
        else (none, { c with buffer := buffer' }.stop)) ∧
      (length + (prefixedTexts ss).length ≤ bufferSize.toNat →
        Holds buffer' length (prefixedTexts ss)) ∧
      ∀ j (bs : List Byte), Holds c.buffer j bs → j + bs.length ≤ length → Holds buffer' j bs := by
  induction ss generalizing length c with
  | nil =>
    refine ⟨c.buffer, ?_, fun _ => Holds.nil _ _, fun _ _ h _ => h⟩
    have hnil : (prefixedTexts []).length = 0 := rfl
    rw [hnil, Nat.add_zero, if_pos hlength]
    rfl
  | cons s ss ih =>
    have hcons : (prefixedTexts (s :: ss)).length = 2 + (upToNul s).length + (prefixedTexts ss).length := by
      rw [prefixedTexts_cons, List.length_append, lengthPrefixed_length, Nat.add_comm 2]
    have hcheck := lt_add_strnlen_iff (by omega : 0 < length + 2) s bufferSize.toNat
    rw [writeStrings]
    by_cases hroom : length + 2 + (upToNul s).length ≤ bufferSize.toNat
    · obtain ⟨buffer₁, h₁, hheld₁, hframe₁⟩ := writeString_ok c.buffer hroom
      obtain ⟨buffer', hrest, hheld, hframe⟩ := ih hroom { c with buffer := buffer₁ }
      rw [if_neg fun h => hcheck.mp h hroom]
      simp only [h₁, Option.bind_eq_bind, Option.bind_some]
      have hsum : length + 2 + (upToNul s).length + (prefixedTexts ss).length =
          length + (prefixedTexts (s :: ss)).length := by
        rw [hcons]
        omega
      rw [hsum] at hrest hheld
      refine ⟨buffer', hrest, fun hfit => ?_, fun j bs hj hle => ?_⟩
      · rw [prefixedTexts_cons]
        refine holds_append_iff.mpr ⟨hframe _ _ hheld₁ ?_, (hheld hfit).move ?_⟩
        · rw [lengthPrefixed_length]
          omega
        · rw [lengthPrefixed_length]
          omega
      · exact hframe j bs (hframe₁ j bs hj (Or.inr hle)) (by omega)
    · refine ⟨c.buffer, ?_, fun hfit => ?_, fun _ _ h _ => h⟩
      · rw [if_pos (hcheck.mpr hroom), if_neg (by omega)]
      · omega

/-- The answer to the CONNECT opens the session or closes the connection. -/
theorem awaitConnack_spec (hsize : 7 ≤ bufferSize.toNat) (a : ConnectAnswers)
    (c : PubSubClient bufferSize) :
    ∃ accepted c', c.awaitConnack a = some (accepted, c') ∧ c'.written = c.written ∧
      c'.nextMsgId = c.nextMsgId ∧ c'.keepAlive = c.keepAlive ∧
      (accepted = true → c'.state = mqttConnected ∧ c'.up = c.up ∧ c'.unread <:+ c.unread ∧
        c'.lastInActivity = a.ackAt ∧ c'.lastOutActivity = c.lastOutActivity ∧
        c'.pingOutstanding = false) ∧
      (accepted = false → c'.up = false) := by
  rw [awaitConnack]
  split
  · obtain ⟨⟨len, llen, c₁⟩, hread⟩ := readPacket_inside hsize c
    obtain ⟨hall, hpos⟩ := readPacket_advanced hread
    simp only [hread, Option.bind_eq_bind, Option.bind_some]
    split
    · rename_i hfour
      obtain ⟨buffer', unread', hsuf, rfl⟩ := hpos (by omega)
      have hload : load buffer' 3 = some buffer'[3] := Vector.getElem?_eq_getElem (by omega)
      simp only [hload, Option.bind_some]
      split
      · exact ⟨_, _, rfl, rfl, rfl, rfl, fun _ => ⟨rfl, rfl, hsuf, rfl, rfl, rfl⟩,
          fun h => by cases h⟩
      · exact ⟨_, _, rfl, rfl, rfl, rfl, fun h => (by cases h), fun _ => rfl⟩
    · rcases hall with ⟨buffer', unread', hsuf, rfl⟩ | ⟨c₂, ⟨buffer', unread', hsuf, rfl⟩, rfl⟩
      · exact ⟨_, _, rfl, rfl, rfl, rfl, fun h => (by cases h), fun _ => rfl⟩
      · exact ⟨_, _, rfl, rfl, rfl, rfl, fun h => (by cases h), fun _ => rfl⟩
  · exact ⟨_, _, rfl, rfl, rfl, rfl, fun h => (by cases h), fun _ => rfl⟩

/-- A session has just been opened. -/
structure Opened (a : ConnectAnswers) (k : Connect) (c : PubSubClient bufferSize) : Prop where
  live : c.Live
  dialed : a.dialed = true
  fits : mqttMaxHeaderSize + k.body.length ≤ bufferSize.toNat
  written : c.written = (ControlPacket.connect k).encode.take a.room
  unread : c.unread <:+ a.incoming
  nextMsgId : c.nextMsgId = 1
  lastIn : c.lastInActivity = a.ackAt
  lastOut : c.lastOutActivity = a.sentAt
  noPing : c.pingOutstanding = false

private theorem connect_body (k : Connect) :
    k.body = [0x00, 0x04] ++ ascii "MQTT" ++ [4] ++ [k.flags, msb k.keepAlive, lsb k.keepAlive] ++
      k.texts.flatMap lengthPrefixed := by
  have hid : be16 k.keepAlive = [msb k.keepAlive, lsb k.keepAlive] := (msb_lsb _).symm
  rw [Connect.body, hid]
  rfl

theorem connected_down {c : PubSubClient bufferSize} (hdown : c.up = false) :
    c.connected = (false, c.connected.2) ∧ c.connected.2.up = false ∧
      c.connected.2.keepAlive = c.keepAlive := by
  rw [connected, if_neg (by rw [hdown]; exact Bool.false_ne_true)]
  split
  · exact ⟨rfl, rfl, rfl⟩
  · exact ⟨rfl, hdown, rfl⟩

/-- The body of the CONNECT, as far as it fits. -/
private theorem connect_strings (hsize : 15 ≤ bufferSize.toNat) (id : List Byte)
    (user pass : Option (List Byte)) {will : Option WillArgs}
    (hqos : ∀ w ∈ will, w.willQos.toNat < 4) (cleanSession : Bool) (c : PubSubClient bufferSize) :
    let k := connectPacket c.keepAlive id user pass will cleanSession
    ∃ buffer₁ buffer₂, storeAll ([0x00, 0x04] ++ ascii "MQTT" ++ [4] ++
        [connectFlags user pass will cleanSession, msb c.keepAlive, lsb c.keepAlive])
        mqttMaxHeaderSize c.buffer = some buffer₁ ∧
      writeStrings (connectStrings id user pass will) (mqttMaxHeaderSize + 10)
          { c with buffer := buffer₁ } = some (
        if mqttMaxHeaderSize + k.body.length ≤ bufferSize.toNat then
          (some (mqttMaxHeaderSize + k.body.length), { c with buffer := buffer₂ })
        else (none, { c with buffer := buffer₂ }.stop)) ∧
      (mqttMaxHeaderSize + k.body.length ≤ bufferSize.toNat →
        Holds buffer₂ mqttMaxHeaderSize k.body) := by
  intro k
  have hten : ([0x00, 0x04] ++ ascii "MQTT" ++ [4] ++
      [connectFlags user pass will cleanSession, msb c.keepAlive, lsb c.keepAlive]).length = 10 := rfl
  obtain ⟨buffer₁, h₁, hheld₁, -⟩ := storeAll_ok (i := mqttMaxHeaderSize) c.buffer
    (by rw [hten]; exact hsize)
  obtain ⟨buffer₂, h₂, hheld₂, hframe₂⟩ := writeStrings_spec (connectStrings id user pass will)
    hsize { c with buffer := buffer₁ }
  have htexts : prefixedTexts (connectStrings id user pass will) = k.texts.flatMap lengthPrefixed := by
    rw [← connectStrings_texts, List.flatMap_map]
    rfl
  have hbody : k.body = [0x00, 0x04] ++ ascii "MQTT" ++ [4] ++
      [connectFlags user pass will cleanSession, msb c.keepAlive, lsb c.keepAlive] ++
      prefixedTexts (connectStrings id user pass will) := by
    rw [connect_body, htexts, connectFlags_eq c.keepAlive id user pass hqos cleanSession]
    rfl
  have hlen : 15 + (prefixedTexts (connectStrings id user pass will)).length =
      mqttMaxHeaderSize + k.body.length := by
    rw [hbody, List.length_append, ← Nat.add_assoc]
    rfl
  rw [hlen] at h₂ hheld₂
  refine ⟨buffer₁, buffer₂, h₁, h₂, fun hfit => ?_⟩
  rw [hbody]
  exact holds_append_iff.mpr ⟨hframe₂ _ _ hheld₁ (Nat.le_refl 15), hheld₂ hfit⟩

/-- The client that waits for the answer to its CONNECT. -/
def greeted (a : ConnectAnswers) (k : Connect) (buffer : Vector Byte bufferSize.toNat)
    (c : PubSubClient bufferSize) : PubSubClient bufferSize :=
  { c with
    buffer := buffer, nextMsgId := 1, up := true, unread := a.incoming,
    written := (ControlPacket.connect k).encode.take a.room,
    lastInActivity := a.sentAt, lastOutActivity := a.sentAt }

/-- The CONNECT on a fresh connection goes out as one packet or not at all. -/
private theorem greet_eq (hsize : 15 ≤ bufferSize.toNat) (a : ConnectAnswers) (id : List Byte)
    (user pass : Option (List Byte)) {will : Option WillArgs}
    (hqos : ∀ w ∈ will, w.willQos.toNat < 4) (cleanSession : Bool) (c : PubSubClient bufferSize) :
    let k := connectPacket c.keepAlive id user pass will cleanSession
    ∃ buffer', { c with up := true, unread := a.incoming, written := [] }.greet a id user pass will
        cleanSession =
      if mqttMaxHeaderSize + k.body.length ≤ bufferSize.toNat then
        (c.greeted a k buffer').awaitConnack a
      else some (false, { c with written := [], nextMsgId := 1, buffer := buffer' }.stop) := by
  intro k
  obtain ⟨buffer₁, buffer₂, h₁, h₂, hheld⟩ := connect_strings hsize id user pass hqos cleanSession
    { c with up := true, unread := a.incoming, written := [], nextMsgId := 1 }
  change storeAll _ _ c.buffer = _ at h₁
  change writeStrings _ _ _ = some (if mqttMaxHeaderSize + k.body.length ≤ bufferSize.toNat then
    (some (mqttMaxHeaderSize + k.body.length), _) else _) at h₂
  rw [greet]
  simp only [h₁, h₂, Option.bind_eq_bind, Option.bind_some]
  by_cases hfit : mqttMaxHeaderSize + k.body.length ≤ bufferSize.toNat
  · obtain ⟨buffer₃, h₃⟩ := write_packet (c := { c with
        buffer := buffer₂, up := true, unread := a.incoming, written := [], nextMsgId := 1 }) rfl
      (.connect k) (hheld hfit) hfit a.sentAt a.room
    refine ⟨buffer₃, ?_⟩
    simp only [if_pos hfit, Nat.add_sub_cancel_left]
    change Option.bind (write a.sentAt a.room (ControlPacket.connect k).header
      (ControlPacket.connect k).body.length _) _ = _
    rw [h₃, Option.bind_some]
    rfl
  · refine ⟨buffer₂, ?_⟩
    simp only [if_neg hfit]
    rfl

/-- `connect` without a connection. -/
theorem connect_eq (hsize : 15 ≤ bufferSize.toNat) (a : ConnectAnswers) (id : List Byte)
    (user pass : Option (List Byte)) {will : Option WillArgs}
    (hqos : ∀ w ∈ will, w.willQos.toNat < 4) (cleanSession : Bool) {c : PubSubClient bufferSize}
    (hdown : c.up = false) :
    let k := connectPacket c.keepAlive id user pass will cleanSession
    ∃ buffer', c.connect a id user pass will cleanSession =
      if a.dialed = true then
        if mqttMaxHeaderSize + k.body.length ≤ bufferSize.toNat then
          (c.connected.2.greeted a k buffer').awaitConnack a
        else some (false,
          { c.connected.2 with written := [], nextMsgId := 1, buffer := buffer' }.stop)
      else some (false, { c.connected.2 with state := mqttConnectFailed }) := by
  intro k
  obtain ⟨hconn, hdown', hkeep⟩ := connected_down hdown
  have hnot : ¬ c.connected.2.up = true := by
    rw [hdown']
    exact Bool.false_ne_true
  obtain ⟨buffer', hgreet⟩ := greet_eq hsize a id user pass hqos cleanSession c.connected.2
  have hk : connectPacket c.connected.2.keepAlive id user pass will cleanSession = k := by
    rw [hkeep]
  rw [hk] at hgreet
  refine ⟨buffer', ?_⟩
  rw [connect, hconn]
  simp only [Bool.false_eq_true, if_false, if_neg hnot]
  rw [hgreet]

/-- Without a connection, `connect` opens a session with a whole CONNECT or ends without one. -/
theorem connect_spec (hsize : 15 ≤ bufferSize.toNat) (a : ConnectAnswers) (id : List Byte)
    (user pass : Option (List Byte)) {will : Option WillArgs}
    (hqos : ∀ w ∈ will, w.willQos.toNat < 4) (cleanSession : Bool) {c : PubSubClient bufferSize}
    (hdown : c.up = false) :
    ∃ accepted c', c.connect a id user pass will cleanSession = some (accepted, c') ∧
      c'.keepAlive = c.keepAlive ∧
      (accepted = true → Opened a (connectPacket c.keepAlive id user pass will cleanSession) c') ∧
      (accepted = false → c'.up = false) := by
  obtain ⟨-, hdown', hkeep⟩ := connected_down hdown
  obtain ⟨buffer', hconnect⟩ := connect_eq hsize a id user pass hqos cleanSession hdown
  rw [hconnect]
  split
  swap
  · exact ⟨_, _, rfl, hkeep, fun h => (by cases h), fun _ => hdown'⟩
  rename_i hdialed
  split
  · rename_i hfit
    obtain ⟨accepted, c', hawait, hwritten, hid, hkeep', hyes, hno⟩ := awaitConnack_spec (by omega) a
      (c.connected.2.greeted a (connectPacket c.keepAlive id user pass will cleanSession) buffer')
    refine ⟨accepted, c', hawait, hkeep'.trans hkeep, fun h => ?_, hno⟩
    obtain ⟨hstate, hup, hsuf, hin, hout, hping⟩ := hyes h
    exact ⟨⟨hup, hstate⟩, hdialed, hfit, hwritten, hsuf, hid, hin, hout, hping⟩
  · exact ⟨_, _, rfl, hkeep, fun h => (by cases h), fun _ => rfl⟩

/-- What `connect` leaves on the connection, whatever the broker answers. -/
theorem connect_written (hsize : 15 ≤ bufferSize.toNat) (a : ConnectAnswers) (id : List Byte)
    (user pass : Option (List Byte)) {will : Option WillArgs}
    (hqos : ∀ w ∈ will, w.willQos.toNat < 4) (cleanSession : Bool) {c c' : PubSubClient bufferSize}
    (hdown : c.up = false) {accepted : Bool}
    (hfit : mqttMaxHeaderSize +
      (connectPacket c.keepAlive id user pass will cleanSession).body.length ≤ bufferSize.toNat)
    (h : c.connect a id user pass will cleanSession = some (accepted, c')) :
    if a.dialed = true then
      c'.written = (ControlPacket.connect
        (connectPacket c.keepAlive id user pass will cleanSession)).encode.take a.room ∧
        c'.nextMsgId = 1
    else accepted = false ∧ c'.written = c.written ∧ c'.nextMsgId = c.nextMsgId := by
  obtain ⟨buffer', hconnect⟩ := connect_eq hsize a id user pass hqos cleanSession hdown
  rw [hconnect] at h
  by_cases hdialed : a.dialed = true
  · rw [if_pos hdialed]
    rw [if_pos hdialed, if_pos hfit] at h
    obtain ⟨accepted', c₁, hawait, hwritten, hid, -⟩ := awaitConnack_spec (by omega) a
      (c.connected.2.greeted a (connectPacket c.keepAlive id user pass will cleanSession) buffer')
    obtain ⟨rfl, rfl⟩ := Prod.mk.inj (Option.some.inj (hawait.symm.trans h))
    exact ⟨hwritten, hid⟩
  · rw [if_neg hdialed]
    rw [if_neg hdialed] at h
    obtain ⟨rfl, rfl⟩ := Prod.mk.inj (Option.some.inj h)
    exact ⟨rfl, connected_frame c⟩

/-- Any packet of four bytes with a zero in the end is taken for the broker's consent, and nothing
else is. -/
theorem awaitConnack_packet (hsize : 7 ≤ bufferSize.toNat) (a : ConnectAnswers) (p : StreamPacket)
    {c : PubSubClient bufferSize} {rest : List (Option Byte)}
    (hun : c.unread = p.bytes.map some ++ rest) :
    ∃ c', c.awaitConnack a = some (decide (p.bytes.length = 4 ∧ p.bytes[3]? = some 0), c') ∧
      (c'.up = true → c'.unread = rest) := by
  have havail : c.available = true := by
    rw [available, hun]
    rfl
  obtain ⟨buffer', hread, hheld, -⟩ := readPacket_whole p hsize hun
  rw [awaitConnack, if_pos havail, hread]
  simp only [Option.bind_eq_bind, Option.bind_some]
  by_cases hfour : p.bytes.length = 4
  · have hfit : p.bytes.length ≤ bufferSize.toNat := by omega
    rw [List.take_of_length_le hfit] at hheld
    have hlast := hheld 3 (by omega)
    rw [Nat.zero_add] at hlast
    have hload : load buffer' 3 = some p.bytes[3] := hlast
    have hget : p.bytes[3]? = some p.bytes[3] := List.getElem?_eq_getElem (by omega)
    rw [if_pos hfit, if_pos hfour]
    simp only [hload, Option.bind_some, hget, hfour, true_and, Option.some.injEq]
    split
    · rename_i hzero
      rw [decide_eq_true hzero]
      exact ⟨_, rfl, fun _ => rfl⟩
    · rename_i hzero
      rw [decide_eq_false hzero]
      exact ⟨_, rfl, fun hup => by cases hup⟩
  · have hlen : ¬ (if p.bytes.length ≤ bufferSize.toNat then p.bytes.length else 0) = 4 := by
      split
      · exact hfour
      · exact fun h => by cases h
    rw [if_neg hlen]
    simp only [hfour, false_and, decide_false]
    exact ⟨_, rfl, fun hup => by cases hup⟩

/-- The broker's consent is a whole packet of four bytes with a zero in the end; a broker that says
nothing, or stops in the middle of one, has not agreed. -/
theorem awaitConnack_accepted_iff (hsize : 7 ≤ bufferSize.toNat) (a : ConnectAnswers)
    (c : PubSubClient bufferSize) :
    (∃ c', c.awaitConnack a = some (true, c')) ↔
      ∃ (p : StreamPacket) (u : List (Option Byte)), c.unread = p.bytes.map some ++ u ∧
        p.bytes.length = 4 ∧ p.bytes[3]? = some 0 := by
  constructor
  · rintro ⟨c', h⟩
    suffices hfirst : ∃ (p : StreamPacket) (u : List (Option Byte)),
        c.unread = p.bytes.map some ++ u by
      obtain ⟨p, u, hun⟩ := hfirst
      obtain ⟨c₁, hpacket, -⟩ := awaitConnack_packet hsize a p hun
      obtain ⟨hagreed, -⟩ := Prod.mk.inj (Option.some.inj (hpacket.symm.trans h))
      exact ⟨p, u, hun, of_decide_eq_true hagreed⟩
    rw [awaitConnack] at h
    split at h
    · obtain ⟨⟨len, llen, c₁⟩, hread, h⟩ := Option.bind_eq_some_iff.mp h
      dsimp only at h
      split at h
      · rename_i hfour
        obtain ⟨p, hun, -⟩ := readPacket_sound hsize hread (by omega)
        exact ⟨p, c₁.unread, hun⟩
      · cases h
    · cases h
  · rintro ⟨p, u, hun, hconsent⟩
    obtain ⟨c₁, hpacket, -⟩ := awaitConnack_packet hsize a p hun
    rw [decide_eq_true hconsent] at hpacket
    exact ⟨c₁, hpacket⟩

/-- A CONNECT has ten bytes in front of its texts. -/
theorem connect_body_length (k : Connect) : 10 ≤ k.body.length := by
  rw [connect_body, List.length_append]
  exact Nat.le_add_right 10 _

/-- A buffer without room for the ten bytes opens no session. -/
private theorem connect_small (hsize : bufferSize.toNat < 15) (a : ConnectAnswers) (id : List Byte)
    (user pass : Option (List Byte)) (will : Option WillArgs) (cleanSession : Bool)
    {c : PubSubClient bufferSize} (hdown : c.up = false) :
    ¬ ∃ c', c.connect a id user pass will cleanSession = some (true, c') := by
  obtain ⟨hconn, hdown', -⟩ := connected_down hdown
  have hgreet (c₁ : PubSubClient bufferSize) : c₁.greet a id user pass will cleanSession = none := by
    have hnone : storeAll ([0x00, 0x04] ++ ascii "MQTT" ++ [4] ++
        [connectFlags user pass will cleanSession, msb c₁.keepAlive, lsb c₁.keepAlive])
        mqttMaxHeaderSize c₁.buffer = none := by
      refine Option.eq_none_iff_forall_ne_some.mpr fun buffer h => ?_
      rcases (storeAll_isSome_iff _ _ _).mp ⟨buffer, h⟩ with hnil | hfit
      · cases hnil
      · exact absurd hfit (Nat.not_le_of_lt hsize)
    rw [greet]
    simp only [hnone, Option.bind_eq_bind, Option.bind_none]
  rintro ⟨c', h⟩
  rw [connect, hconn] at h
  simp only [Bool.false_eq_true, if_false, hdown', hgreet] at h
  split at h
  · cases h
  · cases h

/-- The session is open exactly when there is a connection, all of the CONNECT fits and the stream
begins with the broker's consent. -/
theorem connect_accepted_iff {a : ConnectAnswers} (id : List Byte) (user pass : Option (List Byte))
    {will : Option WillArgs} (hqos : ∀ w ∈ will, w.willQos.toNat < 4) (cleanSession : Bool)
    {c : PubSubClient bufferSize} (hdown : c.up = false) :
    (∃ c', c.connect a id user pass will cleanSession = some (true, c')) ↔
      a.dialed = true ∧ mqttMaxHeaderSize +
        (connectPacket c.keepAlive id user pass will cleanSession).body.length ≤ bufferSize.toNat ∧
        ∃ (p : StreamPacket) (u : List (Option Byte)), a.incoming = p.bytes.map some ++ u ∧
          p.bytes.length = 4 ∧ p.bytes[3]? = some 0 := by
  have hten := connect_body_length (connectPacket c.keepAlive id user pass will cleanSession)
  rcases Nat.lt_or_ge bufferSize.toNat 15 with hsmall | hsize
  · refine iff_of_false (connect_small hsmall a id user pass will cleanSession hdown) fun h => ?_
    have hfit := h.2.1
    simp only [mqttMaxHeaderSize] at hfit
    omega
  obtain ⟨buffer', hconnect⟩ := connect_eq hsize a id user pass hqos cleanSession hdown
  rw [hconnect]
  split
  swap
  · rename_i hdialed
    simp [hdialed]
  rename_i hdialed
  split
  · rename_i hfit
    have hawait := awaitConnack_accepted_iff (by omega) a (c.connected.2.greeted a
      (connectPacket c.keepAlive id user pass will cleanSession) buffer')
    exact hawait.trans ⟨fun h => ⟨hdialed, hfit, h⟩, fun h => h.2.2⟩
  · rename_i hfit
    simp [hfit]

/-- An open session has come out of the wait for the answer. -/
private theorem connect_awaits (hsize : 15 ≤ bufferSize.toNat) {a : ConnectAnswers} {id : List Byte}
    {user pass : Option (List Byte)} {will : Option WillArgs}
    (hqos : ∀ w ∈ will, w.willQos.toNat < 4) {cleanSession : Bool} {c c' : PubSubClient bufferSize}
    (hdown : c.up = false) (h : c.connect a id user pass will cleanSession = some (true, c')) :
    c'.up = true ∧ ∃ buffer', (c.connected.2.greeted a
      (connectPacket c.keepAlive id user pass will cleanSession) buffer').awaitConnack a =
        some (true, c') := by
  obtain ⟨accepted, c'', hspec, -, hopen, -⟩ := connect_spec hsize a id user pass hqos cleanSession hdown
  obtain ⟨rfl, rfl⟩ := Prod.mk.inj (Option.some.inj (hspec.symm.trans h))
  have hopened := hopen rfl
  obtain ⟨buffer', hconnect⟩ := connect_eq hsize a id user pass hqos cleanSession hdown
  rw [hconnect, if_pos hopened.dialed, if_pos hopened.fits] at h
  exact ⟨hopened.live.1, buffer', h⟩

/-- What follows the broker's first packet is left to the session. -/
theorem connect_unread (hsize : 15 ≤ bufferSize.toNat) {a : ConnectAnswers} {id : List Byte}
    {user pass : Option (List Byte)} {will : Option WillArgs}
    (hqos : ∀ w ∈ will, w.willQos.toNat < 4) {cleanSession : Bool} {c c' : PubSubClient bufferSize}
    (hdown : c.up = false) (h : c.connect a id user pass will cleanSession = some (true, c'))
    (p : StreamPacket) {u : List (Option Byte)} (hincoming : a.incoming = p.bytes.map some ++ u) :
    c'.unread = u := by
  obtain ⟨hup, buffer', hawait⟩ := connect_awaits hsize hqos hdown h
  obtain ⟨c₁, hpacket, hunread⟩ := awaitConnack_packet (by omega) a p (c := c.connected.2.greeted a
    (connectPacket c.keepAlive id user pass will cleanSession) buffer') hincoming
  obtain ⟨-, rfl⟩ := Prod.mk.inj (Option.some.inj (hpacket.symm.trans hawait))
  exact hunread hup

/-- No session opens without an answer. -/
theorem connect_answered (hsize : 15 ≤ bufferSize.toNat) {a : ConnectAnswers} {id : List Byte}
    {user pass : Option (List Byte)} {will : Option WillArgs}
    (hqos : ∀ w ∈ will, w.willQos.toNat < 4) {cleanSession : Bool} {c c' : PubSubClient bufferSize}
    (hdown : c.up = false) (h : c.connect a id user pass will cleanSession = some (true, c')) :
    a.incoming ≠ [] := by
  intro hincoming
  obtain ⟨-, buffer', hawait⟩ := connect_awaits hsize hqos hdown h
  rw [awaitConnack, available, greeted, hincoming] at hawait
  cases hawait

/-- A client that has no connection. -/
def idle : PubSubClient bufferSize :=
  ⟨Vector.replicate _ 0, 15, 0, 0, 0, false, mqttDisconnected, false, [], []⟩

/-- A broker that agrees. -/
def consent : ConnectAnswers := ⟨true, [some 0x20, some 2, some 0, some 0], 64, 1000, 1005⟩

/-- The broker's agreement. -/
def connack : StreamPacket where
  header := 0x20
  digits := [2]
  body := [0, 0]
  numeral := StreamPacket.numeral_two
  short := StreamPacket.short_two
  whole := by decide

theorem connect_accepted_consent :
    ∃ c', (idle : PubSubClient 32).connect consent (ascii "g") none none none true = some (true, c') :=
  (connect_accepted_iff (ascii "g") none none (fun w hw => absurd hw (Option.not_mem_none w)) true
    rfl).mpr ⟨rfl, by decide, connack, [], rfl, rfl, rfl⟩

/-- The session that this broker opens. -/
def agreed : PubSubClient 32 :=
  ((idle.connect consent (ascii "g") none none none true).getD (false, idle)).2

theorem connect_agreed :
    idle.connect consent (ascii "g") none none none true = some (true, agreed) := rfl

end PubSubClient
end EspNowGateway.Mqtt
