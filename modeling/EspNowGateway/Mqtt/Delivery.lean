import EspNowGateway.Mqtt.Calls
import EspNowGateway.Mqtt.Input

/-! From the stream to the callback. Each call of `loop` takes one packet; a publication reaches
the callback with its own topic and payload, in the order of the stream and once, and a packet
too long for the buffer is left out without harm to the next one. -/
namespace EspNowGateway.Mqtt
open ByteLayout CArray HeapBlock

/-- What a publication says; at the middle level it has an id that is acknowledged. -/
structure Publication where
  topic : List Byte
  id : Option (BitVec 16)
  payload : List Byte
  deriving DecidableEq, Repr

/-- The publication with the given first byte and body, if its lengths agree. -/
def publication (header : Byte) (body : List Byte) : Option Publication := do
  let (topic, bs) ← takeText body
  if header &&& 0x06 = mqttQos1 then do
    let (id, bs) ← takeId bs
    some ⟨topic, some id, bs⟩
  else some ⟨topic, none, bs⟩

/-- What the callback is told about a publication. -/
def Publication.message (pub : Publication) : Message := ⟨upToNul pub.topic, some pub.payload⟩

namespace StreamPacket

/-- The lengths in a publication agree. -/
def Sound (p : StreamPacket) : Prop :=
  p.header &&& 0xF0 = mqttPublish → (publication p.header p.body).isSome

/-- The messages of a packet for a client with a buffer of `n` bytes. -/
def messages (n : Nat) (p : StreamPacket) : List Message :=
  if p.bytes.length ≤ n ∧ p.header &&& 0xF0 = mqttPublish then
    (publication p.header p.body).toList.map Publication.message
  else []

end StreamPacket

theorem payloadAt_eq {n : Nat} {buf : Vector Byte n} {pos : Nat} {payload : List Byte}
    (h : Holds buf pos payload) (hfit : pos + payload.length ≤ n) (hn : n < 2^32) {length : Int}
    (hlength : length = payload.length) : payloadAt buf pos length = some payload := by
  have hnat : (BitVec.ofInt 32 length).toNat = payload.length := by
    rw [hlength, BitVec.ofInt_natCast, BitVec.toNat_ofNat, Nat.mod_eq_of_lt (by omega)]
  rw [payloadAt, hnat]
  exact h.slice hfit

theorem takeText_eq_some {body topic bs : List Byte} (h : takeText body = some (topic, bs)) :
    ∃ hi lo, body = hi :: lo :: (topic ++ bs) ∧ topic.length = hi.toNat * 256 + lo.toNat := by
  match body, h with
  | hi :: lo :: more, h =>
    rw [takeText] at h
    split at h
    · rename_i hle
      obtain ⟨rfl, rfl⟩ := Prod.mk.inj (Option.some.inj h)
      refine ⟨hi, lo, ?_, ?_⟩
      · rw [List.take_append_drop]
      · rw [List.length_take, Nat.min_eq_left hle]
        rfl
    · cases h
  | [_], h => cases h
  | [], h => cases h

theorem takeId_eq_some {bs rest : List Byte} {id : BitVec 16} (h : takeId bs = some (id, rest)) :
    ∃ hi lo, bs = hi :: lo :: rest ∧ id = BitVec.ofNat 16 (hi.toNat * 256 + lo.toNat) := by
  match bs, h with
  | hi :: lo :: more, h =>
    obtain ⟨rfl, rfl⟩ := Prod.mk.inj (Option.some.inj h)
    exact ⟨hi, lo, rfl, rfl⟩
  | [_], h => cases h
  | [], h => cases h

namespace PubSubClient
variable {bufferSize : BitVec 16}

/-- The client after a publication: acknowledged if it has an id. -/
def acknowledged (id : Option (BitVec 16)) (t : BitVec 32) (room : Nat)
    (buffer : Vector Byte bufferSize.toNat) (c : PubSubClient bufferSize) : PubSubClient bufferSize :=
  match id with
  | none => { c with buffer := buffer }
  | some id => c.after (.puback id) t room buffer

/-- Where the parts of a publication lie in the buffer. -/
theorem publish_places {p : StreamPacket} {hi lo : Byte} {topic bs : List Byte}
    (hbody : p.body = hi :: lo :: (topic ++ bs)) {buffer : Vector Byte bufferSize.toNat}
    (hheld : Holds buffer 0 p.bytes) :
    Holds buffer 0 [p.header] ∧ Holds buffer (p.digits.length + 1) [hi] ∧
      Holds buffer (p.digits.length + 2) [lo] ∧ Holds buffer (p.digits.length + 3) topic ∧
      Holds buffer (p.digits.length + 3 + topic.length) bs := by
  rw [StreamPacket.bytes, hbody] at hheld
  obtain ⟨hheader, hdigits⟩ := holds_append_iff (s := [p.header]).mp hheld
  obtain ⟨-, hlength⟩ := holds_append_iff.mp hdigits
  obtain ⟨hhi, hlow⟩ := holds_append_iff (s := [hi]).mp hlength
  obtain ⟨hlo, hrest⟩ := holds_append_iff (s := [lo]).mp hlow
  obtain ⟨htopic, hbs⟩ := holds_append_iff.mp hrest
  simp only [List.length_singleton, Nat.zero_add] at hhi hlo htopic hbs
  exact ⟨hheader, hhi.move (by omega), hlo.move (by omega), htopic.move (by omega),
    hbs.move (by omega)⟩

/-- A topic moves forward by one byte, to `i`, and its end is written before what follows it. -/
theorem moveTopic_ok (topic : List Byte) {i : Nat} (buffer : Vector Byte bufferSize.toNat)
    (hfit : i + topic.length < bufferSize.toNat) :
    ∃ buffer₁ buffer₂, storeAll topic i buffer = some buffer₁ ∧
      store buffer₁ (i + topic.length) 0 = some buffer₂ ∧
      ∀ j (bs : List Byte), Holds buffer j bs →
        i + topic.length < j ∨ j + bs.length ≤ i → Holds buffer₂ j bs := by
  obtain ⟨buffer₁, h₁, -, hframe₁⟩ := storeAll_ok (s := topic) (i := i) buffer (by omega)
  obtain ⟨buffer₂, h₂, -, hframe₂⟩ := store_ok (i := i + topic.length) buffer₁ hfit 0
  exact ⟨buffer₁, buffer₂, h₁, h₂, fun j bs hj hdisj =>
    hframe₂ j bs (hframe₁ j bs hj (by omega)) (by omega)⟩

/-- The acknowledgement is written over the front of the buffer. -/
theorem puback_ok (id : BitVec 16) (buffer : Vector Byte bufferSize.toNat)
    (hsize : 4 ≤ bufferSize.toNat) :
    ∃ buffer₁ buffer₂ buffer₃ buffer₄, store buffer 0 mqttPuback = some buffer₁ ∧
      store buffer₁ 1 2 = some buffer₂ ∧ store buffer₂ 2 (msb id) = some buffer₃ ∧
      store buffer₃ 3 (lsb id) = some buffer₄ ∧
      slice buffer₄ 0 4 = some (ControlPacket.puback id).encode := by
  obtain ⟨buffer₁, h₁, hheld₁, _⟩ := store_ok buffer (by omega : 0 < bufferSize.toNat) mqttPuback
  obtain ⟨buffer₂, h₂, hheld₂, hframe₂⟩ := store_ok buffer₁ (by omega : 1 < bufferSize.toNat) 2
  obtain ⟨buffer₃, h₃, hheld₃, hframe₃⟩ := store_ok buffer₂ (by omega : 2 < bufferSize.toNat) (msb id)
  obtain ⟨buffer₄, h₄, hheld₄, hframe₄⟩ := store_ok buffer₃ (by omega : 3 < bufferSize.toNat) (lsb id)
  have hack : Holds buffer₄ 0 (ControlPacket.puback id).encode := by
    change Holds buffer₄ 0 ([mqttPuback] ++ ([2] ++ be16 id))
    rw [← msb_lsb]
    refine holds_append_iff.mpr ⟨?_, holds_append_iff.mpr ⟨?_, ?_⟩⟩
    · exact hframe₄ _ _ (hframe₃ _ _ (hframe₂ _ _ hheld₁ (by simp)) (by simp)) (by simp)
    · exact hframe₄ _ _ (hframe₃ _ _ hheld₂ (by simp)) (by simp)
    · exact holds_append_iff (s := [msb id]).mpr ⟨hframe₄ _ _ hheld₃ (by simp), hheld₄⟩
  exact ⟨buffer₁, buffer₂, buffer₃, buffer₄, h₁, h₂, h₃, h₄, hack.slice (by change 0 + 4 ≤ _; omega)⟩

/-- A publication in the buffer is handed to the callback, topic and payload apart. -/
theorem handlePublish_ok {p : StreamPacket} {pub : Publication}
    (hpub : publication p.header p.body = some pub) (hfit : p.bytes.length ≤ bufferSize.toNat)
    {c : PubSubClient bufferSize} (hup : c.up = true) (hheld : Holds c.buffer 0 p.bytes)
    (t : BitVec 32) (room : Nat) :
    ∃ buffer', c.handlePublish t room p.bytes.length p.digits.length =
      some ([pub.message], c.acknowledged pub.id t room buffer') := by
  have hn := bufferSize.isLt
  obtain ⟨⟨topic, bs⟩, htext, hpub⟩ := Option.bind_eq_some_iff.mp hpub
  obtain ⟨hi, lo, hbody, htl⟩ := takeText_eq_some htext
  obtain ⟨hheader, hhi, hlo, htopic, hbs⟩ := publish_places hbody hheld
  have hlen : p.bytes.length = p.digits.length + 3 + topic.length + bs.length := by
    rw [p.bytes_length, hbody]
    simp only [List.length_cons, List.length_append]
    omega
  rw [hlen] at hfit
  have hslice : slice c.buffer (p.digits.length + 3) topic.length = some topic :=
    htopic.slice (by omega)
  obtain ⟨buffer₁, buffer₂, h₁, h₂, hframe⟩ :=
    moveTopic_ok topic (i := p.digits.length + 2) c.buffer (by omega)
  have hheader₂ : Holds buffer₂ 0 [p.header] := hframe _ _ hheader (by simp)
  have hbs₂ : Holds buffer₂ (p.digits.length + 3 + topic.length) bs := hframe _ _ hbs (by omega)
  rw [handlePublish, hlen]
  simp only [hhi.load, hlo.load, Option.bind_eq_bind, Option.bind_some, ← htl, hslice, h₁,
    h₂, hheader₂.load]
  dsimp only at hpub
  split at hpub
  · rename_i hqos
    obtain ⟨⟨id, payload⟩, hid, hpub⟩ := Option.bind_eq_some_iff.mp hpub
    obtain rfl := Option.some.inj hpub
    obtain ⟨idHi, idLo, rfl, rfl⟩ := takeId_eq_some hid
    obtain ⟨hidHi, hafter⟩ := holds_append_iff (s := [idHi]).mp hbs₂
    obtain ⟨hlow, hpayload⟩ := holds_append_iff (s := [idLo]).mp hafter
    have hidLo : load buffer₂ (p.digits.length + 3 + topic.length + 1) = some idLo := hlow.load
    simp only [List.length_cons] at hfit ⊢
    have hplace : Holds buffer₂ (p.digits.length + 3 + topic.length + 2) payload := hpayload
    have hlength : (↑(p.digits.length + 3 + topic.length + (payload.length + 1 + 1)) -
        ↑p.digits.length - 3 - ↑topic.length - 2 : Int) = payload.length := by omega
    have hview := payloadAt_eq hplace (by omega) (by omega) hlength
    obtain ⟨buffer₃, buffer₄, buffer₅, buffer₆, h₃, h₄, h₅, h₆, hout⟩ :=
      puback_ok (.ofNat 16 (idHi.toNat * 256 + idLo.toNat)) buffer₂ (by omega)
    refine ⟨buffer₆, ?_⟩
    rw [if_pos hqos, hidHi.load, Option.bind_some, hidLo, Option.bind_some]
    simp only [h₃, h₄, h₅, h₆, hout, Option.bind_some, hview]
    rw [clientWrite_up (c := { c with buffer := buffer₆ }) hup]
    rfl
  · rename_i hqos
    obtain rfl := Option.some.inj hpub
    refine ⟨buffer₂, ?_⟩
    rw [if_neg hqos, payloadAt_eq hbs₂ (by omega) (by omega) (by omega)]
    rfl

/-- The connection and its input are as they were. -/
structure SameInput (c c' : PubSubClient bufferSize) : Prop where
  up : c'.up = c.up
  state : c'.state = c.state
  unread : c'.unread = c.unread

theorem SameInput.live {c c' : PubSubClient bufferSize} (h : SameInput c c') (hlive : c.Live) :
    c'.Live := ⟨h.up ▸ hlive.1, h.state ▸ hlive.2⟩

/-- The stamps are as they were, or of time `t`. -/
structure Stamped (t : BitVec 32) (c c' : PubSubClient bufferSize) : Prop where
  keepAlive : c'.keepAlive = c.keepAlive
  lastIn : c'.lastInActivity = c.lastInActivity ∨ c'.lastInActivity = t
  lastOut : c'.lastOutActivity = c.lastOutActivity ∨ c'.lastOutActivity = t

theorem Stamped.trans {t : BitVec 32} {c c' c'' : PubSubClient bufferSize} (h : Stamped t c c')
    (h' : Stamped t c' c'') : Stamped t c c'' where
  keepAlive := h'.keepAlive.trans h.keepAlive
  lastIn := h'.lastIn.elim (fun hsame => h.lastIn.imp hsame.trans hsame.trans) Or.inr
  lastOut := h'.lastOut.elim (fun hsame => h.lastOut.imp hsame.trans hsame.trans) Or.inr

theorem acknowledged_stamped (id : Option (BitVec 16)) (t : BitVec 32) (room : Nat)
    (buffer : Vector Byte bufferSize.toNat) (c : PubSubClient bufferSize) :
    Stamped t c (c.acknowledged id t room buffer) := by
  cases id with
  | none => exact ⟨rfl, Or.inl rfl, Or.inl rfl⟩
  | some id => exact ⟨rfl, Or.inl rfl, Or.inr rfl⟩

theorem acknowledged_sameInput (id : Option (BitVec 16)) (t : BitVec 32) (room : Nat)
    (buffer : Vector Byte bufferSize.toNat) (c : PubSubClient bufferSize) :
    SameInput c (c.acknowledged id t room buffer) := by
  cases id with
  | none => exact ⟨rfl, rfl, rfl⟩
  | some id => exact ⟨rfl, rfl, rfl⟩

/-- A short packet goes out whole or in part, over the front of the buffer. -/
theorem writeShort_ok (hsize : 2 ≤ bufferSize.toNat) {c : PubSubClient bufferSize}
    (hup : c.up = true) (room : Nat) (header : Byte) :
    ∃ buffer', c.writeShort room header = some { c with
      buffer := buffer', written := c.written ++ [header, 0].take room } ∧
        Kept 2 c.buffer buffer' := by
  obtain ⟨buffer₁, h₁, hheld₁, _⟩ := store_ok c.buffer (by omega : 0 < bufferSize.toNat) header
  obtain ⟨buffer₂, h₂, hheld₂, hframe₂⟩ := store_ok buffer₁ (by omega : 1 < bufferSize.toNat) 0
  have hheld : Holds buffer₂ 0 [header, 0] :=
    holds_append_iff (s := [header]).mpr ⟨hframe₂ _ _ hheld₁ (by simp), hheld₂⟩
  have hslice : slice buffer₂ 0 2 = some [header, 0] := hheld.slice hsize
  refine ⟨buffer₂, ?_, (store_kept h₁ Nat.zero_lt_two).trans (store_kept h₂ Nat.one_lt_two)⟩
  simp only [writeShort, h₁, h₂, hslice, Option.bind_eq_bind, Option.bind_some]
  rw [clientWrite_up (c := { c with buffer := buffer₂ }) hup]

theorem handlePacket_ok {p : StreamPacket} (hsound : p.Sound)
    (hfit : p.bytes.length ≤ bufferSize.toNat) {c : PubSubClient bufferSize} (hup : c.up = true)
    (hheld : Holds c.buffer 0 p.bytes) (t : BitVec 32) (room : Nat) :
    ∃ c', c.handlePacket t room p.bytes.length p.digits.length =
      some (p.messages bufferSize.toNat, c') ∧ SameInput c c' ∧ Stamped t c c' := by
  have hload : load c.buffer 0 = some p.header := Holds.load hheld
  have hsize : 2 ≤ bufferSize.toNat := by
    have hdigits := List.length_pos_of_ne_nil p.numeral.ne_nil
    rw [p.bytes_length] at hfit
    omega
  rw [handlePacket, hload]
  simp only [Option.bind_eq_bind, Option.bind_some, StreamPacket.messages, hfit, true_and]
  by_cases hpublish : p.header &&& 0xF0 = mqttPublish
  · obtain ⟨pub, hpub⟩ := Option.isSome_iff_exists.mp (hsound hpublish)
    obtain ⟨buffer', hcall⟩ := handlePublish_ok hpub hfit hup hheld t room
    refine ⟨c.acknowledged pub.id t room buffer', ?_, acknowledged_sameInput ..,
      acknowledged_stamped ..⟩
    rw [if_pos hpublish, if_pos hpublish, hcall, hpub]
    rfl
  · simp only [if_neg hpublish]
    split
    · obtain ⟨buffer', hcall, -⟩ := writeShort_ok hsize hup room mqttPingresp
      rw [hcall]
      exact ⟨_, rfl, ⟨rfl, rfl, rfl⟩, ⟨rfl, Or.inl rfl, Or.inl rfl⟩⟩
    · split
      · exact ⟨_, rfl, ⟨rfl, rfl, rfl⟩, ⟨rfl, Or.inl rfl, Or.inl rfl⟩⟩
      · exact ⟨_, rfl, ⟨rfl, rfl, rfl⟩, ⟨rfl, Or.inl rfl, Or.inl rfl⟩⟩

/-- A packet that fits is read whole and then handled in the buffer. -/
theorem receive_fits {p : StreamPacket} (hsize : 7 ≤ bufferSize.toNat)
    (hfit : p.bytes.length ≤ bufferSize.toNat) {c : PubSubClient bufferSize}
    {rest : List (Option Byte)} (hun : c.unread = p.bytes.map some ++ rest) (t : BitVec 32)
    (room : Nat) :
    ∃ buffer', Holds buffer' 0 p.bytes ∧ Kept p.bytes.length c.buffer buffer' ∧ c.receive t room =
      (handlePacket t room p.bytes.length p.digits.length
        { c with buffer := buffer', unread := rest, lastInActivity := t }).map
          fun r => (true, r.1, r.2) := by
  have havail : c.available = true := by
    rw [available, hun]
    rfl
  have hpos : 0 < p.bytes.length := List.length_pos_of_ne_nil (List.cons_ne_nil _ _)
  obtain ⟨buffer', hread, hheld, hkept⟩ := readPacket_whole p hsize hun
  rw [List.take_of_length_le hfit] at hheld
  refine ⟨buffer', hheld, hkept, ?_⟩
  rw [receive, if_pos havail, hread]
  simp only [Option.bind_eq_bind, Option.bind_some, if_pos hfit, if_pos hpos]
  cases handlePacket t room p.bytes.length p.digits.length
      { c with buffer := buffer', unread := rest, lastInActivity := t } with
  | none => rfl
  | some r => rfl

/-- One packet is taken, and its messages are handed over. -/
theorem receive_packet {p : StreamPacket} (hsound : p.Sound) (hsize : 7 ≤ bufferSize.toNat)
    {c : PubSubClient bufferSize} (hlive : c.Live) {rest : List (Option Byte)}
    (hun : c.unread = p.bytes.map some ++ rest) (t : BitVec 32) (room : Nat) :
    ∃ c', c.receive t room = some (true, p.messages bufferSize.toNat, c') ∧ c'.Live ∧
      c'.unread = rest ∧ Stamped t c c' := by
  by_cases hfit : p.bytes.length ≤ bufferSize.toNat
  · obtain ⟨buffer', hheld, -, hreceive⟩ := receive_fits hsize hfit hun t room
    obtain ⟨c', hcall, hsame, hstamped⟩ := handlePacket_ok hsound hfit
      (c := { c with buffer := buffer', unread := rest, lastInActivity := t }) hlive.1 hheld t room
    have hread : Stamped t c { c with buffer := buffer', unread := rest, lastInActivity := t } :=
      ⟨rfl, Or.inr rfl, Or.inl rfl⟩
    refine ⟨c', ?_, hsame.live hlive, hsame.unread, hread.trans hstamped⟩
    rw [hreceive, hcall]
    rfl
  · -- it is read to its end and dropped
    have havail : c.available = true := by
      rw [available, hun]
      rfl
    obtain ⟨buffer', hread, -⟩ := readPacket_whole p hsize hun
    refine ⟨{ c with buffer := buffer', unread := rest }, ?_, hlive, rfl, ⟨rfl, Or.inl rfl, Or.inl rfl⟩⟩
    have hnone : p.messages bufferSize.toNat = [] := if_neg fun h => hfit h.1
    rw [receive, if_pos havail, hread]
    simp only [Option.bind_eq_bind, Option.bind_some]
    rw [if_neg hfit, if_neg (Nat.lt_irrefl 0), hnone,
      connected_of_live (c := { c with buffer := buffer', unread := rest }) hlive]

/-- The broker has been silent for too long and has not answered the last ping. -/
def TimedOut (t : BitVec 32) (c : PubSubClient bufferSize) : Prop :=
  (c.keepAlive.toNat * 1000 < (t - c.lastInActivity).toNat ∨
    c.keepAlive.toNat * 1000 < (t - c.lastOutActivity).toNat) ∧ c.pingOutstanding = true

theorem checkKeepAlive_timedOut {c : PubSubClient bufferSize} {t : BitVec 32} (h : c.TimedOut t)
    (room : Nat) :
    c.checkKeepAlive t room = some (false, { c.stop with state := mqttConnectionTimeout }) := by
  rw [checkKeepAlive, if_pos h.1, if_pos h.2]

theorem checkKeepAlive_alive (hsize : 2 ≤ bufferSize.toNat) {c : PubSubClient bufferSize}
    (hup : c.up = true) {t : BitVec 32} (h : ¬ c.TimedOut t) (room : Nat) :
    ∃ c', c.checkKeepAlive t room = some (true, c') ∧ SameInput c c' ∧ Stamped t c c' ∧
      Kept 2 c.buffer c'.buffer := by
  rw [checkKeepAlive]
  split
  · rename_i hexpired
    split
    · rename_i hping
      exact absurd ⟨hexpired, hping⟩ h
    · obtain ⟨buffer', hcall, hkept⟩ := writeShort_ok hsize hup room mqttPingreq
      rw [hcall]
      exact ⟨_, rfl, ⟨rfl, rfl, rfl⟩, ⟨rfl, Or.inr rfl, Or.inr rfl⟩, hkept⟩
  · exact ⟨c, rfl, ⟨rfl, rfl, rfl⟩, ⟨rfl, Or.inl rfl, Or.inl rfl⟩, .refl _ _⟩

/-- A call of `loop` takes the next packet from the stream and delivers it, unless it gives the
connection up. -/
theorem loop_packet {p : StreamPacket} (hsound : p.Sound) (hsize : 7 ≤ bufferSize.toNat)
    {c : PubSubClient bufferSize} (hlive : c.Live) {rest : List (Option Byte)}
    (hun : c.unread = p.bytes.map some ++ rest) {t : BitVec 32} (halive : ¬ c.TimedOut t)
    (room : Nat) :
    ∃ c', c.loop t room = some (true, p.messages bufferSize.toNat, c') ∧ c'.Live ∧
      c'.unread = rest ∧ Stamped t c c' := by
  obtain ⟨c₁, hcheck, hsame, hstamped, -⟩ := checkKeepAlive_alive (by omega) hlive.1 halive room
  obtain ⟨c', hreceive, hlive', hrest, hstamped'⟩ := receive_packet hsound hsize (hsame.live hlive)
    (hsame.unread.trans hun) t room
  refine ⟨c', ?_, hlive', hrest, hstamped.trans hstamped'⟩
  simp only [loop, connected_of_live hlive, if_true, hcheck, Option.bind_eq_bind, Option.bind_some,
    hreceive]

/-- A call of `loop` with nothing to read. -/
theorem loop_empty (hsize : 2 ≤ bufferSize.toNat) {c : PubSubClient bufferSize} (hlive : c.Live)
    (hun : c.unread = []) {t : BitVec 32} (halive : ¬ c.TimedOut t) (room : Nat) :
    ∃ c', c.loop t room = some (true, [], c') ∧ c'.Live ∧ c'.unread = [] ∧ Stamped t c c' := by
  obtain ⟨c₁, hcheck, hsame, hstamped, -⟩ := checkKeepAlive_alive hsize hlive.1 halive room
  have hnothing : c₁.available = false := by
    rw [available, hsame.unread, hun]
    rfl
  refine ⟨c₁, ?_, hsame.live hlive, hsame.unread.trans hun, hstamped⟩
  simp only [loop, connected_of_live hlive, if_true, hcheck, Option.bind_eq_bind, Option.bind_some,
    receive, hnothing, Bool.false_eq_true, if_false]

theorem loop_timedOut {c : PubSubClient bufferSize} (hlive : c.Live) {t : BitVec 32}
    (h : c.TimedOut t) (room : Nat) :
    c.loop t room = some (false, [], { c.stop with state := mqttConnectionTimeout }) := by
  simp only [loop, connected_of_live hlive, if_true, checkKeepAlive_timedOut h,
    Option.bind_eq_bind, Option.bind_some, Bool.false_eq_true, if_false]

theorem loop_not_live {c : PubSubClient bufferSize} (h : ¬ c.Live) (t : BitVec 32) (room : Nat) :
    c.loop t room = some (false, [], c.connected.2) := by
  simp only [loop, connected_fst_of_not_live h, Bool.false_eq_true, if_false]

end PubSubClient
end EspNowGateway.Mqtt
