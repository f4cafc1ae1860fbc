import EspNowGateway.Mqtt.SessionStream

/-! Publications around the buffer. `publish_P` and `beginPublish` send only the header and the topic
from the buffer and the payload in writes of its own, so it may be longer than the buffer. The stream
is that of `publish` as long as the length has its numeral. -/
namespace EspNowGateway.Mqtt
open ByteLayout CArray HeapBlock PartialRun

/-- What goes out before the payload when `length` is announced. -/
def publishHead (retained : Bool) (topic : List Byte) (length : Nat) : List Byte :=
  (ControlPacket.publish retained topic []).header ::
    (Base128.encode 4 length ++ lengthPrefixed topic)

theorem publishHead_append (retained : Bool) (topic payload : List Byte) :
    publishHead retained topic (payload.length + 2 + topic.length) ++ payload =
      (ControlPacket.publish retained topic payload).encode := by
  have hbody : (ControlPacket.publish retained topic payload).body.length =
      payload.length + 2 + topic.length := by
    simp only [ControlPacket.body, List.length_append, lengthPrefixed_length]
    omega
  rw [ControlPacket.encode, frame, hbody, publishHead, List.cons_append, List.append_assoc]
  rfl

theorem header_eq (retained : Bool) (topic payload : List Byte) :
    (if retained then mqttPublish ||| 1 else mqttPublish) =
      (ControlPacket.publish retained topic payload).header := by
  cases retained <;> rfl

/-- Below the limit of four digits a fifth place stays empty. -/
theorem encode_five {n : Nat} (h : n < 2^28) : Base128.encode 5 n = Base128.encode 4 n :=
  Base128.encode_more h

namespace PubSubClient
variable {bufferSize : BitVec 16}

/-- A write that the connection takes as a whole. -/
theorem clientWrite_whole {c : PubSubClient bufferSize} (hup : c.up = true) {room : Nat}
    {bytes : List Byte} (h : bytes.length ≤ room) :
    c.clientWrite room bytes = (bytes.length, { c with written := c.written ++ bytes }) := by
  rw [clientWrite_up hup, List.take_of_length_le h, Nat.min_eq_right h]

theorem writeEach_whole {c : PubSubClient bufferSize} (hup : c.up = true) {rooms : Nat → Nat}
    (hrooms : ∀ i, 1 ≤ rooms i) (bs : List Byte) (i : Nat) :
    c.writeEach rooms bs i = (bs.length, { c with written := c.written ++ bs }) := by
  induction bs generalizing c i with
  | nil =>
    rw [writeEach, List.append_nil]
    rfl
  | cons b bs ih =>
    have hwrite : c.clientWrite (rooms i) [b] = (1, { c with written := c.written ++ [b] }) :=
      clientWrite_whole hup (hrooms i)
    rw [writeEach, hwrite]
    dsimp only
    rw [ih (c := { c with written := c.written ++ [b] }) hup]
    dsimp only
    rw [List.append_assoc, List.singleton_append, List.length_cons, Nat.add_comm]

private theorem lenDigits_five {n : Nat} (h : n < 2^28) :
    lenDigits 5 (BitVec.ofNat 32 n) = Base128.encode 4 n := by
  have hnat : (BitVec.ofNat 32 n).toNat = n := by
    rw [BitVec.toNat_ofNat]
    exact Nat.mod_eq_of_lt (h.trans (by decide))
  rw [lenDigits_eq (by decide : 7 ≤ 32), hnat, encode_five h]

theorem publishHead_length (retained : Bool) (topic : List Byte) (length : Nat) :
    (publishHead retained topic length).length =
      1 + (Base128.encode 4 length).length + 2 + topic.length := by
  rw [publishHead, List.length_cons, List.length_append, lengthPrefixed_length]
  omega

/-- Header and topic, written into the front of the buffer. -/
private theorem front_ok (buffer : Vector Byte bufferSize.toNat) (retained : Bool) (topic : List Byte)
    (length : Nat)
    (hfit : (publishHead retained (upToNul topic) length).length ≤ bufferSize.toNat) :
    ∃ b₁ b₂ b₃, store buffer 0 (ControlPacket.publish retained (upToNul topic) []).header = some b₁ ∧
      storeAll (Base128.encode 4 length) 1 b₁ = some b₂ ∧
      writeString topic (1 + (Base128.encode 4 length).length) b₂ =
        some ((publishHead retained (upToNul topic) length).length, b₃) ∧
      slice b₃ 0 (publishHead retained (upToNul topic) length).length =
        some (publishHead retained (upToNul topic) length) := by
  have hlength := publishHead_length retained (upToNul topic) length
  rw [hlength] at hfit ⊢
  obtain ⟨b₁, h₁, hheld₁, -⟩ := store_ok buffer (by omega : 0 < bufferSize.toNat)
    (ControlPacket.publish retained (upToNul topic) []).header
  obtain ⟨b₂, h₂, hheld₂, hframe₂⟩ := storeAll_ok (s := Base128.encode 4 length) (i := 1) b₁ (by omega)
  obtain ⟨b₃, h₃, hheld₃, hframe₃⟩ := writeString_ok (s := topic) b₂
    (by omega : 1 + (Base128.encode 4 length).length + 2 + (upToNul topic).length ≤ bufferSize.toNat)
  refine ⟨b₁, b₂, b₃, h₁, h₂, h₃, ?_⟩
  have hfirst : Holds b₃ 0 [(ControlPacket.publish retained (upToNul topic) []).header] :=
    hframe₃ _ _ (hframe₂ _ _ hheld₁ (by simp)) (by simp)
  have hdigits : Holds b₃ 1 (Base128.encode 4 length) := hframe₃ _ _ hheld₂ (Or.inr (Nat.le_refl _))
  have hall : Holds b₃ 0 (publishHead retained (upToNul topic) length) := by
    rw [publishHead, ← List.singleton_append]
    exact holds_append_iff.mpr ⟨hfirst, holds_append_iff.mpr ⟨hdigits, hheld₃⟩⟩
  rw [← hlength]
  exact hall.slice (by omega)

/-- `publish_P` on an open connection that takes everything: the whole packet goes out, or the buffer
is left when header and topic do not fit into it. -/
theorem publishP_spec (c : PubSubClient bufferSize) (now : BitVec 32) {rooms : Nat → Nat}
    (hrooms : ∀ i, bufferSize.toNat ≤ rooms i ∧ 1 ≤ rooms i) (topic : List Byte) {payload : List Byte}
    (hlen : payload.length + 2 + (upToNul topic).length < 2^28) (retained : Bool) :
    ∃ buffer', c.publishP now rooms topic payload retained =
      if ¬ c.Live then some (false, c.connected.2)
      else if (publishHead retained (upToNul topic)
          (payload.length + 2 + (upToNul topic).length)).length ≤ bufferSize.toNat then
        some (true, { c with
          buffer := buffer'
          written := c.written ++ (ControlPacket.publish retained (upToNul topic) payload).encode
          lastOutActivity := now })
      else none := by
  by_cases hlive : c.Live
  swap
  · refine ⟨c.buffer, ?_⟩
    simp only [publishP, connected_fst_of_not_live hlive, Bool.false_eq_true, if_false]
    rw [if_pos hlive]
  have hlength := publishHead_length retained (upToNul topic)
    (payload.length + 2 + (upToNul topic).length)
  have hheader := header_eq retained (upToNul topic) []
  by_cases hfit : (publishHead retained (upToNul topic)
      (payload.length + 2 + (upToNul topic).length)).length ≤ bufferSize.toNat
  · have htlen : strnlen topic bufferSize.toNat = (upToNul topic).length := by
      rw [strnlen]
      omega
    obtain ⟨b₁, b₂, b₃, h₁, h₂, h₃, hslice⟩ := front_ok c.buffer retained topic _ hfit
    have hfirst (b : Vector Byte bufferSize.toNat) := clientWrite_whole (c := { c with buffer := b })
      hlive.1 (hfit.trans (hrooms 0).1)
    refine ⟨b₃, ?_⟩
    simp only [publishP, connected_of_live hlive, if_true, htlen, lenDigits_five hlen, hheader, h₁, h₂,
      h₃, hslice, hfirst, Option.bind_eq_bind, Option.bind_some]
    rw [writeEach_whole (by exact hlive.1) (fun i => (hrooms i).2), if_neg (not_not.mpr hlive),
      if_pos hfit]
    dsimp only
    rw [List.append_assoc, publishHead_append, hlength, decide_eq_true rfl]
  · refine ⟨c.buffer, ?_⟩
    have hnone : ∀ b : Vector Byte bufferSize.toNat, writeString topic (1 + (lenDigits 5
        (BitVec.ofNat 32 (payload.length + 2 + strnlen topic bufferSize.toNat))).length) b = none := by
      intro b
      apply writeString_none
      by_cases hlong : (upToNul topic).length ≤ bufferSize.toNat
      · have htlen : strnlen topic bufferSize.toNat = (upToNul topic).length := by
          rw [strnlen]
          omega
        rw [htlen, lenDigits_five hlen]
        omega
      · omega
    simp only [publishP, connected_of_live hlive, if_true, hnone, Option.bind_eq_bind,
      Option.bind_none, Option.bind_fun_none]
    rw [if_neg (not_not.mpr hlive), if_neg hfit]

/-- `beginPublish` announces the length as far as 16 bits hold it. -/
theorem beginPublish_spec (c : PubSubClient bufferSize) (now : BitVec 32) (room : Nat)
    (topic : List Byte) (plength : Nat) (retained : Bool) :
    ∃ buffer', c.beginPublish now room topic plength retained =
      let head := publishHead retained (upToNul topic)
        ((plength + 2 + (upToNul topic).length) % 2^16)
      if ¬ c.Live then some (false, c.connected.2)
      else if mqttMaxHeaderSize + 2 + (upToNul topic).length ≤ bufferSize.toNat then
        some (head.length ≤ room, { c with
          buffer := buffer', written := c.written ++ head.take room, lastOutActivity := now })
      else none := by
  by_cases hlive : c.Live
  swap
  · refine ⟨c.buffer, ?_⟩
    simp only [beginPublish, connected_fst_of_not_live hlive, Bool.false_eq_true, if_false]
    rw [if_pos hlive]
  by_cases hfit : mqttMaxHeaderSize + 2 + (upToNul topic).length ≤ bufferSize.toNat
  · obtain ⟨b₁, h₁, hheld₁, -⟩ := writeString_ok (s := topic) c.buffer hfit
    have hsum : plength + (mqttMaxHeaderSize + 2 + (upToNul topic).length) - mqttMaxHeaderSize =
        plength + 2 + (upToNul topic).length := by omega
    have hnat : (BitVec.ofNat 16 (plength + 2 + (upToNul topic).length)).toNat =
        (plength + 2 + (upToNul topic).length) % 2^16 := BitVec.toNat_ofNat _ _
    obtain ⟨hlen, b₂, h₂, hle, hlength, hheld₂⟩ := buildHeader_eq
      (ControlPacket.publish retained (upToNul topic) []).header
      (.ofNat 16 (plength + 2 + (upToNul topic).length)) hheld₁
      (by rw [lengthPrefixed_length]; omega)
    rw [hnat, ← publishHead] at hlength hheld₂
    have hcount : mqttMaxHeaderSize + 2 + (upToNul topic).length - (mqttMaxHeaderSize - hlen) =
        (publishHead retained (upToNul topic)
          ((plength + 2 + (upToNul topic).length) % 2^16)).length := by
      rw [lengthPrefixed_length] at hlength
      omega
    have hslice := hheld₂.slice (by omega)
    refine ⟨b₂, ?_⟩
    simp only [beginPublish, connected_of_live hlive, if_true, h₁, hsum,
      header_eq retained (upToNul topic) [], h₂, hcount, hslice, Option.bind_eq_bind, Option.bind_some]
    rw [clientWrite_up (by exact hlive.1), if_neg (not_not.mpr hlive), if_pos hfit]
    dsimp only
    congr 2
    rw [decide_eq_decide]
    omega
  · refine ⟨c.buffer, ?_⟩
    have hnone := writeString_none (s := topic) c.buffer (Nat.lt_of_not_le hfit)
    simp only [beginPublish, connected_of_live hlive, if_true, hnone, Option.bind_eq_bind,
      Option.bind_none]
    rw [if_neg (not_not.mpr hlive), if_neg hfit]

/-- One write of a streamed payload. -/
structure UserWrite where
  now : BitVec 32
  room : Nat
  bytes : List Byte

/-- The writes between `beginPublish` and `endPublish`, and whether all were taken whole. -/
def writeAll : List UserWrite → PubSubClient bufferSize → Bool × PubSubClient bufferSize
  | [], c => (true, c)
  | w :: ws, c =>
    let (rc, c) := c.writeBytes w.now w.room w.bytes
    let (whole, c) := writeAll ws c
    (rc = w.bytes.length && whole, c)

/-- The payload that the writes make up. -/
def payloadOf (ws : List UserWrite) : List Byte := ws.flatMap UserWrite.bytes

/-- However a payload is cut into writes. -/
theorem writeAll_whole {c : PubSubClient bufferSize} (hup : c.up = true) {ws : List UserWrite}
    (hws : ∀ w ∈ ws, w.bytes.length ≤ w.room) :
    (c.writeAll ws).1 = true ∧ (c.writeAll ws).2.written = c.written ++ payloadOf ws ∧
      (c.writeAll ws).2.up = c.up ∧ (c.writeAll ws).2.state = c.state := by
  induction ws generalizing c with
  | nil => exact ⟨rfl, (List.append_nil _).symm, rfl, rfl⟩
  | cons w ws ih =>
    obtain ⟨hw, hrest⟩ := List.forall_mem_cons.mp hws
    have hwrite : c.writeBytes w.now w.room w.bytes = (w.bytes.length, { c with
        lastOutActivity := w.now, written := c.written ++ w.bytes }) :=
      clientWrite_whole (c := { c with lastOutActivity := w.now }) hup hw
    obtain ⟨hall, hwritten, hsame, hstate⟩ := ih (c := { c with lastOutActivity := w.now, written := c.written ++ w.bytes }) hup hrest
    rw [writeAll, hwrite]
    dsimp only
    refine ⟨?_, ?_, hsame, hstate⟩
    · rw [hall, decide_eq_true rfl]
      rfl
    · rw [hwritten, List.append_assoc]
      rfl

/-- The bytes of a streamed publication are those of the packet exactly when its length fits 16 bits;
`publish_P` knows no such limit. -/
theorem streamed_eq_iff (retained : Bool) (topic payload : List Byte)
    (hlen : payload.length + 2 + topic.length < 2^28) :
    publishHead retained topic ((payload.length + 2 + topic.length) % 2^16) ++ payload =
        (ControlPacket.publish retained topic payload).encode ↔
      payload.length + 2 + topic.length < 2^16 := by
  rw [← publishHead_append]
  constructor
  · intro heq
    have hhead := List.append_cancel_right heq
    rw [publishHead, publishHead] at hhead
    have hdigits := List.append_cancel_right (List.cons.inj hhead).2
    have hvalue := congrArg Base128.value hdigits
    rw [(Base128.encode_spec 3 _ ((Nat.mod_le _ _).trans_lt hlen)).2.1,
      (Base128.encode_spec 3 _ hlen).2.1] at hvalue
    rw [← hvalue]
    exact Nat.mod_lt _ (by decide)
  · intro hsmall
    rw [Nat.mod_eq_of_lt hsmall]

/-- What a streamed publication adds to an open connection that takes everything. -/
theorem streamed_written {c c' : PubSubClient bufferSize} (hlive : c.Live) {now : BitVec 32} {room : Nat}
    (hroom : bufferSize.toNat ≤ room) {topic : List Byte} {plength : Nat} {retained r : Bool}
    (hbegin : c.beginPublish now room topic plength retained = some (r, c')) {ws : List UserWrite}
    (hws : ∀ w ∈ ws, w.bytes.length ≤ w.room) :
    mqttMaxHeaderSize + 2 + (upToNul topic).length ≤ bufferSize.toNat ∧ r = true ∧
      (c'.writeAll ws).1 = true ∧ (c'.writeAll ws).2.written = c.written ++
        (publishHead retained (upToNul topic) ((plength + 2 + (upToNul topic).length) % 2^16) ++
          payloadOf ws) ∧ (c'.writeAll ws).2.Live := by
  obtain ⟨b, hspec⟩ := beginPublish_spec c now room topic plength retained
  dsimp only at hspec
  rw [if_neg (not_not.mpr hlive), hbegin] at hspec
  split at hspec
  · rename_i hfit
    obtain ⟨rfl, rfl⟩ := Prod.mk.inj (Option.some.inj hspec)
    have hdigits : (Base128.encode 4 ((plength + 2 + (upToNul topic).length) % 2^16)).length ≤ 4 :=
      (Base128.encode_spec 3 _ ((Nat.mod_lt _ (by decide)).trans (by decide))).2.2
    have hwhole : (publishHead retained (upToNul topic)
        ((plength + 2 + (upToNul topic).length) % 2^16)).length ≤ room := by
      rw [publishHead_length]
      simp only [mqttMaxHeaderSize] at hfit
      omega
    rw [List.take_of_length_le hwhole]
    obtain ⟨hall, hwritten, hup, hstate⟩ := writeAll_whole (c := { c with
      buffer := b
      written := c.written ++ publishHead retained (upToNul topic)
        ((plength + 2 + (upToNul topic).length) % 2^16)
      lastOutActivity := now }) hlive.1 hws
    refine ⟨hfit, decide_eq_true hwhole, hall, ?_, hup.trans hlive.1, hstate.trans hlive.2⟩
    rw [hwritten, List.append_assoc]
  · cases hspec

/-- The two paths around the buffer on an open connection that takes everything. Each leaves the
buffer exactly when what it puts there does not fit, since it checks no length; otherwise it reports
success, but only up to 16 bits of length is what was streamed the packet of the publication. -/
theorem around_buffer {c : PubSubClient bufferSize} (hlive : c.Live) (now : BitVec 32)
    {rooms : Nat → Nat} (hrooms : ∀ i, bufferSize.toNat ≤ rooms i ∧ 1 ≤ rooms i) {ws : List UserWrite}
    (hws : ∀ w ∈ ws, w.bytes.length ≤ w.room) (topic : List Byte) (retained : Bool)
    (hlen : (payloadOf ws).length + 2 + (upToNul topic).length < 2^28) :
    let packet := ControlPacket.publish retained (upToNul topic) (payloadOf ws)
    let length := (payloadOf ws).length + 2 + (upToNul topic).length
    (c.publishP now rooms topic (payloadOf ws) retained = none ↔
        bufferSize.toNat < (publishHead retained (upToNul topic) length).length) ∧
      (∀ r c', c.publishP now rooms topic (payloadOf ws) retained = some (r, c') →
        r = true ∧ c'.written = c.written ++ packet.encode) ∧
      (c.beginPublish now (rooms 0) topic (payloadOf ws).length retained = none ↔
        bufferSize.toNat < mqttMaxHeaderSize + 2 + (upToNul topic).length) ∧
      ∀ r c', c.beginPublish now (rooms 0) topic (payloadOf ws).length retained = some (r, c') →
        r = true ∧ (c'.writeAll ws).1 = true ∧
          ((c'.writeAll ws).2.written = c.written ++ packet.encode ↔ length < 2^16) := by
  intro packet length
  obtain ⟨b, hpublishP⟩ := publishP_spec c now hrooms topic hlen retained
  obtain ⟨b', hbegin⟩ := beginPublish_spec c now (rooms 0) topic (payloadOf ws).length retained
  rw [if_neg (not_not.mpr hlive)] at hpublishP
  dsimp only at hbegin
  rw [if_neg (not_not.mpr hlive)] at hbegin
  refine ⟨?_, fun r c' h => ?_, ?_, fun r c' h => ?_⟩
  · rw [hpublishP, ite_eq_right_iff, ← Nat.not_le]
    exact ⟨fun h hle => absurd (h hle) (Option.some_ne_none _), fun h hle => absurd hle h⟩
  · rw [hpublishP] at h
    split at h
    · obtain ⟨rfl, rfl⟩ := Prod.mk.inj (Option.some.inj h)
      exact ⟨rfl, rfl⟩
    · cases h
  · rw [hbegin, ite_eq_right_iff, ← Nat.not_le]
    exact ⟨fun h hle => absurd (h hle) (Option.some_ne_none _), fun h hle => absurd hle h⟩
  · obtain ⟨-, hr, hall, hwritten, -⟩ := streamed_written hlive (hrooms 0).1 h hws
    refine ⟨hr, hall, ?_⟩
    rw [hwritten, List.append_cancel_left_eq]
    exact streamed_eq_iff retained (upToNul topic) (payloadOf ws) hlen

/-- Five bytes under a topic of one character, with a connection that takes sixty-four. -/
theorem around_buffer_short : ∃ c', agreed.beginPublish 2000 64 (ascii "t") 5 false = some (true, c') ∧
    (c'.writeAll [⟨2001, 64, [1, 2]⟩, ⟨2002, 64, [3, 4, 5]⟩]).1 = true ∧
      (c'.writeAll [⟨2001, 64, [1, 2]⟩, ⟨2002, 64, [3, 4, 5]⟩]).2.written = agreed.written ++
        (ControlPacket.publish false (ascii "t") [1, 2, 3, 4, 5]).encode := by
  have hlive : agreed.Live := ⟨rfl, rfl⟩
  have hrooms : ∀ i : Nat, (32 : BitVec 16).toNat ≤ (fun _ => 64 : Nat → Nat) i ∧
      1 ≤ (fun _ => 64 : Nat → Nat) i := by
    intro i
    constructor
    · change (32 : BitVec 16).toNat ≤ 64
      decide
    · change 1 ≤ 64
      decide
  have hws : ∀ w ∈ [(⟨2001, 64, [1, 2]⟩ : UserWrite), ⟨2002, 64, [3, 4, 5]⟩], w.bytes.length ≤ w.room := by
    decide
  obtain ⟨-, -, hnone, hsome⟩ := around_buffer hlive 2000 hrooms hws (ascii "t") false (by decide)
  obtain ⟨⟨r, c'⟩, hbegin⟩ := Option.ne_none_iff_exists'.mp (mt hnone.mp (by decide))
  obtain ⟨rfl, hall, hwritten⟩ := hsome r c' hbegin
  exact ⟨c', hbegin, hall, hwritten.mpr (by decide)⟩

end PubSubClient

/-- What happens in a session with publications of any kind. -/
inductive StreamedEvent where
  | call (e : SessionEvent)
  | publishP (now : BitVec 32) (rooms : Nat → Nat) (topic payload : List Byte) (retained : Bool)
  | streamed (now : BitVec 32) (room : Nat) (topic : List Byte) (retained : Bool)
      (writes : List PubSubClient.UserWrite)

/-- The connection takes every write as a whole, and the lengths have their numerals. -/
def StreamedEvent.Whole (n : Nat) : StreamedEvent → Prop
  | .call e => e.Whole n
  | .publishP _ rooms topic payload _ => (∀ i, n ≤ rooms i ∧ 1 ≤ rooms i) ∧
    payload.length + 2 + (upToNul topic).length < 2^28
  | .streamed _ room topic _ writes => n ≤ room ∧ (∀ w ∈ writes, w.bytes.length ≤ w.room) ∧
    (PubSubClient.payloadOf writes).length + 2 + (upToNul topic).length < 2^16

namespace Session
variable {bufferSize : BitVec 16}

/-- A session whose user streams too: the payload it announces is the one that it writes. -/
def streamedStep (s : Session bufferSize) : StreamedEvent → Option (Session bufferSize)
  | .call e => s.step e
  | .publishP now rooms topic payload retained =>
    (s.client.publishP now rooms topic payload retained).map fun r => { s with
      client := r.2
      confirmed := if r.1 then s.confirmed ++ [⟨retained, upToNul topic, payload⟩] else s.confirmed }
  | .streamed now room topic retained writes =>
    (s.client.beginPublish now room topic (PubSubClient.payloadOf writes).length retained).map fun r =>
      if r.1 then
        let (whole, client) := r.2.writeAll writes
        { s with
          client := client
          confirmed := if whole && PubSubClient.endPublish = 1 then
            s.confirmed ++ [⟨retained, upToNul topic, PubSubClient.payloadOf writes⟩] else s.confirmed }
      else { s with client := r.2 }

/-- The session's stream so far, whatever the lengths of its packets. -/
structure Legible (k : Connect) (s : Session bufferSize) (qs : List ControlPacket) : Prop where
  written : s.client.written = ControlPacket.code.encodeAll (.connect k :: qs)
  valid : ∀ q ∈ qs, q.Valid
  later : ∀ q ∈ qs, q.isConnect = false
  postings : qs.filterMap ControlPacket.posting = s.confirmed
  settled : s.client.Settled

theorem OnWire.legible {k : Connect} {s : Session bufferSize} {qs : List ControlPacket}
    (h : OnWire k s qs) : Legible k s qs := ⟨h.written, h.valid, h.later, h.postings, h.settled⟩

theorem Legible.append {k : Connect} {s s' : Session bufferSize} {qs qs' : List ControlPacket}
    (h : Legible k s qs)
    (hwritten : s'.client.written = s.client.written ++ ControlPacket.code.encodeAll qs')
    (hvalid : ∀ q ∈ qs', q.Valid) (hlater : ∀ q ∈ qs', q.isConnect = false)
    (hpostings : s'.confirmed = s.confirmed ++ qs'.filterMap ControlPacket.posting)
    (hsettled : s'.client.Settled) : Legible k s' (qs ++ qs') where
  written := by
    rw [hwritten, h.written]
    exact List.flatMap_append.symm
  valid := List.forall_mem_append.mpr ⟨h.valid, hvalid⟩
  later := List.forall_mem_append.mpr ⟨h.later, hlater⟩
  postings := by rw [List.filterMap_append, h.postings, hpostings]
  settled := hsettled

/-- One whole publication. -/
theorem Legible.publication {k : Connect} {s s' : Session bufferSize} {qs : List ControlPacket}
    (h : Legible k s qs) {retained : Bool} {topic payload : List Byte}
    (hwritten : s'.client.written =
      s.client.written ++ (ControlPacket.publish retained topic payload).encode)
    (htopic : topic.length < 2^16) (hlen : payload.length + 2 + topic.length < 2^28)
    (hconfirmed : s'.confirmed = s.confirmed ++ [⟨retained, topic, payload⟩])
    (hlive : s'.client.Live) : ∃ qs', Legible k s' qs' := by
  have hvalid : ∀ q ∈ [ControlPacket.publish retained topic payload], q.Valid := by
    intro q hq
    obtain rfl := List.mem_singleton.mp hq
    refine ⟨fun t ht => ?_, ?_⟩
    · obtain rfl := List.mem_singleton.mp ht
      exact htopic
    · simp only [ControlPacket.body, List.length_append, lengthPrefixed_length, maxBody]
      omega
  refine ⟨_, h.append ?_ hvalid (List.forall_mem_singleton.mpr rfl) hconfirmed hlive.settled⟩
  rw [hwritten]
  exact congrArg _ (List.append_nil _).symm

/-- A call that found the connection closed. -/
theorem Legible.refused {k : Connect} {s : Session bufferSize} {qs : List ControlPacket}
    (h : Legible k s qs) : Legible k { s with client := s.client.connected.2 } qs := by
  have hemits := s.client.emits_connected
  have hnone : qs = qs ++ [] := (List.append_nil qs).symm
  rw [hnone]
  exact h.append hemits.written hemits.valid hemits.later (List.append_nil _).symm
    (hemits.settled h.settled)

theorem Legible.step {k : Connect} {s s' : Session bufferSize} {qs : List ControlPacket}
    (h : Legible k s qs) {e : StreamedEvent} (hwhole : e.Whole bufferSize.toNat)
    (hstep : s.streamedStep e = some s') : ∃ qs', Legible k s' qs' := by
  have hsize := bufferSize.isLt
  cases e with
  | call e =>
    obtain ⟨qs', hemits, hconfirmed⟩ := step_emits hstep hwhole
    exact ⟨_, h.append hemits.written hemits.valid hemits.later hconfirmed
      (hemits.settled h.settled)⟩
  | publishP now rooms topic payload retained =>
    obtain ⟨hrooms, hlen⟩ := hwhole
    obtain ⟨⟨r, c'⟩, hcall, rfl⟩ := Option.map_eq_some_iff.mp hstep
    obtain ⟨b, hspec⟩ := s.client.publishP_spec now hrooms topic hlen retained
    rw [hcall] at hspec
    split at hspec
    · obtain ⟨rfl, rfl⟩ := Prod.mk.inj (Option.some.inj hspec)
      exact ⟨qs, h.refused⟩
    · rename_i hlive
      split at hspec
      · rename_i hfit
        obtain ⟨rfl, rfl⟩ := Prod.mk.inj (Option.some.inj hspec)
        rw [PubSubClient.publishHead_length] at hfit
        exact h.publication rfl (by omega) hlen rfl (not_not.mp hlive)
      · cases hspec
  | streamed now room topic retained writes =>
    obtain ⟨hroom, hwrites, hlen⟩ := hwhole
    obtain ⟨⟨r, c'⟩, hcall, rfl⟩ := Option.map_eq_some_iff.mp hstep
    by_cases hlive : s.client.Live
    · obtain ⟨hfit, rfl, hall, hwritten, hstill⟩ :=
        PubSubClient.streamed_written hlive hroom hcall hwrites
      rw [Nat.mod_eq_of_lt hlen, publishHead_append] at hwritten
      refine h.publication hwritten (by omega) (by omega) ?_ hstill
      dsimp only
      rw [hall]
      rfl
    · obtain ⟨b, hspec⟩ := s.client.beginPublish_spec now room topic
        (PubSubClient.payloadOf writes).length retained
      dsimp only at hspec
      rw [if_pos hlive, hcall] at hspec
      obtain ⟨rfl, rfl⟩ := Prod.mk.inj (Option.some.inj hspec)
      exact ⟨qs, h.refused⟩

/-- Whatever way its user publishes, the stream of a session reads as its CONNECT and then whole
packets, and the publications among them are the confirmed ones, once and in their order. -/
theorem streamed_session (hsize : 15 ≤ bufferSize.toNat) {c c' : PubSubClient bufferSize}
    (hdown : c.up = false) {a : ConnectAnswers} (hroom : bufferSize.toNat ≤ a.room) {id : List Byte}
    {user pass : Option (List Byte)} {will : Option WillArgs}
    (hqos : ∀ w ∈ will, w.willQos.toNat < 4) {cleanSession : Bool}
    (hconnect : c.connect a id user pass will cleanSession = some (true, c'))
    {es : List StreamedEvent} (hwhole : ∀ e ∈ es, e.Whole bufferSize.toNat) {s : Session bufferSize}
    (hrun : run streamedStep ⟨c', [], []⟩ es = some s) :
    ∃ qs, ControlPacket.code.readAll s.client.written =
        some (.connect (connectPacket c.keepAlive id user pass will cleanSession) :: qs) ∧
      (∀ q ∈ qs, q.isConnect = false) ∧ qs.filterMap ControlPacket.posting = s.confirmed := by
  obtain ⟨hopened, hfits⟩ := opened_onWire hsize hdown hroom hqos hconnect
  obtain ⟨qs, hqs⟩ := run_invariant streamedStep (StreamedEvent.Whole bufferSize.toNat)
    (fun s => ∃ qs, Legible (connectPacket c.keepAlive id user pass will cleanSession) s qs)
    (fun s e s' hw hinv hstep => hinv.elim fun _ h => h.step hw hstep) ⟨[], hopened.legible⟩ hwhole hrun
  refine ⟨qs, ?_, hqs.later, hqs.postings⟩
  rw [hqs.written]
  exact ControlPacket.code.readAll_encodeAll _
    (List.forall_mem_cons.mpr ⟨connect_valid bufferSize.isLt hfits, hqs.valid⟩)

/-- A payload longer than the buffer, then a streamed one in two writes. -/
def longEvents : List StreamedEvent :=
  [.publishP 2000 (fun _ => 64) (ascii "t") (List.replicate 40 7) false,
    .call (.publish 3000 64 (ascii "t") [1] false),
    .streamed 4000 64 (ascii "t") true [⟨4001, 64, List.replicate 30 1⟩, ⟨4002, 64, List.replicate 30 2⟩]]

private theorem longEvents_whole : ∀ e ∈ longEvents, e.Whole (32 : BitVec 16).toNat := by
  intro e he
  simp only [longEvents, List.mem_cons, List.not_mem_nil, or_false] at he
  rcases he with rfl | rfl | rfl
  · refine ⟨fun _ => ⟨?_, ?_⟩, by decide⟩
    · change (32 : BitVec 16).toNat ≤ 64
      decide
    · change 1 ≤ 64
      decide
  · change (32 : BitVec 16).toNat ≤ 64
    decide
  · exact ⟨by decide, by decide, by decide⟩

def longEnd : Session 32 :=
  (run streamedStep ⟨PubSubClient.agreed, [], []⟩ longEvents).getD ⟨PubSubClient.agreed, [], []⟩

private theorem long_run : run streamedStep ⟨PubSubClient.agreed, [], []⟩ longEvents = some longEnd := rfl

theorem streamed_session_long : ∃ qs, ControlPacket.code.readAll longEnd.client.written =
      some (.connect (connectPacket 15 (ascii "g") none none none true) :: qs) ∧
    (∀ q ∈ qs, q.isConnect = false) ∧
    qs.filterMap ControlPacket.posting = [⟨false, ascii "t", List.replicate 40 7⟩,
      ⟨false, ascii "t", [1]⟩, ⟨true, ascii "t", List.replicate 30 1 ++ List.replicate 30 2⟩] :=
  streamed_session (by decide) rfl (by decide) (fun w hw => absurd hw (Option.not_mem_none w))
    PubSubClient.connect_agreed longEvents_whole long_run

end Session
end EspNowGateway.Mqtt
