import EspNowGateway.Mqtt.Delivery

/-! Calls that leave the buffer. The length of a topic in a publication is compared neither with
the packet nor with the buffer, and one length of topic passes the check of `subscribe` though its
packet does not fit. -/
namespace EspNowGateway.Mqtt
open ByteLayout CArray HeapBlock

namespace StreamPacket

/-- The length that the first two bytes of the body declare. -/
def declared (p : StreamPacket) : Nat :=
  match p.body with
  | hi :: lo :: _ => hi.toNat * 256 + lo.toNat
  | _ => 0

/-- Where the payload of a publication begins by its declared length. -/
def reach (p : StreamPacket) : Nat :=
  p.digits.length + 3 + p.declared + if p.header &&& 0x06 = mqttQos1 then 2 else 0

theorem bytes_drop (p : StreamPacket) (hbody : 2 ≤ p.body.length) (behind : List Byte) :
    (p.bytes ++ behind).drop (p.digits.length + 3) = p.body.drop 2 ++ behind := by
  have hbytes : p.bytes ++ behind = (p.header :: p.digits) ++ (p.body ++ behind) :=
    List.append_assoc (p.header :: p.digits) p.body behind
  have hplace : p.digits.length + 3 - (p.header :: p.digits).length = 2 := by
    rw [List.length_cons]
    omega
  rw [hbytes, List.drop_append, hplace, List.drop_append_of_le_length hbody,
    List.drop_eq_nil_of_le (by rw [List.length_cons]; omega), List.nil_append]

/-- The message that is cut by the declared lengths out of the packet and the bytes behind it. A
payload that begins behind the packet's end is none in memory: its length is almost 2^32. -/
def cut (p : StreamPacket) (behind : List Byte) : Message where
  topic := upToNul ((p.body.drop 2 ++ behind).take p.declared)
  payload := if p.reach ≤ p.bytes.length then some (p.bytes.drop p.reach) else none

end StreamPacket

section Block
variable {n : Nat}

private theorem load_inside (buf : Vector Byte n) {i : Nat} (h : i < n) : ∃ b, load buf i = some b :=
  ⟨_, Vector.getElem?_eq_getElem h⟩

private theorem load_outside (buf : Vector Byte n) {i : Nat} (h : n ≤ i) : load buf i = none :=
  Vector.getElem?_eq_none h

/-- A negative length becomes one of almost 2^32. -/
private theorem payloadAt_outside (buf : Vector Byte n) (hn : n < 2^16) {pos stop : Nat}
    (hpos : pos ≤ n) (hlt : stop < pos) {length : Int} (hlength : length = (stop : Int) - pos) :
    payloadAt buf pos length = none := by
  have hnat : (BitVec.ofInt 32 length).toNat = 2^32 - (pos - stop) := by
    rw [BitVec.toNat_ofInt]
    omega
  rw [payloadAt, hnat]
  exact slice_eq_none (by omega)

/-- What the payload is, by the declared lengths. -/
private theorem payloadAt_rest {buf : Vector Byte n} (hn : n < 2^16) {bytes : List Byte}
    (hfit : bytes.length ≤ n) {pos : Nat} (hpos : pos ≤ n) (hheld : Holds buf pos (bytes.drop pos))
    {length : Int} (hlength : length = (bytes.length : Int) - pos) :
    payloadAt buf pos length = if pos ≤ bytes.length then some (bytes.drop pos) else none := by
  split
  · refine payloadAt_eq hheld ?_ (by omega) ?_
    · rw [List.length_drop]
      omega
    · rw [hlength, List.length_drop]
      omega
  · rename_i hnot
    exact payloadAt_outside buf hn hpos (Nat.lt_of_not_le hnot) hlength

end Block

namespace PubSubClient
variable {bufferSize : BitVec 16}

/-- The fields that are looked at before the payload. -/
private theorem handlePublish_fields {p : StreamPacket} {hi lo : Byte} {tail : List Byte}
    (hbody : p.body = hi :: lo :: tail) {buffer : Vector Byte bufferSize.toNat}
    (hheld : Holds buffer 0 p.bytes) :
    load buffer (p.digits.length + 1) = some hi ∧ load buffer (p.digits.length + 2) = some lo ∧
      Holds buffer 0 [p.header] := by
  have hempty : p.body = hi :: lo :: ([] ++ tail) := hbody
  obtain ⟨hheader, hhi, hlo, -⟩ := publish_places hempty hheld
  exact ⟨hhi.load, hlo.load, hheader⟩

/-- A publication in the buffer leads out of it exactly when its declared lengths do; otherwise the
callback is given what they cut out. -/
theorem handlePublish_declared {p : StreamPacket} (hpublish : p.header &&& 0xF0 = mqttPublish)
    (hfit : p.bytes.length ≤ bufferSize.toNat) (c : PubSubClient bufferSize)
    (hheld : Holds c.buffer 0 p.bytes) (t : BitVec 32) (room : Nat) :
    (bufferSize.toNat < p.reach →
      c.handlePublish t room p.bytes.length p.digits.length = none) ∧
    (p.reach ≤ bufferSize.toNat →
      ∃ c', c.handlePublish t room p.bytes.length p.digits.length =
        some ([p.cut (c.buffer.toList.drop p.bytes.length)], c')) := by
  have hn := bufferSize.isLt
  have htwo : 2 ≤ p.body.length := by
    have hwhole := p.whole
    rw [if_pos hpublish] at hwhole
    omega
  obtain ⟨hi, lo, tail, hbody⟩ : ∃ hi lo tail, p.body = hi :: lo :: tail := by
    match hb : p.body, htwo with
    | hi :: lo :: tail, _ => exact ⟨hi, lo, tail, rfl⟩
  have hdeclared : p.declared = hi.toNat * 256 + lo.toNat := by
    rw [StreamPacket.declared, hbody]
  have hlen := p.bytes_length
  obtain ⟨hhi, hlo, hheader⟩ := handlePublish_fields hbody hheld
  have hbehind : c.buffer.toList.drop (p.digits.length + 3) =
      p.body.drop 2 ++ c.buffer.toList.drop p.bytes.length := by
    conv_lhs => rw [hheld.toList hfit]
    exact p.bytes_drop htwo _
  rw [handlePublish, StreamPacket.cut, StreamPacket.reach, hdeclared]
  simp only [hhi, hlo, Option.bind_eq_bind, Option.bind_some]
  generalize hi.toNat * 256 + lo.toNat = tl
  rcases Nat.lt_or_ge bufferSize.toNat (p.digits.length + 3 + tl) with hlong | htopic
  · have hnone : slice c.buffer (p.digits.length + 3) tl = none := slice_eq_none hlong
    refine ⟨fun _ => ?_, fun hle => ?_⟩
    · rw [hnone]
      rfl
    · split at hle
      · omega
      · omega
  have hslice : slice c.buffer (p.digits.length + 3) tl =
      some ((p.body.drop 2 ++ c.buffer.toList.drop p.bytes.length).take tl) := by
    rw [slice, if_pos htopic, hbehind]
  have htl : ((p.body.drop 2 ++ c.buffer.toList.drop p.bytes.length).take tl).length = tl := by
    rw [← hbehind, List.length_take, List.length_drop, Vector.length_toList]
    omega
  generalize (p.body.drop 2 ++ c.buffer.toList.drop p.bytes.length).take tl = topic at hslice htl ⊢
  subst htl
  obtain ⟨buffer₁, buffer₂, h₁, h₂, hframe⟩ :=
    moveTopic_ok topic (i := p.digits.length + 2) c.buffer (by omega)
  have hheader₂ : load buffer₂ 0 = some p.header := (hframe _ _ hheader (by simp)).load
  -- the topic's end is written right before the place where the rest of the packet lies
  have hrest {pos : Nat} (hpos : p.digits.length + 3 + topic.length ≤ pos) :
      Holds buffer₂ pos (p.bytes.drop pos) :=
    hframe _ _ ((hheld.drop pos).move (Nat.zero_add pos)) (Or.inl (by omega))
  simp only [hslice, h₁, h₂, hheader₂, Option.bind_some]
  by_cases hqos : p.header &&& 0x06 = mqttQos1
  · simp only [if_pos hqos]
    rcases Nat.lt_or_ge bufferSize.toNat (p.digits.length + 3 + topic.length + 2) with hlong | hid
    · refine ⟨fun _ => ?_, fun hle => absurd hle (Nat.not_le_of_lt hlong)⟩
      have hlow : load buffer₂ (p.digits.length + 3 + topic.length + 1) = none :=
        load_outside _ (by omega)
      rw [hlow]
      cases load buffer₂ (p.digits.length + 3 + topic.length) with
      | none => rfl
      | some b => rfl
    · refine ⟨fun hlt => absurd hid (Nat.not_le_of_lt hlt), fun _ => ?_⟩
      obtain ⟨idHi, hhigh⟩ := load_inside buffer₂
        (by omega : p.digits.length + 3 + topic.length < bufferSize.toNat)
      obtain ⟨idLo, hlow⟩ := load_inside buffer₂
        (by omega : p.digits.length + 3 + topic.length + 1 < bufferSize.toNat)
      obtain ⟨buffer₃, buffer₄, buffer₅, buffer₆, h₃, h₄, h₅, h₆, hout⟩ :=
        puback_ok (.ofNat 16 (idHi.toNat * 256 + idLo.toNat)) buffer₂ (by omega)
      have hlength : (p.bytes.length - p.digits.length - 3 - topic.length - 2 : Int) =
          p.bytes.length - ((p.digits.length + 3 + topic.length + 2 : Nat) : Int) := by omega
      have hpayload := payloadAt_rest hn hfit hid (hrest (Nat.le_add_right _ 2)) hlength
      simp only [hhigh, hlow, h₃, h₄, h₅, h₆, hout, Option.bind_some, hpayload]
      exact ⟨_, rfl⟩
  · simp only [if_neg hqos, Nat.add_zero]
    have hlength : (p.bytes.length - p.digits.length - 3 - topic.length : Int) =
        p.bytes.length - ((p.digits.length + 3 + topic.length : Nat) : Int) := by omega
    rw [payloadAt_rest hn hfit htopic (hrest (Nat.le_refl _)) hlength]
    exact ⟨fun hlt => absurd htopic (Nat.not_le_of_lt hlt), fun _ => ⟨_, rfl⟩⟩

/-- The call of `loop` that reads a publication handles it, with the buffer's old bytes behind
it. -/
private theorem loop_handlePublish (hsize : 7 ≤ bufferSize.toNat) {p : StreamPacket}
    (hpublish : p.header &&& 0xF0 = mqttPublish) (hfit : p.bytes.length ≤ bufferSize.toNat)
    {c : PubSubClient bufferSize} (hlive : c.Live) {rest : List (Option Byte)}
    (hun : c.unread = p.bytes.map some ++ rest) {t : BitVec 32} (halive : ¬ c.TimedOut t)
    (room : Nat) :
    ∃ c₁ : PubSubClient bufferSize, Holds c₁.buffer 0 p.bytes ∧
      c₁.buffer.toList.drop p.bytes.length = c.buffer.toList.drop p.bytes.length ∧ c.loop t room = (c₁.handlePublish t room p.bytes.length p.digits.length).map
        fun r => (true, r.1, r.2) := by
  obtain ⟨c₁, hcheck, hsame, -, hping⟩ := checkKeepAlive_alive (by omega) hlive.1 halive room
  obtain ⟨buffer', hheld, hkept, hreceive⟩ :=
    receive_fits hsize hfit (hsame.unread.trans hun) t room
  have hdigits := List.length_pos_of_ne_nil p.numeral.ne_nil
  have hbehind := ((hping.mono (by rw [p.bytes_length]; omega)).trans hkept).drop
  have hload : load buffer' 0 = some p.header := Holds.load hheld
  refine ⟨{ c₁ with buffer := buffer', unread := rest, lastInActivity := t }, hheld, hbehind, ?_⟩
  simp only [loop, connected_of_live hlive, if_true, hcheck, Option.bind_eq_bind, Option.bind_some,
    hreceive, handlePacket, hload, if_pos hpublish]

/-- A call of `loop` on a publication that fits the buffer leaves the buffer exactly when the
declared lengths do; otherwise the callback is given what they cut out of the packet and of what
the buffer has held behind it. -/
theorem loop_declared (hsize : 7 ≤ bufferSize.toNat) {p : StreamPacket}
    (hpublish : p.header &&& 0xF0 = mqttPublish) (hfit : p.bytes.length ≤ bufferSize.toNat)
    {c : PubSubClient bufferSize} (hlive : c.Live) {u : List (Option Byte)}
    (hun : c.unread = p.bytes.map some ++ u) {t : BitVec 32} (halive : ¬ c.TimedOut t)
    (room : Nat) :
    (c.loop t room = none ↔ bufferSize.toNat < p.reach) ∧
      ∀ r ms c', c.loop t room = some (r, ms, c') →
        r = true ∧ ms = [p.cut (c.buffer.toList.drop p.bytes.length)] := by
  obtain ⟨c₁, hheld, hbehind, hloop⟩ := loop_handlePublish hsize hpublish hfit hlive hun halive room
  obtain ⟨houtside, hinside⟩ := handlePublish_declared hpublish hfit c₁ hheld t room
  rw [hloop]
  rcases Nat.lt_or_ge bufferSize.toNat p.reach with hlt | hge
  · rw [houtside hlt]
    exact ⟨iff_of_true rfl hlt, fun r ms c' h => by cases h⟩
  · obtain ⟨c', hcall⟩ := hinside hge
    rw [hcall, hbehind]
    refine ⟨iff_of_false (Option.some_ne_none _) (Nat.not_lt.mpr hge), fun r ms c'' h => ?_⟩
    obtain ⟨rfl, hrest⟩ := Prod.mk.inj (Option.some.inj h)
    obtain ⟨rfl, -⟩ := Prod.mk.inj hrest
    exact ⟨rfl, rfl⟩

/-- A publication of four bytes that declares a topic of five. -/
private def declaresMore : StreamPacket where
  header := 0x30
  digits := [2]
  body := [0, 5]
  numeral := StreamPacket.numeral_two
  short := StreamPacket.short_two
  whole := by decide

private def declaresMoreClient : PubSubClient 16 :=
  ⟨Vector.replicate _ 7, 15, 1, 0, 0, false, mqttConnected, true, declaresMore.bytes.map some, []⟩

theorem loop_declared_more : (declaresMoreClient.loop 5 9 = none ↔ 16 < 9) ∧
    ∀ r ms c', declaresMoreClient.loop 5 9 = some (r, ms, c') →
      r = true ∧ ms = [⟨[7, 7, 7, 7, 7], none⟩] :=
  loop_declared (by decide) (p := declaresMore) (by decide) (by decide) ⟨rfl, rfl⟩
    (u := []) rfl (fun h => Bool.false_ne_true h.2) 9

/-- Of the calls that send, only `subscribe` can leave the buffer, with one length of topic. -/
theorem subscribe_leaves_iff (c : PubSubClient bufferSize) (now : BitVec 32) (room : Nat)
    (topic : List Byte) (qos : Byte) :
    c.subscribe now room topic qos = none ↔
      c.Live ∧ qos.toNat ≤ 1 ∧ bufferSize.toNat = 9 + (upToNul topic).length := by
  obtain ⟨buffer', hspec⟩ := subscribe_spec c now room topic qos
  rw [hspec]
  split
  · rename_i hcheck
    refine iff_of_false (Option.some_ne_none _) fun h => ?_
    omega
  · split
    · rename_i hdead
      exact iff_of_false (Option.some_ne_none _) fun h => hdead h.1
    · rename_i hcheck hlive
      split
      · rename_i hfull
        exact iff_of_true rfl ⟨Classical.not_not.mp hlive, by omega, hfull⟩
      · rename_i hnot
        exact iff_of_false (Option.some_ne_none _) fun h => hnot h.2.2

end PubSubClient
end EspNowGateway.Mqtt
