import EspNowGateway.Foundations.Base128
import EspNowGateway.Foundations.StreamCode
import EspNowGateway.Foundations.CArray

/-! What the client's packets mean: the control packets of the protocol as values, the bytes
they stand for and the reading of these bytes. -/
namespace EspNowGateway.Mqtt
open ByteLayout CArray StreamCode

/-- Most significant byte first. -/
def be16 (x : BitVec 16) : List Byte := [(x >>> 8).setWidth 8, x.setWidth 8]

def fromBe16 (hi lo : Byte) : Nat := hi.toNat * 256 + lo.toNat

/-- A text behind its length. -/
def lengthPrefixed (t : List Byte) : List Byte := be16 (BitVec.ofNat 16 t.length) ++ t

/-- A control packet: its first byte, the length of its body and the body. -/
def frame (header : Byte) (body : List Byte) : List Byte :=
  header :: (Base128.encode 4 body.length ++ body)

/-- The limit that four length digits set. -/
def maxBody : Nat := 2^28

structure Will where
  topic : List Byte
  message : List Byte
  qos : BitVec 2
  retain : Bool
  deriving DecidableEq, Repr

/-- A password goes with a user name only. -/
structure Login where
  user : List Byte
  pass : Option (List Byte)
  deriving DecidableEq, Repr

structure Connect where
  id : List Byte
  login : Option Login
  will : Option Will
  cleanSession : Bool
  keepAlive : BitVec 16
  deriving DecidableEq, Repr

inductive ControlPacket where
  | connect (c : Connect)
  | publish (retained : Bool) (topic payload : List Byte)
  | puback (id : BitVec 16)
  | subscribe (id : BitVec 16) (topic : List Byte) (qos : Byte)
  | unsubscribe (id : BitVec 16) (topic : List Byte)
  | pingreq
  | pingresp
  | disconnect
  deriving DecidableEq, Repr

/-- The protocol's name and its level. -/
def protocolHead : List Byte := lengthPrefixed (ascii "MQTT") ++ [4]

namespace Connect

/-- The flags byte; its bits 3 and 4 are the will's level. -/
def flagBits (will : Bool) (qos : BitVec 2) (retain clean user pass : Bool) : Byte :=
  (if will then (0x04 : Byte) else 0) ||| (qos.setWidth 8 <<< 3) ||| (if retain then 0x20 else 0) |||
    (if clean then 0x02 else 0) ||| (if user then 0x80 else 0) ||| (if pass then 0x40 else 0)

def flags (c : Connect) : Byte :=
  flagBits c.will.isSome (c.will.elim 0 Will.qos) (c.will.elim false Will.retain) c.cleanSession
    c.login.isSome (c.login.bind Login.pass).isSome

/-- The texts of the packet, in their order. -/
def texts (c : Connect) : List (List Byte) :=
  [c.id] ++ (c.will.toList.flatMap fun w => [w.topic, w.message]) ++
    c.login.toList.flatMap fun l => l.user :: l.pass.toList

def body (c : Connect) : List Byte :=
  protocolHead ++ [c.flags] ++ be16 c.keepAlive ++ c.texts.flatMap lengthPrefixed

end Connect

namespace ControlPacket

def header : ControlPacket → Byte
  | connect _ => 0x10
  | publish retained _ _ => if retained then 0x31 else 0x30
  | puback _ => 0x40
  | subscribe _ _ _ => 0x82
  | unsubscribe _ _ => 0xA2
  | pingreq => 0xC0
  | pingresp => 0xD0
  | disconnect => 0xE0

def body : ControlPacket → List Byte
  | connect c => c.body
  | publish _ topic payload => lengthPrefixed topic ++ payload
  | puback id => be16 id
  | subscribe id topic qos => be16 id ++ lengthPrefixed topic ++ [qos]
  | unsubscribe id topic => be16 id ++ lengthPrefixed topic
  | pingreq => []
  | pingresp => []
  | disconnect => []

def texts : ControlPacket → List (List Byte)
  | connect c => c.texts
  | publish _ topic _ => [topic]
  | subscribe _ topic _ => [topic]
  | unsubscribe _ topic => [topic]
  | _ => []

def encode (p : ControlPacket) : List Byte := frame p.header p.body

/-- Each length fits its field. -/
structure Valid (p : ControlPacket) : Prop where
  texts : ∀ t ∈ p.texts, t.length < 2^16
  body : p.body.length < maxBody

end ControlPacket

/-- The text in front. -/
def takeText : List Byte → Option (List Byte × List Byte)
  | hi :: lo :: bs =>
    let k := fromBe16 hi lo
    if k ≤ bs.length then some (bs.take k, bs.drop k) else none
  | _ => none

def takeId : List Byte → Option (BitVec 16 × List Byte)
  | hi :: lo :: bs => some (BitVec.ofNat 16 (fromBe16 hi lo), bs)
  | _ => none

/-- The text in front, if the packet has it. -/
def takeTextIf (present : Bool) (bs : List Byte) : Option (Option (List Byte) × List Byte) :=
  if present then (takeText bs).map fun r => (some r.1, r.2) else some (none, bs)

/-- First byte and body of the packet in front. -/
def takeFrame : List Byte → Option ((Byte × List Byte) × List Byte)
  | [] => none
  | header :: bs => do
    let (ds, bs) ← Base128.split 4 bs
    let k := Base128.value ds
    if k ≤ bs.length then some ((header, bs.take k), bs.drop k) else none

def readConnect (bs : List Byte) : Option Connect := do
  let (name, bs) ← takeText bs
  match bs with
  | level :: flags :: bs =>
    let (keepAlive, bs) ← takeId bs
    let (id, bs) ← takeText bs
    let (willTopic, bs) ← takeTextIf (flags.getLsbD 2) bs
    let (willMessage, bs) ← takeTextIf (flags.getLsbD 2) bs
    let (user, bs) ← takeTextIf (flags.getLsbD 7) bs
    let (pass, bs) ← takeTextIf (flags.getLsbD 6) bs
    if name = ascii "MQTT" ∧ level = 4 ∧ bs = [] then
      some {
        id := id
        login := user.map fun u => ⟨u, pass⟩
        will := willTopic.bind fun t => willMessage.map fun m =>
          ⟨t, m, (flags >>> 3).setWidth 2, flags.getLsbD 5⟩
        cleanSession := flags.getLsbD 1
        keepAlive := keepAlive }
    else none
  | _ => none

namespace ControlPacket

/-- The packet with the given first byte and body. -/
def ofFrame (header : Byte) (body : List Byte) : Option ControlPacket :=
  if header = 0x10 then (readConnect body).map connect
  else if header = 0x30 ∨ header = 0x31 then
    (takeText body).map fun r => publish (header = 0x31) r.1 r.2
  else if header = 0x40 then (takeId body).map fun r => puback r.1
  else if header = 0x82 then do
    let (id, bs) ← takeId body
    let (topic, bs) ← takeText bs
    let qos ← bs.head?
    some (subscribe id topic qos)
  else if header = 0xA2 then do
    let (id, bs) ← takeId body
    let (topic, _) ← takeText bs
    some (unsubscribe id topic)
  else if header = 0xC0 then some pingreq
  else if header = 0xD0 then some pingresp
  else if header = 0xE0 then some disconnect
  else none

def decode (bs : List Byte) : Option (ControlPacket × List Byte) := do
  let ((header, body), rest) ← takeFrame bs
  let p ← ofFrame header body
  some (p, rest)

end ControlPacket

theorem fromBe16_be16 (x : BitVec 16) :
    fromBe16 ((x >>> 8).setWidth 8) (x.setWidth 8) = x.toNat := by
  have hx := x.isLt
  rw [fromBe16, BitVec.toNat_setWidth, BitVec.toNat_setWidth, BitVec.toNat_ushiftRight,
    Nat.shiftRight_eq_div_pow]
  omega

@[simp] theorem be16_length (x : BitVec 16) : (be16 x).length = 2 := rfl

@[simp] theorem lengthPrefixed_length (t : List Byte) : (lengthPrefixed t).length = t.length + 2 := by
  rw [lengthPrefixed, List.length_append, be16_length, Nat.add_comm]

theorem takeId_be16 (x : BitVec 16) (rest : List Byte) : takeId (be16 x ++ rest) = some (x, rest) := by
  rw [be16, List.cons_append, List.cons_append, List.nil_append, takeId, fromBe16_be16,
    BitVec.ofNat_toNat, BitVec.setWidth_eq]

theorem takeText_lengthPrefixed {t : List Byte} (h : t.length < 2^16) (rest : List Byte) :
    takeText (lengthPrefixed t ++ rest) = some (t, rest) := by
  have hk : (BitVec.ofNat 16 t.length).toNat = t.length := by
    rw [BitVec.toNat_ofNat, Nat.mod_eq_of_lt h]
  simp only [lengthPrefixed, be16, List.cons_append, List.nil_append, takeText, fromBe16_be16, hk]
  rw [if_pos (by simp), List.take_left, List.drop_left]

/-- A packet of any first byte and body is found in front of a stream. -/
theorem takeFrame_frame (header : Byte) {body : List Byte} (h : body.length < maxBody)
    (rest : List Byte) : takeFrame (frame header body ++ rest) = some ((header, body), rest) := by
  obtain ⟨hnum, hval, hlen⟩ := Base128.encode_spec 3 body.length h
  rw [frame, List.cons_append, takeFrame, List.append_assoc, Base128.split_append hnum hlen]
  simp only [Option.bind_eq_bind, Option.bind_some, hval]
  rw [if_pos (by simp), List.take_left, List.drop_left]

theorem takeTextIf_true {t : List Byte} (h : t.length < 2^16) (rest : List Byte) :
    takeTextIf true (lengthPrefixed t ++ rest) = some (some t, rest) := by
  rw [takeTextIf, if_pos rfl, takeText_lengthPrefixed h]
  rfl

namespace Connect

/-- Every flag is read back. -/
private theorem flagBits_read : ∀ (will : Bool) (qos : BitVec 2) (retain clean user pass : Bool),
    (flagBits will qos retain clean user pass).getLsbD 2 = will ∧
      (flagBits will qos retain clean user pass >>> 3).setWidth 2 = qos ∧
      (flagBits will qos retain clean user pass).getLsbD 5 = retain ∧
      (flagBits will qos retain clean user pass).getLsbD 1 = clean ∧
      (flagBits will qos retain clean user pass).getLsbD 7 = user ∧
      (flagBits will qos retain clean user pass).getLsbD 6 = pass := by decide

private theorem takeTextIf_option {t : Option (List Byte)} {present : Bool}
    (hpresent : present = t.isSome) (h : ∀ s ∈ t, s.length < 2^16) (rest : List Byte) :
    takeTextIf present (t.toList.flatMap lengthPrefixed ++ rest) = some (t, rest) := by
  subst hpresent
  cases t with
  | none => rfl
  | some s =>
    rw [Option.toList_some, List.flatMap_singleton]
    exact takeTextIf_true (h s rfl) rest

/-- The texts, each of them there or not. -/
private theorem texts_eq (c : Connect) : c.texts.flatMap lengthPrefixed = lengthPrefixed c.id ++
    ((c.will.map Will.topic).toList.flatMap lengthPrefixed ++
      ((c.will.map Will.message).toList.flatMap lengthPrefixed ++
        ((c.login.map Login.user).toList.flatMap lengthPrefixed ++
          ((c.login.bind Login.pass).toList.flatMap lengthPrefixed ++ [])))) := by
  obtain ⟨id, login, will, clean, keepAlive⟩ := c
  cases will <;> rcases login with _ | ⟨user, _ | pass⟩ <;> simp [texts]

theorem readConnect_body {c : Connect} (h : ∀ t ∈ c.texts, t.length < 2^16) :
    readConnect c.body = some c := by
  obtain ⟨hwill, hqos, hretain, hclean, huser, hpass⟩ := flagBits_read c.will.isSome
    (c.will.elim 0 Will.qos) (c.will.elim false Will.retain) c.cleanSession c.login.isSome
    (c.login.bind Login.pass).isSome
  have hid : c.id.length < 2^16 := h _ (by simp [texts])
  have htopic : ∀ s ∈ c.will.map Will.topic, s.length < 2^16 := by
    intro s hs
    obtain ⟨w, hw, rfl⟩ := Option.map_eq_some_iff.mp hs
    exact h _ (by simp [texts, hw])
  have hmessage : ∀ s ∈ c.will.map Will.message, s.length < 2^16 := by
    intro s hs
    obtain ⟨w, hw, rfl⟩ := Option.map_eq_some_iff.mp hs
    exact h _ (by simp [texts, hw])
  have hname : ∀ s ∈ c.login.map Login.user, s.length < 2^16 := by
    intro s hs
    obtain ⟨l, hl, rfl⟩ := Option.map_eq_some_iff.mp hs
    exact h _ (by simp [texts, hl])
  have hpassword : ∀ s ∈ c.login.bind Login.pass, s.length < 2^16 := by
    intro s hs
    obtain ⟨l, hl, hp⟩ := Option.bind_eq_some_iff.mp hs
    exact h _ (by simp [texts, hl, hp])
  have hhead : c.body = lengthPrefixed (ascii "MQTT") ++
      (4 :: c.flags :: (be16 c.keepAlive ++ c.texts.flatMap lengthPrefixed)) := by
    simp only [body, protocolHead, List.append_assoc, List.cons_append, List.nil_append]
  rw [hhead, readConnect, takeText_lengthPrefixed (by decide)]
  simp only [Option.bind_eq_bind, Option.bind_some]
  rw [takeId_be16, Option.bind_some, texts_eq, takeText_lengthPrefixed hid, Option.bind_some]
  rw [flags, hwill, huser, hpass]
  rw [takeTextIf_option (Option.isSome_map ..).symm htopic, Option.bind_some,
    takeTextIf_option (Option.isSome_map ..).symm hmessage, Option.bind_some,
    takeTextIf_option (Option.isSome_map ..).symm hname, Option.bind_some,
    takeTextIf_option rfl hpassword, Option.bind_some, if_pos (by simp)]
  dsimp only
  rw [hqos, hretain, hclean]
  obtain ⟨id, login, will, clean, keepAlive⟩ := c
  cases will <;> cases login <;> rfl

end Connect

namespace ControlPacket

private theorem ofFrame_eq {p : ControlPacket} (h : ∀ t ∈ p.texts, t.length < 2^16) :
    ofFrame p.header p.body = some p := by
  cases p with
  | connect c =>
    change (readConnect c.body).map connect = _
    rw [Connect.readConnect_body h]
    rfl
  | publish retained topic payload =>
    have htopic := takeText_lengthPrefixed (h topic (by simp [texts])) payload
    cases retained
    · change (takeText (lengthPrefixed topic ++ payload)).map _ = _
      rw [htopic]
      rfl
    · change (takeText (lengthPrefixed topic ++ payload)).map _ = _
      rw [htopic]
      rfl
  | puback id =>
    have hid := takeId_be16 id []
    rw [List.append_nil] at hid
    simp [ofFrame, header, body, hid]
  | subscribe id topic qos =>
    have hid := takeId_be16 id (lengthPrefixed topic ++ [qos])
    have htopic := takeText_lengthPrefixed (h topic (by simp [texts])) [qos]
    simp [ofFrame, header, body, hid, htopic]
  | unsubscribe id topic =>
    have hid := takeId_be16 id (lengthPrefixed topic)
    have htopic := takeText_lengthPrefixed (h topic (by simp [texts])) []
    rw [List.append_nil] at htopic
    simp [ofFrame, header, body, hid, htopic]
  | pingreq => rfl
  | pingresp => rfl
  | disconnect => rfl

/-- The packet in front of a stream is read back. -/
theorem decode_encode (p : ControlPacket) (hp : p.Valid) (rest : List Byte) :
    decode (p.encode ++ rest) = some (p, rest) := by
  rw [decode, encode, takeFrame_frame _ hp.body]
  simp only [Option.bind_eq_bind, Option.bind_some]
  rw [ofFrame_eq hp.texts, Option.bind_some]

/-- Control packets need no separators. -/
def code : Code ControlPacket Byte where
  encode := encode
  decode := decode
  Valid := Valid
  encode_ne_nil _ := List.cons_ne_nil _ _
  decode_encode := decode_encode

end ControlPacket

end EspNowGateway.Mqtt
