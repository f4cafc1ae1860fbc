import EspNowGateway.Foundations.HeapBlock
import EspNowGateway.Foundations.CArray

/-! The MQTT client under the gateway's attributes: its buffer, its state and the TCP connection
it runs on. A byte that does not come within the socket timeout is a `none` in what the
connection yields. A function without a result has accessed memory outside the buffer; the
16-bit positions of the source leave the buffer before they can wrap. -/
namespace EspNowGateway.Mqtt
open ByteLayout CArray HeapBlock

def mqttConnectionTimeout : Int := -4
def mqttConnectionLost : Int := -3
def mqttConnectFailed : Int := -2
def mqttDisconnected : Int := -1
def mqttConnected : Int := 0

def mqttConnect : Byte := (1 : Byte) <<< 4
def mqttPublish : Byte := (3 : Byte) <<< 4
def mqttPuback : Byte := (4 : Byte) <<< 4
def mqttSubscribe : Byte := (8 : Byte) <<< 4
def mqttUnsubscribe : Byte := (10 : Byte) <<< 4
def mqttPingreq : Byte := (12 : Byte) <<< 4
def mqttPingresp : Byte := (13 : Byte) <<< 4
def mqttDisconnect : Byte := (14 : Byte) <<< 4

def mqttQos1 : Byte := (1 : Byte) <<< 1

def mqttMaxHeaderSize : Nat := 5

/-- The client and its connection: whether it is up, what can still be read from it, and
everything it has taken since it was opened. -/
structure PubSubClient (bufferSize : BitVec 16) where
  buffer : Vector Byte bufferSize.toNat
  keepAlive : BitVec 16
  nextMsgId : BitVec 16
  lastOutActivity : BitVec 32
  lastInActivity : BitVec 32
  pingOutstanding : Bool
  state : Int
  up : Bool
  unread : List (Option Byte)
  written : List Byte

/-- The arguments of a last will. -/
structure WillArgs where
  willTopic : List Byte
  willQos : Byte
  willRetain : Bool
  willMessage : List Byte

/-- What the connection and the clock answer during `connect`. -/
structure ConnectAnswers where
  dialed : Bool
  incoming : List (Option Byte)
  room : Nat
  sentAt : BitVec 32
  ackAt : BitVec 32

/-- One call of the callback; no payload where the length it is told leaves the buffer. -/
structure Message where
  topic : List Byte
  payload : Option (List Byte)
  deriving DecidableEq, Repr

def msb (x : BitVec 16) : Byte := (x >>> 8).setWidth 8
def lsb (x : BitVec 16) : Byte := (x &&& 0xFF).setWidth 8

/-- The length of a C string, as far as it is looked at. -/
def strnlen (s : List Byte) (maxlen : Nat) : Nat := min (upToNul s).length maxlen

/-- The digits of a length of width `w`, as far as there are places for them: `buildHeader` collects
those of an `uint16_t` in `lenBuf`, `publish_P` writes those of an `unsigned int`. -/
def lenDigits {w : Nat} : Nat → BitVec w → List Byte
  | 0, _ => []
  | room+1, len =>
    let digit : Byte := (len &&& 127).setWidth 8
    let len := len >>> 7
    if 0 < len then (digit ||| 0x80) :: lenDigits room len else [digit]

section Buffer
variable {n : Nat}

/-- The loop over the characters; the last count is their number. -/
def writeChars : List Byte → Nat → Nat → Vector Byte n → Option (Nat × Nat × Vector Byte n)
  | [], pos, i, buf => some (pos, i, buf)
  | b :: s, pos, i, buf => (store buf pos b).bind (writeChars s (pos+1) (i+1))

def writeString (s : List Byte) (pos : Nat) (buf : Vector Byte n) : Option (Nat × Vector Byte n) := do
  let (pos, i, buf) ← writeChars (upToNul s) (pos + 2) 0 buf
  let buf ← store buf (pos - i - 2) (msb (.ofNat 16 i))
  let buf ← store buf (pos - i - 1) (lsb (.ofNat 16 i))
  some (pos, buf)

/-- The header ends where the body begins. -/
def buildHeader (header : Byte) (length : BitVec 16) (buf : Vector Byte n) :
    Option (Nat × Vector Byte n) := do
  let lenBuf := lenDigits 4 length
  let llen := lenBuf.length
  let buf ← store buf (4 - llen) header
  let buf ← storeAll lenBuf (mqttMaxHeaderSize - llen) buf
  some (llen + 1, buf)

/-- The bytes that the callback finds at its pointer; the length becomes an `unsigned int`. -/
def payloadAt (buf : Vector Byte n) (pos : Nat) (length : Int) : Option (List Byte) :=
  slice buf pos (BitVec.ofInt 32 length).toNat

end Buffer

namespace PubSubClient
variable {bufferSize : BitVec 16}

/-- Stopping the TCP connection. -/
def stop (c : PubSubClient bufferSize) : PubSubClient bufferSize :=
  { c with up := false, unread := [] }

def connected (c : PubSubClient bufferSize) : Bool × PubSubClient bufferSize :=
  if c.up then (c.state = mqttConnected, c)
  else if c.state = mqttConnected then (false, { c.stop with state := mqttConnectionLost })
  else (false, c)

/-- A write to the connection, which takes at most `room` bytes of it. -/
def clientWrite (room : Nat) (bytes : List Byte) (c : PubSubClient bufferSize) :
    Nat × PubSubClient bufferSize :=
  if c.up then (min room bytes.length, { c with written := c.written ++ bytes.take room })
  else (0, c)

/-- `length` bytes of body are in the buffer behind the room for the header. -/
def write (now : BitVec 32) (room : Nat) (header : Byte) (length : Nat)
    (c : PubSubClient bufferSize) : Option (Bool × PubSubClient bufferSize) := do
  let (hlen, buffer) ← buildHeader header (.ofNat 16 length) c.buffer
  let bytes ← slice buffer (mqttMaxHeaderSize - hlen) (length + hlen)
  let (rc, c) := { c with buffer := buffer }.clientWrite room bytes
  some (rc = hlen + length, { c with lastOutActivity := now })

def publish (now : BitVec 32) (room : Nat) (topic payload : List Byte) (retained : Bool)
    (c : PubSubClient bufferSize) : Option (Bool × PubSubClient bufferSize) :=
  let (up, c) := c.connected
  if up then
    if bufferSize.toNat <
        (mqttMaxHeaderSize + 2 + strnlen topic bufferSize.toNat + payload.length) % 2^32 then
      some (false, c)
    else do
      let (length, buffer) ← writeString topic mqttMaxHeaderSize c.buffer
      let buffer ← storeAll payload length buffer
      let length := length + payload.length
      let header := if retained then mqttPublish ||| 1 else mqttPublish
      { c with buffer := buffer }.write now room header (length - mqttMaxHeaderSize)
  else some (false, c)

/-- The writes of single bytes; `rooms i` is what the connection takes of the `i`-th. -/
def writeEach (rooms : Nat → Nat) : List Byte → Nat → PubSubClient bufferSize →
    Nat × PubSubClient bufferSize
  | [], _, c => (0, c)
  | b :: bs, i, c =>
    let (rc, c) := c.clientWrite (rooms i) [b]
    let (more, c) := writeEach rooms bs (i+1) c
    (rc + more, c)

/-- `publish_P`: header and topic from the buffer, the payload from where it is. -/
def publishP (now : BitVec 32) (rooms : Nat → Nat) (topic payload : List Byte) (retained : Bool)
    (c : PubSubClient bufferSize) : Option (Bool × PubSubClient bufferSize) :=
  let (up, c) := c.connected
  if up then do
    let tlen := strnlen topic bufferSize.toNat
    let header := if retained then mqttPublish ||| 1 else mqttPublish
    let buffer ← store c.buffer 0 header
    let digits := lenDigits 5 (BitVec.ofNat 32 (payload.length + 2 + tlen))
    let buffer ← storeAll digits 1 buffer
    let (pos, buffer) ← writeString topic (1 + digits.length) buffer
    let bytes ← slice buffer 0 pos
    let (rc, c) := { c with buffer := buffer }.clientWrite (rooms 0) bytes
    let (more, c) := c.writeEach rooms payload 1
    let expectedLength := 1 + digits.length + 2 + tlen + payload.length
    some ((rc + more) % 2^32 = expectedLength % 2^32, { c with lastOutActivity := now })
  else some (false, c)

/-- The header of a publication whose payload follows in writes of its user. -/
def beginPublish (now : BitVec 32) (room : Nat) (topic : List Byte) (plength : Nat) (retained : Bool)
    (c : PubSubClient bufferSize) : Option (Bool × PubSubClient bufferSize) :=
  let (up, c) := c.connected
  if up then do
    let (length, buffer) ← writeString topic mqttMaxHeaderSize c.buffer
    let header := if retained then mqttPublish ||| 1 else mqttPublish
    let (hlen, buffer) ← buildHeader header (.ofNat 16 (plength + length - mqttMaxHeaderSize)) buffer
    let bytes ← slice buffer (mqttMaxHeaderSize - hlen) (length - (mqttMaxHeaderSize - hlen))
    let (rc, c) := { c with buffer := buffer }.clientWrite room bytes
    some (rc = length - (mqttMaxHeaderSize - hlen), { c with lastOutActivity := now })
  else some (false, c)

/-- A write of the user. -/
def writeBytes (now : BitVec 32) (room : Nat) (bytes : List Byte) (c : PubSubClient bufferSize) :
    Nat × PubSubClient bufferSize := { c with lastOutActivity := now }.clientWrite room bytes

def endPublish : Nat := 1

/-- Zero is no message id. -/
def advanceMsgId (c : PubSubClient bufferSize) : PubSubClient bufferSize :=
  { c with nextMsgId := if c.nextMsgId + 1 = 0 then 1 else c.nextMsgId + 1 }

def subscribe (now : BitVec 32) (room : Nat) (topic : List Byte) (qos : Byte)
    (c : PubSubClient bufferSize) : Option (Bool × PubSubClient bufferSize) :=
  if 1 < qos.toNat then some (false, c)
  else if bufferSize.toNat < 9 + strnlen topic bufferSize.toNat then some (false, c)
  else
    let (up, c) := c.connected
    if up then do
      let c := c.advanceMsgId
      let buffer ← store c.buffer mqttMaxHeaderSize (msb c.nextMsgId)
      let buffer ← store buffer (mqttMaxHeaderSize + 1) (lsb c.nextMsgId)
      let (length, buffer) ← writeString topic (mqttMaxHeaderSize + 2) buffer
      let buffer ← store buffer length qos
      { c with buffer := buffer }.write now room (mqttSubscribe ||| mqttQos1)
        (length + 1 - mqttMaxHeaderSize)
    else some (false, c)

def unsubscribe (now : BitVec 32) (room : Nat) (topic : List Byte)
    (c : PubSubClient bufferSize) : Option (Bool × PubSubClient bufferSize) :=
  if bufferSize.toNat < 9 + strnlen topic bufferSize.toNat then some (false, c)
  else
    let (up, c) := c.connected
    if up then do
      let c := c.advanceMsgId
      let buffer ← store c.buffer mqttMaxHeaderSize (msb c.nextMsgId)
      let buffer ← store buffer (mqttMaxHeaderSize + 1) (lsb c.nextMsgId)
      let (length, buffer) ← writeString topic (mqttMaxHeaderSize + 2) buffer
      { c with buffer := buffer }.write now room (mqttUnsubscribe ||| mqttQos1)
        (length - mqttMaxHeaderSize)
    else some (false, c)

/-- A packet of two bytes from the front of the buffer. -/
def writeShort (room : Nat) (header : Byte) (c : PubSubClient bufferSize) :
    Option (PubSubClient bufferSize) := do
  let buffer ← store c.buffer 0 header
  let buffer ← store buffer 1 0
  let bytes ← slice buffer 0 2
  some ({ c with buffer := buffer }.clientWrite room bytes).2

def disconnect (now : BitVec 32) (room : Nat) (c : PubSubClient bufferSize) :
    Option (PubSubClient bufferSize) := do
  let c ← c.writeShort room mqttDisconnect
  some { c.stop with state := mqttDisconnected, lastInActivity := now, lastOutActivity := now }

def available (c : PubSubClient bufferSize) : Bool := c.unread.head?.join.isSome

/-- `readByte(&digit)`; nothing when the byte did not come in time. -/
def readByte (c : PubSubClient bufferSize) : Option Byte × PubSubClient bufferSize :=
  match c.unread with
  | [] => (none, c)
  | b :: rest => (b, { c with unread := rest })

/-- `readByte(this->buffer, &len)`. -/
def readByteAt (len : Nat) (c : PubSubClient bufferSize) : Option (Bool × PubSubClient bufferSize) :=
  match c.readByte with
  | (none, c) => some (false, c)
  | (some b, c) => (store c.buffer len b).map fun buffer => (true, { c with buffer := buffer })

/-- The loop over the remaining length; `left` is `5 - len`. -/
def readLength : Nat → Nat → Nat → Nat → PubSubClient bufferSize →
    Option (Option (Nat × Nat) × PubSubClient bufferSize)
  | 0, _, _, _, c => some (none, { c.stop with state := mqttDisconnected })
  | left+1, len, multiplier, length, c =>
    match c.readByte with
    | (none, c) => some (none, c)
    | (some digit, c) => do
      let buffer ← store c.buffer len digit
      let c := { c with buffer := buffer }
      let length := length + (digit &&& 127).toNat * multiplier
      if digit &&& 128 ≠ 0 then readLength left (len+1) (multiplier*128) length c
      else some (some (len+1, length), c)

/-- The loop over the rest of the packet. What does not fit is read and dropped. -/
def readBody : Nat → Nat → Nat → PubSubClient bufferSize →
    Option (Nat × Nat) × PubSubClient bufferSize
  | 0, len, idx, c => (some (len, idx), c)
  | more+1, len, idx, c =>
    match c.readByte with
    | (none, c) => (none, c)
    | (some digit, c) =>
      if h : len < bufferSize.toNat then
        readBody more (len+1) (idx+1) { c with buffer := c.buffer.set len digit }
      else readBody more len (idx+1) c

/-- A packet that does not fit is to be ignored. -/
def readTail (llen len start length : Nat) (c : PubSubClient bufferSize) :
    Nat × Nat × PubSubClient bufferSize :=
  match readBody (length - start) len len c with
  | (none, c) => (0, 0, c)
  | (some (len, idx), c) => (if bufferSize.toNat < idx then 0 else len, llen, c)

/-- What follows the first byte of a packet. -/
def readRest (c : PubSubClient bufferSize) : Option (Nat × Nat × PubSubClient bufferSize) := do
  let header ← load c.buffer 0
  let (lengthRead, c) ← c.readLength 4 1 1 0
  match lengthRead with
  | none => some (0, 0, c)
  | some (len, length) =>
    let llen := len - 1
    if header &&& 0xF0 = mqttPublish then do
      let (got, c) ← c.readByteAt len
      if got then do
        let (got, c) ← c.readByteAt (len+1)
        if got then some (c.readTail llen (len+2) 2 length) else some (0, 0, c)
      else some (0, 0, c)
    else some (c.readTail llen len 0 length)

/-- The length of the packet in the buffer, zero when it is to be ignored, and the number of its
length digits. -/
def readPacket (c : PubSubClient bufferSize) : Option (Nat × Nat × PubSubClient bufferSize) := do
  let (got, c) ← c.readByteAt 0
  if got then c.readRest else some (0, 0, c)

/-- The publish branch: the topic is moved forward by one byte to make room for its end. -/
def handlePublish (t : BitVec 32) (room len llen : Nat) (c : PubSubClient bufferSize) :
    Option (List Message × PubSubClient bufferSize) := do
  let hi ← load c.buffer (llen+1)
  let lo ← load c.buffer (llen+2)
  let tl := hi.toNat * 256 + lo.toNat
  let topic ← slice c.buffer (llen+3) tl
  let buffer ← storeAll topic (llen+2) c.buffer
  let buffer ← store buffer (llen+2+tl) 0
  let header ← load buffer 0
  if header &&& 0x06 = mqttQos1 then do
    let idHi ← load buffer (llen+3+tl)
    let idLo ← load buffer (llen+3+tl+1)
    let msgId : BitVec 16 := .ofNat 16 (idHi.toNat * 256 + idLo.toNat)
    let payload := payloadAt buffer (llen+3+tl+2) (len - llen - 3 - tl - 2 : Int)
    let buffer ← store buffer 0 mqttPuback
    let buffer ← store buffer 1 2
    let buffer ← store buffer 2 (msb msgId)
    let buffer ← store buffer 3 (lsb msgId)
    let bytes ← slice buffer 0 4
    let (_, c) := { c with buffer := buffer }.clientWrite room bytes
    some ([⟨upToNul topic, payload⟩], { c with lastOutActivity := t })
  else
    let payload := payloadAt buffer (llen+3+tl) (len - llen - 3 - tl : Int)
    some ([⟨upToNul topic, payload⟩], { c with buffer := buffer })

def handlePacket (t : BitVec 32) (room len llen : Nat) (c : PubSubClient bufferSize) :
    Option (List Message × PubSubClient bufferSize) := do
  let header ← load c.buffer 0
  let type := header &&& 0xF0
  if type = mqttPublish then c.handlePublish t room len llen
  else if type = mqttPingreq then (c.writeShort room mqttPingresp).map fun c => ([], c)
  else if type = mqttPingresp then some ([], { c with pingOutstanding := false })
  else some ([], c)

/-- The keep-alive part of `loop`; false when the broker has not answered the last ping. -/
def checkKeepAlive (t : BitVec 32) (room : Nat) (c : PubSubClient bufferSize) :
    Option (Bool × PubSubClient bufferSize) :=
  if c.keepAlive.toNat * 1000 < (t - c.lastInActivity).toNat ∨
      c.keepAlive.toNat * 1000 < (t - c.lastOutActivity).toNat then
    if c.pingOutstanding then some (false, { c.stop with state := mqttConnectionTimeout })
    else (c.writeShort room mqttPingreq).map fun c =>
      (true, { c with lastOutActivity := t, lastInActivity := t, pingOutstanding := true })
  else some (true, c)

/-- The receiving part of `loop`: at most one packet. -/
def receive (t : BitVec 32) (room : Nat) (c : PubSubClient bufferSize) :
    Option (Bool × List Message × PubSubClient bufferSize) :=
  if c.available then do
    let (len, llen, c) ← c.readPacket
    if 0 < len then do
      let (messages, c) ← { c with lastInActivity := t }.handlePacket t room len llen
      some (true, messages, c)
    else
      let (up, c) := c.connected
      some (up, [], c)
  else some (true, [], c)

def loop (t : BitVec 32) (room : Nat) (c : PubSubClient bufferSize) :
    Option (Bool × List Message × PubSubClient bufferSize) :=
  let (up, c) := c.connected
  if up then do
    let (alive, c) ← c.checkKeepAlive t room
    if alive then c.receive t room else some (false, [], c)
  else some (false, [], c)

/-- The strings of a CONNECT, each behind its `CHECK_STRING_LENGTH`. -/
def writeStrings : List (List Byte) → Nat → PubSubClient bufferSize →
    Option (Option Nat × PubSubClient bufferSize)
  | [], length, c => some (some length, c)
  | s :: ss, length, c =>
    if bufferSize.toNat < length + 2 + strnlen s bufferSize.toNat then some (none, c.stop)
    else do
      let (length, buffer) ← writeString s length c.buffer
      writeStrings ss length { c with buffer := buffer }

def connectFlags (user pass : Option (List Byte)) (will : Option WillArgs) (cleanSession : Bool) : Byte :=
  let v : Byte := match will with
    | none => 0
    | some w => (0x04 : Byte) ||| (w.willQos <<< 3) ||| (if w.willRetain then (1 : Byte) <<< 5 else 0)
  let v := if cleanSession then v ||| 0x02 else v
  match user with
  | none => v
  | some _ =>
    let v := v ||| 0x80
    match pass with
    | none => v
    | some _ => v ||| ((0x80 : Byte) >>> 1)

/-- A password without a user is not sent. -/
def connectStrings (id : List Byte) (user pass : Option (List Byte)) (will : Option WillArgs) :
    List (List Byte) :=
  [id] ++ (will.toList.flatMap fun w => [w.willTopic, w.willMessage]) ++
    user.toList.flatMap fun u => u :: pass.toList

/-- Waiting for the answer to the CONNECT. -/
def awaitConnack (a : ConnectAnswers) (c : PubSubClient bufferSize) :
    Option (Bool × PubSubClient bufferSize) :=
  if c.available then do
    let (len, _, c) ← c.readPacket
    if len = 4 then do
      let code ← load c.buffer 3
      if code = 0 then
        some (true, { c with
          lastInActivity := a.ackAt, pingOutstanding := false, state := mqttConnected })
      else some (false, { c.stop with state := code.toNat })
    else some (false, c.stop)
  else some (false, { c.stop with state := mqttConnectionTimeout })

/-- What `connect` does on the open TCP connection. -/
def greet (a : ConnectAnswers) (id : List Byte) (user pass : Option (List Byte))
    (will : Option WillArgs) (cleanSession : Bool) (c : PubSubClient bufferSize) :
    Option (Bool × PubSubClient bufferSize) := do
  let c := { c with nextMsgId := 1 }
  let d : List Byte := [0x00, 0x04] ++ ascii "MQTT" ++ [4]
  let v := connectFlags user pass will cleanSession
  let buffer ← storeAll (d ++ [v, msb c.keepAlive, lsb c.keepAlive]) mqttMaxHeaderSize c.buffer
  let (length, c) ← { c with buffer := buffer }.writeStrings (connectStrings id user pass will)
    (mqttMaxHeaderSize + 10)
  match length with
  | none => some (false, c)
  | some length =>
    let (_, c) ← c.write a.sentAt a.room mqttConnect (length - mqttMaxHeaderSize)
    { c with lastInActivity := a.sentAt, lastOutActivity := a.sentAt }.awaitConnack a

def connect (a : ConnectAnswers) (id : List Byte) (user pass : Option (List Byte))
    (will : Option WillArgs) (cleanSession : Bool) (c : PubSubClient bufferSize) :
    Option (Bool × PubSubClient bufferSize) :=
  let (up, c) := c.connected
  if up then some (true, c)
  else if c.up then c.greet a id user pass will cleanSession
  else if a.dialed then
    { c with up := true, unread := a.incoming, written := [] }.greet a id user pass will cleanSession
  else some (false, { c with state := mqttConnectFailed })

end PubSubClient
end EspNowGateway.Mqtt
