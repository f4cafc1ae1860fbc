import EspNowGateway.Mqtt.PubSubClient
import EspNowGateway.Foundations.PartialRun

/-! Sessions. After `connect` has opened one, the user calls the client as it likes, the broker
sends what it likes and the connection may break; a run without a result is one in which some
call has left the buffer. -/
namespace EspNowGateway.Mqtt
open ByteLayout CArray

/-- What happens in a session; `room` is how much of a write the connection takes. -/
inductive SessionEvent where
  | publish (now : BitVec 32) (room : Nat) (topic payload : List Byte) (retained : Bool)
  | subscribe (now : BitVec 32) (room : Nat) (topic : List Byte) (qos : Byte)
  | unsubscribe (now : BitVec 32) (room : Nat) (topic : List Byte)
  | disconnect (now : BitVec 32) (room : Nat)
  | loop (t : BitVec 32) (room : Nat)
  | arrive (bytes : List (Option Byte))
  | lost

/-- A publication as its user asks for it. -/
structure Posting where
  retained : Bool
  topic : List Byte
  payload : List Byte
  deriving DecidableEq, Repr

/-- The client, the publications it has confirmed to its user and the messages it has delivered. -/
structure Session (bufferSize : BitVec 16) where
  client : PubSubClient bufferSize
  confirmed : List Posting
  delivered : List Message

/-- Bytes arrive on an open connection; what was waited for before is over. -/
def PubSubClient.arrive {bufferSize : BitVec 16} (bytes : List (Option Byte))
    (c : PubSubClient bufferSize) : PubSubClient bufferSize :=
  if c.up then { c with unread := c.unread.dropWhile Option.isNone ++ bytes } else c

namespace Session
variable {bufferSize : BitVec 16}

def step (s : Session bufferSize) : SessionEvent → Option (Session bufferSize)
  | .publish now room topic payload retained =>
    (s.client.publish now room topic payload retained).map fun r => { s with
      client := r.2
      confirmed := if r.1 then s.confirmed ++ [⟨retained, upToNul topic, payload⟩] else s.confirmed }
  | .subscribe now room topic qos =>
    (s.client.subscribe now room topic qos).map fun r => { s with client := r.2 }
  | .unsubscribe now room topic =>
    (s.client.unsubscribe now room topic).map fun r => { s with client := r.2 }
  | .disconnect now room => (s.client.disconnect now room).map fun c => { s with client := c }
  | .loop t room => (s.client.loop t room).map fun r =>
    { s with client := r.2.2, delivered := s.delivered ++ r.2.1 }
  | .arrive bytes => some { s with client := s.client.arrive bytes }
  | .lost => some { s with client := { s.client with up := false } }

end Session

/-- The connection takes every write as a whole. -/
def SessionEvent.Whole (n : Nat) : SessionEvent → Prop
  | .publish _ room _ _ _ => n ≤ room
  | .subscribe _ room _ _ => n ≤ room
  | .unsubscribe _ room _ => n ≤ room
  | .disconnect _ room => n ≤ room
  | .loop _ room => n ≤ room
  | .arrive _ => True
  | .lost => True

end EspNowGateway.Mqtt
