import EspNowGateway.Mqtt.SessionStream
import EspNowGateway.Mqtt.SessionInput

/-! From one client's `publish` to another one's callback. A broker that passes the publications
on as they are lets the second client deliver exactly what the first one has confirmed. -/
namespace EspNowGateway.Mqtt
open ByteLayout CArray PartialRun

/-- What a publication is to its receiver. -/
def Posting.message (p : Posting) : Message := ⟨p.topic, some p.payload⟩

namespace Session
variable {bufferSize : BitVec 16}

end Session
end EspNowGateway.Mqtt
