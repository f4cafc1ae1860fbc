import EspNowGateway.Display.Loop
import EspNowGateway.Gateway.Forwarding
import EspNowGateway.Sender.Sensor
import EspNowGateway.Foundations.ExpiringRegister
import EspNowGateway.Radio.PacketBuilder
import EspNowGateway.Radio.ReceiveTasks
import EspNowGateway.Display.Routing
import EspNowGateway.Display.Freshness
import EspNowGateway.Display.FailedProbe
import EspNowGateway.System.ReceivedFrames
import EspNowGateway.System.DongleRun
import EspNowGateway.Radio.StoredTexts
import EspNowGateway.Radio.PacketNumbers
import EspNowGateway.Display.History
import EspNowGateway.Foundations.PeriodicCache
import EspNowGateway.Sender.BatteryCache
import EspNowGateway.Display.Isolation
import EspNowGateway.Display.NoValue
import EspNowGateway.Radio.QueueHandle
import EspNowGateway.Foundations.LastWrite
import EspNowGateway.System.GatewayRun
import EspNowGateway.Foundations.Base128
import EspNowGateway.Foundations.HeapBlock
import EspNowGateway.Foundations.StreamCode
import EspNowGateway.Mqtt.ControlPacket
import EspNowGateway.Mqtt.PubSubClient
import EspNowGateway.Mqtt.Output
import EspNowGateway.Mqtt.Calls
import EspNowGateway.Mqtt.Input
import EspNowGateway.Mqtt.Delivery
import EspNowGateway.Mqtt.Connect
import EspNowGateway.Mqtt.Session
import EspNowGateway.Mqtt.Emissions
import EspNowGateway.Mqtt.SessionStream
import EspNowGateway.Mqtt.SessionInput
import EspNowGateway.Mqtt.Streaming
import EspNowGateway.Mqtt.Relay
import EspNowGateway.Mqtt.Malformed
import EspNowGateway.Foundations.Watchdog
import EspNowGateway.Mqtt.KeepAlive
import EspNowGateway.Mqtt.TimedSession
import EspNowGateway.Gateway.ThingsBoard
import EspNowGateway.System.Uplink
import EspNowGateway.System.UplinkRun
import EspNowGateway.Display.Screen
import EspNowGateway.Display.Backlight
import EspNowGateway.Foundations.ExactInteger
import EspNowGateway.System.ErrorCount
import EspNowGateway.System.StatusSchedule
import EspNowGateway.Gateway.WiFiLink
