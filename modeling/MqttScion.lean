import MqttScion.Lib.Run
import MqttScion.Lib.Observe
import MqttScion.Lib.Relay
import MqttScion.Lib.Channel
import MqttScion.Lib.Framing
import MqttScion.Lib.Lease
import MqttScion.Net.QuicWire
import MqttScion.Proxy.Token
import MqttScion.Proxy.QuicMode
import MqttScion.Proxy.UdpMode
import MqttScion.Proxy.UdpSession
import MqttScion.Proxy.BrokerToClient
import MqttScion.Proxy.QuicMove
import MqttScion.Proxy.AuthGate
import MqttScion.Proxy.ClientToBroker
import MqttScion.Proxy.Dispatch
import MqttScion.Proxy.Registry
import MqttScion.Proxy.RelayLog
import MqttScion.Proxy.Isolation
import MqttScion.Proxy.UdpRelay
import MqttScion.Proxy.Survival
import MqttScion.Proxy.AddressValidation
import MqttScion.Proxy.RetryId
import MqttScion.Client.Connection
import MqttScion.Client.Wire
import MqttScion.Client.SendPath
import MqttScion.Client.Delivery
import MqttScion.Client.ReceivePath
import MqttScion.Client.System
import MqttScion.Client.Callers
import MqttScion.Client.NoStranded
import MqttScion.Proxy.Handling
import MqttScion.Proxy.RetryComplete
import MqttScion.Proxy.Replies
import MqttScion.Client.CallLog
import MqttScion.Client.CallMove
import MqttScion.Client.OwnConnack
import MqttScion.Lib.Ticket
import MqttScion.Client.Lifecycle
import MqttScion.Client.Acknowledgement
import MqttScion.Client.Refusal
import MqttScion.Proxy.QuicExits
import MqttScion.Proxy.Closing
import MqttScion.Proxy.Answers
import MqttScion.Proxy.Amplification
import MqttScion.Lib.Mutex
import MqttScion.Proxy.Locking
import MqttScion.Client.Reconnect
import MqttScion.Client.CoreClose
import MqttScion.Client.RequestArm
import MqttScion.Lib.Part
import MqttScion.Proxy.Alone
import MqttScion.Proxy.Fleet
import MqttScion.Lib.Accept
import MqttScion.Lib.Switch
import MqttScion.Proxy.Switching
import MqttScion.Proxy.Outbound
import MqttScion.Client.Mailbox
import MqttScion.Lib.Trim
import MqttScion.Tunnel
import MqttScion.Lib.Turns
import MqttScion.Python.Bindings
import MqttScion.Python.Serving
