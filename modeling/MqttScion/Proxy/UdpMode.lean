import MqttScion.Lib.Run
import MqttScion.Net.Packet

/-!
# The UdpEndpoint connection handler

`src/proxy/connection_mode_udp.rs`: one task per SCION source, between the
channel of its datagrams (`rx_udp_to_quic`), a UDP socket of its own toward the
broker and the channel back to the main loop (`tx_quic_to_udp`).

The machine is cut like the QUIC handler: at the loop head and at every await.
The socket is bound before the loop, so the `unwrap`s inside it are not exits.
-/

namespace MqttScion.Proxy.UdpMode

open MqttScion.Net MqttScion.Lib

structure Config where
  localProxyAddr : ScionAddr
  remoteClientAddr : ScionAddr
  mqttBrokerAddress : SocketAddr
  deriving DecidableEq

/-- Why the handler ends with an error. -/
inductive Fault
  | bind
  | brokerSend
  | channelClosed
  deriving DecidableEq

inductive Pc
  | bind
  | select
  | sendBroker (data : Bytes)
  | queue (packet : UdpPacket)
  | returned (r : Except Fault Unit)

structure Connection where
  config : Config
  pc : Pc

inductive Input
  | bound (ok : Bool)
  | timeout
  | udp (packet : Option UdpPacket)
  /-- The outcome of `send_to(.., mqtt_broker_address)`. -/
  | sent (ok : Bool)
  /-- A whole datagram on the socket and its source, or a failed `recv_from`. -/
  | broker (datagram : Option (Bytes × SocketAddr))
  | queued (rxAlive : Bool)
  | cancelled
  deriving DecidableEq

inductive Output
  | toBroker (data : Bytes) (dst : SocketAddr)
  | queued (packet : UdpPacket)
  deriving DecidableEq

/-- `Connection::new`. -/
def Connection.new (config : Config) : Connection := ⟨config, .bind⟩

/-- A datagram from the main loop, up to the send to the broker. -/
def onUdp (packet : UdpPacket) (s : Connection) : Connection :=
  let config : Config :=
    if packet.src ≠ s.config.remoteClientAddr then
      { s.config with remoteClientAddr := packet.src }
    else s.config
  ⟨config, .sendBroker packet.data⟩

/-- A datagram on the socket: what fits `buf` goes to the client. -/
def onBroker (datagram : Option (Bytes × SocketAddr)) (s : Connection) : Connection :=
  match datagram with
  | none => s
  | some (data, _) =>
    let packet : UdpPacket :=
      { data := data.take maxDatagramSize
        src := s.config.localProxyAddr
        dst := s.config.remoteClientAddr }
    { s with pc := .queue packet }

/-- `handle_client_connection`, one move at a time. -/
def step : Machine Connection Input Output := fun s i =>
  match s.pc, i with
  | .bind, .bound ok =>
    if ok then some ({ s with pc := .select }, [])
    else some ({ s with pc := .returned (.error .bind) }, [])
  | .select, .timeout => some ({ s with pc := .returned (.ok ()) }, [])
  | .select, .udp none => some ({ s with pc := .returned (.ok ()) }, [])
  | .select, .udp (some packet) => some (onUdp packet s, [])
  | .select, .broker datagram => some (onBroker datagram s, [])
  | .select, .cancelled => some ({ s with pc := .returned (.ok ()) }, [])
  | .sendBroker data, .sent ok =>
    if ok then some ({ s with pc := .select }, [.toBroker data s.config.mqttBrokerAddress])
    else some ({ s with pc := .returned (.error .brokerSend) }, [])
  | .queue packet, .queued rxAlive =>
    if rxAlive then some ({ s with pc := .select }, [.queued packet])
    else some ({ s with pc := .returned (.error .channelClosed) }, [])
  | _, _ => none

end MqttScion.Proxy.UdpMode
