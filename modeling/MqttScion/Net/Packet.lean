import Mathlib.Data.List.Basic

/-!
# Addresses and datagrams

The address types `src/net` and both proxy modes pass around: IP addresses
with their octets, IP socket addresses (`std::net`), SCION socket addresses
(`scion_proto`) and the `UdpPacket` of `src/net/mod.rs`.

A SCION address is an ISD-AS number together with a host; its projection to an
IP socket address (`localAddress`) forgets the ISD-AS, and `fromStd` puts one
back. A service host has no IP address, so the projection is partial.
-/

namespace MqttScion.Net

abbrev Bytes := List UInt8

/-- `std::net::IpAddr`. -/
inductive IpAddr
  | v4 (octets : Vector UInt8 4)
  | v6 (octets : Vector UInt8 16)
  deriving DecidableEq

/-- `Ipv4Addr::new`. -/
def IpAddr.ipv4 (a b c d : UInt8) : IpAddr := .v4 #v[a, b, c, d]

/-- `match ip { V4(a) => a.octets().to_vec(), V6(a) => a.octets().to_vec() }`. -/
def IpAddr.octets : IpAddr → Bytes
  | .v4 o => o.toList
  | .v6 o => o.toList

theorem IpAddr.octets_length_le (a : IpAddr) : a.octets.length ≤ 16 := by
  cases a <;> simp [IpAddr.octets]

/-- Octets of equal number determine the address. -/
theorem IpAddr.octets_inj {a b : IpAddr} (h : a.octets = b.octets) : a = b := by
  have hlen : a.octets.length = b.octets.length := by rw [h]
  cases a with
  | v4 x =>
    cases b with
    | v4 y => rw [Vector.toList_inj.mp h]
    | v6 y => simp [IpAddr.octets] at hlen
  | v6 x =>
    cases b with
    | v4 y => simp [IpAddr.octets] at hlen
    | v6 y => rw [Vector.toList_inj.mp h]

/-- `std::net::SocketAddr`. -/
structure SocketAddr where
  ip : IpAddr
  port : UInt16
  deriving DecidableEq

/-- `scion_proto::address::IsdAsn`: a 16-bit ISD and a 48-bit AS number. -/
abbrev IsdAsn := UInt64

/-- The host part of a SCION address: an IP address or a service. -/
inductive HostAddr
  | ip (a : IpAddr)
  | svc (service : UInt16)
  deriving DecidableEq

/-- `scion_proto::address::SocketAddr`. -/
structure ScionAddr where
  isdAsn : IsdAsn
  host : HostAddr
  port : UInt16
  deriving DecidableEq

/-- `local_address()`: the IP socket address of an IP host. -/
def ScionAddr.localAddress (a : ScionAddr) : Option SocketAddr :=
  match a.host with
  | .ip ip => some ⟨ip, a.port⟩
  | .svc _ => none

/-- `SocketAddr::from_std`. -/
def ScionAddr.fromStd (isdAsn : IsdAsn) (a : SocketAddr) : ScionAddr :=
  ⟨isdAsn, .ip a.ip, a.port⟩

/-- `UdpPacket` (`src/net/mod.rs`): a payload with its SCION addresses. -/
structure UdpPacket where
  src : ScionAddr
  dst : ScionAddr
  data : Bytes
  deriving DecidableEq

/-- `MAX_DATAGRAM_SIZE` (`src/net/quic.rs`), the size of every QUIC and TCP
buffer. -/
def maxDatagramSize : Nat := 1200

/-- `UDP_PACKET_BUFFER_SIZE`, the size of the buffer a datagram is received
into. -/
def udpPacketBufferSize : Nat := 65535

end MqttScion.Net
