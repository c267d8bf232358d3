import Miuturn.Allocation
import Miuturn.Message

set_option autoImplicit false

/-! # The task that serves a relay socket (`allocation.rs`)

`spawn_allocation_task` starts a loop that reads the datagrams of peers off the relay socket and
hands them to the transport of the client, as ChannelData if the peer has a channel and as a Data
indication otherwise. The task is given the addresses of its allocation when it is spawned and
shares the channel table with the server; it has no access to the allocation table. The messages it
takes from its queue are not modelled: nothing in the server sends any. -/

open RustStd

namespace Miuturn

/-- The message of `build_data_indication`. -/
def dataIndication (transactionId : TransactionId) (peerAddr : SocketAddr) (payload : Bytes) :
    Message where
  header := ⟨.data, .indication, 0, magicCookie, transactionId⟩
  attributes :=
    [⟨Attribute.peerAddress, encodeXorAddress peerAddr magicCookie transactionId⟩,
     ⟨Attribute.data, payload⟩]

/-- `build_data_indication`. -/
def buildDataIndication (systemTime : ℕ) (peerAddr : SocketAddr) (payload : Bytes) : Bytes :=
  (dataIndication (getrandom systemTime) peerAddr payload).encode

/-- The ChannelData buffer the task builds for a datagram. -/
def channelDataPacket (chNum : UInt16) (payload : Bytes) : Bytes :=
  let dataLen := UInt16.ofNat payload.length
  [(chNum >>> 8).toUInt8, (chNum &&& 0xFF).toUInt8, (dataLen >>> 8).toUInt8,
    (dataLen &&& 0xFF).toUInt8] ++ payload

/-- `normalize_peer_addr_for_client`. -/
def normalizePeerAddrForClient (peerAddr relayBindAddr relayedAddr : SocketAddr) : SocketAddr :=
  if peerAddr.ip = relayBindAddr.ip ∧ relayBindAddr.ip ≠ relayedAddr.ip then
    .new relayedAddr.ip peerAddr.port
  else peerAddr

/-- The addresses a task is spawned with. -/
structure RelayTask where
  clientAddr : SocketAddr
  relayBindAddr : SocketAddr
  relayedAddr : SocketAddr
  deriving DecidableEq

/-- The task of an allocation; the addresses it was spawned with never change in the allocation. -/
def Allocation.task (a : Allocation) : Option RelayTask :=
  a.relay.map (fun relay => ⟨a.clientAddr, relay.socket, a.relayedAddr⟩)

/-- A packet handed to the transport of a client. -/
structure ClientPacket where
  client : SocketAddr
  data : Bytes
  deriving DecidableEq

namespace RelayTask

/-- The peer as the client is to see it. -/
def effectivePeer (task : RelayTask) (peerAddr : SocketAddr) : SocketAddr :=
  normalizePeerAddrForClient peerAddr task.relayBindAddr task.relayedAddr

/-- The packet for a datagram of a peer. -/
def packetFor (task : RelayTask) (systemTime : ℕ) (ct : ChannelTable) (peerAddr : SocketAddr)
    (payload : Bytes) : ClientPacket :=
  match ct.getByPeerForRelayed task.relayedAddr (task.effectivePeer peerAddr) with
  | some chNum => ⟨task.clientAddr, channelDataPacket chNum payload⟩
  | none => ⟨task.clientAddr, buildDataIndication systemTime (task.effectivePeer peerAddr) payload⟩

/-- The branch of the loop for a datagram of a peer: count it and hand it to `send_to_client`. -/
def receive (task : RelayTask) (env : Env) (t : AllocationTable) (ct : ChannelTable)
    (peerAddr : SocketAddr) (payload : Bytes) : AllocationTable × Option ClientPacket :=
  ({ t with stats := { t.stats with
      totalBytesRelayed := t.stats.totalBytesRelayed + payload.length,
      totalMessages := t.stats.totalMessages + 1 } },
    some (task.packetFor env.systemTime ct peerAddr payload))

end RelayTask

end Miuturn
