import Miuturn.Bandwidth
import Miuturn.PortAllocator
import Miuturn.RustStd.Net
import Mathlib.Data.Finset.Union

set_option autoImplicit false

/-! # Allocations and channel bindings (`allocation.rs`)

The two tables of the relay: `AllocationTable`, with the port allocator, the counters and the
bandwidth trackers it keeps in step, and `ChannelTable`. Every operation is a function of the table
before it, of the arguments of the Rust function, and of what the operation takes from outside: the
clock, the random numbers of the port allocator, and whether a socket could be bound or a packet
sent. Those are collected in `Env`; the `n`-th bind attempt of a step sees the `n`-th outcome.

Locks and reference counts are not represented: an operation here is the whole body of the Rust
function, run without others in between. The task that serves a relay socket (`RelayTask.lean`) is
not part of the state; of the socket only the address it is bound to is. -/

open RustStd

namespace Miuturn

/-- What one step takes from outside. -/
structure Env where
  /-- `Instant::now()`, in nanoseconds. -/
  now : ℕ
  /-- `SystemTime::now()`, in nanoseconds since the epoch. -/
  systemTime : ℕ
  /-- The bytes `generate_nonce` draws. -/
  nonceBytes : Octets 16
  portChoice : ℕ → PortAllocator.PortChoice
  /-- `UdpSocket::bind`, with the text of the error. -/
  bindResult : ℕ → Except String Unit
  /-- Does `send_to` on a relay socket succeed? -/
  sendOk : Bool

/-- The errors of `errors.rs` that the modelled operations return. -/
inductive Error where
  | notFound
  | alreadyExists
  | allocationQuotaReached
  | relayPortExhausted
  | relayBindFailed (addr : SocketAddr) (source : String)
  deriving DecidableEq

/-- `impl Display for Error`. -/
def Error.toString : Error → String
  | .notFound => "Not found"
  | .alreadyExists => "Already exists"
  | .allocationQuotaReached => "Allocation quota reached"
  | .relayPortExhausted => "No relay ports available"
  | .relayBindFailed addr source =>
    "Failed to bind relay socket on " ++ addr.toString ++ ": " ++ source

/-! ## Channel bindings -/

structure ChannelBinding where
  channelId : UInt16
  peerAddr : SocketAddr
  relayedAddr : SocketAddr
  createdAt : ℕ
  lifetime : ℕ
  deriving DecidableEq

/-- `ChannelBinding::is_expired`. -/
def ChannelBinding.isExpired (b : ChannelBinding) (now : ℕ) : Bool :=
  decide (now - b.createdAt > b.lifetime)

structure ChannelTable where
  channels : HashMap (SocketAddr × UInt16) ChannelBinding
  deriving DecidableEq

namespace ChannelTable

/-- `ChannelTable::new`. -/
def new : ChannelTable := ⟨∅⟩

/-- `ChannelTable::bind`. -/
def bind (ct : ChannelTable) (now : ℕ) (channelId : UInt16) (peerAddr relayedAddr : SocketAddr) :
    Except Error ChannelTable :=
  let key := (relayedAddr, channelId)
  match ct.channels.lookup key with
  | some existing =>
    if existing.peerAddr = peerAddr then
      .ok ⟨ct.channels.modify key (fun b => { b with createdAt := now })⟩
    else .error .alreadyExists
  | none => .ok ⟨ct.channels.insert key ⟨channelId, peerAddr, relayedAddr, now, fromSecs 600⟩⟩

/-- `ChannelTable::get_by_channel`. -/
def getByChannel (ct : ChannelTable) (relayedAddr : SocketAddr) (channelId : UInt16) :
    Option ChannelBinding :=
  ct.channels.lookup (relayedAddr, channelId)

/-- `ChannelTable::get_by_peer_for_relayed`: the number of the first binding, in iteration order. -/
def getByPeerForRelayed (ct : ChannelTable) (relayedAddr peerAddr : SocketAddr) : Option UInt16 :=
  (ct.channels.entries.find? (fun e => e.1.1 = relayedAddr ∧ e.2.peerAddr = peerAddr)).map
    (fun e => e.1.2)

/-- `ChannelTable::unbind`. -/
def unbind (ct : ChannelTable) (relayedAddr : SocketAddr) (channelId : UInt16) :
    ChannelTable × Option ChannelBinding :=
  let key := (relayedAddr, channelId)
  (⟨ct.channels.erase key⟩, ct.channels.lookup key)

/-- `ChannelTable::remove_for_relayed`. -/
def removeForRelayed (ct : ChannelTable) (relayedAddr : SocketAddr) : ChannelTable :=
  ⟨ct.channels.retain (fun key _ => key.1 ≠ relayedAddr)⟩

/-- `ChannelTable::cleanup_expired`. -/
def cleanupExpired (ct : ChannelTable) (now : ℕ) : ChannelTable :=
  ⟨ct.channels.retain (fun _ b => !b.isExpired now)⟩

end ChannelTable

/-! ## Allocations -/

/-- The relay socket of an allocation, by the address it is bound to. -/
structure AllocationRelay where
  socket : SocketAddr
  deriving DecidableEq

structure Allocation where
  id : Octets 12
  relayedAddr : SocketAddr
  clientAddr : SocketAddr
  createdAt : ℕ
  lifetime : ℕ
  fiveTuple : SocketAddr × SocketAddr
  relay : Option AllocationRelay
  permissions : Finset IpAddr
  bytesForwarded : ℕ
  messagesForwarded : ℕ
  deriving DecidableEq

/-- `Allocation::with_relay`. -/
def Allocation.withRelay (now : ℕ) (id : Octets 12) (relayedAddr clientAddr : SocketAddr)
    (lifetime : ℕ) (src dst : SocketAddr) (relay : AllocationRelay) : Allocation :=
  ⟨id, relayedAddr, clientAddr, now, lifetime, (src, dst), some relay, ∅, 0, 0⟩

/-- `Allocation::is_expired`. -/
def Allocation.isExpired (a : Allocation) (now : ℕ) : Bool :=
  decide (now - a.createdAt > a.lifetime)

/-- The bytes of `getrandom`: a linear congruential generator. -/
def getrandomBytes : ℕ → UInt64 → Bytes
  | 0, _ => []
  | n + 1, seed =>
    let seed := seed * 1103515245 + 12345
    (seed >>> 16).toUInt8 :: getrandomBytes n seed

theorem getrandomBytes_length (n : ℕ) : ∀ seed, (getrandomBytes n seed).length = n := by
  induction n with
  | zero => exact fun _ => rfl
  | succ n ih => exact fun _ => congrArg (· + 1) (ih _)

/-- `getrandom(&mut id)`, seeded with the clock. -/
def getrandom (systemTime : ℕ) : Octets 12 :=
  ⟨getrandomBytes 12 (UInt64.ofNat systemTime), getrandomBytes_length 12 _⟩

structure ServerStats where
  totalAllocations : ℕ
  activeAllocations : ℤ
  totalBytesRelayed : ℕ
  totalMessages : ℕ
  deriving DecidableEq

/-- One bind of a relay socket: the address, and what `UdpSocket::bind` returned. -/
structure BindAttempt where
  addr : SocketAddr
  outcome : Except String Unit

structure AllocationTable where
  allocations : HashMap SocketAddr Allocation
  portAllocator : PortAllocator
  bindAddr : Ipv4Addr
  externalAddr : Ipv4Addr
  stats : ServerStats
  maxConcurrentAllocations : Option ℕ
  maxAllocationDurationSecs : Option UInt32
  bandwidthManager : BandwidthManager
  deriving DecidableEq

/-- A packet handed to a relay socket. -/
structure Packet where
  socket : SocketAddr
  peer : SocketAddr
  payload : Bytes
  deriving DecidableEq

namespace AllocationTable

/-- `AllocationTable::with_port_range_and_bind_addr`. -/
def withPortRangeAndBindAddr (externalAddr bindAddr : Ipv4Addr) (minPort maxPort : UInt16)
    (maxConcurrentAllocations : Option ℕ) (maxAllocationDurationSecs : Option UInt32) :
    Rust AllocationTable := do
  let portAllocator ← PortAllocator.new minPort maxPort
  pure { allocations := ∅, portAllocator, bindAddr, externalAddr, stats := ⟨0, 0, 0, 0⟩,
         maxConcurrentAllocations, maxAllocationDurationSecs, bandwidthManager := ⟨∅⟩ }

/-! ### Creation -/

/-- What the loop of `create_allocation` leaves: the ports, the relay port or the error, and the
    binds it made, in order. -/
structure Acquired (Ports : Type) where
  ports : Ports
  result : Except Error UInt16
  binds : List BindAttempt

/-- The loop of `create_allocation`, with `remaining` attempts to go: take a port, bind a socket on
    it, and give the port back when that fails. The port allocator is given by its two calls. -/
def acquireLoop {Ports : Type} {m : Type → Type} [Monad m]
    (allocate : Ports → PortAllocator.PortChoice → m (Ports × Option UInt16))
    (release : Ports → UInt16 → m (Ports × Bool)) (bindAddr : Ipv4Addr) (env : Env) :
    ℕ → ℕ → Ports → Option (SocketAddr × String) → m (Acquired Ports)
  | 0, _, ports, some (addr, source) => pure ⟨ports, .error (.relayBindFailed addr source), []⟩
  | 0, _, ports, none => pure ⟨ports, .error .relayPortExhausted, []⟩
  | remaining + 1, attempts, ports, _ => do
    match ← allocate ports (env.portChoice attempts) with
    | (ports, none) => pure ⟨ports, .error .relayPortExhausted, []⟩
    | (ports, some port) =>
      match env.bindResult attempts with
      | .ok () => pure ⟨ports, .ok port, [⟨.v4 bindAddr port, .ok ()⟩]⟩
      | .error source =>
        let (ports, _) ← release ports port
        let rest ← acquireLoop allocate release bindAddr env remaining (attempts + 1) ports
          (some (.v4 bindAddr port, source))
        pure ⟨rest.ports, rest.result, ⟨.v4 bindAddr port, .error source⟩ :: rest.binds⟩

/-- The loop on `PortAllocator`, whose calls do not fail. -/
def acquire (bindAddr : Ipv4Addr) (env : Env) (remaining attempts : ℕ) (pa : PortAllocator)
    (last : Option (SocketAddr × String)) : Acquired PortAllocator :=
  acquireLoop (m := Id) PortAllocator.allocate PortAllocator.release bindAddr env remaining attempts
    pa last

/-- The ports after the loop, and its result. -/
def acquireRelay (bindAddr : Ipv4Addr) (env : Env) (remaining attempts : ℕ) (pa : PortAllocator)
    (last : Option (SocketAddr × String)) : PortAllocator × Except Error UInt16 :=
  let acquired := acquire bindAddr env remaining attempts pa last
  (acquired.ports, acquired.result)

/-- A round of the loop on `PortAllocator`. -/
theorem acquire_succ (bindAddr : Ipv4Addr) (env : Env) (remaining attempts : ℕ)
    (pa : PortAllocator) (last : Option (SocketAddr × String)) :
    acquire bindAddr env (remaining + 1) attempts pa last
      = match pa.allocate (env.portChoice attempts) with
        | (pa, none) => ⟨pa, .error .relayPortExhausted, []⟩
        | (pa, some port) =>
          match env.bindResult attempts with
          | .ok () => ⟨pa, .ok port, [⟨.v4 bindAddr port, .ok ()⟩]⟩
          | .error source =>
            let rest := acquire bindAddr env remaining (attempts + 1) (pa.release port).1
              (some (.v4 bindAddr port, source))
            ⟨rest.ports, rest.result, ⟨.v4 bindAddr port, .error source⟩ :: rest.binds⟩ := by
  unfold acquire
  rw [acquireLoop]
  cases pa.allocate (env.portChoice attempts) with
  | mk pa taken =>
      cases taken with
      | none => rfl
      | some port =>
          dsimp only
          cases env.bindResult attempts <;> rfl

theorem acquireRelay_succ (bindAddr : Ipv4Addr) (env : Env) (remaining attempts : ℕ)
    (pa : PortAllocator) (last : Option (SocketAddr × String)) :
    acquireRelay bindAddr env (remaining + 1) attempts pa last
      = match pa.allocate (env.portChoice attempts) with
        | (pa, none) => (pa, .error .relayPortExhausted)
        | (pa, some port) =>
          match env.bindResult attempts with
          | .ok () => (pa, .ok port)
          | .error source =>
            acquireRelay bindAddr env remaining (attempts + 1) (pa.release port).1
              (some (.v4 bindAddr port, source)) := by
  unfold acquireRelay
  rw [acquire_succ]
  cases pa.allocate (env.portChoice attempts) with
  | mk pa taken =>
      cases taken with
      | none => rfl
      | some port =>
          dsimp only
          cases env.bindResult attempts <;> rfl

/-- The lifetime granted to a request, in seconds. -/
def grantedSecs (t : AllocationTable) (requestedLifetime : Option UInt32) : UInt32 :=
  let lifetimeSecs := requestedLifetime.getD 600
  match t.maxAllocationDurationSecs with
  | some maxLifetime => if lifetimeSecs.toNat > maxLifetime.toNat then maxLifetime else lifetimeSecs
  | none => lifetimeSecs

/-- The quota check of `create_allocation`. -/
def quotaReached (t : AllocationTable) : Bool :=
  match t.maxConcurrentAllocations with
  | some max => decide ((max : ℤ) ≤ t.stats.activeAllocations)
  | none => false

/-- The allocation that a bound relay port makes. -/
def newAllocation (t : AllocationTable) (env : Env) (clientAddr : SocketAddr)
    (requestedLifetime : Option UInt32) (port : UInt16) : Allocation :=
  let relayedAddr := .v4 t.externalAddr port
  .withRelay env.now (getrandom env.systemTime) relayedAddr clientAddr
    (fromSecs (t.grantedSecs requestedLifetime).toNat) clientAddr relayedAddr
    ⟨.v4 t.bindAddr port⟩

/-- `AllocationTable::create_allocation`. -/
def createAllocation (t : AllocationTable) (env : Env) (clientAddr : SocketAddr)
    (requestedLifetime : Option UInt32) : AllocationTable × Except Error Allocation :=
  if t.quotaReached then (t, .error .allocationQuotaReached)
  else
    match acquireRelay t.bindAddr env 100 0 t.portAllocator none with
    | (pa, .error e) => ({ t with portAllocator := pa }, .error e)
    | (pa, .ok port) =>
      let allocation := t.newAllocation env clientAddr requestedLifetime port
      ({ t with
          portAllocator := pa,
          allocations := t.allocations.insert allocation.relayedAddr allocation,
          stats := { t.stats with
            totalAllocations := t.stats.totalAllocations + 1,
            activeAllocations := t.stats.activeAllocations + 1 },
          bandwidthManager :=
            t.bandwidthManager.registerAllocation env.now allocation.relayedAddr.toString none },
        .ok allocation)

/-! ### Removal -/

/-- What the removal of one entry does to everything but the counter of active allocations. -/
def dropEntry (t : AllocationTable) (ct : ChannelTable) (addr : SocketAddr) :
    AllocationTable × ChannelTable :=
  ({ t with
      allocations := t.allocations.erase addr,
      portAllocator := (t.portAllocator.release addr.port).1,
      bandwidthManager := t.bandwidthManager.unregisterAllocation addr.toString },
    ct.removeForRelayed addr)

/-- `active_allocations.fetch_sub(n)`. -/
def subActive (t : AllocationTable) (n : ℕ) : AllocationTable :=
  { t with stats := { t.stats with activeAllocations := t.stats.activeAllocations - n } }

/-- `AllocationTable::remove_allocation(relayed_addr, Some(ct))`. -/
def removeAllocation (t : AllocationTable) (ct : ChannelTable) (relayedAddr : SocketAddr) :
    (AllocationTable × ChannelTable) × Option Allocation :=
  match t.allocations.lookup relayedAddr with
  | some allocation =>
    let (t, ct) := t.dropEntry ct relayedAddr
    ((t.subActive 1, ct), some allocation)
  | none => ((t, ct), none)

/-- The loop of `cleanup_expired` over the expired addresses, with the number removed so far. -/
def dropEntries (t : AllocationTable) (ct : ChannelTable) :
    List SocketAddr → ℕ → (AllocationTable × ChannelTable) × ℕ
  | [], count => ((t, ct), count)
  | addr :: addrs, count =>
    match t.allocations.lookup addr with
    | some _ =>
      let (t, ct) := t.dropEntry ct addr
      dropEntries t ct addrs (count + 1)
    | none => dropEntries t ct addrs count

/-- The addresses `cleanup_expired` collects. -/
def expiredAddrs (t : AllocationTable) (now : ℕ) : List SocketAddr :=
  (t.allocations.entries.filter (fun e => e.2.isExpired now)).map Sigma.fst

/-- `AllocationTable::cleanup_expired(Some(ct))`. -/
def cleanupExpired (t : AllocationTable) (ct : ChannelTable) (now : ℕ) :
    (AllocationTable × ChannelTable) × ℕ :=
  let ((t, ct), count) := t.dropEntries ct (t.expiredAddrs now) 0
  ((t.subActive count, ct), count)

/-! ### Lookup and update by client -/

/-- The first entry, in iteration order, whose allocation belongs to a client. -/
def entryOfClient (t : AllocationTable) (clientAddr : SocketAddr) :
    Option (Σ _ : SocketAddr, Allocation) :=
  t.allocations.entries.find? (fun e => e.2.clientAddr = clientAddr)

/-- `AllocationTable::find_allocation_by_client`. -/
def findAllocationByClient (t : AllocationTable) (clientAddr : SocketAddr) : Option SocketAddr :=
  (t.entryOfClient clientAddr).map (fun e => e.2.relayedAddr)

/-- `AllocationTable::get_allocation_by_client`. -/
def getAllocationByClient (t : AllocationTable) (clientAddr : SocketAddr) : Option Allocation :=
  (t.entryOfClient clientAddr).map (fun e => e.2)

/-- `AllocationTable::refresh_allocation`: the new lifetime is stored as it is, and the time of
    creation stays. -/
def refreshAllocation (t : AllocationTable) (relayedAddr : SocketAddr) (lifetime : UInt32) :
    Except Error AllocationTable :=
  match t.allocations.lookup relayedAddr with
  | some _ =>
    .ok { t with
          allocations := t.allocations.modify relayedAddr
            (fun a => { a with lifetime := fromSecs lifetime.toNat }) }
  | none => .error .notFound

/-- `AllocationTable::add_permissions`. -/
def addPermissions (t : AllocationTable) (clientAddr : SocketAddr) (peers : List SocketAddr) :
    AllocationTable × Bool :=
  match t.entryOfClient clientAddr with
  | some e =>
    let ips := (peers.map SocketAddr.ip).toFinset
    ({ t with allocations :=
        t.allocations.modify e.1 (fun a => { a with permissions := a.permissions ∪ ips }) }, true)
  | none => (t, false)

/-- `AllocationTable::send_to_peer`: the table after it and the packet sent. -/
def sendToPeer (t : AllocationTable) (sendOk : Bool) (clientAddr peer : SocketAddr) (data : Bytes) :
    AllocationTable × Option Packet :=
  match t.entryOfClient clientAddr with
  | none => (t, none)
  | some e =>
    if peer.ip ∉ e.2.permissions then (t, none)
    else
      match e.2.relay with
      | none => (t, none)
      | some relay =>
        if sendOk then
          ({ t with
              stats := { t.stats with
                totalBytesRelayed := t.stats.totalBytesRelayed + data.length,
                totalMessages := t.stats.totalMessages + 1 },
              allocations := t.allocations.modify e.1 (fun a => { a with
                bytesForwarded := a.bytesForwarded + data.length,
                messagesForwarded := a.messagesForwarded + 1 }) },
            some ⟨relay.socket, peer, data⟩)
        else (t, none)

end AllocationTable

end Miuturn
