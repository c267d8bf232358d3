import Miuturn.Channels
import Miuturn.InteropRelay
import Miuturn.Permissions

set_option autoImplicit false

/-! # Two channels make a tunnel

Two clients of the server that have each bound a channel to the relayed address of the other need no
Send and Data indications: a ChannelData frame of one goes from its relay socket to the relay socket
of the other and comes out there as a ChannelData frame on the other's channel. The four bytes in
front change, the payload does not.

The numbers at the two ends are chosen by the two clients and need not be the same. -/

open RustStd

namespace Miuturn.TurnCli

variable {D : Digests} {socks : List SocketAddr} {sock sock' : SocketAddr} {w w' : World}
  {server : TurnServer} {st st' : Stage} {port port' n n' : UInt16} {a a' : Allocation}
  {b b' : ChannelBinding} {payload : Bytes}

/-! ## A frame -/

theorem u16At_channelDataPacket (n : UInt16) (payload : Bytes) :
    u16At (channelDataPacket n payload) 0 = .ok n := by
  rw [channelDataPacket_eq]
  exact u16At_append [] n _

theorem channelPayload_channelDataPacket (n : UInt16) (hlen : payload.length ≤ 65535) :
    channelPayload (channelDataPacket n payload) = payload := by
  have hfield : u16At (channelDataPacket n payload) 2 = .ok (UInt16.ofNat payload.length) := by
    rw [channelDataPacket_eq]
    exact u16At_append (putU16 n) _ payload
  rw [channelPayload, hfield]
  dsimp only
  rw [toNat_ofNat_of_le_65535 hlen]
  simp [channelDataPacket]

/-! ## One end -/

/-- The client's allocation is the one at a port of the server, and `n` is its one channel to the
    relayed address at `port'`. -/
structure ChannelEnd (server : TurnServer) (sock : SocketAddr) (port : UInt16) (a : Allocation)
    (n : UInt16) (b : ChannelBinding) (port' : UInt16) : Prop where
  lookup : server.allocationTable.allocations.lookup (.v4 server.allocationTable.externalAddr port)
    = some a
  client : a.clientAddr = sock
  relay : a.relay = some ⟨.v4 server.allocationTable.bindAddr port⟩
  number : isChannelNumber n = true
  binding : server.channelTable.getByChannel (.v4 server.allocationTable.externalAddr port) n
    = some b
  peer : b.peerAddr = .v4 server.allocationTable.externalAddr port'
  only : ∀ n' b', server.channelTable.getByChannel
    (.v4 server.allocationTable.externalAddr port) n' = some b' → b'.peerAddr = b.peerAddr → n' = n

/-- Neither the allocation nor the channel has expired. -/
def Lasts (a : Allocation) (b : ChannelBinding) (now : ℕ) : Prop :=
  now ≤ a.createdAt + a.lifetime ∧ now ≤ b.createdAt + b.lifetime

theorem Lasts.mono {now now' : ℕ} (h : Lasts a b now') (hle : now ≤ now') : Lasts a b now :=
  ⟨hle.trans h.1, hle.trans h.2⟩

namespace ChannelEnd

theorem unmoved {P : SocketAddr → Prop} (h : ChannelEnd w.server sock port a n b port')
    (hunmoved : Unmoved P w w') (hsock : P sock) (hlasts : Lasts a b w'.clock) :
    ChannelEnd w'.server sock port a n b port' := by
  have hkept := hunmoved.allocations _ a (h.client ▸ hsock) h.lookup hlasts.1
  have hext : w'.server.allocationTable.externalAddr = w.server.allocationTable.externalAddr :=
    congrArg Prod.snd hunmoved.addrs
  have hbind : w'.server.allocationTable.bindAddr = w.server.allocationTable.bindAddr :=
    congrArg Prod.fst hunmoved.addrs
  constructor
  · rw [hext]
    exact hkept.allocation
  · exact h.client
  · rw [hbind]
    exact h.relay
  · exact h.number
  · rw [hext]
    exact hkept.alive n b h.binding hlasts.2
  · rw [hext]
    exact h.peer
  · intro n' b' hb' hpeer
    rw [hext] at hb'
    exact h.only n' b' (hkept.old n' b' hb') hpeer

/-- What the server does with a frame on the channel. -/
theorem serve (h : ChannelEnd server sock port a n b port') (hc : server.Consistent) (D : Digests)
    {env : Env} (hsend : env.sendOk = true) (hlen : payload.length ≤ 65535) :
    TurnCli.serve D env server (channelDataPacket n payload) sock = ⟨server, none,
      some ⟨.v4 server.allocationTable.bindAddr port, .v4 server.allocationTable.externalAddr port',
        payload⟩, 0⟩ := by
  have hfour : 4 ≤ (channelDataPacket n payload).length := by simp [channelDataPacket]
  have hentry : server.allocationTable.entryOfClient sock
      = some ⟨.v4 server.allocationTable.externalAddr port, a⟩ := by
    rw [← h.client]
    exact hc.entryOfClient h.lookup
  have ha : server.allocationTable.getAllocationByClient sock = some a := by
    rw [AllocationTable.getAllocationByClient, hentry]
    rfl
  have hb : server.channelTable.getByChannel a.relayedAddr n = some b := by
    rw [(hc.key _ _ h.lookup).1]
    exact h.binding
  have hframe : isChannelDataFrame (channelDataPacket n payload) = .ok true :=
    isChannelDataFrame_eq_true.2 ⟨hfour, n, u16At_channelDataPacket n payload, h.number⟩
  have hhandled := handleChannelData_bound env hfour (u16At_channelDataPacket n payload) ha h.relay
    hb
  rw [TurnCli.serve, handleUdpMessage, handleUdpWith, if_neg (by omega), hframe, Rust.ok_bind,
    if_pos rfl, hhandled, hsend, if_pos rfl, h.peer, channelPayload_channelDataPacket n hlen]

theorem taskAt (h : ChannelEnd server sock port a n b port') (hc : server.Consistent) :
    taskAt server (.v4 server.allocationTable.externalAddr port)
      = some ⟨sock, .v4 server.allocationTable.bindAddr port,
          .v4 server.allocationTable.externalAddr port⟩ := by
  rw [TurnCli.taskAt, h.lookup, Option.bind_some, Allocation.task, h.relay, Option.map_some,
    h.client, (hc.key _ _ h.lookup).1]

/-- What comes from the other relay is handed on as a frame on the channel. -/
theorem packetFor (h : ChannelEnd server sock port a n b port') (systemTime : ℕ)
    {task : RelayTask} {source : SocketAddr}
    (hrelayed : task.relayedAddr = .v4 server.allocationTable.externalAddr port)
    (hsource : task.effectivePeer source = .v4 server.allocationTable.externalAddr port')
    (payload : Bytes) :
    task.packetFor systemTime server.channelTable source payload
      = ⟨task.clientAddr, channelDataPacket n payload⟩ := by
  have hfound : server.channelTable.getByPeerForRelayed task.relayedAddr
      (task.effectivePeer source) = some n := by
    rw [hrelayed, hsource, ← h.peer]
    obtain ⟨e, hmem, hkey, hpeer⟩ := ChannelTable.mem_entries_iff.2 ⟨b, h.binding, rfl⟩
    cases hfind : server.channelTable.getByPeerForRelayed
        (.v4 server.allocationTable.externalAddr port) b.peerAddr with
    | none =>
        have hnone := List.find?_eq_none.1 (Option.map_eq_none_iff.1 hfind) e hmem
        rw [hkey, hpeer] at hnone
        exact absurd (decide_eq_true ⟨rfl, rfl⟩) hnone
    | some n' =>
        obtain ⟨b', hb', hpeer'⟩ := ChannelTable.leadsTo_of_getByPeerForRelayed hfind
        rw [h.only n' b' hb' hpeer']
  rw [RelayTask.packetFor, hfound]

end ChannelEnd

/-- The two clients of a tunnel, what they hold, and their channels. -/
structure Tunnel where
  sock : Bool → SocketAddr
  port : Bool → UInt16
  number : Bool → UInt16
  allocation : Bool → Allocation
  binding : Bool → ChannelBinding
  distinct : sock true ≠ sock false

namespace Tunnel

variable (t : Tunnel)

/-- The sockets of the two clients. -/
def ends : List SocketAddr := [t.sock false, t.sock true]

/-- The frame for a payload at one end. -/
def frame (i : Bool) (payload : Bytes) : Bytes := channelDataPacket (t.number i) payload

/-- What the two clients do: one sends a payload, or one reads its socket, until the timeout if
    there is nothing to read. -/
inductive Use where
  | send (i : Bool) (payload : Bytes)
  | receive (i : Bool) (datagram : Option Bytes)

def Use.Short : Use → Prop
  | .send _ payload => payload.length ≤ 65535
  | .receive _ _ => True

def Step (D : Digests) (st : Stage) (use : Use) (st' : Stage) : Prop :=
  match use with
  | .send i payload => Answers D t.ends st (.sendTo (t.sock i) (t.frame i payload)) none st'
  | .receive i datagram => Answers D t.ends st (.recvFrom (t.sock i)) datagram st'

/-- The payloads sent at one end. -/
def sentAt (i : Bool) (uses : List Use) : List Bytes :=
  uses.filterMap fun
    | .send j payload => if j = i then some payload else none
    | .receive _ _ => none

/-- The datagrams received at one end. -/
def receivedAt (i : Bool) (uses : List Use) : List Bytes :=
  uses.filterMap fun
    | .send _ _ => none
    | .receive j datagram => if j = i then datagram else none

variable {t}

theorem sock_not (i : Bool) : t.sock (!i) ≠ t.sock i := by
  cases i
  · exact t.distinct
  · exact t.distinct.symm

theorem Step.unmoved {use : Use} (h : t.Step D st use st') (hc : st.world.server.Consistent) :
    Unmoved (fun _ => False) st.world st'.world := by
  cases use with
  | send i payload => exact Answers.unmoved h hc
  | receive i datagram => exact Answers.unmoved h hc

/-- The books of one end: what was received and what waits there is what had been waiting and what
    was sent at the other. -/
def Balanced (t : Tunnel) (st : Stage) (uses : List Use) (st' : Stage) : Prop :=
  ∀ i, receivedAt i uses ++ st'.mail (t.sock i)
    = st.mail (t.sock i) ++ (sentAt (!i) uses).map (t.frame i)

theorem sentAt_snoc (i : Bool) (uses : List Use) (use : Use) :
    sentAt i (uses ++ [use]) = sentAt i uses ++ sentAt i [use] :=
  List.filterMap_append ..

theorem receivedAt_snoc (i : Bool) (uses : List Use) (use : Use) :
    receivedAt i (uses ++ [use]) = receivedAt i uses ++ receivedAt i [use] :=
  List.filterMap_append ..

theorem Balanced.send {st₁ : Stage} {uses : List Use} {i : Bool} (h : t.Balanced st uses st₁)
    (hmail : st'.mail = post st₁.mail (t.sock !i) [t.frame (!i) payload]) :
    t.Balanced st (uses ++ [.send i payload]) st' := by
  intro j
  have hnothing : receivedAt j [.send i payload] = [] := rfl
  rw [receivedAt_snoc, hnothing, List.append_nil, sentAt_snoc, List.map_append, ← List.append_assoc,
    ← h j, List.append_assoc, hmail]
  congr 1
  by_cases hj : j = !i
  · subst hj
    rw [post_self]
    simp [sentAt]
  · obtain rfl : j = i := by
      cases i <;> cases j <;> simp_all
    rw [post, Function.update_of_ne (sock_not j).symm]
    simp [sentAt]

theorem Balanced.receive {st₁ : Stage} {uses : List Use} {i : Bool} {datagram : Option Bytes}
    (h : t.Balanced st uses st₁)
    (hanswer : Answers D t.ends st₁ (.recvFrom (t.sock i)) datagram st') :
    t.Balanced st (uses ++ [.receive i datagram]) st' := by
  intro j
  have hnothing : sentAt (!j) [.receive i datagram] = [] := rfl
  rw [receivedAt_snoc, sentAt_snoc, hnothing, List.append_nil, ← h j, List.append_assoc]
  congr 1
  by_cases hj : j = i
  · subst hj
    cases hanswer with
    | recvFrom hmail => simp [receivedAt, hmail]
    | timeout hmail => simp [receivedAt]
  · have hsock : t.sock j ≠ t.sock i := by
      obtain rfl : j = !i := by
        cases i <;> cases j <;> simp_all
      exact sock_not i
    cases hanswer with
    | recvFrom _ => simp [receivedAt, Ne.symm hj, hsock]
    | timeout _ => simp [receivedAt, Ne.symm hj]

end Tunnel

end Miuturn.TurnCli
