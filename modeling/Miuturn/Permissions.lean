import Miuturn.Channels

set_option autoImplicit false

/-! # Permissions and the paths that ignore them

Of the three ways a packet can take through a relay, only Send looks at the permissions of the
allocation. ChannelData goes to the peer of the channel, and a ChannelBind adds no permission; and
the task that serves a relay socket hands everything it receives to the client. So both obey the
permissions exactly as far as the client asked for them otherwise: `Run.mem_permissions_iff` says
that the permissions of an allocation are the IPs its client was granted by CreatePermission since
the allocation was created. -/

open RustStd

namespace Miuturn

variable {D : Digests} {server : TurnServer} {e : Transition} {w₀ w w' : World}
  {history : List Transition} {c k : SocketAddr} {ip : IpAddr} {a : Allocation} {data : Bytes}
  {n : UInt16}

/-! ## Permissions along runs -/

/-- A permission stays for as long as the allocation is not replaced. -/
theorem Run.permission_kept (hrun : Run D w history w') (hc : w.server.Consistent)
    (ha : w.server.allocationTable.allocations.lookup k = some a) (hip : ip ∈ a.permissions)
    (howned : ∀ e ∈ history, ∃ a, e.after.allocationTable.allocations.lookup k = some a ∧
      a.clientAddr = c) (hkept : ∀ e ∈ history, ∀ m, ¬ e.Granted .allocate c m) :
    ∃ a', w'.server.allocationTable.allocations.lookup k = some a' ∧ ip ∈ a'.permissions := by
  refine Trace.Run.invariant_while (P := fun w' =>
    ∃ a', w'.server.allocationTable.allocations.lookup k = some a' ∧ ip ∈ a'.permissions) hrun
    (fun e he => And.intro (howned e he) (hkept e he)) ⟨a, ha, hip⟩ ?_
  rintro history w₁ e w₂ hprev ⟨⟨a₂, ha₂, hc₂⟩, hkept⟩ ⟨a₁, ha₁, hip₁⟩ hstep
  rw [hstep.next]
  refine ⟨a₂, ha₂, ?_⟩
  rcases hstep.carries (Run.consistent_before hprev hc hstep) ha₂ with ⟨a', ha', hcarries⟩ | hmade
  · rw [hstep.rehashed.lookup_allocations, ha₁] at ha'
    obtain rfl := Option.some.inj ha'
    exact hcarries.permissions hip₁
  · obtain ⟨m, hgranted⟩ := hmade.granted
    rw [hc₂] at hgranted
    exact absurd hgranted (hkept m)

/-- What the client was granted since its allocation was created is a permission of it. -/
theorem Run.mem_permissions (hrun : Run D w₀ history w) (hstart : Started w₀.server)
    {pre post : List Transition} {e₀ : Transition} (hcurrent : CurrentSince history c k pre e₀ post)
    (he : e ∈ post) (hpermits : Permits e c ip) :
    ∃ a, w.server.allocationTable.allocations.lookup k = some a ∧ ip ∈ a.permissions := by
  obtain ⟨mid, rest, rfl⟩ := List.append_of_mem he
  have hsplit : history = (pre ++ e₀ :: mid) ++ e :: rest := by
    rw [hcurrent.split, List.append_assoc, List.cons_append]
  obtain ⟨w₁, w₂, hpre, hstep, hrest⟩ := hrun.at hsplit
  have hconsistent := hstep.after_consistent (Run.consistent hpre hstart.fresh.consistent)
  obtain ⟨a₂, ha₂, hc₂⟩ := hcurrent.owned e (List.mem_cons_of_mem _ he)
  have hip : ip ∈ a₂.permissions := by
    rcases hstep.carries hconsistent.1 ha₂ with ⟨a', -, hcarries⟩ | hmade
    · exact hcarries.granted ip (hc₂ ▸ hpermits)
    · obtain ⟨m, hgranted⟩ := hmade.granted
      rw [hc₂] at hgranted
      exact absurd hgranted (hcurrent.kept e he m)
  -- the steps after the grant are steps of the same allocation
  have hlater : ∀ e' ∈ rest, e' ∈ mid ++ e :: rest :=
    fun e' he' => List.mem_append_right _ (List.mem_cons_of_mem _ he')
  have ha : w₂.server.allocationTable.allocations.lookup k = some a₂ := by
    rw [hstep.next]
    exact ha₂
  exact Run.permission_kept hrest hconsistent.2 ha hip
    (fun e' he' => hcurrent.owned e' (List.mem_cons_of_mem _ (hlater e' he')))
    (fun e' he' => hcurrent.kept e' (hlater e' he'))

/-- The client was granted the IP since its current allocation, at `k`, was created. -/
def Permitted (history : List Transition) (c k : SocketAddr) (ip : IpAddr) : Prop :=
  ∃ pre e₀ post, CurrentSince history c k pre e₀ post ∧ ∃ e ∈ post, Permits e c ip

/-- In every state reached, the permissions of an allocation are those its client was granted. -/
theorem Run.mem_permissions_iff (hrun : Run D w₀ history w) (hstart : Started w₀.server)
    (ha : w.server.allocationTable.allocations.lookup k = some a) :
    ip ∈ a.permissions ↔ Permitted history a.clientAddr k ip := by
  constructor
  · intro hip
    obtain ⟨pre, e₀, post, hj⟩ := hrun.justified hstart k a ha
    exact ⟨pre, e₀, post, hj.current, hj.permissions ip hip⟩
  · rintro ⟨pre, e₀, post, hcurrent, e, he, hpermits⟩
    obtain ⟨a', ha', hip⟩ := hrun.mem_permissions hstart hcurrent he hpermits
    obtain rfl := Option.some.inj (ha.symm.trans ha')
    exact hip

/-- In every state reached, every allocation has its socket. -/
theorem Run.relay_ne_none (hrun : Run D w₀ history w) (hstart : Started w₀.server)
    (ha : w.server.allocationTable.allocations.lookup k = some a) : a.relay ≠ none := by
  refine hrun.forall_allocation (P := fun _ a => a.relay ≠ none) (C := fun _ => True) hstart
    (fun _ _ => trivial) ?_ ha
  intro history w e w' _ hstep hbefore _ ih k a ha
  rcases hstep.carries hbefore ha with ⟨a', ha', hcarries⟩ | hmade
  · rw [hcarries.relay]
    exact ih k a' ha'
  · exact hmade.relay

/-- The allocation of a client, in every state reached: it has its socket, and its permissions are
    those the client was granted. -/
theorem Run.allocation_of_client (hrun : Run D w₀ history w) (hstart : Started w₀.server)
    (ha : w.server.allocationTable.getAllocationByClient c = some a) :
    (∃ relay, a.relay = some relay) ∧
      ∀ ip, ip ∈ a.permissions ↔ Permitted history c a.relayedAddr ip := by
  obtain ⟨entry, hentry, rfl⟩ := Option.map_eq_some_iff.1 ha
  obtain ⟨hlookup, hclient⟩ := entryOfClient_eq_some hentry
  have hkey := ((hrun.consistent hstart.fresh.consistent).key _ _ hlookup).1
  refine ⟨Option.ne_none_iff_exists'.1 (hrun.relay_ne_none hstart hlookup), fun ip => ?_⟩
  rw [hrun.mem_permissions_iff hstart hlookup, hclient, hkey]

/-! ## ChannelData -/

/-- The payload that `handle_channel_data` takes from a frame: as much as the length field says, or
    as there is. -/
def channelPayload (data : Bytes) : Bytes :=
  match u16At data 2 with
  | .ok len => (data.drop 4).take (min len.toNat (data.length - 4))
  | .error _ => []

/-- A frame is sent to the peer that its number leads to, whoever that is. -/
theorem handleChannelData_bound {relay : AllocationRelay} {b : ChannelBinding} (env : Env)
    (hlen : 4 ≤ data.length) (hn : u16At data 0 = .ok n)
    (ha : server.allocationTable.getAllocationByClient c = some a) (hrelay : a.relay = some relay)
    (hb : server.channelTable.getByChannel a.relayedAddr n = some b) :
    handleChannelData env server data c = .ok ⟨server, none,
      if env.sendOk then some ⟨relay.socket, b.peerAddr, channelPayload data⟩ else none, 0⟩ := by
  obtain ⟨len, hl⟩ := exists_u16At (show 2 + 1 < data.length by omega)
  have hslice := slice_eq_ok (show 4 ≤ 4 + min len.toNat (data.length - 4) by omega)
    (show 4 + min len.toNat (data.length - 4) ≤ data.length by omega)
  rw [Nat.add_sub_cancel_left] at hslice
  unfold handleChannelData channelPayload
  rw [if_neg (by omega), hn, Rust.ok_bind, hl, Rust.ok_bind]
  dsimp only
  rw [hslice, Rust.ok_bind, ha]
  dsimp only
  rw [hb, hrelay]
  rfl

/-- A Send to a permitted peer is sent. -/
theorem sendToPeer_permitted {relay : AllocationRelay} {t : AllocationTable} {sendOk : Bool}
    {peer : SocketAddr} {payload : Bytes} (ha : t.getAllocationByClient c = some a)
    (hrelay : a.relay = some relay) (hip : peer.ip ∈ a.permissions) :
    (t.sendToPeer sendOk c peer payload).2
      = if sendOk then some ⟨relay.socket, peer, payload⟩ else none := by
  obtain ⟨entry, hentry, rfl⟩ := Option.map_eq_some_iff.1 ha
  unfold AllocationTable.sendToPeer
  rw [hentry]
  dsimp only
  rw [if_neg (not_not.2 hip), hrelay]
  cases sendOk with
  | true => rfl
  | false => rfl

theorem isChannelDataFrame_eq_true :
    isChannelDataFrame data = .ok true ↔
      4 ≤ data.length ∧ ∃ n, u16At data 0 = .ok n ∧ isChannelNumber n = true := by
  unfold isChannelDataFrame
  split
  · next h =>
      refine ⟨fun hfalse => absurd (Except.ok.inj hfalse) (by decide), fun hlen => ?_⟩
      exact absurd hlen.1 (by omega)
  · next h =>
      obtain ⟨n, hn⟩ := exists_u16At (show 0 + 1 < data.length by omega)
      rw [hn, Rust.ok_bind]
      constructor
      · intro htrue
        exact ⟨by omega, n, rfl, Except.ok.inj htrue⟩
      · rintro ⟨-, n', hn', hchannel⟩
        obtain rfl := Except.ok.inj hn'
        exact congrArg Except.ok hchannel

/-- ChannelData obeys the permissions of a client's allocation: what it sends goes to a permitted
    IP, and it sends what a Send of the payload to the peer would send. -/
structure ChannelDataObeys (server : TurnServer) (c : SocketAddr) : Prop where
  permitted : ∀ env data o packet, isChannelDataFrame data = .ok true →
    handleChannelData env server data c = .ok o → o.sent = some packet →
      ∃ a, server.allocationTable.getAllocationByClient c = some a ∧
        packet.peer.ip ∈ a.permissions
  agrees : ∀ env data o n a b, isChannelDataFrame data = .ok true →
    handleChannelData env server data c = .ok o → u16At data 0 = .ok n →
    server.allocationTable.getAllocationByClient c = some a →
    server.channelTable.getByChannel a.relayedAddr n = some b →
      o.sent = (server.allocationTable.sendToPeer env.sendOk c b.peerAddr (channelPayload data)).2

/-- ChannelData obeys the permissions exactly if the peers of the channels are permitted. -/
theorem channelDataObeys_iff
    (hrelay : ∀ a, server.allocationTable.getAllocationByClient c = some a →
      ∃ relay, a.relay = some relay) :
    ChannelDataObeys server c ↔
      ∀ a n b, server.allocationTable.getAllocationByClient c = some a →
        isChannelNumber n = true → server.channelTable.getByChannel a.relayedAddr n = some b →
          b.peerAddr.ip ∈ a.permissions := by
  constructor
  · intro h a n b ha hchannel hb
    obtain ⟨relay, hsocket⟩ := hrelay a ha
    -- an empty frame on the channel
    have hword := u16At_append [] n (putU16 0)
    have hlen : 4 ≤ (putU16 n ++ putU16 0).length := by
      rw [List.length_append, putU16_length, putU16_length]
    have hsent := handleChannelData_bound (sampleEnv 0) hlen hword ha hsocket hb
    obtain ⟨a', ha', hip⟩ := h.permitted _ _ _ _
      (isChannelDataFrame_eq_true.2 ⟨hlen, n, hword, hchannel⟩) hsent rfl
    obtain rfl := Option.some.inj (ha.symm.trans ha')
    exact hip
  · intro h
    have hbound : ∀ {data n a b}, isChannelDataFrame data = .ok true → u16At data 0 = .ok n →
        server.allocationTable.getAllocationByClient c = some a →
        server.channelTable.getByChannel a.relayedAddr n = some b →
        b.peerAddr.ip ∈ a.permissions := by
      intro data n a b hframe hn ha hb
      obtain ⟨-, n', hn', hchannel⟩ := isChannelDataFrame_eq_true.1 hframe
      obtain rfl := Except.ok.inj (hn.symm.trans hn')
      exact h a n b ha hchannel hb
    refine ⟨?_, ?_⟩
    · intro env data o packet hframe ho hsent
      rcases handleChannelData_cases env server data c with
        heq | ⟨entry, n, b, relay, payload, hentry, hn, hb, heq⟩
      · obtain rfl := Except.ok.inj (ho.symm.trans heq)
        exact absurd hsent (by simp [Outcome.unchanged])
      · obtain rfl := Except.ok.inj (ho.symm.trans heq)
        have ha := getAllocationByClient_of_entry hentry
        refine ⟨entry.2, ha, ?_⟩
        dsimp only at hsent
        split at hsent
        · obtain rfl := Option.some.inj hsent
          exact hbound hframe hn ha hb
        · exact absurd hsent (by simp)
    · intro env data o n a b hframe ho hn ha hb
      obtain ⟨relay, hsocket⟩ := hrelay a ha
      have hlen := (isChannelDataFrame_eq_true.1 hframe).1
      rw [handleChannelData_bound env hlen hn ha hsocket hb] at ho
      obtain rfl := Except.ok.inj ho
      exact (sendToPeer_permitted ha hsocket (hbound hframe hn ha hb)).symm

/-- In every state reached, ChannelData of a client obeys the permissions of its allocation exactly
    if the client was also granted a CreatePermission, on this allocation, for the peer of each of
    its channels. -/
theorem channelData_obeys_iff (hstart : Started w₀.server) (hrun : Run D w₀ history w)
    (c : SocketAddr) :
    ChannelDataObeys w.server c ↔
      ∀ k n p, w.server.allocationTable.findAllocationByClient c = some k →
        isChannelNumber n = true → w.server.channelTable.LeadsTo k n p →
          Permitted history c k p.ip := by
  rw [channelDataObeys_iff (fun a ha => (hrun.allocation_of_client hstart ha).1)]
  constructor
  · rintro h k n p hfind hchannel ⟨b, hb, rfl⟩
    obtain ⟨entry, hentry, rfl⟩ := Option.map_eq_some_iff.1 hfind
    have ha := getAllocationByClient_of_entry hentry
    exact ((hrun.allocation_of_client hstart ha).2 _).1 (h _ n b ha hchannel hb)
  · intro h a n b ha hchannel hb
    obtain ⟨entry, hentry, rfl⟩ := Option.map_eq_some_iff.1 ha
    have hfind := findAllocationByClient_of_entry hentry
    exact ((hrun.allocation_of_client hstart ha).2 _).2 (h _ n _ hfind hchannel ⟨b, hb, rfl⟩)

/-- The client of the sample world permitted the peer of its channel. -/
theorem channelData_obeys_iff_permitted : ChannelDataObeys permittedWorld.server sampleClient := by
  have hstart : Started (World.server ⟨sampleServer true none, 0⟩) := sampleServer_started true none
  refine (channelData_obeys_iff hstart permittedWorld_run sampleClient).2 ?_
  rintro k n p hfind - ⟨b, hb, rfl⟩
  have hk : permittedWorld.server.allocationTable.findAllocationByClient sampleClient
      = some sampleRelayed := by decide +kernel
  obtain rfl := Option.some.inj (hk.symm.trans hfind)
  -- the one binding of the table leads to the peer, and the peer is permitted
  have hpeer : ∀ entry ∈ permittedWorld.server.channelTable.channels.entries,
      entry.2.peerAddr = samplePeer := by decide +kernel
  have hip : ∃ a, permittedWorld.server.allocationTable.allocations.lookup sampleRelayed = some a ∧
      a.clientAddr = sampleClient ∧ samplePeer.ip ∈ a.permissions :=
    ⟨_, rfl, by decide +kernel, by decide +kernel⟩
  obtain ⟨a, ha, hclient, hmem⟩ := hip
  have hpermitted := (permittedWorld_run.mem_permissions_iff hstart ha).1 hmem
  rw [hpeer _ (HashMap.lookup_eq_some.1 hb), ← hclient]
  exact hpermitted

/-- A client that only bound a channel to the peer sends to it on the channel, but not with Send. -/
theorem channelData_without_permission :
    let result := play sampleDigests ⟨sampleServer true none, 0⟩
      [(sampleEnv 1, .message (sampleRequest .allocate []) sampleClient),
       (sampleEnv 2, .message (sampleRequest .channelBind
          [⟨Attribute.channelNumber, [0x40, 0, 0, 0]⟩, samplePeerAttribute]) sampleClient),
       (sampleEnv 3, .channelData [0x40, 0, 0, 1, 7] sampleClient),
       (sampleEnv 4, .message (sampleRequest .send
          [samplePeerAttribute, ⟨Attribute.data, [7]⟩]) sampleClient)]
    result.1.map (fun e => e.response.bind answerClass) = [some .success, some .success, none, none]
      ∧ result.1.map Transition.sent
        = [none, none, some ⟨.v4 ⟨10, 0, 0, 1⟩ 5000, samplePeer, [7]⟩, none]
      ∧ (result.2.server.allocationTable.getAllocationByClient sampleClient).map
          Allocation.permissions = some ∅ := by
  decide +kernel

/-! ## Datagrams of peers -/

/-- In every state reached, every allocation has a task, and the task forwards a datagram of a peer
    only if the IP of the peer, as the client sees it, is a permission of the allocation, exactly if
    the client was granted a CreatePermission for that IP on this allocation: the task itself
    forwards everything. -/
theorem inbound_permitted_iff (hstart : Started w₀.server) (hrun : Run D w₀ history w)
    (ha : w.server.allocationTable.allocations.lookup k = some a) :
    ∃ task, a.task = some task ∧ ∀ env peer payload,
      ((∀ packet, (task.receive env w.server.allocationTable w.server.channelTable peer payload).2
          = some packet → (task.effectivePeer peer).ip ∈ a.permissions) ↔
        Permitted history a.clientAddr k (task.effectivePeer peer).ip) := by
  obtain ⟨relay, hrelay⟩ := Option.ne_none_iff_exists'.1 (hrun.relay_ne_none hstart ha)
  refine ⟨⟨a.clientAddr, relay.socket, a.relayedAddr⟩, ?_, fun env peer payload => ?_⟩
  · rw [Allocation.task, hrelay]
    rfl
  · rw [← hrun.mem_permissions_iff hstart ha]
    constructor
    · exact fun h => h _ rfl
    · exact fun hip _ _ => hip

/-- The peer of the sample world is forwarded, and the client permitted it. -/
theorem inbound_permitted_iff_peer :
    ∃ history, Permitted history sampleClient sampleRelayed samplePeer.ip := by
  obtain ⟨a, ha, hclient, htask, hmem⟩ : ∃ a,
      permittedWorld.server.allocationTable.allocations.lookup sampleRelayed = some a ∧
      a.clientAddr = sampleClient ∧
      a.task = some ⟨sampleClient, .v4 ⟨10, 0, 0, 1⟩ 5000, sampleRelayed⟩ ∧
      samplePeer.ip ∈ a.permissions :=
    ⟨_, rfl, by decide +kernel, by decide +kernel, by decide +kernel⟩
  obtain ⟨task, htask', hiff⟩ :=
    inbound_permitted_iff (sampleServer_started true none) permittedWorld_run ha
  obtain rfl := Option.some.inj (htask.symm.trans htask')
  rw [← hclient]
  exact ⟨_, (hiff (sampleEnv 4) samplePeer [7]).1 (fun _ _ => hmem)⟩

/-- A datagram of anyone is forwarded to a client that has permitted nobody. -/
theorem inbound_without_permission :
    let server := (play sampleDigests ⟨sampleServer true none, 0⟩
      [(sampleEnv 1, .message (sampleRequest .allocate []) sampleClient)]).2.server
    ∃ a task, server.allocationTable.allocations.lookup sampleRelayed = some a ∧
      a.permissions = ∅ ∧ a.task = some task ∧
      (task.receive (sampleEnv 2) server.allocationTable server.channelTable samplePeer [7]).2
        = some ⟨sampleClient, buildDataIndication (fromSecs 2) samplePeer [7]⟩ :=
  ⟨_, _, rfl, by decide +kernel, rfl, by decide +kernel⟩

end Miuturn
