import Miuturn.Consistency

set_option autoImplicit false

/-! # Where the allocations after a step come from

One case analysis of a step, for every invariant that speaks about single allocations: an allocation
after the step was there before it, with what its client's own request added, or it was created by
the step (`Step.origin`). -/

open RustStd

namespace Miuturn

/-! ## Requests of a history -/

/-- The step is a request of client `c` that was answered with Success. -/
def Transition.Granted (e : Transition) (method : Method) (c : SocketAddr) (m : Message) : Prop :=
  e.event = .message m c ∧ m.header.method = method ∧
    ∃ b, e.response = some b ∧ answerClass b = some .success

/-- The step is a granted CreatePermission of `c` with a decodable address of that IP. -/
def Permits (e : Transition) (c : SocketAddr) (ip : IpAddr) : Prop :=
  ∃ m, e.Granted .createPermission c m ∧ ∃ attr ∈ m.attributes,
    attr.attrType = Attribute.peerAddress ∧
    ∃ q, decodeXorAddress attr.value magicCookie m.header.transactionId = .ok (some q) ∧ q.ip = ip

/-- The step is a granted ChannelBind of `c` for number `n` that created the binding of `n` to `p`
    on the relayed address `k`. -/
def Binds (e : Transition) (c k : SocketAddr) (n : UInt16) (p : SocketAddr) : Prop :=
  ∃ m attr, e.Granted .channelBind c m ∧ m.getAttribute Attribute.channelNumber = some attr ∧
    channelNumberOf attr.value = some n ∧ e.before.channelTable.getByChannel k n = none ∧
    ∃ b, e.after.channelTable.getByChannel k n = some b ∧ b.peerAddr = p

/-! ## Where the allocations after a step come from -/

/-- What becomes of an allocation that a step does not replace: only its client's own requests give
    it a lifetime, permissions and bindings. -/
structure Continues (e : Transition) (k : SocketAddr) (a' a : Allocation) : Prop where
  client : a'.clientAddr = a.clientAddr
  createdAt : a'.createdAt = a.createdAt
  lifetime : a'.lifetime = a.lifetime ∨
    ∃ m, e.event = .message m a.clientAddr ∧ m.header.method = .refresh
  permissions : ∀ ip ∈ a.permissions, ip ∈ a'.permissions ∨ Permits e a.clientAddr ip
  bindings : ∀ n b, e.after.channelTable.getByChannel k n = some b →
    (∃ b', e.before.channelTable.getByChannel k n = some b' ∧ b'.peerAddr = b.peerAddr) ∨
      Binds e a.clientAddr k n b.peerAddr

/-- An allocation after a step was there before it, or the step created it, with no permissions and
    no bindings. -/
inductive Origin (e : Transition) (k : SocketAddr) (a : Allocation) : Prop where
  | kept {a' : Allocation} (hbefore : e.before.allocationTable.allocations.lookup k = some a')
      (hcontinues : Continues e k a' a) (hold : ∀ m, ¬ e.Granted .allocate a.clientAddr m)
  | created {m : Message} (hgranted : e.Granted .allocate a.clientAddr m)
      (hcreatedAt : a.createdAt = e.env.now) (hpermissions : a.permissions = ∅)
      (hbindings : ∀ n, e.after.channelTable.getByChannel k n = none)

/-- Every allocation and binding of the second server is one of the first. -/
structure Shrinks (server server' : TurnServer) : Prop where
  allocations : ∀ k a, server'.allocationTable.allocations.lookup k = some a →
    server.allocationTable.allocations.lookup k = some a
  channels : ∀ key b, server'.channelTable.channels.lookup key = some b →
    server.channelTable.channels.lookup key = some b

theorem Shrinks.refl (server : TurnServer) : Shrinks server server :=
  ⟨fun _ _ h => h, fun _ _ h => h⟩

theorem lookup_channels_removeAllocation {t : AllocationTable} {ct : ChannelTable}
    {addr : SocketAddr} {key : SocketAddr × UInt16} {b : ChannelBinding}
    (h : (t.removeAllocation ct addr).1.2.channels.lookup key = some b) :
    ct.channels.lookup key = some b := by
  cases ha : t.allocations.lookup addr with
  | none =>
      rw [removeAllocation_of_none ha] at h
      exact h
  | some a =>
      rw [removeAllocation_of_some ha] at h
      exact (lookup_removeForRelayed.1 h).1

theorem Shrinks.without (server : TurnServer) (addr : SocketAddr) :
    Shrinks server (server.without addr) :=
  ⟨fun _ _ h => (lookup_removeAllocation.1 h).2, fun _ _ h => lookup_channels_removeAllocation h⟩

theorem Shrinks.removeExisting (server : TurnServer) (client : SocketAddr) :
    Shrinks server (removeExisting server client).1 := by
  rcases removeExisting_cases server client with ⟨-, heq⟩ | ⟨e, -, heq⟩
  · rw [heq]
    exact .refl server
  · rw [heq]
    exact .without server e.2.relayedAddr

theorem Shrinks.cleanupAllocations (server : TurnServer) (now : ℕ) :
    Shrinks server (cleanupAllocations server now).server := by
  refine cleanupExpired_induct (P := fun t ct =>
    Shrinks server { server with allocationTable := t, channelTable := ct }) ?_ (.refl server)
  intro t ct addr h
  exact ⟨fun k a ha => h.allocations k a (lookup_removeAllocation.1 ha).2,
    fun key b hb => h.channels key b (lookup_channels_removeAllocation hb)⟩

variable {e : Transition} {k : SocketAddr} {a : Allocation}

theorem Origin.of_shrinks (h : Shrinks e.before e.after)
    (ha : e.after.allocationTable.allocations.lookup k = some a)
    (hold : ∀ m, ¬ e.Granted .allocate a.clientAddr m) : Origin e k a :=
  .kept (h.allocations k a ha)
    ⟨rfl, rfl, Or.inl rfl, fun _ hip => Or.inl hip,
      fun n b hb => Or.inl ⟨b, h.channels (k, n) b hb, rfl⟩⟩ hold

/-- A step that keeps the bindings, and all of the allocation but its traffic counters and, for a
    Refresh of its client, its lifetime. -/
theorem Origin.of_same {a' : Allocation}
    (ha' : e.before.allocationTable.allocations.lookup k = some a')
    (hsame : a = { a' with
      lifetime := a.lifetime, bytesForwarded := a.bytesForwarded,
      messagesForwarded := a.messagesForwarded })
    (hlifetime : a'.lifetime = a.lifetime ∨
      ∃ m, e.event = .message m a.clientAddr ∧ m.header.method = .refresh)
    (hchannels : e.after.channelTable = e.before.channelTable)
    (hold : ∀ m, ¬ e.Granted .allocate a.clientAddr m) : Origin e k a := by
  refine .kept ha' ⟨by rw [hsame], by rw [hsame], hlifetime, fun ip hip => Or.inl ?_, ?_⟩ hold
  · rw [hsame] at hip
    exact hip
  · intro n b hb
    rw [hchannels] at hb
    exact Or.inl ⟨b, hb, rfl⟩

theorem not_granted_of_method {msg : Message} {client : SocketAddr} {method method' : Method}
    (hevent : e.event = .message msg client) (hmethod : msg.header.method = method')
    (hne : method' ≠ method) (c : SocketAddr) (m : Message) : ¬ e.Granted method c m := by
  rintro ⟨hm, hgranted, -⟩
  obtain ⟨rfl, -⟩ := Event.message.inj (hevent.symm.trans hm)
  exact hne (hmethod.symm.trans hgranted)

theorem not_granted_of_class {b : Bytes} {method : Method} (hresponse : e.response = some b)
    (hclass : answerClass b = some .error) (c : SocketAddr) (m : Message) :
    ¬ e.Granted method c m := by
  rintro ⟨-, -, b', hb', hsuccess⟩
  obtain rfl := Option.some.inj (hresponse.symm.trans hb')
  exact absurd (hclass.symm.trans hsuccess) (by decide)

theorem not_granted_of_inert {msg : Message} {client : SocketAddr} {method : Method}
    (hevent : e.event = .message msg client)
    (hclass : ∀ b, e.response = some b → msg.header.method ≠ .binding →
      answerClass b = some .error) (hmethod : method ≠ .binding) (c : SocketAddr) (m : Message) :
    ¬ e.Granted method c m := by
  rintro ⟨hm, hgranted, b, hb, hsuccess⟩
  obtain ⟨rfl, -⟩ := Event.message.inj (hevent.symm.trans hm)
  exact absurd ((hclass b hb (hgranted ▸ hmethod)).symm.trans hsuccess) (by decide)

variable {D : Digests} {msg : Message} {client : SocketAddr}

/-- A granted CreatePermission adds the addresses it carries to its client's allocation. -/
theorem Origin.of_permitted {entry : Σ _ : SocketAddr, Allocation}
    (hgranted : e.Granted .createPermission client msg)
    (hentry : e.before.allocationTable.entryOfClient client = some entry)
    (hafter : e.after = e.before.withTable
      (e.before.allocationTable.addPermissions client (peersOf msg.attributes)).1)
    (ha : e.after.allocationTable.allocations.lookup k = some a) : Origin e k a := by
  have hold : ∀ m, ¬ e.Granted .allocate a.clientAddr m :=
    fun m => not_granted_of_method hgranted.1 hgranted.2.1 (by decide) _ m
  obtain ⟨hlookup, hclient⟩ := entryOfClient_eq_some hentry
  simp only [hafter, AllocationTable.addPermissions, hentry, HashMap.lookup_modify] at ha
  have hbindings : ∀ n b, e.after.channelTable.getByChannel k n = some b →
      (∃ b', e.before.channelTable.getByChannel k n = some b' ∧ b'.peerAddr = b.peerAddr) ∨
        Binds e a.clientAddr k n b.peerAddr := by
    intro n b hb
    rw [hafter] at hb
    exact Or.inl ⟨b, hb, rfl⟩
  split at ha
  · next hk =>
      rw [hlookup] at ha
      obtain rfl := Option.some.inj ha
      rw [← hk] at hlookup
      refine .kept hlookup ⟨rfl, rfl, Or.inl rfl, ?_, hbindings⟩ hold
      -- a permission of the entry is an old one or one of the addresses in the request
      intro ip hip
      rcases Finset.mem_union.1 hip with hip | hip
      · exact Or.inl hip
      · right
        obtain ⟨q, hq, rfl⟩ := List.mem_map.1 (List.mem_toFinset.1 hip)
        obtain ⟨attr, hattr, hpeer⟩ := List.mem_filterMap.1 hq
        split at hpeer
        · next htype =>
            refine ⟨msg, ?_, attr, hattr, htype, q, by rw [decodeXorAddress_eq, hpeer], rfl⟩
            rw [← hclient] at hgranted
            exact hgranted
        · exact absurd hpeer (by simp)
  · exact .kept ha ⟨rfl, rfl, Or.inl rfl, fun _ hip => Or.inl hip, hbindings⟩ hold

/-- A granted ChannelBind adds at most its own binding. -/
theorem Origin.of_bound {entry : Σ _ : SocketAddr, Allocation} {attr : Attribute} {n : UInt16}
    {peer : SocketAddr} {channels : ChannelTable} (hc : e.before.Consistent)
    (hgranted : e.Granted .channelBind client msg)
    (hentry : e.before.allocationTable.entryOfClient client = some entry)
    (hattr : msg.getAttribute Attribute.channelNumber = some attr)
    (hnumber : channelNumberOf attr.value = some n)
    (hbind : e.before.channelTable.bind e.env.now n peer entry.2.relayedAddr = .ok channels)
    (hafter : e.after = { e.before with channelTable := channels })
    (ha : e.after.allocationTable.allocations.lookup k = some a) : Origin e k a := by
  have hold : ∀ m, ¬ e.Granted .allocate a.clientAddr m :=
    fun m => not_granted_of_method hgranted.1 hgranted.2.1 (by decide) _ m
  obtain ⟨hlookup, hclient⟩ := entryOfClient_eq_some hentry
  have hkey := (hc.key _ _ hlookup).1
  have ha' : e.before.allocationTable.allocations.lookup k = some a := by
    rw [hafter] at ha
    exact ha
  have hchannels : e.after.channelTable = channels := by rw [hafter]
  obtain ⟨hoff, hon⟩ := bind_eq_ok hbind
  refine .kept ha' ⟨rfl, rfl, Or.inl rfl, fun _ hip => Or.inl hip, ?_⟩ hold
  intro n' b hb
  have hb' : channels.channels.lookup (k, n') = some b := by
    rw [hchannels] at hb
    exact hb
  by_cases hsame : (k, n') = (entry.2.relayedAddr, n)
  · obtain ⟨rfl, rfl⟩ := Prod.mk.inj hsame
    rcases hon with ⟨old, hold', -, hnew⟩ | ⟨hnone, hnew⟩
    · obtain rfl := Option.some.inj (hb'.symm.trans hnew)
      exact Or.inl ⟨old, hold', rfl⟩
    · refine Or.inr ⟨msg, attr, ?_, hattr, hnumber, hnone, b, hb, rfl⟩
      -- the entry of the client is the allocation at hand
      rw [hkey] at ha'
      obtain rfl := Option.some.inj (ha'.symm.trans hlookup)
      rw [hclient]
      exact hgranted
  · rw [hoff _ hsame] at hb'
    exact Or.inl ⟨b, hb', rfl⟩

/-- A granted Allocate: the new allocation starts with nothing, the others are those of other
    clients. -/
theorem Origin.of_allocated {lifetime : UInt32} {pa : PortAllocator} {port : UInt16} {i : ℕ}
    (hc : e.before.Consistent) (hgranted : e.Granted .allocate client msg)
    (htake : PortAllocator.Takes
      (removeExisting e.before client).1.allocationTable.portAllocator pa i)
    (hport : port.toNat
      = (removeExisting e.before client).1.allocationTable.portAllocator.minPort.toNat + i)
    (hafter : e.after = (removeExisting e.before client).1.withTable
      ((removeExisting e.before client).1.allocationTable.enter e.env client (some lifetime) pa
        port))
    (ha : e.after.allocationTable.allocations.lookup k = some a) : Origin e k a := by
  have hshrinks := Shrinks.removeExisting e.before client
  have hrest := hc.removeExisting client
  have hfree := hrest.notMem_of_takes htake hport
  have hlookup := ha
  rw [hafter] at hlookup
  rcases HashMap.lookup_insert_eq_some.1 hlookup with ⟨rfl, rfl⟩ | ⟨-, hold⟩
  · refine .created (m := msg) hgranted rfl rfl (fun n => ?_)
    -- a binding of the new address would be one of an address that is not in the map
    cases hb : e.after.channelTable.getByChannel _ n with
    | none => rfl
    | some b =>
        rw [hafter] at hb
        exact absurd (hrest.bindings _ n b hb).2.2 hfree
  · refine .kept (hshrinks.allocations k a hold)
      ⟨rfl, rfl, Or.inl rfl, fun _ hip => Or.inl hip, ?_⟩ ?_
    · intro n b hb
      rw [hafter] at hb
      exact Or.inl ⟨b, hshrinks.channels (k, n) b hb, rfl⟩
    · rintro m ⟨hm, -⟩
      obtain ⟨-, hclient⟩ := Event.message.inj (hgranted.1.symm.trans hm)
      exact hc.client_ne_of_removeExisting hold hclient.symm

theorem Effect.origin (hevent : e.event = .message msg client)
    (he : Effect D e.env e.before msg client ⟨e.after, e.response, e.sent, e.removed⟩)
    (hc : e.before.Consistent) (ha : e.after.allocationTable.allocations.lookup k = some a) :
    Origin e k a := by
  obtain ⟨env, event, before, after, response, sent, removed⟩ := e
  dsimp only at hevent he hc ha
  cases he with
  | inert hclass =>
      exact .of_shrinks (.refl before) ha (not_granted_of_inert hevent hclass (by decide) _)
  | challenge reason _ =>
      exact .of_shrinks ⟨fun _ _ h => h, fun _ _ h => h⟩ ha
        (not_granted_of_class rfl (answerClass_unauthorized env before msg reason) _)
  | allocateFailed _ _ _ hclass =>
      have hshrinks := Shrinks.removeExisting before client
      exact .of_shrinks ⟨hshrinks.allocations, hshrinks.channels⟩ ha
        (not_granted_of_class rfl hclass _)
  | allocated hmethod _ htake hport hclass =>
      exact .of_allocated hc ⟨hevent, hmethod, _, rfl, hclass⟩ htake hport rfl ha
  | deleted hmethod _ _ _ =>
      exact .of_shrinks (.without before _) ha
        (not_granted_of_method hevent hmethod (by decide) _)
  | refreshed hmethod _ hentry _ htable _ =>
      obtain ⟨a', ha', hsame, hoff⟩ := lookup_refreshAllocation htable ha
      refine .of_same ha' ?_ ?_ rfl (not_granted_of_method hevent hmethod (by decide) _)
      · rw [hsame]
      · obtain ⟨hlookup, hclient⟩ := entryOfClient_eq_some hentry
        by_cases heq : a = a'
        · exact Or.inl (by rw [heq])
        · -- the refreshed entry is the one of the client that asked
          right
          rw [not_not.1 (fun hne => heq (hoff hne)), (hc.key _ _ hlookup).1] at ha'
          obtain rfl := Option.some.inj (ha'.symm.trans hlookup)
          refine ⟨msg, ?_, hmethod⟩
          rw [hevent, hsame, ← hclient]
  | permitted hmethod _ hentry hclass =>
      exact .of_permitted ⟨hevent, hmethod, _, rfl, hclass⟩ hentry rfl ha
  | bound hmethod _ hentry _ hchannel hnumber hbind hclass =>
      exact .of_bound hc ⟨hevent, hmethod, _, rfl, hclass⟩ hentry hchannel hnumber hbind rfl ha
  | relayed peer data hmethod =>
      obtain ⟨a', ha', hsame⟩ := lookup_sendToPeer ha
      refine .of_same ha' ?_ (Or.inl ?_) rfl
        (not_granted_of_method hevent hmethod (by decide) _)
      · rw [hsame]
      · rw [hsame]

/-- The steps that are no messages take allocations and bindings away, or leave them as they are. -/
theorem Step.shrinks {w w' : World} (h : Step D w e w')
    (hmessage : ¬ ∃ msg client, e.event = .message msg client) : Shrinks e.before e.after := by
  rw [h.after_eq]
  cases hevent : e.event with
  | message msg client => exact absurd ⟨msg, client, hevent⟩ hmessage
  | channelData data client =>
      obtain ⟨sent, heq, -⟩ := react_channelData D e.env e.before data client
      rw [heq]
      exact .refl e.before
  | cleanupAllocations => exact .cleanupAllocations e.before e.env.now
  | cleanupChannels => exact ⟨fun _ _ h => h, fun _ _ h => lookup_cleanupExpired h⟩
  | cleanupNonces => exact ⟨fun _ _ h => h, fun _ _ h => h⟩
  | changeAuth change => exact ⟨fun _ _ h => h, fun _ _ h => h⟩

theorem not_granted_of_not_message (hmessage : ¬ ∃ msg client, e.event = .message msg client)
    {method : Method} (c : SocketAddr) (m : Message) : ¬ e.Granted method c m :=
  fun hm => hmessage ⟨m, c, hm.1⟩

theorem Step.origin {w w' : World} (h : Step D w e w') (hc : e.before.Consistent)
    (ha : e.after.allocationTable.allocations.lookup k = some a) : Origin e k a := by
  by_cases hmessage : ∃ msg client, e.event = .message msg client
  · obtain ⟨msg, client, hevent⟩ := hmessage
    exact (h.effect hevent).origin hevent hc ha
  · exact .of_shrinks (h.shrinks hmessage) ha (not_granted_of_not_message hmessage _)

/-! ## What a step leaves of an allocation

The other side of `Continues`: not only does nothing but the client's requests add to an allocation,
what they add is there afterwards, and nothing is taken away. -/

/-- What the next version of an allocation has of the one before it, and of the step. -/
structure Carries (D : Digests) (e : Transition) (a' a : Allocation) : Prop where
  client : a.clientAddr = a'.clientAddr
  relay : a.relay = a'.relay
  permissions : a'.permissions ⊆ a.permissions
  granted : ∀ ip, Permits e a.clientAddr ip → ip ∈ a.permissions
  lifetime : a.lifetime = a'.lifetime ∨
    ∃ m L u, e.event = .message m a.clientAddr ∧ m.header.method = .refresh ∧
      verifyTurnAuth D e.env e.before m a.clientAddr = .ok (.ok u) ∧ getLifetime m = .ok L ∧
      a.lifetime = fromSecs L.toNat

/-- The allocation is one that the step made: it has a socket, and its lifetime is at most the
    configured maximum. -/
structure MadeBy (e : Transition) (a : Allocation) : Prop where
  granted : ∃ m, e.Granted .allocate a.clientAddr m
  relay : a.relay ≠ none
  lifetime : ∀ M, e.before.allocationTable.maxAllocationDurationSecs = some M →
    a.lifetime ≤ fromSecs M.toNat

/-- The traffic counters apart, the step leaves the allocation as it is, and it is no granted
    CreatePermission. -/
theorem Carries.of_same {a' : Allocation}
    (hsame : a = { a' with
      bytesForwarded := a.bytesForwarded, messagesForwarded := a.messagesForwarded })
    (hquiet : ∀ c m, ¬ e.Granted .createPermission c m) : Carries D e a' a where
  client := by rw [hsame]
  relay := by rw [hsame]
  permissions := by rw [hsame]
  granted := by
    rintro ip ⟨m, hgranted, -⟩
    exact absurd hgranted (hquiet _ m)
  lifetime := Or.inl (by rw [hsame])

theorem Carries.of_permitted {entry : Σ _ : SocketAddr, Allocation} (hc : e.before.Consistent)
    (hgranted : e.Granted .createPermission client msg)
    (hentry : e.before.allocationTable.entryOfClient client = some entry)
    (hafter : e.after = e.before.withTable
      (e.before.allocationTable.addPermissions client (peersOf msg.attributes)).1)
    (ha : e.after.allocationTable.allocations.lookup k = some a) :
    ∃ a', e.before.allocationTable.allocations.lookup k = some a' ∧ Carries D e a' a := by
  obtain ⟨hlookup, hclient⟩ := entryOfClient_eq_some hentry
  simp only [hafter, AllocationTable.addPermissions, hentry, HashMap.lookup_modify] at ha
  -- the addresses of the request go to the one allocation of its client
  have hips : ∀ {c ip}, Permits e c ip → c = client ∧
      ip ∈ ((peersOf msg.attributes).map SocketAddr.ip).toFinset := by
    rintro c ip ⟨m, ⟨hevent, -⟩, attr, hattr, htype, q, hq, rfl⟩
    obtain ⟨rfl, rfl⟩ := Event.message.inj (hgranted.1.symm.trans hevent)
    refine ⟨rfl, List.mem_toFinset.2 (List.mem_map.2 ⟨q, List.mem_filterMap.2 ⟨attr, hattr, ?_⟩,
      rfl⟩)⟩
    rw [if_pos htype]
    rw [decodeXorAddress_eq] at hq
    exact Except.ok.inj hq
  split at ha
  · next hk =>
      rw [hlookup] at ha
      obtain rfl := Option.some.inj ha
      refine ⟨entry.2, by rw [hk]; exact hlookup, rfl, rfl, Finset.subset_union_left, ?_,
        Or.inl rfl⟩
      exact fun ip hip => Finset.mem_union_right _ (hips hip).2
  · next hk =>
      refine ⟨a, ha, rfl, rfl, Finset.Subset.refl _, fun ip hip => ?_, Or.inl rfl⟩
      exact absurd (hc.clients _ _ _ _ ha hlookup ((hips hip).1.trans hclient.symm)) hk

theorem Carries.of_refreshed {entry : Σ _ : SocketAddr, Allocation} {L : UInt32}
    {table : AllocationTable} {u : String} (hc : e.before.Consistent)
    (hevent : e.event = .message msg client) (hmethod : msg.header.method = .refresh)
    (hauth : verifyTurnAuth D e.env e.before msg client = .ok (.ok u))
    (hentry : e.before.allocationTable.entryOfClient client = some entry)
    (htable : e.before.allocationTable.refreshAllocation entry.2.relayedAddr L = .ok table)
    (hL : getLifetime msg = .ok L) (ha : table.allocations.lookup k = some a) :
    ∃ a', e.before.allocationTable.allocations.lookup k = some a' ∧ Carries D e a' a := by
  have hquiet : ∀ c m, ¬ e.Granted .createPermission c m :=
    not_granted_of_method hevent hmethod (by decide)
  obtain ⟨hlookup, hclient⟩ := entryOfClient_eq_some hentry
  rw [refreshAllocation_eq_ok htable] at ha
  dsimp only at ha
  rw [HashMap.lookup_modify, (hc.key _ _ hlookup).1] at ha
  split at ha
  · next hk =>
      rw [hlookup] at ha
      obtain rfl := Option.some.inj ha
      refine ⟨entry.2, by rw [hk]; exact hlookup, rfl, rfl, Finset.Subset.refl _, ?_, Or.inr ?_⟩
      · rintro ip ⟨m, hgranted, -⟩
        exact absurd hgranted (hquiet _ m)
      · refine ⟨msg, L, u, ?_, hmethod, ?_, hL, rfl⟩
        · rw [hevent, ← hclient]
        · rw [← hauth, ← hclient]
  · exact ⟨a, ha, .of_same rfl hquiet⟩

theorem grantedSecs_le {t : AllocationTable} {M : UInt32}
    (hM : t.maxAllocationDurationSecs = some M) (lifetime : Option UInt32) :
    (t.grantedSecs lifetime).toNat ≤ M.toNat := by
  unfold AllocationTable.grantedSecs
  rw [hM]
  dsimp only
  split
  · exact le_rfl
  · next h => exact Nat.le_of_not_lt h

/-- The limits an allocation table was configured with. -/
def AllocationTable.limits (t : AllocationTable) : Option ℕ × Option UInt32 :=
  (t.maxConcurrentAllocations, t.maxAllocationDurationSecs)

theorem removeAllocation_limits (t : AllocationTable) (ct : ChannelTable) (addr : SocketAddr) :
    (t.removeAllocation ct addr).1.1.limits = t.limits := by
  cases ha : t.allocations.lookup addr with
  | none => rw [removeAllocation_of_none ha]
  | some a =>
      rw [removeAllocation_of_some ha]
      rfl

theorem removeExisting_limits (server : TurnServer) (client : SocketAddr) :
    (removeExisting server client).1.allocationTable.limits = server.allocationTable.limits := by
  rcases removeExisting_cases server client with ⟨-, heq⟩ | ⟨entry, -, heq⟩
  · rw [heq]
  · rw [heq]
    exact removeAllocation_limits _ _ _

theorem Effect.carries (hevent : e.event = .message msg client)
    (he : Effect D e.env e.before msg client ⟨e.after, e.response, e.sent, e.removed⟩)
    (hc : e.before.Consistent) (ha : e.after.allocationTable.allocations.lookup k = some a) :
    (∃ a', e.before.allocationTable.allocations.lookup k = some a' ∧ Carries D e a' a) ∨
      MadeBy e a := by
  obtain ⟨env, event, before, after, response, sent, removed⟩ := e
  dsimp only at hevent he hc ha
  cases he with
  | inert hclass =>
      exact Or.inl ⟨a, ha, .of_same rfl (not_granted_of_inert hevent hclass (by decide))⟩
  | challenge reason _ =>
      exact Or.inl ⟨a, ha, .of_same rfl
        (not_granted_of_class rfl (answerClass_unauthorized env before msg reason))⟩
  | allocateFailed _ _ _ hclass =>
      exact Or.inl ⟨a, (Shrinks.removeExisting before client).allocations k a ha, .of_same rfl
        (not_granted_of_class rfl hclass)⟩
  | allocated hmethod _ _ _ hclass =>
      rcases HashMap.lookup_insert_eq_some.1 ha with ⟨-, rfl⟩ | ⟨-, hold⟩
      · refine Or.inr ⟨⟨msg, hevent, hmethod, _, rfl, hclass⟩, Option.some_ne_none _, ?_⟩
        intro M hM
        have hlimits := congrArg Prod.snd (removeExisting_limits before client)
        exact Nat.mul_le_mul_right _ (grantedSecs_le (hlimits.trans hM) _)
      · exact Or.inl ⟨a, (Shrinks.removeExisting before client).allocations k a hold, .of_same rfl
          (not_granted_of_method hevent hmethod (by decide))⟩
  | deleted hmethod _ _ _ =>
      exact Or.inl ⟨a, (Shrinks.without before _).allocations k a ha, .of_same rfl
        (not_granted_of_method hevent hmethod (by decide))⟩
  | refreshed hmethod hauth hentry _ htable hL =>
      exact Or.inl (Carries.of_refreshed hc hevent hmethod hauth hentry htable hL ha)
  | permitted hmethod _ hentry hclass =>
      exact Or.inl (Carries.of_permitted hc ⟨hevent, hmethod, _, rfl, hclass⟩ hentry rfl ha)
  | bound hmethod _ _ _ _ _ _ _ =>
      exact Or.inl ⟨a, ha, .of_same rfl
        (not_granted_of_method hevent hmethod (by decide))⟩
  | relayed peer data hmethod =>
      obtain ⟨a', ha', hsame⟩ := lookup_sendToPeer ha
      exact Or.inl ⟨a', ha', .of_same hsame
        (not_granted_of_method hevent hmethod (by decide))⟩

/-- An allocation after a step has everything it had before it and what its client was granted by
    it; or the step made it. -/
theorem Step.carries {w w' : World} (h : Step D w e w') (hc : e.before.Consistent)
    (ha : e.after.allocationTable.allocations.lookup k = some a) :
    (∃ a', e.before.allocationTable.allocations.lookup k = some a' ∧ Carries D e a' a) ∨
      MadeBy e a := by
  by_cases hmessage : ∃ msg client, e.event = .message msg client
  · obtain ⟨msg, client, hevent⟩ := hmessage
    exact (h.effect hevent).carries hevent hc ha
  · exact Or.inl ⟨a, (h.shrinks hmessage).allocations k a ha,
      .of_same rfl (not_granted_of_not_message hmessage)⟩

end Miuturn
