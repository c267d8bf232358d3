import Miuturn.AuthRuns

set_option autoImplicit false

/-! # What the integrity check covers

The digest of a request covers the attributes before its MESSAGE-INTEGRITY, but the handlers look
attributes up in the whole list. So two requests with the same signed part may be read differently:
as requests of other users or with other parameters. The last part says when they are not. What is
covered is at least unambiguous: the bytes under the digest determine it
(`integrity_input_determines`). -/

open RustStd

namespace Miuturn

/-! ## What a handler reads -/

/-- The user name and the nonce of a request, if it has both. -/
def Message.claimed (m : Message) : Option (String × String) :=
  match m.getAttribute Attribute.username, m.getAttribute Attribute.nonce with
  | some usernameAttr, some nonceAttr =>
    some (fromUtf8Lossy usernameAttr.value, fromUtf8Lossy nonceAttr.value)
  | _, _ => none

/-- The IPs that a CreatePermission permits. -/
def Message.permissions (m : Message) : Finset IpAddr :=
  ((peersOf m.attributes).map SocketAddr.ip).toFinset

/-- The channel number and the peer that a ChannelBind binds. -/
def Message.binding (m : Message) : Option (UInt16 × SocketAddr) :=
  match m.getAttribute Attribute.peerAddress, m.getAttribute Attribute.channelNumber with
  | some peerAttr, some channelAttr =>
    (channelNumberOf channelAttr.value).map (fun n => (n, channelPeerOf peerAttr.value))
  | _, _ => none

/-- The parameters of a request, by its method. -/
inductive Parameters where
  | lifetime (l : Rust UInt32)
  | permissions (ips : Finset IpAddr)
  | binding (b : Option (UInt16 × SocketAddr))
  | nothing

def Message.parameters (m : Message) : Parameters :=
  match m.header.method with
  | .allocate => .lifetime (getLifetime m)
  | .refresh => .lifetime (getLifetime m)
  | .createPermission => .permissions m.permissions
  | .channelBind => .binding m.binding
  | _ => .nothing

/-- Two requests that agree up to and including their first MESSAGE-INTEGRITY. -/
structure SameSigned (m m' : Message) (pre : List Attribute) (mi : Attribute) : Prop where
  method : m.header.method = m'.header.method
  eventType : m.header.eventType = m'.header.eventType
  transactionId : m.header.transactionId = m'.header.transactionId
  left : ∃ post, m.attributes = pre ++ mi :: post
  right : ∃ post, m'.attributes = pre ++ mi :: post
  unsigned : ∀ a ∈ pre, a.attrType ≠ Attribute.messageIntegrity
  integrity : mi.attrType = Attribute.messageIntegrity

theorem SameSigned.symm {m m' : Message} {pre : List Attribute} {mi : Attribute}
    (h : SameSigned m m' pre mi) : SameSigned m' m pre mi :=
  ⟨h.method.symm, h.eventType.symm, h.transactionId.symm, h.right, h.left, h.unsigned, h.integrity⟩

variable {D : Digests} {env : Env} {server : TurnServer} {client : SocketAddr} {m m' : Message}
  {pre : List Attribute} {mi : Attribute} {u pw : String}

/-! ## The covered bytes -/

/-- The bytes under the digest determine the method, the class and the transaction id, whatever
    their length field says, and the attributes, if those have values of 16-bit length. -/
theorem integrityInput_inj {h h' : MessageHeader} {as as' : List Attribute}
    (has : ∀ a ∈ as, a.value.length ≤ 65535) (has' : ∀ a ∈ as', a.value.length ≤ 65535)
    (hinput : integrityInput h as = integrityInput h' as') :
    h.method = h'.method ∧ h.eventType = h'.eventType ∧ h.transactionId = h'.transactionId ∧
      as = as' := by
  unfold integrityInput at hinput
  obtain ⟨hheader, hattributes⟩ := List.append_inj hinput
    ((MessageHeader.encode_length _).trans (MessageHeader.encode_length _).symm)
  have hread := MessageHeader.parse_encode { h with
    messageLength := UInt16.ofNat ((encodeAttributes as).length + 24),
    magicCookie := magicCookie } rfl []
  rw [hheader, MessageHeader.parse_encode _ rfl] at hread
  obtain ⟨hmethod, hclass, -, -, htid⟩ :=
    MessageHeader.mk.inj (Option.some.inj (Except.ok.inj hread))
  exact ⟨hmethod.symm, hclass.symm, htid.symm, encodeAttributes_inj has has' hattributes⟩

/-- A message with an integrity attribute splits at the first one. -/
theorem Message.split_integrity (h : m.getAttribute Attribute.messageIntegrity = some mi) :
    mi.attrType = Attribute.messageIntegrity ∧
      (∀ a ∈ m.beforeIntegrity, a.attrType ≠ Attribute.messageIntegrity) ∧
      ∃ post, m.attributes = m.beforeIntegrity ++ mi :: post := by
  obtain ⟨hmi, before, post, hsplit, hbefore⟩ := List.find?_eq_some_iff_append.1 h
  have htype : mi.attrType = Attribute.messageIntegrity := beq_iff_eq.1 hmi
  have hbefore' : ∀ a ∈ before, decide (a.attrType ≠ Attribute.messageIntegrity) = true :=
    fun a ha => by simpa using hbefore a ha
  have heq : m.beforeIntegrity = before := by
    unfold Message.beforeIntegrity
    rw [hsplit, List.takeWhile_append_of_pos hbefore',
      List.takeWhile_cons_of_neg (by simp [htype]), List.append_nil]
  rw [heq]
  exact ⟨htype, fun a ha => of_decide_eq_true (hbefore' a ha), post, hsplit⟩

/-- **The digest's input is unambiguous.** Two byte strings that are read as messages with a
    MESSAGE-INTEGRITY, for which the digest is computed from the same bytes, have the same method,
    class and transaction id and the same attributes before their first MESSAGE-INTEGRITY. -/
theorem integrity_input_determines {data data' : Bytes}
    (hm : Message.parse data = .ok (some m)) (hm' : Message.parse data' = .ok (some m'))
    (hmi : (m.getAttribute Attribute.messageIntegrity).isSome)
    (hmi' : (m'.getAttribute Attribute.messageIntegrity).isSome)
    (hinput : integrityInput m.header m.beforeIntegrity
      = integrityInput m'.header m'.beforeIntegrity) :
    m.header.method = m'.header.method ∧ m.header.eventType = m'.header.eventType ∧
      m.header.transactionId = m'.header.transactionId ∧
      ∃ pre mi mi' post post', m.attributes = pre ++ mi :: post ∧
        m'.attributes = pre ++ mi' :: post' ∧ mi.attrType = Attribute.messageIntegrity ∧
        mi'.attrType = Attribute.messageIntegrity ∧
        ∀ a ∈ pre, a.attrType ≠ Attribute.messageIntegrity := by
  obtain ⟨mi, hmi⟩ := Option.isSome_iff_exists.1 hmi
  obtain ⟨mi', hmi'⟩ := Option.isSome_iff_exists.1 hmi'
  obtain ⟨htype, hbefore, post, hpost⟩ := Message.split_integrity hmi
  obtain ⟨htype', -, post', hpost'⟩ := Message.split_integrity hmi'
  have hshort : ∀ {d : Bytes} {n : Message}, Message.parse d = .ok (some n) →
      ∀ a ∈ n.beforeIntegrity, a.value.length ≤ 65535 :=
    fun hn a ha => Message.value_length_le_of_parse hn a (List.takeWhile_subset _ ha)
  obtain ⟨hmethod, hclass, htid, heq⟩ := integrityInput_inj (hshort hm) (hshort hm') hinput
  exact ⟨hmethod, hclass, htid, m.beforeIntegrity, mi, mi', post, post', hpost, heq ▸ hpost', htype,
    htype', hbefore⟩

/-- A Refresh with a user name and an integrity attribute, and `as` behind them. -/
def signedRefresh (as : List Attribute) : Message :=
  let attributes := ⟨Attribute.username, [97]⟩ ::
    ⟨Attribute.messageIntegrity, List.replicate 20 7⟩ :: as
  ⟨⟨.refresh, .request, UInt16.ofNat (encodeAttributes attributes).length, magicCookie,
    ⟨List.replicate 12 5, rfl⟩⟩, attributes⟩

/-- Two Refreshes that differ behind their integrity attribute only. -/
theorem integrity_input_determines_refresh :
    Message.parse ((signedRefresh []).encode ++ []) = .ok (some (signedRefresh [])) ∧
    Message.parse ((signedRefresh [⟨Attribute.lifetime, [0, 0, 0, 0]⟩]).encode ++ [])
      = .ok (some (signedRefresh [⟨Attribute.lifetime, [0, 0, 0, 0]⟩])) ∧
    ∃ pre mi mi' post post', (signedRefresh []).attributes = pre ++ mi :: post ∧
      (signedRefresh [⟨Attribute.lifetime, [0, 0, 0, 0]⟩]).attributes = pre ++ mi' :: post' ∧
      mi.attrType = Attribute.messageIntegrity ∧ mi'.attrType = Attribute.messageIntegrity ∧
      ∀ a ∈ pre, a.attrType ≠ Attribute.messageIntegrity := by
  have hparse := Message.parse_encode (signedRefresh []) (by decide) []
  have hparse' := Message.parse_encode
    (signedRefresh [⟨Attribute.lifetime, [0, 0, 0, 0]⟩]) (by decide) []
  exact ⟨hparse, hparse', (integrity_input_determines hparse hparse' rfl rfl rfl).2.2.2⟩

/-! ## The decision -/

theorem SameSigned.getIntegrity (h : SameSigned m m' pre mi) :
    m.getAttribute Attribute.messageIntegrity = some mi := by
  obtain ⟨post, hpost⟩ := h.left
  have hpre : pre.find? (fun a => a.attrType == Attribute.messageIntegrity) = none := by
    rw [List.find?_eq_none]
    intro a ha
    simpa using h.unsigned a ha
  unfold Message.getAttribute
  rw [hpost, List.find?_append, hpre, Option.none_or, List.find?_cons_of_pos]
  rw [h.integrity]
  exact beq_self_eq_true _

theorem SameSigned.beforeIntegrity (h : SameSigned m m' pre mi) : m.beforeIntegrity = pre := by
  obtain ⟨post, hpost⟩ := h.left
  have hpre : ∀ a ∈ pre, decide (a.attrType ≠ Attribute.messageIntegrity) = true :=
    fun a ha => decide_eq_true (h.unsigned a ha)
  unfold Message.beforeIntegrity
  rw [hpost, List.takeWhile_append_of_pos hpre, List.takeWhile_cons_of_neg (by simp [h.integrity]),
    List.append_nil]

/-- The digest is computed from the same bytes for both. -/
theorem SameSigned.integrityInput (h : SameSigned m m' pre mi) :
    integrityInput m.header m.beforeIntegrity = integrityInput m'.header m'.beforeIntegrity := by
  rw [h.beforeIntegrity, h.symm.beforeIntegrity]
  unfold Miuturn.integrityInput
  rw [h.method, h.eventType, h.transactionId]

theorem claimed_eq_some {n : String} : m.claimed = some (u, n) ↔
    (∃ attr, m.getAttribute Attribute.username = some attr ∧ fromUtf8Lossy attr.value = u) ∧
      ∃ attr, m.getAttribute Attribute.nonce = some attr ∧ fromUtf8Lossy attr.value = n := by
  unfold Message.claimed
  cases m.getAttribute Attribute.username with
  | none => simp
  | some usernameAttr =>
      cases m.getAttribute Attribute.nonce with
      | none => simp
      | some nonceAttr => simp

/-- Authentication depends on what a request claims, on its integrity attribute and on what that
    covers. -/
theorem authenticates_iff (hmi : m.getAttribute Attribute.messageIntegrity = some mi) :
    Authenticates D env server m client u pw ↔
      ∃ n, m.claimed = some (u, n) ∧ server.aclAdmits client = true ∧
        (∃ entry, server.nonceMap.lookup n = some entry ∧
          asSecs (env.now - entry.createdAt) ≤ 600) ∧
        server.getPasswordForUser env u = some pw ∧ 20 ≤ mi.value.length ∧
        mi.value.take 20 = expectedIntegrity D server m u pw := by
  constructor
  · rintro ⟨⟨hacl, ⟨nonceAttr, entry, hattr, hentry, hage⟩, huser, hpw⟩, attr, hattr', hlen, hmac⟩
    obtain rfl := Option.some.inj (hmi.symm.trans hattr')
    exact ⟨_, claimed_eq_some.2 ⟨huser, nonceAttr, hattr, rfl⟩, hacl, ⟨entry, hentry, hage⟩, hpw,
      hlen, hmac⟩
  · rintro ⟨n, hclaimed, hacl, ⟨entry, hentry, hage⟩, hpw, hlen, hmac⟩
    obtain ⟨huser, nonceAttr, hattr, rfl⟩ := claimed_eq_some.1 hclaimed
    exact ⟨⟨hacl, ⟨nonceAttr, entry, hattr, hentry, hage⟩, huser, hpw⟩, mi, hmi, hlen, hmac⟩

theorem authenticatedAs_eq_some {r : Rust (Except (TurnServer × Bytes) String)} :
    authenticatedAs r = some u ↔ r = .ok (.ok u) := by
  refine ⟨eq_of_authenticatedAs, ?_⟩
  rintro rfl
  rfl

/-- Requests with the same signed part and the same claim authenticate alike. -/
theorem SameSigned.authenticates (h : SameSigned m m' pre mi) (hclaimed : m.claimed = m'.claimed)
    (hauth : Authenticates D env server m client u pw) :
    Authenticates D env server m' client u pw := by
  rw [authenticates_iff h.getIntegrity] at hauth
  rw [authenticates_iff h.symm.getIntegrity]
  obtain ⟨n, hn, hacl, hentry, hpw, hlen, hmac⟩ := hauth
  refine ⟨n, hclaimed ▸ hn, hacl, hentry, hpw, hlen, ?_⟩
  rw [hmac]
  unfold expectedIntegrity
  rw [h.integrityInput]

theorem SameSigned.decision (h : SameSigned m m' pre mi) (hclaimed : m.claimed = m'.claimed)
    (henabled : server.authDisabled = false) (D : Digests) (env : Env) (client : SocketAddr) :
    authenticatedAs (verifyTurnAuth D env server m client)
      = authenticatedAs (verifyTurnAuth D env server m' client) := by
  apply Option.ext
  intro u
  rw [authenticatedAs_eq_some, authenticatedAs_eq_some, verifyTurnAuth_eq_ok henabled,
    verifyTurnAuth_eq_ok henabled]
  exact ⟨fun ⟨pw, hpw⟩ => ⟨pw, h.authenticates hclaimed hpw⟩,
    fun ⟨pw, hpw⟩ => ⟨pw, h.symm.authenticates hclaimed.symm hpw⟩⟩

/-- A request with too short an integrity value is never accepted. -/
theorem SameSigned.refused_of_short (h : SameSigned m m' pre mi) (hlen : mi.value.length < 20)
    (henabled : server.authDisabled = false) (D : Digests) (env : Env) (client : SocketAddr) :
    authenticatedAs (verifyTurnAuth D env server m client) = none := by
  rw [Option.eq_none_iff_forall_ne_some]
  intro u hu
  obtain ⟨pw, hpw⟩ := (verifyTurnAuth_eq_ok henabled).1 (authenticatedAs_eq_some.1 hu)
  obtain ⟨n, -, -, -, -, hlen', -⟩ := (authenticates_iff h.getIntegrity).1 hpw
  omega

/-! ## The state after it -/

/-- The server a handler leaves; one that panics leaves it as it was. -/
def serverAfter (server : TurnServer) : Rust Outcome → TurnServer
  | .ok o => o.server
  | .error _ => server

theorem allocateFor_server (m m' : Message) (l : UInt32) :
    (allocateFor D env server m client u l).server
      = (allocateFor D env server m' client u l).server := by
  unfold allocateFor allocateOutcome
  dsimp only
  split
  · dsimp only
  · dsimp only

theorem refreshFor_server (m m' : Message) (l : UInt32) :
    (refreshFor D env server m client u l).server
      = (refreshFor D env server m' client u l).server := by
  unfold refreshFor
  dsimp only
  split
  · split
    · dsimp only
    · split
      · dsimp only
      · simp only [Outcome.unchanged_server]
  · simp only [Outcome.unchanged_server]

theorem permissions_eq_empty : m.permissions = ∅ ↔ peersOf m.attributes = [] := by
  unfold Message.permissions
  rw [List.toFinset_eq_empty_iff, List.map_eq_nil_iff]

theorem permitFor_server (h : m.permissions = m'.permissions) :
    (permitFor D env server m client u).server = (permitFor D env server m' client u).server := by
  unfold permitFor
  split
  · simp only [Outcome.unchanged_server]
  · next e hentry =>
      by_cases hempty : m.permissions = ∅
      · rw [if_pos (permissions_eq_empty.1 hempty), if_pos (permissions_eq_empty.1 (h ▸ hempty)),
          Outcome.unchanged_server, Outcome.unchanged_server]
      · rw [if_neg (fun hp => hempty (permissions_eq_empty.2 hp)),
          if_neg (fun hp => hempty (h ▸ permissions_eq_empty.2 hp))]
        have hips : ((peersOf m.attributes).map SocketAddr.ip).toFinset
            = ((peersOf m'.attributes).map SocketAddr.ip).toFinset := h
        simp only [AllocationTable.addPermissions, hentry, hips]

/-- The server after a ChannelBind, by what it binds. -/
def serverBound (env : Env) (server : TurnServer) (client : SocketAddr) :
    Option (UInt16 × SocketAddr) → TurnServer
  | none => server
  | some (n, p) =>
    match server.allocationTable.entryOfClient client with
    | none => server
    | some e =>
      match server.channelTable.bind env.now n p e.2.relayedAddr with
      | .ok channels => { server with channelTable := channels }
      | .error _ => server

theorem bindFor_server : serverAfter server (bindFor D env server m client u)
    = serverBound env server client m.binding := by
  unfold bindFor Message.binding
  cases hentry : server.allocationTable.entryOfClient client with
  | none =>
      show server = _
      unfold serverBound
      rw [hentry]
      split <;> rfl
  | some e =>
      cases m.getAttribute Attribute.peerAddress with
      | none => rfl
      | some peerAttr =>
          cases m.getAttribute Attribute.channelNumber with
          | none => rfl
          | some channelAttr =>
              dsimp only
              cases channelNumberOf channelAttr.value with
              | none => rfl
              | some n =>
                  simp only [Option.map_some, serverBound, hentry]
                  cases server.channelTable.bind env.now n (channelPeerOf peerAttr.value)
                    e.2.relayedAddr <;> rfl

/-- Two requests with the same parameters do the same to the server. -/
theorem requestBody_server (hmethod : m.header.method = m'.header.method)
    (h : m.parameters = m'.parameters) :
    serverAfter server (requestBody D env server m client u)
      = serverAfter server (requestBody D env server m' client u) := by
  unfold Message.parameters at h
  rw [← hmethod] at h
  cases hm : m.header.method with
  | allocate =>
      rw [hm] at h
      rw [requestBody_allocate hm, requestBody_allocate (hmethod.symm.trans hm),
        Parameters.lifetime.inj h]
      cases getLifetime m' with
      | error f => rw [Rust.error_bind, Rust.error_bind]
      | ok l => exact allocateFor_server m m' l
  | refresh =>
      rw [hm] at h
      rw [requestBody_refresh hm, requestBody_refresh (hmethod.symm.trans hm),
        Parameters.lifetime.inj h]
      cases getLifetime m' with
      | error f => rw [Rust.error_bind, Rust.error_bind]
      | ok l => exact refreshFor_server m m' l
  | createPermission =>
      rw [hm] at h
      rw [requestBody_createPermission hm, requestBody_createPermission (hmethod.symm.trans hm)]
      exact permitFor_server (Parameters.permissions.inj h)
  | channelBind =>
      rw [hm] at h
      rw [requestBody_channelBind hm, requestBody_channelBind (hmethod.symm.trans hm),
        bindFor_server, bindFor_server, Parameters.binding.inj h]
  | binding =>
      unfold requestBody
      rw [← hmethod, hm]
  | send =>
      unfold requestBody
      rw [← hmethod, hm]
  | data =>
      unfold requestBody
      rw [← hmethod, hm]

theorem react_server :
    (react D env server (.message m client)).server
      = serverAfter server (processMessage D env server m client) := by
  simp only [react, perform]
  cases processMessage D env server m client <;> rfl

theorem react_server_of_ok (hmethod : m.header.method ∈ authenticatedMethods)
    (hturn : server.turnEnabled = true)
    (hok : verifyTurnAuth D env server m client = .ok (.ok u)) :
    (react D env server (.message m client)).server
      = serverAfter server (requestBody D env server m client u) := by
  rw [react_server, processMessage_authenticated hmethod hturn, withAuth_ok hok]

/-! ## A server that tells requests apart -/

/-- The digests under which an integrity attribute is right for every request. -/
def digestsOf (mi : Attribute) (hlen : 20 ≤ mi.value.length) : Digests where
  md5 := fun input => input
  hmacSha1 := fun _ _ => ⟨mi.value.take 20, by rw [List.length_take]; omega⟩

/-- A server that issued one nonce. -/
def probe (nonce : String) : TurnServer :=
  { sampleServer false none with nonceMap := AList.insert nonce ⟨nonce, 0⟩ ∅ }

/-- The first sample port taken. -/
def probePorts : PortAllocator :=
  { samplePorts with allocated := [1#64], allocatedCount := 1, words := by decide }

/-- The same server with an allocation of the sample client. -/
def probeOwned (nonce : String) (x : UInt32) : TurnServer :=
  (probe nonce).withTable
    ((probe nonce).allocationTable.enter (sampleEnv 0) sampleClient (some x) probePorts 5000)

/-- The lifetimes of a server's allocations. -/
def Control.lifetimes (c : Control) : List ℕ := c.allocations.map (fun e => e.2.lifetime)

def probeAddr : SocketAddr := .v4 ⟨203, 0, 113, 1⟩ 5000

def probeAllocation (x : UInt32) : Allocation :=
  .withRelay 0 (getrandom 0) probeAddr sampleClient (fromSecs x.toNat) sampleClient probeAddr
    ⟨.v4 ⟨10, 0, 0, 1⟩ 5000⟩

theorem probeOwned_entries (n : String) (x : UInt32) :
    (probeOwned n x).allocationTable.allocations.entries = [⟨probeAddr, probeAllocation x⟩] := rfl

theorem probeOwned_entryOfClient (n : String) (x : UInt32) :
    (probeOwned n x).allocationTable.entryOfClient sampleClient
      = some ⟨probeAddr, probeAllocation x⟩ := by
  rw [AllocationTable.entryOfClient, probeOwned_entries]
  exact List.find?_cons_of_pos (decide_eq_true rfl)

theorem probeOwned_lookup (n : String) (x : UInt32) :
    (probeOwned n x).allocationTable.allocations.lookup probeAddr = some (probeAllocation x) := by
  rw [HashMap.lookup_eq_some, probeOwned_entries]
  exact List.mem_singleton_self _

/-- The relay port search of the probe finds the first port. -/
theorem probe_acquire : ∃ pa,
    AllocationTable.acquireRelay ⟨10, 0, 0, 1⟩ (sampleEnv 0) 100 0 samplePorts none
      = (pa, .ok 5000) := by
  have hport : (samplePorts.allocate ⟨0, 0, []⟩).2 = some 5000 := by decide +kernel
  have hallocate : samplePorts.allocate ((sampleEnv 0).portChoice 0)
      = ((samplePorts.allocate ⟨0, 0, []⟩).1, some 5000) := Prod.ext rfl hport
  refine ⟨(samplePorts.allocate ⟨0, 0, []⟩).1, ?_⟩
  rw [AllocationTable.acquireRelay_succ, hallocate]
  rfl

theorem probe_allocate (n : String) (l : UInt32) :
    (allocateFor D (sampleEnv 0) (probe n) m sampleClient u l).server.control.lifetimes
      = [fromSecs l.toNat] := by
  obtain ⟨pa, hpa⟩ := probe_acquire
  have hcreate : (probe n).allocationTable.createAllocation (sampleEnv 0) sampleClient (some l)
      = ((probe n).allocationTable.enter (sampleEnv 0) sampleClient (some l) pa 5000,
          .ok (probeAllocation l)) := by
    have hquota : (probe n).allocationTable.quotaReached = false := rfl
    have hacquire : AllocationTable.acquireRelay (probe n).allocationTable.bindAddr (sampleEnv 0)
        100 0 (probe n).allocationTable.portAllocator none = (pa, .ok 5000) := hpa
    unfold AllocationTable.createAllocation
    rw [hquota, hacquire]
    rfl
  have hremove : removeExisting (probe n) sampleClient = (probe n, 0) := rfl
  unfold allocateFor allocateOutcome
  simp only [hremove, hcreate]
  rfl

theorem probe_refresh (n : String) (x l : UInt32) :
    (refreshFor D (sampleEnv 0) (probeOwned n x) m sampleClient u l).server.control.lifetimes
      = if l = 0 then [] else [fromSecs l.toNat] := by
  have hfind : (probeOwned n x).allocationTable.findAllocationByClient sampleClient
      = some probeAddr := by
    rw [AllocationTable.findAllocationByClient, probeOwned_entryOfClient]
    rfl
  unfold refreshFor
  simp only [hfind]
  split
  · rw [removeAllocation_of_some (probeOwned_lookup n x)]
    rfl
  · simp only [AllocationTable.refreshAllocation, probeOwned_lookup]
    rfl

theorem probe_permit (n : String) (x : UInt32) :
    (permitFor D (sampleEnv 0) (probeOwned n x) m sampleClient u).server.control.allocations.map
      (fun e => e.2.permissions) = [m.permissions] := by
  have hentry := probeOwned_entryOfClient n x
  unfold permitFor
  rw [hentry]
  dsimp only
  split
  · next hempty =>
      rw [permissions_eq_empty.2 hempty, Outcome.unchanged_server]
      rfl
  · simp only [AllocationTable.addPermissions, hentry]
    show [∅ ∪ m.permissions] = _
    rw [Finset.empty_union]

theorem probe_bind (n : String) (x : UInt32) :
    (serverAfter (probeOwned n x) (bindFor D (sampleEnv 0) (probeOwned n x) m sampleClient
      u)).control.channels.channels.entries.map (fun e => (e.2.channelId, e.2.peerAddr))
      = m.binding.toList := by
  rw [bindFor_server]
  cases m.binding with
  | none => rfl
  | some b =>
      obtain ⟨number, peer⟩ := b
      simp only [serverBound, probeOwned_entryOfClient]
      rfl

theorem probe_authenticates {n : String} (hmi : m.getAttribute Attribute.messageIntegrity = some mi)
    (hlen : 20 ≤ mi.value.length) (hclaimed : m.claimed = some (u, n)) (t : AllocationTable) :
    verifyTurnAuth (digestsOf mi hlen) (sampleEnv 0) ((probe n).withTable t) m sampleClient
      = .ok (.ok u) := by
  refine (verifyTurnAuth_eq_ok rfl).2 ⟨"password", (authenticates_iff hmi).2
    ⟨n, hclaimed, rfl, ⟨⟨n, 0⟩, AList.lookup_insert _, ?_⟩, rfl, hlen, rfl⟩⟩
  show asSecs 0 ≤ 600
  decide

/-- The probe lets in only what claims its nonce. -/
theorem claimed_of_probe {n : String} (hmi : m.getAttribute Attribute.messageIntegrity = some mi)
    (h : verifyTurnAuth D env (probe n) m client = .ok (.ok u)) : m.claimed = some (u, n) := by
  obtain ⟨pw, hpw⟩ := (verifyTurnAuth_eq_ok rfl).1 h
  obtain ⟨n', hclaimed, -, ⟨entry, hentry, -⟩, -⟩ := (authenticates_iff hmi).1 hpw
  have hn : n' = n := by
    by_contra hne
    have hnone : (probe n).nonceMap.lookup n' = none := AList.lookup_insert_ne hne
    exact absurd (hnone.symm.trans hentry) (by simp)
  rw [hclaimed, hn]

/-! ## The two requests -/

/-- The two requests authenticate alike, and where they do they leave the same relay state. -/
def SameEffect (m m' : Message) : Prop :=
  ∀ (D : Digests) (env : Env) (server : TurnServer) (client : SocketAddr),
    server.authDisabled = false →
    authenticatedAs (verifyTurnAuth D env server m client)
        = authenticatedAs (verifyTurnAuth D env server m' client) ∧
      ((∃ u, verifyTurnAuth D env server m client = .ok (.ok u)) →
        (react D env server (.message m client)).server.control
          = (react D env server (.message m' client)).server.control)

theorem SameSigned.claimed_of_decision (h : SameSigned m m' pre mi) (hlen : 20 ≤ mi.value.length)
    (hdecision : ∀ (D : Digests) (env : Env) (server : TurnServer) (client : SocketAddr),
      server.authDisabled = false → authenticatedAs (verifyTurnAuth D env server m client)
        = authenticatedAs (verifyTurnAuth D env server m' client))
    {n : String} (hclaimed : m.claimed = some (u, n)) : m'.claimed = some (u, n) := by
  have hok := probe_authenticates h.getIntegrity hlen hclaimed (probe n).allocationTable
  have hsame := hdecision (digestsOf mi hlen) (sampleEnv 0) (probe n) sampleClient rfl
  rw [authenticatedAs_eq_some.2 hok] at hsame
  exact claimed_of_probe h.symm.getIntegrity (authenticatedAs_eq_some.1 hsame.symm)

theorem fromSecs_toNat_inj {l l' : UInt32} (h : fromSecs l.toNat = fromSecs l'.toNat) : l = l' :=
  UInt32.toNat_inj.1 (Nat.eq_of_mul_eq_mul_right (by decide) h)

theorem getLifetime_error {f : Fault} (h : getLifetime m = .error f) : f = .bufferUnderflow := by
  unfold getLifetime at h
  split at h
  · split at h
    · exact absurd h (by simp)
    · exact (Except.error.inj h).symm
  · exact absurd h (by simp)

/-- The lifetimes that a probe ends with tell what was read from the two requests: `g l` after a
    request with lifetime `l`, and `kept x` after one that panics on a probe with lifetime `x`. -/
theorem getLifetime_eq_of_observed (g kept : UInt32 → List ℕ)
    (hg : ∀ l l', g l = g l' → l = l') (hkept : ∀ l, ∃ x, g l ≠ kept x)
    (h : ∀ x, (match getLifetime m with | .ok l => g l | .error _ => kept x)
      = (match getLifetime m' with | .ok l => g l | .error _ => kept x)) :
    getLifetime m = getLifetime m' := by
  cases hl : getLifetime m with
  | ok l =>
      cases hl' : getLifetime m' with
      | ok l' =>
          simp only [hl, hl'] at h
          rw [hg l l' (h 0)]
      | error f' =>
          simp only [hl, hl'] at h
          obtain ⟨x, hx⟩ := hkept l
          exact absurd (h x) hx
  | error f =>
      cases hl' : getLifetime m' with
      | ok l' =>
          simp only [hl, hl'] at h
          obtain ⟨x, hx⟩ := hkept l'
          exact absurd (h x).symm hx
      | error f' => rw [getLifetime_error hl, getLifetime_error hl']

theorem serverAfter_lifetimes (F : UInt32 → Outcome) :
    (serverAfter server (getLifetime m >>= fun l => .ok (F l))).control.lifetimes
      = match getLifetime m with
        | .ok l => (F l).server.control.lifetimes
        | .error _ => server.control.lifetimes := by
  cases getLifetime m <;> rfl

/-- Two requests of user `u` leave the same relay state on every probe with the nonce `n`. -/
structure AgreeOnProbes (D : Digests) (n u : String) (m m' : Message) : Prop where
  bare : (serverAfter (probe n)
      (requestBody D (sampleEnv 0) (probe n) m sampleClient u)).control
    = (serverAfter (probe n) (requestBody D (sampleEnv 0) (probe n) m' sampleClient u)).control
  owned : ∀ x, (serverAfter (probeOwned n x)
      (requestBody D (sampleEnv 0) (probeOwned n x) m sampleClient u)).control
    = (serverAfter (probeOwned n x)
      (requestBody D (sampleEnv 0) (probeOwned n x) m' sampleClient u)).control

section Observations

variable {n : String}

/-- The lifetime of a new allocation shows the LIFETIME of an Allocate. -/
theorem AgreeOnProbes.allocate (h : AgreeOnProbes D n u m m') (hm : m.header.method = .allocate)
    (hm' : m'.header.method = .allocate) : getLifetime m = getLifetime m' := by
  have hobserved := congrArg Control.lifetimes h.bare
  rw [requestBody_allocate hm, requestBody_allocate hm', serverAfter_lifetimes,
    serverAfter_lifetimes] at hobserved
  simp only [probe_allocate] at hobserved
  exact getLifetime_eq_of_observed (fun l => [fromSecs l.toNat]) (fun _ => [])
    (fun l l' hl => fromSecs_toNat_inj (List.singleton_inj.1 hl)) (fun l => ⟨0, by simp⟩)
    (fun _ => hobserved)

/-- The lifetime of an allocation shows the LIFETIME of a Refresh, and whether there is still an
    allocation shows a LIFETIME of 0. -/
theorem AgreeOnProbes.refresh (h : AgreeOnProbes D n u m m') (hm : m.header.method = .refresh)
    (hm' : m'.header.method = .refresh) : getLifetime m = getLifetime m' := by
  have hobserved := fun x => congrArg Control.lifetimes (h.owned x)
  simp only [requestBody_refresh hm, requestBody_refresh hm', serverAfter_lifetimes, probe_refresh]
    at hobserved
  refine getLifetime_eq_of_observed (fun l => if l = 0 then [] else [fromSecs l.toNat])
    (fun x => [fromSecs x.toNat]) ?_ ?_ hobserved
  · intro l l' hl
    split at hl
    · next hzero =>
        split at hl
        · next hzero' => rw [hzero, hzero']
        · exact absurd hl (by simp)
    · split at hl
      · exact absurd hl (by simp)
      · exact fromSecs_toNat_inj (List.singleton_inj.1 hl)
  · -- a probe whose lifetime is not the requested one
    intro l
    refine ⟨if l = 1 then 2 else 1, fun hl => ?_⟩
    split at hl
    · exact absurd hl (by simp)
    · have heq := fromSecs_toNat_inj (List.singleton_inj.1 hl)
      split at heq
      · next hone => exact absurd (hone.symm.trans heq) (by decide)
      · next hone => exact hone heq

theorem AgreeOnProbes.createPermission (h : AgreeOnProbes D n u m m')
    (hm : m.header.method = .createPermission) (hm' : m'.header.method = .createPermission) :
    m.permissions = m'.permissions := by
  have hobserved := congrArg
    (fun c : Control => c.allocations.map (fun e => e.2.permissions)) (h.owned 0)
  simp only [requestBody_createPermission hm, requestBody_createPermission hm', serverAfter,
    probe_permit] at hobserved
  exact List.singleton_inj.1 hobserved

theorem AgreeOnProbes.channelBind (h : AgreeOnProbes D n u m m')
    (hm : m.header.method = .channelBind) (hm' : m'.header.method = .channelBind) :
    m.binding = m'.binding := by
  have hobserved := congrArg (fun c : Control => c.channels.channels.entries.map
    (fun e => (e.2.channelId, e.2.peerAddr))) (h.owned 0)
  simp only [requestBody_channelBind hm, requestBody_channelBind hm', probe_bind] at hobserved
  have hbinding := congrArg List.head? hobserved
  rw [Option.head?_toList, Option.head?_toList] at hbinding
  exact hbinding

theorem AgreeOnProbes.parameters (h : AgreeOnProbes D n u m m')
    (hmethod : m.header.method = m'.header.method) : m.parameters = m'.parameters := by
  unfold Message.parameters
  rw [← hmethod]
  cases hm : m.header.method with
  | allocate => exact congrArg Parameters.lifetime (h.allocate hm (hmethod.symm.trans hm))
  | refresh => exact congrArg Parameters.lifetime (h.refresh hm (hmethod.symm.trans hm))
  | createPermission =>
      exact congrArg Parameters.permissions (h.createPermission hm (hmethod.symm.trans hm))
  | channelBind => exact congrArg Parameters.binding (h.channelBind hm (hmethod.symm.trans hm))
  | binding => rfl
  | send => rfl
  | data => rfl

/-- Requests with the same effect are both let in by every probe with their nonce. -/
theorem SameSigned.agreeOnProbes (h : SameSigned m m' pre mi)
    (hmethod : m.header.method ∈ authenticatedMethods) (hlen : 20 ≤ mi.value.length)
    (heffect : SameEffect m m') (hclaimed : m.claimed = some (u, n)) :
    AgreeOnProbes (digestsOf mi hlen) n u m m' := by
  have hclaimed' := h.claimed_of_decision hlen
    (fun D env server client henabled => (heffect D env server client henabled).1) hclaimed
  have hserver : ∀ t : AllocationTable,
      (serverAfter ((probe n).withTable t) (requestBody (digestsOf mi hlen) (sampleEnv 0)
        ((probe n).withTable t) m sampleClient u)).control
      = (serverAfter ((probe n).withTable t) (requestBody (digestsOf mi hlen) (sampleEnv 0)
        ((probe n).withTable t) m' sampleClient u)).control := by
    intro t
    have hok := probe_authenticates h.getIntegrity hlen hclaimed t
    have hok' := probe_authenticates h.symm.getIntegrity hlen hclaimed' t
    have hsame := (heffect (digestsOf mi hlen) (sampleEnv 0) ((probe n).withTable t) sampleClient
      rfl).2 ⟨u, hok⟩
    rw [react_server_of_ok hmethod rfl hok,
      react_server_of_ok (h.method ▸ hmethod) rfl hok'] at hsame
    exact hsame
  exact ⟨hserver (probe n).allocationTable, fun x => hserver (probeOwned n x).allocationTable⟩

end Observations

theorem SameSigned.sameEffect (h : SameSigned m m' pre mi)
    (hmethod : m.header.method ∈ authenticatedMethods) (hclaimed : m.claimed = m'.claimed)
    (hparameters : m.claimed = none ∨ m.parameters = m'.parameters) : SameEffect m m' := by
  intro D env server client henabled
  have hdecision := h.decision hclaimed henabled D env client
  refine ⟨hdecision, fun ⟨u, hok⟩ => ?_⟩
  have hok' : verifyTurnAuth D env server m' client = .ok (.ok u) := by
    rw [← authenticatedAs_eq_some, ← hdecision]
    exact authenticatedAs_eq_some.2 hok
  have hsame : m.parameters = m'.parameters := by
    refine hparameters.resolve_left (fun hnone => ?_)
    obtain ⟨pw, hpw⟩ := (verifyTurnAuth_eq_ok henabled).1 hok
    obtain ⟨n, hn, -⟩ := (authenticates_iff h.getIntegrity).1 hpw
    exact absurd (hnone.symm.trans hn) (by simp)
  have hmethod' : m'.header.method ∈ authenticatedMethods := h.method ▸ hmethod
  cases hturn : server.turnEnabled with
  | false =>
      rw [react_server, react_server, processMessage_turnDisabled hmethod hturn,
        processMessage_turnDisabled hmethod' hturn]
  | true =>
      rw [react_server_of_ok hmethod hturn hok, react_server_of_ok hmethod' hturn hok',
        requestBody_server h.method hsame]

/-- Two requests that agree up to and including their first MESSAGE-INTEGRITY have the same effect
    on every server exactly if the integrity value is too short for either to be accepted, or they
    are read alike in what the digest need not cover: the same user and nonce (or neither has both),
    and the same lifetime, permitted IPs or binding. -/
theorem signed_part_decides_iff (h : SameSigned m m' pre mi)
    (hmethod : m.header.method ∈ authenticatedMethods) :
    SameEffect m m' ↔ mi.value.length < 20 ∨
      (m.claimed = m'.claimed ∧ (m.claimed = none ∨ m.parameters = m'.parameters)) := by
  constructor
  · intro heffect
    have hdecision := fun D env server client henabled => (heffect D env server client henabled).1
    by_cases hlen : 20 ≤ mi.value.length
    · right
      cases hclaimed : m.claimed with
      | some claim =>
          obtain ⟨u, n⟩ := claim
          exact ⟨(h.claimed_of_decision hlen hdecision hclaimed).symm,
            Or.inr ((h.agreeOnProbes hmethod hlen heffect hclaimed).parameters h.method)⟩
      | none =>
          refine ⟨?_, Or.inl rfl⟩
          cases hclaimed' : m'.claimed with
          | none => rfl
          | some claim =>
              obtain ⟨u, n⟩ := claim
              have := h.symm.claimed_of_decision hlen
                (fun D env server client henabled => (hdecision D env server client henabled).symm)
                hclaimed'
              exact absurd (hclaimed.symm.trans this) (by simp)
    · exact Or.inl (not_le.1 hlen)
  · rintro (hlen | ⟨hclaimed, hparameters⟩)
    · intro D env server client henabled
      have hrefused := h.refused_of_short hlen henabled D env client
      refine ⟨hrefused.trans (h.symm.refused_of_short hlen henabled D env client).symm, ?_⟩
      rintro ⟨u, hok⟩
      exact absurd (hrefused.symm.trans (authenticatedAs_eq_some.2 hok)) (by simp)
    · exact h.sameEffect hmethod hclaimed hparameters

/-- The Refresh of `alice`, with attributes put behind its MESSAGE-INTEGRITY. -/
def refreshWith (attributes : List Attribute) : Message :=
  { sampleLogin .refresh "secret" [] with
    attributes := (sampleLogin .refresh "secret" []).attributes ++ attributes }

theorem refreshWith_sameSigned (as as' : List Attribute) :
    ∃ pre mi, SameSigned (refreshWith as) (refreshWith as') pre mi := by
  refine ⟨[⟨Attribute.username, strBytes "alice"⟩,
      ⟨Attribute.nonce, strBytes (generateNonce (sampleEnv 0))⟩],
    ⟨Attribute.messageIntegrity, (sampleDigests.hmacSha1
      (computeMessageIntegrityKey sampleDigests "alice" "miuturn" "secret") []).val⟩,
    rfl, rfl, rfl, ⟨as, rfl⟩, ⟨as', rfl⟩, ?_, rfl⟩
  intro a ha
  rcases List.mem_pair.1 ha with rfl | rfl
  · exact show Attribute.username ≠ Attribute.messageIntegrity by decide
  · exact show Attribute.nonce ≠ Attribute.messageIntegrity by decide

/-- A SOFTWARE attribute behind the integrity attribute changes nothing. -/
theorem signed_part_decides_iff_software :
    SameEffect (refreshWith []) (refreshWith [⟨Attribute.software, [1]⟩]) := by
  obtain ⟨pre, mi, h⟩ := refreshWith_sameSigned [] [⟨Attribute.software, [1]⟩]
  exact (signed_part_decides_iff h (by decide)).2 (Or.inr ⟨rfl, Or.inr rfl⟩)

/-- The sample server after `alice` has allocated. -/
def aliceAllocated : World :=
  (play sampleDigests ⟨sampleServer false (some sampleUsers), 0⟩
    (challenged ++ [(sampleEnv 1, .message (sampleLogin .allocate "secret" []) sampleClient)])).2

/-- A LIFETIME of 0 put behind the integrity attribute of a Refresh of `alice` is not noticed, and
    it makes the Refresh a deletion. -/
theorem appended_lifetime_deletes :
    (∃ pre mi,
      SameSigned (refreshWith []) (refreshWith [⟨Attribute.lifetime, [0, 0, 0, 0]⟩]) pre mi) ∧
    aliceAllocated.server.authDisabled = false ∧
    authenticatedAs (verifyTurnAuth sampleDigests (sampleEnv 2) aliceAllocated.server
      (refreshWith []) sampleClient) = some "alice" ∧
    authenticatedAs (verifyTurnAuth sampleDigests (sampleEnv 2) aliceAllocated.server
      (refreshWith [⟨Attribute.lifetime, [0, 0, 0, 0]⟩]) sampleClient) = some "alice" ∧
    HashMap.len (react sampleDigests (sampleEnv 2) aliceAllocated.server
      (.message (refreshWith []) sampleClient)).server.allocationTable.allocations = 1 ∧
    HashMap.len (react sampleDigests (sampleEnv 2) aliceAllocated.server
      (.message (refreshWith [⟨Attribute.lifetime, [0, 0, 0, 0]⟩])
        sampleClient)).server.allocationTable.allocations = 0 :=
  ⟨refreshWith_sameSigned _ _, rfl, by decide +kernel, by decide +kernel, by decide +kernel,
    by decide +kernel⟩

end Miuturn
