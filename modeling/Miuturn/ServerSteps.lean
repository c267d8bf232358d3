import Miuturn.AllocationProofs
import Miuturn.ServerAuth

set_option autoImplicit false

/-! # What one request can do

`Effect` lists everything `process_message` can do to the server, with the guards under which it
does it: nothing, a new nonce, one of the authenticated updates of the tables, or the counters of a
Send. Invariants are proved by cases on it. -/

open RustStd

namespace Miuturn

/-! ## Reading attributes -/

/-- The addresses that the PEER-ADDRESS attributes of a list decode to. -/
def peersOf (attributes : List Attribute) : List SocketAddr :=
  attributes.filterMap (fun a =>
    if a.attrType = Attribute.peerAddress then xorAddressOf magicCookie a.value else none)

theorem collectPeers_eq (tid : TransactionId) (attributes : List Attribute) :
    collectPeers tid attributes = .ok (peersOf attributes) := by
  induction attributes with
  | nil => rfl
  | cons attr attrs ih =>
      unfold collectPeers
      by_cases h : attr.attrType = Attribute.peerAddress
      · rw [if_pos h, decodeXorAddress_eq, Rust.ok_bind]
        cases hx : xorAddressOf magicCookie attr.value with
        | none => simp [ih, peersOf, h, hx]
        | some addr => simp [ih, peersOf, h, hx]
      · rw [if_neg h, ih]
        simp [peersOf, h]

/-- The number in a CHANNEL-NUMBER value of at least two bytes. -/
def channelNumberOf : Bytes → Option UInt16
  | hi :: lo :: _ => some (shiftOr16 hi lo)
  | _ => none

/-- The peer a ChannelBind binds to. -/
def channelPeerOf (value : Bytes) : SocketAddr :=
  (xorAddressOf magicCookie value).getD unspecifiedAddr

/-! ## The handlers after authentication -/

variable {D : Digests} {env : Env} {server : TurnServer} {msg : Message} {client : SocketAddr}
  {u : String}

theorem withAuth_ok (h : verifyTurnAuth D env server msg client = .ok (.ok u))
    (body : String → Rust Outcome) : withAuth D env server msg client body = body u := by
  rw [withAuth, h, Rust.ok_bind]

theorem withAuth_error {answer : TurnServer × Bytes}
    (h : verifyTurnAuth D env server msg client = .ok (.error answer))
    (body : String → Rust Outcome) :
    withAuth D env server msg client body = .ok (.unchanged answer.1 (some answer.2)) := by
  rw [withAuth, h, Rust.ok_bind]
  rfl

theorem withAuth_fault {f : Fault} (h : verifyTurnAuth D env server msg client = .error f)
    (body : String → Rust Outcome) : withAuth D env server msg client body = .error f := by
  rw [withAuth, h, Rust.error_bind]

/-- A handler that returns has run its body, or has sent the refusal. -/
theorem withAuth_cases {body : String → Rust Outcome} {o : Outcome}
    (h : withAuth D env server msg client body = .ok o) :
    (∃ u, verifyTurnAuth D env server msg client = .ok (.ok u) ∧ body u = .ok o) ∨
    ∃ answer : TurnServer × Bytes, verifyTurnAuth D env server msg client = .ok (.error answer) ∧
      o = .unchanged answer.1 (some answer.2) := by
  cases hv : verifyTurnAuth D env server msg client with
  | error f =>
      rw [withAuth_fault hv] at h
      exact absurd h (by simp)
  | ok result =>
      cases result with
      | ok u =>
          rw [withAuth_ok hv] at h
          exact Or.inl ⟨u, rfl, h⟩
      | error answer =>
          rw [withAuth_error hv] at h
          exact Or.inr ⟨answer, rfl, (Except.ok.inj h).symm⟩

/-- A handler is determined by what it does for requests that pass. -/
theorem withAuth_congr {body body' : String → Rust Outcome}
    (h : ∀ u, verifyTurnAuth D env server msg client = .ok (.ok u) → body u = body' u) :
    withAuth D env server msg client body = withAuth D env server msg client body' := by
  cases hv : verifyTurnAuth D env server msg client with
  | error f => rw [withAuth_fault hv, withAuth_fault hv]
  | ok result =>
      cases result with
      | ok u => rw [withAuth_ok hv, withAuth_ok hv, h u hv]
      | error answer => rw [withAuth_error hv, withAuth_error hv]

/-- The signed success answer of CreatePermission and ChannelBind. -/
def plainSuccess (D : Digests) (env : Env) (server : TurnServer) (msg : Message) (u : String) :
    Bytes :=
  (signResponse D env server u (createSuccessResponse msg.header)).encode

theorem answerClass_plainSuccess :
    answerClass (plainSuccess D env server msg u) = some .success := by
  rw [plainSuccess, answerClass_encode, signResponse_header]
  rfl

/-- `handle_create_permission` for an authenticated request. -/
def permitFor (D : Digests) (env : Env) (server : TurnServer) (msg : Message) (client : SocketAddr)
    (u : String) : Outcome :=
  match server.allocationTable.entryOfClient client with
  | none => .unchanged server (some (createErrorResponseBytes msg .allocationMismatch server))
  | some _ =>
    if peersOf msg.attributes = [] then
      .unchanged server (some (createErrorResponseBytes msg .badRequest server))
    else
      ⟨{ server with allocationTable :=
          (server.allocationTable.addPermissions client (peersOf msg.attributes)).1 },
        some (plainSuccess D env server msg u), none, 0⟩

theorem handleCreatePermission_ok (h : verifyTurnAuth D env server msg client = .ok (.ok u)) :
    handleCreatePermission D env server msg client
      = .ok (permitFor D env server msg client u) := by
  unfold handleCreatePermission permitFor AllocationTable.findAllocationByClient
  rw [withAuth_ok h]
  cases hentry : server.allocationTable.entryOfClient client with
  | none => rfl
  | some e =>
      simp only [Option.map_some, collectPeers_eq, Rust.ok_bind]
      cases hpeers : peersOf msg.attributes with
      | nil => rfl
      | cons p ps =>
          have hadd : (server.allocationTable.addPermissions client (p :: ps)).2 = true := by
            unfold AllocationTable.addPermissions
            rw [hentry]
          rw [← Prod.mk.eta (p := server.allocationTable.addPermissions client (p :: ps)), hadd]
          rfl

/-- `handle_channel_bind` for an authenticated request. It faults on a CHANNEL-NUMBER of fewer than
    two bytes. -/
def bindFor (D : Digests) (env : Env) (server : TurnServer) (msg : Message) (client : SocketAddr)
    (u : String) : Rust Outcome :=
  match server.allocationTable.entryOfClient client, msg.getAttribute Attribute.peerAddress,
      msg.getAttribute Attribute.channelNumber with
  | some e, some peerAttr, some channelAttr =>
    match channelNumberOf channelAttr.value with
    | none => .error .indexOutOfRange
    | some n =>
      match server.channelTable.bind env.now n (channelPeerOf peerAttr.value) e.2.relayedAddr with
      | .ok channels =>
        .ok ⟨{ server with channelTable := channels }, some (plainSuccess D env server msg u), none,
          0⟩
      | .error _ =>
        .ok (.unchanged server (some (createErrorResponseBytesWithReason msg .badRequest
          "Channel number already bound for this allocation" server)))
  | _, _, _ => .ok (.unchanged server none)

theorem handleChannelBind_ok (h : verifyTurnAuth D env server msg client = .ok (.ok u)) :
    handleChannelBind D env server msg client = bindFor D env server msg client u := by
  unfold handleChannelBind bindFor AllocationTable.findAllocationByClient
  rw [withAuth_ok h]
  cases server.allocationTable.entryOfClient client with
  | none => rfl
  | some e =>
      cases msg.getAttribute Attribute.peerAddress with
      | none => rfl
      | some peerAttr =>
          simp only [Option.map_some, decodeXorAddress_eq, Rust.ok_bind]
          cases msg.getAttribute Attribute.channelNumber with
          | none => rfl
          | some channelAttr =>
              obtain ⟨attrType, value⟩ := channelAttr
              rcases value with _ | ⟨hi, _ | ⟨lo, rest⟩⟩
              · rfl
              · rfl
              · rfl

/-- `handle_send`. -/
def sendFor (env : Env) (server : TurnServer) (msg : Message) (client : SocketAddr) : Outcome :=
  match server.allocationTable.entryOfClient client, msg.getAttribute Attribute.peerAddress,
      msg.getAttribute Attribute.data with
  | some _, some peerAttr, some dataAttr =>
    match xorAddressOf magicCookie peerAttr.value with
    | some peer =>
      let result := server.allocationTable.sendToPeer env.sendOk client peer dataAttr.value
      ⟨{ server with allocationTable := result.1 }, none, result.2, 0⟩
    | none => .unchanged server none
  | _, _, _ => .unchanged server none

theorem handleSend_eq : handleSend env server msg client = .ok (sendFor env server msg client) := by
  unfold handleSend sendFor AllocationTable.findAllocationByClient
  cases server.allocationTable.entryOfClient client with
  | none => rfl
  | some e =>
      cases msg.getAttribute Attribute.peerAddress with
      | none => rfl
      | some peerAttr =>
          simp only [Option.map_some, decodeXorAddress_eq, Rust.ok_bind]
          cases msg.getAttribute Attribute.data with
          | none => cases xorAddressOf magicCookie peerAttr.value <;> rfl
          | some dataAttr =>
              dsimp only
              cases xorAddressOf magicCookie peerAttr.value <;> rfl

/-- `handle_channel_data` always returns. It leaves the server as it is, and it sends at most one
    packet: to the peer that a binding of the client's allocation names. -/
theorem handleChannelData_cases (env : Env) (server : TurnServer) (data : Bytes)
    (client : SocketAddr) :
    handleChannelData env server data client = .ok (.unchanged server none) ∨
    ∃ e n channel relay payload, server.allocationTable.entryOfClient client = some e ∧
      u16At data 0 = .ok n ∧
      server.channelTable.getByChannel e.2.relayedAddr n = some channel ∧
      handleChannelData env server data client =
        .ok ⟨server, none,
          if env.sendOk then some ⟨relay, channel.peerAddr, payload⟩ else none, 0⟩ := by
  unfold handleChannelData AllocationTable.getAllocationByClient
  split
  · exact Or.inl rfl
  · next hlen =>
      obtain ⟨n, hn⟩ := exists_u16At (show 0 + 1 < data.length by omega)
      obtain ⟨len, hl⟩ := exists_u16At (show 2 + 1 < data.length by omega)
      have hslice := slice_eq_ok (show 4 ≤ 4 + min len.toNat (data.length - 4) by omega)
        (show 4 + min len.toNat (data.length - 4) ≤ data.length by omega)
      simp only [hn, hl, Rust.ok_bind, hslice]
      cases hentry : server.allocationTable.entryOfClient client with
      | none => exact Or.inl rfl
      | some e =>
          simp only [Option.map_some]
          split
          · next channel relay hchannel _ =>
              exact Or.inr ⟨e, n, channel, relay.socket, _, rfl, rfl, hchannel, rfl⟩
          · exact Or.inl rfl

/-! ## Requests that authenticate first -/

/-- The requests whose handlers begin with `verify_turn_auth`. -/
def authenticatedMethods : List Method := [.allocate, .refresh, .createPermission, .channelBind]

/-- What the handler of such a request does once the request has passed. -/
def requestBody (D : Digests) (env : Env) (server : TurnServer) (msg : Message)
    (client : SocketAddr) (u : String) : Rust Outcome :=
  match msg.header.method with
  | .allocate => getLifetime msg >>= fun lifetime =>
    .ok (allocateFor D env server msg client u lifetime)
  | .refresh => getLifetime msg >>= fun lifetime =>
    .ok (refreshFor D env server msg client u lifetime)
  | .createPermission => .ok (permitFor D env server msg client u)
  | .channelBind => bindFor D env server msg client u
  | _ => .ok (.unchanged server none)

theorem requestBody_allocate (hm : msg.header.method = .allocate) :
    requestBody D env server msg client u = getLifetime msg >>= fun lifetime =>
      .ok (allocateFor D env server msg client u lifetime) := by
  unfold requestBody
  rw [hm]

theorem requestBody_refresh (hm : msg.header.method = .refresh) :
    requestBody D env server msg client u = getLifetime msg >>= fun lifetime =>
      .ok (refreshFor D env server msg client u lifetime) := by
  unfold requestBody
  rw [hm]

theorem requestBody_createPermission (hm : msg.header.method = .createPermission) :
    requestBody D env server msg client u = .ok (permitFor D env server msg client u) := by
  unfold requestBody
  rw [hm]

theorem requestBody_channelBind (hm : msg.header.method = .channelBind) :
    requestBody D env server msg client u = bindFor D env server msg client u := by
  unfold requestBody
  rw [hm]

section Authenticated

variable (hmethod : msg.header.method ∈ authenticatedMethods)

include hmethod

theorem processMessage_turnDisabled (hturn : server.turnEnabled = false) :
    processMessage D env server msg client = .ok (.unchanged server none) := by
  have hne : msg.header.method ≠ .binding := by
    intro hm
    rw [hm] at hmethod
    exact absurd hmethod (by decide)
  unfold processMessage
  rw [if_neg (fun h => hne h.1), if_pos ⟨hne, hturn⟩]
  rfl

variable (hturn : server.turnEnabled = true)

include hturn

/-- With TURN enabled, what `verify_turn_auth` returns decides how the request goes on. -/
theorem processMessage_authenticated :
    processMessage D env server msg client
      = withAuth D env server msg client (requestBody D env server msg client) := by
  unfold processMessage
  simp only [authenticatedMethods, List.mem_cons, List.not_mem_nil, or_false] at hmethod
  rcases hmethod with hm | hm | hm | hm
  all_goals
    simp only [hm, hturn, reduceCtorEq, false_and, and_false, if_false, ne_eq, not_false_eq_true]
  · refine withAuth_congr (fun u _ => ?_)
    rw [requestBody_allocate hm]
    rfl
  · refine withAuth_congr (fun u _ => ?_)
    rw [requestBody_refresh hm]
    rfl
  · refine withAuth_congr (fun u hv => ?_)
    have hbody := handleCreatePermission_ok hv
    rw [handleCreatePermission, withAuth_ok hv] at hbody
    rw [requestBody_createPermission hm, hbody]
  · refine withAuth_congr (fun u hv => ?_)
    have hbody := handleChannelBind_ok hv
    rw [handleChannelBind, withAuth_ok hv] at hbody
    rw [requestBody_channelBind hm, hbody]

end Authenticated

/-! ## Everything a message can do -/

/-- The server with its allocation table replaced. -/
abbrev TurnServer.withTable (server : TurnServer) (table : AllocationTable) : TurnServer :=
  { server with allocationTable := table }

/-- The server after `remove_allocation`. -/
def TurnServer.without (server : TurnServer) (addr : SocketAddr) : TurnServer :=
  { server with
      allocationTable := (server.allocationTable.removeAllocation server.channelTable addr).1.1,
      channelTable := (server.allocationTable.removeAllocation server.channelTable addr).1.2 }

/-- The number of allocations `remove_allocation` removes. -/
def TurnServer.removedBy (server : TurnServer) (addr : SocketAddr) : ℕ :=
  (server.allocationTable.removeAllocation server.channelTable addr).2.toList.length

theorem removeExisting_cases (server : TurnServer) (client : SocketAddr) :
    (server.allocationTable.entryOfClient client = none ∧
      removeExisting server client = (server, 0)) ∨
    ∃ e, server.allocationTable.entryOfClient client = some e ∧
      removeExisting server client
        = (server.without e.2.relayedAddr, server.removedBy e.2.relayedAddr) := by
  unfold removeExisting AllocationTable.findAllocationByClient
  cases server.allocationTable.entryOfClient client with
  | none => exact Or.inl ⟨rfl, rfl⟩
  | some e => exact Or.inr ⟨e, rfl, rfl⟩

/-- The outcomes of `process_message`. -/
inductive Effect (D : Digests) (env : Env) (server : TurnServer) (msg : Message)
    (client : SocketAddr) : Outcome → Prop where
  /-- Nothing changes, and a TURN request is answered with an error if at all. -/
  | inert {response : Option Bytes}
      (hclass : ∀ b, response = some b → msg.header.method ≠ .binding →
        answerClass b = some .error) :
      Effect D env server msg client (.unchanged server response)
  /-- Authentication failed, and the 401 answer carries a new nonce. -/
  | challenge (reason : Option String)
      (hfail : verifyTurnAuth D env server msg client
        = .ok (.error (create401Response env server msg reason))) :
      Effect D env server msg client
        (.unchanged (create401Response env server msg reason).1
          (some (create401Response env server msg reason).2))
  /-- The client's allocation is gone, and no new one could be made. -/
  | allocateFailed {u : String} {pa : PortAllocator} {b : Bytes}
      (hmethod : msg.header.method = .allocate)
      (hauth : verifyTurnAuth D env server msg client = .ok (.ok u))
      (hports : SamePorts (removeExisting server client).1.allocationTable.portAllocator pa)
      (hclass : answerClass b = some .error) :
      Effect D env server msg client
        ⟨(removeExisting server client).1.withTable
            { (removeExisting server client).1.allocationTable with portAllocator := pa },
          some b, none, (removeExisting server client).2⟩
  | allocated {u : String} {lifetime : UInt32} {pa : PortAllocator} {port : UInt16} {k : ℕ}
      {b : Bytes} (hmethod : msg.header.method = .allocate)
      (hauth : verifyTurnAuth D env server msg client = .ok (.ok u))
      (htake : PortAllocator.Takes
        (removeExisting server client).1.allocationTable.portAllocator pa k)
      (hport : port.toNat
        = (removeExisting server client).1.allocationTable.portAllocator.minPort.toNat + k)
      (hclass : answerClass b = some .success) :
      Effect D env server msg client
        ⟨(removeExisting server client).1.withTable
            ((removeExisting server client).1.allocationTable.enter env client (some lifetime) pa
              port),
          some b, none, (removeExisting server client).2⟩
  /-- A Refresh with lifetime 0. -/
  | deleted {u : String} {e : Σ _ : SocketAddr, Allocation} {b : Bytes}
      (hmethod : msg.header.method = .refresh)
      (hauth : verifyTurnAuth D env server msg client = .ok (.ok u))
      (hentry : server.allocationTable.entryOfClient client = some e)
      (hlifetime : getLifetime msg = .ok 0) :
      Effect D env server msg client
        ⟨server.without e.2.relayedAddr, some b, none, server.removedBy e.2.relayedAddr⟩
  | refreshed {u : String} {lifetime : UInt32} {e : Σ _ : SocketAddr, Allocation}
      {table : AllocationTable} {b : Bytes} (hmethod : msg.header.method = .refresh)
      (hauth : verifyTurnAuth D env server msg client = .ok (.ok u))
      (hentry : server.allocationTable.entryOfClient client = some e) (hpos : lifetime ≠ 0)
      (htable : server.allocationTable.refreshAllocation e.2.relayedAddr lifetime = .ok table)
      (hlifetime : getLifetime msg = .ok lifetime) :
      Effect D env server msg client ⟨server.withTable table, some b, none, 0⟩
  | permitted {u : String} {e : Σ _ : SocketAddr, Allocation} {b : Bytes}
      (hmethod : msg.header.method = .createPermission)
      (hauth : verifyTurnAuth D env server msg client = .ok (.ok u))
      (hentry : server.allocationTable.entryOfClient client = some e)
      (hclass : answerClass b = some .success) :
      Effect D env server msg client
        ⟨server.withTable (server.allocationTable.addPermissions client (peersOf msg.attributes)).1,
          some b, none, 0⟩
  | bound {u : String} {e : Σ _ : SocketAddr, Allocation} {peerAttr channelAttr : Attribute}
      {n : UInt16} {channels : ChannelTable} {b : Bytes}
      (hmethod : msg.header.method = .channelBind)
      (hauth : verifyTurnAuth D env server msg client = .ok (.ok u))
      (hentry : server.allocationTable.entryOfClient client = some e)
      (hpeer : msg.getAttribute Attribute.peerAddress = some peerAttr)
      (hchannel : msg.getAttribute Attribute.channelNumber = some channelAttr)
      (hnumber : channelNumberOf channelAttr.value = some n)
      (hbind : server.channelTable.bind env.now n (channelPeerOf peerAttr.value) e.2.relayedAddr
        = .ok channels) (hclass : answerClass b = some .success) :
      Effect D env server msg client ⟨{ server with channelTable := channels }, some b, none, 0⟩
  /-- A Send; it may send nothing. -/
  | relayed (peer : SocketAddr) (data : Bytes) (hmethod : msg.header.method = .send) :
      Effect D env server msg client
        ⟨server.withTable (server.allocationTable.sendToPeer env.sendOk client peer data).1, none,
          (server.allocationTable.sendToPeer env.sendOk client peer data).2, 0⟩

theorem effect_none : Effect D env server msg client (.unchanged server none) :=
  .inert (fun b hb => absurd hb (by simp))

theorem effect_error {b : Bytes} (h : answerClass b = some .error) :
    Effect D env server msg client (.unchanged server (some b)) := by
  refine .inert ?_
  rintro b' hb' -
  obtain rfl := Option.some.inj hb'
  exact h

theorem allocateFor_effect {lifetime : UInt32} (hmethod : msg.header.method = .allocate)
    (hauth : verifyTurnAuth D env server msg client = .ok (.ok u)) :
    Effect D env server msg client (allocateFor D env server msg client u lifetime) := by
  unfold allocateFor allocateOutcome
  rcases createAllocation_cases (removeExisting server client).1.allocationTable env client
    (some lifetime) with ⟨pa, e, heq, hports⟩ | ⟨pa, port, k, heq, htake, hport⟩
  · simp only [heq]
    exact .allocateFailed hmethod hauth hports (answerClass_errorResponse _ _ _ _)
  · simp only [heq]
    refine .allocated hmethod hauth htake hport ?_
    rw [answerClass_encode, signResponse_header]
    rfl

theorem refreshFor_effect {lifetime : UInt32} (hmethod : msg.header.method = .refresh)
    (hauth : verifyTurnAuth D env server msg client = .ok (.ok u))
    (hlifetime : getLifetime msg = .ok lifetime) :
    Effect D env server msg client (refreshFor D env server msg client u lifetime) := by
  unfold refreshFor AllocationTable.findAllocationByClient
  cases hentry : server.allocationTable.entryOfClient client with
  | none => exact effect_error (answerClass_errorResponse _ _ _ _)
  | some e =>
      simp only [Option.map_some]
      split
      · next hzero =>
          rw [hzero] at hlifetime
          exact .deleted hmethod hauth hentry hlifetime
      · next hpos =>
          split
          · next table htable => exact .refreshed hmethod hauth hentry hpos htable hlifetime
          · exact effect_error (answerClass_errorResponse _ _ _ _)

theorem permitFor_effect (hmethod : msg.header.method = .createPermission)
    (hauth : verifyTurnAuth D env server msg client = .ok (.ok u)) :
    Effect D env server msg client (permitFor D env server msg client u) := by
  unfold permitFor
  split
  · exact effect_error (answerClass_errorResponse _ _ _ _)
  · next e hentry =>
      split
      · exact effect_error (answerClass_errorResponse _ _ _ _)
      · exact .permitted hmethod hauth hentry answerClass_plainSuccess

theorem bindFor_effect {o : Outcome} (hmethod : msg.header.method = .channelBind)
    (hauth : verifyTurnAuth D env server msg client = .ok (.ok u))
    (h : bindFor D env server msg client u = .ok o) : Effect D env server msg client o := by
  unfold bindFor at h
  split at h
  · next e peerAttr channelAttr hentry hpeer hchannel =>
      split at h
      · exact absurd h (by simp)
      · next n hnumber =>
          split at h
          · next channels hbind =>
              obtain rfl := Except.ok.inj h
              exact .bound hmethod hauth hentry hpeer hchannel hnumber hbind
                answerClass_plainSuccess
          · obtain rfl := Except.ok.inj h
            exact effect_error (answerClass_errorResponse _ _ _ _)
  · obtain rfl := Except.ok.inj h
    exact effect_none

theorem sendFor_effect (hmethod : msg.header.method = .send) :
    Effect D env server msg client (sendFor env server msg client) := by
  unfold sendFor
  split
  · split
    · next peer _ => exact .relayed peer _ hmethod
    · exact effect_none
  · exact effect_none

/-- A handler that begins with authentication: it is refused, or its body ran. -/
theorem effect_of_withAuth {body : String → Rust Outcome} {o : Outcome}
    (h : withAuth D env server msg client body = .ok o)
    (hbody : ∀ u, verifyTurnAuth D env server msg client = .ok (.ok u) → body u = .ok o →
      Effect D env server msg client o) : Effect D env server msg client o := by
  rcases withAuth_cases h with ⟨u, hv, hu⟩ | ⟨answer, hv, rfl⟩
  · exact hbody u hv hu
  · rcases verifyTurnAuth_eq_error hv with rfl | ⟨reason, rfl⟩
    · exact effect_error (answerClass_errorResponse msg .forbidden none server)
    · exact .challenge reason hv

theorem requestBody_effect {o : Outcome}
    (hauth : verifyTurnAuth D env server msg client = .ok (.ok u))
    (h : requestBody D env server msg client u = .ok o) : Effect D env server msg client o := by
  unfold requestBody at h
  split at h
  · next hm =>
      obtain ⟨lifetime, -, h⟩ := Rust.bind_eq_ok.1 h
      obtain rfl := Except.ok.inj h
      exact allocateFor_effect hm hauth
  · next hm =>
      obtain ⟨lifetime, hlifetime, h⟩ := Rust.bind_eq_ok.1 h
      obtain rfl := Except.ok.inj h
      exact refreshFor_effect hm hauth hlifetime
  · next hm =>
      obtain rfl := Except.ok.inj h
      exact permitFor_effect hm hauth
  · next hm => exact bindFor_effect hm hauth h
  · obtain rfl := Except.ok.inj h
    exact effect_none

/-- The other methods need no authentication, and their handlers always return. -/
theorem processMessage_other (hmethod : msg.header.method ∉ authenticatedMethods) :
    ∃ o, processMessage D env server msg client = .ok o ∧ Effect D env server msg client o := by
  unfold processMessage
  split
  · exact ⟨_, rfl, effect_none⟩
  · split
    · exact ⟨_, rfl, effect_none⟩
    · split
      · next hm => exact ⟨_, rfl, .inert (fun b _ hne => absurd hm hne)⟩
      · next hm => exact absurd hm (fun hm => hmethod (by rw [hm]; decide))
      · next hm => exact absurd hm (fun hm => hmethod (by rw [hm]; decide))
      · next hm => exact absurd hm (fun hm => hmethod (by rw [hm]; decide))
      · next hm => exact absurd hm (fun hm => hmethod (by rw [hm]; decide))
      · next hm => exact ⟨_, handleSend_eq, sendFor_effect hm⟩
      · exact ⟨_, rfl, effect_none⟩

theorem processMessage_effect {o : Outcome} (h : processMessage D env server msg client = .ok o) :
    Effect D env server msg client o := by
  by_cases hmethod : msg.header.method ∈ authenticatedMethods
  · cases hturn : server.turnEnabled with
    | false =>
        rw [processMessage_turnDisabled hmethod hturn] at h
        obtain rfl := Except.ok.inj h
        exact effect_none
    | true =>
        rw [processMessage_authenticated hmethod hturn] at h
        exact effect_of_withAuth h (fun u hv hb => requestBody_effect hv hb)
  · obtain ⟨o', heq, heffect⟩ := processMessage_other hmethod
    obtain rfl := Except.ok.inj (heq.symm.trans h)
    exact heffect

end Miuturn
