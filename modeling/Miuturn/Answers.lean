import Miuturn.Frames
import Miuturn.Stream

set_option autoImplicit false

/-! # What is answered

`process_message` looks at the method of a message and not at its class, so it treats a response or
an indication like the request of the same method. `Silent` and `Ignored` say for which messages it
sends no answer, and for which it also leaves the server alone. An answer is itself a message of its
request's method (`answer_reads`), so the two conditions decide what becomes of an answer that comes
back. -/

open RustStd

namespace Miuturn

/-- A message that nobody should answer or act on: a response, or an indication other than Send. -/
def Message.Unsolicited (msg : Message) : Prop :=
  msg.header.eventType = .success ∨ msg.header.eventType = .error ∨
    (msg.header.eventType = .indication ∧ msg.header.method ≠ .send)

/-- What a Send needs to go out: an allocation of the client, a peer it permits, and data. -/
def Forwards (env : Env) (server : TurnServer) (msg : Message) (client : SocketAddr) : Prop :=
  ∃ e peerAttr dataAttr peer, server.allocationTable.entryOfClient client = some e ∧
    msg.getAttribute Attribute.peerAddress = some peerAttr ∧
    msg.getAttribute Attribute.data = some dataAttr ∧
    xorAddressOf magicCookie peerAttr.value = some peer ∧
    peer.ip ∈ e.2.permissions ∧ e.2.relay ≠ none ∧ env.sendOk = true

/-- A ChannelBind that is let in and dropped: there is no allocation, or an attribute is missing. -/
def DropsBind (D : Digests) (env : Env) (server : TurnServer) (msg : Message)
    (client : SocketAddr) : Prop :=
  Admitted D env server msg client ∧ (server.allocationTable.entryOfClient client = none ∨
    msg.getAttribute Attribute.peerAddress = none ∨
    msg.getAttribute Attribute.channelNumber = none)

/-- The messages, of whatever class, that are not answered. -/
def Silent (D : Digests) (env : Env) (server : TurnServer) (msg : Message)
    (client : SocketAddr) : Prop :=
  match msg.header.method with
  | .binding => server.stunEnabled = false
  | .allocate | .refresh | .createPermission => server.turnEnabled = false
  | .channelBind => server.turnEnabled = false ∨ DropsBind D env server msg client
  | .send | .data => True

/-- The messages that are not answered and change nothing. -/
def Ignored (D : Digests) (env : Env) (server : TurnServer) (msg : Message)
    (client : SocketAddr) : Prop :=
  Silent D env server msg client ∧
    ¬ (msg.header.method = .send ∧ server.turnEnabled = true ∧ Forwards env server msg client)

variable {D : Digests} {env : Env} {server : TurnServer} {msg : Message} {client : SocketAddr}
  {u : String}

/-! ## The answers of the handlers -/

/-- The header of an answer, before it is encoded. -/
def answerHeader (msg : Message) (eventType : EventType) : MessageHeader :=
  ⟨msg.header.method, eventType, 0, magicCookie, msg.header.transactionId⟩

/-- The answers to a request of a user: an error, or a success without an integrity attribute of its
    own that was given to `signResponse`. -/
inductive Reply (D : Digests) (env : Env) (server : TurnServer) (msg : Message) (u : String) :
    Message → Prop where
  | error (attributes : List Attribute) :
      Reply D env server msg u ⟨answerHeader msg .error, attributes⟩
  | success {attributes : List Attribute}
      (hunsigned : Message.getAttribute ⟨answerHeader msg .success, attributes⟩
        Attribute.messageIntegrity = none) :
      Reply D env server msg u
        (signResponse D env server u ⟨answerHeader msg .success, attributes⟩)

/-- The bytes begin with the header of an answer to the message. -/
def AnswerTo (msg : Message) (r : Bytes) : Prop :=
  ∃ (h : MessageHeader) (body : Bytes), r = h.encode ++ body ∧ h.magicCookie = magicCookie ∧
    h.method = msg.header.method ∧ (h.eventType = .success ∨ h.eventType = .error)

theorem Reply.header {response : Message} (h : Reply D env server msg u response) :
    response.header = answerHeader msg .success ∨ response.header = answerHeader msg .error := by
  cases h with
  | error attributes => exact Or.inr rfl
  | success _ =>
      left
      rw [signResponse_header]

theorem Reply.answerTo {response : Message} (h : Reply D env server msg u response) :
    AnswerTo msg response.encode := by
  refine ⟨_, _, rfl, rfl, ?_, ?_⟩
  · rcases h.header with heq | heq <;> rw [heq] <;> rfl
  · rcases h.header with heq | heq <;> rw [heq]
    · exact Or.inl rfl
    · exact Or.inr rfl

/-- Signing reads the settings of the server, which no handler changes before it signs. -/
theorem signResponse_removeExisting (response : Message) :
    signResponse D env (removeExisting server client).1 u response
      = signResponse D env server u response := by
  rcases removeExisting_cases server client with ⟨-, heq⟩ | ⟨e, -, heq⟩
  · rw [heq]
  · rw [heq]
    rfl

theorem allocateFor_reply (lifetime : UInt32) :
    ∃ response, (allocateFor D env server msg client u lifetime).response
        = some response.encode ∧ Reply D env server msg u response := by
  unfold allocateFor allocateOutcome
  rcases createAllocation_cases (removeExisting server client).1.allocationTable env client
    (some lifetime) with ⟨pa, e, heq, -⟩ | ⟨pa, port, k, heq, -, -⟩
  · simp only [heq]
    exact ⟨_, rfl, .error _⟩
  · simp only [heq]
    refine ⟨_, congrArg (fun m => some m.encode) (signResponse_removeExisting _), .success rfl⟩

theorem refreshFor_reply (lifetime : UInt32) :
    ∃ response, (refreshFor D env server msg client u lifetime).response
        = some response.encode ∧ Reply D env server msg u response := by
  unfold refreshFor
  split
  · split
    · exact ⟨_, rfl, .success rfl⟩
    · split
      · exact ⟨_, rfl, .success rfl⟩
      · exact ⟨_, rfl, .error _⟩
  · exact ⟨_, rfl, .error _⟩

theorem permitFor_reply :
    ∃ response, (permitFor D env server msg client u).response = some response.encode ∧
      Reply D env server msg u response := by
  unfold permitFor
  split
  · exact ⟨_, rfl, .error _⟩
  · split
    · exact ⟨_, rfl, .error _⟩
    · exact ⟨_, rfl, .success rfl⟩

theorem bindFor_reply {o : Outcome} {r : Bytes} (h : bindFor D env server msg client u = .ok o)
    (hr : o.response = some r) :
    ∃ response, r = response.encode ∧ Reply D env server msg u response := by
  unfold bindFor at h
  split at h
  · split at h
    · exact absurd h (by simp)
    · split at h
      · obtain rfl := Except.ok.inj h
        obtain rfl := Option.some.inj hr
        exact ⟨_, rfl, .success rfl⟩
      · obtain rfl := Except.ok.inj h
        obtain rfl := Option.some.inj hr
        exact ⟨_, rfl, .error _⟩
  · obtain rfl := Except.ok.inj h
    exact absurd hr (by simp [Outcome.unchanged])

theorem requestBody_reply {o : Outcome} {r : Bytes}
    (h : requestBody D env server msg client u = .ok o) (hr : o.response = some r) :
    ∃ response, r = response.encode ∧ Reply D env server msg u response := by
  have hsome : ∀ {o' : Outcome}, o' = o →
      (∃ response, o'.response = some response.encode ∧ Reply D env server msg u response) →
      ∃ response, r = response.encode ∧ Reply D env server msg u response := by
    rintro o' rfl ⟨response, hresponse, hreply⟩
    exact ⟨response, Option.some.inj (hr.symm.trans hresponse), hreply⟩
  unfold requestBody at h
  split at h
  · obtain ⟨lifetime, -, h⟩ := Rust.bind_eq_ok.1 h
    exact hsome (Except.ok.inj h) (allocateFor_reply lifetime)
  · obtain ⟨lifetime, -, h⟩ := Rust.bind_eq_ok.1 h
    exact hsome (Except.ok.inj h) (refreshFor_reply lifetime)
  · exact hsome (Except.ok.inj h) permitFor_reply
  · exact bindFor_reply h hr
  · obtain rfl := Except.ok.inj h
    exact absurd hr (by simp [Outcome.unchanged])

/-! ## Messages without an answer -/

/-- The handlers that authenticate answer a request that fails. -/
theorem withAuth_silent_iff {body : String → Rust Outcome} :
    (∃ o, withAuth D env server msg client body = .ok o ∧ o.response = none) ↔
      ∃ u, verifyTurnAuth D env server msg client = .ok (.ok u) ∧
        ∃ o, body u = .ok o ∧ o.response = none := by
  cases hv : verifyTurnAuth D env server msg client with
  | error f => simp [withAuth_fault hv]
  | ok result =>
      cases result with
      | error answer => simp [withAuth_error hv, Outcome.unchanged]
      | ok u => simp [withAuth_ok hv]

/-- A ChannelBind without an answer is one that was dropped. -/
theorem bindFor_silent {o : Outcome} (h : bindFor D env server msg client u = .ok o)
    (hnone : o.response = none) :
    o = .unchanged server none ∧ (server.allocationTable.entryOfClient client = none ∨
      msg.getAttribute Attribute.peerAddress = none ∨
      msg.getAttribute Attribute.channelNumber = none) := by
  unfold bindFor at h
  cases hentry : server.allocationTable.entryOfClient client with
  | none =>
      rw [hentry] at h
      exact ⟨(Except.ok.inj h).symm, Or.inl rfl⟩
  | some e =>
      cases hpeer : msg.getAttribute Attribute.peerAddress with
      | none =>
          rw [hentry, hpeer] at h
          exact ⟨(Except.ok.inj h).symm, Or.inr (Or.inl rfl)⟩
      | some peerAttr =>
          cases hchannel : msg.getAttribute Attribute.channelNumber with
          | none =>
              rw [hentry, hpeer, hchannel] at h
              exact ⟨(Except.ok.inj h).symm, Or.inr (Or.inr rfl)⟩
          | some channelAttr =>
              rw [hentry, hpeer, hchannel] at h
              dsimp only at h
              split at h
              · exact absurd h (by simp)
              · split at h
                · obtain rfl := Except.ok.inj h
                  exact absurd hnone (Option.some_ne_none _)
                · obtain rfl := Except.ok.inj h
                  exact absurd hnone (Option.some_ne_none _)

theorem bindFor_of_drops (h : server.allocationTable.entryOfClient client = none ∨
      msg.getAttribute Attribute.peerAddress = none ∨
      msg.getAttribute Attribute.channelNumber = none) :
    bindFor D env server msg client u = .ok (.unchanged server none) := by
  unfold bindFor
  split
  · next hentry hpeer hchannel =>
      rw [hentry, hpeer, hchannel] at h
      exact absurd h (by simp)
  · rfl

/-- `requestBody` of the other three methods always has an answer. -/
theorem requestBody_silent_iff (hmethod : msg.header.method ∈ authenticatedMethods) :
    (∃ o, requestBody D env server msg client u = .ok o ∧ o.response = none) ↔
      msg.header.method = .channelBind ∧ (server.allocationTable.entryOfClient client = none ∨
        msg.getAttribute Attribute.peerAddress = none ∨
        msg.getAttribute Attribute.channelNumber = none) := by
  simp only [authenticatedMethods, List.mem_cons, List.not_mem_nil, or_false] at hmethod
  rcases hmethod with hm | hm | hm | hm
  · rw [requestBody_allocate hm, hm]
    constructor
    · rintro ⟨o, ho, hnone⟩
      obtain ⟨lifetime, -, ho⟩ := Rust.bind_eq_ok.1 ho
      obtain rfl := Except.ok.inj ho
      obtain ⟨response, hr, -⟩ := allocateFor_reply lifetime
      exact absurd (hnone.symm.trans hr) (by simp)
    · exact fun h => absurd h.1 (by decide)
  · rw [requestBody_refresh hm, hm]
    constructor
    · rintro ⟨o, ho, hnone⟩
      obtain ⟨lifetime, -, ho⟩ := Rust.bind_eq_ok.1 ho
      obtain rfl := Except.ok.inj ho
      obtain ⟨response, hr, -⟩ := refreshFor_reply lifetime
      exact absurd (hnone.symm.trans hr) (by simp)
    · exact fun h => absurd h.1 (by decide)
  · rw [requestBody_createPermission hm, hm]
    constructor
    · rintro ⟨o, ho, hnone⟩
      obtain rfl := Except.ok.inj ho
      obtain ⟨response, hr, -⟩ := permitFor_reply
      exact absurd (hnone.symm.trans hr) (by simp)
    · exact fun h => absurd h.1 (by decide)
  · rw [requestBody_channelBind hm]
    constructor
    · rintro ⟨o, ho, hnone⟩
      exact ⟨hm, (bindFor_silent ho hnone).2⟩
    · rintro ⟨-, h⟩
      exact ⟨_, bindFor_of_drops h, rfl⟩

theorem silent_of_turnDisabled (hturn : server.turnEnabled = false)
    (hmethod : msg.header.method ≠ .binding) : Silent D env server msg client := by
  unfold Silent
  split
  · next hm => exact absurd hm hmethod
  · exact hturn
  · exact hturn
  · exact hturn
  · exact Or.inl hturn
  · trivial
  · trivial

theorem silent_iff_of_authenticated (hmethod : msg.header.method ∈ authenticatedMethods)
    (hturn : server.turnEnabled = true) :
    Silent D env server msg client ↔
      msg.header.method = .channelBind ∧ DropsBind D env server msg client := by
  unfold Silent
  simp only [authenticatedMethods, List.mem_cons, List.not_mem_nil, or_false] at hmethod
  rcases hmethod with hm | hm | hm | hm
  · simp [hm, hturn]
  · simp [hm, hturn]
  · simp [hm, hturn]
  · simp [hm, hturn]

/-- `process_message` returns without an answer exactly on the messages of `Silent`. -/
theorem processMessage_silent_iff :
    (∃ o, processMessage D env server msg client = .ok o ∧ o.response = none) ↔
      Silent D env server msg client := by
  by_cases hmethod : msg.header.method ∈ authenticatedMethods
  · cases hturn : server.turnEnabled with
    | false =>
        refine ⟨fun _ => silent_of_turnDisabled hturn ?_, fun _ => ?_⟩
        · intro hm
          rw [hm] at hmethod
          exact absurd hmethod (by decide)
        · exact ⟨_, processMessage_turnDisabled hmethod hturn, rfl⟩
    | true =>
        rw [processMessage_authenticated hmethod hturn, withAuth_silent_iff,
          silent_iff_of_authenticated hmethod hturn, DropsBind, admitted_iff]
        simp only [requestBody_silent_iff hmethod]
        constructor
        · rintro ⟨u, hu, hm, hdrops⟩
          exact ⟨hm, ⟨u, hu⟩, hdrops⟩
        · rintro ⟨hm, ⟨u, hu⟩, hdrops⟩
          exact ⟨u, hu, hm, hdrops⟩
  · unfold processMessage Silent
    cases hm : msg.header.method with
    | binding =>
        cases server.stunEnabled <;> simp [Outcome.unchanged]
    | send =>
        cases server.turnEnabled with
        | false => simp [Outcome.unchanged]
        | true =>
            simp only [reduceCtorEq, false_and, and_false, if_false, handleSend_eq, iff_true]
            refine ⟨_, rfl, ?_⟩
            unfold sendFor
            split
            · split <;> rfl
            · rfl
    | data => cases server.turnEnabled <;> simp [Outcome.unchanged]
    | allocate => exact absurd (by rw [hm]; decide) hmethod
    | refresh => exact absurd (by rw [hm]; decide) hmethod
    | createPermission => exact absurd (by rw [hm]; decide) hmethod
    | channelBind => exact absurd (by rw [hm]; decide) hmethod

/-- A message without an answer is dropped, or it is a Send. -/
theorem Effect.silent_cases {o : Outcome} (he : Effect D env server msg client o)
    (hnone : o.response = none) :
    o = .unchanged server none ∨ msg.header.method = .send ∧ ∃ peer data,
      o = ⟨server.withTable
          (server.allocationTable.sendToPeer env.sendOk client peer data).1, none,
        (server.allocationTable.sendToPeer env.sendOk client peer data).2, 0⟩ := by
  cases he with
  | inert _ =>
      obtain rfl : _ = none := hnone
      exact Or.inl rfl
  | challenge reason _ => exact absurd hnone (Option.some_ne_none _)
  | allocateFailed _ _ _ _ => exact absurd hnone (Option.some_ne_none _)
  | allocated _ _ _ _ _ => exact absurd hnone (Option.some_ne_none _)
  | deleted _ _ _ _ => exact absurd hnone (Option.some_ne_none _)
  | refreshed _ _ _ _ _ _ => exact absurd hnone (Option.some_ne_none _)
  | permitted _ _ _ _ => exact absurd hnone (Option.some_ne_none _)
  | bound _ _ _ _ _ _ _ _ => exact absurd hnone (Option.some_ne_none _)
  | relayed peer data hm => exact Or.inr ⟨hm, peer, data, rfl⟩

/-- Without an answer, only a Send changes anything. -/
theorem Effect.server_of_silent {o : Outcome} (he : Effect D env server msg client o)
    (hnone : o.response = none) (hmethod : msg.header.method ≠ .send) : o.server = server := by
  rcases he.silent_cases hnone with rfl | ⟨hm, -⟩
  · rfl
  · exact absurd hm hmethod

/-- A Send that goes out is counted, and one that does not is dropped. -/
theorem sendFor_of_forwards {e : Σ _ : SocketAddr, Allocation} {peerAttr dataAttr : Attribute}
    {peer : SocketAddr} {relay : AllocationRelay}
    (hentry : server.allocationTable.entryOfClient client = some e)
    (hpeer : msg.getAttribute Attribute.peerAddress = some peerAttr)
    (hdata : msg.getAttribute Attribute.data = some dataAttr)
    (haddr : xorAddressOf magicCookie peerAttr.value = some peer) (hip : peer.ip ∈ e.2.permissions)
    (hrelay : e.2.relay = some relay) (hok : env.sendOk = true) :
    sendFor env server msg client
      = ⟨server.withTable (server.allocationTable.countPacket e.1 dataAttr.value.length), none,
          some ⟨relay.socket, peer, dataAttr.value⟩, 0⟩ := by
  unfold sendFor AllocationTable.sendToPeer
  simp only [hentry, hpeer, hdata, haddr, hrelay, hok, if_neg (not_not.2 hip), if_true]
  rfl

theorem sendFor_of_not_forwards (h : ¬ Forwards env server msg client) :
    sendFor env server msg client = .unchanged server none := by
  unfold sendFor
  split
  · next e peerAttr dataAttr hentry hpeer hdata =>
      split
      · next peer haddr =>
          have hself : (server.allocationTable.sendToPeer env.sendOk client peer
              dataAttr.value).1 = server.allocationTable := by
            rw [sendToPeer_eq_self_iff]
            rintro ⟨e', he', hip, hrelay, hok⟩
            exact h ⟨e', peerAttr, dataAttr, peer, he', hpeer, hdata, haddr, hip, hrelay, hok⟩
          rcases sendToPeer_cases server.allocationTable env.sendOk client peer dataAttr.value
            with heq | ⟨e', relay, -, -, heq⟩
          · rw [heq]
            rfl
          · rw [heq] at hself
            exact absurd hself (countPacket_ne _ _ _)
      · rfl
  · rfl

theorem sendFor_server_iff :
    (sendFor env server msg client).server = server ↔ ¬ Forwards env server msg client := by
  constructor
  · rintro hserver ⟨e, peerAttr, dataAttr, peer, hentry, hpeer, hdata, haddr, hip, hrelay, hok⟩
    obtain ⟨relay, hrelay⟩ := Option.ne_none_iff_exists'.1 hrelay
    rw [sendFor_of_forwards hentry hpeer hdata haddr hip hrelay hok] at hserver
    exact countPacket_ne _ _ _ (congrArg TurnServer.allocationTable hserver)
  · intro h
    rw [sendFor_of_not_forwards h]
    rfl

theorem processMessage_send (hm : msg.header.method = .send) :
    processMessage D env server msg client = .ok (if server.turnEnabled = true
      then sendFor env server msg client else .unchanged server none) := by
  unfold processMessage
  rw [hm]
  cases server.turnEnabled with
  | false => rfl
  | true =>
      simp only [reduceCtorEq, false_and, and_false, if_false, if_true]
      exact handleSend_eq

/-- It also leaves the server as it was exactly on the messages of `Ignored`. -/
theorem processMessage_ignored_iff :
    (∃ o, processMessage D env server msg client = .ok o ∧ o.response = none ∧
      o.server = server) ↔ Ignored D env server msg client := by
  unfold Ignored
  rw [← processMessage_silent_iff]
  by_cases hm : msg.header.method = .send
  · rw [processMessage_send hm]
    cases hturn : server.turnEnabled with
    | false => simp [Outcome.unchanged]
    | true =>
        simp only [if_true, Except.ok.injEq, exists_eq_left', hm, true_and,
          sendFor_server_iff]
  · constructor
    · rintro ⟨o, ho, hnone, -⟩
      exact ⟨⟨o, ho, hnone⟩, fun h => hm h.1⟩
    · rintro ⟨⟨o, ho, hnone⟩, -⟩
      exact ⟨o, ho, hnone, (processMessage_effect ho).server_of_silent hnone hm⟩

/-! ## Answers as input -/

theorem answerTo_bindingFast (hm : msg.header.method = .binding) :
    AnswerTo msg (createBindingResponseFast msg.header.transactionId client) := by
  have htype : encodeTypeWord .binding .success = 0x0101 := by decide
  have hheader : MessageHeader.encode ⟨.binding, .success, 12, magicCookie,
      msg.header.transactionId⟩
      = putU16 0x0101 ++ putU16 12 ++ putU32 0x2112A442 ++ msg.header.transactionId.val := by
    rw [MessageHeader.encode, htype]
    rfl
  refine ⟨⟨.binding, .success, 12, magicCookie, msg.header.transactionId⟩, ?body, ?split, rfl,
    hm.symm, Or.inl rfl⟩
  case split =>
    unfold createBindingResponseFast
    rw [List.append_assoc, List.append_assoc, hheader]

/-- The answers of `process_message`: the one to a Binding, and the replies to the requests that
    authenticate. A success is for a request that has passed. -/
theorem processMessage_reply {o : Outcome} {r : Bytes}
    (h : processMessage D env server msg client = .ok o) (hr : o.response = some r) :
    (msg.header.method = .binding ∧
      r = createBindingResponseFast msg.header.transactionId client) ∨
    ∃ u response, r = response.encode ∧ Reply D env server msg u response ∧
      (response.header.eventType = .success →
        verifyTurnAuth D env server msg client = .ok (.ok u)) := by
  by_cases hmethod : msg.header.method ∈ authenticatedMethods
  · right
    cases hturn : server.turnEnabled with
    | false =>
        rw [processMessage_turnDisabled hmethod hturn] at h
        obtain rfl := Except.ok.inj h
        exact absurd hr (by simp [Outcome.unchanged])
    | true =>
        rw [processMessage_authenticated hmethod hturn] at h
        rcases withAuth_cases h with ⟨u, hv, hu⟩ | ⟨answer, hv, rfl⟩
        · obtain ⟨response, hresponse, hreply⟩ := requestBody_reply hu hr
          exact ⟨u, response, hresponse, hreply, fun _ => hv⟩
        · -- the request is refused
          obtain rfl := Option.some.inj hr
          rcases verifyTurnAuth_eq_error hv with rfl | ⟨reason, rfl⟩
          · exact ⟨"", _, rfl, .error _, (EventType.noConfusion ·)⟩
          · exact ⟨"", _, rfl, .error _, (EventType.noConfusion ·)⟩
  · -- of the other methods only Binding has answers
    by_cases hm : msg.header.method = .binding
    · left
      unfold processMessage at h
      rw [hm] at h
      split at h
      · obtain rfl := Except.ok.inj h
        exact absurd hr (by simp [Outcome.unchanged])
      · rw [if_neg (by simp)] at h
        obtain rfl := Except.ok.inj h
        obtain rfl := Option.some.inj hr
        exact ⟨hm, rfl⟩
    · have hsilent : Silent D env server msg client := by
        unfold Silent
        simp only [authenticatedMethods, List.mem_cons, List.not_mem_nil, or_false,
          not_or] at hmethod
        split
        · next hm' => exact absurd hm' hm
        · next hm' => exact absurd hm' hmethod.1
        · next hm' => exact absurd hm' hmethod.2.1
        · next hm' => exact absurd hm' hmethod.2.2.1
        · next hm' => exact absurd hm' hmethod.2.2.2
        · trivial
        · trivial
      obtain ⟨o', ho', hnone⟩ := processMessage_silent_iff.2 hsilent
      obtain rfl := Except.ok.inj (h.symm.trans ho')
      exact absurd (hnone.symm.trans hr) (by simp)

/-- Every answer begins with a header of the method it answers, of class Success or Error. -/
theorem processMessage_answerTo {o : Outcome} {r : Bytes}
    (h : processMessage D env server msg client = .ok o) (hr : o.response = some r) :
    AnswerTo msg r := by
  rcases processMessage_reply h hr with ⟨hm, rfl⟩ | ⟨u, response, rfl, hreply, -⟩
  · exact answerTo_bindingFast hm
  · exact hreply.answerTo

theorem Message.header_of_parse {data : Bytes} {h : MessageHeader} {m : Message}
    (hheader : MessageHeader.parse data = .ok (some h)) (hm : Message.parse data = .ok (some m)) :
    m.header = h := by
  unfold Message.parse at hm
  split at hm
  · exact absurd hm (by simp)
  · rw [hheader, Rust.ok_bind] at hm
    dsimp only at hm
    split at hm
    · exact absurd hm (by simp)
    · obtain ⟨attributes, -, hm⟩ := Rust.bind_eq_ok.1 hm
      cases attributes with
      | none => exact absurd hm (by simp)
      | some attributes =>
          obtain rfl := Option.some.inj (Except.ok.inj hm)
          rfl

/-- The fallback reader takes the whole type word for the method, so that it reads requests only. -/
theorem fallbackMethod_of_fallbackParse {data : Bytes} {m : Message}
    (h : fallbackParse data = .ok (some m)) :
    ∃ hi lo, byteAt data 0 = .ok hi ∧ byteAt data 1 = .ok lo ∧
      fallbackMethod (shiftOr16 hi lo) = some m.header.method := by
  unfold fallbackParse fallbackParseIn at h
  split at h
  · exact absurd h (by simp)
  · obtain ⟨hi, hhi, h⟩ := Rust.bind_eq_ok.1 h
    obtain ⟨lo, hlo, h⟩ := Rust.bind_eq_ok.1 h
    obtain ⟨len0, -, h⟩ := Rust.bind_eq_ok.1 h
    obtain ⟨len1, -, h⟩ := Rust.bind_eq_ok.1 h
    obtain ⟨c0, -, h⟩ := Rust.bind_eq_ok.1 h
    obtain ⟨c1, -, h⟩ := Rust.bind_eq_ok.1 h
    obtain ⟨c2, -, h⟩ := Rust.bind_eq_ok.1 h
    obtain ⟨c3, -, h⟩ := Rust.bind_eq_ok.1 h
    refine ⟨hi, lo, hhi, hlo, ?_⟩
    split at h
    · obtain ⟨bytes, -, h⟩ := Rust.bind_eq_ok.1 h
      obtain ⟨tid, -, h⟩ := Rust.bind_eq_ok.1 h
      split at h
      · next method hmethod =>
          obtain ⟨attributes, -, h⟩ := Rust.bind_eq_ok.1 h
          obtain rfl := Option.some.inj (Except.ok.inj h)
          exact hmethod
      · exact absurd h (by simp)
    · exact absurd h (by simp)

theorem fallbackMethod_answer {method : Method} {eventType : EventType}
    (h : eventType = .success ∨ eventType = .error) :
    fallbackMethod (encodeTypeWord method eventType) = none := by
  rcases h with rfl | rfl
  · cases method <;> rfl
  · cases method <;> rfl

/-- An answer is read as a message of the method it answers, of class Success or Error, if it is
    read as a message at all. -/
theorem answer_reads {r : Bytes} {m : Message} (h : AnswerTo msg r) (hread : UdpReads r m) :
    m.header.method = msg.header.method ∧
      (m.header.eventType = .success ∨ m.header.eventType = .error) := by
  obtain ⟨header, body, rfl, hcookie, hmethod, hclass⟩ := h
  rcases hread.2.2 with hparse | ⟨-, hfallback⟩
  · rw [Message.header_of_parse (MessageHeader.parse_encode header hcookie body) hparse]
    exact ⟨hmethod, hclass⟩
  · obtain ⟨hi, lo, hhi, hlo, hm⟩ := fallbackMethod_of_fallbackParse hfallback
    have hword := u16At_append [] (encodeTypeWord header.method header.eventType)
      (putU16 header.messageLength ++ (putU32 header.magicCookie
        ++ (header.transactionId.val ++ body)))
    simp only [MessageHeader.encode, List.append_assoc] at hhi hlo
    simp only [List.nil_append, List.length_nil, u16At, hhi, hlo, Rust.ok_bind] at hword
    rw [shiftOr16_eq, Except.ok.inj hword, fallbackMethod_answer hclass] at hm
    exact absurd hm (by simp)

/-! ## Datagrams -/

/-- A datagram is met with silence if it is not read as a message, or as one of `Silent`. -/
theorem handleUdpMessage_silent_iff {data : Bytes} :
    (∃ o, handleUdpMessage D env server data client = .ok o ∧ o.response = none) ↔
      ∀ m, UdpReads data m → Silent D env server m client := by
  rcases handleUdpMessage_cases D env server data client with
    ⟨heq, hframe⟩ | ⟨m, hm, heq⟩ | ⟨heq, hno⟩
  · rw [heq]
    refine ⟨fun _ m hm => absurd (hframe.symm.trans hm.2.1) (by simp), fun _ => ?_⟩
    rcases handleChannelData_cases env server data client with h | ⟨_, _, _, _, _, -, -, -, h⟩
    · exact ⟨_, h, rfl⟩
    · exact ⟨_, h, rfl⟩
  · rw [heq]
    show (∃ o, processMessage D env server m client = .ok o ∧ o.response = none) ↔ _
    rw [processMessage_silent_iff]
    refine ⟨fun h m' hm' => ?_, fun h => h m hm⟩
    rw [hm'.unique hm]
    exact h
  · rw [heq]
    exact ⟨fun _ m hm => absurd hm (hno m), fun _ => ⟨_, rfl, rfl⟩⟩

theorem handleUdpMessage_of_reads {data : Bytes} (h : UdpReads data msg) :
    handleUdpMessage D env server data client = processMessage D env server msg client := by
  rcases handleUdpMessage_cases D env server data client with
    ⟨-, hframe⟩ | ⟨m, hm, heq⟩ | ⟨-, hno⟩
  · exact absurd (hframe.symm.trans h.2.1) (by simp)
  · rw [heq, h.unique hm]
    rfl
  · exact absurd h (hno msg)

/-- When responses and indications are left alone, for every server, datagram and address: a message
    that nobody should answer is dropped and changes nothing exactly if it is one of `Ignored`; and
    an answer that is sent to some server is met with silence exactly if what it is read as, a
    message of the same method and of class Success or Error, is one of `Silent` there. -/
theorem unsolicited_ignored_iff (D : Digests) (env : Env) (server : TurnServer) (data : Bytes)
    (client : SocketAddr) :
    (∀ msg, UdpReads data msg → msg.Unsolicited →
      ((∃ o, handleUdpMessage D env server data client = .ok o ∧ o.response = none ∧
        o.server = server) ↔ Ignored D env server msg client)) ∧
    ∀ o r, handleUdpMessage D env server data client = .ok o → o.response = some r →
      ∃ msg, UdpReads data msg ∧
        (∀ answer, UdpReads r answer → answer.header.method = msg.header.method ∧
          (answer.header.eventType = .success ∨ answer.header.eventType = .error)) ∧
        ∀ env' server' client',
          ((∃ o', handleUdpMessage D env' server' r client' = .ok o' ∧ o'.response = none) ↔
            ∀ answer, UdpReads r answer → Silent D env' server' answer client') := by
  constructor
  · intro msg hread _
    rw [handleUdpMessage_of_reads hread]
    exact processMessage_ignored_iff
  · intro o r ho hr
    have hread : ∃ msg, UdpReads data msg := by
      by_contra hno
      obtain ⟨o', ho', hnone⟩ := handleUdpMessage_silent_iff.2
        (fun m hm => absurd ⟨m, hm⟩ hno : ∀ m, UdpReads data m → Silent D env server m client)
      obtain rfl := Except.ok.inj (ho.symm.trans ho')
      exact absurd (hnone.symm.trans hr) (by simp)
    obtain ⟨msg, hread⟩ := hread
    rw [handleUdpMessage_of_reads hread] at ho
    exact ⟨msg, hread, fun answer hanswer => answer_reads (processMessage_answerTo ho hr) hanswer,
      fun env' server' client' => handleUdpMessage_silent_iff⟩

/-- A Data indication is dropped. -/
theorem unsolicited_ignored_iff_data :
    ∃ o, handleUdpMessage sampleDigests (sampleEnv 1) (sampleServer true none)
        (buildDataIndication 0 sampleClient [7]) sampleClient = .ok o ∧ o.response = none ∧
      o.server = sampleServer true none := by
  have hparse := Message.parse_encode (dataIndication (getrandom 0) sampleClient [7])
    (by decide) []
  rw [List.append_nil] at hparse
  refine ((unsolicited_ignored_iff sampleDigests (sampleEnv 1) (sampleServer true none)
    (buildDataIndication 0 sampleClient [7]) sampleClient).1 _
    ⟨by decide, by decide, Or.inl hparse⟩ (Or.inr (Or.inr ⟨rfl, by decide⟩))).2 ?_
  exact ⟨trivial, fun h => absurd h.1 (by decide)⟩

/-- The Binding answer to an IPv4 address, as a message. -/
def bindingSuccess (tid : TransactionId) (ip : Ipv4Addr) (port : UInt16) : Message :=
  ⟨⟨.binding, .success, 0, magicCookie, tid⟩,
    [⟨Attribute.xorMappedAddress, encodeXorAddress (.v4 ip port) magicCookie tid⟩]⟩

theorem bindingSuccess_length (tid : TransactionId) (ip : Ipv4Addr) (port : UInt16) :
    (encodeAttributes (bindingSuccess tid ip port).attributes).length = 12 := by
  have hattr := Attribute.encode_length ⟨Attribute.xorMappedAddress,
    encodeXorAddress (.v4 ip port) magicCookie tid⟩ (by decide : 8 ≤ 65535)
  simp only [bindingSuccess, encodeAttributes, List.flatMap_cons, List.flatMap_nil,
    List.append_nil, hattr, encodeXorAddress_length]

theorem createBindingResponseFast_v4 (tid : TransactionId) (ip : Ipv4Addr) (port : UInt16) :
    createBindingResponseFast tid (.v4 ip port) = (bindingSuccess tid ip port).encode := by
  have htype : encodeTypeWord .binding .success = 0x0101 := by decide
  have hport : (magicCookie >>> 16).toUInt16 = 0x2112 := by decide
  have ha : (magicCookie >>> 24).toUInt8 = 0x21 := by decide
  have hb : (magicCookie >>> 16).toUInt8 = 0x12 := by decide
  have hc : (magicCookie >>> 8).toUInt8 = 0xA4 := by decide
  have hd : magicCookie.toUInt8 = 0x42 := by decide
  have hattr : encodeAttributes (bindingSuccess tid ip port).attributes
      = putU16 0x0020 ++ (putU16 8 ++ encodeXorAddress (.v4 ip port) magicCookie tid) := by
    simp only [bindingSuccess, encodeAttributes, List.flatMap_cons, List.flatMap_nil,
      List.append_nil, Attribute.encode, encodeXorAddress_length, List.append_assoc]
    rfl
  rw [Message.encode_eq_put, bindingSuccess_length, hattr]
  unfold createBindingResponseFast
  simp only [bindingSuccess, encodeXorAddress, htype, hport, ha, hb, hc, hd, List.append_assoc]
  rfl

/-- The ordinary Binding answer to an address, as a message. -/
def bindingAnswer (tid : TransactionId) (addr : SocketAddr) : Message :=
  ⟨⟨.binding, .success, 0, magicCookie, tid⟩,
    [⟨Attribute.xorMappedAddress, encodeXorAddress addr magicCookie tid⟩]⟩

/-- Its length field is written down as 12 for every client. -/
theorem createBindingResponseFast_lengthField (tid : TransactionId) (addr : SocketAddr) :
    wordAt (createBindingResponseFast tid addr) 2 = 12 := by
  unfold createBindingResponseFast
  simp only [List.append_assoc]
  rw [← List.append_assoc (putU16 0x0101)]
  exact (wordAt_putU16_append 0x0101 12 _).2

/-- **The fast Binding answer.** It is the encoding of the ordinary one, it parses, and its length
    field counts the bytes behind the header, exactly for IPv4 clients. -/
theorem fast_binding_answer_iff (tid : TransactionId) (addr : SocketAddr) :
    (createBindingResponseFast tid addr = (bindingAnswer tid addr).encode ∧
      (∃ m, Message.parse (createBindingResponseFast tid addr) = .ok (some m)) ∧
      20 + (wordAt (createBindingResponseFast tid addr) 2).toNat
        = (createBindingResponseFast tid addr).length) ↔
    ∃ ip port, addr = .v4 ip port := by
  constructor
  · rintro ⟨-, -, hlen⟩
    cases addr with
    | v4 ip port => exact ⟨ip, port, rfl⟩
    | v6 ip port flowinfo scopeId =>
        -- 8 bytes follow the header
        have hsize :
            (createBindingResponseFast tid (.v6 ip port flowinfo scopeId)).length = 28 := by
          simp only [createBindingResponseFast, List.length_append, putU16_length, putU32_length,
            tid.property, List.length_cons, List.length_nil]
        rw [createBindingResponseFast_lengthField, hsize] at hlen
        exact absurd hlen (by decide)
  · rintro ⟨ip, port, rfl⟩
    have hbody := bindingSuccess_length tid ip port
    have hparse := Message.parse_encode (bindingSuccess tid ip port) (by omega) []
    rw [List.append_nil] at hparse
    rw [createBindingResponseFast_lengthField, createBindingResponseFast_v4,
      Message.encode_length, hbody]
    exact ⟨rfl, ⟨_, hparse⟩, rfl⟩

/-- An IPv6 client gets a header that announces 12 bytes and an attribute that announces 8, of which
    only 4 are there: no reader accepts it. -/
theorem fast_binding_answer_v6 :
    createBindingResponseFast sampleTransaction (.v6 ⟨List.replicate 8 0, rfl⟩ 5000 0 0)
      ≠ (bindingAnswer sampleTransaction (.v6 ⟨List.replicate 8 0, rfl⟩ 5000 0 0)).encode ∧
    Message.parse (createBindingResponseFast sampleTransaction
      (.v6 ⟨List.replicate 8 0, rfl⟩ 5000 0 0)) = .ok none := by
  constructor
  · decide
  · rfl

theorem isChannelDataFrame_encode (m : Message) : isChannelDataFrame m.encode = .ok false := by
  have hlen := m.encode_length
  have hword := u16At_append [] (encodeTypeWord m.header.method m.header.eventType)
    (putU16 (UInt16.ofNat (encodeAttributes m.attributes).length) ++ (putU32 magicCookie
      ++ (m.header.transactionId.val ++ encodeAttributes m.attributes)))
  rw [List.nil_append, List.length_nil, ← Message.encode_eq_put] at hword
  rw [isChannelDataFrame, if_neg (by omega), hword, Rust.ok_bind]
  exact congrArg Except.ok (isChannelNumber_encodeTypeWord _ _)

/-- A server that answers Binding requests answers their answers too, so that two of them send one
    message back and forth. -/
theorem binding_answer_answered (hstun : server.stunEnabled = true) (tid : TransactionId)
    (ip : Ipv4Addr) (port : UInt16) :
    handleUdpMessage D env server (createBindingResponseFast tid (.v4 ip port)) client
      = .ok (.unchanged server (some (createBindingResponseFast tid client))) := by
  have hlen := bindingSuccess_length tid ip port
  have hparse := Message.parse_encode (bindingSuccess tid ip port) (by omega) []
  rw [List.append_nil] at hparse
  have hread : handleUdpMessage D env server _ client = processMessage D env server _ client :=
    handleUdpMessage_of_reads ⟨by rw [Message.encode_length]; omega, isChannelDataFrame_encode _,
      Or.inl hparse⟩
  rw [createBindingResponseFast_v4, hread]
  unfold processMessage
  rw [if_neg (by simp [hstun]), if_neg (fun h => h.1 rfl)]
  rfl

/-- A Binding request is answered; the answer, from another address, is answered again, and so is
    the answer to that, which is the first answer. -/
theorem binding_answers_go_back_and_forth :
    ∃ r r', r ≠ [] ∧
      handleUdpMessage sampleDigests (sampleEnv 1) (sampleServer true none)
        (sampleRequest .binding []).encode sampleClient
          = .ok (.unchanged (sampleServer true none) (some r)) ∧
      handleUdpMessage sampleDigests (sampleEnv 2) (sampleServer true none) r
        (.v4 ⟨192, 0, 2, 9⟩ 3478) = .ok (.unchanged (sampleServer true none) (some r')) ∧
      handleUdpMessage sampleDigests (sampleEnv 3) (sampleServer true none) r' sampleClient
        = .ok (.unchanged (sampleServer true none) (some r)) := by
  have hparse := Message.parse_encode (sampleRequest .binding []) (by decide) []
  rw [List.append_nil] at hparse
  refine ⟨createBindingResponseFast sampleTransaction sampleClient,
    createBindingResponseFast sampleTransaction (.v4 ⟨192, 0, 2, 9⟩ 3478), by decide, ?_,
    binding_answer_answered rfl _ _ _, binding_answer_answered rfl _ _ _⟩
  rw [handleUdpMessage_of_reads ⟨by decide, isChannelDataFrame_encode _, Or.inl hparse⟩]
  rfl

end Miuturn
