import Miuturn.AnswerFormat
import Miuturn.Conversation
import Miuturn.Lifetimes

set_option autoImplicit false

/-! # The client and the server work together

What the conversations of `turn_cli.py` come to when the partner is the server of this repository,
with other clients, peers and the cleanups going on in between. The client has its own encoder,
reader and signer of messages; that the two programs agree on the bytes is in `TurnCliCodec.lean`,
and what others cannot disturb in `Conversation.lean`. -/

open RustStd Dialogue

namespace Miuturn.TurnCli

variable {D : Digests} {socks : List SocketAddr} {sock : SocketAddr} {w w' : World} {m : Message}
  {e : Transition} {st st' : Stage} {self : Client} {tid tid' : TransactionId} {rounds : ℕ}
  {u pw : String}

/-! ## What the server finds when a message comes -/

/-- The message that an encoded message is read as. -/
def readAs (m : Message) : Message :=
  { m with header := { m.header with
      messageLength := UInt16.ofNat (encodeAttributes m.attributes).length,
      magicCookie := Miuturn.magicCookie } }

theorem udpReads_encode (hfit : (encodeAttributes m.attributes).length ≤ 65535) :
    UdpReads m.encode (readAs m) := by
  have hparse := Message.parse_encode m hfit []
  rw [List.append_nil] at hparse
  refine ⟨?_, isChannelDataFrame_encode m, Or.inl hparse⟩
  rw [Message.encode_length]
  omega

theorem Handled.found (h : Handled D socks w sock m e w') (hc : w.server.Consistent) :
    Unmoved (· ∈ socks) w ⟨e.before, e.env.now⟩ := by
  obtain ⟨w₁, hpasses, hstep⟩ := h.exists_passes
  have hunmoved := hpasses.unmoved hc
  exact hunmoved.trans (rehashed_unmoved hstep.rehashed hstep.clock hunmoved.consistent)

/-- Handling a message of one client moves nothing of the others. -/
theorem Handled.unmoved (h : Handled D socks w sock m e w') (hc : w.server.Consistent) :
    Unmoved (fun c => c ∈ socks ∧ c ≠ sock) w w' := by
  obtain ⟨w₁, hpasses, hstep⟩ := h.exists_passes
  have hunmoved := hpasses.unmoved hc
  have hauth : ∀ change, e.event ≠ .changeAuth change := by
    intro change hchange
    exact absurd (h.event.symm.trans hchange) (by simp)
  refine (hunmoved.mono (fun c hc => hc.1)).trans ?_
  refine (hstep.unmoved hunmoved.consistent hauth).mono (fun c hc msg hevent => ?_)
  exact hc.2 (Event.message.inj (hevent.symm.trans h.event)).2

theorem Handled.clock (h : Handled D socks w sock m e w') : w'.clock = e.env.now := by
  obtain ⟨w₁, -, hstep⟩ := h.exists_passes
  rw [hstep.next]

/-- What the handler of the message returns is what becomes of the server. -/
theorem Handled.outcome (h : Handled D socks w sock m e w') {o : Outcome}
    (ho : processMessage D e.env e.before m sock = .ok o) :
    w'.server = o.server ∧ e.response = o.response ∧ e.sent = o.sent := by
  obtain ⟨w₁, -, hstep⟩ := h.exists_passes
  obtain rfl := hstep.outcome_of_ok h.event ho
  exact ⟨by rw [hstep.next], rfl, rfl⟩

@[simp] theorem done_ok_bind {α β : Type} (x : α) (f : α → Talk β) :
    ((Dialogue.done (.ok x) : Talk α) >>= f) = f x := rfl

/-- What a conversation of one client is to the others: nothing of theirs is moved, and only its own
    datagrams are read. -/
structure Aside (socks : List SocketAddr) (sock : SocketAddr) (st st' : Stage) : Prop where
  unmoved : Unmoved (fun c => c ∈ socks ∧ c ≠ sock) st.world st'.world
  mail : st'.mail = Function.update st.mail sock []

theorem Aside.trans {st₁ : Stage} (h : Aside socks sock st st₁) (h' : Aside socks sock st₁ st') :
    Aside socks sock st st' where
  unmoved := h.unmoved.trans h'.unmoved
  mail := by rw [h'.mail, h.mail, Function.update_idem]

/-- A request of the client and what it does with the answer. -/
theorem runs_request {α : Type} {f : Bytes → Talk α} {r : Except Failure α}
    (hrun : Runs (Answers D socks) (sendRecv rounds self m.encode tid >>= f) st r st')
    (hc : st.world.server.Consistent) (hfit : (encodeAttributes m.attributes).length ≤ 65535)
    (htid : m.header.transactionId = tid) (hmethod : m.header.method ≠ .send)
    (hexpects : Expects st self.sock tid rounds) :
    ∃ e st₁, Handled D socks st.world self.sock (readAs m) e st₁.world ∧
      Aside socks self.sock st st₁ ∧
      ((∃ b, e.response = some b ∧ Runs (Answers D socks) (f (received b)) st₁ r st') ∨
        (e.response = none ∧ r = .error .timeoutError ∧ st' = st₁)) := by
  rcases runs_bind_iff.1 hrun with ⟨data, st₁, hanswer, hrest⟩ | ⟨f, rfl, hfailed⟩
  · obtain ⟨e, hhandled, hmail, hsome, hnone⟩ :=
      runs_sendRecv hanswer (udpReads_encode hfit) htid hmethod hexpects
    refine ⟨e, st₁, hhandled, ⟨hhandled.unmoved hc, hmail⟩, ?_⟩
    cases hresponse : e.response with
    | none => exact absurd (hnone hresponse) (by simp)
    | some b =>
        obtain rfl := Except.ok.inj (hsome b hresponse)
        exact Or.inl ⟨b, rfl, hrest⟩
  · obtain ⟨e, hhandled, hmail, hsome, hnone⟩ :=
      runs_sendRecv hfailed (udpReads_encode hfit) htid hmethod hexpects
    refine ⟨e, st', hhandled, ⟨hhandled.unmoved hc, hmail⟩, ?_⟩
    cases hresponse : e.response with
    | none =>
        obtain rfl := Except.error.inj (hnone hresponse)
        exact Or.inr ⟨rfl, rfl, rfl⟩
    | some b => exact absurd (hsome b hresponse) (by simp)

/-! ## STUN -/

/-- A server whose answers reach the client: the realm is short enough for the challenge to arrive
    whole, and the name for a datagram. -/
structure Legible (server : TurnServer) : Prop where
  turn : server.turnEnabled = true
  realm : (strBytes server.realm).length ≤ 1800
  name : (strBytes server.serverName).length ≤ 60000

theorem Legible.of_settings {server server' : TurnServer} (h : Legible server)
    (hsettings : server'.settings = server.settings) : Legible server' where
  turn := (congrArg Settings.turnEnabled hsettings).trans h.turn
  realm := by
    rw [show server'.realm = server.realm from congrArg Settings.realm hsettings]
    exact h.realm
  name := by
    rw [show server'.serverName = server.serverName from congrArg Settings.serverName hsettings]
    exact h.name

/-- It lets the user in from these sockets. -/
structure Welcomes (server : TurnServer) (socks : List SocketAddr) (u pw : String) : Prop
    extends Legible server where
  auth : server.authDisabled = false
  acl : ∀ sock ∈ socks, server.aclAdmits sock = true
  password : ∀ env, server.getPasswordForUser env u = some pw
  user : (strBytes u).length ≤ 60000

theorem Welcomes.of_settings {server server' : TurnServer} (h : Welcomes server socks u pw)
    (hsettings : server'.settings = server.settings) : Welcomes server' socks u pw where
  toLegible := h.toLegible.of_settings hsettings
  auth := (congrArg Settings.authDisabled hsettings).trans h.auth
  acl := by
    intro sock hsock
    rw [← h.acl sock hsock, TurnServer.aclAdmits, TurnServer.aclAdmits,
      show server'.authManager = server.authManager from congrArg Settings.authManager hsettings]
  password := by
    intro env
    rw [← h.password env, TurnServer.getPasswordForUser, TurnServer.getPasswordForUser,
      show server'.authManager = server.authManager from congrArg Settings.authManager hsettings,
      show server'.password = server.password from congrArg Settings.password hsettings]
  user := h.user

/-- The first request is challenged, and the nonce of the challenge is a good one from then on. -/
theorem Handled.challenged (h : Handled D socks w sock m e w') (hc : w.server.Consistent)
    (hw : Welcomes w.server socks u pw) (hsock : sock ∈ socks)
    (hmethod : m.header.method ∈ authenticatedMethods)
    (hno : m.getAttribute Attribute.nonce = none) :
    e.response = some (unauthorizedMessage e.env e.before m none).encode ∧
      IssuedSince w'.server (generateNonce e.env) w'.clock := by
  have hfound := hw.of_settings (h.found hc).settings
  have hrefused : verifyTurnAuth D e.env e.before m sock
      = .ok (.error (create401Response e.env e.before m none)) :=
    verifyTurnAuth_unclaimed hfound.auth (hfound.acl sock hsock) (Or.inl hno)
  obtain ⟨hserver, hresponse, -⟩ := h.outcome ((processMessage_authenticated hmethod
    hfound.turn).trans (withAuth_error hrefused _))
  refine ⟨hresponse, ⟨generateNonce e.env, e.env.now⟩, ?_, h.clock.le⟩
  rw [hserver]
  exact AList.lookup_insert _

theorem encode_length_le (attr : Attribute) {n : ℕ} (hlen : attr.value.length ≤ n)
    (hn : n ≤ 65535) : attr.encode.length ≤ n + 7 := by
  rw [Attribute.encode_length attr (hlen.trans hn)]
  omega

/-- The credentials that follow the first attribute of a signed request. -/
def credentials (u realm : String) (nonce : Bytes) : List Attribute :=
  [⟨attrUsername, strBytes u⟩, ⟨attrRealm, strBytes realm⟩, ⟨attrNonce, nonce⟩]

/-- A signed request of the client. -/
def signedRequest (D : Digests) (method : Method) (tid : TransactionId) (first : Attribute)
    (u realm : String) (nonce key : Bytes) : Message :=
  addResponseMessageIntegrity D
    (message method .request tid (first :: credentials u realm nonce)) key

/-- The first attributes of the client's two signed requests. -/
def Leading (first : Attribute) : Prop :=
  first.attrType ∉ [attrUsername, attrNonce, attrMessageIntegrity] ∧ first.value.length ≤ 100

theorem signedRequest_length (D : Digests) (method : Method) (tid : TransactionId) (key : Bytes)
    {first : Attribute} {realm : String} {nonce : Bytes} (hfirst : Leading first)
    (huser : (strBytes u).length ≤ 60000)
    (hrealm : (strBytes realm).length ≤ 1800) (hnonce : nonce.length ≤ 128) :
    (encodeAttributes (first :: credentials u realm nonce)).length + 24 ≤ 65535 ∧
      (encodeAttributes (signedRequest D method tid first u realm nonce key).attributes).length
        ≤ 65535 := by
  have h₁ := encode_length_le first hfirst.2 (by omega)
  have h₂ := encode_length_le ⟨attrUsername, strBytes u⟩ huser (by omega)
  have h₃ := encode_length_le ⟨attrRealm, strBytes realm⟩ hrealm (by omega)
  have h₄ := encode_length_le ⟨attrNonce, nonce⟩ hnonce (by omega)
  have hsum : (encodeAttributes (first :: credentials u realm nonce)).length + 24 ≤ 65535 := by
    simp only [credentials, encodeAttributes, List.flatMap_cons, List.flatMap_nil,
      List.length_append, List.length_nil]
    omega
  refine ⟨hsum, ?_⟩
  rw [signedRequest, addResponseMessageIntegrity, encodeAttributes_append, List.length_append,
    integrity_length]
  exact hsum

/-- A signed request with a good nonce passes. -/
theorem Handled.passes {first : Attribute} {method : Method} {n : String} {t : ℕ}
    (h : Handled D socks w sock (readAs (signedRequest D method tid first u w.server.realm
      (strBytes n) (computeMessageIntegrityKey D u w.server.realm pw))) e w')
    (hc : w.server.Consistent) (hw : Welcomes w.server socks u pw) (hsock : sock ∈ socks)
    (hfirst : Leading first) (hn : (strBytes n).length ≤ 128) (hissued : IssuedSince w.server n t)
    (ht : t ≤ w.clock) (htime : w'.clock < t + fromSecs 600) :
    verifyTurnAuth D e.env e.before (readAs (signedRequest D method tid first u w.server.realm
      (strBytes n) (computeMessageIntegrityKey D u w.server.realm pw))) sock = .ok (.ok u) := by
  have hfound := h.found hc
  have hw' := hw.of_settings hfound.settings
  have hrealm : e.before.realm = w.server.realm := congrArg Settings.realm hfound.settings
  rw [h.clock] at htime
  obtain ⟨entry, hentry, hcreated⟩ := hfound.nonces n t ht hissued htime
  obtain ⟨huser, hnonce, hintegrity⟩ : first.attrType ≠ attrUsername ∧
      first.attrType ≠ attrNonce ∧ first.attrType ≠ attrMessageIntegrity := by
    simpa using hfirst.1
  have hfind : ∀ attrType, first.attrType ≠ attrType →
      (message method .request tid (first :: credentials u w.server.realm
        (strBytes n))).getAttribute attrType
        = (credentials u w.server.realm (strBytes n)).find? (·.attrType == attrType) := by
    intro attrType hne
    exact List.find?_cons_of_neg (by simpa using hne)
  have hfresh : FreshNonce e.env e.before (message method .request tid
      (first :: credentials u w.server.realm (strBytes n))) := by
    refine ⟨⟨attrNonce, strBytes n⟩, entry, (hfind _ hnonce).trans rfl, ?_, ?_⟩
    · rw [fromUtf8Lossy_strBytes]
      exact hentry
    · exact le_of_lt (asSecs_sub_lt (by decide) (by omega))
  have hfit := (signedRequest_length D method tid (computeMessageIntegrityKey D u w.server.realm pw)
    hfirst hw.user hw.realm hn).2
  obtain ⟨request, hparse, hiff⟩ := verifyTurnAuth_signed (D := D) (u := u) hw'.auth hfresh
    ((hfind _ huser).trans rfl) ((hfind _ hintegrity).trans rfl) hfit
  -- the request it is read as
  have hreads := Message.parse_encode (signedRequest D method tid first u w.server.realm
    (strBytes n) (computeMessageIntegrityKey D u w.server.realm pw)) hfit []
  rw [List.append_nil] at hreads
  obtain rfl := Option.some.inj (Except.ok.inj (hparse.symm.trans hreads))
  exact (hiff sock).2 ⟨hw'.acl sock hsock, pw, hw'.password e.env, by rw [hrealm]⟩

/-! ## Allocating -/

/-- The client's allocation is the one at a port of the server, and it has no channels. -/
structure Holds (server : TurnServer) (sock : SocketAddr) (port : UInt16) (a : Allocation) :
    Prop where
  lookup : server.allocationTable.allocations.lookup (.v4 server.allocationTable.externalAddr port)
    = some a
  client : a.clientAddr = sock
  relay : a.relay = some ⟨.v4 server.allocationTable.bindAddr port⟩
  channels : ∀ n, server.channelTable.getByChannel (.v4 server.allocationTable.externalAddr port) n
    = none

/-- What the client reads off the answer to its Allocate. -/
theorem read_allocated {server server' : TurnServer} {env : Env} (m : Message) (port : UInt16)
    (client : SocketAddr) (lifetime : UInt32) (hrealm : (strBytes server'.realm).length ≤ 1800)
    (hname : (strBytes server'.serverName).length ≤ 60000) (ip : Ipv4Addr) :
    (parseAttrs (received (signResponse D env server u (allocateSuccessMessage server' m
      (.v4 ip port) client lifetime)).encode) 20 ∅).lookup attrXorRelayedAddress
      = some (encodeXorAddress (.v4 ip port) Miuturn.magicCookie m.header.transactionId) := by
  obtain ⟨signature, hsignature, hattributes⟩ : ∃ signature : List Attribute,
      (signature = [] ∨ ∃ key input, signature
        = [⟨Attribute.messageIntegrity, (D.hmacSha1 key input).val⟩]) ∧
      (signResponse D env server u (allocateSuccessMessage server' m (.v4 ip port) client
        lifetime)).attributes = (allocateSuccessMessage server' m (.v4 ip port) client
          lifetime).attributes ++ signature := by
    unfold signResponse
    split
    · exact ⟨[], Or.inl rfl, (List.append_nil _).symm⟩
    · split
      · exact ⟨_, Or.inr ⟨_, _, rfl⟩, rfl⟩
      · exact ⟨[], Or.inl rfl, (List.append_nil _).symm⟩
  have hmapped : (encodeXorAddress client Miuturn.magicCookie m.header.transactionId).length
      ≤ 8 := by
    cases client <;> exact le_of_eq rfl
  have h₁ := encode_length_le ⟨Attribute.xorRelayedAddress, encodeXorAddress (.v4 ip port)
    Miuturn.magicCookie m.header.transactionId⟩ (le_of_eq rfl : _ ≤ 8) (by omega)
  have h₂ := encode_length_le ⟨Attribute.xorMappedAddress, encodeXorAddress client
    Miuturn.magicCookie m.header.transactionId⟩ hmapped (by omega)
  have h₃ := encode_length_le ⟨Attribute.lifetime, putU32 lifetime⟩ (le_of_eq rfl : _ ≤ 4)
    (by omega)
  have h₄ := encode_length_le ⟨Attribute.realm, strBytes server'.realm⟩ hrealm (by omega)
  have h₅ := encode_length_le ⟨Attribute.software, strBytes server'.serverName⟩ hname (by omega)
  have h₆ : (encodeAttributes signature).length ≤ 24 := by
    rcases hsignature with rfl | ⟨key, input, rfl⟩
    · simp [encodeAttributes]
    · exact integrity_length.le
  refine (lookup_received [] hattributes ?_ ?_ (by simp [encodeAttributes])).trans ?_
  · rw [hattributes, encodeAttributes_append, List.length_append]
    simp only [allocateSuccessMessage, encodeAttributes, List.flatMap_cons, List.flatMap_nil,
      List.length_append, List.length_nil] at h₆ ⊢
    omega
  · rw [hattributes]
    rcases hsignature with rfl | ⟨key, input, rfl⟩
    · simp only [allocateSuccessMessage, List.append_nil, List.map_cons, List.map_nil]
      decide
    · simp only [allocateSuccessMessage, List.map_append, List.map_cons, List.map_nil]
      decide
  · rfl

theorem grantedSecs_of_limits {t t' : AllocationTable} (h : t'.limits = t.limits)
    (lifetime : Option UInt32) : t'.grantedSecs lifetime = t.grantedSecs lifetime := by
  have hmax : t'.maxAllocationDurationSecs = t.maxAllocationDurationSecs := congrArg Prod.snd h
  rw [AllocationTable.grantedSecs, hmax, AllocationTable.grantedSecs]

/-- The errors of `create_allocation`, with a short text. -/
def Refusal : Error → Prop
  | .allocationQuotaReached => True
  | .relayPortExhausted => True
  | .relayBindFailed addr source =>
    (strBytes (Error.relayBindFailed addr source).toString).length ≤ 2000
  | .notFound => False
  | .alreadyExists => False

/-- How the client shows an error of `create_allocation`. -/
def refusalText (err : Error) : String :=
  decimal (allocationFailure err).1.code.toNat ++ " " ++ (allocationFailure err).2

theorem acquireRelay_refusal {env : Env} (hshort : ShortErrors env) (bindAddr : Ipv4Addr)
    {err : Error} (remaining : ℕ) :
    ∀ (attempts : ℕ) (pa : PortAllocator) (last : Option (SocketAddr × String)),
      (∀ failure ∈ last, Refusal (.relayBindFailed failure.1 failure.2)) →
      (AllocationTable.acquireRelay bindAddr env remaining attempts pa last).2 = .error err →
      Refusal err := by
  induction remaining with
  | zero =>
      intro attempts pa last hlast heq
      cases last with
      | none =>
          obtain rfl := Except.error.inj heq
          trivial
      | some failure =>
          obtain rfl := Except.error.inj heq
          exact hlast failure rfl
  | succ remaining ih =>
      intro attempts pa last _ heq
      rw [AllocationTable.acquireRelay_succ] at heq
      generalize pa.allocate (env.portChoice attempts) = taken at heq
      obtain ⟨pa', port⟩ := taken
      cases port with
      | none =>
          obtain rfl := Except.error.inj heq
          trivial
      | some port =>
          cases hbind : env.bindResult attempts with
          | ok _ =>
              rw [hbind] at heq
              exact absurd heq (by simp)
          | error source =>
              rw [hbind] at heq
              refine ih (attempts + 1) _ _ ?_ heq
              rintro _ ⟨⟩
              exact hshort attempts source _ hbind

theorem createAllocation_refusal {t t' : AllocationTable} {env : Env} (hshort : ShortErrors env)
    {client : SocketAddr} {lifetime : Option UInt32} {err : Error}
    (h : t.createAllocation env client lifetime = (t', .error err)) : Refusal err := by
  unfold AllocationTable.createAllocation at h
  split at h
  · obtain rfl := Except.error.inj (Prod.ext_iff.1 h).2
    trivial
  · split at h
    · rename_i heq
      obtain rfl := Except.error.inj (Prod.ext_iff.1 h).2
      exact acquireRelay_refusal hshort t.bindAddr 100 0 t.portAllocator none (by simp)
        (congrArg Prod.snd heq)
    · exact absurd (Prod.ext_iff.1 h).2 (by simp)

theorem Refusal.length_le {err : Error} (h : Refusal err) :
    (strBytes (allocationFailure err).2).length ≤ 2000 := by
  cases err with
  | notFound => exact h.elim
  | alreadyExists => exact h.elim
  | allocationQuotaReached => decide
  | relayPortExhausted => decide
  | relayBindFailed addr source => exact h

theorem parseError_code (code : ErrorCode) (reason : String) :
    parseError (putU32 (((code.code / 100).toUInt32 <<< 8) ||| (code.code % 100).toUInt32)
      ++ strBytes reason) = decimal code.code.toNat ++ " " ++ reason := by
  have hvalue : parseError (putU32 (((code.code / 100).toUInt32 <<< 8)
      ||| (code.code % 100).toUInt32) ++ strBytes reason)
      = decimal code.code.toNat ++ " " ++ decodeIgnore (strBytes reason) := by
    cases code <;> rfl
  rw [hvalue, decodeIgnore_strBytes]

/-- What the client reads off an error answer. -/
theorem read_refusal {server : TurnServer} (m : Message) {err : Error} (h : Refusal err)
    (hname : (strBytes server.serverName).length ≤ 60000) :
    let attrs := parseAttrs (received (errorResponseMessage m (allocationFailure err).1
      (some (allocationFailure err).2) server).encode) 20 ∅
    parseError ((attrs.lookup attrErrorCode).getD []) = refusalText err ∧
      attrs.lookup attrRealm = none := by
  have hreason := h.length_le
  unfold refusalText
  generalize (allocationFailure err).1 = code, (allocationFailure err).2 = reason at hreason ⊢
  generalize hvalue : putU32 (((code.code / 100).toUInt32 <<< 8) ||| (code.code % 100).toUInt32)
    ++ strBytes reason = value
  have hattributes : (errorResponseMessage m code (some reason) server).attributes
      = [] ++ ⟨attrErrorCode, value⟩ :: [⟨Attribute.software, strBytes server.serverName⟩] := by
    rw [← hvalue]
    rfl
  have hlen : value.length ≤ 2004 := by
    rw [← hvalue, List.length_append, putU32_length]
    omega
  have h₁ := encode_length_le ⟨attrErrorCode, value⟩ hlen (by omega)
  have h₂ := encode_length_le ⟨Attribute.software, strBytes server.serverName⟩ hname (by omega)
  have hfit : (encodeAttributes (errorResponseMessage m code (some reason)
      server).attributes).length ≤ 65535 := by
    rw [hattributes]
    simp only [List.nil_append, encodeAttributes, List.flatMap_cons, List.flatMap_nil,
      List.length_append, List.length_nil]
    omega
  have hnodup : ((errorResponseMessage m code (some reason) server).attributes.map
      Attribute.attrType).Nodup := by
    rw [hattributes]
    simp only [List.nil_append, List.map_cons, List.map_nil]
    decide
  refine ⟨?_, lookup_received_none hfit hnodup ?_⟩
  · rw [lookup_received [] hattributes hfit hnodup (by simp [encodeAttributes]), Option.getD_some,
      List.take_of_length_le (by simp [encodeAttributes]; omega), ← hvalue, parseError_code]
  · rw [hattributes]
    simp only [List.nil_append, List.map_cons, List.map_nil]
    decide

/-- What an Allocate that has passed comes to: an error, with no allocation left to the client; or
    an allocation, whose address the client can read off the answer. -/
theorem Handled.allocates (h : Handled D socks w sock m e w') (hc : w.server.Consistent)
    (hw : Legible w.server) (hmethod : m.header.method = .allocate)
    (hauth : verifyTurnAuth D e.env e.before m sock = .ok (.ok u))
    (hlifetime : getLifetime m = .ok 600) :
    (∃ (reply : Message) (err : Error), Refusal err ∧ e.response = some reply.encode ∧
        reply.header = answerHeader m .error ∧
        parseError (((parseAttrs (received reply.encode) 20 ∅).lookup attrErrorCode).getD [])
          = refusalText err ∧
        (parseAttrs (received reply.encode) 20 ∅).lookup attrRealm = none ∧
        ∀ k a, w'.server.allocationTable.allocations.lookup k = some a → a.clientAddr ≠ sock) ∨
    ∃ (reply : Message) (port : UInt16) (a : Allocation), e.response = some reply.encode ∧
      reply.header = answerHeader m .success ∧
      (parseAttrs (received reply.encode) 20 ∅).lookup attrXorRelayedAddress
        = some (encodeXorAddress (.v4 w.server.allocationTable.externalAddr port)
            Miuturn.magicCookie m.header.transactionId) ∧
      Holds w'.server sock port a ∧ a.permissions = ∅ ∧ a.createdAt = w'.clock ∧
      a.lifetime = fromSecs (w.server.allocationTable.grantedSecs (some 600)).toNat := by
  have hfound := h.found hc
  have hw' := hw.of_settings hfound.settings
  have ho : processMessage D e.env e.before m sock
      = .ok (allocateFor D e.env e.before m sock u 600) := by
    rw [processMessage_authenticated (by rw [hmethod]; decide) hw'.turn, withAuth_ok hauth,
      requestBody_allocate hmethod, hlifetime]
    rfl
  obtain ⟨hserver, hresponse, -⟩ := h.outcome ho
  unfold allocateFor allocateOutcome at hserver hresponse
  have hsettings := (removeExisting_settings e.before sock).1
  have hw'' := hw'.of_settings hsettings
  have haddrs := (removeExisting_addrs e.before sock).trans hfound.addrs
  have hlimits := (removeExisting_limits e.before sock).trans hfound.limits
  rcases createAllocation_cases (removeExisting e.before sock).1.allocationTable e.env sock
    (some 600) with ⟨pa, err, heq, -⟩ | ⟨pa, port, i, heq, htake, hport⟩
  · simp only [heq] at hserver hresponse
    have hrefusal := createAllocation_refusal h.short heq
    obtain ⟨hread, hrealm⟩ := read_refusal m hrefusal hw''.name
    refine Or.inl ⟨_, err, hrefusal, hresponse, rfl, hread, hrealm, fun k a ha => ?_⟩
    rw [hserver] at ha
    exact hfound.consistent.client_ne_of_removeExisting ha
  · simp only [heq] at hserver hresponse
    refine Or.inr ⟨_, port, (removeExisting e.before sock).1.allocationTable.newAllocation e.env
      sock (some 600) port, hresponse, signResponse_header .., ?_, ⟨?_, rfl, ?_, ?_⟩, rfl, ?_, ?_⟩
    · rw [← show _ = w.server.allocationTable.externalAddr from congrArg Prod.snd haddrs]
      exact read_allocated m port sock 600 hw''.realm hw''.name _
    · rw [hserver]
      exact AList.lookup_insert _
    · rw [hserver]
      rfl
    · -- the port was free, and channels belong to ports in use
      have hremoved := hfound.consistent.removeExisting sock
      rw [hserver]
      intro n
      rw [Option.eq_none_iff_forall_ne_some]
      intro b hb
      exact hremoved.notMem_of_takes htake hport (hremoved.bindings _ n b hb).2.2
    · rw [h.clock]
      rfl
    · show fromSecs ((removeExisting e.before sock).1.allocationTable.grantedSecs (some 600)).toNat
        = _
      rw [grantedSecs_of_limits hlimits]

/-- A client that has logged in, with a nonce made at `t` or later. -/
structure LoggedIn (D : Digests) (server : TurnServer) (c : Client) (u pw : String) (t : ℕ) :
    Prop where
  key : c.integrityKey = some (computeMessageIntegrityKey D u server.realm pw)
  username : c.username = some u
  realm : c.realm = some server.realm
  nonce : ∃ n, c.nonce = some (strBytes n) ∧ (strBytes n).length ≤ 128 ∧ IssuedSince server n t

/-- A client stays logged in for 600 seconds. -/
theorem LoggedIn.unmoved {P : SocketAddr → Prop} {t : ℕ} (h : LoggedIn D w.server self u pw t)
    (hunmoved : Unmoved P w w') (ht : t ≤ w.clock) (htime : w'.clock < t + fromSecs 600) :
    LoggedIn D w'.server self u pw t := by
  have hrealm : w'.server.realm = w.server.realm := congrArg Settings.realm hunmoved.settings
  obtain ⟨n, hn, hlen, hissued⟩ := h.nonce
  exact ⟨by rw [hrealm]; exact h.key, h.username, by rw [hrealm]; exact h.realm,
    n, hn, hlen, hunmoved.nonces n t ht hissued htime⟩

theorem LoggedIn.since {server : TurnServer} {t t' : ℕ} (h : LoggedIn D server self u pw t)
    (hle : t' ≤ t) : LoggedIn D server self u pw t' := by
  obtain ⟨n, hn, hlen, entry, hentry, hcreated⟩ := h.nonce
  exact ⟨h.key, h.username, h.realm, n, hn, hlen, entry, hentry, hle.trans hcreated⟩

/-- The four bytes of REQUESTED-TRANSPORT. -/
def transport : Attribute := ⟨attrRequestedTransport, [0x11, 0, 0, 0]⟩

theorem buildAttr_transport :
    buildAttr attrRequestedTransport [0x11, 0, 0, 0] = .ok transport.encode :=
  buildAttr_eq transport (by decide)

/-- The first request of `turn_allocate`. -/
theorem buildMsg_allocate (D : Digests) (self : Client) (tid : TransactionId) :
    buildMsg D self msgAllocateRequest tid [transport.encode] false
      = .ok (message .allocate .request tid [transport]).encode := by
  have htype : msgAllocateRequest = encodeTypeWord .allocate .request := by decide
  rw [htype]
  exact buildMsg_plain .allocate .request [transport] (by decide)

/-- Nothing waits at a socket, and there is time to read an answer. -/
theorem expects_of_mail (hmail : st.mail sock = []) (hrounds : 0 < rounds) :
    Expects st sock tid rounds where
  stale := by
    rw [hmail]
    exact fun d hd => absurd hd (by simp)
  time := by
    rw [hmail]
    exact hrounds

theorem Aside.mail_other {sock' : SocketAddr} (h : Aside socks sock st st') (hne : sock' ≠ sock) :
    st'.mail sock' = st.mail sock' := by
  rw [h.mail]
  exact Function.update_of_ne hne ..

/-- On a server with authentication turned off the first request gets the allocation, or a refusal;
    either way the client comes by no credentials. -/
theorem runs_turnAllocate_open {r : Except Failure (Client × Option Address)}
    (hc : st.world.server.Consistent) (hopen : st.world.server.authDisabled = true)
    (hw : Legible st.world.server) (hexpects : Expects st self.sock tid rounds)
    (hrun : Runs (Answers D socks) (turnAllocate D rounds self tid tid' u pw) st r st') :
    Aside socks self.sock st st' ∧
    ((∃ err, Refusal err ∧
      r = .error (.exception ("Allocate rejected without realm/nonce: " ++ refusalText err))) ∨
    ∃ self' port a, r = .ok (self', some (.v4 st.world.server.allocationTable.externalAddr, port)) ∧
      self'.integrityKey = self.integrityKey ∧ Holds st'.world.server self.sock port a) := by
  simp only [turnAllocate, buildAttr_transport, buildMsg_allocate, done_ok_bind] at hrun
  obtain ⟨e, st₁, hhandled, haside, hcases⟩ := runs_request hrun hc
    (show (encodeAttributes [transport]).length ≤ 65535 by decide) rfl (by simp [message]) hexpects
  have hopen' : e.before.authDisabled = true :=
    (congrArg Settings.authDisabled (hhandled.found hc).settings).trans hopen
  have hauth : verifyTurnAuth D e.env e.before (readAs (message .allocate .request tid [transport]))
      self.sock = .ok (.ok "") := by
    rw [verifyTurnAuth, if_pos hopen']
    rfl
  rcases hhandled.allocates hc hw rfl hauth rfl with
    ⟨reply, err, hrefusal, hresponse, hheader, hread, hrealm, -⟩ |
    ⟨reply, port, a, hresponse, hheader, hread, hholds, -, -, -⟩
  · have hword : wordAt (received reply.encode) 0 = encodeTypeWord .allocate .error := by
      rw [wordAt_received, hheader]
      rfl
    rcases hcases with ⟨b, hb, hrest⟩ | ⟨hnone, -, -⟩
    · obtain rfl := Option.some.inj (hresponse.symm.trans hb)
      rw [hword, if_neg (by decide), if_pos (by decide)] at hrest
      simp only [hrealm, hread] at hrest
      obtain ⟨hr, rfl⟩ := runs_done_iff.1 hrest
      exact ⟨haside, Or.inl ⟨err, hrefusal, hr⟩⟩
    · exact absurd (hresponse.symm.trans hnone) (by simp)
  · have hword : wordAt (received reply.encode) 0 = encodeTypeWord .allocate .success := by
      rw [wordAt_received, hheader]
      rfl
    rcases hcases with ⟨b, hb, hrest⟩ | ⟨hnone, -, -⟩
    · obtain rfl := Option.some.inj (hresponse.symm.trans hb)
      rw [hword, if_pos (by decide), readRelayed] at hrest
      simp only [hread, parseXorAddrValue_encode] at hrest
      obtain ⟨hr, rfl⟩ := runs_done_iff.1 hrest
      exact ⟨haside, Or.inr ⟨_, port, a, hr, rfl, hholds⟩⟩
    · exact absurd (hresponse.symm.trans hnone) (by simp)

/-! ## Permissions -/

theorem Holds.unmoved {P : SocketAddr → Prop} {port : UInt16} {a : Allocation}
    (h : Holds w.server sock port a) (hunmoved : Unmoved P w w') (hsock : P sock)
    (halive : w'.clock ≤ a.createdAt + a.lifetime) : Holds w'.server sock port a where
  lookup := by
    rw [show w'.server.allocationTable.externalAddr = w.server.allocationTable.externalAddr from
      congrArg Prod.snd hunmoved.addrs]
    exact (hunmoved.allocations _ a (h.client ▸ hsock) h.lookup halive).allocation
  client := h.client
  relay := by
    rw [show w'.server.allocationTable.bindAddr = w.server.allocationTable.bindAddr from
      congrArg Prod.fst hunmoved.addrs]
    exact h.relay
  channels := by
    intro n
    rw [show w'.server.allocationTable.externalAddr = w.server.allocationTable.externalAddr from
      congrArg Prod.snd hunmoved.addrs, Option.eq_none_iff_forall_ne_some]
    intro b hb
    have hkept := hunmoved.allocations _ a (h.client ▸ hsock) h.lookup halive
    exact absurd ((h.channels n).symm.trans (hkept.old n b hb)) (by simp)

theorem Holds.entry {server : TurnServer} {port : UInt16} {a : Allocation}
    (h : Holds server sock port a) (hc : server.Consistent) :
    server.allocationTable.entryOfClient sock
      = some ⟨.v4 server.allocationTable.externalAddr port, a⟩ := by
  rw [← h.client]
  exact hc.entryOfClient h.lookup

/-- The attribute with the address of a peer. -/
def peerAttribute (ip : Ipv4Addr) (port : UInt16) (tid : TransactionId) : Attribute :=
  ⟨attrXorPeerAddress, encodeXorAddress (.v4 ip port) Miuturn.magicCookie tid⟩

end Miuturn.TurnCli
