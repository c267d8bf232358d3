import Miuturn.Allocation
import Miuturn.Auth
import Miuturn.Message

set_option autoImplicit false

/-! # The TURN server (`server.rs`)

Authentication and the request handlers, from the bytes of a datagram or stream frame to the answer,
the packet relayed and the state after it. A handler may panic: its value is then a `Fault`. Every
read that can fault stands before the first update of the handler, so that a request that panics
leaves the tables and the nonces as they were.

One clock reading serves a whole step. The digests are parameters (`Digests`): nothing here depends
on what MD5 and HMAC-SHA1 compute. -/

open RustStd

namespace Miuturn

/-- `md5::compute` and `Hmac<Sha1>`. -/
structure Digests where
  md5 : Bytes → Bytes
  hmacSha1 : (key input : Bytes) → Octets 20

structure NonceEntry where
  nonce : String
  createdAt : ℕ
  deriving DecidableEq

structure TurnServer where
  allocationTable : AllocationTable
  channelTable : ChannelTable
  realm : String
  nonceMap : HashMap String NonceEntry
  password : String
  authDisabled : Bool
  authManager : Option AuthManager
  serverName : String
  stunEnabled : Bool
  turnEnabled : Bool
  deriving DecidableEq

/-- `TurnServer::with_port_range_limits_bind_address_and_password`. -/
def TurnServer.withPortRangeLimitsBindAddressAndPassword (relayAddr relayBindAddr : Ipv4Addr)
    (realm : String) (minPort maxPort : UInt16) (maxConcurrentAllocations : Option ℕ)
    (maxAllocationDurationSecs : Option UInt32) (password : String) (authDisabled : Bool)
    (serverName : String) : Rust TurnServer := do
  let allocationTable ← AllocationTable.withPortRangeAndBindAddr relayAddr relayBindAddr minPort
    maxPort maxConcurrentAllocations maxAllocationDurationSecs
  pure { allocationTable, channelTable := .new, realm, nonceMap := ∅, password, authDisabled,
         authManager := none, serverName, stunEnabled := true, turnEnabled := true }

/-- `TurnServer::get_password_for_user`. -/
def TurnServer.getPasswordForUser (server : TurnServer) (env : Env) (username : String) :
    Option String :=
  match server.authManager.bind (·.getUserPassword (asSecs env.systemTime) username) with
  | some pw => some pw
  | none => if server.password.isEmpty then none else some server.password

/-- What a step leaves behind: the server, the answer to the client, the packet sent to a peer, and
    the number of allocations the step removed. -/
structure Outcome where
  server : TurnServer
  response : Option Bytes
  sent : Option Packet
  removed : ℕ

/-- A step that changes nothing, with an answer or without. -/
def Outcome.unchanged (server : TurnServer) (response : Option Bytes) : Outcome :=
  ⟨server, response, none, 0⟩

@[simp] theorem Outcome.unchanged_server (server : TurnServer) (response : Option Bytes) :
    (Outcome.unchanged server response).server = server := rfl

/-! ## Message integrity -/

/-- `compute_message_integrity_key`. -/
def computeMessageIntegrityKey (D : Digests) (username realm password : String) : Bytes :=
  D.md5 (strBytes (username ++ ":" ++ realm ++ ":" ++ password))

/-- The bytes that are authenticated: the header, with a length that counts the 24 bytes of the
    integrity attribute, and the attributes before it. -/
def integrityInput (header : MessageHeader) (attributes : List Attribute) : Bytes :=
  let attrBuf := encodeAttributes attributes
  let header := { header with
    messageLength := UInt16.ofNat (attrBuf.length + 24), magicCookie := Miuturn.magicCookie }
  header.encode ++ attrBuf

/-- The attributes before the first MESSAGE-INTEGRITY. -/
def Message.beforeIntegrity (msg : Message) : List Attribute :=
  msg.attributes.takeWhile (fun a => a.attrType ≠ Attribute.messageIntegrity)

/-- `verify_message_integrity`. -/
def verifyMessageIntegrity (D : Digests) (msg : Message) (key : Bytes) : Rust Bool :=
  match msg.getAttribute Attribute.messageIntegrity with
  | none => pure false
  | some integrityAttr => do
    let computed := D.hmacSha1 key (integrityInput msg.header msg.beforeIntegrity)
    let received ← slice integrityAttr.value 0 20
    pure (computed.val == received)

/-- `add_response_message_integrity`. -/
def addResponseMessageIntegrity (D : Digests) (response : Message) (key : Bytes) : Message :=
  let computed := D.hmacSha1 key (integrityInput response.header response.attributes)
  { response with
    attributes := response.attributes ++ [⟨Attribute.messageIntegrity, computed.val⟩] }

/-- The success responses are signed with the key of the user, if auth is on and the user still has
    a password. -/
def signResponse (D : Digests) (env : Env) (server : TurnServer) (username : String)
    (response : Message) : Message :=
  if server.authDisabled then response
  else
    match server.getPasswordForUser env username with
    | some password =>
      addResponseMessageIntegrity D response
        (computeMessageIntegrityKey D username server.realm password)
    | none => response

/-! ## Error answers -/

/-- `create_error_response_bytes_with_reason`, and `create_error_response_bytes` for no reason. -/
def errorResponseMessage (msg : Message) (code : ErrorCode) (reason : Option String)
    (server : TurnServer) : Message :=
  let response := createErrorResponseWithReason msg.header code reason
  { response with attributes :=
      response.attributes ++ [⟨Attribute.software, strBytes server.serverName⟩] }

def createErrorResponseBytes (msg : Message) (code : ErrorCode) (server : TurnServer) : Bytes :=
  (errorResponseMessage msg code none server).encode

def createErrorResponseBytesWithReason (msg : Message) (code : ErrorCode) (reason : String)
    (server : TurnServer) : Bytes :=
  (errorResponseMessage msg code (some reason) server).encode

/-- `hex::encode`. -/
def hexEncode (bytes : Bytes) : String :=
  String.ofList (bytes.flatMap (fun b =>
    [Nat.digitChar (b.toNat / 16), Nat.digitChar (b.toNat % 16)]))

/-- `generate_nonce`. -/
def generateNonce (env : Env) : String := hexEncode env.nonceBytes.val

/-- The message of `create_401_response`. -/
def unauthorizedMessage (env : Env) (server : TurnServer) (msg : Message) (reason : Option String) :
    Message :=
  let response := createErrorResponseWithReason msg.header .unauthorized reason
  { response with attributes := response.attributes ++
      [⟨Attribute.realm, strBytes server.realm⟩,
       ⟨Attribute.nonce, strBytes (generateNonce env)⟩,
       ⟨Attribute.software, strBytes server.serverName⟩] }

/-- `create_401_response`: the new nonce goes into the map and into the answer. -/
def create401Response (env : Env) (server : TurnServer) (msg : Message) (reason : Option String) :
    TurnServer × Bytes :=
  let nonce := generateNonce env
  ({ server with nonceMap := server.nonceMap.insert nonce ⟨nonce, env.now⟩ },
    (unauthorizedMessage env server msg reason).encode)

/-! ## Authentication -/

/-- Does the ACL admit the client? Without an `AuthManager` there is none. -/
def TurnServer.aclAdmits (server : TurnServer) (clientAddr : SocketAddr) : Bool :=
  match server.authManager with
  | some am => am.checkAcl clientAddr.ip.toString
  | none => true

/-- `verify_turn_auth`: the user, or the answer to give with the server after the answer was
    made. -/
def verifyTurnAuth (D : Digests) (env : Env) (server : TurnServer) (msg : Message)
    (clientAddr : SocketAddr) : Rust (Except (TurnServer × Bytes) String) :=
  if server.authDisabled then
    match msg.getAttribute Attribute.username with
    | some usernameAttr => pure (.ok (fromUtf8Lossy usernameAttr.value))
    | none => pure (.ok "")
  else if !server.aclAdmits clientAddr then
    pure (.error (server, createErrorResponseBytes msg .forbidden server))
  else
    match msg.getAttribute Attribute.nonce, msg.getAttribute Attribute.username with
    | some nonceAttr, some usernameAttr =>
      let nonce := fromUtf8Lossy nonceAttr.value
      let username := fromUtf8Lossy usernameAttr.value
      match server.nonceMap.lookup nonce with
      | none => pure (.error (create401Response env server msg (some "Invalid nonce")))
      | some nonceEntry =>
        if asSecs (env.now - nonceEntry.createdAt) > 600 then
          pure (.error (create401Response env server msg (some "Nonce expired")))
        else
          match server.getPasswordForUser env username with
          | none => pure (.error (create401Response env server msg (some "Unknown user")))
          | some password => do
            let key := computeMessageIntegrityKey D username server.realm password
            if ← verifyMessageIntegrity D msg key then pure (.ok username)
            else pure (.error (create401Response env server msg (some "Bad integrity")))
    | _, _ => pure (.error (create401Response env server msg none))

/-- The handlers begin alike: authenticate, and answer for a request that fails. -/
def withAuth (D : Digests) (env : Env) (server : TurnServer) (msg : Message)
    (clientAddr : SocketAddr) (body : String → Rust Outcome) : Rust Outcome := do
  match ← verifyTurnAuth D env server msg clientAddr with
  | .ok username => body username
  | .error (server, resp) => pure (.unchanged server (some resp))

/-! ## Requests -/

/-- `get_lifetime`: the first four bytes of LIFETIME, 600 without one. -/
def getLifetime (msg : Message) : Rust UInt32 :=
  match msg.getAttribute Attribute.lifetime with
  | some attr =>
    match attr.value with
    | a :: b :: c :: d :: _ => pure (fromBeBytes32 a b c d)
    | _ => .error .bufferUnderflow
  | none => pure 600

/-- The first half of `handle_allocate` after authentication: the client's old allocation goes. -/
def removeExisting (server : TurnServer) (clientAddr : SocketAddr) : TurnServer × ℕ :=
  match server.allocationTable.findAllocationByClient clientAddr with
  | some oldRelayed =>
    let ((table, channels), old) :=
      server.allocationTable.removeAllocation server.channelTable oldRelayed
    ({ server with allocationTable := table, channelTable := channels }, old.toList.length)
  | none => (server, 0)

/-- The code and reason that answer a failed `create_allocation`. -/
def allocationFailure : Error → ErrorCode × String
  | .allocationQuotaReached => (.allocationQuotaReached, "server allocation quota reached")
  | .relayPortExhausted => (.insufficientCapacity, Error.relayPortExhausted.toString)
  | .relayBindFailed addr source =>
    (.insufficientCapacity, (Error.relayBindFailed addr source).toString)
  | err => (.serverError, err.toString)

/-- The success answer of `handle_allocate`; its LIFETIME is the requested one. -/
def allocateSuccessMessage (server : TurnServer) (msg : Message)
    (relayedAddr clientAddr : SocketAddr) (lifetime : UInt32) : Message :=
  let tid := msg.header.transactionId
  { header := ⟨msg.header.method, .success, 0, magicCookie, tid⟩,
    attributes :=
      [⟨Attribute.xorRelayedAddress, encodeXorAddress relayedAddr magicCookie tid⟩,
       ⟨Attribute.xorMappedAddress, encodeXorAddress clientAddr magicCookie tid⟩,
       ⟨Attribute.lifetime, putU32 lifetime⟩,
       ⟨Attribute.realm, strBytes server.realm⟩,
       ⟨Attribute.software, strBytes server.serverName⟩] }

/-- What `handle_allocate` makes of the table and the result of `create_allocation`. -/
def allocateOutcome (D : Digests) (env : Env) (server : TurnServer) (msg : Message)
    (clientAddr : SocketAddr) (username : String) (lifetime : UInt32) (removed : ℕ) :
    AllocationTable × Except Error Allocation → Outcome
  | (table, .error err) =>
    let server := { server with allocationTable := table }
    let (code, reason) := allocationFailure err
    ⟨server, some (createErrorResponseBytesWithReason msg code reason server), none, removed⟩
  | (table, .ok allocation) =>
    let server := { server with allocationTable := table }
    let response := allocateSuccessMessage server msg allocation.relayedAddr clientAddr lifetime
    ⟨server, some (signResponse D env server username response).encode, none, removed⟩

/-- `handle_allocate`, after authentication and with the lifetime read. -/
def allocateFor (D : Digests) (env : Env) (server : TurnServer) (msg : Message)
    (clientAddr : SocketAddr) (username : String) (lifetime : UInt32) : Outcome :=
  let (server, removed) := removeExisting server clientAddr
  allocateOutcome D env server msg clientAddr username lifetime removed
    (server.allocationTable.createAllocation env clientAddr (some lifetime))

/-- `handle_allocate`. -/
def handleAllocate (D : Digests) (env : Env) (server : TurnServer) (msg : Message)
    (clientAddr : SocketAddr) : Rust Outcome :=
  withAuth D env server msg clientAddr fun username => do
    let lifetime ← getLifetime msg
    pure (allocateFor D env server msg clientAddr username lifetime)

/-- The success answer of `handle_refresh`. -/
def refreshSuccessMessage (msg : Message) (lifetime : UInt32) : Message :=
  let response := createSuccessResponse msg.header
  { response with attributes := response.attributes ++ [⟨Attribute.lifetime, putU32 lifetime⟩] }

/-- `handle_refresh`, after authentication and with the lifetime read. -/
def refreshFor (D : Digests) (env : Env) (server : TurnServer) (msg : Message)
    (clientAddr : SocketAddr) (username : String) (lifetime : UInt32) : Outcome :=
  let success :=
    some (signResponse D env server username (refreshSuccessMessage msg lifetime)).encode
  let mismatch := some (createErrorResponseBytes msg .allocationMismatch server)
  match server.allocationTable.findAllocationByClient clientAddr with
  | some relayed =>
    if lifetime = 0 then
      let ((table, channels), removed) :=
        server.allocationTable.removeAllocation server.channelTable relayed
      ⟨{ server with allocationTable := table, channelTable := channels }, success, none,
        removed.toList.length⟩
    else
      match server.allocationTable.refreshAllocation relayed lifetime with
      | .ok table => ⟨{ server with allocationTable := table }, success, none, 0⟩
      | .error _ => .unchanged server mismatch
  | none => .unchanged server mismatch

/-- `handle_refresh`. -/
def handleRefresh (D : Digests) (env : Env) (server : TurnServer) (msg : Message)
    (clientAddr : SocketAddr) : Rust Outcome :=
  withAuth D env server msg clientAddr fun username => do
    let lifetime ← getLifetime msg
    pure (refreshFor D env server msg clientAddr username lifetime)

/-- The loop of `handle_create_permission` over the attributes. -/
def collectPeers (tid : TransactionId) : List Attribute → Rust (List SocketAddr)
  | [] => pure []
  | attr :: attrs => do
    if attr.attrType = Attribute.peerAddress then
      match ← decodeXorAddress attr.value magicCookie tid with
      | some peerAddr => pure (peerAddr :: (← collectPeers tid attrs))
      | none => collectPeers tid attrs
    else collectPeers tid attrs

/-- `handle_create_permission`. -/
def handleCreatePermission (D : Digests) (env : Env) (server : TurnServer) (msg : Message)
    (clientAddr : SocketAddr) : Rust Outcome :=
  withAuth D env server msg clientAddr fun username => do
    match server.allocationTable.findAllocationByClient clientAddr with
    | none =>
      pure (.unchanged server (some (createErrorResponseBytes msg .allocationMismatch server)))
    | some _ =>
      let peers ← collectPeers msg.header.transactionId msg.attributes
      if peers.isEmpty then
        pure (.unchanged server (some (createErrorResponseBytes msg .badRequest server)))
      else
        match server.allocationTable.addPermissions clientAddr peers with
        | (_, false) =>
          pure (.unchanged server (some (createErrorResponseBytes msg .allocationMismatch server)))
        | (table, true) =>
          let response := signResponse D env server username (createSuccessResponse msg.header)
          pure ⟨{ server with allocationTable := table }, some response.encode, none, 0⟩

/-- The address a ChannelBind falls back to, `0.0.0.0:0`. -/
def unspecifiedAddr : SocketAddr := .v4 ⟨0, 0, 0, 0⟩ 0

/-- `handle_channel_bind`. -/
def handleChannelBind (D : Digests) (env : Env) (server : TurnServer) (msg : Message)
    (clientAddr : SocketAddr) : Rust Outcome :=
  withAuth D env server msg clientAddr fun username => do
    match server.allocationTable.findAllocationByClient clientAddr,
        msg.getAttribute Attribute.peerAddress with
    | some relayedAddr, some peerAttr =>
      let peerAddr :=
        (← decodeXorAddress peerAttr.value magicCookie msg.header.transactionId).getD
          unspecifiedAddr
      match msg.getAttribute Attribute.channelNumber with
      | some channelAttr =>
        let hi ← byteAt channelAttr.value 0
        let lo ← byteAt channelAttr.value 1
        let channelNum := shiftOr16 hi lo
        match server.channelTable.bind env.now channelNum peerAddr relayedAddr with
        | .ok channels =>
          let response := signResponse D env server username (createSuccessResponse msg.header)
          pure ⟨{ server with channelTable := channels }, some response.encode, none, 0⟩
        | .error _ =>
          pure (.unchanged server (some (createErrorResponseBytesWithReason msg .badRequest
            "Channel number already bound for this allocation" server)))
      | none => pure (.unchanged server none)
    | _, _ => pure (.unchanged server none)

/-- `handle_send`. -/
def handleSend (env : Env) (server : TurnServer) (msg : Message) (clientAddr : SocketAddr) :
    Rust Outcome :=
  match server.allocationTable.findAllocationByClient clientAddr,
      msg.getAttribute Attribute.peerAddress with
  | some _, some peerAttr => do
    match ← decodeXorAddress peerAttr.value magicCookie msg.header.transactionId,
        msg.getAttribute Attribute.data with
    | some peerAddr, some dataAttr =>
      let (table, sent) :=
        server.allocationTable.sendToPeer env.sendOk clientAddr peerAddr dataAttr.value
      pure ⟨{ server with allocationTable := table }, none, sent, 0⟩
    | _, _ => pure (.unchanged server none)
  | _, _ => pure (.unchanged server none)

/-- `process_message`. -/
def processMessage (D : Digests) (env : Env) (server : TurnServer) (msg : Message)
    (clientAddr : SocketAddr) : Rust Outcome :=
  if msg.header.method = .binding ∧ server.stunEnabled = false then pure (.unchanged server none)
  else if msg.header.method ≠ .binding ∧ server.turnEnabled = false then
    pure (.unchanged server none)
  else
    match msg.header.method with
    | .binding =>
      pure (.unchanged server
        (some (createBindingResponseFast msg.header.transactionId clientAddr)))
    | .allocate => handleAllocate D env server msg clientAddr
    | .refresh => handleRefresh D env server msg clientAddr
    | .createPermission => handleCreatePermission D env server msg clientAddr
    | .channelBind => handleChannelBind D env server msg clientAddr
    | .send => handleSend env server msg clientAddr
    | .data => pure (.unchanged server none)

/-! ## Datagrams and stream frames -/

/-- `is_channel_data_frame`. -/
def isChannelDataFrame (data : Bytes) : Rust Bool :=
  if data.length < 4 then pure false
  else do
    let channelNum ← u16At data 0
    pure (decide (0x4000 ≤ channelNum.toNat ∧ channelNum.toNat ≤ 0x7FFF))

/-- `handle_channel_data`. -/
def handleChannelData (env : Env) (server : TurnServer) (data : Bytes) (peerAddr : SocketAddr) :
    Rust Outcome :=
  if data.length < 4 then pure (.unchanged server none)
  else do
    let channelNum ← u16At data 0
    let dataLen := (← u16At data 2).toNat
    let payloadEnd := 4 + min dataLen (data.length - 4)
    let payload ← slice data 4 payloadEnd
    match server.allocationTable.getAllocationByClient peerAddr with
    | none => pure (.unchanged server none)
    | some allocation =>
      match server.channelTable.getByChannel allocation.relayedAddr channelNum,
          allocation.relay with
      | some channel, some relay =>
        let sent := if env.sendOk then some ⟨relay.socket, channel.peerAddr, payload⟩ else none
        pure ⟨server, none, sent, 0⟩
      | _, _ => pure (.unchanged server none)

/-- `handle_tcp_message`, given what it does with ChannelData, with a message and otherwise. -/
def handleTcpWith {α : Type} (onChannelData : Rust α) (onMessage : Message → Rust α) (dropped : α)
    (data : Bytes) : Rust α := do
  if ← isChannelDataFrame data then onChannelData
  else
    match ← Message.parse data with
    | some msg => onMessage msg
    | none => pure dropped

/-- `handle_tcp_message`. -/
def handleTcpMessage (D : Digests) (env : Env) (server : TurnServer) (data : Bytes)
    (peerAddr : SocketAddr) : Rust Outcome :=
  handleTcpWith (handleChannelData env server data peerAddr)
    (fun msg => processMessage D env server msg peerAddr) (.unchanged server none) data

/-- The method table of the fallback reader. It has no CreatePermission. -/
def fallbackMethod (methodBytes : UInt16) : Option Method :=
  if methodBytes = 0x0001 then some .binding
  else if methodBytes = 0x0003 then some .allocate
  else if methodBytes = 0x0004 then some .refresh
  else if methodBytes = 0x0006 then some .send
  else if methodBytes = 0x0007 then some .data
  else if methodBytes = 0x0009 then some .channelBind
  else none

/-- The padding after a value, on `u16`: a debug build panics if `attr_len + 4` leaves the type. -/
def fallbackPadding (build : Build) (attrLen : UInt16) : Rust UInt16 := do
  let total ← build.add16 attrLen 4
  let rest ← build.sub16 4 (total % 4)
  pure (rest % 4)

/-- The attribute loop of the fallback reader. It reads to the end of the datagram where the length
    field says more, and it stops at the first attribute that does not fit. -/
def fallbackAttributesIn (build : Build) (data : Bytes) (endOffset offset : ℕ)
    (attributes : List Attribute) : Rust (List Attribute) :=
  if offset < endOffset ∧ offset + 4 ≤ data.length then do
    let attrType := shiftOr16 (← byteAt data offset) (← byteAt data (offset + 1))
    let attrLen := shiftOr16 (← byteAt data (offset + 2)) (← byteAt data (offset + 3))
    if offset + 4 + attrLen.toNat ≤ data.length then
      let value ← slice data (offset + 4) (offset + 4 + attrLen.toNat)
      let padding ← fallbackPadding build attrLen
      fallbackAttributesIn build data endOffset (offset + (4 + attrLen.toNat + padding.toNat))
        (attributes ++ [⟨attrType, value⟩])
    else pure attributes
  else pure attributes
termination_by endOffset - offset

/-- The fallback reader of `handle_udp_message`, for datagrams that `Message::parse` rejects. -/
def fallbackParseIn (build : Build) (data : Bytes) : Rust (Option Message) :=
  if data.length < 20 then pure none
  else do
    let methodBytes := shiftOr16 (← byteAt data 0) (← byteAt data 1)
    let lenBytes := shiftOr16 (← byteAt data 2) (← byteAt data 3)
    let c0 ← byteAt data 4
    let c1 ← byteAt data 5
    let c2 ← byteAt data 6
    let c3 ← byteAt data 7
    if 0 < lenBytes.toNat ∧ lenBytes.toNat < 1500 ∧
        c0 == 0x21 && c1 == 0x12 && c2 == 0xa4 && c3 == 0x42 then
      let transactionId ← copyFromSlice 12 (← slice data 8 20)
      match fallbackMethod methodBytes with
      | some method =>
        let attributes ← fallbackAttributesIn build data (20 + lenBytes.toNat) 20 []
        pure (some ⟨⟨method, .request, lenBytes, magicCookie, transactionId⟩, attributes⟩)
      | none => pure none
    else pure none

/-- `handle_udp_message`, also for DTLS, given what it does with ChannelData, with a message and
    otherwise. -/
def handleUdpWith {α : Type} (build : Build) (onChannelData : Rust α)
    (onMessage : Message → Rust α) (dropped : α) (data : Bytes) : Rust α :=
  if data.length < 4 then pure dropped
  else do
    if ← isChannelDataFrame data then onChannelData
    else
      match ← Message.parse data with
      | some msg => onMessage msg
      | none =>
        match ← fallbackParseIn build data with
        | some msg => onMessage msg
        | none => pure dropped

/-- The fallback reader of a release build. On up to 65555 bytes, more than a datagram has, a debug
    build reads the same (`fallbackParseIn_eq`). -/
def fallbackParse (data : Bytes) : Rust (Option Message) := fallbackParseIn .release data

/-- `handle_udp_message` of a release build, and of either build on up to 65555 bytes
    (`handleUdpWith_eq`). -/
def handleUdpMessage (D : Digests) (env : Env) (server : TurnServer) (data : Bytes)
    (peerAddr : SocketAddr) : Rust Outcome :=
  handleUdpWith .release (handleChannelData env server data peerAddr)
    (fun msg => processMessage D env server msg peerAddr) (.unchanged server none) data

end Miuturn
