import Miuturn.Dialogue
import Miuturn.Server
import Miuturn.Wire

set_option autoImplicit false

/-! # The test client (`turn_cli.py`)

The Python client that the repository tests its server with: how it builds and reads STUN messages
by itself, the conversations it holds, and the test of `main` with two clients. A conversation is a
`Dialogue` whose calls are `sendto` and `recvfrom`.

A Python text that stands for an IP address is taken as the address (`inet_aton` and `inet_ntoa`
convert between the two), and the exceptions that end a conversation are values of `Failure`. The
random transaction ids are arguments, and so is the number of datagrams that the client gets to read
before a timeout. -/

open RustStd

namespace Miuturn.TurnCli

/-- The exceptions of the client. -/
inductive Failure where
  /-- A number that does not fit its field in `struct.pack`. -/
  | structError
  /-- `bytes.decode('utf-8')` of bytes that are no text. -/
  | unicodeDecodeError
  /-- `hmac.new` without a key. -/
  | typeError
  /-- `TimeoutError("No matching STUN response received")`. -/
  | timeoutError
  | exception (text : String)
  deriving DecidableEq

/-- What the clients do with their sockets. A socket is known by the address the server sees. -/
inductive Call where
  | sendTo (sock : SocketAddr) (msg : Bytes)
  | recvFrom (sock : SocketAddr)
  deriving DecidableEq

/-- A conversation. `recvFrom` is answered with a datagram, or with nothing if `select` times
    out. -/
abbrev Talk := Dialogue Call (Option Bytes) Failure

/-- `(ip, port)`. -/
abbrev Address := IpAddr × UInt16

/-- `StunTurnClient`. -/
structure Client where
  sock : SocketAddr
  username : Option String
  password : Option String
  realm : Option String
  nonce : Option Bytes
  integrityKey : Option Bytes
  relayedAddr : Option Address
  software : Option String
  deriving DecidableEq

/-- `StunTurnClient(server_addr)`. -/
def Client.new (sock : SocketAddr) : Client := ⟨sock, none, none, none, none, none, none, none⟩

/-! ## Message and attribute types -/

def msgAllocateRequest : UInt16 := 0x0003
def msgAllocateResponse : UInt16 := 0x0103
def msgCreatePermissionRequest : UInt16 := 0x0008
def msgCreatePermissionResponse : UInt16 := 0x0108
def msgSendIndication : UInt16 := 0x0016
def msgDataIndication : UInt16 := 0x0017

def attrUsername : UInt16 := 0x0006
def attrMessageIntegrity : UInt16 := 0x0008
def attrErrorCode : UInt16 := 0x0009
def attrRealm : UInt16 := 0x0014
def attrNonce : UInt16 := 0x0015
def attrRequestedTransport : UInt16 := 0x0019
def attrXorPeerAddress : UInt16 := 0x0012
def attrData : UInt16 := 0x0013
def attrXorRelayedAddress : UInt16 := 0x0016
def attrSoftware : UInt16 := 0x8022

/-- `STUN_MAGIC_COOKIE`. -/
def stunMagicCookie : UInt32 := 0x2112A442

/-! ## Building -/

/-- `_build_attr`. -/
def buildAttr (attrType : UInt16) (value : Bytes) : Except Failure Bytes :=
  let padLen := (4 - value.length % 4) % 4
  if value.length < 65536 then
    .ok (putU16 attrType ++ putU16 (UInt16.ofNat value.length) ++ value
      ++ List.replicate padLen 0)
  else .error .structError

/-- `socket.inet_pton(AF_INET6, ip)`. -/
def ipv6Octets (ip : Ipv6Addr) : Bytes := ip.segments.val.flatMap putU16

/-- The value `_build_xor_addr` packs. -/
def xorAddrData (addr : Address) (tid : TransactionId) : Bytes :=
  let port := putU16 (addr.2 ^^^ (stunMagicCookie >>> 16).toUInt16)
  match addr.1 with
  | .v4 ip =>
    let ipInt := fromBeBytes32 ip.a ip.b ip.c ip.d ^^^ stunMagicCookie
    putU16 0x01 ++ port ++ putU32 ipInt
  | .v6 ip =>
    let mask := putU32 stunMagicCookie ++ tid.val
    putU16 0x02 ++ port ++ List.zipWith (· ^^^ ·) (ipv6Octets ip) mask

/-- `_build_xor_addr`. -/
def buildXorAddr (attrType : UInt16) (addr : Address) (tid : TransactionId) :
    Except Failure Bytes :=
  buildAttr attrType (xorAddrData addr tid)

/-- The header that `_build_msg` packs. -/
def packHeader (msgType : UInt16) (bodyLen : ℕ) (tid : TransactionId) : Except Failure Bytes :=
  if bodyLen < 65536 then
    .ok (putU16 msgType ++ putU16 (UInt16.ofNat bodyLen) ++ putU32 stunMagicCookie ++ tid.val)
  else .error .structError

/-- `_build_msg`. -/
def buildMsg (D : Digests) (self : Client) (msgType : UInt16) (tid : TransactionId)
    (attrsList : List Bytes) (withIntegrity : Bool) : Except Failure Bytes :=
  let attrsBytes := attrsList.flatten
  if withIntegrity then do
    let header ← packHeader msgType (attrsBytes.length + 24) tid
    let msg := header ++ attrsBytes
    match self.integrityKey with
    | some key => return msg ++ (← buildAttr attrMessageIntegrity (D.hmacSha1 key msg).val)
    | none => .error .typeError
  else do
    let header ← packHeader msgType attrsBytes.length tid
    return header ++ attrsBytes

/-! ## Reading -/

/-- The segments of an IPv6 address in its 16 bytes. -/
def segmentsOf : Bytes → List UInt16
  | hi :: lo :: rest => fromBeBytes16 hi lo :: segmentsOf rest
  | _ => []

/-- `socket.inet_ntop(AF_INET6, b)`. -/
def ipv6OfOctets (b : Bytes) : Option Ipv6Addr :=
  if h : (segmentsOf b).length = 8 then some ⟨⟨segmentsOf b, h⟩⟩ else none

/-- `inet_ntoa(pack('!I', n))`. -/
def ipv4OfInt (n : UInt32) : Ipv4Addr :=
  ⟨UInt8.ofNat (n.toNat / 2 ^ 24), UInt8.ofNat (n.toNat / 2 ^ 16), UInt8.ofNat (n.toNat / 2 ^ 8),
    UInt8.ofNat n.toNat⟩

/-- `_parse_xor_addr_value`. -/
def parseXorAddrValue (value tid : Bytes) : Option Address :=
  match value with
  | f₀ :: f₁ :: p₀ :: p₁ :: rest =>
    let family := fromBeBytes16 f₀ f₁
    let port := fromBeBytes16 p₀ p₁ ^^^ (stunMagicCookie >>> 16).toUInt16
    if family = 0x01 then
      match rest with
      | a :: b :: c :: d :: _ =>
        some (.v4 (ipv4OfInt (fromBeBytes32 a b c d ^^^ stunMagicCookie)), port)
      | _ => none
    else if family = 0x02 then
      if rest.length < 16 then none
      else
        let mask := putU32 stunMagicCookie ++ tid
        (ipv6OfOctets (List.zipWith (· ^^^ ·) (rest.take 16) mask)).map (fun ip => (.v6 ip, port))
    else none
  | _ => none

/-- `_parse_attrs`: the dictionary keeps the last value of a type, and a value may be cut off by the
    end of the datagram. -/
def parseAttrs (data : Bytes) (offset : ℕ) (attrs : HashMap UInt16 Bytes) :
    HashMap UInt16 Bytes :=
  if offset + 4 ≤ data.length then
    let t := wordAt data offset
    let l := (wordAt data (offset + 2)).toNat
    let v := (data.drop (offset + 4)).take l
    let pad := (4 - l % 4) % 4
    parseAttrs data (offset + (4 + l + pad)) (attrs.insert t v)
  else attrs
termination_by data.length - offset

/-- `bytes.decode('utf-8', errors='ignore')`, a round for each character or ill-formed part. -/
def ignoreChars : ℕ → Bytes → List Char
  | 0, _ => []
  | _, [] => []
  | fuel + 1, data@(_ :: _) =>
    match data.toByteArray.utf8DecodeChar? 0 with
    | some c => c :: ignoreChars fuel (data.drop c.utf8Size)
    | none => ignoreChars fuel (data.drop (invalidLen data))

def decodeIgnore (data : Bytes) : String := String.ofList (ignoreChars data.length data)

/-- `_parse_error`. -/
def parseError (value : Bytes) : String :=
  match value with
  | _ :: _ :: cls :: number :: reason =>
    let code := (cls &&& 0x07).toNat * 100 + (number &&& 0xFF).toNat
    decimal code ++ " " ++ decodeIgnore reason
  | _ => "Unknown error"

/-! ## Conversations -/

/-- The check of `_send_recv`: is this datagram the answer? -/
def isAnswer (expectedTid : TransactionId) (data : Bytes) : Bool :=
  decide (20 ≤ data.length) && decide ((data.drop 4).take 4 = putU32 stunMagicCookie)
    && decide ((data.drop 8).take 12 = expectedTid.val)

/-- What `recvfrom(2048)` gives of a datagram. -/
def received (datagram : Bytes) : Bytes := datagram.take 2048

/-- The loop of `_send_recv` and of `turn_recv`: datagrams are read until one of them gives
    something or the time is up. -/
def recvUntil {β : Type} (sock : SocketAddr) (read : Bytes → Option β) : ℕ → Talk (Option β)
  | 0 => pure none
  | rounds + 1 => .call (.recvFrom sock) fun
    | none => pure none
    | some datagram =>
      match read (received datagram) with
      | some b => pure (some b)
      | none => recvUntil sock read rounds

/-- `_send_recv`. -/
def sendRecv (rounds : ℕ) (self : Client) (msg : Bytes) (expectedTid : TransactionId) :
    Talk Bytes :=
  .call (.sendTo self.sock msg) fun _ => do
    let answer ← recvUntil self.sock
      (fun data => if isAnswer expectedTid data then some data else none) rounds
    match answer with
    | some data => pure data
    | none => .done (.error .timeoutError)

/-- `attrs.get(ATTR_SOFTWARE, b'').decode('utf-8', errors='ignore') or None`. -/
def softwareOf (attrs : HashMap UInt16 Bytes) : Option String :=
  let text := decodeIgnore ((attrs.lookup attrSoftware).getD [])
  if text.isEmpty then none else some text

/-- `f"0x{msg_type:04x}"`. -/
def hex4 (msgType : UInt16) : String :=
  let digits := (lowerHex msgType.toNat).toList
  "0x" ++ String.ofList (List.replicate (4 - digits.length) '0' ++ digits)

/-- What `turn_allocate` does with a success answer. -/
def readRelayed (self : Client) (data : Bytes) (missing : String) :
    Talk (Client × Option Address) :=
  let attrs := parseAttrs data 20 ∅
  let self := { self with software := softwareOf attrs }
  match attrs.lookup attrXorRelayedAddress with
  | some value =>
    let relayedAddr := parseXorAddrValue value ((data.drop 8).take 12)
    return ({ self with relayedAddr }, relayedAddr)
  | none => .done (.error (.exception missing))

/-- The second half of `turn_allocate`: the request is sent again, with authentication. -/
def allocateAuthenticated (D : Digests) (rounds : ℕ) (self : Client) (tid : TransactionId)
    (username realm : String) (nonce : Bytes) : Talk (Client × Option Address) := do
  let transport ← .done (buildAttr attrRequestedTransport [0x11, 0, 0, 0])
  let usernameAttr ← .done (buildAttr attrUsername (strBytes username))
  let realmAttr ← .done (buildAttr attrRealm (strBytes realm))
  let nonceAttr ← .done (buildAttr attrNonce nonce)
  let msg ← .done (buildMsg D self msgAllocateRequest tid
    [transport, usernameAttr, realmAttr, nonceAttr] true)
  let data ← sendRecv rounds self msg tid
  if wordAt data 0 = msgAllocateResponse then
    readRelayed self data "Authenticated allocate success but no XOR-RELAYED-ADDRESS"
  else
    let respAttrs := parseAttrs data 20 ∅
    .done (.error (.exception ("Authenticated allocate failed: "
      ++ parseError ((respAttrs.lookup attrErrorCode).getD []))))

/-- `turn_allocate`. -/
def turnAllocate (D : Digests) (rounds : ℕ) (self : Client) (tid tid' : TransactionId)
    (username password : String) : Talk (Client × Option Address) := do
  let self := { self with username := some username, password := some password }
  let transport ← .done (buildAttr attrRequestedTransport [0x11, 0, 0, 0])
  let msg ← .done (buildMsg D self msgAllocateRequest tid [transport] false)
  let data ← sendRecv rounds self msg tid
  let msgType := wordAt data 0
  let respAttrs := parseAttrs data 20 ∅
  if msgType = msgAllocateResponse then
    readRelayed self data "Allocate success but no XOR-RELAYED-ADDRESS"
  else if msgType &&& 0x0110 = 0x0110 then
    match respAttrs.lookup attrRealm, respAttrs.lookup attrNonce with
    | some realmValue, some nonce =>
      match fromUtf8 realmValue with
      | none => .done (.error .unicodeDecodeError)
      | some realm =>
        let key := D.md5 (strBytes (username ++ ":" ++ realm ++ ":" ++ password))
        let self := { self with
          realm := some realm, nonce := some nonce, integrityKey := some key }
        allocateAuthenticated D rounds self tid' username realm nonce
    | _, _ => .done (.error (.exception ("Allocate rejected without realm/nonce: "
        ++ parseError ((respAttrs.lookup attrErrorCode).getD []))))
  else .done (.error (.exception ("Unexpected allocate response type: " ++ hex4 msgType)))

/-- `turn_create_permission`. A client with a key has the other credentials too: `turn_allocate`
    sets all four together. -/
def turnCreatePermission (D : Digests) (rounds : ℕ) (self : Client) (tid : TransactionId)
    (peer : Address) : Talk Bool := do
  match self.integrityKey, self.username, self.realm, self.nonce with
  | some _, some username, some realm, some nonce =>
    let peerAttr ← .done (buildXorAddr attrXorPeerAddress peer tid)
    let usernameAttr ← .done (buildAttr attrUsername (strBytes username))
    let realmAttr ← .done (buildAttr attrRealm (strBytes realm))
    let nonceAttr ← .done (buildAttr attrNonce nonce)
    let msg ← .done (buildMsg D self msgCreatePermissionRequest tid
      [peerAttr, usernameAttr, realmAttr, nonceAttr] true)
    let data ← sendRecv rounds self msg tid
    if wordAt data 0 = msgCreatePermissionResponse then return true
    else
      let respAttrs := parseAttrs data 20 ∅
      .done (.error (.exception ("CreatePermission failed: "
        ++ parseError ((respAttrs.lookup attrErrorCode).getD []))))
  | _, _, _, _ => .done (.error (.exception "Must allocate first to obtain credentials"))

/-- `turn_send`. -/
def turnSend (D : Digests) (self : Client) (tid : TransactionId) (peer : Address)
    (payload : Bytes) : Talk Unit := do
  let peerAttr ← .done (buildXorAddr attrXorPeerAddress peer tid)
  let dataAttr ← .done (buildAttr attrData payload)
  let msg ← .done (buildMsg D self msgSendIndication tid [peerAttr, dataAttr] false)
  .call (.sendTo self.sock msg) (fun _ => pure ())

/-- What `turn_recv` makes of a datagram; it goes on listening for one that gives nothing. -/
def peerData (data : Bytes) : Option (Bytes × Option Address) :=
  if data.length < 20 then none
  else if (data.drop 4).take 4 ≠ putU32 stunMagicCookie ∨ wordAt data 0 ≠ msgDataIndication then
    none
  else
    let attrs := parseAttrs data 20 ∅
    match attrs.lookup attrXorPeerAddress, attrs.lookup attrData with
    | some peer, some payload => some (payload, parseXorAddrValue peer ((data.drop 8).take 12))
    | _, _ => none

/-- `turn_recv`. -/
def turnRecv (rounds : ℕ) (self : Client) : Talk (Option (Bytes × Option Address)) :=
  recvUntil self.sock peerData rounds

/-- `relay[0]` and `relay[1]`. -/
def subscript (relay : Option Address) : Except Failure Address :=
  match relay with
  | some addr => .ok addr
  | none => .error .typeError

def msg₁ : Bytes := strBytes "Hello from TURN client1 - by miuda.ai"
def msg₂ : Bytes := strBytes "Hello from TURN client2 - by miuda.ai"

/-- The TURN test of `main`, with what the second and the first client receive at the end. -/
def turnTest (D : Digests) (rounds : ℕ) (sock₁ sock₂ : SocketAddr) (tid : ℕ → TransactionId)
    (username password : String) :
    Talk (Option (Bytes × Option Address) × Option (Bytes × Option Address)) := do
  let (client₁, relay₁) ←
    turnAllocate D rounds (.new sock₁) (tid 0) (tid 1) username password
  let relay₁ ← .done (subscript relay₁)
  let (client₂, relay₂) ←
    turnAllocate D rounds (.new sock₂) (tid 2) (tid 3) username password
  let relay₂ ← .done (subscript relay₂)
  let _ ← turnCreatePermission D rounds client₁ (tid 4) relay₂
  let _ ← turnCreatePermission D rounds client₂ (tid 5) relay₁
  turnSend D client₁ (tid 6) relay₂ msg₁
  let data ← turnRecv rounds client₂
  turnSend D client₂ (tid 7) relay₁ msg₂
  let data₂ ← turnRecv rounds client₁
  return (data, data₂)

end Miuturn.TurnCli
