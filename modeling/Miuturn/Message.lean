import Miuturn.RustStd.Utf8
import Miuturn.RustStd.Net

set_option autoImplicit false

/-! # STUN messages (`message.rs`)

The wire format: a 20-byte header (type word, body length, magic cookie, transaction id) followed by
attributes, each a 2-byte type, a 2-byte length, the value and zero padding up to a multiple of
four. The reader works on byte offsets and can, in principle, fault at any of its reads; that it
never does is proved in `MessageProofs.lean` together with the round trip. -/

open RustStd

namespace Miuturn

inductive Method where
  | binding
  | allocate
  | refresh
  | send
  | data
  | createPermission
  | channelBind
  deriving DecidableEq, Repr

/-- `method as u16`. -/
def Method.toU16 : Method → UInt16
  | .binding => 0x0001
  | .allocate => 0x0003
  | .refresh => 0x0004
  | .send => 0x0006
  | .data => 0x0007
  | .createPermission => 0x0008
  | .channelBind => 0x0009

inductive EventType where
  | request
  | indication
  | success
  | error
  deriving DecidableEq, Repr

inductive ErrorCode where
  | tryAlternate
  | badRequest
  | unauthorized
  | forbidden
  | notFound
  | allocationMismatch
  | staleCredentials
  | unsupportedTransport
  | allocationQuotaReached
  | roleConflict
  | serverError
  | insufficientCapacity
  deriving DecidableEq, Repr

/-- `ErrorCode::code`. -/
def ErrorCode.code : ErrorCode → UInt16
  | .tryAlternate => 300
  | .badRequest => 400
  | .unauthorized => 401
  | .forbidden => 403
  | .notFound => 404
  | .allocationMismatch => 437
  | .staleCredentials => 438
  | .unsupportedTransport => 442
  | .allocationQuotaReached => 486
  | .roleConflict => 487
  | .serverError => 500
  | .insufficientCapacity => 508

/-- `format!("{:?}", code)`. -/
def ErrorCode.debug : ErrorCode → String
  | .tryAlternate => "TryAlternate"
  | .badRequest => "BadRequest"
  | .unauthorized => "Unauthorized"
  | .forbidden => "Forbidden"
  | .notFound => "NotFound"
  | .allocationMismatch => "AllocationMismatch"
  | .staleCredentials => "StaleCredentials"
  | .unsupportedTransport => "UnsupportedTransport"
  | .allocationQuotaReached => "AllocationQuotaReached"
  | .roleConflict => "RoleConflict"
  | .serverError => "ServerError"
  | .insufficientCapacity => "InsufficientCapacity"

/-- The cookie at bytes 4..8 of an RFC 5389 message. -/
def magicCookie : UInt32 := 0x2112A442

abbrev TransactionId := Octets 12

structure MessageHeader where
  method : Method
  eventType : EventType
  messageLength : UInt16
  magicCookie : UInt32
  transactionId : TransactionId
  deriving DecidableEq

structure Attribute where
  attrType : UInt16
  value : Bytes
  deriving DecidableEq

structure Message where
  header : MessageHeader
  attributes : List Attribute
  deriving DecidableEq

/-! ## The header -/

/-- The method number of a type word, in both readers of the header. -/
def methodOfU16 (methodVal : UInt16) : Option Method :=
  if methodVal = 0x0001 then some .binding
  else if methodVal = 0x0003 then some .allocate
  else if methodVal = 0x0004 then some .refresh
  else if methodVal = 0x0006 then some .send
  else if methodVal = 0x0007 then some .data
  else if methodVal = 0x0008 then some .createPermission
  else if methodVal = 0x0009 then some .channelBind
  else none

/-- The class number of a type word. -/
def eventTypeOfU16 (cls : UInt16) : Option EventType :=
  if cls = 0 then some .request
  else if cls = 1 then some .indication
  else if cls = 2 then some .success
  else if cls = 3 then some .error
  else none

/-- The method and class bits of an RFC 5389 type word. -/
def typeWordMethod (value : UInt16) : UInt16 :=
  let a : UInt16 := value &&& 0x000F
  let b : UInt16 := (value >>> 1) &&& 0x0070
  let d : UInt16 := (value >>> 2) &&& 0x0F80
  a ||| b ||| d

def typeWordClass (value : UInt16) : UInt16 :=
  let c0 : UInt16 := (value >>> 4) &&& 1
  let c1 : UInt16 := (value >>> 7) &&& 2
  c0 ||| c1

/-- The method and class bits as the RFC 3489 branch reads them, off the two bytes of the type
    word. -/
def classicMethod (firstByte secondByte : UInt8) : UInt16 :=
  let hi : UInt8 := firstByte &&& 0x3E
  let lo : UInt8 := secondByte &&& 0x0F
  (hi.toUInt16 <<< 7) ||| lo.toUInt16

def classicClass (firstByte secondByte : UInt8) : UInt8 :=
  let lo : UInt8 := firstByte &&& 0x01
  let hi : UInt8 := secondByte &&& 0x10
  lo ||| (hi >>> 3)

/-- `MessageHeader::parse`. -/
def MessageHeader.parse (data : Bytes) : Rust (Option MessageHeader) :=
  if data.length < 20 then pure none
  else do
    let c0 ← byteAt data 4
    let c1 ← byteAt data 5
    let c2 ← byteAt data 6
    let c3 ← byteAt data 7
    if c0 == 0x21 && c1 == 0x12 && c2 == 0xA4 && c3 == 0x42 then
      let value ← u16At data 0
      match methodOfU16 (typeWordMethod value), eventTypeOfU16 (typeWordClass value) with
      | some method, some eventType =>
        let messageLength ← u16At data 2
        let transactionId ← copyFromSlice 12 (← slice data 8 20)
        pure (some ⟨method, eventType, messageLength, Miuturn.magicCookie, transactionId⟩)
      | _, _ => pure none
    else if data.length < 16 then pure none
    else
      let msgType ← u16At data 0
      let firstByte := (msgType >>> 8).toUInt8
      let secondByte := msgType.toUInt8
      match methodOfU16 (classicMethod firstByte secondByte),
          eventTypeOfU16 (classicClass firstByte secondByte).toUInt16 with
      | some method, some eventType =>
        let messageLength ← u16At data 2
        let transactionId ← copyFromSlice 12 (← slice data 4 16)
        pure (some ⟨method, eventType, messageLength, Miuturn.magicCookie, transactionId⟩)
      | _, _ => pure none

/-- The class number an `EventType` is written as. -/
def EventType.toU16 : EventType → UInt16
  | .request => 0
  | .indication => 1
  | .success => 2
  | .error => 3

/-- The RFC 5389 type word of a method and a class. -/
def encodeTypeWord (method : Method) (eventType : EventType) : UInt16 :=
  let methodVal := method.toU16
  let classVal := eventType.toU16
  let a : UInt16 := methodVal &&& 0x000F
  let b : UInt16 := methodVal &&& 0x0070
  let d : UInt16 := methodVal &&& 0x0F80
  let c0 : UInt16 := (classVal &&& (1 : UInt16)) <<< 4
  let c1 : UInt16 := (classVal &&& (2 : UInt16)) <<< 7
  a + (b <<< 1) + (d <<< 2) + c0 + c1

/-- `MessageHeader::encode`. -/
def MessageHeader.encode (h : MessageHeader) : Bytes :=
  putU16 (encodeTypeWord h.method h.eventType) ++ putU16 h.messageLength ++ putU32 h.magicCookie
    ++ h.transactionId.val

/-! ## Attributes -/

namespace Attribute

def xorMappedAddress : UInt16 := 0x0020
def xorRelayedAddress : UInt16 := 0x0016
def realm : UInt16 := 0x0014
def nonce : UInt16 := 0x0015
def username : UInt16 := 0x0006
def messageIntegrity : UInt16 := 0x0008
def lifetime : UInt16 := 0x000D
def data : UInt16 := 0x0013
def channelNumber : UInt16 := 0x000C
def peerAddress : UInt16 := 0x0012
def errorCode : UInt16 := 0x0009
def software : UInt16 := 0x8022

/-- `Attribute::decode`, on the bytes from the attribute's first to the end of the body. -/
def decode (data : Bytes) : Rust (Option Attribute) :=
  if data.length < 4 then pure none
  else do
    let attrType ← u16At data 0
    let length := (← u16At data 2).toNat
    if length > data.length - 4 then pure none
    else if length > 65535 then pure none
    else
      let value ← slice data 4 (4 + length)
      pure (some ⟨attrType, value⟩)

/-- The zero bytes after a value of `len` bytes, computed on the 16-bit length. -/
def encodePadding (len : UInt16) : ℕ := (4 - len.toNat % 4) % 4

/-- `Attribute::encode`. -/
def encode (a : Attribute) : Bytes :=
  let len := UInt16.ofNat a.value.length
  putU16 a.attrType ++ putU16 len ++ a.value ++ List.replicate (encodePadding len) 0

end Attribute

/-! ## Messages -/

/-- The attribute loop of `Message::parse`, from `offset` to `endOffset`, with the attributes read
    so far. An attribute that `decode` rejects ends the loop; one whose padding does not fit rejects
    the message. -/
def Message.parseAttributes (data : Bytes) (endOffset offset : ℕ) (attributes : List Attribute) :
    Rust (Option (List Attribute)) :=
  if offset < endOffset then
    if offset + 4 > endOffset then pure none
    else do
      match ← Attribute.decode (← slice data offset endOffset) with
      | none => pure (some attributes)
      | some attr =>
        let attrLen := attr.value.length + 4
        let padding := (4 - attrLen % 4) % 4
        if attrLen + padding = 0 ∨ offset + (attrLen + padding) > endOffset then pure none
        else parseAttributes data endOffset (offset + (attrLen + padding)) (attributes ++ [attr])
  else pure (some attributes)
termination_by endOffset - offset

/-- `Message::parse`. -/
def Message.parse (data : Bytes) : Rust (Option Message) :=
  if data.length < 20 then pure none
  else do
    match ← MessageHeader.parse data with
    | none => pure none
    | some header =>
      let totalLength := 20 + header.messageLength.toNat
      if totalLength > data.length then pure none
      else
        match ← Message.parseAttributes data totalLength 20 [] with
        | none => pure none
        | some attributes => pure (some ⟨header, attributes⟩)

/-- The concatenated attributes, as `encode` and both integrity functions build them. -/
def encodeAttributes (attributes : List Attribute) : Bytes := attributes.flatMap Attribute.encode

/-- `Message::encode`. -/
def Message.encode (m : Message) : Bytes :=
  let attrBuf := encodeAttributes m.attributes
  let header := { m.header with
    messageLength := UInt16.ofNat attrBuf.length, magicCookie := Miuturn.magicCookie }
  header.encode ++ attrBuf

/-- `Message::get_attribute`: the first attribute of a type. -/
def Message.getAttribute (m : Message) (attrType : UInt16) : Option Attribute :=
  m.attributes.find? (fun a => a.attrType == attrType)

/-! ## Addresses in attributes -/

/-- `encode_xor_address`. -/
def encodeXorAddress (addr : SocketAddr) (cookie : UInt32) (_tid : TransactionId) : Bytes :=
  match addr with
  | .v4 ip port =>
    ([0, 0x01] : Bytes) ++ putU16 (port ^^^ (cookie >>> 16).toUInt16)
      ++ [ip.a ^^^ (cookie >>> 24).toUInt8, ip.b ^^^ (cookie >>> 16).toUInt8,
        ip.c ^^^ (cookie >>> 8).toUInt8, ip.d ^^^ cookie.toUInt8]
  | .v6 _ port _ _ => ([0, 0x02] : Bytes) ++ putU16 (port ^^^ (cookie >>> 16).toUInt16) ++ putU32 0

/-- `decode_xor_address`. -/
def decodeXorAddress (data : Bytes) (cookie : UInt32) (_tid : TransactionId) :
    Rust (Option SocketAddr) :=
  if data.length < 8 then pure none
  else do
    let family ← byteAt data 1
    let port := (← u16At data 2) ^^^ (cookie >>> 16).toUInt16
    if family == 0x01 then
      let a ← byteAt data 4
      let b ← byteAt data 5
      let c ← byteAt data 6
      let d ← byteAt data 7
      pure (some (.v4 ⟨a ^^^ (cookie >>> 24).toUInt8, b ^^^ (cookie >>> 16).toUInt8,
        c ^^^ (cookie >>> 8).toUInt8, d ^^^ cookie.toUInt8⟩ port))
    else pure none

/-- `create_binding_response_fast`. -/
def createBindingResponseFast (transactionId : TransactionId) (clientAddr : SocketAddr) : Bytes :=
  putU16 0x0101 ++ putU16 12 ++ putU32 0x2112A442 ++ transactionId.val ++ putU16 0x0020 ++ putU16 8
    ++ match clientAddr with
      | .v4 ip port =>
        [0, 0x01] ++ putU16 (port ^^^ 0x2112)
          ++ [ip.a ^^^ 0x21, ip.b ^^^ 0x12, ip.c ^^^ 0xa4, ip.d ^^^ 0x42]
      | .v6 _ _ _ _ => [0, 0x02] ++ putU16 0

/-! ## Response builders -/

/-- `create_error_response_with_reason`. -/
def createErrorResponseWithReason (header : MessageHeader) (code : ErrorCode)
    (reason : Option String) : Message :=
  let cls := (code.code / 100).toUInt32
  let number := (code.code % 100).toUInt32
  { header := ⟨header.method, .error, 0, magicCookie, header.transactionId⟩,
    attributes := [⟨Attribute.errorCode,
      putU32 ((cls <<< 8) ||| number) ++ strBytes (reason.getD code.debug)⟩] }

/-- `create_success_response`. -/
def createSuccessResponse (header : MessageHeader) : Message :=
  { header := ⟨header.method, .success, 0, magicCookie, header.transactionId⟩, attributes := [] }

end Miuturn
