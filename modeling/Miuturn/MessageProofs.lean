import Miuturn.Wire

set_option autoImplicit false

/-! # The message codec reads without faults and reads back what it writes

Two groups of facts about `Message.lean`, on top of `Wire.lean`. The readers are total: each of
their indexed reads is behind a length check that covers it. And `Message.parse` inverts
`Message.encode`, whatever bytes follow the message: what is written has the layout the reader
accepts, with zeros for the padding. -/

open RustStd

namespace Miuturn

/-! ## The readers do not fault -/

theorem MessageHeader.exists_parse (data : Bytes) : ∃ h, MessageHeader.parse data = .ok h := by
  by_cases h20 : 20 ≤ data.length
  · obtain ⟨tid, tid', -, -, hparse⟩ := MessageHeader.parse_eq h20
    exact ⟨_, hparse⟩
  · unfold MessageHeader.parse
    rw [if_pos (not_le.1 h20)]
    exact ⟨none, rfl⟩

theorem Attribute.exists_decode (data : Bytes) : ∃ a, Attribute.decode data = .ok a := by
  by_cases h4 : 4 ≤ data.length
  · exact ⟨_, Attribute.decode_eq h4⟩
  · unfold Attribute.decode
    rw [if_pos (not_le.1 h4)]
    exact ⟨none, rfl⟩

theorem Message.exists_parseAttributes {data : Bytes} {endOffset : ℕ}
    (hend : endOffset ≤ data.length) (offset : ℕ) (attributes : List Attribute) :
    ∃ as, Message.parseAttributes data endOffset offset attributes = .ok as := by
  fun_induction Message.parseAttributes data endOffset offset attributes with
  | case1 offset attributes hlt hshort => exact ⟨_, rfl⟩
  | case2 offset attributes hlt hshort ih =>
      rw [slice_eq_ok (by omega) hend, Rust.ok_bind]
      obtain ⟨attr, hattr⟩ := Attribute.exists_decode ((data.drop offset).take (endOffset - offset))
      rw [hattr, Rust.ok_bind]
      cases attr with
      | none => exact ⟨_, rfl⟩
      | some attr =>
          dsimp only
          split
          · exact ⟨_, rfl⟩
          · exact ih attr
  | case3 offset attributes hdone => exact ⟨_, rfl⟩

/-- `Message::parse` returns on every byte string. -/
theorem Message.exists_parse (data : Bytes) : ∃ m, Message.parse data = .ok m := by
  unfold Message.parse
  split
  · exact ⟨_, rfl⟩
  · obtain ⟨header, hheader⟩ := MessageHeader.exists_parse data
    rw [hheader, Rust.ok_bind]
    cases header with
    | none => exact ⟨_, rfl⟩
    | some header =>
        dsimp only
        split
        · exact ⟨_, rfl⟩
        · next hfits =>
            obtain ⟨as, has⟩ := Message.exists_parseAttributes (not_lt.1 hfits) 20 []
            rw [has, Rust.ok_bind]
            cases as <;> exact ⟨_, rfl⟩

/-- The address an eight-byte value with the IPv4 family byte stands for. -/
def xorAddressOf (cookie : UInt32) : Bytes → Option SocketAddr
  | _ :: family :: p0 :: p1 :: a :: b :: c :: d :: _ =>
    if family == 0x01 then
      some (.v4 ⟨a ^^^ (cookie >>> 24).toUInt8, b ^^^ (cookie >>> 16).toUInt8,
        c ^^^ (cookie >>> 8).toUInt8, d ^^^ cookie.toUInt8⟩
        (fromBeBytes16 p0 p1 ^^^ (cookie >>> 16).toUInt16))
    else none
  | _ => none

/-- `decode_xor_address` returns on every byte string, and never looks at the transaction id. -/
theorem decodeXorAddress_eq (data : Bytes) (cookie : UInt32) (tid : TransactionId) :
    decodeXorAddress data cookie tid = .ok (xorAddressOf cookie data) := by
  unfold decodeXorAddress
  match data with
  | [] | [_] | [_, _] | [_, _, _] | [_, _, _, _] | [_, _, _, _, _] | [_, _, _, _, _, _]
  | [_, _, _, _, _, _, _] => rfl
  | _ :: family :: p0 :: p1 :: a :: b :: c :: d :: rest =>
      rw [if_neg (by simp only [List.length_cons]; omega)]
      simp only [byteAt_succ, byteAt_zero, u16At, Rust.ok_bind, Rust.pure_eq_ok, xorAddressOf]
      split <;> rfl

/-! ## The round trip -/

theorem encodeXorAddress_length (ip : Ipv4Addr) (port : UInt16) (cookie : UInt32)
    (tid : TransactionId) : (encodeXorAddress (.v4 ip port) cookie tid).length = 8 := rfl

/-- An IPv4 address is read back. -/
theorem xorAddressOf_encodeXorAddress (ip : Ipv4Addr) (port : UInt16) (cookie : UInt32)
    (tid : TransactionId) :
    xorAddressOf cookie (encodeXorAddress (.v4 ip port) cookie tid) = some (.v4 ip port) := by
  simp only [encodeXorAddress, putU16, List.cons_append, List.nil_append, xorAddressOf,
    fromBeBytes16_put, UInt8.xor_assoc, UInt8.xor_self, UInt8.xor_zero, UInt16.xor_assoc,
    UInt16.xor_self, UInt16.xor_zero]
  rfl

theorem methodOfU16_encodeTypeWord (method : Method) (eventType : EventType) :
    methodOfU16 (typeWordMethod (encodeTypeWord method eventType)) = some method := by
  cases method <;> cases eventType <;> rfl

theorem eventTypeOfU16_encodeTypeWord (method : Method) (eventType : EventType) :
    eventTypeOfU16 (typeWordClass (encodeTypeWord method eventType)) = some eventType := by
  cases method <;> cases eventType <;> rfl

theorem MessageHeader.encode_length (h : MessageHeader) : h.encode.length = 20 := by
  simp [MessageHeader.encode, h.transactionId.property]

/-- A written header is read back, by the branch that finds the cookie. -/
theorem MessageHeader.parse_encode (h : MessageHeader)
    (hcookie : h.magicCookie = Miuturn.magicCookie) (rest : Bytes) :
    MessageHeader.parse (h.encode ++ rest) = .ok (some h) := by
  obtain ⟨method, eventType, messageLength, cookie, tid⟩ := h
  obtain rfl : cookie = Miuturn.magicCookie := hcookie
  have hdata : MessageHeader.encode ⟨method, eventType, messageLength, Miuturn.magicCookie, tid⟩
      ++ rest = putU16 (encodeTypeWord method eventType) ++ putU16 messageLength
        ++ (putU32 Miuturn.magicCookie ++ (tid.val ++ rest)) := by
    simp only [MessageHeader.encode, List.append_assoc]
  obtain ⟨htype, hlength⟩ := wordAt_putU16_append (encodeTypeWord method eventType) messageLength
    (putU32 Miuturn.magicCookie ++ (tid.val ++ rest))
  rw [hdata]
  obtain ⟨tid₁, tid', htid, -, hparse⟩ := MessageHeader.parse_eq
    (show 20 ≤ (putU16 (encodeTypeWord method eventType) ++ putU16 messageLength
        ++ (putU32 Miuturn.magicCookie ++ (tid.val ++ rest))).length by
      simp only [List.length_append, putU16_length, putU32_length, tid.property]
      omega)
  obtain rfl : tid₁ = tid := Subtype.ext (htid.trans (List.take_left' tid.property))
  have hcarries : CarriesCookie (putU16 (encodeTypeWord method eventType) ++ putU16 messageLength
      ++ (putU32 Miuturn.magicCookie ++ (tid₁.val ++ rest))) := List.take_left' (putU32_length _)
  rw [hparse, if_pos hcarries, htype, hlength, readTypeWord, methodOfU16_encodeTypeWord,
    eventTypeOfU16_encodeTypeWord]
  rfl

theorem Message.encode_length (m : Message) :
    m.encode.length = 20 + (encodeAttributes m.attributes).length := by
  rw [Message.encode, List.length_append, MessageHeader.encode_length]

theorem Attribute.encode_length (a : Attribute) (ha : a.value.length ≤ 65535) :
    a.encode.length = a.value.length + 4 + (4 - (a.value.length + 4) % 4) % 4 := by
  have hpad : encodePadding (UInt16.ofNat a.value.length) = (4 - (a.value.length + 4) % 4) % 4 := by
    rw [encodePadding, toNat_ofNat_of_le_65535 ha, Nat.add_mod_right]
  simp only [Attribute.encode, List.length_append, putU16_length, List.length_replicate, hpad]
  omega

/-- A written attribute is read back, with any bytes after it. -/
theorem Attribute.decode_encode (a : Attribute) (ha : a.value.length ≤ 65535) (rest : Bytes) :
    Attribute.decode (a.encode ++ rest) = .ok (some a) := by
  rw [Attribute.encode, List.append_assoc]
  exact Attribute.decode_front a ha _

theorem encodeAttributes_cons (a : Attribute) (as : List Attribute) :
    encodeAttributes (a :: as) = a.encode ++ encodeAttributes as := List.flatMap_cons

/-- Written attributes have the layout of a body, with zeros for the padding. -/
theorem attributeBytes_encodeAttributes (as : List Attribute)
    (hfit : ∀ a ∈ as, a.value.length ≤ 65535) : AttributeBytes (encodeAttributes as) as := by
  induction as with
  | nil => exact .nil
  | cons a as ih =>
      obtain ⟨ha, has⟩ := List.forall_mem_cons.1 hfit
      rw [encodeAttributes_cons, Attribute.encode]
      refine .cons ha ?_ (ih has)
      rw [List.length_replicate, Attribute.encodePadding, toNat_ofNat_of_le_65535 ha, valuePadding]

/-- Attributes of 16-bit length are determined by the bytes they are written as. -/
theorem encodeAttributes_inj {as bs : List Attribute} (has : ∀ a ∈ as, a.value.length ≤ 65535)
    (hbs : ∀ b ∈ bs, b.value.length ≤ 65535) (h : encodeAttributes as = encodeAttributes bs) :
    as = bs := by
  have hread := Message.parse_of_attributeBytes
    (Or.inl (attributeBytes_encodeAttributes as has)) [] [] []
  rw [h, Message.parse_of_attributeBytes
    (Or.inl (attributeBytes_encodeAttributes bs hbs)) [] [] []] at hread
  simpa using hread.symm

theorem Attribute.value_length_le (a : Attribute) : a.value.length ≤ a.encode.length := by
  simp only [Attribute.encode, List.length_append]
  omega

/-- Attributes whose encoding fits a 16-bit length are themselves that short. -/
theorem value_length_le_of_mem {as : List Attribute} (hfit : (encodeAttributes as).length ≤ 65535) :
    ∀ a ∈ as, a.value.length ≤ 65535 := by
  intro a ha
  obtain ⟨before, after, rfl⟩ := List.append_of_mem ha
  have hle := a.value_length_le
  simp only [encodeAttributes, List.flatMap_append, List.flatMap_cons, List.length_append] at hfit
  omega

/-- What comes back of an encoded message: the message itself, with the header fields that `encode`
    sets on its own account. -/
theorem Message.parse_encode (m : Message) (hfit : (encodeAttributes m.attributes).length ≤ 65535)
    (t : Bytes) :
    Message.parse (m.encode ++ t) = .ok (some { m with header := { m.header with
      messageLength := UInt16.ofNat (encodeAttributes m.attributes).length,
      magicCookie := Miuturn.magicCookie } }) := by
  obtain ⟨header, as⟩ := m
  set header' := { header with
    messageLength := UInt16.ofNat (encodeAttributes as).length,
    magicCookie := Miuturn.magicCookie } with hheader'
  have hlen : header'.messageLength.toNat = (encodeAttributes as).length :=
    toNat_ofNat_of_le_65535 hfit
  have hdata : Message.encode ⟨header, as⟩ ++ t = header'.encode ++ (encodeAttributes as ++ t) := by
    simp only [Message.encode, List.append_assoc, hheader']
  have hsize : (header'.encode ++ (encodeAttributes as ++ t)).length
      = 20 + (encodeAttributes as).length + t.length := by
    simp only [List.length_append, MessageHeader.encode_length]
    omega
  have hloop := Message.parse_of_attributeBytes
    (Or.inl (attributeBytes_encodeAttributes as (value_length_le_of_mem hfit))) header'.encode t []
  rw [MessageHeader.encode_length, List.nil_append] at hloop
  rw [hdata, Message.parse, hsize, if_neg (by omega), MessageHeader.parse_encode header' rfl,
    Rust.ok_bind]
  dsimp only
  rw [hlen, if_neg (by omega), hloop]
  rfl

/-- **Codec round trip.** A message of any method, class and transaction id, with any attributes
    that fit a 16-bit length, is read back whatever bytes follow it. -/
theorem Message.parse_encode_append (m : Message)
    (hfit : (encodeAttributes m.attributes).length ≤ 65535) (t : Bytes) :
    ∃ m', Message.parse (m.encode ++ t) = .ok (some m') ∧
      m'.header.method = m.header.method ∧ m'.header.eventType = m.header.eventType ∧
      m'.header.transactionId = m.header.transactionId ∧ m'.attributes = m.attributes ∧
      m'.header.messageLength.toNat = (encodeAttributes m.attributes).length :=
  ⟨_, Message.parse_encode m hfit t, rfl, rfl, rfl, rfl, toNat_ofNat_of_le_65535 hfit⟩

/-- A Refresh success with two attributes of one type, an unpadded and a padded value, and three
    stray bytes behind it. -/
theorem Message.parse_encode_append_refresh :
    ∃ m', Message.parse
        (Message.encode ⟨⟨.refresh, .success, 7, 0, ⟨List.replicate 12 5, rfl⟩⟩,
          [⟨Attribute.realm, [1, 2, 3, 4]⟩, ⟨Attribute.realm, [9]⟩]⟩ ++ [1, 2, 3]) = .ok (some m') ∧
      m'.header.method = .refresh ∧ m'.header.eventType = .success ∧
      m'.header.transactionId = ⟨List.replicate 12 5, rfl⟩ ∧
      m'.attributes = [⟨Attribute.realm, [1, 2, 3, 4]⟩, ⟨Attribute.realm, [9]⟩] ∧
      m'.header.messageLength.toNat = 16 :=
  Message.parse_encode_append ⟨⟨.refresh, .success, 7, 0, ⟨List.replicate 12 5, rfl⟩⟩,
    [⟨Attribute.realm, [1, 2, 3, 4]⟩, ⟨Attribute.realm, [9]⟩]⟩ (by decide) [1, 2, 3]

end Miuturn
