import Miuturn.TurnCli
import Miuturn.Answers

set_option autoImplicit false

/-! # The client's bytes are the server's

`turn_cli.py` has its own encoder and reader of STUN messages. What it builds is what `message.rs`
would have written for the same attributes, signed or not, and what it reads off a message that
`message.rs` has written is what was put there. Past this file a conversation is one about
messages. -/

open RustStd

namespace Miuturn.TurnCli

variable {D : Digests} {self : Client}

/-! ## Building -/

theorem buildAttr_eq (attr : Attribute) (hfit : attr.value.length ≤ 65535) :
    buildAttr attr.attrType attr.value = .ok attr.encode := by
  rw [buildAttr, if_pos (by omega), Attribute.encode, Attribute.encodePadding,
    toNat_ofNat_of_le_65535 hfit]

/-- The message a request or indication of the client stands for. -/
def message (method : Method) (eventType : EventType) (tid : TransactionId)
    (attributes : List Attribute) : Message :=
  ⟨⟨method, eventType, 0, Miuturn.magicCookie, tid⟩, attributes⟩

theorem packHeader_eq {n : ℕ} (method : Method) (eventType : EventType) (tid : TransactionId)
    (hfit : n ≤ 65535) :
    packHeader (encodeTypeWord method eventType) n tid = .ok (MessageHeader.encode
      ⟨method, eventType, UInt16.ofNat n, Miuturn.magicCookie, tid⟩) := by
  rw [packHeader, if_pos (by omega)]
  rfl

variable {method : Method} {eventType : EventType} {tid : TransactionId}
  {attributes : List Attribute}

/-- An unsigned message is the encoded one. -/
theorem buildMsg_plain (method : Method) (eventType : EventType) (attributes : List Attribute)
    (hfit : (encodeAttributes attributes).length ≤ 65535) :
    buildMsg D self (encodeTypeWord method eventType) tid (attributes.map Attribute.encode) false
      = .ok (message method eventType tid attributes).encode := by
  have hflatten : (attributes.map Attribute.encode).flatten = encodeAttributes attributes :=
    (List.flatMap_def ..).symm
  rw [buildMsg, if_neg (by simp), hflatten, packHeader_eq method eventType tid hfit]
  rfl

theorem encodeAttributes_append (as bs : List Attribute) :
    encodeAttributes (as ++ bs) = encodeAttributes as ++ encodeAttributes bs :=
  List.flatMap_append

theorem integrity_length {key input : Bytes} :
    (encodeAttributes [⟨Attribute.messageIntegrity, (D.hmacSha1 key input).val⟩]).length = 24 := by
  rw [encodeAttributes_cons, List.length_append, Attribute.encode_length _
    (by rw [(D.hmacSha1 key input).property]; decide), (D.hmacSha1 key input).property]
  rfl

theorem stunMagicCookie_eq : stunMagicCookie = Miuturn.magicCookie := rfl

/-- An IPv4 address is packed as the server packs it: the client does on one word what the server
    does byte by byte. -/
theorem xorAddrData_v4 (ip : Ipv4Addr) (port : UInt16) (tid : TransactionId) :
    xorAddrData (.v4 ip, port) tid = encodeXorAddress (.v4 ip port) Miuturn.magicCookie tid := by
  have hcookie : putU32 Miuturn.magicCookie = [(Miuturn.magicCookie >>> 24).toUInt8,
    (Miuturn.magicCookie >>> 16).toUInt8, (Miuturn.magicCookie >>> 8).toUInt8,
    Miuturn.magicCookie.toUInt8] := by decide
  simp only [xorAddrData, encodeXorAddress, stunMagicCookie_eq, putU32_xor, putU32_fromBeBytes32,
    hcookie, List.zipWith_cons_cons, List.zipWith_nil_left]
  rfl

theorem ipv4OfInt_fromBeBytes32 (a b c d : UInt8) :
    ipv4OfInt (fromBeBytes32 a b c d) = ⟨a, b, c, d⟩ := by
  have hput := putU32_fromBeBytes32 a b c d
  simp only [putU32, List.cons.injEq, and_true] at hput
  obtain ⟨ha, hb, hc, hd⟩ := hput
  rw [ipv4OfInt, ha, hb, hc, hd]

/-- And an address that the server has packed is read back. -/
theorem parseXorAddrValue_encode (ip : Ipv4Addr) (port : UInt16) (tid : TransactionId)
    (t : Bytes) :
    parseXorAddrValue (encodeXorAddress (.v4 ip port) Miuturn.magicCookie tid) t
      = some (.v4 ip, port) := by
  rw [← xorAddrData_v4, xorAddrData]
  have hip := fromBeBytes32_put (fromBeBytes32 ip.a ip.b ip.c ip.d ^^^ stunMagicCookie)
  simp only [putU16, putU32, List.cons_append, List.nil_append, parseXorAddrValue,
    fromBeBytes16_put, hip, UInt32.xor_assoc, UInt32.xor_self, UInt32.xor_zero,
    UInt16.xor_assoc, UInt16.xor_self, UInt16.xor_zero, ipv4OfInt_fromBeBytes32]
  rfl

/-! ## Attributes -/

theorem wordAt_append (pre body : Bytes) (i : ℕ) :
    wordAt (pre ++ body) (pre.length + i) = wordAt body i := by
  rw [wordAt, wordAt, List.getD_append_right _ _ _ _ (by omega),
    List.getD_append_right _ _ _ _ (by omega), Nat.add_sub_cancel_left, Nat.add_assoc,
    Nat.add_sub_cancel_left]

/-- The dictionary after a list of attributes. -/
def collect (attrs : HashMap UInt16 Bytes) (attributes : List Attribute) : HashMap UInt16 Bytes :=
  attributes.foldl (fun attrs attr => attrs.insert attr.attrType attr.value) attrs

/-- What is left of attributes when only the first `n` bytes of them arrive: a value may be cut
    short, and an attribute without its first four bytes is lost. -/
def cut (n : ℕ) : List Attribute → List Attribute
  | [] => []
  | attr :: as =>
    if 4 ≤ n then ⟨attr.attrType, attr.value.take (n - 4)⟩ :: cut (n - attr.encode.length) as
    else []

@[simp] theorem cut_zero (as : List Attribute) : cut 0 as = [] := by
  cases as <;> rfl

/-- An attribute begins with its type and length, and the value follows. -/
theorem encode_append_eq (attr : Attribute) (rest : Bytes) :
    ∃ tail, attr.encode ++ rest
        = putU16 attr.attrType ++ putU16 (UInt16.ofNat attr.value.length) ++ tail ∧
      tail.take attr.value.length = attr.value := by
  refine ⟨attr.value ++ (List.replicate (Attribute.encodePadding
    (UInt16.ofNat attr.value.length)) 0 ++ rest), ?_, List.take_left⟩
  simp only [Attribute.encode, List.append_assoc]

/-- The loop goes through the attributes one after the other, as far as there are bytes. -/
theorem parseAttrs_take (hvalues : ∀ a ∈ attributes, a.value.length ≤ 65535) :
    ∀ (pre : Bytes) (n : ℕ) (attrs : HashMap UInt16 Bytes),
      parseAttrs (pre ++ (encodeAttributes attributes).take n) pre.length attrs
        = collect attrs (cut n attributes) := by
  induction attributes with
  | nil =>
      intro pre n attrs
      rw [parseAttrs, if_neg (by simp [encodeAttributes])]
      rfl
  | cons attr as ih =>
      intro pre n attrs
      have hlen : attr.value.length ≤ 65535 := hvalues attr (List.mem_cons_self ..)
      have hsize : attr.encode.length
          = 4 + attr.value.length + (4 - attr.value.length % 4) % 4 := by
        rw [Attribute.encode_length attr hlen]
        omega
      rw [encodeAttributes_cons]
      by_cases hn : 4 ≤ n
      · -- the type and the length are there
        obtain ⟨tail, hencode, htail⟩ := encode_append_eq attr (encodeAttributes as)
        have hfront : (attr.encode ++ encodeAttributes as).take n
            = putU16 attr.attrType ++ putU16 (UInt16.ofNat attr.value.length)
              ++ tail.take (n - 4) := by
          rw [hencode, List.take_append, List.take_of_length_le hn]
          rfl
        have hwords := wordAt_putU16_append attr.attrType (UInt16.ofNat attr.value.length)
          (tail.take (n - 4))
        have hword₀ := wordAt_append pre ((attr.encode ++ encodeAttributes as).take n) 0
        have hword₂ := wordAt_append pre ((attr.encode ++ encodeAttributes as).take n) 2
        rw [Nat.add_zero, hfront, hwords.1] at hword₀
        rw [hfront, hwords.2] at hword₂
        have hvalue : ((pre ++ (putU16 attr.attrType ++ putU16 (UInt16.ofNat attr.value.length)
            ++ tail.take (n - 4))).drop (pre.length + 4)).take attr.value.length
            = attr.value.take (n - 4) := by
          rw [← List.drop_drop, List.drop_left]
          show (tail.take (n - 4)).take attr.value.length = _
          rw [List.take_take, Nat.min_comm, ← List.take_take, htail]
        rw [cut, if_pos hn, hfront, parseAttrs,
          if_pos (by simp only [List.length_append, putU16_length]; omega)]
        simp only [hword₀, hword₂, toNat_ofNat_of_le_65535 hlen, hvalue]
        rw [← hfront]
        by_cases hwhole : attr.encode.length ≤ n
        · have hnext : pre.length + (4 + attr.value.length + (4 - attr.value.length % 4) % 4)
              = (pre ++ attr.encode).length := by
            rw [List.length_append, hsize]
          rw [hnext, List.take_append, List.take_of_length_le hwhole, ← List.append_assoc,
            ih (fun a ha => hvalues a (List.mem_cons_of_mem _ ha))]
          rfl
        · -- the datagram ends in this attribute
          rw [parseAttrs, if_neg]
          · have hover : n - attr.encode.length = 0 := Nat.sub_eq_zero_of_le (by omega)
            rw [hover, cut_zero]
            rfl
          · rw [List.length_append, List.length_take]
            omega
      · rw [cut, if_neg hn, parseAttrs, if_neg]
        · rfl
        · rw [List.length_append, List.length_take]
          omega

/-- The same for what `recvfrom` gives of a message. -/
theorem parseAttrs_received {m : Message}
    (hfit : (encodeAttributes m.attributes).length ≤ 65535) :
    parseAttrs (received m.encode) 20 ∅ = collect ∅ (cut 2028 m.attributes) := by
  have hloop := parseAttrs_take (value_length_le_of_mem hfit) (MessageHeader.encode { m.header with
    messageLength := UInt16.ofNat (encodeAttributes m.attributes).length,
    magicCookie := Miuturn.magicCookie }) 2028 ∅
  rw [MessageHeader.encode_length] at hloop
  rw [← hloop, received, Message.encode, List.take_append, List.take_of_length_le (by
    rw [MessageHeader.encode_length]; omega), MessageHeader.encode_length]

/-- Of types that occur once, the dictionary has the value of the attribute. -/
theorem lookup_collect {attrs : HashMap UInt16 Bytes} {attrType : UInt16}
    (hnodup : (attributes.map Attribute.attrType).Nodup) :
    (collect attrs attributes).lookup attrType
      = ((attributes.find? (fun a => a.attrType == attrType)).map Attribute.value).or
          (attrs.lookup attrType) := by
  induction attributes generalizing attrs with
  | nil => rfl
  | cons attr as ih =>
      obtain ⟨hnot, hrest⟩ := List.nodup_cons.1 hnodup
      show (collect (attrs.insert attr.attrType attr.value) as).lookup attrType = _
      rw [ih hrest]
      by_cases htype : attr.attrType = attrType
      · subst htype
        -- no later attribute has this type
        have hnone : as.find? (fun a => a.attrType == attr.attrType) = none := by
          rw [List.find?_eq_none]
          intro a ha heq
          exact hnot (beq_iff_eq.1 heq ▸ List.mem_map_of_mem ha)
        rw [hnone, List.find?_cons_of_pos (by simp), AList.lookup_insert]
        rfl
      · rw [List.find?_cons_of_neg (by simpa using htype),
          AList.lookup_insert_ne (Ne.symm htype)]

/-- The first attributes keep their types. -/
theorem cut_types (n : ℕ) (as : List Attribute) :
    ((cut n as).map Attribute.attrType).Sublist (as.map Attribute.attrType) := by
  induction as generalizing n with
  | nil => exact List.Sublist.refl _
  | cons attr as ih =>
      rw [cut]
      split
      · exact (ih _).cons_cons _
      · exact List.nil_sublist _

/-- An attribute that begins early enough is found, with what has arrived of its value. -/
theorem find_cut {attrType : UInt16} {value : Bytes} {post : List Attribute} :
    ∀ {pre : List Attribute} {n : ℕ}, attrType ∉ pre.map Attribute.attrType →
      (encodeAttributes pre).length + 4 ≤ n →
      (cut n (pre ++ ⟨attrType, value⟩ :: post)).find? (fun a => a.attrType == attrType)
        = some ⟨attrType, value.take (n - (encodeAttributes pre).length - 4)⟩ := by
  intro pre
  induction pre with
  | nil =>
      intro n _ hroom
      rw [List.nil_append, cut, if_pos (by omega), List.find?_cons_of_pos (by simp)]
      rfl
  | cons attr as ih =>
      intro n hnot hroom
      rw [List.map_cons, List.mem_cons, not_or] at hnot
      rw [encodeAttributes_cons, List.length_append] at hroom
      rw [List.cons_append, cut, if_pos (by omega),
        List.find?_cons_of_neg (by simpa using Ne.symm hnot.1), ih hnot.2 (by omega),
        encodeAttributes_cons, List.length_append, Nat.sub_sub n]

/-- What the client reads off a datagram of the server: of every attribute the bytes that fit. -/
theorem lookup_received {m : Message} (pre : List Attribute) {post : List Attribute}
    {attrType : UInt16} {value : Bytes} (hsplit : m.attributes = pre ++ ⟨attrType, value⟩ :: post)
    (hfit : (encodeAttributes m.attributes).length ≤ 65535)
    (hnodup : (m.attributes.map Attribute.attrType).Nodup)
    (hroom : (encodeAttributes pre).length ≤ 2024) :
    (parseAttrs (received m.encode) 20 ∅).lookup attrType
      = some (value.take (2024 - (encodeAttributes pre).length)) := by
  have hnot : attrType ∉ pre.map Attribute.attrType := by
    rw [hsplit, List.map_append, List.nodup_append] at hnodup
    intro hmem
    exact hnodup.2.2 _ hmem attrType (List.mem_cons_self ..) rfl
  rw [parseAttrs_received hfit, lookup_collect ((cut_types _ _).nodup hnodup), hsplit,
    find_cut hnot (by omega), Nat.sub_right_comm]
  rfl

/-- It reads nothing that is not there. -/
theorem lookup_received_none {m : Message} {attrType : UInt16}
    (hfit : (encodeAttributes m.attributes).length ≤ 65535)
    (hnodup : (m.attributes.map Attribute.attrType).Nodup)
    (hnot : attrType ∉ m.attributes.map Attribute.attrType) :
    (parseAttrs (received m.encode) 20 ∅).lookup attrType = none := by
  have hnone : (cut 2028 m.attributes).find? (fun a => a.attrType == attrType) = none := by
    rw [List.find?_eq_none]
    intro a ha heq
    rw [← beq_iff_eq.1 heq] at hnot
    exact hnot ((cut_types _ _).subset (List.mem_map_of_mem ha))
  rw [parseAttrs_received hfit, lookup_collect ((cut_types _ _).nodup hnodup), hnone]
  rfl

/-! ## The rest of a message -/

/-- The header of a datagram arrives whole. -/
theorem take_received (datagram : Bytes) : (received datagram).take 20 = datagram.take 20 := by
  rw [received, List.take_take]
  rfl

theorem wordAt_received (m : Message) :
    wordAt (received m.encode) 0 = encodeTypeWord m.header.method m.header.eventType := by
  rw [Message.encode_eq_put]
  exact fromBeBytes16_put _

theorem tid_received (m : Message) :
    ((received m.encode).drop 8).take 12 = m.header.transactionId.val := by
  have htid : (m.encode.drop 8).take 12 = m.header.transactionId.val := by
    rw [Message.encode_eq_put]
    exact List.take_left' m.header.transactionId.property
  rw [List.take_drop] at htid ⊢
  rw [take_received, htid]

theorem isAnswer_received (m : Message) :
    isAnswer m.header.transactionId (received m.encode) = true := by
  have hlen : 20 ≤ (received m.encode).length := by
    rw [received, List.length_take, Message.encode_length]
    omega
  have hcookie : ((received m.encode).drop 4).take 4 = putU32 stunMagicCookie := by
    rw [Message.encode_eq_put]
    rfl
  simp [isAnswer, hlen, hcookie, tid_received]

/-! ## Texts -/

/-- The characters that were encoded are decoded, with fuel for every byte. -/
theorem ignoreChars_encode (cs : List Char) :
    ∀ fuel, (cs.flatMap String.utf8EncodeChar).length ≤ fuel →
      ignoreChars fuel (cs.flatMap String.utf8EncodeChar) = cs := by
  induction cs with
  | nil => intro fuel _; cases fuel <;> rfl
  | cons c cs ih =>
      intro fuel hfuel
      obtain ⟨b, rest, hshape, hdecode, hdrop, hlen⟩ := encodeChar_front c cs
      rw [hlen] at hfuel
      have hpos := c.utf8Size_pos
      obtain ⟨fuel, rfl⟩ : ∃ k, fuel = k + 1 := ⟨fuel - 1, by omega⟩
      rw [hshape] at hdecode hdrop ⊢
      rw [ignoreChars]
      simp only [hdecode, hdrop]
      rw [ih fuel (by omega)]

@[simp] theorem decodeIgnore_strBytes (s : String) : decodeIgnore (strBytes s) = s := by
  rw [decodeIgnore, strBytes_eq_flatMap, ignoreChars_encode _ _ le_rfl, String.ofList_toList]

end Miuturn.TurnCli
