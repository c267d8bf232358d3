import Miuturn.Message

set_option autoImplicit false

/-! # What the message reader accepts

The grammar of a message body, and the reader of `Message.lean` measured against it. The header is
read by one equation (`MessageHeader.parse_eq`). The attribute loop is described once, with both of
its accepting exits (`Message.parse_eq_some_iff`): a body that is attributes one after the other,
and a body that ends in an attribute whose length goes past the end, which is dropped. -/

open RustStd

namespace Miuturn

/-! ## Words of a buffer -/

/-- The big-endian word at `i`, for buffers that are long enough. -/
def wordAt (data : Bytes) (i : ℕ) : UInt16 := fromBeBytes16 (data.getD i 0) (data.getD (i + 1) 0)

theorem byteAt_eq_getD {data : Bytes} {i : ℕ} (h : i < data.length) :
    byteAt data i = .ok (data.getD i 0) := by
  rw [byteAt_eq_ok_iff, List.getD_eq_getElem?_getD, List.getElem?_eq_getElem h, Option.getD_some]

theorem u16At_eq_wordAt {data : Bytes} {i : ℕ} (h : i + 1 < data.length) :
    u16At data i = .ok (wordAt data i) := by
  simp only [u16At, byteAt_eq_getD (show i < data.length by omega), byteAt_eq_getD h, Rust.ok_bind,
    Rust.pure_eq_ok, wordAt]

/-! ## The header -/

/-- Bytes 4..8 are the cookie. -/
def CarriesCookie (data : Bytes) : Prop := (data.drop 4).take 4 = putU32 magicCookie

instance (data : Bytes) : Decidable (CarriesCookie data) :=
  inferInstanceAs (Decidable (_ = _))

/-- Method and class of an RFC 5389 type word. -/
def readTypeWord (w : UInt16) : Option (Method × EventType) :=
  (methodOfU16 (typeWordMethod w)).bind fun method =>
    (eventTypeOfU16 (typeWordClass w)).map (method, ·)

/-- Method and class of a type word as the RFC 3489 branch reads it. -/
def readClassicTypeWord (w : UInt16) : Option (Method × EventType) :=
  (methodOfU16 (classicMethod (w >>> 8).toUInt8 w.toUInt8)).bind fun method =>
    (eventTypeOfU16 (classicClass (w >>> 8).toUInt8 w.toUInt8).toUInt16).map (method, ·)

theorem carriesCookie_iff {data : Bytes} (h : 8 ≤ data.length) :
    CarriesCookie data ↔ data.getD 4 0 = 0x21 ∧ data.getD 5 0 = 0x12 ∧ data.getD 6 0 = 0xA4 ∧
      data.getD 7 0 = 0x42 := by
  obtain ⟨b0, b1, b2, b3, b4, b5, b6, b7, rest, rfl⟩ : ∃ b0 b1 b2 b3 b4 b5 b6 b7 rest,
      data = b0 :: b1 :: b2 :: b3 :: b4 :: b5 :: b6 :: b7 :: rest := by
    match data, h with
    | b0 :: b1 :: b2 :: b3 :: b4 :: b5 :: b6 :: b7 :: rest, _ =>
        exact ⟨b0, b1, b2, b3, b4, b5, b6, b7, rest, rfl⟩
  have hcookie : putU32 magicCookie = [0x21, 0x12, 0xA4, 0x42] := rfl
  unfold CarriesCookie
  rw [hcookie]
  simp

/-- The header reader in one equation: the cookie decides how the type word is read and where the
    transaction id stands. -/
theorem MessageHeader.parse_eq {data : Bytes} (h : 20 ≤ data.length) :
    ∃ tid tid' : TransactionId, tid.val = (data.drop 8).take 12 ∧
      tid'.val = (data.drop 4).take 12 ∧
      MessageHeader.parse data = .ok (if CarriesCookie data then
        (readTypeWord (wordAt data 0)).map
          (fun mc => ⟨mc.1, mc.2, wordAt data 2, Miuturn.magicCookie, tid⟩)
      else
        (readClassicTypeWord (wordAt data 0)).map
          (fun mc => ⟨mc.1, mc.2, wordAt data 2, Miuturn.magicCookie, tid'⟩)) := by
  have hslice : ∀ a b, a + 12 = b → b ≤ 20 → ∃ tid : TransactionId,
      tid.val = (data.drop a).take 12 ∧ (slice data a b >>= copyFromSlice 12) = .ok tid := by
    intro a b hab hb
    have hsize : ((data.drop a).take 12).length = 12 := by
      rw [List.length_take, List.length_drop]
      omega
    refine ⟨⟨_, hsize⟩, rfl, ?_⟩
    rw [slice_eq_ok (by omega) (by omega), Rust.ok_bind, show b - a = 12 by omega]
    exact dif_pos hsize
  obtain ⟨tid, htid, hread⟩ := hslice 8 20 rfl le_rfl
  obtain ⟨tid', htid', hread'⟩ := hslice 4 16 rfl (by omega)
  refine ⟨tid, tid', htid, htid', ?_⟩
  unfold MessageHeader.parse
  rw [if_neg (by omega), byteAt_eq_getD (by omega), byteAt_eq_getD (by omega),
    byteAt_eq_getD (by omega), byteAt_eq_getD (by omega)]
  simp only [Rust.ok_bind, u16At_eq_wordAt (show 0 + 1 < data.length by omega),
    u16At_eq_wordAt (show 2 + 1 < data.length by omega), Bool.and_eq_true, beq_iff_eq,
    ← bind_assoc, hread, hread', if_neg (show ¬ data.length < 16 by omega), Rust.pure_eq_ok]
  by_cases hcookie : CarriesCookie data
  · obtain ⟨h4, h5, h6, h7⟩ := (carriesCookie_iff (by omega)).1 hcookie
    rw [if_pos ⟨⟨⟨h4, h5⟩, h6⟩, h7⟩, if_pos hcookie, readTypeWord]
    cases methodOfU16 (typeWordMethod (wordAt data 0)) with
    | none => rfl
    | some method => cases eventTypeOfU16 (typeWordClass (wordAt data 0)) <;> rfl
  · rw [if_neg (fun hbytes => hcookie ((carriesCookie_iff (by omega)).2
      ⟨hbytes.1.1.1, hbytes.1.1.2, hbytes.1.2, hbytes.2⟩)), if_neg hcookie, readClassicTypeWord]
    cases methodOfU16 (classicMethod (wordAt data 0 >>> 8).toUInt8 (wordAt data 0).toUInt8) with
    | none => rfl
    | some method =>
        cases eventTypeOfU16
          (classicClass (wordAt data 0 >>> 8).toUInt8 (wordAt data 0).toUInt8).toUInt16 <;> rfl

/-! ## The body -/

/-- The bytes that follow `n` value bytes, up to a multiple of four. -/
def valuePadding (n : ℕ) : ℕ := (4 - n % 4) % 4

/-- Attributes one after the other: of each the type, the length, the value and padding, whose
    bytes may be anything. -/
inductive AttributeBytes : Bytes → List Attribute → Prop
  | nil : AttributeBytes [] []
  | cons {attr : Attribute} {padding rest : Bytes} {as : List Attribute}
      (hlen : attr.value.length ≤ 65535)
      (hpad : padding.length = valuePadding attr.value.length)
      (hrest : AttributeBytes rest as) :
      AttributeBytes (putU16 attr.attrType ++ putU16 (UInt16.ofNat attr.value.length) ++ attr.value
        ++ padding ++ rest) (attr :: as)

/-- The head of an attribute whose value is cut off by the end of the body. -/
def CutAttribute (tail : Bytes) : Prop :=
  4 ≤ tail.length ∧ tail.length < 4 + (wordAt tail 2).toNat

/-- Attributes, and then one that is cut off. -/
def EndsCut (body : Bytes) (as : List Attribute) : Prop :=
  ∃ whole tail, body = whole ++ tail ∧ AttributeBytes whole as ∧ CutAttribute tail

/-- `Attribute::decode` reads the attribute at the front, unless its value is cut off. -/
theorem Attribute.decode_eq {data : Bytes} (h : 4 ≤ data.length) :
    Attribute.decode data = .ok (if data.length < 4 + (wordAt data 2).toNat then none
      else some ⟨wordAt data 0, (data.drop 4).take (wordAt data 2).toNat⟩) := by
  have hword := (wordAt data 2).toNat_lt
  unfold Attribute.decode
  rw [if_neg (by omega), u16At_eq_wordAt (by omega), u16At_eq_wordAt (by omega), Rust.ok_bind,
    Rust.ok_bind]
  by_cases hcut : data.length < 4 + (wordAt data 2).toNat
  · rw [if_pos (by omega), if_pos hcut]
    rfl
  · rw [if_neg (by omega), if_neg (by omega), if_neg hcut, slice_eq_ok (by omega) (by omega),
      Rust.ok_bind, Nat.add_sub_cancel_left]
    rfl

/-- Four bytes that are there are two words. -/
theorem putU16_wordAt_append {data : Bytes} (h : 4 ≤ data.length) :
    putU16 (wordAt data 0) ++ putU16 (wordAt data 2) ++ data.drop 4 = data := by
  match data, h with
  | b0 :: b1 :: b2 :: b3 :: rest, _ => simp [wordAt, putU16_fromBeBytes16]

/-- And two words that were written are read back. -/
theorem wordAt_putU16_append (w w' : UInt16) (rest : Bytes) :
    wordAt (putU16 w ++ putU16 w' ++ rest) 0 = w ∧ wordAt (putU16 w ++ putU16 w' ++ rest) 2 = w' :=
  ⟨fromBeBytes16_put w, fromBeBytes16_put w'⟩

/-- An attribute with any bytes behind its value is read. -/
theorem Attribute.decode_front (attr : Attribute) (hlen : attr.value.length ≤ 65535)
    (rest : Bytes) :
    Attribute.decode (putU16 attr.attrType ++ putU16 (UInt16.ofNat attr.value.length) ++ attr.value
      ++ rest) = .ok (some attr) := by
  obtain ⟨attrType, value⟩ := attr
  rw [List.append_assoc]
  obtain ⟨htype, hlength⟩ :=
    wordAt_putU16_append attrType (UInt16.ofNat value.length) (value ++ rest)
  have hvalue : ((putU16 attrType ++ putU16 (UInt16.ofNat value.length) ++ (value ++ rest)).drop
      4).take value.length = value := List.take_left
  rw [Attribute.decode_eq (by simp only [List.length_append, putU16_length]; omega), htype, hlength,
    toNat_ofNat_of_le_65535 hlen, hvalue,
    if_neg (by simp only [List.length_append, putU16_length]; omega)]

/-- A body that is long enough for its first attribute starts with it and its padding. -/
theorem exists_front {body : Bytes} {n : ℕ} (hn : n = (wordAt body 2).toNat)
    (hfits : n + 4 + valuePadding n ≤ body.length) :
    ∃ padding, padding.length = valuePadding n ∧ body = putU16 (wordAt body 0)
      ++ putU16 (UInt16.ofNat n) ++ (body.drop 4).take n ++ padding
      ++ body.drop (n + 4 + valuePadding n) := by
  refine ⟨((body.drop 4).drop n).take (valuePadding n), ?_, ?_⟩
  · rw [List.length_take, List.length_drop, List.length_drop]
    omega
  · rw [hn, UInt16.ofNat_toNat, ← hn, List.append_assoc _ _ (body.drop _), Nat.add_comm n 4,
      ← List.drop_drop, ← List.drop_drop, List.append_assoc _ _ (List.take _ _ ++ _),
      List.take_append_drop, List.take_append_drop, putU16_wordAt_append (by omega)]

/-- If attributes follow, or attributes and one that is cut off, so does the body with its first
    attribute. -/
theorem front_cons {body : Bytes} {n : ℕ} {as : List Attribute} (hn : n = (wordAt body 2).toNat)
    (hfits : n + 4 + valuePadding n ≤ body.length)
    (hrest : AttributeBytes (body.drop (n + 4 + valuePadding n)) as ∨
      EndsCut (body.drop (n + 4 + valuePadding n)) as) :
    AttributeBytes body (⟨wordAt body 0, (body.drop 4).take n⟩ :: as) ∨
      EndsCut body (⟨wordAt body 0, (body.drop 4).take n⟩ :: as) := by
  have hn16 : n ≤ 65535 := hn ▸ Nat.le_of_lt_succ (wordAt body 2).toNat_lt
  have hvalue : ((body.drop 4).take n).length = n := by
    rw [List.length_take, List.length_drop]
    omega
  obtain ⟨padding, hpadding, hsplit⟩ := exists_front hn hfits
  have hfront : ∀ rest, AttributeBytes rest as →
      AttributeBytes (putU16 (wordAt body 0) ++ putU16 (UInt16.ofNat n) ++ (body.drop 4).take n
        ++ padding ++ rest) (⟨wordAt body 0, (body.drop 4).take n⟩ :: as) := by
    intro rest hbytes
    have hcons := @AttributeBytes.cons ⟨wordAt body 0, (body.drop 4).take n⟩ padding rest
      as (hvalue.trans_le hn16) (hpadding.trans (congrArg _ hvalue.symm)) hbytes
    rwa [hvalue] at hcons
  rcases hrest with hrest | ⟨whole, tail, hwhole, hbytes, htail⟩
  · have hwhole := hfront _ hrest
    rw [← hsplit] at hwhole
    exact Or.inl hwhole
  · right
    refine ⟨_, tail, ?_, hfront whole hbytes, htail⟩
    rw [List.append_assoc, ← hwhole]
    exact hsplit

/-- What is accepted is attributes, or attributes and one that is cut off. -/
theorem Message.attributeBytes_of_parse {data : Bytes} {endOffset : ℕ}
    (hend : endOffset ≤ data.length) (offset : ℕ) (acc result : List Attribute)
    (hle : offset ≤ endOffset)
    (h : Message.parseAttributes data endOffset offset acc = .ok (some result)) :
    ∃ as, result = acc ++ as ∧
      (AttributeBytes ((data.drop offset).take (endOffset - offset)) as ∨
        EndsCut ((data.drop offset).take (endOffset - offset)) as) := by
  fun_induction Message.parseAttributes data endOffset offset acc with
  | case1 offset acc hlt hshort => simp at h
  | case2 offset acc hlt hshort ih =>
      set body := (data.drop offset).take (endOffset - offset) with hbody
      have hsize : body.length = endOffset - offset := by
        rw [hbody, List.length_take, List.length_drop]
        omega
      rw [slice_eq_ok hle hend, Rust.ok_bind, ← hbody, Attribute.decode_eq (by omega),
        Rust.ok_bind] at h
      by_cases hcut : body.length < 4 + (wordAt body 2).toNat
      · rw [if_pos hcut] at h
        cases h
        exact ⟨[], (List.append_nil _).symm,
          Or.inr ⟨[], body, rfl, .nil, ⟨by omega, hcut⟩⟩⟩
      · set n := (wordAt body 2).toNat with hn
        have hvalue : ((body.drop 4).take n).length = n := by
          rw [List.length_take, List.length_drop]
          omega
        have hpad : (4 - (n + 4) % 4) % 4 = valuePadding n := by
          rw [valuePadding, Nat.add_mod_right]
        have hih := ih ⟨wordAt body 0, (body.drop 4).take n⟩
        rw [if_neg hcut] at h
        dsimp only at h hih
        rw [hvalue, hpad] at h hih
        split at h
        · cases h
        · next hfits =>
            rw [not_or] at hfits
            obtain ⟨as, rfl, hrest⟩ := hih (by omega) h
            refine ⟨⟨wordAt body 0, (body.drop 4).take n⟩ :: as, by simp, ?_⟩
            have hdrop : (data.drop (offset + (n + 4 + valuePadding n))).take
                (endOffset - (offset + (n + 4 + valuePadding n)))
                = body.drop (n + 4 + valuePadding n) := by
              rw [hbody, List.drop_take, List.drop_drop, Nat.sub_sub]
            rw [hdrop] at hrest
            exact front_cons hn (by omega) hrest
  | case3 offset acc hdone =>
      cases h
      refine ⟨[], (List.append_nil _).symm, Or.inl ?_⟩
      rw [show endOffset - offset = 0 by omega]
      exact .nil

/-- The loop over attributes that stand between `pre` and any other bytes takes them all up. -/
theorem Message.parseAttributes_append {whole : Bytes} {as : List Attribute}
    (h : AttributeBytes whole as) (tail post : Bytes) : ∀ (pre : Bytes) (acc : List Attribute),
    Message.parseAttributes (pre ++ (whole ++ (tail ++ post)))
        (pre.length + (whole.length + tail.length)) pre.length acc
      = Message.parseAttributes (pre ++ (whole ++ (tail ++ post)))
        (pre.length + (whole.length + tail.length)) (pre.length + whole.length) (acc ++ as) := by
  induction h with
  | nil => simp
  | @cons attr padding rest as hlen hpad hrest ih =>
      intro pre acc
      set front := putU16 attr.attrType ++ putU16 (UInt16.ofNat attr.value.length) ++ attr.value
        ++ padding with hfront
      have hsize : front.length = attr.value.length + 4 + valuePadding attr.value.length := by
        simp only [hfront, List.length_append, putU16_length, hpad]
        omega
      have hnext := ih (pre ++ front) (acc ++ [attr])
      have hslice := slice_append pre (front ++ rest ++ tail) post
      have hdecode : Attribute.decode (front ++ rest ++ tail) = .ok (some attr) := by
        simp only [hfront, List.append_assoc]
        exact Attribute.decode_front attr hlen (padding ++ (rest ++ tail))
      have hpad' : (4 - (attr.value.length + 4) % 4) % 4 = valuePadding attr.value.length := by
        rw [valuePadding, Nat.add_mod_right]
      simp only [List.append_assoc, List.length_append, Nat.add_assoc] at hslice hnext ⊢
      rw [Message.parseAttributes, if_pos (by omega), if_neg (by omega), hslice, Rust.ok_bind]
      rw [← List.append_assoc front, hdecode, Rust.ok_bind]
      dsimp only
      rw [hpad', ← hsize, if_neg (by omega), hnext, List.singleton_append]

/-- Conversely, what is attributes, or attributes and one that is cut off, is accepted. -/
theorem Message.parse_of_attributeBytes {body : Bytes} {as : List Attribute}
    (h : AttributeBytes body as ∨ EndsCut body as) (pre post : Bytes) (acc : List Attribute) :
    Message.parseAttributes (pre ++ (body ++ post)) (pre.length + body.length) pre.length acc
      = .ok (some (acc ++ as)) := by
  rcases h with h | ⟨whole, tail, rfl, hwhole, htail⟩
  · have hloop := Message.parseAttributes_append h [] post pre acc
    rw [List.nil_append, List.length_nil, Nat.add_zero] at hloop
    rw [hloop, Message.parseAttributes, if_neg (lt_irrefl _)]
    rfl
  · obtain ⟨hfour, hcut⟩ := htail
    have hslice := slice_append (pre ++ whole) tail post
    simp only [List.append_assoc, List.length_append, Nat.add_assoc] at hslice ⊢
    rw [Message.parseAttributes_append hwhole, Message.parseAttributes, if_pos (by omega),
      if_neg (by omega), hslice, Rust.ok_bind, Attribute.decode_eq hfour, if_pos hcut]
    rfl

/-! ## The message -/

/-- The bytes that the length field declares as the body. -/
def bodyOf (data : Bytes) : Bytes := (data.drop 20).take (wordAt data 2).toNat

theorem Message.parseAttributes_bodyOf {data : Bytes} {as : List Attribute}
    (hfits : 20 + (wordAt data 2).toNat ≤ data.length) :
    Message.parseAttributes data (20 + (wordAt data 2).toNat) 20 [] = .ok (some as) ↔
      AttributeBytes (bodyOf data) as ∨ EndsCut (bodyOf data) as := by
  constructor
  · intro h
    obtain ⟨as', hresult, hbytes⟩ := attributeBytes_of_parse hfits 20 [] as (by omega) h
    rw [List.nil_append] at hresult
    rw [Nat.add_sub_cancel_left] at hbytes
    rw [hresult]
    exact hbytes
  · intro h
    have hpre : (data.take 20).length = 20 := by
      rw [List.length_take]
      omega
    have hsize : (bodyOf data).length = (wordAt data 2).toNat := by
      rw [bodyOf, List.length_take, List.length_drop]
      omega
    have hloop := parse_of_attributeBytes h (data.take 20)
      ((data.drop 20).drop (wordAt data 2).toNat) []
    rw [hpre, hsize, bodyOf, List.take_append_drop, List.take_append_drop, List.nil_append] at hloop
    exact hloop

/-- What `Message::parse` accepts, and as what. -/
theorem Message.parse_eq_some_iff {data : Bytes} {header : MessageHeader} {as : List Attribute} :
    Message.parse data = .ok (some ⟨header, as⟩) ↔
      20 ≤ data.length ∧ MessageHeader.parse data = .ok (some header) ∧
        20 + (wordAt data 2).toNat ≤ data.length ∧
        (AttributeBytes (bodyOf data) as ∨ EndsCut (bodyOf data) as) := by
  unfold Message.parse
  by_cases hshort : data.length < 20
  · rw [if_pos hshort]
    exact ⟨fun h => (by cases h), fun h => absurd h.1 (not_le.2 hshort)⟩
  have h20 : 20 ≤ data.length := not_lt.1 hshort
  obtain ⟨tid, tid', -, -, hparse⟩ := MessageHeader.parse_eq h20
  rw [if_neg hshort]
  cases hread : MessageHeader.parse data with
  | error e => rw [hparse] at hread; cases hread
  | ok parsed =>
      rw [Rust.ok_bind]
      cases parsed with
      | none => simp
      | some found =>
          have hlength : found.messageLength = wordAt data 2 := by
            rw [hparse, Except.ok.injEq] at hread
            split at hread <;>
              · obtain ⟨mc, -, rfl⟩ := Option.map_eq_some_iff.1 hread
                rfl
          dsimp only
          rw [hlength]
          by_cases hfits : 20 + (wordAt data 2).toNat > data.length
          · rw [if_pos hfits]
            exact ⟨fun h => (by cases h), fun h => absurd h.2.2.1 (not_le.2 hfits)⟩
          · rw [if_neg hfits, ← parseAttributes_bodyOf (not_lt.1 hfits)]
            cases parseAttributes data (20 + (wordAt data 2).toNat) 20 [] with
            | error e => simp
            | ok read => cases read <;> simp [h20, not_lt.1 hfits]

/-- A well-formed message behind the cookie, with the attributes of its body. -/
structure WellFormed (data : Bytes) (as : List Attribute) : Prop where
  header_fits : 20 ≤ data.length
  /-- The two bits before the method and class bits are zero. -/
  top_bits : (wordAt data 0).toNat < 2 ^ 14
  method_known : (methodOfU16 (typeWordMethod (wordAt data 0))).isSome
  body_fits : 20 + (wordAt data 2).toNat ≤ data.length
  body : AttributeBytes (bodyOf data) as

theorem typeWordClass_lt (w : UInt16) : (typeWordClass w).toNat < 4 := by
  simp only [typeWordClass, UInt16.toNat_or, UInt16.toNat_and]
  exact @Nat.or_lt_two_pow _ _ 2 (Nat.and_lt_two_pow _ (by decide))
    (Nat.and_lt_two_pow _ (by decide))

theorem eq_of_toNat_lt_four {x : UInt16} (h : x.toNat < 4) : x = 0 ∨ x = 1 ∨ x = 2 ∨ x = 3 := by
  simp only [← UInt16.toNat_inj, UInt16.reduceToNat]
  omega

/-- Two bits are one of the four classes. -/
theorem exists_eventTypeOfU16 {x : UInt16} (h : x.toNat < 4) :
    ∃ c, eventTypeOfU16 x = some c := by
  rcases eq_of_toNat_lt_four h with rfl | rfl | rfl | rfl <;> exact ⟨_, rfl⟩

/-- Behind the cookie the header reader looks at the method bits only. -/
theorem MessageHeader.exists_parse_iff {data : Bytes} (h20 : 20 ≤ data.length)
    (hcookie : CarriesCookie data) :
    (∃ header, MessageHeader.parse data = .ok (some header)) ↔
      (methodOfU16 (typeWordMethod (wordAt data 0))).isSome := by
  obtain ⟨tid, tid', -, -, hparse⟩ := MessageHeader.parse_eq h20
  obtain ⟨c, hc⟩ := exists_eventTypeOfU16 (typeWordClass_lt (wordAt data 0))
  rw [hparse, if_pos hcookie, readTypeWord, hc]
  cases methodOfU16 (typeWordMethod (wordAt data 0)) <;> simp

/-- The attributes determine how many bytes they take up. -/
theorem AttributeBytes.length_eq {b b' : Bytes} {as : List Attribute} (h : AttributeBytes b as)
    (h' : AttributeBytes b' as) : b.length = b'.length := by
  induction h generalizing b' with
  | nil => cases h'; rfl
  | cons hlen hpad hrest ih =>
      obtain _ | ⟨-, hpad', hrest'⟩ := h'
      simp only [List.length_append, putU16_length, hpad, hpad', ih hrest']

/-- A body with a cut attribute behind `as` is not made of `as` alone. -/
theorem EndsCut.not_attributeBytes {body : Bytes} {as : List Attribute} (h : EndsCut body as) :
    ¬ AttributeBytes body as := by
  obtain ⟨whole, tail, rfl, hwhole, hfour, -⟩ := h
  intro hbody
  have hlen := hbody.length_eq hwhole
  rw [List.length_append] at hlen
  omega

theorem AttributeBytes.value_length_le {body : Bytes} {as : List Attribute}
    (h : AttributeBytes body as) : ∀ a ∈ as, a.value.length ≤ 65535 := by
  induction h with
  | nil => simp
  | cons hlen hpad hrest ih => exact List.forall_mem_cons.2 ⟨hlen, ih⟩

/-- A body of attributes does not end in one that is cut off: the loop reads it in one way. -/
theorem AttributeBytes.not_endsCut {body : Bytes} {as as' : List Attribute}
    (h : AttributeBytes body as) : ¬ EndsCut body as' := by
  intro hcut
  have hread := Message.parse_of_attributeBytes (Or.inl h) [] [] []
  rw [Message.parse_of_attributeBytes (Or.inr hcut)] at hread
  obtain rfl : as' = as := by simpa using hread
  exact hcut.not_attributeBytes h

/-- Every attribute of a parsed message has a value of 16-bit length. -/
theorem Message.value_length_le_of_parse {data : Bytes} {m : Message}
    (h : Message.parse data = .ok (some m)) : ∀ a ∈ m.attributes, a.value.length ≤ 65535 := by
  obtain ⟨header, as⟩ := m
  obtain ⟨-, -, -, hbytes | ⟨whole, tail, -, hbytes, -⟩⟩ := Message.parse_eq_some_iff.1 h
  · exact hbytes.value_length_le
  · exact hbytes.value_length_le

/-- **Exact parsing.** Behind the cookie, `Message::parse` accepts exactly the well-formed messages
    and returns all their attributes, except that it also accepts a message whose body ends in an
    attribute that is cut off, without that attribute, and one with the top bits of the type word
    set. -/
theorem parse_exact_iff (data : Bytes) (hcookie : CarriesCookie data) :
    (((∃ m, Message.parse data = .ok (some m)) ↔ ∃ as, WellFormed data as) ∧
      ∀ m as, Message.parse data = .ok (some m) → WellFormed data as → m.attributes = as) ↔
    (20 ≤ data.length → (methodOfU16 (typeWordMethod (wordAt data 0))).isSome →
      20 + (wordAt data 2).toNat ≤ data.length →
        (∀ as, ¬ EndsCut (bodyOf data) as) ∧
        (2 ^ 14 ≤ (wordAt data 0).toNat → ∀ as, ¬ AttributeBytes (bodyOf data) as)) := by
  have hwell : ∀ as, WellFormed data as →
      ∃ header, Message.parse data = .ok (some ⟨header, as⟩) := by
    intro as h
    obtain ⟨header, hheader⟩ :=
      (MessageHeader.exists_parse_iff h.header_fits hcookie).2 h.method_known
    exact ⟨header, Message.parse_eq_some_iff.2
      ⟨h.header_fits, hheader, h.body_fits, Or.inl h.body⟩⟩
  have hunique : ∀ m as, Message.parse data = .ok (some m) → WellFormed data as →
      m.attributes = as := by
    intro m as hm h
    obtain ⟨header, hheader⟩ := hwell as h
    rw [hheader] at hm
    cases hm
    rfl
  constructor
  · rintro ⟨hiff, -⟩ h20 hknown hfits
    obtain ⟨header, hheader⟩ := (MessageHeader.exists_parse_iff h20 hcookie).2 hknown
    have hsound : ∀ as, AttributeBytes (bodyOf data) as ∨ EndsCut (bodyOf data) as →
        WellFormed data as := by
      intro as h
      have hparse : Message.parse data = .ok (some ⟨header, as⟩) :=
        Message.parse_eq_some_iff.2 ⟨h20, hheader, hfits, h⟩
      obtain ⟨as', h'⟩ := hiff.1 ⟨_, hparse⟩
      obtain rfl : as = as' := hunique _ _ hparse h'
      exact h'
    exact ⟨fun as h => h.not_attributeBytes (hsound as (Or.inr h)).body,
      fun htop as h => absurd (hsound as (Or.inl h)).top_bits (not_lt.2 htop)⟩
  · intro hexact
    refine ⟨⟨?_, fun ⟨as, h⟩ => (hwell as h).elim fun _ hm => ⟨_, hm⟩⟩, hunique⟩
    rintro ⟨⟨header, as⟩, hm⟩
    obtain ⟨h20, hheader, hfits, hbody⟩ := Message.parse_eq_some_iff.1 hm
    have hknown := (MessageHeader.exists_parse_iff h20 hcookie).1 ⟨header, hheader⟩
    obtain ⟨hcut, htop⟩ := hexact h20 hknown hfits
    have hbytes : AttributeBytes (bodyOf data) as := hbody.resolve_right (hcut as)
    exact ⟨as, h20, not_le.1 (fun h => htop h as hbytes), hknown, hfits, hbytes⟩

/-- A Refresh request whose body is one LIFETIME attribute, with a stray byte behind the message. -/
def sampleRefreshBytes : Bytes :=
  [0, 4, 0, 8, 0x21, 0x12, 0xA4, 0x42] ++ List.replicate 12 5 ++ [0, 0x0D, 0, 4, 0, 0, 2, 0x58, 9]

theorem parse_exact_refresh :
    CarriesCookie sampleRefreshBytes ∧
      ((∃ m, Message.parse sampleRefreshBytes = .ok (some m)) ↔
        ∃ as, WellFormed sampleRefreshBytes as) ∧
      ∀ m as, Message.parse sampleRefreshBytes = .ok (some m) →
        WellFormed sampleRefreshBytes as → m.attributes = as := by
  have hbody : AttributeBytes (bodyOf sampleRefreshBytes)
      [⟨Attribute.lifetime, [0, 0, 2, 0x58]⟩] :=
    @AttributeBytes.cons ⟨Attribute.lifetime, [0, 0, 2, 0x58]⟩ [] [] [] (by decide) rfl .nil
  exact ⟨by decide, (parse_exact_iff sampleRefreshBytes (by decide)).2 fun _ _ _ =>
    ⟨fun _ => hbody.not_endsCut, fun htop => absurd htop (by decide)⟩⟩

/-- Accepted without being well-formed: a Refresh request whose LIFETIME declares eight bytes where
    four are left, which is read as a request without attributes, and a request with the type word
    `0x8004`. -/
theorem parse_exact_fails :
    (∃ data, CarriesCookie data ∧
      (∃ header, Message.parse data = .ok (some ⟨header, []⟩)) ∧
      bodyOf data = [0, 0x0D, 0, 8, 0, 0, 0, 0] ∧ ∀ as, ¬ WellFormed data as) ∧
    (∃ data, CarriesCookie data ∧ wordAt data 0 = 0x8004 ∧
      (∃ header, Message.parse data = .ok (some ⟨header, []⟩)) ∧ ∀ as, ¬ WellFormed data as) := by
  constructor
  · refine ⟨[0, 4, 0, 8, 0x21, 0x12, 0xA4, 0x42] ++ List.replicate 12 5
      ++ [0, 0x0D, 0, 8, 0, 0, 0, 0], by decide, ?_, rfl, fun as h => ?_⟩
    · exact ⟨⟨.refresh, .request, 8, magicCookie, ⟨List.replicate 12 5, rfl⟩⟩,
        Message.parse_eq_some_iff.2 ⟨by decide, rfl, by decide,
          Or.inr ⟨[], _, rfl, .nil, by unfold CutAttribute; decide⟩⟩⟩
    · exact h.body.not_endsCut ⟨[], _, rfl, .nil, by unfold CutAttribute; decide⟩
  · refine ⟨[0x80, 4, 0, 0, 0x21, 0x12, 0xA4, 0x42] ++ List.replicate 12 5, by decide, rfl, ?_,
      fun as h => absurd h.top_bits (by decide)⟩
    exact ⟨⟨.refresh, .request, 0, magicCookie, ⟨List.replicate 12 5, rfl⟩⟩,
      Message.parse_eq_some_iff.2 ⟨by decide, rfl, by decide, Or.inl .nil⟩⟩

end Miuturn
