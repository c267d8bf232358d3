import Miuturn.RustStd.Basic

set_option autoImplicit false

/-! # Strings and their bytes

A Rust `String` is a Lean `String`: both are sequences of Unicode scalar values stored as UTF-8.
`strBytes` is `str::as_bytes`, and `fromUtf8Lossy` is `String::from_utf8_lossy`: a well-formed
sequence decodes to its character and every maximal ill-formed part becomes one U+FFFD.

The one fact the development needs is that decoding undoes encoding
(`fromUtf8Lossy_strBytes`). -/

namespace RustStd

/-- `str::as_bytes`. -/
def strBytes (s : String) : Bytes := s.toByteArray.data.toList

/-- Is `b` a continuation byte (`b & 0xC0 == 0x80`)? -/
def isContinuation (b : UInt8) : Bool := 0x80 ≤ b && b ≤ 0xBF

/-- How many bytes at the front of an ill-formed sequence make up one ill-formed part: the lead byte
    and as many of its continuation bytes as could still have started a character. -/
def invalidLen : Bytes → ℕ
  | [] => 0
  | lead :: rest =>
    let second := rest[0]?.getD 0
    let third := rest[1]?.getD 0
    if 0xE0 ≤ lead && lead ≤ 0xEF then
      let low : UInt8 := if lead == 0xE0 then 0xA0 else 0x80
      let high : UInt8 := if lead == 0xED then 0x9F else 0xBF
      if low ≤ second && second ≤ high then 2 else 1
    else if 0xF0 ≤ lead && lead ≤ 0xF4 then
      let low : UInt8 := if lead == 0xF0 then 0x90 else 0x80
      let high : UInt8 := if lead == 0xF4 then 0x8F else 0xBF
      if low ≤ second && second ≤ high then
        if isContinuation third then 3 else 2
      else 1
    else 1

/-- The characters of a byte string, one round a character or ill-formed part. Every round consumes
    at least one byte, so `data.length` rounds are enough. -/
def lossyChars : ℕ → Bytes → List Char
  | 0, _ => []
  | _, [] => []
  | fuel + 1, data@(_ :: _) =>
    match data.toByteArray.utf8DecodeChar? 0 with
    | some c => c :: lossyChars fuel (data.drop c.utf8Size)
    | none => Char.ofNat 0xFFFD :: lossyChars fuel (data.drop (invalidLen data))

/-- `String::from_utf8_lossy`. -/
def fromUtf8Lossy (data : Bytes) : String := String.ofList (lossyChars data.length data)

theorem strBytes_eq_flatMap (s : String) : strBytes s = s.toList.flatMap String.utf8EncodeChar := by
  rw [strBytes, ← String.utf8Encode_toList, List.utf8Encode, List.toList_data_toByteArray]

/-- Decoding the encoded characters `cs`, with fuel for every byte, gives `cs` back. -/
theorem lossyChars_encode (cs : List Char) :
    ∀ fuel, (cs.flatMap String.utf8EncodeChar).length ≤ fuel →
      lossyChars fuel (cs.flatMap String.utf8EncodeChar) = cs := by
  induction cs with
  | nil => intro fuel _; cases fuel <;> rfl
  | cons c cs ih =>
      intro fuel hfuel
      have hlen : (String.utf8EncodeChar c).length = c.utf8Size := String.length_utf8EncodeChar c
      have hpos := c.utf8Size_pos
      rw [List.flatMap_cons, List.length_append, hlen] at hfuel
      obtain ⟨fuel, rfl⟩ : ∃ k, fuel = k + 1 := ⟨fuel - 1, by omega⟩
      obtain ⟨b, rest, hcons⟩ : ∃ b rest, String.utf8EncodeChar c = b :: rest :=
        List.exists_cons_of_length_pos (by omega)
      have hdecode : ((c :: cs).flatMap String.utf8EncodeChar).toByteArray.utf8DecodeChar? 0
          = some c := by
        rw [List.flatMap_cons, List.toByteArray_append]
        exact ByteArray.utf8DecodeChar?_utf8EncodeChar_append
      have hdrop : ((c :: cs).flatMap String.utf8EncodeChar).drop c.utf8Size
          = cs.flatMap String.utf8EncodeChar := by
        rw [List.flatMap_cons, ← hlen, List.drop_left]
      have hshape : (c :: cs).flatMap String.utf8EncodeChar
          = b :: (rest ++ cs.flatMap String.utf8EncodeChar) := by
        rw [List.flatMap_cons, hcons, List.cons_append]
      rw [hshape] at hdecode hdrop ⊢
      rw [lossyChars]
      simp only [hdecode, hdrop]
      rw [ih fuel (by omega)]

/-- `String::from_utf8_lossy(s.as_bytes())` is `s`. -/
@[simp] theorem fromUtf8Lossy_strBytes (s : String) : fromUtf8Lossy (strBytes s) = s := by
  rw [fromUtf8Lossy, strBytes_eq_flatMap, lossyChars_encode _ _ le_rfl, String.ofList_toList]

/-- How the encoding of a character and more begins: the character is decoded off its front, and
    what is left is the encoding of the rest. -/
theorem encodeChar_front (c : Char) (cs : List Char) :
    ∃ b rest, (c :: cs).flatMap String.utf8EncodeChar = b :: rest ∧
      ((c :: cs).flatMap String.utf8EncodeChar).toByteArray.utf8DecodeChar? 0 = some c ∧
      ((c :: cs).flatMap String.utf8EncodeChar).drop c.utf8Size
        = cs.flatMap String.utf8EncodeChar ∧
      ((c :: cs).flatMap String.utf8EncodeChar).length
        = c.utf8Size + (cs.flatMap String.utf8EncodeChar).length := by
  have hlen : (String.utf8EncodeChar c).length = c.utf8Size := String.length_utf8EncodeChar c
  obtain ⟨b, rest, hcons⟩ : ∃ b rest, String.utf8EncodeChar c = b :: rest :=
    List.exists_cons_of_length_pos (by rw [hlen]; exact c.utf8Size_pos)
  refine ⟨b, rest ++ cs.flatMap String.utf8EncodeChar, ?_, ?_, ?_, ?_⟩
  · rw [List.flatMap_cons, hcons, List.cons_append]
  · rw [List.flatMap_cons, List.toByteArray_append]
    exact ByteArray.utf8DecodeChar?_utf8EncodeChar_append
  · rw [List.flatMap_cons, ← hlen, List.drop_left]
  · rw [List.flatMap_cons, List.length_append, hlen]

/-- The bytes `C3` and `E2 82` are ill-formed parts; what follows each of them is kept. -/
example : fromUtf8Lossy [0x61, 0xC3, 0x62, 0xE2, 0x82, 0x63] = "a�b�c" := by decide

/-- `String::from_utf8`: the text that the bytes are, if they are one. -/
def fromUtf8 (data : Bytes) : Option String :=
  if strBytes (fromUtf8Lossy data) = data then some (fromUtf8Lossy data) else none

theorem fromUtf8_eq_some {data : Bytes} {s : String} :
    fromUtf8 data = some s ↔ data = strBytes s := by
  unfold fromUtf8
  constructor
  · intro h
    split at h
    · next hdata =>
        obtain rfl := Option.some.inj h
        exact hdata.symm
    · exact absurd h (by simp)
  · rintro rfl
    simp

/-! ## Numbers in text -/

/-- `s.parse::<uN>()` for an unsigned type with the largest value `max`: an optional plus sign and
    decimal digits, with no overflow. -/
def parseUnsigned (max : ℕ) (s : List Char) : Option ℕ :=
  let digits := match s with
    | '+' :: rest => rest
    | _ => s
  if digits.isEmpty || !digits.all Char.isDigit then none
  else
    let n := Nat.ofDigitChars 10 digits 0
    if n ≤ max then some n else none

end RustStd
