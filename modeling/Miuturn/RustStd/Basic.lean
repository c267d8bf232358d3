import Mathlib.Data.List.Basic
import Mathlib.Data.Nat.Bitwise
import Mathlib.Tactic.SplitIfs

set_option autoImplicit false

/-! # Panics, byte buffers and big-endian words

The part of Rust's standard library that byte-level code rests on, as a small library of its own.

A computation that may panic is a value of `Rust α`: `.ok a` when it returns `a`, `.error f` when it
faults. Indexing and slicing are the only primitive sources of faults, so that a function built from
them faults exactly where the Rust function does, and "never panics" is the statement that its value
is some `.ok a`. -/

namespace RustStd

/-- A byte string (`&[u8]`, `Vec<u8>`, `Bytes`). -/
abbrev Bytes := List UInt8

/-- `[u8; n]`. -/
abbrev Octets (n : ℕ) := { l : Bytes // l.length = n }

/-! ## Faults -/

/-- The ways in which a function can fail to return. -/
inductive Fault where
  /-- `xs[i]` with `i ≥ xs.len()`. -/
  | indexOutOfRange
  /-- `xs[a..b]` with `a > b` or `b > xs.len()`. -/
  | sliceOutOfRange
  /-- `copy_from_slice` between slices of different lengths. -/
  | lengthMismatch
  /-- A `Buf::get_*` call on a buffer that holds too few bytes. -/
  | bufferUnderflow
  /-- Integer arithmetic that leaves its type. -/
  | arithmeticOverflow
  /-- `x / 0` or `x % 0`. -/
  | divisionByZero
  deriving DecidableEq, Repr

/-- A computation that may panic. -/
abbrev Rust := Except Fault

variable {α β : Type}

theorem Rust.bind_eq_ok {x : Rust α} {f : α → Rust β} {b : β} :
    x >>= f = .ok b ↔ ∃ a, x = .ok a ∧ f a = .ok b := by
  cases x with
  | error e => simp [bind, Except.bind]
  | ok a => simp [bind, Except.bind]

@[simp] theorem Rust.ok_bind (a : α) (f : α → Rust β) : (Except.ok a : Rust α) >>= f = f a := rfl

@[simp] theorem Rust.error_bind (e : Fault) (f : α → Rust β) :
    (Except.error e : Rust α) >>= f = .error e := rfl

@[simp] theorem Rust.pure_eq_ok (a : α) : (pure a : Rust α) = .ok a := rfl

/-! ## Arithmetic on machine integers -/

/-- How the program was built: a debug build panics where arithmetic leaves its type, a release
    build wraps around. -/
inductive Build where
  | debug
  | release
  deriving DecidableEq, Repr

namespace Build

/-- The value of an operation whose result leaves the type, given the result wrapped around. -/
def overflow (build : Build) (wrapped : α) : Rust α :=
  match build with
  | .debug => .error .arithmeticOverflow
  | .release => .ok wrapped

/-- `x - y` on `u16`. -/
def sub16 (build : Build) (x y : UInt16) : Rust UInt16 :=
  if y.toNat ≤ x.toNat then .ok (x - y) else build.overflow (x - y)

/-- `x + y` on `u16`. -/
def add16 (build : Build) (x y : UInt16) : Rust UInt16 :=
  if x.toNat + y.toNat < 65536 then .ok (x + y) else build.overflow (x + y)

/-- `x + y` on `u64`. -/
def add64 (build : Build) (x y : ℕ) : Rust ℕ :=
  if x + y < 2 ^ 64 then .ok (x + y) else build.overflow ((x + y) % 2 ^ 64)

/-- `x * y` on `u64`. -/
def mul64 (build : Build) (x y : ℕ) : Rust ℕ :=
  if x * y < 2 ^ 64 then .ok (x * y) else build.overflow (x * y % 2 ^ 64)

/-- `x - y` on `usize`, for a `y` that was itself computed wrapping around and is given by any
    number it stands for. -/
def subUsize (build : Build) (x : ℕ) (y : ℤ) : Rust ℕ :=
  let y := (y % 2 ^ 64).toNat
  if y ≤ x then .ok (x - y) else build.overflow (x + 2 ^ 64 - y)

theorem sub16_of_le (build : Build) {x y : UInt16} (h : y.toNat ≤ x.toNat) :
    build.sub16 x y = .ok (x - y) := if_pos h

theorem add16_of_lt (build : Build) {x y : UInt16} (h : x.toNat + y.toNat < 65536) :
    build.add16 x y = .ok (x + y) := if_pos h

theorem exists_subUsize (build : Build) {x : ℕ} {y : ℤ} (hx : x < 2 ^ 64) (hy : 0 ≤ y)
    (h : y ≤ x) : ∃ d, build.subUsize x y = .ok d := by
  refine ⟨_, if_pos ?_⟩
  rw [Int.emod_eq_of_lt hy (by omega)]
  omega

end Build

/-! ## Indexing and slicing -/

/-- `data[i]`. -/
def byteAt (data : Bytes) (i : ℕ) : Rust UInt8 :=
  match data[i]? with
  | some b => .ok b
  | none => .error .indexOutOfRange

/-- `data[a..b]`. -/
def slice (data : Bytes) (a b : ℕ) : Rust Bytes :=
  if a ≤ b ∧ b ≤ data.length then .ok ((data.drop a).take (b - a))
  else .error .sliceOutOfRange

/-- `let mut out = [0u8; n]; out.copy_from_slice(src)`. -/
def copyFromSlice (n : ℕ) (src : Bytes) : Rust (Octets n) :=
  if h : src.length = n then .ok ⟨src, h⟩ else .error .lengthMismatch

@[simp] theorem byteAt_zero (b : UInt8) (data : Bytes) : byteAt (b :: data) 0 = .ok b := rfl

@[simp] theorem byteAt_succ (b : UInt8) (data : Bytes) (i : ℕ) :
    byteAt (b :: data) (i + 1) = byteAt data i := rfl

theorem byteAt_eq_ok_iff {data : Bytes} {i : ℕ} {b : UInt8} :
    byteAt data i = .ok b ↔ data[i]? = some b := by
  unfold byteAt
  cases data[i]? <;> simp

/-- An index inside the buffer reads. -/
theorem exists_byteAt {data : Bytes} {i : ℕ} (h : i < data.length) :
    ∃ b, byteAt data i = .ok b :=
  ⟨data[i], byteAt_eq_ok_iff.2 (List.getElem?_eq_getElem h)⟩

theorem slice_eq_ok {data : Bytes} {a b : ℕ} (hab : a ≤ b) (hb : b ≤ data.length) :
    slice data a b = .ok ((data.drop a).take (b - a)) :=
  if_pos ⟨hab, hb⟩

/-- The slice between two known parts of a buffer is the part in the middle. -/
theorem slice_append (pre mid post : Bytes) :
    slice (pre ++ mid ++ post) pre.length (pre.length + mid.length) = .ok mid := by
  rw [slice_eq_ok (by omega) (by simp only [List.length_append]; omega), List.append_assoc,
    List.drop_left, Nat.add_sub_cancel_left, List.take_left]

theorem exists_copyFromSlice {n : ℕ} {src : Bytes} (h : src.length = n) :
    ∃ out, copyFromSlice n src = .ok out ∧ out.val = src :=
  ⟨⟨src, h⟩, dif_pos h, rfl⟩

/-! ## Big-endian words -/

/-- `u16::from_be_bytes([hi, lo])`. -/
def fromBeBytes16 (hi lo : UInt8) : UInt16 := UInt16.ofNat (hi.toNat * 256 + lo.toNat)

/-- `u32::from_be_bytes([a, b, c, d])`. -/
def fromBeBytes32 (a b c d : UInt8) : UInt32 :=
  UInt32.ofNat (((a.toNat * 256 + b.toNat) * 256 + c.toNat) * 256 + d.toNat)

/-- `BufMut::put_u16`: big-endian. -/
def putU16 (x : UInt16) : Bytes := [UInt8.ofNat (x.toNat / 256), UInt8.ofNat x.toNat]

/-- `BufMut::put_u32`, also `u32::to_be_bytes`. -/
def putU32 (x : UInt32) : Bytes :=
  [UInt8.ofNat (x.toNat / 2 ^ 24), UInt8.ofNat (x.toNat / 2 ^ 16), UInt8.ofNat (x.toNat / 2 ^ 8),
    UInt8.ofNat x.toNat]

@[simp] theorem putU16_length (x : UInt16) : (putU16 x).length = 2 := rfl

@[simp] theorem putU32_length (x : UInt32) : (putU32 x).length = 4 := rfl

theorem fromBeBytes16_toNat (hi lo : UInt8) :
    (fromBeBytes16 hi lo).toNat = hi.toNat * 256 + lo.toNat := by
  have hhi := hi.toNat_lt
  have hlo := lo.toNat_lt
  simp only [fromBeBytes16, UInt16.toNat_ofNat']
  omega

/-- Reading back the two bytes `putU16` writes. -/
theorem fromBeBytes16_put (x : UInt16) :
    fromBeBytes16 (UInt8.ofNat (x.toNat / 256)) (UInt8.ofNat x.toNat) = x := by
  have hx := x.toNat_lt
  apply UInt16.toNat_inj.1
  simp only [fromBeBytes16_toNat, UInt8.toNat_ofNat']
  omega

/-- Writing back two bytes that were read. -/
theorem putU16_fromBeBytes16 (hi lo : UInt8) : putU16 (fromBeBytes16 hi lo) = [hi, lo] := by
  have hhi := hi.toNat_lt
  have hlo := lo.toNat_lt
  have hfirst : UInt8.ofNat ((fromBeBytes16 hi lo).toNat / 256) = hi := by
    apply UInt8.toNat_inj.1
    simp only [fromBeBytes16_toNat, UInt8.toNat_ofNat']
    omega
  have hsecond : UInt8.ofNat (fromBeBytes16 hi lo).toNat = lo := by
    apply UInt8.toNat_inj.1
    simp only [fromBeBytes16_toNat, UInt8.toNat_ofNat']
    omega
  rw [putU16, hfirst, hsecond]

theorem fromBeBytes32_toNat (a b c d : UInt8) :
    (fromBeBytes32 a b c d).toNat
      = ((a.toNat * 256 + b.toNat) * 256 + c.toNat) * 256 + d.toNat := by
  have ha := a.toNat_lt
  have hb := b.toNat_lt
  have hc := c.toNat_lt
  have hd := d.toNat_lt
  simp only [fromBeBytes32, UInt32.toNat_ofNat']
  omega

/-- Writing back four bytes that were read. -/
theorem putU32_fromBeBytes32 (a b c d : UInt8) : putU32 (fromBeBytes32 a b c d) = [a, b, c, d] := by
  have ha := a.toNat_lt
  have hb := b.toNat_lt
  have hc := c.toNat_lt
  have hd := d.toNat_lt
  unfold putU32
  simp only [fromBeBytes32_toNat, List.cons.injEq, ← UInt8.toNat_inj, UInt8.toNat_ofNat', and_true]
  omega

/-- Reading back the four bytes `putU32` writes. -/
theorem fromBeBytes32_put (x : UInt32) :
    fromBeBytes32 (UInt8.ofNat (x.toNat / 2 ^ 24)) (UInt8.ofNat (x.toNat / 2 ^ 16))
      (UInt8.ofNat (x.toNat / 2 ^ 8)) (UInt8.ofNat x.toNat) = x := by
  have hx := x.toNat_lt
  apply UInt32.toNat_inj.1
  simp only [fromBeBytes32_toNat, UInt8.toNat_ofNat']
  omega

/-- The bytes of an exclusive or are the exclusive ors of the bytes. -/
theorem putU32_xor (x y : UInt32) :
    putU32 (x ^^^ y) = List.zipWith (· ^^^ ·) (putU32 x) (putU32 y) := by
  have hbyte : ∀ k, UInt8.ofNat ((x.toNat ^^^ y.toNat) / 2 ^ k)
      = UInt8.ofNat (x.toNat / 2 ^ k) ^^^ UInt8.ofNat (y.toNat / 2 ^ k) := by
    intro k
    apply UInt8.toNat_inj.1
    simp only [UInt8.toNat_ofNat', UInt8.toNat_xor, ← Nat.shiftRight_eq_div_pow,
      Nat.shiftRight_xor_distrib, Nat.xor_mod_two_pow]
  have hlast := hbyte 0
  simp only [pow_zero, Nat.div_one] at hlast
  simp only [putU32, UInt32.toNat_xor, hbyte, hlast, List.zipWith_cons_cons, List.zipWith_nil_left]

/-- The two bytes, spelled `(x >> 8) as u8` and `(x & 0xFF) as u8`. -/
theorem putU16_eq_shift (x : UInt16) : putU16 x = [(x >>> 8).toUInt8, (x &&& 0xFF).toUInt8] := by
  have hhi : (x >>> 8).toUInt8 = UInt8.ofNat (x.toNat / 256) := by
    apply UInt8.toNat_inj.1
    simp [Nat.shiftRight_eq_div_pow]
  have hlo : (x &&& 0xFF).toUInt8 = UInt8.ofNat x.toNat := by
    apply UInt8.toNat_inj.1
    have hmask : x.toNat % 256 &&& 255 = x.toNat % 256 % 2 ^ 8 :=
      Nat.and_two_pow_sub_one_eq_mod _ 8
    simp [hmask]
  rw [hhi, hlo]
  rfl

/-- `(hi as u16) << 8 | (lo as u16)`, the spelling of `from_be_bytes` by shifts. -/
def shiftOr16 (hi lo : UInt8) : UInt16 := (hi.toUInt16 <<< 8) ||| lo.toUInt16

theorem shiftOr16_eq (hi lo : UInt8) : shiftOr16 hi lo = fromBeBytes16 hi lo := by
  have hlo := lo.toNat_lt
  have hhi := hi.toNat_lt
  apply UInt16.toNat_inj.1
  rw [fromBeBytes16_toNat]
  have hor := Nat.two_pow_add_eq_or_of_lt hlo hi.toNat
  simp only [shiftOr16, UInt16.toNat_or, UInt16.toNat_shiftLeft, UInt8.toNat_toUInt16]
  have hshift : hi.toNat <<< ((8 : UInt16).toNat % 16) % 2 ^ 16 = 2 ^ 8 * hi.toNat := by
    rw [Nat.shiftLeft_eq]
    have h8 : (8 : UInt16).toNat % 16 = 8 := rfl
    rw [h8]
    omega
  rw [hshift, ← hor]
  omega

/-- `u16::from_be_bytes([data[i], data[i + 1]])`. -/
def u16At (data : Bytes) (i : ℕ) : Rust UInt16 := do
  let hi ← byteAt data i
  let lo ← byteAt data (i + 1)
  pure (fromBeBytes16 hi lo)

theorem exists_u16At {data : Bytes} {i : ℕ} (h : i + 1 < data.length) :
    ∃ x, u16At data i = .ok x := by
  obtain ⟨hi, hhi⟩ := exists_byteAt (show i < data.length by omega)
  obtain ⟨lo, hlo⟩ := exists_byteAt h
  exact ⟨fromBeBytes16 hi lo, by simp [u16At, hhi, hlo]⟩

/-- The word between two known parts of a buffer. -/
theorem u16At_append (pre : Bytes) (x : UInt16) (post : Bytes) :
    u16At (pre ++ (putU16 x ++ post)) pre.length = .ok x := by
  induction pre with
  | nil =>
      show Except.ok (fromBeBytes16 _ _) = _
      rw [fromBeBytes16_put]
  | cons b pre ih => exact ih

/-- A length that fits is written without loss. -/
theorem toNat_ofNat_of_le_65535 {n : ℕ} (h : n ≤ 65535) : (UInt16.ofNat n).toNat = n :=
  UInt16.toNat_ofNat_of_lt' (Nat.lt_succ_of_le h)

/-! ## Clock readings

`Instant` and `Duration` are natural numbers of nanoseconds; `Instant::elapsed` and
`Instant::duration_since` saturate at zero, which is subtraction on `ℕ`. -/

/-- Nanoseconds in a second. -/
def nanosPerSec : ℕ := 1000000000

/-- `Duration::from_secs`. -/
def fromSecs (secs : ℕ) : ℕ := secs * nanosPerSec

/-- `Duration::as_secs`: whole seconds, rounded down. -/
def asSecs (d : ℕ) : ℕ := d / nanosPerSec

/-- `Duration::subsec_nanos`: what is left of the last second. -/
def subsecNanos (d : ℕ) : ℕ := d % nanosPerSec

/-- Less than a number of seconds after a reading, fewer whole seconds have passed. -/
theorem asSecs_sub_lt {now t secs : ℕ} (hsecs : 0 < secs) (h : now < t + fromSecs secs) :
    asSecs (now - t) < secs := by
  unfold asSecs
  unfold fromSecs at h
  have hpos : 0 < secs * nanosPerSec := Nat.mul_pos hsecs (by decide)
  exact (Nat.div_lt_iff_lt_mul (by decide)).2 (by omega)

end RustStd
