import Miuturn.RustStd.Basic
import Miuturn.RustStd.Bitmap

set_option autoImplicit false

/-! # The relay port allocator (`PortAllocator` in `allocation.rs`)

Ports of a range are kept in a bitmap of 64-bit words: bit `k` stands for the port `min_port + k`.
`allocate` starts at a random word, tries one random bit of it and then its lowest free bits, and
goes on to the next word. This file has the range, the two ways of choosing a bit, and the calls as
they run without other callers; `ConcurrentPorts.lean` interleaves the atomic steps of many calls
and shares the choice of bits with this file.

A weak compare-exchange may fail although the word is as expected. The failures of one call are a
parameter, `PortChoice.spurious`, as are its two random numbers. -/

open RustStd

namespace Miuturn

/-- The bounds of a port range, with the 16-bit size that `PortAllocator::new` computes from
    them. -/
structure PortRange where
  minPort : UInt16
  maxPort : UInt16
  portCount : UInt16
  size : minPort.toNat + portCount.toNat = maxPort.toNat + 1
  nonempty : 0 < portCount.toNat
  deriving DecidableEq

namespace PortRange

variable (r : PortRange)

/-- `(port_count as usize).div_ceil(64)`. -/
def numWords : ℕ := (r.portCount.toNat + 63) / 64

theorem numWords_pos : 0 < r.numWords := by
  have h := r.nonempty
  unfold numWords
  omega

theorem numWords_le : 64 * r.numWords ≤ 65536 := by
  have h := r.portCount.toNat_lt
  unfold numWords
  omega

/-- `(actual_idx * 64 + bit) as u16`. -/
def portIndex (idx bit : ℕ) : UInt16 := UInt16.ofNat (idx * 64 + bit)

theorem portIndex_toNat {idx bit : ℕ} (hidx : idx < r.numWords) (hbit : bit < 64) :
    (portIndex idx bit).toNat = idx * 64 + bit := by
  have h := r.numWords_le
  exact toNat_ofNat_of_le_65535 (by omega)

/-- The word visited in round `bitmapIdx` of the loop of `allocate`. -/
def actualIdx (startIdx bitmapIdx : ℕ) : ℕ := (startIdx + bitmapIdx) % r.numWords

theorem actualIdx_lt (startIdx bitmapIdx : ℕ) : r.actualIdx startIdx bitmapIdx < r.numWords :=
  Nat.mod_lt _ r.numWords_pos

/-- `(bit_offset + bitmap_idx as u32) % 64`. -/
def randomBit (bitOffset bitmapIdx : ℕ) : ℕ := (bitOffset + bitmapIdx) % 64

/-- The first try in a word: the random bit, if it is free in the value read and inside the
    range. -/
def randomProbe (idx : ℕ) (current : Word) (randomBit : ℕ) : Option ℕ :=
  let freeMask := ~~~current
  if freeMask &&& BitVec.twoPow 64 randomBit ≠ 0#64 then
    if (portIndex idx randomBit).toNat < r.portCount.toNat then some randomBit else none
  else none

/-- The later tries: the lowest free bit of the value read, unless the word is full or that bit is
    already outside the range. -/
def lowestFree (idx : ℕ) (current : Word) : Option ℕ :=
  let freeMask := ~~~current
  if freeMask = 0#64 then none
  else
    let freeBit := Word.trailingZeros freeMask
    if r.portCount.toNat ≤ (portIndex idx freeBit).toNat then none else some freeBit

/-- What either try guarantees of the bit it chooses. -/
structure Takeable (idx : ℕ) (current : Word) (bit : ℕ) : Prop where
  lt : bit < 64
  free : current.getLsbD bit = false
  inRange : idx * 64 + bit < r.portCount.toNat

variable {r}

theorem takeable_of_randomProbe {idx randomBit bit : ℕ} {current : Word} (hidx : idx < r.numWords)
    (hlt : randomBit < 64) (h : r.randomProbe idx current randomBit = some bit) :
    r.Takeable idx current bit := by
  dsimp only [randomProbe] at h
  split at h
  · next hfree =>
      split at h
      · next hrange =>
          obtain rfl := Option.some.inj h
          rw [r.portIndex_toNat hidx hlt] at hrange
          have hbit : (~~~current).getLsbD randomBit = true := by
            rw [ne_eq, Word.and_twoPow_eq_zero hlt] at hfree
            simpa using hfree
          rw [BitVec.getLsbD_not] at hbit
          exact ⟨hlt, by simpa [hlt] using hbit, hrange⟩
      · exact absurd h (by simp)
  · exact absurd h (by simp)

theorem takeable_of_lowestFree {idx bit : ℕ} {current : Word} (hidx : idx < r.numWords)
    (h : r.lowestFree idx current = some bit) : r.Takeable idx current bit := by
  dsimp only [lowestFree] at h
  split at h
  · exact absurd h (by simp)
  · next hfull =>
      have hlt := Word.trailingZeros_lt hfull
      have hfree := Word.getLsbD_trailingZeros_not hfull
      split at h
      · exact absurd h (by simp)
      · next hrange =>
          obtain rfl := Option.some.inj h
          rw [r.portIndex_toNat hidx hlt] at hrange
          exact ⟨hlt, hfree, by omega⟩

/-- The port that stands for a chosen bit lies in the range. -/
theorem toNat_minPort_add {k : ℕ} (hk : k < r.portCount.toNat) {i : UInt16} (hi : i.toNat = k) :
    (r.minPort + i).toNat = r.minPort.toNat + k := by
  have hsize := r.size
  have hmax := r.maxPort.toNat_lt
  rw [UInt16.toNat_add, hi]
  omega

end PortRange

structure PortAllocator extends PortRange where
  allocated : Bitmap
  allocatedCount : ℤ
  words : allocated.length = toPortRange.numWords
  deriving DecidableEq

namespace PortAllocator

/-- `PortAllocator::new`, with the arithmetic on `u16` checked: a range that is inverted or holds
    all 65536 ports is a fault. -/
def new (minPort maxPort : UInt16) : Rust PortAllocator :=
  if h : minPort.toNat ≤ maxPort.toNat ∧ maxPort.toNat - minPort.toNat + 1 < 65536 then
    let range : PortRange :=
      { minPort, maxPort, portCount := UInt16.ofNat (maxPort.toNat - minPort.toNat + 1),
        size := by rw [toNat_ofNat_of_le_65535 (by omega)]; omega,
        nonempty := by rw [toNat_ofNat_of_le_65535 (by omega)]; omega }
    .ok { range with
      allocated := List.replicate range.numWords 0#64, allocatedCount := 0,
      words := List.length_replicate .. }
  else .error .arithmeticOverflow

theorem new_eq_ok {minPort maxPort : UInt16} {a : PortAllocator} (h : new minPort maxPort = .ok a) :
    a.minPort = minPort ∧ a.maxPort = maxPort ∧ a.allocated.setBits = ∅ ∧ a.allocatedCount = 0 := by
  unfold new at h
  split at h
  · obtain rfl := Except.ok.inj h
    exact ⟨rfl, rfl, Bitmap.setBits_replicate_zero _, rfl⟩
  · exact absurd h (by simp)

/-! ## One call at a time -/

/-- The random numbers of one `allocate` call, and which of its compare-exchanges fail although the
    word is unchanged (in order; those after the end of the list do not). -/
structure PortChoice where
  startRand : UInt64
  bitRand : UInt64
  spurious : List Bool

/-- The inner loop: try the lowest free bit until an exchange goes through. -/
def takeLowest (r : PortRange) (idx : ℕ) (current : Word) : List Bool → Option ℕ × List Bool
  | [] => (r.lowestFree idx current, [])
  | fails :: spurious =>
    match r.lowestFree idx current with
    | none => (none, fails :: spurious)
    -- a spurious failure hands back the word as it was, so the loop goes on with `current`
    | some bit => if fails then takeLowest r idx current spurious else (some bit, spurious)

/-- One round of the outer loop: the bit of word `idx` it takes, if any. -/
def takeBit (r : PortRange) (idx : ℕ) (current : Word) (randomBit : ℕ) (spurious : List Bool) :
    Option ℕ × List Bool :=
  if current = BitVec.allOnes 64 then (none, spurious)
  else
    match r.randomProbe idx current randomBit, spurious with
    | none, spurious => takeLowest r idx current spurious
    | some bit, [] => (some bit, [])
    | some bit, fails :: spurious =>
      if fails then takeLowest r idx current spurious else (some bit, spurious)

/-- The effect of a successful exchange and the `fetch_add` after it. -/
def mark (a : PortAllocator) (idx bit : ℕ) : PortAllocator :=
  { a with
    allocated := a.allocated.set idx (a.allocated.word idx ||| BitVec.twoPow 64 bit),
    allocatedCount := a.allocatedCount + 1,
    words := by rw [List.length_set, a.words] }

/-- The effect of a successful exchange of `release` and the `fetch_sub` after it. -/
def unmark (a : PortAllocator) (idx bit : ℕ) : PortAllocator :=
  { a with
    allocated := a.allocated.set idx (a.allocated.word idx &&& ~~~BitVec.twoPow 64 bit),
    allocatedCount := a.allocatedCount - 1,
    words := by rw [List.length_set, a.words] }

/-- The outer loop of `allocate`, with `remaining` rounds to go. -/
def scan (a : PortAllocator) (startIdx bitOffset : ℕ) :
    ℕ → ℕ → List Bool → PortAllocator × Option UInt16
  | 0, _, _ => (a, none)
  | remaining + 1, bitmapIdx, spurious =>
    let idx := a.actualIdx startIdx bitmapIdx
    match takeBit a.toPortRange idx (a.allocated.word idx)
        (PortRange.randomBit bitOffset bitmapIdx) spurious with
    | (some bit, _) => (a.mark idx bit, some (a.minPort + PortRange.portIndex idx bit))
    | (none, spurious) => scan a startIdx bitOffset remaining (bitmapIdx + 1) spurious

/-- `PortAllocator::allocate`. -/
def allocate (a : PortAllocator) (choice : PortChoice) : PortAllocator × Option UInt16 :=
  let startIdx := choice.startRand.toNat % a.allocated.length
  let bitOffset := choice.bitRand.toUInt32.toNat % 64
  a.scan startIdx bitOffset a.allocated.length 0 choice.spurious

/-- `PortAllocator::release`. Without other callers its exchange can only fail spuriously, which
    repeats the loop on the same word. -/
def release (a : PortAllocator) (port : UInt16) : PortAllocator × Bool :=
  if port.toNat < a.minPort.toNat ∨ port.toNat > a.maxPort.toNat then (a, false)
  else
    let portIndex := port.toNat - a.minPort.toNat
    let bitmapIndex := portIndex / 64
    let bitIndex := portIndex % 64
    if bitmapIndex ≥ a.allocated.length then (a, false)
    else if a.allocated.word bitmapIndex &&& BitVec.twoPow 64 bitIndex = 0#64 then (a, false)
    else (a.unmark bitmapIndex bitIndex, true)

/-- `PortAllocator::is_allocated`. -/
def isAllocated (a : PortAllocator) (port : UInt16) : Bool :=
  if port.toNat < a.minPort.toNat ∨ port.toNat > a.maxPort.toNat then false
  else
    let portIndex := port.toNat - a.minPort.toNat
    let bitmapIndex := portIndex / 64
    let bitIndex := portIndex % 64
    if bitmapIndex ≥ a.allocated.length then false
    else a.allocated.word bitmapIndex &&& BitVec.twoPow 64 bitIndex != 0#64

/-! ## What the calls do -/

/-- `a'` is `a` with position `k` taken. -/
structure Takes (a a' : PortAllocator) (k : ℕ) : Prop where
  range : a'.toPortRange = a.toPortRange
  free : k ∉ a.allocated.setBits
  inRange : k < a.portCount.toNat
  setBits : a'.allocated.setBits = insert k a.allocated.setBits
  count : a'.allocatedCount = a.allocatedCount + 1

/-- `a'` is `a` with position `k` given back. -/
structure Frees (a a' : PortAllocator) (k : ℕ) : Prop where
  range : a'.toPortRange = a.toPortRange
  taken : k ∈ a.allocated.setBits
  setBits : a'.allocated.setBits = a.allocated.setBits.erase k
  count : a'.allocatedCount = a.allocatedCount - 1

theorem takeable_of_takeLowest {r : PortRange} {idx bit : ℕ} {current : Word} {rest : List Bool}
    (hidx : idx < r.numWords) (spurious : List Bool)
    (h : takeLowest r idx current spurious = (some bit, rest)) : r.Takeable idx current bit := by
  induction spurious with
  | nil => exact PortRange.takeable_of_lowestFree hidx (Prod.ext_iff.1 h).1
  | cons fails spurious ih =>
      unfold takeLowest at h
      cases hlow : r.lowestFree idx current with
      | none =>
          rw [hlow] at h
          exact absurd (Prod.ext_iff.1 h).1 (by simp)
      | some b =>
          rw [hlow] at h
          cases fails with
          | true => exact ih h
          | false =>
              obtain rfl : b = bit := Option.some.inj (Prod.ext_iff.1 h).1
              exact PortRange.takeable_of_lowestFree hidx hlow

theorem takeable_of_takeBit {r : PortRange} {idx randomBit bit : ℕ} {current : Word}
    {spurious rest : List Bool} (hidx : idx < r.numWords) (hlt : randomBit < 64)
    (h : takeBit r idx current randomBit spurious = (some bit, rest)) :
    r.Takeable idx current bit := by
  unfold takeBit at h
  split at h
  · exact absurd (Prod.ext_iff.1 h).1 (by simp)
  · split at h
    · exact takeable_of_takeLowest hidx _ h
    · next hprobe =>
        obtain rfl := Option.some.inj (Prod.ext_iff.1 h).1
        exact PortRange.takeable_of_randomProbe hidx hlt hprobe
    · next b fails spurious hprobe =>
        cases fails with
        | true => exact takeable_of_takeLowest hidx _ h
        | false =>
            obtain rfl : b = bit := Option.some.inj (Prod.ext_iff.1 h).1
            exact PortRange.takeable_of_randomProbe hidx hlt hprobe

theorem takes_mark {a : PortAllocator} {idx bit : ℕ} (hidx : idx < a.numWords)
    (h : a.Takeable idx (a.allocated.word idx) bit) :
    Takes a (a.mark idx bit) (idx * 64 + bit) where
  range := rfl
  free := Bitmap.notMem_setBits h.lt h.free
  inRange := h.inRange
  setBits := Bitmap.setBits_set_or (by rw [a.words]; exact hidx) h.lt
  count := rfl

/-- `allocate` either changes nothing and returns `None`, or takes one free position of the range
    and returns its port. -/
theorem allocate_cases (a : PortAllocator) (choice : PortChoice) :
    a.allocate choice = (a, none) ∨ ∃ a' k p, a.allocate choice = (a', some p) ∧ Takes a a' k ∧
      p.toNat = a.minPort.toNat + k := by
  suffices hscan : ∀ (startIdx bitOffset remaining bitmapIdx : ℕ) (spurious : List Bool),
      a.scan startIdx bitOffset remaining bitmapIdx spurious = (a, none) ∨ ∃ a' k p,
        a.scan startIdx bitOffset remaining bitmapIdx spurious = (a', some p) ∧ Takes a a' k ∧
          p.toNat = a.minPort.toNat + k from
    hscan _ _ _ _ _
  intro startIdx bitOffset remaining
  induction remaining with
  | zero => exact fun _ _ => Or.inl rfl
  | succ remaining ih =>
      intro bitmapIdx spurious
      have hidx := a.actualIdx_lt startIdx bitmapIdx
      rw [scan]
      split
      · next bit _ htake =>
          have h := takeable_of_takeBit hidx (Nat.mod_lt _ (by decide)) htake
          have hport := a.portIndex_toNat hidx h.lt
          exact Or.inr ⟨_, _, _, rfl, takes_mark hidx h,
            PortRange.toNat_minPort_add h.inRange hport⟩
      · exact ih _ _

theorem release_of_mem {a : PortAllocator} {port : UInt16} {k : ℕ}
    (hport : port.toNat = a.minPort.toNat + k) (hk : k < a.portCount.toNat)
    (hmem : k ∈ a.allocated.setBits) :
    Frees a (a.release port).1 k ∧ (a.release port).2 = true := by
  have hsize := a.size
  have hsub : port.toNat - a.minPort.toNat = k := by omega
  have hword : k / 64 < a.allocated.length := by
    have := Bitmap.lt_of_bit (Bitmap.mem_setBits.1 hmem)
    omega
  have hbit : ¬ a.allocated.word (k / 64) &&& BitVec.twoPow 64 (k % 64) = 0#64 := by
    rw [Word.and_twoPow_eq_zero (Nat.mod_lt _ (by decide))]
    have := Bitmap.mem_setBits.1 hmem
    simpa [Bitmap.bit] using this
  have hk' : k / 64 * 64 + k % 64 = k := by omega
  have hset := Bitmap.setBits_set_and_not hword (Nat.mod_lt k (by decide : 0 < 64))
  rw [hk'] at hset
  unfold release
  rw [if_neg (by omega)]
  dsimp only
  rw [hsub, if_neg (by omega), if_neg hbit]
  exact ⟨⟨rfl, hmem, hset, rfl⟩, rfl⟩

end PortAllocator

end Miuturn
