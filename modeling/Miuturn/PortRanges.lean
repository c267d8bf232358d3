import Miuturn.PortSearch

set_option autoImplicit false

/-! # Which port ranges the allocator can be given

`main` passes `start_port` and `end_port` on as the configuration has them. The size of the range is
computed in `u16`, where neither a reversed range nor the range of all 65536 ports has one; then it
is used as a bound and, through the number of words, as a modulus. `PortAllocator` carries the
proof that its size is right, so here the calls are modelled once more without it: every operation
on `u16` and `usize` is explicit, for a build that checks arithmetic and one that wraps around.

On the ranges that have a size the calls are those of `PortAllocator`, in either build. On the
others a debug build panics in `new`; a release build panics in the first `allocate` if the size
wraps around to zero, and hands out ports of a range that holds none if it does not. -/

open RustStd

namespace Miuturn

/-- The range of this size that begins at port 0. -/
def PortRange.sized (portCount : UInt16) (h : 0 < portCount.toNat) : PortRange where
  minPort := 0
  maxPort := portCount - 1
  portCount := portCount
  size := by
    have hone : (1 : UInt16) ≤ portCount := UInt16.le_iff_toNat_le.2 h
    have hpred := UInt16.toNat_sub_of_le _ _ hone
    simp only [UInt16.toNat_zero, UInt16.toNat_one] at hpred ⊢
    omega
  nonempty := h

/-- `PortAllocator` as the source declares it. -/
structure RawAllocator where
  allocated : Bitmap
  allocatedCount : ℤ
  minPort : UInt16
  maxPort : UInt16
  portCount : UInt16

namespace RawAllocator

open PortAllocator (PortChoice)

/-- `PortAllocator::new`. -/
def new (build : Build) (minPort maxPort : UInt16) : Rust RawAllocator := do
  let span ← build.sub16 maxPort minPort
  let portCount ← build.add16 span 1
  pure ⟨List.replicate ((portCount.toNat + 63) / 64) 0#64, 0, minPort, maxPort, portCount⟩

/-- One round of the loop of `allocate`. It reads the size of the range only; with size zero no bit
    is in range. -/
def takeBit (a : RawAllocator) (idx : ℕ) (current : Word) (randomBit : ℕ) (spurious : List Bool) :
    Option ℕ × List Bool :=
  if h : 0 < a.portCount.toNat then
    PortAllocator.takeBit (.sized a.portCount h) idx current randomBit spurious
  else (none, spurious)

/-- The loop of `allocate`, with `remaining` rounds to go. -/
def scan (build : Build) (a : RawAllocator) (startIdx bitOffset : ℕ) :
    ℕ → ℕ → List Bool → Rust (RawAllocator × Option UInt16)
  | 0, _, _ => pure (a, none)
  | remaining + 1, bitmapIdx, spurious =>
    let idx := (startIdx + bitmapIdx) % a.allocated.length
    match a.takeBit idx (a.allocated.word idx) (PortRange.randomBit bitOffset bitmapIdx) spurious
      with
    | (some bit, _) => do
      let port ← build.add16 a.minPort (PortRange.portIndex idx bit)
      pure ({ a with
        allocated := a.allocated.set idx (a.allocated.word idx ||| BitVec.twoPow 64 bit),
        allocatedCount := a.allocatedCount + 1 }, some port)
    | (none, spurious) => scan build a startIdx bitOffset remaining (bitmapIdx + 1) spurious

/-- `PortAllocator::allocate`. -/
def allocate (build : Build) (a : RawAllocator) (choice : PortChoice) :
    Rust (RawAllocator × Option UInt16) :=
  let numWords := a.allocated.length
  if numWords = 0 then .error .divisionByZero
  else
    let startIdx := choice.startRand.toNat % numWords
    let bitOffset := choice.bitRand.toUInt32.toNat % 64
    a.scan build startIdx bitOffset numWords 0 choice.spurious

/-- `PortAllocator::release`. -/
def release (build : Build) (a : RawAllocator) (port : UInt16) : Rust (RawAllocator × Bool) :=
  if port.toNat < a.minPort.toNat ∨ port.toNat > a.maxPort.toNat then pure (a, false)
  else do
    let portIndex := (← build.sub16 port a.minPort).toNat
    let bitmapIndex := portIndex / 64
    let bitIndex := portIndex % 64
    if bitmapIndex ≥ a.allocated.length then pure (a, false)
    else if a.allocated.word bitmapIndex &&& BitVec.twoPow 64 bitIndex = 0#64 then pure (a, false)
    else
      pure ({ a with
        allocated := a.allocated.set bitmapIndex
          (a.allocated.word bitmapIndex &&& ~~~BitVec.twoPow 64 bitIndex),
        allocatedCount := a.allocatedCount - 1 }, true)

/-- `PortAllocator::available_count`. -/
def availableCount (build : Build) (a : RawAllocator) : Rust ℕ :=
  build.subUsize a.portCount.toNat a.allocatedCount

inductive Call where
  | allocate (choice : PortChoice)
  | release (port : UInt16)
  | availableCount

/-- A call: the allocator after it and the port it returned. -/
def call (build : Build) (a : RawAllocator) : Call → Rust (RawAllocator × Option UInt16)
  | .allocate choice => a.allocate build choice
  | .release port => do
    let (a, _) ← a.release build port
    pure (a, none)
  | .availableCount => do
    let _ ← a.availableCount build
    pure (a, none)

/-- The ports that calls one after the other return. -/
def calls (build : Build) (a : RawAllocator) : List Call → Rust (List UInt16)
  | [] => pure []
  | c :: cs => do
    let (a, port) ← a.call build c
    let ports ← a.calls build cs
    pure (port.toList ++ ports)

end RawAllocator

/-- The range does not break the allocator: no call panics, and only ports of the range are
    returned. -/
def RangeWorks (build : Build) (startPort endPort : UInt16) : Prop :=
  ∃ a, RawAllocator.new build startPort endPort = .ok a ∧
    ∀ cs, ∃ ports, a.calls build cs = .ok ports ∧ ∀ p ∈ ports, startPort ≤ p ∧ p ≤ endPort

/-! ## The ranges with a size -/

namespace PortAllocator

variable {a : PortAllocator} {r r' : PortRange}

theorem takeLowest_congr (h : r.portCount = r'.portCount) (idx : ℕ) (current : Word)
    (spurious : List Bool) :
    takeLowest r idx current spurious = takeLowest r' idx current spurious := by
  have hlow : r.lowestFree idx current = r'.lowestFree idx current := by
    unfold PortRange.lowestFree
    rw [h]
  induction spurious with
  | nil =>
      unfold takeLowest
      rw [hlow]
  | cons fails spurious ih =>
      unfold takeLowest
      rw [hlow, ih]

/-- The search reads the size of the range only. -/
theorem takeBit_congr (h : r.portCount = r'.portCount) (idx : ℕ) (current : Word) (randomBit : ℕ)
    (spurious : List Bool) :
    takeBit r idx current randomBit spurious = takeBit r' idx current randomBit spurious := by
  have hprobe : r.randomProbe idx current randomBit = r'.randomProbe idx current randomBit := by
    unfold PortRange.randomProbe
    rw [h]
  unfold takeBit
  rw [hprobe]
  simp only [takeLowest_congr h]

/-- The allocator without the proofs it carries. -/
def raw (a : PortAllocator) : RawAllocator :=
  ⟨a.allocated, a.allocatedCount, a.minPort, a.maxPort, a.portCount⟩

@[simp] theorem raw_allocated (a : PortAllocator) : a.raw.allocated = a.allocated := rfl

@[simp] theorem raw_minPort (a : PortAllocator) : a.raw.minPort = a.minPort := rfl

@[simp] theorem raw_maxPort (a : PortAllocator) : a.raw.maxPort = a.maxPort := rfl

theorem raw_new (build : Build) {minPort maxPort : UInt16} (h : new minPort maxPort = .ok a) :
    RawAllocator.new build minPort maxPort = .ok a.raw := by
  unfold new at h
  split at h
  · next hrange =>
      obtain rfl := Except.ok.inj h
      have hspan : (maxPort - minPort).toNat = maxPort.toNat - minPort.toNat :=
        UInt16.toNat_sub_of_le _ _ (UInt16.le_iff_toNat_le.2 hrange.1)
      have hcount : maxPort - minPort + 1 = UInt16.ofNat (maxPort.toNat - minPort.toNat + 1) := by
        rw [← UInt16.toNat_inj, toNat_ofNat_of_le_65535 (by omega), UInt16.toNat_add, hspan]
        exact Nat.mod_eq_of_lt hrange.2
      unfold RawAllocator.new
      rw [build.sub16_of_le hrange.1, Rust.ok_bind,
        build.add16_of_lt (by rw [hspan]; exact hrange.2), Rust.ok_bind, hcount]
      rfl
  · exact absurd h (by simp)

theorem raw_scan (build : Build) (a : PortAllocator) (startIdx bitOffset remaining : ℕ) :
    ∀ (bitmapIdx : ℕ) (spurious : List Bool),
      a.raw.scan build startIdx bitOffset remaining bitmapIdx spurious
        = .ok ((a.scan startIdx bitOffset remaining bitmapIdx spurious).1.raw,
            (a.scan startIdx bitOffset remaining bitmapIdx spurious).2) := by
  induction remaining with
  | zero => exact fun _ _ => rfl
  | succ remaining ih =>
      intro bitmapIdx spurious
      have hidx : (startIdx + bitmapIdx) % a.allocated.length
          = a.actualIdx startIdx bitmapIdx := by
        rw [PortRange.actualIdx, ← a.words]
      have htake : ∀ idx current randomBit,
          a.raw.takeBit idx current randomBit spurious
            = takeBit a.toPortRange idx current randomBit spurious := by
        intro idx current randomBit
        unfold RawAllocator.takeBit
        rw [dif_pos (show 0 < a.raw.portCount.toNat from a.nonempty)]
        have hcount : (PortRange.sized a.raw.portCount a.nonempty).portCount = a.portCount := rfl
        exact takeBit_congr hcount idx current randomBit spurious
      rw [RawAllocator.scan, scan]
      simp only [raw_allocated, raw_minPort, hidx, htake]
      cases hbit : takeBit a.toPortRange (a.actualIdx startIdx bitmapIdx)
          (a.allocated.word (a.actualIdx startIdx bitmapIdx))
          (PortRange.randomBit bitOffset bitmapIdx) spurious with
      | mk taken spurious =>
          cases taken with
          | none => exact ih _ _
          | some bit =>
              have hlt := a.actualIdx_lt startIdx bitmapIdx
              have h := takeable_of_takeBit hlt (Nat.mod_lt _ (by decide)) hbit
              have hindex := a.portIndex_toNat hlt h.lt
              have hsize := a.size
              have hmax := a.maxPort.toNat_lt
              have hrange := h.inRange
              have hport : a.minPort.toNat
                  + (PortRange.portIndex (a.actualIdx startIdx bitmapIdx) bit).toNat < 65536 := by
                rw [hindex]
                omega
              dsimp only
              rw [build.add16_of_lt hport]
              rfl

/-- On a range with a size, `allocate` computes what the model says in either build. -/
theorem raw_allocate (build : Build) (a : PortAllocator) (choice : PortChoice) :
    a.raw.allocate build choice = .ok ((a.allocate choice).1.raw, (a.allocate choice).2) := by
  have hwords : a.raw.allocated.length ≠ 0 := by
    show a.allocated.length ≠ 0
    rw [a.words]
    exact a.numWords_pos.ne'
  unfold RawAllocator.allocate
  dsimp only
  rw [if_neg hwords]
  exact raw_scan build a _ _ _ _ _

theorem raw_release (build : Build) (a : PortAllocator) (port : UInt16) :
    a.raw.release build port = .ok ((a.release port).1.raw, (a.release port).2) := by
  unfold RawAllocator.release release
  rw [raw_minPort, raw_maxPort, raw_allocated]
  by_cases hout : port.toNat < a.minPort.toNat ∨ port.toNat > a.maxPort.toNat
  · rw [if_pos hout, if_pos hout]
    rfl
  · have hmin : a.minPort.toNat ≤ port.toNat := by omega
    rw [if_neg hout, if_neg hout, build.sub16_of_le hmin, Rust.ok_bind,
      UInt16.toNat_sub_of_le _ _ (UInt16.le_iff_toNat_le.2 hmin)]
    dsimp only
    by_cases hpast : (port.toNat - a.minPort.toNat) / 64 ≥ a.allocated.length
    · rw [if_pos hpast, if_pos hpast]
      rfl
    · rw [if_neg hpast, if_neg hpast]
      by_cases hclear : a.allocated.word ((port.toNat - a.minPort.toNat) / 64)
          &&& BitVec.twoPow 64 ((port.toNat - a.minPort.toNat) % 64) = 0#64
      · rw [if_pos hclear, if_pos hclear]
        rfl
      · rw [if_neg hclear, if_neg hclear]
        rfl

/-- The counter counts the marked positions, which lie in the range. -/
structure Counted (a : PortAllocator) : Prop where
  withinRange : a.WithinRange
  count : a.allocatedCount = a.allocated.setBits.card

theorem Counted.card_le (h : a.Counted) : a.allocated.setBits.card ≤ a.portCount.toNat := by
  have hsub : a.allocated.setBits ⊆ Finset.range a.portCount.toNat :=
    fun k hk => Finset.mem_range.2 (h.withinRange.lt hk)
  have hcard := Finset.card_le_card hsub
  rwa [Finset.card_range] at hcard

theorem Counted.availableCount (h : a.Counted) (build : Build) :
    ∃ n, a.raw.availableCount build = .ok n := by
  have hle := h.card_le
  have hlt := a.portCount.toNat_lt
  have hcount := h.count
  refine build.exists_subUsize (show a.portCount.toNat < 2 ^ 64 by omega) ?_ ?_
  · show 0 ≤ a.allocatedCount
    omega
  · show a.allocatedCount ≤ (a.portCount.toNat : ℤ)
    omega

theorem Takes.counted {a' : PortAllocator} {k : ℕ} (h : Takes a a' k) (hc : a.Counted) :
    a'.Counted where
  withinRange := h.withinRange hc.withinRange
  count := by
    rw [h.count, h.setBits, Finset.card_insert_of_notMem h.free, hc.count]
    rfl

theorem Frees.counted {a' : PortAllocator} {k : ℕ} (h : Frees a a' k) (hc : a.Counted) :
    a'.Counted where
  withinRange := by
    rw [withinRange_iff, h.range, h.setBits]
    exact fun i hi => hc.withinRange.lt (Finset.mem_of_mem_erase hi)
  count := by
    have hcard := Finset.card_erase_add_one h.taken
    rw [h.count, h.setBits, hc.count]
    omega

/-- A call returns, keeps the invariant and the range, and returns a port of the range if any. -/
theorem Counted.call (h : a.Counted) (build : Build) (c : RawAllocator.Call) :
    ∃ (a' : PortAllocator) (port : Option UInt16), a.raw.call build c = .ok (a'.raw, port) ∧
      a'.Counted ∧ a'.toPortRange = a.toPortRange ∧
      ∀ p ∈ port, a.minPort ≤ p ∧ p ≤ a.maxPort := by
  cases c with
  | allocate choice =>
      refine ⟨_, _, raw_allocate build a choice, ?_⟩
      rcases a.allocate_cases choice with hnone | ⟨a', k, p, hsome, htake, hp⟩
      · rw [hnone]
        exact ⟨h, rfl, by simp⟩
      · rw [hsome]
        refine ⟨htake.counted h, htake.range, ?_⟩
        rintro q hq
        obtain rfl := Option.some.inj hq
        have hsize := a.size
        have hrange := htake.inRange
        exact ⟨UInt16.le_iff_toNat_le.2 (by omega), UInt16.le_iff_toNat_le.2 (by omega)⟩
  | release port =>
      refine ⟨_, none, by rw [RawAllocator.call, raw_release, Rust.ok_bind]; rfl, ?_⟩
      rcases a.release_cases port with ⟨-, -, hfrees⟩ | ⟨-, heq⟩
      · exact ⟨hfrees.counted h, hfrees.range, by simp⟩
      · rw [heq]
        exact ⟨h, rfl, by simp⟩
  | availableCount =>
      obtain ⟨n, hn⟩ := h.availableCount build
      exact ⟨a, none, by rw [RawAllocator.call, hn, Rust.ok_bind]; rfl, h, rfl, by simp⟩

theorem Counted.calls (build : Build) (cs : List RawAllocator.Call) :
    ∀ a : PortAllocator, a.Counted →
      ∃ ports, a.raw.calls build cs = .ok ports ∧ ∀ p ∈ ports, a.minPort ≤ p ∧ p ≤ a.maxPort := by
  induction cs with
  | nil => exact fun a _ => ⟨[], rfl, by simp⟩
  | cons c cs ih =>
      intro a h
      obtain ⟨a', port, hcall, hcounted, hrange, hport⟩ := h.call build c
      obtain ⟨ports, hcalls, hports⟩ := ih a' hcounted
      refine ⟨port.toList ++ ports, ?_, fun p hp => ?_⟩
      · rw [RawAllocator.calls, hcall, Rust.ok_bind]
        dsimp only
        rw [hcalls, Rust.ok_bind]
        rfl
      · rcases List.mem_append.1 hp with hp | hp
        · exact hport p (Option.mem_toList.1 hp)
        · have hp' := hports p hp
          rwa [hrange] at hp'

end PortAllocator

/-- A range with a size works in either build. -/
theorem rangeWorks_of_size (build : Build) {startPort endPort : UInt16} (hle : startPort ≤ endPort)
    (hsize : endPort.toNat - startPort.toNat < 65535) : RangeWorks build startPort endPort := by
  have hnew : ∃ a, PortAllocator.new startPort endPort = .ok a :=
    ⟨_, dif_pos ⟨UInt16.le_iff_toNat_le.1 hle, by omega⟩⟩
  obtain ⟨a, ha⟩ := hnew
  obtain ⟨hmin, hmax, hempty, hzero⟩ := PortAllocator.new_eq_ok ha
  have hcounted : a.Counted := by
    refine ⟨?_, by rw [hzero, hempty]; rfl⟩
    rw [PortAllocator.withinRange_iff, hempty]
    exact fun i hi => absurd hi (Finset.notMem_empty i)
  refine ⟨a.raw, PortAllocator.raw_new build ha, fun cs => ?_⟩
  obtain ⟨ports, hcalls, hports⟩ := PortAllocator.Counted.calls build cs a hcounted
  rw [hmin, hmax] at hports
  exact ⟨ports, hcalls, hports⟩

/-! ## The ranges without one -/

namespace RawAllocator

variable {startPort endPort : UInt16}

/-- A debug build does not get past `new`. -/
theorem new_debug_of_not_size
    (h : ¬(startPort.toNat ≤ endPort.toNat ∧ endPort.toNat - startPort.toNat < 65535)) :
    new .debug startPort endPort = .error .arithmeticOverflow := by
  unfold new
  by_cases hle : startPort.toNat ≤ endPort.toNat
  · have hspan := UInt16.toNat_sub_of_le _ _ (UInt16.le_iff_toNat_le.2 hle)
    have hone : (1 : UInt16).toNat = 1 := rfl
    have hover : ¬((endPort - startPort).toNat + (1 : UInt16).toNat < 65536) := by
      rw [hspan, hone]
      omega
    rw [Build.sub16_of_le _ hle, Rust.ok_bind, Build.add16, if_neg hover]
    rfl
  · rw [Build.sub16, if_neg hle]
    rfl

/-- A release build computes some size. -/
theorem new_release (startPort endPort : UInt16) :
    new .release startPort endPort
      = .ok ⟨List.replicate (((endPort - startPort + 1).toNat + 63) / 64) 0#64, 0, startPort,
          endPort, endPort - startPort + 1⟩ := by
  have hsub : Build.release.sub16 endPort startPort = .ok (endPort - startPort) := by
    unfold Build.sub16
    split <;> rfl
  have hadd : Build.release.add16 (endPort - startPort) 1 = .ok (endPort - startPort + 1) := by
    unfold Build.add16
    split <;> rfl
  unfold new
  rw [hsub, Rust.ok_bind, hadd]
  rfl

/-- The call of `allocate` whose random numbers are both zero. -/
def firstChoice : PortAllocator.PortChoice := ⟨0, 0, []⟩

/-- On an empty bitmap of a size other than zero it takes the first position, whatever the size
    has to do with the bounds. -/
theorem allocate_firstChoice (build : Build) (a : RawAllocator) {n : ℕ}
    (hwords : a.allocated = List.replicate (n + 1) 0#64) (hcount : 0 < a.portCount.toNat) :
    ∃ a', a.allocate build firstChoice = .ok (a', some a.minPort) := by
  have hlen : a.allocated.length = n + 1 := by rw [hwords, List.length_replicate]
  have hword : a.allocated.word 0 = 0#64 := by rw [hwords]; rfl
  have htake : a.takeBit 0 0#64 0 [] = (some 0, []) := by
    have hprobe : (PortRange.sized a.portCount hcount).randomProbe 0 0#64 0 = some 0 := by
      have hfree : ~~~(0#64) &&& BitVec.twoPow 64 0 ≠ 0#64 := by decide
      have hrange : (PortRange.portIndex 0 0).toNat
          < (PortRange.sized a.portCount hcount).portCount.toNat := hcount
      unfold PortRange.randomProbe
      dsimp only
      rw [if_pos hfree, if_pos hrange]
    have hfull : 0#64 ≠ BitVec.allOnes 64 := by decide
    unfold takeBit PortAllocator.takeBit
    rw [dif_pos hcount, if_neg hfull, hprobe]
  have hfirst : build.add16 a.minPort (PortRange.portIndex 0 0) = .ok a.minPort := by
    have hlt : a.minPort.toNat + (PortRange.portIndex 0 0).toNat < 65536 := a.minPort.toNat_lt
    rw [Build.add16_of_lt _ hlt]
    exact congrArg Except.ok (UInt16.add_zero _)
  have hstart : firstChoice.startRand.toNat % a.allocated.length = 0 := Nat.zero_mod _
  have hoffset : firstChoice.bitRand.toUInt32.toNat % 64 = 0 := rfl
  unfold allocate
  dsimp only
  rw [if_neg (by omega), hstart, hoffset, hlen, scan]
  simp only [Nat.zero_add, Nat.zero_mod, hword, PortRange.randomBit, firstChoice, htake, hfirst,
    Rust.ok_bind]
  exact ⟨_, rfl⟩

end RawAllocator

/-- A release build fails on every range without a size: it divides by zero, or hands out the first
    port of a reversed range. -/
theorem not_rangeWorks_release {startPort endPort : UInt16}
    (h : ¬(startPort ≤ endPort ∧ endPort.toNat - startPort.toNat < 65535)) :
    ¬RangeWorks .release startPort endPort := by
  rintro ⟨a, hnew, hworks⟩
  rw [RawAllocator.new_release] at hnew
  obtain rfl := Except.ok.inj hnew
  obtain ⟨ports, hcalls, hports⟩ := hworks [.allocate RawAllocator.firstChoice]
  rw [RawAllocator.calls, RawAllocator.call] at hcalls
  by_cases hcount : 0 < (endPort - startPort + 1).toNat
  · obtain ⟨n, hn⟩ : ∃ n, ((endPort - startPort + 1).toNat + 63) / 64 = n + 1 :=
      ⟨((endPort - startPort + 1).toNat - 1) / 64, by omega⟩
    obtain ⟨a', ha'⟩ := RawAllocator.allocate_firstChoice .release
      ⟨List.replicate (((endPort - startPort + 1).toNat + 63) / 64) 0#64, 0, startPort, endPort,
        endPort - startPort + 1⟩ (by rw [hn]) hcount
    rw [ha', Rust.ok_bind] at hcalls
    obtain rfl := Except.ok.inj hcalls
    obtain ⟨-, hle⟩ := hports startPort (List.mem_singleton.2 rfl)
    -- the bounds are in order, so the range holds every port and its size wraps around to zero
    have hspan := UInt16.toNat_sub_of_le _ _ hle
    have hlast := endPort.toNat_lt
    have hall : ¬(endPort.toNat - startPort.toNat < 65535) := fun hlt => h ⟨hle, hlt⟩
    have hzero : (endPort - startPort + 1).toNat
        = (endPort.toNat - startPort.toNat + 1) % 65536 := by
      rw [UInt16.toNat_add, hspan]
      rfl
    omega
  · have hzero : (endPort - startPort + 1).toNat = 0 := by omega
    rw [RawAllocator.allocate, hzero] at hcalls
    exact absurd hcalls (by simp)

/-- The port ranges that work, in either build, are those whose bounds are in order and that leave
    out at least one of the 65536 ports. -/
theorem port_range_works_iff (build : Build) (startPort endPort : UInt16) :
    RangeWorks build startPort endPort ↔
      startPort ≤ endPort ∧ endPort.toNat - startPort.toNat < 65535 := by
  constructor
  · intro hworks
    by_contra hsize
    cases build with
    | debug =>
        obtain ⟨a, hnew, -⟩ := hworks
        rw [RawAllocator.new_debug_of_not_size
          (by rwa [← UInt16.le_iff_toNat_le])] at hnew
        exact absurd hnew (by simp)
    | release => exact not_rangeWorks_release hsize hworks
  · rintro ⟨hle, hsize⟩
    exact rangeWorks_of_size build hle hsize

/-- The range of all ports: a debug build panics in `new`, a release build makes an allocator of no
    words and panics in the first `allocate`. The reversed range 65535 to 0 panics in a debug build,
    and in a release build hands out port 65535. -/
theorem port_range_full_and_reversed :
    (¬RangeWorks .debug 0 65535 ∧ ¬RangeWorks .release 0 65535) ∧
      RawAllocator.new .debug 0 65535 = .error .arithmeticOverflow ∧
      (RawAllocator.new .release 0 65535 >>= fun a => a.allocate .release ⟨0, 0, []⟩).map Prod.snd
        = .error .divisionByZero ∧
      RawAllocator.new .debug 65535 0 = .error .arithmeticOverflow ∧
      (RawAllocator.new .release 65535 0 >>= fun a => a.allocate .release ⟨0, 0, []⟩).map Prod.snd
        = .ok (some 65535) := by
  refine ⟨⟨?_, not_rangeWorks_release (by decide)⟩, rfl, rfl, rfl, rfl⟩
  rintro ⟨a, hnew, -⟩
  exact absurd (hnew.symm.trans (RawAllocator.new_debug_of_not_size (by decide))) (by simp)

end Miuturn
