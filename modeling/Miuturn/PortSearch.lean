import Miuturn.PortAllocator

set_option autoImplicit false

/-! # The port allocator finds a port exactly when one is free

`allocate` begins at a random word, tries a random bit of each word that moves with the round, and
falls back to the lowest free bit. A word it leaves without a port has no free bit in the range:
the lowest free bit, if there is one, lies outside, and so do those above it. The rounds visit every
word once, so `None` means that every port is taken.

A weak compare-exchange that fails spuriously costs `allocate` at most the random bit, and repeats
the loop of `release`. -/

open RustStd

namespace Miuturn

/-! ## One word -/

namespace PortRange

variable {r : PortRange} {idx : ℕ} {current : Word}

/-- Every position of word `idx` that lies in the range is taken. -/
def Full (r : PortRange) (idx : ℕ) (current : Word) : Prop :=
  ∀ bit < 64, idx * 64 + bit < r.portCount.toNat → current.getLsbD bit = true

theorem full_allOnes (r : PortRange) (idx : ℕ) : r.Full idx (BitVec.allOnes 64) := by
  intro bit hbit _
  rw [BitVec.getLsbD_allOnes]
  exact decide_eq_true hbit

theorem full_of_lowestFree (hidx : idx < r.numWords) (h : r.lowestFree idx current = none) :
    r.Full idx current := by
  intro bit hbit hrange
  dsimp only [lowestFree] at h
  split at h
  · next hfull =>
      have hset := congrArg (fun w => BitVec.getLsbD w bit) hfull
      simpa [hbit] using hset
  · next hfull =>
      split at h
      · next hout =>
          -- the lowest free bit is already outside, and `bit` is inside
          rw [r.portIndex_toNat hidx (Word.trailingZeros_lt hfull)] at hout
          exact Word.getLsbD_of_lt_trailingZeros_not hbit (by omega)
      · exact absurd h (by simp)

end PortRange

namespace PortAllocator

variable {r : PortRange} {idx randomBit : ℕ} {current : Word} {rest : List Bool}

theorem full_of_takeLowest (hidx : idx < r.numWords) (spurious : List Bool)
    (h : takeLowest r idx current spurious = (none, rest)) : r.Full idx current := by
  induction spurious with
  | nil => exact PortRange.full_of_lowestFree hidx (Prod.ext_iff.1 h).1
  | cons fails spurious ih =>
      unfold takeLowest at h
      cases hlow : r.lowestFree idx current with
      | none => exact PortRange.full_of_lowestFree hidx hlow
      | some bit =>
          rw [hlow] at h
          cases fails with
          | true => exact ih h
          | false => exact absurd (Prod.ext_iff.1 h).1 (by simp)

theorem full_of_takeBit {spurious : List Bool} (hidx : idx < r.numWords)
    (h : takeBit r idx current randomBit spurious = (none, rest)) : r.Full idx current := by
  unfold takeBit at h
  split at h
  · next hones =>
      rw [hones]
      exact r.full_allOnes idx
  · split at h
    · exact full_of_takeLowest hidx _ h
    · exact absurd (Prod.ext_iff.1 h).1 (by simp)
    · next fails spurious _ =>
        cases fails with
        | true => exact full_of_takeLowest hidx _ h
        | false => exact absurd (Prod.ext_iff.1 h).1 (by simp)

/-! ## All words -/

variable {a : PortAllocator}

/-- The rounds of a scan that finds nothing have seen full words only. -/
theorem full_of_scan {startIdx bitOffset : ℕ} (remaining : ℕ) :
    ∀ (bitmapIdx : ℕ) (spurious : List Bool),
      (a.scan startIdx bitOffset remaining bitmapIdx spurious).2 = none →
      ∀ round, bitmapIdx ≤ round → round < bitmapIdx + remaining →
        a.Full (a.actualIdx startIdx round) (a.allocated.word (a.actualIdx startIdx round)) := by
  induction remaining with
  | zero => exact fun _ _ _ round hle hlt => absurd hlt (by omega)
  | succ remaining ih =>
      intro bitmapIdx spurious h round hle hlt
      rw [scan] at h
      split at h
      · exact absurd h (by simp)
      · next htake =>
          rcases Nat.eq_or_lt_of_le hle with rfl | hlater
          · exact full_of_takeBit (a.actualIdx_lt startIdx bitmapIdx) htake
          · exact ih (bitmapIdx + 1) _ h round hlater (by omega)

/-- Starting from any word, the rounds visit every word. -/
theorem exists_actualIdx (r : PortRange) (startIdx : ℕ) {i : ℕ} (hi : i < r.numWords) :
    ∃ round < r.numWords, r.actualIdx startIdx round = i := by
  have hstart : startIdx % r.numWords < r.numWords := Nat.mod_lt _ r.numWords_pos
  refine ⟨(i + r.numWords - startIdx % r.numWords) % r.numWords, Nat.mod_lt _ r.numWords_pos, ?_⟩
  have hsum : startIdx % r.numWords + (i + r.numWords - startIdx % r.numWords)
      = i + r.numWords := by omega
  rw [PortRange.actualIdx, Nat.add_mod_mod, ← Nat.mod_add_mod, hsum, Nat.add_mod_right,
    Nat.mod_eq_of_lt hi]

theorem bit_of_full {k : ℕ} (hk : k < a.portCount.toNat)
    (hfull : a.Full (k / 64) (a.allocated.word (k / 64))) : a.allocated.bit k = true := by
  have hsplit : k / 64 * 64 + k % 64 = k := by omega
  exact hfull (k % 64) (Nat.mod_lt _ (by decide)) (by rw [hsplit]; exact hk)

/-- `None` exactly if every port is taken. -/
theorem allocate_eq_none_iff (a : PortAllocator) (choice : PortChoice) :
    (a.allocate choice).2 = none ↔ ∀ k < a.portCount.toNat, a.allocated.bit k = true := by
  constructor
  · intro h k hk
    have hword : k / 64 < a.numWords := by
      unfold PortRange.numWords
      omega
    obtain ⟨round, hround, hidx⟩ := exists_actualIdx a.toPortRange
      (choice.startRand.toNat % a.allocated.length) hword
    have hfull := full_of_scan _ _ _ h round (Nat.zero_le _)
      (by rw [Nat.zero_add, a.words]; exact hround)
    rw [hidx] at hfull
    exact bit_of_full hk hfull
  · intro hall
    rcases a.allocate_cases choice with hnone | ⟨a', k, p, -, htake, -⟩
    · rw [hnone]
    · exact absurd (Bitmap.mem_setBits.2 (hall k htake.inRange)) htake.free

/-! ## Release -/

/-- The loop of `release` on the word it has loaded, with the exchanges that fail spuriously: the
    word that is stored, or none where it returns `false`. -/
def clearBit (current mask : Word) : List Bool → Option Word
  | [] => if current &&& mask = 0#64 then none else some (current &&& ~~~mask)
  | fails :: spurious =>
    if current &&& mask = 0#64 then none
    else if fails then clearBit current mask spurious
    else some (current &&& ~~~mask)

/-- `PortAllocator::release` with the exchanges that fail spuriously. -/
def releaseSpurious (a : PortAllocator) (port : UInt16) (spurious : List Bool) :
    PortAllocator × Bool :=
  if port.toNat < a.minPort.toNat ∨ port.toNat > a.maxPort.toNat then (a, false)
  else
    let portIndex := port.toNat - a.minPort.toNat
    let bitmapIndex := portIndex / 64
    let bitIndex := portIndex % 64
    if bitmapIndex ≥ a.allocated.length then (a, false)
    else
      match clearBit (a.allocated.word bitmapIndex) (BitVec.twoPow 64 bitIndex) spurious with
      | none => (a, false)
      | some word =>
        ({ a with
            allocated := a.allocated.set bitmapIndex word,
            allocatedCount := a.allocatedCount - 1,
            words := by rw [List.length_set, a.words] }, true)

theorem clearBit_eq (current mask : Word) (spurious : List Bool) :
    clearBit current mask spurious
      = if current &&& mask = 0#64 then none else some (current &&& ~~~mask) := by
  induction spurious with
  | nil => rfl
  | cons fails spurious ih =>
      unfold clearBit
      cases fails with
      | true =>
          rw [ih]
          split <;> rfl
      | false => rfl

/-- However often its exchange fails, `release` does the same. -/
theorem releaseSpurious_eq (a : PortAllocator) (port : UInt16) (spurious : List Bool) :
    a.releaseSpurious port spurious = a.release port := by
  unfold releaseSpurious release
  simp only [clearBit_eq]
  split
  · rfl
  · split
    · rfl
    · split
      · next hclear => rw [if_pos (by simpa using hclear)]
      · next word hword =>
          split at hword
          · exact absurd hword (by simp)
          · next hset =>
              rw [if_neg hset]
              obtain rfl := Option.some.inj hword
              rfl

theorem isAllocated_iff {port : UInt16} : a.isAllocated port = true ↔
    (a.minPort.toNat ≤ port.toNat ∧ port.toNat ≤ a.maxPort.toNat) ∧
      a.allocated.bit (port.toNat - a.minPort.toNat) = true := by
  unfold isAllocated
  split
  · next hout => exact ⟨fun h => absurd h (by simp), fun h => absurd h.1 (by omega)⟩
  · next hin =>
      dsimp only
      split
      · next hpast =>
          refine ⟨fun h => absurd h (by simp), fun h => ?_⟩
          have := Bitmap.lt_of_bit h.2
          omega
      · rw [bne_iff_ne, ne_eq, Word.and_twoPow_eq_zero (Nat.mod_lt _ (by decide)),
          Bool.not_eq_false]
        exact ⟨fun h => ⟨by omega, h⟩, fun h => h.2⟩

/-- `release` returns `true` exactly for an allocated port, and then gives it back. -/
theorem release_cases (a : PortAllocator) (port : UInt16) :
    (a.isAllocated port = true ∧ (a.release port).2 = true ∧
      Frees a (a.release port).1 (port.toNat - a.minPort.toNat)) ∨
    (a.isAllocated port = false ∧ a.release port = (a, false)) := by
  cases hport : a.isAllocated port with
  | true =>
      obtain ⟨⟨hmin, hmax⟩, hbit⟩ := isAllocated_iff.1 hport
      have hsize := a.size
      have hpos : port.toNat = a.minPort.toNat + (port.toNat - a.minPort.toNat) := by omega
      obtain ⟨hfrees, htrue⟩ := release_of_mem hpos (by omega) (Bitmap.mem_setBits.2 hbit)
      exact Or.inl ⟨rfl, htrue, hfrees⟩
  | false =>
      refine Or.inr ⟨rfl, ?_⟩
      unfold isAllocated at hport
      unfold release
      split at hport
      · next hout => rw [if_pos hout]
      · next hin =>
          rw [if_neg hin]
          dsimp only at hport ⊢
          split at hport
          · next hpast => rw [if_pos hpast]
          · next hword =>
              rw [if_neg hword, if_pos (by simpa using hport)]

/-! ## Many calls -/

/-- Calls of `allocate` one after the other. -/
def allocateAll (a : PortAllocator) : List PortChoice → PortAllocator × List (Option UInt16)
  | [] => (a, [])
  | choice :: choices =>
    let (a, port) := a.allocate choice
    let (a, ports) := allocateAll a choices
    (a, port :: ports)

/-- Nothing past the range is marked. -/
def WithinRange (a : PortAllocator) : Prop :=
  ∀ k, a.portCount.toNat ≤ k → a.allocated.bit k = false

theorem withinRange_iff :
    a.WithinRange ↔ ∀ k ∈ a.allocated.setBits, k < a.portCount.toNat := by
  simp only [WithinRange, Bitmap.mem_setBits]
  constructor
  · intro h k hk
    by_contra hge
    exact Bool.false_ne_true ((h k (not_lt.1 hge)).symm.trans hk)
  · intro h k hge
    by_contra hbit
    exact absurd (h k (Bool.eq_true_of_not_eq_false hbit)) (not_lt.2 hge)

theorem WithinRange.lt (h : a.WithinRange) {k : ℕ} (hk : k ∈ a.allocated.setBits) :
    k < a.portCount.toNat := withinRange_iff.1 h k hk

theorem Takes.withinRange {a' : PortAllocator} {k : ℕ} (h : Takes a a' k)
    (hin : a.WithinRange) : a'.WithinRange := by
  rw [withinRange_iff, h.range, h.setBits]
  intro i hi
  rcases Finset.mem_insert.1 hi with rfl | hi
  · exact h.inRange
  · exact hin.lt hi

/-- After a call that took `p`, exactly `p` is allocated that was not. -/
theorem Takes.isAllocated {a' : PortAllocator} {k : ℕ} {p : UInt16} (h : Takes a a' k)
    (hp : p.toNat = a.minPort.toNat + k) (q : UInt16) :
    a'.isAllocated q = true ↔ q = p ∨ a.isAllocated q = true := by
  have hsize := a.size
  have hrange := h.inRange
  have hbit : a'.allocated.bit (q.toNat - a.minPort.toNat) = true ↔
      q.toNat - a.minPort.toNat = k ∨ a.allocated.bit (q.toNat - a.minPort.toNat) = true := by
    rw [← Bitmap.mem_setBits, h.setBits, Finset.mem_insert, Bitmap.mem_setBits]
  rw [isAllocated_iff, isAllocated_iff, h.range, hbit, ← UInt16.toNat_inj]
  constructor
  · rintro ⟨hin, hk | hold⟩
    · exact Or.inl (by omega)
    · exact Or.inr ⟨hin, hold⟩
  · rintro (heq | ⟨hin, hold⟩)
    · exact ⟨by omega, Or.inl (by omega)⟩
    · exact ⟨hin, Or.inr hold⟩

theorem Takes.wasFree {a' : PortAllocator} {k : ℕ} {p : UInt16} (h : Takes a a' k)
    (hp : p.toNat = a.minPort.toNat + k) : a.isAllocated p = false := by
  have hpos : p.toNat - a.minPort.toNat = k := by omega
  rw [Bool.eq_false_iff, ne_eq, isAllocated_iff, hpos]
  exact fun hset => h.free (Bitmap.mem_setBits.2 hset.2)

/-- With as many marked positions as there are ports, every port is allocated. -/
theorem WithinRange.isAllocated_of_card (h : a.WithinRange)
    (hcard : a.allocated.setBits.card = a.portCount.toNat) {p : UInt16}
    (hmin : a.minPort.toNat ≤ p.toNat) (hmax : p.toNat ≤ a.maxPort.toNat) :
    a.isAllocated p = true := by
  have hsize := a.size
  have hall : a.allocated.setBits = Finset.range a.portCount.toNat := by
    refine Finset.eq_of_subset_of_card_le (fun k hk => Finset.mem_range.2 (h.lt hk)) ?_
    rw [Finset.card_range, hcard]
  refine isAllocated_iff.2 ⟨⟨hmin, hmax⟩, Bitmap.mem_setBits.1 ?_⟩
  rw [hall, Finset.mem_range]
  omega

/-- With fewer, `allocate` returns a port. -/
theorem allocate_of_card_lt (hcard : a.allocated.setBits.card < a.portCount.toNat)
    (choice : PortChoice) :
    ∃ a' k p, a.allocate choice = (a', some p) ∧ Takes a a' k ∧
      p.toNat = a.minPort.toNat + k := by
  refine (a.allocate_cases choice).resolve_left (fun hnone => ?_)
  have hall := (allocate_eq_none_iff a choice).1 (by rw [hnone])
  have hsub : Finset.range a.portCount.toNat ⊆ a.allocated.setBits :=
    fun k hk => Bitmap.mem_setBits.2 (hall k (Finset.mem_range.1 hk))
  have hle := Finset.card_le_card hsub
  rw [Finset.card_range] at hle
  omega

/-- As many calls as there are free ports all return a port, and the ports they return are the free
    ones, each once. -/
theorem allocateAll_free (choices : List PortChoice) :
    ∀ a : PortAllocator, a.WithinRange →
      choices.length + a.allocated.setBits.card = a.portCount.toNat →
      ∃ ports : List UInt16, (a.allocateAll choices).2 = ports.map some ∧ ports.Nodup ∧
        ∀ p, p ∈ ports ↔
          (a.minPort.toNat ≤ p.toNat ∧ p.toNat ≤ a.maxPort.toNat) ∧ a.isAllocated p = false := by
  induction choices with
  | nil =>
      intro a hin hcount
      refine ⟨[], rfl, List.nodup_nil, fun p => ⟨fun hp => absurd hp (by simp), ?_⟩⟩
      rintro ⟨⟨hmin, hmax⟩, hfree⟩
      rw [List.length_nil, Nat.zero_add] at hcount
      rw [hin.isAllocated_of_card hcount hmin hmax] at hfree
      exact absurd hfree (by simp)
  | cons choice choices ih =>
      intro a hin hcount
      rw [List.length_cons] at hcount
      obtain ⟨a', k, p, hsome, htake, hp⟩ := allocate_of_card_lt (a := a) (by omega) choice
      have hcount' : choices.length + a'.allocated.setBits.card = a'.portCount.toNat := by
        rw [htake.setBits, Finset.card_insert_of_notMem htake.free, htake.range]
        omega
      obtain ⟨ports, hports, hnodup, hmem⟩ := ih a' (htake.withinRange hin) hcount'
      have hfree : ∀ q, a'.isAllocated q = false ↔ q ≠ p ∧ a.isAllocated q = false := by
        intro q
        rw [Bool.eq_false_iff, ne_eq, htake.isAllocated hp, not_or, Bool.not_eq_true]
      have hsize := a.size
      have hrange := htake.inRange
      refine ⟨p :: ports, ?_, List.nodup_cons.2 ⟨?_, hnodup⟩, fun q => ?_⟩
      · simp only [allocateAll, hsome, hports, List.map_cons]
      · rw [hmem, hfree]
        exact fun h => h.2.1 rfl
      · rw [List.mem_cons, hmem, hfree, htake.range]
        constructor
        · rintro (rfl | ⟨hq, -, hold⟩)
          · exact ⟨by omega, htake.wasFree hp⟩
          · exact ⟨hq, hold⟩
        · rintro ⟨hq, hold⟩
          by_cases hqp : q = p
          · exact Or.inl hqp
          · exact Or.inr ⟨hq, hqp, hold⟩

/-! ## What the calls are for -/

/-- What `allocate` and `release` do in a state of the allocator, whatever the random numbers and
    however often an exchange fails spuriously. -/
structure Exact (a : PortAllocator) : Prop where
  /-- A free port of the range is marked and nothing else, or nothing is. -/
  allocates : ∀ choice, a.allocate choice = (a, none) ∨
    ∃ a' p, a.allocate choice = (a', some p) ∧ a.minPort ≤ p ∧ p ≤ a.maxPort ∧
      a.allocated.bit (p.toNat - a.minPort.toNat) = false ∧
      ∀ k, a'.allocated.bit k = true ↔
        k = p.toNat - a.minPort.toNat ∨ a.allocated.bit k = true
  exhausted : ∀ choice, (a.allocate choice).2 = none ↔
    ∀ k < a.portCount.toNat, a.allocated.bit k = true
  releases : ∀ p spurious, (a.releaseSpurious p spurious).2 = true ↔
    (a.minPort ≤ p ∧ p ≤ a.maxPort) ∧ a.isAllocated p = true
  clears : ∀ p spurious, (a.releaseSpurious p spurious).2 = true →
    ∀ k, (a.releaseSpurious p spurious).1.allocated.bit k = true ↔
      k ≠ p.toNat - a.minPort.toNat ∧ a.allocated.bit k = true
  keeps : ∀ p spurious, (a.releaseSpurious p spurious).2 = false →
    (a.releaseSpurious p spurious).1 = a

theorem exact (a : PortAllocator) : a.Exact where
  allocates := by
    intro choice
    refine (a.allocate_cases choice).imp_right ?_
    rintro ⟨a', k, p, hsome, htake, hp⟩
    have hsize := a.size
    have hrange := htake.inRange
    have hpos : p.toNat - a.minPort.toNat = k := by omega
    refine ⟨a', p, hsome, UInt16.le_iff_toNat_le.2 (by omega),
      UInt16.le_iff_toNat_le.2 (by omega), ?_, fun i => ?_⟩
    · rw [hpos]
      simpa using mt Bitmap.mem_setBits.2 htake.free
    · rw [hpos, ← Bitmap.mem_setBits, htake.setBits, Finset.mem_insert, Bitmap.mem_setBits]
  exhausted := allocate_eq_none_iff a
  releases := by
    intro p spurious
    rw [releaseSpurious_eq]
    rcases a.release_cases p with ⟨hset, htrue, -⟩ | ⟨hclear, heq⟩
    · obtain ⟨⟨hmin, hmax⟩, -⟩ := isAllocated_iff.1 hset
      exact ⟨fun _ => ⟨⟨UInt16.le_iff_toNat_le.2 hmin, UInt16.le_iff_toNat_le.2 hmax⟩, hset⟩,
        fun _ => htrue⟩
    · rw [heq, hclear]
      simp
  clears := by
    intro p spurious h k
    rw [releaseSpurious_eq] at h ⊢
    rcases a.release_cases p with ⟨-, -, hfrees⟩ | ⟨-, heq⟩
    · rw [← Bitmap.mem_setBits, hfrees.setBits, Finset.mem_erase, Bitmap.mem_setBits]
    · rw [heq] at h
      exact absurd h (by simp)
  keeps := by
    intro p spurious h
    rw [releaseSpurious_eq] at h ⊢
    rcases a.release_cases p with ⟨-, htrue, -⟩ | ⟨-, heq⟩
    · exact absurd (htrue.symm.trans h) (by simp)
    · rw [heq]

theorem exists_new {minPort maxPort : UInt16} (hle : minPort ≤ maxPort)
    (hcount : maxPort.toNat - minPort.toNat + 1 ≤ 65535) :
    ∃ a, new minPort maxPort = .ok a := by
  unfold new
  rw [dif_pos ⟨UInt16.le_iff_toNat_le.1 hle, by omega⟩]
  exact ⟨_, rfl⟩

end PortAllocator

/-- For every range of at most 65535 ports: in every state of an allocator of the range, marked
    positions past the range or not, `allocate` and `release` are exact; and `new` makes an empty
    allocator, from which as many calls as there are ports return every port of the range once. -/
theorem port_allocator_exact {minPort maxPort : UInt16} (hle : minPort ≤ maxPort)
    (hcount : maxPort.toNat - minPort.toNat + 1 ≤ 65535) :
    (∀ a : PortAllocator, a.minPort = minPort → a.maxPort = maxPort → a.Exact) ∧
    ∃ empty, PortAllocator.new minPort maxPort = .ok empty ∧ empty.minPort = minPort ∧
      empty.maxPort = maxPort ∧ (∀ k, empty.allocated.bit k = false) ∧
      ∀ choices, choices.length = maxPort.toNat - minPort.toNat + 1 →
        ∃ ports : List UInt16, (empty.allocateAll choices).2 = ports.map some ∧ ports.Nodup ∧
          ∀ p, p ∈ ports ↔ minPort ≤ p ∧ p ≤ maxPort := by
  refine ⟨fun a _ _ => a.exact, ?_⟩
  obtain ⟨empty, hnew⟩ := PortAllocator.exists_new hle hcount
  obtain ⟨rfl, rfl, hbits, -⟩ := PortAllocator.new_eq_ok hnew
  have hclear : ∀ k, empty.allocated.bit k = false := by
    intro k
    have hnot : k ∉ empty.allocated.setBits := by simp [hbits]
    simpa using mt Bitmap.mem_setBits.2 hnot
  have hsize := empty.size
  have hmin := UInt16.le_iff_toNat_le.1 hle
  refine ⟨empty, hnew, rfl, rfl, hclear, fun choices hlength => ?_⟩
  obtain ⟨ports, hports, hnodup, hmem⟩ := PortAllocator.allocateAll_free choices empty
    (fun k _ => hclear k) (by rw [hbits, Finset.card_empty]; omega)
  refine ⟨ports, hports, hnodup, fun p => ?_⟩
  have hfree : empty.isAllocated p = false := by
    rw [Bool.eq_false_iff, ne_eq, PortAllocator.isAllocated_iff, hclear]
    simp
  rw [hmem, hfree, UInt16.le_iff_toNat_le, UInt16.le_iff_toNat_le]
  simp

/-- Two ports, and exchanges that fail. -/
theorem port_allocator_exact_pair :
    ∃ empty, PortAllocator.new 5 6 = .ok empty ∧ ∃ ports : List UInt16,
      (empty.allocateAll [⟨7, 64, [true]⟩, ⟨0, 9, [true, true]⟩]).2 = ports.map some ∧
        ports.Nodup ∧ ∀ p, p ∈ ports ↔ 5 ≤ p ∧ p ≤ 6 := by
  have hle : (5 : UInt16) ≤ 6 := by decide
  have hcount : (6 : UInt16).toNat - (5 : UInt16).toNat + 1 ≤ 65535 := by decide
  obtain ⟨-, empty, hnew, -, -, -, hall⟩ := port_allocator_exact hle hcount
  exact ⟨empty, hnew, hall _ rfl⟩

end Miuturn
