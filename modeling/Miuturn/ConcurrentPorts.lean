import Miuturn.PortAllocator
import Miuturn.Trace

set_option autoImplicit false

/-! # Concurrent callers of the port allocator

`allocate` and `release` of `allocation.rs` are lock-free loops over atomic words. Here any number
of callers run them at once, one atomic operation at a time: a load, a weak compare-exchange (which
may fail although the word is as expected), the `fetch_add` or the `fetch_sub`. What a call computes
between two atomic operations touches no shared memory, so it belongs to the operation before it.

The invariant is a ledger. A caller answers for the positions of the ports it holds, for the
position its `allocate` has just marked but not yet returned, and for the one its `release` has not
yet cleared; added up over all callers these are exactly the marked positions. The counter lags
behind the bitmap: it counts the ports from their `fetch_add` to their `fetch_sub`. -/

open RustStd

namespace Miuturn

namespace ConcurrentPorts

variable (r : PortRange) {ι : Type}

/-- Where a caller is: the atomic operation it performs next. -/
inductive Pc where
  | idle
  | load (startIdx bitOffset bitmapIdx : ℕ)
  | probe (startIdx bitOffset bitmapIdx : ℕ) (current : Word) (bit : ℕ)
  | lowest (startIdx bitOffset bitmapIdx : ℕ) (current : Word) (bit : ℕ)
  | countUp (idx bit : ℕ)
  | releaseLoad (port : UInt16)
  | releaseSwap (port : UInt16) (current : Word)
  | countDown
  deriving DecidableEq

/-- The next round of the outer loop, or the return of `None` after the last one. -/
def nextWord (startIdx bitOffset bitmapIdx : ℕ) : Pc :=
  if bitmapIdx < r.numWords then .load startIdx bitOffset bitmapIdx else .idle

/-- The head of the inner loop, with the value of the word last seen. -/
def tryLowest (startIdx bitOffset bitmapIdx : ℕ) (current : Word) : Pc :=
  match r.lowestFree (r.actualIdx startIdx bitmapIdx) current with
  | some bit => .lowest startIdx bitOffset bitmapIdx current bit
  | none => nextWord r startIdx bitOffset (bitmapIdx + 1)

/-- What `allocate` does with a loaded word. -/
def afterLoad (startIdx bitOffset bitmapIdx : ℕ) (current : Word) : Pc :=
  if current = BitVec.allOnes 64 then nextWord r startIdx bitOffset (bitmapIdx + 1)
  else
    match r.randomProbe (r.actualIdx startIdx bitmapIdx) current
        (PortRange.randomBit bitOffset bitmapIdx) with
    | some bit => .probe startIdx bitOffset bitmapIdx current bit
    | none => tryLowest r startIdx bitOffset bitmapIdx current

/-- The bit index of a port, `port - min_port`. -/
def position (port : UInt16) : ℕ := port.toNat - r.minPort.toNat

/-- The head of the loop of `release`: return `false` if the bit is clear in the value seen. -/
def tryRelease (port : UInt16) (current : Word) : Pc :=
  if current &&& BitVec.twoPow 64 (position r port % 64) = 0#64 then .idle
  else .releaseSwap port current

/-- The atomics that all callers share. -/
structure Memory where
  allocated : Bitmap
  allocatedCount : ℤ

/-- The next atomic operation of a call: the memory after it, where the call goes on, and the port
    it returns. `spurious` makes a compare-exchange fail whose word is as expected. -/
def advance (mem : Memory) (spurious : Bool) : Pc → Memory × Pc × Option UInt16
  | .idle => (mem, .idle, none)
  | .load startIdx bitOffset bitmapIdx =>
    let current := mem.allocated.word (r.actualIdx startIdx bitmapIdx)
    (mem, afterLoad r startIdx bitOffset bitmapIdx current, none)
  | .probe startIdx bitOffset bitmapIdx current bit
  | .lowest startIdx bitOffset bitmapIdx current bit =>
    let idx := r.actualIdx startIdx bitmapIdx
    if mem.allocated.word idx = current ∧ spurious = false then
      ({ mem with allocated := mem.allocated.set idx (current ||| BitVec.twoPow 64 bit) },
        .countUp idx bit, none)
    -- a failed exchange hands back the word it found, and the inner loop goes on with that
    else (mem, tryLowest r startIdx bitOffset bitmapIdx (mem.allocated.word idx), none)
  | .countUp idx bit =>
    ({ mem with allocatedCount := mem.allocatedCount + 1 }, .idle,
      some (r.minPort + PortRange.portIndex idx bit))
  | .releaseLoad port =>
    (mem, tryRelease r port (mem.allocated.word (position r port / 64)), none)
  | .releaseSwap port current =>
    let idx := position r port / 64
    if mem.allocated.word idx = current ∧ spurious = false then
      ({ mem with allocated :=
          mem.allocated.set idx (current &&& ~~~BitVec.twoPow 64 (position r port % 64)) },
        .countDown, none)
    else (mem, tryRelease r port (mem.allocated.word idx), none)
  | .countDown => ({ mem with allocatedCount := mem.allocatedCount - 1 }, .idle, none)

/-- The shared memory, and for each caller where it is and which ports it holds: those an `allocate`
    returned to it and it has not passed to `release`. -/
structure State (ι : Type) where
  memory : Memory
  pc : ι → Pc
  held : ι → List UInt16

inductive Action where
  | allocate (startRand bitRand : UInt64)
  | release (port : UInt16)
  | atomic (spurious : Bool)

/-- The first operation of `release`, after its two range checks. -/
def startRelease (port : UInt16) : Pc :=
  if port.toNat < r.minPort.toNat ∨ port.toNat > r.maxPort.toNat then .idle
  else if position r port / 64 ≥ r.numWords then .idle
  else .releaseLoad port

/-- One action of caller `i`: an idle caller starts a call, a busy one performs its next atomic
    operation. Only a held port is released. -/
def act [DecidableEq ι] (st : State ι) (i : ι) : Action → Option (State ι)
  | .allocate startRand bitRand =>
    let first := nextWord r (startRand.toNat % r.numWords) (bitRand.toUInt32.toNat % 64) 0
    if st.pc i = .idle then some { st with pc := Function.update st.pc i first } else none
  | .release port =>
    if st.pc i = .idle ∧ port ∈ st.held i then
      some { st with
        pc := Function.update st.pc i (startRelease r port),
        held := Function.update st.held i ((st.held i).erase port) }
    else none
  | .atomic spurious =>
    if st.pc i = .idle then none
    else
      let (memory, pc, returned) := advance r st.memory spurious (st.pc i)
      some { memory, pc := Function.update st.pc i pc,
             held := Function.update st.held i (returned.toList ++ st.held i) }

/-- A step of the system: one action of one caller. -/
def Step [DecidableEq ι] (st : State ι) (e : ι × Action) (st' : State ι) : Prop :=
  act r st e.1 e.2 = some st'

/-- A new allocator, nobody calling. -/
def start (a : PortAllocator) : State ι where
  memory := ⟨a.allocated, a.allocatedCount⟩
  pc := fun _ => .idle
  held := fun _ => []

/-! ## The ledger -/

/-- The position a call in progress answers for. -/
def inHand : Pc → Multiset ℕ
  | .countUp idx bit => {idx * 64 + bit}
  | .releaseLoad port | .releaseSwap port _ => {position r port}
  | _ => 0

/-- The positions a caller answers for. -/
def share (pc : Pc) (held : List UInt16) : Multiset ℕ :=
  Multiset.ofList (held.map (position r)) + inHand r pc

/-- The ports of a caller that the counter counts: those it holds and the one it is releasing. -/
def counted (pc : Pc) (held : List UInt16) : ℕ :=
  held.length + match pc with
    | .releaseLoad _ | .releaseSwap _ _ | .countDown => 1
    | _ => 0

@[simp] theorem counted_idle (held : List UInt16) : counted .idle held = held.length := rfl

@[simp] theorem counted_countUp (idx bit : ℕ) (held : List UInt16) :
    counted (.countUp idx bit) held = held.length := rfl

@[simp] theorem counted_releaseLoad (port : UInt16) (held : List UInt16) :
    counted (.releaseLoad port) held = held.length + 1 := rfl

@[simp] theorem counted_countDown (held : List UInt16) :
    counted .countDown held = held.length + 1 := rfl

/-- What a caller knows between two operations: a bit about to be taken was free and in range when
    its word was last seen, a bit about to be cleared was set. -/
def PcOk : Pc → Prop
  | .probe startIdx _ bitmapIdx current bit | .lowest startIdx _ bitmapIdx current bit =>
    r.Takeable (r.actualIdx startIdx bitmapIdx) current bit
  | .countUp idx bit => idx < r.numWords ∧ bit < 64 ∧ idx * 64 + bit < r.portCount.toNat
  | .releaseLoad port => r.minPort.toNat ≤ port.toNat ∧ port.toNat ≤ r.maxPort.toNat
  | .releaseSwap port current =>
    (r.minPort.toNat ≤ port.toNat ∧ port.toNat ≤ r.maxPort.toNat) ∧
      current.getLsbD (position r port % 64) = true
  | _ => True

/-- The invariant of the concurrent allocator. -/
structure Inv [Fintype ι] (st : State ι) : Prop where
  words : st.memory.allocated.length = r.numWords
  pcOk : ∀ i, PcOk r (st.pc i)
  heldInRange : ∀ i, ∀ p ∈ st.held i, r.minPort.toNat ≤ p.toNat ∧ p.toNat ≤ r.maxPort.toNat
  ledger : ∑ i, share r (st.pc i) (st.held i) = st.memory.allocated.setBits.val
  count : st.memory.allocatedCount = (∑ i, counted (st.pc i) (st.held i) : ℕ)

/-! ### What the local computations establish -/

/-- A call that is still looking for a bit answers for nothing. -/
structure Searching (pc : Pc) : Prop where
  inHand : inHand r pc = 0
  pcOk : PcOk r pc
  counted : ∀ held : List UInt16, counted pc held = held.length

variable {r}

theorem searching_nextWord (s o k : ℕ) : Searching r (nextWord r s o k) := by
  unfold nextWord
  split
  · exact ⟨rfl, trivial, fun _ => rfl⟩
  · exact ⟨rfl, trivial, fun _ => rfl⟩

theorem searching_tryLowest (s o k : ℕ) (current : Word) :
    Searching r (tryLowest r s o k current) := by
  unfold tryLowest
  split
  · next bit hbit =>
      exact ⟨rfl, PortRange.takeable_of_lowestFree (r.actualIdx_lt s k) hbit, fun _ => rfl⟩
  · exact searching_nextWord s o (k + 1)

theorem searching_afterLoad (s o k : ℕ) (current : Word) :
    Searching r (afterLoad r s o k current) := by
  unfold afterLoad
  split
  · exact searching_nextWord s o (k + 1)
  · split
    · next bit hbit =>
        have hlt : PortRange.randomBit o k < 64 := Nat.mod_lt _ (by decide)
        exact ⟨rfl, PortRange.takeable_of_randomProbe (r.actualIdx_lt s k) hlt hbit, fun _ => rfl⟩
    · exact searching_tryLowest s o k current

/-- The positions of the ports a caller holds. -/
theorem share_of_inHand_zero {pc : Pc} (h : inHand r pc = 0) (held : List UInt16) :
    share r pc held = Multiset.ofList (held.map (position r)) := by
  rw [share, h, add_zero]

theorem share_of_inHand_singleton {pc : Pc} {k : ℕ} (h : inHand r pc = {k}) (held : List UInt16) :
    share r pc held = k ::ₘ Multiset.ofList (held.map (position r)) := by
  rw [share, h, add_comm, Multiset.singleton_add]

/-- The position of a port of the range. -/
theorem position_lt {port : UInt16} (hmin : r.minPort.toNat ≤ port.toNat)
    (hmax : port.toNat ≤ r.maxPort.toNat) : position r port < r.portCount.toNat := by
  have hsize := r.size
  unfold position
  omega

theorem position_minPort_add {idx bit : ℕ} (hok : PcOk r (.countUp idx bit)) :
    position r (r.minPort + PortRange.portIndex idx bit) = idx * 64 + bit := by
  obtain ⟨hidx, hbit, hrange⟩ := hok
  rw [position, PortRange.toNat_minPort_add hrange (r.portIndex_toNat hidx hbit)]
  omega

theorem startRelease_of_inRange {port : UInt16} (hmin : r.minPort.toNat ≤ port.toNat)
    (hmax : port.toNat ≤ r.maxPort.toNat) : startRelease r port = .releaseLoad port := by
  have hpos := position_lt hmin hmax
  have hword : position r port / 64 < r.numWords := by
    unfold PortRange.numWords
    omega
  unfold startRelease
  rw [if_neg (by omega), if_neg (by omega)]

/-! ### Reading the ledger -/

variable [Fintype ι] {st : State ι}

/-- What a caller answers for is marked. -/
theorem Inv.mem_setBits (h : Inv r st) {i : ι} {k : ℕ} (hk : k ∈ share r (st.pc i) (st.held i)) :
    k ∈ st.memory.allocated.setBits := by
  have hle : share r (st.pc i) (st.held i) ≤ st.memory.allocated.setBits.val := by
    rw [← h.ledger]
    exact Trace.share_le_sum i
  exact Multiset.mem_of_le hle hk

/-- What a caller answers for lies in the range. -/
theorem Inv.lt_portCount (h : Inv r st) {i : ι} {k : ℕ}
    (hk : k ∈ share r (st.pc i) (st.held i)) : k < r.portCount.toNat := by
  rcases Multiset.mem_add.1 hk with hheld | hhand
  · obtain ⟨p, hp, rfl⟩ := List.mem_map.1 (Multiset.mem_coe.1 hheld)
    exact position_lt (h.heldInRange i p hp).1 (h.heldInRange i p hp).2
  · have hok := h.pcOk i
    cases hpc : st.pc i with
    | idle | load _ _ _ | probe _ _ _ _ _ | lowest _ _ _ _ _ | countDown =>
        rw [hpc] at hhand
        exact absurd hhand (Multiset.notMem_zero k)
    | countUp idx bit =>
        rw [hpc] at hhand hok
        rw [Multiset.mem_singleton.1 hhand]
        exact hok.2.2
    | releaseLoad port =>
        rw [hpc] at hhand hok
        rw [Multiset.mem_singleton.1 hhand]
        exact position_lt hok.1 hok.2
    | releaseSwap port current =>
        rw [hpc] at hhand hok
        rw [Multiset.mem_singleton.1 hhand]
        exact position_lt hok.1.1 hok.1.2

/-- Every marked position is somebody's. -/
theorem Inv.exists_share (h : Inv r st) {k : ℕ} (hk : k ∈ st.memory.allocated.setBits) :
    ∃ i, k ∈ share r (st.pc i) (st.held i) := by
  have hsum : k ∈ ∑ i, share r (st.pc i) (st.held i) := by
    rw [h.ledger]
    exact hk
  obtain ⟨i, -, hi⟩ := Multiset.mem_sum.1 hsum
  exact ⟨i, hi⟩

/-- Between calls the counter, the set bits and the held ports agree. -/
theorem Inv.quiescent (h : Inv r st) (hidle : ∀ i, st.pc i = .idle) :
    st.memory.allocatedCount = st.memory.allocated.setBits.card ∧
      st.memory.allocated.setBits.card = ∑ i, (st.held i).length := by
  have hcard := congrArg Multiset.card h.ledger
  have hcount := h.count
  rw [Multiset.card_sum] at hcard
  have hshare : ∀ held, share r .idle held = Multiset.ofList (held.map (position r)) :=
    share_of_inHand_zero rfl
  simp only [hidle, hshare, Multiset.coe_card, List.length_map, counted_idle] at hcard hcount
  rw [Finset.card_val] at hcard
  exact ⟨by rw [hcount, hcard], hcard.symm⟩

theorem inv_start {a : PortAllocator} (hempty : a.allocated.setBits = ∅)
    (hcount : a.allocatedCount = 0) : Inv a.toPortRange (start a : State ι) where
  words := a.words
  pcOk := fun _ => trivial
  heldInRange := fun i p hp => absurd hp (by simp [start])
  ledger := by simp [start, share, inHand, hempty]
  count := by simp [start, hcount]

/-! ### One step -/

variable [DecidableEq ι]

/-- Replacing one caller's part of the state, when marked positions and counter change by what its
    share and its count change by. -/
theorem Inv.update (h : Inv r st) (i : ι) {mem : Memory} {pc : Pc} {held : List UInt16}
    (hwords : mem.allocated.length = r.numWords) (hok : PcOk r pc)
    (hheld : ∀ p ∈ held, r.minPort.toNat ≤ p.toNat ∧ p.toNat ≤ r.maxPort.toNat)
    (hledger : mem.allocated.setBits.val + share r (st.pc i) (st.held i)
      = st.memory.allocated.setBits.val + share r pc held)
    (hcount : mem.allocatedCount + counted (st.pc i) (st.held i)
      = st.memory.allocatedCount + counted pc held) :
    Inv r ⟨mem, Function.update st.pc i pc, Function.update st.held i held⟩ where
  words := hwords
  pcOk := by
    intro j
    by_cases hj : j = i
    · subst hj
      simpa using hok
    · simpa [hj] using h.pcOk j
  heldInRange := by
    intro j
    by_cases hj : j = i
    · subst hj
      simpa using hheld
    · simpa [hj] using h.heldInRange j
  ledger := by
    have hoff : ∀ j, j ≠ i →
        share r (Function.update st.pc i pc j) (Function.update st.held i held j)
        = share r (st.pc j) (st.held j) := fun j hj => by simp [hj]
    have hsum := Trace.sum_add_eq_of_eq_off i hoff
    simp only [Function.update_self, h.ledger] at hsum
    exact add_right_cancel (hsum.trans hledger.symm)
  count := by
    have hoff : ∀ j, j ≠ i →
        counted (Function.update st.pc i pc j) (Function.update st.held i held j)
        = counted (st.pc j) (st.held j) := fun j hj => by simp [hj]
    have hsum := Trace.sum_add_eq_of_eq_off i hoff
    simp only [Function.update_self] at hsum
    have hold := h.count
    dsimp only
    omega

/-- A step that leaves the memory alone and whose caller answers for the same as before. -/
theorem Inv.update_pc (h : Inv r st) (i : ι) {pc : Pc} (hok : PcOk r pc)
    (hhand : inHand r pc = inHand r (st.pc i))
    (hcounted : counted pc (st.held i) = counted (st.pc i) (st.held i)) :
    Inv r ⟨st.memory, Function.update st.pc i pc, Function.update st.held i (st.held i)⟩ :=
  h.update i h.words hok (h.heldInRange i) (by simp only [share, hhand])
    (by rw [hcounted])

theorem inv_allocate (h : Inv r st) {i : ι} (hidle : st.pc i = .idle) (s o : ℕ) :
    Inv r { st with pc := Function.update st.pc i (nextWord r s o 0) } := by
  have hs := searching_nextWord (r := r) s o 0
  have hstep := h.update_pc i hs.pcOk (by rw [hs.inHand, hidle]; rfl)
    (by rw [hs.counted, hidle]; rfl)
  rwa [Function.update_eq_self] at hstep

theorem inv_release (h : Inv r st) {i : ι} (hidle : st.pc i = .idle) {port : UInt16}
    (hmem : port ∈ st.held i) :
    Inv r { st with
      pc := Function.update st.pc i (startRelease r port),
      held := Function.update st.held i ((st.held i).erase port) } := by
  obtain ⟨hmin, hmax⟩ := h.heldInRange i port hmem
  rw [startRelease_of_inRange hmin hmax]
  -- the position moves from the held ports to the call in progress
  have hperm : (port :: (st.held i).erase port).Perm (st.held i) := (List.perm_cons_erase hmem).symm
  have hshare : share r (.releaseLoad port) ((st.held i).erase port)
      = share r (st.pc i) (st.held i) := by
    rw [hidle, share_of_inHand_singleton rfl, share_of_inHand_zero rfl,
      ← Multiset.coe_eq_coe.2 (hperm.map (position r)), List.map_cons, ← Multiset.cons_coe]
  have hcounted : counted (.releaseLoad port) ((st.held i).erase port)
      = counted (st.pc i) (st.held i) := by
    rw [hidle]
    have hlen := hperm.length_eq
    simp only [counted_idle, counted_releaseLoad, List.length_cons] at hlen ⊢
    omega
  exact h.update i h.words ⟨hmin, hmax⟩ (fun p hp => h.heldInRange i p (List.mem_of_mem_erase hp))
    (by rw [hshare]) (by rw [hcounted])

/-- A successful exchange of `allocate`, from either loop. -/
theorem inv_take (h : Inv r st) {i : ι} {s k bit : ℕ} {pc : Pc} (hpc : st.pc i = pc)
    (hhand : inHand r pc = 0) (hcounted : counted pc (st.held i) = (st.held i).length)
    (htake : r.Takeable (r.actualIdx s k) (st.memory.allocated.word (r.actualIdx s k)) bit) :
    Inv r ⟨⟨st.memory.allocated.set (r.actualIdx s k)
        (st.memory.allocated.word (r.actualIdx s k) ||| BitVec.twoPow 64 bit),
        st.memory.allocatedCount⟩,
      Function.update st.pc i (.countUp (r.actualIdx s k) bit),
      Function.update st.held i (st.held i)⟩ := by
  have hidx := r.actualIdx_lt s k
  have hlen : r.actualIdx s k < st.memory.allocated.length := by rw [h.words]; exact hidx
  refine h.update i (by rw [List.length_set, h.words]) ⟨hidx, htake.lt, htake.inRange⟩
    (h.heldInRange i) ?_ (by rw [hpc, hcounted]; rfl)
  have hfree := Bitmap.notMem_setBits htake.lt htake.free
  rw [Bitmap.setBits_set_or hlen htake.lt, Finset.insert_val_of_notMem hfree, hpc,
    share_of_inHand_zero hhand, share_of_inHand_singleton rfl, Multiset.cons_add, Multiset.add_cons]

/-- A successful exchange of `release`. -/
theorem inv_clear (h : Inv r st) {i : ι} {port : UInt16} {current : Word}
    (hpc : st.pc i = .releaseSwap port current)
    (hword : st.memory.allocated.word (position r port / 64) = current) :
    Inv r ⟨⟨st.memory.allocated.set (position r port / 64)
        (current &&& ~~~BitVec.twoPow 64 (position r port % 64)), st.memory.allocatedCount⟩,
      Function.update st.pc i .countDown, Function.update st.held i (st.held i)⟩ := by
  have hok := h.pcOk i
  rw [hpc] at hok
  obtain ⟨⟨hmin, hmax⟩, hbit⟩ := hok
  have hlt : position r port % 64 < 64 := Nat.mod_lt _ (by decide)
  have hpos : position r port / 64 * 64 + position r port % 64 = position r port := by omega
  have hmem : position r port ∈ st.memory.allocated.setBits := by
    rw [← hpos]
    exact Bitmap.mem_setBits_pos hlt (by rw [hword]; exact hbit)
  have hlen : position r port / 64 < st.memory.allocated.length := by
    have := Bitmap.lt_of_bit (Bitmap.mem_setBits.1 hmem)
    omega
  refine h.update i (by rw [List.length_set, h.words]) trivial (h.heldInRange i) ?_
    (by rw [hpc]; rfl)
  subst hword
  rw [Bitmap.setBits_set_and_not hlen hlt, hpos, hpc, share_of_inHand_singleton rfl,
    share_of_inHand_zero rfl, Finset.erase_val, Multiset.add_cons, ← Multiset.cons_add,
    Multiset.cons_erase hmem]

/-- `release` of a position that is still marked never returns `false`. -/
theorem inv_tryRelease (h : Inv r st) {i : ι} {port : UInt16}
    (hhand : inHand r (st.pc i) = {position r port})
    (hcounted : counted (st.pc i) (st.held i) = (st.held i).length + 1)
    (hrange : r.minPort.toNat ≤ port.toNat ∧ port.toNat ≤ r.maxPort.toNat) :
    Inv r ⟨st.memory, Function.update st.pc i
        (tryRelease r port (st.memory.allocated.word (position r port / 64))),
      Function.update st.held i (st.held i)⟩ := by
  have hmem : position r port ∈ st.memory.allocated.setBits :=
    h.mem_setBits (by rw [share_of_inHand_singleton hhand]; exact Multiset.mem_cons_self _ _)
  have hbit := Bitmap.mem_setBits.1 hmem
  have hset : ¬ st.memory.allocated.word (position r port / 64)
      &&& BitVec.twoPow 64 (position r port % 64) = 0#64 := by
    rw [Word.and_twoPow_eq_zero (Nat.mod_lt _ (by decide))]
    simpa [Bitmap.bit] using hbit
  rw [tryRelease, if_neg hset]
  exact h.update_pc i ⟨hrange, hbit⟩ hhand.symm hcounted.symm

/-- The `fetch_add` of `allocate` and its return: the port is held from here on. -/
theorem inv_countUp (h : Inv r st) {i : ι} {idx bit : ℕ} (hpc : st.pc i = .countUp idx bit) :
    Inv r ⟨⟨st.memory.allocated, st.memory.allocatedCount + 1⟩, Function.update st.pc i .idle,
      Function.update st.held i ((r.minPort + PortRange.portIndex idx bit) :: st.held i)⟩ := by
  have hok := h.pcOk i
  rw [hpc] at hok
  have hpos := position_minPort_add hok
  obtain ⟨hidx, hbit, hrange⟩ := hok
  have hport := PortRange.toNat_minPort_add hrange (r.portIndex_toNat hidx hbit)
  have hsize := r.size
  refine h.update i h.words trivial ?_ ?_ ?_
  · intro p hp
    rcases List.mem_cons.1 hp with rfl | hp
    · omega
    · exact h.heldInRange i p hp
  · rw [hpc, share_of_inHand_singleton rfl, share_of_inHand_zero rfl, List.map_cons, hpos,
      Multiset.cons_coe]
  · rw [hpc]
    simp only [counted_idle, counted_countUp, List.length_cons]
    omega

/-- One atomic operation of a call in progress keeps the invariant. -/
theorem inv_atomic (h : Inv r st) (i : ι) (spurious : Bool) {mem : Memory} {pc : Pc}
    {returned : Option UInt16}
    (hadv : advance r st.memory spurious (st.pc i) = (mem, pc, returned)) :
    Inv r ⟨mem, Function.update st.pc i pc,
      Function.update st.held i (returned.toList ++ st.held i)⟩ := by
  have hok := h.pcOk i
  cases hpc : st.pc i with
  | idle =>
      rw [hpc] at hadv
      obtain ⟨rfl, rfl, rfl⟩ := hadv
      exact h.update_pc i trivial (by rw [hpc]) (by rw [hpc])
  | load s o k =>
      rw [hpc] at hadv
      obtain ⟨rfl, rfl, rfl⟩ := hadv
      have hs := searching_afterLoad (r := r) s o k (st.memory.allocated.word (r.actualIdx s k))
      exact h.update_pc i hs.pcOk (by rw [hs.inHand, hpc]; rfl) (by rw [hs.counted, hpc]; rfl)
  | probe s o k current bit | lowest s o k current bit =>
      rw [hpc] at hadv hok
      simp only [advance] at hadv
      split at hadv
      · next hswap =>
          obtain ⟨rfl, rfl, rfl⟩ := hadv
          obtain ⟨rfl, -⟩ := hswap
          exact inv_take h hpc rfl rfl hok
      · obtain ⟨rfl, rfl, rfl⟩ := hadv
        have hs := searching_tryLowest (r := r) s o k (st.memory.allocated.word (r.actualIdx s k))
        exact h.update_pc i hs.pcOk (by rw [hs.inHand, hpc]; rfl) (by rw [hs.counted, hpc]; rfl)
  | countUp idx bit =>
      rw [hpc] at hadv
      obtain ⟨rfl, rfl, rfl⟩ := hadv
      exact inv_countUp h hpc
  | releaseLoad port =>
      rw [hpc] at hadv hok
      obtain ⟨rfl, rfl, rfl⟩ := hadv
      exact inv_tryRelease h (by rw [hpc]; rfl) (by rw [hpc]; rfl) hok
  | releaseSwap port current =>
      rw [hpc] at hadv hok
      simp only [advance] at hadv
      split at hadv
      · next hswap =>
          obtain ⟨rfl, rfl, rfl⟩ := hadv
          exact inv_clear h hpc hswap.1
      · obtain ⟨rfl, rfl, rfl⟩ := hadv
        exact inv_tryRelease h (by rw [hpc]; rfl) (by rw [hpc]; rfl) hok.1
  | countDown =>
      rw [hpc] at hadv
      obtain ⟨rfl, rfl, rfl⟩ := hadv
      refine h.update i h.words trivial (h.heldInRange i) (by rw [hpc]; rfl) ?_
      rw [hpc]
      simp only [counted_idle, counted_countDown, Option.toList_none, List.nil_append]
      omega

/-- Every action of every caller keeps the invariant. -/
theorem inv_step (h : Inv r st) {e : ι × Action} {st' : State ι} (hstep : Step r st e st') :
    Inv r st' := by
  obtain ⟨i, action⟩ := e
  cases action with
  | allocate startRand bitRand =>
      simp only [Step, act] at hstep
      split at hstep
      · next hidle =>
          obtain rfl := Option.some.inj hstep
          exact inv_allocate h hidle _ _
      · exact absurd hstep (by simp)
  | release port =>
      simp only [Step, act] at hstep
      split at hstep
      · next hheld =>
          obtain rfl := Option.some.inj hstep
          exact inv_release h hheld.1 hheld.2
      · exact absurd hstep (by simp)
  | atomic spurious =>
      simp only [Step, act] at hstep
      split at hstep
      · exact absurd hstep (by simp)
      · obtain rfl := Option.some.inj hstep
        exact inv_atomic h i spurious rfl

/-! ### Whole runs -/

/-- **No port has two holders.** For a new allocator over any range, any number of callers and any
    interleaving of the atomic operations of their calls: the held ports are pairwise distinct, lie
    in the range and have their bit set; no bit past the range is ever set; the counter never goes
    below zero; and between calls it is the number of set bits and of held ports. -/
theorem held_ports_exclusive {minPort maxPort : UInt16} {a : PortAllocator}
    (hnew : PortAllocator.new minPort maxPort = .ok a) {tr : List (ι × Action)} {st : State ι}
    (hrun : Trace.Run (Step a.toPortRange) (start a) tr st) :
    (∀ i, (st.held i).Nodup) ∧ (∀ i j, i ≠ j → ∀ p ∈ st.held i, p ∉ st.held j) ∧
    (∀ i, ∀ p ∈ st.held i, minPort ≤ p ∧ p ≤ maxPort ∧
      st.memory.allocated.bit (p.toNat - minPort.toNat) = true) ∧
    (∀ k, a.portCount.toNat ≤ k → st.memory.allocated.bit k = false) ∧
    0 ≤ st.memory.allocatedCount ∧
    ((∀ i, st.pc i = .idle) → st.memory.allocatedCount = st.memory.allocated.setBits.card ∧
      st.memory.allocated.setBits.card = ∑ i, (st.held i).length) := by
  obtain ⟨rfl, rfl, hempty, hcount⟩ := PortAllocator.new_eq_ok hnew
  have h : Inv a.toPortRange st := hrun.invariant (P := fun _ st => Inv a.toPortRange st)
    (inv_start hempty hcount) (fun _ _ _ _ _ hinv hstep => inv_step hinv hstep)
  have hnodup : (∑ i, share a.toPortRange (st.pc i) (st.held i)).Nodup := by
    rw [h.ledger]
    exact st.memory.allocated.setBits.nodup
  have hmem : ∀ i, ∀ p ∈ st.held i,
      position a.toPortRange p ∈ share a.toPortRange (st.pc i) (st.held i) := fun i p hp =>
    Multiset.mem_add.2 (Or.inl (Multiset.mem_coe.2 (List.mem_map_of_mem hp)))
  refine ⟨fun i => ?_, fun i j hij p hi hj => ?_, fun i p hp => ?_, fun k hk => ?_, ?_, ?_⟩
  · have hshare := Multiset.nodup_of_le (Trace.share_le_sum i) hnodup
    exact (Multiset.coe_nodup.1 (Multiset.nodup_add.1 hshare).1).of_map _
  · exact Trace.disjoint_of_nodup_sum hnodup hij (hmem i p hi) (hmem j p hj)
  · exact ⟨(h.heldInRange i p hp).1, (h.heldInRange i p hp).2,
      Bitmap.mem_setBits.1 (h.mem_setBits (hmem i p hp))⟩
  · by_contra hbit
    obtain ⟨i, hi⟩ := h.exists_share (Bitmap.mem_setBits.2 (Bool.eq_true_of_not_eq_false hbit))
    exact absurd (h.lt_portCount hi) (not_lt.2 hk)
  · rw [h.count]
    exact Int.natCast_nonneg _
  · exact h.quiescent

/-- Two callers race for the first port of a range of two: the loser's exchange fails and it takes
    the other port. -/
theorem held_ports_exclusive_race : ∃ (a : PortAllocator) (st : State (Fin 2)),
    PortAllocator.new 5 6 = .ok a ∧
    Trace.Run (Step a.toPortRange) (start a)
      [(0, .allocate 0 0), (1, .allocate 0 0), (0, .atomic false), (1, .atomic false),
        (0, .atomic false), (1, .atomic false), (1, .atomic true), (1, .atomic false),
        (1, .atomic false), (0, .atomic false)] st ∧
    st.held 0 = [5] ∧ st.held 1 = [6] ∧ (∀ k, 2 ≤ k → st.memory.allocated.bit k = false) := by
  let a : PortAllocator :=
    { minPort := 5, maxPort := 6, portCount := 2, size := by decide, nonempty := by decide,
      allocated := [0#64], allocatedCount := 0, words := by decide }
  have hexec : (Trace.exec (fun st e => act a.toPortRange st e.1 e.2) (start a : State (Fin 2))
      [(0, .allocate 0 0), (1, .allocate 0 0), (0, .atomic false), (1, .atomic false),
        (0, .atomic false), (1, .atomic false), (1, .atomic true), (1, .atomic false),
        (1, .atomic false), (0, .atomic false)]).map (fun st => (st.held 0, st.held 1))
      = some ([5], [6]) := by decide +kernel
  obtain ⟨st, hst, hheld⟩ := Option.map_eq_some_iff.1 hexec
  obtain ⟨h0, h1⟩ := Prod.ext_iff.1 hheld
  have hnew : PortAllocator.new 5 6 = .ok a := rfl
  exact ⟨a, st, hnew, Trace.Run.of_exec hst, h0, h1,
    (held_ports_exclusive hnew (Trace.Run.of_exec hst)).2.2.2.1⟩

end ConcurrentPorts

end Miuturn
