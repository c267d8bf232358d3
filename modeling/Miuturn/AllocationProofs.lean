import Miuturn.Allocation

set_option autoImplicit false

/-! # The tables stay consistent

The five structures of the relay (allocation map, port bitmap, counters, bandwidth trackers and
channel table) are updated by separate statements of `allocation.rs`. `Consistent` says how they
agree, and each operation of the tables is shown to keep it. The port allocator is used through
`Takes` and `Frees` only. -/

open RustStd

namespace Miuturn

/-! ## Ports -/

/-- The same ports are taken. -/
structure SamePorts (a a' : PortAllocator) : Prop where
  range : a'.toPortRange = a.toPortRange
  setBits : a'.allocated.setBits = a.allocated.setBits
  count : a'.allocatedCount = a.allocatedCount

theorem SamePorts.refl (a : PortAllocator) : SamePorts a a := ⟨rfl, rfl, rfl⟩

theorem SamePorts.trans {a b c : PortAllocator} (h : SamePorts a b) (h' : SamePorts b c) :
    SamePorts a c :=
  ⟨h'.range.trans h.range, h'.setBits.trans h.setBits, h'.count.trans h.count⟩

/-- The representation has no room for a difference. -/
theorem SamePorts.eq {a a' : PortAllocator} (h : SamePorts a a') : a' = a := by
  obtain ⟨range, allocated, allocatedCount, words⟩ := a
  obtain ⟨range', allocated', allocatedCount', words'⟩ := a'
  obtain rfl : range' = range := h.range
  obtain rfl : allocatedCount' = allocatedCount := h.count
  obtain rfl : allocated' = allocated := Bitmap.eq_of_setBits (words'.trans words.symm) h.setBits
  rfl

theorem SamePorts.takes {a b c : PortAllocator} {k : ℕ} (h : SamePorts a b)
    (h' : PortAllocator.Takes b c k) : PortAllocator.Takes a c k where
  range := h'.range.trans h.range
  free := by
    rw [← h.setBits]
    exact h'.free
  inRange := by
    rw [← h.range]
    exact h'.inRange
  setBits := by rw [h'.setBits, h.setBits]
  count := by rw [h'.count, h.count]

/-- A port that is taken and given back at once leaves no trace. -/
theorem samePorts_of_takes_frees {a b c : PortAllocator} {k : ℕ} (h : PortAllocator.Takes a b k)
    (h' : PortAllocator.Frees b c k) : SamePorts a c where
  range := h'.range.trans h.range
  setBits := by rw [h'.setBits, h.setBits, Finset.erase_insert h.free]
  count := by
    rw [h'.count, h.count]
    omega

/-- The port of a position just taken is given back by `release`. -/
theorem PortAllocator.Takes.release {a b : PortAllocator} {k : ℕ} {port : UInt16}
    (h : PortAllocator.Takes a b k) (hport : port.toNat = a.minPort.toNat + k) :
    PortAllocator.Frees b (b.release port).1 k := by
  have hmem : k ∈ b.allocated.setBits := by
    rw [h.setBits]
    exact Finset.mem_insert_self _ _
  refine (PortAllocator.release_of_mem ?_ ?_ hmem).1
  · rw [h.range]
    exact hport
  · rw [h.range]
    exact h.inRange

/-- The loop of `create_allocation` ends with one more port taken, or with the same ports. -/
theorem acquireRelay_cases (bindAddr : Ipv4Addr) (env : Env) (remaining : ℕ) :
    ∀ (attempts : ℕ) (pa : PortAllocator) (last : Option (SocketAddr × String)),
      (∃ pa' e, AllocationTable.acquireRelay bindAddr env remaining attempts pa last
          = (pa', .error e) ∧ SamePorts pa pa') ∨
      (∃ pa' port k, AllocationTable.acquireRelay bindAddr env remaining attempts pa last
          = (pa', .ok port) ∧ PortAllocator.Takes pa pa' k ∧
            port.toNat = pa.minPort.toNat + k) := by
  induction remaining with
  | zero =>
      intro attempts pa last
      cases last with
      | none => exact Or.inl ⟨pa, _, rfl, .refl pa⟩
      | some failure => exact Or.inl ⟨pa, _, rfl, .refl pa⟩
  | succ remaining ih =>
      intro attempts pa last
      rw [AllocationTable.acquireRelay_succ]
      rcases pa.allocate_cases (env.portChoice attempts) with
        hnone | ⟨pa', k, port, hsome, htake, hp⟩
      · rw [hnone]
        exact Or.inl ⟨pa, _, rfl, .refl pa⟩
      · rw [hsome]
        cases hbind : env.bindResult attempts with
        | ok _ => exact Or.inr ⟨pa', port, k, rfl, htake, hp⟩
        | error source =>
            dsimp only
            have hsame := samePorts_of_takes_frees htake (htake.release hp)
            rcases ih (attempts + 1) (pa'.release port).1 (some (.v4 bindAddr port, source)) with
              ⟨pa'', e, heq, hs⟩ | ⟨pa'', port', k', heq, ht, hp'⟩
            · exact Or.inl ⟨pa'', e, heq, hsame.trans hs⟩
            · refine Or.inr ⟨pa'', port', k', heq, hsame.takes ht, ?_⟩
              rw [hp', hsame.range]

/-! ## Consistency -/

/-- How the structures of the relay agree. -/
structure Consistent (t : AllocationTable) (ct : ChannelTable) : Prop where
  /-- A port's bit is set exactly when it is the port of a key. -/
  bits : ∀ i, t.portAllocator.allocated.bit i = true ↔
    ∃ k ∈ t.allocations, k.port.toNat = t.portAllocator.minPort.toNat + i
  /-- A key is the relayed address of its allocation: the external address and a port in range. -/
  key : ∀ k a, t.allocations.lookup k = some a → a.relayedAddr = k ∧ k.ip = .v4 t.externalAddr ∧
    t.portAllocator.minPort.toNat ≤ k.port.toNat ∧ k.port.toNat ≤ t.portAllocator.maxPort.toNat
  active : t.stats.activeAllocations = HashMap.len t.allocations
  count : t.portAllocator.allocatedCount = HashMap.len t.allocations
  /-- The bandwidth manager tracks exactly the keys. -/
  trackers : ∀ s, s ∈ t.bandwidthManager.trackers ↔ ∃ k ∈ t.allocations, k.toString = s
  /-- A client has at most one allocation. -/
  clients : ∀ k k' a a', t.allocations.lookup k = some a → t.allocations.lookup k' = some a' →
    a.clientAddr = a'.clientAddr → k = k'
  /-- A channel binding is stored under its own address and number, and its address is a key. -/
  bindings : ∀ r n b, ct.channels.lookup (r, n) = some b →
    b.relayedAddr = r ∧ b.channelId = n ∧ r ∈ t.allocations

variable {t : AllocationTable} {ct : ChannelTable}

theorem eq_v4_of_ip {k : SocketAddr} {ip : Ipv4Addr} (h : k.ip = .v4 ip) : k = .v4 ip k.port := by
  cases k with
  | v4 ip' port =>
      obtain rfl : ip' = ip := IpAddr.v4.inj h
      rfl
  | v6 ip' port flowinfo scopeId => exact absurd h (by simp [SocketAddr.ip])

/-- A key is determined by its port. -/
theorem Consistent.key_unique (h : Consistent t ct) {k k' : SocketAddr} (hk : k ∈ t.allocations)
    (hk' : k' ∈ t.allocations) (hport : k.port = k'.port) : k = k' := by
  obtain ⟨a, ha⟩ := HashMap.exists_lookup hk
  obtain ⟨a', ha'⟩ := HashMap.exists_lookup hk'
  rw [eq_v4_of_ip (h.key k a ha).2.1, eq_v4_of_ip (h.key k' a' ha').2.1, hport]

/-- A key is determined by the string its tracker is filed under. -/
theorem Consistent.toString_inj (h : Consistent t ct) {k k' : SocketAddr} (hk : k ∈ t.allocations)
    (hk' : k' ∈ t.allocations) (hstr : k.toString = k'.toString) : k = k' := by
  obtain ⟨a, ha⟩ := HashMap.exists_lookup hk
  obtain ⟨a', ha'⟩ := HashMap.exists_lookup hk'
  have e := eq_v4_of_ip (h.key k a ha).2.1
  have e' := eq_v4_of_ip (h.key k' a' ha').2.1
  rw [e, e'] at hstr
  rw [e, e', SocketAddr.toString_v4_inj hstr]

/-! ## Removal -/

/-- Removing an entry gives back its port, and only that one. -/
theorem Consistent.release (h : Consistent t ct) {addr : SocketAddr} {a : Allocation}
    (ha : t.allocations.lookup addr = some a) :
    PortAllocator.Frees t.portAllocator (t.portAllocator.release addr.port).1
      (addr.port.toNat - t.portAllocator.minPort.toNat) := by
  obtain ⟨-, -, hmin, hmax⟩ := h.key addr a ha
  have hsize := t.portAllocator.size
  have hpos : addr.port.toNat = t.portAllocator.minPort.toNat
      + (addr.port.toNat - t.portAllocator.minPort.toNat) := by omega
  refine (PortAllocator.release_of_mem hpos (by omega) ?_).1
  exact Bitmap.mem_setBits.2 ((h.bits _).2 ⟨addr, HashMap.mem_of_lookup ha, hpos⟩)

theorem removeAllocation_of_some {addr : SocketAddr} {a : Allocation}
    (h : t.allocations.lookup addr = some a) :
    t.removeAllocation ct addr
      = (((t.dropEntry ct addr).1.subActive 1, (t.dropEntry ct addr).2), some a) := by
  rw [AllocationTable.removeAllocation, h]

theorem removeAllocation_of_none {addr : SocketAddr} (h : t.allocations.lookup addr = none) :
    t.removeAllocation ct addr = ((t, ct), none) := by
  rw [AllocationTable.removeAllocation, h]

theorem lookup_removeAllocation {addr k : SocketAddr} {a : Allocation} :
    (t.removeAllocation ct addr).1.1.allocations.lookup k = some a ↔
      k ≠ addr ∧ t.allocations.lookup k = some a := by
  cases haddr : t.allocations.lookup addr with
  | none =>
      rw [removeAllocation_of_none haddr]
      refine ⟨fun h => ⟨?_, h⟩, fun h => h.2⟩
      rintro rfl
      exact absurd (haddr.symm.trans h) (by simp)
  | some b =>
      rw [removeAllocation_of_some haddr]
      exact HashMap.lookup_erase_eq_some

theorem lookup_removeForRelayed {addr : SocketAddr} {key : SocketAddr × UInt16}
    {b : ChannelBinding} :
    (ct.removeForRelayed addr).channels.lookup key = some b ↔
      ct.channels.lookup key = some b ∧ key.1 ≠ addr := by
  simp only [ChannelTable.removeForRelayed, HashMap.lookup_retain, Option.filter_eq_some_iff,
    decide_eq_true_eq]

/-- The port, the tracker and the bindings of an entry go with it, and nobody else's do. -/
theorem Consistent.dropEntry (h : Consistent t ct) {addr : SocketAddr} {a : Allocation}
    (ha : t.allocations.lookup addr = some a) :
    Consistent ((t.dropEntry ct addr).1.subActive 1) (t.dropEntry ct addr).2 := by
  have hmem : addr ∈ t.allocations := HashMap.mem_of_lookup ha
  have hfree := h.release ha
  have hlen := HashMap.len_erase_of_mem hmem
  have hold : ∀ k b, (t.allocations.erase addr).lookup k = some b →
      t.allocations.lookup k = some b := fun _ _ hb => (HashMap.lookup_erase_eq_some.1 hb).2
  refine ⟨?_, ?_, ?_, ?_, ?_, ?_, ?_⟩
  · intro i
    have hbits := congrArg (i ∈ ·) hfree.setBits
    simp only [Bitmap.mem_setBits, Finset.mem_erase, h.bits, eq_iff_iff] at hbits
    -- no other key has the released port
    have huniq : ∀ k ∈ t.allocations, k.port.toNat = addr.port.toNat → k = addr :=
      fun k hk hport => h.key_unique hk hmem (UInt16.toNat_inj.1 hport)
    obtain ⟨-, -, hmin, -⟩ := h.key addr a ha
    show (t.portAllocator.release addr.port).1.allocated.bit i = true ↔
      ∃ k ∈ t.allocations.erase addr, k.port.toNat
        = (t.portAllocator.release addr.port).1.minPort.toNat + i
    rw [hbits, hfree.range, HashMap.exists_mem_erase huniq]
    exact and_congr_left' (by omega)
  · intro k b hb
    show b.relayedAddr = k ∧ k.ip = .v4 t.externalAddr ∧
      (t.portAllocator.release addr.port).1.minPort.toNat ≤ k.port.toNat ∧
      k.port.toNat ≤ (t.portAllocator.release addr.port).1.maxPort.toNat
    rw [hfree.range]
    exact h.key k b (hold k b hb)
  · show t.stats.activeAllocations - (1 : ℕ) = HashMap.len (t.allocations.erase addr)
    rw [h.active]
    omega
  · show (t.portAllocator.release addr.port).1.allocatedCount
      = HashMap.len (t.allocations.erase addr)
    rw [hfree.count, h.count]
    omega
  · intro s
    -- no other key prints the same
    have huniq : ∀ k ∈ t.allocations, k.toString = addr.toString → k = addr :=
      fun k hk hstr => h.toString_inj hk hmem hstr
    show s ∈ (t.bandwidthManager.unregisterAllocation addr.toString).trackers ↔
      ∃ k ∈ t.allocations.erase addr, k.toString = s
    rw [BandwidthManager.mem_unregisterAllocation, h.trackers, HashMap.exists_mem_erase huniq]
  · intro k k' b b' hb hb'
    exact h.clients k k' b b' (hold k b hb) (hold k' b' hb')
  · intro r n b hb
    obtain ⟨hb, hne⟩ := lookup_removeForRelayed.1 hb
    obtain ⟨hrel, hch, hr⟩ := h.bindings r n b hb
    exact ⟨hrel, hch, AList.mem_erase.2 ⟨hne, hr⟩⟩

theorem Consistent.removeAllocation (h : Consistent t ct) (addr : SocketAddr) :
    Consistent (t.removeAllocation ct addr).1.1 (t.removeAllocation ct addr).1.2 := by
  cases ha : t.allocations.lookup addr with
  | none =>
      rw [removeAllocation_of_none ha]
      exact h
  | some a =>
      rw [removeAllocation_of_some ha]
      exact h.dropEntry ha

/-- Two ports of the table can be given back in either order. -/
theorem Consistent.release_comm (h : Consistent t ct) {k k' : SocketAddr}
    (hk : k ∈ t.allocations) (hk' : k' ∈ t.allocations) (hne : k ≠ k') :
    ((t.portAllocator.release k.port).1.release k'.port).1
      = ((t.portAllocator.release k'.port).1.release k.port).1 := by
  -- what two releases free, one after the other
  have hboth : ∀ {k k' : SocketAddr}, k ∈ t.allocations → k' ∈ t.allocations → k ≠ k' →
      let pa := ((t.portAllocator.release k.port).1.release k'.port).1
      pa.toPortRange = t.portAllocator.toPortRange ∧
        pa.allocated.setBits = (t.portAllocator.allocated.setBits.erase
          (k.port.toNat - t.portAllocator.minPort.toNat)).erase
            (k'.port.toNat - t.portAllocator.minPort.toNat) ∧
        pa.allocatedCount = t.portAllocator.allocatedCount - 1 - 1 := by
    intro k k' hk hk' hne
    obtain ⟨a, ha⟩ := HashMap.exists_lookup hk
    obtain ⟨a', ha'⟩ := HashMap.exists_lookup hk'
    have hfirst := h.release ha
    have ha'' : ((t.dropEntry ct k).1.subActive 1).allocations.lookup k' = some a' :=
      (AList.lookup_erase_ne hne.symm).trans ha'
    have hsecond := (h.dropEntry ha).release ha''
    have hmin : (t.portAllocator.release k.port).1.minPort = t.portAllocator.minPort :=
      congrArg PortRange.minPort hfirst.range
    have hsetBits := hsecond.setBits
    simp only [AllocationTable.subActive, AllocationTable.dropEntry, hmin] at hsetBits
    exact ⟨hsecond.range.trans hfirst.range, hsetBits.trans (by rw [hfirst.setBits]),
      hsecond.count.trans (congrArg (· - 1) hfirst.count)⟩
  obtain ⟨hrange, hsetBits, hcount⟩ := hboth hk hk' hne
  obtain ⟨hrange', hsetBits', hcount'⟩ := hboth hk' hk hne.symm
  refine SamePorts.eq ⟨hrange.trans hrange'.symm, ?_, hcount.trans hcount'.symm⟩
  rw [hsetBits, hsetBits', Finset.erase_right_comm]

/-! ## Bulk expiry is removal one by one -/

/-- `remove_allocation` for a list of addresses in turn. -/
def removeAll (t : AllocationTable) (ct : ChannelTable) : List SocketAddr →
    AllocationTable × ChannelTable
  | [] => (t, ct)
  | addr :: addrs =>
    removeAll (t.removeAllocation ct addr).1.1 (t.removeAllocation ct addr).1.2 addrs

/-- Removal does not look at the counter of active allocations. -/
theorem removeAllocation_subActive (n : ℕ) (addr : SocketAddr) :
    (t.subActive n).removeAllocation ct addr
      = (((t.removeAllocation ct addr).1.1.subActive n, (t.removeAllocation ct addr).1.2),
          (t.removeAllocation ct addr).2) := by
  cases ha : t.allocations.lookup addr with
  | none => rw [removeAllocation_of_none ha, removeAllocation_of_none (t := t.subActive n) ha]
  | some a =>
      rw [removeAllocation_of_some ha, removeAllocation_of_some (t := t.subActive n) ha]
      have hsub : t.stats.activeAllocations - (n : ℤ) - ((1 : ℕ) : ℤ)
          = t.stats.activeAllocations - ((1 : ℕ) : ℤ) - (n : ℤ) := by omega
      simp only [AllocationTable.subActive, AllocationTable.dropEntry, hsub]

theorem removeAll_subActive (n : ℕ) (addrs : List SocketAddr) :
    ∀ (t : AllocationTable) (ct : ChannelTable),
      removeAll (t.subActive n) ct addrs
        = ((removeAll t ct addrs).1.subActive n, (removeAll t ct addrs).2) := by
  induction addrs with
  | nil => exact fun _ _ => rfl
  | cons addr addrs ih =>
      intro t ct
      rw [removeAll, removeAllocation_subActive]
      exact ih _ _

theorem subActive_subActive (t : AllocationTable) (m n : ℕ) :
    (t.subActive m).subActive n = t.subActive (m + n) := by
  have hsub : t.stats.activeAllocations - (m : ℤ) - (n : ℤ)
      = t.stats.activeAllocations - ((m + n : ℕ) : ℤ) := by omega
  simp only [AllocationTable.subActive, hsub]

theorem subActive_zero (t : AllocationTable) : t.subActive 0 = t := by
  have hsub : t.stats.activeAllocations - ((0 : ℕ) : ℤ) = t.stats.activeAllocations := by omega
  simp only [AllocationTable.subActive, hsub]

/-- The loop of `cleanup_expired`, with its bulk update of the counter, is `remove_allocation` for
    each address. -/
theorem dropEntries_eq (addrs : List SocketAddr) :
    ∀ (t : AllocationTable) (ct : ChannelTable) (n : ℕ),
      ∃ m, (t.dropEntries ct addrs n).2 = n + m ∧
        ((t.dropEntries ct addrs n).1.1.subActive m, (t.dropEntries ct addrs n).1.2)
          = removeAll t ct addrs := by
  induction addrs with
  | nil =>
      intro t ct n
      exact ⟨0, rfl, by rw [subActive_zero]; rfl⟩
  | cons addr addrs ih =>
      intro t ct n
      rw [removeAll, AllocationTable.dropEntries]
      cases ha : t.allocations.lookup addr with
      | none =>
          rw [removeAllocation_of_none ha]
          exact ih t ct n
      | some a =>
          rw [removeAllocation_of_some ha]
          obtain ⟨m, hcount, heq⟩ := ih (t.dropEntry ct addr).1 (t.dropEntry ct addr).2 (n + 1)
          refine ⟨m + 1, by rw [hcount]; omega, ?_⟩
          rw [removeAll_subActive, ← heq, subActive_subActive]

theorem cleanupExpired_eq_removeAll (t : AllocationTable) (ct : ChannelTable) (now : ℕ) :
    (t.cleanupExpired ct now).1 = removeAll t ct (t.expiredAddrs now) := by
  obtain ⟨m, hcount, heq⟩ := dropEntries_eq (t.expiredAddrs now) t ct 0
  unfold AllocationTable.cleanupExpired
  rw [← heq]
  simp only [hcount, Nat.zero_add]

/-- What every single removal keeps, bulk expiry keeps. -/
theorem cleanupExpired_induct {P : AllocationTable → ChannelTable → Prop}
    (hstep : ∀ t ct addr, P t ct →
      P (t.removeAllocation ct addr).1.1 (t.removeAllocation ct addr).1.2) {now : ℕ} (h : P t ct) :
    P (t.cleanupExpired ct now).1.1 (t.cleanupExpired ct now).1.2 := by
  rw [cleanupExpired_eq_removeAll]
  generalize t.expiredAddrs now = addrs
  induction addrs generalizing t ct with
  | nil => exact h
  | cons addr addrs ih => exact ih (hstep t ct addr h)

theorem lookup_removeAll (addrs : List SocketAddr) :
    ∀ (t : AllocationTable) (ct : ChannelTable) (k : SocketAddr) (a : Allocation),
      (removeAll t ct addrs).1.allocations.lookup k = some a ↔
        k ∉ addrs ∧ t.allocations.lookup k = some a := by
  induction addrs with
  | nil => simp [removeAll]
  | cons addr addrs ih =>
      intro t ct k a
      rw [removeAll, ih, lookup_removeAllocation, List.mem_cons, not_or]
      tauto

theorem mem_expiredAddrs {now : ℕ} {k : SocketAddr} : k ∈ t.expiredAddrs now ↔
    ∃ a, t.allocations.lookup k = some a ∧ a.isExpired now = true := by
  simp only [AllocationTable.expiredAddrs, List.mem_map, List.mem_filter]
  constructor
  · rintro ⟨⟨k', a⟩, ⟨hmem, ha⟩, rfl⟩
    exact ⟨a, HashMap.lookup_eq_some.2 hmem, ha⟩
  · rintro ⟨a, hlookup, ha⟩
    exact ⟨⟨k, a⟩, ⟨HashMap.lookup_eq_some.1 hlookup, ha⟩, rfl⟩

/-- `cleanup_expired` keeps exactly the allocations that have not expired. -/
theorem lookup_cleanupExpired_allocations {now : ℕ} {k : SocketAddr} {a : Allocation} :
    (t.cleanupExpired ct now).1.1.allocations.lookup k = some a ↔
      t.allocations.lookup k = some a ∧ a.isExpired now = false := by
  rw [cleanupExpired_eq_removeAll, lookup_removeAll, mem_expiredAddrs]
  constructor
  · rintro ⟨hnot, ha⟩
    exact ⟨ha, by simpa using fun hexp => hnot ⟨a, ha, hexp⟩⟩
  · rintro ⟨ha, hexp⟩
    refine ⟨?_, ha⟩
    rintro ⟨b, hb, hb'⟩
    obtain rfl := Option.some.inj (ha.symm.trans hb)
    rw [hexp] at hb'
    exact absurd hb' (by simp)

/-! ## Creation -/

/-- The table with the allocation entered that a bound relay port makes. -/
def AllocationTable.enter (t : AllocationTable) (env : Env) (client : SocketAddr)
    (lifetime : Option UInt32) (pa : PortAllocator) (port : UInt16) : AllocationTable :=
  { t with
      portAllocator := pa,
      allocations := t.allocations.insert (.v4 t.externalAddr port)
        (t.newAllocation env client lifetime port),
      stats := { t.stats with
        totalAllocations := t.stats.totalAllocations + 1,
        activeAllocations := t.stats.activeAllocations + 1 },
      bandwidthManager := t.bandwidthManager.registerAllocation env.now
        (SocketAddr.v4 t.externalAddr port).toString none }

/-- What `create_allocation` can do: fail and leave the ports as they were, or take one port and
    enter the new allocation everywhere. -/
theorem createAllocation_cases (t : AllocationTable) (env : Env) (client : SocketAddr)
    (lifetime : Option UInt32) :
    (∃ pa e, t.createAllocation env client lifetime = ({ t with portAllocator := pa }, .error e) ∧
      SamePorts t.portAllocator pa) ∨
    (∃ pa port k, t.createAllocation env client lifetime =
        (t.enter env client lifetime pa port, .ok (t.newAllocation env client lifetime port)) ∧
      PortAllocator.Takes t.portAllocator pa k ∧
      port.toNat = t.portAllocator.minPort.toNat + k) := by
  unfold AllocationTable.createAllocation
  split
  · exact Or.inl ⟨t.portAllocator, _, rfl, .refl _⟩
  · rcases acquireRelay_cases t.bindAddr env 100 0 t.portAllocator none with
      ⟨pa, e, heq, hsame⟩ | ⟨pa, port, k, heq, htake, hport⟩
    · rw [heq]
      exact Or.inl ⟨pa, e, rfl, hsame⟩
    · rw [heq]
      exact Or.inr ⟨pa, port, k, rfl, htake, hport⟩

/-- Only the bitmap's representation may differ: the same ports are taken. -/
theorem Consistent.samePorts (h : Consistent t ct) {pa : PortAllocator}
    (hsame : SamePorts t.portAllocator pa) : Consistent { t with portAllocator := pa } ct where
  bits := by
    intro i
    have hbits := congrArg (i ∈ ·) hsame.setBits
    simp only [Bitmap.mem_setBits, h.bits, eq_iff_iff] at hbits
    rw [hbits, hsame.range]
  key := by
    intro k a ha
    obtain ⟨hk, hip, hmin, hmax⟩ := h.key k a ha
    refine ⟨hk, hip, ?_, ?_⟩
    · rw [hsame.range]
      exact hmin
    · rw [hsame.range]
      exact hmax
  active := h.active
  count := hsame.count.trans h.count
  trackers := h.trackers
  clients := h.clients
  bindings := h.bindings

/-- The new key is not in use: its port was free. -/
theorem Consistent.notMem_of_takes (h : Consistent t ct) {pa : PortAllocator} {k : ℕ}
    {port : UInt16} (htake : PortAllocator.Takes t.portAllocator pa k)
    (hport : port.toNat = t.portAllocator.minPort.toNat + k) :
    SocketAddr.v4 t.externalAddr port ∉ t.allocations := by
  intro hmem
  exact htake.free (Bitmap.mem_setBits.2 ((h.bits k).2 ⟨_, hmem, hport⟩))

/-- With an allocation of a client that has none, every client still has at most one. -/
theorem Consistent.clients_insert (h : Consistent t ct) (addr : SocketAddr) {a : Allocation}
    (hclient : ∀ k b, t.allocations.lookup k = some b → b.clientAddr ≠ a.clientAddr) :
    ∀ k k' b b', (t.allocations.insert addr a).lookup k = some b →
      (t.allocations.insert addr a).lookup k' = some b' → b.clientAddr = b'.clientAddr →
      k = k' := by
  intro k k' b b' hb hb' hsame
  rcases HashMap.lookup_insert_eq_some.1 hb with ⟨rfl, rfl⟩ | ⟨-, hold⟩
  · rcases HashMap.lookup_insert_eq_some.1 hb' with ⟨rfl, -⟩ | ⟨-, hold'⟩
    · rfl
    · exact absurd hsame.symm (hclient k' b' hold')
  · rcases HashMap.lookup_insert_eq_some.1 hb' with ⟨-, rfl⟩ | ⟨-, hold'⟩
    · exact absurd hsame (hclient k b hold)
    · exact h.clients k k' b b' hold hold' hsame

/-- Entering a new allocation of a client that has none. -/
theorem Consistent.enter (h : Consistent t ct) (env : Env) {client : SocketAddr}
    (lifetime : Option UInt32) {pa : PortAllocator} {k : ℕ} {port : UInt16}
    (htake : PortAllocator.Takes t.portAllocator pa k)
    (hport : port.toNat = t.portAllocator.minPort.toNat + k)
    (hclient : ∀ k b, t.allocations.lookup k = some b → b.clientAddr ≠ client) :
    Consistent (t.enter env client lifetime pa port) ct := by
  unfold AllocationTable.enter
  have hrelayed : (t.newAllocation env client lifetime port).relayedAddr
      = .v4 t.externalAddr port := rfl
  have hclientNew : (t.newAllocation env client lifetime port).clientAddr = client := rfl
  rw [← hclientNew] at hclient
  generalize t.newAllocation env client lifetime port = a at hrelayed hclient
  have hnew := h.notMem_of_takes htake hport
  have hlen : HashMap.len (t.allocations.insert (.v4 t.externalAddr port) a)
      = HashMap.len t.allocations + 1 := HashMap.len_insert_of_notMem hnew
  have hsize := t.portAllocator.size
  have hin := htake.inRange
  refine ⟨?_, ?_, ?_, ?_, ?_, ?_, ?_⟩
  · intro i
    have hbits := congrArg (i ∈ ·) htake.setBits
    simp only [Bitmap.mem_setBits, Finset.mem_insert, h.bits, eq_iff_iff] at hbits
    rw [hbits, htake.range, HashMap.exists_mem_insert]
    refine or_congr_left ?_
    simp only [SocketAddr.port]
    omega
  · intro k' b hb
    show b.relayedAddr = k' ∧ k'.ip = .v4 t.externalAddr ∧
      pa.minPort.toNat ≤ k'.port.toNat ∧ k'.port.toNat ≤ pa.maxPort.toNat
    rw [htake.range]
    rcases HashMap.lookup_insert_eq_some.1 hb with ⟨rfl, rfl⟩ | ⟨-, hb⟩
    · refine ⟨hrelayed, rfl, ?_⟩
      simp only [SocketAddr.port]
      omega
    · exact h.key k' b hb
  · rw [hlen, h.active]
    rfl
  · rw [hlen, htake.count, h.count]
    rfl
  · intro s
    rw [BandwidthManager.mem_registerAllocation, h.trackers, HashMap.exists_mem_insert]
  · exact h.clients_insert _ hclient
  · intro r n b hb
    obtain ⟨hrel, hch, hmem⟩ := h.bindings r n b hb
    exact ⟨hrel, hch, (AList.mem_insert _).2 (Or.inr hmem)⟩

/-! ## Updates in place -/

/-- Changing an allocation in place, but not whose it is nor its address. -/
theorem Consistent.modify (h : Consistent t ct) (addr : SocketAddr) {f : Allocation → Allocation}
    (hf : ∀ a, (f a).relayedAddr = a.relayedAddr ∧ (f a).clientAddr = a.clientAddr)
    {stats : ServerStats} (hstats : stats.activeAllocations = t.stats.activeAllocations) :
    Consistent { t with allocations := t.allocations.modify addr f, stats := stats } ct := by
  have hmem : ∀ k, k ∈ HashMap.modify addr f t.allocations ↔ k ∈ t.allocations := by
    intro k
    rw [AList.mem_keys, AList.mem_keys, HashMap.keys_modify]
  have hold : ∀ k a, (HashMap.modify addr f t.allocations).lookup k = some a →
      ∃ b, t.allocations.lookup k = some b ∧ a.relayedAddr = b.relayedAddr ∧
        a.clientAddr = b.clientAddr := fun k a ha =>
    HashMap.exists_of_lookup_modify
      (R := fun b a => a.relayedAddr = b.relayedAddr ∧ a.clientAddr = b.clientAddr)
      (fun _ => ⟨rfl, rfl⟩) hf ha
  refine ⟨?_, ?_, ?_, ?_, ?_, ?_, ?_⟩
  · intro i
    simp only [hmem]
    exact h.bits i
  · intro k a ha
    obtain ⟨b, hb, hrel, -⟩ := hold k a ha
    rw [hrel]
    exact h.key k b hb
  · rw [hstats, HashMap.len_modify]
    exact h.active
  · rw [HashMap.len_modify]
    exact h.count
  · intro s
    simp only [hmem]
    exact h.trackers s
  · intro k k' a a' ha ha' hc
    obtain ⟨b, hb, -, hcb⟩ := hold k a ha
    obtain ⟨b', hb', -, hcb'⟩ := hold k' a' ha'
    exact h.clients k k' b b' hb hb' (by rw [← hcb, ← hcb', hc])
  · intro r n b hb
    obtain ⟨hrel, hch, hr⟩ := h.bindings r n b hb
    exact ⟨hrel, hch, (hmem r).2 hr⟩

theorem refreshAllocation_eq_ok {addr : SocketAddr} {lifetime : UInt32} {t' : AllocationTable}
    (ht : t.refreshAllocation addr lifetime = .ok t') :
    t' = { t with allocations :=
      t.allocations.modify addr (fun a => { a with lifetime := fromSecs lifetime.toNat }) } := by
  unfold AllocationTable.refreshAllocation at ht
  cases hlookup : t.allocations.lookup addr with
  | none =>
      rw [hlookup] at ht
      exact absurd ht (by simp)
  | some a =>
      rw [hlookup] at ht
      exact (Except.ok.inj ht).symm

theorem Consistent.refreshAllocation (h : Consistent t ct) {addr : SocketAddr} {lifetime : UInt32}
    {t' : AllocationTable} (ht : t.refreshAllocation addr lifetime = .ok t') :
    Consistent t' ct := by
  rw [refreshAllocation_eq_ok ht]
  refine h.modify addr ?_ rfl
  exact fun _ => ⟨rfl, rfl⟩

theorem Consistent.addPermissions (h : Consistent t ct) (client : SocketAddr)
    (peers : List SocketAddr) : Consistent (t.addPermissions client peers).1 ct := by
  unfold AllocationTable.addPermissions
  split
  · next e _ =>
      refine h.modify e.1 ?_ rfl
      exact fun _ => ⟨rfl, rfl⟩
  · exact h

/-- A refreshed allocation was there and is there with its new lifetime. -/
theorem lookup_refreshed {addr : SocketAddr} {lifetime : UInt32} {t' : AllocationTable}
    (ht : t.refreshAllocation addr lifetime = .ok t') :
    ∃ a, t.allocations.lookup addr = some a ∧
      t'.allocations.lookup addr = some { a with lifetime := fromSecs lifetime.toNat } := by
  cases ha : t.allocations.lookup addr with
  | none => exact absurd ht (by simp [AllocationTable.refreshAllocation, ha])
  | some a =>
      refine ⟨a, rfl, ?_⟩
      rw [refreshAllocation_eq_ok ht]
      dsimp only
      rw [HashMap.lookup_modify, if_pos rfl, ha]
      rfl

/-- A refresh changes one lifetime only. -/
theorem lookup_refreshAllocation {t' : AllocationTable} {addr k : SocketAddr} {lifetime : UInt32}
    {a : Allocation} (ht : t.refreshAllocation addr lifetime = .ok t')
    (ha : t'.allocations.lookup k = some a) :
    ∃ a', t.allocations.lookup k = some a' ∧ a = { a' with lifetime := a.lifetime } ∧
      (k ≠ addr → a = a') := by
  rw [refreshAllocation_eq_ok ht] at ha
  dsimp only at ha
  rw [HashMap.lookup_modify] at ha
  split at ha
  · next hk =>
      obtain ⟨a', ha', rfl⟩ := Option.map_eq_some_iff.1 ha
      exact ⟨a', by rw [hk]; exact ha', rfl, fun hne => absurd hk hne⟩
  · exact ⟨a, ha, rfl, fun _ => rfl⟩

/-- The table after a packet of `n` bytes went out for the allocation under `key`. -/
def AllocationTable.countPacket (t : AllocationTable) (key : SocketAddr) (n : ℕ) :
    AllocationTable :=
  { t with
      stats := { t.stats with
        totalBytesRelayed := t.stats.totalBytesRelayed + n,
        totalMessages := t.stats.totalMessages + 1 },
      allocations := t.allocations.modify key (fun a => { a with
        bytesForwarded := a.bytesForwarded + n,
        messagesForwarded := a.messagesForwarded + 1 }) }

/-- What `send_to_peer` can do: nothing, or send one packet to a permitted peer and count it. -/
theorem sendToPeer_cases (t : AllocationTable) (sendOk : Bool) (client peer : SocketAddr)
    (data : Bytes) :
    t.sendToPeer sendOk client peer data = (t, none) ∨
    ∃ e, ∃ relay : AllocationRelay, t.entryOfClient client = some e ∧
      peer.ip ∈ e.2.permissions ∧ t.sendToPeer sendOk client peer data
        = (t.countPacket e.1 data.length, some ⟨relay.socket, peer, data⟩) := by
  unfold AllocationTable.sendToPeer
  cases hentry : t.entryOfClient client with
  | none => exact Or.inl rfl
  | some e =>
      dsimp only
      by_cases hip : peer.ip ∈ e.2.permissions
      · rw [if_neg (not_not.2 hip)]
        cases e.2.relay with
        | none => exact Or.inl rfl
        | some relay =>
            cases sendOk with
            | false => exact Or.inl rfl
            | true => exact Or.inr ⟨e, relay, rfl, hip, rfl⟩
      · rw [if_pos hip]
        exact Or.inl rfl

theorem countPacket_ne (t : AllocationTable) (key : SocketAddr) (n : ℕ) :
    t.countPacket key n ≠ t := by
  intro h
  have hmessages := congrArg (fun t => t.stats.totalMessages) h
  simp [AllocationTable.countPacket] at hmessages

/-- `send_to_peer` leaves the table as it is exactly if it sends nothing. -/
theorem sendToPeer_eq_self_iff {sendOk : Bool} {client peer : SocketAddr} {data : Bytes} :
    (t.sendToPeer sendOk client peer data).1 = t ↔
      ¬ ∃ e, t.entryOfClient client = some e ∧ peer.ip ∈ e.2.permissions ∧ e.2.relay ≠ none ∧
        sendOk = true := by
  unfold AllocationTable.sendToPeer
  cases t.entryOfClient client with
  | none => simp
  | some e =>
      dsimp only
      by_cases hip : peer.ip ∈ e.2.permissions
      · rw [if_neg (not_not.2 hip)]
        cases hrelay : e.2.relay with
        | none => simp [hrelay]
        | some relay =>
            cases sendOk with
            | false => simp
            | true =>
                refine ⟨fun h => absurd h (countPacket_ne t e.1 data.length), fun h => ?_⟩
                exact absurd ⟨e, rfl, hip, by simp [hrelay], rfl⟩ h
      · rw [if_pos hip]
        simp [hip]

theorem Consistent.sendToPeer (h : Consistent t ct) (sendOk : Bool) (client peer : SocketAddr)
    (data : Bytes) : Consistent (t.sendToPeer sendOk client peer data).1 ct := by
  rcases sendToPeer_cases t sendOk client peer data with heq | ⟨e, relay, -, -, heq⟩
  · rw [heq]
    exact h
  · rw [heq]
    refine h.modify e.1 ?_ rfl
    exact fun _ => ⟨rfl, rfl⟩

/-- Sending changes traffic counters only. -/
theorem lookup_sendToPeer {sendOk : Bool} {client peer k : SocketAddr} {data : Bytes}
    {a : Allocation} (ha : (t.sendToPeer sendOk client peer data).1.allocations.lookup k = some a) :
    ∃ a', t.allocations.lookup k = some a' ∧ a = { a' with
      bytesForwarded := a.bytesForwarded, messagesForwarded := a.messagesForwarded } := by
  rcases sendToPeer_cases t sendOk client peer data with heq | ⟨e, relay, -, -, heq⟩
  · rw [heq] at ha
    exact ⟨a, ha, rfl⟩
  · rw [heq] at ha
    exact HashMap.exists_of_lookup_modify (R := fun a' a => a = { a' with
      bytesForwarded := a.bytesForwarded, messagesForwarded := a.messagesForwarded })
      (fun _ => rfl) (fun _ => rfl) ha

/-- A packet is sent to the address asked for, and its IP is a permission of the client's
    allocation. -/
theorem sendToPeer_sent {sendOk : Bool} {client peer : SocketAddr} {data : Bytes} {packet : Packet}
    (h : (t.sendToPeer sendOk client peer data).2 = some packet) :
    ∃ e, t.entryOfClient client = some e ∧ packet.peer.ip ∈ e.2.permissions := by
  rcases sendToPeer_cases t sendOk client peer data with heq | ⟨e, relay, hentry, hip, heq⟩
  · rw [heq] at h
    exact absurd h (by simp)
  · rw [heq] at h
    obtain rfl := Option.some.inj h
    exact ⟨e, hentry, hip⟩

/-! ## Channel bindings -/

/-- What a successful `bind` stores: only the entry `(r, n)` changes, and it then leads to the
    peer. -/
theorem bind_eq_ok {ct ct' : ChannelTable} {now : ℕ} {n : UInt16} {p r : SocketAddr}
    (h : ct.bind now n p r = .ok ct') :
    (∀ key, key ≠ (r, n) → ct'.channels.lookup key = ct.channels.lookup key) ∧
    ((∃ b, ct.channels.lookup (r, n) = some b ∧ b.peerAddr = p ∧
        ct'.channels.lookup (r, n) = some { b with createdAt := now }) ∨
      (ct.channels.lookup (r, n) = none ∧
        ct'.channels.lookup (r, n) = some ⟨n, p, r, now, fromSecs 600⟩)) := by
  simp only [ChannelTable.bind] at h
  split at h
  · next b hb =>
      split at h
      · next hp =>
          obtain rfl := Except.ok.inj h
          refine ⟨fun key hkey => ?_, Or.inl ⟨b, hb, hp, ?_⟩⟩
          · rw [HashMap.lookup_modify, if_neg hkey]
          · rw [HashMap.lookup_modify, if_pos rfl, hb, Option.map_some]
      · exact absurd h (by simp)
  · next hnone =>
      obtain rfl := Except.ok.inj h
      refine ⟨fun key hkey => ?_, Or.inr ⟨hnone, ?_⟩⟩
      · exact AList.lookup_insert_ne hkey
      · exact AList.lookup_insert _

theorem Consistent.bind (h : Consistent t ct) {now : ℕ} {n : UInt16} {p r : SocketAddr}
    {ct' : ChannelTable} (hr : r ∈ t.allocations) (hbind : ct.bind now n p r = .ok ct') :
    Consistent t ct' where
  bits := h.bits
  key := h.key
  active := h.active
  count := h.count
  trackers := h.trackers
  clients := h.clients
  bindings := by
    obtain ⟨hoff, hon⟩ := bind_eq_ok hbind
    intro r' n' b hb
    by_cases hkey : (r', n') = (r, n)
    · obtain ⟨rfl, rfl⟩ := Prod.ext_iff.1 hkey
      rcases hon with ⟨b', hb', -, hnew⟩ | ⟨-, hnew⟩
      · obtain rfl := Option.some.inj (hb.symm.trans hnew)
        exact h.bindings r' n' b' hb'
      · obtain rfl := Option.some.inj (hb.symm.trans hnew)
        exact ⟨rfl, rfl, hr⟩
    · rw [hoff _ hkey] at hb
      exact h.bindings r' n' b hb

theorem lookup_cleanupExpired {now : ℕ} {key : SocketAddr × UInt16} {b : ChannelBinding}
    (h : (ct.cleanupExpired now).channels.lookup key = some b) :
    ct.channels.lookup key = some b := by
  unfold ChannelTable.cleanupExpired at h
  rw [HashMap.lookup_retain, Option.filter_eq_some_iff] at h
  exact h.1

theorem Consistent.channelCleanup (h : Consistent t ct) (now : ℕ) :
    Consistent t (ct.cleanupExpired now) where
  bits := h.bits
  key := h.key
  active := h.active
  count := h.count
  trackers := h.trackers
  clients := h.clients
  bindings := fun r n b hb => h.bindings r n b (lookup_cleanupExpired hb)

/-! ## Lookup by client -/

theorem entryOfClient_eq_some {client : SocketAddr} {e : Σ _ : SocketAddr, Allocation}
    (h : t.entryOfClient client = some e) :
    t.allocations.lookup e.1 = some e.2 ∧ e.2.clientAddr = client := by
  refine ⟨HashMap.lookup_eq_some.2 (List.mem_of_find?_eq_some h), ?_⟩
  have := List.find?_some h
  exact of_decide_eq_true this

theorem entryOfClient_eq_none {client : SocketAddr} (h : t.entryOfClient client = none)
    {k : SocketAddr} {a : Allocation} (ha : t.allocations.lookup k = some a) :
    a.clientAddr ≠ client := by
  have hnone := List.find?_eq_none.1 h ⟨k, a⟩ (HashMap.lookup_eq_some.1 ha)
  simpa using hnone

theorem findAllocationByClient_of_entry {client : SocketAddr} {e : Σ _ : SocketAddr, Allocation}
    (h : t.entryOfClient client = some e) :
    t.findAllocationByClient client = some e.2.relayedAddr := by
  rw [AllocationTable.findAllocationByClient, h]
  rfl

theorem getAllocationByClient_of_entry {client : SocketAddr} {e : Σ _ : SocketAddr, Allocation}
    (h : t.entryOfClient client = some e) : t.getAllocationByClient client = some e.2 := by
  rw [AllocationTable.getAllocationByClient, h]
  rfl

/-- With one allocation a client, the search finds exactly the client's entry. -/
theorem Consistent.entryOfClient (h : Consistent t ct) {k : SocketAddr} {a : Allocation}
    (ha : t.allocations.lookup k = some a) : t.entryOfClient a.clientAddr = some ⟨k, a⟩ := by
  cases hfind : t.entryOfClient a.clientAddr with
  | none => exact absurd rfl (entryOfClient_eq_none hfind ha)
  | some e =>
      obtain ⟨k', a'⟩ := e
      obtain ⟨ha', hc⟩ := entryOfClient_eq_some hfind
      obtain rfl := h.clients k' k a' a ha' ha hc
      obtain rfl := Option.some.inj (ha'.symm.trans ha)
      rfl

/-- The search by client does not depend on the iteration order of the map. -/
theorem Consistent.entryOfClient_same (h : Consistent t ct) {m : HashMap SocketAddr Allocation}
    (hsame : HashMap.Same t.allocations m) (client : SocketAddr) :
    ({ t with allocations := m } : AllocationTable).entryOfClient client
      = t.entryOfClient client := by
  refine (find?_perm hsame _ ?_).symm
  rintro ⟨k, a⟩ ha ⟨k', a'⟩ ha' hc hc'
  rw [← HashMap.lookup_eq_some] at ha ha'
  have hclient : a.clientAddr = a'.clientAddr := by
    rw [of_decide_eq_true hc, of_decide_eq_true hc']
  obtain rfl := h.clients k k' a a' ha ha' hclient
  obtain rfl := Option.some.inj (ha.symm.trans ha')
  rfl

/-- The same entries in another iteration order. -/
theorem Consistent.same (h : Consistent t ct) {m : HashMap SocketAddr Allocation}
    {m' : HashMap (SocketAddr × UInt16) ChannelBinding} (hsame : HashMap.Same t.allocations m)
    (hsame' : HashMap.Same ct.channels m') : Consistent { t with allocations := m } ⟨m'⟩ where
  bits := by
    intro i
    simp only [← hsame.mem_iff]
    exact h.bits i
  key := by
    intro k a ha
    exact h.key k a (by rw [hsame.lookup_eq]; exact ha)
  active := by rw [h.active, hsame.len_eq]
  count := by rw [h.count, hsame.len_eq]
  trackers := by
    intro s
    simp only [← hsame.mem_iff]
    exact h.trackers s
  clients := by
    intro k k' a a' ha ha'
    rw [← hsame.lookup_eq] at ha ha'
    exact h.clients k k' a a' ha ha'
  bindings := by
    intro r n b hb
    rw [← hsame'.lookup_eq] at hb
    rw [← hsame.mem_iff]
    exact h.bindings r n b hb

end Miuturn
