import Miuturn.Expiry

set_option autoImplicit false

/-! # Bulk expiry in any order

`cleanup_expired` walks over the expired allocations in the iteration order of the map and corrects
the counter of active allocations once at the end; `remove_allocation` removes one entry and
corrects the counter at once. `AllocationProofs.lean` shows that the walk is `remove_allocation` for
the addresses in that order. On a consistent table two removals commute, so the order does not
matter. -/

open RustStd

namespace Miuturn

variable {t : AllocationTable} {ct : ChannelTable} {now : ℕ}

/-! ## Removals commute -/

theorem lookup_removeAllocation_of_none {addr : SocketAddr}
    (h : t.allocations.lookup addr = none) (addr' : SocketAddr) :
    (t.removeAllocation ct addr').1.1.allocations.lookup addr = none := by
  rw [Option.eq_none_iff_forall_ne_some]
  intro a ha
  exact absurd (h.symm.trans (lookup_removeAllocation.1 ha).2) (by simp)

theorem removeForRelayed_comm (ct : ChannelTable) (addr addr' : SocketAddr) :
    (ct.removeForRelayed addr).removeForRelayed addr'
      = (ct.removeForRelayed addr').removeForRelayed addr :=
  congrArg ChannelTable.mk (AList.ext (List.filter_comm _ _ _))

/-- Removing an address that is no key does nothing, before another removal or after it. -/
theorem removeAll_pair_of_none {addr addr' : SocketAddr} (h : t.allocations.lookup addr = none) :
    removeAll t ct [addr, addr'] = removeAll t ct [addr', addr] := by
  simp only [removeAll]
  rw [removeAllocation_of_none h,
    removeAllocation_of_none (lookup_removeAllocation_of_none h addr')]

/-- Two allocations of a consistent table can be removed in either order. -/
theorem Consistent.removeAll_pair (h : Consistent t ct) (addr addr' : SocketAddr) :
    removeAll t ct [addr, addr'] = removeAll t ct [addr', addr] := by
  by_cases hne : addr = addr'
  · rw [hne]
  · cases ha : t.allocations.lookup addr with
    | none => exact removeAll_pair_of_none ha
    | some a =>
        cases ha' : t.allocations.lookup addr' with
        | none => exact (removeAll_pair_of_none ha').symm
        | some a' =>
            have hsecond : ((t.dropEntry ct addr).1.subActive 1).allocations.lookup addr'
                = some a' := (AList.lookup_erase_ne (Ne.symm hne)).trans ha'
            have hsecond' : ((t.dropEntry ct addr').1.subActive 1).allocations.lookup addr
                = some a := (AList.lookup_erase_ne hne).trans ha
            simp only [removeAll]
            rw [removeAllocation_of_some ha, removeAllocation_of_some ha',
              removeAllocation_of_some hsecond, removeAllocation_of_some hsecond']
            simp only [AllocationTable.subActive, AllocationTable.dropEntry,
              BandwidthManager.unregisterAllocation]
            rw [AList.erase_erase addr addr', AList.erase_erase addr.toString addr'.toString,
              removeForRelayed_comm ct addr addr',
              h.release_comm (HashMap.mem_of_lookup ha) (HashMap.mem_of_lookup ha') hne]

/-- The order of the removals does not matter. -/
theorem Consistent.removeAll_perm {addrs addrs' : List SocketAddr} (hperm : addrs.Perm addrs') :
    ∀ {t : AllocationTable} {ct : ChannelTable}, Consistent t ct →
      removeAll t ct addrs = removeAll t ct addrs' := by
  induction hperm with
  | nil => exact fun _ => rfl
  | cons addr _ ih => exact fun h => ih (h.removeAllocation addr)
  | swap addr addr' rest =>
      intro t ct h
      have hpair := h.removeAll_pair addr' addr
      simp only [removeAll] at hpair ⊢
      rw [Prod.ext_iff] at hpair
      rw [hpair.1, hpair.2]
  | trans _ _ ih ih' => exact fun h => (ih h).trans (ih' h)

/-! ## What is counted and what is kept -/

theorem nodup_expiredAddrs (t : AllocationTable) (now : ℕ) : (t.expiredAddrs now).Nodup :=
  (List.Sublist.map Sigma.fst List.filter_sublist).nodup t.allocations.nodupKeys

/-- The loop counts every address of the list that is a key. -/
theorem dropEntries_count (addrs : List SocketAddr) :
    ∀ (t : AllocationTable) (ct : ChannelTable) (n : ℕ), addrs.Nodup →
      (∀ k ∈ addrs, k ∈ t.allocations) → (t.dropEntries ct addrs n).2 = n + addrs.length := by
  induction addrs with
  | nil => exact fun _ _ _ _ _ => rfl
  | cons addr addrs ih =>
      intro t ct n hnodup hkeys
      obtain ⟨hnotMem, hnodup⟩ := List.nodup_cons.1 hnodup
      obtain ⟨a, ha⟩ := HashMap.exists_lookup (hkeys addr (List.mem_cons_self ..))
      rw [AllocationTable.dropEntries, ha]
      dsimp only
      rw [ih _ _ _ hnodup ?_, List.length_cons]
      · omega
      · intro k hk
        refine AList.mem_erase.2 ⟨?_, hkeys k (List.mem_cons_of_mem _ hk)⟩
        rintro rfl
        exact hnotMem hk

theorem cleanupExpired_count (t : AllocationTable) (ct : ChannelTable) (now : ℕ) :
    (t.cleanupExpired ct now).2 = (t.expiredAddrs now).length := by
  have hkeys : ∀ k ∈ t.expiredAddrs now, k ∈ t.allocations := by
    intro k hk
    obtain ⟨a, ha, -⟩ := mem_expiredAddrs.1 hk
    exact HashMap.mem_of_lookup ha
  have hcount := dropEntries_count _ t ct 0 (nodup_expiredAddrs t now) hkeys
  rw [Nat.zero_add] at hcount
  exact hcount

/-- Bindings of addresses that are not removed stay. -/
theorem lookup_removeAll_channels (addrs : List SocketAddr) {key : SocketAddr × UInt16}
    (hkey : key.1 ∉ addrs) : ∀ (t : AllocationTable) (ct : ChannelTable),
      (removeAll t ct addrs).2.channels.lookup key = ct.channels.lookup key := by
  induction addrs with
  | nil => exact fun _ _ => rfl
  | cons addr addrs ih =>
      intro t ct
      obtain ⟨hne, hrest⟩ := not_or.1 (fun h => hkey (List.mem_cons.2 h))
      rw [removeAll, ih hrest]
      cases ha : t.allocations.lookup addr with
      | none => rw [removeAllocation_of_none ha]
      | some a =>
          rw [removeAllocation_of_some ha]
          apply Option.ext
          intro b
          exact lookup_removeForRelayed.trans (and_iff_left hne)

/-- Each expired allocation is in the list, once. -/
structure ListsExpired (t : AllocationTable) (now : ℕ) (addrs : List SocketAddr) : Prop where
  nodup : addrs.Nodup
  mem : ∀ k, k ∈ addrs ↔ ∃ a, t.allocations.lookup k = some a ∧ a.isExpired now = true

/-- What `cleanup_expired` does, in terms of `remove_allocation`. -/
structure RemovesOneByOne (t : AllocationTable) (ct : ChannelTable) (now : ℕ) : Prop where
  listed : ∃ addrs, ListsExpired t now addrs
  anyOrder : ∀ addrs, ListsExpired t now addrs →
    (t.cleanupExpired ct now).1 = removeAll t ct addrs ∧
      (t.cleanupExpired ct now).2 = addrs.length
  onlyExpired : ∀ k a, t.allocations.lookup k = some a →
    (t.cleanupExpired ct now).1.1.allocations.lookup k = none → a.isExpired now = true
  /-- A survivor was there before, with the same data and the same bindings. -/
  survivors : ∀ k a, (t.cleanupExpired ct now).1.1.allocations.lookup k = some a →
    t.allocations.lookup k = some a ∧ a.isExpired now = false ∧
      ∀ n, (t.cleanupExpired ct now).1.2.channels.lookup (k, n) = ct.channels.lookup (k, n)

/-- On a consistent table `cleanup_expired` is `remove_allocation` for each expired allocation in
    any order, and it touches nothing of the others. -/
theorem bulk_expiry_one_by_one (h : Consistent t ct) (now : ℕ) : RemovesOneByOne t ct now where
  listed := ⟨t.expiredAddrs now, nodup_expiredAddrs t now, fun _ => mem_expiredAddrs⟩
  anyOrder := by
    intro addrs hlists
    have hperm : (t.expiredAddrs now).Perm addrs := by
      rw [List.perm_ext_iff_of_nodup (nodup_expiredAddrs t now) hlists.nodup]
      exact fun k => mem_expiredAddrs.trans (hlists.mem k).symm
    constructor
    · rw [cleanupExpired_eq_removeAll]
      exact Consistent.removeAll_perm hperm h
    · rw [cleanupExpired_count, hperm.length_eq]
  onlyExpired := by
    intro k a ha hgone
    by_contra hexpired
    have hkept : (t.cleanupExpired ct now).1.1.allocations.lookup k = some a :=
      lookup_cleanupExpired_allocations.2 ⟨ha, Bool.eq_false_of_not_eq_true hexpired⟩
    exact absurd (hgone.symm.trans hkept) (by simp)
  survivors := by
    intro k a ha
    obtain ⟨hold, hexpired⟩ := lookup_cleanupExpired_allocations.1 ha
    refine ⟨hold, hexpired, fun n => ?_⟩
    rw [cleanupExpired_eq_removeAll]
    refine lookup_removeAll_channels _ ?_ t ct
    intro hk
    obtain ⟨a', ha', hexpired'⟩ := mem_expiredAddrs.1 hk
    obtain rfl := Option.some.inj (hold.symm.trans ha')
    exact absurd (hexpired.symm.trans hexpired') (by simp)

/-- The allocation made at second 5 for 600 seconds has expired at second 606. -/
theorem bulk_expiry_one_by_one_allocated :
    let tables := allocatedWorld.server
    RemovesOneByOne tables.allocationTable tables.channelTable (fromSecs 606) ∧
      (tables.allocationTable.cleanupExpired tables.channelTable (fromSecs 606)).2 = 1 := by
  have hrun : Run sampleDigests ⟨sampleServer true none, 0⟩ _ allocatedWorld :=
    Run.of_play (by decide)
  have hconsistent := hrun.consistent (sampleServer_started true none).fresh.consistent
  exact ⟨bulk_expiry_one_by_one hconsistent _, by decide +kernel⟩

end Miuturn
