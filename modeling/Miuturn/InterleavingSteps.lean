import Miuturn.Interleaving

set_option autoImplicit false

/-! # What one access can do

Two things are established here for every interleaving. Ports: a port is answered for by the
allocation that has it or by the task that took it, and never by two of them, so that the relayed
address of an allocation about to be inserted is free. And what a step looks like from outside
(`Effect`): who owns which relayed address, and which channels there are. The results about
interleavings are proved by cases on it. -/

open RustStd

namespace Miuturn

namespace Interleaving

/-! ## The ledger of ports -/

section Ledger

variable {ι : Type}

/-- The port is marked. -/
def Taken (pa : PortAllocator) (port : UInt16) : Prop :=
  ∃ k, k < pa.portCount.toNat ∧ k ∈ pa.allocated.setBits ∧ port.toNat = pa.minPort.toNat + k

/-- The port that a task has taken and not yet used or given back. -/
def inHand : Pc → Option UInt16
  | .bindSocket _ _ _ port => some port
  | .insert _ _ port => some port
  | _ => none

structure Ledger (t : AllocationTable) (hand : ι → Option UInt16) : Prop where
  key : ∀ k ∈ t.allocations, k = .v4 t.externalAddr k.port ∧ Taken t.portAllocator k.port
  held : ∀ i p, hand i = some p → Taken t.portAllocator p ∧ .v4 t.externalAddr p ∉ t.allocations
  exclusive : ∀ i j p, hand i = some p → hand j = some p → i = j

variable {t : AllocationTable} {hand hand' : ι → Option UInt16} {i : ι} {pa : PortAllocator}
  {port : UInt16} {k : ℕ}

theorem taken_of_takes (h : PortAllocator.Takes t.portAllocator pa k) {p : UInt16}
    (hp : Taken t.portAllocator p) : Taken pa p := by
  obtain ⟨k', hk', hmem, hport⟩ := hp
  refine ⟨k', by rw [h.range]; exact hk', ?_, by rw [h.range]; exact hport⟩
  rw [h.setBits]
  exact Finset.mem_insert_of_mem hmem

/-- A port that is given back leaves the other marks alone. -/
theorem taken_of_release {pa : PortAllocator} (h : Taken pa port) {p : UInt16} (hp : Taken pa p)
    (hne : p ≠ port) : Taken (pa.release port).1 p := by
  obtain ⟨k, hk, hmem, hport⟩ := h
  obtain ⟨k', hk', hmem', hport'⟩ := hp
  have hfree := (PortAllocator.release_of_mem hport hk hmem).1
  refine ⟨k', by rw [hfree.range]; exact hk', ?_, by rw [hfree.range]; exact hport'⟩
  rw [hfree.setBits, Finset.mem_erase]
  refine ⟨?_, hmem'⟩
  rintro rfl
  exact hne (UInt16.toNat_inj.1 (hport'.trans hport.symm))

/-- The allocator marks a port that nobody answers for. -/
theorem Ledger.take (h : Ledger t hand) (htake : PortAllocator.Takes t.portAllocator pa k)
    (hport : port.toNat = t.portAllocator.minPort.toNat + k) (hi : hand' i = some port)
    (hoff : ∀ j, j ≠ i → hand' j = hand j) :
    Ledger { t with portAllocator := pa } hand' := by
  -- the position was free before
  have hfree : ¬ Taken t.portAllocator port := by
    rintro ⟨k', -, hmem, hk'⟩
    obtain rfl : k' = k := by omega
    exact htake.free hmem
  have hnew : Taken pa port := by
    refine ⟨k, by rw [htake.range]; exact htake.inRange, ?_, by rw [htake.range]; exact hport⟩
    rw [htake.setBits]
    exact Finset.mem_insert_self _ _
  have hothers : ∀ {j p}, j ≠ i → hand' j = some p → p ≠ port := by
    rintro j p hj hp rfl
    rw [hoff j hj] at hp
    exact hfree (h.held j p hp).1
  refine ⟨fun k' hk' => ⟨(h.key k' hk').1, taken_of_takes htake (h.key k' hk').2⟩, ?_, ?_⟩
  · intro j p hp
    by_cases hj : j = i
    · subst hj
      obtain rfl := Option.some.inj (hi.symm.trans hp)
      exact ⟨hnew, fun hmem => hfree (h.key _ hmem).2⟩
    · rw [hoff j hj] at hp
      exact ⟨taken_of_takes htake (h.held j p hp).1, (h.held j p hp).2⟩
  · intro j j' p hp hp'
    by_cases hj : j = i
    · by_cases hj' : j' = i
      · rw [hj, hj']
      · subst hj
        obtain rfl := Option.some.inj (hi.symm.trans hp)
        exact absurd rfl (hothers hj' hp')
    · by_cases hj' : j' = i
      · subst hj'
        obtain rfl := Option.some.inj (hi.symm.trans hp')
        exact absurd rfl (hothers hj hp)
      · rw [hoff j hj] at hp
        rw [hoff j' hj'] at hp'
        exact h.exclusive j j' p hp hp'

/-- When one task empties its hand, what is in hand is in the hands of the others. -/
theorem hand_of_emptied (hi : hand' i = none) (hoff : ∀ j, j ≠ i → hand' j = hand j) {j : ι}
    {p : UInt16} (hp : hand' j = some p) : j ≠ i ∧ hand j = some p := by
  have hj : j ≠ i := by
    rintro rfl
    exact absurd (hi.symm.trans hp) (by simp)
  exact ⟨hj, (hoff j hj).symm.trans hp⟩

/-- A task gives back the port it took. -/
theorem Ledger.giveBack (h : Ledger t hand) (hport : hand i = some port) (hi : hand' i = none)
    (hoff : ∀ j, j ≠ i → hand' j = hand j) :
    Ledger { t with portAllocator := (t.portAllocator.release port).1 } hand' := by
  obtain ⟨htaken, hfree⟩ := h.held i port hport
  refine ⟨fun k hk => ⟨(h.key k hk).1, taken_of_release htaken (h.key k hk).2 ?_⟩, ?_, ?_⟩
  · intro hkey
    rw [(h.key k hk).1, hkey] at hk
    exact hfree hk
  · intro j p hp
    obtain ⟨hj, hp⟩ := hand_of_emptied hi hoff hp
    refine ⟨taken_of_release htaken (h.held j p hp).1 ?_, (h.held j p hp).2⟩
    rintro rfl
    exact hj (h.exclusive j i p hp hport)
  · intro j j' p hp hp'
    exact h.exclusive j j' p (hand_of_emptied hi hoff hp).2 (hand_of_emptied hi hoff hp').2

/-- The port goes from the task that took it to the allocation. -/
theorem Ledger.insert (h : Ledger t hand) (hport : hand i = some port) (hi : hand' i = none)
    (hoff : ∀ j, j ≠ i → hand' j = hand j) (env : Env) (client : SocketAddr) (lifetime : UInt32) :
    Ledger (insertAllocation t env client lifetime port) hand' := by
  obtain ⟨htaken, hfree⟩ := h.held i port hport
  refine ⟨?_, ?_, ?_⟩
  · intro k hk
    rcases (AList.mem_insert _).1 hk with rfl | hk
    · exact ⟨rfl, htaken⟩
    · exact h.key k hk
  · intro j p hp
    obtain ⟨hj, hp⟩ := hand_of_emptied hi hoff hp
    refine ⟨(h.held j p hp).1, fun hmem => ?_⟩
    rcases (AList.mem_insert _).1 hmem with heq | hmem
    · obtain ⟨-, rfl⟩ := SocketAddr.v4.inj heq
      exact hj (h.exclusive j i p hp hport)
    · exact (h.held j p hp).2 hmem
  · intro j j' p hp hp'
    exact h.exclusive j j' p (hand_of_emptied hi hoff hp).2 (hand_of_emptied hi hoff hp').2

theorem Ledger.removeAllocation (h : Ledger t hand) (ct : ChannelTable) (addr : SocketAddr) :
    Ledger (t.removeAllocation ct addr).1.1 hand := by
  cases ha : t.allocations.lookup addr with
  | none =>
      rw [removeAllocation_of_none ha]
      exact h
  | some a =>
      rw [removeAllocation_of_some ha]
      have hmem := HashMap.mem_of_lookup ha
      obtain ⟨haddr, htaken⟩ := h.key addr hmem
      refine ⟨?_, ?_, h.exclusive⟩
      · intro k hk
        obtain ⟨hne, hk⟩ := AList.mem_erase.1 hk
        refine ⟨(h.key k hk).1, taken_of_release htaken (h.key k hk).2 ?_⟩
        intro hport
        rw [(h.key k hk).1, hport, ← haddr] at hne
        exact hne rfl
      · intro j p hp
        refine ⟨taken_of_release htaken (h.held j p hp).1 ?_, fun hmem' => ?_⟩
        · rintro rfl
          rw [haddr] at hmem
          exact (h.held j _ hp).2 hmem
        · exact (h.held j p hp).2 (AList.mem_erase.1 hmem').2

/-- Only the keys of the map and the marks matter. -/
theorem Ledger.congr {t' : AllocationTable} (h : Ledger t hand)
    (hports : t'.portAllocator = t.portAllocator) (haddr : t'.externalAddr = t.externalAddr)
    (hkeys : ∀ k, k ∈ t'.allocations ↔ k ∈ t.allocations) (hhand : ∀ j, hand' j = hand j) :
    Ledger t' hand' := by
  refine ⟨fun k hk => ?_, fun j p hp => ?_, fun j j' p hp hp' => ?_⟩
  · rw [haddr, hports]
    exact h.key k ((hkeys k).1 hk)
  · rw [haddr, hports, hkeys]
    exact h.held j p ((hhand j).symm.trans hp)
  · exact h.exclusive j j' p ((hhand j).symm.trans hp) ((hhand j').symm.trans hp')

end Ledger

variable {ι : Type} [DecidableEq ι]

/-! ## What a step does

Seen from outside, a step changes who owns which relayed address and which channel leads where. -/

/-- The client whose allocation has a relayed address. -/
def owner (server : TurnServer) (k : SocketAddr) : Option SocketAddr :=
  (server.allocationTable.allocations.lookup k).map Allocation.clientAddr

/-- The number of allocations. -/
def size (server : TurnServer) : ℕ := HashMap.len server.allocationTable.allocations

/-- Some allocations are taken away with their bindings, and maybe some other bindings. -/
structure Removes (t : AllocationTable) (ct : ChannelTable) (t' : AllocationTable)
    (ct' : ChannelTable) : Prop where
  owner : ∀ k, t'.allocations.lookup k = t.allocations.lookup k ∨
    (t'.allocations.lookup k = none ∧ ∀ n, ct'.getByChannel k n = none)
  size : HashMap.len t'.allocations ≤ HashMap.len t.allocations
  channels : ∀ r n b, ct'.getByChannel r n = some b → ct.getByChannel r n = some b

theorem Removes.refl (t : AllocationTable) (ct : ChannelTable) : Removes t ct t ct :=
  ⟨fun _ => Or.inl rfl, le_rfl, fun _ _ _ h => h⟩

theorem Removes.removeAllocation {t t' : AllocationTable} {ct ct' : ChannelTable}
    (h : Removes t ct t' ct') (addr : SocketAddr) :
    Removes t ct (t'.removeAllocation ct' addr).1.1 (t'.removeAllocation ct' addr).1.2 := by
  cases ha : t'.allocations.lookup addr with
  | none =>
      rw [removeAllocation_of_none ha]
      exact h
  | some a =>
      rw [removeAllocation_of_some ha]
      have hlen := HashMap.len_erase_of_mem (HashMap.mem_of_lookup ha)
      have hsize := h.size
      refine ⟨fun k => ?_, ?_, fun r n b hb => h.channels r n b (lookup_removeForRelayed.1 hb).1⟩
      · by_cases hk : k = addr
        · subst hk
          refine Or.inr ⟨AList.lookup_erase _ _, fun n => ?_⟩
          -- nothing is left for the address
          cases hb : (ct'.removeForRelayed k).getByChannel k n with
          | none => exact hb
          | some b => exact absurd rfl (lookup_removeForRelayed.1 hb).2
        · rcases h.owner k with hsame | ⟨hnone, hclear⟩
          · exact Or.inl ((AList.lookup_erase_ne hk).trans hsame)
          · refine Or.inr ⟨(AList.lookup_erase_ne hk).trans hnone, fun n => ?_⟩
            cases hb : (ct'.removeForRelayed addr).getByChannel k n with
            | none => exact hb
            | some b =>
                exact absurd ((lookup_removeForRelayed.1 hb).1.symm.trans (hclear n)) (by simp)
      · show HashMap.len (t'.allocations.erase addr) ≤ HashMap.len t.allocations
        omega

/-- The address `k` was free, and client `c` now has it. -/
structure Enters (e : Move ι) (c k : SocketAddr) : Prop where
  free : owner e.before.server k = none
  owner : ∀ k', owner e.after.server k' = if k' = k then some c else owner e.before.server k'
  size : size e.after.server = size e.before.server + 1
  channels : e.after.server.channelTable = e.before.server.channelTable

/-- What a step can do. -/
inductive Effect (e : Move ι) : Prop where
  | quiet (howner : ∀ k, owner e.after.server k = owner e.before.server k)
      (hsize : size e.after.server = size e.before.server)
      (hchannels : e.after.server.channelTable = e.before.server.channelTable)
  | removed (hremoves : Removes e.before.server.allocationTable e.before.server.channelTable
      e.after.server.allocationTable e.after.server.channelTable)
  | inserted {c k : SocketAddr} (hinserts : e.Inserts c k) (henters : Enters e c k)
  | bound {c r p : SocketAddr} {n : UInt16} {now : ℕ} (hbinds : e.Binds c r n p)
      (htable : e.after.server.allocationTable = e.before.server.allocationTable)
      (hbind : e.before.server.channelTable.bind now n p r
        = .ok e.after.server.channelTable)

section Effect

variable {ι : Type} {e : Move ι} {c c' k k' : SocketAddr}

/-- A step inserts at most one allocation. -/
theorem Move.Inserts.unique (h : e.Inserts c k) (h' : e.Inserts c' k') : k = k' := by
  obtain ⟨i, env, lifetime, port, hevent, hpc, rfl⟩ := h
  obtain ⟨i', env', lifetime', port', hevent', hpc', rfl⟩ := h'
  obtain ⟨rfl, -⟩ := Event.access.inj (hevent.symm.trans hevent')
  obtain ⟨-, -, rfl⟩ := Pc.insert.inj (hpc.symm.trans hpc')
  rfl

/-- An owner after a step was the owner before it, or the step inserted the allocation. -/
theorem Effect.owner_cases (he : Effect e) (h : owner e.after.server k = some c) :
    owner e.before.server k = some c ∨ e.Inserts c k := by
  cases he with
  | quiet howner _ _ => exact Or.inl ((howner k).symm.trans h)
  | removed hremoves =>
      unfold owner at h ⊢
      rcases hremoves.owner k with hsame | ⟨hnone, -⟩
      · rw [← hsame]
        exact Or.inl h
      · rw [hnone] at h
        exact absurd h (by simp)
  | inserted hinserts henters =>
      rw [henters.owner] at h
      split at h
      · next hk =>
          obtain rfl := Option.some.inj h
          rw [hk]
          exact Or.inr hinserts
      · exact Or.inl h
  | bound _ htable _ =>
      rw [owner, htable] at h
      exact Or.inl h

/-- There are no more allocations than before, or the step inserted one. -/
theorem Effect.size_cases (he : Effect e) :
    size e.after.server ≤ size e.before.server ∨
      ∃ c k, e.Inserts c k ∧ size e.after.server = size e.before.server + 1 := by
  cases he with
  | quiet _ hsize _ => exact Or.inl hsize.le
  | removed hremoves => exact Or.inl hremoves.size
  | inserted hinserts henters => exact Or.inr ⟨_, _, hinserts, henters.size⟩
  | bound _ htable _ =>
      rw [size, htable]
      exact Or.inl le_rfl

end Effect

/-- The invariant: every port is answered for once. -/
def Inv (st : State ι) : Prop :=
  Ledger st.server.allocationTable (fun i => inHand (st.pc i))

variable {st st' : State ι} {i : ι} {env : Env} {server' : TurnServer} {pc' : Pc}

theorem spec_of_advance (hadvance : advance env st.server (st.pc i) = (server', pc'))
    (hledger : Ledger server'.allocationTable (fun j => inHand (Function.update st.pc i pc' j)))
    (heffect : Effect ⟨.access i env, st, ⟨server', Function.update st.pc i pc'⟩⟩) :
    Inv (perform st (.access i env)) ∧ Effect (.of st (.access i env)) := by
  have hperform : perform st (.access i env) = ⟨server', Function.update st.pc i pc'⟩ := by
    rw [perform, hadvance]
  rw [Move.of, hperform]
  exact ⟨hledger, heffect⟩

theorem inHand_update_self : inHand (Function.update st.pc i pc' i) = inHand pc' := by
  rw [Function.update_self]

theorem inHand_update_ne (j : ι) (h : j ≠ i) :
    inHand (Function.update st.pc i pc' j) = inHand (st.pc j) := by
  rw [Function.update_of_ne h]

theorem inHand_update (hhand : inHand pc' = inHand (st.pc i)) (j : ι) :
    inHand (Function.update st.pc i pc' j) = inHand (st.pc j) := by
  by_cases hj : j = i
  · subst hj
    exact inHand_update_self.trans hhand
  · exact inHand_update_ne j hj

/-- An access that leaves the keys and the ports alone, and the port in the task's hand. -/
theorem Inv.of_same (h : Inv st)
    (hports : server'.allocationTable.portAllocator = st.server.allocationTable.portAllocator)
    (haddr : server'.allocationTable.externalAddr = st.server.allocationTable.externalAddr)
    (hkeys : ∀ k, k ∈ server'.allocationTable.allocations ↔
      k ∈ st.server.allocationTable.allocations)
    (hhand : inHand pc' = inHand (st.pc i)) :
    Ledger server'.allocationTable (fun j => inHand (Function.update st.pc i pc' j)) :=
  h.congr hports haddr hkeys (inHand_update hhand)

/-- An access that only looks. -/
theorem spec_of_look (pc' : Pc) (h : Inv st)
    (hadvance : advance env st.server (st.pc i) = (st.server, pc'))
    (hhand : inHand pc' = inHand (st.pc i)) :
    Inv (perform st (.access i env)) ∧ Effect (.of st (.access i env)) :=
  spec_of_advance hadvance (h.of_same rfl rfl (fun _ => Iff.rfl) hhand)
    (.quiet (fun _ => rfl) rfl rfl)

theorem spec_of_remove (h : Inv st) {addr : SocketAddr}
    (hadvance : advance env st.server (st.pc i) = (st.server.without addr, pc'))
    (hhand : inHand pc' = inHand (st.pc i)) :
    Inv (perform st (.access i env)) ∧ Effect (.of st (.access i env)) := by
  refine spec_of_advance hadvance ?_ (.removed ((Removes.refl _ _).removeAllocation addr))
  exact (h.removeAllocation st.server.channelTable addr).congr rfl rfl (fun _ => Iff.rfl)
    (inHand_update hhand)

theorem spec_takePort (h : Inv st) {client : SocketAddr} {lifetime : UInt32} {attempts : ℕ}
    (hpc : st.pc i = .takePort client lifetime attempts) :
    Inv (perform st (.access i env)) ∧ Effect (.of st (.access i env)) := by
  have hhand : inHand (st.pc i) = none := by rw [hpc]; rfl
  by_cases hmore : attempts ≥ 100
  · refine spec_of_look .idle h ?_ hhand.symm
    rw [hpc, advance, if_pos hmore]
  · rcases st.server.allocationTable.portAllocator.allocate_cases (env.portChoice attempts) with
      hnone | ⟨pa, k, port, hsome, htake, hport⟩
    · refine spec_of_look .idle h ?_ hhand.symm
      rw [hpc, advance, if_neg hmore, hnone]
    · have hadvance : advance env st.server (st.pc i)
          = (st.server.withTable { st.server.allocationTable with portAllocator := pa },
            .bindSocket client lifetime attempts port) := by
        rw [hpc, advance, if_neg hmore, hsome]
      exact spec_of_advance hadvance (h.take htake hport inHand_update_self inHand_update_ne)
        (.quiet (fun _ => rfl) rfl rfl)

theorem spec_bindSocket (h : Inv st) {client : SocketAddr} {lifetime : UInt32} {attempts : ℕ}
    {port : UInt16} (hpc : st.pc i = .bindSocket client lifetime attempts port) :
    Inv (perform st (.access i env)) ∧ Effect (.of st (.access i env)) := by
  have hhand : inHand (st.pc i) = some port := by rw [hpc]; rfl
  cases hbind : env.bindResult attempts with
  | ok _ =>
      refine spec_of_look (.insert client lifetime port) h ?_ hhand.symm
      rw [hpc, advance, hbind]
  | error source =>
      have hadvance : advance env st.server (st.pc i)
          = (st.server.withTable { st.server.allocationTable with
              portAllocator := (st.server.allocationTable.portAllocator.release port).1 },
            .takePort client lifetime (attempts + 1)) := by
        rw [hpc, advance, hbind]
      exact spec_of_advance hadvance (h.giveBack hhand inHand_update_self inHand_update_ne)
        (.quiet (fun _ => rfl) rfl rfl)

/-- The relayed address of a new allocation is free, by the ledger. -/
theorem enters_of_insert (h : Inv st) {client : SocketAddr} {lifetime : UInt32} {port : UInt16}
    (hpc : st.pc i = .insert client lifetime port) :
    Enters (.of st (.access i env)) client (.v4 st.server.allocationTable.externalAddr port) := by
  have hfree := (h.held i port (by rw [hpc]; rfl)).2
  have hafter : (perform st (.access i env)).server = st.server.withTable
      (insertAllocation st.server.allocationTable env client lifetime port) := by
    rw [perform, hpc, advance]
  refine ⟨?_, fun k' => ?_, ?_, ?_⟩
  · show owner st.server _ = none
    rw [owner, AList.lookup_eq_none.2 hfree]
    rfl
  · show owner (perform st (.access i env)).server k' = _
    rw [hafter]
    unfold owner
    dsimp only
    rw [lookup_insertAllocation]
    split
    · rfl
    · rfl
  · show size (perform st (.access i env)).server = _
    rw [hafter]
    exact HashMap.len_insert_of_notMem hfree
  · show (perform st (.access i env)).server.channelTable = _
    rw [hafter]
    rfl

theorem spec_insert (h : Inv st) {client : SocketAddr} {lifetime : UInt32} {port : UInt16}
    (hpc : st.pc i = .insert client lifetime port) :
    Inv (perform st (.access i env)) ∧ Effect (.of st (.access i env)) := by
  have hhand : inHand (st.pc i) = some port := by rw [hpc]; rfl
  refine ⟨?_, .inserted ⟨i, env, lifetime, port, rfl, hpc, rfl⟩ (enters_of_insert h hpc)⟩
  have hperform : perform st (.access i env) = ⟨st.server.withTable
      (insertAllocation st.server.allocationTable env client lifetime port),
      Function.update st.pc i .idle⟩ := by
    rw [perform, hpc, advance]
  rw [hperform]
  exact h.insert hhand inHand_update_self inHand_update_ne env client lifetime

theorem spec_refreshStore (h : Inv st) {relayed : SocketAddr} {lifetime : UInt32}
    (hpc : st.pc i = .refreshStore relayed lifetime) :
    Inv (perform st (.access i env)) ∧ Effect (.of st (.access i env)) := by
  have hhand : inHand (st.pc i) = none := by rw [hpc]; rfl
  cases htable : st.server.allocationTable.refreshAllocation relayed lifetime with
  | error f =>
      refine spec_of_look .idle h ?_ hhand.symm
      rw [hpc, advance, htable]
  | ok table =>
      have hadvance : advance env st.server (st.pc i) = (st.server.withTable table, .idle) := by
        rw [hpc, advance, htable]
      have heq := refreshAllocation_eq_ok htable
      refine spec_of_advance hadvance (h.of_same ?_ ?_ ?_ hhand.symm) (.quiet ?_ ?_ rfl)
      · rw [heq]
      · rw [heq]
      · intro k
        rw [heq, AList.mem_keys, AList.mem_keys, HashMap.keys_modify]
      · intro k
        unfold owner
        rw [heq]
        dsimp only
        rw [HashMap.lookup_modify]
        split
        · next hk =>
            rw [hk, Option.map_map]
            rfl
        · rfl
      · unfold size
        rw [heq]
        exact HashMap.len_modify _ _ _

theorem spec_channelBind (h : Inv st) {client relayed peerAddr : SocketAddr} {channelNum : UInt16}
    (hpc : st.pc i = .channelBind client relayed channelNum peerAddr) :
    Inv (perform st (.access i env)) ∧ Effect (.of st (.access i env)) := by
  have hhand : inHand (st.pc i) = none := by rw [hpc]; rfl
  cases hbind : st.server.channelTable.bind env.now channelNum peerAddr relayed with
  | error f =>
      refine spec_of_look .idle h ?_ hhand.symm
      rw [hpc, advance, hbind]
  | ok channels =>
      have hadvance : advance env st.server (st.pc i)
          = ({ st.server with channelTable := channels }, .idle) := by
        rw [hpc, advance, hbind]
      exact spec_of_advance hadvance (h.of_same rfl rfl (fun _ => Iff.rfl) hhand.symm)
        (.bound ⟨i, env, rfl, hpc⟩ rfl hbind)

/-- Every access keeps the invariant and does one of the things listed. -/
theorem access_spec (h : Inv st) (i : ι) (env : Env) :
    Inv (perform st (.access i env)) ∧ Effect (.of st (.access i env)) := by
  cases hpc : st.pc i with
  | idle => exact spec_of_look _ h (by rw [hpc, advance]) rfl
  | allocateFind client lifetime =>
      cases hfind : st.server.allocationTable.findAllocationByClient client with
      | none => exact spec_of_look _ h (by rw [hpc, advance, hfind]) (by rw [hpc]; rfl)
      | some old => exact spec_of_look _ h (by rw [hpc, advance, hfind]) (by rw [hpc]; rfl)
  | allocateRemove client lifetime old =>
      exact spec_of_remove h (by rw [hpc, advance]) (by rw [hpc]; rfl)
  | checkQuota client lifetime =>
      by_cases hquota : st.server.allocationTable.quotaReached = true
      · exact spec_of_look _ h (by rw [hpc, advance, if_pos hquota]) (by rw [hpc]; rfl)
      · exact spec_of_look _ h (by rw [hpc, advance, if_neg hquota]) (by rw [hpc]; rfl)
  | takePort client lifetime attempts => exact spec_takePort h hpc
  | bindSocket client lifetime attempts port => exact spec_bindSocket h hpc
  | insert client lifetime port => exact spec_insert h hpc
  | refreshFind client lifetime =>
      cases hfind : st.server.allocationTable.findAllocationByClient client with
      | none => exact spec_of_look _ h (by rw [hpc, advance, hfind]) (by rw [hpc]; rfl)
      | some relayed =>
          by_cases hzero : lifetime = 0
          · exact spec_of_look _ h (by rw [hpc, advance, hfind]; exact if_pos hzero)
              (by rw [hpc]; rfl)
          · exact spec_of_look _ h (by rw [hpc, advance, hfind]; exact if_neg hzero)
              (by rw [hpc]; rfl)
  | refreshRemove relayed => exact spec_of_remove h (by rw [hpc, advance]) (by rw [hpc]; rfl)
  | refreshStore relayed lifetime => exact spec_refreshStore h hpc
  | channelFind client channelNum peerAddr =>
      cases hfind : st.server.allocationTable.findAllocationByClient client with
      | none => exact spec_of_look _ h (by rw [hpc, advance, hfind]) (by rw [hpc]; rfl)
      | some relayed => exact spec_of_look _ h (by rw [hpc, advance, hfind]) (by rw [hpc]; rfl)
  | channelBind client relayed channelNum peerAddr => exact spec_channelBind h hpc

theorem perform_spec (h : Inv st) (event : Event ι) :
    Inv (perform st event) ∧ Effect (.of st event) := by
  cases event with
  | request i client req =>
      by_cases hidle : st.pc i = .idle
      · have hperform : perform st (.request i client req)
            = ⟨st.server, Function.update st.pc i (req.start client)⟩ := by
          rw [perform, if_pos hidle]
        have hhand : inHand (req.start client) = inHand (st.pc i) := by
          rw [hidle]
          cases req with
          | allocate lifetime => rfl
          | refresh lifetime => rfl
          | channelBind channelNum peerAddr => rfl
        rw [Move.of, hperform]
        exact ⟨h.of_same rfl rfl (fun _ => Iff.rfl) hhand, .quiet (fun _ => rfl) rfl rfl⟩
      · rw [Move.of, perform, if_neg hidle]
        exact ⟨h, .quiet (fun _ => rfl) rfl rfl⟩
  | access i env => exact access_spec h i env
  | cleanupAllocations now =>
      refine ⟨?_, .removed ?_⟩
      · exact cleanupExpired_induct (P := fun t _ => Ledger t (fun i => inHand (st.pc i)))
          (fun t ct addr ht => ht.removeAllocation ct addr) h
      · exact cleanupExpired_induct
          (P := Removes st.server.allocationTable st.server.channelTable)
          (fun t ct addr ht => ht.removeAllocation addr) (.refl _ _)
  | cleanupChannels now =>
      exact ⟨h, .removed ⟨fun _ => Or.inl rfl, le_rfl, fun _ _ _ hb => lookup_cleanupExpired hb⟩⟩

/-! ## Runs -/

variable {e : Move ι} {history : List (Move ι)} {st₀ : State ι} {c k : SocketAddr}

theorem Step.inv_before (hstep : Step st e st') (h : Inv st) : Inv e.before := by
  obtain ⟨allocations, channels, hsame, -, heq⟩ := hstep.rehashed
  refine h.congr (by rw [heq]) (by rw [heq]) (fun k => ?_) (fun j => by rw [hstep.pc])
  rw [heq]
  exact (hsame.mem_iff k).symm

theorem Step.spec (hstep : Step st e st') (h : Inv st) : Inv st' ∧ Effect e := by
  have hbefore := hstep.inv_before h
  obtain ⟨event, before, after⟩ := e
  obtain rfl : after = perform before event := hstep.outcome
  rw [hstep.next]
  exact perform_spec hbefore event

theorem Step.enters (hstep : Step st e st') (h : Inv st) (hinserts : e.Inserts c k) :
    Enters e c k := by
  have hbefore := hstep.inv_before h
  obtain ⟨event, before, after⟩ := e
  obtain ⟨i, env, lifetime, port, rfl, hpc, rfl⟩ := hinserts
  obtain rfl : after = perform before (.access i env) := hstep.outcome
  exact enters_of_insert hbefore hpc

omit [DecidableEq ι] in
theorem Initial.inv (h : Initial st₀) : Inv st₀ := by
  have hnone : ∀ i, inHand (st₀.pc i) = none := by
    intro i
    rw [h.idle i]
    rfl
  refine ⟨fun k hk => ?_, fun i p hp => ?_, fun i j p hp => ?_⟩
  · rw [h.started.fresh.allocations] at hk
    exact absurd hk (AList.notMem_empty k)
  · exact absurd ((hnone i).symm.trans hp) (by simp)
  · exact absurd ((hnone i).symm.trans hp) (by simp)

theorem Run.inv (hrun : Run st₀ history st) (hinit : Initial st₀) : Inv st :=
  Trace.Run.invariant (P := fun _ st => Inv st) hrun hinit.inv
    (fun _ _ _ _ _ h hstep => (hstep.spec h).1)

theorem Step.owner_before (hstep : Step st e st') (k : SocketAddr) :
    owner e.before.server k = owner st.server k := by
  rw [owner, hstep.rehashed.lookup_allocations]
  rfl

theorem Step.size_before (hstep : Step st e st') : size e.before.server = size st.server := by
  obtain ⟨allocations, channels, hsame, -, heq⟩ := hstep.rehashed
  rw [size, heq]
  exact hsame.len_eq.symm

end Interleaving

end Miuturn
