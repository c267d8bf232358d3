import Mathlib.Data.List.AList

set_option autoImplicit false

/-! # `HashMap`

A Rust `HashMap` is an association list with distinct keys (`AList`). The order of its entries
stands for the map's unspecified iteration order: two maps with the same entries in another order
are the same map (`HashMap.Same`), and a result read off an iteration is meaningful when it is the
same for every such order (`find?_perm`).

Lookup, insertion and removal and their laws are Mathlib's. This file adds what is missing there:
`retain`, modification of a value in place, and how the image of the keys under a function changes
with the map. -/

namespace RustStd

/-- `std::collections::HashMap`. -/
abbrev HashMap (κ ν : Type) := AList (fun _ : κ => ν)

namespace HashMap

variable {κ ν : Type}

/-- `m.len()`. -/
def len (m : HashMap κ ν) : ℕ := m.entries.length

/-- `m.retain(|k, v| p(k, v))`. -/
def retain (p : κ → ν → Bool) (m : HashMap κ ν) : HashMap κ ν :=
  ⟨m.entries.filter (fun e => p e.1 e.2),
    (List.Sublist.map Sigma.fst List.filter_sublist).nodup m.nodupKeys⟩

/-- The same entries, in any iteration order. -/
def Same (m m' : HashMap κ ν) : Prop := m.entries.Perm m'.entries

theorem Same.refl (m : HashMap κ ν) : Same m m := List.Perm.refl _

theorem Same.symm {m m' : HashMap κ ν} (h : Same m m') : Same m' m := List.Perm.symm h

theorem Same.trans {m m' m'' : HashMap κ ν} (h : Same m m') (h' : Same m' m'') : Same m m'' :=
  List.Perm.trans h h'

theorem Same.mem_iff {m m' : HashMap κ ν} (h : Same m m') (k : κ) : k ∈ m ↔ k ∈ m' :=
  AList.mem_of_perm h

theorem Same.len_eq {m m' : HashMap κ ν} (h : Same m m') : len m = len m' := List.Perm.length_eq h

theorem mem_retain {p : κ → ν → Bool} {m : HashMap κ ν} {e : Σ _ : κ, ν} :
    e ∈ (retain p m).entries ↔ e ∈ m.entries ∧ p e.1 e.2 = true := by
  simp only [retain, List.mem_filter]

/-- `m.values()`, in the map's order. -/
def values (m : HashMap κ ν) : List ν := m.entries.map Sigma.snd

/-- The map with every value replaced by its image. -/
def mapValues {ν' : Type} (f : ν → ν') (m : HashMap κ ν) : HashMap κ ν' :=
  ⟨m.entries.map (fun e => ⟨e.1, f e.2⟩), by
    rw [List.NodupKeys, List.keys, List.map_map]
    exact m.nodupKeys⟩

variable [DecidableEq κ]

/-- `*m.get_mut(k) = f(m[k])`: the value under `k`, if there is one, changed in place. -/
def modify (k : κ) (f : ν → ν) (m : HashMap κ ν) : HashMap κ ν :=
  ⟨m.entries.map (fun e => if e.1 = k then ⟨e.1, f e.2⟩ else e), by
    have hkeys : (m.entries.map (fun e => if e.1 = k then ⟨e.1, f e.2⟩ else e)).keys
        = m.entries.keys := by
      simp only [List.keys, List.map_map]
      apply List.map_congr_left
      intro e _
      by_cases h : e.1 = k <;> simp [h]
    rw [List.NodupKeys, hkeys]
    exact m.nodupKeys⟩

theorem lookup_eq_some {m : HashMap κ ν} {k : κ} {v : ν} :
    m.lookup k = some v ↔ (⟨k, v⟩ : Σ _ : κ, ν) ∈ m.entries :=
  AList.mem_lookup_iff

theorem Same.lookup_eq {m m' : HashMap κ ν} (h : Same m m') (k : κ) : m.lookup k = m'.lookup k :=
  AList.perm_lookup h

/-- A map is what its lookups are. -/
theorem same_iff_lookup {m m' : HashMap κ ν} : Same m m' ↔ ∀ k, m.lookup k = m'.lookup k := by
  refine ⟨fun h k => h.lookup_eq k, fun h => ?_⟩
  refine List.lookup_ext m.nodupKeys m'.nodupKeys (fun k v => ?_)
  show v ∈ m.lookup k ↔ v ∈ m'.lookup k
  rw [h k]

theorem mem_of_lookup {m : HashMap κ ν} {k : κ} {v : ν} (h : m.lookup k = some v) : k ∈ m :=
  AList.lookup_isSome.1 (by rw [h]; rfl)

theorem exists_lookup {m : HashMap κ ν} {k : κ} (h : k ∈ m) : ∃ v, m.lookup k = some v :=
  Option.isSome_iff_exists.1 (AList.lookup_isSome.2 h)

theorem lookup_erase_eq_some {m : HashMap κ ν} {k k' : κ} {v : ν} :
    (m.erase k).lookup k' = some v ↔ k' ≠ k ∧ m.lookup k' = some v := by
  by_cases h : k' = k
  · subst h; simp
  · rw [AList.lookup_erase_ne h]
    simp [h]

theorem lookup_insert_eq_some {m : HashMap κ ν} {k k' : κ} {v w : ν} :
    (m.insert k v).lookup k' = some w ↔ (k' = k ∧ w = v) ∨ (k' ≠ k ∧ m.lookup k' = some w) := by
  by_cases h : k' = k
  · subst h
    rw [AList.lookup_insert]
    simp [eq_comm]
  · rw [AList.lookup_insert_ne h]
    simp [h]

theorem mem_modify_entries {m : HashMap κ ν} {k k' : κ} {f : ν → ν} {w : ν} :
    (⟨k', w⟩ : Σ _ : κ, ν) ∈ (modify k f m).entries
      ↔ (k' = k ∧ ∃ v, w = f v ∧ (⟨k, v⟩ : Σ _ : κ, ν) ∈ m.entries)
        ∨ (k' ≠ k ∧ (⟨k', w⟩ : Σ _ : κ, ν) ∈ m.entries) := by
  simp only [modify, List.mem_map]
  constructor
  · rintro ⟨⟨k₀, v⟩, hmem, heq⟩
    by_cases h : k₀ = k
    · subst h
      rw [if_pos rfl] at heq
      cases heq
      exact Or.inl ⟨rfl, v, rfl, hmem⟩
    · rw [if_neg h] at heq
      cases heq
      exact Or.inr ⟨h, hmem⟩
  · rintro (⟨rfl, v, rfl, hmem⟩ | ⟨hne, hmem⟩)
    · exact ⟨⟨k', v⟩, hmem, if_pos rfl⟩
    · exact ⟨⟨k', w⟩, hmem, if_neg hne⟩

@[simp] theorem keys_modify (k : κ) (f : ν → ν) (m : HashMap κ ν) :
    (modify k f m).keys = m.keys := by
  simp only [AList.keys, modify, List.keys, List.map_map]
  apply List.map_congr_left
  intro e _
  by_cases h : e.1 = k <;> simp [h]

@[simp] theorem len_modify (k : κ) (f : ν → ν) (m : HashMap κ ν) : len (modify k f m) = len m := by
  simp only [len, modify, List.length_map]

theorem lookup_modify (k k' : κ) (f : ν → ν) (m : HashMap κ ν) :
    (modify k f m).lookup k' = if k' = k then (m.lookup k).map f else m.lookup k' := by
  apply Option.ext
  intro w
  rw [lookup_eq_some, mem_modify_entries]
  by_cases h : k' = k
  · subst h
    simp only [if_true, ne_eq, not_true, false_and, or_false, true_and, Option.map_eq_some_iff,
      lookup_eq_some]
    constructor
    · rintro ⟨v, rfl, hv⟩; exact ⟨v, hv, rfl⟩
    · rintro ⟨v, hv, rfl⟩; exact ⟨v, rfl, hv⟩
  · rw [if_neg h, lookup_eq_some]
    simp [h]

/-- What is done to the value under a key depends on that value only. -/
theorem modify_congr {m : HashMap κ ν} {k : κ} {f g : ν → ν}
    (h : ∀ v, m.lookup k = some v → f v = g v) : modify k f m = modify k g m := by
  refine AList.ext (List.map_congr_left fun e he => ?_)
  obtain ⟨k', v⟩ := e
  by_cases hk : k' = k
  · subst hk
    rw [if_pos rfl, if_pos rfl, h v (lookup_eq_some.2 he)]
  · rw [if_neg hk, if_neg hk]

theorem modify_eq_self {m : HashMap κ ν} {k : κ} {f : ν → ν}
    (h : ∀ v, m.lookup k = some v → f v = v) : modify k f m = m := by
  rw [modify_congr (g := id) h]
  refine AList.ext ((List.map_congr_left fun e _ => ?_).trans (List.map_id _))
  exact ite_self e

/-- A value changed in place is one entered anew. -/
theorem same_insert_modify {m : HashMap κ ν} {k : κ} {v : ν} (h : m.lookup k = some v)
    (f : ν → ν) : Same (m.insert k (f v)) (modify k f m) := by
  rw [same_iff_lookup]
  intro k'
  rw [lookup_modify]
  by_cases hk : k' = k
  · rw [if_pos hk, hk, AList.lookup_insert, h, Option.map_some]
  · rw [if_neg hk, AList.lookup_insert_ne hk]

/-- A value after a change in place is related to the value there before, by any reflexive relation
    that the change respects. -/
theorem exists_of_lookup_modify {R : ν → ν → Prop} (hrefl : ∀ v, R v v) {k k' : κ} {f : ν → ν}
    (hf : ∀ v, R v (f v)) {m : HashMap κ ν} {w : ν} (h : (modify k f m).lookup k' = some w) :
    ∃ v, m.lookup k' = some v ∧ R v w := by
  rw [lookup_modify] at h
  split at h
  · next hk =>
      obtain ⟨v, hv, rfl⟩ := Option.map_eq_some_iff.1 h
      exact ⟨v, by rw [hk]; exact hv, hf v⟩
  · exact ⟨w, h, hrefl w⟩

/-- A reading of the entries that does not see a change in place. -/
theorem map_entries_modify {α : Type} {g : (Σ _ : κ, ν) → α} {k : κ} {f : ν → ν}
    (hg : ∀ e, g ⟨e.1, f e.2⟩ = g e) (m : HashMap κ ν) :
    (modify k f m).entries.map g = m.entries.map g := by
  simp only [modify, List.map_map]
  apply List.map_congr_left
  intro e _
  simp only [Function.comp_apply]
  split
  · exact hg e
  · rfl

theorem len_insert_of_notMem {m : HashMap κ ν} {k : κ} {v : ν} (h : k ∉ m) :
    len (m.insert k v) = len m + 1 := by
  simp only [len, AList.entries_insert_of_notMem h, List.length_cons]

theorem len_erase_of_mem {m : HashMap κ ν} {k : κ} (h : k ∈ m) : len (m.erase k) + 1 = len m := by
  have hkeys : ∀ m' : HashMap κ ν, len m' = m'.keys.length := fun m' => by
    simp [len, AList.keys, List.keys]
  rw [hkeys, hkeys, AList.keys_erase, List.length_erase_of_mem (AList.mem_keys.1 h)]
  have hpos : 0 < m.keys.length := List.length_pos_of_mem (AList.mem_keys.1 h)
  omega

theorem lookup_retain (p : κ → ν → Bool) (m : HashMap κ ν) (k : κ) :
    (retain p m).lookup k = (m.lookup k).filter (p k) := by
  apply Option.ext
  intro v
  rw [lookup_eq_some, mem_retain, Option.filter_eq_some_iff, lookup_eq_some]

/-! ### Operations on some of the keys -/

/-- An operation that leaves the keys outside `P` alone, and that for a key of `P` looks at nothing
    but the value there. -/
structure ActsOn (P : κ → Prop) (f : HashMap κ ν → HashMap κ ν) : Prop where
  off : ∀ m k, ¬ P k → (f m).lookup k = m.lookup k
  on : ∀ m m' k, P k → m.lookup k = m'.lookup k → (f m).lookup k = (f m').lookup k

section ActsOn

variable {P Q : κ → Prop} {f g : HashMap κ ν → HashMap κ ν}

/-- Operations on different keys commute. -/
theorem ActsOn.comm (hf : ActsOn P f) (hg : ActsOn Q g) (hdisj : ∀ k, P k → ¬ Q k)
    (m : HashMap κ ν) : Same (f (g m)) (g (f m)) := by
  rw [same_iff_lookup]
  intro k
  by_cases hP : P k
  · have hQ : ¬ Q k := hdisj k hP
    rw [hg.off (f m) k hQ]
    exact hf.on _ _ k hP (hg.off m k hQ)
  · rw [hf.off (g m) k hP]
    by_cases hQ : Q k
    · exact hg.on _ _ k hQ (hf.off m k hP).symm
    · rw [hg.off m k hQ, hg.off (f m) k hQ, hf.off m k hP]

theorem ActsOn.same (hf : ActsOn P f) {m m' : HashMap κ ν} (h : Same m m') :
    Same (f m) (f m') := by
  rw [same_iff_lookup] at h ⊢
  intro k
  by_cases hP : P k
  · exact hf.on m m' k hP (h k)
  · rw [hf.off m k hP, hf.off m' k hP, h k]

theorem actsOn_id (P : κ → Prop) : ActsOn P (fun m : HashMap κ ν => m) :=
  ⟨fun _ _ _ => rfl, fun _ _ _ _ h => h⟩

theorem actsOn_modify (k : κ) (f : ν → ν) : ActsOn (· = k) (modify k f) where
  off := fun m k' h => by rw [lookup_modify, if_neg h]
  on := by
    rintro m m' k' rfl h
    rw [lookup_modify, lookup_modify, if_pos rfl, if_pos rfl, h]

theorem actsOn_erase (k : κ) : ActsOn (· = k) (fun m : HashMap κ ν => m.erase k) where
  off := fun m k' h => AList.lookup_erase_ne h
  on := by
    rintro m m' k' rfl -
    rw [AList.lookup_erase, AList.lookup_erase]

theorem actsOn_insert (k : κ) (v : ν) :
    ActsOn (· = k) (fun m : HashMap κ ν => m.insert k v) where
  off := fun m k' h => AList.lookup_insert_ne h
  on := by
    rintro m m' k' rfl -
    rw [AList.lookup_insert, AList.lookup_insert]

theorem actsOn_retain {p : κ → ν → Bool} (hp : ∀ k v, ¬ P k → p k v = true) :
    ActsOn P (retain p) where
  off := by
    intro m k hk
    rw [lookup_retain]
    cases m.lookup k with
    | none => rfl
    | some v => simp [hp k v hk]
  on := by
    intro m m' k _ h
    rw [lookup_retain, lookup_retain, h]

theorem ActsOn.mono (hf : ActsOn P f) (h : ∀ k, P k → Q k) : ActsOn Q f where
  off := fun m k hk => hf.off m k (fun hP => hk (h k hP))
  on := by
    intro m m' k _ heq
    by_cases hP : P k
    · exact hf.on m m' k hP heq
    · rw [hf.off m k hP, hf.off m' k hP, heq]

end ActsOn

/-! ### Images of the keys -/

section Images

variable {β : Type} {f : κ → β} {m : HashMap κ ν} {k : κ} {y : β}

/-- A new key adds its image. -/
theorem exists_mem_insert {v : ν} :
    (∃ k' ∈ m.insert k v, f k' = y) ↔ y = f k ∨ ∃ k' ∈ m, f k' = y := by
  simp only [AList.mem_insert, or_and_right, exists_or, exists_eq_left, eq_comm (a := y) (b := f k)]

/-- A removed key takes its image with it, when no other key shares it. -/
theorem exists_mem_erase (huniq : ∀ k' ∈ m, f k' = f k → k' = k) :
    (∃ k' ∈ m.erase k, f k' = y) ↔ y ≠ f k ∧ ∃ k' ∈ m, f k' = y := by
  constructor
  · rintro ⟨k', hk', rfl⟩
    obtain ⟨hne, hmem⟩ := AList.mem_erase.1 hk'
    exact ⟨fun heq => hne (huniq k' hmem heq), k', hmem, rfl⟩
  · rintro ⟨hne, k', hmem, rfl⟩
    exact ⟨k', AList.mem_erase.2 ⟨fun heq => hne (congrArg f heq), hmem⟩, rfl⟩

end Images

/-! ### Values, and insertion of many -/

section Values

variable {ν' : Type} (f : ν → ν') (m : HashMap κ ν)

theorem mapValues_erase (k : κ) : mapValues f (m.erase k) = (mapValues f m).erase k := by
  apply AList.ext
  show (m.entries.eraseP _).map _ = (m.entries.map _).eraseP _
  rw [List.eraseP_map]
  rfl

theorem mapValues_insert (k : κ) (v : ν) :
    mapValues f (m.insert k v) = (mapValues f m).insert k (f v) := by
  have herase := congrArg AList.entries (mapValues_erase f m k)
  apply AList.ext
  rw [AList.entries_insert]
  simp only [mapValues, AList.entries_insert, List.map_cons]
  exact congrArg _ herase

/-- In a map whose values carry their key, a search among the values finds what the lookup finds. -/
theorem find?_values {m : HashMap κ ν} {key : ν → κ}
    (hkey : ∀ k v, m.lookup k = some v → key v = k) {l : List ν} (hl : l.Perm (values m)) (k : κ) :
    l.find? (fun v => decide (key v = k)) = m.lookup k := by
  have hmem : ∀ v, v ∈ l ↔ ∃ k', m.lookup k' = some v := by
    intro v
    rw [hl.mem_iff]
    simp [values, lookup_eq_some]
  cases hfind : l.find? (fun v => decide (key v = k)) with
  | none =>
      rw [List.find?_eq_none] at hfind
      cases hlookup : m.lookup k with
      | none => rfl
      | some v => exact absurd (hkey k v hlookup) (by simpa using hfind v ((hmem v).2 ⟨k, hlookup⟩))
  | some v =>
      have hv : key v = k := by simpa using List.find?_some hfind
      obtain ⟨k', hlookup⟩ := (hmem v).1 (List.mem_of_find?_eq_some hfind)
      rw [← hv, hkey k' v hlookup, hlookup]

/-- `for v in l { m.insert(key(v), v) }`. -/
def insertAll (key : ν → κ) (l : List ν) (m : HashMap κ ν) : HashMap κ ν :=
  l.foldl (fun m v => m.insert (key v) v) m

/-- The last value of a key is the one that stays. -/
theorem lookup_insertAll (key : ν → κ) (l : List ν) (k : κ) :
    (insertAll key l m).lookup k
      = (l.reverse.find? (fun v => decide (key v = k))).or (m.lookup k) := by
  induction l generalizing m with
  | nil => simp [insertAll]
  | cons v l ih =>
      have hcons : insertAll key (v :: l) m = insertAll key l (m.insert (key v) v) := rfl
      rw [hcons, ih, List.reverse_cons, List.find?_append, Option.or_assoc]
      congr 1
      by_cases h : key v = k
      · subst h
        simp
      · rw [AList.lookup_insert_ne (Ne.symm h)]
        simp [h]

end Values

end HashMap

/-! ## Searching an iteration -/

/-- When at most one element satisfies `p`, the element a search finds does not depend on the order
    of the list. -/
theorem find?_perm {α : Type} {l l' : List α} (h : l.Perm l') (p : α → Bool)
    (huniq : ∀ a ∈ l, ∀ b ∈ l, p a = true → p b = true → a = b) : l.find? p = l'.find? p := by
  cases hfind : l.find? p with
  | none =>
      rw [List.find?_eq_none] at hfind
      symm
      rw [List.find?_eq_none]
      exact fun a ha => hfind a (h.mem_iff.2 ha)
  | some a =>
      have ha := List.find?_some hfind
      have hmem := List.mem_of_find?_eq_some hfind
      cases hfind' : l'.find? p with
      | none =>
          rw [List.find?_eq_none] at hfind'
          exact absurd ha (hfind' a (h.mem_iff.1 hmem))
      | some b =>
          rw [huniq a hmem b (h.mem_iff.2 (List.mem_of_find?_eq_some hfind')) ha
            (List.find?_some hfind')]

end RustStd
