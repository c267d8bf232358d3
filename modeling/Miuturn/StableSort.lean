import Mathlib.Data.List.Induction
import Mathlib.Data.List.Sort

set_option autoImplicit false

/-! # Stable sorting by a key

A list that is kept sorted by descending key, with equal keys in the order of arrival, while
elements are added and dropped. `StablySorts` relates it to the list of the same elements in the
order of arrival; `StablySorts.find?_eq_some_iff` says what the first element with a property is: of
those with the greatest key, the one that arrived first. -/

namespace StableSort

variable {α κ : Type} [LinearOrder κ] {key : α → κ} {l s : List α} {a b : α} {P : α → Prop}

/-- The second list is the first, sorted by descending key, with ties in the order of the first. -/
structure StablySorts (key : α → κ) (l s : List α) : Prop where
  sorted : s.Pairwise (fun a b => key b ≤ key a)
  ties : ∀ k, s.filter (fun a => key a = k) = l.filter (fun a => key a = k)

theorem StablySorts.nil (key : α → κ) : StablySorts key [] [] := ⟨.nil, fun _ => rfl⟩

/-! ## Adding and dropping -/

/-- An element is inserted before all others with its key. -/
theorem filter_orderedInsert (key : α → κ) (a : α) (l : List α) (k : κ) :
    (l.orderedInsert (fun a b => key b ≤ key a) a).filter (fun a => key a = k)
      = (a :: l).filter (fun a => key a = k) := by
  induction l with
  | nil => rfl
  | cons b l ih =>
      rw [List.orderedInsert_cons]
      by_cases hle : key b ≤ key a
      · rw [if_pos hle]
      · rw [if_neg hle, List.filter_cons, ih]
        -- at most one of the two has the key
        by_cases hb : key b = k
        · have ha : key a ≠ k := by
            intro ha
            exact hle (hb.trans ha.symm).le
          simp [hb, ha]
        · simp [hb, List.filter_cons]

theorem filter_insertionSort (key : α → κ) (l : List α) (k : κ) :
    (l.insertionSort (fun a b => key b ≤ key a)).filter (fun a => key a = k)
      = l.filter (fun a => key a = k) := by
  induction l with
  | nil => rfl
  | cons a l ih => rw [List.insertionSort_cons, filter_orderedInsert, List.filter_cons, ih,
      List.filter_cons]

theorem sorted_insertionSort (key : α → κ) (l : List α) :
    (l.insertionSort (fun a b => key b ≤ key a)).Pairwise (fun a b => key b ≤ key a) := by
  have : Std.Total (fun a b : α => key b ≤ key a) := ⟨fun a b => le_total (key b) (key a)⟩
  have : IsTrans α (fun a b => key b ≤ key a) := ⟨fun _ _ _ hab hbc => hbc.trans hab⟩
  exact List.pairwise_insertionSort _ _

/-- A list that is sorted comes out as it is when its elements are added one by one. -/
theorem foldl_push_of_sorted (h : l.Pairwise (fun a b => key b ≤ key a)) :
    l.foldl (fun s a => (s ++ [a]).insertionSort (fun a b => key b ≤ key a)) [] = l := by
  induction l using List.reverseRecOn with
  | nil => rfl
  | append_singleton l a ih =>
      rw [List.foldl_append, ih (List.pairwise_append.1 h).1]
      exact h.insertionSort_eq

theorem StablySorts.push (h : StablySorts key l s) (a : α) :
    StablySorts key (l ++ [a]) ((s ++ [a]).insertionSort (fun a b => key b ≤ key a)) where
  sorted := sorted_insertionSort key _
  ties := by
    intro k
    rw [filter_insertionSort, List.filter_append, h.ties, List.filter_append]

theorem StablySorts.filter (h : StablySorts key l s) (p : α → Bool) :
    StablySorts key (l.filter p) (s.filter p) where
  sorted := h.sorted.filter p
  ties := by
    intro k
    rw [List.filter_comm, h.ties, List.filter_comm]

theorem StablySorts.mem_iff (h : StablySorts key l s) : a ∈ s ↔ a ∈ l := by
  have hclass : a ∈ s.filter (fun b => key b = key a) ↔ a ∈ l.filter (fun b => key b = key a) := by
    rw [h.ties]
  simpa using hclass

/-! ## The first element with a property -/

/-- Of the elements with the property, this one has the greatest key and is the first of those. -/
def Foremost (key : α → κ) (P : α → Prop) (l : List α) (a : α) : Prop :=
  P a ∧ ∃ pre post, l = pre ++ a :: post ∧ (∀ b ∈ pre, P b → key b < key a) ∧
    ∀ b ∈ post, P b → key b ≤ key a

theorem Foremost.mem (h : Foremost key P l a) : a ∈ l := by
  obtain ⟨-, pre, post, rfl, -⟩ := h
  simp

theorem Foremost.congr {Q : α → Prop} (h : Foremost key P l a) (hPQ : ∀ b ∈ l, P b ↔ Q b) :
    Foremost key Q l a := by
  have hmem := h.mem
  obtain ⟨hP, pre, post, rfl, hpre, hpost⟩ := h
  refine ⟨(hPQ a hmem).1 hP, pre, post, rfl, fun b hb hQ => ?_, fun b hb hQ => ?_⟩
  · exact hpre b hb ((hPQ b (by simp [hb])).2 hQ)
  · exact hpost b hb ((hPQ b (by simp [hb])).2 hQ)

theorem Foremost.le (h : Foremost key P l a) (hb : b ∈ l) (hP : P b) : key b ≤ key a := by
  obtain ⟨-, pre, post, rfl, hpre, hpost⟩ := h
  rcases List.mem_append.1 hb with hb | hb
  · exact (hpre b hb hP).le
  · rcases List.mem_cons.1 hb with rfl | hb
    · exact le_rfl
    · exact hpost b hb hP

theorem Foremost.unique (ha : Foremost key P l a) (hb : Foremost key P l b) : a = b := by
  have hkey : key a = key b := le_antisymm (hb.le ha.mem ha.1) (ha.le hb.mem hb.1)
  obtain ⟨hPa, pre, post, hl, hpre, -⟩ := ha
  obtain ⟨hPb, pre', post', hl', hpre', -⟩ := hb
  -- neither stands before the other
  rcases List.append_eq_append_iff.1 (hl.symm.trans hl') with ⟨mid, rfl, hmid⟩ | ⟨mid, rfl, hmid⟩
  · cases mid with
    | nil => exact (List.cons.inj hmid).1
    | cons x mid =>
        obtain ⟨rfl, -⟩ := List.cons.inj hmid
        exact absurd hkey (hpre' a (by simp) hPa).ne
  · cases mid with
    | nil => exact (List.cons.inj hmid).1.symm
    | cons x mid =>
        obtain ⟨rfl, -⟩ := List.cons.inj hmid
        exact absurd hkey.symm (hpre b (by simp) hPb).ne

variable {p : α → Bool}

theorem StablySorts.foremost_of_find? (h : StablySorts key l s) (hfind : s.find? p = some a) :
    Foremost key (fun b => p b = true) l a := by
  obtain ⟨hpa, pre, post, hs, hpre⟩ := List.find?_eq_some_iff_append.1 hfind
  have hle : ∀ b ∈ l, p b = true → key b ≤ key a := by
    intro b hb hpb
    have hmem : b ∈ pre ++ a :: post := by rw [← hs, h.mem_iff]; exact hb
    rcases List.mem_append.1 hmem with hmem | hmem
    · exact absurd hpb (by simpa using hpre b hmem)
    · rcases List.mem_cons.1 hmem with rfl | hmem
      · exact le_rfl
      · have hsorted := h.sorted
        rw [hs, List.pairwise_append] at hsorted
        exact (List.pairwise_cons.1 hsorted.2.1).1 b hmem
  -- the elements with the property and the key of `a`, in the order of arrival
  have hfilter : (l.filter p).filter (fun b => key b = key a)
      = a :: (post.filter p).filter (fun b => key b = key a) := by
    have hnone : pre.filter p = [] :=
      List.filter_eq_nil_iff.2 (fun b hb => by simpa using hpre b hb)
    rw [← (h.filter p).ties, hs, List.filter_append, hnone, List.nil_append,
      List.filter_cons_of_pos hpa, List.filter_cons_of_pos (by simp)]
  rw [List.filter_filter] at hfilter
  obtain ⟨pre', post', rfl, hfirst, -, -⟩ := List.filter_eq_cons_iff.1 hfilter
  refine ⟨hpa, pre', post', rfl, fun b hb hpb => ?_, fun b hb hpb => hle b (by simp [hb]) hpb⟩
  refine lt_of_le_of_ne (hle b (by simp [hb]) hpb) (fun hkey => hfirst b hb ?_)
  simp [hkey, hpb]

/-- The first element of the sorted list with a property is the foremost one. -/
theorem StablySorts.find?_eq_some_iff (h : StablySorts key l s) :
    s.find? p = some a ↔ Foremost key (fun b => p b = true) l a := by
  refine ⟨h.foremost_of_find?, fun hforemost => ?_⟩
  cases hfind : s.find? p with
  | none => exact absurd hforemost.1 (List.find?_eq_none.1 hfind a (h.mem_iff.2 hforemost.mem))
  | some b => rw [(h.foremost_of_find? hfind).unique hforemost]

theorem StablySorts.find?_eq_none_iff (h : StablySorts key l s) :
    s.find? p = none ↔ ∀ b ∈ l, ¬ p b = true := by
  rw [List.find?_eq_none]
  exact ⟨fun hnone b hb => hnone b (h.mem_iff.2 hb), fun hnone b hb => hnone b (h.mem_iff.1 hb)⟩

end StableSort
