import Miuturn.Trace

set_option autoImplicit false

/-! # Workers with bounded queues

Items arrive one after the other and each is routed to one worker, which has a queue of bounded
length and takes items off its front, one at a time. An item that finds the queue full, or its
worker gone, is dropped. A worker whose handling of an item crashes is gone for good, with whatever
was in its queue. This file is about any items, workers, routing and capacity, and about all
interleavings of arrivals and workers.

Per worker, what was started and what is still queued is part of what arrived, in order
(`Run.started_sublist`); and a worker starts an item only after it has finished the one before it
(`Run.finish_between`). -/

namespace WorkerPool

variable {α ι : Type}

structure Worker (α : Type) where
  queue : List α
  current : Option α
  alive : Bool

/-- Where items go, and how many may wait there. -/
structure Layout (α ι : Type) where
  route : α → ι
  capacity : ℕ

/-- The workers before anything has arrived. -/
def fresh : ι → Worker α := fun _ => ⟨[], none, true⟩

inductive Event (α ι : Type) where
  | arrive (x : α)
  | start (i : ι) (x : α)
  | finish (i : ι) (x : α)
  | crash (i : ι) (x : α)

/-- What happened, in order, without the arrivals that were dropped being told from the others. -/
def arrived (tr : List (Event α ι)) : List α :=
  tr.filterMap (fun
    | .arrive x => some x
    | _ => none)

/-- The items whose handling was started. -/
def started (tr : List (Event α ι)) : List α :=
  tr.filterMap (fun
    | .start _ x => some x
    | _ => none)

section Steps

variable [DecidableEq ι]

/-- The items that one worker started. -/
def startedBy (i : ι) (tr : List (Event α ι)) : List α :=
  tr.filterMap (fun
    | .start j x => if j = i then some x else none
    | _ => none)

/-- Is there room for an item at its worker? -/
def Accepts (L : Layout α ι) (p : ι → Worker α) (x : α) : Prop :=
  (p (L.route x)).alive = true ∧ (p (L.route x)).queue.length < L.capacity

inductive Step (L : Layout α ι) (p : ι → Worker α) : Event α ι → (ι → Worker α) → Prop where
  | enqueue {x : α} (hroom : Accepts L p x) :
      Step L p (.arrive x) (Function.update p (L.route x)
        { p (L.route x) with queue := (p (L.route x)).queue ++ [x] })
  | drop {x : α} (hfull : ¬ Accepts L p x) : Step L p (.arrive x) p
  | start {i : ι} {x : α} {rest : List α} (h : p i = ⟨x :: rest, none, true⟩) :
      Step L p (.start i x) (Function.update p i ⟨rest, some x, true⟩)
  | finish {i : ι} {x : α} (h : (p i).current = some x) :
      Step L p (.finish i x) (Function.update p i { p i with current := none })
  | crash {i : ι} {x : α} (h : (p i).current = some x) :
      Step L p (.crash i x) (Function.update p i ⟨[], none, false⟩)

variable {L : Layout α ι} {p p' : ι → Worker α} {tr : List (Event α ι)} {i : ι}

/-! ## Order -/

/-- What worker `i` started and has in its queue is part of what was routed to it, in order. -/
def InOrder (L : Layout α ι) (i : ι) (tr : List (Event α ι)) (p : ι → Worker α) : Prop :=
  (startedBy i tr ++ (p i).queue).Sublist ((arrived tr).filter (fun x => L.route x = i))

theorem InOrder.step {e : Event α ι} (h : InOrder L i tr p) (hstep : Step L p e p') :
    InOrder L i (tr ++ [e]) p' := by
  unfold InOrder startedBy arrived at h ⊢
  rw [List.filterMap_append, List.filterMap_append, List.filter_append]
  cases hstep with
  | @enqueue x hroom =>
      by_cases hi : L.route x = i
      · subst hi
        simpa using h.append (List.Sublist.refl [x])
      · rw [Function.update_of_ne (Ne.symm hi)]
        simpa [hi] using h
  | @drop x hfull =>
      simpa using h.trans (List.sublist_append_left _ _)
  | @start j x rest hj =>
      by_cases hi : j = i
      · subst hi
        -- the item moves from the front of the queue to the end of what was started
        rw [hj] at h
        simpa using h
      · rw [Function.update_of_ne (Ne.symm hi)]
        simpa [hi] using h
  | @finish j x hj =>
      by_cases hi : j = i
      · subst hi
        simpa using h
      · rw [Function.update_of_ne (Ne.symm hi)]
        simpa using h
  | @crash j x hj =>
      by_cases hi : j = i
      · subst hi
        simpa using (List.sublist_append_left _ _).trans h
      · rw [Function.update_of_ne (Ne.symm hi)]
        simpa using h

/-- Nothing is started that did not arrive, and nothing twice or out of order. -/
theorem Run.started_sublist (h : Trace.Run (Step L) fresh tr p) (i : ι) :
    (startedBy i tr).Sublist ((arrived tr).filter (fun x => L.route x = i)) := by
  have hinv : InOrder L i tr p := by
    refine Trace.Run.invariant (P := InOrder L i) h ?_ ?_
    · exact List.Sublist.refl _
    · intro tr p e p' _ ih hstep
      exact ih.step hstep
  exact (List.sublist_append_left _ _).trans hinv

/-- An item is started by the worker it is routed to. -/
theorem Run.route_of_start {x : α} (h : Trace.Run (Step L) fresh tr p)
    (hx : Event.start i x ∈ tr) : L.route x = i := by
  have hmem : x ∈ startedBy i tr := List.mem_filterMap.2 ⟨_, hx, by simp⟩
  have harrived := (Run.started_sublist h i).subset hmem
  simpa using (List.mem_filter.1 harrived).2

/-- So for any set of items that all go to one worker, what was started of them is part of what
    arrived of them, in order. -/
theorem Run.started_sublist_of_route (h : Trace.Run (Step L) fresh tr p) (q : α → Bool)
    (hq : ∀ x, q x = true → L.route x = i) :
    ((started tr).filter q).Sublist ((arrived tr).filter q) := by
  have hby : (started tr).filter q = (startedBy i tr).filter q := by
    unfold started startedBy
    rw [List.filter_filterMap, List.filter_filterMap]
    refine List.filterMap_congr (fun e he => ?_)
    cases e with
    | arrive x => rfl
    | start j x =>
        by_cases hx : q x = true
        · rw [← hq x hx, Run.route_of_start h he]
          simp
        · by_cases hj : j = i <;> simp [hx, hj]
    | finish j x => rfl
    | crash j x => rfl
  have hroute : (arrived tr).filter q
      = ((arrived tr).filter (fun x => L.route x = i)).filter q := by
    rw [List.filter_filter]
    refine List.filter_congr (fun x _ => ?_)
    by_cases hx : q x = true
    · simp [hx, hq x hx]
    · simp [hx]
  rw [hby, hroute]
  exact (Run.started_sublist h i).filter q

/-! ## One at a time -/

/-- While worker `i` handles `x` it starts nothing else: it goes on until it has finished `x`, or it
    crashes. -/
theorem Run.busy {x : α} (h : Trace.Run (Step L) p tr p') (hp : (p i).current = some x) :
    Event.finish i x ∈ tr ∨ (p' i).current = some x ∨ (p' i).alive = false := by
  refine Trace.Run.invariant (P := fun tr p' => Event.finish i x ∈ tr ∨
    (p' i).current = some x ∨ (p' i).alive = false) h (Or.inr (Or.inl hp)) ?_
  rintro tr p₁ e p₂ - (hfinish | hbusy) hstep
  · exact Or.inl (List.mem_append_left _ hfinish)
  · cases hstep with
    | @enqueue y hroom =>
        by_cases hi : L.route y = i
        · subst hi
          simpa using Or.inr hbusy
        · rw [Function.update_of_ne (Ne.symm hi)]
          exact Or.inr hbusy
    | drop hfull => exact Or.inr hbusy
    | @start j y rest hj =>
        by_cases hi : j = i
        · subst hi
          rw [hj] at hbusy
          simp at hbusy
        · rw [Function.update_of_ne (Ne.symm hi)]
          exact Or.inr hbusy
    | @finish j y hj =>
        by_cases hi : j = i
        · subst hi
          rcases hbusy with hbusy | hdead
          · obtain rfl : y = x := Option.some.inj (hj.symm.trans hbusy)
            exact Or.inl (by simp)
          · simp [hdead]
        · rw [Function.update_of_ne (Ne.symm hi)]
          exact Or.inr hbusy
    | @crash j y hj =>
        by_cases hi : j = i
        · subst hi
          simp
        · rw [Function.update_of_ne (Ne.symm hi)]
          exact Or.inr hbusy

/-- Between two starts of a worker it finishes the first item. -/
theorem Run.finish_between {p₀ : ι → Worker α} {pre mid post : List (Event α ι)} {x y : α}
    (h : Trace.Run (Step L) p₀ (pre ++ .start i x :: (mid ++ .start i y :: post)) p) :
    Event.finish i x ∈ mid := by
  obtain ⟨p₁, p₂, -, hstart, hrest⟩ := h.at rfl
  obtain ⟨p₃, p₄, hmid, hnext, -⟩ := hrest.at rfl
  have hcurrent : (p₂ i).current = some x := by
    cases hstart with
    | start _ => simp
  rcases Run.busy hmid hcurrent with hfinish | hbusy
  · exact hfinish
  · -- a worker that starts an item is alive and has nothing in hand
    cases hnext with
    | start hfree =>
        rw [hfree] at hbusy
        simp at hbusy

end Steps

end WorkerPool
