import Mathlib.Data.List.Basic
import Miuturn.Framing
import Miuturn.Trace

set_option autoImplicit false

/-! # Writers that share a sink

Several writers put frames on one stream. A lock is held for a whole frame; the stream takes the
frame in pieces of any size, and a writer may be gone before all of it is through. This file is
about any such sink, over any alphabet, any writers and any encoding of what is written.

Everything on the stream is explained by the turns of the writers: for each time the lock was taken,
what was to be written and how many symbols of it got through (`out_eq_written`). So frames are
never mixed, and a stream on which every frame got through, or none of it, is read back frame by
frame (`drain_written`). A frame of which only a part got through takes what is missing from the
frames after it (`drain_cut`). -/

namespace LockedSink

variable {α β ι : Type}

/-- What got through, and who holds the lock with what is still to be written. -/
structure Sink (α ι : Type) where
  out : List α
  holder : Option (ι × List α)
  deriving DecidableEq

inductive Act (β ι : Type) where
  /-- A writer takes the lock. -/
  | acquire (i : ι) (item : β)
  /-- The stream takes so many symbols. -/
  | push (n : ℕ)
  /-- The holder is done. -/
  | release
  /-- The holder is gone. -/
  | drop

def fresh : Sink α ι := ⟨[], none⟩

variable (bytes : β → List α)

def act : Sink α ι → Act β ι → Option (Sink α ι)
  | ⟨out, none⟩, .acquire i item => some ⟨out, some (i, bytes item)⟩
  | ⟨out, some (i, rest)⟩, .push n =>
    if n ≤ rest.length then some ⟨out ++ rest.take n, some (i, rest.drop n)⟩ else none
  | ⟨out, some (_, [])⟩, .release => some ⟨out, none⟩
  | ⟨out, some _⟩, .drop => some ⟨out, none⟩
  | _, _ => none

/-- One taking of the lock: what was to be written, and how many symbols got through. -/
abbrev Turn (β : Type) := β × ℕ

/-- The turns until now, the last one first. -/
def record (turns : List (Turn β)) : Act β ι → List (Turn β)
  | .acquire _ item => (item, 0) :: turns
  | .push n =>
    match turns with
    | (item, got) :: turns => (item, got + n) :: turns
    | [] => []
  | .release => turns
  | .drop => turns

/-- The turns of a history, in order. -/
def turns (history : List (Act β ι)) : List (Turn β) := (history.foldl record []).reverse

/-- What the turns put on the stream. -/
def written (ts : List (Turn β)) : List α := (ts.map (fun t => (bytes t.1).take t.2)).flatten

/-- The items that got through as a whole. -/
def whole (ts : List (Turn β)) : List β :=
  (ts.filter (fun t => decide (t.2 = (bytes t.1).length))).map Prod.fst

/-- Of each item all got through, or nothing. -/
def Uncut (ts : List (Turn β)) : Prop := ∀ t ∈ ts, t.2 = 0 ∨ t.2 = (bytes t.1).length

instance (ts : List (Turn β)) : Decidable (Uncut bytes ts) :=
  inferInstanceAs (Decidable (∀ t ∈ ts, t.2 = 0 ∨ t.2 = (bytes t.1).length))

variable {bytes} {history : List (Act β ι)} {sink sink' : Sink α ι}

theorem act_cases {a : Act β ι} (h : act bytes sink a = some sink') :
    (∃ i item, a = .acquire i item ∧ sink.holder = none ∧
      sink' = ⟨sink.out, some (i, bytes item)⟩) ∨
    (∃ i rest n, a = .push n ∧ sink.holder = some (i, rest) ∧ n ≤ rest.length ∧
      sink' = ⟨sink.out ++ rest.take n, some (i, rest.drop n)⟩) ∨
    ((a = .release ∨ a = .drop) ∧ sink' = ⟨sink.out, none⟩) := by
  unfold act at h
  split at h
  · next out i item => exact .inl ⟨i, item, rfl, rfl, (Option.some.inj h).symm⟩
  · next out i rest n =>
      split at h
      · next hle => exact .inr (.inl ⟨i, rest, n, rfl, rfl, hle, (Option.some.inj h).symm⟩)
      · exact absurd h (by simp)
  · exact .inr (.inr ⟨.inl rfl, (Option.some.inj h).symm⟩)
  · exact .inr (.inr ⟨.inr rfl, (Option.some.inj h).symm⟩)
  · exact absurd h (by simp)

theorem turns_snoc (history : List (Act β ι)) (a : Act β ι) :
    turns (history ++ [a]) = (record (turns history).reverse a).reverse := by
  rw [turns, turns, List.foldl_append, List.reverse_reverse]
  rfl

theorem turns_acquire (history : List (Act β ι)) (i : ι) (item : β) :
    turns (history ++ [.acquire i item]) = turns history ++ [(item, 0)] := by
  rw [turns_snoc, record, List.reverse_cons, List.reverse_reverse]

theorem turns_push {earlier : List (Turn β)} {item : β} {got : ℕ}
    (h : turns history = earlier ++ [(item, got)]) (n : ℕ) :
    turns (history ++ [.push n]) = earlier ++ [(item, got + n)] := by
  rw [turns_snoc, h, List.reverse_append]
  simp [record]

theorem written_append (ts ts' : List (Turn β)) :
    written bytes (ts ++ ts') = written bytes ts ++ written bytes ts' := by
  simp [written]

theorem written_single (t : Turn β) : written bytes [t] = (bytes t.1).take t.2 := by
  simp [written]

/-- How a sink goes with the turns that led to it: the holder is at its last turn. -/
structure Explains (bytes : β → List α) (ts : List (Turn β)) (sink : Sink α ι) : Prop where
  out : sink.out = written bytes ts
  bounded : ∀ t ∈ ts, t.2 ≤ (bytes t.1).length
  holder : ∀ i rest, sink.holder = some (i, rest) → ∃ earlier item got,
    ts = earlier ++ [(item, got)] ∧ got ≤ (bytes item).length ∧ rest = (bytes item).drop got

theorem Explains.step {a : Act β ι} (hinv : Explains bytes (turns history) sink)
    (h : act bytes sink a = some sink') : Explains bytes (turns (history ++ [a])) sink' := by
  obtain ⟨i, item, rfl, -, rfl⟩ | ⟨i, rest, n, rfl, hholder, hle, rfl⟩ | ⟨ha, rfl⟩ := act_cases h
  · rw [turns_acquire]
    refine ⟨?_, ?_, fun i' rest hrest => ⟨_, item, 0, rfl, Nat.zero_le _, ?_⟩⟩
    · rw [written_append, written_single, ← hinv.out, List.take_zero, List.append_nil]
    · exact List.forall_mem_append.2 ⟨hinv.bounded, by simp⟩
    · exact (Prod.mk.inj (Option.some.inj hrest)).2.symm
  · obtain ⟨earlier, item, got, hts, hgot, rfl⟩ := hinv.holder i rest hholder
    rw [List.length_drop] at hle
    have hbounded := hinv.bounded
    rw [hts] at hbounded
    rw [turns_push hts]
    refine ⟨?_, ?_, fun i' rest' hrest => ⟨_, item, got + n, rfl, by omega, ?_⟩⟩
    · rw [written_append, written_single, hinv.out, hts, written_append, written_single,
        List.append_assoc, ← List.take_add]
    · refine List.forall_mem_append.2 ⟨(List.forall_mem_append.1 hbounded).1, ?_⟩
      rw [List.forall_mem_singleton]
      show got + n ≤ (bytes item).length
      omega
    · rw [← (Prod.mk.inj (Option.some.inj hrest)).2, List.drop_drop]
  · have hturns : turns (history ++ [a]) = turns history := by
      rw [turns_snoc]
      rcases ha with rfl | rfl <;> exact List.reverse_reverse _
    rw [hturns]
    exact ⟨hinv.out, hinv.bounded, fun i rest hrest => absurd hrest (by simp)⟩

/-- The run of a sink. -/
def SinkRun (bytes : β → List α) : Sink α ι → List (Act β ι) → Sink α ι → Prop :=
  Trace.Run (fun sink a sink' => act bytes sink a = some sink')

theorem SinkRun.explains (h : SinkRun bytes fresh history sink) :
    Explains bytes (turns history) sink := by
  refine Trace.Run.invariant (P := fun history sink => Explains bytes (turns history) sink) h ?_ ?_
  · exact ⟨rfl, by simp [turns], fun i rest hrest => absurd hrest (by simp [fresh])⟩
  · intro history sink a sink' _ hinv hact
    exact hinv.step hact

/-- **Frames are never mixed.** What is on the stream is, turn by turn, the part of each item that
    got through. -/
theorem SinkRun.out_eq_written (h : SinkRun bytes fresh history sink) :
    sink.out = written bytes (turns history) := h.explains.out

/-! ## Reading it back -/

variable {F : Framing.Format α}

theorem written_eq_flatten {ts : List (Turn β)} (h : Uncut bytes ts) :
    written bytes ts = ((whole bytes ts).map bytes).flatten := by
  induction ts with
  | nil => rfl
  | cons t ts ih =>
      have hts : Uncut bytes ts := fun t' ht' => h t' (List.mem_cons_of_mem _ ht')
      have hcons : written bytes (t :: ts) = (bytes t.1).take t.2 ++ written bytes ts := by
        simp [written]
      rw [hcons, ih hts, whole, whole]
      by_cases hfull : t.2 = (bytes t.1).length
      · rw [List.filter_cons_of_pos (by simpa using hfull), hfull, List.take_length]
        rfl
      · have hnothing := (h t (List.mem_cons_self ..)).resolve_right hfull
        rw [List.filter_cons_of_neg (by simpa using hfull), hnothing, List.take_zero]
        rfl

/-- The beginning of a frame is not a frame. -/
theorem next_take {frame : List α} (h : Framing.Complete F frame) {n : ℕ} (hn : n < frame.length) :
    Framing.next F (frame.take n) = none := by
  refine Framing.next_eq_none.2 fun m hm => ?_
  have hstable := F.stable _ (frame.drop n) m hm
  rw [List.take_append_drop, h] at hstable
  obtain rfl := Option.some.inj hstable
  rw [List.length_take]
  omega

theorem whole_append (ts ts' : List (Turn β)) :
    whole bytes (ts ++ ts') = whole bytes ts ++ whole bytes ts' := by
  simp [whole]

theorem complete_of_mem_map (hcomplete : ∀ item, Framing.Complete F (bytes item)) (items : List β) :
    ∀ frame ∈ items.map bytes, Framing.Complete F frame := by
  intro frame hframe
  obtain ⟨item, -, rfl⟩ := List.mem_map.1 hframe
  exact hcomplete item

/-- A stream on which each item but the last got through as a whole or not at all is read back item
    by item, and what stays is the beginning of the last. -/
theorem drain_written (hcomplete : ∀ item, Framing.Complete F (bytes item)) {ts : List (Turn β)}
    (hbounded : ∀ t ∈ ts, t.2 ≤ (bytes t.1).length) (h : Uncut bytes ts.dropLast) :
    ∃ rest, Framing.drain F (written bytes ts) = ((whole bytes ts).map bytes, rest) ∧
      (rest = [] ∨ ∃ t, ts.getLast? = some t ∧ rest = (bytes t.1).take t.2) := by
  have hempty : Framing.next F [] = none :=
    Framing.next_eq_none.2 fun n hn => F.pos [] n hn
  rcases List.eq_nil_or_concat ts with rfl | ⟨ts, t, rfl⟩
  · exact ⟨[], Framing.drain_of_none hempty, .inl rfl⟩
  · rw [List.concat_eq_append] at h hbounded ⊢
    rw [List.dropLast_concat] at h
    rcases (hbounded t (by simp)).lt_or_eq with hcut | hfull
    · refine ⟨(bytes t.1).take t.2, ?_, .inr ⟨t, List.getLast?_concat, rfl⟩⟩
      have hnone : whole bytes [t] = [] := by simp [whole, hcut.ne]
      rw [written_append, written_single, written_eq_flatten h, whole_append, hnone,
        List.append_nil]
      exact Framing.drain_flatten_of_complete _ (complete_of_mem_map hcomplete _)
        (next_take (hcomplete t.1) hcut)
    · refine ⟨[], ?_, .inl rfl⟩
      have huncut : Uncut bytes (ts ++ [t]) :=
        List.forall_mem_append.2 ⟨h, List.forall_mem_singleton.2 (.inr hfull)⟩
      rw [written_eq_flatten huncut, ← List.append_nil (List.flatten _)]
      exact Framing.drain_flatten_of_complete _ (complete_of_mem_map hcomplete _) hempty

/-- A frame that was cut after its length could be told is filled up with what comes next, whatever
    that is. -/
theorem drain_cut {frame more : List α} {got n : ℕ} (hcomplete : Framing.Complete F frame)
    (hsize : F.size (frame.take got) = some n) (hmore : frame.length ≤ got + more.length) :
    Framing.drain F (frame.take got ++ more)
      = ((frame.take got ++ more.take (frame.length - got))
          :: (Framing.drain F (more.drop (frame.length - got))).1,
        (Framing.drain F (more.drop (frame.length - got))).2) := by
  have hlen : n = frame.length := by
    have hstable := F.stable _ (frame.drop got) n hsize
    rw [List.take_append_drop, hcomplete] at hstable
    exact (Option.some.inj hstable).symm
  refine Framing.drain_of_next (Framing.next_eq_some.2 ⟨?_, ?_⟩)
  · rw [F.stable _ more n hsize, hlen, List.length_append, List.length_take, List.length_take]
    congr 1
    omega
  · rw [List.append_assoc, List.take_append_drop]

/-- The frames that got through before the cut are read as they are. -/
theorem drain_after_cut (hcomplete : ∀ item, Framing.Complete F (bytes item))
    {earlier later : List (Turn β)} {item : β} {got n : ℕ} (h : Uncut bytes earlier)
    (hsize : F.size ((bytes item).take got) = some n)
    (hlater : (bytes item).length ≤ got + (written bytes later).length) :
    Framing.drain F (written bytes (earlier ++ (item, got) :: later))
      = ((whole bytes earlier).map bytes
          ++ ((bytes item).take got ++ (written bytes later).take ((bytes item).length - got))
          :: (Framing.drain F ((written bytes later).drop ((bytes item).length - got))).1,
        (Framing.drain F ((written bytes later).drop ((bytes item).length - got))).2) := by
  have hempty : Framing.next F [] = none :=
    Framing.next_eq_none.2 fun n hn => F.pos [] n hn
  have hearlier := Framing.drain_flatten_of_complete _
    (complete_of_mem_map hcomplete (whole bytes earlier)) hempty
  have hsplit : written bytes (earlier ++ (item, got) :: later)
      = ((whole bytes earlier).map bytes).flatten
        ++ ((bytes item).take got ++ written bytes later) := by
    rw [written_append, written_eq_flatten h]
    simp [written]
  rw [List.append_nil] at hearlier
  rw [hsplit, Framing.drain_append, hearlier, List.nil_append,
    drain_cut (hcomplete item) hsize hlater]

end LockedSink
