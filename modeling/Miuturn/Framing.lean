import Mathlib.Data.List.Basic

set_option autoImplicit false

/-! # Cutting a stream into frames

A stream carries frames one after the other, and the first symbols of a frame say how long it is.
The reader keeps a buffer: it appends whatever arrives and takes complete frames off the front while
there are any. This file is about any such format, over any alphabet.

The two facts everything rests on: a frame that can be taken off the buffer can still be taken off
when more has arrived (`next_append`), and taking it makes the buffer shorter (`length_lt_of_next`).
From them the frames do not depend on how the stream was cut when it arrived (`feed_eq_drain`), and
a stream that was written frame by frame is read back frame by frame (`drain_flatten_of_complete`).
-/

namespace Framing

variable {α : Type}

/-- The length rule of a frame format. -/
structure Format (α : Type) where
  /-- The length of the frame that a buffer begins with, if the buffer is long enough to tell. -/
  size : List α → Option ℕ
  stable : ∀ (buf more : List α) (n : ℕ), size buf = some n → size (buf ++ more) = some n
  pos : ∀ (buf : List α) (n : ℕ), size buf = some n → 0 < n

variable (F : Format α)

/-- The frame at the front of a buffer and what follows it, if all of the frame is there. -/
def next (buf : List α) : Option (List α × List α) :=
  match F.size buf with
  | some n => if n ≤ buf.length then some (buf.take n, buf.drop n) else none
  | none => none

variable {F} {buf more frame rest : List α}

theorem next_eq_some : next F buf = some (frame, rest) ↔
    F.size buf = some frame.length ∧ buf = frame ++ rest := by
  unfold next
  cases hsize : F.size buf with
  | none => simp
  | some n =>
      dsimp only
      constructor
      · intro h
        split at h
        · next hle =>
            obtain ⟨rfl, rfl⟩ := Prod.mk.inj (Option.some.inj h)
            rw [List.length_take, Nat.min_eq_left hle]
            exact ⟨rfl, (List.take_append_drop n buf).symm⟩
        · exact absurd h (by simp)
      · rintro ⟨hn, rfl⟩
        obtain rfl := Option.some.inj hn
        rw [if_pos (by simp), List.take_left, List.drop_left]

theorem next_eq_none : next F buf = none ↔ ∀ n, F.size buf = some n → buf.length < n := by
  unfold next
  cases hsize : F.size buf with
  | none => simp
  | some n => simp

/-- What arrives later does not change the frame at the front. -/
theorem next_append (h : next F buf = some (frame, rest)) (more : List α) :
    next F (buf ++ more) = some (frame, rest ++ more) := by
  obtain ⟨hsize, rfl⟩ := next_eq_some.1 h
  exact next_eq_some.2 ⟨F.stable _ more _ hsize, List.append_assoc _ _ _⟩

theorem length_lt_of_next (h : next F buf = some (frame, rest)) : rest.length < buf.length := by
  obtain ⟨hsize, rfl⟩ := next_eq_some.1 h
  have hpos := F.pos _ _ hsize
  rw [List.length_append]
  omega

variable (F)

/-- Take frames off the buffer until there is none: the frames, and what stays. -/
def drain (buf : List α) : List (List α) × List α :=
  match h : next F buf with
  | some (frame, rest) =>
    have := length_lt_of_next h
    let result := drain rest
    (frame :: result.1, result.2)
  | none => ([], buf)
termination_by buf.length

/-- Drain the buffer after each arrival. -/
def feed (buf : List α) : List (List α) → List (List α) × List α
  | [] => ([], buf)
  | chunk :: chunks =>
    let result := feed (drain F (buf ++ chunk)).2 chunks
    ((drain F (buf ++ chunk)).1 ++ result.1, result.2)

/-- All of a frame and nothing else. -/
def Complete (frame : List α) : Prop := F.size frame = some frame.length

variable {F}

theorem drain_of_next (h : next F buf = some (frame, rest)) :
    drain F buf = (frame :: (drain F rest).1, (drain F rest).2) := by
  rw [drain]
  split
  · next frame' rest' h' =>
      obtain ⟨rfl, rfl⟩ := Prod.mk.inj (Option.some.inj (h.symm.trans h'))
      rfl
  · next h' => exact absurd (h.symm.trans h') (by simp)

theorem drain_of_none (h : next F buf = none) : drain F buf = ([], buf) := by
  rw [drain]
  split
  · next h' => exact absurd (h.symm.trans h') (by simp)
  · rfl

/-- Nothing is lost, added or reordered. -/
theorem drain_flatten (buf : List α) : (drain F buf).1.flatten ++ (drain F buf).2 = buf := by
  fun_induction drain F buf with
  | case1 buf frame rest h _ result ih =>
      rw [List.flatten_cons, List.append_assoc, ih]
      exact (next_eq_some.1 h).2.symm
  | case2 buf h => rfl

/-- What stays holds no complete frame. -/
theorem next_drain (buf : List α) : next F (drain F buf).2 = none := by
  fun_induction drain F buf with
  | case1 buf frame rest h _ result ih => exact ih
  | case2 buf h => exact h

/-- What holds of every length that the format announces holds of the lengths of the frames. -/
theorem forall_mem_drain {P : ℕ → Prop} (hP : ∀ buf n, F.size buf = some n → P n) (buf : List α) :
    ∀ frame ∈ (drain F buf).1, P frame.length := by
  fun_induction drain F buf with
  | case1 buf frame rest h _ result ih =>
      intro frame' hframe'
      rcases List.mem_cons.1 hframe' with rfl | hframe'
      · exact hP buf _ (next_eq_some.1 h).1
      · exact ih frame' hframe'
  | case2 buf h => exact fun frame hframe => absurd hframe (by simp)

/-- The frames taken early are those that would have been taken later. -/
theorem drain_append (buf more : List α) :
    drain F (buf ++ more) = ((drain F buf).1 ++ (drain F ((drain F buf).2 ++ more)).1,
      (drain F ((drain F buf).2 ++ more)).2) := by
  fun_induction drain F buf with
  | case1 buf frame rest h _ result ih =>
      rw [drain_of_next (next_append h more), ih]
      rfl
  | case2 buf h => rfl

/-- Reading a stream piece by piece gives the frames of the whole stream. -/
theorem feed_eq_drain (chunks : List (List α)) :
    ∀ buf : List α, next F buf = none → feed F buf chunks = drain F (buf ++ chunks.flatten) := by
  induction chunks with
  | nil =>
      intro buf h
      rw [List.flatten_nil, List.append_nil, drain_of_none h]
      rfl
  | cons chunk chunks ih =>
      intro buf h
      rw [List.flatten_cons, ← List.append_assoc, drain_append, feed, ih _ (next_drain _)]

/-- A stream of complete frames is read back frame by frame. -/
theorem drain_flatten_of_complete (frames : List (List α)) (hframes : ∀ f ∈ frames, Complete F f)
    {rest : List α} (hrest : next F rest = none) :
    drain F (frames.flatten ++ rest) = (frames, rest) := by
  induction frames with
  | nil => exact drain_of_none hrest
  | cons frame frames ih =>
      have hcomplete : F.size frame = some frame.length := hframes frame (List.mem_cons_self ..)
      have hnext : next F ((frame :: frames).flatten ++ rest)
          = some (frame, frames.flatten ++ rest) := by
        rw [List.flatten_cons, List.append_assoc]
        exact next_eq_some.2 ⟨F.stable _ _ _ hcomplete, rfl⟩
      rw [drain_of_next hnext, ih (fun f hf => hframes f (List.mem_cons_of_mem _ hf))]

end Framing
