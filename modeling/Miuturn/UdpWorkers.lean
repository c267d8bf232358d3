import Miuturn.WorkerPool
import Miuturn.RustStd.Net

set_option autoImplicit false

/-! # The UDP listener (`server.rs`)

`run_udp` receives datagrams in one task and hands them to a fixed number of workers, each with a
channel of 1024 places; the worker of a datagram is picked by the hash of its sender's address. A
worker calls `handle_udp_message` on one datagram after the other, sends the answer and takes the
next. It is an instance of `WorkerPool.lean`: `start` is the call of `handle_udp_message`, `finish`
its return (with the answer sent), and `crash` a panic in it, which ends the worker's task. When and
how a call returns is left open.

Datagrams are numbered as they arrive, so that two of them with the same bytes stay apart. -/

open RustStd WorkerPool

namespace Miuturn

/-- The number of workers and the hash of `DefaultHasher`, a fixed function. -/
structure UdpListener where
  numWorkers : ℕ
  pos : 0 < numWorkers
  hash : SocketAddr → ℕ

/-- A datagram, with the number of datagrams that arrived before it. -/
structure Arrival where
  number : ℕ
  data : Bytes
  peer : SocketAddr
  deriving DecidableEq

namespace UdpListener

/-- `(hasher.finish() as usize) % num_workers`. -/
def workerIdx (L : UdpListener) (peer : SocketAddr) : Fin L.numWorkers :=
  ⟨L.hash peer % L.numWorkers, Nat.mod_lt _ L.pos⟩

/-- The channels of the workers. -/
def layout (L : UdpListener) : Layout Arrival (Fin L.numWorkers) :=
  ⟨fun x => L.workerIdx x.peer, 1024⟩

/-- The workers and the number of datagrams received so far. -/
structure State (L : UdpListener) where
  workers : Fin L.numWorkers → Worker Arrival
  received : ℕ

def start (L : UdpListener) : State L := ⟨fresh, 0⟩

/-- A datagram is received, or a worker does something. -/
inductive Step (L : UdpListener) (s : State L) :
    WorkerPool.Event Arrival (Fin L.numWorkers) → State L → Prop where
  | receive {data : Bytes} {peer : SocketAddr} {workers : Fin L.numWorkers → Worker Arrival}
      (h : WorkerPool.Step L.layout s.workers (.arrive ⟨s.received, data, peer⟩) workers) :
      Step L s (.arrive ⟨s.received, data, peer⟩) ⟨workers, s.received + 1⟩
  | work {e : WorkerPool.Event Arrival (Fin L.numWorkers)}
      {workers : Fin L.numWorkers → Worker Arrival} (he : ∀ x, e ≠ .arrive x)
      (h : WorkerPool.Step L.layout s.workers e workers) : Step L s e ⟨workers, s.received⟩

/-- The datagrams of a client, as they arrived. -/
def arrivedFrom {L : UdpListener} (client : SocketAddr)
    (tr : List (WorkerPool.Event Arrival (Fin L.numWorkers))) : List Arrival :=
  (arrived tr).filter (fun x => x.peer = client)

/-- The datagrams of a client, as they were given to `handle_udp_message`. -/
def handedOver {L : UdpListener} (client : SocketAddr)
    (tr : List (WorkerPool.Event Arrival (Fin L.numWorkers))) : List Arrival :=
  (started tr).filter (fun x => x.peer = client)

variable {L : UdpListener} {s : State L}
  {tr : List (WorkerPool.Event Arrival (Fin L.numWorkers))}

theorem Run.workers (h : Trace.Run (Step L) L.start tr s) :
    Trace.Run (WorkerPool.Step L.layout) fresh tr s.workers := by
  induction h with
  | nil => exact .nil
  | snoc _ hstep ih =>
      cases hstep with
      | receive h => exact ih.snoc h
      | work _ h => exact ih.snoc h

/-- The arrivals are numbered from zero. -/
theorem Run.numbered (h : Trace.Run (Step L) L.start tr s) :
    (arrived tr).map Arrival.number = List.range s.received := by
  induction h with
  | nil => rfl
  | @snoc tr s₁ s₂ e _ hstep ih =>
      unfold arrived at ih ⊢
      rw [List.filterMap_append, List.map_append, ih]
      cases hstep with
      | receive h => simp [List.range_succ]
      | work he h =>
          cases e with
          | arrive x => exact absurd rfl (he x)
          | start i x => simp
          | finish i x => simp
          | crash i x => simp

/-- Datagrams of one client are handled in the order they arrived, each at most once, and one at a
    time: for any number of workers, any arrivals, any interleaving and any pattern of full queues
    and crashed workers. -/
theorem handled_in_arrival_order (h : Trace.Run (Step L) L.start tr s) (client : SocketAddr) :
    (handedOver client tr).Sublist (arrivedFrom client tr) ∧ (handedOver client tr).Nodup ∧
    ∀ pre i x mid j y post, tr = pre ++ .start i x :: (mid ++ .start j y :: post) →
      x.peer = client → y.peer = client → Event.finish i x ∈ mid := by
  have hroute : ∀ x : Arrival, decide (x.peer = client) = true →
      L.layout.route x = L.workerIdx client := by
    intro x hx
    rw [← of_decide_eq_true hx]
    rfl
  have hsub : (handedOver client tr).Sublist (arrivedFrom client tr) :=
    Run.started_sublist_of_route (Run.workers h) _ hroute
  refine ⟨hsub, ?_, ?_⟩
  · have hnodup : (arrived tr).Nodup := by
      refine List.Nodup.of_map Arrival.number ?_
      rw [Run.numbered h]
      exact List.nodup_range
    exact hsub.nodup (hnodup.filter _)
  · rintro pre i x mid j y post rfl hx hy
    -- both go to the client's worker
    have hi : L.workerIdx client = i := by
      rw [← hx]
      exact Run.route_of_start (Run.workers h) (by simp)
    have hj : L.workerIdx client = j := by
      rw [← hy]
      exact Run.route_of_start (Run.workers h) (by simp)
    subst hi hj
    exact Run.finish_between (Run.workers h)

/-- Four workers, with every client at the first. -/
def sampleListener : UdpListener := ⟨4, by decide, fun _ => 0⟩

def sampleArrival (number : ℕ) : Arrival := ⟨number, [0, 1], .v4 ⟨198, 51, 100, 7⟩ 4000⟩

def sampleWorker : Fin sampleListener.numWorkers := ⟨0, by decide⟩

/-- Two datagrams with the same bytes, of which the second waits for the first. -/
def twoDatagrams : List (WorkerPool.Event Arrival (Fin sampleListener.numWorkers)) :=
  [.arrive (sampleArrival 0), .start sampleWorker (sampleArrival 0), .arrive (sampleArrival 1),
    .finish sampleWorker (sampleArrival 0), .start sampleWorker (sampleArrival 1)]

theorem handled_in_arrival_order_two :
    handedOver (.v4 ⟨198, 51, 100, 7⟩ 4000) twoDatagrams = [sampleArrival 0, sampleArrival 1] ∧
      Event.finish sampleWorker (sampleArrival 0) ∈
        [Event.arrive (sampleArrival 1), Event.finish sampleWorker (sampleArrival 0)] := by
  have hfirst : ∃ s, Trace.Run (Step sampleListener) sampleListener.start twoDatagrams s := by
    have h₁ := Trace.Run.single (Step.receive (L := sampleListener) (s := sampleListener.start)
      (.enqueue (x := sampleArrival 0) ⟨rfl, by decide⟩))
    have h₂ := h₁.snoc (.work (e := .start sampleWorker (sampleArrival 0)) (by simp) (.start rfl))
    have h₃ := h₂.snoc (.receive (.enqueue (x := sampleArrival 1) ⟨rfl, by decide⟩))
    have h₄ := h₃.snoc (.work (e := .finish sampleWorker (sampleArrival 0)) (by simp) (.finish rfl))
    exact ⟨_, h₄.snoc (.work (by simp) (.start rfl))⟩
  obtain ⟨s, hrun⟩ := hfirst
  obtain ⟨-, -, hone⟩ := handled_in_arrival_order hrun (.v4 ⟨198, 51, 100, 7⟩ 4000)
  exact ⟨by decide, hone [.arrive (sampleArrival 0)] _ _ _ _ _ [] rfl rfl rfl⟩

end UdpListener

end Miuturn
