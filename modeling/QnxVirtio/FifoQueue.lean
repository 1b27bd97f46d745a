import QnxVirtio.Fifo
import QnxVirtio.Foundation.BoundedQueue
import QnxVirtio.Foundation.Machine

/-!
# The FIFO as a bounded queue

Threads put and get elements in any order, each call being one section under the
spinlock.  What they are told, and what arrives in their buffers, is what a queue
bounded by the capacity would answer.
-/

namespace QnxVirtio

open Foundation

/-- The bytes of an element. -/
structure FifoElem (elemSize : Nat) where
  bytes : List UInt8
  length_eq : bytes.length = elemSize

inductive FifoCall (elemSize : Nat)
  | put (elem : FifoElem elemSize)
  | get

/-- A call of a thread, with the result of taking the spinlock. -/
structure FifoOp (elemSize : Nat) where
  thread : Nat
  lock : Rc
  call : FifoCall elemSize

/-- The FIFO and the buffers that the threads pass to `fifo_get`. -/
structure FifoWorld where
  fifo : Fifo
  buffer : Nat -> List UInt8

def fifoMachine (elemSize : Nat) : Machine FifoWorld (FifoOp elemSize) Rc where
  step w op :=
    match op.call with
    | .put elem =>
        let r := fifoPut op.lock w.fifo elem.bytes
        (r.1, { w with fifo := r.2 })
    | .get =>
        match fifoGet op.lock w.fifo with
        | (.error rc, fifo) => (rc, { w with fifo := fifo })
        | (.ok elem, fifo) =>
            (.EOK, { fifo := fifo, buffer := Function.update w.buffer op.thread elem })

/-!
## The abstract queue
-/

structure QueueWorld (capacity elemSize : Nat) where
  queue : BoundedQueue (FifoElem elemSize) capacity
  buffer : Nat -> List UInt8

/-- What the calls are for.  A call that does not get the spinlock does nothing. -/
def queueMachine (capacity elemSize : Nat) :
    Machine (QueueWorld capacity elemSize) (FifoOp elemSize) Rc where
  step w op :=
    if op.lock ≠ .EOK then (op.lock, w)
    else
      match op.call with
      | .put elem =>
          match w.queue.put elem with
          | some queue => (.EOK, { w with queue := queue })
          | none => (.ENOMEM, w)
      | .get =>
          match w.queue.get with
          | some (elem, queue) =>
              (.EOK, {
                queue := queue
                buffer := Function.update w.buffer op.thread elem.bytes })
          | none => (.ENOENT, w)

/-!
## Refinement
-/

/-- The FIFO holds the elements of the queue. -/
structure FifoWorld.Represents {capacity elemSize : Nat} (w : FifoWorld)
    (v : QueueWorld capacity elemSize) : Prop where
  wf : w.fifo.Wf
  elemSize : w.fifo.elemSize = elemSize
  capacity : w.fifo.capacity = capacity
  items : w.fifo.items = v.queue.items.map FifoElem.bytes
  buffer : w.buffer = v.buffer

namespace FifoWorld.Represents

variable {capacity elemSize : Nat} {w : FifoWorld} {v : QueueWorld capacity elemSize}

theorem count (h : w.Represents v) : w.fifo.count = v.queue.items.length := by
  rw [← Fifo.length_items, h.items, List.length_map]

theorem put (h : w.Represents v) (thread : Nat) (elem : FifoElem elemSize) :
    ((fifoMachine elemSize).step w ⟨thread, .EOK, .put elem⟩).1 =
        ((queueMachine capacity elemSize).step v ⟨thread, .EOK, .put elem⟩).1 ∧
      ((fifoMachine elemSize).step w ⟨thread, .EOK, .put elem⟩).2.Represents
        ((queueMachine capacity elemSize).step v ⟨thread, .EOK, .put elem⟩).2 := by
  have hlen : elem.bytes.length = w.fifo.elemSize :=
    elem.length_eq.trans h.elemSize.symm
  rcases Nat.lt_or_eq_of_le h.wf.count_le with hroom | hfull
  · have hspace : v.queue.items.length < capacity := by
      rw [← h.count, ← h.capacity]
      exact hroom
    rcases fifoPut_spec h.wf hlen hroom with ⟨fifo, hput, hwf, hitems, hcap, helem⟩
    rcases BoundedQueue.put_of_lt hspace elem with ⟨queue, hqueue, hqitems⟩
    simp only [fifoMachine, queueMachine, hput, hqueue, ne_eq, not_true_eq_false,
      if_false, true_and]
    constructor
    · exact hwf
    · exact helem.trans h.elemSize
    · exact hcap.trans h.capacity
    · rw [hitems, hqitems, h.items, List.map_append]
      rfl
    · exact h.buffer
  · have hspace : v.queue.items.length = capacity := by
      rw [← h.count, ← h.capacity]
      exact hfull
    simp only [fifoMachine, queueMachine, fifoPut_full hfull,
      BoundedQueue.put_of_full hspace, ne_eq, not_true_eq_false, if_false, true_and]
    exact h

theorem get (h : w.Represents v) (thread : Nat) :
    ((fifoMachine elemSize).step w ⟨thread, .EOK, .get⟩).1 =
        ((queueMachine capacity elemSize).step v ⟨thread, .EOK, .get⟩).1 ∧
      ((fifoMachine elemSize).step w ⟨thread, .EOK, .get⟩).2.Represents
        ((queueMachine capacity elemSize).step v ⟨thread, .EOK, .get⟩).2 := by
  rcases Nat.eq_zero_or_pos w.fifo.count with hempty | hcount
  · have hnil : v.queue.items = [] :=
      List.eq_nil_of_length_eq_zero (h.count.symm.trans hempty)
    simp only [fifoMachine, queueMachine, fifoGet_empty hempty,
      BoundedQueue.get_of_nil hnil, ne_eq, not_true_eq_false, if_false, true_and]
    exact h
  · rcases fifoGet_spec h.wf hcount with ⟨elem, fifo, hget, hwf, hitems, hcap, helem⟩
    have hmap : v.queue.items.map FifoElem.bytes = elem :: fifo.items :=
      h.items.symm.trans hitems
    rcases List.map_eq_cons_iff.mp hmap with ⟨first, rest, hcons, rfl, hrest⟩
    rcases BoundedQueue.get_of_cons hcons with ⟨queue, hqueue, hqitems⟩
    simp only [fifoMachine, queueMachine, hget, hqueue, ne_eq, not_true_eq_false,
      if_false, true_and]
    constructor
    · exact hwf
    · exact helem.trans h.elemSize
    · exact hcap.trans h.capacity
    · rw [hqitems, hrest]
    · exact congrArg (fun b => Function.update b thread first.bytes) h.buffer

theorem noLock (h : w.Represents v) {lock : Rc} (hlock : lock ≠ .EOK) (thread : Nat)
    (call : FifoCall elemSize) :
    ((fifoMachine elemSize).step w ⟨thread, lock, call⟩).1 =
        ((queueMachine capacity elemSize).step v ⟨thread, lock, call⟩).1 ∧
      ((fifoMachine elemSize).step w ⟨thread, lock, call⟩).2.Represents
        ((queueMachine capacity elemSize).step v ⟨thread, lock, call⟩).2 := by
  cases call with
  | put elem =>
      simp only [fifoMachine, queueMachine, fifoPut, if_pos hlock, true_and]
      exact h
  | get =>
      simp only [fifoMachine, queueMachine, fifoGet, if_pos hlock, true_and]
      exact h

end FifoWorld.Represents

theorem fifo_refines_queue (capacity elemSize : Nat) :
    Machine.Refines (fifoMachine elemSize) (queueMachine capacity elemSize)
      FifoWorld.Represents := by
  have hstep : forall (w : FifoWorld) (v : QueueWorld capacity elemSize) op,
      w.Represents v ->
        ((fifoMachine elemSize).step w op).1 =
            ((queueMachine capacity elemSize).step v op).1 ∧
          ((fifoMachine elemSize).step w op).2.Represents
            ((queueMachine capacity elemSize).step v op).2 := by
    rintro w v ⟨thread, lock, call⟩ h
    by_cases hlock : lock = .EOK
    · subst hlock
      cases call with
      | put elem => exact h.put thread elem
      | get => exact h.get thread
    · exact h.noLock hlock thread call
  constructor
  · exact fun w v op h => (hstep w v op h).1
  · exact fun w v op h => (hstep w v op h).2

/-!
## Indices
-/

/-- The indices stay in range, and no modulus is taken of a zero capacity: a put
takes it when the FIFO is not full, a get when it is not empty. -/
structure Fifo.IndicesOk (fifo : Fifo) : Prop where
  head_lt : 0 < fifo.capacity -> fifo.head < fifo.capacity
  tail_lt : 0 < fifo.capacity -> fifo.tail < fifo.capacity
  tail_eq : fifo.tail = (fifo.head + fifo.count) % fifo.capacity
  putModulus : fifoFull fifo = false -> fifo.capacity ≠ 0
  getModulus : fifoEmpty fifo = false -> fifo.capacity ≠ 0

theorem Fifo.Wf.indicesOk {fifo : Fifo} (h : fifo.Wf) : fifo.IndicesOk where
  head_lt := h.head_lt
  tail_lt := by
    intro hpos
    rw [h.tail_eq]
    exact Nat.mod_lt _ hpos
  tail_eq := h.tail_eq
  putModulus := by
    intro hfull hzero
    have hcount := h.count_le
    rw [hzero, Nat.le_zero] at hcount
    simp [fifoFull, hcount, hzero] at hfull
  getModulus := by
    intro hempty hzero
    have hcount := h.count_le
    rw [hzero, Nat.le_zero] at hcount
    simp [fifoEmpty, hcount] at hempty

/-!
## Every interleaving
-/

theorem represents_run {malloc : Option Bytes} {spinInit : Rc} {capacity elemSize : Nat}
    {fifo : Fifo} (hcreate : fifoCreate malloc spinInit capacity elemSize = .ok fifo)
    (hsize : capacity * elemSize < sizeMod) (buffer : Nat -> List UInt8)
    (ops : List (FifoOp elemSize)) :
    ((fifoMachine elemSize).run ⟨fifo, buffer⟩ ops).1 =
        ((queueMachine capacity elemSize).run
          ⟨BoundedQueue.empty _ capacity, buffer⟩ ops).1 ∧
      ((fifoMachine elemSize).run ⟨fifo, buffer⟩ ops).2.Represents
        ((queueMachine capacity elemSize).run
          ⟨BoundedQueue.empty _ capacity, buffer⟩ ops).2 := by
  rcases fifoCreate_ok hcreate hsize with ⟨hwf, hitems, hcap, helem⟩
  have hinit : FifoWorld.Represents ⟨fifo, buffer⟩
      (⟨BoundedQueue.empty _ capacity, buffer⟩ : QueueWorld capacity elemSize) :=
    ⟨hwf, helem, hcap, hitems, rfl⟩
  exact (fifo_refines_queue capacity elemSize).run hinit ops

/-- From its creation on, the FIFO answers every interleaving of calls as a queue
bounded by its capacity does. -/
theorem fifo_bounded_queue {malloc : Option Bytes} {spinInit : Rc}
    {capacity elemSize : Nat} {fifo : Fifo}
    (hcreate : fifoCreate malloc spinInit capacity elemSize = .ok fifo)
    (hsize : capacity * elemSize < sizeMod) (buffer : Nat -> List UInt8)
    (ops : List (FifoOp elemSize)) :
    ((fifoMachine elemSize).run ⟨fifo, buffer⟩ ops).1 =
        ((queueMachine capacity elemSize).run
          ⟨BoundedQueue.empty _ capacity, buffer⟩ ops).1 ∧
      ((fifoMachine elemSize).run ⟨fifo, buffer⟩ ops).2.Represents
        ((queueMachine capacity elemSize).run
          ⟨BoundedQueue.empty _ capacity, buffer⟩ ops).2 ∧
      ((fifoMachine elemSize).run ⟨fifo, buffer⟩ ops).2.fifo.IndicesOk := by
  rcases represents_run hcreate hsize buffer ops with ⟨hout, hrep⟩
  exact ⟨hout, hrep, hrep.wf.indicesOk⟩

/-- A new FIFO of two bytes. -/
def fifoTwo : Fifo where
  head := 0
  tail := 0
  count := 0
  capacity := 2
  elemSize := 1
  allocated := 2
  data := fun _ => 0

/-- Two threads, three puts and a get. -/
theorem fifo_bounded_queue_two :
    exists ops : List (FifoOp 1), ops.length = 4 ∧
      ((fifoMachine 1).run ⟨fifoTwo, fun _ => []⟩ ops).1 =
        ((queueMachine 2 1).run ⟨BoundedQueue.empty _ 2, fun _ => []⟩ ops).1 ∧
      ((fifoMachine 1).run ⟨fifoTwo, fun _ => []⟩ ops).2.Represents
        ((queueMachine 2 1).run ⟨BoundedQueue.empty _ 2, fun _ => []⟩ ops).2 ∧
      ((fifoMachine 1).run ⟨fifoTwo, fun _ => []⟩ ops).2.fifo.IndicesOk := by
  have hcreate : fifoCreate (some fun _ => 0) .EOK 2 1 = .ok fifoTwo := rfl
  exact ⟨[⟨0, .EOK, .put ⟨[7], rfl⟩⟩, ⟨1, .EOK, .put ⟨[8], rfl⟩⟩,
      ⟨0, .EOK, .put ⟨[9], rfl⟩⟩, ⟨1, .EOK, .get⟩], rfl,
    fifo_bounded_queue hcreate (by decide) _ _⟩

end QnxVirtio
