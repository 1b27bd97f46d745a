import QnxVirtio.FifoQueue
import QnxVirtio.Foundation.Spinlock

/-!
# The FIFO step by step

`fifo_put` and `fifo_get` with every access to the structure as a step of its own.  The
spinlock makes their calls linearizable: threads see a queue bounded by the capacity, with
no assumption about sections being atomic.
-/

namespace QnxVirtio

open Foundation

/-!
## Sections
-/

def fifoEmptySteps : Prog Env Fifo Bool := do
  let count <- Prog.read Fifo.count
  pure (count == 0)

def fifoFullSteps : Prog Env Fifo Bool := do
  let count <- Prog.read Fifo.count
  let capacity <- Prog.read Fifo.capacity
  pure (count == capacity)

def fifoElemAddrSteps (index : Fifo -> Nat) : Prog Env Fifo Nat := do
  let elemSize <- Prog.read Fifo.elemSize
  let index <- Prog.read index
  pure ((elemSize * index) % sizeMod)

/-- `memcpy` to the data bytes. -/
def copyIn (addr : Nat) : List UInt8 -> Prog Env Fifo Unit
  | [] => pure ()
  | b :: bytes => do
      Prog.modify fun fifo => { fifo with data := Function.update fifo.data addr b }
      copyIn (addr + 1) bytes

/-- `memcpy` from the data bytes. -/
def copyOut (addr : Nat) : Nat -> Prog Env Fifo (List UInt8)
  | 0 => pure []
  | n + 1 => do
      let b <- Prog.read fun fifo => fifo.data addr
      let bytes <- copyOut (addr + 1) n
      pure (b :: bytes)

/-- What `fifo_put` does under its lock. -/
def fifoPutSteps (elem : List UInt8) : Prog Env Fifo Rc := do
  let full <- fifoFullSteps
  if full then pure .ENOMEM
  else
    let addr <- fifoElemAddrSteps Fifo.tail
    copyIn addr elem
    let tail <- Prog.read Fifo.tail
    let capacity <- Prog.read Fifo.capacity
    Prog.modify fun fifo => { fifo with tail := (tail + 1) % capacity }
    let count <- Prog.read Fifo.count
    Prog.modify fun fifo => { fifo with count := count + 1 }
    pure .EOK

/-- What `fifo_get` does under its lock. -/
def fifoGetSteps : Prog Env Fifo (Except Rc (List UInt8)) := do
  let empty <- fifoEmptySteps
  if empty then pure (.error .ENOENT)
  else
    let addr <- fifoElemAddrSteps Fifo.head
    let elemSize <- Prog.read Fifo.elemSize
    let elem <- copyOut addr elemSize
    let head <- Prog.read Fifo.head
    let capacity <- Prog.read Fifo.capacity
    Prog.modify fun fifo => { fifo with head := (head + 1) % capacity }
    let count <- Prog.read Fifo.count
    Prog.modify fun fifo => { fifo with count := count - 1 }
    pure (.ok elem)

inductive FifoAnswer
  | noLock (rc : Rc)
  | put (rc : Rc)
  | get (r : Except Rc (List UInt8))

def fifoObject (elemSize : Nat) :
    LockedObject Env Fifo (FifoCall elemSize) FifoAnswer where
  refused e _ := if e.lock ≠ .EOK then some (.noLock e.lock) else none
  body
    | .put elem => do
        let rc <- fifoPutSteps elem.bytes
        pure (.put rc)
    | .get => do
        let r <- fifoGetSteps
        pure (.get r)

/-!
## Sections that run alone
-/

section Runs

variable {ok : Env -> Prop} {fifo fifo' : Fifo}

theorem storeBytes_cons (m : Bytes) (a : Nat) (b : UInt8) (bytes : List UInt8) :
    storeBytes (Function.update m a b) (a + 1) bytes = storeBytes m a (b :: bytes) := by
  funext i
  rcases Nat.lt_trichotomy i a with hlt | heq | hgt
  · rw [storeBytes_of_lt hlt, storeBytes_of_lt (Nat.lt_succ_of_lt hlt),
      Function.update_of_ne (Nat.ne_of_lt hlt)]
  · subst heq
    rw [storeBytes_of_lt (Nat.lt_succ_self i), Function.update_self]
    simp [storeBytes]
  · rcases Nat.exists_eq_add_of_lt hgt with ⟨k, rfl⟩
    have hsub : a + k + 1 - a = k + 1 := by omega
    have hsub' : a + k + 1 - (a + 1) = k := by omega
    have hne : a + k + 1 ≠ a := by omega
    simp [storeBytes, hsub, hsub', Function.update_of_ne hne]
    omega

theorem copyIn_runs {bytes : List UInt8} {addr : Nat} {u : Unit}
    (h : Prog.Runs ok fifo (copyIn addr bytes) u fifo') :
    fifo' = { fifo with data := storeBytes fifo.data addr bytes } := by
  induction bytes generalizing addr fifo with
  | nil =>
      rcases Prog.runs_ret_iff.mp h with ⟨_, rfl⟩
      have hsame : storeBytes fifo'.data addr [] = fifo'.data := by
        funext i
        exact ite_self _
      rw [hsame]
  | cons b bytes ih =>
      rcases Prog.runs_bind_iff.mp h with ⟨_, fifo1, hstore, hrest⟩
      rcases Prog.runs_modify_iff.mp hstore with ⟨_, rfl⟩
      rw [ih hrest, storeBytes_cons]

theorem copyOut_runs {n addr : Nat} {bytes : List UInt8}
    (h : Prog.Runs ok fifo (copyOut addr n) bytes fifo') :
    bytes = loadBytes fifo.data addr n ∧ fifo' = fifo := by
  induction n generalizing addr bytes with
  | zero =>
      rcases Prog.runs_ret_iff.mp h with ⟨rfl, rfl⟩
      exact ⟨rfl, rfl⟩
  | succ n ih =>
      rcases Prog.runs_bind_iff.mp h with ⟨b, fifo1, hload, hrest⟩
      rcases Prog.runs_read_iff.mp hload with ⟨_, rfl, rfl⟩
      rcases Prog.runs_bind_iff.mp hrest with ⟨rest, fifo2, hcopy, hret⟩
      rcases Prog.runs_ret_iff.mp hret with ⟨rfl, rfl⟩
      rcases ih hcopy with ⟨rfl, rfl⟩
      rw [Nat.add_comm n 1, loadBytes_append]
      exact ⟨rfl, rfl⟩

theorem fifoElemAddrSteps_runs {index : Fifo -> Nat} {addr : Nat}
    (h : Prog.Runs ok fifo (fifoElemAddrSteps index) addr fifo') :
    addr = fifoElemAddr fifo (index fifo) ∧ fifo' = fifo := by
  rcases Prog.runs_bind_iff.mp h with ⟨_, _, hsize, hrest⟩
  rcases Prog.runs_read_iff.mp hsize with ⟨_, rfl, rfl⟩
  rcases Prog.runs_bind_iff.mp hrest with ⟨_, _, hindex, hret⟩
  rcases Prog.runs_read_iff.mp hindex with ⟨_, rfl, rfl⟩
  exact Prog.runs_ret_iff.mp hret

theorem fifoFullSteps_runs {full : Bool}
    (h : Prog.Runs ok fifo fifoFullSteps full fifo') :
    full = fifoFull fifo ∧ fifo' = fifo := by
  rcases Prog.runs_bind_iff.mp h with ⟨_, _, hcount, hrest⟩
  rcases Prog.runs_read_iff.mp hcount with ⟨_, rfl, rfl⟩
  rcases Prog.runs_bind_iff.mp hrest with ⟨_, _, hcapacity, hret⟩
  rcases Prog.runs_read_iff.mp hcapacity with ⟨_, rfl, rfl⟩
  exact Prog.runs_ret_iff.mp hret

theorem fifoEmptySteps_runs {empty : Bool}
    (h : Prog.Runs ok fifo fifoEmptySteps empty fifo') :
    empty = fifoEmpty fifo ∧ fifo' = fifo := by
  rcases Prog.runs_bind_iff.mp h with ⟨_, _, hcount, hret⟩
  rcases Prog.runs_read_iff.mp hcount with ⟨_, rfl, rfl⟩
  exact Prog.runs_ret_iff.mp hret

theorem fifoPutSteps_runs {elem : List UInt8} {rc : Rc}
    (h : Prog.Runs ok fifo (fifoPutSteps elem) rc fifo') :
    fifoPut .EOK fifo elem = (rc, fifo') := by
  rcases Prog.runs_bind_iff.mp h with ⟨_, fifo, hfull, hrest⟩
  rcases fifoFullSteps_runs hfull with ⟨rfl, rfl⟩
  unfold fifoPut
  cases hfifo : fifoFull fifo with
  | true =>
      rw [hfifo] at hrest
      rcases Prog.runs_ret_iff.mp hrest with ⟨rfl, rfl⟩
      rfl
  | false =>
      rw [hfifo] at hrest
      rcases Prog.runs_bind_iff.mp hrest with ⟨_, _, haddr, hrest⟩
      rcases fifoElemAddrSteps_runs haddr with ⟨rfl, rfl⟩
      rcases Prog.runs_bind_iff.mp hrest with ⟨_, _, hcopy, hrest⟩
      rcases copyIn_runs hcopy with rfl
      rcases Prog.runs_bind_iff.mp hrest with ⟨_, _, htail, hrest⟩
      rcases Prog.runs_read_iff.mp htail with ⟨_, rfl, rfl⟩
      rcases Prog.runs_bind_iff.mp hrest with ⟨_, _, hcapacity, hrest⟩
      rcases Prog.runs_read_iff.mp hcapacity with ⟨_, rfl, rfl⟩
      rcases Prog.runs_bind_iff.mp hrest with ⟨_, _, hstore, hrest⟩
      rcases Prog.runs_modify_iff.mp hstore with ⟨_, rfl⟩
      rcases Prog.runs_bind_iff.mp hrest with ⟨_, _, hcount, hrest⟩
      rcases Prog.runs_read_iff.mp hcount with ⟨_, rfl, rfl⟩
      rcases Prog.runs_bind_iff.mp hrest with ⟨_, _, hstore, hret⟩
      rcases Prog.runs_modify_iff.mp hstore with ⟨_, rfl⟩
      rcases Prog.runs_ret_iff.mp hret with ⟨rfl, rfl⟩
      rfl

theorem fifoGetSteps_runs {r : Except Rc (List UInt8)}
    (h : Prog.Runs ok fifo fifoGetSteps r fifo') : fifoGet .EOK fifo = (r, fifo') := by
  rcases Prog.runs_bind_iff.mp h with ⟨_, fifo, hempty, hrest⟩
  rcases fifoEmptySteps_runs hempty with ⟨rfl, rfl⟩
  unfold fifoGet
  cases hfifo : fifoEmpty fifo with
  | true =>
      rw [hfifo] at hrest
      rcases Prog.runs_ret_iff.mp hrest with ⟨rfl, rfl⟩
      rfl
  | false =>
      rw [hfifo] at hrest
      rcases Prog.runs_bind_iff.mp hrest with ⟨_, _, haddr, hrest⟩
      rcases fifoElemAddrSteps_runs haddr with ⟨rfl, rfl⟩
      rcases Prog.runs_bind_iff.mp hrest with ⟨_, _, hsize, hrest⟩
      rcases Prog.runs_read_iff.mp hsize with ⟨_, rfl, rfl⟩
      rcases Prog.runs_bind_iff.mp hrest with ⟨_, _, hcopy, hrest⟩
      rcases copyOut_runs hcopy with ⟨rfl, rfl⟩
      rcases Prog.runs_bind_iff.mp hrest with ⟨_, _, hhead, hrest⟩
      rcases Prog.runs_read_iff.mp hhead with ⟨_, rfl, rfl⟩
      rcases Prog.runs_bind_iff.mp hrest with ⟨_, _, hcapacity, hrest⟩
      rcases Prog.runs_read_iff.mp hcapacity with ⟨_, rfl, rfl⟩
      rcases Prog.runs_bind_iff.mp hrest with ⟨_, _, hstore, hrest⟩
      rcases Prog.runs_modify_iff.mp hstore with ⟨_, rfl⟩
      rcases Prog.runs_bind_iff.mp hrest with ⟨_, _, hcount, hrest⟩
      rcases Prog.runs_read_iff.mp hcount with ⟨_, rfl, rfl⟩
      rcases Prog.runs_bind_iff.mp hrest with ⟨_, _, hstore, hret⟩
      rcases Prog.runs_modify_iff.mp hstore with ⟨_, rfl⟩
      rcases Prog.runs_ret_iff.mp hret with ⟨rfl, rfl⟩
      rfl

end Runs

/-!
## Linearizability
-/

section Linearizable

variable {capacity elemSize : Nat}

/-- What a bounded queue answers. -/
def queueAnswer (q : BoundedQueue (FifoElem elemSize) capacity) :
    FifoCall elemSize -> FifoAnswer × BoundedQueue (FifoElem elemSize) capacity
  | .put elem =>
      match q.put elem with
      | some q' => (.put .EOK, q')
      | none => (.put .ENOMEM, q)
  | .get =>
      match q.get with
      | some (elem, q') => (.get (.ok elem.bytes), q')
      | none => (.get (.error .ENOENT), q)

/-- A call meets the queue, or it did not get the lock. -/
inductive QueueCall (q : BoundedQueue (FifoElem elemSize) capacity)
    (call : FifoCall elemSize) :
    FifoAnswer -> BoundedQueue (FifoElem elemSize) capacity -> Prop
  | answered : QueueCall q call (queueAnswer q call).1 (queueAnswer q call).2
  | noLock (rc : Rc) : rc ≠ .EOK -> QueueCall q call (.noLock rc) q

/-- The FIFO holds the elements of the queue. -/
structure Fifo.Holds (fifo : Fifo) (q : BoundedQueue (FifoElem elemSize) capacity) :
    Prop where
  wf : fifo.Wf
  elemSize : fifo.elemSize = elemSize
  capacity : fifo.capacity = capacity
  items : fifo.items = q.items.map FifoElem.bytes

namespace Fifo.Holds

variable {fifo : Fifo} {q : BoundedQueue (FifoElem elemSize) capacity}

theorem count (h : fifo.Holds q) : fifo.count = q.items.length := by
  rw [← Fifo.length_items, h.items, List.length_map]

theorem put (h : fifo.Holds q) (elem : FifoElem elemSize) :
    (queueAnswer q (.put elem)).1 = .put (fifoPut .EOK fifo elem.bytes).1 ∧
      (fifoPut .EOK fifo elem.bytes).2.Holds (queueAnswer q (.put elem)).2 := by
  have hlen : elem.bytes.length = fifo.elemSize :=
    elem.length_eq.trans h.elemSize.symm
  rcases Nat.lt_or_eq_of_le h.wf.count_le with hroom | hfull
  · have hspace : q.items.length < capacity := by
      rw [← h.count, ← h.capacity]
      exact hroom
    rcases fifoPut_spec h.wf hlen hroom with ⟨fifo', hput, hwf, hitems, hcap, helem⟩
    rcases BoundedQueue.put_of_lt hspace elem with ⟨q', hq, hqitems⟩
    simp only [queueAnswer, hput, hq, true_and]
    constructor
    · exact hwf
    · exact helem.trans h.elemSize
    · exact hcap.trans h.capacity
    · rw [hitems, hqitems, h.items, List.map_append]
      rfl
  · have hspace : q.items.length = capacity := by
      rw [← h.count, ← h.capacity]
      exact hfull
    simp only [queueAnswer, fifoPut_full hfull, BoundedQueue.put_of_full hspace, true_and]
    exact h

theorem get (h : fifo.Holds q) :
    (queueAnswer q .get).1 = .get (fifoGet .EOK fifo).1 ∧
      (fifoGet .EOK fifo).2.Holds (queueAnswer q .get).2 := by
  rcases Nat.eq_zero_or_pos fifo.count with hempty | hcount
  · have hnil : q.items = [] :=
      List.eq_nil_of_length_eq_zero (h.count.symm.trans hempty)
    simp only [queueAnswer, fifoGet_empty hempty, BoundedQueue.get_of_nil hnil, true_and]
    exact h
  · rcases fifoGet_spec h.wf hcount with ⟨elem, fifo', hget, hwf, hitems, hcap, helem⟩
    have hmap : q.items.map FifoElem.bytes = elem :: fifo'.items :=
      h.items.symm.trans hitems
    rcases List.map_eq_cons_iff.mp hmap with ⟨first, rest, hcons, rfl, hrest⟩
    rcases BoundedQueue.get_of_cons hcons with ⟨q', hq, hqitems⟩
    simp only [queueAnswer, hget, hq, true_and]
    constructor
    · exact hwf
    · exact helem.trans h.elemSize
    · exact hcap.trans h.capacity
    · rw [hqitems, hrest]

end Fifo.Holds

theorem fifoObject_implements (capacity elemSize : Nat) :
    (fifoObject elemSize).Implements
      (@QueueCall capacity elemSize) Fifo.Holds where
  body := by
    intro fifo q call answer fifo' hR hrun
    cases call with
    | put elem =>
        rcases Prog.runs_bind_iff.mp hrun with ⟨rc, fifo1, hsteps, hret⟩
        rcases Prog.runs_ret_iff.mp hret with ⟨rfl, rfl⟩
        have hput := fifoPutSteps_runs hsteps
        rcases hR.put elem with ⟨hanswer, hholds⟩
        rw [hput] at hanswer hholds
        refine ⟨_, ?_, hholds⟩
        rw [← hanswer]
        exact QueueCall.answered
    | get =>
        rcases Prog.runs_bind_iff.mp hrun with ⟨r, fifo1, hsteps, hret⟩
        rcases Prog.runs_ret_iff.mp hret with ⟨rfl, rfl⟩
        have hget := fifoGetSteps_runs hsteps
        rcases hR.get with ⟨hanswer, hholds⟩
        rw [hget] at hanswer hholds
        refine ⟨_, ?_, hholds⟩
        rw [← hanswer]
        exact QueueCall.answered
  refused := by
    intro fifo q e call answer _ hrefused
    change (if e.lock ≠ .EOK then some (FifoAnswer.noLock e.lock) else none) =
      some answer at hrefused
    split at hrefused
    · rename_i hlock
      cases hrefused
      exact QueueCall.noLock e.lock hlock
    · cases hrefused

/-- Any number of threads that put and get, each access being a step of its own, see one
bounded queue. -/
theorem fifo_linearizable {malloc : Option Bytes} {spinInit : Rc} {capacity elemSize : Nat}
    {fifo : Fifo} (hcreate : fifoCreate malloc spinInit capacity elemSize = .ok fifo)
    (hsize : capacity * elemSize < sizeMod) {scripts : Nat -> Nat -> FifoCall elemSize}
    {w : Locked Nat Fifo (FifoCall elemSize) FifoAnswer}
    (hreach : (fifoObject elemSize).Reachable fifo scripts w) :
    exists order, Linearizes QueueCall (BoundedQueue.empty (FifoElem elemSize) capacity)
        (history w.log) order ∧
      exists q, SequentialRun QueueCall (BoundedQueue.empty (FifoElem elemSize) capacity)
        order q ∧ (w.held = false -> w.val.Holds q) := by
  rcases fifoCreate_ok hcreate hsize with ⟨hwf, hitems, hcap, helem⟩
  have hempty : fifo.Holds (BoundedQueue.empty (FifoElem elemSize) capacity) :=
    ⟨hwf, helem, hcap, hitems⟩
  exact (fifoObject_implements capacity elemSize).linearizable hempty hreach

end Linearizable

/-- Thread 0 puts, the others get. -/
def putGetScripts (t _ : Nat) : FifoCall 1 :=
  if t = 0 then .put { bytes := [7], length_eq := rfl } else .get

/-- `n` steps of thread `t`. -/
def fifoMoves (t n : Nat) : List (Move Nat Env Empty) :=
  List.replicate n (.thread t {})

/-- A get that is invoked before a put and takes the lock after it. -/
theorem fifo_linearizable_two : exists w : Locked Nat Fifo (FifoCall 1) FifoAnswer,
    (history w.log).length = 4 ∧
      exists order, Linearizes QueueCall (BoundedQueue.empty (FifoElem 1) 2)
          (history w.log) order ∧
        exists q, SequentialRun QueueCall (BoundedQueue.empty (FifoElem 1) 2) order q ∧
          (w.held = false -> w.val.Holds q) := by
  have hcreate : fifoCreate (some fun _ => 0) .EOK 2 1 = .ok fifoTwo := rfl
  have hrun : ((((fifoObject 1).pool fifoTwo putGetScripts).run LockedObject.noDevice
      (fifoMoves 1 2 ++ fifoMoves 0 15 ++ fifoMoves 1 13)).map fun c =>
        (history c.state.log).length) = some 4 := by
    decide +kernel
  rcases Option.map_eq_some_iff.mp hrun with ⟨c, hc, hlength⟩
  exact ⟨c.state, hlength, fifo_linearizable hcreate (by decide)
    ⟨c, Pool.reachable_run Pool.Reachable.refl (fun _ _ _ => trivial) hc, rfl⟩⟩

end QnxVirtio
