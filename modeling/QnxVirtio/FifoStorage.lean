import QnxVirtio.FifoQueue

/-!
# The storage of the FIFO

The size of the block that `fifo_create` asks for is computed with 64 bits.  When it
wraps, the FIFO has a capacity that its block does not have, and so many puts lead out of
the block.
-/

namespace QnxVirtio

open Foundation

/-- The bytes that `fifo_elem_addr` selects for `index` are allocated. -/
def Fifo.Inside (fifo : Fifo) (index : Nat) : Prop :=
  fifoElemAddr fifo index + fifo.elemSize <= fifo.allocated

/-- The places of the head and of the tail are allocated.  A FIFO without capacity has no
places, and neither `fifo_put` nor `fifo_get` asks for one. -/
structure Fifo.StorageInside (fifo : Fifo) : Prop where
  tail : 0 < fifo.capacity -> fifo.Inside fifo.tail
  head : 0 < fifo.capacity -> fifo.Inside fifo.head
  unused : fifo.capacity = 0 -> fifoFull fifo = true ∧ fifoEmpty fifo = true

/-!
## A size that fits
-/

theorem fifoPut_allocated (lock : Rc) (fifo : Fifo) (elem : List UInt8) :
    (fifoPut lock fifo elem).2.allocated = fifo.allocated := by
  unfold fifoPut
  split
  · rfl
  · split
    · rfl
    · rfl

theorem fifoGet_allocated (lock : Rc) (fifo : Fifo) :
    (fifoGet lock fifo).2.allocated = fifo.allocated := by
  unfold fifoGet
  split
  · rfl
  · split
    · rfl
    · rfl

theorem fifoMachine_allocated {elemSize : Nat} (w : FifoWorld)
    (ops : List (FifoOp elemSize)) :
    ((fifoMachine elemSize).run w ops).2.fifo.allocated = w.fifo.allocated := by
  refine (fifoMachine elemSize).run_invariant
    (P := fun v => v.fifo.allocated = w.fifo.allocated) ?_ rfl ops
  rintro v ⟨thread, lock, call⟩ hv
  cases call with
  | put elem => exact (fifoPut_allocated lock v.fifo elem.bytes).trans hv
  | get =>
      have hget := (fifoGet_allocated lock v.fifo).trans hv
      simp only [fifoMachine]
      split
      · rename_i heq
        rw [heq] at hget
        exact hget
      · rename_i heq
        rw [heq] at hget
        exact hget

theorem Fifo.Wf.inside {fifo : Fifo} (h : fifo.Wf)
    (hblock : fifo.capacity * fifo.elemSize <= fifo.allocated) {index : Nat}
    (hindex : index < fifo.capacity) : fifo.Inside index := by
  unfold Fifo.Inside
  rw [Fifo.elemAddr_of_lt h hindex]
  calc fifo.elemSize * index + fifo.elemSize = fifo.elemSize * (index + 1) :=
        (Nat.mul_succ ..).symm
    _ <= fifo.elemSize * fifo.capacity := Nat.mul_le_mul_left _ hindex
    _ = fifo.capacity * fifo.elemSize := Nat.mul_comm ..
    _ <= fifo.allocated := hblock

theorem Fifo.Wf.storageInside {fifo : Fifo} (h : fifo.Wf)
    (hblock : fifo.capacity * fifo.elemSize <= fifo.allocated) : fifo.StorageInside where
  tail := fun hpos => h.inside hblock (h.indicesOk.tail_lt hpos)
  head := fun hpos => h.inside hblock (h.head_lt hpos)
  unused := by
    intro hzero
    have hcount := h.count_le
    rw [hzero, Nat.le_zero] at hcount
    simp [fifoFull, fifoEmpty, hcount, hzero]

/-!
## A size that wraps
-/

/-- A FIFO after `n` puts, with the block of `start`. -/
structure Fifo.Filled (start : Fifo) (n : Nat) (fifo : Fifo) : Prop where
  tail : fifo.tail = n % start.capacity
  count : fifo.count = n
  capacity : fifo.capacity = start.capacity
  elemSize : fifo.elemSize = start.elemSize
  allocated : fifo.allocated = start.allocated

theorem Fifo.Filled.put {start fifo : Fifo} {n : Nat} (h : start.Filled n fifo)
    (hroom : n < start.capacity) (elem : List UInt8) :
    start.Filled (n + 1) (fifoPut .EOK fifo elem).2 := by
  have hfull : fifoFull fifo = false := by
    simp only [fifoFull, h.count, h.capacity, beq_eq_false_iff_ne]
    exact Nat.ne_of_lt hroom
  simp only [fifoPut, ne_eq, not_true_eq_false, if_false, hfull, Bool.false_eq_true]
  constructor
  · change (fifo.tail + 1) % fifo.capacity = _
    rw [h.tail, h.capacity, Nat.mod_add_mod]
  · change fifo.count + 1 = _
    rw [h.count]
  · exact h.capacity
  · exact h.elemSize
  · exact h.allocated

/-- A put of thread 0 that gets the spinlock. -/
def putZeros (elemSize : Nat) : FifoOp elemSize where
  thread := 0
  lock := .EOK
  call := .put ⟨List.replicate elemSize 0, List.length_replicate ..⟩

theorem Fifo.Filled.run {start : Fifo} {elemSize m n : Nat} {w : FifoWorld}
    (h : start.Filled m w.fifo) (hroom : m + n <= start.capacity) :
    start.Filled (m + n)
      ((fifoMachine elemSize).run w (List.replicate n (putZeros elemSize))).2.fifo := by
  induction n generalizing m w with
  | zero => exact h
  | succ n ih =>
      rw [List.replicate_succ, Nat.add_comm n 1, ← Nat.add_assoc]
      exact ih (h.put (by omega) _) (by omega)

theorem elements_fit {capacity elemSize allocated : Nat} (hword : allocated < sizeMod)
    (h : forall i, i < capacity -> elemSize * i % sizeMod + elemSize <= allocated)
    {n : Nat} (hn : n <= capacity) : elemSize * n <= allocated := by
  induction n with
  | zero => exact Nat.zero_le _
  | succ n ih =>
      have hfit := ih (Nat.le_of_succ_le hn)
      have hplace := h n hn
      rw [Nat.mod_eq_of_lt (Nat.lt_of_le_of_lt hfit hword)] at hplace
      rw [Nat.mul_succ]
      exact hplace

/-!
## All sizes
-/

theorem fifoCreate_start {malloc : Option Bytes} {spinInit : Rc} {capacity elemSize : Nat}
    {fifo : Fifo} (h : fifoCreate malloc spinInit capacity elemSize = .ok fifo) :
    fifo.Filled 0 fifo ∧ fifo.capacity = capacity ∧ fifo.elemSize = elemSize ∧
      fifo.allocated = (sizeofFifo + capacity * elemSize) % sizeMod - sizeofFifo := by
  rcases fifoCreate_eq h with ⟨data, rfl⟩
  exact ⟨⟨(Nat.zero_mod _).symm, rfl, rfl, rfl, rfl⟩, rfl, rfl, rfl⟩

/-- The elements stay in the block in every run exactly when the size of the block does
not wrap. -/
theorem fifo_storage_inside_iff {malloc : Option Bytes} {spinInit : Rc}
    {capacity elemSize : Nat} {fifo : Fifo}
    (hcreate : fifoCreate malloc spinInit capacity elemSize = .ok fifo)
    (buffer : Nat -> List UInt8) :
    (forall ops : List (FifoOp elemSize),
      ((fifoMachine elemSize).run ⟨fifo, buffer⟩ ops).2.fifo.StorageInside) <->
        sizeofFifo + capacity * elemSize < sizeMod := by
  rcases fifoCreate_start hcreate with ⟨hstart, hcap, helem, hallocated⟩
  constructor
  · intro hinside
    by_contra hwraps
    have hpos : 0 < capacity := by
      rw [Nat.pos_iff_ne_zero]
      rintro rfl
      rw [Nat.zero_mul] at hwraps
      exact hwraps (by decide)
    have hword : fifo.allocated < sizeMod := by
      rw [hallocated]
      exact Nat.lt_of_le_of_lt (Nat.sub_le ..) (Nat.mod_lt _ (by decide))
    have hplaces : forall i, i < capacity ->
        elemSize * i % sizeMod + elemSize <= fifo.allocated := by
      intro i hi
      rw [← hcap] at hi
      have hfilled : fifo.Filled (0 + i) ((fifoMachine elemSize).run ⟨fifo, buffer⟩
          (List.replicate i (putZeros elemSize))).2.fifo :=
        Fifo.Filled.run hstart (by omega)
      rw [Nat.zero_add] at hfilled
      have htail := (hinside (List.replicate i (putZeros elemSize))).tail (by
        rw [hfilled.capacity, hcap]
        exact hpos)
      rw [Fifo.Inside, fifoElemAddr, hfilled.tail, hfilled.elemSize, hfilled.allocated,
        helem, Nat.mod_eq_of_lt hi] at htail
      exact htail
    have hfit := elements_fit hword hplaces (Nat.le_refl capacity)
    rw [hallocated, Nat.mul_comm] at hfit
    have hmod := Nat.mod_lt (sizeofFifo + capacity * elemSize) (show 0 < sizeMod by decide)
    have hheader : sizeofFifo < sizeMod := by decide
    omega
  · intro hfits ops
    have hsize : capacity * elemSize < sizeMod := by omega
    have hrep := (represents_run hcreate hsize buffer ops).2
    apply hrep.wf.storageInside
    apply Nat.le_of_eq
    rw [hrep.capacity, hrep.elemSize, fifoMachine_allocated, hallocated,
      Nat.mod_eq_of_lt hfits, Nat.add_sub_cancel_left]

/-- Two bytes of elements fit, also after a third put. -/
theorem fifo_storage_inside_two :
    ((fifoMachine 1).run ⟨fifoTwo, fun _ => []⟩
      [putZeros 1, putZeros 1, putZeros 1]).2.fifo.StorageInside := by
  have hcreate : fifoCreate (some fun _ => 0) .EOK 2 1 = .ok fifoTwo := rfl
  exact (fifo_storage_inside_iff hcreate _).mpr (by decide) _

/-- For `2 ^ 62` elements of four bytes only the header is allocated, and the first put
leaves the block. -/
theorem fifo_storage_wraps : ¬ forall (malloc : Option Bytes) (spinInit : Rc)
    (capacity elemSize : Nat) (fifo : Fifo), capacity < sizeMod -> elemSize < sizeMod ->
    fifoCreate malloc spinInit capacity elemSize = .ok fifo ->
    forall (buffer : Nat -> List UInt8) (ops : List (FifoOp elemSize)),
      ((fifoMachine elemSize).run ⟨fifo, buffer⟩ ops).2.fifo.StorageInside := by
  intro hall
  have hinside := hall (some fun _ => 0) .EOK (2 ^ 62) 4 _ (by decide) (by decide) rfl
    (fun _ => []) []
  have htail := hinside.tail (by decide)
  change 4 * 0 % sizeMod + 4 <= (sizeofFifo + 2 ^ 62 * 4) % sizeMod - sizeofFifo at htail
  exact absurd htail (by decide)

end QnxVirtio
