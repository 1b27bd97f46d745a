import QnxVirtio.Foundation.RingWindow
import QnxVirtio.Host

/-!
# The FIFO

A circular buffer of fixed-size elements in one block of bytes.  Indices and
sizes are `size_t`; the multiplication of an element address wraps at 64 bits.
The spinlock's result is an argument of the locked operations.
-/

namespace QnxVirtio

open Foundation

def sizeMod : Nat := 2 ^ 64

structure Fifo where
  head : Nat
  tail : Nat
  count : Nat
  capacity : Nat
  elemSize : Nat
  /-- The bytes behind the header that `malloc` provided. -/
  allocated : Nat
  data : Bytes

/-- The header of `struct fifo`: the lock, padded, and five `size_t`. -/
def sizeofFifo : Nat := 48

/-- The offset of an element in the data bytes. -/
def fifoElemAddr (fifo : Fifo) (index : Nat) : Nat :=
  (fifo.elemSize * index) % sizeMod

/-- `malloc` answers with a block of arbitrary content or with nothing. -/
def fifoCreate (malloc : Option Bytes) (spinInit : Rc)
    (capacity elemSize : Nat) : Except Rc Fifo :=
  match malloc with
  | none => .error .ENOMEM
  | some data =>
      if spinInit ≠ .EOK then .error spinInit
      else
        .ok {
          head := 0
          tail := 0
          count := 0
          capacity := capacity
          elemSize := elemSize
          allocated := (sizeofFifo + capacity * elemSize) % sizeMod - sizeofFifo
          data := data }

def fifoEmpty (fifo : Fifo) : Bool :=
  fifo.count == 0

def fifoFull (fifo : Fifo) : Bool :=
  fifo.count == fifo.capacity

def fifoPut (lock : Rc) (fifo : Fifo) (elem : List UInt8) : Rc × Fifo :=
  if lock ≠ .EOK then (lock, fifo)
  else if fifoFull fifo then (.ENOMEM, fifo)
  else
    (.EOK, { fifo with
      data := storeBytes fifo.data (fifoElemAddr fifo fifo.tail) elem
      tail := (fifo.tail + 1) % fifo.capacity
      count := fifo.count + 1 })

def fifoGet (lock : Rc) (fifo : Fifo) : Except Rc (List UInt8) × Fifo :=
  if lock ≠ .EOK then (.error lock, fifo)
  else if fifoEmpty fifo then (.error .ENOENT, fifo)
  else
    (.ok (loadBytes fifo.data (fifoElemAddr fifo fifo.head) fifo.elemSize),
      { fifo with
        head := (fifo.head + 1) % fifo.capacity
        count := fifo.count - 1 })

/-!
## The stored elements
-/

namespace Fifo

/-- The representation invariant of the circular buffer. -/
structure Wf (fifo : Fifo) : Prop where
  head_lt : 0 < fifo.capacity -> fifo.head < fifo.capacity
  tail_eq : fifo.tail = (fifo.head + fifo.count) % fifo.capacity
  count_le : fifo.count <= fifo.capacity
  size_lt : fifo.capacity * fifo.elemSize < sizeMod

/-- The element that is `i` places behind the head. -/
def item (fifo : Fifo) (i : Nat) : List UInt8 :=
  loadBytes fifo.data (fifoElemAddr fifo ((fifo.head + i) % fifo.capacity))
    fifo.elemSize

/-- The content of the FIFO, oldest element first. -/
def items (fifo : Fifo) : List (List UInt8) :=
  (List.range fifo.count).map fifo.item

@[simp] theorem length_items (fifo : Fifo) : fifo.items.length = fifo.count := by
  simp [items]

theorem elemAddr_of_lt {fifo : Fifo} (h : fifo.Wf) {i : Nat}
    (hi : i < fifo.capacity) : fifoElemAddr fifo i = fifo.elemSize * i := by
  unfold fifoElemAddr
  apply Nat.mod_eq_of_lt
  calc
    fifo.elemSize * i <= fifo.elemSize * fifo.capacity :=
      Nat.mul_le_mul_left _ (Nat.le_of_lt hi)
    _ = fifo.capacity * fifo.elemSize := Nat.mul_comm _ _
    _ < sizeMod := h.size_lt

theorem elem_ranges_disjoint {elemSize i j : Nat} (h : i ≠ j) :
    elemSize * i + elemSize <= elemSize * j ∨
      elemSize * j + elemSize <= elemSize * i := by
  rcases Nat.lt_or_gt_of_ne h with hlt | hlt
  · left
    rw [← Nat.mul_succ]
    exact Nat.mul_le_mul_left _ hlt
  · right
    rw [← Nat.mul_succ]
    exact Nat.mul_le_mul_left _ hlt

end Fifo

open Fifo

theorem fifoCreate_eq {malloc : Option Bytes} {spinInit : Rc}
    {capacity elemSize : Nat} {fifo : Fifo}
    (h : fifoCreate malloc spinInit capacity elemSize = .ok fifo) :
    exists data, fifo = {
      head := 0
      tail := 0
      count := 0
      capacity := capacity
      elemSize := elemSize
      allocated := (sizeofFifo + capacity * elemSize) % sizeMod - sizeofFifo
      data := data } := by
  unfold fifoCreate at h
  cases malloc with
  | none => cases h
  | some data =>
      by_cases hspin : spinInit ≠ .EOK
      · simp [hspin] at h
      · simp only [if_neg hspin, Except.ok.injEq] at h
        exact ⟨data, h.symm⟩

theorem fifoCreate_ok {malloc : Option Bytes} {spinInit : Rc}
    {capacity elemSize : Nat} {fifo : Fifo}
    (h : fifoCreate malloc spinInit capacity elemSize = .ok fifo)
    (hsize : capacity * elemSize < sizeMod) :
    fifo.Wf ∧ fifo.items = [] ∧ fifo.capacity = capacity ∧
      fifo.elemSize = elemSize := by
  rcases fifoCreate_eq h with ⟨data, rfl⟩
  refine ⟨?_, rfl, rfl, rfl⟩
  constructor
  · exact fun hpos => hpos
  · simp
  · exact Nat.zero_le _
  · exact hsize

theorem fifoPut_full {fifo : Fifo} (h : fifo.count = fifo.capacity)
    (elem : List UInt8) : fifoPut .EOK fifo elem = (.ENOMEM, fifo) := by
  simp [fifoPut, fifoFull, h]

theorem fifoPut_spec {fifo : Fifo} (hwf : fifo.Wf) {elem : List UInt8}
    (helem : elem.length = fifo.elemSize)
    (hroom : fifo.count < fifo.capacity) :
    exists fifo', fifoPut .EOK fifo elem = (.EOK, fifo') ∧ fifo'.Wf ∧
      fifo'.items = fifo.items ++ [elem] ∧
      fifo'.capacity = fifo.capacity ∧ fifo'.elemSize = fifo.elemSize := by
  have hcap : 0 < fifo.capacity := by omega
  have htail : fifo.tail < fifo.capacity := by
    rw [hwf.tail_eq]
    exact Nat.mod_lt _ hcap
  have hfull : fifoFull fifo = false := by
    simp [fifoFull]
    omega
  refine ⟨{ fifo with
      data := storeBytes fifo.data (fifoElemAddr fifo fifo.tail) elem
      tail := (fifo.tail + 1) % fifo.capacity
      count := fifo.count + 1 }, by simp [fifoPut, hfull], ?_, ?_, rfl, rfl⟩
  · constructor
    · exact hwf.head_lt
    · change (fifo.tail + 1) % fifo.capacity =
        (fifo.head + (fifo.count + 1)) % fifo.capacity
      rw [hwf.tail_eq, Nat.mod_add_mod, Nat.add_assoc]
    · exact hroom
    · exact hwf.size_lt
  · have hold : forall i, i < fifo.count ->
        loadBytes (storeBytes fifo.data (fifoElemAddr fifo fifo.tail) elem)
          (fifoElemAddr fifo ((fifo.head + i) % fifo.capacity)) fifo.elemSize =
        fifo.item i := by
      intro i hi
      have hlt : (fifo.head + i) % fifo.capacity < fifo.capacity :=
        Nat.mod_lt _ hcap
      have hne : fifo.tail ≠ (fifo.head + i) % fifo.capacity := by
        rw [hwf.tail_eq]
        exact (mod_ne_of_lt_add (by omega) (by omega)).symm
      rw [item, elemAddr_of_lt hwf htail, elemAddr_of_lt hwf hlt]
      apply loadBytes_storeBytes_disjoint
      rw [helem]
      exact elem_ranges_disjoint hne
    have hnew : loadBytes (storeBytes fifo.data (fifoElemAddr fifo fifo.tail) elem)
        (fifoElemAddr fifo ((fifo.head + fifo.count) % fifo.capacity))
        fifo.elemSize = elem := by
      rw [← hwf.tail_eq, ← helem]
      exact loadBytes_storeBytes_same _ _ _
    unfold items
    rw [List.range_succ, List.map_append]
    congr 1
    · apply List.map_congr_left
      intro i hi
      exact hold i (List.mem_range.mp hi)
    · exact congrArg (fun block => [block]) hnew

theorem fifoGet_empty {fifo : Fifo} (h : fifo.count = 0) :
    fifoGet .EOK fifo = (.error .ENOENT, fifo) := by
  simp [fifoGet, fifoEmpty, h]

theorem fifoGet_spec {fifo : Fifo} (hwf : fifo.Wf) (hcount : 0 < fifo.count) :
    exists elem fifo', fifoGet .EOK fifo = (.ok elem, fifo') ∧ fifo'.Wf ∧
      fifo.items = elem :: fifo'.items ∧
      fifo'.capacity = fifo.capacity ∧ fifo'.elemSize = fifo.elemSize := by
  have hle := hwf.count_le
  have hcap : 0 < fifo.capacity := by omega
  have hhead := hwf.head_lt hcap
  have hempty : fifoEmpty fifo = false := by
    simp [fifoEmpty]
    omega
  refine ⟨fifo.item 0, { fifo with
      head := (fifo.head + 1) % fifo.capacity
      count := fifo.count - 1 }, ?_, ?_, ?_, rfl, rfl⟩
  · simp [fifoGet, hempty, item, Nat.mod_eq_of_lt hhead]
  · constructor
    · exact fun _ => Nat.mod_lt _ hcap
    · change fifo.tail =
        ((fifo.head + 1) % fifo.capacity + (fifo.count - 1)) % fifo.capacity
      rw [hwf.tail_eq, Nat.mod_add_mod]
      congr 1
      omega
    · change fifo.count - 1 <= fifo.capacity
      omega
    · exact hwf.size_lt
  · rcases Nat.exists_eq_succ_of_ne_zero (Nat.pos_iff_ne_zero.mp hcount) with
      ⟨n, hn⟩
    have hshift : forall i,
        ((fifo.head + 1) % fifo.capacity + i) % fifo.capacity =
          (fifo.head + (i + 1)) % fifo.capacity := by
      intro i
      rw [Nat.mod_add_mod]
      congr 1
      omega
    unfold items
    rw [hn, List.range_succ_eq_map, List.map_cons, List.map_map]
    congr 1
    apply List.map_congr_left
    intro i _
    simp only [item, fifoElemAddr, Function.comp, hshift, Nat.succ_eq_add_one]

end QnxVirtio
