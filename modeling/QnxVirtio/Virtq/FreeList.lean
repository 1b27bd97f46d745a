import Mathlib.Data.List.Nodup
import Mathlib.Data.List.Perm.Subperm
import QnxVirtio.Virtq.Model

/-!
# The free-descriptor list

The FIFO of free descriptors, read as a list of indices.
-/

namespace QnxVirtio

open Foundation

/-- The content of the free-descriptor FIFO. -/
def Virtq.freeList (vq : Virtq) : List UInt16 :=
  vq.freeDescs.items.map decode16

theorem nodup_indices {n : Nat} (hn : n <= 65536) :
    ((List.range n).map UInt16.ofNat).Nodup := by
  refine List.Nodup.map_on ?_ List.nodup_range
  intro i hi j hj hij
  have hi' := List.mem_range.mp hi
  have hj' := List.mem_range.mp hj
  have heq := congrArg UInt16.toNat hij
  simp only [UInt16.toNat_ofNat'] at heq
  omega

/-- Storage invariant of the free-descriptor FIFO. -/
structure Virtq.FreeWf (vq : Virtq) : Prop where
  wf : vq.freeDescs.Wf
  capacity : vq.freeDescs.capacity = vq.num.toNat
  elemSize : vq.freeDescs.elemSize = 2

namespace Virtq

theorem length_freeList (vq : Virtq) :
    vq.freeList.length = vq.freeDescs.count := by
  simp [freeList]

theorem freeList_congr {vq vq' : Virtq} (h : vq'.freeDescs = vq.freeDescs) :
    vq'.freeList = vq.freeList := by
  unfold freeList
  rw [h]

theorem FreeWf.congr {vq vq' : Virtq} (h : vq.FreeWf)
    (hfree : vq'.freeDescs = vq.freeDescs) (hnum : vq'.num = vq.num) :
    vq'.FreeWf where
  wf := hfree ▸ h.wf
  capacity := by rw [hfree, hnum, h.capacity]
  elemSize := by rw [hfree, h.elemSize]

theorem FreeWf.get_cases {vq : Virtq} (h : vq.FreeWf) :
    (vq.freeList = [] ∧ fifoGet .EOK vq.freeDescs = (.error .ENOENT, vq.freeDescs)) ∨
      exists elem fifo rest,
        fifoGet .EOK vq.freeDescs = (.ok elem, fifo) ∧
          vq.freeList = decode16 elem :: rest ∧
          FreeWf { vq with freeDescs := fifo } ∧
          freeList { vq with freeDescs := fifo } = rest := by
  by_cases hcount : vq.freeDescs.count = 0
  · left
    refine ⟨?_, fifoGet_empty hcount⟩
    apply List.eq_nil_of_length_eq_zero
    rw [length_freeList, hcount]
  · right
    rcases fifoGet_spec h.wf (by omega) with
      ⟨elem, fifo, hget, hwf, hitems, hcap, helem⟩
    refine ⟨elem, fifo, fifo.items.map decode16, hget, ?_, ?_, rfl⟩
    · simp [freeList, hitems]
    · exact ⟨hwf, hcap.trans h.capacity, helem.trans h.elemSize⟩

theorem FreeWf.put_spec {vq : Virtq} (h : vq.FreeWf) (idx : UInt16)
    (hroom : vq.freeList.length < vq.num.toNat) :
    exists fifo, fifoPut .EOK vq.freeDescs (encode16 idx) = (.EOK, fifo) ∧
      FreeWf { vq with freeDescs := fifo } ∧
      freeList { vq with freeDescs := fifo } = vq.freeList ++ [idx] := by
  have hlen : (encode16 idx).length = vq.freeDescs.elemSize := by
    rw [h.elemSize]
    rfl
  have hlt : vq.freeDescs.count < vq.freeDescs.capacity := by
    rw [h.capacity, ← length_freeList]
    exact hroom
  rcases fifoPut_spec h.wf hlen hlt with ⟨fifo, hput, hwf, hitems, hcap, helem⟩
  refine ⟨fifo, hput, ⟨hwf, hcap.trans h.capacity, helem.trans h.elemSize⟩, ?_⟩
  simp [freeList, hitems]

theorem fifoGet_noent_iff {lock : Rc} (vq : Virtq) :
    (fifoGet lock vq.freeDescs).1 = .error .ENOENT <->
      lock = .ENOENT ∨ (lock = .EOK ∧ vq.freeList = []) := by
  have hempty : fifoEmpty vq.freeDescs = true <-> vq.freeList = [] := by
    rw [← List.length_eq_zero_iff, vq.length_freeList]
    exact beq_iff_eq
  unfold fifoGet
  by_cases hlock : lock = .EOK
  · rw [if_neg (not_not_intro hlock), hlock]
    by_cases hlist : vq.freeList = []
    · rw [if_pos (hempty.mpr hlist)]
      exact iff_of_true rfl (Or.inr ⟨rfl, hlist⟩)
    · rw [if_neg (fun h => hlist (hempty.mp h))]
      refine iff_of_false (fun h => by cases h) ?_
      rintro (h | h)
      · cases h
      · exact hlist h.2
  · rw [if_pos hlock, Except.error.injEq]
    exact (or_iff_left fun h => hlock h.1).symm

end Virtq

theorem length_le_of_nodup_of_lt {l : List UInt16} {num : Nat} (hnodup : l.Nodup)
    (hlt : forall i, i ∈ l -> i.toNat < num) : l.length <= num := by
  have hmap : (l.map UInt16.toNat).Nodup :=
    List.Nodup.map (fun _ _ h => UInt16.toNat_inj.mp h) hnodup
  have hsub : l.map UInt16.toNat ⊆ List.range num := by
    intro n hn
    rcases List.mem_map.mp hn with ⟨i, hi, rfl⟩
    exact List.mem_range.mpr (hlt i hi)
  have hle := (List.subperm_of_subset hmap hsub).length_le
  simpa using hle

end QnxVirtio
