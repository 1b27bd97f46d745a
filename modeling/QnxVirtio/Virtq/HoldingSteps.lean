import QnxVirtio.Virtq.Holding

/-!
# What the elementary steps do to holdings

One lemma for each elementary step of the driver, called by one who holds the
descriptors and buffers that the step uses.
-/

namespace QnxVirtio

open Foundation

/-!
## Bytes of a mapping
-/

theorem Memory.length_bytes (mem : Memory) (m : Mapping) :
    (mem.bytes m).length = m.len := by
  simp [Memory.bytes]

theorem Memory.bytes_store {mem : Memory} {m : Mapping} {off : Nat}
    {block : List UInt8} (hm : m ∈ mem.maps)
    (hoff : off + block.length <= m.len) {n : Mapping} (hn : n ∈ mem.maps) :
    (mem.store (m.paddr + off) block).bytes n =
      Function.update mem.bytes m (overwrite (mem.bytes m) off block) n := by
  by_cases heq : n = m
  · subst heq
    rw [Function.update_self]
    exact loadBytes_overwrite _ _ hoff
  · rw [Function.update_of_ne heq]
    apply loadBytes_storeBytes_disjoint
    have hapart := (mem.apart_of_ne hm hn (Ne.symm heq)).2
    omega

theorem Memory.mem_release {mem : Memory} {m n : Mapping} (hm : m ∈ mem.maps)
    (hn : n ∈ mem.maps) (hne : n ≠ m) : n ∈ (mem.release m.vaddr m.len).maps := by
  have hcut := mem.cut_other hm hn hne (Nat.le_refl m.len)
  refine List.mem_flatMap.mpr ⟨n, hn, ?_⟩
  rw [hcut]
  exact List.mem_singleton_self n

/-!
## The invariant
-/

section Invariant

variable {ω : Type} {q : Queue} {hold : ω -> Holding} {o : ω}

namespace HoldInv

theorem congr (h : HoldInv q hold) {q' : Queue}
    (hfree : q'.vq.freeDescs = q.vq.freeDescs) (hnum : q'.vq.num = q.vq.num)
    (hcell : q'.vq.cell = q.vq.cell) (hmem : q'.mem = q.mem) : HoldInv q' hold where
  freeWf := h.freeWf.congr hfree hnum
  freeNodup := by
    rw [Virtq.freeList_congr hfree]
    exact h.freeNodup
  freeLt := by
    rw [Virtq.freeList_congr hfree, hnum]
    exact h.freeLt
  freeUnheld := by
    rw [Virtq.freeList_congr hfree]
    exact h.freeUnheld
  descs := by
    rw [hnum, hcell]
    exact h.descs
  regions := by
    rw [hmem]
    exact h.regions

theorem length_region (h : HoldInv q hold) {m : Mapping} {b : List UInt8}
    (hm : (hold o).region m = some b) : b.length = m.len := by
  rw [← h.regions.known o m b hm]
  exact q.mem.length_bytes m

theorem room (h : HoldInv q hold) {idx : UInt16} {c : DescCell}
    (hidx : (hold o).desc idx = some c) :
    q.vq.freeList.length < q.vq.num.toNat := by
  have hnodup : (idx :: q.vq.freeList).Nodup := by
    refine List.nodup_cons.mpr ⟨?_, h.freeNodup⟩
    intro hfree
    rw [h.freeUnheld idx hfree o] at hidx
    cases hidx
  refine length_le_of_nodup_of_lt hnodup ?_
  intro i hi
  rcases List.mem_cons.mp hi with rfl | hi
  · exact h.descs.live o _ c hidx
  · exact h.freeLt i hi

variable [DecidableEq ω]

theorem writeDesc (h : HoldInv q hold) {idx : UInt16} {c : DescCell}
    (hidx : (hold o).desc idx = some c) {q' : Queue} (c' : DescCell)
    (hfree : q'.vq.freeDescs = q.vq.freeDescs) (hnum : q'.vq.num = q.vq.num)
    (hcell : q'.vq.cell = Function.update q.vq.cell idx c') (hmem : q'.mem = q.mem) :
    HoldInv q' (Function.update hold o ((hold o).setDesc idx (some c'))) where
  freeWf := h.freeWf.congr hfree hnum
  freeNodup := by
    rw [Virtq.freeList_congr hfree]
    exact h.freeNodup
  freeLt := by
    rw [Virtq.freeList_congr hfree, hnum]
    exact h.freeLt
  freeUnheld := by
    rw [Virtq.freeList_congr hfree]
    intro i hi o'
    have hne : i ≠ idx := by
      rintro rfl
      rw [h.freeUnheld _ hi o] at hidx
      cases hidx
    by_cases ho : o' = o
    · subst ho
      rw [Function.update_self, Holding.setDesc_of_ne _ _ hne]
      exact h.freeUnheld i hi _
    · rw [Function.update_of_ne ho]
      exact h.freeUnheld i hi o'
  descs := by
    rw [desc_setDesc, hnum, hcell]
    exact h.descs.write hidx c'
  regions := by
    rw [region_setDesc, hmem]
    exact h.regions

theorem writeRegion (h : HoldInv q hold) {m : Mapping} {b : List UInt8}
    (hm : (hold o).region m = some b) {off : Nat} {block : List UInt8}
    (hoff : off + block.length <= m.len) :
    HoldInv { q with mem := q.mem.store (m.paddr + off) block }
      (Function.update hold o
        ((hold o).setRegion m (some (overwrite b off block)))) where
  freeWf := h.freeWf
  freeNodup := h.freeNodup
  freeLt := h.freeLt
  freeUnheld := by
    intro i hi o'
    rw [congrFun (congrFun (desc_setRegion hold o m _) o') i]
    exact h.freeUnheld i hi o'
  descs := by
    rw [desc_setRegion]
    exact h.descs
  regions := by
    rw [region_setRegion]
    have hlive := h.regions.live o m b hm
    have hknown := h.regions.known o m b hm
    refine (h.regions.write hm (overwrite b off block)).frame ?_
    intro o' n x hx
    have hn : n ∈ q.mem.maps := by
      rcases setHold_cases hx with ⟨_, rfl, _⟩ | ⟨_, hx⟩
      · exact hlive
      · exact h.regions.live o' n x hx
    refine ⟨hn, ?_⟩
    rw [← hknown]
    exact Memory.bytes_store hlive hoff hn

theorem forget (h : HoldInv q hold) (o : ω) :
    HoldInv q (Function.update hold o Holding.empty) where
  freeWf := h.freeWf
  freeNodup := h.freeNodup
  freeLt := h.freeLt
  freeUnheld := by
    intro i hi o'
    by_cases ho : o' = o
    · subst ho
      rw [Function.update_self]
      rfl
    · rw [Function.update_of_ne ho]
      exact h.freeUnheld i hi o'
  descs := by
    rw [desc_update]
    exact h.descs.forget o
  regions := by
    rw [region_update]
    exact h.regions.forget o

theorem transfer (h : HoldInv q hold) {o o' : ω} (hne : o ≠ o') :
    HoldInv q (Function.update (Function.update hold o' (hold o)) o Holding.empty) where
  freeWf := h.freeWf
  freeNodup := h.freeNodup
  freeLt := h.freeLt
  freeUnheld := by
    intro i hi o₁
    by_cases ho : o₁ = o
    · subst ho
      rw [Function.update_self]
      rfl
    · rw [Function.update_of_ne ho]
      by_cases ho' : o₁ = o'
      · subst ho'
        rw [Function.update_self]
        exact h.freeUnheld i hi o
      · rw [Function.update_of_ne ho']
        exact h.freeUnheld i hi o₁
  descs := by
    rw [desc_update, desc_update]
    exact h.descs.transfer hne
  regions := by
    rw [region_update, region_update]
    exact h.regions.transfer hne

end HoldInv

end Invariant

end QnxVirtio
