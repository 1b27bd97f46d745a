import QnxVirtio.Virtq.HoldingSteps

/-!
# The driver functions by what they do to holdings

One specification for each elementary step and each driver function, for a caller
who holds what the call is about.  The specifications cover the failing paths, a
spinlock that is not taken among them.
-/

namespace QnxVirtio

open Foundation

variable {ω : Type} [DecidableEq ω] {H : Holding}

/-!
## Elementary steps
-/

theorem HoldInv.updateDesc {q : Queue} {hold : ω -> Holding} {o : ω}
    (h : HoldInv q hold) {idx : UInt16} {c : DescCell}
    (hidx : (hold o).desc idx = some c) (f : VirtqDesc -> VirtqDesc) :
    HoldInv (q.updateDesc idx f) (Function.update hold o
      ((hold o).setDesc idx (some { c with desc := f c.desc }))) := by
  refine h.writeDesc hidx _ rfl rfl ?_ rfl
  have hcell := h.descs.known o idx c hidx
  funext i
  by_cases hi : i = idx
  · subst hi
    rw [Function.update_self, ← hcell]
    simp [Virtq.cell, Queue.updateDesc]
  · rw [Function.update_of_ne hi]
    simp [Virtq.cell, Queue.updateDesc, Function.update_of_ne hi]

theorem HoldInv.updateExtras {q : Queue} {hold : ω -> Holding} {o : ω}
    (h : HoldInv q hold) {idx : UInt16} {c : DescCell}
    (hidx : (hold o).desc idx = some c) (f : DescExtras -> DescExtras) :
    HoldInv (q.updateExtras idx f) (Function.update hold o
      ((hold o).setDesc idx (some { c with extras := f c.extras }))) := by
  refine h.writeDesc hidx _ rfl rfl ?_ rfl
  have hcell := h.descs.known o idx c hidx
  funext i
  by_cases hi : i = idx
  · subst hi
    rw [Function.update_self, ← hcell]
    simp [Virtq.cell, Queue.updateExtras]
  · rw [Function.update_of_ne hi]
    simp [Virtq.cell, Queue.updateExtras, Function.update_of_ne hi]

theorem setDesc_holding {idx : UInt16} {c : DescCell}
    (hidx : H.desc idx = some c) (f : VirtqDesc -> VirtqDesc) :
    HoldingSpec ω H (setDesc idx f) fun _ H' =>
      H' = H.setDesc idx (some { c with desc := f c.desc }) := by
  rintro e q hold o b q' hinv rfl hf
  cases hf
  exact ⟨(SameRings.refl q).updateDesc, _, hinv.updateDesc hidx f, rfl⟩

theorem setExtras_holding {idx : UInt16} {c : DescCell}
    (hidx : H.desc idx = some c) (f : DescExtras -> DescExtras) :
    HoldingSpec ω H (setExtras idx f) fun _ H' =>
      H' = H.setDesc idx (some { c with extras := f c.extras }) := by
  rintro e q hold o b q' hinv rfl hf
  cases hf
  exact ⟨(SameRings.refl q).updateExtras, _, hinv.updateExtras hidx f, rfl⟩

theorem read_holding {α : Type} {f : Queue -> α} {P : α -> Prop}
    (hread : forall (q : Queue) (hold : ω -> Holding) o, HoldInv q hold ->
      hold o = H -> P (f q)) :
    HoldingSpec ω H (Prog.read f) fun a H' => P a ∧ H' = H := by
  rintro e q hold o b q' hinv rfl hf
  cases hf
  refine ⟨SameRings.refl q, hold o, ?_, hread q hold o hinv rfl, rfl⟩
  rwa [Function.update_eq_self]

theorem freeDescsGet_holding (H : Holding) :
    HoldingSpec ω H freeDescsGet fun r H' =>
      (exists rc, r = .error rc ∧ H' = H) ∨
        exists idx c, r = .ok idx ∧ H.desc idx = none ∧
          H' = H.setDesc idx (some c) := by
  rintro e q hold o b q' hinv rfl hf
  cases hf
  by_cases hlock : e.lock = .EOK
  · rw [hlock]
    rcases hinv.freeWf.get_cases with
      ⟨_, hget⟩ | ⟨elem, fifo, rest, hget, hlist, hwf, hrest⟩
    · rw [hget]
      refine ⟨(SameRings.refl q).withFreeDescs, hold o, ?_, Or.inl ⟨_, rfl, rfl⟩⟩
      rwa [Function.update_eq_self]
    · have hmem : decode16 elem ∈ q.vq.freeList := by
        rw [hlist]
        exact List.mem_cons_self ..
      have hnodup := hinv.freeNodup
      rw [hlist] at hnodup
      have hsub : forall i, i ∈ rest -> i ∈ q.vq.freeList := by
        intro i hi
        rw [hlist]
        exact List.mem_cons_of_mem _ hi
      rw [hget]
      refine ⟨(SameRings.refl q).withFreeDescs, _, ?_, Or.inr ⟨decode16 elem,
        q.vq.cell (decode16 elem), rfl, hinv.freeUnheld _ hmem o, rfl⟩⟩
      constructor
      case freeWf => exact hwf
      case freeNodup =>
        rw [hrest]
        exact (List.nodup_cons.mp hnodup).2
      case freeLt =>
        change forall i, i ∈ Virtq.freeList _ -> _
        rw [hrest]
        exact fun i hi => hinv.freeLt i (hsub i hi)
      case freeUnheld =>
        change forall i, i ∈ Virtq.freeList _ -> _
        rw [hrest]
        intro i hi o'
        have hne : i ≠ decode16 elem := by
          rintro rfl
          exact (List.nodup_cons.mp hnodup).1 hi
        by_cases ho : o' = o
        · subst ho
          rw [Function.update_self, Holding.setDesc_of_ne _ _ hne]
          exact hinv.freeUnheld i (hsub i hi) _
        · rw [Function.update_of_ne ho]
          exact hinv.freeUnheld i (hsub i hi) o'
      case descs =>
        rw [desc_setDesc]
        exact hinv.descs.acquire (hinv.freeUnheld _ hmem) (hinv.freeLt _ hmem)
      case regions =>
        rw [region_setDesc]
        exact hinv.regions
  · have hget : fifoGet e.lock q.vq.freeDescs = (.error e.lock, q.vq.freeDescs) := by
      simp [fifoGet, hlock]
    rw [hget]
    refine ⟨(SameRings.refl q).withFreeDescs, hold o, ?_, Or.inl ⟨_, rfl, rfl⟩⟩
    rwa [Function.update_eq_self]

theorem freeDescsPut_holding {idx : UInt16} {c : DescCell}
    (hidx : H.desc idx = some c) :
    HoldingSpec ω H (freeDescsPut idx) fun _ H' => H' = H.setDesc idx none := by
  rintro e q hold o b q' hinv rfl hf
  cases hf
  have hdescs : Owned
      (fun o' => (Function.update hold o ((hold o).setDesc idx none) o').desc)
      (fun i => i.toNat < q.vq.num.toNat) q.vq.cell := by
    rw [desc_setDesc]
    exact hinv.descs.drop o idx
  have hregions : Owned
      (fun o' => (Function.update hold o ((hold o).setDesc idx none) o').region)
      (· ∈ q.mem.maps) q.mem.bytes := by
    rw [region_setDesc]
    exact hinv.regions
  have hunheld : forall i o', (hold o').desc i = none ->
      (Function.update hold o ((hold o).setDesc idx none) o').desc i = none := by
    intro i o' hi
    by_cases ho : o' = o
    · subst ho
      rw [Function.update_self]
      by_cases hne : i = idx
      · subst hne
        exact Holding.setDesc_self ..
      · rwa [Holding.setDesc_of_ne _ _ hne]
    · rwa [Function.update_of_ne ho]
  by_cases hlock : e.lock = .EOK
  · rw [hlock]
    rcases hinv.freeWf.put_spec idx (hinv.room hidx) with ⟨fifo, hput, hwf, hlist⟩
    have hnotfree : idx ∉ q.vq.freeList := by
      intro hfree
      rw [hinv.freeUnheld idx hfree o] at hidx
      cases hidx
    rw [hput]
    refine ⟨⟨rfl, rfl, rfl, rfl, rfl, rfl, rfl, rfl⟩, _, ?_, rfl⟩
    constructor
    case freeWf => exact hwf
    case freeNodup =>
      rw [hlist]
      exact List.Nodup.append hinv.freeNodup (List.nodup_singleton _)
        (by simpa using hnotfree)
    case freeLt =>
      change forall i, i ∈ Virtq.freeList _ -> _
      rw [hlist]
      intro i hi
      rcases List.mem_append.mp hi with hi | hi
      · exact hinv.freeLt i hi
      · cases List.mem_singleton.mp hi
        exact hinv.descs.live o idx c hidx
    case freeUnheld =>
      change forall i, i ∈ Virtq.freeList _ -> _
      rw [hlist]
      intro i hi o'
      rcases List.mem_append.mp hi with hi | hi
      · exact hunheld i o' (hinv.freeUnheld i hi o')
      · cases List.mem_singleton.mp hi
        have hfree := hinv.descs.free_of_drop hidx o'
        rw [← congrFun (congrFun (desc_setDesc hold o idx none) o') idx] at hfree
        exact hfree
    case descs => exact hdescs
    case regions => exact hregions
  · have hput : fifoPut e.lock q.vq.freeDescs (encode16 idx) =
        (e.lock, q.vq.freeDescs) := by
      simp [fifoPut, hlock]
    rw [hput]
    refine ⟨⟨rfl, rfl, rfl, rfl, rfl, rfl, rfl, rfl⟩, _, ?_, rfl⟩
    constructor
    case freeWf => exact hinv.freeWf
    case freeNodup => exact hinv.freeNodup
    case freeLt => exact hinv.freeLt
    case freeUnheld => exact fun i hi o' => hunheld i o' (hinv.freeUnheld i hi o')
    case descs => exact hdescs
    case regions => exact hregions

theorem mapBuffer_holding (H : Holding) (len : UInt32) :
    HoldingSpec ω H (mapBuffer len) fun r H' =>
      (exists rc, r = .error rc ∧ H' = H) ∨
        exists m b, r = .ok m.vaddr ∧ m.len = len.toNat ∧ b.length = m.len ∧
          H.region m = none ∧ H' = H.setRegion m (some b) := by
  rintro e q hold o b q' hinv rfl hf
  rcases Option.map_eq_some_iff.mp hf with ⟨⟨r, mem'⟩, hmmap, hout⟩
  cases hout
  refine ⟨(SameRings.refl q).withMem, ?_⟩
  rcases mmap64_cases hmmap with
    ⟨rc, rfl, _, rfl⟩ | ⟨v, p, hpos, hfresh, rfl, _, rfl⟩
  · refine ⟨hold o, ?_, Or.inl ⟨rc, rfl, rfl⟩⟩
    rwa [Function.update_eq_self]
  · have hnew : forall o', (hold o').region ⟨v, p, len.toNat⟩ = none := by
      intro o'
      by_contra hne
      rcases Option.ne_none_iff_exists'.mp hne with ⟨b, hb⟩
      have hapart := hfresh _ (hinv.regions.live o' _ b hb)
      exact hapart.vaddr_ne hpos hpos rfl
    have hregions : Owned (fun o' => (hold o').region)
        (· ∈ (q.mem.extend ⟨v, p, len.toNat⟩ hpos hfresh).maps)
        (q.mem.extend ⟨v, p, len.toNat⟩ hpos hfresh).bytes :=
      hinv.regions.frame fun o' m b hb =>
        ⟨List.mem_cons_of_mem _ (hinv.regions.live o' m b hb), rfl⟩
    refine ⟨_, ?_, Or.inr ⟨⟨v, p, len.toNat⟩, _, rfl, rfl,
      Memory.length_bytes q.mem _, hnew o, rfl⟩⟩
    constructor
    case freeWf => exact hinv.freeWf
    case freeNodup => exact hinv.freeNodup
    case freeLt => exact hinv.freeLt
    case freeUnheld =>
      intro i hi o'
      rw [congrFun (congrFun (desc_setRegion hold o _ _) o') i]
      exact hinv.freeUnheld i hi o'
    case descs =>
      rw [desc_setRegion]
      exact hinv.descs
    case regions =>
      rw [region_setRegion]
      exact hregions.acquire hnew (List.mem_cons_self ..)

theorem bufferOffset_holding {m : Mapping} {b : List UInt8}
    (hm : H.region m = some b) :
    HoldingSpec ω H (bufferOffset m.vaddr) fun r H' =>
      ((exists rc, r = .error rc) ∨ r = .ok m.paddr) ∧ H' = H := by
  rintro e q hold o r q' hinv rfl hf
  cases hf
  refine ⟨SameRings.refl q, hold o, ?_, ?_, rfl⟩
  · rwa [Function.update_eq_self]
  · cases e.memOffset with
    | some f => exact Or.inl ⟨f.val, rfl⟩
    | none => exact Or.inr (memOffset64_base (hinv.regions.live o m b hm))

theorem unmapBuffer_holding {m : Mapping} {b : List UInt8} {vaddr : Nat}
    {len : UInt32} (hm : H.region m = some b) (hvaddr : vaddr = m.vaddr)
    (hlen : len.toNat = m.len) :
    HoldingSpec ω H (unmapBuffer vaddr len) fun rc H' =>
      rc = .EOK ∧ H' = H.setRegion m none := by
  rintro e q hold o rc q' hinv rfl hf
  have hlive := hinv.regions.live o m b hm
  have hpos := q.mem.pos m hlive
  simp only [munmap, hvaddr, hlen, if_neg (Nat.ne_of_gt hpos),
    Option.some.injEq, Prod.mk.injEq] at hf
  rcases hf with ⟨rfl, rfl⟩
  refine ⟨(SameRings.refl q).withMem, _, ?_, rfl, rfl⟩
  constructor
  case freeWf => exact hinv.freeWf
  case freeNodup => exact hinv.freeNodup
  case freeLt => exact hinv.freeLt
  case freeUnheld =>
    intro i hi o'
    rw [congrFun (congrFun (desc_setRegion hold o m _) o') i]
    exact hinv.freeUnheld i hi o'
  case descs =>
    rw [desc_setRegion]
    exact hinv.descs
  case regions =>
    rw [region_setRegion]
    refine (hinv.regions.drop o m).frame ?_
    intro o' n x hx
    have hne : n ≠ m := by
      rintro rfl
      rw [hinv.regions.free_of_drop hm o'] at hx
      cases hx
    have hn : n ∈ q.mem.maps := by
      rcases setHold_cases hx with ⟨_, rfl, _⟩ | ⟨_, hx⟩
      · exact absurd rfl hne
      · exact hinv.regions.live o' n x hx
    exact ⟨Memory.mem_release hlive hn hne, rfl⟩

theorem storeVirt_holding {m : Mapping} {b : List UInt8} {vaddr off : Nat}
    {block : List UInt8} (hm : H.region m = some b) (hvaddr : vaddr = m.vaddr + off)
    (hpos : 0 < block.length) (hoff : off + block.length <= m.len) :
    HoldingSpec ω H (storeVirt vaddr block) fun _ H' =>
      H' = H.setRegion m (some (overwrite b off block)) := by
  rintro e q hold o u q' hinv rfl hf
  have hlive := hinv.regions.live o m b hm
  simp only [hvaddr, Memory.resolve_of_mem hlive hpos hoff] at hf
  cases hf
  exact ⟨(SameRings.refl q).withMem, _, hinv.writeRegion hm hoff, rfl⟩

theorem loadVirt_holding {m : Mapping} {b : List UInt8} {vaddr off n : Nat}
    (hm : H.region m = some b) (hvaddr : vaddr = m.vaddr + off) (hpos : 0 < n)
    (hoff : off + n <= m.len) :
    HoldingSpec ω H (loadVirt vaddr n) fun r H' =>
      r = (b.drop off).take n ∧ H' = H := by
  rintro e q hold o r q' hinv rfl hf
  have hlive := hinv.regions.live o m b hm
  simp only [hvaddr, Memory.resolve_of_mem hlive hpos hoff] at hf
  cases hf
  refine ⟨SameRings.refl q, hold o, ?_, ?_, rfl⟩
  · rwa [Function.update_eq_self]
  · rw [loadBytes_take_drop _ _ hoff, ← hinv.regions.known o m b hm]
    rfl

/-!
## Descriptors
-/

omit [DecidableEq ω] in
theorem HoldInv.lt_num {q : Queue} {hold : ω -> Holding} {o : ω}
    (h : HoldInv q hold) {idx : UInt16} {c : DescCell}
    (hidx : (hold o).desc idx = some c) : ¬ q.vq.num <= idx := by
  have hlt := h.descs.live o idx c hidx
  rw [UInt16.le_iff_toNat_le]
  exact Nat.not_le.mpr hlt

theorem virtqGetDescVaddr_holding {idx : UInt16} {c : DescCell}
    (hidx : H.desc idx = some c) :
    HoldingSpec ω H (virtqGetDescVaddr idx) fun r H' =>
      r = .ok c.extras.vaddr ∧ H' = H := by
  apply read_holding
  rintro q hold o hinv rfl
  rw [if_neg (hinv.lt_num hidx), ← hinv.descs.known o idx c hidx]
  rfl

theorem virtqGetDescContext_holding {idx : UInt16} {c : DescCell}
    (hidx : H.desc idx = some c) :
    HoldingSpec ω H (virtqGetDescContext idx) fun r H' =>
      r = .ok c.extras.context ∧ H' = H := by
  apply read_holding
  rintro q hold o hinv rfl
  rw [if_neg (hinv.lt_num hidx), ← hinv.descs.known o idx c hidx]
  rfl

theorem virtqSetDescContext_holding {idx : UInt16} {c : DescCell}
    (hidx : H.desc idx = some c) (context : ContextPtr) :
    HoldingSpec ω H (virtqSetDescContext idx context) fun _ H' =>
      H' = H.setDesc idx (some { c with
        extras := { c.extras with context := some context } }) := by
  rintro e q hold o b q' hinv rfl hf
  simp only [if_neg (hinv.lt_num hidx)] at hf
  cases hf
  exact ⟨(SameRings.refl q).updateExtras, _, hinv.updateExtras hidx _, rfl⟩

/-- The descriptor after its allocation with the buffer `m`. -/
def allocatedCell (m : Mapping) (len : UInt32) (writable : Bool) : DescCell where
  desc := {
    addr := m.paddr
    len := len
    flags := if writable then VIRTQ_DESC_F_WRITE else 0
    next := 0 }
  extras := { vaddr := m.vaddr, context := none }

theorem allocatedCell_buffer {m : Mapping} {len : UInt32} (hlen : m.len = len.toNat)
    (writable : Bool) : (allocatedCell m len writable).buffer = m := by
  simp only [DescCell.buffer, allocatedCell, ← hlen]

/-- A failed allocation leaves the holding as it was; a successful one adds one
descriptor and the mapping of its buffer. -/
theorem virtqAllocDesc_holding (H : Holding) (len : UInt32) (writable : Bool) :
    HoldingSpec ω H (virtqAllocDesc len writable) fun r H' =>
      (exists rc, r = .error rc ∧ H' = H) ∨
        exists idx m b, r = .ok idx ∧ H.desc idx = none ∧ H.region m = none ∧
          m.len = len.toNat ∧ b.length = m.len ∧
          H' = (H.setDesc idx (some (allocatedCell m len writable))).setRegion m
            (some b) := by
  unfold virtqAllocDesc
  apply (freeDescsGet_holding H).bind
  rintro r H1 (⟨rc, rfl, rfl⟩ | ⟨idx, c, rfl, hfree, rfl⟩)
  · exact Or.inl ⟨rc, rfl, rfl⟩
  · have hself := H.setDesc_self idx (some c)
    apply (mapBuffer_holding _ len).bind
    rintro r H2 (⟨rc, rfl, rfl⟩ | ⟨m, b, rfl, hlen, hb, hnew, rfl⟩)
    · -- the mapping failed: the descriptor goes back
      apply (freeDescsPut_holding hself).bind
      rintro _ H3 rfl
      refine Or.inl ⟨rc, rfl, ?_⟩
      rw [Holding.setDesc_setDesc, Holding.setDesc_eq_self hfree]
    · have hm : ((H.setDesc idx (some c)).setRegion m (some b)).region m = some b :=
        Holding.setRegion_self ..
      apply (bufferOffset_holding hm).bind
      rintro r H3 ⟨⟨rc, rfl⟩ | rfl, rfl⟩
      · -- the address lookup failed: the buffer is unmapped again
        apply (unmapBuffer_holding hm rfl hlen.symm).bind
        rintro _ H4 ⟨_, rfl⟩
        rw [Holding.setRegion_setRegion, Holding.setRegion_eq_self hnew]
        apply (freeDescsPut_holding hself).bind
        rintro _ H5 rfl
        refine Or.inl ⟨rc, rfl, ?_⟩
        rw [Holding.setDesc_setDesc, Holding.setDesc_eq_self hfree]
      · have hcell : ((H.setDesc idx (some c)).setRegion m (some b)).desc idx =
            some c := hself
        apply (setExtras_holding hcell _).bind
        rintro _ H4 rfl
        apply (setExtras_holding (Holding.setDesc_self ..) _).bind
        rintro _ H5 rfl
        apply (setDesc_holding (Holding.setDesc_self ..) _).bind
        rintro _ H6 rfl
        apply (setDesc_holding (Holding.setDesc_self ..) _).bind
        rintro _ H7 rfl
        apply (setDesc_holding (Holding.setDesc_self ..) _).bind
        rintro _ H8 rfl
        apply (setDesc_holding (Holding.setDesc_self ..) _).bind
        rintro _ H9 rfl
        refine Or.inr ⟨idx, m, b, rfl, hfree, hnew, hlen, hb, ?_⟩
        simp only [Holding.setDesc_setDesc]
        rw [Holding.setDesc_setRegion, Holding.setDesc_setDesc]
        rfl

theorem virtqFreeDesc_holding {idx : UInt16} {c : DescCell} {b : List UInt8}
    (hidx : H.desc idx = some c) (hm : H.region c.buffer = some b) :
    HoldingSpec ω H (virtqFreeDesc idx) fun _ H' =>
      H' = (H.setDesc idx none).setRegion c.buffer none := by
  unfold virtqFreeDesc
  have hvaddr : HoldingSpec ω H
      (Prog.read fun q => (q.vq.descExtras idx).vaddr) fun v H' =>
        v = c.extras.vaddr ∧ H' = H := by
    apply read_holding
    rintro q hold o hinv rfl
    exact congrArg (fun c => c.extras.vaddr) (hinv.descs.known o idx c hidx)
  have hlen : HoldingSpec ω H (Prog.read fun q => (q.vq.desc idx).len) fun l H' =>
      l = c.desc.len ∧ H' = H := by
    apply read_holding
    rintro q hold o hinv rfl
    exact congrArg (fun c => c.desc.len) (hinv.descs.known o idx c hidx)
  apply hvaddr.bind
  rintro v H1 ⟨rfl, rfl⟩
  apply hlen.bind
  rintro l H2 ⟨rfl, rfl⟩
  apply (unmapBuffer_holding hm rfl rfl).bind
  rintro rc H3 ⟨rfl, rfl⟩
  rw [if_neg (by simp)]
  have hcell : (H2.setRegion c.buffer none).desc idx = some c := hidx
  apply (setExtras_holding hcell _).bind
  rintro _ H4 rfl
  apply (setExtras_holding (Holding.setDesc_self ..) _).bind
  rintro _ H5 rfl
  apply (setDesc_holding (Holding.setDesc_self ..) _).bind
  rintro _ H6 rfl
  apply (setDesc_holding (Holding.setDesc_self ..) _).bind
  rintro _ H7 rfl
  apply (setDesc_holding (Holding.setDesc_self ..) _).bind
  rintro _ H8 rfl
  apply (setDesc_holding (Holding.setDesc_self ..) _).bind
  rintro _ H9 rfl
  apply (freeDescsPut_holding (Holding.setDesc_self ..)).conseq
  rintro _ H10 rfl
  simp only [Holding.setDesc_setDesc]
  exact Holding.setDesc_setRegion ..

end QnxVirtio
