import QnxVirtio.Virtq.ChainRoundTrip
import QnxVirtio.Virtq.Destroy
import QnxVirtio.Virtq.Unwind

/-!
# A queue in its process

The functions of `virtq.h` on one of the queues of a process, next to the mappings that are
not the queue's.  Any spinlock may be refused: a descriptor that cannot be put back is
neither free nor allocated any more, but it holds no buffer.
-/

namespace QnxVirtio

open Foundation Prog Resources

/-!
## What a call on a queue leaves alone
-/

/-- Size, layout and physical addresses of a queue. -/
structure SameShape (q q' : Queue) : Prop where
  num : q'.vq.num = q.vq.num
  legacy : q'.vq.legacy = q.vq.legacy
  descPaddr : q'.vq.descPaddr = q.vq.descPaddr
  availPaddr : q'.vq.availPaddr = q.vq.availPaddr
  usedPaddr : q'.vq.usedPaddr = q.vq.usedPaddr

namespace SameShape

theorem refl (q : Queue) : SameShape q q :=
  ⟨rfl, rfl, rfl, rfl, rfl⟩

theorem trans (q q1 q2 : Queue) (h : SameShape q q1) (h' : SameShape q1 q2) :
    SameShape q q2 where
  num := h'.num.trans h.num
  legacy := h'.legacy.trans h.legacy
  descPaddr := h'.descPaddr.trans h.descPaddr
  availPaddr := h'.availPaddr.trans h.availPaddr
  usedPaddr := h'.usedPaddr.trans h.usedPaddr

end SameShape

theorem setDesc_shape (idx : UInt16) (f : VirtqDesc -> VirtqDesc) :
    (setDesc idx f).Within SameShape :=
  within_modify fun _ => ⟨rfl, rfl, rfl, rfl, rfl⟩

theorem setExtras_shape (idx : UInt16) (f : DescExtras -> DescExtras) :
    (setExtras idx f).Within SameShape :=
  within_modify fun _ => ⟨rfl, rfl, rfl, rfl, rfl⟩

theorem freeDescsGet_shape : freeDescsGet.Within SameShape := by
  refine within_action fun e q r q' hf => ?_
  cases hf
  exact ⟨rfl, rfl, rfl, rfl, rfl⟩

theorem freeDescsPut_shape (idx : UInt16) : (freeDescsPut idx).Within SameShape := by
  refine within_action fun e q r q' hf => ?_
  cases hf
  exact ⟨rfl, rfl, rfl, rfl, rfl⟩

theorem mapBuffer_shape (len : UInt32) : (mapBuffer len).Within SameShape := by
  refine within_action fun e q r q' hf => ?_
  rcases Option.map_eq_some_iff.mp hf with ⟨_, _, hout⟩
  cases hout
  exact ⟨rfl, rfl, rfl, rfl, rfl⟩

theorem unmapBuffer_shape (vaddr : Nat) (len : UInt32) :
    (unmapBuffer vaddr len).Within SameShape := by
  refine within_action fun e q r q' hf => ?_
  cases hf
  exact ⟨rfl, rfl, rfl, rfl, rfl⟩

theorem virtqAllocDesc_shape (len : UInt32) (writable : Bool) :
    (virtqAllocDesc len writable).Within SameShape := by
  refine freeDescsGet_shape.bind fun r => ?_
  cases r with
  | error rc => exact within_ret _
  | ok idx =>
      refine (mapBuffer_shape len).bind fun r => ?_
      cases r with
      | error rc => exact (freeDescsPut_shape idx).bind fun _ => within_ret _
      | ok vaddr =>
          refine (within_look SameShape.refl _).bind fun r => ?_
          cases r with
          | error rc =>
              refine (unmapBuffer_shape vaddr len).bind fun _ => ?_
              exact (freeDescsPut_shape idx).bind fun _ => within_ret _
          | ok paddr =>
              refine (setExtras_shape idx _).bind fun _ => ?_
              refine (setExtras_shape idx _).bind fun _ => ?_
              refine (setDesc_shape idx _).bind fun _ => ?_
              refine (setDesc_shape idx _).bind fun _ => ?_
              refine (setDesc_shape idx _).bind fun _ => ?_
              exact (setDesc_shape idx _).bind fun _ => within_ret _

theorem virtqFreeDesc_shape (idx : UInt16) : (virtqFreeDesc idx).Within SameShape := by
  refine (within_look SameShape.refl _).bind fun vaddr => ?_
  refine (within_look SameShape.refl _).bind fun len => ?_
  refine (unmapBuffer_shape vaddr len).bind fun rc => ?_
  by_cases hrc : rc ≠ .EOK
  · rw [if_pos hrc]
    exact within_ret _
  · rw [if_neg hrc]
    refine (setExtras_shape idx _).bind fun _ => ?_
    refine (setExtras_shape idx _).bind fun _ => ?_
    refine (setDesc_shape idx _).bind fun _ => ?_
    refine (setDesc_shape idx _).bind fun _ => ?_
    refine (setDesc_shape idx _).bind fun _ => ?_
    exact (setDesc_shape idx _).bind fun _ => freeDescsPut_shape idx

/-- The account of the descriptors, next to the shape. -/
structure SameAccount (q q' : Queue) : Prop extends SameShape q q' where
  free : q'.vq.freeDescs = q.vq.freeDescs
  mem : q'.mem = q.mem
  buffer : forall idx, q'.vq.buffer idx = q.vq.buffer idx
  len : forall idx, (q'.vq.desc idx).len = (q.vq.desc idx).len

namespace SameAccount

theorem refl (q : Queue) : SameAccount q q :=
  ⟨SameShape.refl q, rfl, rfl, fun _ => rfl, fun _ => rfl⟩

theorem trans (q q1 q2 : Queue) (h : SameAccount q q1) (h' : SameAccount q1 q2) :
    SameAccount q q2 where
  toSameShape := SameShape.trans _ _ _ h.toSameShape h'.toSameShape
  free := h'.free.trans h.free
  mem := h'.mem.trans h.mem
  buffer := fun idx => (h'.buffer idx).trans (h.buffer idx)
  len := fun idx => (h'.len idx).trans (h.len idx)

end SameAccount

theorem setDesc_account {idx : UInt16} {f : VirtqDesc -> VirtqDesc}
    (haddr : forall d, (f d).addr = d.addr) (hlen : forall d, (f d).len = d.len) :
    (setDesc idx f).Within SameAccount := by
  refine within_modify fun q => ?_
  have hdesc : forall i, ((q.updateDesc idx f).vq.desc i).addr = (q.vq.desc i).addr ∧
      ((q.updateDesc idx f).vq.desc i).len = (q.vq.desc i).len := by
    intro i
    change (Function.update q.vq.desc idx (f (q.vq.desc idx)) i).addr = _ ∧
      (Function.update q.vq.desc idx (f (q.vq.desc idx)) i).len = _
    by_cases hi : i = idx
    · subst hi
      rw [Function.update_self]
      exact ⟨haddr _, hlen _⟩
    · rw [Function.update_of_ne hi]
      exact ⟨rfl, rfl⟩
  refine ⟨⟨rfl, rfl, rfl, rfl, rfl⟩, rfl, rfl, fun i => ?_, fun i => (hdesc i).2⟩
  unfold Virtq.buffer
  rw [(hdesc i).1, (hdesc i).2]
  rfl

theorem linkChain_account (head : UInt16) (rest : List UInt16) :
    (linkChain head rest).Within SameAccount := by
  induction rest generalizing head with
  | nil => exact setDesc_account (fun _ => rfl) fun _ => rfl
  | cons idx rest ih =>
      refine Within.bind (p := setDesc head fun d => { d with next := idx })
        (setDesc_account (fun _ => rfl) fun _ => rfl) fun _ => ?_
      exact Within.bind
        (p := setDesc head fun d => { d with flags := d.flags ||| VIRTQ_DESC_F_NEXT })
        (setDesc_account (fun _ => rfl) fun _ => rfl) fun _ => ih idx

theorem virtqPutDescChain_account (head : UInt16) (rest : List UInt16) :
    (virtqPutDescChain head rest).Within SameAccount := by
  refine (linkChain_account head rest).bind fun _ => ?_
  refine within_action fun e q rc q' hf => ?_
  by_cases hlock : e.lock ≠ .EOK
  · rw [if_pos hlock] at hf
    cases hf
    exact SameAccount.refl _
  · rw [if_neg hlock] at hf
    cases hf
    exact ⟨⟨rfl, rfl, rfl, rfl, rfl⟩, rfl, rfl, fun _ => rfl, fun _ => rfl⟩

theorem virtqGetDescChain_account (count : Nat) :
    (virtqGetDescChain count).Within SameAccount := by
  refine within_action fun e q r q' hf => ?_
  rcases Option.map_eq_some_iff.mp hf with ⟨⟨r', vq'⟩, hget, hout⟩
  cases hout
  cases r' with
  | error rc =>
      cases getDescChain_error hget
      exact ⟨⟨rfl, rfl, rfl, rfl, rfl⟩, rfl, rfl, fun _ => rfl, fun _ => rfl⟩
  | ok chain =>
      cases (getDescChain_ok hget).2.2.2
      exact ⟨⟨rfl, rfl, rfl, rfl, rfl⟩, rfl, rfl, fun _ => rfl, fun _ => rfl⟩

theorem virtqSetDescContext_account (idx : UInt16) (context : ContextPtr) :
    (virtqSetDescContext idx context).Within SameAccount := by
  refine within_action fun e q rc q' hf => ?_
  split at hf
  · cases hf
    exact SameAccount.refl _
  · cases hf
    refine ⟨⟨rfl, rfl, rfl, rfl, rfl⟩, rfl, rfl, fun i => ?_, fun _ => rfl⟩
    unfold Virtq.buffer
    by_cases hi : i = idx
    · subst hi
      simp [Queue.updateExtras]
    · simp [Queue.updateExtras, hi]

/-!
## What a queue holds
-/

/-- The descriptors and the mappings of a queue, some of whose descriptors may be lost.
`base` are the mappings that are none of the queue's buffers. -/
structure Held (base : List Mapping) (q : Queue) (allocated : List UInt16) : Prop where
  freeWf : q.vq.FreeWf
  freeNodup : q.vq.freeList.Nodup
  freeLt : forall idx, idx ∈ q.vq.freeList -> idx.toNat < q.vq.num.toNat
  allocatedNodup : allocated.Nodup
  disjoint : forall idx, idx ∈ q.vq.freeList -> idx ∉ allocated
  /-- Only allocated descriptors hold buffers. -/
  empty : forall idx, idx.toNat < q.vq.num.toNat -> idx ∉ allocated ->
    (q.vq.desc idx).len = 0
  maps : q.mem.maps.Perm (allocated.map q.vq.buffer ++ base)

theorem Conserved.held {base : List Mapping} {q : Queue} {allocated : List UInt16}
    (h : Conserved base q allocated) : Held base q allocated where
  freeWf := h.freeWf
  freeNodup := h.freeNodup
  freeLt := fun idx hidx => (h.cover idx).mpr (Or.inl hidx)
  allocatedNodup := h.allocatedNodup
  disjoint := h.disjoint
  empty := fun idx hlt hnot =>
    (h.freeEmpty idx (((h.cover idx).mp hlt).resolve_right hnot)).2
  maps := h.maps

namespace Held

variable {base : List Mapping} {q q' : Queue} {allocated : List UInt16} {len : UInt32}
  {writable : Bool} {idx : UInt16} {ok : Env -> Prop} {rc : Rc}

theorem length_le (h : Held base q allocated) :
    q.vq.freeList.length <= q.vq.num.toNat :=
  length_le_of_nodup_of_lt h.freeNodup h.freeLt

theorem room (h : Held base q allocated) (hidx : idx.toNat < q.vq.num.toNat)
    (hmem : idx ∈ allocated) : q.vq.freeList.length < q.vq.num.toNat := by
  have hnodup : (idx :: q.vq.freeList).Nodup :=
    List.nodup_cons.mpr ⟨fun hfree => h.disjoint idx hfree hmem, h.freeNodup⟩
  refine length_le_of_nodup_of_lt hnodup fun i hi => ?_
  rcases List.mem_cons.mp hi with rfl | hi
  · exact hidx
  · exact h.freeLt i hi

theorem congr (h : Held base q allocated) (hsame : SameAccount q q') :
    Held base q' allocated := by
  have hlist := Virtq.freeList_congr hsame.free
  have hbuffers : q'.vq.buffer = q.vq.buffer := funext hsame.buffer
  constructor
  case freeWf => exact h.freeWf.congr hsame.free hsame.num
  case freeNodup =>
    rw [hlist]
    exact h.freeNodup
  case freeLt =>
    rw [hlist, hsame.num]
    exact h.freeLt
  case allocatedNodup => exact h.allocatedNodup
  case disjoint =>
    rw [hlist]
    exact h.disjoint
  case empty =>
    intro i hi hnot
    rw [hsame.len]
    exact h.empty i (hsame.num ▸ hi) hnot
  case maps =>
    rw [hbuffers, hsame.mem]
    exact h.maps

theorem alloc (h : Held base q allocated) (halloc : Allocated len idx q q') :
    Held base q' (idx :: allocated) := by
  have hnodup := h.freeNodup
  rw [halloc.freeList] at hnodup
  have hfree : idx ∈ q.vq.freeList := by
    rw [halloc.freeList]
    exact List.mem_cons_self ..
  have hrest : forall i, i ∈ q'.vq.freeList -> i ∈ q.vq.freeList := by
    intro i hi
    rw [halloc.freeList]
    exact List.mem_cons_of_mem _ hi
  have hnew : idx ∉ allocated := h.disjoint idx hfree
  have hbuffers : allocated.map q'.vq.buffer = allocated.map q.vq.buffer := by
    apply List.map_congr_left
    intro i hi
    have hne : i ≠ idx := fun heq => hnew (heq ▸ hi)
    exact buffer_congr (halloc.desc i hne) (halloc.descExtras i hne)
  constructor
  case freeWf => exact halloc.freeWf
  case freeNodup => exact (List.nodup_cons.mp hnodup).2
  case freeLt =>
    rw [halloc.rings.num]
    exact fun i hi => h.freeLt i (hrest i hi)
  case allocatedNodup => exact List.nodup_cons.mpr ⟨hnew, h.allocatedNodup⟩
  case disjoint =>
    intro i hi hmem
    rcases List.mem_cons.mp hmem with rfl | hmem
    · exact (List.nodup_cons.mp hnodup).1 hi
    · exact h.disjoint i (hrest i hi) hmem
  case empty =>
    intro i hi hnot
    rw [halloc.rings.num] at hi
    rw [halloc.desc i fun heq => hnot (heq ▸ List.mem_cons_self ..)]
    exact h.empty i hi fun hmem => hnot (List.mem_cons_of_mem _ hmem)
  case maps =>
    rw [halloc.maps, List.map_cons, hbuffers]
    exact h.maps.cons _

/-- A failed allocation may cost the descriptor that it took. -/
theorem undone {locks : List Rc} (h : Held base q allocated)
    (hundone : AllocUndone locks q q') : Held base q' allocated := by
  have hbuffers : q'.vq.buffer = q.vq.buffer := by
    funext i
    exact buffer_congr (congrFun hundone.desc i) (congrFun hundone.descExtras i)
  rcases hundone.free with ⟨lost, hperm, _⟩
  have hfree : forall i, i ∈ q'.vq.freeList -> i ∈ q.vq.freeList :=
    fun i hi => hperm.mem_iff.mp (List.mem_append_right _ hi)
  constructor
  case freeWf => exact hundone.freeWf
  case freeNodup => exact (List.nodup_append.mp (hperm.nodup_iff.mpr h.freeNodup)).2.1
  case freeLt =>
    rw [hundone.rings.num]
    exact fun i hi => h.freeLt i (hfree i hi)
  case allocatedNodup => exact h.allocatedNodup
  case disjoint => exact fun i hi => h.disjoint i (hfree i hi)
  case empty =>
    rw [hundone.rings.num, hundone.desc]
    exact h.empty
  case maps =>
    rw [hbuffers]
    exact hundone.maps.trans h.maps

theorem released {lock : Rc} (h : Held base q allocated) (hidx : idx.toNat < q.vq.num.toNat)
    (hmem : idx ∈ allocated) (hfreed : Released lock idx q q') :
    Held base q' (allocated.erase idx) := by
  have hnodup := h.allocatedNodup
  have hold : idx ∉ allocated.erase idx := hnodup.not_mem_erase
  have hback : forall i, i ∈ q'.vq.freeList -> i ∈ q.vq.freeList ∨ i = idx := by
    intro i hi
    rw [hfreed.freeList] at hi
    refine (List.mem_append.mp hi).imp_right fun hi => ?_
    split at hi
    · exact List.mem_singleton.mp hi
    · cases hi
  have hbuffers : (allocated.erase idx).map q'.vq.buffer =
      (allocated.erase idx).map q.vq.buffer := by
    apply List.map_congr_left
    intro i hi
    have hne : i ≠ idx := fun heq => hold (heq ▸ hi)
    exact buffer_congr (hfreed.desc i hne) (hfreed.descExtras i hne)
  constructor
  case freeWf => exact hfreed.freeWf
  case freeNodup =>
    rw [hfreed.freeList]
    split
    · refine List.Nodup.append h.freeNodup (List.nodup_singleton _) ?_
      rw [List.disjoint_singleton]
      exact fun hfree => h.disjoint idx hfree hmem
    · rw [List.append_nil]
      exact h.freeNodup
  case freeLt =>
    intro i hi
    rw [hfreed.rings.num]
    rcases hback i hi with hi | rfl
    · exact h.freeLt i hi
    · exact hidx
  case allocatedNodup => exact hnodup.erase _
  case disjoint =>
    intro i hi hmem'
    rcases hback i hi with hi | rfl
    · exact h.disjoint i hi (List.mem_of_mem_erase hmem')
    · exact hold hmem'
  case empty =>
    intro i hi hnot
    rw [hfreed.rings.num] at hi
    by_cases hne : i = idx
    · rw [hne]
      exact hfreed.len
    · rw [hfreed.desc i hne]
      exact h.empty i hi fun hmem' => hnot ((hnodup.mem_erase_iff).mpr ⟨hne, hmem'⟩)
  case maps =>
    have hperm : q.mem.maps.Perm
        (q.vq.buffer idx :: ((allocated.erase idx).map q.vq.buffer ++ base)) := by
      refine h.maps.trans ?_
      exact ((List.perm_cons_erase hmem).map _).append_right base
    rw [hbuffers, hfreed.maps]
    exact Memory.release_perm q.mem hperm

/-!
### Calls
-/

theorem runs_alloc {r : Except Rc UInt16} (h : Held base q allocated)
    (hrun : Runs ok q (virtqAllocDesc len writable) r q') :
    (forall rc, r = .error rc -> Held base q' allocated) ∧
      forall idx, r = .ok idx -> Held base q' (idx :: allocated) := by
  rcases hrun.exists_runsOn 0 with ⟨σ, j, hrun⟩
  rcases (watches_allocDesc id len writable).runsOn hrun [] with ⟨es, hrun⟩
  have hpost := watchedAllocDesc_runsOn hrun h.freeWf h.length_le
  constructor
  · rintro rc rfl
    rcases hpost with ⟨_, locks, _, hundone⟩
    exact h.undone hundone
  · rintro idx rfl
    exact h.alloc hpost.2.toAllocated

/-- `virtq_free_desc` with any answers: a descriptor without a buffer stays as it is, and
any other is allocated and loses its buffer. -/
theorem runs_free (h : Held base q allocated) (hidx : idx.toNat < q.vq.num.toNat)
    (hrun : Runs ok q (virtqFreeDesc idx) rc q') :
    ((q.vq.desc idx).len = 0 -> Held base q' allocated) ∧
      ((q.vq.desc idx).len ≠ 0 -> Held base q' (allocated.erase idx)) := by
  constructor
  · intro hlen
    rw [(virtqFreeDesc_empty hrun hlen).2]
    exact h
  · intro hlen
    have hmem : idx ∈ allocated := by
      by_contra hnot
      exact hlen (h.empty idx hidx hnot)
    rcases hrun.exists_runsOn 0 with ⟨σ, j, hrun⟩
    rcases (watches_freeDesc id idx).runsOn hrun [] with ⟨es, hrun⟩
    rcases watchedFreeDesc_runsOn hrun h.freeWf hlen (h.room hidx hmem) with
      ⟨lock, _, hfreed⟩
    exact h.released hidx hmem hfreed

end Held

/-!
## Steps of one queue
-/

/-- A queue and the descriptors that are allocated on it. -/
structure Tenant where
  obj : VirtqObject
  allocated : List UInt16

namespace Tenant

/-- The buffers of the allocated descriptors. -/
def buffers (t : Tenant) : List Mapping :=
  t.allocated.map t.obj.vq.buffer

/-- Everything that belongs to a queue. -/
def resources (pagesize : UInt64) (t : Tenant) : Resources :=
  t.obj.resources pagesize + ofMaps t.buffers

/-- The account of the descriptors of the queue, on some memory. -/
def Sound (t : Tenant) : Prop :=
  exists mem base, Held base (t.obj.queue mem) t.allocated

/-- The queue after a call. -/
def after (t : Tenant) (q' : Queue) (allocated' : List UInt16) : Tenant where
  obj := { t.obj with vq := q'.vq }
  allocated := allocated'

/-- What is allocated after `virtq_free_desc`.  A descriptor without a buffer is refused;
any other has lost its buffer, whatever the call returns. -/
def allocatedAfterFree (t : Tenant) (idx : UInt16) : List UInt16 :=
  if (t.obj.vq.desc idx).len = 0 then t.allocated else t.allocated.erase idx

end Tenant

/-- A call on a queue, with any answers, or a write of the device to the used ring or of
anybody to physical memory.  Arguments, chains and used elements name descriptors of the
queue.  The histories of the queue start anew with every call. -/
inductive TenantStep (t : Tenant) (mem : Memory) : Tenant -> Memory -> Prop
  | alloc {len : UInt32} {writable : Bool} {idx : UInt16} {q' : Queue} :
      Runs (fun _ => True) (t.obj.queue mem) (virtqAllocDesc len writable) (.ok idx) q' ->
      TenantStep t mem (t.after q' (idx :: t.allocated)) q'.mem
  | allocError {len : UInt32} {writable : Bool} {rc : Rc} {q' : Queue} :
      Runs (fun _ => True) (t.obj.queue mem) (virtqAllocDesc len writable) (.error rc) q' ->
      TenantStep t mem (t.after q' t.allocated) q'.mem
  | free {idx : UInt16} {rc : Rc} {q' : Queue} :
      idx.toNat < t.obj.vq.num.toNat ->
      Runs (fun _ => True) (t.obj.queue mem) (virtqFreeDesc idx) rc q' ->
      TenantStep t mem (t.after q' (t.allocatedAfterFree idx)) q'.mem
  | context {idx : UInt16} {context : ContextPtr} {rc : Rc} {q' : Queue} :
      Runs (fun _ => True) (t.obj.queue mem) (virtqSetDescContext idx context) rc q' ->
      TenantStep t mem (t.after q' t.allocated) q'.mem
  | put {head : UInt16} {rest : List UInt16} {rc : Rc} {q' : Queue} :
      (forall idx, idx ∈ head :: rest -> idx.toNat < t.obj.vq.num.toNat) ->
      Runs (fun _ => True) (t.obj.queue mem) (virtqPutDescChain head rest) rc q' ->
      TenantStep t mem (t.after q' t.allocated) q'.mem
  | get {count : Nat} {r : Except Rc (List UInt16)} {q' : Queue} :
      Runs (fun _ => True) (t.obj.queue mem) (virtqGetDescChain count) r q' ->
      TenantStep t mem (t.after q' t.allocated) q'.mem
  | write (usedIdx : UInt16) (usedRing : UInt16 -> VirtqUsedElem) (phys : Bytes) :
      (forall i, (usedRing i).id.toNat < t.obj.vq.num.toNat) ->
      TenantStep t mem
        ⟨{ t.obj with vq := { t.obj.vq with usedIdx := usedIdx, usedRing := usedRing } },
          t.allocated⟩
        { mem with phys := phys }

section OneQueue

variable {t t' : Tenant} {mem mem' : Memory} {base : List Mapping}

theorem SameShape.resources {q' : Queue} (pagesize : UInt64)
    (h : SameShape (t.obj.queue mem) q') (allocated' : List UInt16) :
    (t.after q' allocated').obj.resources pagesize = t.obj.resources pagesize := by
  unfold VirtqObject.resources VirtqObject.maps Tenant.after
  rw [show q'.vq.num = t.obj.vq.num from h.num, show q'.vq.legacy = t.obj.vq.legacy from h.legacy,
    show q'.vq.descPaddr = t.obj.vq.descPaddr from h.descPaddr,
    show q'.vq.availPaddr = t.obj.vq.availPaddr from h.availPaddr,
    show q'.vq.usedPaddr = t.obj.vq.usedPaddr from h.usedPaddr]

theorem Held.after {q' : Queue} {allocated' : List UInt16} (h : Held base q' allocated') :
    Held base ((t.after q' allocated').obj.queue q'.mem) allocated' :=
  { h with freeWf := h.freeWf.congr rfl rfl }

theorem TenantStep.keeps (h : Held base (t.obj.queue mem) t.allocated)
    (hstep : TenantStep t mem t' mem') :
    Held base (t'.obj.queue mem') t'.allocated ∧
      forall pagesize, t'.obj.resources pagesize = t.obj.resources pagesize := by
  have hsame : forall q', SameAccount (t.obj.queue mem) q' ->
      Held base ((t.after q' t.allocated).obj.queue q'.mem) t.allocated ∧
        forall pagesize, (t.after q' t.allocated).obj.resources pagesize =
          t.obj.resources pagesize :=
    fun q' hq => ⟨(h.congr hq).after, fun pagesize => hq.toSameShape.resources pagesize _⟩
  cases hstep with
  | alloc hrun =>
      have hshape := (virtqAllocDesc_shape _ _).runs SameShape.refl SameShape.trans hrun
      exact ⟨((h.runs_alloc hrun).2 _ rfl).after, fun p => hshape.resources p _⟩
  | allocError hrun =>
      have hshape := (virtqAllocDesc_shape _ _).runs SameShape.refl SameShape.trans hrun
      exact ⟨((h.runs_alloc hrun).1 _ rfl).after, fun p => hshape.resources p _⟩
  | @free idx _ _ hidx hrun =>
      have hshape := (virtqFreeDesc_shape _).runs SameShape.refl SameShape.trans hrun
      have hfree := h.runs_free hidx hrun
      refine ⟨Held.after ?_, fun p => hshape.resources p _⟩
      unfold Tenant.allocatedAfterFree
      by_cases hlen : (t.obj.vq.desc idx).len = 0
      · rw [if_pos hlen]
        exact hfree.1 hlen
      · rw [if_neg hlen]
        exact hfree.2 hlen
  | context hrun =>
      exact hsame _ ((virtqSetDescContext_account _ _).runs SameAccount.refl
        SameAccount.trans hrun)
  | put _ hrun =>
      exact hsame _ ((virtqPutDescChain_account _ _).runs SameAccount.refl
        SameAccount.trans hrun)
  | get hrun =>
      exact hsame _ ((virtqGetDescChain_account _).runs SameAccount.refl
        SameAccount.trans hrun)
  | write usedIdx usedRing phys _ =>
      exact ⟨{ h with freeWf := h.freeWf.congr rfl rfl }, fun _ => rfl⟩

theorem Tenant.Sound.held (h : t.Sound) (hmaps : mem.maps.Perm (t.buffers ++ base)) :
    Held base (t.obj.queue mem) t.allocated := by
  rcases h with ⟨mem', base', h⟩
  exact { h with
    freeWf := h.freeWf.congr rfl rfl
    maps := hmaps }

end OneQueue

end QnxVirtio
