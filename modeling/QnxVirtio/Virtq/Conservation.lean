import QnxVirtio.Virtq.Descriptors

/-!
# Descriptor conservation

Every descriptor of a created queue is either free or allocated, and exactly the
allocated ones own a buffer mapping.  The invariant is proved for every sequence
of allocations and frees, with failing mappings and with frees of descriptors
that are already free.
-/

namespace QnxVirtio

open Foundation

/-!
## Runs
-/

inductive DescOp
  | alloc (len : UInt32) (writable : Bool)
  | free (idx : UInt16)

/-- One call with its result code.  The list holds the descriptors that are
allocated: those handed out and not freed since. -/
inductive DescStep : Queue -> List UInt16 -> DescOp -> Rc -> Queue ->
    List UInt16 -> Prop
  | alloc {q q' : Queue} {allocated : List UInt16} {len : UInt32}
      {writable : Bool} {idx : UInt16} :
      Prog.Runs LockOk q (virtqAllocDesc len writable) (.ok idx) q' ->
      DescStep q allocated (.alloc len writable) .EOK q' (idx :: allocated)
  | allocError {q q' : Queue} {allocated : List UInt16} {len : UInt32}
      {writable : Bool} {rc : Rc} :
      Prog.Runs LockOk q (virtqAllocDesc len writable) (.error rc) q' ->
      DescStep q allocated (.alloc len writable) rc q' allocated
  | free {q q' : Queue} {allocated : List UInt16} {idx : UInt16} :
      idx.toNat < q.vq.num.toNat ->
      Prog.Runs LockOk q (virtqFreeDesc idx) .EOK q' ->
      DescStep q allocated (.free idx) .EOK q' (allocated.erase idx)
  | freeError {q q' : Queue} {allocated : List UInt16} {idx : UInt16} {rc : Rc} :
      idx.toNat < q.vq.num.toNat -> rc ≠ .EOK ->
      Prog.Runs LockOk q (virtqFreeDesc idx) rc q' ->
      DescStep q allocated (.free idx) rc q' allocated

/-- The queues that calls lead to, with the descriptors allocated there. -/
inductive DescReachable (q₀ : Queue) : Queue -> List UInt16 -> Prop
  | refl : DescReachable q₀ q₀ []
  | step {q q' : Queue} {allocated allocated' : List UInt16} {op : DescOp}
      {rc : Rc} :
      DescReachable q₀ q allocated ->
      DescStep q allocated op rc q' allocated' ->
      DescReachable q₀ q' allocated'

/-!
## The invariant
-/

/-- The descriptors and the mappings of a queue are accounted for.  `base` are
the mappings that are none of the queue's buffers. -/
structure Conserved (base : List Mapping) (q : Queue) (allocated : List UInt16) :
    Prop where
  freeWf : q.vq.FreeWf
  freeNodup : q.vq.freeList.Nodup
  allocatedNodup : allocated.Nodup
  disjoint : forall idx, idx ∈ q.vq.freeList -> idx ∉ allocated
  cover : forall idx, idx.toNat < q.vq.num.toNat <->
    idx ∈ q.vq.freeList ∨ idx ∈ allocated
  /-- Buffers of allocated descriptors are nonempty and share nothing. -/
  own : (allocated.map q.vq.buffer).Pairwise Mapping.Apart
  ownPos : forall idx, idx ∈ allocated -> 0 < (q.vq.buffer idx).len
  /-- The live mappings are these buffers and the ones of `base`. -/
  maps : q.mem.maps.Perm (allocated.map q.vq.buffer ++ base)
  freeEmpty : forall idx, idx ∈ q.vq.freeList ->
    (q.vq.descExtras idx).vaddr = 0 ∧ (q.vq.desc idx).len = 0
  refused : q.refused = []

/-- What a failed call leaves alone. -/
structure SameResources (q q' : Queue) : Prop where
  free : forall idx, idx ∈ q'.vq.freeList <-> idx ∈ q.vq.freeList
  maps : forall n, n ∈ q'.mem.maps <-> n ∈ q.mem.maps

theorem Conserved.fresh {size : Nat} {legacy : Bool} {obj : VirtqObject}
    (h : Virtq.Fresh size legacy obj.vq) (mem : Memory) :
    Conserved mem.maps (obj.queue mem) [] where
  freeWf := h.free
  freeNodup := by
    change obj.vq.freeList.Nodup
    rw [h.freeList]
    exact nodup_indices (Nat.le_of_lt h.size_lt)
  allocatedNodup := List.nodup_nil
  disjoint := by simp
  cover := by
    intro idx
    have hsize := h.size_lt
    have hnum : obj.vq.num = UInt16.ofNat size := by
      rcases h.shape with ⟨d, a, u, fifo, heq⟩
      rw [heq]
      rfl
    change idx.toNat < obj.vq.num.toNat <-> idx ∈ obj.vq.freeList ∨ _
    rw [hnum, h.freeList, UInt16.toNat_ofNat', Nat.mod_eq_of_lt hsize]
    simp only [List.mem_map, List.mem_range, List.not_mem_nil, or_false]
    constructor
    · intro hlt
      exact ⟨idx.toNat, hlt, by simp⟩
    · rintro ⟨i, hi, rfl⟩
      rw [UInt16.toNat_ofNat', Nat.mod_eq_of_lt (by omega)]
      exact hi
  own := List.Pairwise.nil
  ownPos := by simp
  maps := List.Perm.refl _
  freeEmpty := by
    intro idx _
    rcases h.shape with ⟨d, a, u, fifo, heq⟩
    change (obj.vq.descExtras idx).vaddr = 0 ∧ (obj.vq.desc idx).len = 0
    rw [heq]
    exact ⟨rfl, rfl⟩
  refused := rfl

/-!
## One call
-/

theorem own_of_maps {mem : Memory} {buffers base : List Mapping}
    (h : mem.maps.Perm (buffers ++ base)) :
    buffers.Pairwise Mapping.Apart ∧ forall b, b ∈ buffers -> 0 < b.len := by
  have hapart := (h.pairwise_iff fun h => h.symm).mp mem.apart
  refine ⟨(List.pairwise_append.mp hapart).1, ?_⟩
  intro b hb
  exact mem.pos b (h.mem_iff.mpr (List.mem_append_left _ hb))

/-- Buffers are recorded in the tables, so equal entries mean equal buffers. -/
theorem buffer_congr {vq vq' : Virtq} {idx : UInt16}
    (hdesc : vq'.desc idx = vq.desc idx)
    (hextras : vq'.descExtras idx = vq.descExtras idx) :
    vq'.buffer idx = vq.buffer idx := by
  unfold Virtq.buffer
  rw [hdesc, hextras]

theorem Conserved.alloc {base : List Mapping} {q q' : Queue}
    {allocated : List UInt16} {len : UInt32} {idx : UInt16}
    (h : Conserved base q allocated) (halloc : Allocated len idx q q') :
    Conserved base q' (idx :: allocated) := by
  have hnodup := h.freeNodup
  rw [halloc.freeList] at hnodup
  have hfree : idx ∈ q.vq.freeList := by
    rw [halloc.freeList]
    exact List.mem_cons_self ..
  have hnew : idx ∉ allocated := h.disjoint idx hfree
  have hbuffers : allocated.map q'.vq.buffer = allocated.map q.vq.buffer := by
    apply List.map_congr_left
    intro i hi
    have hne : i ≠ idx := fun heq => hnew (heq ▸ hi)
    exact buffer_congr (halloc.desc i hne) (halloc.descExtras i hne)
  have hmaps : q'.mem.maps.Perm ((idx :: allocated).map q'.vq.buffer ++ base) := by
    rw [halloc.maps, List.map_cons, hbuffers]
    exact List.Perm.cons _ h.maps
  constructor
  case freeWf => exact halloc.freeWf
  case freeNodup => exact (List.nodup_cons.mp hnodup).2
  case allocatedNodup => exact List.nodup_cons.mpr ⟨hnew, h.allocatedNodup⟩
  case disjoint =>
    intro i hi hmem
    rcases List.mem_cons.mp hmem with rfl | hmem
    · exact (List.nodup_cons.mp hnodup).1 hi
    · refine h.disjoint i ?_ hmem
      rw [halloc.freeList]
      exact List.mem_cons_of_mem _ hi
  case cover =>
    intro i
    rw [halloc.rings.num, h.cover i, halloc.freeList, List.mem_cons, List.mem_cons]
    tauto
  case own => exact (own_of_maps hmaps).1
  case ownPos =>
    intro i hi
    exact (own_of_maps hmaps).2 _ (List.mem_map_of_mem hi)
  case maps => exact hmaps
  case freeEmpty =>
    intro i hi
    have hne : i ≠ idx := by
      rintro rfl
      exact (List.nodup_cons.mp hnodup).1 hi
    rw [halloc.desc i hne, halloc.descExtras i hne]
    apply h.freeEmpty
    rw [halloc.freeList]
    exact List.mem_cons_of_mem _ hi
  case refused => rw [halloc.refused, h.refused]

theorem Conserved.mem_allocated {base : List Mapping} {q : Queue}
    {allocated : List UInt16} (h : Conserved base q allocated) {idx : UInt16}
    (hidx : idx.toNat < q.vq.num.toNat) (hlen : (q.vq.desc idx).len ≠ 0) :
    idx ∈ allocated := by
  rcases (h.cover idx).mp hidx with hfree | hmem
  · exact absurd (h.freeEmpty idx hfree).2 hlen
  · exact hmem

theorem Conserved.room {base : List Mapping} {q : Queue}
    {allocated : List UInt16} (h : Conserved base q allocated) {idx : UInt16}
    (hmem : idx ∈ allocated) : q.vq.freeList.length < q.vq.num.toNat := by
  have hnodup : (idx :: q.vq.freeList).Nodup :=
    List.nodup_cons.mpr ⟨fun hfree => h.disjoint idx hfree hmem, h.freeNodup⟩
  have hlt : forall i, i ∈ idx :: q.vq.freeList -> i.toNat < q.vq.num.toNat := by
    intro i hi
    rcases List.mem_cons.mp hi with rfl | hi
    · exact (h.cover i).mpr (Or.inr hmem)
    · exact (h.cover i).mpr (Or.inl hi)
  exact length_le_of_nodup_of_lt hnodup hlt

theorem Conserved.free {base : List Mapping} {q q' : Queue}
    {allocated : List UInt16} {idx : UInt16} (h : Conserved base q allocated)
    (hmem : idx ∈ allocated) (hfreed : Freed idx q q') :
    Conserved base q' (allocated.erase idx) := by
  have hnodup := h.allocatedNodup
  have hold : idx ∉ allocated.erase idx := hnodup.not_mem_erase
  have hnotfree : idx ∉ q.vq.freeList := fun hfree => h.disjoint idx hfree hmem
  have hbuffers : (allocated.erase idx).map q'.vq.buffer =
      (allocated.erase idx).map q.vq.buffer := by
    apply List.map_congr_left
    intro i hi
    have hne : i ≠ idx := fun heq => hold (heq ▸ hi)
    exact buffer_congr (hfreed.desc i hne) (hfreed.descExtras i hne)
  have hmaps : q'.mem.maps.Perm
      ((allocated.erase idx).map q'.vq.buffer ++ base) := by
    have hperm : q.mem.maps.Perm
        (q.vq.buffer idx :: ((allocated.erase idx).map q.vq.buffer ++ base)) := by
      refine h.maps.trans ?_
      exact ((List.perm_cons_erase hmem).map _).append_right base
    rw [hbuffers, hfreed.maps]
    exact Memory.release_perm q.mem hperm
  constructor
  case freeWf => exact hfreed.freeWf
  case freeNodup =>
    rw [hfreed.freeList]
    exact List.Nodup.append h.freeNodup (List.nodup_singleton _)
      (by simpa using hnotfree)
  case allocatedNodup => exact hnodup.erase _
  case disjoint =>
    intro i hi hmem'
    rw [hfreed.freeList, List.mem_append, List.mem_singleton] at hi
    rcases hi with hi | rfl
    · exact h.disjoint i hi (List.mem_of_mem_erase hmem')
    · exact hold hmem'
  case cover =>
    intro i
    rw [hfreed.rings.num, h.cover i, hfreed.freeList, List.mem_append,
      List.mem_singleton, hnodup.mem_erase_iff]
    by_cases hi : i = idx
    · subst hi
      tauto
    · tauto
  case own => exact (own_of_maps hmaps).1
  case ownPos =>
    intro i hi
    exact (own_of_maps hmaps).2 _ (List.mem_map_of_mem hi)
  case maps => exact hmaps
  case freeEmpty =>
    intro i hi
    by_cases hne : i = idx
    · subst hne
      exact ⟨hfreed.vaddr, hfreed.len⟩
    · rw [hfreed.freeList, List.mem_append, List.mem_singleton] at hi
      rw [hfreed.desc i hne, hfreed.descExtras i hne]
      exact h.freeEmpty i (hi.resolve_right hne)
  case refused => rw [hfreed.refused, h.refused]

theorem Conserved.unchanged {base : List Mapping} {q q' : Queue}
    {allocated : List UInt16} (h : Conserved base q allocated)
    (hsame : Unchanged q q') : Conserved base q' allocated := by
  have hbuffers : q'.vq.buffer = q.vq.buffer := by
    funext i
    exact buffer_congr (congrFun hsame.desc i) (congrFun hsame.descExtras i)
  constructor
  case freeWf => exact hsame.freeWf
  case freeNodup => exact hsame.free.nodup_iff.mpr h.freeNodup
  case allocatedNodup => exact h.allocatedNodup
  case disjoint =>
    intro i hi
    exact h.disjoint i (hsame.free.mem_iff.mp hi)
  case cover =>
    intro i
    rw [hsame.rings.num, h.cover i, hsame.free.mem_iff]
  case own =>
    rw [hbuffers]
    exact h.own
  case ownPos =>
    rw [hbuffers]
    exact h.ownPos
  case maps =>
    rw [hbuffers]
    exact hsame.maps.trans h.maps
  case freeEmpty =>
    intro i hi
    rw [hsame.desc, hsame.descExtras]
    exact h.freeEmpty i (hsame.free.mem_iff.mp hi)
  case refused => rw [hsame.refused, h.refused]

theorem Unchanged.sameResources {q q' : Queue} (h : Unchanged q q') :
    SameResources q q' where
  free := fun _ => h.free.mem_iff
  maps := fun _ => h.maps.mem_iff

theorem Conserved.step {base : List Mapping} {q q' : Queue}
    {allocated allocated' : List UInt16} {op : DescOp} {rc : Rc}
    (h : Conserved base q allocated)
    (hstep : DescStep q allocated op rc q' allocated') :
    Conserved base q' allocated' ∧ (rc ≠ .EOK -> SameResources q q') := by
  have hlen : q.vq.freeList.length <= q.vq.num.toNat :=
    length_le_of_nodup_of_lt h.freeNodup fun i hi => (h.cover i).mpr (Or.inl hi)
  cases hstep with
  | alloc hrun =>
      exact ⟨h.alloc (virtqAllocDesc_runs hrun h.freeWf hlen),
        fun hrc => absurd rfl hrc⟩
  | allocError hrun =>
      have hpost := virtqAllocDesc_runs hrun h.freeWf hlen
      exact ⟨h.unchanged hpost.2, fun _ => hpost.2.sameResources⟩
  | free hidx hrun =>
      rcases virtqFreeDesc_runs hrun h.freeWf
          (fun hne => h.room (h.mem_allocated hidx hne)) with
        ⟨hrc, _⟩ | ⟨_, hfreed⟩
      · exact absurd rfl hrc
      · exact ⟨h.free (h.mem_allocated hidx hfreed.len_ne) hfreed,
          fun hrc => absurd rfl hrc⟩
  | freeError hidx hrc hrun =>
      rcases virtqFreeDesc_runs hrun h.freeWf
          (fun hne => h.room (h.mem_allocated hidx hne)) with
        ⟨_, rfl⟩ | ⟨hok, _⟩
      · exact ⟨h, fun _ => ⟨fun _ => Iff.rfl, fun _ => Iff.rfl⟩⟩
      · exact absurd hok hrc

theorem Conserved.reachable {base : List Mapping} {q₀ q : Queue}
    {allocated : List UInt16} (h : Conserved base q₀ [])
    (hreach : DescReachable q₀ q allocated) : Conserved base q allocated := by
  induction hreach with
  | refl => exact h
  | step _ hstep ih => exact (ih.step hstep).1

/-!
## Created queues
-/

/-- From creation on, every sequence of allocations and frees keeps the account,
and each further call that fails changes no resources. -/
theorem virtq_descs_conserved {size : Nat} {legacy : Bool} {h h' : Host} {rc : Rc}
    {obj : VirtqObject} {q : Queue} {allocated : List UInt16}
    (hcreate : Prog.Runs (fun _ => True) h (virtqCreate size legacy) (rc, some obj) h')
    (hreach : DescReachable (obj.queue h'.mem) q allocated) :
    Conserved h'.mem.maps q allocated ∧
      forall op rc q' allocated', DescStep q allocated op rc q' allocated' ->
        rc ≠ .EOK -> SameResources q q' := by
  have hcons := (Conserved.fresh (virtqCreate_fresh hcreate).2 h'.mem).reachable
    hreach
  exact ⟨hcons, fun op rc q' allocated' hstep => (hcons.step hstep).2⟩

/-- An allocation on a queue of two descriptors. -/
theorem virtq_descs_conserved_two :
    exists q, Conserved createdTwo.2.mem.maps q [0] ∧
      forall op rc q' allocated', DescStep q [0] op rc q' allocated' ->
        rc ≠ .EOK -> SameResources q q' := by
  rcases Prog.exists_runs_of_exec (lockOk_succeedingEnvs 10 16)
      (rfl : (Prog.exec (succeedingEnvs 10 16)
        (queueTwo.queue createdTwo.2.mem) (virtqAllocDesc 8 true)).map
          Prod.fst = some (.ok 0)) with ⟨q, halloc⟩
  exact ⟨q, virtq_descs_conserved queueTwo_created
    (DescReachable.step DescReachable.refl (DescStep.alloc halloc))⟩

end QnxVirtio
