import Mathlib.Algebra.Group.Prod
import Mathlib.Algebra.Order.Group.Multiset
import QnxVirtio.Foundation.Account
import QnxVirtio.Virtq.CreateFailures

/-!
# Destroying virtqueues

`virtq_destroy` takes a queue apart in the order of its structure: the rings, the extras,
the free list, the lock, and the structure itself last.  A lock that cannot be destroyed
ends it early, with the rings and the extras gone and the rest still allocated.

What a call acquires and releases is counted as the mappings and the heap blocks of the
process.
-/

namespace QnxVirtio

open Foundation Prog

/-- `virtq_destroy`. -/
def virtqDestroy (obj : VirtqObject) : Prog Env Host Rc := do
  let rc <- virtqDestroyRings obj.vq.legacy obj.vq.num obj.rings
  if rc ≠ .EOK then
    -- the errno of `munmap`, which refuses only an empty range
    pure .EINVAL
  else
    freeBlock obj.extrasBlock
    let rc <- fifoDestory obj.fifoBlock
    if rc ≠ .EOK then pure rc
    else
      let rc <- Prog.action fun e h => some (e.spinDestroy, h)
      if rc ≠ .EOK then pure rc
      else
        freeBlock obj.block
        pure .EOK

/-!
## Resources
-/

/-- Mappings and heap blocks. -/
abbrev Resources : Type :=
  Multiset Mapping × Multiset Nat

def Resources.ofMap (n : Mapping) : Resources :=
  ({n}, 0)

def Resources.ofBlock (block : Nat) : Resources :=
  (0, {block})

def Resources.ofMaps (maps : List Mapping) : Resources :=
  (maps, 0)

open Resources

@[simp] theorem ofMaps_nil : ofMaps [] = 0 := rfl

@[simp] theorem ofMaps_cons (n : Mapping) (maps : List Mapping) :
    ofMaps (n :: maps) = ofMap n + ofMaps maps := by
  unfold ofMaps ofMap
  rw [← Multiset.cons_coe, ← Multiset.singleton_add]
  rfl

/-- All that the process has. -/
def Host.resources (h : Host) : Resources :=
  (h.mem.maps, h.heap)

theorem Host.resources_eq_iff {h : Host} {r : Resources} {n : Mapping} :
    h.resources = ofMap n + r <->
      (h.mem.maps : Multiset Mapping) = n ::ₘ r.1 ∧ (h.heap : Multiset Nat) = r.2 := by
  rw [Prod.ext_iff]
  change (h.mem.maps : Multiset Mapping) = {n} + r.1 ∧ (h.heap : Multiset Nat) = 0 + r.2 <-> _
  rw [Multiset.singleton_add, zero_add]

section Calls

variable {ok : Env -> Prop} {pagesize : UInt64} {own : Resources}

/-- The programs of one process, whose page size does not change. -/
abbrev HostAccounts {α : Type} (ok : Env -> Prop) (pagesize : UInt64) (own : Resources)
    (p : Prog Env Host α) (Q : α -> Resources -> Prop) : Prop :=
  AccountsFor ok Host.resources (fun h => h.pagesize = pagesize) own p Q

theorem mapPages_accounts (len : Nat) :
    HostAccounts ok pagesize own (mapPages len) fun r own' =>
      match r with
      | .error rc => rc ≠ .EOK ∧ own' = own
      | .ok v => exists p, own' = ofMap ⟨v, p, len⟩ + own := by
  refine accounts_action fun rest e h r h' _ hpage htotal hf => ?_
  rcases Option.map_eq_some_iff.mp hf with ⟨⟨r', m⟩, hmmap, hout⟩
  cases hout
  refine ⟨hpage, ?_⟩
  rcases mmap64_cases hmmap with ⟨rc, rfl, hrc, rfl⟩ | ⟨v, p, hlen, hfresh, rfl, _, rfl⟩
  · exact ⟨own, htotal, hrc, rfl⟩
  · refine ⟨ofMap ⟨v, p, len⟩ + own, ?_, p, rfl⟩
    rw [add_assoc, ← htotal, Host.resources_eq_iff]
    exact ⟨rfl, rfl⟩

theorem unmapPages_accounts_start {n : Mapping} {len : Nat} (hlen : len <= n.len) :
    HostAccounts ok pagesize (ofMap n + own) (unmapPages n.vaddr len) fun rc own' =>
      (len = n.len -> rc = .EOK) ∧ own' = ofMaps (n.cut n.vaddr len) + own := by
  refine accounts_action fun rest e h rc h' _ hpage htotal hf => ?_
  rw [add_assoc] at htotal
  rcases Host.resources_eq_iff.mp htotal with ⟨hmaps, hheap⟩
  have hperm : h.mem.maps.Perm (n :: (own.1 + rest.1).toList) := by
    rw [← Multiset.coe_eq_coe, hmaps, ← Multiset.cons_coe, Multiset.coe_toList]
    rfl
  have hpos := h.mem.pos n (hperm.mem_iff.mpr (List.mem_cons_self ..))
  by_cases hzero : len = 0
  · simp only [munmap, if_pos hzero, Option.some.injEq, Prod.mk.injEq] at hf
    rcases hf with ⟨rfl, rfl⟩
    have hcut : n.cut n.vaddr len = [n] := Mapping.cut_outside hpos (Or.inr (by omega))
    rw [hcut, ofMaps_cons, ofMaps_nil, add_zero]
    exact ⟨hpage, _, htotal.trans (add_assoc _ _ _).symm, fun heq => by omega, rfl⟩
  · simp only [munmap, if_neg hzero, Option.some.injEq, Prod.mk.injEq] at hf
    rcases hf with ⟨rfl, rfl⟩
    refine ⟨hpage, _, ?_, fun _ => rfl, rfl⟩
    have hrest := Multiset.coe_eq_coe.mpr (h.mem.release_start_perm hperm hlen)
    rw [← Multiset.coe_add, Multiset.coe_toList, ← add_assoc] at hrest
    refine Prod.ext hrest ?_
    exact hheap.trans (congrArg (· + rest.2) (zero_add own.2).symm)

theorem unmapPages_accounts (n : Mapping) :
    HostAccounts ok pagesize (ofMap n + own) (unmapPages n.vaddr n.len) fun rc own' =>
      rc = .EOK ∧ own' = own := by
  refine (unmapPages_accounts_start (Nat.le_refl _)).conseq fun rc own' h => ?_
  rw [Mapping.cut_all, ofMaps_nil, zero_add] at h
  exact ⟨h.1 rfl, h.2⟩

theorem unmapPages_accounts_empty (vaddr : Nat) :
    HostAccounts ok pagesize own (unmapPages vaddr 0) fun rc own' =>
      rc ≠ .EOK ∧ own' = own := by
  refine accounts_action fun rest e h rc h' _ hpage htotal hf => ?_
  cases hf
  exact ⟨hpage, own, htotal, fun h => (by cases h), rfl⟩

theorem pagesOffset_accounts (vaddr : Nat) :
    HostAccounts ok pagesize own (pagesOffset vaddr) fun _ own' => own' = own := by
  refine accounts_within (within_action fun e h r h' hf => ?_)
  cases hf
  exact ⟨id, rfl⟩

theorem pagesOffset_accounts_start {n : Mapping} (hn : n ∈ own.1) :
    HostAccounts ok pagesize own (pagesOffset n.vaddr) fun r own' =>
      own' = own ∧ forall p, r = .ok p -> p = n.paddr := by
  refine accounts_action fun rest e h r h' _ hpage htotal hf => ?_
  have hmem : n ∈ h.mem.maps := by
    rw [← Multiset.mem_coe, show (h.mem.maps : Multiset Mapping) = own.1 + rest.1 from
      congrArg Prod.fst htotal]
    exact Multiset.mem_add.mpr (Or.inl hn)
  cases hf
  refine ⟨hpage, own, htotal, rfl, fun p hp => ?_⟩
  cases hanswer : e.memOffset with
  | some f =>
      rw [hanswer] at hp
      cases hp
  | none =>
      rw [hanswer, memOffset64_base hmem] at hp
      cases hp
      rfl

theorem allocBlock_accounts :
    HostAccounts ok pagesize own allocBlock fun r own' =>
      match r with
      | .error rc => rc ≠ .EOK ∧ own' = own
      | .ok block => own' = ofBlock block + own := by
  refine accounts_action fun rest e h r h' _ hpage htotal hf => ?_
  cases hcalloc : e.calloc with
  | some f =>
      simp only [hcalloc, Option.some.injEq, Prod.mk.injEq] at hf
      rcases hf with ⟨rfl, rfl⟩
      exact ⟨hpage, own, htotal, f.property, rfl⟩
  | none =>
      simp only [hcalloc, Option.some.injEq, Prod.mk.injEq] at hf
      rcases hf with ⟨rfl, rfl⟩
      refine ⟨hpage, _, ?_, rfl⟩
      rw [add_assoc, ← htotal]
      refine Prod.ext (zero_add _).symm ?_
      exact (Multiset.cons_coe _ _).symm.trans (Multiset.singleton_add _ _).symm

theorem freeBlock_accounts (block : Nat) :
    HostAccounts ok pagesize (ofBlock block + own) (freeBlock block) fun _ own' =>
      own' = own := by
  refine accounts_action fun rest e h _ h' _ hpage htotal hf => ?_
  cases hf
  refine ⟨hpage, own, ?_, rfl⟩
  rw [add_assoc] at htotal
  have hmaps := congrArg Prod.fst htotal
  have hheap := congrArg Prod.snd htotal
  refine Prod.ext (hmaps.trans (zero_add _)) ?_
  change ((h.heap.erase block : List Nat) : Multiset Nat) = _
  rw [← Multiset.coe_erase]
  change ((h.heap : Multiset Nat)) = {block} + _ at hheap
  rw [hheap, Multiset.singleton_add, Multiset.erase_cons_head]

theorem createFreeDescs_accounts (size : Nat) :
    HostAccounts ok pagesize own (createFreeDescs size) fun r own' =>
      match r with
      | .error rc => rc ≠ .EOK ∧ own' = own
      | .ok (block, _) => own' = ofBlock block + own := by
  refine accounts_action fun rest e h r h' _ hpage htotal hf => ?_
  cases hcreate : fifoCreate e.malloc e.spinInit size 2 with
  | error rc =>
      simp only [hcreate, Option.some.injEq, Prod.mk.injEq] at hf
      rcases hf with ⟨rfl, rfl⟩
      refine ⟨hpage, own, htotal, ?_, rfl⟩
      rintro rfl
      unfold fifoCreate at hcreate
      cases hmalloc : e.malloc with
      | none =>
          rw [hmalloc] at hcreate
          cases hcreate
      | some data =>
          rw [hmalloc] at hcreate
          dsimp only at hcreate
          split at hcreate
          · rename_i hspin
            exact hspin (Except.error.inj hcreate)
          · cases hcreate
  | ok fifo =>
      simp only [hcreate, Option.some.injEq, Prod.mk.injEq] at hf
      rcases hf with ⟨rfl, rfl⟩
      refine ⟨hpage, _, ?_, rfl⟩
      rw [add_assoc, ← htotal]
      refine Prod.ext (zero_add _).symm ?_
      exact (Multiset.cons_coe _ _).symm.trans (Multiset.singleton_add _ _).symm

theorem ask_accounts (f : Env -> Rc) :
    HostAccounts ok pagesize own (Prog.action fun e h => some (f e, h)) fun _ own' =>
      own' = own := by
  refine accounts_within (within_action fun e h r h' hf => ?_)
  cases hf
  exact ⟨id, rfl⟩

theorem fifoDestory_accounts (block : Nat) :
    HostAccounts ok pagesize (ofBlock block + own) (fifoDestory block) fun rc own' =>
      (rc = .EOK ∧ own' = own) ∨ (rc ≠ .EOK ∧ own' = ofBlock block + own) := by
  refine (ask_accounts _).bind fun rc own' h => ?_
  cases h
  by_cases hrc : rc = .EOK
  · rw [if_neg (not_not_intro hrc)]
    refine (freeBlock_accounts block).bind fun _ own' h => ?_
    exact accounts_ret (Or.inl ⟨rfl, h⟩)
  · rw [if_pos hrc]
    exact accounts_ret (Or.inr ⟨hrc, rfl⟩)

theorem fill_accounts (size : Nat) (state : UInt16 × Fifo) :
    HostAccounts ok pagesize own (Prog.iterate (fillFreeDescs size) state) fun _ own' =>
      own' = own := by
  refine accounts_within (within_iterate (fun x => ?_) state)
  unfold fillFreeDescs
  split
  · refine within_action fun e h r h' hf => ?_
    cases hf
    exact ⟨id, rfl⟩
  · exact within_ret _

end Calls

/-!
## Rings
-/

/-- The mappings of the rings, at these physical addresses. -/
def ringMaps (legacy : Bool) (num : UInt16) (pagesize : UInt64) (rings : VirtqRings)
    (descPaddr availPaddr usedPaddr : Nat) : List Mapping :=
  if legacy then
    [⟨rings.desc, descPaddr, (virtqLegacyMemSize num pagesize.toUInt16).toNat⟩]
  else
    [⟨rings.desc, descPaddr, (virtqDescMemSize num.toUInt64).toNat⟩,
      ⟨rings.avail, availPaddr, (virtqAvailMemSize num).toNat⟩,
      ⟨rings.used, usedPaddr, (virtqUsedMemSize num).toNat⟩]

/-- What is left of the rings when the creation fails.  The clean-up finds a queue without
descriptors: it unmaps the bytes of an empty legacy queue, and nothing of a modern queue. -/
def ringsLeft (legacy : Bool) (num : UInt16) (pagesize : UInt64) (rings : VirtqRings)
    (descPaddr availPaddr usedPaddr : Nat) : List Mapping :=
  if legacy then
    Mapping.cut rings.desc (virtqLegacyMemSize 0 pagesize.toUInt16).toNat
      ⟨rings.desc, descPaddr, (virtqLegacyMemSize num pagesize.toUInt16).toNat⟩
  else ringMaps false num pagesize rings descPaddr availPaddr usedPaddr

section Rings

variable {ok : Env -> Prop} {pagesize : UInt64} {own : Resources} {num : UInt16}
  {rings : VirtqRings} {d a u : Nat}

theorem createLegacy_accounts :
    HostAccounts ok pagesize own (virtqCreateLegacy num) fun r own' =>
      match r with
      | .error rc => rc ≠ .EOK ∧ own' = own
      | .ok rings => exists d a u, own' = ofMaps (ringMaps true num pagesize rings d a u) + own
    := by
  refine (accounts_read (Q := fun p own' => p = pagesize ∧ own' = own)
    fun h hpage => ⟨hpage, rfl⟩).bind fun p own' h => ?_
  rcases h with ⟨rfl, rfl⟩
  refine (mapPages_accounts _).bind fun r own' h => ?_
  cases r with
  | error rc => exact accounts_ret h
  | ok v =>
      rcases h with ⟨q, rfl⟩
      exact accounts_ret ⟨q, 0, 0, rfl⟩

theorem createModern_accounts :
    HostAccounts ok pagesize own (virtqCreateModern num) fun r own' =>
      match r with
      | .error rc => rc ≠ .EOK ∧ own' = own
      | .ok rings => exists d a u, own' = ofMaps (ringMaps false num pagesize rings d a u) + own
    := by
  refine (mapPages_accounts _).bind fun r own' h => ?_
  cases r with
  | error rc => exact accounts_ret h
  | ok desc =>
      rcases h with ⟨d, rfl⟩
      refine (mapPages_accounts _).bind fun r own' h => ?_
      cases r with
      | error rc =>
          rcases h with ⟨_, rfl⟩
          refine (unmapPages_accounts ⟨desc, d, _⟩).bind fun _ own' h => ?_
          exact accounts_ret ⟨by decide, h.2⟩
      | ok avail =>
          rcases h with ⟨a, rfl⟩
          refine (mapPages_accounts _).bind fun r own' h => ?_
          cases r with
          | error rc =>
              rcases h with ⟨_, rfl⟩
              refine (unmapPages_accounts ⟨avail, a, _⟩).bind fun _ own' h => ?_
              rcases h with ⟨_, rfl⟩
              refine (unmapPages_accounts ⟨desc, d, _⟩).bind fun _ own' h => ?_
              exact accounts_ret ⟨by decide, h.2⟩
          | ok used =>
              rcases h with ⟨u, rfl⟩
              refine accounts_ret ⟨d, a, u, ?_⟩
              change _ = ofMaps [_, _, _] + own
              simp only [ofMaps_cons, ofMaps_nil]
              ac_rfl

theorem createRings_accounts (legacy : Bool) :
    HostAccounts ok pagesize own (virtqCreateRings legacy num) fun r own' =>
      match r with
      | .error rc => rc ≠ .EOK ∧ own' = own
      | .ok rings =>
          exists d a u, own' = ofMaps (ringMaps legacy num pagesize rings d a u) + own := by
  cases legacy with
  | true => exact createLegacy_accounts
  | false => exact createModern_accounts

theorem destroyRings_accounts (legacy : Bool) :
    HostAccounts ok pagesize (ofMaps (ringMaps legacy num pagesize rings d a u) + own)
      (virtqDestroyRings legacy num rings) fun rc own' => rc = .EOK ∧ own' = own := by
  cases legacy with
  | true =>
      refine (accounts_read (Q := fun p own' => p = pagesize ∧
        own' = ofMaps (ringMaps true num pagesize rings d a u) + own)
        fun h hpage => ⟨hpage, rfl⟩).bind fun p own' h => ?_
      rcases h with ⟨rfl, rfl⟩
      exact unmapPages_accounts ⟨rings.desc, d, _⟩
  | false =>
      have hown : ofMaps (ringMaps false num pagesize rings d a u) + own =
          ofMap ⟨rings.desc, d, (virtqDescMemSize num.toUInt64).toNat⟩ +
            (ofMap ⟨rings.avail, a, (virtqAvailMemSize num).toNat⟩ +
              (ofMap ⟨rings.used, u, (virtqUsedMemSize num).toNat⟩ + own)) := by
        change ofMaps [_, _, _] + own = _
        simp only [ofMaps_cons, ofMaps_nil]
        ac_rfl
      rw [hown]
      refine (unmapPages_accounts ⟨rings.desc, d, _⟩).bind fun rc own' h => ?_
      rcases h with ⟨rfl, rfl⟩
      rw [if_neg (not_not_intro rfl)]
      refine (unmapPages_accounts ⟨rings.avail, a, _⟩).bind fun rc own' h => ?_
      rcases h with ⟨rfl, rfl⟩
      rw [if_neg (not_not_intro rfl)]
      exact unmapPages_accounts ⟨rings.used, u, _⟩

theorem destroyRings_accounts_zero (hsize : PageSize pagesize) (legacy : Bool) :
    HostAccounts ok pagesize (ofMaps (ringMaps legacy num pagesize rings d a u) + own)
      (virtqDestroyRings legacy 0 rings) fun _ own' =>
        own' = ofMaps (ringsLeft legacy num pagesize rings d a u) + own := by
  cases legacy with
  | true =>
      refine (accounts_read (Q := fun p own' => p = pagesize ∧
        own' = ofMaps (ringMaps true num pagesize rings d a u) + own)
        fun h hpage => ⟨hpage, rfl⟩).bind fun p own' h => ?_
      rcases h with ⟨rfl, rfl⟩
      exact (unmapPages_accounts_start (n := ⟨rings.desc, d, _⟩)
        (virtqLegacyMemSize_zero_le hsize num)).conseq fun _ _ h => h.2
  | false =>
      refine (unmapPages_accounts_empty rings.desc).bind fun rc own' h => ?_
      rcases h with ⟨hrc, rfl⟩
      rw [if_pos hrc]
      exact accounts_ret rfl

theorem unwind_accounts (hsize : PageSize pagesize) (legacy : Bool) (block : Nat) :
    HostAccounts ok pagesize
      (ofMaps (ringMaps legacy num pagesize rings d a u) + (ofBlock block + own))
      (virtqCreateUnwind legacy rings block) fun _ own' =>
        own' = ofMaps (ringsLeft legacy num pagesize rings d a u) + own := by
  refine (destroyRings_accounts_zero hsize legacy).bind fun _ own' h => ?_
  rw [h, add_left_comm]
  exact freeBlock_accounts block

theorem ringOffset_accounts {n : Mapping} {maps : List Mapping} (hn : n ∈ maps) :
    HostAccounts ok pagesize (ofMaps maps + own) (pagesOffset n.vaddr) fun r own' =>
      own' = ofMaps maps + own ∧ forall p, r = .ok p -> p = n.paddr :=
  pagesOffset_accounts_start (Multiset.mem_add.mpr (Or.inl (Multiset.mem_coe.mpr hn)))

theorem descOffset_accounts (legacy : Bool) :
    HostAccounts ok pagesize (ofMaps (ringMaps legacy num pagesize rings d a u) + own)
      (pagesOffset rings.desc) fun r own' =>
        own' = ofMaps (ringMaps legacy num pagesize rings d a u) + own ∧
          forall p, r = .ok p -> p = d := by
  cases legacy with
  | true => exact ringOffset_accounts (n := ⟨rings.desc, d, _⟩) (List.mem_singleton.mpr rfl)
  | false => exact ringOffset_accounts (n := ⟨rings.desc, d, _⟩) (List.mem_cons_self ..)

theorem availOffset_accounts (legacy : Bool) :
    HostAccounts ok pagesize (ofMaps (ringMaps legacy num pagesize rings d a u) + own)
      (pagesOffset rings.avail) fun r own' =>
        own' = ofMaps (ringMaps legacy num pagesize rings d a u) + own ∧
          forall p, r = .ok p -> legacy = false -> p = a := by
  cases legacy with
  | true =>
      exact (pagesOffset_accounts _).conseq fun _ _ h => ⟨h, fun _ _ hl => (by cases hl)⟩
  | false =>
      refine (ringOffset_accounts (n := ⟨rings.avail, a, _⟩)
        (List.mem_cons_of_mem _ (List.mem_cons_self ..))).conseq fun _ _ h => ?_
      exact ⟨h.1, fun p hp _ => h.2 p hp⟩

theorem usedOffset_accounts (legacy : Bool) :
    HostAccounts ok pagesize (ofMaps (ringMaps legacy num pagesize rings d a u) + own)
      (pagesOffset rings.used) fun r own' =>
        own' = ofMaps (ringMaps legacy num pagesize rings d a u) + own ∧
          forall p, r = .ok p -> legacy = false -> p = u := by
  cases legacy with
  | true =>
      exact (pagesOffset_accounts _).conseq fun _ _ h => ⟨h, fun _ _ hl => (by cases hl)⟩
  | false =>
      refine (ringOffset_accounts (n := ⟨rings.used, u, _⟩)
        (List.mem_cons_of_mem _ (List.mem_cons_of_mem _ (List.mem_cons_self ..)))).conseq
        fun _ _ h => ?_
      exact ⟨h.1, fun p hp _ => h.2 p hp⟩

theorem ringMaps_congr {legacy : Bool} {d' a' u' : Nat} (hd : d' = d)
    (ha : legacy = false -> a' = a) (hu : legacy = false -> u' = u) :
    ringMaps legacy num pagesize rings d' a' u' = ringMaps legacy num pagesize rings d a u := by
  cases legacy with
  | true =>
      cases hd
      rfl
  | false => rw [hd, ha rfl, hu rfl]

end Rings

/-!
## Creation and destruction
-/

/-- What a failed `virtq_create` may leave: what its clean-up does not unmap of the rings,
and the free list, if its lock cannot be destroyed. -/
def LeftByCreate (legacy : Bool) (num : UInt16) (pagesize : UInt64) (left : Resources) :
    Prop :=
  exists maps blocks, left = ofMaps maps + blocks ∧
    (maps = [] ∨ exists rings d a u, maps = ringsLeft legacy num pagesize rings d a u) ∧
    (blocks = 0 ∨ exists block, blocks = ofBlock block)

theorem leftByCreate_zero (legacy : Bool) (num : UInt16) (pagesize : UInt64) :
    LeftByCreate legacy num pagesize 0 :=
  ⟨[], 0, rfl, Or.inl rfl, Or.inl rfl⟩

namespace VirtqObject

/-- The mappings of the rings of a queue. -/
def maps (pagesize : UInt64) (obj : VirtqObject) : List Mapping :=
  ringMaps obj.vq.legacy obj.vq.num pagesize obj.rings obj.vq.descPaddr obj.vq.availPaddr
    obj.vq.usedPaddr

/-- What a queue owns apart from the buffers of its descriptors. -/
def resources (pagesize : UInt64) (obj : VirtqObject) : Resources :=
  ofMaps (obj.maps pagesize) +
    (ofBlock obj.block + (ofBlock obj.extrasBlock + ofBlock obj.fifoBlock))

end VirtqObject

section Lifetime

variable {ok : Env -> Prop} {pagesize : UInt64} {own : Resources} {size : Nat}
  {legacy : Bool} {rings : VirtqRings} {d a u : Nat}

/-- The outcome of `virtq_create`. -/
def CreateOutcome (size : Nat) (legacy : Bool) (pagesize : UInt64) (own : Resources)
    (r : Rc × Option VirtqObject) (own' : Resources) : Prop :=
  match r with
  | (_, none) =>
      exists left, LeftByCreate legacy (UInt16.ofNat size) pagesize left ∧ own' = left + own
  | (_, some obj) => own' = obj.resources pagesize + own

theorem failed_accounts (hsize : PageSize pagesize) {block : Nat} {rc : Rc}
    {blocks : Resources} (hblocks : blocks = 0 ∨ exists b, blocks = ofBlock b) :
    HostAccounts ok pagesize
      (ofMaps (ringMaps legacy (UInt16.ofNat size) pagesize rings d a u) +
        (ofBlock block + (blocks + own)))
      ((virtqCreateUnwind legacy rings block).bind fun _ => Prog.ret (rc, none))
      (CreateOutcome size legacy pagesize own) := by
  refine (unwind_accounts hsize legacy block).bind fun _ own' h => accounts_ret ?_
  cases h
  exact ⟨_, ⟨_, blocks, rfl, Or.inr ⟨rings, d, a, u, rfl⟩, hblocks⟩,
    (add_assoc _ _ _).symm⟩

theorem unwound_accounts (hsize : PageSize pagesize) (block : Nat) (rc : Rc) :
    HostAccounts ok pagesize
      (ofMaps (ringMaps legacy (UInt16.ofNat size) pagesize rings d a u) +
        (ofBlock block + own))
      ((virtqCreateUnwind legacy rings block).bind fun _ => Prog.ret (rc, none))
      (CreateOutcome size legacy pagesize own) := by
  have h : HostAccounts ok pagesize
      (ofMaps (ringMaps legacy (UInt16.ofNat size) pagesize rings d a u) +
        (ofBlock block + (0 + own)))
      ((virtqCreateUnwind legacy rings block).bind fun _ => Prog.ret (rc, none))
      (CreateOutcome size legacy pagesize own) :=
    failed_accounts hsize (Or.inl rfl)
  rw [zero_add] at h
  exact h

theorem tables_unwound_accounts (hsize : PageSize pagesize)
    (block extras fifoBlock : Nat) (rc : Rc) :
    HostAccounts ok pagesize
      (ofBlock fifoBlock + (ofBlock extras +
        (ofMaps (ringMaps legacy (UInt16.ofNat size) pagesize rings d a u) +
          (ofBlock block + own))))
      ((fifoDestory fifoBlock).bind fun _ => (freeBlock extras).bind fun _ =>
        (virtqCreateUnwind legacy rings block).bind fun _ => Prog.ret (rc, none))
      (CreateOutcome size legacy pagesize own) := by
  refine (fifoDestory_accounts fifoBlock).bind fun rc' own' h => ?_
  rcases h with ⟨_, rfl⟩ | ⟨_, rfl⟩
  · exact (freeBlock_accounts extras).bind fun _ own' h => h ▸ unwound_accounts hsize block rc
  · rw [add_left_comm]
    refine (freeBlock_accounts extras).bind fun _ own' h => ?_
    rw [h, add_left_comm, add_left_comm (ofBlock fifoBlock) (ofBlock block)]
    exact failed_accounts hsize (Or.inr ⟨fifoBlock, rfl⟩)

theorem createTables_accounts (hsize : PageSize pagesize) {block d' a' u' : Nat} (hd : d' = d)
    (ha : legacy = false -> a' = a) (hu : legacy = false -> u' = u) :
    HostAccounts ok pagesize
      (ofMaps (ringMaps legacy (UInt16.ofNat size) pagesize rings d a u) +
        (ofBlock block + own))
      (virtqCreate.virtqCreateTables size legacy block rings d' a' u')
      (CreateOutcome size legacy pagesize own) := by
  unfold virtqCreate.virtqCreateTables
  refine allocBlock_accounts.bind fun r own' h => ?_
  cases r with
  | error rc =>
      rcases h with ⟨_, rfl⟩
      exact unwound_accounts hsize block rc
  | ok extras =>
      cases h
      refine (createFreeDescs_accounts size).bind fun r own' h => ?_
      cases r with
      | error rc =>
          rcases h with ⟨_, rfl⟩
          exact (freeBlock_accounts extras).bind fun _ own' h => h ▸ unwound_accounts hsize block rc
      | ok out =>
          rcases out with ⟨fifoBlock, fifo⟩
          cases h
          refine (fill_accounts size (0, fifo)).bind fun filled own' h => ?_
          cases h
          cases filled with
          | none => exact tables_unwound_accounts hsize block extras fifoBlock .EOK
          | some fifo' =>
              refine (ask_accounts _).bind fun rc own' h => ?_
              cases h
              by_cases hrc : rc ≠ .EOK
              · rw [if_pos hrc]
                exact tables_unwound_accounts hsize block extras fifoBlock rc
              · rw [if_neg hrc]
                refine accounts_ret ?_
                change _ = ofMaps (ringMaps legacy (UInt16.ofNat size) pagesize rings d' a' u')
                  + (ofBlock block + (ofBlock extras + ofBlock fifoBlock)) + own
                rw [ringMaps_congr hd ha hu]
                ac_rfl

theorem virtqCreate_accounts (hsize : PageSize pagesize) :
    HostAccounts ok pagesize own (virtqCreate size legacy)
      (CreateOutcome size legacy pagesize own) := by
  unfold virtqCreate
  refine allocBlock_accounts.bind fun r own' h => ?_
  cases r with
  | error rc =>
      rcases h with ⟨_, rfl⟩
      exact accounts_ret ⟨0, leftByCreate_zero _ _ _, (zero_add _).symm⟩
  | ok block =>
      cases h
      refine (createRings_accounts legacy).bind fun r own' h => ?_
      cases r with
      | error rc =>
          rcases h with ⟨_, rfl⟩
          refine (freeBlock_accounts block).bind fun _ own' h => accounts_ret ?_
          exact ⟨0, leftByCreate_zero _ _ _, h.trans (zero_add _).symm⟩
      | ok rings =>
          rcases h with ⟨d, a, u, rfl⟩
          refine (descOffset_accounts legacy).bind fun r own' h => ?_
          rcases h with ⟨rfl, hd⟩
          cases r with
          | error rc => exact unwound_accounts hsize block .minusOne
          | ok d' =>
              refine (availOffset_accounts legacy).bind fun r own' h => ?_
              rcases h with ⟨rfl, ha⟩
              cases r with
              | error rc => exact unwound_accounts hsize block .minusOne
              | ok a' =>
                  refine (usedOffset_accounts legacy).bind fun r own' h => ?_
                  rcases h with ⟨rfl, hu⟩
                  cases r with
                  | error rc => exact unwound_accounts hsize block .minusOne
                  | ok u' => exact createTables_accounts hsize (hd d' rfl) (ha a' rfl) (hu u' rfl)

/-- The outcome of `virtq_destroy`: everything is gone, or the lock of the free list or of
the queue keeps the blocks that would have been freed after it. -/
def DestroyOutcome (obj : VirtqObject) (own : Resources) (rc : Rc) (own' : Resources) : Prop :=
  (rc = .EOK ∧ own' = own) ∨
    (rc ≠ .EOK ∧ (own' = ofBlock obj.block + own ∨
      own' = ofBlock obj.fifoBlock + (ofBlock obj.block + own)))

theorem virtqDestroy_accounts (obj : VirtqObject) :
    HostAccounts ok pagesize (obj.resources pagesize + own) (virtqDestroy obj)
      (DestroyOutcome obj own) := by
  unfold VirtqObject.resources VirtqObject.maps
  rw [add_assoc]
  refine (destroyRings_accounts obj.vq.legacy).bind fun rc own' h => ?_
  rcases h with ⟨rfl, rfl⟩
  rw [if_neg (not_not_intro rfl)]
  have horder : ofBlock obj.block + (ofBlock obj.extrasBlock + ofBlock obj.fifoBlock) + own =
      ofBlock obj.extrasBlock + (ofBlock obj.fifoBlock + (ofBlock obj.block + own)) := by
    ac_rfl
  rw [horder]
  refine (freeBlock_accounts obj.extrasBlock).bind fun _ own' h => ?_
  cases h
  refine (fifoDestory_accounts obj.fifoBlock).bind fun rc own' h => ?_
  rcases h with ⟨rfl, rfl⟩ | ⟨hrc, rfl⟩
  · rw [if_neg (not_not_intro rfl)]
    refine (ask_accounts _).bind fun rc own' h => ?_
    cases h
    by_cases hrc : rc ≠ .EOK
    · rw [if_pos hrc]
      exact accounts_ret (Or.inr ⟨hrc, Or.inl rfl⟩)
    · rw [if_neg hrc]
      refine (freeBlock_accounts obj.block).bind fun _ own' h => ?_
      exact accounts_ret (Or.inl ⟨rfl, h⟩)
  · rw [if_pos hrc]
    exact accounts_ret (Or.inr ⟨hrc, Or.inr rfl⟩)

end Lifetime

end QnxVirtio
