import QnxVirtio.Virtq.Create

/-!
# Allocating and freeing a descriptor

What one `virtq_alloc_desc` and one `virtq_free_desc` do to the queue and to the
live mappings, on every path.
-/

namespace QnxVirtio

open Foundation

/-- Answers under which every spinlock is taken. -/
def LockOk (e : Env) : Prop :=
  e.lock = .EOK

theorem lockOk_succeedingEnvs (count page : Nat) :
    forall e, e ∈ succeedingEnvs count page -> LockOk e := by
  intro e he
  rcases List.mem_map.mp he with ⟨i, _, rfl⟩
  rfl

/-!
## Elementary updates
-/

namespace Queue

variable (q : Queue) (idx : UInt16) (f : VirtqDesc -> VirtqDesc)
  (g : DescExtras -> DescExtras)

@[simp] theorem updateDesc_mem : (q.updateDesc idx f).mem = q.mem := rfl
@[simp] theorem updateDesc_refused : (q.updateDesc idx f).refused = q.refused := rfl
@[simp] theorem updateDesc_num : (q.updateDesc idx f).vq.num = q.vq.num := rfl
@[simp] theorem updateDesc_freeDescs :
    (q.updateDesc idx f).vq.freeDescs = q.vq.freeDescs := rfl
@[simp] theorem updateDesc_descExtras :
    (q.updateDesc idx f).vq.descExtras = q.vq.descExtras := rfl
@[simp] theorem updateDesc_desc :
    (q.updateDesc idx f).vq.desc =
      Function.update q.vq.desc idx (f (q.vq.desc idx)) := rfl

@[simp] theorem updateExtras_mem : (q.updateExtras idx g).mem = q.mem := rfl
@[simp] theorem updateExtras_refused :
    (q.updateExtras idx g).refused = q.refused := rfl
@[simp] theorem updateExtras_num : (q.updateExtras idx g).vq.num = q.vq.num := rfl
@[simp] theorem updateExtras_freeDescs :
    (q.updateExtras idx g).vq.freeDescs = q.vq.freeDescs := rfl
@[simp] theorem updateExtras_desc : (q.updateExtras idx g).vq.desc = q.vq.desc := rfl
@[simp] theorem updateExtras_descExtras :
    (q.updateExtras idx g).vq.descExtras =
      Function.update q.vq.descExtras idx (g (q.vq.descExtras idx)) := rfl

end Queue

/-!
## The two operations
-/

/-- The mapping that the tables record for a descriptor. -/
def Virtq.buffer (vq : Virtq) (idx : UInt16) : Mapping where
  vaddr := (vq.descExtras idx).vaddr
  paddr := (vq.desc idx).addr
  len := (vq.desc idx).len.toNat

/-- The state after an operation that moved free descriptors at most. -/
structure Unchanged (q q' : Queue) : Prop where
  rings : SameRings q q'
  desc : q'.vq.desc = q.vq.desc
  descExtras : q'.vq.descExtras = q.vq.descExtras
  freeWf : q'.vq.FreeWf
  free : List.Perm q'.vq.freeList q.vq.freeList
  maps : List.Perm q'.mem.maps q.mem.maps
  refused : q'.refused = q.refused

/-- The state after the allocation of `idx`. -/
structure Allocated (len : UInt32) (idx : UInt16) (q q' : Queue) : Prop where
  rings : SameRings q q'
  freeWf : q'.vq.FreeWf
  freeList : q.vq.freeList = idx :: q'.vq.freeList
  desc : forall j, j ≠ idx -> q'.vq.desc j = q.vq.desc j
  descExtras : forall j, j ≠ idx -> q'.vq.descExtras j = q.vq.descExtras j
  len : (q'.vq.desc idx).len = len
  maps : q'.mem.maps = q'.vq.buffer idx :: q.mem.maps
  refused : q'.refused = q.refused

/-- The state after the allocation of `idx`, with the entries of the tables. -/
structure AllocatedCell (len : UInt32) (writable : Bool) (idx : UInt16) (q q' : Queue) :
    Prop extends Allocated len idx q q' where
  flags : (q'.vq.desc idx).flags = if writable then VIRTQ_DESC_F_WRITE else 0
  next : (q'.vq.desc idx).next = 0

def AllocPost (len : UInt32) (q q' : Queue) : Except Rc UInt16 -> Prop
  | .error rc => rc ≠ .EOK ∧ Unchanged q q'
  | .ok idx => Allocated len idx q q'

/-- The queue with another free-descriptor FIFO. -/
def Queue.withFreeDescs (q : Queue) (fifo : Fifo) : Queue :=
  { q with vq := { q.vq with freeDescs := fifo } }

@[simp] theorem Queue.withFreeDescs_mem (q : Queue) (fifo : Fifo) :
    (q.withFreeDescs fifo).mem = q.mem := rfl

@[simp] theorem Queue.withFreeDescs_refused (q : Queue) (fifo : Fifo) :
    (q.withFreeDescs fifo).refused = q.refused := rfl

@[simp] theorem Queue.withFreeDescs_num (q : Queue) (fifo : Fifo) :
    (q.withFreeDescs fifo).vq.num = q.vq.num := rfl

@[simp] theorem Queue.withFreeDescs_desc (q : Queue) (fifo : Fifo) :
    (q.withFreeDescs fifo).vq.desc = q.vq.desc := rfl

@[simp] theorem Queue.withFreeDescs_descExtras (q : Queue) (fifo : Fifo) :
    (q.withFreeDescs fifo).vq.descExtras = q.vq.descExtras := rfl

theorem SameRings.withFreeDescs {q q' : Queue} {fifo : Fifo}
    (h : SameRings q q') : SameRings q (q'.withFreeDescs fifo) :=
  ⟨h.num, h.availIdx, h.availRing, h.usedIdx, h.usedRing, h.lastSeen, h.published,
    h.retrieved⟩

theorem SameRings.withMem {q q' : Queue} {mem : Memory} (h : SameRings q q') :
    SameRings q { q' with mem := mem } :=
  ⟨h.num, h.availIdx, h.availRing, h.usedIdx, h.usedRing, h.lastSeen, h.published,
    h.retrieved⟩

theorem freeDescsGet_cases {ok : Env -> Prop} {q q' : Queue} {r : Except Rc UInt16}
    (hrun : Prog.Runs ok q freeDescsGet r q') (hwf : q.vq.FreeWf) :
    (exists rc, r = .error rc ∧ rc ≠ .EOK ∧ q' = q) ∨
      exists idx fifo, r = .ok idx ∧ q' = q.withFreeDescs fifo ∧
        q'.vq.FreeWf ∧ q.vq.freeList = idx :: q'.vq.freeList := by
  rcases Prog.runs_action_iff.mp hrun with ⟨e, _, hf⟩
  by_cases hlock : e.lock = .EOK
  · rw [hlock] at hf
    rcases hwf.get_cases with
      ⟨_, hget⟩ | ⟨elem, fifo, rest, hget, hlist, hwf', hrest⟩
    · rw [hget] at hf
      cases hf
      exact Or.inl ⟨.ENOENT, rfl, by decide, rfl⟩
    · rw [hget] at hf
      cases hf
      refine Or.inr ⟨decode16 elem, fifo, rfl, rfl, hwf', ?_⟩
      rw [hlist, hrest]
  · simp only [fifoGet, ne_eq, hlock, not_false_eq_true, if_true] at hf
    cases hf
    exact Or.inl ⟨e.lock, rfl, hlock, rfl⟩

theorem freeDescsPut_runs {q q' : Queue} {idx : UInt16} {rc : Rc}
    (hrun : Prog.Runs LockOk q (freeDescsPut idx) rc q') (hwf : q.vq.FreeWf)
    (hroom : q.vq.freeList.length < q.vq.num.toNat) :
    rc = .EOK ∧ (exists fifo, q' = q.withFreeDescs fifo) ∧ q'.vq.FreeWf ∧
      q'.vq.freeList = q.vq.freeList ++ [idx] := by
  rcases Prog.runs_action_iff.mp hrun with ⟨e, hlock, hf⟩
  change e.lock = .EOK at hlock
  rcases hwf.put_spec idx hroom with ⟨fifo, hput, hwf', hlist⟩
  simp only [hlock, hput] at hf
  cases hf
  exact ⟨rfl, ⟨fifo, rfl⟩, hwf', hlist⟩

theorem unmapBuffer_runs {q q' : Queue} {v : Nat} {len : UInt32} {rc : Rc}
    {ok : Env -> Prop} (hrun : Prog.Runs ok q (unmapBuffer v len) rc q') :
    rc = (munmap v len.toNat q.mem).1 ∧
      q' = { q with mem := (munmap v len.toNat q.mem).2 } := by
  rcases Prog.runs_action_iff.mp hrun with ⟨e, _, hf⟩
  cases hf
  exact ⟨rfl, rfl⟩

theorem setDesc_runs {ok : Env -> Prop} {α : Type} {q q' : Queue} {idx : UInt16}
    {f : VirtqDesc -> VirtqDesc} {k : Unit -> Prog Env Queue α} {a : α}
    (hrun : Prog.Runs ok q ((setDesc idx f).bind k) a q') :
    Prog.Runs ok (q.updateDesc idx f) (k ()) a q' := by
  rcases Prog.runs_bind_iff.mp hrun with ⟨_, q1, hset, hrest⟩
  rcases Prog.runs_modify_iff.mp hset with ⟨_, rfl⟩
  exact hrest

theorem setExtras_runs {ok : Env -> Prop} {α : Type} {q q' : Queue} {idx : UInt16}
    {f : DescExtras -> DescExtras} {k : Unit -> Prog Env Queue α} {a : α}
    (hrun : Prog.Runs ok q ((setExtras idx f).bind k) a q') :
    Prog.Runs ok (q.updateExtras idx f) (k ()) a q' := by
  rcases Prog.runs_bind_iff.mp hrun with ⟨_, q1, hset, hrest⟩
  rcases Prog.runs_modify_iff.mp hset with ⟨_, rfl⟩
  exact hrest

theorem storeCell_runs {ok : Env -> Prop} {len : UInt32} {writable : Bool}
    {idx : UInt16} {fifo : Fifo} {q q' : Queue} {v p : Nat} {r : Except Rc UInt16}
    {hlen : 0 < len.toNat}
    {hfresh : forall n, n ∈ q.mem.maps -> Mapping.Apart ⟨v, p, len.toNat⟩ n}
    (hwf : (q.withFreeDescs fifo).vq.FreeWf)
    (hfree : q.vq.freeList = idx :: (q.withFreeDescs fifo).vq.freeList)
    (hrun : Prog.Runs ok
      { q.withFreeDescs fifo with mem := q.mem.extend ⟨v, p, len.toNat⟩ hlen hfresh } (do
        setExtras idx fun x => { x with vaddr := v }
        setExtras idx fun x => { x with context := none }
        setDesc idx fun d => { d with addr := p }
        setDesc idx fun d => { d with len := len }
        setDesc idx fun d =>
          { d with flags := if writable then VIRTQ_DESC_F_WRITE else 0 }
        setDesc idx fun d => { d with next := 0 }
        pure (.ok idx)) r q') : r = .ok idx ∧ AllocatedCell len writable idx q q' := by
  have hrest := setExtras_runs (setExtras_runs hrun) |> setDesc_runs
    |> setDesc_runs |> setDesc_runs |> setDesc_runs
  rcases Prog.runs_ret_iff.mp hrest with ⟨rfl, rfl⟩
  refine ⟨rfl, ?_⟩
  constructor
  · constructor
    case rings =>
      exact (SameRings.refl q).withFreeDescs.withMem.updateExtras.updateExtras
        |>.updateDesc |>.updateDesc |>.updateDesc |>.updateDesc
    case freeWf => exact hwf.congr (by simp) (by simp)
    case freeList =>
      rw [hfree]
      congr 1
    case desc =>
      intro k hk
      simp [Function.update_of_ne hk]
    case descExtras =>
      intro k hk
      simp [Function.update_of_ne hk]
    case len => simp
    case maps => simp [Virtq.buffer]
    case refused => simp
  · simp
  · simp

theorem virtqAllocDesc_runs {len : UInt32} {writable : Bool} {q q' : Queue}
    {r : Except Rc UInt16}
    (hrun : Prog.Runs LockOk q (virtqAllocDesc len writable) r q')
    (hwf : q.vq.FreeWf) (hlen : q.vq.freeList.length <= q.vq.num.toNat) :
    AllocPost len q q' r := by
  unfold virtqAllocDesc at hrun
  rcases Prog.runs_bind_iff.mp hrun with ⟨got, q1, hget, hrest⟩
  rcases freeDescsGet_cases hget hwf with
    ⟨rc, rfl, hrc, rfl⟩ | ⟨idx, fifo, rfl, rfl, hwf1, hlist⟩
  · rcases Prog.runs_ret_iff.mp hrest with ⟨rfl, rfl⟩
    exact ⟨hrc, .refl _, rfl, rfl, hwf, List.Perm.refl _, List.Perm.refl _,
      rfl⟩
  · have hroom : (q.withFreeDescs fifo).vq.freeList.length <
        (q.withFreeDescs fifo).vq.num.toNat := by
      change _ < q.vq.num.toNat
      rw [hlist, List.length_cons] at hlen
      omega
    rcases Prog.runs_bind_iff.mp hrest with ⟨mapped, q2, hmap, hrest⟩
    rcases Prog.runs_action_iff.mp hmap with ⟨e, _, hf⟩
    rcases Option.map_eq_some_iff.mp hf with ⟨⟨out, mem'⟩, hmmap, hout⟩
    cases hout
    rcases mmap64_cases hmmap with
      ⟨rc, rfl, hrc, rfl⟩ | ⟨v, p, hpos, hfresh, rfl, hv, rfl⟩
    · -- the mapping failed: the descriptor goes back to the end of the FIFO
      rcases Prog.runs_bind_iff.mp hrest with ⟨_, q3, hput, hrest⟩
      rcases Prog.runs_ret_iff.mp hrest with ⟨rfl, rfl⟩
      rcases freeDescsPut_runs hput hwf1 hroom with
        ⟨_, ⟨fifo', rfl⟩, hwf', hlist'⟩
      refine ⟨hrc, (SameRings.refl q).withFreeDescs.withMem.withFreeDescs, rfl, rfl,
        hwf', ?_, List.Perm.refl _, rfl⟩
      rw [hlist', hlist]
      exact List.perm_append_singleton _ _
    · rcases Prog.runs_bind_iff.mp hrest with ⟨offset, q3, hoff, hrest⟩
      rcases Prog.runs_action_iff.mp hoff with ⟨e', _, hf'⟩
      simp only [Option.some.injEq, Prod.mk.injEq] at hf'
      rcases hf' with ⟨hmem, rfl⟩
      cases offset with
      | error rc =>
          -- the address lookup failed: the buffer is unmapped again
          rcases Prog.runs_bind_iff.mp hrest with ⟨_, q4, hunmap, hrest⟩
          rcases Prog.runs_bind_iff.mp hrest with ⟨_, q5, hput, hrest⟩
          rcases Prog.runs_ret_iff.mp hrest with ⟨rfl, rfl⟩
          rcases unmapBuffer_runs hunmap with ⟨_, rfl⟩
          rcases freeDescsPut_runs hput hwf1 hroom with
            ⟨_, ⟨fifo', rfl⟩, hwf', hlist'⟩
          refine ⟨memOffset64_error hmem,
            (SameRings.refl q).withFreeDescs.withMem.withMem.withFreeDescs, rfl, rfl,
            hwf', ?_, ?_, rfl⟩
          · rw [hlist', hlist]
            exact List.perm_append_singleton _ _
          · simp only [munmap, if_neg (Nat.ne_of_gt hpos)]
            exact Memory.release_perm _ (n := ⟨v, p, len.toNat⟩) (List.Perm.refl _)
      | ok paddr =>
          have hpaddr : paddr = p :=
            memOffset64_extend (n := ⟨v, p, len.toNat⟩) hmem
          subst hpaddr
          rcases storeCell_runs hwf1 hlist hrest with ⟨rfl, hcell⟩
          exact hcell.toAllocated

/-- The state after a free of `idx`. -/
structure Freed (idx : UInt16) (q q' : Queue) : Prop where
  len_ne : (q.vq.desc idx).len ≠ 0
  rings : SameRings q q'
  freeWf : q'.vq.FreeWf
  freeList : q'.vq.freeList = q.vq.freeList ++ [idx]
  desc : forall j, j ≠ idx -> q'.vq.desc j = q.vq.desc j
  descExtras : forall j, j ≠ idx -> q'.vq.descExtras j = q.vq.descExtras j
  len : (q'.vq.desc idx).len = 0
  vaddr : (q'.vq.descExtras idx).vaddr = 0
  maps : q'.mem =
    q.mem.release (q.vq.descExtras idx).vaddr (q.vq.desc idx).len.toNat
  refused : q'.refused = q.refused

theorem virtqFreeDesc_empty {ok : Env -> Prop} {idx : UInt16} {q q' : Queue} {rc : Rc}
    (hrun : Prog.Runs ok q (virtqFreeDesc idx) rc q') (hlen : (q.vq.desc idx).len = 0) :
    rc ≠ .EOK ∧ q' = q := by
  unfold virtqFreeDesc at hrun
  rcases Prog.runs_bind_iff.mp hrun with ⟨v, q1, hread, hrest⟩
  rcases Prog.runs_read_iff.mp hread with ⟨_, rfl, rfl⟩
  rcases Prog.runs_bind_iff.mp hrest with ⟨len, q2, hread, hrest⟩
  rcases Prog.runs_read_iff.mp hread with ⟨_, rfl, rfl⟩
  rcases Prog.runs_bind_iff.mp hrest with ⟨rc1, q3, hunmap, hrest⟩
  rcases unmapBuffer_runs hunmap with ⟨rfl, rfl⟩
  have hmunmap : munmap (q2.vq.descExtras idx).vaddr
      (q2.vq.desc idx).len.toNat q2.mem = (.minusOne, q2.mem) := by
    simp [munmap, hlen]
  rw [hmunmap] at hrest
  rcases Prog.runs_ret_iff.mp hrest with ⟨rfl, rfl⟩
  exact ⟨by simp, rfl⟩

def FreePost (idx : UInt16) (q q' : Queue) (rc : Rc) : Prop :=
  (rc ≠ .EOK ∧ q' = q) ∨ (rc = .EOK ∧ Freed idx q q')

theorem virtqFreeDesc_runs {idx : UInt16} {q q' : Queue} {rc : Rc}
    (hrun : Prog.Runs LockOk q (virtqFreeDesc idx) rc q') (hwf : q.vq.FreeWf)
    (hroom : (q.vq.desc idx).len ≠ 0 -> q.vq.freeList.length < q.vq.num.toNat) :
    FreePost idx q q' rc := by
  by_cases hlen : (q.vq.desc idx).len = 0
  · exact Or.inl (virtqFreeDesc_empty hrun hlen)
  · unfold virtqFreeDesc at hrun
    rcases Prog.runs_bind_iff.mp hrun with ⟨v, q1, hread, hrest⟩
    rcases Prog.runs_read_iff.mp hread with ⟨_, rfl, rfl⟩
    rcases Prog.runs_bind_iff.mp hrest with ⟨len, q2, hread, hrest⟩
    rcases Prog.runs_read_iff.mp hread with ⟨_, rfl, rfl⟩
    rcases Prog.runs_bind_iff.mp hrest with ⟨rc1, q3, hunmap, hrest⟩
    rcases unmapBuffer_runs hunmap with ⟨rfl, rfl⟩
    have hpos : (q2.vq.desc idx).len.toNat ≠ 0 := by
      intro h0
      exact hlen (UInt32.toNat_inj.mp h0)
    rw [munmap, if_neg hpos] at hrest
    have hrest := setExtras_runs (setExtras_runs hrest) |> setDesc_runs
      |> setDesc_runs |> setDesc_runs |> setDesc_runs
    rcases freeDescsPut_runs hrest (hwf.congr (by simp) (by simp))
        (by
          simpa [Virtq.freeList] using hroom hlen) with
      ⟨rfl, ⟨fifo, rfl⟩, hwf', hlist⟩
    right
    refine ⟨rfl, hlen, ?_, hwf', ?_, ?_, ?_, by simp, by simp, by simp, by simp⟩
    · exact (SameRings.refl q2).withMem.updateExtras.updateExtras
        |>.updateDesc |>.updateDesc |>.updateDesc |>.updateDesc |>.withFreeDescs
    · rw [hlist]
      congr 1
    · intro j hj
      simp [Function.update_of_ne hj]
    · intro j hj
      simp [Function.update_of_ne hj]

end QnxVirtio
