import QnxVirtio.Foundation.Watch
import QnxVirtio.Virtq.Conservation

/-!
# Giving descriptors back

A descriptor goes back to the free list under a spinlock, and nobody looks at the result.
When the spinlock is not granted, the descriptor is neither free nor allocated any more.
-/

namespace QnxVirtio

open Foundation

variable {V : Type}

/-!
## Watched operations
-/

/-- A descriptor goes back; what is noted is whether the spinlock was granted. -/
def watchedPut (note : Rc -> V) (idx : UInt16) : Prog Env (Watched Queue V) Rc :=
  Prog.asked (fun e => [note e.lock]) (freeDescsPut idx)

def watchedAllocDesc (note : Rc -> V) (len : UInt32) (writable : Bool) :
    Prog Env (Watched Queue V) (Except Rc UInt16) := do
  match <- Prog.silent freeDescsGet with
  | .error rc => pure (.error rc)
  | .ok idx =>
      match <- Prog.silent (mapBuffer len) with
      | .error rc =>
          let _ <- watchedPut note idx
          pure (.error rc)
      | .ok vaddr =>
          match <- Prog.silent (bufferOffset vaddr) with
          | .error rc =>
              let _ <- Prog.silent (unmapBuffer vaddr len)
              let _ <- watchedPut note idx
              pure (.error rc)
          | .ok paddr =>
              Prog.silent do
                setExtras idx fun x => { x with vaddr := vaddr }
                setExtras idx fun x => { x with context := none }
                setDesc idx fun d => { d with addr := paddr }
                setDesc idx fun d => { d with len := len }
                setDesc idx fun d =>
                  { d with flags := if writable then VIRTQ_DESC_F_WRITE else 0 }
                setDesc idx fun d => { d with next := 0 }
                pure (.ok idx)

def watchedFreeDesc (note : Rc -> V) (idx : UInt16) : Prog Env (Watched Queue V) Rc := do
  let vaddr <- Prog.silent (Prog.read fun q => (q.vq.descExtras idx).vaddr)
  let len <- Prog.silent (Prog.read fun q => (q.vq.desc idx).len)
  let rc <- Prog.silent (unmapBuffer vaddr len)
  if rc ≠ .EOK then pure rc
  else
    Prog.silent do
      setExtras idx fun x => { x with vaddr := 0 }
      setExtras idx fun x => { x with context := none }
      setDesc idx fun d => { d with addr := 0 }
      setDesc idx fun d => { d with len := 0 }
      setDesc idx fun d => { d with flags := 0 }
      setDesc idx fun d => { d with next := 0 }
    watchedPut note idx

theorem watches_allocDesc (note : Rc -> V) (len : UInt32) (writable : Bool) :
    Prog.Watches (virtqAllocDesc len writable) (watchedAllocDesc note len writable) := by
  refine (Prog.watches_silent _).bind fun got => ?_
  cases got with
  | error rc => exact Prog.Watches.ret _
  | ok idx =>
      refine (Prog.watches_silent _).bind fun mapped => ?_
      cases mapped with
      | error rc => exact (Prog.watches_asked _ _).bind fun _ => Prog.Watches.ret _
      | ok vaddr =>
          refine (Prog.watches_silent _).bind fun offset => ?_
          cases offset with
          | error rc =>
              refine (Prog.watches_silent _).bind fun _ => ?_
              exact (Prog.watches_asked _ _).bind fun _ => Prog.Watches.ret _
          | ok paddr => exact Prog.watches_silent _

theorem watches_freeDesc (note : Rc -> V) (idx : UInt16) :
    Prog.Watches (virtqFreeDesc idx) (watchedFreeDesc note idx) := by
  refine (Prog.watches_silent _).bind fun vaddr => ?_
  refine (Prog.watches_silent _).bind fun len => ?_
  refine (Prog.watches_silent _).bind fun rc => ?_
  split
  · exact Prog.Watches.ret _
  · exact (Prog.watches_silent (do
      setExtras idx fun x => { x with vaddr := 0 }
      setExtras idx fun x => { x with context := none }
      setDesc idx fun d => { d with addr := 0 }
      setDesc idx fun d => { d with len := 0 }
      setDesc idx fun d => { d with flags := 0 }
      setDesc idx fun d => { d with next := 0 })).bind fun _ => Prog.watches_asked _ _

/-!
## What they do
-/

/-- The descriptor is in the free list again if the spinlock was granted. -/
structure PutBack (lock : Rc) (idx : UInt16) (q q' : Queue) : Prop where
  rings : SameRings q q'
  desc : q'.vq.desc = q.vq.desc
  descExtras : q'.vq.descExtras = q.vq.descExtras
  mem : q'.mem = q.mem
  freeWf : q'.vq.FreeWf
  freeList : q'.vq.freeList = q.vq.freeList ++ if lock = .EOK then [idx] else []

section Runs

variable {σ : Nat -> Env} {i j : Nat} {note : Rc -> V} {w w' : Watched Queue V}

theorem watchedPut_runsOn {idx : UInt16} {rc : Rc}
    (hrun : Prog.RunsOn σ i w (watchedPut note idx) rc w' j) (hwf : w.state.vq.FreeWf)
    (hroom : w.state.vq.freeList.length < w.state.vq.num.toNat) : exists lock,
      w'.events = w.events ++ [note lock] ∧ PutBack lock idx w.state w'.state := by
  rcases Prog.runsOn_asked_iff.mp hrun with ⟨hput, hevents⟩
  refine ⟨(σ i).lock, hevents, ?_⟩
  have hf := (Prog.runsOn_action_iff.mp hput).1
  by_cases hlock : (σ i).lock = .EOK
  · rcases hwf.put_spec idx hroom with ⟨fifo, hfifo, hwf', hlist⟩
    simp only [hlock, hfifo] at hf
    injection hf with hf
    injection hf with _ hstate
    rw [← hstate, hlock]
    exact ⟨(SameRings.refl _).withFreeDescs, rfl, rfl, rfl, hwf', hlist⟩
  · simp only [fifoPut, ne_eq, hlock, not_false_eq_true, if_true] at hf
    injection hf with hf
    injection hf with _ hstate
    rw [← hstate]
    refine ⟨⟨rfl, rfl, rfl, rfl, rfl, rfl, rfl, rfl⟩, rfl, rfl, rfl, hwf, ?_⟩
    rw [if_neg hlock, List.append_nil]

/-- The queue after steps that were undone.  Each spinlock that was not granted has cost
a descriptor. -/
structure Undone (locks : List Rc) (q q' : Queue) : Prop where
  rings : SameRings q q'
  freeWf : q'.vq.FreeWf
  free : exists lost : List UInt16, (lost ++ q'.vq.freeList).Perm q.vq.freeList ∧
    lost.length = locks.countP fun lock => decide (lock ≠ .EOK)
  maps : q'.mem.maps.Perm q.mem.maps

/-- The descriptor tables are untouched, too. -/
structure AllocUndone (locks : List Rc) (q q' : Queue) : Prop extends
    Undone locks q q' where
  desc : q'.vq.desc = q.vq.desc
  descExtras : q'.vq.descExtras = q.vq.descExtras

def AllocOutcome (note : Rc -> V) (len : UInt32) (writable : Bool)
    (w w' : Watched Queue V) : Except Rc UInt16 -> Prop
  | .error rc => rc ≠ .EOK ∧ exists locks : List Rc,
      w'.events = w.events ++ locks.map note ∧ AllocUndone locks w.state w'.state
  | .ok idx => w'.events = w.events ∧ AllocatedCell len writable idx w.state w'.state

theorem PutBack.undone {lock : Rc} {idx : UInt16} {q q1 q2 : Queue}
    (hput : PutBack lock idx q1 q2) (hfree : q.vq.freeList = idx :: q1.vq.freeList)
    (hrings : SameRings q q1) (hmaps : q1.mem.maps.Perm q.mem.maps)
    (hdesc : q1.vq.desc = q.vq.desc) (hextras : q1.vq.descExtras = q.vq.descExtras) :
    AllocUndone [lock] q q2 where
  rings := hrings.trans hput.rings
  freeWf := hput.freeWf
  free := by
    by_cases hlock : lock = .EOK
    · refine ⟨[], ?_, by simp [hlock]⟩
      rw [hput.freeList, if_pos hlock, hfree]
      exact List.perm_append_singleton _ _
    · refine ⟨[idx], ?_, by simp [hlock]⟩
      rw [hput.freeList, if_neg hlock, hfree, List.append_nil]
      exact List.Perm.refl _
  maps := by
    rw [hput.mem]
    exact hmaps
  desc := hput.desc.trans hdesc
  descExtras := hput.descExtras.trans hextras

theorem AllocUndone.refl {q : Queue} (hwf : q.vq.FreeWf) : AllocUndone [] q q where
  rings := SameRings.refl q
  freeWf := hwf
  free := ⟨[], List.Perm.refl _, rfl⟩
  maps := List.Perm.refl _
  desc := rfl
  descExtras := rfl

theorem watchedAllocDesc_runsOn {len : UInt32} {writable : Bool} {r : Except Rc UInt16}
    (hrun : Prog.RunsOn σ i w (watchedAllocDesc note len writable) r w' j)
    (hwf : w.state.vq.FreeWf)
    (hlen : w.state.vq.freeList.length <= w.state.vq.num.toNat) :
    AllocOutcome note len writable w w' r := by
  rcases w with ⟨q, es⟩
  rcases Prog.runsOn_bind_iff.mp hrun with ⟨got, w1, _, hget, hrest⟩
  rcases Prog.runsOn_silent hget with ⟨hgot, hevents1⟩
  rcases w1 with ⟨q1, es1⟩
  dsimp only at hevents1 hwf hlen hgot
  subst hevents1
  rcases freeDescsGet_cases hgot.runs hwf with
    ⟨rc, rfl, hrc, rfl⟩ | ⟨idx, fifo, rfl, rfl, hwf1, hfree⟩
  · rcases Prog.runsOn_ret_iff.mp hrest with ⟨rfl, rfl, _⟩
    exact ⟨hrc, [], by simp, AllocUndone.refl hwf⟩
  · have hroom : (q.withFreeDescs fifo).vq.freeList.length <
        (q.withFreeDescs fifo).vq.num.toNat := by
      change _ < q.vq.num.toNat
      rw [hfree, List.length_cons] at hlen
      exact hlen
    rcases Prog.runsOn_bind_iff.mp hrest with ⟨mapped, w2, _, hmap, hrest⟩
    rcases Prog.runsOn_silent hmap with ⟨hmapped, hevents2⟩
    rcases w2 with ⟨q2, es2⟩
    dsimp only at hevents2 hmapped
    subst hevents2
    rcases Prog.runs_action_iff.mp hmapped.runs with ⟨e, _, hf⟩
    rcases Option.map_eq_some_iff.mp hf with ⟨⟨out, mem'⟩, hmmap, hout⟩
    cases hout
    rcases mmap64_cases hmmap with
      ⟨rc, rfl, hrc, rfl⟩ | ⟨v, p, hpos, hfresh, rfl, hv, rfl⟩
    · -- the mapping failed
      rcases Prog.runsOn_bind_iff.mp hrest with ⟨_, w3, _, hput, hrest⟩
      rcases Prog.runsOn_ret_iff.mp hrest with ⟨rfl, rfl, _⟩
      rcases watchedPut_runsOn hput hwf1 hroom with ⟨lock, hevents, hput⟩
      refine ⟨hrc, [lock], hevents, ?_⟩
      exact hput.undone hfree (SameRings.refl q).withFreeDescs.withMem
        (List.Perm.refl _) rfl rfl
    · rcases Prog.runsOn_bind_iff.mp hrest with ⟨offset, w3, _, hoff, hrest⟩
      rcases Prog.runsOn_silent hoff with ⟨hoffset, hevents3⟩
      rcases w3 with ⟨q3, es3⟩
      dsimp only at hevents3 hoffset
      subst hevents3
      rcases Prog.runs_action_iff.mp hoffset.runs with ⟨e', _, hf'⟩
      simp only [Option.some.injEq, Prod.mk.injEq] at hf'
      rcases hf' with ⟨hmem, rfl⟩
      cases offset with
      | error rc =>
          -- the address lookup failed: the buffer is unmapped again
          rcases Prog.runsOn_bind_iff.mp hrest with ⟨_, w4, _, hunmap, hrest⟩
          rcases Prog.runsOn_silent hunmap with ⟨hunmapped, hevents4⟩
          rcases unmapBuffer_runs hunmapped.runs with ⟨_, hq4⟩
          rcases w4 with ⟨q4, es4⟩
          dsimp only at hevents4 hq4
          subst hevents4 hq4
          rcases Prog.runsOn_bind_iff.mp hrest with ⟨_, w5, _, hput, hrest⟩
          rcases Prog.runsOn_ret_iff.mp hrest with ⟨rfl, rfl, _⟩
          rcases watchedPut_runsOn hput hwf1 hroom with ⟨lock, hevents, hput⟩
          refine ⟨memOffset64_error hmem, [lock], hevents, ?_⟩
          refine hput.undone hfree
            (SameRings.refl q).withFreeDescs.withMem.withMem ?_ rfl rfl
          simp only [munmap, if_neg (Nat.ne_of_gt hpos)]
          exact Memory.release_perm _ (n := ⟨v, p, len.toNat⟩) (List.Perm.refl _)
      | ok paddr =>
          have hpaddr : paddr = p :=
            memOffset64_extend (n := ⟨v, p, len.toNat⟩) hmem
          subst hpaddr
          rcases Prog.runsOn_silent hrest with ⟨hstores, hevents⟩
          rcases storeCell_runs hwf1 hfree hstores.runs with ⟨rfl, hcell⟩
          exact ⟨hevents, hcell⟩

/-- The buffer is unmapped, and the descriptor is free again if the spinlock was
granted. -/
structure Released (lock : Rc) (idx : UInt16) (q q' : Queue) : Prop where
  rings : SameRings q q'
  freeWf : q'.vq.FreeWf
  freeList : q'.vq.freeList = q.vq.freeList ++ if lock = .EOK then [idx] else []
  desc : forall k, k ≠ idx -> q'.vq.desc k = q.vq.desc k
  descExtras : forall k, k ≠ idx -> q'.vq.descExtras k = q.vq.descExtras k
  len : (q'.vq.desc idx).len = 0
  maps : q'.mem = q.mem.release (q.vq.descExtras idx).vaddr (q.vq.desc idx).len.toNat

theorem watchedFreeDesc_runsOn {idx : UInt16} {rc : Rc}
    (hrun : Prog.RunsOn σ i w (watchedFreeDesc note idx) rc w' j)
    (hwf : w.state.vq.FreeWf) (hlen : (w.state.vq.desc idx).len ≠ 0)
    (hroom : w.state.vq.freeList.length < w.state.vq.num.toNat) : exists lock,
      w'.events = w.events ++ [note lock] ∧ Released lock idx w.state w'.state := by
  rcases w with ⟨q, es⟩
  dsimp only at hwf hlen hroom ⊢
  rcases Prog.runsOn_bind_iff.mp hrun with ⟨v, ⟨q1, es1⟩, _, hread, hrest⟩
  rcases Prog.runsOn_silent hread with ⟨hvaddr, hevents1⟩
  rcases Prog.runsOn_read_iff.mp hvaddr with ⟨rfl, hq1, _⟩
  dsimp only at hevents1 hq1
  subst hevents1 hq1
  rcases Prog.runsOn_bind_iff.mp hrest with ⟨n, ⟨q2, es2⟩, _, hread, hrest⟩
  rcases Prog.runsOn_silent hread with ⟨hread, hevents2⟩
  rcases Prog.runsOn_read_iff.mp hread with ⟨rfl, hq2, _⟩
  dsimp only at hevents2 hq2
  subst hevents2 hq2
  rcases Prog.runsOn_bind_iff.mp hrest with ⟨rc1, ⟨q3, es3⟩, _, hunmap, hrest⟩
  rcases Prog.runsOn_silent hunmap with ⟨hunmapped, hevents3⟩
  rcases unmapBuffer_runs hunmapped.runs with ⟨rfl, hq3⟩
  dsimp only at hevents3 hq3
  subst hevents3
  have hpos : (q2.vq.desc idx).len.toNat ≠ 0 :=
    fun hzero => hlen (UInt32.toNat_inj.mp hzero)
  rw [munmap, if_neg hpos] at hq3 hrest
  subst hq3
  rcases Prog.runsOn_bind_iff.mp hrest with ⟨_, ⟨q4, es4⟩, _, hclear, hput⟩
  rcases Prog.runsOn_silent hclear with ⟨hcleared, hevents4⟩
  dsimp only at hevents4
  subst hevents4
  have hstores := setExtras_runs (setExtras_runs hcleared.runs) |> setDesc_runs
    |> setDesc_runs |> setDesc_runs
  rcases Prog.runs_modify_iff.mp hstores with ⟨_, hq4⟩
  dsimp only at hq4
  have hfree : q4.vq.freeDescs = q2.vq.freeDescs := by
    rw [hq4]
    rfl
  have hlist := Virtq.freeList_congr hfree
  have hnum : q4.vq.num = q2.vq.num := by
    rw [hq4]
    rfl
  rcases watchedPut_runsOn hput (hwf.congr hfree hnum) (by
    rw [hlist, hnum]
    exact hroom) with ⟨lock, hevents, hback⟩
  refine ⟨lock, hevents, ?_, hback.freeWf, ?_, ?_, ?_, ?_, ?_⟩
  · refine SameRings.trans ?_ hback.rings
    dsimp only
    rw [hq4]
    exact (SameRings.refl q2).withMem.updateExtras.updateExtras
      |>.updateDesc |>.updateDesc |>.updateDesc |>.updateDesc
  · rw [hback.freeList, hlist]
  · intro k hk
    rw [hback.desc, hq4]
    simp [Function.update_of_ne hk]
  · intro k hk
    rw [hback.descExtras, hq4]
    simp [Function.update_of_ne hk]
  · rw [hback.desc, hq4]
    simp
  · rw [hback.mem, hq4]
    rfl

end Runs

/-!
## Undone allocations
-/

section Undone

variable {locks : List Rc} {q q' : Queue}

theorem AllocatedCell.undone {len : UInt32} {writable : Bool} {idx : UInt16} {lock : Rc}
    {q1 q2 q3 : Queue} (halloc : AllocatedCell len writable idx q q1)
    (hundone : AllocUndone locks q1 q2) (hrelease : Released lock idx q2 q3) :
    Undone (locks ++ [lock]) q q3 where
  rings := (halloc.rings.trans hundone.rings).trans hrelease.rings
  freeWf := hrelease.freeWf
  free := by
    rcases hundone.free with ⟨lost, hperm, hlength⟩
    by_cases hlock : lock = .EOK
    · refine ⟨lost, ?_, by simp [hlock, hlength]⟩
      rw [hrelease.freeList, if_pos hlock, halloc.freeList, ← List.append_assoc]
      exact (List.perm_append_singleton _ _).trans (hperm.cons idx)
    · refine ⟨idx :: lost, ?_, by simp [hlock, hlength]⟩
      rw [hrelease.freeList, if_neg hlock, halloc.freeList, List.append_nil]
      exact hperm.cons idx
  maps := by
    have hbuffer := buffer_congr (congrFun hundone.desc idx)
      (congrFun hundone.descExtras idx)
    have hmaps : q2.mem.maps.Perm (q2.vq.buffer idx :: q.mem.maps) := by
      rw [hbuffer, ← halloc.maps]
      exact hundone.maps
    rw [hrelease.maps]
    exact Memory.release_perm q2.mem hmaps

/-- Nothing is lost exactly when every spinlock was granted. -/
theorem Undone.sameResources_iff (h : Undone locks q q') (hnodup : q.vq.freeList.Nodup) :
    SameResources q q' <-> forall lock, lock ∈ locks -> lock = .EOK := by
  rcases h.free with ⟨lost, hperm, hlength⟩
  constructor
  · intro hsame
    cases lost with
    | nil =>
        have hnone := List.countP_eq_zero.mp hlength.symm
        intro lock hlock
        by_contra hne
        exact hnone lock hlock (decide_eq_true hne)
    | cons idx lost =>
        -- a lost descriptor was free and is not any more
        have hfree : idx ∈ q.vq.freeList := hperm.mem_iff.mp (List.mem_cons_self ..)
        have hnot := (List.nodup_cons.mp (hperm.nodup_iff.mpr hnodup)).1
        exact absurd (List.mem_append_right _ ((hsame.free idx).mpr hfree)) hnot
  · intro hgranted
    have hzero : locks.countP (fun lock => decide (lock ≠ .EOK)) = 0 := by
      refine List.countP_eq_zero.mpr fun lock hlock => ?_
      rw [decide_eq_true_eq, not_not]
      exact hgranted lock hlock
    rw [hzero] at hlength
    rw [List.eq_nil_of_length_eq_zero hlength, List.nil_append] at hperm
    exact ⟨fun _ => hperm.mem_iff, fun _ => h.maps.mem_iff⟩

end Undone

end QnxVirtio
