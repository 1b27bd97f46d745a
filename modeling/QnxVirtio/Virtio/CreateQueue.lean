import QnxVirtio.Virtq.CreateFailures
import QnxVirtio.Virtio.QueueReset
import QnxVirtio.Virtio.QueueSize

/-!
# A queue creation that fails

`virtio_create_queue` returns early from each of its steps.  None of these returns destroys
the queue that `virtq_create` handed out, and the last two calls are not checked at all.
-/

namespace QnxVirtio

open Foundation

/-!
## The queue object
-/

section Object

open Prog

variable {σ : Nat -> Env} {i j : Nat} {h h₀ h' : Host} {size : Nat} {legacy : Bool}
  {rings : VirtqRings} {block : Nat} {rc rc' : Rc} {out : Option VirtqObject}

/-- Without a queue the heap is as it was, and the mappings are if `undone`; a queue has
blocks of its own.  There is a queue if it is `made`. -/
def CreateLeaves (made undone : Prop) (h h' : Host) (rc : Rc) :
    Option VirtqObject -> Prop
  | none => ¬ made ∧ h'.heap.Perm h.heap ∧ (h'.mem.maps.Perm h.mem.maps <-> undone)
  | some _ => made ∧ rc = .EOK ∧ h.heap.length < h'.heap.length

/-- The rings are never mapped, or the clean-up unmaps the right length. -/
def CreateUndone (size : Nat) (legacy : Bool) (pagesize : UInt64)
    (σ : Nat -> Env) : Prop :=
  (σ 0).calloc ≠ none ∨ RingsRefused legacy (UInt16.ofNat size) pagesize σ ∨
    UnwindExact legacy (UInt16.ofNat size) pagesize

/-- No call of `virtq_create` fails, and every index of the free list fits 16 bits. -/
def QueueMade (size : Nat) (legacy : Bool) (pagesize : UInt64) (σ : Nat -> Env) : Prop :=
  (σ 0).calloc = none ∧ ¬ RingsRefused legacy (UInt16.ofNat size) pagesize σ ∧
    ¬ SetupRefused legacy σ ∧ FillAllowed size legacy σ ∧ ¬ LockRefused size legacy σ

theorem CreateLeaves.congr {made made' undone undone' : Prop}
    (hl : CreateLeaves made undone h h' rc out) (hmade : made <-> made')
    (hundone : undone <-> undone') : CreateLeaves made' undone' h h' rc out := by
  cases out with
  | none => exact ⟨fun hm => hl.1 (hmade.mpr hm), hl.2.1, hl.2.2.trans hundone⟩
  | some obj => exact ⟨hmade.mp hl.1, hl.2⟩

theorem leaves_unwind {made : Prop} (hmade : ¬ made)
    (hrun : RunsOn σ i h ((virtqCreateUnwind legacy rings block).bind
      fun _ => Prog.ret (rc', none)) (rc, out) h' j)
    (hmapped : RingsMapped legacy (UInt16.ofNat size) h.pagesize h₀.mem h.mem rings)
    (hheap : h.heap = block :: h₀.heap) (hpagesize : h.pagesize = h₀.pagesize) :
    CreateLeaves made (UnwindExact legacy (UInt16.ofNat size) h₀.pagesize) h₀ h' rc out := by
  rcases runsOn_bind_iff.mp hrun with ⟨u, h1, k1, hunwind, hrest⟩
  rcases runsOn_ret_iff.mp hrest with ⟨hout, rfl, _⟩
  cases hout
  rcases runsOn_unwind hmapped hunwind with ⟨hheap', hperm⟩
  rw [hpagesize] at hperm
  refine ⟨hmade, ?_, hperm⟩
  rw [hheap', hheap, List.erase_cons_head]

/-- The second half of `virtq_create` makes the queue. -/
def TablesMade (size : Nat) (σ : Nat -> Env) (i : Nat) : Prop :=
  ¬ TablesRefused σ i ∧ Filled size σ (i + 2) ∧ (σ (i + 2 + size)).spinInit = .EOK

theorem leaves_tables {d a u : Nat}
    (hrun : RunsOn σ i h
      (virtqCreate.virtqCreateTables size legacy block rings d a u) (rc, out) h' j)
    (hdestroy : forall n, (σ n).spinDestroy = .EOK)
    (hmapped : RingsMapped legacy (UInt16.ofNat size) h.pagesize h₀.mem h.mem rings)
    (hheap : h.heap = block :: h₀.heap) (hpagesize : h.pagesize = h₀.pagesize) :
    CreateLeaves (TablesMade size σ i)
      (UnwindExact legacy (UInt16.ofNat size) h₀.pagesize) h₀ h' rc out := by
  unfold virtqCreate.virtqCreateTables at hrun
  rcases runsOn_bind_iff.mp hrun with ⟨r1, h1, k1, halloc, hrest⟩
  rcases runsOn_allocBlock halloc with ⟨rfl, ⟨hcalloc, rfl, rc1, rfl, _⟩ | ⟨hcalloc, rfl, rfl⟩⟩
  · exact leaves_unwind (fun hmade => hmade.1 (Or.inl hcalloc)) hrest hmapped hheap hpagesize
  · rcases runsOn_bind_iff.mp hrest with ⟨r2, h2, k2, hcreate, hrest⟩
    rcases runsOn_createFreeDescs hcreate with
      ⟨rfl, ⟨hfifo, rfl, rc2, rfl, _⟩ | ⟨hfifo, fifo, rfl, hcount, hcap, rfl⟩⟩
    · rcases runsOn_bind_iff.mp hrest with ⟨_, h3, k3, hfree, hrest⟩
      rcases runsOn_modify_iff.mp hfree with ⟨rfl, _⟩
      exact leaves_unwind (fun hmade => hmade.1 (Or.inr hfifo)) hrest hmapped
        ((List.erase_cons_head _ _).trans hheap) hpagesize
    · have hallowed : ¬ TablesRefused σ i :=
        fun hrefused => hrefused.elim (fun hne => hne hcalloc) hfifo
      have hheap' : (((h.nextBlock + 1) :: h.nextBlock :: h.heap).erase
          (h.nextBlock + 1)).erase h.nextBlock = block :: h₀.heap := by
        rw [List.erase_cons_head, List.erase_cons_head, hheap]
      rcases runsOn_bind_iff.mp hrest with ⟨r3, h3, k3, hfill, hrest⟩
      rcases runsOn_fill hcount hcap hfill with
        ⟨rfl, ⟨⟨filled, rfl⟩, rfl, hfilled⟩ | ⟨rfl, hnot⟩⟩
      · rcases runsOn_bind_iff.mp hrest with ⟨rc4, h4, k4, hspin, hrest⟩
        rcases runsOn_action_iff.mp hspin with ⟨hf, _⟩
        cases hf
        by_cases hlock : (σ (i + 1 + 1 + size)).spinInit = .EOK
        · rw [if_neg (fun hne => hne hlock)] at hrest
          rcases runsOn_ret_iff.mp hrest with ⟨hout, rfl, _⟩
          cases hout
          refine ⟨⟨hallowed, hfilled, hlock⟩, rfl, ?_⟩
          simp only [List.length_cons, hheap]
          omega
        · rw [if_pos hlock] at hrest
          rcases runsOn_bind_iff.mp hrest with ⟨_, h5, k5, hfifoFree, hrest⟩
          cases runsOn_fifoDestory (hdestroy _) hfifoFree
          rcases runsOn_bind_iff.mp hrest with ⟨_, h6, k6, hfree, hrest⟩
          rcases runsOn_modify_iff.mp hfree with ⟨rfl, _⟩
          exact leaves_unwind (fun hmade => hlock hmade.2.2) hrest hmapped hheap' hpagesize
      · rcases runsOn_bind_iff.mp hrest with ⟨_, h4, k4, hfifoFree, hrest⟩
        cases runsOn_fifoDestory (hdestroy _) hfifoFree
        rcases runsOn_bind_iff.mp hrest with ⟨_, h5, k5, hfree, hrest⟩
        rcases runsOn_modify_iff.mp hfree with ⟨rfl, _⟩
        exact leaves_unwind (fun hmade => hnot hmade.2.1) hrest hmapped hheap' hpagesize

theorem leaves_create (hpage : PageSize h.pagesize)
    (hdestroy : forall n, (σ n).spinDestroy = .EOK)
    (hrun : RunsOn σ 0 h (virtqCreate size legacy) (rc, out) h' j) :
    CreateLeaves (QueueMade size legacy h.pagesize σ)
      (CreateUndone size legacy h.pagesize σ) h h' rc out := by
  unfold virtqCreate at hrun
  rcases runsOn_bind_iff.mp hrun with ⟨r1, h1, k1, halloc, hrest⟩
  rcases runsOn_allocBlock halloc with ⟨rfl, ⟨hcalloc, rfl, rc1, rfl, _⟩ |
    ⟨hcalloc, rfl, rfl⟩⟩
  · rcases runsOn_ret_iff.mp hrest with ⟨hout, rfl, _⟩
    cases hout
    exact ⟨fun hmade => hcalloc hmade.1, List.Perm.refl _,
      iff_of_true (List.Perm.refl _) (Or.inl hcalloc)⟩
  · rcases runsOn_bind_iff.mp hrest with ⟨r2, h2, k2, hrings, hrest⟩
    rcases runsOn_createRings hrings hpage with
      ⟨hrefused, ⟨rc2, rfl, _⟩, m, rfl, hm⟩ | ⟨hmapped, rfl, rings, m, rfl, rfl, hrm⟩
    · rcases runsOn_bind_iff.mp hrest with ⟨_, h3, k3, hfree, hrest⟩
      rcases runsOn_modify_iff.mp hfree with ⟨rfl, _⟩
      rcases runsOn_ret_iff.mp hrest with ⟨hout, rfl, _⟩
      cases hout
      refine ⟨fun hmade => hmade.2.1 hrefused, ?_,
        iff_of_true ?_ (Or.inr (Or.inl hrefused))⟩
      · change ((h.nextBlock :: h.heap).erase h.nextBlock).Perm h.heap
        rw [List.erase_cons_head]
      · change m.maps.Perm h.mem.maps
        rw [hm]
    · -- the rings are there, and only the clean-up can remove them
      have hundone : UnwindExact legacy (UInt16.ofNat size) h.pagesize <->
          CreateUndone size legacy h.pagesize σ :=
        ⟨fun hexact => Or.inr (Or.inr hexact), fun hor =>
          (hor.resolve_left fun hne => hne hcalloc).resolve_left hmapped⟩
      refine CreateLeaves.congr ?_ Iff.rfl hundone
      have hsetup : SetupRefused legacy σ ->
          ¬ QueueMade size legacy h.pagesize σ := fun hrefused hmade => hmade.2.2.1 hrefused
      rcases runsOn_bind_iff.mp hrest with ⟨r3, h3, k3, hdesc, hrest⟩
      rcases runsOn_pagesOffset hrm.desc hdesc with
        ⟨rfl, rfl, ⟨hoff, rc3, rfl⟩ | ⟨hoff1, d, rfl⟩⟩
      · exact leaves_unwind (hsetup (Or.inl (Or.inl hoff))) hrest hrm rfl rfl
      · rcases runsOn_bind_iff.mp hrest with ⟨r4, h4, k4, havail, hrest⟩
        rcases runsOn_pagesOffset hrm.avail havail with
          ⟨rfl, rfl, ⟨hoff, rc4, rfl⟩ | ⟨hoff2, a, rfl⟩⟩
        · exact leaves_unwind (hsetup (Or.inl (Or.inr (Or.inl hoff)))) hrest hrm rfl rfl
        · rcases runsOn_bind_iff.mp hrest with ⟨r5, h5, k5, hused, hrest⟩
          rcases runsOn_pagesOffset hrm.used hused with
            ⟨rfl, rfl, ⟨hoff, rc5, rfl⟩ | ⟨hoff3, u, rfl⟩⟩
          · exact leaves_unwind (hsetup (Or.inl (Or.inr (Or.inr hoff)))) hrest hrm rfl rfl
          · have hoffset : ¬ OffsetRefused σ (afterRings legacy) := by
              intro hrefused
              rcases hrefused with hne | hne | hne
              · exact hne hoff1
              · exact hne hoff2
              · exact hne hoff3
            have hmade : TablesMade size σ (afterRings legacy + 3) <->
                QueueMade size legacy h.pagesize σ := by
              constructor
              · intro htables
                exact ⟨hcalloc, hmapped, fun hrefused => hrefused.elim hoffset htables.1,
                  htables.2.1, not_not_intro htables.2.2⟩
              · intro hqueue
                exact ⟨fun hrefused => hqueue.2.2.1 (Or.inr hrefused), hqueue.2.2.2.1,
                  not_not.mp hqueue.2.2.2.2⟩
            have hleaves : CreateLeaves (TablesMade size σ (afterRings legacy + 3))
                (UnwindExact legacy (UInt16.ofNat size) h.pagesize) h h' rc out :=
              leaves_tables hrest hdestroy hrm rfl rfl
            exact hleaves.congr hmade Iff.rfl

end Object

namespace Virtio

/-!
## Where a creation ends
-/

/-- The places where `virtio_create_queue` ends.  `vq` is what `virtq_create` handed
out. -/
inductive CreateQueueExit
  | noSize
  | notCreated (rc : Rc) (vq : Option VirtqObject)
  | notReset (rc : Rc) (vq : Option VirtqObject)
  | sizeNotSet (rc : Rc) (vq : Option VirtqObject)
  | addrNotSet (rc : Rc) (vq : Option VirtqObject)
  | noInterrupt (vq : Option VirtqObject)
  | finished (thread : Rc) (vq : Option VirtqObject)

namespace CreateQueueExit

/-- What the caller gets.  The null pointer of a failed `calloc` is followed, and the
result of `pthread_create` is not looked at. -/
def result : CreateQueueExit -> Option (Rc × Option VirtqObject)
  | noSize => some (.ENODEV, none)
  | notCreated rc vq => some (rc, vq)
  | notReset rc vq => some (rc, vq)
  | sizeNotSet rc vq => some (rc, vq)
  | addrNotSet rc vq => some (rc, vq)
  | noInterrupt _ => none
  | finished _ vq => some (.EOK, vq)

def Failed : CreateQueueExit -> Prop
  | finished thread _ => thread ≠ .EOK
  | _ => True

instance : DecidablePred Failed
  | finished thread _ => inferInstanceAs (Decidable (thread ≠ .EOK))
  | noSize => isTrue trivial
  | notCreated _ _ => isTrue trivial
  | notReset _ _ => isTrue trivial
  | sizeNotSet _ _ => isTrue trivial
  | addrNotSet _ _ => isTrue trivial
  | noInterrupt _ => isTrue trivial

end CreateQueueExit

def exitProgramQueue (t : Nat) (index size : UInt16) (vq : Option VirtqObject) :
    VirtioProg CreateQueueExit := do
  match <- virtioResetQueue index with
  | .error rc => pure (.notReset rc vq)
  | .ok _ =>
      match <- virtioSetQueueSize index size (vq.map fun _ => t) with
      | .error rc => pure (.sizeNotSet rc vq)
      | .ok _ =>
          match <- virtioSetQueueAddr t index (vq.map VirtqObject.vq) with
          | .error rc => pure (.addrNotSet rc vq)
          | .ok _ =>
              match <- onHost allocBlock with
              | .error _ => pure (.noInterrupt vq)
              | .ok _ =>
                  let thread <- Prog.action fun e s =>
                    some (e.thread, (s.hear (.created index)).observe (.created index))
                  pure (.finished thread vq)

/-- From `virtq_create` on. -/
def exitSizedQueue (t : Nat) (index size queueSize : UInt16) :
    VirtioProg CreateQueueExit := do
  let legacy <- Prog.read VirtioSystem.legacy
  let (rc, vq) <- onHost (virtqCreate queueSize.toNat legacy)
  if rc ≠ .EOK then pure (.notCreated rc vq)
  else exitProgramQueue t index size vq

def exitCreateQueue (t : Nat) (index size : UInt16) : VirtioProg CreateQueueExit := do
  let garbage <- Prog.action fun e s => some (UInt16.ofNat e.garbage, s)
  let max <- virtioMaxQueueSize index
  let queueSize := clampSize size (max.toOption.getD garbage)
  if queueSize = 0 then pure .noSize
  else exitSizedQueue t index size queueSize

theorem reports_startInterruptThread (index : UInt16) (vq : Option VirtqObject) :
    Prog.Reports CreateQueueExit.result
      ((startInterruptThread index).bind fun _ => Prog.ret (Rc.EOK, vq))
      ((onHost allocBlock).bind fun r => match r with
        | .error _ => Prog.ret (.noInterrupt vq)
        | .ok _ => (Prog.action fun e s => some (e.thread,
            (s.hear (.created index)).observe (.created index))).bind
              fun thread => Prog.ret (.finished thread vq)) := by
  unfold startInterruptThread
  rw [Prog.bind_eq_bind, Prog.bind_assoc]
  refine Prog.reports_bind fun r => ?_
  intro σ i s a s' j
  cases r with
  | error rc =>
      constructor
      · intro hrun
        rcases Prog.runsOn_bind_iff.mp hrun with ⟨_, s1, k, hstuck, _⟩
        cases (Prog.runsOn_action_iff.mp hstuck).1
      · rintro ⟨exit, hrun, hresult⟩
        rcases Prog.runsOn_ret_iff.mp hrun with ⟨rfl, _⟩
        cases hresult
  | ok block =>
      constructor
      · intro hrun
        rcases Prog.runsOn_bind_iff.mp hrun with ⟨_, s1, k, hmodify, hret⟩
        rcases Prog.runsOn_modify_iff.mp hmodify with ⟨rfl, rfl⟩
        rcases Prog.runsOn_ret_iff.mp hret with ⟨rfl, rfl, rfl⟩
        refine ⟨.finished (σ i).thread vq, ?_, rfl⟩
        exact Prog.runsOn_bind_iff.mpr ⟨_, _, _, Prog.runsOn_action_iff.mpr ⟨rfl, rfl⟩,
          Prog.RunsOn.ret _ _ _⟩
      · rintro ⟨exit, hrun, hresult⟩
        rcases Prog.runsOn_bind_iff.mp hrun with ⟨thread, s1, k, haction, hret⟩
        rcases Prog.runsOn_action_iff.mp haction with ⟨hf, rfl⟩
        cases hf
        rcases Prog.runsOn_ret_iff.mp hret with ⟨rfl, rfl, rfl⟩
        cases hresult
        exact Prog.runsOn_bind_iff.mpr ⟨(), _, _, Prog.runsOn_modify_iff.mpr ⟨rfl, rfl⟩,
          Prog.RunsOn.ret _ _ _⟩

/-- The exits are those of `virtio_create_queue`. -/
theorem reports_createQueue (t : Nat) (index size : UInt16) :
    Prog.Reports CreateQueueExit.result (virtioCreateQueue t index size)
      (exitCreateQueue t index size) := by
  refine Prog.reports_bind fun garbage => ?_
  refine Prog.reports_bind fun max => ?_
  dsimp only
  by_cases hzero : clampSize size (max.toOption.getD garbage) = 0
  · rw [if_pos hzero, if_pos hzero]
    exact Prog.reports_ret rfl
  · rw [if_neg hzero, if_neg hzero]
    refine Prog.reports_bind fun legacy => ?_
    refine Prog.reports_bind fun out => ?_
    dsimp only
    by_cases hrc : out.1 = .EOK
    · rw [if_neg (not_not_intro hrc), if_neg (not_not_intro hrc)]
      refine Prog.reports_bind fun r => ?_
      cases r with
      | error rc => exact Prog.reports_ret rfl
      | ok _ =>
          refine Prog.reports_bind fun r => ?_
          cases r with
          | error rc => exact Prog.reports_ret rfl
          | ok _ =>
              refine Prog.reports_bind fun r => ?_
              cases r with
              | error rc => exact Prog.reports_ret rfl
              | ok _ => exact reports_startInterruptThread index out.2
    · rw [if_pos hrc, if_pos hrc]
      exact Prog.reports_ret rfl

/-!
## What the steps leave
-/

section Steps

variable {ok : VirtioEnv -> Prop} {s s' : VirtioSystem} {t : Nat} {index size : UInt16}
  {vq : Option VirtqObject} {exit : CreateQueueExit}

theorem registerInvariant_host (h : Host) :
    RegisterInvariant fun s => s.host = h where
  locked := fun _ _ hs => hs
  access := fun _ _ _ hs => hs
  write := fun _ _ _ _ _ hs => hs
  select := fun _ _ hs => hs
  windows := fun _ _ hs => hs

theorem runs_setQueueAddr_none {r : Except Rc Unit}
    (hrun : Prog.Runs ok s (virtioSetQueueAddr t index none) r s') :
    r = .error .EINVAL := by
  rcases Prog.runs_bind_iff.mp hrun with ⟨transport, s1, _, hrest⟩
  cases transport with
  | mmio => exact (Prog.runs_ret_iff.mp hrest).1
  | pci => exact (Prog.runs_ret_iff.mp hrest).1

theorem runs_onHost_allocBlock {r : Except Rc Nat}
    (hrun : Prog.Runs ok s (onHost allocBlock) r s') :
    s.host.heap.length <= s'.host.heap.length := by
  rcases runs_onHost hrun with ⟨h, halloc, rfl⟩
  rcases Prog.runs_action_iff.mp halloc with ⟨e, _, hf⟩
  cases hcalloc : e.calloc with
  | none =>
      simp only [hcalloc, Option.some.injEq, Prod.mk.injEq] at hf
      rw [← hf.2]
      exact Nat.le_succ _
  | some f =>
      simp only [hcalloc, Option.some.injEq, Prod.mk.injEq] at hf
      rw [← hf.2]

/-- What the steps after `virtq_create` do: nothing is freed, and without a queue they
fail. -/
structure Programmed (vq : Option VirtqObject) (exit : CreateQueueExit)
    (s s' : VirtioSystem) : Prop where
  sized : exit ≠ .noSize
  heap : s.host.heap.length <= s'.host.heap.length
  without : vq = none -> exit.Failed ∧
    (exists rc vq, exit.result = some (rc, vq) ∧ rc ≠ .EOK) ∧ s'.host = s.host

theorem runs_exitProgramQueue
    (hrun : Prog.Runs ok s (exitProgramQueue t index size vq) exit s') :
    Programmed vq exit s s' := by
  have hI := registerInvariant_host s.host
  rcases Prog.runs_bind_iff.mp hrun with ⟨r, s1, hreset, hrest⟩
  have h1 : s1.host = s.host := hI.virtioResetQueue index _ _ _ _ hreset rfl
  cases r with
  | error rc =>
      rcases Prog.runs_ret_iff.mp hrest with ⟨rfl, rfl⟩
      have hrc := failsWithCode_resetQueue _ _ _ _ _ hreset
      exact ⟨by simp, Nat.le_of_eq (by rw [h1]), fun _ =>
        ⟨trivial, ⟨rc, vq, rfl, hrc⟩, h1⟩⟩
  | ok _ =>
      rcases Prog.runs_bind_iff.mp hrest with ⟨r, s2, hsize, hrest⟩
      have h2 : s2.host = s.host := hI.virtioSetQueueSize index size _ _ _ _ _ hsize h1
      cases r with
      | error rc =>
          rcases Prog.runs_ret_iff.mp hrest with ⟨rfl, rfl⟩
          have hrc := failsWithCode_section _ _ _ _ _ _ hsize
          exact ⟨by simp, Nat.le_of_eq (by rw [h2]), fun _ =>
            ⟨trivial, ⟨rc, vq, rfl, hrc⟩, h2⟩⟩
      | ok _ =>
          rcases Prog.runs_bind_iff.mp hrest with ⟨r, s3, haddr, hrest⟩
          have h3 : s3.host = s.host := hI.virtioSetQueueAddr t index _ _ _ _ _ haddr h2
          cases r with
          | error rc =>
              rcases Prog.runs_ret_iff.mp hrest with ⟨rfl, rfl⟩
              have hrc := failsWithCode_setQueueAddr _ _ _ _ _ _ _ haddr
              exact ⟨by simp, Nat.le_of_eq (by rw [h3]), fun _ =>
                ⟨trivial, ⟨rc, vq, rfl, hrc⟩, h3⟩⟩
          | ok _ =>
              have hvq : vq ≠ none := by
                rintro rfl
                cases runs_setQueueAddr_none haddr
              rcases Prog.runs_bind_iff.mp hrest with ⟨r, s4, halloc, hrest⟩
              have h4 := runs_onHost_allocBlock halloc
              rw [h3] at h4
              cases r with
              | error rc =>
                  rcases Prog.runs_ret_iff.mp hrest with ⟨rfl, rfl⟩
                  exact ⟨by simp, h4, fun hnone => absurd hnone hvq⟩
              | ok block =>
                  rcases Prog.runs_bind_iff.mp hrest with ⟨thread, s5, hthread, hrest⟩
                  rcases Prog.runs_action_iff.mp hthread with ⟨e, _, hf⟩
                  cases hf
                  rcases Prog.runs_ret_iff.mp hrest with ⟨rfl, rfl⟩
                  exact ⟨by simp, h4, fun hnone => absurd hnone hvq⟩

end Steps

/-!
## The steps after a queue is made
-/

section Granted

variable {σ : Nat -> VirtioEnv} {i p j : Nat} {s s' : VirtioSystem} {t : Nat}
  {index size : UInt16} {obj : VirtqObject} {exit : CreateQueueExit}

/-- The answers that the addresses of a queue take. -/
def addressSteps (transport : Transport) (legacy : Bool) : Nat :=
  match transport, legacy with
  | .mmio, true => 3
  | .mmio, false => 8
  | .pci, _ => 4

theorem runsOn_setQueueAddr {vq : Virtq} {r : Except Rc Unit}
    (hrun : Prog.RunsOn σ i s (virtioSetQueueAddr t index (some vq)) r s' j) :
    r = .ok () ∧ j = i + addressSteps s.transport s.legacy := by
  rcases Prog.runsOn_bind_iff.mp hrun with ⟨transport, s1, _, hread, hrest⟩
  rcases Prog.runsOn_read_iff.mp hread with ⟨rfl, rfl, rfl⟩
  cases htransport : s1.transport with
  | mmio =>
      rw [htransport] at hrest
      rcases Prog.runsOn_bind_iff.mp hrest with ⟨legacy, s2, _, hread, hrest⟩
      rcases Prog.runsOn_read_iff.mp hread with ⟨rfl, rfl, rfl⟩
      cases hlegacy : s2.legacy with
      | true =>
          rw [hlegacy, if_pos rfl] at hrest
          dsimp only at hrest
          split at hrest
          · cases (Prog.runsOn_action_iff.mp hrest).1
          · rcases Prog.runsOn_bind_iff.mp hrest with ⟨_, _, _, h1, hrest⟩
            rcases Prog.runsOn_ret_iff.mp hrest with ⟨hr, _, rfl⟩
            exact ⟨hr, (Prog.runsOn_modify_iff.mp h1).2⟩
      | false =>
          rw [hlegacy] at hrest
          rcases Prog.runsOn_bind_iff.mp hrest with ⟨_, _, _, h1, hrest⟩
          rcases Prog.runsOn_bind_iff.mp hrest with ⟨_, _, _, h2, hrest⟩
          rcases Prog.runsOn_bind_iff.mp hrest with ⟨_, _, _, h3, hrest⟩
          rcases Prog.runsOn_bind_iff.mp hrest with ⟨_, _, _, h4, hrest⟩
          rcases Prog.runsOn_bind_iff.mp hrest with ⟨_, _, _, h5, hrest⟩
          rcases Prog.runsOn_bind_iff.mp hrest with ⟨_, _, _, h6, hrest⟩
          rcases Prog.runsOn_ret_iff.mp hrest with ⟨hr, _, rfl⟩
          refine ⟨hr, ?_⟩
          rw [(Prog.runsOn_modify_iff.mp h6).2, (Prog.runsOn_modify_iff.mp h5).2,
            (Prog.runsOn_modify_iff.mp h4).2, (Prog.runsOn_modify_iff.mp h3).2,
            (Prog.runsOn_modify_iff.mp h2).2, (Prog.runsOn_modify_iff.mp h1).2]
          rfl
  | pci =>
      rw [htransport] at hrest
      rcases Prog.runsOn_bind_iff.mp hrest with ⟨_, _, _, h1, hrest⟩
      rcases Prog.runsOn_bind_iff.mp hrest with ⟨_, _, _, h2, hrest⟩
      rcases Prog.runsOn_bind_iff.mp hrest with ⟨_, _, _, h3, hrest⟩
      rcases Prog.runsOn_ret_iff.mp hrest with ⟨hr, _, rfl⟩
      refine ⟨hr, ?_⟩
      rw [(Prog.runsOn_modify_iff.mp h3).2, (Prog.runsOn_modify_iff.mp h2).2,
        (Prog.runsOn_modify_iff.mp h1).2]
      rfl

/-- From position `p` on: the reset is requested, and the local variable holds 0 or the
device shows 0 before the timeout; the size is set; the interrupt structure is allocated
and the thread started.  `k` is where the reset ends. -/
def StepsGranted (σ : Nat -> VirtioEnv) (p : Nat) (index : UInt16) (s : VirtioSystem) :
    Prop :=
  exists r w k, Prog.RunsOn σ p ⟨s, []⟩ (watchedResetQueue index) r w k ∧
    (SectionGranted (σ (p + 1)) ∧
      (UInt32.ofNat (σ (p + 2)).garbage = 0 ∨ .ok 0 ∈ pollsOf w.events)) ∧
    SectionGranted (σ k) ∧
    (σ (k + 1 + addressSteps s.transport s.legacy)).calloc = none ∧
    (σ (k + 1 + addressSteps s.transport s.legacy + 1)).thread = .EOK

/-- No step fails exactly when each of them is granted. -/
theorem exitProgramQueue_failed_iff
    (hrun : Prog.RunsOn σ p s (exitProgramQueue t index size (some obj)) exit s' j) :
    ¬ exit.Failed <-> StepsGranted σ p index s := by
  rcases Prog.runsOn_bind_iff.mp hrun with ⟨r, s1, k, hreset, hrest⟩
  rcases (watches_resetQueue index).runsOn hreset [] with ⟨es, hwatched⟩
  have hok := resetQueue_ok_iff hwatched
  have hiff : StepsGranted σ p index s <-> r = .ok () ∧ SectionGranted (σ k) ∧
      (σ (k + 1 + addressSteps s.transport s.legacy)).calloc = none ∧
      (σ (k + 1 + addressSteps s.transport s.legacy + 1)).thread = .EOK := by
    rw [hok]
    constructor
    · intro h
      rcases h with ⟨r', w', k', hwatched', hsteps⟩
      rcases hwatched.unique hwatched' with ⟨rfl, rfl, rfl⟩
      exact hsteps
    · intro hsteps
      exact ⟨r, _, k, hwatched, hsteps⟩
  rw [hiff]
  have hfields := queueInvariant_fields s
  have h1 := hfields.virtioResetQueue index _ _ _ _ hreset.runs ⟨rfl, rfl, rfl⟩
  cases r with
  | error rc =>
      rcases Prog.runsOn_ret_iff.mp hrest with ⟨rfl, _, _⟩
      refine iff_of_false (fun h => h trivial) fun h => ?_
      cases h.1
  | ok u =>
      rw [and_iff_right rfl]
      rcases Prog.runsOn_bind_iff.mp hrest with ⟨r, s2, _, hsize, hrest⟩
      have h2 := hfields.virtioSetQueueSize index size _ _ _ _ _ hsize.runs h1
      rcases runsOn_section hsize with ⟨rfl, hgranted⟩
      rw [← hgranted]
      cases r with
      | error rc =>
          rcases Prog.runsOn_ret_iff.mp hrest with ⟨rfl, _, _⟩
          refine iff_of_false (fun h => h trivial) fun h => ?_
          rcases h.1 with ⟨u, hu⟩
          cases hu
      | ok u =>
          rw [and_iff_right ⟨u, rfl⟩]
          rcases Prog.runsOn_bind_iff.mp hrest with ⟨r, s3, _, haddr, hrest⟩
          rcases runsOn_setQueueAddr haddr with ⟨rfl, rfl⟩
          rw [h2.1, h2.2.1] at hrest
          rcases Prog.runsOn_bind_iff.mp hrest with ⟨r, s4, q, halloc, hrest⟩
          rcases Prog.runsOn_embed (m := 0) selectsHost halloc with ⟨m, rfl, halloc, _⟩
          rcases runsOn_allocBlock halloc with
            ⟨rfl, ⟨hcalloc, _, rc, rfl, _⟩ | ⟨hcalloc, rfl, _⟩⟩
          · rcases Prog.runsOn_ret_iff.mp hrest with ⟨rfl, _, _⟩
            exact iff_of_false (fun h => h trivial) fun h => hcalloc h.1
          · rcases Prog.runsOn_bind_iff.mp hrest with ⟨thread, s5, _, hthread, hrest⟩
            rcases Prog.runsOn_action_iff.mp hthread with ⟨hf, rfl⟩
            cases hf
            rcases Prog.runsOn_ret_iff.mp hrest with ⟨rfl, _, _⟩
            exact not_not.trans (and_iff_right hcalloc).symm

end Granted

/-!
## Failed creations
-/

section Creation

variable {σ : Nat -> VirtioEnv} {i j : Nat} {s s' : VirtioSystem} {t : Nat}
  {index size queueSize : UInt16} {exit : CreateQueueExit}

/-- A failure is reported and leaves the host as it was, and the outcome does not depend
on what the local variable held before the maximum size was read. -/
structure LeavesNoQueue (σ : Nat -> VirtioEnv) (i : Nat) (t : Nat) (index size : UInt16)
    (s : VirtioSystem) (exit : CreateQueueExit) (s' : VirtioSystem) (j : Nat) : Prop where
  failed : exit.Failed -> (exists rc vq, exit.result = some (rc, vq) ∧ rc ≠ .EOK) ∧
    s'.host.mem.maps.Perm s.host.mem.maps ∧ s'.host.heap.Perm s.host.heap
  sized : forall σ' : Nat -> VirtioEnv, (forall n, n ≠ i -> σ' n = σ n) ->
    Prog.RunsOn σ' i s (exitCreateQueue t index size) exit s' j

/-- The size is not 0, and no call of `virtq_create` fails. -/
def CreatesQueue (σ : Nat -> VirtioEnv) (i : Nat) (index size : UInt16)
    (s : VirtioSystem) : Prop :=
  clampSize size (s.regs.maxQueueSize s.transport index) ≠ 0 ∧
    QueueMade (clampSize size (s.regs.maxQueueSize s.transport index)).toNat s.legacy
      s.host.pagesize fun k => (σ (i + 3 + k)).toEnv

/-- `virtq_create` ends in state `s1` before the answer `p`. -/
def CreateEnds (σ : Nat -> VirtioEnv) (i : Nat) (index size : UInt16)
    (s s1 : VirtioSystem) (p : Nat) : Prop :=
  exists max s0 out, Prog.RunsOn σ (i + 1) s (virtioMaxQueueSize index) max s0 (i + 2) ∧
    Prog.RunsOn σ (i + 3) s0
      (onHost (virtqCreate (clampSize size
        (s.regs.maxQueueSize s.transport index)).toNat s.legacy)) out s1 p

/-- The maximum size is read; each step is granted once there is a queue; and if none is
made, the clean-up of `virtq_create` has nothing to do or is exact. -/
structure FailsBeforeQueue (σ : Nat -> VirtioEnv) (i : Nat) (index size : UInt16)
    (s : VirtioSystem) : Prop where
  read : MaxObtained (σ (i + 1))
  granted : CreatesQueue σ i index size s -> forall s1 p,
    CreateEnds σ i index size s s1 p -> StepsGranted σ p index s1
  undone : ¬ CreatesQueue σ i index size s ->
    clampSize size (s.regs.maxQueueSize s.transport index) = 0 ∨
      CreateUndone (clampSize size (s.regs.maxQueueSize s.transport index)).toNat s.legacy
        s.host.pagesize fun k => (σ (i + 3 + k)).toEnv

/-- What the steps from `virtq_create` on do, where `made`, `undone` and `granted` say what
they are answered. -/
structure SizedExit (made undone granted : Prop) (s s' : VirtioSystem)
    (exit : CreateQueueExit) : Prop where
  sized : exit ≠ .noSize
  without : ¬ made -> exit.Failed ∧
    (exists rc vq, exit.result = some (rc, vq) ∧ rc ≠ .EOK) ∧
    s'.host.heap.Perm s.host.heap ∧ (s'.host.mem.maps.Perm s.host.mem.maps <-> undone)
  within : made -> s.host.heap.length < s'.host.heap.length ∧ (¬ exit.Failed <-> granted)

theorem runsOn_exitSizedQueue (hpage : PageSize s.host.pagesize)
    (hdestroy : forall n, (σ n).spinDestroy = .EOK)
    (hrun : Prog.RunsOn σ i s (exitSizedQueue t index size queueSize) exit s' j) :
    exists out s1 p, Prog.RunsOn σ (i + 1) s
        (onHost (virtqCreate queueSize.toNat s.legacy)) out s1 p ∧
      SizedExit
        (QueueMade queueSize.toNat s.legacy s.host.pagesize
          fun k => (σ (i + 1 + k)).toEnv)
        (CreateUndone queueSize.toNat s.legacy s.host.pagesize
          fun k => (σ (i + 1 + k)).toEnv)
        (StepsGranted σ p index s1) s s' exit := by
  rcases Prog.runsOn_bind_iff.mp hrun with ⟨legacy, s1, _, hlegacy, hrest⟩
  rcases Prog.runsOn_read_iff.mp hlegacy with ⟨rfl, rfl, rfl⟩
  rcases Prog.runsOn_bind_iff.mp hrest with ⟨⟨rc, vq⟩, s2, p, hcreate, hrest⟩
  refine ⟨_, s2, p, hcreate, ?_⟩
  change Prog.RunsOn σ (i + 1 + 0) _ _ _ _ _ at hcreate
  rcases Prog.runsOn_embed selectsHost hcreate with ⟨_, _, hcreate, _⟩
  have hleaves := leaves_create hpage (fun n => hdestroy _) hcreate
  dsimp only at hrest
  by_cases hrc : rc = .EOK
  · rw [if_neg (not_not_intro hrc)] at hrest
    have hprog := runs_exitProgramQueue hrest.runs
    cases vq with
    | none =>
        have hwithout := hprog.without rfl
        refine ⟨hprog.sized, fun _ => ?_, fun hmade => absurd hmade hleaves.1⟩
        rw [hwithout.2.2]
        exact ⟨hwithout.1, hwithout.2.1, hleaves.2⟩
    | some obj =>
        refine ⟨hprog.sized, fun hnot => absurd hleaves.1 hnot, fun _ => ⟨?_, ?_⟩⟩
        · exact Nat.lt_of_lt_of_le hleaves.2.2 hprog.heap
        · exact exitProgramQueue_failed_iff hrest
  · rw [if_pos hrc] at hrest
    rcases Prog.runsOn_ret_iff.mp hrest with ⟨rfl, rfl, _⟩
    cases vq with
    | none =>
        refine ⟨by simp, fun _ => ?_, fun hmade => absurd hmade hleaves.1⟩
        exact ⟨trivial, ⟨rc, none, rfl, hrc⟩, hleaves.2⟩
    | some obj => exact absurd hleaves.2.1 hrc

theorem runsOn_exitCreateQueue_iff :
    Prog.RunsOn σ i s (exitCreateQueue t index size) exit s' j <->
      exists max s1, Prog.RunsOn σ (i + 1) s (virtioMaxQueueSize index) max s1 (i + 2) ∧
        ((clampSize size (obtainedMax (σ i).garbage (σ (i + 1)) s index) = 0 ∧
            exit = .noSize ∧ s' = s1 ∧ j = i + 2) ∨
          (clampSize size (obtainedMax (σ i).garbage (σ (i + 1)) s index) ≠ 0 ∧
            Prog.RunsOn σ (i + 2) s1 (exitSizedQueue t index size
              (clampSize size (obtainedMax (σ i).garbage (σ (i + 1)) s index)))
              exit s' j)) := by
  constructor
  · intro hrun
    rcases Prog.runsOn_bind_iff.mp hrun with ⟨garbage, s0, _, hgarbage, hrest⟩
    rcases Prog.runsOn_action_iff.mp hgarbage with ⟨hf, rfl⟩
    cases hf
    rcases Prog.runsOn_bind_iff.mp hrest with ⟨max, s1, k, hmax, hrest⟩
    rcases runsOn_virtioMaxQueueSize hmax (σ i).garbage with ⟨hsize, rfl⟩
    dsimp only at hrest
    rw [hsize] at hrest
    refine ⟨max, s1, hmax, ?_⟩
    by_cases hzero : clampSize size (obtainedMax (σ i).garbage (σ (i + 1)) s index) = 0
    · rw [if_pos hzero] at hrest
      exact Or.inl ⟨hzero, Prog.runsOn_ret_iff.mp hrest⟩
    · rw [if_neg hzero] at hrest
      exact Or.inr ⟨hzero, hrest⟩
  · rintro ⟨max, s1, hmax, hrest⟩
    have hsize := (runsOn_virtioMaxQueueSize hmax (σ i).garbage).1
    refine Prog.runsOn_bind_iff.mpr ⟨UInt16.ofNat (σ i).garbage, s, i + 1,
      Prog.runsOn_action_iff.mpr ⟨rfl, rfl⟩, ?_⟩
    refine Prog.runsOn_bind_iff.mpr ⟨max, s1, i + 2, hmax, ?_⟩
    dsimp only
    rw [hsize]
    rcases hrest with ⟨hzero, hexit⟩ | ⟨hpos, hrest⟩
    · rw [if_pos hzero]
      exact Prog.runsOn_ret_iff.mpr hexit
    · rw [if_neg hpos]
      exact hrest

theorem runsOn_of_maxObtained (hread : MaxObtained (σ (i + 1)))
    (hrun : Prog.RunsOn σ i s (exitCreateQueue t index size) exit s' j)
    {σ' : Nat -> VirtioEnv} (hσ : forall n, n ≠ i -> σ' n = σ n) :
    Prog.RunsOn σ' i s (exitCreateQueue t index size) exit s' j := by
  have hnext : σ' (i + 1) = σ (i + 1) := hσ _ (by omega)
  have hsize : obtainedMax (σ' i).garbage (σ' (i + 1)) s index =
      obtainedMax (σ i).garbage (σ (i + 1)) s index := by
    unfold obtainedMax
    rw [hnext, if_pos hread, if_pos hread]
  rcases runsOn_exitCreateQueue_iff.mp hrun with ⟨max, s1, hmax, hrest⟩
  rw [runsOn_exitCreateQueue_iff, hsize]
  refine ⟨max, s1, hmax.congr fun n hn => hσ n (by omega), hrest.imp id ?_⟩
  rintro ⟨hpos, hsized⟩
  exact ⟨hpos, hsized.congr fun n hn => hσ n (by omega)⟩

theorem exit_eq_noSize_iff (hpage : PageSize s.host.pagesize)
    (hdestroy : forall n, (σ n).spinDestroy = .EOK)
    (hrun : Prog.RunsOn σ i s (exitCreateQueue t index size) exit s' j) :
    exit = .noSize <->
      clampSize size (obtainedMax (σ i).garbage (σ (i + 1)) s index) = 0 := by
  rcases runsOn_exitCreateQueue_iff.mp hrun with
    ⟨max, s1, hmax, ⟨hzero, hexit, _⟩ | ⟨hpos, hsized⟩⟩
  · exact iff_of_true hexit hzero
  · have hhost := (registerInvariant_host s.host).virtioMaxQueueSize index _ _ _ _
      hmax.runs rfl
    rw [← hhost] at hpage
    rcases runsOn_exitSizedQueue hpage hdestroy hsized with ⟨_, _, _, _, hexit⟩
    exact iff_of_false hexit.sized hpos

theorem clampSize_zero (size : UInt16) : clampSize size 0 = 0 := by
  unfold clampSize
  by_cases hsize : size = 0
  · rw [if_pos hsize]
  · rw [if_neg hsize]
    change (if size <= 0 then size else 0) = 0
    by_cases hle : size <= 0
    · rw [if_pos hle]
      exact UInt16.le_antisymm hle (UInt16.zero_le)
    · rw [if_neg hle]

theorem clampSize_one (size : UInt16) : clampSize size 1 ≠ 0 := by
  unfold clampSize
  by_cases hsize : size = 0
  · rw [if_pos hsize]
    decide
  · rw [if_neg hsize]
    change (if size <= 1 then size else 1) ≠ 0
    by_cases hle : size <= 1
    · rw [if_pos hle]
      exact hsize
    · rw [if_neg hle]
      decide

/-- A local variable that happens to hold another value makes for another end. -/
theorem maxObtained_of_sized (hpage : PageSize s.host.pagesize)
    (hdestroy : forall n, (σ n).spinDestroy = .EOK)
    (hsized : forall σ' : Nat -> VirtioEnv, (forall n, n ≠ i -> σ' n = σ n) ->
      Prog.RunsOn σ' i s (exitCreateQueue t index size) exit s' j) :
    MaxObtained (σ (i + 1)) := by
  by_contra hread
  have hgarbage : forall garbage : Nat, exit = .noSize <->
      clampSize size (UInt16.ofNat garbage) = 0 := by
    intro garbage
    let σ' := Function.update σ i { σ i with garbage := garbage }
    have hσ : forall n, n ≠ i -> σ' n = σ n := fun n hn => Function.update_of_ne hn _ _
    have hdestroy' : forall n, (σ' n).spinDestroy = .EOK := by
      intro n
      by_cases hn : n = i
      · rw [hn]
        simp only [σ', Function.update_self]
        exact hdestroy i
      · rw [hσ n hn]
        exact hdestroy n
    have hiff := exit_eq_noSize_iff hpage hdestroy' (hsized σ' hσ)
    rw [hσ (i + 1) (by omega), obtainedMax, if_neg hread] at hiff
    simpa [σ'] using hiff
  exact clampSize_one size ((hgarbage 1).mp ((hgarbage 0).mpr (clampSize_zero size)))

/-- A failed creation leaves no queue behind exactly when the maximum size is read and the
failure comes before there is a queue. -/
theorem create_queue_leaves_no_queue_iff (hpage : PageSize s.host.pagesize)
    (hdestroy : forall n, (σ n).spinDestroy = .EOK)
    (hrun : Prog.RunsOn σ i s (exitCreateQueue t index size) exit s' j) :
    LeavesNoQueue σ i t index size s exit s' j <->
      FailsBeforeQueue σ i index size s := by
  by_cases hread : MaxObtained (σ (i + 1))
  · have hmaximum : obtainedMax (σ i).garbage (σ (i + 1)) s index =
        s.regs.maxQueueSize s.transport index := if_pos hread
    have hsized := fun (σ' : Nat -> VirtioEnv) (hσ : forall n, n ≠ i -> σ' n = σ n) =>
      runsOn_of_maxObtained hread hrun hσ
    rcases runsOn_exitCreateQueue_iff.mp hrun with ⟨max, s1, hmax, hrest⟩
    rw [hmaximum] at hrest
    have hhost := (registerInvariant_host s.host).virtioMaxQueueSize index _ _ _ _
      hmax.runs rfl
    have hlegacy := ((queueInvariant_fields s).virtioMaxQueueSize index _ _ _ _
      hmax.runs ⟨rfl, rfl, rfl⟩).1
    rcases hrest with ⟨hzero, rfl, rfl, _⟩ | ⟨hpos, hrest⟩
    · apply iff_of_true
      · refine ⟨fun _ => ⟨⟨.ENODEV, none, rfl, by decide⟩, ?_⟩, hsized⟩
        rw [hhost]
        exact ⟨List.Perm.refl _, List.Perm.refl _⟩
      · exact ⟨hread, fun hcreates => absurd hzero hcreates.1, fun _ => Or.inl hzero⟩
    · rcases runsOn_exitSizedQueue (hhost ▸ hpage) hdestroy hrest with
        ⟨out, s2, p, hcreate, hexit⟩
      rw [hlegacy] at hcreate hexit
      rw [hhost] at hexit
      have hends : CreateEnds σ i index size s s2 p := ⟨max, s1, out, hmax, hcreate⟩
      by_cases hcreates : CreatesQueue σ i index size s
      · have hwithin := hexit.within hcreates.2
        rw [hhost] at hwithin
        constructor
        · intro h
          refine ⟨hread, fun _ s3 q hends' => ?_, fun hnot => absurd hcreates hnot⟩
          rcases hends' with ⟨max', s1', out', hmax', hcreate'⟩
          rcases hmax.unique hmax' with ⟨_, rfl, _⟩
          rcases hcreate.unique hcreate' with ⟨_, rfl, rfl⟩
          -- a failure would leave the blocks of the queue
          refine hwithin.2.mp fun hfailed => ?_
          exact absurd (h.failed hfailed).2.2.length_eq (Nat.ne_of_gt hwithin.1)
        · intro h
          have hfinished := hwithin.2.mpr (h.granted hcreates s2 p hends)
          exact ⟨fun hfailed => absurd hfailed hfinished, hsized⟩
      · rcases hexit.without fun hmade => hcreates ⟨hpos, hmade⟩ with
          ⟨hfailed, hresult, hheap, hmaps⟩
        rw [hhost] at hheap hmaps
        constructor
        · intro h
          refine ⟨hread, fun hnot => absurd hnot hcreates, fun _ => Or.inr ?_⟩
          exact hmaps.mp (h.failed hfailed).2.1
        · intro h
          refine ⟨fun _ => ⟨hresult, ?_, hheap⟩, hsized⟩
          exact hmaps.mpr ((h.undone hcreates).resolve_left hpos)
  · constructor
    · intro h
      exact absurd (maxObtained_of_sized hpage hdestroy h.sized) hread
    · intro h
      exact absurd h.read hread

end Creation

/-!
## A queue of two descriptors
-/

/-- Every call succeeds; the reset register reads 1. -/
def createAnswers (i : Nat) : VirtioEnv where
  mmap := .ok (4096 * (i + 1), 4096 * (i + 1))
  malloc := some fun _ => 0
  garbage := 1
  reg := 1

/-- Nothing can be mapped. -/
def unmappedAnswers (i : Nat) : VirtioEnv :=
  { createAnswers i with mmap := .error Failure.ENOMEM }

def createTwo (σ : Nat -> VirtioEnv) : Option (CreateQueueExit × VirtioSystem × Nat) :=
  Prog.execOn σ 600 0 (VirtioSystem.initial .mmio) (exitCreateQueue 0 0 2)

theorem createTwo_runs (σ : Nat -> VirtioEnv) (blocks : Nat)
    (h : ((createTwo σ).map fun out =>
      (decide out.1.Failed, out.2.1.host.heap.length)) = some (true, blocks)) :
    exists exit s' j, Prog.RunsOn σ 0 (VirtioSystem.initial .mmio)
        (exitCreateQueue 0 0 2) exit s' j ∧
      exit.Failed ∧ s'.host.heap.length = blocks := by
  rcases Option.map_eq_some_iff.mp h with ⟨⟨exit, s', j⟩, hexec, hout⟩
  injection hout with hfailed hblocks
  exact ⟨exit, s', j, Prog.runsOn_of_execOn hexec, of_decide_eq_true hfailed, hblocks⟩

/-- The creation fails before there is a queue. -/
theorem create_queue_leaves_no_queue_unmapped : exists exit s' j,
    exit.Failed ∧
      LeavesNoQueue unmappedAnswers 0 0 0 2 (VirtioSystem.initial .mmio) exit s' j := by
  rcases createTwo_runs unmappedAnswers 0 (by decide +kernel) with
    ⟨exit, s', j, hrun, hfailed, _⟩
  refine ⟨exit, s', j, hfailed, (create_queue_leaves_no_queue_iff ⟨12, by decide, rfl⟩
    (fun _ => rfl) hrun).mpr ?_⟩
  have hrefused : RingsRefused false 2 4096 fun k => (unmappedAnswers (0 + 3 + k)).toEnv :=
    Or.inr (Or.inl ⟨_, rfl⟩)
  exact ⟨⟨rfl, rfl, rfl⟩, fun hcreates => absurd hrefused hcreates.2.2.1,
    fun _ => Or.inr (Or.inr (Or.inl hrefused))⟩

/-- The device never ends the reset: the creation times out, and the queue stays. -/
theorem create_queue_leaves_queue :
    ¬ forall (σ : Nat -> VirtioEnv) exit s' j, (forall n, (σ n).spinDestroy = .EOK) ->
      Prog.RunsOn σ 0 (VirtioSystem.initial .mmio) (exitCreateQueue 0 0 2) exit s' j ->
      LeavesNoQueue σ 0 0 0 2 (VirtioSystem.initial .mmio) exit s' j := by
  intro hall
  rcases createTwo_runs createAnswers 3 (by decide +kernel) with
    ⟨exit, s', j, hrun, hfailed, hblocks⟩
  have hleaves := hall _ exit s' j (fun _ => rfl) hrun
  have hheap := (hleaves.failed hfailed).2.2.length_eq
  rw [hblocks] at hheap
  cases hheap

end Virtio
end QnxVirtio
