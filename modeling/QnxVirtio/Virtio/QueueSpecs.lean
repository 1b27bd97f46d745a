import QnxVirtio.Virtio.Queues

/-!
# What queue operations leave alone

A locked section either fails, with a code other than `EOK`, or performs its operation
on the selected queue.  Whatever the elementary changes of the queue layer keep is kept
by every queue operation.
-/

namespace QnxVirtio
namespace Virtio

open Foundation

variable {α : Type} {ok : VirtioEnv -> Prop} {s s' : VirtioSystem}

/-!
## The host
-/

theorem selectsHost :
    Prog.Selects VirtioSystem.host (fun h (s : VirtioSystem) => { s with host := h }) where
  get_set := fun _ _ => rfl
  set_set := fun _ _ _ => rfl
  set_get := fun _ => rfl

theorem runs_onHost {p : Prog Env Host α} {a : α}
    (hrun : Prog.Runs ok s (onHost p) a s') :
    exists h, Prog.Runs (fun _ => True) s.host p a h ∧ s' = { s with host := h } :=
  ⟨_, Prog.runs_embed _ (fun _ _ => trivial) selectsHost hrun⟩

/-!
## Locked sections
-/

theorem underLock_cases
    {body : VirtioEnv -> VirtioSystem -> Except Rc α × VirtioSystem} {e : VirtioEnv}
    {r : Except Rc α} (h : underLock body e s = some (r, s')) :
    (e.lock ≠ .EOK ∧ r = .error e.lock ∧ s' = s) ∨
      (e.lock = .EOK ∧ s.locked = false ∧
        r = (body e { s with locked := true }).1 ∧
        s' = { (body e { s with locked := true }).2 with locked := false }) := by
  unfold underLock at h
  by_cases hlock : e.lock = .EOK
  · rw [if_neg (not_not_intro hlock)] at h
    cases hlocked : s.locked with
    | true => simp [hlocked] at h
    | false =>
        simp only [hlocked, Bool.false_eq_true, if_false, Option.some.injEq,
          Prod.mk.injEq] at h
        exact Or.inr ⟨hlock, rfl, h.1.symm, h.2.symm⟩
  · rw [if_pos hlock] at h
    simp only [Option.some.injEq, Prod.mk.injEq] at h
    exact Or.inl ⟨hlock, h.1.symm, h.2.symm⟩

theorem onSelected_cases (index : UInt16)
    (op : VirtioEnv -> VirtioSystem -> α × VirtioSystem) (e : VirtioEnv)
    (s : VirtioSystem) :
    (e.transport 0 ≠ .EOK ∧ onSelected index op e s = (.error (e.transport 0), s)) ∨
      (e.transport 0 = .EOK ∧ e.transport 1 ≠ .EOK ∧
        onSelected index op e s = (.error (e.transport 1), s.selectQueue index)) ∨
      (e.transport 0 = .EOK ∧ e.transport 1 = .EOK ∧
        onSelected index op e s =
          (.ok (op e (s.selectQueue index)).1, (op e (s.selectQueue index)).2)) := by
  unfold onSelected
  by_cases h0 : e.transport 0 = .EOK
  · rw [if_neg (not_not_intro h0)]
    by_cases h1 : e.transport 1 = .EOK
    · exact Or.inr (Or.inr ⟨h0, h1, if_neg (not_not_intro h1)⟩)
    · exact Or.inr (Or.inl ⟨h0, h1, if_pos h1⟩)
  · exact Or.inl ⟨h0, if_pos h0⟩

/-- The program never fails with the code of success. -/
def FailsWithCode (p : VirtioProg (Except Rc α)) : Prop :=
  forall (ok : VirtioEnv -> Prop) s rc s', Prog.Runs ok s p (.error rc) s' -> rc ≠ .EOK

theorem failsWithCode_section (index : UInt16)
    (op : VirtioEnv -> VirtioSystem -> α × VirtioSystem) :
    FailsWithCode (queueSection index op) := by
  intro ok s rc s' hrun
  rcases Prog.runs_action_iff.mp hrun with ⟨e, _, hf⟩
  rcases underLock_cases hf with ⟨hlock, hr, _⟩ | ⟨_, _, hr, _⟩
  · cases hr
    exact hlock
  · rcases onSelected_cases index op e { s with locked := true } with
      ⟨hne, hbody⟩ | ⟨_, hne, hbody⟩ | ⟨_, _, hbody⟩
    · rw [hbody] at hr
      cases hr
      exact hne
    · rw [hbody] at hr
      cases hr
      exact hne
    · rw [hbody] at hr
      cases hr

/-- Nothing fails in a locked section. -/
def SectionGranted (e : VirtioEnv) : Prop :=
  e.lock = .EOK ∧ e.transport 0 = .EOK ∧ e.transport 1 = .EOK

theorem runsOn_section {σ : Nat -> VirtioEnv} {i j : Nat} {index : UInt16}
    {op : VirtioEnv -> VirtioSystem -> α × VirtioSystem} {r : Except Rc α}
    (hrun : Prog.RunsOn σ i s (queueSection index op) r s' j) :
    j = i + 1 ∧ ((exists a, r = .ok a) <-> SectionGranted (σ i)) := by
  rcases Prog.runsOn_action_iff.mp hrun with ⟨hf, hj⟩
  refine ⟨hj, ?_⟩
  have hfailed : forall rc, r = .error rc -> ¬ exists a, r = .ok a := by
    intro rc hr hok
    rcases hok with ⟨a, ha⟩
    rw [hr] at ha
    cases ha
  rcases underLock_cases hf with ⟨hlock, hr, _⟩ | ⟨hlock, _, hr, _⟩
  · exact iff_of_false (hfailed _ hr) fun hgranted => hlock hgranted.1
  · rcases onSelected_cases index op (σ i) { s with locked := true } with
      ⟨hne, hbody⟩ | ⟨_, hne, hbody⟩ | ⟨h0, h1, hbody⟩
    · rw [hbody] at hr
      exact iff_of_false (hfailed _ hr) fun hgranted => hne hgranted.2.1
    · rw [hbody] at hr
      exact iff_of_false (hfailed _ hr) fun hgranted => hne hgranted.2.2
    · rw [hbody] at hr
      exact iff_of_true ⟨_, hr⟩ ⟨hlock, h0, h1⟩

theorem failsWithCode_resetQueue (index : UInt16) :
    FailsWithCode (virtioResetQueue index) := by
  intro ok s rc s' hrun
  unfold virtioResetQueue at hrun
  rcases Prog.runs_bind_iff.mp hrun with ⟨timeout, s1, _, hrun⟩
  rcases Prog.runs_bind_iff.mp hrun with ⟨r, s2, hset, hrun⟩
  cases r with
  | error rc' =>
      cases (Prog.runs_ret_iff.mp hrun).1
      exact failsWithCode_section _ _ _ _ _ _ hset
  | ok _ =>
      rcases Prog.runs_bind_iff.mp hrun with ⟨value, s3, _, hrun⟩
      refine Prog.runs_iterate_inv (J := fun _ _ => True)
        (Q := fun r _ => r = .error rc -> rc ≠ .EOK) ?_ trivial hrun rfl
      intro state s r s1 _ hbody
      unfold queueResetRound at hbody
      by_cases hgo : state.1 ≠ 0 ∧ 0 < state.2
      · rw [if_pos hgo] at hbody
        rcases Prog.runs_bind_iff.mp hbody with ⟨_, _, _, hbody⟩
        rcases Prog.runs_bind_iff.mp hbody with ⟨_, _, _, hbody⟩
        rcases Prog.runs_bind_iff.mp hbody with ⟨_, _, _, hbody⟩
        rcases Prog.runs_bind_iff.mp hbody with ⟨r', s5, hget, hbody⟩
        cases r' with
        | error rc' =>
            cases (Prog.runs_ret_iff.mp hbody).1
            intro heq
            cases heq
            exact failsWithCode_section _ _ _ _ _ _ hget
        | ok value =>
            cases (Prog.runs_ret_iff.mp hbody).1
            trivial
      · rw [if_neg hgo] at hbody
        cases (Prog.runs_ret_iff.mp hbody).1
        intro heq
        split at heq
        · cases heq
        · cases heq
          decide

/-!
## Invariants of the elementary changes
-/

/-- What the elementary register accesses of the queue layer keep. -/
structure RegisterInvariant (I : VirtioSystem -> Prop) : Prop where
  locked : forall s b, I s -> I { s with locked := b }
  access : forall s index reg, I s -> I (s.access index reg)
  write : forall s index reg value, reg ≠ .align -> I s ->
    I (s.writeQueue index reg value)
  select : forall s index, I s -> I (s.selectQueue index)
  windows : forall s ws, I s -> I { s with windows := ws }

/-- What the elementary changes of the queue layer keep. -/
structure QueueInvariant (I : VirtioSystem -> Prop) : Prop extends
    RegisterInvariant I where
  host : forall s h, I s -> I { s with host := h }

namespace RegisterInvariant

variable {I : VirtioSystem -> Prop}

theorem underLock (hI : RegisterInvariant I)
    {body : VirtioEnv -> VirtioSystem -> Except Rc α × VirtioSystem}
    (hbody : forall e s, I s -> I (body e s).2) {e : VirtioEnv} {r : Except Rc α}
    (hs : I s) (h : Virtio.underLock body e s = some (r, s')) : I s' := by
  rcases underLock_cases h with ⟨_, _, rfl⟩ | ⟨_, _, _, rfl⟩
  · exact hs
  · exact hI.locked _ _ (hbody e _ (hI.locked _ _ hs))

theorem onSelected (hI : RegisterInvariant I) (index : UInt16)
    {op : VirtioEnv -> VirtioSystem -> α × VirtioSystem}
    (hop : forall e s, I s -> I (op e s).2) (e : VirtioEnv) (hs : I s) :
    I (Virtio.onSelected index op e s).2 := by
  rcases onSelected_cases index op e s with ⟨_, h⟩ | ⟨_, _, h⟩ | ⟨_, _, h⟩
  · rw [h]
    exact hs
  · rw [h]
    exact hI.select _ _ hs
  · rw [h]
    exact hop e _ (hI.select _ _ hs)

theorem queueSection (hI : RegisterInvariant I) (index : UInt16)
    {op : VirtioEnv -> VirtioSystem -> α × VirtioSystem}
    (hop : forall e s, I s -> I (op e s).2) :
    Prog.Preserves I (Virtio.queueSection index op) :=
  Prog.preserves_action fun _ _ _ _ h hs =>
    hI.underLock (fun e _ => hI.onSelected index hop e) hs h

theorem virtioMaxQueueSize (hI : RegisterInvariant I) (index : UInt16) :
    Prog.Preserves I (Virtio.virtioMaxQueueSize index) := by
  refine hI.queueSection index fun e s hs => ?_
  unfold maxQueueSize
  cases s.transport with
  | mmio => exact hI.access _ _ _ hs
  | pci => exact hI.access _ _ _ hs

theorem virtioSetQueueSize (hI : RegisterInvariant I) (index size : UInt16)
    (owner : Option Nat) :
    Prog.Preserves I (Virtio.virtioSetQueueSize index size owner) := by
  refine hI.queueSection index fun e s hs => ?_
  have hwrite := hI.write s index .size size.toUInt64 (by decide) hs
  cases owner with
  | none => exact hwrite
  | some t => exact hI.windows _ _ hwrite

theorem virtioSetQueueReset (hI : RegisterInvariant I) (index : UInt16) :
    Prog.Preserves I (Virtio.virtioSetQueueReset index) :=
  hI.queueSection index fun _ s hs => hI.write s index .reset 1 (by decide) hs

theorem virtioGetQueueReset (hI : RegisterInvariant I) (index : UInt16) :
    Prog.Preserves I (Virtio.virtioGetQueueReset index) := by
  refine hI.queueSection index fun e s hs => ?_
  unfold getQueueReset
  cases s.transport with
  | mmio => exact hI.access _ _ _ hs
  | pci => exact hI.access _ _ _ hs

end RegisterInvariant

theorem preserves_stuck {I : VirtioSystem -> Prop} :
    Prog.Preserves I (stuck : VirtioProg α) := by
  refine Prog.preserves_action fun e s b s' hf _ => ?_
  cases hf

theorem preserves_delayFor {I : VirtioSystem -> Prop} (ms : Nat) :
    Prog.Preserves I (delayFor ms) := by
  refine Prog.preserves_iterate (fun remaining => ?_) ms
  by_cases h : 0 < remaining
  · rw [if_pos h]
    exact Prog.preserves_bind (Prog.preserves_ask _) fun _ => Prog.preserves_ret _
  · rw [if_neg h]
    exact Prog.preserves_ret _

namespace RegisterInvariant

variable {I : VirtioSystem -> Prop}

theorem queueResetRound (hI : RegisterInvariant I) (index : UInt16)
    (state : UInt32 × Nat) : Prog.Preserves I (Virtio.queueResetRound index state) := by
  unfold Virtio.queueResetRound
  by_cases h : state.1 ≠ 0 ∧ 0 < state.2
  · rw [if_pos h]
    refine Prog.preserves_bind (Prog.preserves_read _) fun _ => ?_
    refine Prog.preserves_bind (preserves_delayFor _) fun _ => ?_
    refine Prog.preserves_bind (Prog.preserves_read _) fun _ => ?_
    refine Prog.preserves_bind (hI.virtioGetQueueReset index) fun r => ?_
    cases r with
    | error rc => exact Prog.preserves_ret _
    | ok value => exact Prog.preserves_ret _
  · rw [if_neg h]
    exact Prog.preserves_ret _

theorem virtioResetQueue (hI : RegisterInvariant I) (index : UInt16) :
    Prog.Preserves I (Virtio.virtioResetQueue index) := by
  unfold Virtio.virtioResetQueue
  refine Prog.preserves_bind (Prog.preserves_read _) fun timeout => ?_
  refine Prog.preserves_bind (hI.virtioSetQueueReset index) fun r => ?_
  cases r with
  | error rc => exact Prog.preserves_ret _
  | ok _ =>
      refine Prog.preserves_bind (Prog.preserves_ask _) fun value => ?_
      exact Prog.preserves_iterate (fun state => hI.queueResetRound index state) _

theorem writeSelected (hI : RegisterInvariant I) (index : UInt16) {reg : QueueReg}
    (hreg : reg ≠ .align) (value : UInt64) :
    Prog.Preserves I (Virtio.writeSelected index reg value) :=
  Prog.preserves_modify fun s hs => hI.write s index reg value hreg hs

theorem writeLast (hI : RegisterInvariant I) (t : Nat) (index : UInt16) {reg : QueueReg}
    (hreg : reg ≠ .align) (value : UInt64) :
    Prog.Preserves I (Virtio.writeLast t index reg value) :=
  Prog.preserves_modify fun s hs =>
    hI.windows _ (s.windows.erase (t, index)) (hI.write s index reg value hreg hs)

theorem virtioMmioSetQueueAddr (hI : RegisterInvariant I) (t : Nat) (index : UInt16)
    (vq : Option Virtq) :
    Prog.Preserves I (Virtio.virtioMmioSetQueueAddr t index vq) := by
  cases vq with
  | none => exact Prog.preserves_ret _
  | some vq =>
      refine Prog.preserves_bind (Prog.preserves_read _) fun legacy => ?_
      cases legacy with
      | true =>
          simp only [if_true]
          split
          · exact preserves_stuck
          · exact Prog.preserves_bind (hI.writeLast t index (by decide) _)
              fun _ => Prog.preserves_ret _
      | false =>
          refine Prog.preserves_bind (hI.writeSelected index (by decide) _) fun _ => ?_
          refine Prog.preserves_bind (hI.writeSelected index (by decide) _) fun _ => ?_
          refine Prog.preserves_bind (hI.writeSelected index (by decide) _) fun _ => ?_
          refine Prog.preserves_bind (hI.writeSelected index (by decide) _) fun _ => ?_
          refine Prog.preserves_bind (hI.writeSelected index (by decide) _) fun _ => ?_
          exact Prog.preserves_bind (hI.writeLast t index (by decide) _)
            fun _ => Prog.preserves_ret _

theorem virtioPciSetQueueAddr (hI : RegisterInvariant I) (t : Nat) (index : UInt16)
    (vq : Option Virtq) :
    Prog.Preserves I (Virtio.virtioPciSetQueueAddr t index vq) := by
  cases vq with
  | none => exact Prog.preserves_ret _
  | some vq =>
      refine Prog.preserves_bind (hI.writeSelected index (by decide) _) fun _ => ?_
      refine Prog.preserves_bind (hI.writeSelected index (by decide) _) fun _ => ?_
      exact Prog.preserves_bind (hI.writeLast t index (by decide) _) fun _ => Prog.preserves_ret _

theorem virtioSetQueueAddr (hI : RegisterInvariant I) (t : Nat) (index : UInt16)
    (vq : Option Virtq) : Prog.Preserves I (Virtio.virtioSetQueueAddr t index vq) := by
  refine Prog.preserves_bind (Prog.preserves_read _) fun transport => ?_
  cases transport with
  | mmio => exact hI.virtioMmioSetQueueAddr t index vq
  | pci => exact hI.virtioPciSetQueueAddr t index vq

end RegisterInvariant

/-!
## Creation
-/

theorem QueueInvariant.onHost {I : VirtioSystem -> Prop} (hI : QueueInvariant I)
    (p : Prog Env Host α) : Prog.Preserves I (Virtio.onHost p) :=
  Prog.preserves_embed selectsHost (fun h s hs => hI.host s h hs) p

theorem failsWithCode_setQueueAddr (t : Nat) (index : UInt16) (vq : Option Virtq) :
    FailsWithCode (virtioSetQueueAddr t index vq) := by
  intro ok s rc s' hrun
  rcases Prog.runs_bind_iff.mp hrun with ⟨transport, s1, _, hrun⟩
  cases vq with
  | none =>
      cases transport with
      | mmio =>
          cases (Prog.runs_ret_iff.mp hrun).1
          decide
      | pci =>
          cases (Prog.runs_ret_iff.mp hrun).1
          decide
  | some vq =>
      cases transport with
      | mmio =>
          rcases Prog.runs_bind_iff.mp hrun with ⟨legacy, s2, _, hrun⟩
          cases legacy with
          | true =>
              simp only [if_true] at hrun
              split at hrun
              · rcases Prog.runs_action_iff.mp hrun with ⟨e, _, hf⟩
                cases hf
              · cases hrun.eq_of_bind_ret
          | false =>
              simp only [Bool.false_eq_true, if_false, Prog.bind_eq_bind,
                ← Prog.bind_assoc, virtqAvailPaddr, virtqUsedPaddr] at hrun
              cases hrun.eq_of_bind_ret
      | pci =>
          simp only [virtioPciSetQueueAddr, virtqDescPaddr, virtqAvailPaddr,
            virtqUsedPaddr, Prog.bind_eq_bind, ← Prog.bind_assoc] at hrun
          cases hrun.eq_of_bind_ret

theorem runs_startInterruptThread {index : UInt16} {u : Unit}
    (hrun : Prog.Runs ok s (startInterruptThread index) u s') :
    exists h, s' = (({ s with host := h }).hear (.created index)).observe
      (.created index) := by
  rcases Prog.runs_bind_iff.mp hrun with ⟨r, s1, halloc, hrun⟩
  cases r with
  | error rc =>
      rcases Prog.runs_action_iff.mp hrun with ⟨e, _, hf⟩
      cases hf
  | ok block =>
      rcases runs_onHost halloc with ⟨h, _, rfl⟩
      exact ⟨_, (Prog.runs_modify_iff.mp hrun).2⟩

/-- What a queue creation leaves behind: on success the last thing that happens is the
start of the interrupt thread. -/
def CreateOutcome (I : VirtioSystem -> Prop) (index : UInt16) (rc : Rc)
    (s' : VirtioSystem) : Prop :=
  (rc ≠ .EOK ∧ I s') ∨
    (rc = .EOK ∧ exists s1, I s1 ∧
      s' = (s1.hear (.created index)).observe (.created index))

theorem QueueInvariant.runs_programQueue {I : VirtioSystem -> Prop}
    (hI : QueueInvariant I) {t : Nat} {index size : UInt16} {vq : Option VirtqObject}
    {out : Rc × Option VirtqObject} (hs : I s)
    (hrun : Prog.Runs ok s (virtioProgramQueue t index size vq) out s') :
    CreateOutcome I index out.1 s' := by
  unfold virtioProgramQueue at hrun
  rcases Prog.runs_bind_iff.mp hrun with ⟨r, s1, hreset, hrun⟩
  have h1 : I s1 := hI.virtioResetQueue index _ _ _ _ hreset hs
  cases r with
  | error rc =>
      rcases Prog.runs_ret_iff.mp hrun with ⟨rfl, rfl⟩
      exact Or.inl ⟨failsWithCode_resetQueue _ _ _ _ _ hreset, h1⟩
  | ok _ =>
      rcases Prog.runs_bind_iff.mp hrun with ⟨r, s2, hsize, hrun⟩
      have h2 : I s2 := hI.virtioSetQueueSize index size _ _ _ _ _ hsize h1
      cases r with
      | error rc =>
          rcases Prog.runs_ret_iff.mp hrun with ⟨rfl, rfl⟩
          exact Or.inl ⟨failsWithCode_section _ _ _ _ _ _ hsize, h2⟩
      | ok _ =>
          rcases Prog.runs_bind_iff.mp hrun with ⟨r, s3, haddr, hrun⟩
          have h3 : I s3 := hI.virtioSetQueueAddr t index _ _ _ _ _ haddr h2
          cases r with
          | error rc =>
              rcases Prog.runs_ret_iff.mp hrun with ⟨rfl, rfl⟩
              exact Or.inl ⟨failsWithCode_setQueueAddr _ _ _ _ _ _ _ haddr, h3⟩
          | ok _ =>
              rcases Prog.runs_bind_iff.mp hrun with ⟨u, s4, hstart, hrun⟩
              rcases runs_startInterruptThread hstart with ⟨h, rfl⟩
              rcases Prog.runs_ret_iff.mp hrun with ⟨rfl, rfl⟩
              exact Or.inr ⟨rfl, _, hI.host _ h h3, rfl⟩

theorem QueueInvariant.runs_createQueue {I : VirtioSystem -> Prop}
    (hI : QueueInvariant I) {t : Nat} {index size : UInt16}
    {out : Rc × Option VirtqObject} (hs : I s)
    (hrun : Prog.Runs ok s (virtioCreateQueue t index size) out s') :
    CreateOutcome I index out.1 s' := by
  unfold virtioCreateQueue at hrun
  rcases Prog.runs_bind_iff.mp hrun with ⟨garbage, s1, hgarbage, hrun⟩
  have h1 : I s1 := by
    rcases Prog.runs_action_iff.mp hgarbage with ⟨e, _, hf⟩
    cases hf
    exact hs
  rcases Prog.runs_bind_iff.mp hrun with ⟨max, s2, hmax, hrun⟩
  have h2 : I s2 := hI.virtioMaxQueueSize index _ _ _ _ hmax h1
  by_cases hzero : clampSize size (max.toOption.getD garbage) = 0
  · simp only [hzero, if_true] at hrun
    rcases Prog.runs_ret_iff.mp hrun with ⟨rfl, rfl⟩
    exact Or.inl ⟨by decide, h2⟩
  · simp only [hzero, if_false] at hrun
    rcases Prog.runs_bind_iff.mp hrun with ⟨legacy, s3, hlegacy, hrun⟩
    have h3 : I s3 := Prog.preserves_read _ _ _ _ _ hlegacy h2
    rcases Prog.runs_bind_iff.mp hrun with ⟨⟨rc, vq⟩, s4, hcreate, hrun⟩
    have h4 : I s4 := hI.onHost _ _ _ _ _ hcreate h3
    by_cases hrc : rc = .EOK
    · rw [if_neg (not_not_intro hrc)] at hrun
      exact hI.runs_programQueue h4 hrun
    · rw [if_pos hrc] at hrun
      rcases Prog.runs_ret_iff.mp hrun with ⟨rfl, rfl⟩
      exact Or.inl ⟨hrc, h4⟩

end Virtio
end QnxVirtio
