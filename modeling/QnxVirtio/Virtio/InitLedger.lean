import QnxVirtio.Virtio.QueueSpecs
import QnxVirtio.Virtio.Init

/-!
# What a failed initialisation releases

Every resource of a failed `virtio_gpio_init` would have to be released exactly once.
The structure of the GPIO device itself is released on no path.
-/

namespace QnxVirtio
namespace Virtio

open Foundation

/-!
## The setup of a device
-/

/-- What the transports and `virtio_init` leave alone: they touch no register of a queue
and no status, and release everything but the GPIO device. -/
structure SetupInvariant (I : VirtioSystem -> Prop) : Prop where
  frame : forall s s' : VirtioSystem, s'.regs.queue = s.regs.queue -> s'.heard = s.heard ->
    s'.trace = s.trace -> s'.ledger = s.ledger -> I s -> I s'
  account : forall s e, e ≠ .released .gpioDevice -> I s -> I (s.account e)

namespace SetupInvariant

variable {α : Type} {I : VirtioSystem -> Prop}

theorem onHost (hI : SetupInvariant I) (p : Prog Env Host α) :
    Prog.Preserves I (Virtio.onHost p) :=
  Prog.preserves_embed selectsHost (fun _ s hs => hI.frame s _ rfl rfl rfl rfl hs) p

theorem note (hI : SetupInvariant I) {e : ResourceEvent}
    (he : e ≠ .released .gpioDevice) : Prog.Preserves I (Virtio.note e) :=
  Prog.preserves_modify fun s hs => hI.account s e he hs

theorem callocResource (hI : SetupInvariant I) (r : Resource) :
    Prog.Preserves I (Virtio.callocResource r) := by
  refine Prog.preserves_bind (hI.onHost _) fun block => ?_
  cases block with
  | error rc => exact Prog.preserves_ret _
  | ok block =>
      refine Prog.preserves_bind (hI.note ?_) fun _ => Prog.preserves_ret _
      intro h
      cases h

theorem freeResource (hI : SetupInvariant I) {r : Resource} (hr : r ≠ .gpioDevice)
    (block : Nat) : Prog.Preserves I (Virtio.freeResource r block) := by
  refine Prog.preserves_bind (hI.onHost _) fun _ => hI.note ?_
  intro h
  cases h
  exact hr rfl

theorem virtioInit (hI : SetupInvariant I) : Prog.Preserves I Virtio.virtioInit := by
  refine Prog.preserves_bind (hI.callocResource _) fun vdev => ?_
  cases vdev with
  | error rc => exact Prog.preserves_ret _
  | ok vdev =>
      refine Prog.preserves_bind ?_ fun rc => ?_
      · refine Prog.preserves_action fun e s b s' hf hs => ?_
        cases hf
        exact hI.frame s _ rfl rfl rfl rfl hs
      · refine Prog.preserves_bind ?_ fun _ => Prog.preserves_ret _
        exact Prog.preserves_modify fun s hs => hI.frame s _ rfl rfl rfl rfl hs

theorem virtioDestroy (hI : SetupInvariant I) (vdev : Nat) :
    Prog.Preserves I (Virtio.virtioDestroy vdev) := by
  refine Prog.preserves_bind (hI.note (by decide)) fun _ => ?_
  refine Prog.preserves_bind (Prog.preserves_ask _) fun rc => ?_
  by_cases hrc : rc = .EOK
  · rw [if_neg (not_not_intro hrc)]
    exact Prog.preserves_bind (hI.freeResource (by decide) vdev)
      fun _ => Prog.preserves_ret _
  · rw [if_pos hrc]
    exact Prog.preserves_ret _

theorem freeMdev (hI : SetupInvariant I) (vdev mdev : Nat) (rc : Rc) :
    Prog.Preserves I (Virtio.freeMdev vdev mdev rc) := by
  refine Prog.preserves_bind (hI.freeResource (by decide) mdev) fun _ => ?_
  exact Prog.preserves_bind (hI.virtioDestroy vdev) fun _ => Prog.preserves_ret _

theorem freePdev (hI : SetupInvariant I) (vdev pdev : Nat) (rc : Rc) :
    Prog.Preserves I (Virtio.freePdev vdev pdev rc) :=
  hI.freeMdev vdev pdev rc

theorem mapRegisters (hI : SetupInvariant I) : Prog.Preserves I Virtio.mapRegisters := by
  refine Prog.preserves_action fun e s b s' hf hs => ?_
  cases hmap : e.mmap with
  | error f =>
      simp only [hmap, Option.some.injEq, Prod.mk.injEq] at hf
      rw [← hf.2]
      exact hs
  | ok addr =>
      simp only [hmap, Option.some.injEq, Prod.mk.injEq] at hf
      rw [← hf.2]
      exact hI.account s _ (by decide) hs

theorem readRegister (hI : SetupInvariant I) : Prog.Preserves I Virtio.readRegister := by
  refine Prog.preserves_action fun e s b s' hf hs => ?_
  cases hf
  exact hI.account s _ (by decide) hs

theorem setGuestPageSize (hI : SetupInvariant I) (legacy : Bool) (pagesize : UInt16) :
    Prog.Preserves I (Virtio.setGuestPageSize legacy pagesize) := by
  cases legacy with
  | true => exact Prog.preserves_modify fun s hs => hI.frame s _ rfl rfl rfl rfl hs
  | false => exact Prog.preserves_ret _

theorem virtioMmioInit (hI : SetupInvariant I) (vdev : Nat) (type : UInt16) :
    Prog.Preserves I (Virtio.virtioMmioInit vdev type) := by
  refine Prog.preserves_bind (hI.callocResource _) fun mdev => ?_
  cases mdev with
  | error rc =>
      exact Prog.preserves_bind (hI.virtioDestroy vdev) fun _ => Prog.preserves_ret _
  | ok mdev =>
      refine Prog.preserves_bind hI.mapRegisters fun mapped => ?_
      cases mapped with
      | error rc => exact hI.freeMdev vdev mdev rc
      | ok _ =>
          refine Prog.preserves_bind (Prog.preserves_read _) fun pagesize => ?_
          refine Prog.preserves_bind (hI.note (by decide)) fun _ => ?_
          refine Prog.preserves_bind (hI.note (by decide)) fun _ => ?_
          refine Prog.preserves_bind hI.readRegister fun magic => ?_
          split
          · exact hI.freeMdev vdev mdev _
          · refine Prog.preserves_bind hI.readRegister fun version => ?_
            refine Prog.preserves_bind
              (Prog.preserves_modify fun s hs => hI.frame s _ rfl rfl rfl rfl hs)
              fun _ => ?_
            refine Prog.preserves_bind hI.readRegister fun deviceId => ?_
            split
            · exact hI.freeMdev vdev mdev _
            · refine Prog.preserves_bind (hI.setGuestPageSize _ _) fun _ => ?_
              refine Prog.preserves_bind ?_ fun _ => Prog.preserves_ret _
              exact Prog.preserves_modify fun s hs => hI.frame s _ rfl rfl rfl rfl hs

end SetupInvariant

section PciQuestions

variable {I : VirtioSystem -> Prop}

theorem preserves_readCap (cfgType : UInt8) : Prog.Preserves I (readCap cfgType) := by
  unfold readCap
  split
  · exact Prog.preserves_ask _
  · exact Prog.preserves_ret _

theorem preserves_findCapsRound (u : Unit) : Prog.Preserves I (findCapsRound u) := by
  refine Prog.preserves_bind (Prog.preserves_ask _) fun found => ?_
  split
  · exact Prog.preserves_ret _
  · refine Prog.preserves_bind (Prog.preserves_ask _) fun r => ?_
    split
    · exact Prog.preserves_ret _
    · refine Prog.preserves_bind (Prog.preserves_ask _) fun r => ?_
      split
      · exact Prog.preserves_ret _
      · refine Prog.preserves_bind (Prog.preserves_ask _) fun cfgType => ?_
        refine Prog.preserves_bind (preserves_readCap cfgType) fun r => ?_
        split
        · exact Prog.preserves_ret _
        · exact Prog.preserves_ret _

theorem preserves_findCaps : Prog.Preserves I virtioPciFindCaps := by
  refine Prog.preserves_bind (Prog.preserves_iterate preserves_findCapsRound ()) fun r => ?_
  split
  · exact Prog.preserves_ret _
  · refine Prog.preserves_bind (Prog.preserves_ask _) fun found => ?_
    split
    · exact Prog.preserves_ret _
    · refine Prog.preserves_bind (Prog.preserves_ask _) fun r => ?_
      split
      · exact Prog.preserves_ret _
      · exact Prog.preserves_ret _

theorem preserves_msixCalls (n : Nat) : Prog.Preserves I (msixCalls n) := by
  induction n with
  | zero => exact Prog.preserves_ret _
  | succ n ih =>
      refine Prog.preserves_bind (Prog.preserves_ask _) fun r => ?_
      split
      · exact Prog.preserves_ret _
      · exact ih

theorem preserves_configureMsix (msix : Bool) (count : UInt16) :
    Prog.Preserves I (configureMsix msix count) := by
  unfold configureMsix
  split
  · exact Prog.preserves_ret _
  · split
    · refine Prog.preserves_bind (Prog.preserves_ask _) fun available => ?_
      split
      · exact Prog.preserves_ret _
      · exact preserves_msixCalls 5
    · exact Prog.preserves_ret _

theorem SetupInvariant.virtioPciInit (hI : SetupInvariant I) (vdev : Nat)
    (count : UInt16) : Prog.Preserves I (Virtio.virtioPciInit vdev count) := by
  refine Prog.preserves_bind (hI.callocResource _) fun pdev => ?_
  cases pdev with
  | error rc =>
      exact Prog.preserves_bind (hI.virtioDestroy vdev) fun _ => Prog.preserves_ret _
  | ok pdev =>
      refine Prog.preserves_bind (hI.note (by decide)) fun _ => ?_
      refine Prog.preserves_bind
        (Prog.preserves_modify fun s hs => hI.frame s _ rfl rfl rfl rfl hs) fun _ => ?_
      refine Prog.preserves_bind (Prog.preserves_ask _) fun found => ?_
      split
      · exact hI.freePdev vdev pdev _
      · refine Prog.preserves_bind (Prog.preserves_ask _) fun rc => ?_
        split
        · exact hI.freePdev vdev pdev _
        · refine Prog.preserves_bind preserves_findCaps fun caps => ?_
          rcases caps with ⟨rc, msix⟩
          simp only
          split
          · exact hI.freePdev vdev pdev _
          · refine Prog.preserves_bind (Prog.preserves_ask _) fun rc => ?_
            split
            · exact hI.freePdev vdev pdev _
            · refine Prog.preserves_bind (preserves_configureMsix _ _) fun rc => ?_
              split
              · exact hI.freePdev vdev pdev _
              · refine Prog.preserves_bind ?_ fun _ => Prog.preserves_ret _
                exact Prog.preserves_modify fun s hs => hI.frame s _ rfl rfl rfl rfl hs

theorem SetupInvariant.transportInit (hI : SetupInvariant I) (mem : UInt64)
    (vdev : Nat) : Prog.Preserves I (Virtio.transportInit mem vdev) := by
  unfold Virtio.transportInit
  split
  · exact hI.virtioMmioInit vdev _
  · exact hI.virtioPciInit vdev _

end PciQuestions

/-!
## The ledger
-/

section Ledger

variable {J : List ResourceEvent -> Prop}

theorem queueInvariant_ledger : QueueInvariant fun s => J s.ledger where
  host := fun _ _ h => h
  locked := fun _ _ h => h
  access := fun _ _ _ h => h
  write := fun _ _ _ _ _ h => h
  select := fun _ _ h => h
  windows := fun _ _ h => h

theorem ledger_transportOp {α : Type} (heard : VirtioEnv -> Heard)
    (event : VirtioEnv -> StatusEvent) (value : VirtioEnv -> α) :
    Prog.Preserves (fun s => J s.ledger) (transportOp heard event value) := by
  refine Prog.preserves_action fun e s b s' hf hs => ?_
  simp only at hf
  split at hf
  · cases hf
    exact hs
  · cases hf
    exact hs

theorem ledger_resetDevice : Prog.Preserves (fun s => J s.ledger) virtioResetDevice := by
  refine Prog.preserves_bind (ledger_transportOp _ _ _) fun r => ?_
  cases r with
  | error rc => exact Prog.preserves_ret _
  | ok _ =>
      refine Prog.preserves_bind (Prog.preserves_read _) fun timeout => ?_
      refine Prog.preserves_bind (ledger_transportOp _ _ _) fun status => ?_
      cases status with
      | error rc => exact Prog.preserves_ret _
      | ok status =>
          refine Prog.preserves_iterate (fun state => ?_) _
          unfold deviceResetRound
          split
          · refine Prog.preserves_bind (Prog.preserves_read _) fun _ => ?_
            refine Prog.preserves_bind (preserves_delayFor _) fun _ => ?_
            refine Prog.preserves_bind (ledger_transportOp _ _ _) fun r => ?_
            cases r with
            | error rc => exact Prog.preserves_ret _
            | ok status => exact Prog.preserves_ret _
          · exact Prog.preserves_ret _

theorem ledger_addDeviceStatus (status : UInt8) :
    Prog.Preserves (fun s => J s.ledger) (virtioAddDeviceStatus status) := by
  refine Prog.preserves_action fun e s b s' hf hs => ?_
  refine queueInvariant_ledger.underLock (s := s.hear _) (fun e s hs => ?_) hs hf
  unfold addDeviceStatus
  split
  · exact hs
  · simp only
    split
    · exact hs
    · exact hs

theorem ledger_createQueue (t : Nat) (index size : UInt16) :
    Prog.Preserves (fun s => J s.ledger) (virtioCreateQueue t index size) := by
  intro ok s out s' hrun hs
  rcases queueInvariant_ledger.runs_createQueue hs hrun with ⟨_, h⟩ | ⟨_, s1, h, rfl⟩
  · exact h
  · exact h

theorem ledger_enableQueue (index : UInt16) (enable : Bool) :
    Prog.Preserves (fun s => J s.ledger) (virtioEnableQueue index enable) := by
  refine Prog.preserves_action fun e s b s' hf hs => ?_
  refine queueInvariant_ledger.underLock (s := s.hear _) (fun e s hs => ?_) hs hf
  have hr : J (onSelected index (enableQueue index enable) e s).2.ledger := by
    refine queueInvariant_ledger.onSelected index (fun e s hs => ?_) e hs
    unfold enableQueue
    cases s.transport with
    | mmio => exact hs
    | pci => exact hs
  unfold noteEnabled
  split
  · cases enable with
    | true => exact hr
    | false => exact hr
  · exact hr

end Ledger

/-- The structure of the GPIO device is there and has not been released. -/
def GpioDeviceHeld (ledger : List ResourceEvent) : Prop :=
  .acquired .gpioDevice ∈ ledger ∧ .released .gpioDevice ∉ ledger

theorem setupInvariant_held : SetupInvariant fun s => GpioDeviceHeld s.ledger where
  frame := by
    intro s s' _ _ _ hledger h
    rw [hledger]
    exact h
  account := by
    intro s e he h
    refine ⟨List.mem_append_left _ h.1, fun hmem => ?_⟩
    rcases List.mem_append.mp hmem with hmem | hmem
    · exact h.2 hmem
    · exact he (List.mem_singleton.mp hmem).symm

theorem held_freeVdev (vdev : Nat) (rc : Rc) :
    Prog.Preserves (fun s => GpioDeviceHeld s.ledger) (freeVdev vdev rc) :=
  Prog.preserves_bind (setupInvariant_held.virtioDestroy vdev)
    fun _ => Prog.preserves_ret _

theorem held_bringUp (t : Nat) (qsize : UInt16) (pdev vdev : Nat) :
    Prog.Preserves (fun s => GpioDeviceHeld s.ledger) (bringUp t qsize pdev vdev) := by
  refine Prog.preserves_bind ledger_resetDevice fun _ => ?_
  refine Prog.preserves_bind (ledger_addDeviceStatus _) fun _ => ?_
  refine Prog.preserves_bind (ledger_addDeviceStatus _) fun _ => ?_
  refine Prog.preserves_bind (ledger_transportOp _ _ _) fun _ => ?_
  refine Prog.preserves_bind (ledger_addDeviceStatus _) fun _ => ?_
  refine Prog.preserves_bind (ledger_createQueue t 0 qsize) fun out => ?_
  rcases out with ⟨rc, vq⟩
  simp only
  split
  · exact held_freeVdev vdev rc
  · refine Prog.preserves_bind (ledger_enableQueue 0 true) fun _ => ?_
    exact Prog.preserves_bind (ledger_addDeviceStatus _) fun _ => Prog.preserves_ret _

/-!
## Released exactly once
-/

/-- Every resource that was acquired has been released once, none twice, and none is used
after its release. -/
structure ReleasedOnce (ledger : List ResourceEvent) : Prop where
  once : forall r, .acquired r ∈ ledger -> ledger.count (.released r) = 1
  notTwice : forall r, ledger.count (.released r) <= 1
  notUsed : forall r before after, ledger = before ++ .released r :: after ->
    .used r ∉ after

theorem releasedOnce_nil : ReleasedOnce [] := by
  constructor
  · intro r h
    cases h
  · intro r
    exact Nat.zero_le 1
  · intro r before after h
    cases before with
    | nil => cases h
    | cons e rest => cases h

theorem not_releasedOnce_of_held {ledger : List ResourceEvent}
    (h : GpioDeviceHeld ledger) : ¬ ReleasedOnce ledger := by
  intro hreleased
  have hone := hreleased.once .gpioDevice h.1
  rw [List.count_eq_zero_of_not_mem h.2] at hone
  cases hone

/-- `*dev`, if there is one, is null. -/
def DevNull (dev : Option (Option Nat)) : Prop :=
  forall p, dev = some p -> p = none

theorem runsOn_callocResource {σ : Nat -> VirtioEnv} {i j : Nat} {s s' : VirtioSystem}
    {r : Resource} {out : Except Rc Nat}
    (hrun : Prog.RunsOn σ i s (callocResource r) out s' j) :
    (exists f, (σ i).calloc = some f ∧ out = .error f.val ∧ s'.ledger = s.ledger) ∨
      ((σ i).calloc = none ∧ (exists block, out = .ok block) ∧
        s'.ledger = s.ledger ++ [.acquired r]) := by
  rcases Prog.runsOn_bind_iff.mp hrun with ⟨a, s1, k, halloc, hrest⟩
  rcases Prog.runsOn_action_iff.mp halloc with ⟨hf, rfl⟩
  cases hcalloc : (σ i).calloc with
  | some f =>
      simp only [hcalloc, Option.map_some, Option.some.injEq, Prod.mk.injEq] at hf
      rcases hf with ⟨rfl, rfl⟩
      rcases Prog.runsOn_ret_iff.mp hrest with ⟨rfl, rfl, _⟩
      exact Or.inl ⟨f, rfl, rfl, rfl⟩
  | none =>
      simp only [hcalloc, Option.map_some, Option.some.injEq, Prod.mk.injEq] at hf
      rcases hf with ⟨rfl, rfl⟩
      rcases Prog.runsOn_bind_iff.mp hrest with ⟨u, s2, k, hnote, hrest⟩
      rcases Prog.runsOn_modify_iff.mp hnote with ⟨rfl, _⟩
      rcases Prog.runsOn_ret_iff.mp hrest with ⟨rfl, rfl, _⟩
      exact Or.inr ⟨rfl, ⟨_, rfl⟩, rfl⟩

theorem held_setUp (t : Nat) (mem : UInt64) (qsize : UInt16) (dev : Option (Option Nat))
    (pdev : Nat) :
    Prog.Preserves (fun s => GpioDeviceHeld s.ledger) (setUp t mem qsize dev pdev) := by
  refine Prog.preserves_bind setupInvariant_held.virtioInit fun out => ?_
  rcases out with ⟨rc, vdev⟩
  cases vdev with
  | none => exact Prog.preserves_ret _
  | some vdev =>
      simp only
      split
      · exact Prog.preserves_ret _
      · refine Prog.preserves_bind (setupInvariant_held.transportInit mem vdev) fun rc => ?_
        split
        · exact held_freeVdev vdev rc
        · exact held_bringUp t qsize pdev vdev

/-- A failed initialisation releases what it acquired exactly when it acquires nothing:
there is no `dev`, or the first allocation fails, which leaves `*dev` as it was. -/
theorem failed_init_releases_iff (t : Nat) (mem : UInt64) (qsize : UInt16)
    (dev : Option (Option Nat)) (σ : Nat -> VirtioEnv) (s s' : VirtioSystem) (j : Nat)
    (rc : Rc) (out : Option (Option Nat)) (hledger : s.ledger = [])
    (hrun : Prog.RunsOn σ 0 s (virtioGpioInit t mem qsize dev) (rc, out) s' j)
    (hfail : rc ≠ .EOK) :
    (ReleasedOnce s'.ledger ∧ DevNull out) <->
      (dev = none ∨ ((σ 0).calloc ≠ none ∧ dev = some none)) := by
  cases dev with
  | none =>
      rcases Prog.runsOn_ret_iff.mp hrun with ⟨hout, rfl, _⟩
      cases hout
      refine iff_of_true ⟨?_, ?_⟩ (Or.inl rfl)
      · rw [hledger]
        exact releasedOnce_nil
      · intro p hp
        cases hp
  | some before =>
      rcases Prog.runsOn_bind_iff.mp hrun with ⟨r, s1, k, hcalloc, hrest⟩
      rcases runsOn_callocResource hcalloc with
        ⟨f, hf, rfl, hs1⟩ | ⟨hnone, ⟨block, rfl⟩, hs1⟩
      · rcases Prog.runsOn_ret_iff.mp hrest with ⟨hout, rfl, _⟩
        cases hout
        rw [hs1, hledger, hf]
        constructor
        · rintro ⟨_, hnull⟩
          exact Or.inr ⟨Option.some_ne_none f, congrArg some (hnull before rfl)⟩
        · rintro (h | ⟨_, h⟩)
          · cases h
          · refine ⟨releasedOnce_nil, fun p hp => ?_⟩
            exact Option.some.inj (hp.symm.trans h)
      · have hheld1 : GpioDeviceHeld s1.ledger := by
          rw [hs1, hledger]
          exact ⟨by decide, by decide⟩
        have hheld : GpioDeviceHeld s'.ledger :=
          held_setUp t mem qsize _ block _ _ _ _ hrest.runs hheld1
        apply iff_of_false
        · rintro ⟨hreleased, _⟩
          exact not_releasedOnce_of_held hheld hreleased
        · rintro (h | ⟨h, _⟩)
          · cases h
          · exact h hnone

def initOn (σ : Nat -> VirtioEnv) :
    Option ((Rc × Option (Option Nat)) × VirtioSystem × Nat) :=
  Prog.execOn σ 60 0 (VirtioSystem.initial .mmio) (virtioGpioInit 0 8192 2 (some none))

theorem initOn_runs {σ : Nat -> VirtioEnv}
    {out : (Rc × Option (Option Nat)) × VirtioSystem × Nat} (h : initOn σ = some out) :
    Prog.RunsOn σ 0 (VirtioSystem.initial .mmio)
      (virtioGpioInit 0 8192 2 (some none)) out.1 out.2.1 out.2.2 :=
  Prog.runsOn_of_execOn h

def noMemoryAnswers (_ : Nat) : VirtioEnv where
  calloc := some Failure.ENOMEM

def noMemory : (Rc × Option (Option Nat)) × VirtioSystem × Nat :=
  (initOn noMemoryAnswers).get (by decide +kernel)

/-- The first allocation fails, and there is nothing to release. -/
theorem failed_init_releases_no_memory :
    noMemory.1.1 ≠ .EOK ∧ ReleasedOnce noMemory.2.1.ledger ∧ DevNull noMemory.1.2 :=
  have hfail : noMemory.1.1 ≠ .EOK := by decide +kernel
  ⟨hfail, (failed_init_releases_iff 0 8192 2 (some none) noMemoryAnswers
    (VirtioSystem.initial .mmio) _ _ _ _ rfl (initOn_runs (Option.some_get _).symm)
    hfail).mpr (Or.inr ⟨by decide, rfl⟩)⟩

/-- The register region can be mapped, but its first word is no magic value. -/
def noMagicAnswers (_ : Nat) : VirtioEnv where
  mmap := .ok (8192, 8192)
  reg := 0

def noMagic : (Rc × Option (Option Nat)) × VirtioSystem × Nat :=
  (initOn noMagicAnswers).get (by decide +kernel)

/-- The `virtio_device` is used and released again after its release. -/
theorem failed_init_double_release :
    ¬ forall (t : Nat) (mem : UInt64) (qsize : UInt16) (dev : Option (Option Nat))
      (σ : Nat -> VirtioEnv) (s s' : VirtioSystem) (j : Nat) (rc : Rc)
      (out : Option (Option Nat)), s.ledger = [] ->
      Prog.RunsOn σ 0 s (virtioGpioInit t mem qsize dev) (rc, out) s' j ->
      rc ≠ .EOK -> ReleasedOnce s'.ledger ∧ DevNull out := by
  intro hclaim
  have hreleased := (hclaim 0 8192 2 (some none) noMagicAnswers
    (VirtioSystem.initial .mmio) noMagic.2.1 _ noMagic.1.1 noMagic.1.2 rfl
    (initOn_runs (Option.some_get _).symm) (by decide +kernel)).1
  have htwice := hreleased.notTwice .virtioDevice
  exact absurd htwice (by decide +kernel)

end Virtio
end QnxVirtio
