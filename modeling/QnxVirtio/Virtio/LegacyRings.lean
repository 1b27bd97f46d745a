import QnxVirtio.Foundation.Align
import QnxVirtio.Virtio.InitLedger

/-!
# Where a legacy device looks for its rings

A legacy MMIO device computes the addresses of a queue from the page size, the frame
number, the size and the alignment that the driver writes.  The driver never writes the
alignment.
-/

namespace QnxVirtio
namespace Virtio

open Foundation

/-!
## The device's side
-/

namespace DeviceRegs

variable (regs : DeviceRegs) (q : UInt16)

/-- The descriptor table begins with the page of the frame number. -/
def legacyDesc : Option Nat :=
  match regs.guestPageSize, regs.queue q .pfn with
  | some pagesize, some pfn => some (pfn.toNat * pagesize.toNat)
  | _, _ => none

/-- The available ring follows the table. -/
def legacyAvail : Option Nat :=
  match regs.legacyDesc q, regs.queue q .size with
  | some desc, some num => some (desc + 16 * num.toNat)
  | _, _ => none

/-- The used ring begins at the next multiple of the alignment. -/
def legacyUsed : Option Nat :=
  match regs.legacyAvail q, regs.queue q .size, regs.queue q .align with
  | some avail, some num, some align =>
      some (alignUp (avail + (6 + 2 * num.toNat)) align.toNat)
  | _, _, _ => none

end DeviceRegs

/-- The device finds the rings of the queue. -/
structure LegacyAgrees (regs : DeviceRegs) (q : UInt16) (vq : Virtq) : Prop where
  desc : regs.legacyDesc q = some vq.descPaddr
  avail : regs.legacyAvail q = some vq.availPaddr
  used : regs.legacyUsed q = some vq.usedPaddr

/-!
## The driver's side
-/

/-- Nobody has written an alignment. -/
def NoAlign (s : VirtioSystem) : Prop :=
  forall q, s.regs.queue q .align = none

theorem setupInvariant_noAlign : SetupInvariant NoAlign where
  frame := by
    intro s s' hqueue _ _ _ h q
    rw [hqueue]
    exact h q
  account := fun _ _ _ h => h

theorem queueInvariant_noAlign : QueueInvariant NoAlign where
  host := fun _ _ h => h
  locked := fun _ _ h => h
  access := fun _ _ _ h => h
  write := by
    intro s index reg value hreg h q
    change (s.regs.write reg value).queue q .align = none
    unfold DeviceRegs.write
    by_cases hq : q = s.regs.queueSel
    · subst hq
      simpa [hreg.symm] using h s.regs.queueSel
    · simpa [hq] using h q
  select := fun _ _ h => h
  windows := fun _ _ h => h

theorem not_legacyAgrees {s : VirtioSystem} (h : NoAlign s) (q : UInt16) (vq : Virtq) :
    ¬ LegacyAgrees s.regs q vq := by
  intro hagree
  have hused := hagree.used
  unfold DeviceRegs.legacyUsed at hused
  rw [h q] at hused
  split at hused
  · next halign => cases halign
  · cases hused

/-- Whatever the page size, the size and the base of a queue: a legacy device that is
initialised and given the queue does not find its rings. -/
theorem legacy_rings_never_found (vdev : Nat) (type : UInt16) (t : Nat)
    (index size : UInt16) (ok : VirtioEnv -> Prop) (s s1 s' : VirtioSystem)
    (obj : VirtqObject) (halign : forall q, s.regs.queue q .align = none)
    (hinit : Prog.Runs ok s (virtioMmioInit vdev type) .EOK s1)
    (hcreate : Prog.Runs ok s1 (virtioCreateQueue t index size) (.EOK, some obj) s') :
    ¬ LegacyAgrees s'.regs index obj.vq := by
  have h1 : NoAlign s1 :=
    setupInvariant_noAlign.virtioMmioInit vdev type _ _ _ _ hinit halign
  rcases queueInvariant_noAlign.runs_createQueue h1 hcreate with
    ⟨hrc, _⟩ | ⟨_, s2, h2, rfl⟩
  · exact absurd rfl hrc
  · exact not_legacyAgrees h2 index obj.vq

/-- A legacy MMIO device that shows its identity. -/
def legacyAnswers (i : Nat) : VirtioEnv where
  mmap := .ok (8192, 8192)
  reg :=
    if i = 6 then VIRTIO_MMIO_MAGIC
    else if i = 7 then VIRTIO_MMIO_VERSION_LEGACY
    else VIRTIO_DT_GPIO.toUInt32

def legacyInit : Rc × VirtioSystem × Nat :=
  (Prog.execOn legacyAnswers 60 0 (VirtioSystem.initial .mmio)
    (virtioMmioInit 0 VIRTIO_DT_GPIO)).get (by decide +kernel)

theorem legacyInit_runs :
    Prog.Runs (fun _ => True) (VirtioSystem.initial .mmio)
      (virtioMmioInit 0 VIRTIO_DT_GPIO) .EOK legacyInit.2.1 := by
  have hrun := (Prog.runsOn_of_execOn (Option.some_get _).symm :
    Prog.RunsOn legacyAnswers 0 (VirtioSystem.initial .mmio)
      (virtioMmioInit 0 VIRTIO_DT_GPIO) legacyInit.1 legacyInit.2.1 legacyInit.2.2).runs
  rw [show legacyInit.1 = .EOK by decide +kernel] at hrun
  exact hrun

/-- Answers that let the creation of a queue succeed. -/
def mappingAnswers (i : Nat) : VirtioEnv where
  mmap := .ok (4096 * (i + 1), 4096 * (i + 1))
  malloc := some fun _ => 0

def legacyTwo : (Rc × Option VirtqObject) × VirtioSystem × Nat :=
  (Prog.execOn mappingAnswers 100 0 legacyInit.2.1 (virtioCreateQueue 0 0 2)).get
    (by decide +kernel)

def legacyTwoObject : VirtqObject :=
  legacyTwo.1.2.get (by decide +kernel)

theorem legacyTwo_runs :
    Prog.Runs (fun _ => True) legacyInit.2.1 (virtioCreateQueue 0 0 2)
      (.EOK, some legacyTwoObject) legacyTwo.2.1 := by
  have hrun := (Prog.runsOn_of_execOn (Option.some_get _).symm :
    Prog.RunsOn mappingAnswers 0 legacyInit.2.1 (virtioCreateQueue 0 0 2) legacyTwo.1
      legacyTwo.2.1 legacyTwo.2.2).runs
  have hout : legacyTwo.1 = (.EOK, some legacyTwoObject) :=
    Prod.ext (by decide +kernel) (Option.some_get _).symm
  rw [hout] at hrun
  exact hrun

theorem legacy_rings_never_found_two :
    ¬ LegacyAgrees legacyTwo.2.1.regs 0 legacyTwoObject.vq :=
  legacy_rings_never_found 0 VIRTIO_DT_GPIO 0 0 2 (fun _ => True)
    (VirtioSystem.initial .mmio) _ _ _ (fun _ => rfl) legacyInit_runs legacyTwo_runs

/-- With pages of 4 KiB and a queue of two descriptors the used ring is not found. -/
theorem legacy_rings_lost :
    ¬ forall (vdev : Nat) (type : UInt16) (t : Nat) (index size : UInt16)
      (ok : VirtioEnv -> Prop) (s s1 s' : VirtioSystem) (obj : VirtqObject),
      (forall q, s.regs.queue q .align = none) ->
      (exists k, s.host.pagesize.toNat = 2 ^ k) ->
      Prog.Runs ok s (virtioMmioInit vdev type) .EOK s1 -> s1.legacy = true ->
      Prog.Runs ok s1 (virtioCreateQueue t index size) (.EOK, some obj) s' ->
      obj.vq.descPaddr % s.host.pagesize.toNat = 0 ->
      obj.vq.descPaddr / s.host.pagesize.toNat < 2 ^ 32 ->
      LegacyAgrees s'.regs index obj.vq := by
  intro hclaim
  have hagree := hclaim 0 VIRTIO_DT_GPIO 0 0 2 (fun _ => True)
    (VirtioSystem.initial .mmio) _ _ _ (fun _ => rfl) ⟨12, rfl⟩ legacyInit_runs
    (by decide +kernel) legacyTwo_runs (by decide +kernel) (by decide +kernel)
  have hnone : legacyTwo.2.1.regs.legacyUsed 0 = none := by decide +kernel
  exact absurd (hnone.symm.trans hagree.used) (by simp)

end Virtio
end QnxVirtio
