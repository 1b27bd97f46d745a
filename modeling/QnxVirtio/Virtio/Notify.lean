import QnxVirtio.Foundation.Bytes
import QnxVirtio.Foundation.Watch
import QnxVirtio.Virtio.Queues

/-!
# Notifications

What `virtio_notify_queue` stores to the device: to the notify register of an MMIO device,
and into the notify region of a PCI device.
-/

namespace QnxVirtio
namespace Virtio

open Foundation

/-- The numbers of a PCI device that place the doorbells: `queue_notify_off` of each queue
and the multiplier of the notify capability. -/
structure NotifyLayout where
  queueNotifyOff : UInt16 -> UInt16
  notifyOffMultiplier : UInt32

/-- A store that notifies the device. -/
inductive Doorbell
  | register (value : UInt32)
  | region (offset : Nat) (bytes : List UInt8)

/-- `virtio_mmio_notify_queue`. -/
def mmioDoorbell (index : UInt16) : Doorbell :=
  .register index.toUInt32

/-- `virtio_pci_notify_queue`.  The product has 32 bits, and the store has one byte. -/
def pciDoorbell (layout : NotifyLayout) (select index : UInt16) : Doorbell :=
  .region ((layout.queueNotifyOff select).toUInt32 * layout.notifyOffMultiplier).toNat
    [index.toUInt8]

/-- The doorbell that a call for `index` rings in state `s`, where its queue is selected. -/
def doorbell (layout : NotifyLayout) (index : UInt16) (s : VirtioSystem) : Doorbell :=
  match s.transport with
  | .mmio => mmioDoorbell index
  | .pci => pciDoorbell layout s.regs.queueSel index

def watchedNotifyQueue (layout : NotifyLayout) (index : UInt16) :
    Prog VirtioEnv (Watched VirtioSystem Doorbell) (Except Rc Unit) :=
  Prog.noting
    (fun _ s r =>
      match r with
      | .ok _ => [doorbell layout index (s.selectQueue index)]
      | .error _ => [])
    (underLock (onSelected index (notifyQueue index)))

theorem watches_notifyQueue (layout : NotifyLayout) (index : UInt16) :
    (virtioNotifyQueue index).Watches (watchedNotifyQueue layout index) :=
  Prog.watches_noting _ _

/-!
## What the device is told
-/

/-- The number that a list of bytes stands for. -/
def littleEndian : List UInt8 -> Nat
  | [] => 0
  | b :: bytes => b.toNat + 256 * littleEndian bytes

/-- The device is told of `index`, on PCI at the doorbell of that queue. -/
def Doorbell.Delivers (layout : NotifyLayout) (index : UInt16) : Doorbell -> Prop
  | .register value => value.toNat = index.toNat
  | .region offset bytes =>
      offset = (layout.queueNotifyOff index).toNat * layout.notifyOffMultiplier.toNat ∧
        littleEndian bytes = index.toNat

theorem toNat_mul_iff (a b : UInt32) :
    (a * b).toNat = a.toNat * b.toNat <-> a.toNat * b.toNat < 2 ^ 32 := by
  rw [UInt32.toNat_mul]
  constructor
  · intro h
    rw [← h]
    exact Nat.mod_lt _ (by decide)
  · exact Nat.mod_eq_of_lt

theorem toUInt8_iff (index : UInt16) : index.toUInt8.toNat = index.toNat <-> index.toNat < 256 := by
  rw [UInt16.toNat_toUInt8]
  constructor
  · intro h
    rw [← h]
    exact Nat.mod_lt _ (by decide)
  · exact Nat.mod_eq_of_lt

theorem mmioDoorbell_delivers (layout : NotifyLayout) (index : UInt16) :
    (mmioDoorbell index).Delivers layout index :=
  UInt16.toNat_toUInt32 index

theorem pciDoorbell_delivers_iff (layout : NotifyLayout) (index : UInt16) :
    (pciDoorbell layout index index).Delivers layout index <->
      (layout.queueNotifyOff index).toNat * layout.notifyOffMultiplier.toNat < 2 ^ 32 ∧
        index.toNat < 256 := by
  refine and_congr ?_ ?_
  · rw [← UInt16.toNat_toUInt32 (layout.queueNotifyOff index)]
    exact toNat_mul_iff _ _
  · exact toUInt8_iff index

theorem doorbell_delivers_iff (layout : NotifyLayout) (index : UInt16)
    (s : VirtioSystem) :
    (doorbell layout index (s.selectQueue index)).Delivers layout index <->
      s.transport = .mmio ∨
        (layout.queueNotifyOff index).toNat * layout.notifyOffMultiplier.toNat < 2 ^ 32 ∧
          index.toNat < 256 := by
  unfold doorbell
  change Doorbell.Delivers layout index (match s.transport with
    | .mmio => mmioDoorbell index
    | .pci => pciDoorbell layout index index) <-> _
  cases s.transport with
  | mmio => simp [mmioDoorbell_delivers]
  | pci => simp [pciDoorbell_delivers_iff]

section Runs

variable {σ : Nat -> VirtioEnv} {i j : Nat} {index : UInt16} {s s' : VirtioSystem}

theorem events_notifyQueue {layout : NotifyLayout} {es : List Doorbell}
    (hrun : Prog.RunsOn σ i ⟨s, []⟩ (watchedNotifyQueue layout index) (.ok ()) ⟨s', es⟩ j) :
    es = [doorbell layout index (s.selectQueue index)] := by
  rcases Prog.runsOn_noting_iff.mp hrun with ⟨s1, _, hw, _⟩
  exact congrArg Watched.events hw

/-- A notification is delivered to the right place with the full index when it goes to a
register, or when product and index are small. -/
theorem notify_delivers_iff (layout : NotifyLayout)
    (hrun : Prog.RunsOn σ i s (virtioNotifyQueue index) (.ok ()) s' j) :
    exists bell,
      Prog.RunsOn σ i ⟨s, []⟩ (watchedNotifyQueue layout index) (.ok ()) ⟨s', [bell]⟩ j ∧
      (bell.Delivers layout index <-> s.transport = .mmio ∨
        (layout.queueNotifyOff index).toNat * layout.notifyOffMultiplier.toNat < 2 ^ 32 ∧
          index.toNat < 256) := by
  rcases (watches_notifyQueue layout index).runsOn hrun [] with ⟨es, hwatched⟩
  have hes := events_notifyQueue hwatched
  subst hes
  exact ⟨_, hwatched, doorbell_delivers_iff layout index s⟩

end Runs

/-- One doorbell of 4 bytes for each queue. -/
def spacedLayout : NotifyLayout where
  queueNotifyOff index := index
  notifyOffMultiplier := 4

theorem notifyQueue_runs (index : UInt16) :
    exists s', Prog.RunsOn (fun _ => {}) 0 (VirtioSystem.initial .pci)
      (virtioNotifyQueue index) (.ok ()) s' 1 :=
  ⟨_, Prog.runsOn_action_iff.mpr ⟨rfl, rfl⟩⟩

theorem notify_delivers_three :
    exists s' bell, Prog.RunsOn (fun _ => {}) 0 ⟨VirtioSystem.initial .pci, []⟩
      (watchedNotifyQueue spacedLayout 3) (.ok ()) ⟨s', [bell]⟩ 1 ∧
        bell.Delivers spacedLayout 3 := by
  rcases notifyQueue_runs 3 with ⟨s', hrun⟩
  rcases notify_delivers_iff spacedLayout hrun with ⟨bell, hwatched, hiff⟩
  exact ⟨s', bell, hwatched, hiff.mpr (Or.inr ⟨by decide, by decide⟩)⟩

/-- Queue 256 is notified as queue 0. -/
theorem notify_truncates :
    ¬ forall (layout : NotifyLayout) (σ : Nat -> VirtioEnv) (i j : Nat) (index : UInt16)
        (s s' : VirtioSystem),
      Prog.RunsOn σ i s (virtioNotifyQueue index) (.ok ()) s' j ->
      exists bell,
        Prog.RunsOn σ i ⟨s, []⟩ (watchedNotifyQueue layout index) (.ok ()) ⟨s', [bell]⟩ j ∧
          bell.Delivers layout index := by
  intro hclaim
  rcases notifyQueue_runs 256 with ⟨s', hrun⟩
  rcases hclaim spacedLayout _ _ _ _ _ _ hrun with ⟨bell, hwatched, hdelivers⟩
  rw [List.singleton_inj.mp (events_notifyQueue hwatched),
    doorbell_delivers_iff] at hdelivers
  rcases hdelivers with h | h
  · cases h
  · exact absurd h.2 (by decide)

end Virtio
end QnxVirtio
