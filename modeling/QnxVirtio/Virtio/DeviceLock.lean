import QnxVirtio.Foundation.Spinlock
import QnxVirtio.Virtio.Notify

/-!
# The device lock

The operations under the device lock with every register access as a step of its own, over
the registers of a device that keeps what is written to it.  To the threads the device
looks as if each queue had its registers for itself: where the queue-select register
points to in between is not seen.
-/

namespace QnxVirtio
namespace Virtio

open Foundation

/-!
## Sections
-/

/-- What a queue operation does once its queue is selected. -/
inductive QueueOp
  | notify
  | enable (on : Bool)
  | setReset
  | getReset
  | maxSize
  | setSize (size : UInt16)

inductive DeviceOp
  | addStatus (status : UInt8)
  | queue (index : UInt16) (op : QueueOp)

/-- What an operation stores through its out parameter. -/
inductive DeviceValue
  | none
  | size (size : UInt16)
  | reset (value : UInt32)

abbrev DeviceAnswer : Type :=
  Except Rc DeviceValue

/-- The registers of the device, and the stores that notified it.  The status register has
32 bits on MMIO. -/
structure DeviceWindow where
  regs : DeviceRegs
  status : UInt32
  doorbells : List Doorbell

abbrev WindowProg (α : Type) : Type 1 :=
  Prog VirtioEnv DeviceWindow α

/-- The checks that a transport operation starts with. -/
def transportChecks : WindowProg Rc :=
  Prog.action fun e w => some (e.transport 0, w)

def writeReg (reg : QueueReg) (value : UInt64) : WindowProg Unit :=
  Prog.modify fun w => { w with regs := w.regs.write reg value }

def ring (bell : Doorbell) : WindowProg Unit :=
  Prog.modify fun w => { w with doorbells := w.doorbells ++ [bell] }

def notifySteps (transport : Transport) (layout : NotifyLayout) (index : UInt16) :
    WindowProg Unit :=
  match transport with
  | .mmio => ring (mmioDoorbell index)
  | .pci => do
      let select <- Prog.read fun w => w.regs.queueSel
      ring (pciDoorbell layout select index)

def enableSteps (transport : Transport) (on : Bool) : WindowProg Unit :=
  let value : UInt64 := if on then 1 else 0
  match transport with
  | .mmio => writeReg .ready value
  | .pci => do
      writeReg .msixVector 0
      writeReg .ready value

/-- The device clears the register when the reset is done. -/
def getResetSteps (transport : Transport) : WindowProg UInt32 :=
  Prog.action fun e w =>
    match transport with
    | .mmio => some (e.reg, w)
    | .pci => some (e.reg.toUInt16.toUInt32, w)

def QueueOp.steps (transport : Transport) (layout : NotifyLayout) (index : UInt16) :
    QueueOp -> WindowProg DeviceValue
  | .notify => do
      notifySteps transport layout index
      pure .none
  | .enable on => do
      enableSteps transport on
      pure .none
  | .setReset => do
      writeReg .reset 1
      pure .none
  | .getReset => do
      let value <- getResetSteps transport
      pure (.reset value)
  | .maxSize => do
      let size <- Prog.read fun w => w.regs.maxQueueSize transport w.regs.queueSel
      pure (.size size)
  | .setSize size => do
      writeReg .size size.toUInt64
      pure .none

/-- `select_queue`. -/
def selectSteps (index : UInt16) : WindowProg Unit :=
  Prog.modify fun w => { w with regs := { w.regs with queueSel := index } }

/-- The section of a queue operation. -/
def queueSteps (transport : Transport) (layout : NotifyLayout) (index : UInt16)
    (op : QueueOp) : WindowProg DeviceAnswer := do
  let rc <- transportChecks
  if rc ≠ .EOK then pure (.error rc)
  else
    selectSteps index
    let rc <- transportChecks
    if rc ≠ .EOK then pure (.error rc)
    else
      let value <- op.steps transport layout index
      pure (.ok value)

/-- The section of `virtio_add_device_status`. -/
def addStatusSteps (status : UInt8) : WindowProg DeviceAnswer := do
  let rc <- transportChecks
  if rc ≠ .EOK then pure (.error rc)
  else
    let current <- Prog.read fun w => w.status.toUInt8
    let rc <- transportChecks
    if rc ≠ .EOK then pure (.error rc)
    else
      Prog.modify fun w => { w with status := (current ||| status).toUInt32 }
      pure (.ok .none)

def deviceObject (transport : Transport) (layout : NotifyLayout) :
    LockedObject VirtioEnv DeviceWindow DeviceOp DeviceAnswer where
  refused e _ := if e.lock ≠ .EOK then some (.error e.lock) else none
  body
    | .addStatus status => addStatusSteps status
    | .queue index op => queueSteps transport layout index op

/-!
## The device without a select register
-/

/-- A device whose queues have their own registers. -/
structure OpenDevice where
  sizeMax : UInt16 -> UInt32
  queue : UInt16 -> QueueReg -> Option UInt64
  status : UInt8
  doorbells : List Doorbell

namespace OpenDevice

def write (index : UInt16) (reg : QueueReg) (value : UInt64) (d : OpenDevice) :
    OpenDevice :=
  { d with
    queue := Function.update d.queue index
      (Function.update (d.queue index) reg (some value)) }

def maxQueueSize (transport : Transport) (index : UInt16) (d : OpenDevice) : UInt16 :=
  match transport with
  | .mmio => (d.sizeMax index).toUInt16
  | .pci =>
      match d.queue index .size with
      | some size => size.toUInt16
      | none => (d.sizeMax index).toUInt16

def bell (transport : Transport) (layout : NotifyLayout) (index : UInt16) : Doorbell :=
  match transport with
  | .mmio => mmioDoorbell index
  | .pci => pciDoorbell layout index index

def enable (transport : Transport) (index : UInt16) (on : Bool) (d : OpenDevice) :
    OpenDevice :=
  let value : UInt64 := if on then 1 else 0
  match transport with
  | .mmio => d.write index .ready value
  | .pci => (d.write index .msixVector 0).write index .ready value

end OpenDevice

/-- The queue operations on the open device. -/
inductive QueueEffect (transport : Transport) (layout : NotifyLayout) (d : OpenDevice)
    (index : UInt16) : QueueOp -> DeviceValue -> OpenDevice -> Prop
  | notify : QueueEffect transport layout d index .notify .none
      { d with doorbells := d.doorbells ++ [OpenDevice.bell transport layout index] }
  | enable (on : Bool) : QueueEffect transport layout d index (.enable on) .none
      (d.enable transport index on)
  | setReset : QueueEffect transport layout d index .setReset .none
      (d.write index .reset 1)
  | getReset (value : UInt32) :
      QueueEffect transport layout d index .getReset (.reset value) d
  | maxSize : QueueEffect transport layout d index .maxSize
      (.size (d.maxQueueSize transport index)) d
  | setSize (size : UInt16) : QueueEffect transport layout d index (.setSize size) .none
      (d.write index .size size.toUInt64)

/-- The operations on the open device.  A call that fails changes nothing. -/
inductive DeviceEffect (transport : Transport) (layout : NotifyLayout) (d : OpenDevice) :
    DeviceOp -> DeviceAnswer -> OpenDevice -> Prop
  | failed (op : DeviceOp) (rc : Rc) : rc ≠ .EOK ->
      DeviceEffect transport layout d op (.error rc) d
  | addStatus (status : UInt8) : DeviceEffect transport layout d (.addStatus status)
      (.ok .none) { d with status := d.status ||| status }
  | queue {index : UInt16} {op : QueueOp} {value : DeviceValue} {d' : OpenDevice} :
      QueueEffect transport layout d index op value d' ->
      DeviceEffect transport layout d (.queue index op) (.ok value) d'

/-- The registers show the open device. -/
structure DeviceWindow.Shows (w : DeviceWindow) (d : OpenDevice) : Prop where
  sizeMax : w.regs.sizeMax = d.sizeMax
  queue : w.regs.queue = d.queue
  status : w.status.toUInt8 = d.status
  doorbells : w.doorbells = d.doorbells

namespace DeviceWindow.Shows

variable {ok : VirtioEnv -> Prop} {w w' : DeviceWindow} {d : OpenDevice} {index : UInt16}

theorem select (h : w.Shows d) (index : UInt16) :
    DeviceWindow.Shows { w with regs := { w.regs with queueSel := index } } d :=
  ⟨h.sizeMax, h.queue, h.status, h.doorbells⟩

theorem write (h : w.Shows d) (hselect : w.regs.queueSel = index) (reg : QueueReg)
    (value : UInt64) :
    DeviceWindow.Shows { w with regs := w.regs.write reg value }
      (d.write index reg value) := by
  constructor
  · exact h.sizeMax
  · change Function.update w.regs.queue w.regs.queueSel _ = Function.update d.queue index _
    rw [hselect, h.queue]
  · exact h.status
  · exact h.doorbells

theorem maxQueueSize (h : w.Shows d) (hselect : w.regs.queueSel = index)
    (transport : Transport) :
    w.regs.maxQueueSize transport w.regs.queueSel = d.maxQueueSize transport index := by
  have hqueue : w.regs.queue index .size = d.queue index .size := by rw [h.queue]
  have hsize : w.regs.sizeMax index = d.sizeMax index := by rw [h.sizeMax]
  rw [hselect]
  cases transport with
  | mmio => exact congrArg UInt32.toUInt16 hsize
  | pci =>
      unfold DeviceRegs.maxQueueSize OpenDevice.maxQueueSize
      cases hstored : d.queue index .size with
      | none => simp only [hqueue, hstored, hsize]
      | some size => simp only [hqueue, hstored]

theorem ring (h : w.Shows d) (bell : Doorbell) :
    DeviceWindow.Shows { w with doorbells := w.doorbells ++ [bell] }
      { d with doorbells := d.doorbells ++ [bell] } := by
  constructor
  · exact h.sizeMax
  · exact h.queue
  · exact h.status
  · change w.doorbells ++ [bell] = d.doorbells ++ [bell]
    rw [h.doorbells]

theorem steps {transport : Transport} {layout : NotifyLayout} {op : QueueOp}
    {value : DeviceValue} (h : w.Shows d) (hselect : w.regs.queueSel = index)
    (hrun : Prog.Runs ok w (op.steps transport layout index) value w') :
    exists d', QueueEffect transport layout d index op value d' ∧ w'.Shows d' := by
  cases op with
  | notify =>
      rcases Prog.runs_bind_iff.mp hrun with ⟨_, w1, hbell, hret⟩
      rcases Prog.runs_ret_iff.mp hret with ⟨rfl, rfl⟩
      refine ⟨_, QueueEffect.notify, ?_⟩
      cases transport with
      | mmio =>
          rcases Prog.runs_modify_iff.mp hbell with ⟨_, rfl⟩
          exact h.ring _
      | pci =>
          rcases Prog.runs_bind_iff.mp hbell with ⟨_, _, hread, hring⟩
          rcases Prog.runs_read_iff.mp hread with ⟨_, rfl, rfl⟩
          rcases Prog.runs_modify_iff.mp hring with ⟨_, rfl⟩
          rw [hselect]
          exact h.ring _
  | enable on =>
      rcases Prog.runs_bind_iff.mp hrun with ⟨_, w1, henable, hret⟩
      rcases Prog.runs_ret_iff.mp hret with ⟨rfl, rfl⟩
      refine ⟨_, QueueEffect.enable on, ?_⟩
      cases transport with
      | mmio =>
          rcases Prog.runs_modify_iff.mp henable with ⟨_, rfl⟩
          exact h.write hselect _ _
      | pci =>
          rcases Prog.runs_bind_iff.mp henable with ⟨_, _, hvector, hready⟩
          rcases Prog.runs_modify_iff.mp hvector with ⟨_, rfl⟩
          rcases Prog.runs_modify_iff.mp hready with ⟨_, rfl⟩
          exact (h.write hselect .msixVector 0).write hselect _ _
  | setReset =>
      rcases Prog.runs_bind_iff.mp hrun with ⟨_, w1, hwrite, hret⟩
      rcases Prog.runs_ret_iff.mp hret with ⟨rfl, rfl⟩
      rcases Prog.runs_modify_iff.mp hwrite with ⟨_, rfl⟩
      exact ⟨_, QueueEffect.setReset, h.write hselect _ _⟩
  | getReset =>
      rcases Prog.runs_bind_iff.mp hrun with ⟨v, w1, hread, hret⟩
      rcases Prog.runs_ret_iff.mp hret with ⟨rfl, rfl⟩
      rcases Prog.runs_action_iff.mp hread with ⟨e, _, hf⟩
      refine ⟨d, QueueEffect.getReset v, ?_⟩
      cases transport with
      | mmio =>
          cases hf
          exact h
      | pci =>
          cases hf
          exact h
  | maxSize =>
      rcases Prog.runs_bind_iff.mp hrun with ⟨_, _, hread, hret⟩
      rcases Prog.runs_read_iff.mp hread with ⟨_, rfl, rfl⟩
      rcases Prog.runs_ret_iff.mp hret with ⟨rfl, rfl⟩
      rw [h.maxQueueSize hselect]
      exact ⟨d, QueueEffect.maxSize, h⟩
  | setSize size =>
      rcases Prog.runs_bind_iff.mp hrun with ⟨_, w1, hwrite, hret⟩
      rcases Prog.runs_ret_iff.mp hret with ⟨rfl, rfl⟩
      rcases Prog.runs_modify_iff.mp hwrite with ⟨_, rfl⟩
      exact ⟨_, QueueEffect.setSize size, h.write hselect _ _⟩

end DeviceWindow.Shows

theorem transportChecks_runs {ok : VirtioEnv -> Prop} {w w' : DeviceWindow} {rc : Rc}
    (h : Prog.Runs ok w transportChecks rc w') : w' = w := by
  rcases Prog.runs_action_iff.mp h with ⟨e, _, hf⟩
  cases hf
  rfl

theorem queueSteps_effect {ok : VirtioEnv -> Prop} {transport : Transport}
    {layout : NotifyLayout} {index : UInt16} {op : QueueOp} {w w' : DeviceWindow}
    {d : OpenDevice} {answer : DeviceAnswer} (h : w.Shows d)
    (hrun : Prog.Runs ok w (queueSteps transport layout index op) answer w') :
    exists d', DeviceEffect transport layout d (.queue index op) answer d' ∧
      w'.Shows d' := by
  rcases Prog.runs_bind_iff.mp hrun with ⟨rc, w1, hchecks, hrest⟩
  rcases transportChecks_runs hchecks with rfl
  by_cases hrc : rc ≠ .EOK
  · rw [if_pos hrc] at hrest
    rcases Prog.runs_ret_iff.mp hrest with ⟨rfl, rfl⟩
    exact ⟨d, DeviceEffect.failed _ rc hrc, h⟩
  · rw [if_neg hrc] at hrest
    rcases Prog.runs_bind_iff.mp hrest with ⟨_, w2, hselect, hrest⟩
    rcases Prog.runs_modify_iff.mp hselect with ⟨_, rfl⟩
    rcases Prog.runs_bind_iff.mp hrest with ⟨rc', w3, hchecks, hrest⟩
    rcases transportChecks_runs hchecks with rfl
    by_cases hrc' : rc' ≠ .EOK
    · rw [if_pos hrc'] at hrest
      rcases Prog.runs_ret_iff.mp hrest with ⟨rfl, rfl⟩
      exact ⟨d, DeviceEffect.failed _ rc' hrc', h.select index⟩
    · rw [if_neg hrc'] at hrest
      rcases Prog.runs_bind_iff.mp hrest with ⟨value, w4, hsteps, hret⟩
      rcases Prog.runs_ret_iff.mp hret with ⟨rfl, rfl⟩
      rcases (h.select index).steps rfl hsteps with ⟨d', heffect, hshows⟩
      exact ⟨d', DeviceEffect.queue heffect, hshows⟩

theorem addStatusSteps_effect {ok : VirtioEnv -> Prop} {transport : Transport}
    {layout : NotifyLayout} {status : UInt8} {w w' : DeviceWindow} {d : OpenDevice}
    {answer : DeviceAnswer} (h : w.Shows d)
    (hrun : Prog.Runs ok w (addStatusSteps status) answer w') :
    exists d', DeviceEffect transport layout d (.addStatus status) answer d' ∧
      w'.Shows d' := by
  rcases Prog.runs_bind_iff.mp hrun with ⟨rc, w1, hchecks, hrest⟩
  rcases transportChecks_runs hchecks with rfl
  by_cases hrc : rc ≠ .EOK
  · rw [if_pos hrc] at hrest
    rcases Prog.runs_ret_iff.mp hrest with ⟨rfl, rfl⟩
    exact ⟨d, DeviceEffect.failed _ rc hrc, h⟩
  · rw [if_neg hrc] at hrest
    rcases Prog.runs_bind_iff.mp hrest with ⟨_, _, hread, hrest⟩
    rcases Prog.runs_read_iff.mp hread with ⟨_, rfl, rfl⟩
    rcases Prog.runs_bind_iff.mp hrest with ⟨rc', w3, hchecks, hrest⟩
    rcases transportChecks_runs hchecks with rfl
    by_cases hrc' : rc' ≠ .EOK
    · rw [if_pos hrc'] at hrest
      rcases Prog.runs_ret_iff.mp hrest with ⟨rfl, rfl⟩
      exact ⟨d, DeviceEffect.failed _ rc' hrc', h⟩
    · rw [if_neg hrc'] at hrest
      rcases Prog.runs_bind_iff.mp hrest with ⟨_, w4, hwrite, hret⟩
      rcases Prog.runs_modify_iff.mp hwrite with ⟨_, rfl⟩
      rcases Prog.runs_ret_iff.mp hret with ⟨rfl, rfl⟩
      refine ⟨_, DeviceEffect.addStatus status, ?_⟩
      rw [h.status]
      exact ⟨h.sizeMax, h.queue, by simp, h.doorbells⟩

theorem deviceObject_implements (transport : Transport) (layout : NotifyLayout) :
    (deviceObject transport layout).Implements (DeviceEffect transport layout)
      DeviceWindow.Shows where
  body := by
    intro w d op answer w' h hrun
    cases op with
    | addStatus status => exact addStatusSteps_effect h hrun
    | queue index op => exact queueSteps_effect h hrun
  refused := by
    intro w d e op answer _ hrefused
    change (if e.lock ≠ .EOK then some (Except.error e.lock) else none) =
      some answer at hrefused
    split at hrefused
    · rename_i hlock
      cases hrefused
      exact DeviceEffect.failed op e.lock hlock
    · cases hrefused

/-!
## One step or many
-/

/-- The operation on the selected queue as one step. -/
def QueueOp.atomic (index : UInt16) (op : QueueOp) (e : VirtioEnv) (s : VirtioSystem) :
    DeviceValue × VirtioSystem :=
  match op with
  | .notify => (.none, (notifyQueue index e s).2)
  | .enable on => (.none, (enableQueue index on e s).2)
  | .setReset => (.none, (setQueueReset index e s).2)
  | .getReset => (.reset (getQueueReset index e s).1, (getQueueReset index e s).2)
  | .maxSize => (.size (maxQueueSize index e s).1, (maxQueueSize index e s).2)
  | .setSize size => (.none, (setQueueSize index size none e s).2)

/-- Alone, the accesses do what the operation does as one step; `reg` is what the device
answers to a read of a register of its own. -/
theorem QueueOp.steps_atomic {ok : VirtioEnv -> Prop} {layout : NotifyLayout}
    {index : UInt16} {op : QueueOp} {w w' : DeviceWindow} {value : DeviceValue}
    {s : VirtioSystem} (hregs : s.regs = w.regs)
    (hrun : Prog.Runs ok w (op.steps s.transport layout index) value w') :
    exists reg, forall e : VirtioEnv, e.reg = reg ->
      (op.atomic index e s).1 = value ∧ (op.atomic index e s).2.regs = w'.regs := by
  cases op with
  | notify =>
      rcases Prog.runs_bind_iff.mp hrun with ⟨_, w1, hbell, hret⟩
      rcases Prog.runs_ret_iff.mp hret with ⟨rfl, rfl⟩
      refine ⟨0, fun e _ => ⟨rfl, ?_⟩⟩
      change (notifyQueue index e s).2.regs = w'.regs
      unfold notifyQueue
      cases htransport : s.transport with
      | mmio =>
          rw [htransport] at hbell
          rcases Prog.runs_modify_iff.mp hbell with ⟨_, rfl⟩
          exact hregs
      | pci =>
          rw [htransport] at hbell
          rcases Prog.runs_bind_iff.mp hbell with ⟨_, _, hread, hring⟩
          rcases Prog.runs_read_iff.mp hread with ⟨_, rfl, rfl⟩
          rcases Prog.runs_modify_iff.mp hring with ⟨_, rfl⟩
          exact hregs
  | enable on =>
      rcases Prog.runs_bind_iff.mp hrun with ⟨_, w1, henable, hret⟩
      rcases Prog.runs_ret_iff.mp hret with ⟨rfl, rfl⟩
      refine ⟨0, fun e _ => ⟨rfl, ?_⟩⟩
      change (enableQueue index on e s).2.regs = w'.regs
      unfold enableQueue
      cases htransport : s.transport with
      | mmio =>
          rw [htransport] at henable
          rcases Prog.runs_modify_iff.mp henable with ⟨_, rfl⟩
          exact congrArg (DeviceRegs.write _ _) hregs
      | pci =>
          rw [htransport] at henable
          rcases Prog.runs_bind_iff.mp henable with ⟨_, _, hvector, hready⟩
          rcases Prog.runs_modify_iff.mp hvector with ⟨_, rfl⟩
          rcases Prog.runs_modify_iff.mp hready with ⟨_, rfl⟩
          exact congrArg (fun r => (DeviceRegs.write .msixVector 0 r).write .ready _) hregs
  | setReset =>
      rcases Prog.runs_bind_iff.mp hrun with ⟨_, w1, hwrite, hret⟩
      rcases Prog.runs_ret_iff.mp hret with ⟨rfl, rfl⟩
      rcases Prog.runs_modify_iff.mp hwrite with ⟨_, rfl⟩
      exact ⟨0, fun e _ => ⟨rfl, congrArg (DeviceRegs.write _ _) hregs⟩⟩
  | getReset =>
      rcases Prog.runs_bind_iff.mp hrun with ⟨v, w1, hread, hret⟩
      rcases Prog.runs_ret_iff.mp hret with ⟨rfl, rfl⟩
      rcases Prog.runs_action_iff.mp hread with ⟨e₀, _, hf⟩
      refine ⟨e₀.reg, fun e he => ?_⟩
      unfold QueueOp.atomic getQueueReset
      cases htransport : s.transport with
      | mmio =>
          simp only [htransport] at hf
          cases hf
          exact ⟨congrArg DeviceValue.reset he, hregs⟩
      | pci =>
          simp only [htransport] at hf
          cases hf
          exact ⟨congrArg (fun r => DeviceValue.reset r.toUInt16.toUInt32) he, hregs⟩
  | maxSize =>
      rcases Prog.runs_bind_iff.mp hrun with ⟨_, _, hread, hret⟩
      rcases Prog.runs_read_iff.mp hread with ⟨_, rfl, rfl⟩
      rcases Prog.runs_ret_iff.mp hret with ⟨rfl, rfl⟩
      refine ⟨0, fun e _ => ?_⟩
      rw [← hregs]
      unfold QueueOp.atomic maxQueueSize
      cases s.transport with
      | mmio => exact ⟨rfl, rfl⟩
      | pci => exact ⟨rfl, rfl⟩
  | setSize size =>
      rcases Prog.runs_bind_iff.mp hrun with ⟨_, w1, hwrite, hret⟩
      rcases Prog.runs_ret_iff.mp hret with ⟨rfl, rfl⟩
      rcases Prog.runs_modify_iff.mp hwrite with ⟨_, rfl⟩
      exact ⟨0, fun e _ => ⟨rfl, congrArg (DeviceRegs.write _ _) hregs⟩⟩

theorem queueSteps_atomic {ok : VirtioEnv -> Prop} {layout : NotifyLayout}
    {index : UInt16} {op : QueueOp} {w w' : DeviceWindow} {answer : DeviceAnswer}
    {s : VirtioSystem} (hregs : s.regs = w.regs)
    (hrun : Prog.Runs ok w (queueSteps s.transport layout index op) answer w') :
    exists e s', onSelected index (op.atomic index) e s = (answer, s') ∧
      s'.regs = w'.regs := by
  rcases Prog.runs_bind_iff.mp hrun with ⟨rc, w1, hchecks, hrest⟩
  rcases transportChecks_runs hchecks with rfl
  by_cases hrc : rc ≠ .EOK
  · rw [if_pos hrc] at hrest
    rcases Prog.runs_ret_iff.mp hrest with ⟨rfl, rfl⟩
    refine ⟨{ transport := fun _ => rc }, s, ?_, hregs⟩
    simp [onSelected, hrc]
  · rw [if_neg hrc] at hrest
    rcases Prog.runs_bind_iff.mp hrest with ⟨_, w2, hselect, hrest⟩
    rcases Prog.runs_modify_iff.mp hselect with ⟨_, rfl⟩
    rcases Prog.runs_bind_iff.mp hrest with ⟨rc', w3, hchecks, hrest⟩
    rcases transportChecks_runs hchecks with rfl
    have hselected : (s.selectQueue index).regs =
        { w1.regs with queueSel := index } := by
      rw [← hregs]
      rfl
    by_cases hrc' : rc' ≠ .EOK
    · rw [if_pos hrc'] at hrest
      rcases Prog.runs_ret_iff.mp hrest with ⟨rfl, rfl⟩
      refine ⟨{ transport := fun n => if n = 0 then .EOK else rc' },
        s.selectQueue index, ?_, hselected⟩
      simp [onSelected, hrc']
    · rw [if_neg hrc'] at hrest
      rcases Prog.runs_bind_iff.mp hrest with ⟨value, w4, hsteps, hret⟩
      rcases Prog.runs_ret_iff.mp hret with ⟨rfl, rfl⟩
      have hsteps' : Prog.Runs ok _ (op.steps (s.selectQueue index).transport layout index)
          value w' := hsteps
      rcases QueueOp.steps_atomic hselected hsteps' with ⟨reg, hatomic⟩
      rcases hatomic { reg := reg } rfl with ⟨hvalue, hafter⟩
      refine ⟨{ reg := reg }, _, ?_, hafter⟩
      simp [onSelected, hvalue]

/-!
## Linearizability
-/

/-- What the registers show before the first call. -/
def DeviceWindow.open (w : DeviceWindow) : OpenDevice where
  sizeMax := w.regs.sizeMax
  queue := w.regs.queue
  status := w.status.toUInt8
  doorbells := w.doorbells

theorem DeviceWindow.shows_open (w : DeviceWindow) : w.Shows w.open :=
  ⟨rfl, rfl, rfl, rfl⟩

/-- The status bits that a call added. -/
def addedStatus (c : Effect (CallId Nat) DeviceOp DeviceAnswer) : Option UInt8 :=
  match c.op, c.out with
  | .addStatus status, .ok _ => some status
  | .addStatus _, .error _ => none
  | .queue _ _, _ => none

theorem status_of_run {transport : Transport} {layout : NotifyLayout} {d d' : OpenDevice}
    {order : List (Effect (CallId Nat) DeviceOp DeviceAnswer)}
    (h : SequentialRun (DeviceEffect transport layout) d order d') :
    d'.status = (order.filterMap addedStatus).foldl (· ||| ·) d.status := by
  induction order generalizing d with
  | nil =>
      cases h
      rfl
  | cons c order ih =>
      rcases h with ⟨d1, heffect, hrest⟩
      rcases c with ⟨id, op, out⟩
      rw [ih hrest]
      cases heffect with
      | failed op rc hrc =>
          cases op with
          | addStatus status => rfl
          | queue index op => rfl
      | addStatus status => rfl
      | queue hqueue =>
          cases hqueue with
          | notify => rfl
          | enable on =>
              cases transport with
              | mmio => rfl
              | pci => rfl
          | setReset => rfl
          | getReset value => rfl
          | maxSize => rfl
          | setSize size => rfl

/-- On both transports the operations under the device lock, register access by register
access, are linearizable operations on a device whose queues have their own registers.  No
status bit that a call added is lost to another call. -/
theorem device_linearizable {transport : Transport} {layout : NotifyLayout}
    {window : DeviceWindow} {scripts : Nat -> Nat -> DeviceOp}
    {w : Locked Nat DeviceWindow DeviceOp DeviceAnswer}
    (hreach : (deviceObject transport layout).Reachable window scripts w) :
    exists order, Linearizes (DeviceEffect transport layout) window.open
        (history w.log) order ∧
      exists d, SequentialRun (DeviceEffect transport layout) window.open order d ∧
        (w.held = false -> w.val.Shows d ∧ w.val.status.toUInt8 =
          (order.filterMap addedStatus).foldl (· ||| ·) window.status.toUInt8) := by
  rcases (deviceObject_implements transport layout).linearizable window.shows_open hreach with
    ⟨order, hlinearizes, d, hrun, hshows⟩
  refine ⟨order, hlinearizes, d, hrun, fun hfree => ⟨hshows hfree, ?_⟩⟩
  rw [(hshows hfree).status]
  exact status_of_run hrun

/-- The registers of a device that nobody has used. -/
def freshWindow : DeviceWindow where
  regs := (VirtioSystem.initial .pci).regs
  status := 0
  doorbells := []

/-- Thread 0 sets the size of queue 3, the others add the bit 1. -/
def sizeAndStatus (t _ : Nat) : DeviceOp :=
  if t = 0 then .queue 3 (.setSize 16) else .addStatus 1

def deviceMoves (t n : Nat) : List (Move Nat VirtioEnv Empty) :=
  List.replicate n (.thread t {})

/-- A status bit is added while a size is being set. -/
theorem device_linearizable_two :
    exists w : Locked Nat DeviceWindow DeviceOp DeviceAnswer,
      (history w.log).length = 4 ∧
        exists order, Linearizes (DeviceEffect .pci ⟨fun _ => 0, 4⟩) freshWindow.open
            (history w.log) order ∧
          exists d, SequentialRun (DeviceEffect .pci ⟨fun _ => 0, 4⟩) freshWindow.open
              order d ∧
            (w.held = false -> w.val.Shows d ∧ w.val.status.toUInt8 =
              (order.filterMap addedStatus).foldl (· ||| ·)
                freshWindow.status.toUInt8) := by
  have hrun : ((((deviceObject .pci ⟨fun _ => 0, 4⟩).pool freshWindow sizeAndStatus).run
      LockedObject.noDevice
      (deviceMoves 1 2 ++ deviceMoves 0 9 ++ deviceMoves 1 7)).map fun c =>
        (history c.state.log).length) = some 4 := by
    decide +kernel
  rcases Option.map_eq_some_iff.mp hrun with ⟨c, hc, hlength⟩
  exact ⟨c.state, hlength, device_linearizable
    ⟨c, Pool.reachable_run Pool.Reachable.refl (fun _ _ _ => trivial) hc, rfl⟩⟩

end Virtio
end QnxVirtio
