import QnxVirtio.Virtio.Regs

/-!
# Queue operations

The queue functions of the device layer.  All of them select their queue under the
device lock, except for the addresses of a new queue, which are written to whatever
queue is selected at the time.
-/

namespace QnxVirtio
namespace Virtio

open Foundation

/-!
## Transport operations on the selected queue
-/

/-- The maximum size is read with 16 bits.  A PCI device shows it in the size register
until the driver writes that. -/
def DeviceRegs.maxQueueSize (regs : DeviceRegs) (transport : Transport) (q : UInt16) :
    UInt16 :=
  match transport with
  | .mmio => (regs.sizeMax q).toUInt16
  | .pci =>
      match regs.queue q .size with
      | some size => size.toUInt16
      | none => (regs.sizeMax q).toUInt16

def maxQueueSize (index : UInt16) (_ : VirtioEnv) (s : VirtioSystem) :
    UInt16 × VirtioSystem :=
  match s.transport with
  | .mmio => (s.regs.maxQueueSize .mmio s.regs.queueSel, s.access index .sizeMax)
  | .pci => (s.regs.maxQueueSize .pci s.regs.queueSel, s.access index .size)

/-- `owner` is the thread that goes on to write the addresses of a new queue. -/
def setQueueSize (index size : UInt16) (owner : Option Nat) (_ : VirtioEnv)
    (s : VirtioSystem) : Unit × VirtioSystem :=
  let s := s.writeQueue index .size size.toUInt64
  match owner with
  | none => ((), s)
  | some t => ((), { s with windows := (t, index) :: s.windows })

def setQueueReset (index : UInt16) (_ : VirtioEnv) (s : VirtioSystem) :
    Unit × VirtioSystem :=
  ((), s.writeQueue index .reset 1)

/-- The device clears the register when the reset is done.  It has 16 bits on PCI. -/
def getQueueReset (index : UInt16) (e : VirtioEnv) (s : VirtioSystem) :
    UInt32 × VirtioSystem :=
  match s.transport with
  | .mmio => (e.reg, s.access index .reset)
  | .pci => (e.reg.toUInt16.toUInt32, s.access index .reset)

/-- The doorbell of a PCI queue is found through its offset register, the one of MMIO is
not a register of the queue. -/
def notifyQueue (index : UInt16) (_ : VirtioEnv) (s : VirtioSystem) :
    Unit × VirtioSystem :=
  match s.transport with
  | .mmio => ((), s)
  | .pci => ((), s.access index .notifyOff)

def enableQueue (index : UInt16) (enable : Bool) (_ : VirtioEnv) (s : VirtioSystem) :
    Unit × VirtioSystem :=
  let value : UInt64 := if enable then 1 else 0
  match s.transport with
  | .mmio => ((), s.writeQueue index .ready value)
  | .pci => ((), (s.writeQueue index .msixVector 0).writeQueue index .ready value)

/-!
## Locked operations
-/

def virtioSetQueueReset (index : UInt16) : VirtioProg (Except Rc Unit) :=
  queueSection index (setQueueReset index)

def virtioGetQueueReset (index : UInt16) : VirtioProg (Except Rc UInt32) :=
  queueSection index (getQueueReset index)

def virtioNotifyQueue (index : UInt16) : VirtioProg (Except Rc Unit) :=
  queueSection index (notifyQueue index)

def virtioMaxQueueSize (index : UInt16) : VirtioProg (Except Rc UInt16) :=
  queueSection index (maxQueueSize index)

def virtioSetQueueSize (index size : UInt16) (owner : Option Nat) :
    VirtioProg (Except Rc Unit) :=
  queueSection index (setQueueSize index size owner)

/-- Queues that have been enabled are noted. -/
def noteEnabled (index : UInt16) (enable : Bool) (r : Except Rc Unit × VirtioSystem) :
    Except Rc Unit × VirtioSystem :=
  match r.1 with
  | .ok _ => (r.1, if enable then r.2.observe (.enabled index) else r.2)
  | .error _ => r

def virtioEnableQueue (index : UInt16) (enable : Bool) : VirtioProg (Except Rc Unit) :=
  Prog.action fun e s =>
    underLock (fun e s => noteEnabled index enable
        (onSelected index (enableQueue index enable) e s)) e
      (s.hear (.enable index e.lock (e.transport 0) (e.transport 1)))

/-- `while (remaining > 0) remaining = delay(remaining)`. -/
def delayFor (ms : Nat) : VirtioProg Unit :=
  Prog.iterate (fun remaining =>
    if 0 < remaining then do
      let unslept <- Prog.action fun e s => some (e.unslept, s)
      pure (.inl unslept)
    else pure (.inr ())) ms

/-- One round of the wait for a queue reset: the value last read and the time left.  The
delay is the poll interval of the device reset. -/
def queueResetRound (index : UInt16) (state : UInt32 × Nat) :
    VirtioProg ((UInt32 × Nat) ⊕ Except Rc Unit) := do
  if state.1 ≠ 0 ∧ 0 < state.2 then
    let interval <- Prog.read VirtioSystem.deviceResetPollIntervalMs
    delayFor interval
    let interval <- Prog.read VirtioSystem.queueResetPollIntervalMs
    let remaining := state.2 - min state.2 interval
    match <- virtioGetQueueReset index with
    | .error rc => pure (.inr (.error rc))
    | .ok value => pure (.inl (value, remaining))
  else pure (.inr (if state.1 = 0 then .ok () else .error .ETIMEDOUT))

/-- The loop starts with an uninitialised value. -/
def virtioResetQueue (index : UInt16) : VirtioProg (Except Rc Unit) := do
  let timeout <- Prog.read VirtioSystem.queueResetTimeoutMs
  match <- virtioSetQueueReset index with
  | .error rc => pure (.error rc)
  | .ok _ =>
      let value <- Prog.action fun e s => some (UInt32.ofNat e.garbage, s)
      Prog.iterate (queueResetRound index) (value, timeout)

/-!
## Addresses
-/

def virtqDescPaddr : Option Virtq -> Except Rc UInt64
  | none => .error .EINVAL
  | some vq => .ok (UInt64.ofNat vq.descPaddr)

def virtqAvailPaddr : Option Virtq -> Except Rc UInt64
  | none => .error .EINVAL
  | some vq => .ok (UInt64.ofNat vq.availPaddr)

def virtqUsedPaddr : Option Virtq -> Except Rc UInt64
  | none => .error .EINVAL
  | some vq => .ok (UInt64.ofNat vq.usedPaddr)

/-- A register write outside of the lock. -/
def writeSelected (index : UInt16) (reg : QueueReg) (value : UInt64) : VirtioProg Unit :=
  Prog.modify fun s => s.writeQueue index reg value

/-- The last address of thread `t`'s new queue. -/
def writeLast (t : Nat) (index : UInt16) (reg : QueueReg) (value : UInt64) :
    VirtioProg Unit :=
  Prog.modify fun s =>
    { s.writeQueue index reg value with windows := s.windows.erase (t, index) }

def lowHalf (paddr : UInt64) : UInt64 :=
  (paddr &&& 0xFFFFFFFF).toUInt32.toUInt64

def highHalf (paddr : UInt64) : UInt64 :=
  (paddr >>> 32).toUInt32.toUInt64

def virtioMmioSetQueueAddr (t : Nat) (index : UInt16) (vq : Option Virtq) :
    VirtioProg (Except Rc Unit) := do
  match virtqDescPaddr vq with
  | .error rc => pure (.error rc)
  | .ok paddr =>
      let legacy <- Prog.read VirtioSystem.legacy
      if legacy then
        let pfn := paddr >>> 12
        if pfn >>> 32 ≠ 0 then stuck
        else
          writeLast t index .pfn pfn.toUInt32.toUInt64
          pure (.ok ())
      else
        writeSelected index (.addrLow .desc) (lowHalf paddr)
        writeSelected index (.addrHigh .desc) (highHalf paddr)
        match virtqAvailPaddr vq with
        | .error rc => pure (.error rc)
        | .ok paddr =>
            writeSelected index (.addrLow .driver) (lowHalf paddr)
            writeSelected index (.addrHigh .driver) (highHalf paddr)
            match virtqUsedPaddr vq with
            | .error rc => pure (.error rc)
            | .ok paddr =>
                writeSelected index (.addrLow .device) (lowHalf paddr)
                writeLast t index (.addrHigh .device) (highHalf paddr)
                pure (.ok ())

def virtioPciSetQueueAddr (t : Nat) (index : UInt16) (vq : Option Virtq) :
    VirtioProg (Except Rc Unit) := do
  match virtqDescPaddr vq with
  | .error rc => pure (.error rc)
  | .ok paddr =>
      writeSelected index (.addr .desc) paddr
      match virtqAvailPaddr vq with
      | .error rc => pure (.error rc)
      | .ok paddr =>
          writeSelected index (.addr .driver) paddr
          match virtqUsedPaddr vq with
          | .error rc => pure (.error rc)
          | .ok paddr =>
              writeLast t index (.addr .device) paddr
              pure (.ok ())

def virtioSetQueueAddr (t : Nat) (index : UInt16) (vq : Option Virtq) :
    VirtioProg (Except Rc Unit) := do
  match <- Prog.read VirtioSystem.transport with
  | .mmio => virtioMmioSetQueueAddr t index vq
  | .pci => virtioPciSetQueueAddr t index vq

/-!
## Creation
-/

/-- `intr = calloc(..)` and the stores to it, which start the interrupt thread. -/
def startInterruptThread (index : UInt16) : VirtioProg Unit := do
  match <- onHost allocBlock with
  | .error _ => stuck
  | .ok _ => Prog.modify fun s => (s.hear (.created index)).observe (.created index)

/-- The size of the new queue: `queueSize` is what the maximum was read as. -/
def clampSize (size queueSize : UInt16) : UInt16 :=
  if size = 0 then queueSize else min size queueSize

/-- What `virtio_create_queue` does once the queue exists.  `*vq` was null, and
`virtq_create` may have left it so. -/
def virtioProgramQueue (t : Nat) (index size : UInt16) (vq : Option VirtqObject) :
    VirtioProg (Rc × Option VirtqObject) := do
  match <- virtioResetQueue index with
  | .error rc => pure (rc, vq)
  | .ok _ =>
      match <- virtioSetQueueSize index size (vq.map fun _ => t) with
      | .error rc => pure (rc, vq)
      | .ok _ =>
          match <- virtioSetQueueAddr t index (vq.map VirtqObject.vq) with
          | .error rc => pure (rc, vq)
          | .ok _ =>
              startInterruptThread index
              pure (.EOK, vq)

/-- `virtio_create_queue` on thread `t`.  The result of `virtio_max_queue_size` is
ignored, and `queue_size` is uninitialised before. -/
def virtioCreateQueue (t : Nat) (index size : UInt16) :
    VirtioProg (Rc × Option VirtqObject) := do
  let garbage <- Prog.action fun e s => some (UInt16.ofNat e.garbage, s)
  let max <- virtioMaxQueueSize index
  let queueSize := clampSize size (max.toOption.getD garbage)
  if queueSize = 0 then pure (.ENODEV, none)
  else
    let legacy <- Prog.read VirtioSystem.legacy
    let (rc, vq) <- onHost (virtqCreate queueSize.toNat legacy)
    if rc ≠ .EOK then pure (rc, vq)
    else virtioProgramQueue t index size vq

end Virtio
end QnxVirtio
