import QnxVirtio.Virtq.Create
import QnxVirtio.Foundation.Embed

/-!
# Registers and the device lock

The registers of a queue are reached through the queue-select register of the device.
A section under the device lock is one step; every register access outside of one is a
step of its own.
-/

namespace QnxVirtio

open Foundation

namespace Virtio

/-- The parts of a queue, under the names of the address registers. -/
inductive RingPart
  | desc
  | driver
  | device
  deriving DecidableEq

/-- The registers of the selected queue, on MMIO and on PCI. -/
inductive QueueReg
  | sizeMax
  | size
  | align
  | pfn
  | ready
  | reset
  | notifyOff
  | msixVector
  | addr (part : RingPart)
  | addrLow (part : RingPart)
  | addrHigh (part : RingPart)
  deriving DecidableEq

/-- The queue registers of a device.  A register has no value until the driver writes
it; the largest size of each queue belongs to the device. -/
structure DeviceRegs where
  sizeMax : UInt16 -> UInt32
  queueSel : UInt16
  queue : UInt16 -> QueueReg -> Option UInt64
  guestPageSize : Option UInt32

/-- A write to a register of the selected queue. -/
def DeviceRegs.write (reg : QueueReg) (value : UInt64) (regs : DeviceRegs) : DeviceRegs :=
  { regs with
    queue := Function.update regs.queue regs.queueSel
      (Function.update (regs.queue regs.queueSel) reg (some value)) }

/-- A register access on behalf of a call for `queue` while `select` is selected. -/
structure QueueAccess where
  queue : UInt16
  select : UInt16
  reg : QueueReg
  deriving DecidableEq

/-- What the driver does to the device in the order of its initialisation.  The device
status is set to 0, read and written; `added` ends a successful
`virtio_add_device_status`. -/
inductive StatusEvent
  | reset
  | read (status : UInt8)
  | write (status : UInt8)
  | added (status : UInt8)
  | config
  | created (index : UInt16)
  | enabled (index : UInt16)
  deriving DecidableEq

/-- What the lock, the transport operations and the device answered to one operation of
the initialisation. -/
inductive Heard
  | reset (op : Rc)
  | poll (get : Rc) (status : UInt8)
  | add (bit : UInt8) (lock get : Rc) (status : UInt8) (set : Rc)
  | config (op : Rc)
  | created (index : UInt16)
  | enable (index : UInt16) (lock select op : Rc)
  deriving DecidableEq

/-- What `virtio_gpio_init` acquires. -/
inductive Resource
  | gpioDevice
  | virtioDevice
  | priv
  | registers
  deriving DecidableEq

inductive ResourceEvent
  | acquired (r : Resource)
  | used (r : Resource)
  | released (r : Resource)
  deriving DecidableEq

/-- A virtio device: the driver's structure, the registers, and the history. -/
structure VirtioSystem where
  host : Host
  transport : Transport
  legacy : Bool
  locked : Bool
  deviceResetTimeoutMs : Nat
  deviceResetPollIntervalMs : Nat
  queueResetTimeoutMs : Nat
  queueResetPollIntervalMs : Nat
  regs : DeviceRegs
  accesses : List QueueAccess
  /-- Threads between setting the size of a new queue and its last address. -/
  windows : List (Nat × UInt16)
  /-- Queues selected while the window of another queue was open. -/
  clashes : List UInt16
  heard : List Heard
  trace : List StatusEvent
  ledger : List ResourceEvent

/-- A device nobody has written to, whose queues take up to 256 descriptors. -/
def VirtioSystem.initial (transport : Transport) : VirtioSystem where
  host := Host.initial
  transport := transport
  legacy := false
  locked := false
  deviceResetTimeoutMs := 500
  deviceResetPollIntervalMs := 10
  queueResetTimeoutMs := 500
  queueResetPollIntervalMs := 10
  regs := {
    sizeMax := fun _ => 256
    queueSel := 0
    queue := fun _ _ => none
    guestPageSize := none }
  accesses := []
  windows := []
  clashes := []
  heard := []
  trace := []
  ledger := []

/-- What a step may be told besides `Env`. -/
structure VirtioEnv extends Env where
  /-- Result of the `n`-th transport operation of the step. -/
  transport : Nat -> Rc := fun _ => .EOK
  /-- A register that the device changes by itself. -/
  reg : UInt32 := 0
  /-- The milliseconds that `delay` did not sleep. -/
  unslept : Nat := 0
  /-- Result of a PCI server call. -/
  pci : Rc := .EOK
  /-- The device, capability or vector asked for exists. -/
  found : Bool := true
  /-- Result of `pthread_create`. -/
  thread : Rc := .EOK

instance : Inhabited VirtioEnv :=
  ⟨{ toEnv := default }⟩

abbrev VirtioProg (α : Type) : Type 1 :=
  Prog VirtioEnv VirtioSystem α

def onHost {α : Type} (p : Prog Env Host α) : VirtioProg α :=
  Prog.embed VirtioEnv.toEnv VirtioSystem.host (fun h s => { s with host := h }) p

/-- A failed assertion or a null pointer that is followed. -/
def stuck {α : Type} : VirtioProg α :=
  Prog.action fun _ _ => none

/-!
## Register accesses
-/

namespace VirtioSystem

/-- The access of a call for `index` to a register of the selected queue. -/
def access (index : UInt16) (reg : QueueReg) (s : VirtioSystem) : VirtioSystem :=
  { s with accesses := s.accesses ++
      [{ queue := index, select := s.regs.queueSel, reg := reg }] }

def writeQueue (index : UInt16) (reg : QueueReg) (value : UInt64) (s : VirtioSystem) :
    VirtioSystem :=
  { s.access index reg with regs := s.regs.write reg value }

/-- `select_queue`. -/
def selectQueue (index : UInt16) (s : VirtioSystem) : VirtioSystem :=
  { s with
    regs := { s.regs with queueSel := index }
    clashes :=
      if s.windows.all fun w => w.2 == index then s.clashes
      else s.clashes ++ [index] }

def hear (h : Heard) (s : VirtioSystem) : VirtioSystem :=
  { s with heard := s.heard ++ [h] }

def observe (e : StatusEvent) (s : VirtioSystem) : VirtioSystem :=
  { s with trace := s.trace ++ [e] }

def account (e : ResourceEvent) (s : VirtioSystem) : VirtioSystem :=
  { s with ledger := s.ledger ++ [e] }

end VirtioSystem

/-!
## Sections under the device lock
-/

/-- The lock is taken, or its error is returned; `unlock` ends every path. -/
def underLock {α : Type}
    (body : VirtioEnv -> VirtioSystem -> Except Rc α × VirtioSystem) (e : VirtioEnv)
    (s : VirtioSystem) : Option (Except Rc α × VirtioSystem) :=
  if e.lock ≠ .EOK then some (.error e.lock, s)
  else if s.locked then none
  else
    let r := body e { s with locked := true }
    some (r.1, { r.2 with locked := false })

/-- Select the queue, then perform the operation on the selected queue. -/
def onSelected {α : Type} (index : UInt16)
    (op : VirtioEnv -> VirtioSystem -> α × VirtioSystem) :
    VirtioEnv -> VirtioSystem -> Except Rc α × VirtioSystem :=
  fun e s =>
    if e.transport 0 ≠ .EOK then (.error (e.transport 0), s)
    else
      let s := s.selectQueue index
      if e.transport 1 ≠ .EOK then (.error (e.transport 1), s)
      else
        let r := op e s
        (.ok r.1, r.2)

def queueSection {α : Type} (index : UInt16)
    (op : VirtioEnv -> VirtioSystem -> α × VirtioSystem) : VirtioProg (Except Rc α) :=
  Prog.action (underLock (onSelected index op))

end Virtio
end QnxVirtio
