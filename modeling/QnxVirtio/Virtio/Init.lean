import QnxVirtio.Virtio.Queues

/-!
# Initialising the GPIO device

`virtio_gpio_init` over both transports.  Everything that may fail asks the environment,
and what is acquired, used and released is written down.
-/

namespace QnxVirtio
namespace Virtio

open Foundation

def VIRTIO_DEVICE_STATUS_ACKNOWLEDGE : UInt8 := 1
def VIRTIO_DEVICE_STATUS_DRIVER : UInt8 := 2
def VIRTIO_DEVICE_STATUS_DRIVER_OK : UInt8 := 4
def VIRTIO_DEVICE_STATUS_FEATURES_OK : UInt8 := 8

def VIRTIO_CONFIG_DEVICE_RESET_TIMEOUT_MS : Nat := 500
def VIRTIO_CONFIG_DEVICE_RESET_POLL_INTERVAL_MS : Nat := 10
def VIRTIO_CONFIG_QUEUE_RESET_TIMEOUT_MS : Nat := 500
def VIRTIO_CONFIG_QUEUE_RESET_POLL_INTERVAL_MS : Nat := 10

def VIRTIO_MMIO_MAGIC : UInt32 := 0x74726976
def VIRTIO_MMIO_VERSION_LEGACY : UInt32 := 1

def VIRTIO_DT_GPIO : UInt16 := 41

/-!
## Device status
-/

/-- A transport operation that fails, or has an effect and a value. -/
def transportOp {α : Type} (heard : VirtioEnv -> Heard) (event : VirtioEnv -> StatusEvent)
    (value : VirtioEnv -> α) : VirtioProg (Except Rc α) :=
  Prog.action fun e s =>
    let s := s.hear (heard e)
    if e.transport 0 ≠ .EOK then some (.error (e.transport 0), s)
    else some (.ok (value e), s.observe (event e))

def resetDevice : VirtioProg (Except Rc Unit) :=
  transportOp (fun e => .reset (e.transport 0)) (fun _ => .reset) fun _ => ()

/-- The status register of either transport has 8 bits. -/
def virtioGetDeviceStatus : VirtioProg (Except Rc UInt8) :=
  transportOp (fun e => .poll (e.transport 0) e.reg.toUInt8)
    (fun e => .read e.reg.toUInt8) fun e => e.reg.toUInt8

/-- The read of the whole configuration, whose bytes nothing here depends on. -/
def virtioReadDeviceConfig : VirtioProg (Except Rc Unit) :=
  transportOp (fun e => .config (e.transport 0)) (fun _ => .config) fun _ => ()

/-- One round of the wait for a device reset: the status last read and the time left. -/
def deviceResetRound (state : UInt8 × Nat) :
    VirtioProg ((UInt8 × Nat) ⊕ Except Rc Unit) := do
  if state.1 ≠ 0 ∧ 0 < state.2 then
    let interval <- Prog.read VirtioSystem.deviceResetPollIntervalMs
    delayFor interval
    let remaining := state.2 - min state.2 interval
    match <- virtioGetDeviceStatus with
    | .error rc => pure (.inr (.error rc))
    | .ok status => pure (.inl (status, remaining))
  else pure (.inr (if state.1 = 0 then .ok () else .error .ETIMEDOUT))

def virtioResetDevice : VirtioProg (Except Rc Unit) := do
  match <- resetDevice with
  | .error rc => pure (.error rc)
  | .ok _ =>
      let timeout <- Prog.read VirtioSystem.deviceResetTimeoutMs
      match <- virtioGetDeviceStatus with
      | .error rc => pure (.error rc)
      | .ok status => Prog.iterate deviceResetRound (status, timeout)

def addDeviceStatus (status : UInt8) (e : VirtioEnv) (s : VirtioSystem) :
    Except Rc Unit × VirtioSystem :=
  if e.transport 0 ≠ .EOK then (.error (e.transport 0), s)
  else
    let current := e.reg.toUInt8
    let s := s.observe (.read current)
    if e.transport 1 ≠ .EOK then (.error (e.transport 1), s)
    else (.ok (), (s.observe (.write (current ||| status))).observe (.added status))

def virtioAddDeviceStatus (status : UInt8) : VirtioProg (Except Rc Unit) :=
  Prog.action fun e s =>
    underLock (addDeviceStatus status) e
      (s.hear (.add status e.lock (e.transport 0) e.reg.toUInt8 (e.transport 1)))

/-!
## Resources
-/

def note (e : ResourceEvent) : VirtioProg Unit :=
  Prog.modify fun s => s.account e

def callocResource (r : Resource) : VirtioProg (Except Rc Nat) := do
  match <- onHost allocBlock with
  | .error rc => pure (.error rc)
  | .ok block =>
      note (.acquired r)
      pure (.ok block)

def freeResource (r : Resource) (block : Nat) : VirtioProg Unit := do
  onHost (freeBlock block)
  note (.released r)

/-- `virtio_init` returns its code and, when `*dev` was set, the structure.  A lock that
cannot be initialised does not stop it. -/
def virtioInit : VirtioProg (Rc × Option Nat) := do
  match <- callocResource .virtioDevice with
  | .error rc => pure (rc, none)
  | .ok vdev =>
      let rc <- Prog.action fun e s => some (e.spinInit, { s with locked := false })
      Prog.modify fun s =>
        { s with
          deviceResetTimeoutMs := VIRTIO_CONFIG_DEVICE_RESET_TIMEOUT_MS
          deviceResetPollIntervalMs := VIRTIO_CONFIG_DEVICE_RESET_POLL_INTERVAL_MS
          queueResetTimeoutMs := VIRTIO_CONFIG_QUEUE_RESET_TIMEOUT_MS
          queueResetPollIntervalMs := VIRTIO_CONFIG_QUEUE_RESET_POLL_INTERVAL_MS }
      pure (rc, some vdev)

def virtioDestroy (vdev : Nat) : VirtioProg Rc := do
  note (.used .virtioDevice)
  let rc <- Prog.action fun e s => some (e.spinDestroy, s)
  if rc ≠ .EOK then pure rc
  else
    freeResource .virtioDevice vdev
    pure .EOK

/-!
## MMIO
-/

def mapRegisters : VirtioProg (Except Rc Unit) :=
  Prog.action fun e s =>
    match e.mmap with
    | .error f => some (.error f.val, s)
    | .ok _ => some (.ok (), s.account (.acquired .registers))

def readRegister : VirtioProg UInt32 :=
  Prog.action fun e s => some (e.reg, s.account (.used .registers))

/-- The labels `free_mdev` and `free_vdev`. -/
def freeMdev (vdev mdev : Nat) (rc : Rc) : VirtioProg Rc := do
  freeResource .priv mdev
  let _ <- virtioDestroy vdev
  pure rc

/-- Only legacy devices have the register. -/
def setGuestPageSize (legacy : Bool) (pagesize : UInt16) : VirtioProg Unit :=
  if legacy then
    Prog.modify fun s =>
      { s with regs := { s.regs with guestPageSize := some pagesize.toUInt32 } }
  else pure ()

def virtioMmioInit (vdev : Nat) (type : UInt16) : VirtioProg Rc := do
  match <- callocResource .priv with
  | .error _ =>
      let _ <- virtioDestroy vdev
      pure .ENOMEM
  | .ok mdev =>
      match <- mapRegisters with
      | .error rc => freeMdev vdev mdev rc
      | .ok _ =>
          let pagesize <- Prog.read fun s => s.host.pagesize.toUInt16
          note (.used .priv)
          note (.used .virtioDevice)
          let magic <- readRegister
          if magic ≠ VIRTIO_MMIO_MAGIC then freeMdev vdev mdev .ENODEV
          else
            let version <- readRegister
            let legacy := version == VIRTIO_MMIO_VERSION_LEGACY
            Prog.modify fun s => { s with legacy := legacy }
            let deviceId <- readRegister
            if deviceId ≠ type.toUInt32 then freeMdev vdev mdev .ENODEV
            else
              setGuestPageSize legacy pagesize
              Prog.modify fun s => { s with transport := .mmio }
              pure .EOK

/-!
## PCI
-/

def pciCall : VirtioProg Rc :=
  Prog.action fun e s => some (e.pci, s)

def pciFound : VirtioProg Bool :=
  Prog.action fun e s => some (e.found, s)

/-- The capability types that have a structure to fill. -/
def knownCap (cfgType : UInt8) : Bool :=
  1 <= cfgType && cfgType <= 5

/-- The `switch` over the types. -/
def readCap (cfgType : UInt8) : VirtioProg Rc :=
  if knownCap cfgType then pciCall else pure .EOK

/-- One vendor capability. -/
def findCapsRound (_ : Unit) : VirtioProg (Unit ⊕ Rc) := do
  let found <- pciFound
  if !found then pure (.inr .EOK)
  else
    let r <- pciCall
    if r ≠ .EOK then pure (.inr r)
    else
      let r <- pciCall
      if r ≠ .EOK then pure (.inr r)
      else
        let cfgType <- Prog.action fun e s => some (e.reg.toUInt8, s)
        let r <- readCap cfgType
        if r ≠ .EOK then pure (.inr r) else pure (.inl ())

/-- The code of the search and whether there is an MSI-X capability. -/
def virtioPciFindCaps : VirtioProg (Rc × Bool) := do
  let r <- Prog.iterate findCapsRound ()
  if r ≠ .EOK then pure (r, false)
  else
    let found <- pciFound
    if !found then pure (.EOK, false)
    else
      let r <- pciCall
      if r ≠ .EOK then pure (r, false) else pure (.EOK, true)

/-- The base address registers are read, and mapped without a check. -/
def virtioPciMapBars : VirtioProg Rc :=
  pciCall

/-- `cap_msix_set_nirq`, `cap_msix_set_irq_entry`, `pci_device_cfg_cap_enable`,
`pci_device_read_irq` and `cap_msix_unmask_irq_entry`, as long as they succeed. -/
def msixCalls : Nat -> VirtioProg Rc
  | 0 => pure .EOK
  | n + 1 => do
      let r <- pciCall
      if r ≠ .EOK then pure r else msixCalls n

/-- The vectors are there and get configured. -/
def configureMsix (msix : Bool) (msixVectorCount : UInt16) : VirtioProg Rc := do
  if 0 < msixVectorCount ∧ !msix then pure .EINVAL
  else if msix then
    let count <- Prog.action fun e s => some (e.reg.toUInt16, s)
    if count < msixVectorCount then pure .EINVAL else msixCalls 5
  else pure .EOK

/-- The labels `free_pdev` and `free_vdev`; `detach_pci` before them releases none of the
resources that are tracked. -/
def freePdev (vdev pdev : Nat) (rc : Rc) : VirtioProg Rc := do
  freeResource .priv pdev
  let _ <- virtioDestroy vdev
  pure rc

def virtioPciInit (vdev : Nat) (msixVectorCount : UInt16) : VirtioProg Rc := do
  match <- callocResource .priv with
  | .error _ =>
      let _ <- virtioDestroy vdev
      pure .ENOMEM
  | .ok pdev =>
      note (.used .virtioDevice)
      Prog.modify fun s => { s with legacy := false }
      let found <- pciFound
      if !found then freePdev vdev pdev .ENODEV
      else
        let rc <- pciCall
        if rc ≠ .EOK then freePdev vdev pdev rc
        else
          let (rc, msix) <- virtioPciFindCaps
          if rc ≠ .EOK then freePdev vdev pdev rc
          else
            let rc <- virtioPciMapBars
            if rc ≠ .EOK then freePdev vdev pdev rc
            else
              let rc <- configureMsix msix msixVectorCount
              if rc ≠ .EOK then freePdev vdev pdev rc
              else
                Prog.modify fun s => { s with transport := .pci }
                pure .EOK

/-!
## The GPIO device
-/

/-- A device without registers in memory is looked for on the PCI bus. -/
def transportInit (mem : UInt64) (vdev : Nat) : VirtioProg Rc :=
  if mem ≠ 0 then virtioMmioInit vdev VIRTIO_DT_GPIO else virtioPciInit vdev 1

/-- The label `free_vdev`. -/
def freeVdev (vdev : Nat) (rc : Rc) : VirtioProg (Rc × Option (Option Nat)) := do
  let _ <- virtioDestroy vdev
  pure (rc, some none)

/-- From the reset to the end.  The results of all steps but the queue creation are
discarded. -/
def bringUp (t : Nat) (qsize : UInt16) (pdev vdev : Nat) :
    VirtioProg (Rc × Option (Option Nat)) := do
  let _ <- virtioResetDevice
  let _ <- virtioAddDeviceStatus VIRTIO_DEVICE_STATUS_ACKNOWLEDGE
  let _ <- virtioAddDeviceStatus VIRTIO_DEVICE_STATUS_DRIVER
  let _ <- virtioReadDeviceConfig
  let _ <- virtioAddDeviceStatus VIRTIO_DEVICE_STATUS_FEATURES_OK
  let (rc, _) <- virtioCreateQueue t 0 qsize
  if rc ≠ .EOK then freeVdev vdev rc
  else
    let _ <- virtioEnableQueue 0 true
    let _ <- virtioAddDeviceStatus VIRTIO_DEVICE_STATUS_DRIVER_OK
    pure (.EOK, some (some pdev))

/-- `virtio_gpio_init` once its own structure is allocated. -/
def setUp (t : Nat) (mem : UInt64) (qsize : UInt16) (dev : Option (Option Nat))
    (pdev : Nat) : VirtioProg (Rc × Option (Option Nat)) := do
  match <- virtioInit with
  | (rc, none) => pure (rc, dev)
  | (rc, some vdev) =>
      if rc ≠ .EOK then pure (rc, dev)
      else
        let rc <- transportInit mem vdev
        if rc ≠ .EOK then freeVdev vdev rc
        else bringUp t qsize pdev vdev

/-- `virtio_gpio_init` on thread `t`.  `dev` is a null pointer or points to what `*dev`
holds; the result comes with what `*dev` holds afterwards. -/
def virtioGpioInit (t : Nat) (mem : UInt64) (qsize : UInt16)
    (dev : Option (Option Nat)) : VirtioProg (Rc × Option (Option Nat)) :=
  match dev with
  | none => pure (.EINVAL, none)
  | some _ => do
      match <- callocResource .gpioDevice with
      | .error rc => pure (rc, dev)
      | .ok pdev => setUp t mem qsize dev pdev

end Virtio
end QnxVirtio
