import QnxVirtio.Virtq.Create
import QnxVirtio.Virtq.Device

/-!
# The GPIO driver

Client threads submit one request at a time and wait on a semaphore in their own
stack frame; the interrupt service thread delivers what the device completed.
Every access to shared memory is a step of its own, and so is every section
under a spinlock.
-/

namespace QnxVirtio

open Foundation

def VIRTIO_GPIO_STATUS_OK : UInt8 := 0x0

def VIRTIO_GPIO_MSG_GET_LINE_NAMES : UInt16 := 0x0001
def VIRTIO_GPIO_MSG_GET_DIRECTION : UInt16 := 0x0002
def VIRTIO_GPIO_MSG_SET_DIRECTION : UInt16 := 0x0003
def VIRTIO_GPIO_MSG_GET_VALUE : UInt16 := 0x0004
def VIRTIO_GPIO_MSG_SET_VALUE : UInt16 := 0x0005

def VIRTIO_MMIO_INT_VIRTQ : UInt32 := 1
def VIRTIO_MMIO_INT_CONFIG : UInt32 := 2

structure VirtioGpioConfig where
  ngpio : UInt16
  gpioNamesSize : UInt32

structure VirtioGpioRequest where
  type : UInt16
  gpio : UInt16
  value : UInt32
  deriving DecidableEq

/-- The request as it lies in memory. -/
def VirtioGpioRequest.encode (r : VirtioGpioRequest) : List UInt8 :=
  encode16 r.type ++ encode16 r.gpio ++ encode32 r.value

def VirtioGpioRequest.decode (bytes : List UInt8) : VirtioGpioRequest where
  type := decode16 (bytes.take 2)
  gpio := decode16 ((bytes.drop 2).take 2)
  value := decode32 ((bytes.drop 4).take 4)

def sizeofVirtioGpioRequest : UInt32 := 8
def sizeofVirtioGpioResponse : UInt32 := 2

/-- The header of a response of variable length. -/
def sizeofVirtioGpioResponseN : UInt32 := 1

inductive GpioCallback
  | virtioGpioCallback

/-- `struct virtio_gpio_context`.  The semaphore is empty before `sem_init` and
after `sem_destroy`. -/
structure VirtioGpioContext where
  callback : Option GpioCallback
  sem : Option Nat
  status : UInt8
  value : UInt8

/-!
## The system
-/

/-- A client operation with its arguments. -/
inductive GpioCall
  | setValue (gpio : UInt16) (value : UInt8)
  | getValue (gpio : UInt16)
  | getDirection (gpio : UInt16)
  | setDirection (gpio : UInt16) (direction : UInt8)

/-- The request that an operation sends. -/
def GpioCall.request : GpioCall -> VirtioGpioRequest
  | .setValue gpio value =>
      { type := VIRTIO_GPIO_MSG_SET_VALUE
        gpio := gpio
        value := value.toUInt16.toUInt32 }
  | .getValue gpio =>
      { type := VIRTIO_GPIO_MSG_GET_VALUE, gpio := gpio, value := 0 }
  | .getDirection gpio =>
      { type := VIRTIO_GPIO_MSG_GET_DIRECTION, gpio := gpio, value := 0 }
  | .setDirection gpio direction =>
      { type := VIRTIO_GPIO_MSG_SET_DIRECTION
        gpio := gpio
        value := direction.toUInt16.toUInt32 }

/-- The operation stores a value through its out parameter. -/
def GpioCall.reads : GpioCall -> Bool
  | .getValue _ => true
  | .getDirection _ => true
  | .setValue _ _ => false
  | .setDirection _ _ => false

/-- What an operation gives its caller: the return code, what it stored through
its out parameter, and whether it got to wait. -/
structure GpioResult where
  rc : Rc
  value : Option UInt8
  waited : Bool

structure GpioReturn where
  context : ContextPtr
  call : GpioCall
  result : GpioResult

/-- The device's answer to the chain at a position of the available ring: the
request that it read and what it wrote. -/
structure GpioAnswer where
  pos : Nat
  request : VirtioGpioRequest
  status : UInt8
  value : UInt8

/-- The queue with its device, the contexts in live stack frames, the interrupt
status register, and the history: accesses to contexts that are gone, answers of
the device, contexts that a callback has posted, and calls that have returned. -/
structure GpioSystem where
  queue : Queue
  device : Device
  contexts : ContextPtr -> Option VirtioGpioContext
  intStatus : UInt32
  /-- The device is about to set the virtqueue bit. -/
  raise : Bool
  /-- The interrupt thread has unmasked its interrupt and waits. -/
  waiting : Bool
  stale : List ContextPtr
  answers : List GpioAnswer
  delivered : List ContextPtr
  returns : List GpioReturn

def GpioSystem.setContext (w : GpioSystem) (ptr : ContextPtr)
    (c : Option VirtioGpioContext) : GpioSystem :=
  { w with contexts := Function.update w.contexts ptr c }

def onQueue {α : Type} (p : Prog Env Queue α) : Prog Env GpioSystem α :=
  Prog.zoom GpioSystem.queue (fun q w => { w with queue := q }) p

/-!
## Contexts
-/

/-- Change a context through a pointer to it.  An access to a context whose frame
is gone is recorded. -/
def GpioSystem.changeContext (ptr : ContextPtr)
    (f : VirtioGpioContext -> VirtioGpioContext) (w : GpioSystem) : GpioSystem :=
  match w.contexts ptr with
  | some c => w.setContext ptr (some (f c))
  | none => { w with stale := w.stale ++ [ptr] }

def setContext (ptr : ContextPtr) (f : VirtioGpioContext -> VirtioGpioContext) :
    Prog Env GpioSystem Unit :=
  Prog.modify (GpioSystem.changeContext ptr f)

/-- Read the caller's own context. -/
def readContext {α : Type} (ptr : ContextPtr) (f : VirtioGpioContext -> α) :
    Prog Env GpioSystem α :=
  Prog.action fun _ w => (w.contexts ptr).map fun c => (f c, w)

def semInit (ptr : ContextPtr) : Prog Env GpioSystem Rc :=
  Prog.action fun e w =>
    if e.semInit = .EOK then
      some (.EOK, w.changeContext ptr fun c => { c with sem := some 0 })
    else some (.minusOne, w)

def semDestroy (ptr : ContextPtr) : Prog Env GpioSystem Unit :=
  setContext ptr fun c => { c with sem := none }

/-- `sem_wait` blocks while the count is 0.  A signal ends the wait with -1 and
`EINTR` in errno. -/
def semWait (ptr : ContextPtr) : Prog Env GpioSystem Rc :=
  Prog.action fun e w =>
    match w.contexts ptr with
    | none => none
    | some c =>
        match c.sem with
        | none => some (.minusOne, w)
        | some 0 => if e.interrupted then some (.minusOne, w) else none
        | some (n + 1) => some (.EOK, w.setContext ptr (some { c with sem := some n }))

/-- `sem_post` by a completion callback. -/
def semPost (ptr : ContextPtr) : Prog Env GpioSystem Unit :=
  Prog.modify fun w =>
    { w.changeContext ptr (fun c => { c with sem := c.sem.map (· + 1) }) with
      delivered := w.delivered ++ [ptr] }

def virtioGpioContextInit (context : ContextPtr) : Prog Env GpioSystem Rc := do
  setContext context fun c => { c with callback := some .virtioGpioCallback }
  setContext context fun c => { c with status := 0 }
  semInit context

def virtioGpioContextDeinit (context : ContextPtr) : Prog Env GpioSystem Unit :=
  semDestroy context

def virtioGpioContextWait (context : ContextPtr) : Prog Env GpioSystem Rc :=
  Prog.iterate (fun _ => do
    let rc <- semWait context
    if rc = .EINTR then pure (.inl ()) else pure (.inr rc)) ()

/-!
## Requests
-/

def virtioGpioResponseSize (config : VirtioGpioConfig) (type : UInt16) : UInt32 :=
  if type = VIRTIO_GPIO_MSG_GET_LINE_NAMES then
    sizeofVirtioGpioResponseN + config.gpioNamesSize
  else sizeofVirtioGpioResponse

/-- The doorbell.  It tells the device nothing that the rings do not say. -/
def virtioNotifyQueue : Prog Env GpioSystem Rc :=
  Prog.action fun e w => some (e.notify, w)

/-- The assignments to the members of `request`. -/
def storeRequest (request : Nat) (type gpio : UInt16) (value : UInt32) :
    Prog Env Queue Unit := do
  storeVirt request (encode16 type)
  storeVirt (request + 2) (encode16 gpio)
  storeVirt (request + 4) (encode32 value)

def virtioGpioRequest (config : VirtioGpioConfig) (type gpio value : UInt16)
    (context : ContextPtr) : Prog Env GpioSystem Rc := do
  match <- onQueue (virtqAllocDesc sizeofVirtioGpioRequest false) with
  | .error rc => pure rc
  | .ok idx0 =>
      match <- onQueue (virtqAllocDesc (virtioGpioResponseSize config type) true) with
      | .error rc =>
          let _ <- onQueue (virtqFreeDesc idx0)
          pure rc
      | .ok idx1 =>
          match <- onQueue (virtqGetDescVaddr idx0) with
          | .error rc =>
              let _ <- onQueue (virtqFreeDesc idx1)
              let _ <- onQueue (virtqFreeDesc idx0)
              pure rc
          | .ok request =>
              onQueue (storeRequest request type gpio value.toUInt32)
              let _ <- onQueue (virtqSetDescContext idx0 context)
              let _ <- onQueue (virtqPutDescChain idx0 [idx1])
              let _ <- virtioNotifyQueue
              pure .EOK

/-- The store through the out parameter, if the operation has one. -/
def readValue (reads : Bool) (context : ContextPtr) :
    Prog Env GpioSystem (Option UInt8) :=
  if reads then readContext context fun c => some c.value else pure none

/-- What the four operations have in common; `reads` says whether the value of
the response goes to the caller. -/
def virtioGpioOperation (config : VirtioGpioConfig) (type gpio value : UInt16)
    (reads : Bool) (context : ContextPtr) : Prog Env GpioSystem GpioResult := do
  let rc <- virtioGpioContextInit context
  if rc ≠ .EOK then pure { rc := rc, value := none, waited := false }
  else
    let rc <- virtioGpioRequest config type gpio value context
    if rc ≠ .EOK then
      virtioGpioContextDeinit context
      pure { rc := rc, value := none, waited := false }
    else
      let rc <- virtioGpioContextWait context
      if rc ≠ .EOK then
        virtioGpioContextDeinit context
        pure { rc := rc, value := none, waited := true }
      else
        let value <- readValue reads context
        let rc <- readContext context fun c =>
          if c.status = VIRTIO_GPIO_STATUS_OK then Rc.EOK else Rc.EIO
        virtioGpioContextDeinit context
        pure { rc := rc, value := value, waited := true }

def virtioGpioSetValue (config : VirtioGpioConfig) (gpio : UInt16) (value : UInt8) :
    ContextPtr -> Prog Env GpioSystem GpioResult :=
  virtioGpioOperation config VIRTIO_GPIO_MSG_SET_VALUE gpio value.toUInt16 false

def virtioGpioGetValue (config : VirtioGpioConfig) (gpio : UInt16) :
    ContextPtr -> Prog Env GpioSystem GpioResult :=
  virtioGpioOperation config VIRTIO_GPIO_MSG_GET_VALUE gpio 0 true

def virtioGpioGetDirection (config : VirtioGpioConfig) (gpio : UInt16) :
    ContextPtr -> Prog Env GpioSystem GpioResult :=
  virtioGpioOperation config VIRTIO_GPIO_MSG_GET_DIRECTION gpio 0 true

def virtioGpioSetDirection (config : VirtioGpioConfig) (gpio : UInt16)
    (direction : UInt8) : ContextPtr -> Prog Env GpioSystem GpioResult :=
  virtioGpioOperation config VIRTIO_GPIO_MSG_SET_DIRECTION gpio direction.toUInt16
    false

/-!
## Completions
-/

/-- `context->callback`: the function that the context names. -/
def contextCallback (ptr : ContextPtr) : Prog Env GpioSystem GpioCallback :=
  Prog.action fun _ w =>
    match w.contexts ptr with
    | some c => c.callback.map fun f => (f, w)
    | none => some (.virtioGpioCallback, { w with stale := w.stale ++ [ptr] })

/-- Completion of a request.  The contexts here have no room for line names: a
completion of that type has no step. -/
def virtioGpioCallback (request response : Nat) (context : ContextPtr) :
    Prog Env GpioSystem Unit := do
  let status <- onQueue (loadVirt response 1)
  setContext context fun c => { c with status := status.headD 0 }
  let type <- onQueue (loadVirt request 2)
  if decode16 type = VIRTIO_GPIO_MSG_GET_LINE_NAMES then
    Prog.action fun _ _ => none
  else
    let value <- onQueue (loadVirt (response + 1) 1)
    setContext context fun c => { c with value := value.headD 0 }
    semPost context

def GpioCallback.call : GpioCallback -> Nat -> Nat -> ContextPtr ->
    Prog Env GpioSystem Unit
  | .virtioGpioCallback => QnxVirtio.virtioGpioCallback

/-- The local variables of `virtq_callback`, uninitialised at first. -/
structure CallbackLocals where
  idx0 : UInt16
  idx1 : UInt16
  request : Nat
  response : Nat
  context : Option ContextPtr

def CallbackLocals.withIdxs (v : CallbackLocals) : List UInt16 -> CallbackLocals
  | [] => v
  | [idx0] => { v with idx0 := idx0 }
  | idx0 :: idx1 :: _ => { v with idx0 := idx0, idx1 := idx1 }

/-- One round of the loop: the next chain is delivered and freed.  A null context
has no step. -/
def virtqCallbackRound (v : CallbackLocals) :
    Prog Env GpioSystem (CallbackLocals ⊕ Rc) := do
  match <- onQueue (virtqGetDescChain 2) with
  | .error rc => pure (.inr rc)
  | .ok idxs =>
      let v := v.withIdxs idxs
      let request <- onQueue (virtqGetDescVaddr v.idx0)
      let v := { v with request := request.toOption.getD v.request }
      let response <- onQueue (virtqGetDescVaddr v.idx1)
      let v := { v with response := response.toOption.getD v.response }
      let context <- onQueue (virtqGetDescContext v.idx0)
      let v := { v with context := context.toOption.getD v.context }
      match v.context with
      | none => Prog.action fun _ _ => none
      | some ptr =>
          let callback <- contextCallback ptr
          callback.call v.request v.response ptr
          let _ <- onQueue (virtqFreeDesc v.idx0)
          let _ <- onQueue (virtqFreeDesc v.idx1)
          pure (.inl v)

def virtqCallback : Prog Env GpioSystem Rc := do
  let v <- Prog.action fun e w =>
    some ({ idx0 := UInt16.ofNat e.garbage
            idx1 := UInt16.ofNat e.garbage
            request := e.garbage
            response := e.garbage
            context := e.wild : CallbackLocals }, w)
  Prog.iterate virtqCallbackRound v

/-- The drain loop of both transports. -/
def drainVirtq : Prog Env GpioSystem Rc :=
  Prog.iterate (fun _ => do
    let rc <- virtqCallback
    if rc = .EOK then pure (.inl ()) else pure (.inr rc)) ()

def virtioMmioVirtqCallback : Prog Env GpioSystem Rc := do
  let status <- Prog.read GpioSystem.intStatus
  if status &&& VIRTIO_MMIO_INT_VIRTQ ≠ 0 then
    Prog.modify fun w =>
      { w with intStatus := w.intStatus &&& ~~~ VIRTIO_MMIO_INT_VIRTQ }
    drainVirtq
  else drainVirtq

def virtioPciVirtqCallback : Prog Env GpioSystem Rc :=
  drainVirtq

def virtioVirtqCallback : Transport -> Prog Env GpioSystem Rc
  | .mmio => virtioMmioVirtqCallback
  | .pci => virtioPciVirtqCallback

def interruptUnmask : Prog Env GpioSystem Unit :=
  Prog.modify fun w => { w with waiting := true }

/-- On MMIO the interrupt line follows the status register.  Messages of a PCI
device may arrive at any time. -/
def interruptWait (transport : Transport) : Prog Env GpioSystem Unit :=
  Prog.action fun _ w =>
    match transport with
    | .mmio => if w.intStatus = 0 then none else some ((), { w with waiting := false })
    | .pci => some ((), { w with waiting := false })

def virtioIst (transport : Transport) : Prog Env GpioSystem Unit := do
  let attached <- Prog.action fun e w => some (e.attach, w)
  if attached then
    Prog.iterate (fun _ => do
      interruptUnmask
      interruptWait transport
      let _ <- virtioVirtqCallback transport
      pure (.inl ())) ()
  else pure ()

/-!
## Clients
-/

def GpioCall.run (config : VirtioGpioConfig) :
    GpioCall -> ContextPtr -> Prog Env GpioSystem GpioResult
  | .setValue gpio value => virtioGpioSetValue config gpio value
  | .getValue gpio => virtioGpioGetValue config gpio
  | .getDirection gpio => virtioGpioGetDirection config gpio
  | .setDirection gpio direction => virtioGpioSetDirection config gpio direction

/-- An uninitialised context. -/
def Env.frameContext (e : Env) : VirtioGpioContext where
  callback := none
  sem := none
  status := UInt8.ofNat e.garbage
  value := UInt8.ofNat e.garbage

/-- The frame of a call appears. -/
def enterFrame (ptr : ContextPtr) : Prog Env GpioSystem Unit :=
  Prog.action fun e w => some ((), w.setContext ptr (some e.frameContext))

/-- The call returns and its frame is gone. -/
def leaveFrame (ptr : ContextPtr) (call : GpioCall) (result : GpioResult) :
    Prog Env GpioSystem Unit :=
  Prog.modify fun w =>
    { w.setContext ptr none with
      returns := w.returns ++ [{ context := ptr, call := call, result := result }] }

/-- The `n`-th call of client `t`. -/
def gpioRound (config : VirtioGpioConfig) (t : Nat) (script : Nat -> GpioCall)
    (n : Nat) : Prog Env GpioSystem (Nat ⊕ Unit) := do
  enterFrame ⟨t, n⟩
  let result <- (script n).run config ⟨t, n⟩
  leaveFrame ⟨t, n⟩ (script n) result
  pure (.inl (n + 1))

def gpioClient (config : VirtioGpioConfig) (t : Nat) (script : Nat -> GpioCall) :
    Prog Env GpioSystem Unit :=
  Prog.iterate (gpioRound config t script) 0

/-!
## The device
-/

inductive GpioDeviceMove
  | take
  | answer (pos : Nat) (status value : UInt8)
  | store (pos : Nat) (len : UInt32)
  | bump
  | raiseVirtq
  | raiseConfig

/-- The device answers a request that it read and has not answered: it reads the
first buffer of the chain and writes the second one. -/
def GpioSystem.answerRequest (pos : Nat) (status value : UInt8) (w : GpioSystem) :
    Option GpioSystem :=
  match w.device.consumed[pos]? with
  | none => none
  | some head =>
      let d0 := w.queue.vq.desc head
      let d1 := w.queue.vq.desc d0.next
      if pos ∈ w.answers.map GpioAnswer.pos ∨ ¬ d0.hasNext ∨
          d0.len < sizeofVirtioGpioRequest ∨ d1.len < sizeofVirtioGpioResponse ∨
          d1.flags &&& VIRTQ_DESC_F_WRITE = 0 then none
      else
        some { w with
          queue := { w.queue with
            mem := w.queue.mem.store d1.addr [status, value] }
          answers := w.answers ++
            [{ pos := pos
               request := VirtioGpioRequest.decode
                 (loadBytes w.queue.mem.phys d0.addr sizeofVirtioGpioRequest.toNat)
               status := status
               value := value }] }

/-- The device completes a chain by its answer, the used element, the used index
and the interrupt, in this order. -/
def gpioEnv : GpioDeviceMove -> GpioSystem -> Option GpioSystem
  | .take, w => (w.device.take w.queue.vq).map fun d => { w with device := d }
  | .answer pos status value, w => w.answerRequest pos status value
  | .store pos len, w =>
      if pos ∈ w.answers.map GpioAnswer.pos then
        (w.device.store pos len w.queue.vq).map fun r =>
          { w with queue := { w.queue with vq := r.1 }, device := r.2 }
      else none
  | .bump, w =>
      (w.device.bump w.queue.vq).map fun r =>
        { w with
          queue := { w.queue with vq := r.1 }
          device := r.2
          raise := true }
  | .raiseVirtq, w =>
      if w.raise then
        some { w with
          intStatus := w.intStatus ||| VIRTIO_MMIO_INT_VIRTQ
          raise := false }
      else none
  | .raiseConfig, w =>
      some { w with intStatus := w.intStatus ||| VIRTIO_MMIO_INT_CONFIG }

end QnxVirtio
