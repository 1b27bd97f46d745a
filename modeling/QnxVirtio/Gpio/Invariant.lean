import QnxVirtio.Foundation.Pool
import QnxVirtio.Gpio.Model
import QnxVirtio.Virtq.HoldingSpecs

/-!
# The invariant of the GPIO driver

Client threads, the interrupt service thread and the chains in flight own the
descriptors and buffers of the queue.  A client hands a chain over when it
publishes it, and the interrupt thread gets it when it retrieves it.  Around this
ownership stand the flow through the rings, the phase of the interrupt thread and
the contexts in the frames of the clients.
-/

namespace QnxVirtio

open Foundation

/-!
## Threads and runs
-/

inductive GpioThread
  | client (t : Nat)
  | ist
  deriving DecidableEq

/-- What a run keeps free of.  `calm`: no signal ends the wait for a request that
is published; `quiet`: no signal ends any wait; `strict`: the interrupt thread gets
every spinlock. -/
structure GpioMode where
  calm : Bool
  quiet : Bool
  strict : Bool

def gpioOk (mode : GpioMode) : Move GpioThread Env GpioDeviceMove -> GpioSystem -> Prop
  | .thread (.client t) e, w =>
      (mode.quiet = true -> e.interrupted = false) ∧
        (mode.calm = true -> e.interrupted = true -> forall p, p ∈ w.queue.published ->
          forall n, p.context = some ⟨t, n⟩ -> w.contexts ⟨t, n⟩ = none)
  | .thread .ist e, _ => mode.strict = true -> e.lock = .EOK
  | .env _, _ => True

def gpioThread (transport : Transport) (config : VirtioGpioConfig)
    (scripts : Nat -> Nat -> GpioCall) : GpioThread -> Prog Env GpioSystem Unit
  | .client t => gpioClient config t (scripts t)
  | .ist => virtioIst transport

def VirtqObject.gpioSystem (obj : VirtqObject) (mem : Memory) : GpioSystem where
  queue := obj.queue mem
  device := Device.initial
  contexts := fun _ => none
  intStatus := 0
  raise := false
  waiting := false
  stale := []
  answers := []
  delivered := []
  returns := []

def gpioPool (transport : Transport) (config : VirtioGpioConfig) (obj : VirtqObject)
    (mem : Memory) (scripts : Nat -> Nat -> GpioCall) :
    Pool GpioThread Env GpioSystem where
  state := obj.gpioSystem mem
  thread := gpioThread transport config scripts

/-- The states that runs of this mode reach. -/
def GpioReachable (mode : GpioMode) (transport : Transport)
    (config : VirtioGpioConfig) (obj : VirtqObject) (mem : Memory)
    (scripts : Nat -> Nat -> GpioCall) (w : GpioSystem) : Prop :=
  exists c, Pool.Reachable gpioEnv (gpioOk mode)
    (gpioPool transport config obj mem scripts) c ∧ c.state = w

/-!
## Ghosts
-/

inductive GpioOwner
  | thread (t : GpioThread)
  | chain (pos : Nat)
  deriving DecidableEq

/-- How far a client is: before its `n`-th call; in it, with the request not
published; waiting for the chain at `pos`; with the answer to that chain. -/
inductive ClientStage
  | idle (n : Nat)
  | calling (n : Nat) (c : VirtioGpioContext)
  | sent (n pos : Nat)
  | woken (n pos : Nat) (a : GpioAnswer)

/-- The call that a client is in, or will make next. -/
def ClientStage.call : ClientStage -> Nat
  | .idle n => n
  | .calling n _ => n
  | .sent n _ => n
  | .woken n _ _ => n

/-- How far the interrupt thread is: outside of the drain loop, in it, or with the
chain at `pos`, having copied none, one or both bytes of the answer. -/
inductive IstPhase
  | away
  | draining
  | serving (pos : Nat) (p : Published) (a : GpioAnswer) (copied : Nat)

structure GpioGhost where
  holding : Holding
  stage : ClientStage
  phase : IstPhase

def holdings (gs : GpioThread -> GpioGhost) (fl : Nat -> Holding) :
    GpioOwner -> Holding
  | .thread t => (gs t).holding
  | .chain pos => fl pos

def stages (gs : GpioThread -> GpioGhost) (t : Nat) : ClientStage :=
  (gs (.client t)).stage

/-- The request of the call that a context belongs to. -/
def requestOf (scripts : Nat -> Nat -> GpioCall) (ptr : ContextPtr) :
    VirtioGpioRequest :=
  (scripts ptr.thread ptr.call).request

/-!
## Chains in flight
-/

/-- The descriptors of a chain with a request and a response buffer. -/
def requestCell (m : Mapping) (resp : UInt16) (context : Option ContextPtr) :
    DescCell where
  desc := {
    addr := m.paddr
    len := sizeofVirtioGpioRequest
    flags := 0 ||| VIRTQ_DESC_F_NEXT
    next := resp }
  extras := { vaddr := m.vaddr, context := context }

def responseCell (m : Mapping) : DescCell where
  desc := {
    addr := m.paddr
    len := sizeofVirtioGpioResponse
    flags := VIRTQ_DESC_F_WRITE
    next := 0 }
  extras := { vaddr := m.vaddr, context := none }

def pairHolding (head resp : UInt16) (m0 m1 : Mapping) (context : Option ContextPtr)
    (b0 b1 : List UInt8) : Holding :=
  (((Holding.empty.setDesc head (some (requestCell m0 resp context))).setRegion m0
    (some b0)).setDesc resp (some (responseCell m1))).setRegion m1 (some b1)

/-- What a chain holds that was published as `p` for the request in `b0`, with the
response buffer containing `b1`. -/
structure PairHolding (p : Published) (b0 b1 : List UInt8) (H : Holding) : Prop where
  shape : exists resp m0 m1, p.rest = [resp] ∧ p.head ≠ resp ∧ m0 ≠ m1 ∧
    m0.len = sizeofVirtioGpioRequest.toNat ∧
    m1.len = sizeofVirtioGpioResponse.toNat ∧
    H = pairHolding p.head resp m0 m1 p.context b0 b1

/-- A chain in flight: its context, its request, and its response if the device
has answered. -/
def Flight (scripts : Nat -> Nat -> GpioCall) (answers : List GpioAnswer) (pos : Nat)
    (p : Published) (H : Holding) : Prop :=
  exists ptr b1, p.context = some ptr ∧
    PairHolding p (requestOf scripts ptr).encode b1 H ∧
    forall a, a ∈ answers -> a.pos = pos -> b1 = [a.status, a.value]

/-- The rings, the chains in flight and the answers of the device. -/
structure FlowInv (scripts : Nat -> Nat -> GpioCall) (w : GpioSystem)
    (fl : Nat -> Holding) : Prop where
  ring : RingFlow w.queue w.device
  published : forall p, p ∈ w.queue.published -> exists ptr, p.context = some ptr
  flight : forall pos (p : Published), Outstanding w.queue w.device pos ->
    w.queue.published[pos]? = some p -> Flight scripts w.answers pos p (fl pos)
  answered : forall a, a ∈ w.answers -> a.pos < w.device.consumed.length ∧
    exists (p : Published) (ptr : ContextPtr),
      w.queue.published[a.pos]? = some p ∧ p.context = some ptr ∧
      a.request = requestOf scripts ptr
  answersNodup : (w.answers.map GpioAnswer.pos).Nodup
  /-- Only answered chains are completed. -/
  produced : forall e, e ∈ w.device.produced -> e.pos ∈ w.answers.map GpioAnswer.pos
  pending : forall e, w.device.pending = some e ->
    e.pos ∈ w.answers.map GpioAnswer.pos

/-!
## The interrupt thread
-/

/-- What the phase says about the history. -/
def PhaseHistory (w : GpioSystem) : IstPhase -> Prop
  | .away => w.delivered.length = w.queue.retrieved.length
  | .draining => w.delivered.length = w.queue.retrieved.length
  | .serving pos p a _ =>
      w.delivered.length + 1 = w.queue.retrieved.length ∧
        w.device.positions[w.delivered.length]? = some pos ∧
        w.queue.published[pos]? = some p ∧ a ∈ w.answers ∧ a.pos = pos

/-- An unseen used element has set the virtqueue bit, or is about to. -/
def Signalled (w : GpioSystem) : Prop :=
  w.queue.retrieved.length < w.device.produced.length ->
    w.intStatus &&& VIRTIO_MMIO_INT_VIRTQ ≠ 0 ∨ w.raise = true

structure PhaseInv (mode : GpioMode) (w : GpioSystem)
    (phase : IstPhase) : Prop where
  history : PhaseHistory w phase
  /-- Deliveries follow the used ring. -/
  delivered : forall (n : Nat) (ptr : ContextPtr), w.delivered[n]? = some ptr ->
    exists (pos : Nat) (p : Published), w.device.positions[n]? = some pos ∧
      w.queue.published[pos]? = some p ∧ p.context = some ptr
  waiting : w.waiting = true -> phase = .away
  signalled : mode.strict = true -> phase = .away -> Signalled w

/-!
## Contexts
-/

/-- The chains that client `t` published belong to calls before the `n`-th. -/
def PublishedBefore (w : GpioSystem) (t n : Nat) : Prop :=
  forall p, p ∈ w.queue.published -> forall m, p.context = some ⟨t, m⟩ -> m < n

/-- A context with the answer. -/
structure CarriesAnswer (c : VirtioGpioContext) (a : GpioAnswer) : Prop where
  status : c.status = a.status
  value : c.value = a.value

/-- What a client knows about its own context and its own chains. -/
def StageInv (w : GpioSystem) (t : Nat) : ClientStage -> Prop
  | .idle n => PublishedBefore w t n
  | .calling n c => PublishedBefore w t n ∧ w.contexts ⟨t, n⟩ = some c
  | .sent n pos => PublishedBefore w t (n + 1) ∧
      exists (c : VirtioGpioContext) (p : Published), w.contexts ⟨t, n⟩ = some c ∧
        w.queue.published[pos]? = some p ∧ p.context = some ⟨t, n⟩ ∧
        (⟨t, n⟩ ∉ w.delivered -> c.sem = some 0) ∧
        (⟨t, n⟩ ∈ w.delivered -> c.sem = some 1 ∧
          exists a, a ∈ w.answers ∧ a.pos = pos ∧ CarriesAnswer c a)
  | .woken n pos a => PublishedBefore w t (n + 1) ∧
      exists (c : VirtioGpioContext) (p : Published), w.contexts ⟨t, n⟩ = some c ∧
        w.queue.published[pos]? = some p ∧ p.context = some ⟨t, n⟩ ∧
        ⟨t, n⟩ ∈ w.delivered ∧ a ∈ w.answers ∧ a.pos = pos ∧ CarriesAnswer c a

/-- The result that an answer stands for. -/
def GpioCall.resultOf (call : GpioCall) (a : GpioAnswer) : GpioResult where
  rc := if a.status = VIRTIO_GPIO_STATUS_OK then .EOK else Rc.EIO
  value := if call.reads then some a.value else none
  waited := true

/-- A call that returned what the device answered to its own chain. -/
def Routed (w : GpioSystem) (r : GpioReturn) : Prop :=
  exists (pos : Nat) (p : Published) (a : GpioAnswer),
    w.queue.published[pos]? = some p ∧ p.context = some r.context ∧
      a ∈ w.answers ∧ a.pos = pos ∧ r.result = r.call.resultOf a

/-- What holds of a call that has returned. -/
structure ReturnInv (mode : GpioMode) (scripts : Nat -> Nat -> GpioCall)
    (w : GpioSystem) (stage : Nat -> ClientStage) (r : GpioReturn) : Prop where
  call : r.call = scripts r.context.thread r.context.call
  past : r.context.call < (stage r.context.thread).call
  delivered : forall p, p ∈ w.queue.published -> p.context = some r.context ->
    r.context ∈ w.delivered
  routed : mode.quiet = true -> r.result.waited = true -> Routed w r
  settled : forall p, p ∈ w.queue.published -> p.context = some r.context -> Routed w r

structure ContextInv (mode : GpioMode) (scripts : Nat -> Nat -> GpioCall)
    (w : GpioSystem) (stage : Nat -> ClientStage) (phase : IstPhase) : Prop where
  stale : w.stale = []
  stages : forall t, StageInv w t (stage t)
  /-- No two chains share a context. -/
  distinct : forall (pos pos' : Nat) (p p' : Published), w.queue.published[pos]? = some p ->
    w.queue.published[pos']? = some p' -> p.context = p'.context -> pos = pos'
  /-- The context of a chain that is not delivered belongs to a call that waits. -/
  live : forall (pos : Nat) (p : Published) ptr, w.queue.published[pos]? = some p ->
    p.context = some ptr -> ptr ∉ w.delivered ->
    stage ptr.thread = .sent ptr.call pos
  copied : forall pos p a k ptr c, phase = .serving pos p a k ->
    p.context = some ptr -> w.contexts ptr = some c ->
    (1 <= k -> c.status = a.status) ∧ (2 <= k -> c.value = a.value)
  deliveredNodup : w.delivered.Nodup
  returns : forall r, r ∈ w.returns -> ReturnInv mode scripts w stage r

/-!
## Everything
-/

structure GpioInv (mode : GpioMode)
    (scripts : Nat -> Nat -> GpioCall) (w : GpioSystem)
    (gs : GpioThread -> GpioGhost) (fl : Nat -> Holding) : Prop where
  holding : HoldInv w.queue (holdings gs fl)
  flow : FlowInv scripts w fl
  phase : PhaseInv mode w (gs .ist).phase
  context : mode.calm = true ->
    ContextInv mode scripts w (stages gs) (gs .ist).phase

def gpioContract (mode : GpioMode)
    (scripts : Nat -> Nat -> GpioCall) :
    Contract GpioThread Env GpioDeviceMove GpioSystem GpioGhost where
  env := gpioEnv
  ok := gpioOk mode
  inv w gs := exists fl, GpioInv mode scripts w gs fl

end QnxVirtio
