import QnxVirtio.Foundation.Logged
import QnxVirtio.Gpio.ChainRuns

/-!
# A used ring that cannot be trusted

The device may put any index and any elements into the used ring.  What the interrupt
thread does with them is written down, and told safe or not.
-/

namespace QnxVirtio

open Foundation

/-!
## What the interrupt thread does
-/

/-- `virtq_get_desc_chain` looks at a used element and accepts it or not; `desc[idx]` or
`desc_extras[idx]` is accessed; an entry of `idxs` is used of which so many are filled; a
completion is called through a context; a descriptor is freed that was published so
often. -/
inductive RingEvent where
  | looked (id : UInt32) (inFlight accepted : Bool)
  | touched (idx num : UInt16)
  | entry (i filled : Nat)
  | completed (context : Option ContextPtr)
  | freed (idx : UInt16) (published : Nat)
deriving DecidableEq

/-- The descriptors freed, in this order. -/
def freedOf (log : List RingEvent) : List UInt16 :=
  log.filterMap fun
    | .freed idx _ => some idx
    | _ => none

/-- The event may follow the ones before it.  A descriptor may be freed as often as it was
published. -/
def RingEvent.Allowed (before : List RingEvent) : RingEvent -> Prop
  | .looked _ inFlight accepted => accepted = true -> inFlight = true
  | .touched idx num => idx.toNat < num.toNat
  | .entry i filled => i < filled
  | .completed context => context ≠ none
  | .freed idx published => (freedOf before).count idx < published

def RingSafe (log : List RingEvent) : Prop :=
  forall before ev after, log = before ++ ev :: after -> ev.Allowed before

/-- An element that was looked at names the head of a chain in flight. -/
def RingEvent.met : RingEvent -> Bool
  | .looked _ inFlight _ => inFlight
  | _ => true

def Met (log : List RingEvent) : Prop :=
  forall ev, ev ∈ log -> ev.met = true

theorem ringSafe_nil : RingSafe [] := by
  intro before ev after h
  cases before with
  | nil => cases h
  | cons x before => cases h

theorem RingSafe.snoc {log : List RingEvent} {ev : RingEvent} (h : RingSafe log)
    (hev : ev.Allowed log) : RingSafe (log ++ [ev]) := by
  intro before ev' after heq
  rcases List.eq_nil_or_concat after with rfl | ⟨rest, last, rfl⟩
  · rcases List.append_inj' heq rfl with ⟨rfl, hlast⟩
    cases hlast
    exact hev
  · rw [List.concat_eq_append, ← List.cons_append, ← List.append_assoc] at heq
    rcases List.append_inj' heq rfl with ⟨hlog, _⟩
    exact h before ev' rest hlog

theorem RingSafe.append {log l : List RingEvent} (h : RingSafe log)
    (hl : forall ev, ev ∈ l -> forall before, ev.Allowed before) :
    RingSafe (log ++ l) := by
  induction l generalizing log with
  | nil =>
      rw [List.append_nil]
      exact h
  | cons ev l ih =>
      rw [← List.singleton_append, ← List.append_assoc]
      exact ih (h.snoc (hl ev List.mem_cons_self log))
        fun ev' hev' => hl ev' (List.mem_cons_of_mem _ hev')

theorem Met.of_prefix {log log' : List RingEvent} (hpre : log <+: log') (h : Met log') :
    Met log :=
  fun ev hev => h ev (hpre.subset hev)

theorem met_append_iff {log l : List RingEvent} : Met (log ++ l) <-> Met log ∧ Met l := by
  unfold Met
  simp only [List.mem_append, or_imp, forall_and]

theorem freedOf_append (log l : List RingEvent) :
    freedOf (log ++ l) = freedOf log ++ freedOf l :=
  List.filterMap_append

/-!
## The driver, watched
-/

/-- The chain was published more often than it was retrieved. -/
def Queue.flying (q : Queue) (p : Published) : Bool :=
  decide (q.retrieved.count p.chain < (q.published.map Published.chain).count p.chain)

/-- A chain in flight has this head. -/
def Queue.inFlight (q : Queue) (id : UInt32) : Bool :=
  q.published.any fun p => p.head.toUInt32 == id && q.flying p

/-- The descriptors that a walk over at most `n` of them reads. -/
def chainVisits (desc : UInt16 -> VirtqDesc) : Nat -> UInt16 -> List UInt16
  | 0, _ => []
  | n + 1, idx =>
      idx :: if (desc idx).hasNext then chainVisits desc n (desc idx).next else []

/-- What `virtq_get_desc_chain` does after it has the lock and finds a used element. -/
def lookEvents (e : Env) (w : GpioSystem) (r : Option (Except Rc (List UInt16))) :
    List RingEvent :=
  if e.lock ≠ .EOK ∨ w.queue.vq.usedIdx = w.queue.vq.lastSeenUsed then
    []
  else
    let id := (w.queue.vq.usedRing (w.queue.vq.lastSeenUsed % w.queue.vq.num)).id
    .looked id (w.queue.inFlight id) ((r.bind Except.toOption).isSome) ::
      (chainVisits w.queue.vq.desc 2 id.toUInt16).map fun idx =>
        .touched idx w.queue.vq.num

/-- Entry `i` of `idxs` is passed to a function that checks it. -/
def readEvents {α : Type} (i : Nat) (idxs : List UInt16) (idx : UInt16) (_ : Env)
    (w : GpioSystem) (_ : Option α) : List RingEvent :=
  .entry i idxs.length ::
    if w.queue.vq.num <= idx then [] else [.touched idx w.queue.vq.num]

/-- The context is read, and the completion is called through it. -/
def contextEvents (idxs : List UInt16) (v : CallbackLocals) (e : Env) (w : GpioSystem)
    (r : Option (Except Rc (Option ContextPtr))) : List RingEvent :=
  readEvents 0 idxs v.idx0 e w r ++
    [.completed ((r.bind Except.toOption).getD v.context)]

/-- Entry `i` of `idxs` is freed, which nothing checks. -/
def freeEvents {α : Type} (i : Nat) (idxs : List UInt16) (idx : UInt16) (_ : Env)
    (w : GpioSystem) (_ : Option α) : List RingEvent :=
  [.entry i idxs.length, .touched idx w.queue.vq.num,
    .freed idx ((w.queue.published.flatMap Published.chain).count idx)]

abbrev WatchedRing : Type :=
  Watched GpioSystem RingEvent

def watchedCallbackRound (v : CallbackLocals) :
    Prog Env WatchedRing (CallbackLocals ⊕ Rc) := do
  match <- Prog.marked lookEvents (onQueue (virtqGetDescChain 2)) with
  | .error rc => pure (.inr rc)
  | .ok idxs =>
      let v := v.withIdxs idxs
      let request <- Prog.marked (readEvents 0 idxs v.idx0)
        (onQueue (virtqGetDescVaddr v.idx0))
      let v := { v with request := request.toOption.getD v.request }
      let response <- Prog.marked (readEvents 1 idxs v.idx1)
        (onQueue (virtqGetDescVaddr v.idx1))
      let v := { v with response := response.toOption.getD v.response }
      let context <- Prog.marked (contextEvents idxs v)
        (onQueue (virtqGetDescContext v.idx0))
      let v := { v with context := context.toOption.getD v.context }
      match v.context with
      | none => Prog.silent (Prog.action fun _ _ => none)
      | some ptr =>
          let callback <- Prog.silent (contextCallback ptr)
          Prog.silent (callback.call v.request v.response ptr)
          let _ <- Prog.marked (freeEvents 0 idxs v.idx0) (onQueue (virtqFreeDesc v.idx0))
          let _ <- Prog.marked (freeEvents 1 idxs v.idx1) (onQueue (virtqFreeDesc v.idx1))
          pure (.inl v)

def watchedCallback : Prog Env WatchedRing Rc := do
  let v <- Prog.silent (Prog.action fun e w =>
    some ({ idx0 := UInt16.ofNat e.garbage
            idx1 := UInt16.ofNat e.garbage
            request := e.garbage
            response := e.garbage
            context := e.wild : CallbackLocals }, w))
  Prog.iterate watchedCallbackRound v

def watchedDrain : Prog Env WatchedRing Rc :=
  Prog.iterate (fun _ => do
    let rc <- watchedCallback
    if rc = .EOK then pure (.inl ()) else pure (.inr rc)) ()

def watchedRingCallback : Transport -> Prog Env WatchedRing Rc
  | .mmio => do
      let status <- Prog.silent (Prog.read GpioSystem.intStatus)
      if status &&& VIRTIO_MMIO_INT_VIRTQ ≠ 0 then
        Prog.silent (Prog.modify fun w =>
          { w with intStatus := w.intStatus &&& ~~~ VIRTIO_MMIO_INT_VIRTQ })
        watchedDrain
      else watchedDrain
  | .pci => watchedDrain

def watchedRingIst (transport : Transport) : Prog Env WatchedRing Unit := do
  let attached <- Prog.silent (Prog.action fun e w => some (e.attach, w))
  if attached then
    Prog.iterate (fun _ => do
      Prog.silent interruptUnmask
      Prog.silent (interruptWait transport)
      let _ <- watchedRingCallback transport
      pure (.inl ())) ()
  else pure ()

def watchedRingThread (transport : Transport) (config : VirtioGpioConfig)
    (scripts : Nat -> Nat -> GpioCall) : GpioThread -> Prog Env WatchedRing Unit
  | .client t => Prog.silent (gpioClient config t (scripts t))
  | .ist => watchedRingIst transport

theorem watches_callbackRound (v : CallbackLocals) :
    Prog.Watches (virtqCallbackRound v) (watchedCallbackRound v) := by
  refine (Prog.watches_marked _ _).bind fun r => ?_
  cases r with
  | error rc => exact Prog.Watches.ret _
  | ok idxs =>
      refine (Prog.watches_marked _ _).bind fun request => ?_
      refine (Prog.watches_marked _ _).bind fun response => ?_
      refine (Prog.watches_marked _ _).bind fun context => ?_
      dsimp only
      cases context.toOption.getD (v.withIdxs idxs).context with
      | none => exact Prog.watches_silent _
      | some ptr =>
          refine (Prog.watches_silent _).bind fun callback => ?_
          refine (Prog.watches_silent _).bind fun _ => ?_
          refine (Prog.watches_marked _ _).bind fun _ => ?_
          refine (Prog.watches_marked _ _).bind fun _ => ?_
          exact Prog.Watches.ret _

theorem watches_drain : Prog.Watches drainVirtq watchedDrain := by
  refine Prog.watches_iterate (fun _ => ?_) ()
  have hcallback : Prog.Watches virtqCallback watchedCallback :=
    (Prog.watches_silent _).bind fun v => Prog.watches_iterate watches_callbackRound v
  refine hcallback.bind fun rc => ?_
  split
  · exact Prog.Watches.ret _
  · exact Prog.Watches.ret _

theorem watches_ringCallback (transport : Transport) :
    Prog.Watches (virtioVirtqCallback transport) (watchedRingCallback transport) := by
  cases transport with
  | mmio =>
      refine (Prog.watches_silent _).bind fun status => ?_
      split
      · exact (Prog.watches_silent _).bind fun _ => watches_drain
      · exact watches_drain
  | pci => exact watches_drain

theorem watches_ringIst (transport : Transport) :
    Prog.Watches (virtioIst transport) (watchedRingIst transport) := by
  refine (Prog.watches_silent _).bind fun attached => ?_
  split
  · refine Prog.watches_iterate (fun _ => ?_) ()
    refine (Prog.watches_silent _).bind fun _ => ?_
    refine (Prog.watches_silent _).bind fun _ => ?_
    exact (watches_ringCallback transport).bind fun _ => Prog.Watches.ret _
  · exact Prog.Watches.ret _

/-!
## The device
-/

/-- The device writes any index and any elements, answers requests of chains in flight and
sets the interrupt status, in any order. -/
inductive UsedRingMove where
  | index (idx : UInt16)
  | element (slot : UInt16) (elem : VirtqUsedElem)
  | respond (pos : Nat) (status value : UInt8)
  | interrupt (status : UInt32)

def usedRingEnv : UsedRingMove -> GpioSystem -> Option GpioSystem
  | .index idx, w =>
      some { w with queue := { w.queue with vq := { w.queue.vq with usedIdx := idx } } }
  | .element slot elem, w =>
      some { w with queue := { w.queue with vq := { w.queue.vq with
        usedRing := Function.update w.queue.vq.usedRing slot elem } } }
  | .respond pos status value, w =>
      match w.queue.published[pos]? with
      | none => none
      | some p =>
          if w.queue.flying p then
            some { w with queue := { w.queue with
              mem := w.queue.mem.store
                (w.queue.vq.desc (w.queue.vq.desc p.head).next).addr [status, value] } }
          else none
  | .interrupt status, w => some { w with intStatus := status }

def usedRingPool (transport : Transport) (config : VirtioGpioConfig) (obj : VirtqObject)
    (mem : Memory) (scripts : Nat -> Nat -> GpioCall) :
    Pool GpioThread Env WatchedRing where
  state := { state := obj.gpioSystem mem, events := [] }
  thread := watchedRingThread transport config scripts

/-- The states that runs with such a device reach, with what the interrupt thread did. -/
def UsedRingReachable (transport : Transport) (config : VirtioGpioConfig)
    (obj : VirtqObject) (mem : Memory) (scripts : Nat -> Nat -> GpioCall)
    (w : WatchedRing) : Prop :=
  exists c, Pool.Reachable (Pool.watchEnv (fun _ _ => []) usedRingEnv) (fun _ _ => True)
    (usedRingPool transport config obj mem scripts) c ∧ c.state = w

theorem watches_usedRingPool (transport : Transport) (config : VirtioGpioConfig)
    (obj : VirtqObject) (mem : Memory) (scripts : Nat -> Nat -> GpioCall) :
    Pool.Watches (gpioPool transport config obj mem scripts)
      (usedRingPool transport config obj mem scripts) where
  state := rfl
  thread
    | .client _ => Prog.watches_silent _
    | .ist => watches_ringIst transport

/-- Watching changes nothing. -/
theorem usedRingReachable_iff {transport : Transport} {config : VirtioGpioConfig}
    {obj : VirtqObject} {mem : Memory} {scripts : Nat -> Nat -> GpioCall}
    {w : GpioSystem} :
    (exists c, Pool.Reachable usedRingEnv (fun _ _ => True)
      (gpioPool transport config obj mem scripts) c ∧ c.state = w) <->
        exists log, UsedRingReachable transport config obj mem scripts ⟨w, log⟩ :=
  Pool.watched_iff (watches_usedRingPool transport config obj mem scripts)

end QnxVirtio
