import QnxVirtio.Foundation.Watch
import QnxVirtio.Gpio.Untouched

/-!
# What the allocations of a call find

A request takes two descriptors from the free list and maps a buffer for each.  What these
steps find is written down under the context of the call.  A call fails with `ENOENT` before
it has submitted anything exactly when one of them finds nothing.
-/

namespace QnxVirtio

open Foundation

/-!
## What is found
-/

/-- The answer to the spinlock of the free list and the list as it is then, and what
`mmap64` and `mem_offset64` return. -/
inductive AllocEvent
  | got (context : ContextPtr) (lock : Rc) (free : List UInt16)
  | mapped (context : ContextPtr) (r : Except Rc Nat)
  | located (context : ContextPtr) (r : Except Rc Nat)

namespace AllocEvent

/-- The call that allocates. -/
def context : AllocEvent -> ContextPtr
  | got context _ _ => context
  | mapped context _ => context
  | located context _ => context

/-- The free list is empty, or one of the calls answers that there is no entry. -/
def Starves : AllocEvent -> Prop
  | got _ lock free => lock = .ENOENT ∨ (lock = .EOK ∧ free = [])
  | mapped _ r => r = .error .ENOENT
  | located _ r => r = .error .ENOENT

end AllocEvent

/-- An allocation of the call found nothing. -/
def Starved (log : List AllocEvent) (ptr : ContextPtr) : Prop :=
  exists ev, ev ∈ log ∧ ev.context = ptr ∧ ev.Starves

theorem starved_append_iff {log l : List AllocEvent} {ptr : ContextPtr} :
    Starved (log ++ l) ptr <-> Starved log ptr ∨ Starved l ptr := by
  unfold Starved
  simp only [List.mem_append, or_and_right, exists_or]

theorem starved_append_of_ne {log l : List AllocEvent} {ptr ptr' : ContextPtr}
    (hl : forall ev, ev ∈ l -> ev.context = ptr') (hne : ptr ≠ ptr') :
    Starved (log ++ l) ptr <-> Starved log ptr := by
  rw [starved_append_iff]
  refine or_iff_left fun hstarved => ?_
  rcases hstarved with ⟨ev, hev, hcontext, _⟩
  exact hne (hcontext.symm.trans (hl ev hev))

/-!
## The driver, watched
-/

abbrev WatchedAllocs : Type :=
  Watched GpioSystem AllocEvent

def onNotedQueue {α : Type} (p : Prog Env (Watched Queue AllocEvent) α) :
    Prog Env WatchedAllocs α :=
  Prog.watchedZoom GpioSystem.queue (fun q w => { w with queue := q }) p

def notedAllocDesc (ptr : ContextPtr) (len : UInt32) (writable : Bool) :
    Prog Env (Watched Queue AllocEvent) (Except Rc UInt16) := do
  match <- Prog.marked (fun e q _ => [.got ptr e.lock q.vq.freeList]) freeDescsGet with
  | .error rc => pure (.error rc)
  | .ok idx =>
      match <- Prog.noted (fun r => [.mapped ptr r]) (mapBuffer len) with
      | .error rc =>
          let _ <- Prog.silent (freeDescsPut idx)
          pure (.error rc)
      | .ok vaddr =>
          match <- Prog.noted (fun r => [.located ptr r]) (bufferOffset vaddr) with
          | .error rc =>
              let _ <- Prog.silent (unmapBuffer vaddr len)
              let _ <- Prog.silent (freeDescsPut idx)
              pure (.error rc)
          | .ok paddr =>
              Prog.silent do
                setExtras idx fun x => { x with vaddr := vaddr }
                setExtras idx fun x => { x with context := none }
                setDesc idx fun d => { d with addr := paddr }
                setDesc idx fun d => { d with len := len }
                setDesc idx fun d =>
                  { d with flags := if writable then VIRTQ_DESC_F_WRITE else 0 }
                setDesc idx fun d => { d with next := 0 }
              pure (.ok idx)

def notedRequest (config : VirtioGpioConfig) (type gpio value : UInt16)
    (context : ContextPtr) : Prog Env WatchedAllocs Rc := do
  match <- onNotedQueue (notedAllocDesc context sizeofVirtioGpioRequest false) with
  | .error rc => pure rc
  | .ok idx0 =>
      match <- onNotedQueue
          (notedAllocDesc context (virtioGpioResponseSize config type) true) with
      | .error rc =>
          let _ <- Prog.silent (onQueue (virtqFreeDesc idx0))
          pure rc
      | .ok idx1 =>
          match <- Prog.silent (onQueue (virtqGetDescVaddr idx0)) with
          | .error rc =>
              let _ <- Prog.silent (onQueue (virtqFreeDesc idx1))
              let _ <- Prog.silent (onQueue (virtqFreeDesc idx0))
              pure rc
          | .ok request =>
              Prog.silent (onQueue (storeRequest request type gpio value.toUInt32))
              let _ <- Prog.silent (onQueue (virtqSetDescContext idx0 context))
              let _ <- Prog.silent (onQueue (virtqPutDescChain idx0 [idx1]))
              let _ <- Prog.silent virtioNotifyQueue
              pure .EOK

def notedOperation (config : VirtioGpioConfig) (type gpio value : UInt16)
    (reads : Bool) (context : ContextPtr) : Prog Env WatchedAllocs GpioResult := do
  let rc <- Prog.silent (virtioGpioContextInit context)
  if rc ≠ .EOK then pure { rc := rc, value := none, waited := false }
  else
    let rc <- notedRequest config type gpio value context
    if rc ≠ .EOK then
      Prog.silent (virtioGpioContextDeinit context)
      pure { rc := rc, value := none, waited := false }
    else
      let rc <- Prog.silent (virtioGpioContextWait context)
      if rc ≠ .EOK then
        Prog.silent (virtioGpioContextDeinit context)
        pure { rc := rc, value := none, waited := true }
      else
        let value <- Prog.silent (readValue reads context)
        let rc <- Prog.silent (readContext context fun c =>
          if c.status = VIRTIO_GPIO_STATUS_OK then Rc.EOK else Rc.EIO)
        Prog.silent (virtioGpioContextDeinit context)
        pure { rc := rc, value := value, waited := true }

def GpioCall.notedRun (config : VirtioGpioConfig) :
    GpioCall -> ContextPtr -> Prog Env WatchedAllocs GpioResult
  | .setValue gpio value =>
      notedOperation config VIRTIO_GPIO_MSG_SET_VALUE gpio value.toUInt16 false
  | .getValue gpio => notedOperation config VIRTIO_GPIO_MSG_GET_VALUE gpio 0 true
  | .getDirection gpio => notedOperation config VIRTIO_GPIO_MSG_GET_DIRECTION gpio 0 true
  | .setDirection gpio direction =>
      notedOperation config VIRTIO_GPIO_MSG_SET_DIRECTION gpio direction.toUInt16 false

def notedRound (config : VirtioGpioConfig) (t : Nat) (script : Nat -> GpioCall)
    (n : Nat) : Prog Env WatchedAllocs (Nat ⊕ Unit) := do
  Prog.silent (enterFrame ⟨t, n⟩)
  let result <- (script n).notedRun config ⟨t, n⟩
  Prog.silent (leaveFrame ⟨t, n⟩ (script n) result)
  pure (.inl (n + 1))

def notedThread (transport : Transport) (config : VirtioGpioConfig)
    (scripts : Nat -> Nat -> GpioCall) : GpioThread -> Prog Env WatchedAllocs Unit
  | .client t => Prog.iterate (notedRound config t (scripts t)) 0
  | .ist => Prog.silent (virtioIst transport)

def allocPool (transport : Transport) (config : VirtioGpioConfig) (obj : VirtqObject)
    (mem : Memory) (scripts : Nat -> Nat -> GpioCall) :
    Pool GpioThread Env WatchedAllocs where
  state := { state := obj.gpioSystem mem, events := [] }
  thread := notedThread transport config scripts

/-- The states that runs of this mode reach, with what the allocations found. -/
def AllocReachable (mode : GpioMode) (transport : Transport) (config : VirtioGpioConfig)
    (obj : VirtqObject) (mem : Memory) (scripts : Nat -> Nat -> GpioCall)
    (w : WatchedAllocs) : Prop :=
  exists c, Pool.Reachable (Pool.watchEnv (fun _ _ => []) gpioEnv)
    (fun move w => gpioOk mode move w.state)
    (allocPool transport config obj mem scripts) c ∧ c.state = w

theorem watches_notedAlloc (ptr : ContextPtr) (len : UInt32) (writable : Bool) :
    Prog.Watches (virtqAllocDesc len writable) (notedAllocDesc ptr len writable) := by
  refine (Prog.watches_marked _ _).bind fun r => ?_
  cases r with
  | error rc => exact Prog.Watches.ret _
  | ok idx =>
      refine (Prog.watches_noted _ _).bind fun r => ?_
      cases r with
      | error rc => exact (Prog.watches_silent _).bind fun _ => Prog.Watches.ret _
      | ok vaddr =>
          refine (Prog.watches_noted _ _).bind fun r => ?_
          cases r with
          | error rc =>
              refine (Prog.watches_silent _).bind fun _ => ?_
              exact (Prog.watches_silent _).bind fun _ => Prog.Watches.ret _
          | ok paddr =>
              exact (Prog.watches_silent (do
                setExtras idx fun x => { x with vaddr := vaddr }
                setExtras idx fun x => { x with context := none }
                setDesc idx fun d => { d with addr := paddr }
                setDesc idx fun d => { d with len := len }
                setDesc idx fun d =>
                  { d with flags := if writable then VIRTQ_DESC_F_WRITE else 0 }
                setDesc idx fun d => { d with next := 0 })).bind fun _ => Prog.Watches.ret _

theorem watches_notedRequest (config : VirtioGpioConfig) (type gpio value : UInt16)
    (context : ContextPtr) :
    Prog.Watches (virtioGpioRequest config type gpio value context)
      (notedRequest config type gpio value context) := by
  refine (watches_notedAlloc _ _ _).zoom.bind fun r0 => ?_
  cases r0 with
  | error rc => exact Prog.Watches.ret _
  | ok idx0 =>
      refine (watches_notedAlloc _ _ _).zoom.bind fun r1 => ?_
      cases r1 with
      | error rc => exact (Prog.watches_silent _).bind fun _ => Prog.Watches.ret _
      | ok idx1 =>
          refine (Prog.watches_silent _).bind fun r2 => ?_
          cases r2 with
          | error rc =>
              refine (Prog.watches_silent _).bind fun _ => ?_
              exact (Prog.watches_silent _).bind fun _ => Prog.Watches.ret _
          | ok request =>
              refine (Prog.watches_silent _).bind fun _ => ?_
              refine (Prog.watches_silent _).bind fun _ => ?_
              refine (Prog.watches_silent _).bind fun _ => ?_
              exact (Prog.watches_silent _).bind fun _ => Prog.Watches.ret _

theorem watches_notedOperation (config : VirtioGpioConfig) (type gpio value : UInt16)
    (reads : Bool) (context : ContextPtr) :
    Prog.Watches (virtioGpioOperation config type gpio value reads context)
      (notedOperation config type gpio value reads context) := by
  refine (Prog.watches_silent _).bind fun rc => ?_
  split
  · exact Prog.Watches.ret _
  · refine (watches_notedRequest config type gpio value context).bind fun rc => ?_
    split
    · exact (Prog.watches_silent _).bind fun _ => Prog.Watches.ret _
    · refine (Prog.watches_silent _).bind fun rc => ?_
      split
      · exact (Prog.watches_silent _).bind fun _ => Prog.Watches.ret _
      · refine (Prog.watches_silent _).bind fun value => ?_
        refine (Prog.watches_silent _).bind fun rc => ?_
        exact (Prog.watches_silent _).bind fun _ => Prog.Watches.ret _

theorem watches_notedRun (config : VirtioGpioConfig) (call : GpioCall) (ptr : ContextPtr) :
    Prog.Watches (call.run config ptr) (call.notedRun config ptr) := by
  cases call with
  | setValue gpio value => exact watches_notedOperation _ _ _ _ _ _
  | getValue gpio => exact watches_notedOperation _ _ _ _ _ _
  | getDirection gpio => exact watches_notedOperation _ _ _ _ _ _
  | setDirection gpio direction => exact watches_notedOperation _ _ _ _ _ _

theorem watches_allocPool (transport : Transport) (config : VirtioGpioConfig)
    (obj : VirtqObject) (mem : Memory) (scripts : Nat -> Nat -> GpioCall) :
    Pool.Watches (gpioPool transport config obj mem scripts)
      (allocPool transport config obj mem scripts) where
  state := rfl
  thread
    | .client t => by
        refine Prog.watches_iterate (fun n => ?_) 0
        refine (Prog.watches_silent _).bind fun _ => ?_
        refine (watches_notedRun config (scripts t n) ⟨t, n⟩).bind fun result => ?_
        exact (Prog.watches_silent _).bind fun _ => Prog.Watches.ret _
    | .ist => Prog.watches_silent _

section Runs

variable {mode : GpioMode} {transport : Transport} {config : VirtioGpioConfig}
  {obj : VirtqObject} {mem : Memory} {scripts : Nat -> Nat -> GpioCall}

theorem allocReachable_iff {w : GpioSystem} :
    GpioReachable mode transport config obj mem scripts w <->
      exists log, AllocReachable mode transport config obj mem scripts ⟨w, log⟩ :=
  Pool.watched_iff (watches_allocPool transport config obj mem scripts)

theorem AllocReachable.gpio {w : WatchedAllocs}
    (h : AllocReachable mode transport config obj mem scripts w) :
    GpioReachable mode transport config obj mem scripts w.state :=
  allocReachable_iff.mpr ⟨w.events, h⟩

end Runs

/-!
## Calls that find nothing
-/

/-- The number of the current call of a thread, and whether its allocations found
nothing. -/
structure AllocGhost where
  call : Nat
  starved : Prop

/-- A result of a call that failed with `ENOENT` and submitted nothing. -/
def GpioResult.Unsent (result : GpioResult) : Prop :=
  result.rc = .ENOENT ∧ result.waited = false

/-- A call that has returned failed like that exactly if its allocations found nothing, and
no later call of its thread has allocated. -/
structure AllocInv (w : WatchedAllocs) (gs : GpioThread -> AllocGhost) : Prop where
  current : forall t, Starved w.events ⟨t, (gs (.client t)).call⟩ <->
    (gs (.client t)).starved
  past : forall ev, ev ∈ w.events -> ev.context.call <= (gs (.client ev.context.thread)).call
  returned : forall r, r ∈ w.state.returns ->
    r.context.call < (gs (.client r.context.thread)).call ∧
      (r.result.Unsent <-> Starved w.events r.context)

def allocContract : Contract GpioThread Env GpioDeviceMove WatchedAllocs AllocGhost where
  env := Pool.watchEnv (fun _ _ => []) gpioEnv
  ok := fun _ _ => True
  inv := AllocInv

/-- The log and the record of calls stay as they are. -/
structure Unnoted (w w' : WatchedAllocs) : Prop where
  events : w'.events = w.events
  returns : w'.state.returns = w.state.returns

namespace AllocInv

theorem congr {w w' : WatchedAllocs} {gs : GpioThread -> AllocGhost}
    (h : AllocInv w gs) (hsame : Unnoted w w') : AllocInv w' gs := by
  constructor
  · rw [hsame.events]
    exact h.current
  · rw [hsame.events]
    exact h.past
  · rw [hsame.events, hsame.returns]
    exact h.returned

section Client

variable {t n : Nat} {g : AllocGhost} {α β : Type}

theorem unnoted_triple {p : Prog Env WatchedAllocs α} (hp : p.Within Unnoted)
    (t : GpioThread) : allocContract.Triple t g p fun _ g' => g' = g :=
  Contract.Triple.of_within (fun _ _ _ hsame h => AllocInv.congr h hsame) hp

theorem silent_triple {p : Prog Env GpioSystem α} (hp : p.Within SameReturns)
    (t : GpioThread) : allocContract.Triple t g (Prog.silent p) fun _ g' => g' = g :=
  unnoted_triple (hp.zoom fun _ _ hsame => ⟨rfl, hsame⟩) t

theorem silent_onQueue_triple (p : Prog Env Queue α) (t : GpioThread) :
    allocContract.Triple t g (Prog.silent (onQueue p)) fun _ g' => g' = g := by
  have hqueue : (onQueue p).Within SameReturns := by
    refine Prog.Within.zoom ?_ (Prog.within_any p)
    exact fun _ _ _ => rfl
  exact silent_triple hqueue t

theorem queue_silent_triple (p : Prog Env Queue α) (t : GpioThread) :
    allocContract.Triple t g (onNotedQueue (Prog.silent p)) fun _ g' => g' = g := by
  have hqueue : (Prog.silent p : Prog Env (Watched Queue AllocEvent) α).Within
      fun w w' => w'.events = w.events := by
    refine Prog.Within.zoom ?_ (Prog.within_any p)
    exact fun _ _ _ => rfl
  exact unnoted_triple (hqueue.zoom fun _ _ hsame => ⟨hsame, rfl⟩) t

theorem onNotedQueue_bind (p : Prog Env (Watched Queue AllocEvent) α)
    (f : α -> Prog Env (Watched Queue AllocEvent) β) :
    onNotedQueue (p.bind f) = (onNotedQueue p).bind fun a => onNotedQueue (f a) :=
  Prog.zoom_bind p f

theorem note {w : WatchedAllocs} {gs : GpioThread -> AllocGhost}
    (h : AllocInv w gs) (hghost : gs (.client t) = ⟨n, False⟩) (q : Queue)
    (ev : AllocEvent) (hcontext : ev.context = ⟨t, n⟩) :
    AllocInv ⟨{ w.state with queue := q }, w.events ++ [ev]⟩
      (Function.update gs (.client t) ⟨n, ev.Starves⟩) := by
  have hcall : forall t', (Function.update gs (.client t) ⟨n, ev.Starves⟩ (.client t')).call =
      (gs (.client t')).call := by
    intro t'
    by_cases ht : t' = t
    · rw [ht, Function.update_self, hghost]
    · rw [Function.update_of_ne fun heq => ht (GpioThread.client.inj heq)]
  have hother : forall ptr, ptr ≠ ⟨t, n⟩ ->
      (Starved (w.events ++ [ev]) ptr <-> Starved w.events ptr) :=
    fun ptr hne => starved_append_of_ne
      (fun ev' hev => (List.mem_singleton.mp hev) ▸ hcontext) hne
  constructor
  · intro t'
    by_cases ht : t' = t
    · rw [ht, Function.update_self, starved_append_iff]
      have hbefore := h.current t
      rw [hghost] at hbefore
      rw [hbefore, false_or]
      constructor
      · rintro ⟨ev', hev, _, hstarves⟩
        exact (List.mem_singleton.mp hev) ▸ hstarves
      · exact fun hstarves => ⟨ev, List.mem_singleton_self ev, hcontext, hstarves⟩
    · rw [Function.update_of_ne fun heq => ht (GpioThread.client.inj heq)]
      exact (hother _ fun heq => ht (congrArg ContextPtr.thread heq)).trans (h.current t')
  · intro ev' hev
    rw [hcall]
    rcases List.mem_append.mp hev with hev | hev
    · exact h.past ev' hev
    · exact Nat.le_of_eq (by rw [List.mem_singleton.mp hev, hcontext, hghost])
  · intro r hr
    rcases h.returned r hr with ⟨hlt, hiff⟩
    rw [hcall]
    refine ⟨hlt, hiff.trans (hother _ fun heq => ?_).symm⟩
    rw [heq, hghost] at hlt
    exact Nat.lt_irrefl _ hlt

theorem noting_triple (f : Env -> Queue -> Option (β × Queue))
    (note : Env -> Queue -> β -> AllocEvent)
    (hcontext : forall e q r, (note e q r).context = ⟨t, n⟩) :
    allocContract.Triple (.client t) ⟨n, False⟩
      (onNotedQueue (Prog.noting (fun e q r => [note e q r]) f)) fun r g' =>
        exists e q q', f e q = some (r, q') ∧ g' = ⟨n, (note e q r).Starves⟩ := by
  apply Contract.Triple.action
  intro e w gs r w' _ hinv hghost hf
  rcases Option.map_eq_some_iff.mp hf with ⟨⟨r1, w1⟩, hnoting, hout⟩
  rcases Option.map_eq_some_iff.mp hnoting with ⟨⟨r2, q'⟩, hfound, hout'⟩
  cases hout'
  cases hout
  exact ⟨_, AllocInv.note hinv hghost q' _ (hcontext e w.state.queue _), e, _, q', hfound, rfl⟩

theorem got_triple :
    allocContract.Triple (.client t) ⟨n, False⟩
      (onNotedQueue (Prog.marked (fun e q _ => [.got ⟨t, n⟩ e.lock q.vq.freeList])
        freeDescsGet)) fun r g' => g' = ⟨n, r = .error .ENOENT⟩ := by
  unfold freeDescsGet
  rw [Prog.marked_action]
  refine (noting_triple _ (fun e q _ => .got ⟨t, n⟩ e.lock q.vq.freeList)
    fun _ _ _ => rfl).conseq fun r g' h => ?_
  rcases h with ⟨e, q, q', hget, rfl⟩
  cases hget
  refine congrArg (AllocGhost.mk n) (propext ?_)
  refine Iff.trans q.vq.fifoGet_noent_iff.symm ?_
  cases (fifoGet e.lock q.vq.freeDescs).1 with
  | error rc =>
      exact (iff_of_eq (Except.error.injEq ..)).trans (iff_of_eq (Except.error.injEq ..)).symm
  | ok elem => exact iff_of_false (fun h => by cases h) fun h => by cases h

theorem answer_triple (f : Env -> Queue -> Option (Except Rc Nat × Queue))
    (note : Except Rc Nat -> AllocEvent) (hcontext : forall r, (note r).context = ⟨t, n⟩)
    (hstarves : forall r, (note r).Starves <-> r = .error .ENOENT) :
    allocContract.Triple (.client t) ⟨n, False⟩
      (onNotedQueue (Prog.noted (fun r => [note r]) (Prog.action f))) fun r g' =>
        g' = ⟨n, r = .error .ENOENT⟩ := by
  refine (noting_triple f (fun _ _ r => note r) fun _ _ r => hcontext r).conseq
    fun r g' h => ?_
  rcases h with ⟨e, q, q', _, rfl⟩
  exact congrArg (AllocGhost.mk n) (propext (hstarves r))

theorem starved_ok (a : α) :
    AllocGhost.mk n ((.ok a : Except Rc α) = .error .ENOENT) = ⟨n, False⟩ :=
  congrArg (AllocGhost.mk n) (eq_false fun h => by cases h)

theorem starved_error (rc : Rc) :
    AllocGhost.mk n ((.error rc : Except Rc α) = .error .ENOENT) = ⟨n, rc = .ENOENT⟩ :=
  congrArg (AllocGhost.mk n) (Except.error.injEq rc .ENOENT)

theorem notedAlloc_triple (len : UInt32) (writable : Bool) :
    allocContract.Triple (.client t) ⟨n, False⟩
      (onNotedQueue (notedAllocDesc ⟨t, n⟩ len writable)) fun r g' =>
        g' = ⟨n, r = .error .ENOENT⟩ := by
  refine (onNotedQueue_bind _ _).symm ▸ ?_
  refine got_triple.bind fun r g' h => ?_
  cases r with
  | error rc => exact Contract.Triple.ret h
  | ok idx =>
      rw [h, starved_ok]
      refine (onNotedQueue_bind _ _).symm ▸ ?_
      refine (answer_triple _ (fun r => .mapped ⟨t, n⟩ r) (fun _ => rfl)
        fun _ => Iff.rfl).bind fun r g' h => ?_
      cases r with
      | error rc =>
          refine (onNotedQueue_bind _ _).symm ▸ ?_
          refine (queue_silent_triple _ _).bind fun _ g'' hsame => ?_
          exact Contract.Triple.ret (by rw [hsame, h, starved_error, starved_error])
      | ok vaddr =>
          rw [h, starved_ok]
          refine (onNotedQueue_bind _ _).symm ▸ ?_
          refine (answer_triple _ (fun r => .located ⟨t, n⟩ r) (fun _ => rfl)
            fun _ => Iff.rfl).bind fun r g' h => ?_
          cases r with
          | error rc =>
              refine (onNotedQueue_bind _ _).symm ▸ ?_
              refine (queue_silent_triple _ _).bind fun _ g1 hsame => ?_
              refine (onNotedQueue_bind _ _).symm ▸ ?_
              refine (queue_silent_triple _ _).bind fun _ g2 hsame' => ?_
              exact Contract.Triple.ret (by
                rw [hsame', hsame, h, starved_error, starved_error])
          | ok paddr =>
              refine (onNotedQueue_bind _ _).symm ▸ ?_
              refine (queue_silent_triple _ _).bind fun _ g'' hsame => ?_
              exact Contract.Triple.ret (by rw [hsame, h, starved_ok, starved_ok])

theorem vaddr_triple (idx : UInt16) :
    allocContract.Triple (.client t) g
      (Prog.silent (onQueue (virtqGetDescVaddr idx))) fun r g' =>
        g' = g ∧ forall rc, r = .error rc -> rc ≠ .ENOENT := by
  apply Contract.Triple.action
  intro e w gs r w' _ hinv hghost hf
  cases hf
  refine ⟨g, ?_, rfl, ?_⟩
  · rw [← hghost, Function.update_eq_self]
    exact hinv.congr ⟨rfl, rfl⟩
  · intro rc hrc
    dsimp only at hrc
    split at hrc
    · cases hrc
      decide
    · cases hrc

theorem notedRequest_triple (config : VirtioGpioConfig) (type gpio value : UInt16) :
    allocContract.Triple (.client t) ⟨n, False⟩
      (notedRequest config type gpio value ⟨t, n⟩) fun rc g' => g' = ⟨n, rc = .ENOENT⟩ := by
  refine (notedAlloc_triple _ _).bind fun r g' h => ?_
  cases r with
  | error rc => exact Contract.Triple.ret (by rw [h, starved_error])
  | ok idx0 =>
      rw [h, starved_ok]
      refine (notedAlloc_triple _ _).bind fun r g' h => ?_
      cases r with
      | error rc =>
          refine (silent_onQueue_triple _ _).bind fun _ g'' hsame => ?_
          exact Contract.Triple.ret (by rw [hsame, h, starved_error])
      | ok idx1 =>
          rw [h, starved_ok]
          refine (vaddr_triple idx0).bind fun r g' h => ?_
          rcases h with ⟨rfl, hrc⟩
          cases r with
          | error rc =>
              refine (silent_onQueue_triple _ _).bind fun _ g1 hsame => ?_
              refine (silent_onQueue_triple _ _).bind fun _ g2 hsame' => ?_
              refine Contract.Triple.ret ?_
              rw [hsame', hsame]
              exact congrArg (AllocGhost.mk n) (eq_false (hrc rc rfl)).symm
          | ok request =>
              refine (silent_onQueue_triple _ _).bind fun _ g1 hsame1 => ?_
              refine (silent_onQueue_triple _ _).bind fun _ g2 hsame2 => ?_
              refine (silent_onQueue_triple _ _).bind fun _ g3 hsame3 => ?_
              refine (silent_triple (Prog.within_look SameReturns.refl _) _).bind
                fun _ g4 hsame4 => ?_
              refine Contract.Triple.ret ?_
              rw [hsame4, hsame3, hsame2, hsame1]
              exact congrArg (AllocGhost.mk n) (eq_false fun h => by cases h).symm

theorem contextInit_triple (ptr : ContextPtr) :
    allocContract.Triple (.client t) g (Prog.silent (virtioGpioContextInit ptr)) fun rc g' =>
      g' = g ∧ rc ≠ .ENOENT := by
  have hset : forall f, (setContext ptr f).Within SameReturns :=
    fun f => SameReturns.bears.setContext ptr f
  have hinit : allocContract.Triple (.client t) g (Prog.silent (semInit ptr)) fun rc g' =>
      g' = g ∧ rc ≠ .ENOENT := by
    apply Contract.Triple.action
    intro e w gs rc w' _ hinv hghost hf
    rcases Option.map_eq_some_iff.mp hf with ⟨⟨rc1, w1⟩, hsem, hout⟩
    have hsame : SameReturns w.state w1 :=
      (SameReturns.bears.semInit ptr).1 e w.state rc1 w1 hsem
    cases hout
    refine ⟨g, ?_, rfl, ?_⟩
    · rw [← hghost, Function.update_eq_self]
      exact hinv.congr ⟨rfl, hsame⟩
    · dsimp only at hsem ⊢
      split at hsem
      · cases hsem
        decide
      · cases hsem
        decide
  have hsplit : (Prog.silent (virtioGpioContextInit ptr) : Prog Env WatchedAllocs Rc) =
      (Prog.silent (setContext ptr fun c =>
        { c with callback := some .virtioGpioCallback })).bind fun _ =>
          (Prog.silent (setContext ptr fun c => { c with status := 0 })).bind fun _ =>
            Prog.silent (semInit ptr) := rfl
  rw [hsplit]
  refine (silent_triple (hset _) _).bind fun _ g1 hsame => ?_
  refine (silent_triple (hset _) _).bind fun _ g2 hsame' => ?_
  rw [hsame', hsame]
  exact hinit

theorem deinit_triple (ptr : ContextPtr) {result : GpioResult}
    (hg : g = ⟨n, result.Unsent⟩) :
    allocContract.Triple (.client t) g
      ((Prog.silent (virtioGpioContextDeinit ptr)).bind fun _ => Prog.ret result)
      fun result g' => g' = ⟨n, result.Unsent⟩ := by
  refine (silent_triple (SameReturns.bears.setContext ptr _) _).bind fun _ g' hsame => ?_
  exact Contract.Triple.ret (hsame.trans hg)

theorem unsent_of_waited {result : GpioResult} (h : result.waited = true) :
    AllocGhost.mk n result.Unsent = ⟨n, False⟩ := by
  refine congrArg (AllocGhost.mk n) (eq_false fun hunsent => ?_)
  exact Bool.false_ne_true (hunsent.2.symm.trans h)

theorem notedOperation_triple (config : VirtioGpioConfig) (type gpio value : UInt16)
    (reads : Bool) :
    allocContract.Triple (.client t) ⟨n, False⟩
      (notedOperation config type gpio value reads ⟨t, n⟩) fun result g' =>
        g' = ⟨n, result.Unsent⟩ := by
  refine (contextInit_triple _).bind fun rc g' h => ?_
  rcases h with ⟨rfl, hrc⟩
  split
  · exact Contract.Triple.ret (congrArg (AllocGhost.mk n) (eq_false fun h => hrc h.1).symm)
  · refine (notedRequest_triple config type gpio value).bind fun rc g' h => ?_
    split
    · refine deinit_triple _ (h.trans (congrArg (AllocGhost.mk n) (propext ?_)))
      exact (and_iff_left rfl).symm
    · rename_i hok
      have hg : g' = ⟨n, False⟩ := by
        rw [h, not_not.mp hok]
        exact congrArg (AllocGhost.mk n) (eq_false fun h => by cases h)
      refine (silent_triple (SameReturns.bears.contextWait _) _).bind fun rc g1 hsame => ?_
      split
      · refine deinit_triple _ ?_
        rw [hsame, hg, unsent_of_waited rfl]
      · refine (silent_triple (SameReturns.bears.readValue reads _) _).bind
          fun value g2 hsame2 => ?_
        refine (silent_triple (SameReturns.bears.readContext _ _) _).bind
          fun rc g3 hsame3 => ?_
        refine deinit_triple _ ?_
        rw [hsame3, hsame2, hsame, hg, unsent_of_waited rfl]

theorem notedRun_triple (config : VirtioGpioConfig) (call : GpioCall) :
    allocContract.Triple (.client t) ⟨n, False⟩ (call.notedRun config ⟨t, n⟩)
      fun result g' => g' = ⟨n, result.Unsent⟩ := by
  cases call with
  | setValue gpio value => exact notedOperation_triple _ _ _ _ _
  | getValue gpio => exact notedOperation_triple _ _ _ _ _
  | getDirection gpio => exact notedOperation_triple _ _ _ _ _
  | setDirection gpio direction => exact notedOperation_triple _ _ _ _ _

theorem leave {w : WatchedAllocs} {gs : GpioThread -> AllocGhost}
    (h : AllocInv w gs) {result : GpioResult} (hghost : gs (.client t) = ⟨n, result.Unsent⟩)
    (contexts : ContextPtr -> Option VirtioGpioContext) (call : GpioCall) :
    AllocInv ⟨{ w.state with
        contexts := contexts
        returns := w.state.returns ++ [{ context := ⟨t, n⟩, call := call, result := result }] },
      w.events⟩ (Function.update gs (.client t) ⟨n + 1, False⟩) := by
  have hcall : forall t', (gs (.client t')).call <=
      (Function.update gs (.client t) ⟨n + 1, False⟩ (.client t')).call := by
    intro t'
    by_cases ht : t' = t
    · rw [ht, Function.update_self, hghost]
      exact Nat.le_succ n
    · have hne : GpioThread.client t' ≠ .client t := fun heq => ht (GpioThread.client.inj heq)
      exact Nat.le_of_eq (by rw [Function.update_of_ne hne])
  constructor
  · intro t'
    by_cases ht : t' = t
    · rw [ht, Function.update_self]
      refine iff_of_false (fun hstarved => ?_) id
      rcases hstarved with ⟨ev, hev, hcontext, _⟩
      have hle := h.past ev hev
      rw [hcontext, hghost] at hle
      exact Nat.not_succ_le_self n hle
    · rw [Function.update_of_ne fun heq => ht (GpioThread.client.inj heq)]
      exact h.current t'
  · exact fun ev hev => Nat.le_trans (h.past ev hev) (hcall _)
  · intro r hr
    rcases List.mem_append.mp hr with hr | hr
    · exact ⟨Nat.lt_of_lt_of_le (h.returned r hr).1 (hcall _), (h.returned r hr).2⟩
    · rw [List.mem_singleton.mp hr]
      have hcurrent := h.current t
      rw [hghost] at hcurrent
      refine ⟨?_, hcurrent.symm⟩
      rw [Function.update_self]
      exact Nat.lt_succ_self n

theorem notedClient_triple (config : VirtioGpioConfig) (script : Nat -> GpioCall) :
    allocContract.Triple (.client t) ⟨0, False⟩
      (Prog.iterate (notedRound config t script) 0) fun _ _ => True := by
  refine Contract.Triple.loop (J := fun n g => g = ⟨n, False⟩) (R := fun _ _ => True) ?_
    (fun _ _ _ => Contract.Triple.ret trivial) rfl
  rintro n _ rfl
  have henter : (enterFrame ⟨t, n⟩).Within SameReturns :=
    (Untouched.enter ⟨t, n⟩).mono fun _ _ h => h.returns
  refine (silent_triple henter _).bind fun _ g1 hsame => ?_
  rw [hsame]
  refine (notedRun_triple config (script n)).bind fun result g2 hg => ?_
  have hleave : allocContract.Triple (.client t) g2
      (Prog.silent (leaveFrame ⟨t, n⟩ (script n) result)) fun _ g' =>
        g' = ⟨n + 1, False⟩ := by
    apply Contract.Triple.action
    intro e w gs _ w' _ hinv hghost hf
    cases hf
    exact ⟨_, AllocInv.leave hinv (hghost.trans hg) _ _, rfl⟩
  exact hleave.bind fun _ g3 hg3 => Contract.Triple.ret hg3

end Client

end AllocInv

/-- A call that has returned submitted nothing and failed with `ENOENT` exactly when one of
its allocations found nothing. -/
theorem AllocReachable.unsent_iff {mode : GpioMode} {transport : Transport}
    {config : VirtioGpioConfig} {obj : VirtqObject} {mem : Memory}
    {scripts : Nat -> Nat -> GpioCall} {w : WatchedAllocs}
    (h : AllocReachable mode transport config obj mem scripts w) {r : GpioReturn}
    (hr : r ∈ w.state.returns) : r.result.Unsent <-> Starved w.events r.context := by
  rcases h with ⟨c, hc, rfl⟩
  have hstart : allocContract.inv (allocPool transport config obj mem scripts).state
      fun _ => ⟨0, False⟩ := by
    constructor
    · intro t
      refine iff_of_false (fun hstarved => ?_) id
      rcases hstarved with ⟨ev, hev, _⟩
      cases hev
    · intro ev hev
      cases hev
    · intro r hr
      cases hr
  have hthread : forall t, allocContract.Triple t ⟨0, False⟩
      ((allocPool transport config obj mem scripts).thread t) fun _ _ => True := by
    intro t
    cases t with
    | client t => exact AllocInv.notedClient_triple config (scripts t)
    | ist =>
        exact (AllocInv.silent_triple (ist_sameReturns transport) _).conseq fun _ _ _ => trivial
  have henv : forall d w gs w', allocContract.ok (.env d) w -> allocContract.inv w gs ->
      allocContract.env d w = some w' -> allocContract.inv w' gs := by
    intro d w gs w' _ hinv hd
    rcases Option.map_eq_some_iff.mp hd with ⟨s, hs, rfl⟩
    exact hinv.congr ⟨List.append_nil _, gpioEnv_returns hs⟩
  have hreach : Pool.Reachable allocContract.env allocContract.ok
      (allocPool transport config obj mem scripts) c := hc.mono fun _ _ _ => trivial
  rcases Contract.invariant_of_reachable hstart hthread henv hreach with ⟨gs, hinv⟩
  exact (hinv.returned r hr).2

end QnxVirtio
