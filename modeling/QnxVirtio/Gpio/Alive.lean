import QnxVirtio.Foundation.Progress
import QnxVirtio.Gpio.Deliver

/-!
# Steps that are never stuck

The model has no step for an access to memory that is not mapped, for a caller that reads a
context of its own that is gone, or for a call through a callback that is not set.  A
completion of a context that is gone has steps, and is recorded.  Here every step of the
driver is shown to exist wherever the invariant holds, unless the thread waits.
-/

namespace QnxVirtio

open Foundation

/-- Where the semaphore of a context is initialised its callback is set. -/
def CallbacksSet (w : GpioSystem) : Prop :=
  forall ptr c, w.contexts ptr = some c -> c.sem ≠ none -> c.callback ≠ none

/-- Every spinlock is granted, and the interrupt can be attached. -/
def granted : Move GpioThread Env GpioDeviceMove -> Prop
  | .thread _ e => e.lock = .EOK ∧ e.attach = true
  | .env _ => True

instance : DecidablePred granted := fun m =>
  match m with
  | .thread _ e => inferInstanceAs (Decidable (e.lock = .EOK ∧ e.attach = true))
  | .env _ => inferInstanceAs (Decidable True)

/-- The contract of the driver; `served` says that the system grants what is asked. -/
def aliveContract (mode : GpioMode) (scripts : Nat -> Nat -> GpioCall) (served : Bool) :
    Contract GpioThread Env GpioDeviceMove GpioSystem GpioGhost :=
  (gpioContract mode scripts).narrow (fun m => served = true -> granted m) CallbacksSet

/-- A client waits at its semaphore; where all is granted, for a chain that it sent.  The
interrupt thread waits for its interrupt line. -/
def gpioWaits (transport : Transport) (served : Bool) :
    GpioThread -> GpioGhost -> GpioSystem -> Prop
  | .client t, g, w => exists n c, w.contexts ⟨t, n⟩ = some c ∧ c.sem = some 0 ∧
      ((exists pos, g.stage = .sent n pos) ∨
        (served = false ∧ exists c', g.stage = .calling n c'))
  | .ist, g, w => transport = .mmio ∧ w.intStatus = 0 ∧ g.phase = .away

/-- No mapping is granted.  A step that another answer of `mmap64` belongs to exists for
the answers that the call can get. -/
def unmapped (e : Env) : Prop :=
  exists failure, e.mmap = .error failure

/-- A signal would end the wait of a client, and an interrupt that of the interrupt
thread. -/
def gpioPatience (transport : Transport) (served : Bool) :
    Patience GpioThread Env GpioSystem GpioGhost where
  fair := unmapped
  waits := gpioWaits transport served
  wake
    | .client _, e, w => ({ e with interrupted := true }, w)
    | .ist, e, w => (e, { w with intStatus := VIRTIO_MMIO_INT_VIRTQ })

/-!
## Programs without preconditions
-/

section Ready

theorem ready_mapBuffer (len : UInt32) : (mapBuffer len).Ready unmapped := by
  refine Prog.ready_action fun e q he => ?_
  rcases he with ⟨failure, he⟩
  rw [Option.isSome_map, he]
  unfold mmap64
  split
  · rfl
  · rfl

theorem ready_alloc (len : UInt32) (writable : Bool) :
    (virtqAllocDesc len writable).Ready unmapped := by
  have hput : forall idx, (freeDescsPut idx).Ready unmapped :=
    fun idx => Prog.ready_total _
  refine Prog.Ready.bind (Prog.ready_total _) fun r => ?_
  cases r with
  | error rc => exact trivial
  | ok idx =>
      refine (ready_mapBuffer len).bind fun r => ?_
      cases r with
      | error rc => exact (hput idx).bind fun _ => trivial
      | ok vaddr =>
          refine Prog.Ready.bind (Prog.ready_total _) fun r => ?_
          cases r with
          | error rc =>
              exact Prog.Ready.bind (Prog.ready_total _) fun _ =>
                (hput idx).bind fun _ => trivial
          | ok paddr =>
              have hset : forall f, (setDesc idx f).Ready unmapped :=
                fun f => Prog.ready_total _
              have hextras : forall f, (setExtras idx f).Ready unmapped :=
                fun f => Prog.ready_total _
              exact (hextras _).bind fun _ => (hextras _).bind fun _ =>
                (hset _).bind fun _ => (hset _).bind fun _ => (hset _).bind fun _ =>
                (hset _).bind fun _ => trivial

theorem ready_free (idx : UInt16) : (virtqFreeDesc idx).Ready unmapped := by
  have hset : forall f, (setDesc idx f).Ready unmapped := fun f => Prog.ready_total _
  have hextras : forall f, (setExtras idx f).Ready unmapped :=
    fun f => Prog.ready_total _
  refine Prog.Ready.bind (Prog.ready_total _) fun vaddr =>
    Prog.Ready.bind (Prog.ready_total _) fun len =>
    Prog.Ready.bind (Prog.ready_total _) fun rc => ?_
  split
  · exact trivial
  · exact (hextras _).bind fun _ => (hextras _).bind fun _ => (hset _).bind fun _ =>
      (hset _).bind fun _ => (hset _).bind fun _ => (hset _).bind fun _ =>
      Prog.ready_total _

theorem ready_setDescContext (idx : UInt16) (context : ContextPtr) :
    (virtqSetDescContext idx context).Ready unmapped := by
  refine Prog.ready_action fun e q he => ?_
  split
  · rfl
  · rfl

theorem ready_linkChain (head : UInt16) (rest : List UInt16) :
    (linkChain head rest).Ready unmapped := by
  induction rest generalizing head with
  | nil => exact Prog.ready_total _
  | cons idx rest ih =>
      exact Prog.Ready.bind (Prog.ready_total _) fun _ =>
        Prog.Ready.bind (Prog.ready_total _) fun _ => ih idx

theorem ready_getDescChain {count : Nat} (hcount : count < 65536) :
    (virtqGetDescChain count).Ready unmapped := by
  refine Prog.ready_action fun e q he => ?_
  rw [Option.isSome_map]
  unfold Virtq.getDescChain
  split
  · rfl
  · split
    · rfl
    · dsimp only
      split
      · rfl
      · rfl

end Ready

/-!
## Steps on the queue
-/

namespace CallbacksSet

theorem initial (obj : VirtqObject) (mem : Memory) :
    CallbacksSet (obj.gpioSystem mem) := by
  intro ptr c hc
  cases hc

theorem congr {w w' : GpioSystem} (h : CallbacksSet w) (hcontexts : w'.contexts = w.contexts) :
    CallbacksSet w' := by
  intro ptr c hc
  rw [hcontexts] at hc
  exact h ptr c hc

theorem setContext {w : GpioSystem} (h : CallbacksSet w) {ptr : ContextPtr}
    {c : Option VirtioGpioContext}
    (hset : forall c', c = some c' -> c'.sem ≠ none -> c'.callback ≠ none) :
    CallbacksSet (w.setContext ptr c) := by
  intro ptr' c' hc
  change Function.update w.contexts ptr c ptr' = some c' at hc
  by_cases hptr : ptr' = ptr
  · subst hptr
    rw [Function.update_self] at hc
    exact hset c' hc
  · rw [Function.update_of_ne hptr] at hc
    exact h ptr' c' hc

theorem changeContext {w : GpioSystem} (h : CallbacksSet w) {ptr : ContextPtr}
    {f : VirtioGpioContext -> VirtioGpioContext}
    (hset : forall c, w.contexts ptr = some c -> (f c).sem ≠ none -> (f c).callback ≠ none) :
    CallbacksSet (w.changeContext ptr f) := by
  unfold GpioSystem.changeContext
  split
  · rename_i c hc
    refine h.setContext ?_
    intro c' heq
    cases heq
    exact hset c hc
  · exact h.congr rfl

end CallbacksSet

section Steps

variable {mode : GpioMode} {transport : Transport} {scripts : Nat -> Nat -> GpioCall}
  {served : Bool} {t : GpioThread} {g : GpioGhost}

theorem aliveContract_keeps {α : Type} {p : Prog Env Queue α} :
    (onQueue p).Within fun w w' => CallbacksSet w -> CallbacksSet w' :=
  (Prog.within_any p).zoom fun _ _ _ h => h.congr rfl

theorem queue_live {α : Type} {p : Prog Env Queue α} {P : α -> Holding -> Prop}
    (h : HoldingSpec GpioOwner g.holding p P) (hready : p.Ready unmapped) :
    (aliveContract mode scripts served).Live (gpioPatience transport served) t g
      (onQueue p) fun a g' => exists H, P a H ∧ g' = { g with holding := H } :=
  (queue_triple h).live (fun _ _ hM => hM) aliveContract_keeps hready.zoom

theorem queueAction_live {β : Type} {f : Env -> Queue -> Option (β × Queue)}
    {P : β -> Holding -> Prop} (h : HoldingSpec GpioOwner g.holding (Prog.action f) P)
    (henabled : forall e q (hold : GpioOwner -> Holding) o, HoldInv q hold ->
      hold o = g.holding -> (f e q).isSome = true) :
    (aliveContract mode scripts served).Live (gpioPatience transport served) t g
      (onQueue (Prog.action f)) fun a g' =>
        exists H, P a H ∧ g' = { g with holding := H } := by
  refine Contract.Live.action ?_ ?_
  · rintro w gs e ⟨⟨fl, hinv⟩, _⟩ rfl _
    refine Or.inl ?_
    beta_reduce
    rw [Option.isSome_map]
    exact henabled e w.queue _ (.thread t) hinv.holding rfl
  · refine (Contract.Triple.keeps (queue_triple h)).narrow ?_
    intro e w gs b w' g' _ _ _ hf hQ hset
    rcases Option.map_eq_some_iff.mp hf with ⟨⟨b', q'⟩, _, hout⟩
    cases hout
    exact ⟨hset.congr rfl, hQ⟩

theorem storeVirt_live {m : Mapping} {b : List UInt8} {vaddr off : Nat}
    {block : List UInt8} (hm : g.holding.region m = some b) (hvaddr : vaddr = m.vaddr + off)
    (hpos : 0 < block.length) (hoff : off + block.length <= m.len) :
    (aliveContract mode scripts served).Live (gpioPatience transport served) t g
      (onQueue (storeVirt vaddr block)) fun _ g' => exists H,
        H = g.holding.setRegion m (some (overwrite b off block)) ∧
          g' = { g with holding := H } := by
  refine queueAction_live (storeVirt_holding hm hvaddr hpos hoff) ?_
  intro e q hold o hinv hhold
  have hlive := hinv.regions.live o m b (hhold ▸ hm)
  rw [hvaddr, Memory.resolve_of_mem hlive hpos hoff]
  rfl

theorem loadVirt_live {m : Mapping} {b : List UInt8} {vaddr off n : Nat}
    (hm : g.holding.region m = some b) (hvaddr : vaddr = m.vaddr + off) (hpos : 0 < n)
    (hoff : off + n <= m.len) :
    (aliveContract mode scripts served).Live (gpioPatience transport served) t g
      (onQueue (loadVirt vaddr n)) fun r g' => exists H,
        (r = (b.drop off).take n ∧ H = g.holding) ∧ g' = { g with holding := H } := by
  refine queueAction_live (loadVirt_holding hm hvaddr hpos hoff) ?_
  intro e q hold o hinv hhold
  have hlive := hinv.regions.live o m b (hhold ▸ hm)
  rw [hvaddr, Memory.resolve_of_mem hlive hpos hoff]
  rfl

theorem answer_live {α : Type} (f : Env -> α) :
    (aliveContract mode scripts served).Live (gpioPatience transport served) t g
      (Prog.action fun e w => some (f e, w)) fun a g' =>
        g' = g ∧ (served = true -> exists e, e.lock = .EOK ∧ e.attach = true ∧ a = f e) := by
  refine Contract.Live.action (fun _ _ _ _ _ _ => Or.inl rfl) ?_
  refine (Contract.Triple.keeps (answer_triple f)).narrow ?_
  intro e w gs b w' g' _ _ hok hf hQ hset
  cases hf
  exact ⟨hset, hQ, fun hserved => ⟨e, (hok hserved).1, (hok hserved).2, rfl⟩⟩

theorem freeAllocated_live {idx : UInt16} {m : Mapping} {len : UInt32} {writable : Bool}
    {b : List UInt8} (hlen : m.len = len.toNat)
    (hidx : g.holding.desc idx = some (allocatedCell m len writable))
    (hm : g.holding.region m = some b) :
    (aliveContract mode scripts served).Live (gpioPatience transport served) t g
      (onQueue (virtqFreeDesc idx)) fun _ g' => g' = { g with
        holding := (g.holding.setDesc idx none).setRegion m none } :=
  (freeAllocated_triple hlen hidx hm).live (fun _ _ hM => hM) aliveContract_keeps
    (ready_free idx).zoom

end Steps

end QnxVirtio
