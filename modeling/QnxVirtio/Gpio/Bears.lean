import QnxVirtio.Foundation.Framing
import QnxVirtio.Gpio.Invariant

/-!
# What the driver does at most

The steps of an operation and of the drain loop work on the queue, and on contexts through
pointers to them.  A relation that bears these bears every step of the driver.
-/

namespace QnxVirtio

open Foundation

/-!
## The queue
-/

/-- No chain that was published is taken back. -/
def Queue.Grows (q q' : Queue) : Prop :=
  q.published <+: q'.published

namespace Queue.Grows

theorem of_eq {q q' : Queue} (h : q'.published = q.published) : q.Grows q' := by
  change q.published <+: q'.published
  exact h ▸ List.prefix_refl q.published

theorem refl (q : Queue) : q.Grows q :=
  of_eq rfl

theorem freeDescsGet : freeDescsGet.Within Queue.Grows := by
  refine Prog.within_action fun e q b q' hf => ?_
  cases hf
  exact of_eq rfl

theorem freeDescsPut (idx : UInt16) : (freeDescsPut idx).Within Queue.Grows := by
  refine Prog.within_action fun e q b q' hf => ?_
  cases hf
  exact of_eq rfl

theorem mapBuffer (len : UInt32) : (mapBuffer len).Within Queue.Grows := by
  refine Prog.within_action fun e q b q' hf => ?_
  rcases Option.map_eq_some_iff.mp hf with ⟨r, _, hout⟩
  cases hout
  exact of_eq rfl

theorem bufferOffset (vaddr : Nat) : (bufferOffset vaddr).Within Queue.Grows :=
  Prog.within_look refl _

theorem unmapBuffer (vaddr : Nat) (len : UInt32) :
    (unmapBuffer vaddr len).Within Queue.Grows := by
  refine Prog.within_action fun e q b q' hf => ?_
  cases hf
  exact of_eq rfl

theorem storeVirt (vaddr : Nat) (block : List UInt8) :
    (storeVirt vaddr block).Within Queue.Grows := by
  refine Prog.within_action fun e q b q' hf => ?_
  rcases Option.map_eq_some_iff.mp hf with ⟨paddr, _, hout⟩
  cases hout
  exact of_eq rfl

theorem loadVirt (vaddr n : Nat) : (loadVirt vaddr n).Within Queue.Grows := by
  refine Prog.within_action fun e q b q' hf => ?_
  rcases Option.map_eq_some_iff.mp hf with ⟨paddr, _, hout⟩
  cases hout
  exact of_eq rfl

theorem setDesc (idx : UInt16) (f : VirtqDesc -> VirtqDesc) :
    (setDesc idx f).Within Queue.Grows :=
  Prog.within_modify fun _ => of_eq rfl

theorem setExtras (idx : UInt16) (f : DescExtras -> DescExtras) :
    (setExtras idx f).Within Queue.Grows :=
  Prog.within_modify fun _ => of_eq rfl

theorem alloc (len : UInt32) (writable : Bool) :
    (virtqAllocDesc len writable).Within Queue.Grows := by
  refine freeDescsGet.bind fun r => ?_
  cases r with
  | error rc => exact trivial
  | ok idx =>
      refine (mapBuffer len).bind fun r => ?_
      cases r with
      | error rc => exact (freeDescsPut idx).bind fun _ => trivial
      | ok vaddr =>
          refine (bufferOffset vaddr).bind fun r => ?_
          cases r with
          | error rc =>
              exact (unmapBuffer vaddr len).bind fun _ =>
                (freeDescsPut idx).bind fun _ => trivial
          | ok paddr =>
              exact (setExtras idx _).bind fun _ => (setExtras idx _).bind fun _ =>
                (setDesc idx _).bind fun _ => (setDesc idx _).bind fun _ =>
                (setDesc idx _).bind fun _ => (setDesc idx _).bind fun _ => trivial

theorem free (idx : UInt16) : (virtqFreeDesc idx).Within Queue.Grows := by
  refine (Prog.within_look refl _).bind fun vaddr =>
    (Prog.within_look refl _).bind fun len => (unmapBuffer vaddr len).bind fun rc => ?_
  split
  · exact trivial
  · exact (setExtras idx _).bind fun _ => (setExtras idx _).bind fun _ =>
      (setDesc idx _).bind fun _ => (setDesc idx _).bind fun _ =>
      (setDesc idx _).bind fun _ => (setDesc idx _).bind fun _ => freeDescsPut idx

theorem setContext (idx : UInt16) (context : ContextPtr) :
    (virtqSetDescContext idx context).Within Queue.Grows := by
  refine Prog.within_action fun e q b q' hf => ?_
  split at hf
  · cases hf
    exact refl q
  · cases hf
    exact of_eq rfl

theorem storeRequest (request : Nat) (type gpio : UInt16) (value : UInt32) :
    (storeRequest request type gpio value).Within Queue.Grows :=
  (storeVirt _ _).bind fun _ => (storeVirt _ _).bind fun _ => storeVirt _ _

theorem linkChain (head : UInt16) (rest : List UInt16) :
    (linkChain head rest).Within Queue.Grows := by
  induction rest generalizing head with
  | nil => exact setDesc head _
  | cons idx rest ih =>
      exact (setDesc head _).bind fun _ => (setDesc head _).bind fun _ => ih idx

theorem put (head : UInt16) (rest : List UInt16) :
    (virtqPutDescChain head rest).Within Queue.Grows := by
  refine (linkChain head rest).bind fun _ => Prog.within_action fun e q b q' hf => ?_
  split at hf
  · cases hf
    exact refl q
  · cases hf
    exact List.prefix_append _ _

theorem get (count : Nat) : (virtqGetDescChain count).Within Queue.Grows := by
  refine Prog.within_action fun e q b q' hf => ?_
  rcases Option.map_eq_some_iff.mp hf with ⟨r, _, hout⟩
  cases hout
  exact of_eq rfl

end Queue.Grows

/-!
## Operations and completions
-/

/-- The relation bears what the driver does to the queue and through a pointer to a
context. -/
structure Bears (M : GpioSystem -> GpioSystem -> Prop) : Prop where
  refl : forall w, M w w
  queue : forall w q, w.queue.Grows q -> M w { w with queue := q }
  context : forall w ptr f, M w (w.changeContext ptr f)
  post : forall w ptr f, M w { w.changeContext ptr f with
    delivered := w.delivered ++ [ptr] }

namespace Bears

variable {M : GpioSystem -> GpioSystem -> Prop} (h : Bears M)
include h

theorem onQueue {α : Type} {p : Prog Env Queue α} (hp : p.Within Queue.Grows) :
    (onQueue p).Within M :=
  hp.zoom fun w q hgrows => h.queue w q hgrows

theorem vaddr (idx : UInt16) : (QnxVirtio.onQueue (virtqGetDescVaddr idx)).Within M :=
  h.onQueue (Prog.within_look Queue.Grows.refl _)

theorem setContext (ptr : ContextPtr) (f : VirtioGpioContext -> VirtioGpioContext) :
    (setContext ptr f).Within M :=
  Prog.within_modify fun w => h.context w ptr f

theorem readContext {α : Type} (ptr : ContextPtr) (f : VirtioGpioContext -> α) :
    (readContext ptr f).Within M := by
  refine Prog.within_action fun e w a w' hf => ?_
  rcases Option.map_eq_some_iff.mp hf with ⟨c, _, hout⟩
  cases hout
  exact h.refl w

theorem semInit (ptr : ContextPtr) : (semInit ptr).Within M := by
  refine Prog.within_action fun e w rc w' hf => ?_
  split at hf
  · cases hf
    exact h.context _ _ _
  · cases hf
    exact h.refl w

theorem semWait (ptr : ContextPtr) : (semWait ptr).Within M := by
  refine Prog.within_action fun e w rc w' hf => ?_
  split at hf
  · cases hf
  · rename_i c hc
    split at hf
    · cases hf
      exact h.refl w
    · split at hf
      · cases hf
        exact h.refl w
      · cases hf
    · rename_i n _
      cases hf
      have hchange := h.context w ptr fun _ => { c with sem := some n }
      rwa [GpioSystem.changeContext, hc] at hchange

theorem semPost (ptr : ContextPtr) : (semPost ptr).Within M :=
  Prog.within_modify fun w => h.post w ptr _

theorem contextCallback (ptr : ContextPtr) : (contextCallback ptr).Within M := by
  refine Prog.within_action fun e w f w' hf => ?_
  split at hf
  · rcases Option.map_eq_some_iff.mp hf with ⟨_, _, hout⟩
    cases hout
    exact h.refl w
  · rename_i hgone
    cases hf
    have hchange := h.context w ptr id
    rwa [GpioSystem.changeContext, hgone] at hchange

theorem contextInit (ptr : ContextPtr) : (virtioGpioContextInit ptr).Within M :=
  (h.setContext ptr _).bind fun _ => (h.setContext ptr _).bind fun _ => h.semInit ptr

theorem contextWait (ptr : ContextPtr) : (virtioGpioContextWait ptr).Within M := by
  refine Prog.within_iterate (fun _ => (h.semWait ptr).bind fun rc => ?_) ()
  split
  · exact trivial
  · exact trivial

theorem request (config : VirtioGpioConfig) (type gpio value : UInt16)
    (ptr : ContextPtr) : (virtioGpioRequest config type gpio value ptr).Within M := by
  have halloc : forall len writable,
      (QnxVirtio.onQueue (virtqAllocDesc len writable)).Within M :=
    fun len writable => h.onQueue (Queue.Grows.alloc len writable)
  have hfree : forall idx, (QnxVirtio.onQueue (virtqFreeDesc idx)).Within M :=
    fun idx => h.onQueue (Queue.Grows.free idx)
  refine (halloc _ _).bind fun r0 => ?_
  cases r0 with
  | error rc => exact trivial
  | ok idx0 =>
      refine (halloc _ _).bind fun r1 => ?_
      cases r1 with
      | error rc => exact (hfree idx0).bind fun _ => trivial
      | ok idx1 =>
          refine (h.vaddr idx0).bind fun r2 => ?_
          cases r2 with
          | error rc => exact (hfree idx1).bind fun _ => (hfree idx0).bind fun _ => trivial
          | ok request =>
              refine (h.onQueue (Queue.Grows.storeRequest _ _ _ _)).bind fun _ =>
                (h.onQueue (Queue.Grows.setContext _ _)).bind fun _ =>
                (h.onQueue (Queue.Grows.put _ _)).bind fun _ => ?_
              exact (Prog.within_look h.refl _).bind fun _ => trivial

theorem readValue (reads : Bool) (ptr : ContextPtr) : (readValue reads ptr).Within M := by
  cases reads with
  | false => exact trivial
  | true => exact h.readContext ptr _

theorem operation (config : VirtioGpioConfig) (type gpio value : UInt16) (reads : Bool)
    (ptr : ContextPtr) :
    (virtioGpioOperation config type gpio value reads ptr).Within M := by
  have hdeinit : forall result : GpioResult,
      ((virtioGpioContextDeinit ptr).bind fun _ => Prog.ret result).Within M :=
    fun result => (h.setContext ptr _).bind fun _ => trivial
  refine (h.contextInit ptr).bind fun rc => ?_
  split
  · exact trivial
  · refine (h.request config type gpio value ptr).bind fun rc => ?_
    split
    · exact hdeinit _
    · refine (h.contextWait ptr).bind fun rc => ?_
      split
      · exact hdeinit _
      · exact (h.readValue reads ptr).bind fun value =>
          (h.readContext ptr _).bind fun rc => hdeinit _

theorem run (config : VirtioGpioConfig) (call : GpioCall) (ptr : ContextPtr) :
    (call.run config ptr).Within M := by
  cases call with
  | setValue gpio value => exact h.operation _ _ _ _ _ _
  | getValue gpio => exact h.operation _ _ _ _ _ _
  | getDirection gpio => exact h.operation _ _ _ _ _ _
  | setDirection gpio direction => exact h.operation _ _ _ _ _ _

theorem callback (request response : Nat) (ptr : ContextPtr) :
    (virtioGpioCallback request response ptr).Within M := by
  have hload : forall vaddr n, (QnxVirtio.onQueue (loadVirt vaddr n)).Within M :=
    fun vaddr n => h.onQueue (Queue.Grows.loadVirt vaddr n)
  refine (hload _ _).bind fun status => (h.setContext ptr _).bind fun _ =>
    (hload _ _).bind fun type => ?_
  split
  · refine Prog.within_action fun e w u w' hf => ?_
    cases hf
  · exact (hload _ _).bind fun value => (h.setContext ptr _).bind fun _ => h.semPost ptr

theorem callbackRound (v : CallbackLocals) : (virtqCallbackRound v).Within M := by
  refine (h.onQueue (Queue.Grows.get 2)).bind fun r => ?_
  cases r with
  | error rc => exact trivial
  | ok idxs =>
      refine (h.vaddr _).bind fun r0 => (h.vaddr _).bind fun r1 =>
        (h.onQueue (Prog.within_look Queue.Grows.refl _)).bind fun c => ?_
      dsimp only
      split
      · refine Prog.within_action fun e w u w' hf => ?_
        cases hf
      · refine (h.contextCallback _).bind fun f => ?_
        cases f
        exact (h.callback _ _ _).bind fun _ =>
          (h.onQueue (Queue.Grows.free _)).bind fun _ =>
          (h.onQueue (Queue.Grows.free _)).bind fun _ => trivial

theorem drain : drainVirtq.Within M := by
  refine Prog.within_iterate (fun _ => ?_) ()
  have hcallback : virtqCallback.Within M :=
    (Prog.within_look h.refl _).bind fun v => Prog.within_iterate h.callbackRound v
  refine hcallback.bind fun rc => ?_
  split
  · exact trivial
  · exact trivial

theorem ist (hstatus : forall w status, M w { w with intStatus := status })
    (hwaiting : forall w waiting, M w { w with waiting := waiting })
    (transport : Transport) : (virtioIst transport).Within M := by
  have hcallback : (virtioVirtqCallback transport).Within M := by
    cases transport with
    | mmio =>
        have hlook : (Prog.read GpioSystem.intStatus : Prog Env _ _).Within M :=
          Prog.within_look h.refl _
        refine hlook.bind fun status => ?_
        split
        · exact Prog.Within.bind (Prog.within_modify fun w => hstatus w _) fun _ => h.drain
        · exact h.drain
    | pci => exact h.drain
  have hunmask : interruptUnmask.Within M := Prog.within_modify fun w => hwaiting w true
  have hwait : (interruptWait transport).Within M := by
    refine Prog.within_action fun e w u w' hf => ?_
    split at hf
    · split at hf
      · cases hf
      · cases hf
        exact hwaiting w false
    · cases hf
      exact hwaiting w false
  have hattach : Prog.Within M
      (Prog.action fun (e : Env) (w : GpioSystem) => some (e.attach, w)) :=
    Prog.within_look h.refl _
  refine hattach.bind fun attached => ?_
  split
  · refine Prog.within_iterate (fun _ => ?_) ()
    exact hunmask.bind fun _ => hwait.bind fun _ => hcallback.bind fun _ => trivial
  · exact trivial

end Bears

end QnxVirtio
