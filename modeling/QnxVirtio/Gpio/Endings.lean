import QnxVirtio.Foundation.Fairness
import QnxVirtio.Gpio.Deliver

/-!
# Where the threads must end up

While a used element is not delivered, the interrupt thread can only go to its delivery;
while a call does not return, its client can only go to its return.  Both are followed step
by step to a place from where every further step would deliver, or return.
-/

namespace QnxVirtio

open Foundation Foundation.Prog

/-- Runs without signals in which the interrupt thread gets every spinlock. -/
def servedMode : GpioMode where
  calm := true
  quiet := true
  strict := true

/-!
## Programs without loops
-/

section Plain

theorem plain_modify {E S : Type} (f : S -> S) : Plain (modify f : Prog E S Unit) :=
  plain_action _

theorem plain_alloc (len : UInt32) (writable : Bool) : Plain (virtqAllocDesc len writable) := by
  refine (plain_action _).bind fun r => ?_
  cases r with
  | error rc => exact trivial
  | ok idx =>
      refine (plain_action _).bind fun r => ?_
      cases r with
      | error rc => exact (plain_action _).bind fun _ => trivial
      | ok vaddr =>
          refine (plain_action _).bind fun r => ?_
          cases r with
          | error rc =>
              exact (plain_action _).bind fun _ => (plain_action _).bind fun _ => trivial
          | ok paddr =>
              exact (plain_modify _).bind fun _ => (plain_modify _).bind fun _ =>
                (plain_modify _).bind fun _ => (plain_modify _).bind fun _ =>
                (plain_modify _).bind fun _ => (plain_modify _).bind fun _ => trivial

theorem plain_free (idx : UInt16) : Plain (virtqFreeDesc idx) := by
  refine (plain_action _).bind fun vaddr => (plain_action _).bind fun len =>
    (plain_action _).bind fun rc => ?_
  split
  · exact trivial
  · exact (plain_modify _).bind fun _ => (plain_modify _).bind fun _ =>
      (plain_modify _).bind fun _ => (plain_modify _).bind fun _ =>
      (plain_modify _).bind fun _ => (plain_modify _).bind fun _ => plain_action _

theorem plain_linkChain (head : UInt16) (rest : List UInt16) : Plain (linkChain head rest) := by
  induction rest generalizing head with
  | nil => exact plain_modify _
  | cons idx rest ih =>
      exact (plain_modify _).bind fun _ => (plain_modify _).bind fun _ => ih idx

theorem plain_onQueue {α : Type} {p : Prog Env Queue α} (hp : Plain p) : Plain (onQueue p) :=
  hp.zoom

theorem plain_request (config : VirtioGpioConfig) (type gpio value : UInt16)
    (ptr : ContextPtr) : Plain (virtioGpioRequest config type gpio value ptr) := by
  have hfree : forall idx, Plain (onQueue (virtqFreeDesc idx)) :=
    fun idx => plain_onQueue (plain_free idx)
  refine (plain_onQueue (plain_alloc _ _)).bind fun r => ?_
  cases r with
  | error rc => exact trivial
  | ok idx0 =>
      refine (plain_onQueue (plain_alloc _ _)).bind fun r => ?_
      cases r with
      | error rc => exact (hfree idx0).bind fun _ => trivial
      | ok idx1 =>
          refine (plain_onQueue (plain_action _)).bind fun r => ?_
          cases r with
          | error rc => exact (hfree idx1).bind fun _ => (hfree idx0).bind fun _ => trivial
          | ok request =>
              have hstore : Plain (storeRequest request type gpio value.toUInt32) :=
                (plain_action _).bind fun _ => (plain_action _).bind fun _ => plain_action _
              have hput : Plain (virtqPutDescChain idx0 [idx1]) :=
                (plain_linkChain _ _).bind fun _ => plain_action _
              exact (plain_onQueue hstore).bind fun _ =>
                (plain_onQueue (plain_action _)).bind fun _ =>
                (plain_onQueue hput).bind fun _ => (plain_action _).bind fun _ => trivial

theorem plain_callback (request response : Nat) (ptr : ContextPtr) :
    Plain (virtioGpioCallback request response ptr) := by
  refine (plain_onQueue (plain_action _)).bind fun status =>
    (plain_modify _).bind fun _ => (plain_onQueue (plain_action _)).bind fun type => ?_
  split
  · exact plain_action _
  · exact (plain_onQueue (plain_action _)).bind fun value =>
      (plain_modify _).bind fun _ => plain_modify _

theorem plain_callbackRound (v : CallbackLocals) : Plain (virtqCallbackRound v) := by
  refine (plain_onQueue (plain_action _)).bind fun r => ?_
  cases r with
  | error rc => exact trivial
  | ok idxs =>
      refine (plain_onQueue (plain_action _)).bind fun r0 =>
        (plain_onQueue (plain_action _)).bind fun r1 =>
        (plain_onQueue (plain_action _)).bind fun c => ?_
      dsimp only
      split
      · exact plain_action _
      · refine (plain_action _).bind fun f => ?_
        cases f
        exact (plain_callback _ _ _).bind fun _ =>
          (plain_onQueue (plain_free _)).bind fun _ =>
          (plain_onQueue (plain_free _)).bind fun _ => trivial

end Plain

/-!
## The interrupt thread
-/

/-- `d` contexts have been posted, and another used element is there. -/
structure Undelivered (scripts : Nat -> Nat -> GpioCall) (d : Nat) (w : GpioSystem) :
    Prop where
  inv : exists gs fl, GpioInv servedMode scripts w gs fl
  delivered : w.delivered.length = d
  produced : d < w.device.produced.length

/-- A step that does not deliver. -/
structure Stalls (scripts : Nat -> Nat -> GpioCall) (d : Nat) (e : Env)
    (w w' : GpioSystem) : Prop where
  lock : e.lock = .EOK
  before : Undelivered scripts d w
  after : Undelivered scripts d w'

/-- How many chains the interrupt thread has taken off the used ring. -/
def GpioSystem.taken (w : GpioSystem) : Nat :=
  w.queue.retrieved.length

section Ist

variable {scripts : Nat -> Nat -> GpioCall} {d v : Nat} {transport : Transport}

/-- A program of the interrupt thread, from where it has taken `v` chains. -/
abbrev IstEnds {α : Type} (scripts : Nat -> Nat -> GpioCall) (d v : Nat)
    (p : Prog Env GpioSystem α) (Q : α -> Nat -> Prop) : Prop :=
  Ends (Stalls scripts d) GpioSystem.taken Q v p

theorem istEnds_step {β : Type} {f : Env -> GpioSystem -> Option (β × GpioSystem)}
    (h : forall e w b w', f e w = some (b, w') -> w'.queue = w.queue) :
    IstEnds scripts d v (action f) fun _ v' => v' = v := by
  refine ends_action fun e w b w' _ hv hf => ?_
  rw [← hv, GpioSystem.taken, h e w b w' hf]
  rfl

theorem semPost_ends (ptr : ContextPtr) :
    IstEnds scripts d v (semPost ptr) fun _ _ => False := by
  refine ends_action fun e w b w' hM _ hf => ?_
  cases hf
  have hafter := hM.after.delivered
  change (w.delivered ++ [ptr]).length = d at hafter
  rw [List.length_append, hM.before.delivered] at hafter
  exact absurd hafter (Nat.succ_ne_self d)

theorem callback_ends (request response : Nat) (ptr : ContextPtr) :
    IstEnds scripts d v (virtioGpioCallback request response ptr) fun _ _ => False := by
  have hload : forall v vaddr n,
      IstEnds scripts d v (onQueue (loadVirt vaddr n)) fun _ _ => True :=
    fun v vaddr n => (plain_onQueue (plain_action _)).tame.ends v
  have hset : forall v f, IstEnds scripts d v (setContext ptr f) fun _ _ => True :=
    fun v f => (plain_modify _).tame.ends v
  refine (hload v _ _).bind fun status v1 _ => (hset v1 _).bind fun _ v2 _ =>
    (hload v2 _ _).bind fun type v3 _ => ?_
  split
  · refine ends_action fun e w u w' _ _ hf => ?_
    cases hf
  · exact (hload v3 _ _).bind fun value v4 _ => (hset v4 _).bind fun _ v5 _ =>
      semPost_ends ptr

/-- The check fails only if the chains that are taken are more than those delivered. -/
theorem getDescChain_ends : IstEnds scripts d v (onQueue (virtqGetDescChain 2)) fun r _ =>
    forall rc, r = .error rc -> rc ≠ .EOK ∧ d < v := by
  refine ends_action fun e w r w' hM hv hf => ?_
  rcases Option.map_eq_some_iff.mp hf with ⟨⟨r1, q'⟩, hfq, hout⟩
  cases hout
  rcases Option.map_eq_some_iff.mp hfq with ⟨⟨out, vq'⟩, hget, hout⟩
  cases hout
  intro rc hrc
  cases hrc
  refine ⟨getDescChain_error_ne hget, ?_⟩
  rcases hM.before.inv with ⟨gs, fl, hinv⟩
  rw [hM.lock] at hget
  rw [← hv, GpioSystem.taken, hinv.emptyCheck hget]
  exact hM.before.produced

theorem callbackRound_ends (locals : CallbackLocals) :
    IstEnds scripts d v (virtqCallbackRound locals) fun r _ =>
      exists rc, r = .inr rc ∧ rc ≠ .EOK ∧ d < v := by
  have hread : forall v {α : Type} (f : Queue -> α),
      IstEnds scripts d v (onQueue (Prog.read f)) fun _ _ => True :=
    fun v {_} f => (plain_onQueue (plain_action _)).tame.ends v
  refine getDescChain_ends.bind fun r v1 hr => ?_
  cases r with
  | error rc => exact Ends.ret ⟨rc, rfl, hr rc rfl⟩
  | ok idxs =>
      -- a chain is there, and it is delivered
      refine (hread v1 _).bind fun r0 v2 _ => (hread v2 _).bind fun r1 v3 _ =>
        (hread v3 _).bind fun c v4 _ => ?_
      dsimp only
      split
      · refine ends_action fun e w u w' _ _ hf => ?_
        cases hf
      · refine ((plain_action _).tame.ends v4).bind fun f v5 _ => ?_
        cases f
        exact (callback_ends _ _ _).bind fun _ _ hfalse => hfalse.elim

theorem virtqCallback_ends :
    IstEnds scripts d v virtqCallback fun rc _ => rc ≠ .EOK ∧ d < v := by
  refine (istEnds_step fun e w b w' hf => ?_).bind fun locals v1 hv1 => ?_
  · cases hf
    rfl
  · subst hv1
    refine Ends.once (callbackRound_ends locals) fun rc v2 hrc => ?_
    exact Ends.ret hrc

theorem drainRound_ends :
    IstEnds scripts d v (virtqCallback.bind fun rc =>
        if rc = .EOK then Prog.ret (.inl ()) else Prog.ret (.inr rc)) fun r _ =>
      exists rc, r = (.inr rc : Unit ⊕ Rc) ∧ d < v := by
  refine virtqCallback_ends.bind fun rc v1 hrc => ?_
  rw [if_neg hrc.1]
  exact Ends.ret ⟨rc, rfl, hrc.2⟩

theorem drainVirtq_ends : IstEnds scripts d v drainVirtq fun _ _ => d < v :=
  Ends.once drainRound_ends fun _ _ h => Ends.ret h

theorem virtioVirtqCallback_ends :
    IstEnds scripts d v (virtioVirtqCallback transport) fun _ _ => d < v := by
  cases transport with
  | mmio =>
      refine (istEnds_step fun e w b w' hf => ?_).bind fun status v1 hv1 => ?_
      · cases hf
        rfl
      · subst hv1
        split
        · refine Ends.bind (istEnds_step fun e w b w' hf => ?_) fun _ v2 hv2 => ?_
          · cases hf
            rfl
          · subst hv2
            exact drainVirtq_ends
        · exact drainVirtq_ends
  | pci => exact drainVirtq_ends

/-- Between two waits all that is taken is delivered. -/
theorem interruptUnmask_ends :
    IstEnds scripts d v interruptUnmask fun _ v' => v' = d := by
  refine ends_action fun e w b w' hM _ hf => ?_
  cases hf
  rcases hM.after.inv with ⟨gs, fl, hinv⟩
  have hhistory := hinv.phase.history
  rw [hinv.phase.waiting rfl] at hhistory
  exact hhistory.symm.trans hM.after.delivered

theorem interruptWait_ends :
    IstEnds scripts d v (interruptWait transport) fun _ v' => v' = v := by
  refine istEnds_step fun e w b w' hf => ?_
  cases transport with
  | mmio =>
      dsimp only at hf
      split at hf
      · cases hf
      · cases hf
        rfl
  | pci =>
      cases hf
      rfl

theorem istRound_ends :
    IstEnds scripts d v (interruptUnmask.bind fun _ => (interruptWait transport).bind fun _ =>
        (virtioVirtqCallback transport).bind fun _ => Prog.ret (.inl ())) fun r _ =>
      exists b, r = (.inr b : Unit ⊕ Unit) := by
  refine interruptUnmask_ends.bind fun _ v1 hv1 => interruptWait_ends.bind fun _ v2 hv2 => ?_
  subst hv1 hv2
  exact virtioVirtqCallback_ends.bind fun _ _ hlt => absurd hlt (Nat.lt_irrefl _)

/-- The interrupt thread goes round none of its loops without a delivery. -/
theorem ist_tame (transport : Transport) :
    Tame (Stalls scripts d) GpioSystem.taken (virtioIst transport) := by
  have hcallback : Tame (Stalls scripts d) GpioSystem.taken virtqCallback := by
    refine (tame_action _).bind fun locals => tame_iterate ?_ ?_
    · exact fun locals => (plain_callbackRound locals).tame
    · refine fun locals v => (callbackRound_ends locals).mono fun r _ hr => ?_
      rcases hr with ⟨rc, hr, _⟩
      exact ⟨rc, hr⟩
  have hdrain : Tame (Stalls scripts d) GpioSystem.taken drainVirtq := by
    refine tame_iterate (fun _ => hcallback.bind fun rc => ?_) ?_
    · split
      · exact trivial
      · exact trivial
    · refine fun _ v => drainRound_ends.mono fun r _ hr => ?_
      rcases hr with ⟨rc, hr, _⟩
      exact ⟨rc, hr⟩
  have hround : Tame (Stalls scripts d) GpioSystem.taken (virtioVirtqCallback transport) := by
    cases transport with
    | mmio =>
        refine Tame.bind (tame_action _) fun status => ?_
        split
        · exact Tame.bind (tame_action _) fun _ => hdrain
        · exact hdrain
    | pci => exact hdrain
  refine (tame_action _).bind fun attached => ?_
  split
  · refine tame_iterate (fun _ => ?_) fun _ v => istRound_ends
    exact Tame.bind (tame_action _) fun _ => (tame_action _).bind fun _ =>
      hround.bind fun _ => trivial
  · exact trivial

end Ist

/-!
## Clients
-/

section Client

variable {V : Type} {M : Env -> GpioSystem -> GpioSystem -> Prop} {q : GpioSystem -> V}
  {v : V}

/-- No wait ends with `EINTR`: the code is in errno. -/
theorem semWait_ends (ptr : ContextPtr) :
    Ends M q (fun rc _ => rc ≠ .EINTR) v (semWait ptr) := by
  refine ends_action fun e w rc w' _ _ hf => ?_
  split at hf
  · cases hf
  · split at hf
    · cases hf
      simp
    · split at hf
      · cases hf
        simp
      · cases hf
    · cases hf
      simp

theorem contextWait_tame (ptr : ContextPtr) : Tame M q (virtioGpioContextWait ptr) := by
  refine tame_iterate (fun _ => (tame_action _).bind fun rc => ?_) fun _ v => ?_
  · split
    · exact trivial
    · exact trivial
  · refine (semWait_ends ptr).bind fun rc v1 hrc => ?_
    rw [if_neg hrc]
    exact Ends.ret ⟨rc, rfl⟩

theorem operation_tame (config : VirtioGpioConfig) (type gpio value : UInt16) (reads : Bool)
    (ptr : ContextPtr) : Tame M q (virtioGpioOperation config type gpio value reads ptr) := by
  have hdeinit : forall result : GpioResult,
      Tame M q ((virtioGpioContextDeinit ptr).bind fun _ => Prog.ret result) :=
    fun result => Tame.bind (tame_action _) fun _ => trivial
  have hinit : Plain (virtioGpioContextInit ptr) :=
    (plain_modify _).bind fun _ => (plain_modify _).bind fun _ => plain_action _
  have hread : Tame M q (readValue reads ptr) := by
    cases reads with
    | false => exact trivial
    | true => exact tame_action _
  refine hinit.tame.bind fun rc => ?_
  split
  · exact trivial
  · refine (plain_request config type gpio value ptr).tame.bind fun rc => ?_
    split
    · exact hdeinit _
    · refine (contextWait_tame ptr).bind fun rc => ?_
      split
      · exact hdeinit _
      · exact hread.bind fun value => (tame_action _).bind fun rc => hdeinit _

theorem run_tame (config : VirtioGpioConfig) (call : GpioCall) (ptr : ContextPtr) :
    Tame M q (call.run config ptr) := by
  cases call with
  | setValue gpio value => exact operation_tame _ _ _ _ _ _
  | getValue gpio => exact operation_tame _ _ _ _ _ _
  | getDirection gpio => exact operation_tame _ _ _ _ _ _
  | setDirection gpio direction => exact operation_tame _ _ _ _ _ _

end Client

/-- A step after which the call with context `ptr` has not returned. -/
def Unreturned (ptr : ContextPtr) (_ : Env) (_ w' : GpioSystem) : Prop :=
  forall r, r ∈ w'.returns -> r.context ≠ ptr

section Calls

variable {config : VirtioGpioConfig} {t n : Nat} {script : Nat -> GpioCall}

/-- A client of which no quantity is followed. -/
abbrev ClientEnds {α : Type} (ptr : ContextPtr) (p : Prog Env GpioSystem α)
    (Q : α -> Prop) : Prop :=
  Ends (Unreturned ptr) (fun _ => ()) (fun a _ => Q a) () p

/-- A round ends with the next call, unless the call is the one that does not return. -/
theorem gpioRound_ends (j : Nat) :
    ClientEnds ⟨t, n⟩ (gpioRound config t script j) fun r => r = .inl (j + 1) ∧ j ≠ n := by
  have henter : Tame (Unreturned ⟨t, n⟩) (fun _ => ()) (enterFrame ⟨t, j⟩) := tame_action _
  refine (henter.ends ()).bind fun _ _ _ =>
    ((run_tame config (script j) ⟨t, j⟩).ends ()).bind fun result _ _ => ?_
  have hleave : ClientEnds ⟨t, n⟩ (leaveFrame ⟨t, j⟩ (script j) result) fun _ => j ≠ n := by
    refine ends_action fun e w u w' hM _ hf => ?_
    cases hf
    intro heq
    refine hM ⟨⟨t, j⟩, script j, result⟩ (List.mem_append_right _ (List.mem_singleton.mpr rfl)) ?_
    rw [heq]
  exact hleave.bind fun _ _ hne => Ends.ret ⟨rfl, hne⟩

theorem gpioClient_ends {j : Nat} (hj : j <= n) :
    ClientEnds ⟨t, n⟩ (Prog.loop (gpioRound config t script) j Prog.ret) fun _ => False := by
  induction hd : n - j generalizing j with
  | zero =>
      have heq : j = n := Nat.le_antisymm hj (Nat.le_of_sub_eq_zero hd)
      exact Ends.loop ((gpioRound_ends j).bind fun r _ hr => absurd heq hr.2)
  | succ d ih =>
      refine Ends.loop ((gpioRound_ends j).bind fun r v hr => ?_)
      rcases hr with ⟨rfl, hne⟩
      have hlt : j < n := Nat.lt_of_le_of_ne hj hne
      refine ih hlt ?_
      rw [Nat.sub_succ, hd]
      rfl

end Calls

end QnxVirtio
