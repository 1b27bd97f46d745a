import QnxVirtio.Gpio.Bears

/-!
# What the driver leaves alone

Apart from an acknowledgement no step writes the interrupt status register, and apart
from a return no step writes the record of the calls.
-/

namespace QnxVirtio

open Foundation

/-- The status register and the record of calls stay as they are. -/
structure Untouched (w w' : GpioSystem) : Prop where
  intStatus : w'.intStatus = w.intStatus
  returns : w'.returns = w.returns

namespace Untouched

theorem refl (w : GpioSystem) : Untouched w w :=
  ⟨rfl, rfl⟩

theorem changeContext (w : GpioSystem) (ptr : ContextPtr)
    (f : VirtioGpioContext -> VirtioGpioContext) :
    Untouched w (w.changeContext ptr f) := by
  unfold GpioSystem.changeContext
  split
  · exact ⟨rfl, rfl⟩
  · exact ⟨rfl, rfl⟩

theorem bears : Bears Untouched where
  refl := refl
  queue := fun _ _ _ => ⟨rfl, rfl⟩
  context := changeContext
  post := fun w ptr f => ⟨(changeContext w ptr f).intStatus, (changeContext w ptr f).returns⟩

theorem enter (ptr : ContextPtr) : (enterFrame ptr).Within Untouched := by
  refine Prog.within_action fun e w u w' hf => ?_
  cases hf
  exact ⟨rfl, rfl⟩

end Untouched

/-!
## Calls that succeed
-/

/-- A call that succeeds has waited for its answer. -/
def GpioResult.Awaited (result : GpioResult) : Prop :=
  result.rc = .EOK -> result.waited = true

/-- All calls that have returned. -/
def returnsContract : Contract GpioThread Env GpioDeviceMove GpioSystem Unit where
  env := gpioEnv
  ok := fun _ _ => True
  inv := fun w _ => forall r, r ∈ w.returns -> r.result.Awaited

def SameReturns (w w' : GpioSystem) : Prop :=
  w'.returns = w.returns

theorem SameReturns.refl (w : GpioSystem) : SameReturns w w := rfl

theorem sameReturns_triple {α : Type} {p : Prog Env GpioSystem α}
    (hp : p.Within SameReturns) (t : GpioThread) :
    returnsContract.Triple t () p fun _ _ => True := by
  refine (Contract.Triple.of_within ?_ hp).conseq fun _ _ _ => trivial
  intro w w' gs hsame hinv r hr
  rw [hsame] at hr
  exact hinv r hr

theorem SameReturns.bears : Bears SameReturns where
  refl := SameReturns.refl
  queue := fun _ _ _ => rfl
  context := fun w ptr f => (Untouched.changeContext w ptr f).returns
  post := fun w ptr f => (Untouched.changeContext w ptr f).returns

theorem deinit_awaited (ptr : ContextPtr) {result : GpioResult} (h : result.Awaited) :
    ((virtioGpioContextDeinit ptr).bind fun _ => Prog.ret result).Yields
      GpioResult.Awaited := by
  refine Prog.Yields.bind (fun u => ?_) _
  exact h

theorem operation_awaited (config : VirtioGpioConfig) (type gpio value : UInt16)
    (reads : Bool) (ptr : ContextPtr) :
    (virtioGpioOperation config type gpio value reads ptr).Yields GpioResult.Awaited := by
  refine Prog.Yields.bind (fun rc => ?_) _
  split
  · rename_i hfailed
    exact fun hok => absurd hok hfailed
  · refine Prog.Yields.bind (fun rc => ?_) _
    split
    · rename_i hfailed
      exact deinit_awaited ptr fun hok => absurd hok hfailed
    · refine Prog.Yields.bind (fun rc => ?_) _
      split
      · exact deinit_awaited ptr fun _ => rfl
      · refine Prog.Yields.bind (fun value => ?_) _
        refine Prog.Yields.bind (fun rc => ?_) _
        exact deinit_awaited ptr fun _ => rfl

theorem run_awaited (config : VirtioGpioConfig) (call : GpioCall) (ptr : ContextPtr) :
    (call.run config ptr).Yields GpioResult.Awaited := by
  cases call with
  | setValue gpio value => exact operation_awaited _ _ _ _ _ _
  | getValue gpio => exact operation_awaited _ _ _ _ _ _
  | getDirection gpio => exact operation_awaited _ _ _ _ _ _
  | setDirection gpio direction => exact operation_awaited _ _ _ _ _ _

theorem client_awaited {config : VirtioGpioConfig} {t : Nat}
    {script : Nat -> GpioCall} :
    returnsContract.Triple (.client t) () (gpioClient config t script) fun _ _ => True := by
  refine Contract.Triple.loop (J := fun _ _ => True) (R := fun _ _ => True) ?_
    (fun _ _ _ => Contract.Triple.ret trivial) trivial
  intro n _ _
  have henter : (enterFrame ⟨t, n⟩).Within SameReturns :=
    (Untouched.enter ⟨t, n⟩).mono fun _ _ h => h.returns
  refine (sameReturns_triple henter _).bind fun _ _ _ => ?_
  refine ((sameReturns_triple (SameReturns.bears.run config (script n) _) _).yields
    (run_awaited config (script n) _)).bind fun result _ hresult => ?_
  have hleave : returnsContract.Triple (.client t) ()
      (leaveFrame ⟨t, n⟩ (script n) result) fun _ _ => True := by
    apply Contract.Triple.action
    rintro e w gs u w' _ hinv _ hf
    cases hf
    refine ⟨(), ?_, trivial⟩
    intro r hr
    rcases List.mem_append.mp hr with hr | hr
    · exact hinv r hr
    · rw [List.mem_singleton.mp hr]
      exact hresult.2
  exact hleave.bind fun _ _ _ => Contract.Triple.ret trivial

theorem ist_sameReturns (transport : Transport) :
    (virtioIst transport).Within SameReturns :=
  SameReturns.bears.ist (fun _ _ => rfl) (fun _ _ => rfl) transport

theorem gpioEnv_returns {move : GpioDeviceMove} {w w' : GpioSystem}
    (h : gpioEnv move w = some w') : w'.returns = w.returns := by
  cases move with
  | take =>
      rcases Option.map_eq_some_iff.mp h with ⟨d, _, rfl⟩
      rfl
  | answer pos status value =>
      simp only [gpioEnv, GpioSystem.answerRequest] at h
      split at h
      · cases h
      · split at h
        · cases h
        · cases h
          rfl
  | store pos len =>
      simp only [gpioEnv] at h
      split at h
      · rcases Option.map_eq_some_iff.mp h with ⟨r, _, rfl⟩
        rfl
      · cases h
  | bump =>
      rcases Option.map_eq_some_iff.mp h with ⟨r, _, rfl⟩
      rfl
  | raiseVirtq =>
      simp only [gpioEnv] at h
      split at h
      · cases h
        rfl
      · cases h
  | raiseConfig =>
      cases h
      rfl

theorem GpioReachable.awaited {mode : GpioMode} {transport : Transport}
    {config : VirtioGpioConfig} {obj : VirtqObject} {mem : Memory}
    {scripts : Nat -> Nat -> GpioCall} {w : GpioSystem}
    (h : GpioReachable mode transport config obj mem scripts w) {r : GpioReturn}
    (hr : r ∈ w.returns) : r.result.Awaited := by
  rcases h with ⟨c, hc, rfl⟩
  have hstart : returnsContract.inv (gpioPool transport config obj mem scripts).state
      fun _ => () := by
    intro r hr
    cases hr
  have hthread : forall t, returnsContract.Triple t ()
      ((gpioPool transport config obj mem scripts).thread t) fun _ _ => True := by
    intro t
    cases t with
    | client t => exact client_awaited
    | ist => exact sameReturns_triple (ist_sameReturns transport) _
  have hreach : Pool.Reachable gpioEnv (fun _ _ => True)
      (gpioPool transport config obj mem scripts) c := hc.mono fun _ _ _ => trivial
  have henv : forall d w gs w', returnsContract.ok (.env d) w ->
      returnsContract.inv w gs -> returnsContract.env d w = some w' ->
      returnsContract.inv w' gs := by
    intro d w gs w' _ hinv hd r hr
    rw [gpioEnv_returns hd] at hr
    exact hinv r hr
  rcases Contract.invariant_of_reachable hstart hthread henv hreach with ⟨gs, hinv⟩
  exact hinv r hr

end QnxVirtio
