import QnxVirtio.Foundation.Fairness
import QnxVirtio.Gpio.Bears
import QnxVirtio.Gpio.Progress

/-!
# Runs that go on

What a run of the driver only adds to, and what a device does that keeps its promises.
-/

namespace QnxVirtio

open Foundation

/-!
## What a run never takes back
-/

/-- What a thread leaves to the device, and what it only adds to. -/
structure DriverStep (w w' : GpioSystem) : Prop where
  device : w'.device = w.device
  answers : w'.answers = w.answers
  raise : w'.raise = w.raise
  published : w.queue.published <+: w'.queue.published
  delivered : w.delivered <+: w'.delivered

namespace DriverStep

theorem refl (w : GpioSystem) : DriverStep w w :=
  ⟨rfl, rfl, rfl, List.prefix_refl _, List.prefix_refl _⟩

theorem changeContext (w : GpioSystem) (ptr : ContextPtr)
    (f : VirtioGpioContext -> VirtioGpioContext) : DriverStep w (w.changeContext ptr f) := by
  unfold GpioSystem.changeContext
  split
  · exact ⟨rfl, rfl, rfl, List.prefix_refl _, List.prefix_refl _⟩
  · exact ⟨rfl, rfl, rfl, List.prefix_refl _, List.prefix_refl _⟩

theorem bears : Bears DriverStep where
  refl := refl
  queue := fun _ _ hgrows => ⟨rfl, rfl, rfl, hgrows, List.prefix_refl _⟩
  context := changeContext
  post := fun w ptr f => by
    have h := changeContext w ptr f
    exact ⟨h.device, h.answers, h.raise, h.published, List.prefix_append _ _⟩

theorem client (config : VirtioGpioConfig) (t : Nat) (script : Nat -> GpioCall) :
    (gpioClient config t script).Within DriverStep := by
  refine Prog.within_iterate (fun n => ?_) 0
  have henter : (enterFrame ⟨t, n⟩).Within DriverStep := by
    refine Prog.within_action fun e w u w' hf => ?_
    cases hf
    exact ⟨rfl, rfl, rfl, List.prefix_refl _, List.prefix_refl _⟩
  have hleave : forall result,
      (leaveFrame ⟨t, n⟩ (script n) result).Within DriverStep := by
    intro result
    refine Prog.within_modify fun w => ?_
    exact ⟨rfl, rfl, rfl, List.prefix_refl _, List.prefix_refl _⟩
  exact henter.bind fun _ => (bears.run config (script n) _).bind fun result =>
    (hleave result).bind fun _ => trivial

theorem thread (transport : Transport) (config : VirtioGpioConfig)
    (scripts : Nat -> Nat -> GpioCall) (t : GpioThread) :
    (gpioThread transport config scripts t).Within DriverStep := by
  have hsame : forall w w' : GpioSystem, w'.queue = w.queue -> w'.device = w.device ->
      w'.answers = w.answers -> w'.raise = w.raise -> w'.delivered = w.delivered ->
      DriverStep w w' := by
    intro w w' hqueue hdevice hanswers hraise hdelivered
    exact ⟨hdevice, hanswers, hraise, hqueue ▸ List.prefix_refl _,
      hdelivered ▸ List.prefix_refl _⟩
  cases t with
  | client t => exact client config t (scripts t)
  | ist =>
      exact bears.ist (fun _ _ => hsame _ _ rfl rfl rfl rfl rfl)
        (fun _ _ => hsame _ _ rfl rfl rfl rfl rfl) transport

end DriverStep

/-- Requests, completions and deliveries are only added. -/
structure Onwards (w w' : GpioSystem) : Prop where
  published : w.queue.published <+: w'.queue.published
  produced : w.device.produced <+: w'.device.produced
  delivered : w.delivered <+: w'.delivered

namespace Onwards

theorem refl (w : GpioSystem) : Onwards w w :=
  ⟨List.prefix_refl _, List.prefix_refl _, List.prefix_refl _⟩

theorem trans (w w1 w2 : GpioSystem) (h : Onwards w w1) (h' : Onwards w1 w2) :
    Onwards w w2 :=
  ⟨h.published.trans h'.published, h.produced.trans h'.produced,
    h.delivered.trans h'.delivered⟩

theorem of_driver (w w' : GpioSystem) (h : DriverStep w w') : Onwards w w' where
  published := h.published
  produced := h.device ▸ List.prefix_refl _
  delivered := h.delivered

theorem of_device {w w' : GpioSystem}
    (hpublished : w'.queue.published = w.queue.published)
    (hproduced : w.device.produced <+: w'.device.produced)
    (hdelivered : w'.delivered = w.delivered) : Onwards w w' where
  published := hpublished ▸ List.prefix_refl _
  produced := hproduced
  delivered := hdelivered ▸ List.prefix_refl _

theorem device {move : GpioDeviceMove} {w w' : GpioSystem}
    (h : gpioEnv move w = some w') : Onwards w w' := by
  cases move with
  | take =>
      rcases Option.map_eq_some_iff.mp h with ⟨d, hd, rfl⟩
      refine of_device rfl ?_ rfl
      unfold Device.take at hd
      split at hd
      · cases hd
      · cases hd
        exact List.prefix_refl _
  | answer pos status value =>
      rcases GpioSystem.answerRequest_cases h with ⟨head, _, _, rfl⟩
      exact of_device rfl (List.prefix_refl _) rfl
  | store pos len =>
      simp only [gpioEnv] at h
      split at h
      · rcases Option.map_eq_some_iff.mp h with ⟨r, hr, rfl⟩
        refine of_device rfl ?_ rfl
        unfold Device.store at hr
        split at hr
        · split at hr
          · cases hr
          · cases hr
            exact List.prefix_refl _
        · cases hr
      · cases h
  | bump =>
      rcases Option.map_eq_some_iff.mp h with ⟨r, hr, rfl⟩
      refine of_device rfl ?_ rfl
      rcases Option.map_eq_some_iff.mp hr with ⟨e, _, rfl⟩
      exact List.prefix_append _ _
  | raiseVirtq =>
      simp only [gpioEnv] at h
      split at h
      · cases h
        exact of_device rfl (List.prefix_refl _) rfl
      · cases h
  | raiseConfig =>
      cases h
      exact of_device rfl (List.prefix_refl _) rfl

theorem run {transport : Transport} {config : VirtioGpioConfig} {obj : VirtqObject}
    {mem : Memory} {scripts : Nat -> Nat -> GpioCall}
    {ok : Move GpioThread Env GpioDeviceMove -> GpioSystem -> Prop}
    (R : Pool.Run gpioEnv ok (gpioPool transport config obj mem scripts)) {n m : Nat}
    (hle : n <= m) : Onwards (R.pool n).state (R.pool m).state := by
  refine R.related refl trans (fun t => ?_) (fun _ _ _ => device) hle
  exact (DriverStep.thread transport config scripts t).mono of_driver

end Onwards

/-!
## Runs
-/

/-- The device completes every chain that is published, and raises every interrupt that it
announces. -/
structure Serves {ok : Move GpioThread Env GpioDeviceMove -> GpioSystem -> Prop}
    {c₀ : Pool GpioThread Env GpioSystem} (R : Pool.Run gpioEnv ok c₀) : Prop where
  completes : forall n pos, pos < (R.pool n).state.queue.published.length ->
    exists m, n <= m ∧ pos ∈ (R.pool m).state.device.positions
  interrupts : forall n, (R.pool n).state.raise = true ->
    exists m, n <= m ∧ R.move m = .env .raiseVirtq

end QnxVirtio
