import QnxVirtio.Foundation.Watch
import QnxVirtio.Gpio.Routing
import QnxVirtio.Gpio.Untouched

/-!
# Interrupt causes

The status register of the MMIO transport has one bit for each cause, and the interrupt
line follows it.  A pass of the callback reads the register and acknowledges the causes
that it handles; a cause that it leaves set wakes the interrupt thread again.
-/

namespace QnxVirtio

open Foundation

/-!
## What happens to the register
-/

/-- The device sets bits of the status register; the interrupt thread unmasks its
interrupt, is woken, reads the register and acknowledges bits. -/
inductive MmioEvent
  | raised (bits : UInt32)
  | unmasked
  | woken
  | looked (status : UInt32)
  | acked (bits : UInt32)
  deriving DecidableEq

/-- How far the interrupt thread is; in a pass, with what it read. -/
inductive IstStage
  | outside
  | unmasked
  | woken
  | looked (status : UInt32)
  | acknowledged (status : UInt32)
  deriving DecidableEq

structure InterruptState where
  status : UInt32
  stage : IstStage
  deriving DecidableEq

/-- The level-triggered interrupt, with a thread that acknowledges used buffers only. -/
def InterruptState.next (x : InterruptState) : MmioEvent -> Option InterruptState
  | .raised bits => some { x with status := x.status ||| bits }
  | .unmasked =>
      match x.stage with
      | .outside => some { x with stage := .unmasked }
      | .looked status =>
          if status &&& VIRTIO_MMIO_INT_VIRTQ = 0 then some { x with stage := .unmasked }
          else none
      | .acknowledged _ => some { x with stage := .unmasked }
      | .unmasked | .woken => none
  | .woken =>
      if x.stage = .unmasked ∧ x.status ≠ 0 then some { x with stage := .woken } else none
  | .looked status =>
      if x.stage = .woken ∧ status = x.status then some { x with stage := .looked status }
      else none
  | .acked bits =>
      match x.stage with
      | .looked status =>
          if status &&& VIRTIO_MMIO_INT_VIRTQ ≠ 0 ∧ bits = VIRTIO_MMIO_INT_VIRTQ then
            some { status := x.status &&& ~~~ bits, stage := .acknowledged status }
          else none
      | .outside | .unmasked | .woken | .acknowledged _ => none

def InterruptState.after (x : InterruptState) (events : List MmioEvent) :
    Option InterruptState :=
  events.foldlM InterruptState.next x

/-- The bits that a history acknowledges. -/
def ackedBits : List MmioEvent -> UInt32
  | [] => 0
  | .acked bits :: events => bits ||| ackedBits events
  | .raised _ :: events | .unmasked :: events | .woken :: events | .looked _ :: events =>
      ackedBits events

/-- No device event. -/
def Undisturbed (events : List MmioEvent) : Prop :=
  forall bits, .raised bits ∉ events

theorem Undisturbed.of_cons {e : MmioEvent} {events : List MmioEvent}
    (h : Undisturbed (e :: events)) : Undisturbed events :=
  fun bits hmem => h bits (List.mem_cons_of_mem _ hmem)

/-!
## Masks
-/

theorem status_keep (status : UInt32) : status &&& ~~~ 0 = status := by
  rw [show ~~~ (0 : UInt32) = -1 by decide, UInt32.and_neg_one]

theorem virtq_bit {status : UInt32} (h : status &&& VIRTIO_MMIO_INT_VIRTQ ≠ 0) :
    status &&& VIRTIO_MMIO_INT_VIRTQ = VIRTIO_MMIO_INT_VIRTQ := by
  have hle : (status &&& VIRTIO_MMIO_INT_VIRTQ).toNat <= 1 :=
    UInt32.le_iff_toNat_le.mp UInt32.and_le_right
  have hne : (status &&& VIRTIO_MMIO_INT_VIRTQ).toNat ≠ 0 :=
    fun hzero => h (UInt32.toNat_inj.mp hzero)
  apply UInt32.toNat_inj.mp
  change _ = 1
  omega

theorem and_not_and (status mask : UInt32) :
    status &&& ~~~ (status &&& mask) = status &&& ~~~ mask := by
  rw [← UInt32.toBitVec_inj]
  simp only [UInt32.toBitVec_and, UInt32.toBitVec_not]
  ext i hi
  simp only [BitVec.getElem_and, BitVec.getElem_not]
  cases status.toBitVec[i] <;> rfl

/-!
## Passes
-/

namespace InterruptState

theorem after_append (x : InterruptState) (l l' : List MmioEvent) :
    x.after (l ++ l') = (x.after l).bind fun y => y.after l' :=
  List.foldlM_append

theorem after_cons (x : InterruptState) (e : MmioEvent) (l : List MmioEvent) :
    x.after (e :: l) = (x.next e).bind fun y => y.after l := rfl

theorem after_acknowledged {status seen : UInt32} {l : List MmioEvent} {y : InterruptState}
    (h : after ⟨status, .acknowledged seen⟩ l = some y) (hinside : .unmasked ∉ l) :
    y.stage = .acknowledged seen ∧ ackedBits l = 0 ∧
      (Undisturbed l -> y.status = status) := by
  induction l generalizing status with
  | nil =>
      cases h
      exact ⟨rfl, rfl, fun _ => rfl⟩
  | cons e l ih =>
      rw [after_cons] at h
      rcases Option.bind_eq_some_iff.mp h with ⟨x, hx, hrest⟩
      cases e with
      | raised bits =>
          cases hx
          rcases ih hrest (fun hmem => hinside (List.mem_cons_of_mem _ hmem)) with
            ⟨hstage, hacked, _⟩
          exact ⟨hstage, hacked, fun hcalm => absurd (List.mem_cons_self ..) (hcalm bits)⟩
      | unmasked => exact absurd (List.mem_cons_self ..) hinside
      | woken => cases hx
      | looked seen' => cases hx
      | acked bits => cases hx

/-- What a pass that read `seen` does until the thread unmasks again. -/
theorem after_looked {status seen : UInt32} {l : List MmioEvent} {y z : InterruptState}
    (h : after ⟨status, .looked seen⟩ l = some y) (hinside : .unmasked ∉ l)
    (hend : y.next .unmasked = some z) :
    z.stage = .unmasked ∧ ackedBits l = seen &&& VIRTIO_MMIO_INT_VIRTQ ∧
      (Undisturbed l ->
        z.status = status &&& ~~~ (seen &&& VIRTIO_MMIO_INT_VIRTQ)) := by
  induction l generalizing status with
  | nil =>
      cases h
      simp only [next] at hend
      split at hend
      · rename_i hclear
        cases hend
        rw [hclear]
        exact ⟨rfl, rfl, fun _ => (status_keep status).symm⟩
      · cases hend
  | cons e l ih =>
      have hinside' : .unmasked ∉ l :=
        fun hmem => hinside (List.mem_cons_of_mem _ hmem)
      rw [after_cons] at h
      rcases Option.bind_eq_some_iff.mp h with ⟨x, hx, hrest⟩
      cases e with
      | raised bits =>
          cases hx
          rcases ih hrest hinside' with ⟨hstage, hacked, _⟩
          exact ⟨hstage, hacked, fun hcalm => absurd (List.mem_cons_self ..) (hcalm bits)⟩
      | unmasked => exact absurd (List.mem_cons_self ..) hinside
      | woken => simp [next] at hx
      | looked seen' => simp [next] at hx
      | acked bits =>
          simp only [next] at hx
          split at hx
          · rename_i hset
            cases hx
            rcases after_acknowledged hrest hinside' with ⟨hstage, hacked, hstatus⟩
            simp only [next, hstage] at hend
            cases hend
            rw [virtq_bit hset.1]
            refine ⟨rfl, ?_, fun hcalm => ?_⟩
            · change bits ||| ackedBits l = _
              rw [hacked, hset.2]
              rfl
            · rw [← hset.2]
              exact hstatus hcalm.of_cons
          · cases hx

/-- Nobody wakes a thread that waits for a register without causes. -/
theorem after_unmasked {l : List MmioEvent} {y : InterruptState}
    (h : after ⟨0, .unmasked⟩ l = some y) (hcalm : Undisturbed l) :
    y.status = 0 ∧ .woken ∉ l := by
  cases l with
  | nil =>
      cases h
      exact ⟨rfl, List.not_mem_nil⟩
  | cons e l =>
      rw [after_cons] at h
      rcases Option.bind_eq_some_iff.mp h with ⟨x, hx, hrest⟩
      cases e with
      | raised bits => exact absurd (List.mem_cons_self ..) (hcalm bits)
      | unmasked => cases hx
      | woken => cases hx
      | looked seen => cases hx
      | acked bits => cases hx

end InterruptState

/-- A finished pass in a history: the thread reads the register, and its next turn
begins. -/
structure Pass (events : List MmioEvent) where
  status : UInt32
  before : List MmioEvent
  during : List MmioEvent
  since : List MmioEvent
  split : events = before ++ .looked status :: (during ++ .unmasked :: since)
  inside : .unmasked ∉ during

/-- Every cause that the pass saw is acknowledged, and without a device event the register
is zero and nothing wakes the thread again. -/
structure Acknowledged {events : List MmioEvent} (status : UInt32) (pass : Pass events) :
    Prop where
  causes : pass.status &&& ~~~ ackedBits pass.during = 0
  quiet : Undisturbed pass.during -> Undisturbed pass.since ->
    status = 0 ∧ .woken ∉ pass.since

theorem InterruptState.acknowledged_iff {start : InterruptState} {status : UInt32}
    {stage : IstStage} {events : List MmioEvent}
    (h : start.after events = some ⟨status, stage⟩) (pass : Pass events) :
    Acknowledged status pass <-> pass.status &&& ~~~ VIRTIO_MMIO_INT_VIRTQ = 0 := by
  rw [pass.split, after_append] at h
  rcases Option.bind_eq_some_iff.mp h with ⟨x, _, h⟩
  rw [after_cons] at h
  rcases Option.bind_eq_some_iff.mp h with ⟨x1, hlooked, h⟩
  rw [after_append] at h
  rcases Option.bind_eq_some_iff.mp h with ⟨y, hduring, h⟩
  rw [after_cons] at h
  rcases Option.bind_eq_some_iff.mp h with ⟨z, hunmasked, hsince⟩
  simp only [next] at hlooked
  split at hlooked
  · rename_i hread
    cases hlooked
    rcases after_looked hduring pass.inside hunmasked with ⟨hstage, hacked, hstatus⟩
    rw [← hread.2, and_not_and] at hstatus
    constructor
    · intro hack
      rw [← and_not_and, ← hacked]
      exact hack.causes
    · intro honly
      constructor
      · rw [hacked, and_not_and]
        exact honly
      · intro hduring hcalm
        have hz : z = ⟨0, .unmasked⟩ := by
          rw [← hstage, ← honly, ← hstatus hduring]
        rw [hz] at hsince
        exact after_unmasked hsince hcalm
  · cases hlooked

/-!
## The driver, watched
-/

/-- What happens around the driver: the device raises causes, in any combination, or
leaves the register alone; `rest` is what becomes of everything else. -/
inductive InterruptMove
  | raise (bits : UInt32) (rest : GpioSystem)
  | other (rest : GpioSystem)

def interruptEnv : InterruptMove -> GpioSystem -> Option GpioSystem
  | .raise bits rest, w => some { rest with intStatus := w.intStatus ||| bits }
  | .other rest, w => some { rest with intStatus := w.intStatus }

def InterruptMove.events : InterruptMove -> GpioSystem -> List MmioEvent
  | .raise bits _, _ => [.raised bits]
  | .other _, _ => []

theorem interruptEnv_of_gpioEnv {move : GpioDeviceMove} {w w' : GpioSystem}
    (h : gpioEnv move w = some w') : exists move', interruptEnv move' w = some w' := by
  have hother : w'.intStatus = w.intStatus ->
      exists move', interruptEnv move' w = some w' := by
    intro hsame
    refine ⟨.other w', ?_⟩
    simp only [interruptEnv, ← hsame]
  cases move with
  | take =>
      rcases Option.map_eq_some_iff.mp h with ⟨d, _, rfl⟩
      exact hother rfl
  | answer pos status value =>
      simp only [gpioEnv, GpioSystem.answerRequest] at h
      split at h
      · cases h
      · split at h
        · cases h
        · cases h
          exact hother rfl
  | store pos len =>
      simp only [gpioEnv] at h
      split at h
      · rcases Option.map_eq_some_iff.mp h with ⟨r, _, rfl⟩
        exact hother rfl
      · cases h
  | bump =>
      rcases Option.map_eq_some_iff.mp h with ⟨r, _, rfl⟩
      exact hother rfl
  | raiseVirtq =>
      simp only [gpioEnv] at h
      split at h
      · cases h
        exact ⟨.raise VIRTIO_MMIO_INT_VIRTQ { w with raise := false }, rfl⟩
      · cases h
  | raiseConfig =>
      cases h
      exact ⟨.raise VIRTIO_MMIO_INT_CONFIG w, rfl⟩

abbrev WatchedGpio : Type :=
  Watched GpioSystem MmioEvent

def watchedVirtqCallback : Prog Env WatchedGpio Rc := do
  let status <- Prog.noted (fun status => [.looked status])
    (Prog.read GpioSystem.intStatus)
  if status &&& VIRTIO_MMIO_INT_VIRTQ ≠ 0 then
    Prog.noted (fun _ => [.acked VIRTIO_MMIO_INT_VIRTQ]) (Prog.modify fun w =>
      { w with intStatus := w.intStatus &&& ~~~ VIRTIO_MMIO_INT_VIRTQ })
    Prog.silent drainVirtq
  else Prog.silent drainVirtq

def watchedIst : Prog Env WatchedGpio Unit := do
  let attached <- Prog.silent (Prog.action fun e w => some (e.attach, w))
  if attached then
    Prog.iterate (fun _ => do
      Prog.noted (fun _ => [.unmasked]) interruptUnmask
      Prog.noted (fun _ => [.woken]) (interruptWait .mmio)
      let _ <- watchedVirtqCallback
      pure (.inl ())) ()
  else pure ()

def watchedThread (config : VirtioGpioConfig) (scripts : Nat -> Nat -> GpioCall) :
    GpioThread -> Prog Env WatchedGpio Unit
  | .client t => Prog.silent (gpioClient config t (scripts t))
  | .ist => watchedIst

def interruptPool (config : VirtioGpioConfig) (scripts : Nat -> Nat -> GpioCall)
    (w : GpioSystem) : Pool GpioThread Env GpioSystem where
  state := w
  thread := gpioThread .mmio config scripts

def watchedPool (config : VirtioGpioConfig) (scripts : Nat -> Nat -> GpioCall)
    (w : GpioSystem) : Pool GpioThread Env WatchedGpio where
  state := { state := w, events := [] }
  thread := watchedThread config scripts

/-- What runs from `w₀` lead to, with the events on the way. -/
def WatchedReachable (config : VirtioGpioConfig) (scripts : Nat -> Nat -> GpioCall)
    (w₀ : GpioSystem) (w : WatchedGpio) : Prop :=
  exists c, Pool.Reachable (Pool.watchEnv InterruptMove.events interruptEnv)
    (fun _ _ => True) (watchedPool config scripts w₀) c ∧ c.state = w

theorem watches_virtqCallback :
    Prog.Watches virtioMmioVirtqCallback watchedVirtqCallback := by
  refine (Prog.watches_noted _ _).bind fun status => ?_
  split
  · exact (Prog.watches_noted _ _).bind fun _ => Prog.watches_silent _
  · exact Prog.watches_silent _

theorem watches_ist : Prog.Watches (virtioIst .mmio) watchedIst := by
  refine (Prog.watches_silent _).bind fun attached => ?_
  split
  · refine Prog.watches_iterate (fun _ => ?_) ()
    refine (Prog.watches_noted _ _).bind fun _ => ?_
    refine (Prog.watches_noted _ _).bind fun _ => ?_
    exact watches_virtqCallback.bind fun _ => Prog.Watches.ret _
  · exact Prog.Watches.ret _

theorem GpioReachable.interruptPool {mode : GpioMode} {config : VirtioGpioConfig}
    {obj : VirtqObject} {mem : Memory} {scripts : Nat -> Nat -> GpioCall} {w : GpioSystem}
    (h : GpioReachable mode .mmio config obj mem scripts w) :
    exists c, Pool.Reachable interruptEnv (fun _ _ => True)
      (interruptPool config scripts (obj.gpioSystem mem)) c ∧ c.state = w := by
  rcases h with ⟨c, hc, hstate⟩
  exact ⟨c, hc.surroundings fun _ _ _ => interruptEnv_of_gpioEnv, hstate⟩

theorem watches_interruptPool (config : VirtioGpioConfig)
    (scripts : Nat -> Nat -> GpioCall) (w : GpioSystem) :
    Pool.Watches (interruptPool config scripts w) (watchedPool config scripts w) where
  state := rfl
  thread
    | .client _ => Prog.watches_silent _
    | .ist => watches_ist

/-- Watching changes nothing. -/
theorem watchedReachable_iff {config : VirtioGpioConfig}
    {scripts : Nat -> Nat -> GpioCall} {w₀ w : GpioSystem} :
    (exists c, Pool.Reachable interruptEnv (fun _ _ => True)
      (interruptPool config scripts w₀) c ∧ c.state = w) <->
        exists events, WatchedReachable config scripts w₀ ⟨w, events⟩ :=
  Pool.watched_iff (watches_interruptPool config scripts w₀)

/-!
## The register along a run
-/

/-- The ghost of a thread says how far it is; only the interrupt thread's counts. -/
def interruptContract (start : InterruptState) :
    Contract GpioThread Env InterruptMove WatchedGpio IstStage where
  env := Pool.watchEnv InterruptMove.events interruptEnv
  ok := fun _ _ => True
  inv := fun w gs => start.after w.events = some ⟨w.state.intStatus, gs .ist⟩

variable {start : InterruptState}

def SameInterrupts (w w' : GpioSystem) : Prop :=
  w'.intStatus = w.intStatus

theorem sameInterrupts_of_untouched {α : Type} {p : Prog Env GpioSystem α}
    (hp : p.Within Untouched) : p.Within SameInterrupts :=
  hp.mono fun _ _ h => h.intStatus

theorem client_within (config : VirtioGpioConfig) (t : Nat) (script : Nat -> GpioCall) :
    (gpioClient config t script).Within SameInterrupts := by
  refine Prog.within_iterate (fun n => ?_) 0
  have hleave : forall result,
      (leaveFrame ⟨t, n⟩ (script n) result).Within SameInterrupts :=
    fun result => Prog.within_modify fun w => rfl
  have henter := sameInterrupts_of_untouched (Untouched.enter ⟨t, n⟩)
  have hrun := sameInterrupts_of_untouched (Untouched.bears.run config (script n) ⟨t, n⟩)
  exact henter.bind fun _ => hrun.bind fun result => (hleave result).bind fun _ => trivial

theorem silent_triple {α : Type} {p : Prog Env GpioSystem α} {t : GpioThread}
    {g : IstStage} (hp : p.Within SameInterrupts) :
    (interruptContract start).Triple t g (Prog.silent p) fun _ g' => g' = g := by
  refine Contract.Triple.of_within (M := fun w w' => w'.state.intStatus =
    w.state.intStatus ∧ w'.events = w.events) ?_ ?_
  · rintro w w' gs ⟨hstatus, hevents⟩ hinv
    simp only [interruptContract] at hinv ⊢
    rw [hstatus, hevents]
    exact hinv
  · exact hp.zoom fun _ _ h => ⟨h, rfl⟩

theorem noted_triple {α : Type} {f : Env -> GpioSystem -> Option (α × GpioSystem)}
    {event : α -> MmioEvent} {g : IstStage} {Q : α -> IstStage -> Prop}
    (h : forall e w a w', f e w = some (a, w') -> exists g',
      InterruptState.next ⟨w.intStatus, g⟩ (event a) = some ⟨w'.intStatus, g'⟩ ∧
        Q a g') :
    (interruptContract start).Triple .ist g
      (Prog.noted (fun a => [event a]) (Prog.action f)) Q := by
  rw [Prog.noted_action]
  apply Contract.Triple.action
  rintro e w gs a w' _ hinv rfl hf
  rcases Option.map_eq_some_iff.mp hf with ⟨⟨a', s⟩, hfs, hout⟩
  cases hout
  rcases h e w.state a' s hfs with ⟨g', hnext, hQ⟩
  refine ⟨g', ?_, hQ⟩
  simp only [interruptContract] at hinv ⊢
  rw [InterruptState.after_append, hinv, Function.update_self]
  simp only [Option.bind_some, InterruptState.after_cons, hnext]
  rfl

theorem watchedVirtqCallback_triple :
    (interruptContract start).Triple .ist .woken watchedVirtqCallback fun _ g =>
      exists status, g = .acknowledged status ∨
        (g = .looked status ∧ status &&& VIRTIO_MMIO_INT_VIRTQ = 0) := by
  have hlook : (interruptContract start).Triple .ist .woken
      (Prog.noted (fun status => [.looked status]) (Prog.read GpioSystem.intStatus))
      fun status g => g = .looked status := by
    refine noted_triple fun e w status w' hf => ?_
    cases hf
    exact ⟨.looked w.intStatus, by simp [InterruptState.next], rfl⟩
  refine hlook.bind ?_
  rintro status g rfl
  split
  · rename_i hset
    have hack : (interruptContract start).Triple .ist (.looked status)
        (Prog.noted (fun _ => [.acked VIRTIO_MMIO_INT_VIRTQ]) (Prog.modify fun w =>
          { w with intStatus := w.intStatus &&& ~~~ VIRTIO_MMIO_INT_VIRTQ }))
        fun _ g => g = .acknowledged status := by
      refine noted_triple fun e w _ w' hf => ?_
      cases hf
      refine ⟨.acknowledged status, ?_, rfl⟩
      simp only [InterruptState.next]
      rw [if_pos ⟨hset, trivial⟩]
    refine hack.bind ?_
    rintro _ g rfl
    apply (silent_triple (sameInterrupts_of_untouched Untouched.bears.drain)).conseq
    rintro rc g rfl
    exact ⟨status, Or.inl rfl⟩
  · rename_i hclear
    apply (silent_triple (sameInterrupts_of_untouched Untouched.bears.drain)).conseq
    rintro rc g rfl
    exact ⟨status, Or.inr ⟨rfl, Decidable.not_not.mp hclear⟩⟩

/-- The interrupt thread may unmask its interrupt. -/
def MayUnmask (g : IstStage) : Prop :=
  g = .outside ∨ exists status, g = .acknowledged status ∨
    (g = .looked status ∧ status &&& VIRTIO_MMIO_INT_VIRTQ = 0)

theorem MayUnmask.next {g : IstStage} (h : MayUnmask g) (status : UInt32) :
    InterruptState.next ⟨status, g⟩ .unmasked = some ⟨status, .unmasked⟩ := by
  rcases h with rfl | ⟨seen, rfl | ⟨rfl, hclear⟩⟩
  · rfl
  · rfl
  · simp only [InterruptState.next]
    rw [if_pos hclear]

theorem watchedIst_triple :
    (interruptContract start).Triple .ist .outside watchedIst fun _ _ => True := by
  unfold watchedIst
  have hattach : (interruptContract start).Triple .ist .outside
      (Prog.silent (Prog.action fun e w => some (e.attach, w))) fun _ g' =>
        g' = .outside :=
    silent_triple (sameInterrupts_of_untouched (Prog.within_look Untouched.refl _))
  refine hattach.bind ?_
  rintro attached g rfl
  split
  · refine Contract.Triple.loop (J := fun _ g => MayUnmask g) (R := fun _ _ => True) ?_
      (fun _ _ _ => Contract.Triple.ret trivial) (Or.inl rfl)
    intro _ g hg
    have hunmask : (interruptContract start).Triple .ist g
        (Prog.noted (fun _ => [.unmasked]) interruptUnmask) fun _ g' =>
          g' = .unmasked := by
      refine noted_triple fun e w _ w' hf => ?_
      cases hf
      exact ⟨.unmasked, hg.next _, rfl⟩
    refine hunmask.bind ?_
    rintro _ g1 rfl
    have hwait : (interruptContract start).Triple .ist .unmasked
        (Prog.noted (fun _ => [.woken]) (interruptWait .mmio)) fun _ g' =>
          g' = .woken := by
      refine noted_triple fun e w _ w' hf => ?_
      dsimp only at hf
      split at hf
      · cases hf
      · rename_i hset
        cases hf
        refine ⟨.woken, ?_, rfl⟩
        simp only [InterruptState.next]
        rw [if_pos ⟨trivial, hset⟩]
    refine hwait.bind ?_
    rintro _ g2 rfl
    refine watchedVirtqCallback_triple.bind ?_
    intro rc g3 hstage
    exact Contract.Triple.ret (Or.inr hstage)
  · exact Contract.Triple.ret trivial

/-- The events of a run say what the register holds. -/
theorem WatchedReachable.after {config : VirtioGpioConfig}
    {scripts : Nat -> Nat -> GpioCall} {w₀ : GpioSystem} {w : WatchedGpio}
    (h : WatchedReachable config scripts w₀ w) : exists stage,
      InterruptState.after ⟨w₀.intStatus, .outside⟩ w.events =
        some ⟨w.state.intStatus, stage⟩ := by
  rcases h with ⟨c, hc, rfl⟩
  have hthread : forall t, (interruptContract ⟨w₀.intStatus, .outside⟩).Triple t .outside
      ((watchedPool config scripts w₀).thread t) fun _ _ => True := by
    intro t
    cases t with
    | client t =>
        exact (silent_triple (client_within _ _ _)).conseq fun _ _ _ => trivial
    | ist => exact watchedIst_triple
  have hstart : (interruptContract ⟨w₀.intStatus, .outside⟩).inv
      (watchedPool config scripts w₀).state fun _ => .outside := rfl
  have henv : forall move w gs w', True ->
      (interruptContract ⟨w₀.intStatus, .outside⟩).inv w gs ->
      Pool.watchEnv InterruptMove.events interruptEnv move w = some w' ->
      (interruptContract ⟨w₀.intStatus, .outside⟩).inv w' gs := by
    rintro move w gs w' _ hinv hmove
    rcases Option.map_eq_some_iff.mp hmove with ⟨s, hs, rfl⟩
    simp only [interruptContract] at hinv ⊢
    rw [InterruptState.after_append, hinv]
    cases move with
    | raise bits rest =>
        cases hs
        rfl
    | other rest =>
        cases hs
        rfl
  rcases Contract.invariant_of_reachable hstart hthread henv hc with ⟨gs, hafter⟩
  exact ⟨gs .ist, hafter⟩

/-!
## Acknowledgement
-/

/-- A pass acknowledges every cause that it saw exactly when it saw no configuration
change. -/
theorem mmio_acknowledges_iff {config : VirtioGpioConfig}
    {scripts : Nat -> Nat -> GpioCall} {w₀ : GpioSystem} {w : WatchedGpio}
    (hreach : WatchedReachable config scripts w₀ w) (pass : Pass w.events) :
    Acknowledged w.state.intStatus pass <->
      pass.status &&& ~~~ VIRTIO_MMIO_INT_VIRTQ = 0 := by
  rcases hreach.after with ⟨stage, hafter⟩
  exact InterruptState.acknowledged_iff hafter pass

/-- The device raises causes and the interrupt thread takes steps. -/
def causeMoves (bits : UInt32) (n : Nat) : List (Move GpioThread Env InterruptMove) :=
  .env (.raise bits (queueTwo.gpioSystem createdTwo.2.mem)) ::
    List.replicate n (.thread .ist {})

def watchedTwo : Pool GpioThread Env WatchedGpio :=
  watchedPool configEight setLineScripts (queueTwo.gpioSystem createdTwo.2.mem)

theorem exists_watchedTwo (bits : UInt32) (n : Nat) (events : List MmioEvent)
    (h : (watchedTwo.run (Pool.watchEnv InterruptMove.events interruptEnv)
      (causeMoves bits n)).map (fun c => c.state.events) = some events) :
    exists w, WatchedReachable configEight setLineScripts
      (queueTwo.gpioSystem createdTwo.2.mem) w ∧ w.events = events := by
  rcases Option.map_eq_some_iff.mp h with ⟨c, hrun, hevents⟩
  refine ⟨c.state, ⟨c, ?_, rfl⟩, hevents⟩
  exact Pool.reachable_run Pool.Reachable.refl (fun _ _ _ => trivial) hrun

/-- A used buffer: the pass acknowledges what it saw. -/
theorem mmio_acknowledges_used : exists (w : WatchedGpio) (pass : Pass w.events),
    WatchedReachable configEight setLineScripts (queueTwo.gpioSystem createdTwo.2.mem) w ∧
      pass.status = VIRTIO_MMIO_INT_VIRTQ ∧ Acknowledged w.state.intStatus pass := by
  rcases exists_watchedTwo 1 12 [.raised 1, .unmasked, .woken, .looked 1, .acked 1,
    .unmasked] (by decide +kernel) with ⟨⟨w, events⟩, hreach, hevents⟩
  cases hevents
  refine ⟨_, ⟨1, [.raised 1, .unmasked, .woken], [.acked 1], [], rfl, by decide⟩, hreach,
    rfl, ?_⟩
  exact (mmio_acknowledges_iff hreach _).mpr
    (show (1 : UInt32) &&& ~~~ VIRTIO_MMIO_INT_VIRTQ = 0 by decide)

/-- A configuration change alone: nothing is acknowledged, and the thread is woken
again. -/
theorem mmio_config_unacknowledged :
    ¬ forall (config : VirtioGpioConfig) (scripts : Nat -> Nat -> GpioCall)
      (w₀ : GpioSystem) (w : WatchedGpio), WatchedReachable config scripts w₀ w ->
        forall pass : Pass w.events, Acknowledged w.state.intStatus pass := by
  intro hall
  rcases exists_watchedTwo 2 12 [.raised 2, .unmasked, .woken, .looked 2, .unmasked,
    .woken] (by decide +kernel) with ⟨⟨w, events⟩, hreach, hevents⟩
  cases hevents
  have hack := hall _ _ _ _ hreach
    ⟨2, [.raised 2, .unmasked, .woken], [], [.woken], rfl, by decide⟩
  have hquiet := hack.quiet (fun bits => by simp) (fun bits => by simp)
  exact hquiet.2 (List.mem_singleton_self _)

end QnxVirtio
