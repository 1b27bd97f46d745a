import Mathlib.Data.List.Induction
import QnxVirtio.Foundation.Linearize
import QnxVirtio.Foundation.Trace
import QnxVirtio.Gpio.Lines

/-!
# Clients see one set of lines

Client threads call the driver concurrently, and the device answers their requests in any
order.  Over a conforming device their calls are linearizable: each takes effect where the
device answers its request.
-/

namespace QnxVirtio

open Foundation

/-!
## The history of a run
-/

abbrev GpioEffect : Type :=
  Effect ContextPtr GpioCall GpioResult

abbrev GpioEvent : Type :=
  CallEvent ContextPtr GpioCall GpioResult

section History

variable (scripts : Nat -> Nat -> GpioCall)

/-- The call that a context belongs to. -/
def callOf (ptr : ContextPtr) : GpioCall :=
  scripts ptr.thread ptr.call

/-- The calls whose requests were published. -/
def submittedCalls (published : List Published) : List (ContextPtr × GpioCall) :=
  published.filterMap fun p => p.context.map fun ptr => (ptr, callOf scripts ptr)

/-- The call that an answer goes to, with the result that it stands for. -/
def answerEffect (w : GpioSystem) (a : GpioAnswer) : Option GpioEffect :=
  ((w.queue.published[a.pos]?).bind Published.context).map fun ptr =>
    { id := ptr, op := callOf scripts ptr, out := (callOf scripts ptr).resultOf a }

/-- The calls that returned after they waited for an answer. -/
def completedCalls (returns : List GpioReturn) : List (ContextPtr × GpioResult) :=
  returns.filterMap fun r =>
    if r.result.waited then some (r.context, r.result) else none

/-- What a step adds to the history.  A call that gets to wait is invoked when its request
is published. -/
def gpioEvents (w w' : GpioSystem) : List GpioEvent :=
  callBatch (submittedCalls scripts (w'.queue.published.drop w.queue.published.length))
    ((w'.answers.drop w.answers.length).filterMap (answerEffect scripts w'))
    (completedCalls (w'.returns.drop w.returns.length))

end History

/-- A run of the driver with its history. -/
def GpioTraced (mode : GpioMode) (transport : Transport) (config : VirtioGpioConfig)
    (obj : VirtqObject) (mem : Memory) (scripts : Nat -> Nat -> GpioCall)
    (w : GpioSystem) (log : List GpioEvent) : Prop :=
  exists c, Pool.Traced gpioEnv (gpioOk mode) (gpioEvents scripts)
    (gpioPool transport config obj mem scripts) c log ∧ c.state = w

/-!
## Nothing is taken back
-/

/-- Requests, answers and returns are only added. -/
structure Lengthens (w w' : GpioSystem) : Prop where
  published : w.queue.published <+: w'.queue.published
  answers : w.answers <+: w'.answers
  returns : w.returns <+: w'.returns

namespace Lengthens

theorem refl (w : GpioSystem) : Lengthens w w :=
  ⟨List.prefix_refl _, List.prefix_refl _, List.prefix_refl _⟩

theorem of_eq {w w' : GpioSystem} (hpublished : w'.queue.published = w.queue.published)
    (hanswers : w'.answers = w.answers) (hreturns : w'.returns = w.returns) :
    Lengthens w w' where
  published := hpublished ▸ List.prefix_refl _
  answers := hanswers ▸ List.prefix_refl _
  returns := hreturns ▸ List.prefix_refl _

theorem changeContext (w : GpioSystem) (ptr : ContextPtr)
    (f : VirtioGpioContext -> VirtioGpioContext) : Lengthens w (w.changeContext ptr f) := by
  unfold GpioSystem.changeContext
  split
  · exact of_eq rfl rfl rfl
  · exact of_eq rfl rfl rfl

theorem bears : Bears Lengthens where
  refl := refl
  queue := fun _ _ hgrows => ⟨hgrows, List.prefix_refl _, List.prefix_refl _⟩
  context := changeContext
  post := fun w ptr f =>
    ⟨(changeContext w ptr f).published, (changeContext w ptr f).answers,
      (changeContext w ptr f).returns⟩

theorem client (config : VirtioGpioConfig) (t : Nat) (script : Nat -> GpioCall) :
    (gpioClient config t script).Within Lengthens := by
  refine Prog.within_iterate (fun n => ?_) 0
  have henter : (enterFrame ⟨t, n⟩).Within Lengthens := by
    refine Prog.within_action fun e w u w' hf => ?_
    cases hf
    exact of_eq rfl rfl rfl
  have hleave : forall result,
      (leaveFrame ⟨t, n⟩ (script n) result).Within Lengthens := by
    intro result
    refine Prog.within_modify fun w => ?_
    exact ⟨List.prefix_refl _, List.prefix_refl _, List.prefix_append _ _⟩
  exact henter.bind fun _ => (bears.run config (script n) _).bind fun result =>
    (hleave result).bind fun _ => trivial

theorem thread (transport : Transport) (config : VirtioGpioConfig)
    (scripts : Nat -> Nat -> GpioCall) (t : GpioThread) :
    (gpioThread transport config scripts t).Within Lengthens := by
  cases t with
  | client t => exact client config t (scripts t)
  | ist =>
      exact bears.ist (fun _ _ => of_eq rfl rfl rfl) (fun _ _ => of_eq rfl rfl rfl)
        transport

theorem device {move : GpioDeviceMove} {w w' : GpioSystem}
    (h : gpioEnv move w = some w') : Lengthens w w' := by
  cases move with
  | take =>
      rcases Option.map_eq_some_iff.mp h with ⟨d, _, rfl⟩
      exact of_eq rfl rfl rfl
  | answer pos status value =>
      simp only [gpioEnv, GpioSystem.answerRequest] at h
      split at h
      · cases h
      · split at h
        · cases h
        · cases h
          exact ⟨List.prefix_refl _, List.prefix_append _ _, List.prefix_refl _⟩
  | store pos len =>
      simp only [gpioEnv] at h
      split at h
      · rcases Option.map_eq_some_iff.mp h with ⟨r, _, rfl⟩
        exact of_eq rfl rfl rfl
      · cases h
  | bump =>
      rcases Option.map_eq_some_iff.mp h with ⟨r, _, rfl⟩
      exact of_eq rfl rfl rfl
  | raiseVirtq =>
      simp only [gpioEnv] at h
      split at h
      · cases h
        exact of_eq rfl rfl rfl
      · cases h
  | raiseConfig =>
      cases h
      exact of_eq rfl rfl rfl

end Lengthens

/-!
## The history is in place
-/

/-- The history follows the records of the system. -/
structure Chronicle (scripts : Nat -> Nat -> GpioCall) (w : GpioSystem)
    (log : List GpioEvent) : Prop where
  placed : Placed log
  invoked : forall ptr call, CallEvent.invoked ptr call ∈ log <->
    (ptr, call) ∈ submittedCalls scripts w.queue.published
  answered : effects log = w.answers.filterMap (answerEffect scripts w)

section Records

variable {mode : GpioMode} {scripts : Nat -> Nat -> GpioCall} {w w' : GpioSystem}
  {gs gs' : GpioThread -> GpioGhost} {fl fl' : Nat -> Holding} {log : List GpioEvent}

theorem submittedCalls_append (ps ps' : List Published) :
    submittedCalls scripts (ps ++ ps') =
      submittedCalls scripts ps ++ submittedCalls scripts ps' :=
  List.filterMap_append

theorem submittedCalls_ids (ps : List Published) :
    (submittedCalls scripts ps).map Prod.fst = ps.filterMap Published.context := by
  unfold submittedCalls
  rw [List.map_filterMap]
  apply List.filterMap_congr
  intro p _
  cases p.context with
  | none => rfl
  | some ptr => rfl

theorem mem_submittedCalls_iff {ps : List Published} {ptr : ContextPtr} {call : GpioCall} :
    (ptr, call) ∈ submittedCalls scripts ps <->
      call = callOf scripts ptr ∧ exists p, p ∈ ps ∧ p.context = some ptr := by
  unfold submittedCalls
  rw [List.mem_filterMap]
  constructor
  · intro h
    rcases h with ⟨p, hp, hcontext⟩
    rcases Option.map_eq_some_iff.mp hcontext with ⟨ptr', hptr, heq⟩
    cases heq
    exact ⟨rfl, p, hp, hptr⟩
  · intro h
    rcases h with ⟨rfl, p, hp, hptr⟩
    exact ⟨p, hp, by rw [hptr]; rfl⟩

theorem ContextInv.nodup_contexts {stage : Nat -> ClientStage} {phase : IstPhase}
    (h : ContextInv mode scripts w stage phase) :
    (w.queue.published.filterMap Published.context).Nodup := by
  have hpair : w.queue.published.Pairwise fun p q => p.context ≠ q.context := by
    rw [List.pairwise_iff_getElem]
    intro i j hi hj hlt heq
    have hsame := h.distinct i j _ _ (List.getElem?_eq_getElem hi)
      (List.getElem?_eq_getElem hj) heq
    exact Nat.lt_irrefl i (hsame ▸ hlt)
  refine List.Pairwise.filterMap _ ?_ hpair
  intro p q hne ptr hp ptr' hq heq
  exact hne (hp.trans ((congrArg some heq).trans hq.symm))

theorem FlowInv.answerEffect (h : FlowInv scripts w fl) {a : GpioAnswer}
    (ha : a ∈ w.answers) : exists (p : Published) (ptr : ContextPtr),
      w.queue.published[a.pos]? = some p ∧ p.context = some ptr ∧
        a.request = (callOf scripts ptr).request ∧ answerEffect scripts w a = some
          { id := ptr, op := callOf scripts ptr, out := (callOf scripts ptr).resultOf a } := by
  rcases (h.answered a ha).2 with ⟨p, ptr, hp, hptr, hrequest⟩
  refine ⟨p, ptr, hp, hptr, hrequest, ?_⟩
  unfold QnxVirtio.answerEffect
  rw [hp, Option.bind_some, hptr]
  rfl

theorem GpioInv.nodup_answers (h : GpioInv mode scripts w gs fl)
    (hcalm : mode.calm = true) :
    ((w.answers.filterMap (answerEffect scripts w)).map Effect.id).Nodup := by
  have hpair : w.answers.Pairwise fun a b => a.pos ≠ b.pos :=
    List.pairwise_map.mp h.flow.answersNodup
  rw [List.Nodup, List.pairwise_map]
  refine List.Pairwise.filterMap _ ?_ hpair
  intro a b hne c hc d hd heq
  rcases Option.map_eq_some_iff.mp hc with ⟨ptr, hptr, rfl⟩
  rcases Option.map_eq_some_iff.mp hd with ⟨ptr', hptr', rfl⟩
  rcases Option.bind_eq_some_iff.mp hptr with ⟨p, hp, hcontext⟩
  rcases Option.bind_eq_some_iff.mp hptr' with ⟨p', hp', hcontext'⟩
  have hsame : ptr = ptr' := heq
  exact hne ((h.context hcalm).distinct a.pos b.pos p p' hp hp'
    (hcontext.trans ((congrArg some hsame).trans hcontext'.symm)))

theorem Lengthens.answerEffect (h : Lengthens w w') (hflow : FlowInv scripts w fl)
    {a : GpioAnswer} (ha : a ∈ w.answers) :
    QnxVirtio.answerEffect scripts w' a = QnxVirtio.answerEffect scripts w a := by
  rcases hflow.answerEffect ha with ⟨p, ptr, hp, hptr, _, heffect⟩
  rw [heffect]
  rcases h.published with ⟨new, hnew⟩
  have hlt := (List.getElem?_eq_some_iff.mp hp).1
  unfold QnxVirtio.answerEffect
  rw [← hnew, List.getElem?_append_left hlt, hp, Option.bind_some, hptr]
  rfl

theorem GpioInv.completed (h : GpioInv mode scripts w gs fl) (hcalm : mode.calm = true)
    (hquiet : mode.quiet = true) {r : ContextPtr × GpioResult}
    (hr : r ∈ completedCalls w.returns) :
    { id := r.1, op := callOf scripts r.1, out := r.2 } ∈
      w.answers.filterMap (answerEffect scripts w) := by
  rcases List.mem_filterMap.mp hr with ⟨ret, hret, hsome⟩
  split at hsome
  · rename_i hwaited
    cases hsome
    have hreturn := (h.context hcalm).returns ret hret
    rcases hreturn.routed hquiet hwaited with ⟨pos, p, a, hp, hcontext, ha, hpos, hresult⟩
    refine List.mem_filterMap.mpr ⟨a, ha, ?_⟩
    unfold answerEffect
    rw [hpos, hp, Option.bind_some, hcontext, hresult, hreturn.call]
    rfl
  · cases hsome

theorem Chronicle.step (h : Chronicle scripts w log) (hinv : GpioInv mode scripts w gs fl)
    (hinv' : GpioInv mode scripts w' gs' fl') (hcalm : mode.calm = true)
    (hquiet : mode.quiet = true) (hlengthens : Lengthens w w') :
    Chronicle scripts w' (log ++ gpioEvents scripts w w') := by
  rcases hlengthens.published with ⟨published, hpublished⟩
  rcases hlengthens.answers with ⟨answers, hanswers⟩
  rcases hlengthens.returns with ⟨returns, hreturns⟩
  have hevents : gpioEvents scripts w w' = callBatch (submittedCalls scripts published)
      (answers.filterMap (answerEffect scripts w')) (completedCalls returns) := by
    unfold gpioEvents
    rw [← hpublished, ← hanswers, ← hreturns, List.drop_left, List.drop_left,
      List.drop_left]
  have hanswered : effects log ++ answers.filterMap (answerEffect scripts w') =
      w'.answers.filterMap (answerEffect scripts w') := by
    rw [h.answered, ← hanswers, List.filterMap_append]
    exact congrArg (· ++ _)
      (List.filterMap_congr fun a ha => (hlengthens.answerEffect hinv.flow ha).symm)
  have hinvoked : forall ptr call,
      CallEvent.invoked ptr call ∈ log ∨ (ptr, call) ∈ submittedCalls scripts published <->
        (ptr, call) ∈ submittedCalls scripts w'.queue.published := by
    intro ptr call
    rw [← hpublished, submittedCalls_append, List.mem_append, h.invoked]
  have hcalls := (hinv'.context hcalm).nodup_contexts
  rw [← hpublished, List.filterMap_append, List.nodup_append] at hcalls
  rw [hevents]
  constructor
  · apply h.placed.batch
    · rw [submittedCalls_ids]
      exact hcalls.2.1
    · intro id hid op hmem
      rw [submittedCalls_ids] at hid
      rcases mem_submittedCalls_iff.mp ((h.invoked id op).mp hmem) with
        ⟨_, p, hp, hcontext⟩
      exact hcalls.2.2 id (List.mem_filterMap.mpr ⟨p, hp, hcontext⟩) id hid rfl
    · rw [hanswered]
      exact hinv'.nodup_answers hcalm
    · intro c hc
      rcases List.mem_filterMap.mp hc with ⟨a, ha, hsome⟩
      have hmem : a ∈ w'.answers := hanswers ▸ List.mem_append_right _ ha
      rcases hinv'.flow.answerEffect hmem with ⟨p, ptr, hp, hcontext, _, heffect⟩
      cases heffect.symm.trans hsome
      exact (hinvoked _ _).mpr (mem_submittedCalls_iff.mpr
        ⟨rfl, p, List.mem_of_getElem? hp, hcontext⟩)
    · intro r hr
      have hmem : r ∈ completedCalls w'.returns := by
        rw [← hreturns, completedCalls, List.filterMap_append]
        exact List.mem_append_right _ hr
      rw [hanswered]
      exact ⟨_, hinv'.completed hcalm hquiet hmem⟩
  · intro ptr call
    rw [List.mem_append, invoked_mem_callBatch_iff]
    exact hinvoked ptr call
  · rw [effects_append, effects_callBatch]
    exact hanswered

end Records

theorem Chronicle.initial (scripts : Nat -> Nat -> GpioCall) (obj : VirtqObject)
    (mem : Memory) : Chronicle scripts (obj.gpioSystem mem) [] where
  placed := Placed.nil
  invoked := by
    intro ptr call
    constructor
    · intro h
      cases h
    · intro h
      cases h
  answered := rfl

theorem GpioTraced.chronicle {transport : Transport} {config : VirtioGpioConfig}
    {scripts : Nat -> Nat -> GpioCall} {size : Nat} {legacy : Bool} {h h' : Host}
    {rc : Rc} {obj : VirtqObject} {w : GpioSystem} {log : List GpioEvent}
    (hsize : exists k, size = 2 ^ k)
    (hcreate : Prog.Runs (fun _ => True) h (virtqCreate size legacy) (rc, some obj) h')
    (htraced : GpioTraced uninterruptedRuns transport config obj h'.mem scripts w log) :
    Chronicle scripts w log := by
  rcases htraced with ⟨c, hc, rfl⟩
  refine hc.invariant (M := Lengthens) (P := fun w log => Chronicle scripts w log)
    Lengthens.refl (Lengthens.thread transport config scripts)
    (fun _ _ _ => Lengthens.device) (Chronicle.initial scripts obj h'.mem) ?_
  intro c c' log hreach hreach' hlengthens hchronicle
  have hw : GpioReachable uninterruptedRuns transport config obj h'.mem scripts c.state :=
    ⟨c, hreach, rfl⟩
  have hw' : GpioReachable uninterruptedRuns transport config obj h'.mem scripts c'.state :=
    ⟨c', hreach', rfl⟩
  rcases hw.inv hsize hcreate with ⟨gs, fl, hinv⟩
  rcases hw'.inv hsize hcreate with ⟨gs', fl', hinv'⟩
  exact hchronicle.step hinv hinv' rfl rfl hlengthens

/-!
## One call at a time
-/

namespace GpioCall

/-- The line that a call is about. -/
def line : GpioCall -> UInt16
  | setValue gpio _ => gpio
  | getValue gpio => gpio
  | getDirection gpio => gpio
  | setDirection gpio _ => gpio

/-- The lines after the call. -/
def change (s : GpioLines) : GpioCall -> GpioLines
  | setValue gpio value => { s with value := Function.update s.value gpio.toNat value }
  | getValue _ => s
  | getDirection _ => s
  | setDirection gpio direction =>
      { s with direction := Function.update s.direction gpio.toNat direction }

/-- What the call stores for its caller. -/
def report (s : GpioLines) : GpioCall -> Option UInt8
  | setValue _ _ => none
  | getValue gpio => some (s.value gpio.toNat)
  | getDirection gpio => some (s.direction gpio.toNat)
  | setDirection _ _ => none

theorem apply_request (s : GpioLines) (call : GpioCall) :
    s.apply call.request = call.change s := by
  cases call with
  | setValue gpio value =>
      simp [GpioLines.apply, request, change, VIRTIO_GPIO_MSG_SET_VALUE,
        VIRTIO_GPIO_MSG_SET_DIRECTION]
  | getValue gpio => rfl
  | getDirection gpio => rfl
  | setDirection gpio direction =>
      simp [GpioLines.apply, request, change]

theorem request_gpio (call : GpioCall) : call.request.gpio = call.line := by
  cases call with
  | setValue gpio value => rfl
  | getValue gpio => rfl
  | getDirection gpio => rfl
  | setDirection gpio direction => rfl

theorem response_request (s : GpioLines) (call : GpioCall) :
    (if call.reads then some (s.response call.request) else none) = call.report s := by
  cases call with
  | setValue gpio value => rfl
  | getValue gpio => rfl
  | getDirection gpio => rfl
  | setDirection gpio direction => rfl

end GpioCall

/-- A call on the lines: granted, it does what it says; refused, it fails and changes
nothing, and a call that reads has stored a value of no meaning. -/
inductive LineCall (ngpio : UInt16) (s : GpioLines) (call : GpioCall) :
    GpioResult -> GpioLines -> Prop
  | granted : call.line < ngpio ->
      (forall gpio direction, call = .setDirection gpio direction ->
        direction ∈ [VIRTIO_GPIO_DIRECTION_NONE, VIRTIO_GPIO_DIRECTION_OUT,
          VIRTIO_GPIO_DIRECTION_IN]) ->
      LineCall ngpio s call { rc := .EOK, value := call.report s, waited := true }
        (call.change s)
  | refused (result : GpioResult) : result.rc = Rc.EIO ->
      (result.value.isSome <-> call.reads = true) -> result.waited = true ->
      LineCall ngpio s call result s

theorem GpioCall.lineCall (call : GpioCall) {ngpio : UInt16} {s : GpioLines} {a : GpioAnswer}
    (hrequest : a.request = call.request)
    (hgrants : a.status = VIRTIO_GPIO_STATUS_OK -> s.Grants ngpio a) :
    LineCall ngpio s call (call.resultOf a) (s.afterAnswer a) := by
  unfold GpioLines.afterAnswer
  by_cases hstatus : a.status = VIRTIO_GPIO_STATUS_OK
  · rw [if_pos hstatus, hrequest, call.apply_request]
    have hgranted := hgrants hstatus
    have hresult : call.resultOf a =
        { rc := .EOK, value := call.report s, waited := true } := by
      rw [← call.response_request, ← hrequest, ← hgranted.response]
      simp only [resultOf, if_pos hstatus]
    rw [hresult]
    refine LineCall.granted ?_ ?_
    · have hline := hgranted.line
      rwa [hrequest, call.request_gpio] at hline
    · intro gpio direction hcall
      have hdirection := hgranted.direction
      rw [hrequest, hcall] at hdirection
      have hvalid := hdirection rfl
      simpa [request] using hvalid
  · rw [if_neg hstatus]
    refine LineCall.refused _ ?_ ?_ rfl
    · simp only [resultOf, if_neg hstatus]
    · cases call with
      | setValue gpio value => simp [resultOf, reads]
      | getValue gpio => simp [resultOf, reads]
      | getDirection gpio => simp [resultOf, reads]
      | setDirection gpio direction => simp [resultOf, reads]

/-- The answers that a conforming device gives are those of calls made one after the
other. -/
theorem sequentialRun_of_conforming {scripts : Nat -> Nat -> GpioCall} {w : GpioSystem}
    {fl : Nat -> Holding} (hflow : FlowInv scripts w fl) {ngpio : UInt16} {s : GpioLines}
    {answers : List GpioAnswer} (hanswers : answers <+: w.answers)
    (hconform : Conforming ngpio s answers) :
    SequentialRun (LineCall ngpio) s (answers.filterMap (answerEffect scripts w))
      (s.after answers) := by
  induction answers using List.reverseRecOn with
  | nil => rfl
  | append_singleton answers a ih =>
      rcases conforming_concat_iff.mp hconform with ⟨hbefore, hgrants⟩
      have hmem : a ∈ w.answers := hanswers.subset (by simp)
      rcases hflow.answerEffect hmem with ⟨p, ptr, _, _, hrequest, heffect⟩
      rw [List.filterMap_append, List.filterMap_cons_some heffect, List.filterMap_nil,
        GpioLines.after_concat]
      refine (ih ((List.prefix_append _ _).trans hanswers) hbefore).concat ?_
      exact GpioCall.lineCall _ hrequest hgrants

/-- Over a conforming device the calls of all clients take effect one after the other, in
an order that keeps every call that returned before those submitted later, and the lines
end up as that order leaves them. -/
theorem gpio_linearizable {transport : Transport} {config : VirtioGpioConfig}
    {scripts : Nat -> Nat -> GpioCall} {size : Nat} {legacy : Bool} {h h' : Host}
    {rc : Rc} {obj : VirtqObject} {w : GpioSystem} {log : List GpioEvent}
    (hsize : exists k, size = 2 ^ k)
    (hcreate : Prog.Runs (fun _ => True) h (virtqCreate size legacy) (rc, some obj) h')
    (htraced : GpioTraced uninterruptedRuns transport config obj h'.mem scripts w log)
    {ngpio : UInt16} {s : GpioLines} (hconform : Conforming ngpio s w.answers) :
    exists order, Linearizes (LineCall ngpio) s (history log) order ∧
      SequentialRun (LineCall ngpio) s order (s.after w.answers) := by
  have hchronicle := htraced.chronicle hsize hcreate
  rcases htraced with ⟨c, hc, rfl⟩
  have hreach : GpioReachable uninterruptedRuns transport config obj h'.mem scripts c.state :=
    ⟨c, hc.reachable, rfl⟩
  rcases hreach.inv hsize hcreate with ⟨gs, fl, hinv⟩
  have hlegal := sequentialRun_of_conforming hinv.flow (List.prefix_refl _) hconform
  rw [← hchronicle.answered] at hlegal
  exact ⟨Foundation.effects log, hchronicle.placed.linearizes hlegal, hlegal⟩

/-- Client 0 sets its line and returns. -/
def grantedMoves : List GpioMove :=
  submitMoves ++ [.env .take, .env (.answer 0 0 0), .env (.store 0 2), .env .bump,
    .env .raiseVirtq] ++ interruptMoves 44 ++ List.replicate 4 (.thread (.client 0) {})

/-- What the device answered in that run. -/
def grantedAnswer : GpioAnswer where
  pos := 0
  request := (GpioCall.setValue 3 1).request
  status := 0
  value := 0

theorem conforming_granted (s : GpioLines) : Conforming 8 s [grantedAnswer] :=
  conforming_singleton
    { line := by decide
      direction := fun htype => absurd htype (by decide)
      response := rfl }

/-- All lines unused and low. -/
def linesReset : GpioLines where
  direction := fun _ => VIRTIO_GPIO_DIRECTION_NONE
  value := fun _ => 0

/-- The call of client 0 took effect. -/
theorem gpio_linearizable_two : exists w log order,
    GpioTraced uninterruptedRuns .mmio configEight queueTwo createdTwo.2.mem setLineScripts
      w log ∧
    w.returns.map (fun r => r.result.waited) = [true] ∧
    Linearizes (LineCall 8) linesReset (history log) order ∧
    SequentialRun (LineCall 8) linesReset order (linesReset.after [grantedAnswer]) := by
  rcases exists_run grantedMoves
    (P := fun w => w.returns.map (fun r => r.result.waited) == [true] &&
      decide (w.answers = [grantedAnswer])) (by decide +kernel) with ⟨c, hrun, hmet⟩
  rw [Bool.and_eq_true] at hmet
  rcases reachable_of_steady uninterruptedRuns (by decide) hrun with ⟨c', hc', heq⟩
  rcases Pool.Traced.of_reachable (gpioEvents setLineScripts) hc' with ⟨log, htraced⟩
  have hanswers : c'.state.answers = [grantedAnswer] := heq ▸ of_decide_eq_true hmet.2
  have hconform : Conforming 8 linesReset c'.state.answers :=
    hanswers ▸ conforming_granted linesReset
  rcases gpio_linearizable ⟨1, rfl⟩ queueTwo_created ⟨c', htraced, rfl⟩ hconform with
    ⟨order, hlinearizes, hfinal⟩
  exact ⟨c'.state, log, order, ⟨c', htraced, rfl⟩, heq ▸ beq_iff_eq.mp hmet.1, hlinearizes,
    hanswers ▸ hfinal⟩

end QnxVirtio
