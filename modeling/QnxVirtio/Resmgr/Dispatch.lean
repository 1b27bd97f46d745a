import QnxVirtio.Gpio.ChainRuns
import QnxVirtio.Resmgr.LineInfo
import QnxVirtio.Resmgr.LineMap

/-!
# The dispatch loop refines the map

While the dispatch thread serves a request, every other chain is answered.  So the device
changes its lines for this request only, and what it stores is the map again when the
operation returns.
-/

namespace QnxVirtio

open Foundation

variable {ngpio : UInt16} {index : UInt64} {ops : Nat -> LineOp ngpio} {bits₀ : LineBits}
  {s : GpioLines} {w w' : GpioSystem}

/-- The calls of the dispatch thread. -/
def LineOp.scripts (ops : Nat -> LineOp ngpio) (_ k : Nat) : GpioCall :=
  (ops k).call

/-!
## The invariant
-/

/-- How far the device is with the request of call `n`. -/
inductive Progress (ops : Nat -> LineOp ngpio) (s : GpioLines) (w : GpioSystem) (n : Nat)
    (bits : LineBits) : Prop
  | pending : (forall a, a ∈ w.answers -> ¬ w.Answers ⟨0, n⟩ a) ->
      (s.after w.answers).Holds ngpio bits -> Progress ops s w n bits
  | refused {a : GpioAnswer} : a ∈ w.answers -> w.Answers ⟨0, n⟩ a ->
      a.status ≠ VIRTIO_GPIO_STATUS_OK -> (s.after w.answers).Holds ngpio bits ->
      Progress ops s w n bits
  | granted {a : GpioAnswer} : a ∈ w.answers -> w.Answers ⟨0, n⟩ a ->
      a.status = VIRTIO_GPIO_STATUS_OK -> (ops n).Reports bits a.value ->
      (s.after w.answers).Holds ngpio ((ops n).store bits) -> Progress ops s w n bits

/-- The dispatch thread serves its `n`-th request. -/
structure Dispatching (index : UInt64) (ops : Nat -> LineOp ngpio) (bits₀ : LineBits)
    (s : GpioLines) (w : GpioSystem) (n : Nat) : Prop where
  served : w.returns.length = n
  frames : forall ptr, w.contexts ptr ≠ none -> ptr = ⟨0, n⟩
  /-- Nothing but the request being served is unanswered. -/
  answered : forall (pos : Nat) (p : Published), w.queue.published[pos]? = some p ->
    p.context ≠ some ⟨0, n⟩ -> pos ∈ w.answers.map GpioAnswer.pos
  refines : Conforming ngpio s w.answers -> exists m bits,
    LineRun ops (Resmgr.initial ngpio index) bits₀ w.returns m bits ∧
      Progress ops s w n bits

/-- Each thread is verified next to the request that it is at. -/
abbrev dispatchContract (index : UInt64) (ops : Nat -> LineOp ngpio) (bits₀ : LineBits)
    (s : GpioLines) :
    Contract GpioThread Env GpioDeviceMove GpioSystem (GpioGhost × Nat) :=
  (gpioContract uninterruptedRuns (LineOp.scripts ops)).beside fun w ns =>
    Dispatching index ops bits₀ s w (ns (.client 0))

theorem GpioInv.answers_unique {mode : GpioMode} {scripts : Nat -> Nat -> GpioCall}
    {gs : GpioThread -> GpioGhost} {fl : Nat -> Holding} (h : GpioInv mode scripts w gs fl)
    (hcalm : mode.calm = true) {ptr : ContextPtr} {a a' : GpioAnswer} (ha : a ∈ w.answers)
    (ha' : a' ∈ w.answers) (hanswers : w.Answers ptr a) (hanswers' : w.Answers ptr a') :
    a = a' := by
  rcases Option.bind_eq_some_iff.mp hanswers with ⟨p, hp, hcontext⟩
  rcases Option.bind_eq_some_iff.mp hanswers' with ⟨p', hp', hcontext'⟩
  have hpos := (h.context hcalm).distinct _ _ p p' hp hp' (hcontext.trans hcontext'.symm)
  exact List.inj_on_of_nodup_map h.flow.answersNodup ha ha' hpos

/-!
## Steps that the device does not see
-/

/-- Nothing is answered and nothing returns; chains may be published. -/
structure Quiet (w w' : GpioSystem) : Prop where
  answers : w'.answers = w.answers
  returns : w'.returns = w.returns
  published : w.queue.Grows w'.queue
  frames : forall ptr, w'.contexts ptr ≠ none -> w.contexts ptr ≠ none

namespace Quiet

theorem refl (w : GpioSystem) : Quiet w w :=
  ⟨rfl, rfl, Queue.Grows.refl _, fun _ h => h⟩

theorem changeContext (w : GpioSystem) (ptr : ContextPtr)
    (f : VirtioGpioContext -> VirtioGpioContext) : Quiet w (w.changeContext ptr f) := by
  unfold GpioSystem.changeContext
  cases hc : w.contexts ptr with
  | none => exact ⟨rfl, rfl, Queue.Grows.refl _, fun _ h => h⟩
  | some c =>
      refine ⟨rfl, rfl, Queue.Grows.refl _, fun ptr' h => ?_⟩
      by_cases hptr : ptr' = ptr
      · rw [hptr, hc]
        exact Option.some_ne_none c
      · exact fun hnone => h ((Function.update_of_ne hptr ..).trans hnone)

theorem bears : Bears Quiet where
  refl := refl
  queue := fun _ _ hgrows => ⟨rfl, rfl, hgrows, fun _ h => h⟩
  context := changeContext
  post := fun w ptr f =>
    have h := changeContext w ptr f
    ⟨h.answers, h.returns, h.published, h.frames⟩

theorem getElem? (h : Quiet w w') {pos : Nat} (hlt : pos < w.queue.published.length) :
    w'.queue.published[pos]? = w.queue.published[pos]? := by
  rcases h.published with ⟨new, hnew⟩
  rw [← hnew, List.getElem?_append_left hlt]

theorem answers_iff (h : Quiet w w') {ptr : ContextPtr} {a : GpioAnswer}
    (hlt : a.pos < w.queue.published.length) : w'.Answers ptr a <-> w.Answers ptr a := by
  unfold GpioSystem.Answers
  rw [h.getElem? hlt]

end Quiet

section Steps

variable {gs gs' : GpioThread -> GpioGhost} {fl fl' : Nat -> Holding} {n : Nat}

theorem GpioInv.answer_lt {mode : GpioMode} {scripts : Nat -> Nat -> GpioCall}
    (h : GpioInv mode scripts w gs fl) {a : GpioAnswer} (ha : a ∈ w.answers) :
    a.pos < w.queue.published.length :=
  Nat.lt_of_lt_of_le (h.flow.answered a ha).1 h.flow.ring.consumed_le

theorem Dispatching.context_of_new (h : Dispatching index ops bits₀ s w n)
    (hinv : GpioInv uninterruptedRuns (LineOp.scripts ops) w gs fl)
    (hinv' : GpioInv uninterruptedRuns (LineOp.scripts ops) w' gs' fl')
    (hquiet : Quiet w w') {pos : Nat} {p : Published}
    (hp : w'.queue.published[pos]? = some p) (hnew : w.queue.published.length <= pos) :
    p.context = some ⟨0, n⟩ := by
  have hctx := hinv'.context rfl
  rcases hinv'.flow.published p (List.mem_of_getElem? hp) with ⟨ptr, hptr⟩
  have hnot : ptr ∉ w'.delivered := by
    intro hmem
    rcases hinv'.phase.published_of_delivered hmem with
      ⟨i, pos', p', _, hpos', hp', hptr'⟩
    have heq := hctx.distinct pos' pos p' p hp' hp (hptr'.trans hptr.symm)
    rcases List.mem_map.mp (List.mem_of_getElem? hpos') with ⟨e, he, hepos⟩
    have hanswered := hinv'.flow.produced e he
    rw [hquiet.answers, hepos, heq] at hanswered
    rcases List.mem_map.mp hanswered with ⟨a, ha, hapos⟩
    have hlt := hinv.answer_lt ha
    rw [hapos] at hlt
    exact absurd hlt (Nat.not_lt.mpr hnew)
  have hsent := hctx.live pos p ptr hp hptr hnot
  have hstage := hctx.stages ptr.thread
  rw [hsent] at hstage
  rcases hstage.2 with ⟨c, _, hc, _⟩
  have hframe : w'.contexts ptr ≠ none := by
    rw [show w'.contexts ptr = some c from hc]
    exact Option.some_ne_none c
  rw [hptr, h.frames ptr (hquiet.frames ptr hframe)]

theorem Progress.congr {bits : LineBits} (h : Progress ops s w n bits)
    (hanswers : w'.answers = w.answers) (hiff : forall a, a ∈ w.answers ->
      (w'.Answers ⟨0, n⟩ a <-> w.Answers ⟨0, n⟩ a)) : Progress ops s w' n bits := by
  cases h with
  | pending hnone hholds =>
      rw [← hanswers] at hholds
      refine Progress.pending (fun a ha => ?_) hholds
      rw [hanswers] at ha
      rw [hiff a ha]
      exact hnone a ha
  | refused ha hanswer hstatus hholds =>
      have hanswer' := (hiff _ ha).mpr hanswer
      rw [← hanswers] at ha hholds
      exact Progress.refused ha hanswer' hstatus hholds
  | granted ha hanswer hstatus hreports hholds =>
      have hanswer' := (hiff _ ha).mpr hanswer
      rw [← hanswers] at ha hholds
      exact Progress.granted ha hanswer' hstatus hreports hholds

theorem Dispatching.quiet (h : Dispatching index ops bits₀ s w n)
    (hinv : GpioInv uninterruptedRuns (LineOp.scripts ops) w gs fl)
    (hinv' : GpioInv uninterruptedRuns (LineOp.scripts ops) w' gs' fl')
    (hquiet : Quiet w w') : Dispatching index ops bits₀ s w' n where
  served := by
    rw [hquiet.returns]
    exact h.served
  frames := fun ptr hframe => h.frames ptr (hquiet.frames ptr hframe)
  answered := by
    intro pos p hp hne
    rw [hquiet.answers]
    rcases Nat.lt_or_ge pos w.queue.published.length with hlt | hge
    · rw [hquiet.getElem? hlt] at hp
      exact h.answered pos p hp hne
    · exact absurd (h.context_of_new hinv hinv' hquiet hp hge) hne
  refines := by
    intro hconform
    rw [hquiet.answers] at hconform
    rcases h.refines hconform with ⟨m, bits, hrun, hprogress⟩
    rw [← hquiet.returns] at hrun
    exact ⟨m, bits, hrun, hprogress.congr hquiet.answers
      fun a ha => hquiet.answers_iff (hinv.answer_lt ha)⟩

/-!
## The device answers
-/

theorem Progress.answer {bits : LineBits} {a : GpioAnswer} (h : Progress ops s w n bits)
    (hanswers : w'.answers = w.answers ++ [a]) (hnew : w'.Answers ⟨0, n⟩ a)
    (hfirst : forall a', a' ∈ w.answers -> ¬ w.Answers ⟨0, n⟩ a')
    (hrequest : a.request = (ops n).call.request)
    (hconform : Conforming ngpio s w'.answers) : Progress ops s w' n bits := by
  rw [hanswers] at hconform
  have hgrants := (conforming_concat_iff.mp hconform).2
  have hmem : a ∈ w'.answers := by
    rw [hanswers]
    exact List.mem_append_right _ (List.mem_singleton_self a)
  have hafter : s.after w'.answers = (s.after w.answers).afterAnswer a := by
    rw [hanswers, GpioLines.after_concat]
  cases h with
  | refused ha hanswer => exact absurd hanswer (hfirst _ ha)
  | granted ha hanswer => exact absurd hanswer (hfirst _ ha)
  | pending _ hholds =>
      by_cases hstatus : a.status = VIRTIO_GPIO_STATUS_OK
      · rcases hholds.granted (hgrants hstatus) hrequest with ⟨hstored, hreports⟩
        refine Progress.granted hmem hnew hstatus hreports ?_
        rw [hafter, GpioLines.afterAnswer, if_pos hstatus]
        exact hstored
      · refine Progress.refused hmem hnew hstatus ?_
        rw [hafter, GpioLines.afterAnswer, if_neg hstatus]
        exact hholds

theorem Dispatching.answer (h : Dispatching index ops bits₀ s w n)
    (hinv : GpioInv uninterruptedRuns (LineOp.scripts ops) w gs fl)
    (hinv' : GpioInv uninterruptedRuns (LineOp.scripts ops) w' gs fl') {pos : Nat}
    {status value : UInt8} (hanswer : w.answerRequest pos status value = some w') :
    Dispatching index ops bits₀ s w' n := by
  rcases GpioSystem.answerRequest_cases hanswer with ⟨head, hhead, hnew, rfl⟩
  have hlt : pos < w.queue.published.length := Nat.lt_of_lt_of_le
    (List.getElem?_eq_some_iff.mp hhead).1 hinv.flow.ring.consumed_le
  have hp := List.getElem?_eq_getElem hlt
  -- every other chain has its answer
  have hcontext : w.queue.published[pos].context = some ⟨0, n⟩ := by
    by_contra hne
    exact hnew (h.answered pos _ hp hne)
  constructor
  · exact h.served
  · exact h.frames
  · intro pos' p' hp' hne
    rw [List.map_append]
    exact List.mem_append_left _ (h.answered pos' p' hp' hne)
  · intro hconform
    rcases h.refines (conforming_concat_iff.mp hconform).1 with ⟨m, bits, hrun, hprogress⟩
    refine ⟨m, bits, hrun, hprogress.answer rfl ?_ ?_ ?_ hconform⟩
    · exact Option.bind_eq_some_iff.mpr ⟨_, hp, hcontext⟩
    · intro a' ha' hanswers'
      rcases Option.bind_eq_some_iff.mp hanswers' with ⟨p', hp', hcontext'⟩
      have heq := (hinv.context rfl).distinct _ _ _ _ hp' hp (hcontext'.trans hcontext.symm)
      exact hnew (heq ▸ List.mem_map_of_mem ha')
    · rcases (hinv'.flow.answered _ (List.mem_append_right _ (List.mem_singleton_self _))).2
        with ⟨p', ptr, hp', hptr, hrequest⟩
      have hown : some ptr = some ⟨0, n⟩ := by
        rw [← hptr, ← hcontext]
        exact congrArg Published.context (Option.some.inj (hp'.symm.trans hp))
      rw [hrequest, Option.some.inj hown]
      rfl

/-!
## Frames
-/

theorem Dispatching.enter (h : Dispatching index ops bits₀ s w n)
    (c : VirtioGpioContext) :
    Dispatching index ops bits₀ s (w.setContext ⟨0, n⟩ (some c)) n where
  served := h.served
  frames := by
    intro ptr hframe
    by_cases hptr : ptr = ⟨0, n⟩
    · exact hptr
    · exact h.frames ptr fun hnone => hframe ((Function.update_of_ne hptr ..).trans hnone)
  answered := h.answered
  refines := by
    intro hconform
    rcases h.refines hconform with ⟨m, bits, hrun, hprogress⟩
    exact ⟨m, bits, hrun, hprogress.congr rfl fun _ _ => Iff.rfl⟩

theorem Progress.reply {bits : LineBits} {result : GpioResult}
    (h : Progress ops s w n bits)
    (hinv : GpioInv uninterruptedRuns (LineOp.scripts ops) w gs fl)
    (hfinished : Finished uninterruptedRuns (ops n).call n result (stages gs 0))
    (hawaited : result.Awaited) (m : Resmgr ngpio) : exists bits',
      LineStep (ops n) bits ((ops n).serve m result).1.reply bits' ∧
        (s.after w.answers).Holds ngpio bits' := by
  have hstage := (hinv.context rfl).stages 0
  rcases hfinished with ⟨c, hcalling, hwaited⟩ | ⟨pos, a, hwoken, rfl⟩
  · -- nothing was published for this call
    rw [hcalling] at hstage
    have hnone : forall a, a ∈ w.answers -> ¬ w.Answers ⟨0, n⟩ a := by
      intro a _ hanswers
      rcases Option.bind_eq_some_iff.mp hanswers with ⟨p, hp, hcontext⟩
      exact Nat.lt_irrefl _ (hstage.1 p (List.mem_of_getElem? hp) n hcontext)
    have hrc : result.rc ≠ .EOK := by
      intro hok
      have hwaits := hawaited hok
      rw [hwaited rfl] at hwaits
      cases hwaits
    refine ⟨bits, ?_, ?_⟩
    · rw [LineOp.serve_failed hrc]
      exact LineStep.failed hrc
    · cases h with
      | pending _ hholds => exact hholds
      | refused ha hanswer => exact absurd hanswer (hnone _ ha)
      | granted ha hanswer => exact absurd hanswer (hnone _ ha)
  · rw [hwoken] at hstage
    rcases hstage.2 with ⟨_, p, _, hp, hcontext, _, ha, hpos, _⟩
    have hanswers : w.Answers ⟨0, n⟩ a := by
      rw [← hpos] at hp
      exact Option.bind_eq_some_iff.mpr ⟨p, hp, hcontext⟩
    cases h with
    | pending hnone => exact absurd hanswers (hnone a ha)
    | refused ha' hanswers' hstatus hholds =>
        cases hinv.answers_unique rfl ha ha' hanswers hanswers'
        have hrc : ((ops n).call.resultOf a).rc = Rc.EIO := if_neg hstatus
        refine ⟨bits, ?_, hholds⟩
        have hfailed : ((ops n).call.resultOf a).rc ≠ .EOK := by
          rw [hrc]
          decide
        rw [LineOp.serve_failed hfailed]
        exact LineStep.failed hfailed
    | granted ha' hanswers' hstatus hreports hholds =>
        cases hinv.answers_unique rfl ha ha' hanswers hanswers'
        exact ⟨_, LineOp.serve_succeeded hstatus hreports m, hholds⟩

theorem Dispatching.leave {result : GpioResult} (h : Dispatching index ops bits₀ s w n)
    (hinv : GpioInv uninterruptedRuns (LineOp.scripts ops) w gs fl)
    (hfinished : Finished uninterruptedRuns (ops n).call n result (stages gs 0))
    (hawaited : result.Awaited)
    (hw' : w' = { w.setContext ⟨0, n⟩ none with
      returns := w.returns ++
        [{ context := ⟨0, n⟩, call := (ops n).call, result := result }] }) :
    Dispatching index ops bits₀ s w' (n + 1) := by
  subst hw'
  have hctx := hinv.context rfl
  have hbefore : PublishedBefore w 0 (n + 1) := hfinished.publishedBefore (hctx.stages 0)
  constructor
  · rw [List.length_append, h.served]
    rfl
  · intro ptr hframe
    by_cases hptr : ptr = ⟨0, n⟩
    · rw [hptr] at hframe
      exact absurd (Function.update_self ..) hframe
    · have hold := h.frames ptr fun hnone =>
        hframe ((Function.update_of_ne hptr ..).trans hnone)
      exact absurd hold hptr
  · intro pos p hp _
    by_cases hown : p.context = some ⟨0, n⟩
    · have hstage := hctx.stages 0
      rcases hfinished with ⟨c, hcalling, _⟩ | ⟨pos', a, hwoken, _⟩
      · rw [hcalling] at hstage
        exact absurd (hstage.1 p (List.mem_of_getElem? hp) n hown) (Nat.lt_irrefl _)
      · rw [hwoken] at hstage
        rcases hstage.2 with ⟨_, p', _, hp', hcontext', _, ha, hpos, _⟩
        have heq := hctx.distinct pos pos' p p' hp hp' (hown.trans hcontext'.symm)
        rw [heq, ← hpos]
        exact List.mem_map_of_mem ha
    · exact h.answered pos p hp hown
  · intro hconform
    rcases h.refines hconform with ⟨m, bits, hrun, hprogress⟩
    rcases hprogress.reply hinv hfinished hawaited m with ⟨bits', hstep, hholds⟩
    have hserved := h.served
    subst hserved
    refine ⟨_, bits', LineRun.next hrun ?_ hstep, Progress.pending ?_ hholds⟩
    · exact LineOp.serve_calls _ _ _
    · intro a _ hanswers
      rcases Option.bind_eq_some_iff.mp hanswers with ⟨p, hp, hcontext⟩
      exact Nat.lt_irrefl _ (hbefore p (List.mem_of_getElem? hp) _ hcontext)

end Steps

/-!
## Threads
-/

theorem quiet_triple {α : Type} {t : GpioThread} {g : GpioGhost} {n : Nat}
    {p : Prog Env GpioSystem α} {Q : α -> GpioGhost -> Prop} (hp : p.Within Quiet)
    (h : (gpioContract uninterruptedRuns (LineOp.scripts ops)).Triple t g p Q) :
    (dispatchContract index ops bits₀ s).Triple t (g, n) p fun a y =>
      Q a y.1 ∧ y.2 = n := by
  refine h.beside ?_ hp n
  rintro w w' gs gs' ns hquiet ⟨fl, hinv⟩ ⟨fl', hinv'⟩ hdispatching
  exact hdispatching.quiet hinv hinv' hquiet

section Round

variable {config : VirtioGpioConfig} {n : Nat} {g : GpioGhost}

theorem dispatchEnter_triple (hstage : g.stage = .idle n) :
    (dispatchContract index ops bits₀ s).Triple (.client 0) (g, n) (enterFrame ⟨0, n⟩)
      fun _ y => (y.1.holding = g.holding ∧ exists c, y.1.stage = .calling n c) ∧
        y.2 = n := by
  have henter : (gpioContract uninterruptedRuns (LineOp.scripts ops)).Triple (.client 0) g
      (enterFrame ⟨0, n⟩) fun _ g' => g'.holding = g.holding ∧
        exists c, g'.stage = .calling n c := enterFrame_triple hstage
  apply henter.besideAction
  rintro e w gs ns _ w' g' _ _ hf _ _ hn hdispatching
  cases hf
  rw [hn] at hdispatching
  rw [Function.update_self]
  exact hdispatching.enter _

theorem dispatchCall_triple {c : VirtioGpioContext} (hstage : g.stage = .calling n c)
    (hhold : g.holding = Holding.empty) :
    (dispatchContract index ops bits₀ s).Triple (.client 0) (g, n)
      ((ops n).call.run config ⟨0, n⟩) fun result y =>
        ((uninterruptedRuns.calm = true ->
            Finished uninterruptedRuns (ops n).call n result y.1.stage) ∧
          result.Awaited) ∧ y.2 = n := by
  have hrun : (gpioContract uninterruptedRuns (LineOp.scripts ops)).Triple (.client 0) g
      ((LineOp.scripts ops 0 n).run config ⟨0, n⟩) fun result g' =>
        uninterruptedRuns.calm = true ->
          Finished uninterruptedRuns (LineOp.scripts ops 0 n) n result g'.stage :=
    GpioCall.run_triple hstage hhold
  exact quiet_triple (Quiet.bears.run config (ops n).call ⟨0, n⟩)
    (hrun.yields (run_awaited config (ops n).call ⟨0, n⟩))

theorem dispatchLeave_triple {result : GpioResult}
    (hfinished : uninterruptedRuns.calm = true ->
      Finished uninterruptedRuns (ops n).call n result g.stage)
    (hawaited : result.Awaited) :
    (dispatchContract index ops bits₀ s).Triple (.client 0) (g, n)
      (leaveFrame ⟨0, n⟩ (ops n).call result) fun _ y =>
        (y.1.holding = Holding.empty ∧ y.1.stage = .idle (n + 1)) ∧ y.2 = n + 1 := by
  have hleave : (gpioContract uninterruptedRuns (LineOp.scripts ops)).Triple (.client 0) g
      (leaveFrame ⟨0, n⟩ (LineOp.scripts ops 0 n) result) fun _ g' =>
        g'.holding = Holding.empty ∧ g'.stage = .idle (n + 1) :=
    leaveFrame_triple hfinished
  apply hleave.besideAction
  rintro e w gs ns _ w' g' ⟨fl, hinv⟩ rfl hf _ _ hn hdispatching
  cases hf
  rw [hn] at hdispatching
  rw [Function.update_self]
  exact hdispatching.leave hinv (hfinished rfl) hawaited rfl

end Round

theorem dispatchLoop_triple {config : VirtioGpioConfig} :
    (dispatchContract index ops bits₀ s).Triple (.client 0) (initialGhosts (.client 0), 0)
      (gpioClient config 0 fun k => (ops k).call) fun _ _ => True := by
  apply Contract.Triple.loop (J := fun n y =>
    (y.1.holding = Holding.empty ∧ y.1.stage = .idle n) ∧ y.2 = n) (R := fun _ _ => True)
  · rintro _ ⟨g1, n⟩ ⟨⟨hhold1, hstage1⟩, rfl⟩
    apply (dispatchEnter_triple hstage1).bind
    rintro _ ⟨g2, n⟩ ⟨⟨hhold2, c, hstage2⟩, rfl⟩
    apply (dispatchCall_triple hstage2 (hhold2.trans hhold1)).bind
    rintro result ⟨g3, n⟩ ⟨⟨hfinished, hawaited⟩, rfl⟩
    apply (dispatchLeave_triple hfinished hawaited).bind
    intro _ y hidle
    exact Contract.Triple.ret hidle
  · exact fun _ _ _ => Contract.Triple.ret trivial
  · exact ⟨⟨rfl, rfl⟩, rfl⟩

theorem dispatchThread_triple (transport : Transport) (config : VirtioGpioConfig)
    (t : GpioThread) :
    (dispatchContract index ops bits₀ s).Triple t (initialGhosts t, 0)
      (dispatchThread transport config ops t) fun _ _ => True := by
  cases t with
  | client t =>
      cases t with
      | zero => exact dispatchLoop_triple
      | succ t => exact Contract.Triple.ret trivial
  | ist =>
      have hquiet : (virtioIst transport).Within Quiet := by
        refine Quiet.bears.ist ?_ ?_ transport
        · exact fun _ _ => ⟨rfl, rfl, Queue.Grows.refl _, fun _ h => h⟩
        · exact fun _ _ => ⟨rfl, rfl, Queue.Grows.refl _, fun _ h => h⟩
      exact (quiet_triple hquiet (virtioIst_triple rfl)).conseq fun _ _ _ => trivial

theorem gpioEnv_quiet {move : GpioDeviceMove} (hmove : gpioEnv move w = some w') :
    Quiet w w' ∨ exists pos status value, w.answerRequest pos status value = some w' := by
  cases move with
  | answer pos status value => exact Or.inr ⟨pos, status, value, hmove⟩
  | take =>
      rcases Option.map_eq_some_iff.mp hmove with ⟨d, _, rfl⟩
      exact Or.inl ⟨rfl, rfl, Queue.Grows.refl _, fun _ h => h⟩
  | store pos len =>
      dsimp only [gpioEnv] at hmove
      split at hmove
      · rcases Option.map_eq_some_iff.mp hmove with ⟨r, _, rfl⟩
        exact Or.inl ⟨rfl, rfl, Queue.Grows.of_eq rfl, fun _ h => h⟩
      · cases hmove
  | bump =>
      rcases Option.map_eq_some_iff.mp hmove with ⟨r, _, rfl⟩
      exact Or.inl ⟨rfl, rfl, Queue.Grows.of_eq rfl, fun _ h => h⟩
  | raiseVirtq =>
      dsimp only [gpioEnv] at hmove
      split at hmove
      · cases hmove
        exact Or.inl ⟨rfl, rfl, Queue.Grows.refl _, fun _ h => h⟩
      · cases hmove
  | raiseConfig =>
      cases hmove
      exact Or.inl ⟨rfl, rfl, Queue.Grows.refl _, fun _ h => h⟩

theorem dispatch_env {move : GpioDeviceMove} {gs : GpioThread -> GpioGhost × Nat}
    (hinv : (dispatchContract index ops bits₀ s).inv w gs)
    (hmove : gpioEnv move w = some w') : (dispatchContract index ops bits₀ s).inv w' gs := by
  rcases hinv with ⟨⟨fl, hinv⟩, hdispatching⟩
  rcases hinv.device hmove with ⟨fl', hinv'⟩
  refine ⟨⟨fl', hinv'⟩, ?_⟩
  rcases gpioEnv_quiet hmove with hquiet | ⟨pos, status, value, hanswer⟩
  · exact hdispatching.quiet hinv hinv' hquiet
  · exact hdispatching.answer hinv hinv' hanswer

/-!
## Runs
-/

theorem dispatching_fresh (obj : VirtqObject) (mem : Memory) (hstart : s.Holds ngpio bits₀) :
    Dispatching index ops bits₀ s (obj.gpioSystem mem) 0 where
  served := rfl
  frames := fun _ h => absurd rfl h
  answered := by
    intro pos p hp
    cases hp
  refines := by
    intro _
    refine ⟨_, bits₀, LineRun.start, Progress.pending ?_ hstart⟩
    intro a ha
    cases ha

theorem Dispatching.refinesBits {n : Nat} (h : Dispatching index ops bits₀ s w n)
    (hconform : Conforming ngpio s w.answers) : RefinesBits index ops bits₀ s w := by
  rcases h.refines hconform with ⟨m, bits, hrun, hprogress⟩
  refine ⟨m, bits, hrun, ?_⟩
  rw [h.served]
  cases hprogress with
  | pending _ hholds => exact Or.inl hholds
  | refused _ _ _ hholds => exact Or.inl hholds
  | granted ha hanswers hstatus _ hholds =>
      exact Or.inr ⟨⟨_, ha, hanswers, hstatus⟩, hholds⟩

/-- As long as no signal ends a wait, the dispatch loop over a conforming device is the
map. -/
theorem dispatch_refines_bits {transport : Transport} {config : VirtioGpioConfig}
    {size : Nat} {legacy : Bool} {h h' : Host} {rc : Rc} {obj : VirtqObject}
    {w : GpioSystem} (hsize : exists k, size = 2 ^ k)
    (hcreate : Prog.Runs (fun _ => True) h (virtqCreate size legacy) (rc, some obj) h')
    {ngpio : UInt16} {ops : Nat -> LineOp ngpio}
    (hreach : DispatchReachable uninterruptedRuns transport config obj h'.mem ops w)
    (index : UInt64) {bits₀ : LineBits} {s : GpioLines} (hstart : s.Holds ngpio bits₀)
    (hconform : Conforming ngpio s w.answers) : RefinesBits index ops bits₀ s w := by
  have hfresh := (virtqCreate_fresh hcreate).2
  rcases hsize with ⟨k, hk⟩
  have hpos : 0 < size := by
    rw [hk]
    exact Nat.two_pow_pos k
  have hinit := gpioInv_fresh uninterruptedRuns (LineOp.scripts ops) hfresh hpos
    (dvd_of_pow_lt hk hfresh.size_lt) h'.mem
  rcases hreach with ⟨c, hc, rfl⟩
  have hinv : (dispatchContract index ops bits₀ s).inv (obj.gpioSystem h'.mem)
      fun t => (initialGhosts t, 0) :=
    ⟨⟨_, hinit⟩, dispatching_fresh obj h'.mem hstart⟩
  have henv : forall move w gs w', (dispatchContract index ops bits₀ s).ok (.env move) w ->
      (dispatchContract index ops bits₀ s).inv w gs -> gpioEnv move w = some w' ->
      (dispatchContract index ops bits₀ s).inv w' gs :=
    fun move w gs w' _ hbefore hmove => dispatch_env hbefore hmove
  rcases Contract.invariant_of_reachable hinv (dispatchThread_triple transport config) henv
    hc with ⟨ns, _, hdispatching⟩
  exact hdispatching.refinesBits hconform

/-!
## Three requests
-/

/-- Line 3 is written low, then high, and read from then on. -/
def toggleOps : Nat -> LineOp 8
  | 0 => .write 3 (by decide) 0x30
  | 1 => .write 3 (by decide) 0x31
  | _ => .read 3 (by decide)

def poolToggle : Pool GpioThread Env GpioSystem :=
  dispatchPool .mmio configEight queueFour createdFour.2.mem toggleOps

/-- The device grants the request at `pos`, and the interrupt thread makes `n` steps. -/
def grantMoves (pos : Nat) (value : UInt8) (n : Nat) : List GpioMove :=
  [.env .take, .env (.answer pos 0 value), .env (.store pos 2), .env .bump,
    .env .raiseVirtq] ++ interruptMoves n

def returnMoves (n : Nat) : List GpioMove :=
  List.replicate n (.thread (.client 0) {})

def toggleMoves : List GpioMove :=
  submitMoves ++ grantMoves 0 0 44 ++ returnMoves 4 ++
    (submitMoves ++ grantMoves 1 0 41 ++ returnMoves 4) ++
    (submitMoves ++ grantMoves 2 1 41 ++ returnMoves 5)

/-- A signal ends the wait of the second write. -/
def interruptedMoves : List GpioMove :=
  submitMoves ++ grantMoves 0 0 44 ++ returnMoves 4 ++
    (submitMoves ++ List.replicate 3 (.thread (.client 0) { interrupted := true }) ++
      grantMoves 1 0 41) ++
    (submitMoves ++ grantMoves 2 1 41 ++ returnMoves 5)

def lowReturn : GpioReturn where
  context := ⟨0, 0⟩
  call := .setValue 3 0
  result := { rc := .EOK, value := none, waited := true }

def highReturn (rc : Rc) : GpioReturn where
  context := ⟨0, 1⟩
  call := .setValue 3 1
  result := { rc := rc, value := none, waited := true }

def readReturn : GpioReturn where
  context := ⟨0, 2⟩
  call := .getValue 3
  result := { rc := .EOK, value := some 1, waited := true }

def toggleAnswer (pos : Nat) (call : GpioCall) (value : UInt8) : GpioAnswer where
  pos := pos
  request := call.request
  status := VIRTIO_GPIO_STATUS_OK
  value := value

def toggleAnswers : List GpioAnswer :=
  [toggleAnswer 0 (.setValue 3 0) 0] ++ [toggleAnswer 1 (.setValue 3 1) 0] ++
    [toggleAnswer 2 (.getValue 3) 1]

theorem toggleAnswer_granted {s : GpioLines} {pos : Nat} {call : GpioCall} {value : UInt8}
    (hgpio : call.request.gpio < 8)
    (htype : call.request.type ≠ VIRTIO_GPIO_MSG_SET_DIRECTION)
    (hvalue : value = s.response call.request) :
    s.Grants 8 (toggleAnswer pos call value) where
  line := hgpio
  direction := fun hset => absurd hset htype
  response := hvalue

theorem toggleAnswers_conforming : Conforming 8 (linesAt 0) toggleAnswers := by
  refine conforming_concat_iff.mpr ⟨conforming_concat_iff.mpr ⟨conforming_singleton ?_,
    fun _ => ?_⟩, fun _ => ?_⟩
  · exact toggleAnswer_granted (by decide) (by decide) rfl
  · exact toggleAnswer_granted (by decide) (by decide) rfl
  · exact toggleAnswer_granted (by decide) (by decide) rfl

theorem linesAt_low : (linesAt 0).Holds 8 fun _ => false :=
  fun _ _ => rfl

theorem exists_toggle (mode : GpioMode) (rc : Rc) {moves : List GpioMove}
    (hok : forall move, move ∈ moves -> forall w, gpioOk mode move w)
    (hrun : ((poolToggle.run gpioEnv moves).any fun c => decide
      (c.state.returns = [lowReturn] ++ [highReturn rc] ++ [readReturn] ∧
        c.state.answers = toggleAnswers)) = true) :
    exists w, DispatchReachable mode .mmio configEight queueFour createdFour.2.mem toggleOps
        w ∧ w.returns = [lowReturn] ++ [highReturn rc] ++ [readReturn] ∧
          Conforming 8 (linesAt 0) w.answers := by
  rcases (Option.any_eq_true ..).mp hrun with ⟨c, hc, hstate⟩
  rcases of_decide_eq_true hstate with ⟨hreturns, hanswers⟩
  have hreach := Pool.reachable_run Pool.Reachable.refl hok hc
  refine ⟨c.state, ⟨c, hreach, rfl⟩, hreturns, ?_⟩
  rw [hanswers]
  exact toggleAnswers_conforming

/-- The line is read high after it was written low and high. -/
theorem dispatch_refines_bits_toggle : exists w : GpioSystem,
    w.returns = [lowReturn] ++ [highReturn .EOK] ++ [readReturn] ∧
      RefinesBits 0 toggleOps (fun _ => false) (linesAt 0) w := by
  have hsteady : toggleMoves.all steadyMove = true := by decide +kernel
  rcases exists_toggle uninterruptedRuns .EOK
    (fun move hmove => gpioOk_of_steady _ (List.all_eq_true.mp hsteady move hmove))
    (by decide +kernel) with ⟨w, hreach, hreturns, hconform⟩
  exact ⟨w, hreturns,
    dispatch_refines_bits ⟨2, rfl⟩ queueFour_created hreach 0 linesAt_low hconform⟩

/-- A signal ends the wait of a write, which fails.  The device stores the bit all the
same, and the next read delivers it. -/
theorem dispatch_stores_failed_write : ¬ forall w : GpioSystem,
    DispatchReachable anyRuns .mmio configEight queueFour createdFour.2.mem toggleOps w ->
      Conforming 8 (linesAt 0) w.answers ->
        RefinesBits 0 toggleOps (fun _ => false) (linesAt 0) w := by
  intro hall
  rcases exists_toggle anyRuns .minusOne (fun move _ => gpioOk_anyRuns move)
    (show (poolToggle.run gpioEnv interruptedMoves).any _ = true by decide +kernel) with
    ⟨w, hreach, hreturns, hconform⟩
  rcases hall w hreach hconform with ⟨m, bits, hrun, _⟩
  rw [hreturns] at hrun
  rcases hrun.last with ⟨m2, bits2, hrun2, hread⟩
  rcases hrun2.last with ⟨m1, bits1, hrun1, hfailed⟩
  have hlow : LineRun toggleOps (Resmgr.initial 8 0) (fun _ => false) ([] ++ [lowReturn])
    m1 bits1 := hrun1
  rcases hlow.last with ⟨m0, bits0, _, hwritten⟩
  have hbits1 := LineStep.of_written rfl hwritten
  have hbits2 := LineStep.of_failed (by decide) hfailed
  have hvalue := LineStep.of_read rfl rfl hread
  rw [hbits2, hbits1, Function.update_self] at hvalue
  exact absurd hvalue (by decide)

end QnxVirtio
