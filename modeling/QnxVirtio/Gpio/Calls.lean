import QnxVirtio.Gpio.Request

/-!
# Calls

A call of a client ends at a stage that explains its result: nothing was
published, or the answer to its own chain came back.
-/

namespace QnxVirtio

open Foundation

variable {mode : GpioMode} {scripts : Nat -> Nat -> GpioCall} {w : GpioSystem}
  {gs : GpioThread -> GpioGhost} {fl : Nat -> Holding}

/-- The stages at which a call may return this result. -/
def Finished (mode : GpioMode) (call : GpioCall) (n : Nat) (result : GpioResult)
    (s : ClientStage) : Prop :=
  (exists c, s = .calling n c ∧
      (mode.quiet = true -> result.waited = false)) ∨
    exists pos a, s = .woken n pos a ∧ result = call.resultOf a

theorem virtioGpioContextDeinit_triple (call : GpioCall) (result : GpioResult)
    {t n : Nat} {g : GpioGhost}
    (hfinished : mode.calm = true -> Finished mode call n result g.stage) :
    (gpioContract mode scripts).Triple (.client t) g
      (virtioGpioContextDeinit ⟨t, n⟩) fun _ g' =>
        mode.calm = true -> Finished mode call n result g'.stage := by
  apply Contract.Triple.action
  rintro e w gs b w' hok ⟨fl, hinv⟩ rfl hf
  cases hf
  by_cases hcalm : mode.calm = true
  · rcases hfinished hcalm with ⟨c, hcalling, hwaited⟩ | ⟨pos, a, hwoken, hresult⟩
    · exact ⟨_, ⟨fl, hinv.callingContext hcalling _⟩,
        fun _ => Or.inl ⟨_, rfl, hwaited⟩⟩
    · refine ⟨_, ⟨fl, hinv.wokenContext hwoken ?_⟩,
        fun _ => Or.inr ⟨pos, a, hwoken, hresult⟩⟩
      exact fun c hcar => ⟨hcar.status, hcar.value⟩
  · refine ⟨gs (.client t), ⟨fl, ?_⟩, fun htrue => absurd htrue hcalm⟩
    exact hinv.onClient (ClientFrame.changeContext w _ _) (Or.inl rfl)
      fun htrue => absurd htrue hcalm

theorem readContext_triple {α : Type} {t n : Nat} {g : GpioGhost}
    (f : VirtioGpioContext -> α) :
    (gpioContract mode scripts).Triple (.client t) g
      (readContext ⟨t, n⟩ f) fun r g' => g' = g ∧
        (mode.calm = true -> forall pos a, g.stage = .woken n pos a ->
          exists c, CarriesAnswer c a ∧ r = f c) := by
  apply Contract.Triple.action
  rintro e w gs r w' hok ⟨fl, hinv⟩ rfl hf
  rcases Option.map_eq_some_iff.mp hf with ⟨c, hc, hout⟩
  cases hout
  refine ⟨gs (.client t), ⟨fl, ?_⟩, rfl, ?_⟩
  · rwa [Function.update_eq_self]
  · intro hcalm pos a hwoken
    have hstage := (hinv.context hcalm).stages t
    rw [show stages gs t = .woken n pos a from hwoken] at hstage
    rcases hstage with ⟨_, c', _, hc', _, _, _, _, _, hcar⟩
    rw [hc] at hc'
    cases hc'
    exact ⟨c, hcar, rfl⟩

theorem readValue_triple (reads : Bool) {t n : Nat} {g : GpioGhost} :
    (gpioContract mode scripts).Triple (.client t) g
      (readValue reads ⟨t, n⟩) fun v g' => g' = g ∧
        (mode.calm = true -> forall pos a, g.stage = .woken n pos a ->
          v = if reads then some a.value else none) := by
  cases reads with
  | false => exact Contract.Triple.ret ⟨rfl, fun _ _ _ _ => rfl⟩
  | true =>
      apply (readContext_triple fun c => some c.value).conseq
      rintro v g' ⟨rfl, hv⟩
      refine ⟨rfl, ?_⟩
      intro hcalm pos a hwoken
      rcases hv hcalm pos a hwoken with ⟨c, hcar, rfl⟩
      rw [hcar.value, if_pos rfl]

theorem virtioGpioOperation_triple {config : VirtioGpioConfig}
    {type gpio value : UInt16} {call : GpioCall} {t n : Nat} {g : GpioGhost}
    {c : VirtioGpioContext} (hcall : scripts t n = call) (hstage : g.stage = .calling n c)
    (hhold : g.holding = Holding.empty)
    (htype : type ≠ VIRTIO_GPIO_MSG_GET_LINE_NAMES)
    (hrequest : call.request =
      { type := type, gpio := gpio, value := value.toUInt32 }) :
    (gpioContract mode scripts).Triple (.client t) g
      (virtioGpioOperation config type gpio value call.reads ⟨t, n⟩) fun result g' =>
        mode.calm = true -> Finished mode call n result g'.stage := by
  unfold virtioGpioOperation
  apply (virtioGpioContextInit_triple hstage).bind
  rintro rc g1 ⟨hhold1, c1, hstage1, hsem⟩
  split
  · exact Contract.Triple.ret fun _ => Or.inl ⟨c1, hstage1, fun _ => rfl⟩
  · rename_i hinit
    have hok : rc = .EOK := Decidable.not_not.mp hinit
    apply (virtioGpioRequest_triple hstage1 (hsem hok) (hhold1.trans hhold) htype
      ((congrArg GpioCall.request hcall).trans hrequest)).bind
    intro rc2 g2 hattempt
    split
    · -- the request failed: the context is all there is to give up
      rename_i hfailed
      have hcalling : g2.stage = .calling n c1 := by
        rcases hattempt with ⟨hok2, _⟩ | hcalling
        · exact absurd hok2 hfailed
        · exact hcalling
      apply (virtioGpioContextDeinit_triple call
        { rc := rc2, value := none, waited := false }
        fun _ => Or.inl ⟨c1, hcalling, fun _ => rfl⟩).bind
      intro _ g3 hfinished
      exact Contract.Triple.ret hfinished
    · have hwaiting : Waiting n g2.stage := by
        rcases hattempt with ⟨_, hsent⟩ | hcalling
        · exact Or.inl hsent
        · exact Or.inr ⟨c1, hcalling, hsem hok⟩
      apply (virtioGpioContextWait_triple hwaiting).bind
      intro rc3 g3 hwait
      split
      · rename_i hfailed
        apply (virtioGpioContextDeinit_triple call
          { rc := rc3, value := none, waited := true } ?_).bind
        · intro _ g4 hfinished
          exact Contract.Triple.ret hfinished
        · intro hcalm
          rcases hwait hcalm with ⟨hok3, _⟩ | ⟨_, hquiet, c3, hcalling⟩
          · exact absurd hok3 hfailed
          · refine Or.inl ⟨c3, hcalling, fun hquiet' => ?_⟩
            rw [hquiet] at hquiet'
            cases hquiet'
      · rename_i hwoken
        have hok3 : rc3 = .EOK := Decidable.not_not.mp hwoken
        have hstage3 : mode.calm = true -> exists pos a, g3.stage = .woken n pos a := by
          intro hcalm
          rcases hwait hcalm with ⟨_, hwoken⟩ | ⟨hfailed, _⟩
          · exact hwoken
          · exact absurd hok3 hfailed
        apply (readValue_triple call.reads).bind
        rintro v g4 ⟨rfl, hv⟩
        apply (readContext_triple _).bind
        rintro rc4 g5 ⟨rfl, hrc⟩
        apply (virtioGpioContextDeinit_triple call
          { rc := rc4, value := v, waited := true } ?_).bind
        · intro _ g6 hfinished
          exact Contract.Triple.ret hfinished
        · intro hcalm
          rcases hstage3 hcalm with ⟨pos, a, hwoken⟩
          rcases hrc hcalm pos a hwoken with ⟨c4, hcar, rfl⟩
          refine Or.inr ⟨pos, a, hwoken, ?_⟩
          rw [hv hcalm pos a hwoken, GpioCall.resultOf, hcar.status]

theorem GpioCall.run_triple {config : VirtioGpioConfig} {t n : Nat} {g : GpioGhost}
    {c : VirtioGpioContext} (hstage : g.stage = .calling n c)
    (hhold : g.holding = Holding.empty) :
    (gpioContract mode scripts).Triple (.client t) g
      ((scripts t n).run config ⟨t, n⟩) fun result g' =>
        mode.calm = true -> Finished mode (scripts t n) n result g'.stage := by
  cases hcall : scripts t n with
  | setValue gpio value =>
      exact virtioGpioOperation_triple hcall hstage hhold (by decide) rfl
  | getValue gpio =>
      exact virtioGpioOperation_triple hcall hstage hhold (by decide) rfl
  | getDirection gpio =>
      exact virtioGpioOperation_triple hcall hstage hhold (by decide) rfl
  | setDirection gpio direction =>
      exact virtioGpioOperation_triple hcall hstage hhold (by decide) rfl

/-!
## Frames
-/

theorem enterFrame_triple {t n : Nat} {g : GpioGhost} (hstage : g.stage = .idle n) :
    (gpioContract mode scripts).Triple (.client t) g
      (enterFrame ⟨t, n⟩) fun _ g' => g'.holding = g.holding ∧
        exists c, g'.stage = .calling n c := by
  apply Contract.Triple.action
  rintro e w gs b w' hok ⟨fl, hinv⟩ rfl hf
  cases hf
  refine ⟨{ gs (.client t) with stage := .calling n e.frameContext },
    ⟨fl, ?_⟩, rfl, _, rfl⟩
  refine hinv.onClient (ClientFrame.setContext w _ _) (Or.inl rfl) ?_
  intro hcalm hctx
  have hidle : stages gs t = .idle n := hstage
  have hbefore := hctx.stages t
  rw [hidle] at hbefore
  refine hctx.own hinv.phase hinv.flow.ring rfl rfl rfl rfl rfl ?_ ?_ ?_
    fun r hr => Or.inl hr
  · intro m pos hsent
    rw [hidle] at hsent
    cases hsent
  · exact ⟨hbefore, Function.update_self ..⟩
  · rw [hidle]
    exact Nat.le_refl _

theorem Finished.routed {t n pos : Nat} {a : GpioAnswer} {result : GpioResult}
    {w' : GpioSystem} (hs : StageInv w t (.woken n pos a))
    (hresult : result = (scripts t n).resultOf a) (hqueue : w'.queue = w.queue)
    (hanswers : w'.answers = w.answers) :
    Routed w' { context := ⟨t, n⟩, call := scripts t n, result := result } := by
  rcases hs with ⟨_, _, p, _, hp, hcontext, _, ha, hpos, _⟩
  refine ⟨pos, p, a, ?_, hcontext, ?_, hpos, hresult⟩
  · rw [hqueue]
    exact hp
  · rw [hanswers]
    exact ha

theorem Finished.returnInv {t n : Nat} {result : GpioResult} {s : ClientStage}
    {stage : Nat -> ClientStage} {w' : GpioSystem}
    (hfinished : Finished mode (scripts t n) n result s) (hs : StageInv w t s)
    (hqueue : w'.queue = w.queue) (hdelivered : w'.delivered = w.delivered)
    (hanswers : w'.answers = w.answers) (hstage : stage t = .idle (n + 1)) :
    ReturnInv mode scripts w' stage
      { context := ⟨t, n⟩, call := scripts t n, result := result } where
  call := rfl
  past := by
    rw [hstage]
    exact Nat.lt_succ_self n
  delivered := by
    intro p hp hcontext
    rw [hqueue] at hp
    rw [hdelivered]
    rcases hfinished with ⟨c, rfl, _⟩ | ⟨pos, a, rfl, _⟩
    · exact absurd (hs.1 p hp n hcontext) (Nat.lt_irrefl _)
    · rcases hs with ⟨_, _, _, _, _, _, hdel, _⟩
      exact hdel
  routed := by
    intro hquiet hwaited
    rcases hfinished with ⟨c, rfl, hnot⟩ | ⟨pos, a, rfl, hresult⟩
    · rw [hnot hquiet] at hwaited
      cases hwaited
    · exact Finished.routed hs hresult hqueue hanswers
  settled := by
    intro p hp hcontext
    rw [hqueue] at hp
    rcases hfinished with ⟨c, rfl, _⟩ | ⟨pos, a, rfl, hresult⟩
    · exact absurd (hs.1 p hp n hcontext) (Nat.lt_irrefl _)
    · exact Finished.routed hs hresult hqueue hanswers

theorem Finished.call_eq {call : GpioCall} {n : Nat} {result : GpioResult}
    {s : ClientStage} (h : Finished mode call n result s) : s.call = n := by
  rcases h with ⟨c, rfl, _⟩ | ⟨pos, a, rfl, _⟩
  · rfl
  · rfl

theorem Finished.publishedBefore {call : GpioCall} {t n : Nat} {result : GpioResult}
    {s : ClientStage} (h : Finished mode call n result s) (hs : StageInv w t s) :
    PublishedBefore w t (n + 1) := by
  rcases h with ⟨c, rfl, _⟩ | ⟨pos, a, rfl, _⟩
  · exact fun p hp m hm => Nat.lt_succ_of_lt (hs.1 p hp m hm)
  · exact hs.1

theorem leaveFrame_triple {t n : Nat} {g : GpioGhost} {result : GpioResult}
    (hfinished : mode.calm = true ->
      Finished mode (scripts t n) n result g.stage) :
    (gpioContract mode scripts).Triple (.client t) g
      (leaveFrame ⟨t, n⟩ (scripts t n) result) fun _ g' =>
        g'.holding = Holding.empty ∧ g'.stage = .idle (n + 1) := by
  apply Contract.Triple.action
  rintro e w gs b w' hok ⟨fl, hinv⟩ rfl hf
  cases hf
  refine ⟨⟨Holding.empty, .idle (n + 1), (gs (.client t)).phase⟩, ⟨fl, ?_⟩, rfl, rfl⟩
  refine hinv.onClient ⟨rfl, rfl, rfl, rfl, rfl, rfl, rfl⟩ (Or.inr rfl) ?_
  intro hcalm hctx
  have hdone : Finished mode (scripts t n) n result (stages gs t) := hfinished hcalm
  have hbefore : PublishedBefore w t (n + 1) := hdone.publishedBefore (hctx.stages t)
  refine hctx.own hinv.phase hinv.flow.ring rfl rfl rfl rfl rfl ?_ ?_ ?_ ?_
  · intro m pos hsent
    rcases hdone with ⟨c, hcalling, _⟩ | ⟨pos, a, hwoken, _⟩
    · rw [hsent] at hcalling
      cases hcalling
    · rw [hsent] at hwoken
      cases hwoken
  · exact hbefore
  · rw [hdone.call_eq]
    exact Nat.le_succ n
  · intro r hr
    rcases List.mem_append.mp hr with hr | hr
    · exact Or.inl hr
    · cases List.mem_singleton.mp hr
      exact Or.inr (hdone.returnInv (hctx.stages t) rfl rfl rfl
        (Function.update_self ..))

theorem gpioClient_triple {config : VirtioGpioConfig} {t : Nat} {g : GpioGhost}
    (hstage : g.stage = .idle 0) (hhold : g.holding = Holding.empty) :
    (gpioContract mode scripts).Triple (.client t) g
      (gpioClient config t (scripts t)) fun _ _ => True := by
  apply Contract.Triple.loop (J := fun n g =>
    g.holding = Holding.empty ∧ g.stage = .idle n) (R := fun _ _ => True)
  · rintro n g1 ⟨hhold1, hstage1⟩
    apply (enterFrame_triple hstage1).bind
    rintro _ g2 ⟨hhold2, c, hstage2⟩
    apply (GpioCall.run_triple hstage2 (hhold2.trans hhold1)).bind
    intro result g3 hfinished
    apply (leaveFrame_triple hfinished).bind
    intro _ g4 hdone
    exact Contract.Triple.ret hdone
  · exact fun _ _ _ => Contract.Triple.ret trivial
  · exact ⟨hhold, hstage⟩

end QnxVirtio
