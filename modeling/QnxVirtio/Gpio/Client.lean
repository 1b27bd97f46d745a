import QnxVirtio.Gpio.Publish

/-!
# Clients

Every program of a client thread keeps the invariant, and ends its calls at a
stage that explains the result.
-/

namespace QnxVirtio

open Foundation

variable {mode : GpioMode} {scripts : Nat -> Nat -> GpioCall} {w w' : GpioSystem}
  {gs : GpioThread -> GpioGhost} {fl : Nat -> Holding}

/-!
## Steps outside of the queue
-/

/-- Nothing but contexts and the history of calls has changed. -/
structure ClientFrame (w w' : GpioSystem) : Prop where
  queue : w'.queue = w.queue
  device : w'.device = w.device
  answers : w'.answers = w.answers
  delivered : w'.delivered = w.delivered
  intStatus : w'.intStatus = w.intStatus
  raise : w'.raise = w.raise
  waiting : w'.waiting = w.waiting

theorem ClientFrame.setContext (w : GpioSystem) (ptr : ContextPtr)
    (c : Option VirtioGpioContext) : ClientFrame w (w.setContext ptr c) :=
  ⟨rfl, rfl, rfl, rfl, rfl, rfl, rfl⟩

theorem ClientFrame.changeContext (w : GpioSystem) (ptr : ContextPtr)
    (f : VirtioGpioContext -> VirtioGpioContext) :
    ClientFrame w (w.changeContext ptr f) := by
  unfold GpioSystem.changeContext
  split
  · exact ClientFrame.setContext w ptr _
  · exact ⟨rfl, rfl, rfl, rfl, rfl, rfl, rfl⟩

theorem GpioInv.onClient (h : GpioInv mode scripts w gs fl) {t : Nat}
    {g : GpioGhost} (hframe : ClientFrame w w')
    (hhold : g.holding = (gs (.client t)).holding ∨ g.holding = Holding.empty)
    (hctx : mode.calm = true -> ContextInv mode scripts w
        (stages gs) (gs .ist).phase ->
      ContextInv mode scripts w' (Function.update (stages gs) t g.stage)
        (gs .ist).phase) :
    GpioInv mode scripts w' (Function.update gs (.client t) g) fl where
  holding := by
    rw [holdings_update_thread, hframe.queue]
    rcases hhold with hsame | hempty
    · rw [hsame]
      have heq : Function.update (holdings gs fl) (.thread (.client t))
          (gs (.client t)).holding = holdings gs fl :=
        Function.update_eq_self (GpioOwner.thread (.client t)) (holdings gs fl)
      rw [heq]
      exact h.holding
    · rw [hempty]
      exact h.holding.forget _
  flow := by
    refine h.flow.congr ?_ hframe.device hframe.answers
    rw [hframe.queue]
    exact SameRings.refl _
  phase := by
    rw [phase_update_client]
    refine h.phase.congr ?_ ?_ ?_ ?_ hframe.delivered hframe.waiting ?_
    · rw [hframe.queue]
    · rw [hframe.queue]
    · rw [hframe.device]
    · rw [hframe.answers]
      exact fun _ ha => ha
    · intro hsig
      refine hsig.congr ?_ ?_ hframe.intStatus hframe.raise
      · rw [hframe.queue]
      · rw [hframe.device]
  context := by
    intro hcalm
    rw [phase_update_client, stages_update_client]
    exact hctx hcalm (h.context hcalm)

theorem GpioInv.ownContext (h : GpioInv mode scripts w gs fl) {t n : Nat}
    {s : ClientStage} {f : VirtioGpioContext -> VirtioGpioContext}
    (hrest : forall m pos, (gs (.client t)).stage = .sent m pos ->
      ⟨t, m⟩ ∈ w.delivered)
    (hcall : (gs (.client t)).stage.call <= s.call)
    (hstage : mode.calm = true -> StageInv w t (gs (.client t)).stage ->
      exists c, w.contexts ⟨t, n⟩ = some c ∧
        StageInv (w.setContext ⟨t, n⟩ (some (f c))) t s) :
    GpioInv mode scripts (w.changeContext ⟨t, n⟩ f)
      (Function.update gs (.client t) { gs (.client t) with stage := s }) fl := by
  refine h.onClient (ClientFrame.changeContext w _ f) (Or.inl rfl) ?_
  intro hcalm hctx
  rcases hstage hcalm (hctx.stages t) with ⟨c, hc, hs⟩
  have hw : w.changeContext ⟨t, n⟩ f = w.setContext ⟨t, n⟩ (some (f c)) := by
    simp [GpioSystem.changeContext, hc]
  rw [hw]
  exact hctx.own h.phase h.flow.ring rfl rfl rfl rfl rfl hrest hs hcall
    fun r hr => Or.inl hr

theorem GpioInv.callingContext (h : GpioInv mode scripts w gs fl)
    {t n : Nat} {c : VirtioGpioContext}
    (hstage : (gs (.client t)).stage = .calling n c)
    (f : VirtioGpioContext -> VirtioGpioContext) :
    GpioInv mode scripts (w.changeContext ⟨t, n⟩ f)
      (Function.update gs (.client t)
        { gs (.client t) with stage := .calling n (f c) }) fl := by
  apply h.ownContext
  · intro m pos heq
    rw [hstage] at heq
    cases heq
  · exact Nat.le_of_eq (congrArg ClientStage.call hstage : _ = n)
  · intro _ hs
    rw [hstage] at hs
    exact ⟨c, hs.2, hs.1, Function.update_self ..⟩

theorem GpioInv.wokenContext (h : GpioInv mode scripts w gs fl)
    {t n pos : Nat} {a : GpioAnswer}
    (hstage : (gs (.client t)).stage = .woken n pos a)
    {f : VirtioGpioContext -> VirtioGpioContext}
    (hf : forall c, CarriesAnswer c a -> CarriesAnswer (f c) a) :
    GpioInv mode scripts (w.changeContext ⟨t, n⟩ f)
      (Function.update gs (.client t) (gs (.client t))) fl := by
  have hself : { gs (.client t) with stage := .woken n pos a } = gs (.client t) := by
    rw [← hstage]
  rw [← hself]
  apply h.ownContext
  · intro m pos' heq
    rw [hstage] at heq
    cases heq
  · exact Nat.le_of_eq (congrArg ClientStage.call hstage : _ = n)
  · intro _ hs
    rw [hstage] at hs
    rcases hs with ⟨hbefore, c, p, hc, hp, hcontext, hdel, ha, hpos, hcar⟩
    exact ⟨c, hc, hbefore, f c, p, Function.update_self .., hp, hcontext, hdel, ha,
      hpos, hf c hcar⟩

/-!
## Rules
-/

theorem queue_triple {α : Type} {t : GpioThread} {g : GpioGhost}
    {p : Prog Env Queue α} {P : α -> Holding -> Prop}
    (h : HoldingSpec GpioOwner g.holding p P) :
    (gpioContract mode scripts).Triple t g (onQueue p) fun a g' =>
      exists H, P a H ∧ g' = { g with holding := H } :=
  onQueue_triple (h.conseq fun _ H hP => ⟨H, hP, rfl⟩)

theorem setContext_triple {t n : Nat} {c : VirtioGpioContext} {g : GpioGhost}
    (hstage : g.stage = .calling n c) (f : VirtioGpioContext -> VirtioGpioContext) :
    (gpioContract mode scripts).Triple (.client t) g
      (setContext ⟨t, n⟩ f) fun _ g' => g' = { g with stage := .calling n (f c) } := by
  apply Contract.Triple.action
  rintro e w gs b w' hok ⟨fl, hinv⟩ rfl hf
  cases hf
  exact ⟨_, ⟨fl, hinv.callingContext hstage f⟩, rfl⟩

theorem semInit_triple {t n : Nat} {c : VirtioGpioContext} {g : GpioGhost}
    (hstage : g.stage = .calling n c) :
    (gpioContract mode scripts).Triple (.client t) g
      (semInit ⟨t, n⟩) fun rc g' => g'.holding = g.holding ∧
        exists c', g'.stage = .calling n c' ∧ (rc = .EOK -> c'.sem = some 0) := by
  apply Contract.Triple.action
  rintro e w gs rc w' hok ⟨fl, hinv⟩ rfl hf
  dsimp only at hf
  split at hf
  · cases hf
    exact ⟨_, ⟨fl, hinv.callingContext hstage _⟩, rfl, _, rfl, fun _ => rfl⟩
  · cases hf
    refine ⟨gs (.client t), ⟨fl, ?_⟩, rfl, c, hstage, fun heq => by cases heq⟩
    rwa [Function.update_eq_self]

theorem virtioGpioContextInit_triple {t n : Nat} {c : VirtioGpioContext}
    {g : GpioGhost} (hstage : g.stage = .calling n c) :
    (gpioContract mode scripts).Triple (.client t) g
      (virtioGpioContextInit ⟨t, n⟩) fun rc g' => g'.holding = g.holding ∧
        exists c', g'.stage = .calling n c' ∧ (rc = .EOK -> c'.sem = some 0) := by
  unfold virtioGpioContextInit
  apply (setContext_triple hstage _).bind
  rintro _ g1 rfl
  apply (setContext_triple rfl _).bind
  rintro _ g2 rfl
  exact semInit_triple rfl

/-!
## Waiting
-/

/-- The stages at which a client waits. -/
def Waiting (n : Nat) (s : ClientStage) : Prop :=
  (exists pos, s = .sent n pos) ∨ exists c, s = .calling n c ∧ c.sem = some 0

/-- How a wait ends: with the answer, or by a signal while nothing is published. -/
def WaitPost (mode : GpioMode) (n : Nat) (rc : Rc) (s : ClientStage) : Prop :=
  (rc = .EOK ∧ exists pos a, s = .woken n pos a) ∨
    (rc ≠ .EOK ∧ mode.quiet = false ∧ exists c, s = .calling n c)

theorem GpioInv.wake (h : GpioInv mode scripts w gs fl) {t n pos : Nat}
    {c : VirtioGpioContext} {k : Nat} (hcalm : mode.calm = true)
    (hstage : (gs (.client t)).stage = .sent n pos)
    (hc : w.contexts ⟨t, n⟩ = some c) (hsem : c.sem = some (k + 1)) :
    exists a, GpioInv mode scripts
      (w.setContext ⟨t, n⟩ (some { c with sem := some k }))
      (Function.update gs (.client t)
        { gs (.client t) with stage := .woken n pos a }) fl := by
  have hinv := (h.context hcalm).stages t
  rw [show stages gs t = .sent n pos from hstage] at hinv
  rcases hinv with ⟨hbefore, c', p, hc', hp, hcontext, hnot, hdel⟩
  have heq : c' = c := Option.some.inj (hc'.symm.trans hc)
  subst heq
  have hmem : ⟨t, n⟩ ∈ w.delivered := by
    by_contra hmem
    rw [hnot hmem] at hsem
    cases hsem
  rcases hdel hmem with ⟨_, a, ha, hpos, hcar⟩
  refine ⟨a, h.onClient (ClientFrame.setContext w _ _) (Or.inl rfl) ?_⟩
  intro _ hctx
  refine hctx.own h.phase h.flow.ring rfl rfl rfl rfl rfl ?_ ?_ ?_
    fun r hr => Or.inl hr
  · intro m pos' hsent
    rw [show stages gs t = .sent n pos from hstage] at hsent
    cases hsent
    exact hmem
  · exact ⟨hbefore, _, p, Function.update_self .., hp, hcontext, hmem, ha, hpos,
      hcar.status, hcar.value⟩
  · rw [show stages gs t = .sent n pos from hstage]
    exact Nat.le_refl _

theorem semWait_triple {t n : Nat} {g : GpioGhost} (hwait : Waiting n g.stage) :
    (gpioContract mode scripts).Triple (.client t) g
      (semWait ⟨t, n⟩) fun rc g' => rc ≠ .EINTR ∧
        (mode.calm = true -> WaitPost mode n rc g'.stage) := by
  apply Contract.Triple.action
  rintro e w gs rc w' hok ⟨fl, hinv⟩ rfl hf
  have hstay : GpioInv mode scripts w
      (Function.update gs (.client t) (gs (.client t))) fl := by
    rwa [Function.update_eq_self]
  by_cases hcalm : mode.calm = true
  · have hstages := (hinv.context hcalm).stages t
    rcases hwait with ⟨pos, hsent⟩ | ⟨c, hcalling, hzero⟩
    · rw [show stages gs t = .sent n pos from hsent] at hstages
      rcases hstages with ⟨_, c, p, hc, hp, hcontext, hnot, hdel⟩
      by_cases hmem : ⟨t, n⟩ ∈ w.delivered
      · have hone := (hdel hmem).1
        simp only [hc, hone, Option.some.injEq, Prod.mk.injEq] at hf
        rcases hf with ⟨rfl, rfl⟩
        rcases hinv.wake hcalm hsent hc hone with ⟨a, hwoken⟩
        exact ⟨_, ⟨fl, hwoken⟩, by simp, fun _ => Or.inl ⟨rfl, pos, a, rfl⟩⟩
      · -- the callback has not run: only a signal could end the wait
        simp only [hc, hnot hmem] at hf
        split at hf
        · rename_i hsignal
          have hgone := hok.2 hcalm hsignal p (List.mem_of_getElem? hp) n hcontext
          rw [hc] at hgone
          cases hgone
        · cases hf
    · rw [show stages gs t = .calling n c from hcalling] at hstages
      simp only [hstages.2, hzero] at hf
      split at hf
      · rename_i hsignal
        cases hf
        refine ⟨_, ⟨fl, hstay⟩, by simp, fun _ => Or.inr ⟨by simp, ?_, c, hcalling⟩⟩
        by_contra hquiet
        rw [hok.1 (by simpa using hquiet)] at hsignal
        cases hsignal
      · cases hf
  · have hother : forall (w' : GpioSystem), ClientFrame w w' ->
        GpioInv mode scripts w'
          (Function.update gs (.client t) (gs (.client t))) fl :=
      fun w' hframe => hinv.onClient hframe (Or.inl rfl)
        fun htrue => absurd htrue hcalm
    refine ⟨gs (.client t), ⟨fl, ?_⟩, ?_, fun htrue => absurd htrue hcalm⟩
    all_goals
      dsimp only at hf
      split at hf
      · cases hf
      · split at hf
        · cases hf
          first | exact hstay | simp
        · split at hf
          · cases hf
            first | exact hstay | simp
          · cases hf
        · cases hf
          first | exact hother _ (ClientFrame.setContext w _ _) | simp

theorem virtioGpioContextWait_triple {t n : Nat} {g : GpioGhost}
    (hwait : Waiting n g.stage) :
    (gpioContract mode scripts).Triple (.client t) g
      (virtioGpioContextWait ⟨t, n⟩) fun rc g' =>
        mode.calm = true -> WaitPost mode n rc g'.stage := by
  apply Contract.Triple.loop (J := fun _ g => Waiting n g.stage)
    (R := fun rc g' => mode.calm = true -> WaitPost mode n rc g'.stage)
  · intro _ g1 hwait1
    apply (semWait_triple hwait1).bind
    rintro rc g2 ⟨hrc, hpost⟩
    rw [if_neg hrc]
    exact Contract.Triple.ret hpost
  · intro rc g1 hpost
    exact Contract.Triple.ret hpost
  · exact hwait

end QnxVirtio
