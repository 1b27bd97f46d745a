import QnxVirtio.Gpio.Alive

/-!
# Clients go on

A client is never stuck in an operation, and waits only at its semaphore.  Where every
lock is granted it waits for a chain that it published.
-/

namespace QnxVirtio

open Foundation

/-!
## Failures
-/

theorem HoldingSpec.gives {ω : Type} [DecidableEq ω] {α : Type} {p : Prog Env Queue α}
    {H : Holding} {Q : α -> Holding -> Prop} {P : α -> Prop} (h : HoldingSpec ω H p Q)
    (hp : p.Gives P) : HoldingSpec ω H p fun a H' => Q a H' ∧ P a := by
  induction p generalizing H with
  | ret a => exact ⟨h, hp⟩
  | act f k ih =>
      intro e q hold o b q' hinv hhold hf
      rcases h e q hold o b q' hinv hhold hf with ⟨hsame, H', hinv', hrest⟩
      exact ⟨hsame, H', hinv', ih b hrest (hp e q b q' hf)⟩
  | loop body x k => exact h.elim

/-- An error is not `EOK`. -/
def Fails {α : Type} (r : Except Rc α) : Prop :=
  forall rc, r = .error rc -> rc ≠ .EOK

theorem freeDescsGet_fails : freeDescsGet.Gives Fails := by
  apply Prog.gives_action
  intro e q r q' hf rc heq
  cases hf
  unfold fifoGet at heq
  split at heq
  · rename_i hlock
    cases heq
    exact hlock
  · split at heq
    · cases heq
      simp
    · cases heq

theorem mapBuffer_fails (len : UInt32) : (mapBuffer len).Gives Fails := by
  apply Prog.gives_action
  intro e q r q' hf rc heq
  rcases Option.map_eq_some_iff.mp hf with ⟨⟨r1, mem⟩, hmap, hout⟩
  cases hout
  rcases mmap64_cases hmap with ⟨rc', hr, hrc, _⟩ | ⟨v, _, _, _, hr, _⟩
  · rw [hr] at heq
    cases heq
    exact hrc
  · rw [hr] at heq
    cases heq

theorem bufferOffset_fails (vaddr : Nat) : (bufferOffset vaddr).Gives Fails := by
  apply Prog.gives_action
  intro e q r q' hf rc heq
  cases hf
  exact memOffset64_error heq

theorem alloc_fails (len : UInt32) (writable : Bool) :
    (virtqAllocDesc len writable).Gives Fails := by
  have herror : forall rc, Fails (.error rc : Except Rc Nat) ->
      Fails (.error rc : Except Rc UInt16) := by
    intro rc h rc' heq
    cases heq
    exact h rc rfl
  have hok : forall idx : UInt16, Fails (.ok idx) := by
    intro idx rc heq
    cases heq
  refine freeDescsGet_fails.bind fun r hr => ?_
  cases r with
  | error rc => exact hr
  | ok idx =>
      refine (mapBuffer_fails len).bind fun r hr => ?_
      cases r with
      | error rc => exact (Prog.gives_any _).bind fun _ _ => herror rc hr
      | ok vaddr =>
          refine (bufferOffset_fails vaddr).bind fun r hr => ?_
          cases r with
          | error rc =>
              exact (Prog.gives_any _).bind fun _ _ =>
                (Prog.gives_any _).bind fun _ _ => herror rc hr
          | ok paddr =>
              exact (Prog.gives_any _).bind fun _ _ => (Prog.gives_any _).bind fun _ _ =>
                (Prog.gives_any _).bind fun _ _ => (Prog.gives_any _).bind fun _ _ =>
                (Prog.gives_any _).bind fun _ _ => (Prog.gives_any _).bind fun _ _ => hok idx

section Client

variable {mode : GpioMode} {transport : Transport} {scripts : Nat -> Nat -> GpioCall}
  {served : Bool} {t n : Nat} {g : GpioGhost} {c : VirtioGpioContext}

/-!
## The context
-/

theorem GpioInv.calling {w : GpioSystem} {gs : GpioThread -> GpioGhost}
    {fl : Nat -> Holding} (h : GpioInv mode scripts w gs fl) (hcalm : mode.calm = true)
    (hstage : (gs (.client t)).stage = .calling n c) :
    PublishedBefore w t n ∧ w.contexts ⟨t, n⟩ = some c := by
  have hinv := (h.context hcalm).stages t
  rwa [show stages gs t = .calling n c from hstage] at hinv

theorem setContext_live (hstage : g.stage = .calling n c)
    {f : VirtioGpioContext -> VirtioGpioContext}
    (hf : forall c', (c'.sem ≠ none -> c'.callback ≠ none) ->
      (f c').sem ≠ none -> (f c').callback ≠ none) :
    (aliveContract mode scripts served).Live (gpioPatience transport served) (.client t) g
      (setContext ⟨t, n⟩ f) fun _ g' => g' = { g with stage := .calling n (f c) } := by
  refine Contract.Triple.live (fun _ _ hM => hM) (setContext_triple hstage f)
    (Prog.within_modify fun w => ?_) (Prog.ready_total _)
  intro hset
  exact hset.changeContext fun c' hc' => hf c' (hset _ c' hc')

theorem semInit_live (hcalm : mode.calm = true) (hstage : g.stage = .calling n c)
    (hcallback : c.callback ≠ none) :
    (aliveContract mode scripts served).Live (gpioPatience transport served) (.client t) g
      (semInit ⟨t, n⟩) fun rc g' => g'.holding = g.holding ∧
        exists c', g'.stage = .calling n c' ∧ (rc = .EOK -> c'.sem = some 0) := by
  refine Contract.Live.action ?_ ?_
  · intro w gs e _ _ _
    refine Or.inl ?_
    beta_reduce
    split
    · rfl
    · rfl
  · refine (Contract.Triple.keeps (semInit_triple hstage)).narrow ?_
    rintro e w gs rc w' g' ⟨fl, hinv⟩ rfl _ hf hQ hset
    refine ⟨?_, hQ⟩
    split at hf
    · cases hf
      refine hset.changeContext fun c' hc' _ => ?_
      rw [(hinv.calling hcalm hstage).2] at hc'
      cases hc'
      exact hcallback
    · cases hf
      exact hset

theorem virtioGpioContextInit_live (hcalm : mode.calm = true)
    (hstage : g.stage = .calling n c) :
    (aliveContract mode scripts served).Live (gpioPatience transport served) (.client t) g
      (virtioGpioContextInit ⟨t, n⟩) fun rc g' => g'.holding = g.holding ∧
        exists c', g'.stage = .calling n c' ∧ (rc = .EOK -> c'.sem = some 0) := by
  have hsome : some GpioCallback.virtioGpioCallback ≠ none := by
    intro heq
    cases heq
  unfold virtioGpioContextInit
  apply (setContext_live hstage fun c' _ _ => hsome).bind
  intro _ g1 heq1
  subst heq1
  apply (setContext_live rfl (by exact fun c' hc' => hc')).bind
  intro _ g2 heq2
  subst heq2
  exact semInit_live hcalm rfl hsome

theorem virtioGpioContextDeinit_live (call : GpioCall) (result : GpioResult)
    (hfinished : mode.calm = true -> Finished mode call n result g.stage) :
    (aliveContract mode scripts served).Live (gpioPatience transport served) (.client t) g
      (virtioGpioContextDeinit ⟨t, n⟩) fun _ g' =>
        mode.calm = true -> Finished mode call n result g'.stage := by
  refine Contract.Triple.live (fun _ _ hM => hM)
    (virtioGpioContextDeinit_triple call result hfinished)
    (Prog.within_modify fun w => ?_) (Prog.ready_total _)
  exact fun hset => hset.changeContext fun _ _ hsem => absurd rfl hsem

theorem readContext_live {α : Type} (hcalm : mode.calm = true) {pos : Nat} {a : GpioAnswer}
    (hwoken : g.stage = .woken n pos a) (f : VirtioGpioContext -> α) :
    (aliveContract mode scripts served).Live (gpioPatience transport served) (.client t) g
      (readContext ⟨t, n⟩ f) fun r g' => g' = g ∧
        exists c, CarriesAnswer c a ∧ r = f c := by
  refine Contract.Live.action ?_ ?_
  · rintro w gs e ⟨⟨fl, hinv⟩, _⟩ rfl _
    have hstage := (hinv.context hcalm).stages t
    rw [show stages gs t = .woken n pos a from hwoken] at hstage
    rcases hstage with ⟨_, c, _, hc, _⟩
    refine Or.inl ?_
    change (Option.map _ (w.contexts ⟨t, n⟩)).isSome = true
    rw [hc]
    rfl
  · refine (Contract.Triple.keeps (readContext_triple f)).narrow ?_
    intro e w gs r w' g' _ _ _ hf hQ hset
    rcases Option.map_eq_some_iff.mp hf with ⟨c, _, hout⟩
    cases hout
    exact ⟨hset, hQ.1, hQ.2 hcalm pos a hwoken⟩

theorem readValue_live (hcalm : mode.calm = true) (reads : Bool) {pos : Nat}
    {a : GpioAnswer} (hwoken : g.stage = .woken n pos a) :
    (aliveContract mode scripts served).Live (gpioPatience transport served) (.client t) g
      (readValue reads ⟨t, n⟩) fun v g' => g' = g ∧
        v = if reads then some a.value else none := by
  cases reads with
  | false => exact Contract.Live.ret ⟨rfl, rfl⟩
  | true =>
      apply (readContext_live hcalm hwoken fun c => some c.value).conseq
      intro v g' h
      rcases h with ⟨rfl, c, hcar, rfl⟩
      exact ⟨rfl, congrArg some hcar.value⟩

/-!
## Waiting
-/

/-- The stages at which a client may wait. -/
def Awaits (served : Bool) (n : Nat) (s : ClientStage) : Prop :=
  (exists pos, s = .sent n pos) ∨
    (served = false ∧ exists c, s = .calling n c ∧ c.sem = some 0)

theorem Awaits.waiting {s : ClientStage} (h : Awaits served n s) : Waiting n s := by
  rcases h with hsent | ⟨_, hcalling⟩
  · exact Or.inl hsent
  · exact Or.inr hcalling

theorem semWait_live (hcalm : mode.calm = true) (h : Awaits served n g.stage) :
    (aliveContract mode scripts served).Live (gpioPatience transport served) (.client t) g
      (semWait ⟨t, n⟩) fun rc g' => rc ≠ .EINTR ∧
        (mode.calm = true -> WaitPost mode n rc g'.stage) := by
  refine Contract.Live.action ?_ ?_
  · rintro w gs e ⟨⟨fl, hinv⟩, _⟩ rfl _
    rcases h with ⟨pos, hsent⟩ | ⟨hserved, c, hcalling, hzero⟩
    · have hstage := (hinv.context hcalm).stages t
      rw [show stages gs t = .sent n pos from hsent] at hstage
      rcases hstage with ⟨_, c, p, hc, _, _, hnot, hdel⟩
      by_cases hmem : ⟨t, n⟩ ∈ w.delivered
      · refine Or.inl ?_
        simp only [hc, (hdel hmem).1]
        rfl
      · refine Or.inr ⟨⟨n, c, hc, hnot hmem, Or.inl ⟨pos, hsent⟩⟩, ?_⟩
        simp only [gpioPatience, hc, hnot hmem]
        rfl
    · have hc := (hinv.calling hcalm hcalling).2
      refine Or.inr ⟨⟨n, c, hc, hzero, Or.inr ⟨hserved, c, hcalling⟩⟩, ?_⟩
      simp only [gpioPatience, hc, hzero]
      rfl
  · refine (Contract.Triple.keeps (semWait_triple h.waiting)).narrow ?_
    intro e w gs rc w' g' _ _ _ hf hQ hset
    refine ⟨?_, hQ⟩
    split at hf
    · cases hf
    · rename_i c hc
      split at hf
      · cases hf
        exact hset
      · split at hf
        · cases hf
          exact hset
        · cases hf
      · rename_i k hk
        cases hf
        refine hset.setContext fun c' heq _ => ?_
        cases heq
        refine hset _ c hc fun hnone => ?_
        rw [hk] at hnone
        cases hnone

theorem virtioGpioContextWait_live (hcalm : mode.calm = true)
    (h : Awaits served n g.stage) :
    (aliveContract mode scripts served).Live (gpioPatience transport served) (.client t) g
      (virtioGpioContextWait ⟨t, n⟩) fun rc g' =>
        mode.calm = true -> WaitPost mode n rc g'.stage := by
  apply Contract.Live.loop (J := fun _ g => Awaits served n g.stage)
  · intro _ g1 hwait1
    apply (semWait_live hcalm hwait1).bind
    intro rc g2 hpost
    rw [if_neg hpost.1]
    exact Contract.Live.ret hpost.2
  · intro rc g1 hpost
    exact Contract.Live.ret hpost
  · exact h

/-!
## Publishing
-/

theorem publishChain_live {head : UInt16} {rest : List UInt16} {b1 : List UInt8}
    (hstage : g.stage = .calling n c) (hsem : c.sem = some 0)
    (hpair : PairHolding ⟨head, rest, some ⟨t, n⟩⟩
      (requestOf scripts ⟨t, n⟩).encode b1 g.holding) :
    (aliveContract mode scripts served).Live (gpioPatience transport served) (.client t) g
      (onQueue (publishChain head rest)) fun _ g' => Awaits served n g'.stage := by
  refine Contract.Live.action ?_ ?_
  · intro w gs e _ _ _
    refine Or.inl ?_
    beta_reduce
    rw [Option.isSome_map]
    split
    · rfl
    · rfl
  · rintro e w gs rc w' hok ⟨⟨fl, hinv⟩, hset⟩ rfl hf
    rcases Option.map_eq_some_iff.mp hf with ⟨⟨rc1, q'⟩, hfq, hout⟩
    cases hout
    beta_reduce at hfq
    split at hfq
    · -- the spinlock was not taken: the client will wait in vain
      rename_i hlock
      cases hfq
      refine ⟨gs (.client t), ⟨⟨fl, ?_⟩, hset.congr rfl⟩, ?_⟩
      · rwa [Function.update_eq_self]
      · refine Or.inr ⟨?_, c, hstage, hsem⟩
        cases hserved : served with
        | false => rfl
        | true => exact absurd (hok.2 hserved).1 hlock
    · cases hfq
      have hcontext : (w.queue.vq.descExtras head).context = some ⟨t, n⟩ := by
        rcases hpair.shape with ⟨resp, m0, m1, _, hne, _, _, _, hH⟩
        have hcell : (holdings gs fl (.thread (.client t))).desc head =
            some (requestCell m0 resp (some ⟨t, n⟩)) := by
          change (gs (.client t)).holding.desc head = _
          rw [hH]
          exact pairHolding_head hne
        exact congrArg (fun c => c.extras.context)
          (hinv.holding.descs.known _ _ _ hcell)
      rw [hcontext]
      exact ⟨_, ⟨⟨_, hinv.publish hstage hsem rfl hpair⟩, hset.congr rfl⟩,
        Or.inl ⟨_, rfl⟩⟩

theorem storeRequest_live {m : Mapping} {b : List UInt8} (hm : g.holding.region m = some b)
    (hlen : m.len = 8) (hb : b.length = m.len) (r : VirtioGpioRequest) :
    (aliveContract mode scripts served).Live (gpioPatience transport served) (.client t) g
      (onQueue (storeRequest m.vaddr r.type r.gpio r.value)) fun _ g' =>
        g' = { g with holding := g.holding.setRegion m (some r.encode) } := by
  unfold storeRequest
  rw [Prog.bind_eq_bind, onQueue_bind]
  apply (storeVirt_live hm (show m.vaddr = m.vaddr + 0 from rfl) (by simp)
    (by rw [hlen]; simp)).bind
  rintro _ g1 ⟨H1, rfl, rfl⟩
  rw [Prog.bind_eq_bind, onQueue_bind]
  apply (storeVirt_live (Holding.setRegion_self ..) (Eq.refl (m.vaddr + 2)) (by simp)
    (by rw [hlen]; simp)).bind
  rintro _ g2 ⟨H2, rfl, rfl⟩
  apply (storeVirt_live (Holding.setRegion_self ..) (Eq.refl (m.vaddr + 4)) (by simp)
    (by rw [hlen]; simp)).conseq
  rintro _ g3 ⟨H3, rfl, rfl⟩
  rw [Holding.setRegion_setRegion, Holding.setRegion_setRegion,
    overwrite_request (hb.trans hlen)]

/-- What a request leaves behind: the client has something to wait for, or the call fails
with nothing published. -/
def Requested (served : Bool) (n : Nat) (c : VirtioGpioContext) (rc : Rc)
    (s : ClientStage) : Prop :=
  (rc = .EOK -> Awaits served n s) ∧ (rc ≠ .EOK -> s = .calling n c)

theorem Requested.failed {rc : Rc} (hrc : rc ≠ .EOK) :
    Requested served n c rc (.calling n c) :=
  ⟨fun heq => absurd heq hrc, fun _ => rfl⟩

theorem virtioGpioRequest_live {config : VirtioGpioConfig} {type gpio value : UInt16}
    (hstage : g.stage = .calling n c) (hsem : c.sem = some 0)
    (hhold : g.holding = Holding.empty) (htype : type ≠ VIRTIO_GPIO_MSG_GET_LINE_NAMES)
    (hrequest : requestOf scripts ⟨t, n⟩ =
      { type := type, gpio := gpio, value := value.toUInt32 }) :
    (aliveContract mode scripts served).Live (gpioPatience transport served) (.client t) g
      (virtioGpioRequest config type gpio value ⟨t, n⟩) fun rc g' =>
        Requested served n c rc g'.stage := by
  rcases g with ⟨H, stage, phase⟩
  dsimp only at hstage hhold
  subst hstage hhold
  unfold virtioGpioRequest
  rw [virtioGpioResponseSize, if_neg htype]
  have halloc : forall (H : Holding) len writable,
      HoldingSpec GpioOwner H (virtqAllocDesc len writable) _ :=
    fun H len writable => (virtqAllocDesc_holding H len writable).gives
      (alloc_fails len writable)
  apply (queue_live (halloc _ _ _) (ready_alloc _ _)).bind
  rintro r g1 ⟨H1, ⟨⟨rc, rfl, rfl⟩ | ⟨i0, m0, b0, rfl, _, _, hlen0, hb0, rfl⟩, hfails⟩, rfl⟩
  · exact Contract.Live.ret (Requested.failed (hfails rc rfl))
  · apply (queue_live (halloc _ _ _) (ready_alloc _ _)).bind
    rintro r g2
      ⟨H2, ⟨⟨rc, rfl, rfl⟩ | ⟨i1, m1, b1, rfl, hi1, hm1, hlen1, hb1, rfl⟩, hfails1⟩, rfl⟩
    · apply (freeAllocated_live hlen0 (Holding.setDesc_self ..)
        (Holding.setRegion_self ..)).bind
      rintro _ g3 rfl
      exact Contract.Live.ret (Requested.failed (hfails1 rc rfl))
    · have hne : i0 ≠ i1 := by
        rintro rfl
        rw [Holding.setRegion_desc, Holding.setDesc_self] at hi1
        cases hi1
      have hmne : m0 ≠ m1 := by
        rintro rfl
        rw [Holding.setRegion_self] at hm1
        cases hm1
      change (aliveContract mode scripts served).Live (gpioPatience transport served)
        (.client t) ⟨allocatedPair i0 i1 m0 m1 b0 b1, .calling n c, phase⟩ _ _
      apply (queue_live (virtqGetDescVaddr_holding (allocatedPair_head hne))
        (Prog.ready_total _)).bind
      rintro r g3 ⟨H3, ⟨rfl, rfl⟩, rfl⟩
      apply (storeRequest_live (allocatedPair_request hmne) hlen0 hb0
        ⟨type, gpio, value.toUInt32⟩).bind
      rintro _ g4 rfl
      rw [← hrequest]
      have hhead : ((allocatedPair i0 i1 m0 m1 b0 b1).setRegion m0
          (some (requestOf scripts ⟨t, n⟩).encode)).desc i0 =
            some (allocatedCell m0 sizeofVirtioGpioRequest false) := by
        rw [Holding.setRegion_desc]
        exact allocatedPair_head hne
      apply (queue_live (virtqSetDescContext_holding hhead ⟨t, n⟩)
        (ready_setDescContext _ _)).bind
      rintro _ g5 ⟨H5, rfl, rfl⟩
      rw [virtqPutDescChain_eq, onQueue_bind, Prog.bind_eq_bind, Prog.bind_assoc]
      have hresp : forall c, (((allocatedPair i0 i1 m0 m1 b0 b1).setRegion m0
          (some (requestOf scripts ⟨t, n⟩).encode)).setDesc i0 c).desc i1 =
            some (allocatedCell m1 sizeofVirtioGpioResponse true) := by
        intro c
        rw [Holding.setDesc_of_ne _ _ hne.symm, Holding.setRegion_desc]
        exact allocatedPair_resp
      apply (queue_live (linkChain_pair_holding hne (Holding.setDesc_self ..) (hresp _))
        (ready_linkChain _ _)).bind
      rintro _ g6 ⟨H6, rfl, rfl⟩
      rw [Holding.setDesc_setDesc]
      change (aliveContract mode scripts served).Live (gpioPatience transport served)
        (.client t) ⟨(((allocatedPair i0 i1 m0 m1 b0 b1).setRegion m0
          (some (requestOf scripts ⟨t, n⟩).encode)).setDesc i0
            (some (requestCell m0 i1 (some ⟨t, n⟩)))).setDesc i1
              (some (responseCell m1)), .calling n c, phase⟩ _ _
      rw [builtChain_eq hne hmne]
      apply (publishChain_live rfl hsem
        ⟨⟨i1, m0, m1, rfl, hne, hmne, hlen0, hlen1, rfl⟩⟩).bind
      intro rc g7 hawaits
      apply (answer_live _).bind
      rintro _ g8 ⟨rfl, _⟩
      exact Contract.Live.ret ⟨fun _ => hawaits, fun hne => absurd rfl hne⟩

/-!
## Calls
-/

theorem virtioGpioOperation_live {config : VirtioGpioConfig} {type gpio value : UInt16}
    {call : GpioCall} (hcalm : mode.calm = true) (hcall : scripts t n = call)
    (hstage : g.stage = .calling n c) (hhold : g.holding = Holding.empty)
    (htype : type ≠ VIRTIO_GPIO_MSG_GET_LINE_NAMES)
    (hrequest : call.request =
      { type := type, gpio := gpio, value := value.toUInt32 }) :
    (aliveContract mode scripts served).Live (gpioPatience transport served) (.client t) g
      (virtioGpioOperation config type gpio value call.reads ⟨t, n⟩) fun result g' =>
        mode.calm = true -> Finished mode call n result g'.stage := by
  unfold virtioGpioOperation
  apply (virtioGpioContextInit_live hcalm hstage).bind
  rintro rc g1 ⟨hhold1, c1, hstage1, hsem⟩
  split
  · exact Contract.Live.ret fun _ => Or.inl ⟨c1, hstage1, fun _ => rfl⟩
  · rename_i hinit
    have hok : rc = .EOK := Decidable.not_not.mp hinit
    apply (virtioGpioRequest_live hstage1 (hsem hok) (hhold1.trans hhold) htype
      ((congrArg GpioCall.request hcall).trans hrequest)).bind
    intro rc2 g2 hrequested
    split
    · rename_i hfailed
      apply (virtioGpioContextDeinit_live call
        { rc := rc2, value := none, waited := false }
        fun _ => Or.inl ⟨c1, hrequested.2 hfailed, fun _ => rfl⟩).bind
      intro _ g3 hfinished
      exact Contract.Live.ret hfinished
    · rename_i hsent
      apply (virtioGpioContextWait_live hcalm
        (hrequested.1 (Decidable.not_not.mp hsent))).bind
      intro rc3 g3 hwait
      split
      · rename_i hfailed
        apply (virtioGpioContextDeinit_live call
          { rc := rc3, value := none, waited := true } ?_).bind
        · intro _ g4 hfinished
          exact Contract.Live.ret hfinished
        · intro _
          rcases hwait hcalm with ⟨hok3, _⟩ | ⟨_, hquiet, c3, hcalling⟩
          · exact absurd hok3 hfailed
          · refine Or.inl ⟨c3, hcalling, fun hquiet' => ?_⟩
            rw [hquiet] at hquiet'
            cases hquiet'
      · rename_i hnot
        have hok3 : rc3 = .EOK := Decidable.not_not.mp hnot
        have hwoken : exists pos a, g3.stage = .woken n pos a := by
          rcases hwait hcalm with ⟨_, hwoken⟩ | ⟨hfailed, _⟩
          · exact hwoken
          · exact absurd hok3 hfailed
        rcases hwoken with ⟨pos, a, hwoken⟩
        apply (readValue_live hcalm call.reads hwoken).bind
        rintro v g4 ⟨rfl, hv⟩
        apply (readContext_live hcalm hwoken _).bind
        rintro rc4 g5 ⟨rfl, c4, hcar, rfl⟩
        apply (virtioGpioContextDeinit_live call _ ?_).bind
        · intro _ g6 hfinished
          exact Contract.Live.ret hfinished
        · intro _
          refine Or.inr ⟨pos, a, hwoken, ?_⟩
          rw [hv, GpioCall.resultOf, hcar.status]

theorem GpioCall.run_live {config : VirtioGpioConfig} (hcalm : mode.calm = true)
    (hstage : g.stage = .calling n c) (hhold : g.holding = Holding.empty) :
    (aliveContract mode scripts served).Live (gpioPatience transport served) (.client t) g
      ((scripts t n).run config ⟨t, n⟩) fun result g' =>
        mode.calm = true -> Finished mode (scripts t n) n result g'.stage := by
  cases hcall : scripts t n with
  | setValue gpio value =>
      exact virtioGpioOperation_live hcalm hcall hstage hhold (by decide) rfl
  | getValue gpio =>
      exact virtioGpioOperation_live hcalm hcall hstage hhold (by decide) rfl
  | getDirection gpio =>
      exact virtioGpioOperation_live hcalm hcall hstage hhold (by decide) rfl
  | setDirection gpio direction =>
      exact virtioGpioOperation_live hcalm hcall hstage hhold (by decide) rfl

theorem enterFrame_live (hstage : g.stage = .idle n) :
    (aliveContract mode scripts served).Live (gpioPatience transport served) (.client t) g
      (enterFrame ⟨t, n⟩) fun _ g' => g'.holding = g.holding ∧
        exists c, g'.stage = .calling n c := by
  refine Contract.Triple.live (fun _ _ hM => hM) (enterFrame_triple hstage)
    (Prog.within_action fun e w u w' hf => ?_) (Prog.ready_total _)
  cases hf
  intro hset
  refine hset.setContext fun c' heq hsem => ?_
  cases heq
  exact absurd rfl hsem

theorem leaveFrame_live {result : GpioResult}
    (hfinished : mode.calm = true -> Finished mode (scripts t n) n result g.stage) :
    (aliveContract mode scripts served).Live (gpioPatience transport served) (.client t) g
      (leaveFrame ⟨t, n⟩ (scripts t n) result) fun _ g' =>
        g'.holding = Holding.empty ∧ g'.stage = .idle (n + 1) := by
  refine Contract.Triple.live (fun _ _ hM => hM) (leaveFrame_triple hfinished)
    (Prog.within_modify fun w => ?_) (Prog.ready_total _)
  intro hset
  have hgone : CallbacksSet (w.setContext ⟨t, n⟩ none) := by
    refine hset.setContext fun c' heq => ?_
    cases heq
  exact hgone.congr rfl

theorem gpioClient_live {config : VirtioGpioConfig} (hcalm : mode.calm = true)
    (hstage : g.stage = .idle 0) (hhold : g.holding = Holding.empty) :
    (aliveContract mode scripts served).Live (gpioPatience transport served) (.client t) g
      (gpioClient config t (scripts t)) fun _ _ => False := by
  apply Contract.Live.loop (J := fun n g =>
    g.holding = Holding.empty ∧ g.stage = .idle n) (P := fun _ _ => False)
  · rintro n g1 ⟨hhold1, hstage1⟩
    apply (enterFrame_live hstage1).bind
    rintro _ g2 ⟨hhold2, c, hstage2⟩
    apply (GpioCall.run_live hcalm hstage2 (hhold2.trans hhold1)).bind
    intro result g3 hfinished
    apply (leaveFrame_live hfinished).bind
    intro _ g4 hdone
    exact Contract.Live.ret hdone
  · exact fun _ _ hfalse => hfalse.elim
  · exact ⟨hhold, hstage⟩

end Client

end QnxVirtio
