import QnxVirtio.Gpio.Alive

/-!
# The interrupt thread goes on

The interrupt thread is never stuck in the drain loop, and waits only at its interrupt
line.
-/

namespace QnxVirtio

open Foundation

variable {mode : GpioMode} {transport : Transport} {scripts : Nat -> Nat -> GpioCall}
  {served : Bool} {g : GpioGhost} {pos : Nat} {p : Published} {a : GpioAnswer}
  {ptr : ContextPtr}

theorem istStep_live {β : Type} {f : Env -> GpioSystem -> β × GpioSystem}
    {Q : β -> GpioGhost -> Prop}
    (h : (gpioContract mode scripts).Triple .ist g (Prog.action fun e w => some (f e w)) Q)
    (hcontexts : forall e w, (f e w).2.contexts = w.contexts) :
    (aliveContract mode scripts served).Live (gpioPatience transport served) .ist g
      (Prog.action fun e w => some (f e w)) Q := by
  refine Contract.Triple.live (fun _ _ hM => hM) h
    (Prog.within_action fun e w b w' hf => ?_) (Prog.ready_total f)
  intro hset
  refine hset.congr ?_
  rw [← hcontexts e w, Option.some.inj hf]

/-!
## Waiting for the interrupt
-/

theorem interruptWait_live (hphase : g.phase = .away) :
    (aliveContract mode scripts served).Live (gpioPatience transport served) .ist g
      (interruptWait transport) fun _ g' => g'.phase = .draining := by
  refine Contract.Live.action ?_ ?_
  · rintro w gs e _ rfl _
    cases transport with
    | mmio =>
        by_cases hidle : w.intStatus = 0
        · exact Or.inr ⟨⟨rfl, hidle, hphase⟩, rfl⟩
        · refine Or.inl ?_
          simp only [if_neg hidle]
          rfl
    | pci => exact Or.inl rfl
  · refine (Contract.Triple.keeps (interruptWait_triple hphase)).narrow ?_
    intro e w gs b w' g' _ _ _ hf hQ hset
    refine ⟨?_, hQ⟩
    cases transport with
    | mmio =>
        dsimp only at hf
        split at hf
        · cases hf
        · cases hf
          exact hset.congr rfl
    | pci =>
        cases hf
        exact hset.congr rfl

/-!
## The check for a used element
-/

theorem virtqGetDescChain_live (hphase : g.phase = .draining) :
    (aliveContract mode scripts served).Live (gpioPatience transport served) .ist g
      (onQueue (virtqGetDescChain 2)) fun r g' =>
        (exists rc, r = .error rc ∧ rc ≠ .EOK ∧ g'.phase = .away) ∨
          exists pos p a ptr, r = .ok p.chain ∧ Serving scripts g' pos p a ptr 0 :=
  Contract.Triple.live (fun _ _ hM => hM) (virtqGetDescChain_triple hphase)
    aliveContract_keeps (ready_getDescChain (by decide)).zoom

/-!
## The callback
-/

theorem contextCallback_live (hcalm : mode.calm = true)
    (h : Serving scripts g pos p a ptr 0) :
    (aliveContract mode scripts served).Live (gpioPatience transport served) .ist g
      (contextCallback ptr) fun _ g' => g' = g := by
  refine Contract.Live.action ?_ ?_
  · rintro w gs e ⟨⟨fl, hinv⟩, hset⟩ rfl _
    rcases (hinv.context hcalm).servedContext hinv.phase hinv.flow.ring h.phase h.context with
      ⟨c, hc, hzero, _⟩
    have hcallback : c.callback ≠ none := by
      refine hset ptr c hc fun hnone => ?_
      rw [hzero] at hnone
      cases hnone
    rcases Option.ne_none_iff_exists'.mp hcallback with ⟨f, hf⟩
    refine Or.inl ?_
    simp only [hc, hf]
    rfl
  · refine (Contract.Triple.keeps (contextCallback_triple h)).narrow ?_
    intro e w gs f w' g' _ _ _ hf hQ hset
    refine ⟨?_, hQ⟩
    split at hf
    · rcases Option.map_eq_some_iff.mp hf with ⟨_, _, hout⟩
      cases hout
      exact hset
    · cases hf
      exact hset.congr rfl

theorem copyContext_live {k : Nat} (k' : Nat) (h : Serving scripts g pos p a ptr k)
    {f : VirtioGpioContext -> VirtioGpioContext} (hsem : forall c, (f c).sem = c.sem)
    (hcallback : forall c, (f c).callback = c.callback)
    (hcopied : forall c, (1 <= k -> c.status = a.status) ->
      (2 <= k -> c.value = a.value) ->
        (1 <= k' -> (f c).status = a.status) ∧ (2 <= k' -> (f c).value = a.value)) :
    (aliveContract mode scripts served).Live (gpioPatience transport served) .ist g
      (setContext ptr f) fun _ g' =>
        g'.holding = g.holding ∧ Serving scripts g' pos p a ptr k' := by
  refine Contract.Triple.live (fun _ _ hM => hM) (copyContext_triple k' h hsem hcopied)
    (Prog.within_modify fun w => ?_) (Prog.ready_total _)
  intro hset
  refine hset.changeContext fun c hc => ?_
  rw [hsem, hcallback]
  exact hset ptr c hc

theorem semPost_live (h : Serving scripts g pos p a ptr 2) :
    (aliveContract mode scripts served).Live (gpioPatience transport served) .ist g
      (semPost ptr) fun _ g' => g'.holding = g.holding ∧ g'.phase = .draining := by
  refine Contract.Triple.live (fun _ _ hM => hM) (semPost_triple h)
    (Prog.within_modify fun w => ?_) (Prog.ready_total _)
  intro hset
  have hposted : CallbacksSet (w.changeContext ptr
      fun c => { c with sem := c.sem.map (· + 1) }) := by
    refine hset.changeContext fun c hc hsem => ?_
    refine hset ptr c hc fun hnone => ?_
    rw [hnone] at hsem
    exact hsem rfl
  exact hposted.congr rfl

theorem virtioGpioCallback_live {m0 m1 : Mapping} (h : Serving scripts g pos p a ptr 0)
    (hrequest : g.holding.region m0 = some (requestOf scripts ptr).encode)
    (hlen0 : m0.len = 8) (hresponse : g.holding.region m1 = some [a.status, a.value])
    (hlen1 : m1.len = 2) :
    (aliveContract mode scripts served).Live (gpioPatience transport served) .ist g
      (virtioGpioCallback m0.vaddr m1.vaddr ptr) fun _ g' =>
        g'.holding = g.holding ∧ g'.phase = .draining := by
  unfold virtioGpioCallback
  apply (loadVirt_live hresponse (show m1.vaddr = m1.vaddr + 0 from rfl) (by decide)
    (by rw [hlen1]; decide)).bind
  rintro status g1 ⟨H1, ⟨rfl, rfl⟩, rfl⟩
  refine (copyContext_live 1 h ?_ ?_ ?_).bind ?_
  · exact fun _ => rfl
  · exact fun _ => rfl
  · intro c _ _
    exact ⟨fun _ => rfl, fun hle => absurd hle (by decide)⟩
  · rintro _ g2 ⟨hhold2, h2⟩
    rw [← hhold2] at hrequest hresponse
    apply (loadVirt_live hrequest (show m0.vaddr = m0.vaddr + 0 from rfl) (by decide)
      (by rw [hlen0]; decide)).bind
    rintro type g3 ⟨H3, ⟨rfl, rfl⟩, rfl⟩
    have htype : decode16 (((requestOf scripts ptr).encode.drop 0).take 2) =
        (requestOf scripts ptr).type := decode16_encode16 _
    have hne : (requestOf scripts ptr).type ≠ VIRTIO_GPIO_MSG_GET_LINE_NAMES :=
      GpioCall.type_ne _
    rw [htype, if_neg hne]
    apply (loadVirt_live hresponse (Eq.refl (m1.vaddr + 1)) (by decide)
      (Nat.le_of_eq hlen1.symm)).bind
    rintro value g4 ⟨H4, ⟨rfl, rfl⟩, rfl⟩
    refine (copyContext_live 2 h2 ?_ ?_ ?_).bind ?_
    · exact fun _ => rfl
    · exact fun _ => rfl
    · intro c hstatus _
      exact ⟨fun _ => hstatus (Nat.le_refl 1), fun _ => rfl⟩
    · rintro _ g5 ⟨hhold5, h5⟩
      apply (semPost_live h5).conseq
      rintro _ g6 ⟨hhold6, hphase6⟩
      exact ⟨hhold6.trans (hhold5.trans hhold2), hphase6⟩

theorem freePair_live {α : Type} {head resp : UInt16} {m0 m1 : Mapping}
    {context : Option ContextPtr} {b0 b1 : List UInt8} {x : α}
    {Q : α -> GpioGhost -> Prop} (hne : head ≠ resp) (hmne : m0 ≠ m1)
    (hlen0 : m0.len = sizeofVirtioGpioRequest.toNat)
    (hlen1 : m1.len = sizeofVirtioGpioResponse.toNat)
    (hhold : g.holding = pairHolding head resp m0 m1 context b0 b1)
    (hQ : forall g', g'.phase = g.phase -> Q x g') :
    (aliveContract mode scripts served).Live (gpioPatience transport served) .ist g
      ((onQueue (virtqFreeDesc head)).bind fun _ =>
        (onQueue (virtqFreeDesc resp)).bind fun _ => Prog.ret x) Q :=
  Contract.Triple.live (fun _ _ hM => hM) (freePair_triple hne hmne hlen0 hlen1 hhold hQ)
    (aliveContract_keeps.bind fun _ => aliveContract_keeps.bind fun _ => trivial)
    ((ready_free head).zoom.bind fun _ => (ready_free resp).zoom.bind fun _ => trivial)

/-!
## The loops
-/

theorem virtqCallbackRound_live {v : CallbackLocals} (hcalm : mode.calm = true)
    (hphase : g.phase = .draining) :
    (aliveContract mode scripts served).Live (gpioPatience transport served) .ist g
      (virtqCallbackRound v) fun r g' =>
        match r with
        | .inl _ => g'.phase = .draining
        | .inr rc => rc ≠ .EOK ∧ g'.phase = .away := by
  unfold virtqCallbackRound
  apply (virtqGetDescChain_live hphase).bind
  rintro r g1 (⟨rc, rfl, hrc, haway⟩ | ⟨pos, p, a, ptr, rfl, h⟩)
  · exact Contract.Live.ret ⟨hrc, haway⟩
  · rcases h.pair.shape with ⟨resp, m0, m1, hrest, hne, hmne, hlen0, hlen1, hhold⟩
    rw [Published.chain, hrest]
    have h0 : g1.holding.desc p.head = some (requestCell m0 resp p.context) := by
      rw [hhold]
      exact pairHolding_head hne
    have h1 : g1.holding.desc resp = some (responseCell m1) := by
      rw [hhold]
      exact pairHolding_resp
    apply (queue_live (virtqGetDescVaddr_holding h0) (Prog.ready_total _)).bind
    rintro _ g2 ⟨H2, ⟨rfl, rfl⟩, rfl⟩
    apply (queue_live (virtqGetDescVaddr_holding h1) (Prog.ready_total _)).bind
    rintro _ g3 ⟨H3, ⟨rfl, rfl⟩, rfl⟩
    apply (queue_live (virtqGetDescContext_holding h0) (Prog.ready_total _)).bind
    rintro _ g4 ⟨H4, ⟨rfl, rfl⟩, rfl⟩
    dsimp only [CallbackLocals.withIdxs, Except.toOption, Option.getD]
    rw [h.context]
    apply (contextCallback_live hcalm h).bind
    rintro callback g5 rfl
    cases callback
    apply (virtioGpioCallback_live h (by rw [hhold]; exact pairHolding_request hmne)
      hlen0 (by rw [hhold]; exact pairHolding_response) hlen1).bind
    rintro _ g6 ⟨hhold6, hphase6⟩
    refine freePair_live hne hmne hlen0 hlen1 (hhold6.trans hhold) ?_
    exact fun g' hphase' => hphase'.trans hphase6

theorem virtqCallback_live (hcalm : mode.calm = true) (hphase : g.phase = .draining) :
    (aliveContract mode scripts served).Live (gpioPatience transport served) .ist g
      virtqCallback fun rc g' => rc ≠ .EOK ∧ g'.phase = .away := by
  unfold virtqCallback
  apply (answer_live _).bind
  rintro v g1 ⟨rfl, _⟩
  apply Contract.Live.loop (J := fun _ g => g.phase = .draining)
    (P := fun rc g' => rc ≠ .EOK ∧ g'.phase = .away)
  · intro v1 g2 hphase2
    apply (virtqCallbackRound_live hcalm hphase2).conseq
    intro r g3 hr
    cases r with
    | inl v2 => exact hr
    | inr rc => exact hr
  · intro rc g2 hpost
    exact Contract.Live.ret hpost
  · exact hphase

theorem drainVirtq_live (hcalm : mode.calm = true) (hphase : g.phase = .draining) :
    (aliveContract mode scripts served).Live (gpioPatience transport served) .ist g
      drainVirtq fun _ g' => g'.phase = .away := by
  unfold drainVirtq
  apply Contract.Live.loop (J := fun _ g => g.phase = .draining)
    (P := fun _ g' => g'.phase = .away)
  · intro _ g1 hphase1
    apply (virtqCallback_live hcalm hphase1).bind
    rintro rc g2 ⟨hrc, haway⟩
    rw [if_neg hrc]
    exact Contract.Live.ret haway
  · intro rc g1 haway
    exact Contract.Live.ret haway
  · exact hphase

theorem virtioVirtqCallback_live (hcalm : mode.calm = true)
    (hphase : g.phase = .draining) :
    (aliveContract mode scripts served).Live (gpioPatience transport served) .ist g
      (virtioVirtqCallback transport) fun _ g' => g'.phase = .away := by
  cases transport with
  | mmio =>
      unfold virtioVirtqCallback virtioMmioVirtqCallback
      apply (istStep_live readStatus_triple fun _ _ => rfl).bind
      rintro status g1 rfl
      split
      · apply (istStep_live (acknowledge_triple hphase) fun _ _ => rfl).bind
        intro _ g2 hphase2
        exact drainVirtq_live hcalm hphase2
      · exact drainVirtq_live hcalm hphase
  | pci => exact drainVirtq_live hcalm hphase

/-- The interrupt thread ends only if its interrupt cannot be attached. -/
theorem virtioIst_live (hcalm : mode.calm = true) (hphase : g.phase = .away) :
    (aliveContract mode scripts served).Live (gpioPatience transport served) .ist g
      (virtioIst transport) fun _ _ => served = false := by
  unfold virtioIst
  apply (answer_live _).bind
  rintro attached g1 ⟨rfl, hattached⟩
  split
  · apply Contract.Live.loop (J := fun _ g => g.phase = .away) (P := fun _ _ => False)
    · intro _ g2 hphase2
      apply (istStep_live (interruptUnmask_triple hphase2) fun _ _ => rfl).bind
      intro _ g3 hphase3
      apply (interruptWait_live hphase3).bind
      intro _ g4 hphase4
      apply (virtioVirtqCallback_live hcalm hphase4).bind
      intro rc g5 hphase5
      exact Contract.Live.ret hphase5
    · exact fun _ _ hfalse => hfalse.elim
    · exact hphase
  · rename_i hnot
    apply Contract.Live.ret
    cases hserved : served with
    | false => rfl
    | true =>
        rcases hattached hserved with ⟨e, _, hattach, rfl⟩
        exact absurd hattach hnot

end QnxVirtio
