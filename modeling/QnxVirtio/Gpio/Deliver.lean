import QnxVirtio.Gpio.Ist

/-!
# Delivery

The interrupt thread copies an answer into the context of its client, posts the
context, frees the chain, and goes on until nothing is left.
-/

namespace QnxVirtio

open Foundation

variable {mode : GpioMode} {transport : Transport}
  {scripts : Nat -> Nat -> GpioCall} {w w' : GpioSystem}
  {gs : GpioThread -> GpioGhost} {fl : Nat -> Holding}
  {g : GpioGhost} {pos : Nat} {p : Published} {a : GpioAnswer} {ptr : ContextPtr}

theorem PhaseInv.serving {k k' : Nat}
    (h : PhaseInv mode w (.serving pos p a k))
    (hqueue : w'.queue = w.queue) (hdevice : w'.device = w.device)
    (hanswers : w'.answers = w.answers) (hdelivered : w'.delivered = w.delivered)
    (hwaiting : w'.waiting = w.waiting) :
    PhaseInv mode w' (.serving pos p a k') where
  history := by
    have hhistory := h.history
    unfold PhaseHistory at hhistory ⊢
    rw [hqueue, hdevice, hanswers, hdelivered]
    exact hhistory
  delivered := by
    rw [hqueue, hdevice, hdelivered]
    exact h.delivered
  waiting := by
    intro htrue
    rw [hwaiting] at htrue
    cases h.waiting htrue
  signalled := by
    intro _ haway
    cases haway

theorem contextCallback_triple (h : Serving scripts g pos p a ptr 0) :
    (gpioContract mode scripts).Triple .ist g (contextCallback ptr)
      fun _ g' => g' = g := by
  apply Contract.Triple.action
  rintro e w gs callback w' hok ⟨fl, hinv⟩ rfl hf
  dsimp only at hf
  split at hf
  · rcases Option.map_eq_some_iff.mp hf with ⟨_, _, hout⟩
    cases hout
    refine ⟨gs .ist, ⟨fl, ?_⟩, rfl⟩
    rwa [Function.update_eq_self]
  · rename_i hgone
    cases hf
    have hserving := h.phase
    have hold := hinv.phase
    rw [hserving] at hold
    have hinv' : GpioInv mode scripts
        { w with stale := w.stale ++ [ptr] }
        (Function.update gs .ist { gs .ist with phase := .serving pos p a 0 }) fl := by
      refine hinv.onIst rfl rfl rfl (hold.serving rfl rfl rfl rfl rfl) ?_
      intro _ hctx
      rcases hctx.servedContext hinv.phase hinv.flow.ring hserving h.context with
        ⟨c, hc, _⟩
      rw [hgone] at hc
      cases hc
    have hsame : { gs .ist with phase := .serving pos p a 0 } = gs .ist := by
      rw [← hserving]
    rw [hsame] at hinv'
    exact ⟨gs .ist, ⟨fl, hinv'⟩, rfl⟩

theorem copyContext_triple {k : Nat} (k' : Nat) (h : Serving scripts g pos p a ptr k)
    {f : VirtioGpioContext -> VirtioGpioContext} (hsem : forall c, (f c).sem = c.sem)
    (hcopied : forall c, (1 <= k -> c.status = a.status) ->
      (2 <= k -> c.value = a.value) ->
        (1 <= k' -> (f c).status = a.status) ∧ (2 <= k' -> (f c).value = a.value)) :
    (gpioContract mode scripts).Triple .ist g (setContext ptr f)
      fun _ g' => g'.holding = g.holding ∧ Serving scripts g' pos p a ptr k' := by
  apply Contract.Triple.action
  rintro e w gs b w' hok ⟨fl, hinv⟩ rfl hf
  cases hf
  have hframe := ClientFrame.changeContext w ptr f
  have hold := hinv.phase
  rw [h.phase] at hold
  refine ⟨{ gs .ist with phase := .serving pos p a k' }, ⟨fl, hinv.onIst hframe.queue
    hframe.device hframe.answers (hold.serving hframe.queue hframe.device
      hframe.answers hframe.delivered hframe.waiting) ?_⟩, rfl, h.context, h.pair,
    rfl⟩
  intro _ hctx
  exact hctx.copy hinv.phase hinv.flow.ring h.phase h.context hsem hcopied

theorem PhaseInv.post (h : PhaseInv mode w (.serving pos p a 2))
    (hcontext : p.context = some ptr) (hqueue : w'.queue = w.queue)
    (hdevice : w'.device = w.device) (hdelivered : w'.delivered = w.delivered ++ [ptr])
    (hwaiting : w'.waiting = w.waiting) : PhaseInv mode w' .draining where
  history := by
    rcases h.history with ⟨hlen, _⟩
    change w'.delivered.length = w'.queue.retrieved.length
    rw [hdelivered, hqueue, List.length_append, List.length_singleton, hlen]
  delivered := by
    rcases h.history with ⟨_, hpos, hp, _, _⟩
    intro n ptr' hn
    rw [hdelivered] at hn
    rw [hqueue, hdevice]
    rcases getElem?_concat_eq_some_iff.mp hn with hold | ⟨rfl, rfl⟩
    · exact h.delivered n ptr' hold
    · exact ⟨pos, p, hpos, hp, hcontext⟩
  waiting := by
    intro htrue
    rw [hwaiting] at htrue
    cases h.waiting htrue
  signalled := by
    intro _ haway
    cases haway

theorem semPost_triple (h : Serving scripts g pos p a ptr 2) :
    (gpioContract mode scripts).Triple .ist g (semPost ptr)
      fun _ g' => g'.holding = g.holding ∧ g'.phase = .draining := by
  apply Contract.Triple.action
  rintro e w gs b w' hok ⟨fl, hinv⟩ rfl hf
  cases hf
  have hframe := ClientFrame.changeContext w ptr
    fun c => { c with sem := c.sem.map (· + 1) }
  have hold := hinv.phase
  rw [h.phase] at hold
  refine ⟨{ gs .ist with phase := .draining }, ⟨fl, hinv.onIst hframe.queue
    hframe.device hframe.answers (hold.post h.context hframe.queue hframe.device rfl
      hframe.waiting) ?_⟩, rfl, rfl⟩
  intro _ hctx
  exact hctx.post hinv.phase hinv.flow.ring h.phase h.context rfl rfl

/-!
## The callback
-/

theorem GpioCall.type_ne (call : GpioCall) :
    call.request.type ≠ VIRTIO_GPIO_MSG_GET_LINE_NAMES := by
  cases call with
  | setValue gpio value => exact show VIRTIO_GPIO_MSG_SET_VALUE ≠ _ by decide
  | getValue gpio => exact show VIRTIO_GPIO_MSG_GET_VALUE ≠ _ by decide
  | getDirection gpio => exact show VIRTIO_GPIO_MSG_GET_DIRECTION ≠ _ by decide
  | setDirection gpio direction =>
      exact show VIRTIO_GPIO_MSG_SET_DIRECTION ≠ _ by decide

theorem virtioGpioCallback_triple {m0 m1 : Mapping}
    (h : Serving scripts g pos p a ptr 0)
    (hrequest : g.holding.region m0 = some (requestOf scripts ptr).encode)
    (hlen0 : m0.len = 8) (hresponse : g.holding.region m1 = some [a.status, a.value])
    (hlen1 : m1.len = 2) :
    (gpioContract mode scripts).Triple .ist g
      (virtioGpioCallback m0.vaddr m1.vaddr ptr) fun _ g' =>
        g'.holding = g.holding ∧ g'.phase = .draining := by
  unfold virtioGpioCallback
  apply (queue_triple (loadVirt_holding hresponse
    (show m1.vaddr = m1.vaddr + 0 from rfl) (by decide) (by rw [hlen1]; decide))).bind
  rintro status g1 ⟨H1, ⟨rfl, rfl⟩, rfl⟩
  refine (copyContext_triple 1 h ?_ ?_).bind ?_
  · exact fun _ => rfl
  · intro c _ _
    exact ⟨fun _ => rfl, fun hle => absurd hle (by decide)⟩
  · rintro _ g2 ⟨hhold2, h2⟩
    rw [← hhold2] at hrequest hresponse
    apply (queue_triple (loadVirt_holding hrequest
      (show m0.vaddr = m0.vaddr + 0 from rfl) (by decide)
      (by rw [hlen0]; decide))).bind
    rintro type g3 ⟨H3, ⟨rfl, rfl⟩, rfl⟩
    have htype : decode16 (((requestOf scripts ptr).encode.drop 0).take 2) =
        (requestOf scripts ptr).type := decode16_encode16 _
    have hne : (requestOf scripts ptr).type ≠ VIRTIO_GPIO_MSG_GET_LINE_NAMES :=
      GpioCall.type_ne _
    rw [htype, if_neg hne]
    apply (queue_triple (loadVirt_holding hresponse (Eq.refl (m1.vaddr + 1))
      (by decide) (Nat.le_of_eq hlen1.symm))).bind
    rintro value g4 ⟨H4, ⟨rfl, rfl⟩, rfl⟩
    refine (copyContext_triple 2 h2 ?_ ?_).bind ?_
    · exact fun _ => rfl
    · intro c hstatus _
      exact ⟨fun _ => hstatus (Nat.le_refl 1), fun _ => rfl⟩
    · rintro _ g5 ⟨hhold5, h5⟩
      apply (semPost_triple h5).conseq
      rintro _ g6 ⟨hhold6, hphase6⟩
      exact ⟨hhold6.trans (hhold5.trans hhold2), hphase6⟩

/-!
## Freeing the chain
-/

theorem requestCell_buffer {m : Mapping} {resp : UInt16}
    {context : Option ContextPtr} (hlen : m.len = sizeofVirtioGpioRequest.toNat) :
    (requestCell m resp context).buffer = m := by
  simp only [DescCell.buffer, requestCell, ← hlen]

theorem responseCell_buffer {m : Mapping}
    (hlen : m.len = sizeofVirtioGpioResponse.toNat) :
    (responseCell m).buffer = m := by
  simp only [DescCell.buffer, responseCell, ← hlen]

theorem freePair_triple {α : Type} {head resp : UInt16} {m0 m1 : Mapping}
    {context : Option ContextPtr} {b0 b1 : List UInt8} {x : α}
    {Q : α -> GpioGhost -> Prop} (hne : head ≠ resp) (hmne : m0 ≠ m1)
    (hlen0 : m0.len = sizeofVirtioGpioRequest.toNat)
    (hlen1 : m1.len = sizeofVirtioGpioResponse.toNat)
    (hhold : g.holding = pairHolding head resp m0 m1 context b0 b1)
    (hQ : forall g', g'.phase = g.phase -> Q x g') :
    (gpioContract mode scripts).Triple .ist g
      ((onQueue (virtqFreeDesc head)).bind fun _ =>
        (onQueue (virtqFreeDesc resp)).bind fun _ => Prog.ret x) Q := by
  have h0 : g.holding.desc head = some (requestCell m0 resp context) := by
    rw [hhold]
    exact pairHolding_head hne
  have hb0 : g.holding.region (requestCell m0 resp context).buffer = some b0 := by
    rw [requestCell_buffer hlen0, hhold]
    exact pairHolding_request hmne
  apply (queue_triple (virtqFreeDesc_holding h0 hb0)).bind
  rintro _ g1 ⟨H1, rfl, rfl⟩
  have h1 : ((g.holding.setDesc head none).setRegion
      (requestCell m0 resp context).buffer none).desc resp =
        some (responseCell m1) := by
    rw [Holding.setRegion_desc, Holding.setDesc_of_ne _ _ hne.symm, hhold]
    exact pairHolding_resp
  have hb1 : ((g.holding.setDesc head none).setRegion
      (requestCell m0 resp context).buffer none).region (responseCell m1).buffer =
        some b1 := by
    rw [requestCell_buffer hlen0, responseCell_buffer hlen1,
      Holding.setRegion_of_ne _ _ hmne.symm, Holding.setDesc_region, hhold]
    exact pairHolding_response
  apply (queue_triple (virtqFreeDesc_holding h1 hb1)).bind
  rintro _ g2 ⟨H2, rfl, rfl⟩
  exact Contract.Triple.ret (hQ _ rfl)

/-!
## The loops
-/

theorem virtqCallbackRound_triple {v : CallbackLocals} (hphase : g.phase = .draining) :
    (gpioContract mode scripts).Triple .ist g (virtqCallbackRound v)
      fun r g' =>
        match r with
        | .inl _ => g'.phase = .draining
        | .inr rc => rc ≠ .EOK ∧ g'.phase = .away := by
  unfold virtqCallbackRound
  apply (virtqGetDescChain_triple hphase).bind
  rintro r g1 (⟨rc, rfl, hrc, haway⟩ | ⟨pos, p, a, ptr, rfl, h⟩)
  · exact Contract.Triple.ret ⟨hrc, haway⟩
  · rcases h.pair.shape with ⟨resp, m0, m1, hrest, hne, hmne, hlen0, hlen1, hhold⟩
    rw [Published.chain, hrest]
    have h0 : g1.holding.desc p.head = some (requestCell m0 resp p.context) := by
      rw [hhold]
      exact pairHolding_head hne
    have h1 : g1.holding.desc resp = some (responseCell m1) := by
      rw [hhold]
      exact pairHolding_resp
    apply (queue_triple (virtqGetDescVaddr_holding h0)).bind
    rintro _ g2 ⟨H2, ⟨rfl, rfl⟩, rfl⟩
    apply (queue_triple (virtqGetDescVaddr_holding h1)).bind
    rintro _ g3 ⟨H3, ⟨rfl, rfl⟩, rfl⟩
    apply (queue_triple (virtqGetDescContext_holding h0)).bind
    rintro _ g4 ⟨H4, ⟨rfl, rfl⟩, rfl⟩
    dsimp only [CallbackLocals.withIdxs, Except.toOption, Option.getD]
    rw [h.context]
    apply (contextCallback_triple h).bind
    rintro callback g5 rfl
    cases callback
    apply (virtioGpioCallback_triple h (by rw [hhold]; exact pairHolding_request hmne)
      hlen0 (by rw [hhold]; exact pairHolding_response) hlen1).bind
    rintro _ g6 ⟨hhold6, hphase6⟩
    refine freePair_triple hne hmne hlen0 hlen1 (hhold6.trans hhold) ?_
    exact fun g' hphase' => hphase'.trans hphase6

theorem virtqCallback_triple (hphase : g.phase = .draining) :
    (gpioContract mode scripts).Triple .ist g virtqCallback fun rc g' =>
      rc ≠ .EOK ∧ g'.phase = .away := by
  unfold virtqCallback
  apply (answer_triple _).bind
  rintro v g1 rfl
  apply Contract.Triple.loop (J := fun _ g => g.phase = .draining)
    (R := fun rc g' => rc ≠ .EOK ∧ g'.phase = .away)
  · intro v1 g2 hphase2
    apply (virtqCallbackRound_triple hphase2).conseq
    intro r g3 hr
    cases r with
    | inl v2 => exact hr
    | inr rc => exact hr
  · intro rc g2 hpost
    exact Contract.Triple.ret hpost
  · exact hphase

theorem drainVirtq_triple (hphase : g.phase = .draining) :
    (gpioContract mode scripts).Triple .ist g drainVirtq fun _ g' =>
      g'.phase = .away := by
  unfold drainVirtq
  apply Contract.Triple.loop (J := fun _ g => g.phase = .draining)
    (R := fun _ g' => g'.phase = .away)
  · intro _ g1 hphase1
    apply (virtqCallback_triple hphase1).bind
    rintro rc g2 ⟨hrc, haway⟩
    rw [if_neg hrc]
    exact Contract.Triple.ret haway
  · intro rc g1 haway
    exact Contract.Triple.ret haway
  · exact hphase

theorem virtioVirtqCallback_triple (hphase : g.phase = .draining) :
    (gpioContract mode scripts).Triple .ist g
      (virtioVirtqCallback transport) fun _ g' => g'.phase = .away := by
  cases transport with
  | mmio =>
      unfold virtioVirtqCallback virtioMmioVirtqCallback
      apply readStatus_triple.bind
      rintro status g1 rfl
      split
      · apply (acknowledge_triple hphase).bind
        intro _ g2 hphase2
        exact drainVirtq_triple hphase2
      · exact drainVirtq_triple hphase
  | pci => exact drainVirtq_triple hphase

theorem virtioIst_triple (hphase : g.phase = .away) :
    (gpioContract mode scripts).Triple .ist g (virtioIst transport)
      fun _ _ => True := by
  unfold virtioIst
  apply (answer_triple _).bind
  rintro attached g1 rfl
  split
  · apply Contract.Triple.loop (J := fun _ g => g.phase = .away)
      (R := fun _ _ => True)
    · intro _ g2 hphase2
      apply (interruptUnmask_triple hphase2).bind
      intro _ g3 hphase3
      apply (interruptWait_triple hphase3).bind
      intro _ g4 hphase4
      apply (virtioVirtqCallback_triple hphase4).bind
      intro rc g5 hphase5
      exact Contract.Triple.ret hphase5
    · exact fun _ _ _ => Contract.Triple.ret trivial
    · exact hphase
  · exact Contract.Triple.ret trivial

end QnxVirtio
