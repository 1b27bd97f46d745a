import QnxVirtio.Gpio.Contexts

/-!
# Publication and retrieval

A client hands the descriptors and buffers of a chain over when it publishes the
chain; the interrupt thread gets them when it retrieves the chain.  In between
they belong to the chain, which keeps the heads of outstanding chains apart.
-/

namespace QnxVirtio

open Foundation

/-!
## The pair of descriptors
-/

section Pair

variable {head resp : UInt16} {m0 m1 : Mapping} {context : Option ContextPtr}
  {b0 b1 : List UInt8}

theorem pairHolding_head (h : head ≠ resp) :
    (pairHolding head resp m0 m1 context b0 b1).desc head =
      some (requestCell m0 resp context) := by
  simp [pairHolding, Holding.setDesc_of_ne _ _ h]

theorem pairHolding_resp :
    (pairHolding head resp m0 m1 context b0 b1).desc resp =
      some (responseCell m1) := by
  simp [pairHolding]

theorem pairHolding_request (h : m0 ≠ m1) :
    (pairHolding head resp m0 m1 context b0 b1).region m0 = some b0 := by
  simp [pairHolding, Holding.setRegion_of_ne _ _ h]

theorem pairHolding_response :
    (pairHolding head resp m0 m1 context b0 b1).region m1 = some b1 := by
  simp [pairHolding]

theorem pairHolding_setResponse (b : List UInt8) :
    (pairHolding head resp m0 m1 context b0 b1).setRegion m1 (some b) =
      pairHolding head resp m0 m1 context b0 b := by
  simp [pairHolding]

end Pair

theorem Flight.head {scripts : Nat -> Nat -> GpioCall} {answers : List GpioAnswer}
    {pos : Nat} {p : Published} {H : Holding} (h : Flight scripts answers pos p H) :
    exists c, H.desc p.head = some c := by
  rcases h with ⟨ptr, b1, _, ⟨⟨resp, m0, m1, _, hne, _, _, _, rfl⟩⟩, _⟩
  exact ⟨_, pairHolding_head hne⟩

theorem headsApart_of_owned {q : Queue} {d : Device} {hold : GpioOwner -> Holding}
    (h : HoldInv q hold)
    (hheads : forall pos (p : Published), Outstanding q d pos ->
      q.published[pos]? = some p -> exists c, (hold (.chain pos)).desc p.head = some c) :
    HeadsApart q d where
  lt := by
    intro pos head hout hhead
    rw [Queue.heads, List.getElem?_map] at hhead
    rcases Option.map_eq_some_iff.mp hhead with ⟨p, hp, rfl⟩
    rcases hheads pos p hout hp with ⟨c, hc⟩
    exact h.descs.live (.chain pos) p.head c hc
  inj := by
    intro pos pos' head hout hout' hhead hhead'
    rw [Queue.heads, List.getElem?_map] at hhead hhead'
    rcases Option.map_eq_some_iff.mp hhead with ⟨p, hp, rfl⟩
    rcases Option.map_eq_some_iff.mp hhead' with ⟨p', hp', heq⟩
    rcases hheads pos p hout hp with ⟨c, hc⟩
    rcases hheads pos' p' hout' hp' with ⟨c', hc'⟩
    rw [heq] at hc'
    have howner := h.descs.unique (.chain pos) (.chain pos') p.head c c' hc hc'
    cases howner
    rfl

variable {mode : GpioMode} {scripts : Nat -> Nat -> GpioCall} {w : GpioSystem}
  {gs : GpioThread -> GpioGhost} {fl : Nat -> Holding}

theorem GpioInv.headsApart (h : GpioInv mode scripts w gs fl) :
    HeadsApart w.queue w.device :=
  headsApart_of_owned h.holding fun pos p hout hp => (h.flow.flight pos p hout hp).head

/-!
## Publication
-/

/-- The section under the spinlock in `virtq_put_desc_chain`. -/
def publishChain (head : UInt16) (rest : List UInt16) : Prog Env Queue Rc :=
  Prog.action fun e q =>
    if e.lock ≠ .EOK then some (e.lock, q)
    else
      some (.EOK, { q with
        vq := q.vq.publish head
        published := q.published ++
          [{ head := head
             rest := rest
             context := (q.vq.descExtras head).context }] })

theorem virtqPutDescChain_eq (head : UInt16) (rest : List UInt16) :
    virtqPutDescChain head rest =
      (linkChain head rest).bind fun _ => publishChain head rest := rfl

/-- The queue after a publication. -/
def Queue.withPublished (q : Queue) (p : Published) : Queue :=
  { q with vq := q.vq.publish p.head, published := q.published ++ [p] }

theorem FlowInv.flight_withPublished (h : FlowInv scripts w fl) {p : Published}
    {H : Holding} {ptr : ContextPtr} {b1 : List UInt8} (hcontext : p.context = some ptr)
    (hpair : PairHolding p (requestOf scripts ptr).encode b1 H) (pos : Nat)
    (p' : Published) (hout : Outstanding (w.queue.withPublished p) w.device pos)
    (hp' : (w.queue.withPublished p).published[pos]? = some p') :
    Flight scripts w.answers pos p'
      (Function.update fl w.queue.published.length H pos) := by
  rcases hout.of_concat (q := w.queue) rfl rfl hp' with ⟨rfl, rfl⟩ | ⟨hold, hp'⟩
  · rw [Function.update_self]
    refine ⟨ptr, b1, hcontext, hpair, ?_⟩
    -- the device has not read the chain, so it has not answered
    intro a ha hpos
    have hlt := (h.answered a ha).1
    rw [hpos] at hlt
    exact absurd (Nat.lt_of_lt_of_le hlt h.ring.consumed_le) (Nat.lt_irrefl _)
  · rw [Function.update_of_ne (Nat.ne_of_lt hold.1)]
    exact h.flight pos p' hold hp'

theorem FlowInv.publish (h : FlowInv scripts w fl) {p : Published} {H : Holding}
    {ptr : ContextPtr} {b1 : List UInt8} (hcontext : p.context = some ptr)
    (hpair : PairHolding p (requestOf scripts ptr).encode b1 H)
    (happart : HeadsApart (w.queue.withPublished p) w.device) :
    FlowInv scripts { w with queue := w.queue.withPublished p }
      (Function.update fl w.queue.published.length H) where
  ring := h.ring.publish p rfl happart
  published := by
    intro p' hp'
    rcases List.mem_append.mp hp' with hp' | hp'
    · exact h.published p' hp'
    · cases List.mem_singleton.mp hp'
      exact ⟨ptr, hcontext⟩
  flight := h.flight_withPublished hcontext hpair
  answered := by
    intro a ha
    rcases h.answered a ha with ⟨hlt, p', ptr', hp', hcontext', hrequest⟩
    exact ⟨hlt, p', ptr', getElem?_append_of_some hp' _, hcontext', hrequest⟩
  answersNodup := h.answersNodup
  produced := h.produced
  pending := h.pending

theorem PhaseInv.publish {phase : IstPhase} (h : PhaseInv mode w phase)
    (p : Published) :
    PhaseInv mode { w with queue := w.queue.withPublished p } phase where
  history := by
    have hhistory := h.history
    cases phase with
    | away => exact hhistory
    | draining => exact hhistory
    | serving pos p' a k =>
        rcases hhistory with ⟨hlen, hpos, hp', ha, hapos⟩
        exact ⟨hlen, hpos, getElem?_append_of_some hp' _, ha, hapos⟩
  delivered := by
    intro n ptr hn
    rcases h.delivered n ptr hn with ⟨pos, p', hpos, hp', hcontext⟩
    exact ⟨pos, p', hpos, getElem?_append_of_some hp' _, hcontext⟩
  waiting := h.waiting
  signalled := h.signalled

theorem GpioInv.publish (h : GpioInv mode scripts w gs fl) {t n : Nat}
    {c : VirtioGpioContext} {p : Published} {b1 : List UInt8}
    (hstage : (gs (.client t)).stage = .calling n c) (hsem : c.sem = some 0)
    (hcontext : p.context = some ⟨t, n⟩)
    (hpair : PairHolding p (requestOf scripts ⟨t, n⟩).encode b1
      (gs (.client t)).holding) :
    GpioInv mode scripts { w with queue := w.queue.withPublished p }
      (Function.update gs (.client t)
        { holding := Holding.empty
          stage := .sent n w.queue.published.length
          phase := (gs (.client t)).phase })
      (Function.update fl w.queue.published.length (gs (.client t)).holding) := by
  have hhold : HoldInv (w.queue.withPublished p)
      (holdings (Function.update gs (.client t)
        { holding := Holding.empty
          stage := .sent n w.queue.published.length
          phase := (gs (.client t)).phase })
        (Function.update fl w.queue.published.length (gs (.client t)).holding)) := by
    rw [holdings_update_thread, holdings_update_chain]
    have hne : GpioOwner.thread (.client t) ≠ .chain w.queue.published.length := by
      simp
    exact (h.holding.transfer hne).congr rfl rfl rfl rfl
  constructor
  · exact hhold
  · refine h.flow.publish hcontext hpair ?_
    refine headsApart_of_owned hhold ?_
    intro pos p' hout hp'
    exact (h.flow.flight_withPublished hcontext hpair pos p' hout hp').head
  · rw [phase_update_client]
    exact h.phase.publish p
  · intro hcalm
    rw [phase_update_client, stages_update_client]
    have hctx := h.context hcalm
    refine hctx.publish hstage hsem hcontext ?_ rfl rfl rfl rfl rfl rfl
    intro hmem
    rcases h.phase.published_of_delivered hmem with ⟨_, pos, p', _, _, hp', hcontext'⟩
    have hbefore := hctx.stages t
    rw [show stages gs t = .calling n c from hstage] at hbefore
    exact Nat.lt_irrefl _ (hbefore.1 p' (List.mem_of_getElem? hp') n hcontext')

end QnxVirtio
