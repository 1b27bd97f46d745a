import QnxVirtio.Gpio.Calls

/-!
# Retrieval

The next used element is the chain of some request that the device has answered.
Retrieving it hands the chain to the interrupt thread.
-/

namespace QnxVirtio

open Foundation

variable {mode : GpioMode} {scripts : Nat -> Nat -> GpioCall} {w w' : GpioSystem}
  {gs : GpioThread -> GpioGhost} {fl : Nat -> Holding}

/-- The chain behind the next used element. -/
structure NextChain (scripts : Nat -> Nat -> GpioCall) (w : GpioSystem)
    (fl : Nat -> Holding) (pos : Nat) (p : Published) (a : GpioAnswer)
    (ptr : ContextPtr) : Prop where
  position : w.device.positions[w.queue.retrieved.length]? = some pos
  outstanding : Outstanding w.queue w.device pos
  published : w.queue.published[pos]? = some p
  answer : a ∈ w.answers
  answerPos : a.pos = pos
  context : p.context = some ptr
  pair : PairHolding p (requestOf scripts ptr).encode [a.status, a.value] (fl pos)

theorem PairHolding.walk {p : Published} {b0 b1 : List UInt8} {H : Holding}
    (h : PairHolding p b0 b1 H) {q : Queue} {hold : GpioOwner -> Holding}
    {o : GpioOwner} (hinv : HoldInv q hold) (hH : hold o = H) :
    chainWalk q.vq.desc 2 p.head = some p.chain := by
  rcases h.shape with ⟨resp, m0, m1, hrest, hne, _, _, _, rfl⟩
  have hhead : q.vq.desc p.head = (requestCell m0 resp p.context).desc :=
    congrArg DescCell.desc (hinv.descs.known o p.head _
      (by rw [hH]; exact pairHolding_head hne))
  have hresp : q.vq.desc resp = (responseCell m1).desc :=
    congrArg DescCell.desc (hinv.descs.known o resp _
      (by rw [hH]; exact pairHolding_resp))
  have hnext : (requestCell m0 resp p.context).desc.hasNext = true :=
    show (((0 : UInt16) ||| VIRTQ_DESC_F_NEXT) &&& VIRTQ_DESC_F_NEXT != 0) = true by
      decide
  have hlast : (responseCell m1).desc.hasNext = false :=
    show (VIRTQ_DESC_F_WRITE &&& VIRTQ_DESC_F_NEXT != 0) = false by decide
  have hlink : (requestCell m0 resp p.context).desc.next = resp := rfl
  simp only [chainWalk, hhead, hnext, hlink, hresp, hlast, if_true, Published.chain,
    hrest]
  rfl

theorem GpioInv.nextChain (h : GpioInv mode scripts w gs fl)
    {e : UsedEntry} (he : w.device.produced[w.queue.retrieved.length]? = some e) :
    exists p a ptr, NextChain scripts w fl e.pos p a ptr ∧
      p.head = e.elem.id.toUInt16 := by
  have hmem : e ∈ w.device.produced := List.mem_of_getElem? he
  have hpos : w.device.positions[w.queue.retrieved.length]? = some e.pos := by
    rw [Device.positions, List.getElem?_map, he]
    rfl
  have hdrop : e.pos ∈ w.device.positions.drop w.queue.retrieved.length := by
    apply List.mem_of_getElem? (i := 0)
    rw [List.getElem?_drop]
    exact hpos
  have hout := h.flow.ring.outstanding_of_drop hdrop
  have hlt : e.pos < w.queue.published.length := hout.1
  have hp : w.queue.published[e.pos]? = some w.queue.published[e.pos] :=
    List.getElem?_eq_getElem hlt
  rcases h.flow.flight e.pos _ hout hp with ⟨ptr, b1, hcontext, hpair, hanswered⟩
  rcases List.mem_map.mp (h.flow.produced e hmem) with ⟨a, ha, hapos⟩
  rw [hanswered a ha hapos] at hpair
  refine ⟨_, a, ptr, ⟨hpos, hout, hp, ha, hapos, hcontext, hpair⟩, ?_⟩
  have hnames := h.flow.ring.entry e hmem
  rcases h.flow.ring.consumed with ⟨rest, hrest⟩
  have hhead : w.queue.heads[e.pos]? = some e.elem.id.toUInt16 := by
    rw [← hrest]
    exact getElem?_append_of_some hnames rest
  rw [Queue.heads, List.getElem?_map, hp] at hhead
  exact Option.some.inj hhead

theorem outstanding_retrieve {q : Queue} {d : Device} {vq' : Virtq}
    {chain : List UInt16} {pos pos' : Nat}
    (hpos : d.positions[q.retrieved.length]? = some pos)
    (h : Outstanding { q with vq := vq', retrieved := q.retrieved ++ [chain] } d pos') :
    pos' ≠ pos ∧ Outstanding q d pos' := by
  rcases h with ⟨hlt, hnot⟩
  have htake : retiredPositions
      { q with vq := vq', retrieved := q.retrieved ++ [chain] } d =
        retiredPositions q d ++ [pos] := by
    simp only [retiredPositions, List.length_append, List.length_singleton]
    rw [List.take_add_one, hpos]
    rfl
  rw [htake, List.mem_append, List.mem_singleton, not_or] at hnot
  exact ⟨hnot.2, hlt, hnot.1⟩

theorem FlowInv.retrieve (h : FlowInv scripts w fl) {pos : Nat} {vq' : Virtq}
    {chain : List UInt16}
    (hpos : w.device.positions[w.queue.retrieved.length]? = some pos)
    (hring : RingFlow { w.queue with
      vq := vq'
      retrieved := w.queue.retrieved ++ [chain] } w.device) :
    FlowInv scripts { w with queue := { w.queue with
      vq := vq'
      retrieved := w.queue.retrieved ++ [chain] } }
      (Function.update fl pos Holding.empty) where
  ring := hring
  published := h.published
  flight := by
    intro pos' p' hout hp'
    rcases outstanding_retrieve hpos hout with ⟨hne, hold⟩
    rw [Function.update_of_ne hne]
    exact h.flight pos' p' hold hp'
  answered := h.answered
  answersNodup := h.answersNodup
  produced := h.produced
  pending := h.pending

theorem GpioInv.retrieve (h : GpioInv mode scripts w gs fl) {lock : Rc}
    {chain : List UInt16} {vq' : Virtq} (hphase : (gs .ist).phase = .draining)
    (hget : w.queue.vq.getDescChain lock 2 = some (.ok chain, vq')) :
    exists pos p a ptr, chain = p.chain ∧ p.context = some ptr ∧
      PairHolding p (requestOf scripts ptr).encode [a.status, a.value] (fl pos) ∧
      GpioInv mode scripts { w with queue := { w.queue with
          vq := vq'
          retrieved := w.queue.retrieved ++ [chain] } }
        (Function.update gs .ist
          { holding := fl pos
            stage := (gs .ist).stage
            phase := .serving pos p a 0 })
        (Function.update fl pos Holding.empty) := by
  rcases h.flow.ring.retrieve hget with ⟨hvq, ⟨e, he, hwalk⟩, hring⟩
  rcases h.nextChain he with ⟨p, a, ptr, hnext, hhead⟩
  have hchain : chain = p.chain := by
    have hwalk' := hnext.pair.walk (o := GpioOwner.chain e.pos) h.holding rfl
    rw [hhead] at hwalk'
    exact Option.some.inj (hwalk.symm.trans hwalk')
  refine ⟨e.pos, p, a, ptr, hchain, hnext.context, hnext.pair, ?_⟩
  have hhistory := h.phase.history
  rw [hphase] at hhistory
  constructor
  · rw [holdings_update_thread, holdings_update_chain]
    have hne : GpioOwner.chain e.pos ≠ .thread .ist := by simp
    rw [Function.update_comm hne]
    exact (h.holding.transfer hne).congr (by rw [hvq]) (by rw [hvq])
      (by rw [hvq]; rfl) rfl
  · exact h.flow.retrieve hnext.position hring
  · rw [Function.update_self]
    constructor
    · refine ⟨?_, ?_, hnext.published, hnext.answer, hnext.answerPos⟩
      · change _ = (w.queue.retrieved ++ [chain]).length
        rw [List.length_append, List.length_singleton, ← show
          w.delivered.length = w.queue.retrieved.length from hhistory]
      · change w.device.positions[w.delivered.length]? = _
        rw [show w.delivered.length = w.queue.retrieved.length from hhistory]
        exact hnext.position
    · exact h.phase.delivered
    · intro hwaiting
      have haway := h.phase.waiting hwaiting
      rw [hphase] at haway
      cases haway
    · intro _ haway
      cases haway
  · intro hcalm
    rw [Function.update_self, stages_update_ist]
    have hctx : ContextInv mode scripts { w with queue := { w.queue with
        vq := vq'
        retrieved := w.queue.retrieved ++ [chain] } } (stages gs) (gs .ist).phase :=
      (h.context hcalm).congr rfl rfl rfl rfl rfl fun _ ha => ha
    refine hctx.enterPhase ?_
    intro _ _ _ _ heq
    cases heq
    rfl

end QnxVirtio
