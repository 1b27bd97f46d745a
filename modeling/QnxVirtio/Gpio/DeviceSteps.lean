import QnxVirtio.Gpio.Frame
import QnxVirtio.Gpio.Publish

/-!
# The device

Every move of the device keeps the invariant.
-/

namespace QnxVirtio

open Foundation

variable {mode : GpioMode} {scripts : Nat -> Nat -> GpioCall} {w w' : GpioSystem}
  {gs : GpioThread -> GpioGhost} {fl : Nat -> Holding}

theorem VirtioGpioRequest.decode_encode (r : VirtioGpioRequest) :
    VirtioGpioRequest.decode r.encode = r := by
  rcases r with ⟨type, gpio, value⟩
  change VirtioGpioRequest.mk (decode16 (encode16 type)) (decode16 (encode16 gpio))
    (decode32 (encode32 value)) = _
  rw [decode16_encode16, decode16_encode16, decode32_encode32]

/-!
## The rings
-/

theorem GpioInv.onRings (h : GpioInv mode scripts w gs fl) {vq' : Virtq}
    {d' : Device} (hw' : w' = { w with
      queue := { w.queue with vq := vq' }
      device := d' })
    (hring : RingFlow { w.queue with vq := vq' } d')
    (hfree : vq'.freeDescs = w.queue.vq.freeDescs) (hnum : vq'.num = w.queue.vq.num)
    (hcell : vq'.cell = w.queue.vq.cell) (hproduced : d'.produced = w.device.produced)
    (hconsumed : w.device.consumed <+: d'.consumed)
    (hpending : forall e, d'.pending = some e -> e.pos ∈ w.answers.map GpioAnswer.pos) :
    GpioInv mode scripts w' gs fl := by
  subst hw'
  constructor
  · exact h.holding.congr hfree hnum hcell rfl
  · constructor
    case ring => exact hring
    case published => exact h.flow.published
    case flight =>
      intro pos p hout hp
      exact h.flow.flight pos p
        (hout.congr rfl rfl (Device.positions_congr hproduced).symm) hp
    case answered =>
      intro a ha
      rcases h.flow.answered a ha with ⟨hlt, hrest⟩
      exact ⟨Nat.lt_of_lt_of_le hlt hconsumed.length_le, hrest⟩
    case answersNodup => exact h.flow.answersNodup
    case produced =>
      intro e he
      rw [show d'.produced = w.device.produced from hproduced] at he
      exact h.flow.produced e he
    case pending => exact hpending
  · exact h.phase.congr rfl rfl hproduced (fun _ ha => ha) rfl rfl
      fun hsig => hsig.congr rfl hproduced rfl rfl
  · intro hcalm
    exact (h.context hcalm).congr rfl rfl rfl rfl rfl fun _ ha => ha

theorem GpioInv.take (h : GpioInv mode scripts w gs fl) {d' : Device}
    (htake : w.device.take w.queue.vq = some d') :
    GpioInv mode scripts { w with device := d' } gs fl := by
  have hring := h.flow.ring.take htake
  unfold Device.take at htake
  split at htake
  · cases htake
  · cases htake
    exact h.onRings rfl hring rfl rfl rfl rfl (List.prefix_append _ _) h.flow.pending

theorem GpioInv.store (h : GpioInv mode scripts w gs fl) {pos : Nat}
    {len : UInt32} {vq' : Virtq} {d' : Device}
    (hpos : pos ∈ w.answers.map GpioAnswer.pos)
    (hstore : w.device.store pos len w.queue.vq = some (vq', d')) :
    GpioInv mode scripts
      { w with queue := { w.queue with vq := vq' }, device := d' } gs fl := by
  have hring := h.flow.ring.store h.headsApart hstore
  unfold Device.store at hstore
  split at hstore
  · split at hstore
    · cases hstore
    · cases hstore
      refine h.onRings rfl hring rfl rfl rfl rfl (List.prefix_refl _) ?_
      intro e he
      cases he
      exact hpos
  · cases hstore

theorem Device.positions_bump (d : Device) (e : UsedEntry) :
    Device.positions { d with pending := none, produced := d.produced ++ [e] } =
      d.positions ++ [e.pos] := by
  simp [Device.positions]

theorem outstanding_bump {q : Queue} {d : Device} {e : UsedEntry}
    (hle : q.retrieved.length <= d.positions.length) {pos : Nat} {vq' : Virtq}
    (hout : Outstanding { q with vq := vq' } { d with
      pending := none
      produced := d.produced ++ [e] } pos) : Outstanding q d pos := by
  refine ⟨hout.1, ?_⟩
  have hnot := hout.2
  unfold retiredPositions at hnot
  rw [Device.positions_bump, List.take_append_of_le_length hle] at hnot
  exact hnot

theorem GpioInv.bump (h : GpioInv mode scripts w gs fl) {vq' : Virtq}
    {d' : Device} (hbump : w.device.bump w.queue.vq = some (vq', d')) :
    GpioInv mode scripts { w with
      queue := { w.queue with vq := vq' }
      device := d'
      raise := true } gs fl := by
  have hring := h.flow.ring.bump h.headsApart hbump
  rcases Option.map_eq_some_iff.mp hbump with ⟨e, hpending, hout⟩
  cases hout
  have hle : w.queue.retrieved.length <= w.device.positions.length := by
    simpa using h.flow.ring.retrieved_le
  constructor
  · exact h.holding.congr rfl rfl rfl rfl
  · constructor
    case ring => exact hring
    case published => exact h.flow.published
    case flight =>
      intro pos p hout hp
      exact h.flow.flight pos p (outstanding_bump hle hout) hp
    case answered => exact h.flow.answered
    case answersNodup => exact h.flow.answersNodup
    case produced =>
      intro e' he'
      rcases List.mem_append.mp he' with he' | he'
      · exact h.flow.produced e' he'
      · cases List.mem_singleton.mp he'
        exact h.flow.pending e hpending
    case pending =>
      intro e' he'
      cases he'
  · constructor
    · have hhistory := h.phase.history
      cases hphase : (gs .ist).phase with
      | away =>
          rw [hphase] at hhistory
          exact hhistory
      | draining =>
          rw [hphase] at hhistory
          exact hhistory
      | serving pos p a k =>
          rw [hphase] at hhistory
          rcases hhistory with ⟨hlen, hpos, hrest⟩
          refine ⟨hlen, ?_, hrest⟩
          rw [Device.positions_bump]
          exact getElem?_append_of_some hpos _
    · intro n ptr hn
      rcases h.phase.delivered n ptr hn with ⟨pos, p, hpos, hrest⟩
      refine ⟨pos, p, ?_, hrest⟩
      rw [Device.positions_bump]
      exact getElem?_append_of_some hpos _
    · exact h.phase.waiting
    · exact fun _ _ _ => Or.inr rfl
  · intro hcalm
    exact (h.context hcalm).congr rfl rfl rfl rfl rfl fun _ ha => ha

/-!
## Interrupts
-/

theorem and_virtq_or (x y : UInt32) :
    (x ||| y) &&& VIRTIO_MMIO_INT_VIRTQ =
      (x &&& VIRTIO_MMIO_INT_VIRTQ) ||| (y &&& VIRTIO_MMIO_INT_VIRTQ) := by
  apply UInt32.toBitVec_inj.mp
  simp only [UInt32.toBitVec_and, UInt32.toBitVec_or]
  exact BitVec.and_or_distrib_right

theorem GpioInv.interrupt (h : GpioInv mode scripts w gs fl)
    {status : UInt32} {raise : Bool}
    (hsignal : w.intStatus &&& VIRTIO_MMIO_INT_VIRTQ ≠ 0 ∨ w.raise = true ->
      status &&& VIRTIO_MMIO_INT_VIRTQ ≠ 0 ∨ raise = true) :
    GpioInv mode scripts { w with intStatus := status, raise := raise }
      gs fl where
  holding := h.holding
  flow := h.flow.congr (SameRings.refl _) rfl rfl
  phase := h.phase.congr rfl rfl rfl (fun _ ha => ha) rfl rfl
    fun hsig hlt => hsignal (hsig hlt)
  context := fun hcalm =>
    (h.context hcalm).congr rfl rfl rfl rfl rfl fun _ ha => ha

theorem GpioInv.raiseVirtq (h : GpioInv mode scripts w gs fl) :
    GpioInv mode scripts { w with
      intStatus := w.intStatus ||| VIRTIO_MMIO_INT_VIRTQ
      raise := false } gs fl := by
  apply h.interrupt
  intro _
  left
  rw [and_virtq_or, UInt32.and_self, ne_eq, UInt32.or_eq_zero_iff, not_and_or]
  exact Or.inr (by decide)

theorem GpioInv.raiseConfig (h : GpioInv mode scripts w gs fl) :
    GpioInv mode scripts { w with
      intStatus := w.intStatus ||| VIRTIO_MMIO_INT_CONFIG } gs fl := by
  apply h.interrupt
  rintro (hbit | hraise)
  · left
    rw [and_virtq_or, ne_eq, UInt32.or_eq_zero_iff, not_and_or]
    exact Or.inl hbit
  · exact Or.inr hraise

/-!
## Answers
-/

theorem GpioSystem.answerRequest_cases {pos : Nat} {status value : UInt8}
    (hanswer : w.answerRequest pos status value = some w') :
    exists head, w.device.consumed[pos]? = some head ∧
      pos ∉ w.answers.map GpioAnswer.pos ∧
      w' = { w with
        queue := { w.queue with
          mem := w.queue.mem.store
            (w.queue.vq.desc (w.queue.vq.desc head).next).addr [status, value] }
        answers := w.answers ++
          [{ pos := pos
             request := VirtioGpioRequest.decode
               (loadBytes w.queue.mem.phys (w.queue.vq.desc head).addr
                 sizeofVirtioGpioRequest.toNat)
             status := status
             value := value }] } := by
  unfold GpioSystem.answerRequest at hanswer
  split at hanswer
  · cases hanswer
  · rename_i head hhead
    dsimp only at hanswer
    split at hanswer
    · cases hanswer
    · rename_i hnot
      cases hanswer
      exact ⟨head, hhead, fun hmem => hnot (Or.inl hmem), rfl⟩

theorem FlowInv.outstanding_of_unanswered (h : FlowInv scripts w fl) {pos : Nat}
    (hlt : pos < w.device.consumed.length)
    (hnew : pos ∉ w.answers.map GpioAnswer.pos) :
    Outstanding w.queue w.device pos := by
  refine ⟨Nat.lt_of_lt_of_le hlt h.ring.consumed_le, ?_⟩
  intro hretired
  rcases List.mem_map.mp (List.mem_of_mem_take hretired) with ⟨e, he, rfl⟩
  exact hnew (h.produced e he)

theorem FlowInv.answer (h : FlowInv scripts w fl) {a : GpioAnswer} {p : Published}
    {ptr : ContextPtr} {b1 : List UInt8} {resp : UInt16} {m0 m1 : Mapping} {mem : Memory}
    (hlt : a.pos < w.device.consumed.length)
    (hnew : a.pos ∉ w.answers.map GpioAnswer.pos)
    (hp : w.queue.published[a.pos]? = some p) (hcontext : p.context = some ptr)
    (hrest : p.rest = [resp]) (hne : p.head ≠ resp) (hmne : m0 ≠ m1)
    (hlen0 : m0.len = sizeofVirtioGpioRequest.toNat)
    (hlen1 : m1.len = sizeofVirtioGpioResponse.toNat)
    (hhold : fl a.pos = pairHolding p.head resp m0 m1 p.context
      (requestOf scripts ptr).encode b1)
    (hrequest : a.request = requestOf scripts ptr) :
    FlowInv scripts { w with
        queue := { w.queue with mem := mem }
        answers := w.answers ++ [a] }
      (Function.update fl a.pos
        ((fl a.pos).setRegion m1 (some [a.status, a.value]))) where
  ring := h.ring.congr ⟨rfl, rfl, rfl, rfl, rfl, rfl, rfl, rfl⟩
  published := h.published
  flight := by
    intro pos p' hout hp'
    by_cases hpos : pos = a.pos
    · subst hpos
      have heq : p' = p := Option.some.inj (hp'.symm.trans hp)
      subst heq
      rw [Function.update_self, hhold, pairHolding_setResponse]
      refine ⟨ptr, [a.status, a.value], hcontext,
        ⟨resp, m0, m1, hrest, hne, hmne, hlen0, hlen1, rfl⟩, ?_⟩
      intro a' ha' hpos'
      rcases List.mem_append.mp ha' with ha' | ha'
      · exact absurd (hpos' ▸ List.mem_map_of_mem ha') hnew
      · rw [List.mem_singleton.mp ha']
    · rw [Function.update_of_ne hpos]
      rcases h.flight pos p' hout hp' with ⟨ptr', b', hcontext', hpair, hanswered⟩
      refine ⟨ptr', b', hcontext', hpair, ?_⟩
      intro a' ha' hpos'
      rcases List.mem_append.mp ha' with ha' | ha'
      · exact hanswered a' ha' hpos'
      · rw [List.mem_singleton.mp ha'] at hpos'
        exact absurd hpos'.symm hpos
  answered := by
    intro a' ha'
    rcases List.mem_append.mp ha' with ha' | ha'
    · exact h.answered a' ha'
    · rw [List.mem_singleton.mp ha']
      exact ⟨hlt, p, ptr, hp, hcontext, hrequest⟩
  answersNodup := by
    rw [List.map_append]
    exact List.Nodup.append h.answersNodup (List.nodup_singleton _) (by simpa using hnew)
  produced := by
    intro e he
    rw [List.map_append]
    exact List.mem_append_left _ (h.produced e he)
  pending := by
    intro e he
    rw [List.map_append]
    exact List.mem_append_left _ (h.pending e he)

/-- The device reads the request of the chain's own call and writes its response
buffer only. -/
theorem GpioInv.answer (h : GpioInv mode scripts w gs fl) {pos : Nat}
    {status value : UInt8} (hanswer : w.answerRequest pos status value = some w') :
    exists fl', GpioInv mode scripts w' gs fl' := by
  rcases GpioSystem.answerRequest_cases hanswer with ⟨head, hhead, hnew, rfl⟩
  have hlt := (List.getElem?_eq_some_iff.mp hhead).1
  have hout := h.flow.outstanding_of_unanswered hlt hnew
  have hpublt : pos < w.queue.published.length := hout.1
  have hp : w.queue.published[pos]? = some w.queue.published[pos] :=
    List.getElem?_eq_getElem hpublt
  generalize w.queue.published[pos] = p at hp
  rcases h.flow.flight pos p hout hp with ⟨ptr, b1, hcontext, ⟨⟨resp, m0, m1, hrest,
    hne, hmne, hlen0, hlen1, hhold⟩⟩, _⟩
  have hph : p.head = head := by
    rcases h.flow.ring.consumed with ⟨tail, htail⟩
    have hheads : w.queue.heads[pos]? = some head := by
      rw [← htail]
      exact getElem?_append_of_some hhead tail
    rw [Queue.heads, List.getElem?_map, hp] at hheads
    exact Option.some.inj hheads
  subst hph
  have hcell0 : (holdings gs fl (.chain pos)).desc p.head =
      some (requestCell m0 resp p.context) := by
    change (fl pos).desc p.head = _
    rw [hhold]
    exact pairHolding_head hne
  have hcell1 : (holdings gs fl (.chain pos)).desc resp = some (responseCell m1) := by
    change (fl pos).desc resp = _
    rw [hhold]
    exact pairHolding_resp
  have hd0 : w.queue.vq.desc p.head = (requestCell m0 resp p.context).desc :=
    congrArg DescCell.desc (h.holding.descs.known _ _ _ hcell0)
  have hd1 : w.queue.vq.desc resp = (responseCell m1).desc :=
    congrArg DescCell.desc (h.holding.descs.known _ _ _ hcell1)
  have hreg0 : (holdings gs fl (.chain pos)).region m0 =
      some (requestOf scripts ptr).encode := by
    change (fl pos).region m0 = _
    rw [hhold]
    exact pairHolding_request hmne
  have hreg1 : (holdings gs fl (.chain pos)).region m1 = some b1 := by
    change (fl pos).region m1 = _
    rw [hhold]
    exact pairHolding_response
  have hb1 : b1.length = 2 := (h.holding.length_region hreg1).trans hlen1
  have hbytes : loadBytes w.queue.mem.phys (w.queue.vq.desc p.head).addr
      sizeofVirtioGpioRequest.toNat = (requestOf scripts ptr).encode := by
    rw [hd0, ← hlen0]
    exact h.holding.regions.known _ _ _ hreg0
  have haddr : (w.queue.vq.desc (w.queue.vq.desc p.head).next).addr = m1.paddr := by
    rw [hd0]
    exact congrArg VirtqDesc.addr hd1
  have hover : overwrite b1 0 [status, value] = [status, value] := by
    rcases List.length_eq_two.mp hb1 with ⟨x, y, rfl⟩
    rfl
  have hwrite := h.holding.writeRegion hreg1
    (show 0 + [status, value].length <= m1.len from Nat.le_of_eq hlen1.symm)
  rw [hover, Nat.add_zero] at hwrite
  rw [hbytes, VirtioGpioRequest.decode_encode, haddr]
  refine ⟨Function.update fl pos ((fl pos).setRegion m1 (some [status, value])), ?_⟩
  constructor
  · rw [holdings_update_chain]
    exact hwrite
  · exact h.flow.answer (a := ⟨pos, requestOf scripts ptr, status, value⟩) hlt hnew hp
      hcontext hrest hne hmne hlen0 hlen1 hhold rfl
  · exact h.phase.congr rfl rfl rfl (fun _ ha => List.mem_append_left _ ha) rfl rfl
      fun hsig => hsig.congr rfl rfl rfl rfl
  · intro hcalm
    exact (h.context hcalm).congr rfl rfl rfl rfl rfl
      fun _ ha => List.mem_append_left _ ha

theorem GpioInv.device (h : GpioInv mode scripts w gs fl)
    {move : GpioDeviceMove} (hmove : gpioEnv move w = some w') :
    exists fl', GpioInv mode scripts w' gs fl' := by
  cases move with
  | take =>
      rcases Option.map_eq_some_iff.mp hmove with ⟨d', htake, rfl⟩
      exact ⟨fl, h.take htake⟩
  | answer pos status value => exact h.answer hmove
  | store pos len =>
      dsimp only [gpioEnv] at hmove
      split at hmove
      · rename_i hpos
        rcases Option.map_eq_some_iff.mp hmove with ⟨⟨vq', d'⟩, hstore, rfl⟩
        exact ⟨fl, h.store hpos hstore⟩
      · cases hmove
  | bump =>
      rcases Option.map_eq_some_iff.mp hmove with ⟨⟨vq', d'⟩, hbump, rfl⟩
      exact ⟨fl, h.bump hbump⟩
  | raiseVirtq =>
      dsimp only [gpioEnv] at hmove
      split at hmove
      · cases hmove
        exact ⟨fl, h.raiseVirtq⟩
      · cases hmove
  | raiseConfig =>
      cases hmove
      exact ⟨fl, h.raiseConfig⟩

end QnxVirtio
