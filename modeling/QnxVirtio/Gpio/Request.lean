import QnxVirtio.Gpio.Client

/-!
# Requests

`virtio_gpio_request` builds a chain of a request and a response buffer and
publishes it, or gives everything back.  A whole call ends at a stage that
explains its result.
-/

namespace QnxVirtio

open Foundation

variable {mode : GpioMode} {scripts : Nat -> Nat -> GpioCall}

/-!
## Building the chain
-/

theorem overwrite_request {b : List UInt8} (hb : b.length = 8)
    (r : VirtioGpioRequest) :
    overwrite (overwrite (overwrite b 0 (encode16 r.type)) 2 (encode16 r.gpio)) 4
      (encode32 r.value) = r.encode := by
  match b, hb with
  | [b0, b1, b2, b3, b4, b5, b6, b7], _ => rfl

theorem storeRequest_holding {ω : Type} [DecidableEq ω] {H : Holding} {m : Mapping}
    {b : List UInt8} (hm : H.region m = some b) (hlen : m.len = 8)
    (hb : b.length = m.len) (r : VirtioGpioRequest) :
    HoldingSpec ω H (storeRequest m.vaddr r.type r.gpio r.value) fun _ H' =>
      H' = H.setRegion m (some r.encode) := by
  unfold storeRequest
  apply (storeVirt_holding hm (show m.vaddr = m.vaddr + 0 from rfl) (by simp)
    (by rw [hlen]; simp)).bind
  rintro _ H1 rfl
  apply (storeVirt_holding (Holding.setRegion_self ..) (Eq.refl (m.vaddr + 2))
    (by simp) (by rw [hlen]; simp)).bind
  rintro _ H2 rfl
  apply (storeVirt_holding (Holding.setRegion_self ..) (Eq.refl (m.vaddr + 4))
    (by simp) (by rw [hlen]; simp)).conseq
  rintro _ H3 rfl
  rw [Holding.setRegion_setRegion, Holding.setRegion_setRegion,
    overwrite_request (hb.trans hlen)]

theorem linkChain_pair_holding {ω : Type} [DecidableEq ω] {H : Holding}
    {head resp : UInt16} {c0 c1 : DescCell} (hne : head ≠ resp)
    (h0 : H.desc head = some c0) (h1 : H.desc resp = some c1) :
    HoldingSpec ω H (linkChain head [resp]) fun _ H' =>
      H' = (H.setDesc head (some { c0 with
          desc := { c0.desc with
            next := resp
            flags := c0.desc.flags ||| VIRTQ_DESC_F_NEXT } })).setDesc resp
        (some { c1 with desc := { c1.desc with next := 0 } }) := by
  unfold linkChain
  apply (setDesc_holding h0 _).bind
  rintro _ H1 rfl
  apply (setDesc_holding (Holding.setDesc_self ..) _).bind
  rintro _ H2 rfl
  have hresp : forall c, (H.setDesc head c).desc resp = some c1 := by
    intro c
    rw [Holding.setDesc_of_ne _ _ hne.symm, h1]
  rw [Holding.setDesc_setDesc]
  exact setDesc_holding (hresp _) _

/-- What the client holds after both allocations. -/
def allocatedPair (head resp : UInt16) (m0 m1 : Mapping) (b0 b1 : List UInt8) :
    Holding :=
  (((Holding.empty.setDesc head
    (some (allocatedCell m0 sizeofVirtioGpioRequest false))).setRegion m0
      (some b0)).setDesc resp
    (some (allocatedCell m1 sizeofVirtioGpioResponse true))).setRegion m1 (some b1)

section Built

variable {head resp : UInt16} {m0 m1 : Mapping} {b0 b1 : List UInt8}

theorem allocatedPair_head (h : head ≠ resp) :
    (allocatedPair head resp m0 m1 b0 b1).desc head =
      some (allocatedCell m0 sizeofVirtioGpioRequest false) := by
  simp [allocatedPair, Holding.setDesc_of_ne _ _ h]

theorem allocatedPair_resp :
    (allocatedPair head resp m0 m1 b0 b1).desc resp =
      some (allocatedCell m1 sizeofVirtioGpioResponse true) := by
  simp [allocatedPair]

theorem allocatedPair_request (h : m0 ≠ m1) :
    (allocatedPair head resp m0 m1 b0 b1).region m0 = some b0 := by
  simp [allocatedPair, Holding.setRegion_of_ne _ _ h]

theorem builtChain_eq (hne : head ≠ resp) (hmne : m0 ≠ m1) (b0 b : List UInt8)
    (context : Option ContextPtr) :
    (((allocatedPair head resp m0 m1 b0 b1).setRegion m0 (some b)).setDesc head
      (some (requestCell m0 resp context))).setDesc resp (some (responseCell m1)) =
      pairHolding head resp m0 m1 context b b1 := by
  simp only [allocatedPair, pairHolding, Holding.setDesc, Holding.setRegion,
    Holding.mk.injEq]
  constructor
  · funext i
    by_cases hi : i = resp
    · subst hi
      simp
    · by_cases hi' : i = head
      · subst hi'
        simp [Function.update_of_ne hi]
      · simp [Function.update_of_ne hi, Function.update_of_ne hi']
  · funext m
    by_cases hm : m = m1
    · subst hm
      simp [Function.update_of_ne (Ne.symm hmne)]
    · by_cases hm' : m = m0
      · subst hm'
        simp [Function.update_of_ne hm]
      · simp [Function.update_of_ne hm, Function.update_of_ne hm']

end Built

theorem onQueue_bind {α β : Type} (p : Prog Env Queue α)
    (f : α -> Prog Env Queue β) :
    onQueue (p.bind f) = (onQueue p).bind fun a => onQueue (f a) :=
  Prog.zoom_bind p f

/-!
## Publishing it
-/

/-- The stage after an attempt to publish. -/
def Attempted (n : Nat) (c : VirtioGpioContext) (rc : Rc) (s : ClientStage) : Prop :=
  (rc = .EOK ∧ exists pos, s = .sent n pos) ∨ s = .calling n c

theorem publishChain_triple {t n : Nat} {g : GpioGhost} {c : VirtioGpioContext}
    {head : UInt16} {rest : List UInt16} {b1 : List UInt8}
    (hstage : g.stage = .calling n c) (hsem : c.sem = some 0)
    (hpair : PairHolding ⟨head, rest, some ⟨t, n⟩⟩
      (requestOf scripts ⟨t, n⟩).encode b1 g.holding) :
    (gpioContract mode scripts).Triple (.client t) g
      (onQueue (publishChain head rest)) fun rc g' => Attempted n c rc g'.stage := by
  apply Contract.Triple.act
  rintro e w gs rc w' hok ⟨fl, hinv⟩ rfl hf
  rcases Option.map_eq_some_iff.mp hf with ⟨⟨rc1, q'⟩, hfq, hout⟩
  cases hout
  dsimp only at hfq
  split at hfq
  · -- the spinlock was not taken: nothing is published
    cases hfq
    refine ⟨gs (.client t), ⟨fl, ?_⟩, Contract.Triple.ret (Or.inr hstage)⟩
    rwa [Function.update_eq_self]
  · cases hfq
    have hcontext : (w.queue.vq.descExtras head).context = some ⟨t, n⟩ := by
      rcases hpair.shape with ⟨resp, m0, m1, _, hne, _, _, _, hH⟩
      have hcell : (holdings gs fl (.thread (.client t))).desc head =
          some (requestCell m0 resp (some ⟨t, n⟩)) := by
        change (gs (.client t)).holding.desc head = _
        rw [hH]
        exact pairHolding_head hne
      exact congrArg (fun c => c.extras.context)
        (hinv.holding.descs.known _ _ _ hcell)
    rw [hcontext]
    exact ⟨_, ⟨_, hinv.publish hstage hsem rfl hpair⟩,
      Contract.Triple.ret (Or.inl ⟨rfl, _, rfl⟩)⟩

theorem answer_triple {α : Type} {t : GpioThread} {g : GpioGhost} (f : Env -> α) :
    (gpioContract mode scripts).Triple t g
      (Prog.action fun e w => some (f e, w)) fun _ g' => g' = g := by
  apply Contract.Triple.action
  rintro e w gs b w' hok ⟨fl, hinv⟩ rfl hf
  cases hf
  refine ⟨gs t, ⟨fl, ?_⟩, rfl⟩
  rwa [Function.update_eq_self]

theorem freeAllocated_triple {t : GpioThread} {g : GpioGhost} {idx : UInt16}
    {m : Mapping} {len : UInt32} {writable : Bool} {b : List UInt8}
    (hlen : m.len = len.toNat)
    (hidx : g.holding.desc idx = some (allocatedCell m len writable))
    (hm : g.holding.region m = some b) :
    (gpioContract mode scripts).Triple t g (onQueue (virtqFreeDesc idx))
      fun _ g' => g' = { g with
        holding := (g.holding.setDesc idx none).setRegion m none } := by
  have hbuffer := allocatedCell_buffer hlen writable
  apply (queue_triple (virtqFreeDesc_holding hidx (hbuffer.symm ▸ hm))).conseq
  rintro rc g' ⟨H, rfl, rfl⟩
  rw [hbuffer]

theorem virtioGpioRequest_triple {config : VirtioGpioConfig} {type gpio value : UInt16}
    {t n : Nat} {g : GpioGhost} {c : VirtioGpioContext} (hstage : g.stage = .calling n c)
    (hsem : c.sem = some 0) (hhold : g.holding = Holding.empty)
    (htype : type ≠ VIRTIO_GPIO_MSG_GET_LINE_NAMES)
    (hrequest : requestOf scripts ⟨t, n⟩ =
      { type := type, gpio := gpio, value := value.toUInt32 }) :
    (gpioContract mode scripts).Triple (.client t) g
      (virtioGpioRequest config type gpio value ⟨t, n⟩) fun rc g' =>
        Attempted n c rc g'.stage := by
  rcases g with ⟨H, stage, phase⟩
  dsimp only at hstage hhold
  subst hstage hhold
  unfold virtioGpioRequest
  rw [virtioGpioResponseSize, if_neg htype]
  apply (queue_triple (virtqAllocDesc_holding _ _ _)).bind
  rintro r g1 ⟨H1, ⟨rc, rfl, rfl⟩ | ⟨i0, m0, b0, rfl, _, _, hlen0, hb0, rfl⟩, rfl⟩
  · exact Contract.Triple.ret (Or.inr rfl)
  · apply (queue_triple (virtqAllocDesc_holding _ _ _)).bind
    rintro r g2 ⟨H2, ⟨rc, rfl, rfl⟩ | ⟨i1, m1, b1, rfl, hi1, hm1, hlen1, hb1, rfl⟩, rfl⟩
    · -- no second descriptor: the first one goes back
      apply (freeAllocated_triple hlen0 (Holding.setDesc_self ..)
        (Holding.setRegion_self ..)).bind
      rintro _ g3 rfl
      exact Contract.Triple.ret (Or.inr rfl)
    · have hne : i0 ≠ i1 := by
        rintro rfl
        rw [Holding.setRegion_desc, Holding.setDesc_self] at hi1
        cases hi1
      have hmne : m0 ≠ m1 := by
        rintro rfl
        rw [Holding.setRegion_self] at hm1
        cases hm1
      change (gpioContract mode scripts).Triple (.client t)
        ⟨allocatedPair i0 i1 m0 m1 b0 b1, .calling n c, phase⟩ _ _
      apply (queue_triple (virtqGetDescVaddr_holding (allocatedPair_head hne))).bind
      rintro r g3 ⟨H3, ⟨rfl, rfl⟩, rfl⟩
      apply (queue_triple (storeRequest_holding (allocatedPair_request hmne) hlen0 hb0
        ⟨type, gpio, value.toUInt32⟩)).bind
      rintro _ g4 ⟨H4, rfl, rfl⟩
      rw [← hrequest]
      have hhead : ((allocatedPair i0 i1 m0 m1 b0 b1).setRegion m0
          (some (requestOf scripts ⟨t, n⟩).encode)).desc i0 =
            some (allocatedCell m0 sizeofVirtioGpioRequest false) := by
        rw [Holding.setRegion_desc]
        exact allocatedPair_head hne
      apply (queue_triple (virtqSetDescContext_holding hhead ⟨t, n⟩)).bind
      rintro _ g5 ⟨H5, rfl, rfl⟩
      rw [virtqPutDescChain_eq, onQueue_bind, Prog.bind_eq_bind, Prog.bind_assoc]
      have hresp : forall c, (((allocatedPair i0 i1 m0 m1 b0 b1).setRegion m0
          (some (requestOf scripts ⟨t, n⟩).encode)).setDesc i0 c).desc i1 =
            some (allocatedCell m1 sizeofVirtioGpioResponse true) := by
        intro c
        rw [Holding.setDesc_of_ne _ _ hne.symm, Holding.setRegion_desc]
        exact allocatedPair_resp
      apply (queue_triple (linkChain_pair_holding hne (Holding.setDesc_self ..)
        (hresp _))).bind
      rintro _ g6 ⟨H6, rfl, rfl⟩
      rw [Holding.setDesc_setDesc]
      change (gpioContract mode scripts).Triple (.client t)
        ⟨(((allocatedPair i0 i1 m0 m1 b0 b1).setRegion m0
          (some (requestOf scripts ⟨t, n⟩).encode)).setDesc i0
            (some (requestCell m0 i1 (some ⟨t, n⟩)))).setDesc i1
              (some (responseCell m1)), .calling n c, phase⟩ _ _
      rw [builtChain_eq hne hmne]
      apply (publishChain_triple rfl hsem
        ⟨⟨i1, m0, m1, rfl, hne, hmne, hlen0, hlen1, rfl⟩⟩).bind
      intro rc g7 hattempt
      apply (answer_triple _).bind
      rintro _ g8 rfl
      apply Contract.Triple.ret
      rcases hattempt with ⟨_, hsent⟩ | hcalling
      · exact Or.inl ⟨rfl, hsent⟩
      · exact Or.inr hcalling

end QnxVirtio
