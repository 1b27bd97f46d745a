import QnxVirtio.Gpio.ChainCount
import QnxVirtio.Gpio.Deliver

/-!
# What the threads do to descriptors

One rule for each function of the queue, for a thread that holds what the call is about.
In runs with a bound no allocation fails.
-/

namespace QnxVirtio

open Foundation

variable {D : Type} {Z : ChainSetting D}

/-!
## The free list
-/

/-- The thread may take one more descriptor. -/
def MayTake (g : ChainGhost) : Prop :=
  g.waiting = false ∧ g.descs.length <= 1

theorem freeDescsGet_triple {u : Nat} {g : ChainGhost}
    (hmay : forall k, Z.bound = some k -> MayTake g) :
    Z.contract.Triple (.client u) g (onQueue freeDescsGet) fun r g' =>
      (exists rc, r = .error rc ∧ Refused Z rc ∧ g' = g) ∨
        exists idx c, r = .ok idx ∧ g.holding.desc idx = none ∧
          g' = { g with
            holding := g.holding.setDesc idx (some c)
            descs := idx :: g.descs } := by
  apply Contract.Triple.action
  rintro e w gs r w' hok ⟨fl, flying, hinv, hacc⟩ rfl hf
  rcases Option.map_eq_some_iff.mp hf with ⟨⟨r', q'⟩, hfq, hout⟩
  cases hout
  rcases freeDescsGet_holding (gs (.client u)).holding e w.queue (holders gs fl)
    (.thread (.client u)) r' q' hinv.holding rfl hfq with ⟨hsame, H, hhold, hpost⟩
  have hinv' : forall descs, ChainsInv { w with queue := q' }
      (Function.update gs (.client u)
        { gs (.client u) with holding := H, descs := descs }) fl flying :=
    fun _ => hinv.onQueue hsame hhold rfl
  cases hbound : Z.bound with
  | none =>
      have hacc' : forall descs k, Z.bound = some k -> Accounts k { w with queue := q' }
          (Function.update gs (.client u)
            { gs (.client u) with holding := H, descs := descs }) flying := by
        intro descs k hk
        rw [hbound] at hk
        cases hk
      rcases hpost with ⟨rc, rfl, rfl⟩ | ⟨idx, c, rfl, hfree, rfl⟩
      · refine ⟨gs (.client u), ⟨fl, flying, hinv' _, hacc' _⟩,
          Or.inl ⟨rc, rfl, fun k hk => ?_, rfl⟩⟩
        rw [hbound] at hk
        cases hk
      · exact ⟨_, ⟨fl, flying, hinv' (idx :: (gs (.client u)).descs), hacc' _⟩,
          Or.inr ⟨idx, c, rfl, hfree, rfl⟩⟩
  | some k =>
      rcases Z.steady k hbound _ _ hok with ⟨⟨hsteady, hu⟩, hsettled⟩
      rcases hmay k hbound with ⟨hawake, hdescs⟩
      have hnonempty := (hacc k hbound).freeList_ne_nil hinv hsettled.ring.num_dvd
        (hu u rfl) hawake hdescs
      cases hfq
      rw [hsteady.lock] at hsame hhold hpost ⊢
      rcases hinv.holding.freeWf.get_cases with
        ⟨hempty, _⟩ | ⟨elem, fifo, rest, hget, hlist, _, hrest⟩
      · exact absurd hempty hnonempty
      · rw [hget] at hsame hhold hpost ⊢
        rcases hpost with ⟨rc, herror, _⟩ | ⟨idx, c, hidx, hfree, rfl⟩
        · cases herror
        · have hidx' : decode16 elem = idx := Except.ok.inj hidx
          subst hidx'
          refine ⟨{ gs (.client u) with
            holding := (gs (.client u)).holding.setDesc (decode16 elem) (some c)
            descs := decode16 elem :: (gs (.client u)).descs },
            ⟨fl, flying, hinv.onQueue hsame hhold rfl, fun k' hk' => ?_⟩,
            Or.inr ⟨_, c, rfl, hfree, rfl⟩⟩
          rw [hbound] at hk'
          cases hk'
          refine (hacc k hbound).recount (sameBooks_onQueue hsame)
            (forall_update (fun _ => ⟨rfl, rfl, rfl⟩) ⟨rfl, rfl, rfl⟩) ?_ ?_ ?_
          · intro idx hidx
            change idx ∈ Virtq.freeList { w.queue.vq with freeDescs := fifo } ∨ _
            rw [hrest]
            rcases hidx with hfree | ⟨t, ht⟩
            · rw [hlist] at hfree
              rcases List.mem_cons.mp hfree with rfl | hfree
              · exact Or.inr ⟨.client u, by simp⟩
              · exact Or.inl hfree
            · refine Or.inr ⟨t, ?_⟩
              exact forall_update (P := fun g g' => idx ∈ g.descs -> idx ∈ g'.descs)
                (fun _ h => h) (fun h => List.mem_cons_of_mem _ h) t ht
          · intro t
            by_cases ht : t = .client u
            · subst ht
              rw [Function.update_self]
              exact Nat.succ_le_succ hdescs
            · rw [Function.update_of_ne ht]
              exact (hacc k hbound).short t
          · intro t hnil
            by_cases ht : t = .client u
            · subst ht
              exact Or.inr ⟨u, rfl, hu u rfl, hawake⟩
            · rw [Function.update_of_ne ht]
              exact Or.inl hnil

theorem freeDescsPut_triple {t : GpioThread} {g : ChainGhost} {idx : UInt16}
    {c : DescCell} (hidx : g.holding.desc idx = some c) :
    Z.contract.Triple t g (onQueue (freeDescsPut idx)) fun _ g' =>
      g' = { g with
        holding := g.holding.setDesc idx none
        descs := g.descs.erase idx } := by
  apply Contract.Triple.action
  rintro e w gs r w' hok ⟨fl, flying, hinv, hacc⟩ rfl hf
  rcases Option.map_eq_some_iff.mp hf with ⟨⟨r', q'⟩, hfq, hout⟩
  cases hout
  rcases freeDescsPut_holding hidx e w.queue (holders gs fl) (.thread t) r' q'
    hinv.holding rfl hfq with ⟨hsame, H, hhold, hpost⟩
  have hH : H = (gs t).holding.setDesc idx none := hpost
  subst hH
  refine ⟨{ gs t with
    holding := (gs t).holding.setDesc idx none
    descs := (gs t).descs.erase idx },
    ⟨fl, flying, hinv.onQueue hsame hhold rfl, fun k hk => ?_⟩, rfl⟩
  have hlock := (Z.steady k hk _ _ hok).1.1.lock
  cases hfq
  rw [hlock] at hsame ⊢
  have hheld : (holders gs fl (.thread t)).desc idx = some c := hidx
  rcases hinv.holding.freeWf.put_spec idx (hinv.holding.room hheld) with
    ⟨fifo, hput, _, hlist⟩
  rw [hput] at hsame ⊢
  refine (hacc k hk).recount (sameBooks_onQueue hsame)
    (forall_update (fun _ => ⟨rfl, rfl, rfl⟩) ⟨rfl, rfl, rfl⟩) ?_ ?_ ?_
  · intro i hi
    change i ∈ Virtq.freeList { w.queue.vq with freeDescs := fifo } ∨ _
    rw [hlist]
    by_cases heq : i = idx
    · subst heq
      exact Or.inl (by simp)
    · rcases hi with hfree | ⟨t', ht'⟩
      · exact Or.inl (List.mem_append_left _ hfree)
      · refine Or.inr ⟨t', ?_⟩
        exact forall_update (P := fun g g' => i ∈ g.descs -> i ∈ g'.descs)
          (fun _ h => h) (fun h => (List.mem_erase_of_ne heq).mpr h) t' ht'
  · intro t'
    exact forall_update (P := fun g g' => g.descs.length <= 2 -> g'.descs.length <= 2)
      (fun _ h => h) (fun h => List.length_erase_le.trans h) t' ((hacc k hk).short t')
  · intro t' hnil
    refine Or.inl (forall_update (P := fun g g' => g.descs = [] -> g'.descs = [])
      (fun _ h => h) (fun h => ?_) t' hnil)
    rw [h]
    rfl

/-!
## Steps that leave the free list alone
-/

theorem keepsFree_refl (q : Queue) : KeepsFree q q := rfl

theorem mapBuffer_keepsFree (len : UInt32) : (mapBuffer len).Within KeepsFree := by
  refine Prog.within_action fun e q b q' hf => ?_
  rcases Option.map_eq_some_iff.mp hf with ⟨r, _, hout⟩
  cases hout
  rfl

theorem bufferOffset_keepsFree (vaddr : Nat) : (bufferOffset vaddr).Within KeepsFree :=
  Prog.within_look keepsFree_refl _

theorem unmapBuffer_keepsFree (vaddr : Nat) (len : UInt32) :
    (unmapBuffer vaddr len).Within KeepsFree := by
  refine Prog.within_action fun e q b q' hf => ?_
  cases hf
  rfl

theorem setExtras_keepsFree (idx : UInt16) (f : DescExtras -> DescExtras) :
    (setExtras idx f).Within KeepsFree :=
  Prog.within_modify fun _ => rfl

theorem setDesc_keepsFree (idx : UInt16) (f : VirtqDesc -> VirtqDesc) :
    (setDesc idx f).Within KeepsFree :=
  Prog.within_modify fun _ => rfl

theorem read_keepsFree {α : Type} (f : Queue -> α) :
    (Prog.read f : Prog Env Queue α).Within KeepsFree :=
  Prog.within_look keepsFree_refl _

theorem virtqSetDescContext_keepsFree (idx : UInt16) (context : ContextPtr) :
    (virtqSetDescContext idx context).Within KeepsFree := by
  refine Prog.within_action fun e q b q' hf => ?_
  split at hf
  · cases hf
    rfl
  · cases hf
    rfl

theorem storeVirt_keepsFree (vaddr : Nat) (block : List UInt8) :
    (storeVirt vaddr block).Within KeepsFree := by
  refine Prog.within_action fun e q b q' hf => ?_
  rcases Option.map_eq_some_iff.mp hf with ⟨paddr, _, hout⟩
  cases hout
  rfl

theorem storeRequest_keepsFree (request : Nat) (type gpio : UInt16) (value : UInt32) :
    (storeRequest request type gpio value).Within KeepsFree :=
  (storeVirt_keepsFree _ _).bind fun _ =>
    (storeVirt_keepsFree _ _).bind fun _ => storeVirt_keepsFree _ _

theorem linkChain_keepsFree (prev : UInt16) (rest : List UInt16) :
    (linkChain prev rest).Within KeepsFree := by
  induction rest generalizing prev with
  | nil => exact setDesc_keepsFree _ _
  | cons idx rest ih =>
      exact (setDesc_keepsFree _ _).bind fun _ => (setDesc_keepsFree _ _).bind fun _ => ih idx

/-!
## Allocation
-/

theorem mapBuffer_triple {t : GpioThread} {g : ChainGhost} {len : UInt32}
    (hpos : 0 < len.toNat) :
    Z.contract.Triple t g (onQueue (mapBuffer len)) fun r g' =>
      (exists rc, r = .error rc ∧ Refused Z rc ∧ g' = g) ∨
        exists m b, r = .ok m.vaddr ∧ m.len = len.toNat ∧ b.length = m.len ∧
          g.holding.region m = none ∧
          g' = { g with holding := g.holding.setRegion m (some b) } := by
  apply Contract.Triple.action
  refine Z.keeps_queue (mapBuffer_keepsFree len).1 (mapBuffer_holding g.holding len) ?_
  rintro e q hold r q' H hsteady hinv hhold hf
    (⟨rc, rfl, rfl⟩ | ⟨m, b, rfl, hlen, hb, hnew, rfl⟩)
  · refine Or.inl ⟨rc, rfl, fun k hk => ?_, rfl⟩
    rcases (hsteady k hk).mmap with ⟨a, ha⟩
    rcases Option.map_eq_some_iff.mp hf with ⟨⟨r, mem'⟩, hmmap, hout⟩
    rw [ha, mmap64, dif_neg (Nat.ne_of_gt hpos)] at hmmap
    dsimp only at hmmap
    split at hmmap
    · cases hmmap
      cases hout
    · cases hmmap
  · exact Or.inr ⟨m, b, rfl, hlen, hb, hnew, rfl⟩

theorem bufferOffset_triple {t : GpioThread} {g : ChainGhost} {m : Mapping}
    {b : List UInt8} (hm : g.holding.region m = some b) :
    Z.contract.Triple t g (onQueue (bufferOffset m.vaddr)) fun r g' =>
      ((exists rc, r = .error rc ∧ Refused Z rc) ∨ r = .ok m.paddr) ∧ g' = g := by
  apply Contract.Triple.action
  refine Z.keeps_queue (bufferOffset_keepsFree m.vaddr).1 (bufferOffset_holding hm) ?_
  rintro e q hold r q' H hsteady hinv hhold hf ⟨hr, rfl⟩
  refine ⟨?_, rfl⟩
  rcases hr with ⟨rc, rfl⟩ | rfl
  · refine Or.inl ⟨rc, rfl, fun k hk => ?_⟩
    have hlive := hinv.regions.live (.thread t) m b (by rw [hhold]; exact hm)
    have hr : memOffset64 e.memOffset m.vaddr q.mem = .error rc :=
      congrArg Prod.fst (Option.some.inj hf)
    cases hanswer : e.memOffset with
    | none =>
        rw [hanswer, memOffset64_base hlive] at hr
        cases hr
    | some f =>
        rw [hanswer] at hr
        cases hr
        exact ⟨f.property, (hsteady k hk).memOffset f hanswer⟩
  · exact Or.inr rfl

/-- The stores of `virtq_alloc_desc` to the tables. -/
def fillDesc (idx : UInt16) (vaddr paddr : Nat) (len : UInt32) (writable : Bool) :
    Prog Env Queue (Except Rc UInt16) := do
  setExtras idx fun x => { x with vaddr := vaddr }
  setExtras idx fun x => { x with context := none }
  setDesc idx fun d => { d with addr := paddr }
  setDesc idx fun d => { d with len := len }
  setDesc idx fun d => { d with flags := if writable then VIRTQ_DESC_F_WRITE else 0 }
  setDesc idx fun d => { d with next := 0 }
  pure (.ok idx)

theorem fillDesc_keepsFree (idx : UInt16) (vaddr paddr : Nat) (len : UInt32)
    (writable : Bool) : (fillDesc idx vaddr paddr len writable).Within KeepsFree :=
  (setExtras_keepsFree _ _).bind fun _ => (setExtras_keepsFree _ _).bind fun _ =>
    (setDesc_keepsFree _ _).bind fun _ => (setDesc_keepsFree _ _).bind fun _ =>
      (setDesc_keepsFree _ _).bind fun _ => (setDesc_keepsFree _ _).bind fun _ =>
        Prog.within_ret _

theorem fillDesc_holding {ω : Type} [DecidableEq ω] {H : Holding} {idx : UInt16}
    {c : DescCell} (hidx : H.desc idx = some c) (m : Mapping) (len : UInt32)
    (writable : Bool) :
    HoldingSpec ω H (fillDesc idx m.vaddr m.paddr len writable) fun r H' =>
      r = .ok idx ∧ H' = H.setDesc idx (some (allocatedCell m len writable)) := by
  unfold fillDesc
  apply (setExtras_holding hidx _).bind
  rintro _ H1 rfl
  apply (setExtras_holding (Holding.setDesc_self ..) _).bind
  rintro _ H2 rfl
  apply (setDesc_holding (Holding.setDesc_self ..) _).bind
  rintro _ H3 rfl
  apply (setDesc_holding (Holding.setDesc_self ..) _).bind
  rintro _ H4 rfl
  apply (setDesc_holding (Holding.setDesc_self ..) _).bind
  rintro _ H5 rfl
  apply (setDesc_holding (Holding.setDesc_self ..) _).bind
  rintro _ H6 rfl
  refine ⟨rfl, ?_⟩
  simp only [Holding.setDesc_setDesc]
  rfl

/-- A failed allocation leaves the thread as it was; in bounded runs it is not the free
list that is empty. -/
theorem virtqAllocDesc_triple {u : Nat} {g : ChainGhost} {len : UInt32} {writable : Bool}
    (hmay : forall k, Z.bound = some k -> MayTake g) (hpos : 0 < len.toNat) :
    Z.contract.Triple (.client u) g (onQueue (virtqAllocDesc len writable)) fun r g' =>
      (exists rc, r = .error rc ∧ Refused Z rc ∧ g' = g) ∨
        exists idx m b, r = .ok idx ∧ g.holding.desc idx = none ∧
          g.holding.region m = none ∧ m.len = len.toNat ∧ b.length = m.len ∧
          g' = { g with
            holding := (g.holding.setDesc idx
              (some (allocatedCell m len writable))).setRegion m (some b)
            descs := idx :: g.descs } := by
  unfold virtqAllocDesc
  simp only [Prog.bind_eq_bind]
  rw [onQueue_bind]
  apply (freeDescsGet_triple hmay).bind
  rintro r g1 (⟨rc, rfl, hrefused, rfl⟩ | ⟨idx, c, rfl, hfree, rfl⟩)
  · exact Contract.Triple.ret (Or.inl ⟨rc, rfl, hrefused, rfl⟩)
  · have hself := g.holding.setDesc_self idx (some c)
    rw [onQueue_bind]
    apply (mapBuffer_triple hpos).bind
    rintro r g2 (⟨rc, rfl, hrefused, rfl⟩ | ⟨m, b, rfl, hlen, hb, hnew, rfl⟩)
    · -- the mapping failed: the descriptor goes back
      rw [onQueue_bind]
      apply (freeDescsPut_triple hself).bind
      rintro _ g3 rfl
      refine Contract.Triple.ret (Or.inl ⟨rc, rfl, hrefused, ?_⟩)
      simp only [Holding.setDesc_setDesc, Holding.setDesc_eq_self hfree,
        List.erase_cons_head]
    · have hm : ((g.holding.setDesc idx (some c)).setRegion m (some b)).region m =
          some b := Holding.setRegion_self ..
      rw [onQueue_bind]
      apply (bufferOffset_triple hm).bind
      rintro r g3 ⟨⟨rc, rfl, hrefused⟩ | rfl, rfl⟩
      · -- the address lookup failed: the buffer is unmapped again
        simp only
        rw [onQueue_bind]
        apply (Z.queue_triple (unmapBuffer_keepsFree _ _)
          (unmapBuffer_holding hm rfl hlen.symm)).bind
        rintro _ g4 ⟨H4, ⟨_, rfl⟩, rfl⟩
        simp only [Holding.setRegion_setRegion, Holding.setRegion_eq_self hnew]
        rw [onQueue_bind]
        apply (freeDescsPut_triple hself).bind
        rintro _ g5 rfl
        refine Contract.Triple.ret (Or.inl ⟨rc, rfl, hrefused, ?_⟩)
        simp only [Holding.setDesc_setDesc, Holding.setDesc_eq_self hfree,
          List.erase_cons_head]
      · have hcell : ((g.holding.setDesc idx (some c)).setRegion m (some b)).desc idx =
            some c := hself
        apply (Z.queue_triple (fillDesc_keepsFree idx m.vaddr m.paddr len writable)
          (fillDesc_holding hcell m len writable)).conseq
        rintro r g4 ⟨H4, ⟨rfl, rfl⟩, rfl⟩
        refine Or.inr ⟨idx, m, b, rfl, hfree, hnew, hlen, hb, ?_⟩
        rw [Holding.setDesc_setRegion, Holding.setDesc_setDesc]

/-!
## Freeing
-/

/-- The stores of `virtq_free_desc` to the tables. -/
def clearDesc (idx : UInt16) : Prog Env Queue Unit := do
  setExtras idx fun x => { x with vaddr := 0 }
  setExtras idx fun x => { x with context := none }
  setDesc idx fun d => { d with addr := 0 }
  setDesc idx fun d => { d with len := 0 }
  setDesc idx fun d => { d with flags := 0 }
  setDesc idx fun d => { d with next := 0 }

theorem clearDesc_keepsFree (idx : UInt16) : (clearDesc idx).Within KeepsFree :=
  (setExtras_keepsFree _ _).bind fun _ => (setExtras_keepsFree _ _).bind fun _ =>
    (setDesc_keepsFree _ _).bind fun _ => (setDesc_keepsFree _ _).bind fun _ =>
      (setDesc_keepsFree _ _).bind fun _ => setDesc_keepsFree _ _

theorem clearDesc_holding {ω : Type} [DecidableEq ω] {H : Holding} {idx : UInt16}
    {c : DescCell} (hidx : H.desc idx = some c) :
    HoldingSpec ω H (clearDesc idx) fun _ H' => exists c', H' = H.setDesc idx (some c') := by
  unfold clearDesc
  apply (setExtras_holding hidx _).bind
  rintro _ H1 rfl
  apply (setExtras_holding (Holding.setDesc_self ..) _).bind
  rintro _ H2 rfl
  apply (setDesc_holding (Holding.setDesc_self ..) _).bind
  rintro _ H3 rfl
  apply (setDesc_holding (Holding.setDesc_self ..) _).bind
  rintro _ H4 rfl
  apply (setDesc_holding (Holding.setDesc_self ..) _).bind
  rintro _ H5 rfl
  apply (setDesc_holding (Holding.setDesc_self ..) _).conseq
  rintro _ H6 rfl
  simp only [Holding.setDesc_setDesc]
  exact ⟨_, rfl⟩

theorem virtqFreeDesc_triple {t : GpioThread} {g : ChainGhost} {idx : UInt16}
    {c : DescCell} {b : List UInt8} (hidx : g.holding.desc idx = some c)
    (hm : g.holding.region c.buffer = some b) :
    Z.contract.Triple t g (onQueue (virtqFreeDesc idx)) fun _ g' =>
      g' = { g with
        holding := (g.holding.setDesc idx none).setRegion c.buffer none
        descs := g.descs.erase idx } := by
  have hvaddr : HoldingSpec GpioOwner g.holding
      (Prog.read fun q => (q.vq.descExtras idx).vaddr) fun v H' =>
        v = c.extras.vaddr ∧ H' = g.holding := by
    apply read_holding
    intro q hold o hinv hhold
    exact congrArg (fun c => c.extras.vaddr)
      (hinv.descs.known o idx c (by rw [hhold]; exact hidx))
  have hlen : HoldingSpec GpioOwner g.holding
      (Prog.read fun q => (q.vq.desc idx).len) fun l H' =>
        l = c.desc.len ∧ H' = g.holding := by
    apply read_holding
    intro q hold o hinv hhold
    exact congrArg (fun c => c.desc.len)
      (hinv.descs.known o idx c (by rw [hhold]; exact hidx))
  unfold virtqFreeDesc
  simp only [Prog.bind_eq_bind]
  rw [onQueue_bind]
  apply (Z.queue_triple (read_keepsFree _) hvaddr).bind
  rintro v g1 ⟨H1, ⟨rfl, rfl⟩, rfl⟩
  rw [onQueue_bind]
  apply (Z.queue_triple (read_keepsFree _) hlen).bind
  rintro l g2 ⟨H2, ⟨rfl, rfl⟩, rfl⟩
  rw [onQueue_bind]
  apply (Z.queue_triple (unmapBuffer_keepsFree _ _)
    (unmapBuffer_holding hm rfl rfl)).bind
  rintro rc g3 ⟨H3, ⟨rfl, rfl⟩, rfl⟩
  rw [if_neg (by simp)]
  change Z.contract.Triple t _
    (onQueue ((clearDesc idx).bind fun _ => freeDescsPut idx)) _
  rw [onQueue_bind]
  apply (Z.queue_triple (clearDesc_keepsFree idx)
    (clearDesc_holding (H := g.holding.setRegion c.buffer none) hidx)).bind
  rintro _ g4 ⟨H4, ⟨c', rfl⟩, rfl⟩
  apply (freeDescsPut_triple (Holding.setDesc_self ..)).conseq
  rintro _ g5 rfl
  simp only [Holding.setDesc_setDesc]
  rw [Holding.setDesc_setRegion]

end QnxVirtio
