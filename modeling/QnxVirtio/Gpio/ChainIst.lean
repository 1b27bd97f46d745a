import QnxVirtio.Gpio.ChainClient

/-!
# The interrupt thread and its descriptors

The interrupt thread gets the descriptors of the chain that it retrieves, posts the
context of the client, and gives the descriptors back after that.
-/

namespace QnxVirtio

open Foundation

variable {D : Type} {Z : ChainSetting D}

/-!
## Retrieval
-/

section Retrieve

variable {w : GpioSystem} {gs : GpioThread -> ChainGhost} {fl : Nat -> Holding}
  {flying rest : Flying} {x : Nat × Published} {k : Nat}

/-- The ghost of the interrupt thread with the chain `p`. -/
def ChainGhost.retrieve (g : ChainGhost) (p : Published) (H : Holding) : ChainGhost :=
  { g with
    holding := H
    descs := p.chain
    retrieved := g.retrieved ++ [p.chain]
    serving := some p }

/-- The queue after a retrieval. -/
def Queue.withRetrieved (q : Queue) (chain : List UInt16) : Queue :=
  { q with
    vq := { q.vq with lastSeenUsed := q.vq.lastSeenUsed + 1 }
    retrieved := q.retrieved ++ [chain] }

theorem ChainsInv.retrieve (h : ChainsInv w gs fl flying)
    (hperm : flying.Perm (x :: rest)) :
    ChainsInv { w with queue := w.queue.withRetrieved x.2.chain }
      (Function.update gs .ist ((gs .ist).retrieve x.2 (fl x.1)))
      (Function.update fl x.1 Holding.empty) rest := by
  have hkeys : (x.1 :: rest.map Prod.fst).Nodup :=
    (hperm.map Prod.fst).nodup_iff.mp h.keys
  have hmem : forall y, y ∈ rest -> y ∈ flying := fun y hy =>
    hperm.mem_iff.mpr (List.mem_cons_of_mem _ hy)
  constructor
  case holding =>
    rw [holders_update_thread, holders_update_chain]
    have hne : GpioOwner.chain x.1 ≠ .thread .ist := by simp
    rw [Function.update_comm hne]
    exact (h.holding.transfer hne).congr rfl rfl rfl rfl
  case keys => exact (List.nodup_cons.mp hkeys).2
  case published => exact fun y hy => h.published y (hmem y hy)
  case pair =>
    intro y hy
    have hne : y.1 ≠ x.1 := by
      intro heq
      exact (List.nodup_cons.mp hkeys).1 (heq ▸ List.mem_map_of_mem hy)
    rw [Function.update_of_ne hne]
    exact h.pair y (hmem y hy)
  case chains =>
    change (w.queue.published.map Published.chain).Perm
      ((w.queue.retrieved ++ [x.2.chain]) ++ rest.map fun y => y.2.chain)
    refine h.chains.trans ?_
    rw [List.append_assoc]
    exact (hperm.map fun y : Nat × Published => y.2.chain).append_left _
  case retrieved =>
    rw [Function.update_self]
    change w.queue.retrieved ++ [x.2.chain] = _
    rw [h.retrieved]
    rfl

/-- The interrupt thread has given back what it had. -/
structure Resting (g : ChainGhost) : Prop where
  holding : g.holding = Holding.empty
  descs : g.descs = []
  serving : g.serving = none

theorem Accounts.retrieve (h : Accounts k w gs flying) (hinv : ChainsInv w gs fl flying)
    (hrest : Resting (gs .ist)) (hperm : flying.Perm (x :: rest))
    (hpos : w.device.positions[w.queue.retrieved.length]? = some x.1) :
    Accounts k { w with queue := w.queue.withRetrieved x.2.chain }
      (Function.update gs .ist ((gs .ist).retrieve x.2 (fl x.1))) rest := by
  have hx : x ∈ flying := hperm.mem_iff.mpr (List.mem_cons_self ..)
  have hmem : forall y, y ∈ rest -> y ∈ flying := fun y hy =>
    hperm.mem_iff.mpr (List.mem_cons_of_mem _ hy)
  have hclient : forall u, Function.update gs .ist ((gs .ist).retrieve x.2 (fl x.1))
      (.client u) = gs (.client u) := fun u => Function.update_of_ne (by simp) ..
  constructor
  case room => exact h.room
  case covered =>
    intro idx hidx
    rcases h.covered idx hidx with hfree | ⟨t, ht⟩ | ⟨y, hy, hchain⟩
    · exact Or.inl hfree
    · cases t with
      | client u =>
          refine Or.inr (Or.inl ⟨.client u, ?_⟩)
          rw [hclient]
          exact ht
      | ist =>
          rw [hrest.descs] at ht
          cases ht
    · rcases List.mem_cons.mp (hperm.mem_iff.mp hy) with rfl | hy
      · refine Or.inr (Or.inl ⟨.ist, ?_⟩)
        rw [Function.update_self]
        exact hchain
      · exact Or.inr (Or.inr ⟨y, hy, hchain⟩)
  case short =>
    intro t
    cases t with
    | client u =>
        rw [hclient]
        exact h.short _
    | ist =>
        rw [Function.update_self]
        rcases hinv.pair x hx with ⟨_, _, _, _, hpair⟩
        rcases hpair.shape with ⟨resp, _, _, hrest, _⟩
        change (x.2.head :: x.2.rest).length <= 2
        rw [hrest]
        exact Nat.le_refl 2
  case outside =>
    intro t ht
    rw [hclient]
    exact h.outside t ht
  case asleep =>
    intro t ht
    rw [hclient] at ht ⊢
    exact h.asleep t ht
  case undelivered =>
    intro p hp ptr hcontext hnot
    rw [hclient]
    exact h.undelivered p hp ptr hcontext hnot
  case before =>
    intro p hp ptr hcontext
    rw [hclient]
    exact h.before p hp ptr hcontext
  case delivered => exact h.delivered
  case contexts =>
    have hnodup := h.contexts
    rw [hrest.serving] at hnodup
    simp only [Option.map_none, Option.toList_none, List.append_nil] at hnodup
    rw [Function.update_self]
    have hcons : (x.2.context :: rest.map fun y => y.2.context).Nodup :=
      (hperm.map fun y : Nat × Published => y.2.context).nodup_iff.mp hnodup
    exact (List.perm_append_singleton _ _).nodup_iff.mpr hcons
  case fresh => exact fun y hy => h.fresh y (hmem y hy)
  case serving =>
    intro p hp
    rw [Function.update_self] at hp
    cases hp
    exact List.mem_of_getElem? (hinv.published x hx)
  case outstanding =>
    intro pos p hout hp
    rcases outstanding_retrieve hpos hout with ⟨hne, hold⟩
    rcases List.mem_cons.mp (hperm.mem_iff.mp (h.outstanding pos p hold hp)) with heq | hy
    · rw [← heq] at hne
      exact absurd rfl hne
    · exact hy
  case returns => exact h.returns

/-- In bounded runs the next used element is the one of a chain in flight. -/
theorem Accounts.nextChain (h : Accounts k w gs flying) (hinv : ChainsInv w gs fl flying)
    (hring : RingFlow w.queue w.device) {lock : Rc} {chain : List UInt16} {vq' : Virtq}
    (hget : w.queue.vq.getDescChain lock 2 = some (.ok chain, vq')) :
    exists x, x ∈ flying ∧ x.2.chain = chain ∧
      w.device.positions[w.queue.retrieved.length]? = some x.1 := by
  rcases hring.retrieve hget with ⟨_, ⟨e, he, hwalk⟩, _⟩
  have hpos : w.device.positions[w.queue.retrieved.length]? = some e.pos := by
    rw [Device.positions, List.getElem?_map, he]
    rfl
  have hout : Outstanding w.queue w.device e.pos := by
    apply hring.outstanding_of_drop
    apply List.mem_of_getElem? (i := 0)
    rw [List.getElem?_drop]
    exact hpos
  have hlt : e.pos < w.queue.published.length := hout.1
  have hp : w.queue.published[e.pos]? = some w.queue.published[e.pos] :=
    List.getElem?_eq_getElem hlt
  have hx := h.outstanding e.pos _ hout hp
  refine ⟨_, hx, ?_, hpos⟩
  rcases hinv.pair _ hx with ⟨_, _, _, _, hpair⟩
  have hwalk' := hpair.walk (o := GpioOwner.chain e.pos) hinv.holding rfl
  have hhead : w.queue.published[e.pos].head = e.elem.id.toUInt16 := by
    rcases hring.consumed with ⟨tail, htail⟩
    have hheads : w.queue.heads[e.pos]? = some e.elem.id.toUInt16 := by
      rw [← htail]
      exact getElem?_append_of_some (hring.entry e (List.mem_of_getElem? he)) tail
    rw [Queue.heads, List.getElem?_map, hp] at hheads
    exact Option.some.inj hheads
  rw [hhead] at hwalk'
  exact Option.some.inj (hwalk'.symm.trans hwalk)

end Retrieve

/-- Whatever the interrupt thread retrieves is a chain in flight, and in bounded runs the
one whose turn it is. -/
def ChainSetting.Meets (Z : ChainSetting D) : Prop :=
  forall e w gs fl flying chain vq', Z.ok (.thread .ist e) w ->
    ChainsInv w gs fl flying -> (forall k, Z.bound = some k -> Accounts k w gs flying) ->
    w.queue.vq.getDescChain e.lock 2 = some (.ok chain, vq') ->
    exists x, x ∈ flying ∧ x.2.chain = chain ∧ forall k, Z.bound = some k ->
      w.device.positions[w.queue.retrieved.length]? = some x.1

/-- The interrupt thread holds the chain `p` with its buffers, for the context `ptr`. -/
structure Served (g : ChainGhost) (p : Published) (ptr : ContextPtr) (b0 b1 : List UInt8) :
    Prop where
  pair : PairHolding p b0 b1 g.holding
  context : p.context = some ptr
  descs : g.descs = p.chain
  serving : g.serving = some p

/-- What the interrupt thread has after a call to `virtq_get_desc_chain`. -/
def Got (g : ChainGhost) (r : Except Rc (List UInt16)) (g' : ChainGhost) : Prop :=
  ((exists rc, r = .error rc) ∧ g' = g) ∨
    exists p ptr b0 b1, r = .ok p.chain ∧ Served g' p ptr b0 b1 ∧
      g'.retrieved = g.retrieved ++ [p.chain]

theorem ChainSetting.getDescChain_step {e : Env} {w : GpioSystem}
    {gs : GpioThread -> ChainGhost} {fl : Nat -> Holding} {flying : Flying}
    {r : Except Rc (List UInt16)} {vq' : Virtq} (hinv : ChainsInv w gs fl flying)
    (hacc : forall k, Z.bound = some k -> Accounts k w gs flying)
    (hrest : Resting (gs .ist))
    (hget : w.queue.vq.getDescChain e.lock 2 = some (r, vq'))
    (hmeets : forall chain, r = .ok chain -> exists x, x ∈ flying ∧ x.2.chain = chain ∧
      forall k, Z.bound = some k ->
        w.device.positions[w.queue.retrieved.length]? = some x.1) :
    exists g', Z.contract.inv { w with queue := { w.queue with
        vq := vq'
        retrieved :=
          match r with
          | .ok idx => w.queue.retrieved ++ [idx]
          | .error _ => w.queue.retrieved } } (Function.update gs .ist g') ∧
      Got (gs .ist) r g' := by
  cases r with
  | error rc =>
      have hvq := getDescChain_error hget
      subst hvq
      refine ⟨gs .ist, ⟨fl, flying, ?_⟩, Or.inl ⟨⟨rc, rfl⟩, rfl⟩⟩
      rw [Function.update_eq_self]
      exact ⟨hinv, hacc⟩
  | ok chain =>
      rcases hmeets chain rfl with ⟨x, hx, rfl, hpos⟩
      rcases List.append_of_mem hx with ⟨before, after, rfl⟩
      have hperm : (before ++ x :: after).Perm (x :: (before ++ after)) :=
        List.perm_middle
      rcases hinv.pair x hx with ⟨ptr, b0, b1, hcontext, hpair⟩
      rcases getDescChain_ok hget with ⟨_, _, _, rfl⟩
      refine ⟨_, ⟨_, _, hinv.retrieve hperm, fun k hk => ?_⟩,
        Or.inr ⟨x.2, ptr, b0, b1, rfl, ⟨hpair, hcontext, rfl, rfl⟩, rfl⟩⟩
      exact (hacc k hk).retrieve hinv hrest hperm (hpos k hk)

theorem ChainSetting.getDescChain_triple (hmeets : Z.Meets) {g : ChainGhost}
    (hrest : Resting g) :
    Z.contract.Triple .ist g (onQueue (virtqGetDescChain 2)) (Got g) := by
  apply Contract.Triple.action
  rintro e w gs r w' hok ⟨fl, flying, hinv, hacc⟩ rfl hf
  rcases Option.map_eq_some_iff.mp hf with ⟨⟨r1, q'⟩, hfq, hout⟩
  cases hout
  rcases Option.map_eq_some_iff.mp hfq with ⟨⟨out, vq'⟩, hget, hout⟩
  cases hout
  refine Z.getDescChain_step hinv hacc hrest hget ?_
  rintro chain rfl
  exact hmeets e w gs fl flying chain vq' hok hinv hacc hget

/-!
## Delivery
-/

theorem contextCallback_offQueue (ptr : ContextPtr) :
    (contextCallback ptr).Within OffQueue := by
  refine Prog.within_action fun e w b w' hf => ?_
  split at hf
  · rcases Option.map_eq_some_iff.mp hf with ⟨f, _, hout⟩
    cases hout
    exact OffQueue.refl w
  · cases hf
    exact ⟨rfl, rfl, rfl, rfl⟩

theorem Accounts.deliver {k : Nat} {w w' : GpioSystem} {gs : GpioThread -> ChainGhost}
    {flying : Flying} {p : Published} {ptr : ContextPtr} (h : Accounts k w gs flying)
    (hserving : (gs .ist).serving = some p) (hcontext : p.context = some ptr)
    (hqueue : w'.queue = w.queue) (hdevice : w'.device = w.device)
    (hdelivered : w'.delivered = w.delivered ++ [ptr]) (hreturns : w'.returns = w.returns) :
    Accounts k w' (Function.update gs .ist { gs .ist with serving := none }) flying := by
  have hclient : forall u, Function.update gs .ist { gs .ist with serving := none }
      (.client u) = gs (.client u) := fun u => Function.update_of_ne (by simp) ..
  have hdescs : forall t, (Function.update gs .ist { gs .ist with serving := none } t).descs =
      (gs t).descs := forall_update (P := fun g g' => g'.descs = g.descs) (fun _ => rfl) rfl
  have hcontexts := h.contexts
  rw [hserving, Option.map_some, hcontext, Option.toList_some] at hcontexts
  constructor
  case room =>
    rw [hqueue]
    exact h.room
  case covered =>
    intro idx hidx
    rw [hqueue] at hidx ⊢
    rcases h.covered idx hidx with hfree | ⟨t, ht⟩ | hchain
    · exact Or.inl hfree
    · exact Or.inr (Or.inl ⟨t, (hdescs t).symm ▸ ht⟩)
    · exact Or.inr (Or.inr hchain)
  case short =>
    intro t
    rw [hdescs]
    exact h.short t
  case outside =>
    intro t ht
    rw [hclient]
    exact h.outside t ht
  case asleep =>
    intro t ht
    rw [hclient] at ht ⊢
    exact h.asleep t ht
  case undelivered =>
    intro p' hp' ptr' hptr' hnot
    rw [hqueue] at hp'
    rw [hdelivered, List.mem_append, not_or] at hnot
    rw [hclient]
    exact h.undelivered p' hp' ptr' hptr' hnot.1
  case before =>
    intro p' hp' ptr' hptr'
    rw [hqueue] at hp'
    rw [hclient]
    exact h.before p' hp' ptr' hptr'
  case delivered =>
    intro ptr' hptr'
    rw [hdelivered] at hptr'
    rw [hqueue]
    rcases List.mem_append.mp hptr' with hptr' | hptr'
    · exact h.delivered ptr' hptr'
    · cases List.mem_singleton.mp hptr'
      exact ⟨p, h.serving p hserving, hcontext⟩
  case contexts =>
    rw [Function.update_self, Option.map_none, Option.toList_none, List.append_nil]
    exact (List.nodup_append.mp hcontexts).1
  case fresh =>
    intro x hx ptr' hptr' hmem
    rw [hdelivered] at hmem
    rcases List.mem_append.mp hmem with hmem | hmem
    · exact h.fresh x hx ptr' hptr' hmem
    · cases List.mem_singleton.mp hmem
      exact (List.nodup_append.mp hcontexts).2.2 _ (List.mem_map_of_mem hx) _
        (List.mem_singleton_self _) hptr'
  case serving =>
    rw [Function.update_self]
    intro p' hp'
    cases hp'
  case outstanding =>
    rw [hqueue, hdevice]
    exact h.outstanding
  case returns =>
    rw [hreturns]
    exact h.returns

theorem ChainSetting.semPost_triple {g : ChainGhost} {p : Published} {ptr : ContextPtr}
    {b0 b1 : List UInt8} (h : Served g p ptr b0 b1) :
    Z.contract.Triple .ist g (semPost ptr) fun _ g' => g' = { g with serving := none } := by
  apply Contract.Triple.action
  rintro e w gs b w' hok ⟨fl, flying, hinv, hacc⟩ rfl hf
  cases hf
  have hoff := OffQueue.changeContext w ptr fun c => { c with sem := c.sem.map (· + 1) }
  refine ⟨_, ⟨fl, flying, ?_, fun k hk => ?_⟩, rfl⟩
  · have hrecall : ChainsInv _ (Function.update gs .ist { gs .ist with serving := none }) fl
        flying := hinv.recall hoff rfl rfl
    exact hrecall.congr hrecall.holding rfl rfl rfl
  · exact (hacc k hk).deliver h.serving h.context hoff.queue hoff.device rfl hoff.returns

/-!
## The callback
-/

theorem loadVirt_keepsFree (vaddr n : Nat) : (loadVirt vaddr n).Within KeepsFree := by
  refine Prog.within_action fun e q b q' hf => ?_
  rcases Option.map_eq_some_iff.mp hf with ⟨paddr, _, hout⟩
  cases hout
  rfl

theorem virtqGetDescVaddr_keepsFree (idx : UInt16) :
    (virtqGetDescVaddr idx).Within KeepsFree :=
  read_keepsFree _

theorem virtqGetDescContext_keepsFree (idx : UInt16) :
    (virtqGetDescContext idx).Within KeepsFree :=
  read_keepsFree _

theorem ChainSetting.gpioCallback_triple {g : ChainGhost} {p : Published}
    {ptr : ContextPtr} {b0 b1 : List UInt8} {m0 m1 : Mapping} (h : Served g p ptr b0 b1)
    (hrequest : g.holding.region m0 = some b0) (hlen0 : m0.len = 8)
    (hresponse : g.holding.region m1 = some b1) (hlen1 : m1.len = 2) :
    Z.contract.Triple .ist g (virtioGpioCallback m0.vaddr m1.vaddr ptr) fun _ g' =>
      g' = { g with serving := none } := by
  unfold virtioGpioCallback
  apply (Z.queue_triple (loadVirt_keepsFree _ _) (loadVirt_holding hresponse
    (show m1.vaddr = m1.vaddr + 0 from rfl) (by decide) (by rw [hlen1]; decide))).bind
  rintro status g1 ⟨H1, ⟨rfl, rfl⟩, rfl⟩
  apply (offQueue_triple (setContext_offQueue _ _)).bind
  rintro _ g2 rfl
  apply (Z.queue_triple (loadVirt_keepsFree _ _) (loadVirt_holding hrequest
    (show m0.vaddr = m0.vaddr + 0 from rfl) (by decide) (by rw [hlen0]; decide))).bind
  rintro type g3 ⟨H3, ⟨rfl, rfl⟩, rfl⟩
  split
  · apply Contract.Triple.action
    rintro e w gs b w' _ _ _ hf
    cases hf
  · apply (Z.queue_triple (loadVirt_keepsFree _ _) (loadVirt_holding hresponse
      (Eq.refl (m1.vaddr + 1)) (by decide) (Nat.le_of_eq hlen1.symm))).bind
    rintro value g4 ⟨H4, ⟨rfl, rfl⟩, rfl⟩
    apply (offQueue_triple (setContext_offQueue _ _)).bind
    rintro _ g5 rfl
    exact Z.semPost_triple h

theorem pairHolding_freed {head resp : UInt16} {m0 m1 : Mapping}
    (context : Option ContextPtr) (b0 b1 : List UInt8) :
    ((((pairHolding head resp m0 m1 context b0 b1).setDesc head none).setRegion m0
      none).setDesc resp none).setRegion m1 none = Holding.empty := by
  simp only [pairHolding, Holding.setDesc, Holding.setRegion, Holding.empty,
    Holding.mk.injEq]
  constructor
  · funext i
    simp only [Function.update_apply]
    split_ifs <;> rfl
  · funext m
    simp only [Function.update_apply]
    split_ifs <;> rfl

/-- The ghost without the descriptor `idx` and its buffer. -/
def ChainGhost.give (g : ChainGhost) (idx : UInt16) (m : Mapping) : ChainGhost :=
  { g with
    holding := (g.holding.setDesc idx none).setRegion m none
    descs := g.descs.erase idx }

/-- A thread that holds a chain and has delivered it. -/
structure Delivered (g : ChainGhost) (head resp : UInt16) (m0 m1 : Mapping)
    (context : Option ContextPtr) (b0 b1 : List UInt8) : Prop where
  ne : head ≠ resp
  buffers : m0 ≠ m1
  request : m0.len = sizeofVirtioGpioRequest.toNat
  response : m1.len = sizeofVirtioGpioResponse.toNat
  holding : g.holding = pairHolding head resp m0 m1 context b0 b1
  descs : g.descs = [head, resp]
  serving : g.serving = none

section Delivered

variable {g : ChainGhost} {head resp : UInt16} {m0 m1 : Mapping}
  {context : Option ContextPtr} {b0 b1 : List UInt8}

theorem Delivered.headCell (h : Delivered g head resp m0 m1 context b0 b1) :
    g.holding.desc head = some (requestCell m0 resp context) := by
  rw [h.holding]
  exact pairHolding_head h.ne

theorem Delivered.respCell (h : Delivered g head resp m0 m1 context b0 b1) :
    (g.give head m0).holding.desc resp = some (responseCell m1) := by
  change ((g.holding.setDesc head none).setRegion m0 none).desc resp = _
  rw [Holding.setRegion_desc, Holding.setDesc_of_ne _ _ h.ne.symm, h.holding]
  exact pairHolding_resp

theorem Delivered.rest (h : Delivered g head resp m0 m1 context b0 b1) :
    Resting ((g.give head m0).give resp m1) where
  holding := by
    unfold ChainGhost.give
    dsimp only
    rw [h.holding]
    exact pairHolding_freed context b0 b1
  descs := by
    change (g.descs.erase head).erase resp = []
    rw [h.descs, List.erase_cons_head, List.erase_cons_head]
  serving := h.serving

theorem Delivered.freeHead (h : Delivered g head resp m0 m1 context b0 b1) :
    Z.contract.Triple .ist g (onQueue (virtqFreeDesc head)) fun _ g' =>
      g' = g.give head m0 := by
  have hb0 : g.holding.region (requestCell m0 resp context).buffer = some b0 := by
    rw [requestCell_buffer h.request, h.holding]
    exact pairHolding_request h.buffers
  apply (virtqFreeDesc_triple h.headCell hb0).conseq
  rintro _ g1 rfl
  rw [requestCell_buffer h.request]
  rfl

theorem Delivered.freeResp (h : Delivered g head resp m0 m1 context b0 b1) :
    Z.contract.Triple .ist (g.give head m0) (onQueue (virtqFreeDesc resp)) fun _ g' =>
      g' = (g.give head m0).give resp m1 := by
  have hb1 : (g.give head m0).holding.region (responseCell m1).buffer = some b1 := by
    change ((g.holding.setDesc head none).setRegion m0 none).region _ = _
    rw [responseCell_buffer h.response, Holding.setRegion_of_ne _ _ h.buffers.symm,
      Holding.setDesc_region, h.holding]
    exact pairHolding_response
  apply (virtqFreeDesc_triple h.respCell hb1).conseq
  rintro _ g1 rfl
  rw [responseCell_buffer h.response]
  rfl

end Delivered

/-!
## The loops
-/

theorem ChainSetting.callbackRound_triple (hmeets : Z.Meets) {g : ChainGhost}
    {v : CallbackLocals} (hrest : Resting g) :
    Z.contract.Triple .ist g (virtqCallbackRound v) fun _ g' => Resting g' := by
  unfold virtqCallbackRound
  apply (Z.getDescChain_triple hmeets hrest).bind
  rintro r g1 (⟨⟨rc, rfl⟩, rfl⟩ | ⟨p, ptr, b0, b1, rfl, h, _⟩)
  · exact Contract.Triple.ret hrest
  · rcases h.pair.shape with ⟨resp, m0, m1, hp, hne, hmne, hlen0, hlen1, hhold⟩
    have hdescs := h.descs
    rw [Published.chain, hp] at hdescs ⊢
    have h0 : g1.holding.desc p.head = some (requestCell m0 resp p.context) := by
      rw [hhold]
      exact pairHolding_head hne
    have h1 : g1.holding.desc resp = some (responseCell m1) := by
      rw [hhold]
      exact pairHolding_resp
    apply (Z.queue_triple (virtqGetDescVaddr_keepsFree _)
      (virtqGetDescVaddr_holding h0)).bind
    rintro _ g2 ⟨H2, ⟨rfl, rfl⟩, rfl⟩
    apply (Z.queue_triple (virtqGetDescVaddr_keepsFree _)
      (virtqGetDescVaddr_holding h1)).bind
    rintro _ g3 ⟨H3, ⟨rfl, rfl⟩, rfl⟩
    apply (Z.queue_triple (virtqGetDescContext_keepsFree _)
      (virtqGetDescContext_holding h0)).bind
    rintro _ g4 ⟨H4, ⟨rfl, rfl⟩, rfl⟩
    dsimp only [CallbackLocals.withIdxs, Except.toOption, Option.getD]
    rw [h.context]
    apply (offQueue_triple (contextCallback_offQueue ptr)).bind
    rintro callback g5 rfl
    cases callback
    apply (Z.gpioCallback_triple h (by rw [hhold]; exact pairHolding_request hmne)
      hlen0 (by rw [hhold]; exact pairHolding_response) hlen1).bind
    rintro _ g6 rfl
    have hdelivered : Delivered { g1 with serving := none } p.head resp m0 m1 p.context
        b0 b1 := ⟨hne, hmne, hlen0, hlen1, hhold, hdescs, rfl⟩
    apply hdelivered.freeHead.bind
    rintro _ g7 rfl
    apply hdelivered.freeResp.bind
    rintro _ g8 rfl
    exact Contract.Triple.ret hdelivered.rest

theorem ask_offQueue {α : Type} (f : Env -> α) :
    (Prog.action fun e w => some (f e, w) : Prog Env GpioSystem α).Within OffQueue :=
  Prog.within_look OffQueue.refl _

theorem ChainSetting.callback_triple (hmeets : Z.Meets) {g : ChainGhost}
    (hrest : Resting g) :
    Z.contract.Triple .ist g virtqCallback fun _ g' => Resting g' := by
  unfold virtqCallback
  apply (offQueue_triple (ask_offQueue _)).bind
  rintro v g1 rfl
  apply Contract.Triple.loop (J := fun _ g => Resting g) (R := fun _ g' => Resting g')
  · intro v1 g2 hrest2
    apply (Z.callbackRound_triple hmeets hrest2).conseq
    intro r g3 hrest3
    cases r with
    | inl v2 => exact hrest3
    | inr rc => exact hrest3
  · exact fun _ _ hrest2 => Contract.Triple.ret hrest2
  · exact hrest

theorem ChainSetting.drain_triple (hmeets : Z.Meets) {g : ChainGhost} (hrest : Resting g) :
    Z.contract.Triple .ist g drainVirtq fun _ g' => Resting g' := by
  unfold drainVirtq
  apply Contract.Triple.loop (J := fun _ g => Resting g) (R := fun _ g' => Resting g')
  · intro _ g1 hrest1
    apply (Z.callback_triple hmeets hrest1).bind
    intro rc g2 hrest2
    split
    · exact Contract.Triple.ret hrest2
    · exact Contract.Triple.ret hrest2
  · exact fun _ _ hrest1 => Contract.Triple.ret hrest1
  · exact hrest

theorem ChainSetting.virtqCallback_triple (hmeets : Z.Meets) {transport : Transport}
    {g : ChainGhost} (hrest : Resting g) :
    Z.contract.Triple .ist g (virtioVirtqCallback transport) fun _ g' => Resting g' := by
  cases transport with
  | mmio =>
      unfold virtioVirtqCallback virtioMmioVirtqCallback
      have hread : (Prog.read GpioSystem.intStatus).Within (E := Env) OffQueue :=
        Prog.within_look OffQueue.refl _
      apply (offQueue_triple hread).bind
      rintro status g1 rfl
      split
      · have hack : (Prog.modify fun w : GpioSystem => { w with
            intStatus := w.intStatus &&& ~~~ VIRTIO_MMIO_INT_VIRTQ }).Within (E := Env)
              OffQueue := Prog.within_modify fun _ => ⟨rfl, rfl, rfl, rfl⟩
        apply (offQueue_triple hack).bind
        rintro _ g2 rfl
        exact Z.drain_triple hmeets hrest
      · exact Z.drain_triple hmeets hrest
  | pci => exact Z.drain_triple hmeets hrest

theorem interruptWait_offQueue (transport : Transport) :
    (interruptWait transport).Within OffQueue := by
  refine Prog.within_action fun e w b w' hf => ?_
  cases transport with
  | mmio =>
      dsimp only at hf
      split at hf
      · cases hf
      · cases hf
        exact ⟨rfl, rfl, rfl, rfl⟩
  | pci =>
      cases hf
      exact ⟨rfl, rfl, rfl, rfl⟩

theorem ChainSetting.ist_triple (hmeets : Z.Meets) {transport : Transport} :
    Z.contract.Triple .ist ChainGhost.initial (virtioIst transport) fun _ _ => True := by
  unfold virtioIst
  apply (offQueue_triple (ask_offQueue _)).bind
  rintro attached g1 rfl
  split
  · apply Contract.Triple.loop (J := fun _ g => Resting g) (R := fun _ _ => True)
    · intro _ g2 hrest2
      have hunmask : interruptUnmask.Within OffQueue :=
        Prog.within_modify fun _ => ⟨rfl, rfl, rfl, rfl⟩
      apply (offQueue_triple hunmask).bind
      rintro _ g3 rfl
      apply (offQueue_triple (interruptWait_offQueue transport)).bind
      rintro _ g4 rfl
      apply (Z.virtqCallback_triple hmeets hrest2).bind
      intro _ g5 hrest5
      exact Contract.Triple.ret hrest5
    · exact fun _ _ _ => Contract.Triple.ret trivial
    · exact ⟨rfl, rfl, rfl⟩
  · exact Contract.Triple.ret trivial

end QnxVirtio
