import QnxVirtio.Gpio.ChainSteps

/-!
# Clients and their descriptors

A client takes two descriptors, hands them over with the chain that it publishes, and
takes no other before it has been woken.
-/

namespace QnxVirtio

open Foundation

variable {D : Type} {Z : ChainSetting D}

/-!
## Publication
-/

section Publish

variable {w : GpioSystem} {gs : GpioThread -> ChainGhost} {fl : Nat -> Holding}
  {flying : Flying} {k t n : Nat} {p : Published}

/-- The ghost of a client that has published its `n`-th call. -/
def ChainGhost.asleep (g : ChainGhost) (n : Nat) : ChainGhost :=
  { g with holding := Holding.empty, descs := [], call := n, waiting := true }

theorem ChainsInv.publish (h : ChainsInv w gs fl flying) {ptr : ContextPtr}
    {b0 b1 : List UInt8} (hcontext : p.context = some ptr)
    (hpair : PairHolding p b0 b1 (gs (.client t)).holding) :
    ChainsInv { w with queue := w.queue.withPublished p }
      (Function.update gs (.client t) ((gs (.client t)).asleep n))
      (Function.update fl w.queue.published.length (gs (.client t)).holding)
      ((w.queue.published.length, p) :: flying) where
  holding := by
    rw [holders_update_thread, holders_update_chain]
    have hne : GpioOwner.thread (.client t) ≠ .chain w.queue.published.length := by
      simp
    exact (h.holding.transfer hne).congr rfl rfl rfl rfl
  keys := by
    refine List.nodup_cons.mpr ⟨fun hmem => ?_, h.keys⟩
    rcases List.mem_map.mp hmem with ⟨x, hx, hlen⟩
    have hlt := (List.getElem?_eq_some_iff.mp (h.published x hx)).1
    exact absurd hlen (Nat.ne_of_lt hlt)
  published := by
    intro x hx
    change (w.queue.published ++ [p])[x.1]? = some x.2
    rcases List.mem_cons.mp hx with rfl | hx
    · exact List.getElem?_concat_length
    · exact getElem?_append_of_some (h.published x hx) _
  pair := by
    intro x hx
    rcases List.mem_cons.mp hx with rfl | hx
    · rw [Function.update_self]
      exact ⟨ptr, b0, b1, hcontext, hpair⟩
    · have hlt := (List.getElem?_eq_some_iff.mp (h.published x hx)).1
      rw [Function.update_of_ne (Nat.ne_of_lt hlt)]
      exact h.pair x hx
  chains := by
    change ((w.queue.published ++ [p]).map Published.chain).Perm
      (w.queue.retrieved ++ (p.chain :: flying.map fun x => x.2.chain))
    rw [List.map_append]
    refine (h.chains.append_right _).trans ?_
    rw [List.append_assoc]
    exact (List.perm_append_singleton _ _).append_left _
  retrieved := by
    rw [Function.update_of_ne (by simp)]
    exact h.retrieved

theorem Accounts.call_lt (h : Accounts k w gs flying) {p' : Published}
    {ptr : ContextPtr} (hp' : p' ∈ w.queue.published) (hcontext : p'.context = some ptr)
    (hawake : (gs (.client ptr.thread)).waiting = false) :
    ptr.call < (gs (.client ptr.thread)).call := by
  rcases h.before p' hp' ptr hcontext with hlt | ⟨_, hwaiting⟩
  · exact hlt
  · rw [hawake] at hwaiting
    cases hwaiting

theorem Accounts.publish (h : Accounts k w gs flying) (hinv : ChainsInv w gs fl flying)
    (ht : t < k) (hawake : (gs (.client t)).waiting = false)
    (hcall : (gs (.client t)).call <= n) (hcontext : p.context = some ⟨t, n⟩)
    (hdescs : forall idx, idx ∈ (gs (.client t)).descs -> idx ∈ p.chain) :
    Accounts k { w with queue := w.queue.withPublished p }
      (Function.update gs (.client t) ((gs (.client t)).asleep n))
      ((w.queue.published.length, p) :: flying) := by
  -- no chain carries the context of this call yet
  have hnew : forall p', p' ∈ w.queue.published -> p'.context ≠ some ⟨t, n⟩ := by
    intro p' hp' heq
    exact absurd (h.call_lt hp' heq hawake) (Nat.not_lt.mpr hcall)
  have hist : Function.update gs (.client t) ((gs (.client t)).asleep n) .ist =
      gs .ist := Function.update_of_ne (by simp) ..
  have hother : forall u, u ≠ t ->
      Function.update gs (.client t) ((gs (.client t)).asleep n) (.client u) =
        gs (.client u) := fun u hu => Function.update_of_ne (by simpa using hu) ..
  constructor
  case room => exact h.room
  case covered =>
    intro idx hidx
    rcases h.covered idx hidx with hfree | ⟨u, hu⟩ | ⟨x, hx, hchain⟩
    · exact Or.inl hfree
    · by_cases heq : u = .client t
      · subst heq
        exact Or.inr (Or.inr ⟨_, List.mem_cons_self .., hdescs idx hu⟩)
      · refine Or.inr (Or.inl ⟨u, ?_⟩)
        rw [Function.update_of_ne heq]
        exact hu
    · exact Or.inr (Or.inr ⟨x, List.mem_cons_of_mem _ hx, hchain⟩)
  case short =>
    intro u
    exact forall_update (P := fun g g' => g.descs.length <= 2 -> g'.descs.length <= 2)
      (g := (gs (.client t)).asleep n) (fun _ hg => hg) (fun _ => Nat.zero_le 2) u
      (h.short u)
  case outside =>
    intro u hu
    exact forall_update (P := fun g g' => g.descs = [] -> g'.descs = [])
      (fun _ hg => hg) (fun _ => rfl) _ (h.outside u hu)
  case asleep =>
    intro u hu
    by_cases heq : u = t
    · subst heq
      rw [Function.update_self]
      rfl
    · rw [hother u heq] at hu ⊢
      exact h.asleep u hu
  case undelivered =>
    intro p' hp' ptr hptr hnot
    rcases List.mem_append.mp hp' with hp' | hp'
    · have hold := h.undelivered p' hp' ptr hptr hnot
      have hne : ptr.thread ≠ t := by
        intro heq
        rw [heq, hawake] at hold
        exact absurd hold.2.1 (by simp)
      rw [hother _ hne]
      exact hold
    · cases List.mem_singleton.mp hp'
      rw [hcontext] at hptr
      cases hptr
      rw [Function.update_self]
      exact ⟨ht, rfl, rfl⟩
  case before =>
    intro p' hp' ptr hptr
    rcases List.mem_append.mp hp' with hp' | hp'
    · by_cases heq : ptr.thread = t
      · have hlt := h.call_lt hp' hptr (heq ▸ hawake)
        rw [heq] at hlt ⊢
        rw [Function.update_self]
        exact Or.inl (Nat.lt_of_lt_of_le hlt hcall)
      · rw [hother _ heq]
        exact h.before p' hp' ptr hptr
    · cases List.mem_singleton.mp hp'
      rw [hcontext] at hptr
      cases hptr
      rw [Function.update_self]
      exact Or.inr ⟨rfl, rfl⟩
  case delivered =>
    intro ptr hptr
    rcases h.delivered ptr hptr with ⟨p', hp', hcontext'⟩
    exact ⟨p', List.mem_append_left _ hp', hcontext'⟩
  case contexts =>
    rw [hist, List.map_cons, List.cons_append]
    refine List.nodup_cons.mpr ⟨fun hmem => ?_, h.contexts⟩
    rcases List.mem_append.mp hmem with hmem | hmem
    · rcases List.mem_map.mp hmem with ⟨x, hx, heq⟩
      exact hnew _ (List.mem_of_getElem? (hinv.published x hx)) (heq.trans hcontext)
    · rcases Option.map_eq_some_iff.mp (Option.mem_toList.mp hmem) with ⟨p', hp', heq⟩
      exact hnew p' (h.serving p' hp') (heq.trans hcontext)
  case fresh =>
    intro x hx ptr hptr hmem
    rcases List.mem_cons.mp hx with rfl | hx
    · rw [hcontext] at hptr
      cases hptr
      rcases h.delivered _ hmem with ⟨p', hp', hcontext'⟩
      exact hnew p' hp' hcontext'
    · exact h.fresh x hx ptr hptr hmem
  case serving =>
    rw [hist]
    exact fun p' hp' => List.mem_append_left _ (h.serving p' hp')
  case outstanding =>
    intro pos p' hout hp'
    rcases hout.of_concat (q := w.queue) rfl rfl hp' with ⟨rfl, rfl⟩ | ⟨hold, hp'⟩
    · exact List.mem_cons_self ..
    · exact List.mem_cons_of_mem _ (h.outstanding pos p' hold hp')
  case returns => exact h.returns

end Publish

theorem ChainSetting.publish_triple {t n : Nat} {g : ChainGhost} {head resp : UInt16}
    {b0 b1 : List UInt8} (hpair : PairHolding ⟨head, [resp], some ⟨t, n⟩⟩ b0 b1 g.holding)
    (hstage : forall k, Z.bound = some k -> g.waiting = false ∧ g.call <= n ∧
      forall idx, idx ∈ g.descs -> idx ∈ [head, resp]) :
    Z.contract.Triple (.client t) g (onQueue (publishChain head [resp])) fun _ g' =>
      (Z.bound = none ∧ g' = g) ∨ g' = g.asleep n := by
  apply Contract.Triple.action
  rintro e w gs rc w' hok ⟨fl, flying, hinv, hacc⟩ rfl hf
  rcases Option.map_eq_some_iff.mp hf with ⟨⟨rc1, q'⟩, hfq, hout⟩
  cases hout
  dsimp only at hfq
  split at hfq
  · -- the spinlock was not taken: nothing is published
    rename_i hlock
    cases hfq
    have hnone : Z.bound = none := by
      cases hbound : Z.bound with
      | none => rfl
      | some k => exact absurd (Z.steady k hbound _ _ hok).1.1.lock hlock
    refine ⟨gs (.client t), ⟨fl, flying, ?_⟩, Or.inl ⟨hnone, rfl⟩⟩
    rw [Function.update_eq_self]
    exact ⟨hinv, hacc⟩
  · cases hfq
    have hcontext : (w.queue.vq.descExtras head).context = some ⟨t, n⟩ := by
      rcases hpair.shape with ⟨resp, m0, m1, _, hne, _, _, _, hH⟩
      have hcell : (holders gs fl (.thread (.client t))).desc head =
          some (requestCell m0 resp (some ⟨t, n⟩)) := by
        rw [holders_thread, hH]
        exact pairHolding_head hne
      exact congrArg (fun c => c.extras.context) (hinv.holding.descs.known _ _ _ hcell)
    rw [hcontext]
    refine ⟨_, ⟨_, _, hinv.publish (n := n) rfl hpair, fun k hk => ?_⟩, Or.inr rfl⟩
    rcases hstage k hk with ⟨hawake, hcall, hdescs⟩
    exact (hacc k hk).publish (p := ⟨head, [resp], some ⟨t, n⟩⟩) hinv
      ((Z.steady k hk _ _ hok).1.2 t rfl) hawake hcall rfl hdescs

/-!
## Requests
-/

/-- In bounded runs the client is awake, has nothing, and has not made its `n`-th call. -/
def Ready (Z : ChainSetting D) (n : Nat) (g : ChainGhost) : Prop :=
  forall k, Z.bound = some k -> g.waiting = false ∧ g.descs = [] ∧ g.call <= n

/-- In bounded runs the `n`-th call of the client is published and has its descriptors. -/
def Sent (Z : ChainSetting D) (n : Nat) (rc : Rc) (g : ChainGhost) : Prop :=
  forall k, Z.bound = some k -> rc = .EOK ∧ g.waiting = true ∧ g.call = n ∧
    g.descs = [] ∧ g.holding = Holding.empty

/-- In bounded runs the client has nothing to give back and no chain in flight, and the
code is not the one of an empty free list. -/
def Returned (Z : ChainSetting D) (n : Nat) (rc : Rc) (g : ChainGhost) : Prop :=
  forall k, Z.bound = some k -> rc ≠ .ENOENT ∧ g.waiting = false ∧ g.descs = [] ∧
    g.call <= n + 1 ∧ g.holding = Holding.empty

theorem Ready.returned {n : Nat} {g : ChainGhost} {rc : Rc} (hready : Ready Z n g)
    (hhold : g.holding = Holding.empty) (hrefused : Refused Z rc) :
    Returned Z n rc g := by
  intro k hk
  rcases hready k hk with ⟨hawake, hdescs, hcall⟩
  exact ⟨(hrefused k hk).2, hawake, hdescs, Nat.le_succ_of_le hcall, hhold⟩

theorem buildChain_triple (type gpio : UInt16) (value : UInt32) (t n : Nat)
    {g : ChainGhost} {i0 i1 : UInt16} {m0 m1 : Mapping} {b0 b1 : List UInt8}
    (hne : i0 ≠ i1) (hmne : m0 ≠ m1)
    (hlen0 : m0.len = sizeofVirtioGpioRequest.toNat) (hb0 : b0.length = m0.len)
    (hhold : g.holding = allocatedPair i0 i1 m0 m1 b0 b1) :
    Z.contract.Triple (.client t) g
      ((onQueue (storeRequest m0.vaddr type gpio value)).bind fun _ =>
        (onQueue (virtqSetDescContext i0 ⟨t, n⟩)).bind fun _ =>
          onQueue (linkChain i0 [i1])) fun _ g' =>
      exists b, g' = { g with
        holding := pairHolding i0 i1 m0 m1 (some ⟨t, n⟩) b b1 } := by
  have hrequest : g.holding.region m0 = some b0 := by
    rw [hhold]
    exact allocatedPair_request hmne
  apply (Z.queue_triple (storeRequest_keepsFree _ _ _ _)
    (storeRequest_holding hrequest hlen0 hb0 ⟨type, gpio, value⟩)).bind
  rintro _ g1 ⟨H1, rfl, rfl⟩
  have hhead : (g.holding.setRegion m0
      (some (VirtioGpioRequest.encode ⟨type, gpio, value⟩))).desc i0 =
        some (allocatedCell m0 sizeofVirtioGpioRequest false) := by
    rw [Holding.setRegion_desc, hhold]
    exact allocatedPair_head hne
  apply (Z.queue_triple (virtqSetDescContext_keepsFree _ _)
    (virtqSetDescContext_holding hhead ⟨t, n⟩)).bind
  rintro _ g2 ⟨H2, rfl, rfl⟩
  have hresp : forall c, ((g.holding.setRegion m0
      (some (VirtioGpioRequest.encode ⟨type, gpio, value⟩))).setDesc i0 c).desc i1 =
        some (allocatedCell m1 sizeofVirtioGpioResponse true) := by
    intro c
    rw [Holding.setDesc_of_ne _ _ hne.symm, Holding.setRegion_desc, hhold]
    exact allocatedPair_resp
  apply (Z.queue_triple (linkChain_keepsFree _ _)
    (linkChain_pair_holding hne (Holding.setDesc_self ..) (hresp _))).conseq
  rintro _ g3 ⟨H3, rfl, rfl⟩
  refine ⟨VirtioGpioRequest.encode ⟨type, gpio, value⟩, ?_⟩
  rw [← builtChain_eq hne hmne b0, ← hhold]
  simp only [Holding.setDesc_setDesc]
  rfl

/-- In bounded runs a request is published, or refused for another reason than an empty
free list. -/
theorem ChainSetting.request_triple {config : VirtioGpioConfig}
    {type gpio value : UInt16} {t n : Nat} {g : ChainGhost}
    (hhold : g.holding = Holding.empty) (hready : Ready Z n g)
    (htype : type ≠ VIRTIO_GPIO_MSG_GET_LINE_NAMES) :
    Z.contract.Triple (.client t) g (virtioGpioRequest config type gpio value ⟨t, n⟩)
      fun rc g' => Sent Z n rc g' ∨ Returned Z n rc g' ∧ Refused Z rc := by
  unfold virtioGpioRequest
  rw [virtioGpioResponseSize, if_neg htype]
  have hmay : forall k, Z.bound = some k -> MayTake g := by
    intro k hk
    rcases hready k hk with ⟨hawake, hdescs, _⟩
    exact ⟨hawake, by simp [hdescs]⟩
  apply (virtqAllocDesc_triple hmay (by decide)).bind
  rintro r g1 (⟨rc, rfl, hrefused, rfl⟩ | ⟨i0, m0, b0, rfl, hi0, hm0, hlen0, hb0, rfl⟩)
  · exact Contract.Triple.ret (Or.inr ⟨hready.returned hhold hrefused, hrefused⟩)
  · simp only
    have hmay' : forall k, Z.bound = some k -> MayTake { g with
        holding := (g.holding.setDesc i0 (some (allocatedCell m0 sizeofVirtioGpioRequest
          false))).setRegion m0 (some b0)
        descs := i0 :: g.descs } := by
      intro k hk
      rcases hready k hk with ⟨hawake, hdescs, _⟩
      exact ⟨hawake, by simp [hdescs]⟩
    apply (virtqAllocDesc_triple hmay' (by decide)).bind
    rintro r g2 (⟨rc, rfl, hrefused, rfl⟩ | ⟨i1, m1, b1, rfl, hi1, hm1, hlen1, hb1, rfl⟩)
    · -- no second descriptor: the first one goes back
      have hbuffer := allocatedCell_buffer hlen0 false
      apply (virtqFreeDesc_triple (b := b0) (Holding.setDesc_self ..)
        (by rw [hbuffer]; exact Holding.setRegion_self ..)).bind
      rintro _ g3 rfl
      refine Contract.Triple.ret (Or.inr ⟨?_, hrefused⟩)
      rw [hbuffer, Holding.setDesc_setRegion]
      simp only [Holding.setDesc_setDesc, Holding.setDesc_eq_self hi0,
        Holding.setRegion_setRegion, Holding.setRegion_eq_self hm0, List.erase_cons_head]
      exact hready.returned hhold hrefused
    · have hne : i0 ≠ i1 := by
        rintro rfl
        rw [Holding.setRegion_desc, Holding.setDesc_self] at hi1
        cases hi1
      have hmne : m0 ≠ m1 := by
        rintro rfl
        rw [Holding.setRegion_self] at hm1
        cases hm1
      simp only [hhold]
      change Z.contract.Triple (.client t) { g with
        holding := allocatedPair i0 i1 m0 m1 b0 b1
        descs := i1 :: i0 :: g.descs } _ _
      apply (Z.queue_triple (read_keepsFree _)
        (virtqGetDescVaddr_holding (allocatedPair_head hne))).bind
      rintro r g3 ⟨H3, ⟨rfl, rfl⟩, rfl⟩
      have hpublish : forall b, Z.contract.Triple (.client t) { g with
          holding := pairHolding i0 i1 m0 m1 (some ⟨t, n⟩) b b1
          descs := i1 :: i0 :: g.descs }
          ((onQueue (publishChain i0 [i1])).bind fun _ =>
            virtioNotifyQueue.bind fun _ => Prog.ret Rc.EOK)
          fun rc g' => Sent Z n rc g' ∨ Returned Z n rc g' ∧ Refused Z rc := by
        intro b
        have hpair : PairHolding ⟨i0, [i1], some ⟨t, n⟩⟩ b b1
            (pairHolding i0 i1 m0 m1 (some ⟨t, n⟩) b b1) :=
          ⟨⟨i1, m0, m1, rfl, hne, hmne, hlen0, hlen1, rfl⟩⟩
        apply (Z.publish_triple hpair ?_).bind
        · rintro _ g4 hpost
          have hnotify : virtioNotifyQueue.Within OffQueue :=
            Prog.within_look OffQueue.refl _
          apply (offQueue_triple hnotify).bind
          rintro _ g5 rfl
          refine Contract.Triple.ret (Or.inl fun k hk => ?_)
          rcases hpost with ⟨hbound, _⟩ | rfl
          · rw [hbound] at hk
            cases hk
          · exact ⟨rfl, rfl, rfl, rfl, rfl⟩
        · intro k hk
          rcases hready k hk with ⟨hawake, hdescs, hcall⟩
          exact ⟨hawake, hcall, by simp [hdescs]⟩
      have hbuild := buildChain_triple (Z := Z) (g := { g with
        holding := allocatedPair i0 i1 m0 m1 b0 b1
        descs := i1 :: i0 :: g.descs }) type gpio value.toUInt32 t n hne hmne hlen0 hb0 rfl
      have hall := hbuild.bind (f := fun _ => (onQueue (publishChain i0 [i1])).bind fun _ =>
        virtioNotifyQueue.bind fun _ => Prog.ret Rc.EOK)
        (R := fun rc g' => Sent Z n rc g' ∨ Returned Z n rc g' ∧ Refused Z rc) (by
          rintro _ g4 ⟨b, rfl⟩
          exact hpublish b)
      simp only [Prog.bind_assoc] at hall
      simp only [virtqPutDescChain_eq, Prog.bind_eq_bind, Prog.pure_eq_ret, onQueue_bind,
        Prog.bind_assoc]
      exact hall

/-!
## Waiting
-/

/-- The ghost of a client whose wait is over. -/
def ChainGhost.awake (g : ChainGhost) : ChainGhost :=
  { g with call := g.call + 1, waiting := false }

theorem Accounts.wake {k t : Nat} {w w' : GpioSystem} {gs : GpioThread -> ChainGhost}
    {flying : Flying} (h : Accounts k w gs flying) (hoff : OffQueue w w')
    (hdone : forall p, p ∈ w.queue.published -> forall m, p.context = some ⟨t, m⟩ ->
      ⟨t, m⟩ ∈ w.delivered) :
    Accounts k w' (Function.update gs (.client t) (gs (.client t)).awake) flying := by
  have hdescs : forall u, (Function.update gs (.client t) (gs (.client t)).awake u).descs =
      (gs u).descs := forall_update (P := fun g g' => g'.descs = g.descs) (fun _ => rfl) rfl
  have hist : Function.update gs (.client t) (gs (.client t)).awake .ist = gs .ist :=
    Function.update_of_ne (by simp) ..
  constructor
  case room =>
    rw [hoff.queue]
    exact h.room
  case covered =>
    intro idx hidx
    rw [hoff.queue] at hidx ⊢
    rcases h.covered idx hidx with hfree | ⟨u, hu⟩ | hchain
    · exact Or.inl hfree
    · exact Or.inr (Or.inl ⟨u, (hdescs u).symm ▸ hu⟩)
    · exact Or.inr (Or.inr hchain)
  case short =>
    intro u
    rw [hdescs]
    exact h.short u
  case outside =>
    intro u hu
    rw [hdescs]
    exact h.outside u hu
  case asleep =>
    intro u hu
    rw [hdescs]
    by_cases heq : u = t
    · subst heq
      rw [Function.update_self] at hu
      cases hu
    · rw [Function.update_of_ne (by simpa using heq)] at hu
      exact h.asleep u hu
  case undelivered =>
    intro p hp ptr hptr hnot
    rw [hoff.queue] at hp
    rw [hoff.delivered] at hnot
    have hne : ptr.thread ≠ t := by
      rintro rfl
      exact hnot (hdone p hp ptr.call hptr)
    rw [Function.update_of_ne (by simpa using hne)]
    exact h.undelivered p hp ptr hptr hnot
  case before =>
    intro p hp ptr hptr
    rw [hoff.queue] at hp
    by_cases heq : ptr.thread = t
    · rw [heq, Function.update_self]
      left
      have hbefore := h.before p hp ptr hptr
      rw [heq] at hbefore
      rcases hbefore with hlt | ⟨hcall, _⟩
      · exact Nat.lt_succ_of_lt hlt
      · exact Nat.lt_succ_of_le (Nat.le_of_eq hcall)
    · rw [Function.update_of_ne (by simpa using heq)]
      exact h.before p hp ptr hptr
  case delivered =>
    rw [hoff.delivered, hoff.queue]
    exact h.delivered
  case contexts =>
    rw [hist]
    exact h.contexts
  case fresh =>
    rw [hoff.delivered]
    exact h.fresh
  case serving =>
    rw [hist, hoff.queue]
    exact h.serving
  case outstanding =>
    rw [hoff.queue, hoff.device]
    exact h.outstanding
  case returns =>
    rw [hoff.returns]
    exact h.returns

theorem ChainsInv.recall {w w' : GpioSystem} {gs : GpioThread -> ChainGhost}
    {fl : Nat -> Holding} {flying : Flying} (h : ChainsInv w gs fl flying)
    (hoff : OffQueue w w') {t : GpioThread} {g : ChainGhost}
    (hhold : g.holding = (gs t).holding) (hret : g.retrieved = (gs t).retrieved) :
    ChainsInv w' (Function.update gs t g) fl flying := by
  refine h.congr ?_ (by rw [hoff.queue]) (by rw [hoff.queue])
    (forall_update (P := fun g g' => g'.retrieved = g.retrieved) (fun _ => rfl) hret .ist)
  rw [hoff.queue, holders_update_thread, hhold]
  have hsame : Function.update (holders gs fl) (.thread t) (gs t).holding =
      holders gs fl := Function.update_eq_self (GpioOwner.thread t) (holders gs fl)
  rw [hsame]
  exact h.holding

theorem ChainSetting.semWait_triple {t n : Nat} {g : ChainGhost}
    (hsent : Sent Z n .EOK g) :
    Z.contract.Triple (.client t) g (semWait ⟨t, n⟩) fun rc g' =>
      rc ≠ .EINTR ∧ Returned Z n rc g' := by
  apply Contract.Triple.action
  rintro e w gs rc w' hok ⟨fl, flying, hinv, hacc⟩ rfl hf
  have hcases : OffQueue w w' ∧ (rc = .EOK ∨ rc = .minusOne) ∧
      ((exists c, w.contexts ⟨t, n⟩ = some c ∧ c.sem = some 0) -> e.interrupted = true) := by
    dsimp only at hf
    split at hf
    · cases hf
    · rename_i c hc
      split at hf
      · rename_i hsem
        cases hf
        refine ⟨OffQueue.refl _, Or.inr rfl, ?_⟩
        rintro ⟨c', hc', hzero⟩
        rw [hc] at hc'
        cases hc'
        rw [hsem] at hzero
        cases hzero
      · split at hf
        · rename_i hintr
          cases hf
          exact ⟨OffQueue.refl _, Or.inr rfl, fun _ => hintr⟩
        · cases hf
      · rename_i m hsem
        cases hf
        refine ⟨OffQueue.setContext _ _ _, Or.inl rfl, ?_⟩
        rintro ⟨c', hc', hzero⟩
        rw [hc] at hc'
        cases hc'
        rw [hsem] at hzero
        cases hzero
  rcases hcases with ⟨hoff, hrc, hsleep⟩
  have hne : rc ≠ .EINTR ∧ rc ≠ .ENOENT := by
    rcases hrc with rfl | rfl
    · exact ⟨by decide, by decide⟩
    · exact ⟨by decide, by decide⟩
  cases hbound : Z.bound with
  | none =>
      refine ⟨gs (.client t), ⟨fl, flying, hinv.recall hoff rfl rfl, ?_⟩, hne.1, ?_⟩
      · intro k hk
        rw [hbound] at hk
        cases hk
      · intro k hk
        rw [hbound] at hk
        cases hk
  | some k =>
      rcases hsent k hbound with ⟨_, hwaiting, hcall, hdescs, hempty⟩
      rcases Z.steady k hbound _ _ hok with ⟨⟨hsteady, _⟩, hsettled⟩
      have hdone : forall p, p ∈ w.queue.published -> forall m, p.context = some ⟨t, m⟩ ->
          ⟨t, m⟩ ∈ w.delivered := by
        intro p hp m hcontext
        by_contra hnot
        have hm := ((hacc k hbound).undelivered p hp _ hcontext hnot).2.2
        have hmn : m = n := hm.symm.trans hcall
        subst hmn
        have hintr := hsleep (hsettled.asleep p hp _ hcontext hnot)
        rw [hsteady.interrupted] at hintr
        cases hintr
      refine ⟨(gs (.client t)).awake, ⟨fl, flying, hinv.recall hoff rfl rfl, ?_⟩,
        hne.1, ?_⟩
      · intro k' hk'
        exact (hacc k' hk').wake hoff hdone
      · intro k' hk'
        exact ⟨hne.2, rfl, hdescs, Nat.le_of_eq (congrArg (· + 1) hcall), hempty⟩

theorem ChainSetting.wait_triple {t n : Nat} {g : ChainGhost} (hsent : Sent Z n .EOK g) :
    Z.contract.Triple (.client t) g (virtioGpioContextWait ⟨t, n⟩) (Returned Z n) := by
  apply Contract.Triple.loop (J := fun _ g => Sent Z n .EOK g) (R := Returned Z n)
  · intro _ g1 hsent1
    apply (Z.semWait_triple hsent1).bind
    rintro rc g2 ⟨hrc, hreturned⟩
    rw [if_neg hrc]
    exact Contract.Triple.ret hreturned
  · intro rc g1 hreturned
    exact Contract.Triple.ret hreturned
  · exact hsent

/-!
## Calls
-/

theorem setContext_offQueue (ptr : ContextPtr)
    (f : VirtioGpioContext -> VirtioGpioContext) : (setContext ptr f).Within OffQueue :=
  Prog.within_modify fun w => OffQueue.changeContext w ptr f

theorem ChainSetting.semInit_triple {t : GpioThread} {g : ChainGhost} (ptr : ContextPtr) :
    Z.contract.Triple t g (semInit ptr) fun rc g' => rc ≠ .ENOENT ∧ g' = g := by
  apply Contract.Triple.action
  rintro e w gs rc w' hok hinv rfl hf
  refine ⟨gs t, ?_, ?_, rfl⟩
  · rw [Function.update_eq_self]
    refine Z.inv_offQueue ?_ hinv
    dsimp only at hf
    split at hf
    · cases hf
      exact OffQueue.changeContext _ _ _
    · cases hf
      exact OffQueue.refl _
  · dsimp only at hf
    split at hf
    · cases hf
      decide
    · cases hf
      decide

theorem ChainSetting.contextInit_triple {t : GpioThread} {g : ChainGhost}
    (ptr : ContextPtr) :
    Z.contract.Triple t g (virtioGpioContextInit ptr) fun rc g' =>
      rc ≠ .ENOENT ∧ g' = g := by
  unfold virtioGpioContextInit
  apply (offQueue_triple (setContext_offQueue _ _)).bind
  rintro _ g1 rfl
  apply (offQueue_triple (setContext_offQueue _ _)).bind
  rintro _ g2 rfl
  exact Z.semInit_triple ptr

theorem ChainSetting.readContext_triple {α : Type} {t : GpioThread} {g : ChainGhost}
    (ptr : ContextPtr) (f : VirtioGpioContext -> α) :
    Z.contract.Triple t g (readContext ptr f) fun r g' => (exists c, r = f c) ∧ g' = g := by
  apply Contract.Triple.action
  rintro e w gs r w' hok hinv rfl hf
  rcases Option.map_eq_some_iff.mp hf with ⟨c, _, hout⟩
  cases hout
  refine ⟨gs t, ?_, ⟨c, rfl⟩, rfl⟩
  rw [Function.update_eq_self]
  exact hinv

theorem ChainSetting.readValue_triple {t : GpioThread} {g : ChainGhost} (reads : Bool)
    (ptr : ContextPtr) :
    Z.contract.Triple t g (readValue reads ptr) fun _ g' => g' = g := by
  cases reads with
  | false => exact Contract.Triple.ret rfl
  | true => exact (Z.readContext_triple ptr fun c => some c.value).conseq fun _ _ h => h.2

theorem ChainSetting.operation_triple {config : VirtioGpioConfig}
    {type gpio value : UInt16} {reads : Bool} {t n : Nat} {g : ChainGhost}
    (hhold : g.holding = Holding.empty) (hready : Ready Z n g)
    (htype : type ≠ VIRTIO_GPIO_MSG_GET_LINE_NAMES) :
    Z.contract.Triple (.client t) g
      (virtioGpioOperation config type gpio value reads ⟨t, n⟩) fun result g' =>
        Returned Z n result.rc g' := by
  have hdeinit : forall (result : GpioResult) {g1 : ChainGhost},
      Returned Z n result.rc g1 ->
      Z.contract.Triple (.client t) g1
        ((virtioGpioContextDeinit ⟨t, n⟩).bind fun _ => Prog.ret result)
        fun result g' => Returned Z n result.rc g' := by
    intro result g1 hreturned
    apply (offQueue_triple (setContext_offQueue _ _)).bind
    rintro _ g2 rfl
    exact Contract.Triple.ret hreturned
  unfold virtioGpioOperation
  apply (Z.contextInit_triple ⟨t, n⟩).bind
  rintro rc g1 ⟨hrc, rfl⟩
  split
  · refine Contract.Triple.ret fun k hk => ?_
    rcases hready k hk with ⟨hawake, hdescs, hcall⟩
    exact ⟨hrc, hawake, hdescs, Nat.le_succ_of_le hcall, hhold⟩
  · apply (Z.request_triple hhold hready htype).bind
    intro rc2 g2 hrequest
    split
    · rename_i hfailed
      refine hdeinit { rc := rc2, value := none, waited := false } ?_
      rcases hrequest with hsent | ⟨hreturned, _⟩
      · intro k hk
        exact absurd (hsent k hk).1 hfailed
      · exact hreturned
    · rename_i hok
      have hok : rc2 = .EOK := Decidable.not_not.mp hok
      subst hok
      have hsent : Sent Z n .EOK g2 := by
        rcases hrequest with hsent | ⟨_, hrefused⟩
        · exact hsent
        · exact fun k hk => absurd rfl (hrefused k hk).1
      apply (Z.wait_triple hsent).bind
      intro rc3 g3 hreturned
      split
      · exact hdeinit _ hreturned
      · apply (Z.readValue_triple reads ⟨t, n⟩).bind
        rintro value g4 rfl
        apply (Z.readContext_triple ⟨t, n⟩ _).bind
        rintro rc4 g5 ⟨⟨c, rfl⟩, rfl⟩
        refine hdeinit _ ?_
        intro k hk
        refine ⟨?_, (hreturned k hk).2⟩
        dsimp only
        split
        · decide
        · decide

theorem ChainSetting.call_triple {config : VirtioGpioConfig} {t n : Nat} {g : ChainGhost}
    (call : GpioCall) (hhold : g.holding = Holding.empty) (hready : Ready Z n g) :
    Z.contract.Triple (.client t) g (call.run config ⟨t, n⟩) fun result g' =>
      Returned Z n result.rc g' := by
  cases call with
  | setValue gpio value => exact Z.operation_triple hhold hready (by decide)
  | getValue gpio => exact Z.operation_triple hhold hready (by decide)
  | getDirection gpio => exact Z.operation_triple hhold hready (by decide)
  | setDirection gpio direction => exact Z.operation_triple hhold hready (by decide)

theorem enterFrame_offQueue (ptr : ContextPtr) : (enterFrame ptr).Within OffQueue := by
  refine Prog.within_action fun e w b w' hf => ?_
  cases hf
  exact OffQueue.setContext _ _ _

theorem ChainSetting.leaveFrame_triple {t n : Nat} {g : ChainGhost} {call : GpioCall}
    {result : GpioResult} (hreturned : Returned Z n result.rc g) :
    Z.contract.Triple (.client t) g (leaveFrame ⟨t, n⟩ call result) fun _ g' =>
      g'.holding = Holding.empty ∧ Ready Z (n + 1) g' := by
  apply Contract.Triple.action
  rintro e w gs u w' hok ⟨fl, flying, hinv, hacc⟩ rfl hf
  cases hf
  refine ⟨{ gs (.client t) with holding := Holding.empty }, ⟨fl, flying, ?_, ?_⟩, rfl, ?_⟩
  · refine hinv.congr ?_ rfl rfl (by rw [Function.update_of_ne (by simp)])
    rw [holders_update_thread]
    exact hinv.holding.forget _
  · intro k hk
    have hcongr : Accounts k w (Function.update gs (.client t)
        { gs (.client t) with holding := Holding.empty }) flying :=
      (hacc k hk).congr ⟨rfl, rfl, rfl, fun _ h => h, rfl, rfl⟩ rfl
        (forall_update (P := fun g g' => SameCalls g g' ∧ g'.descs = g.descs)
          (fun _ => ⟨⟨rfl, rfl, rfl⟩, rfl⟩) ⟨⟨rfl, rfl, rfl⟩, rfl⟩)
    refine { hcongr with returns := ?_ }
    intro r hr
    rcases List.mem_append.mp hr with hr | hr
    · exact (hacc k hk).returns r hr
    · rw [List.mem_singleton.mp hr]
      exact (hreturned k hk).1
  · intro k hk
    rcases hreturned k hk with ⟨_, hawake, hdescs, hcall, _⟩
    exact ⟨hawake, hdescs, hcall⟩

theorem ChainSetting.client_triple {config : VirtioGpioConfig} {t : Nat}
    {script : Nat -> GpioCall} :
    Z.contract.Triple (.client t) ChainGhost.initial (gpioClient config t script)
      fun _ _ => True := by
  apply Contract.Triple.loop
    (J := fun n g => g.holding = Holding.empty ∧ Ready Z n g) (R := fun _ _ => True)
  · rintro n g ⟨hhold, hready⟩
    apply (offQueue_triple (enterFrame_offQueue _)).bind
    rintro _ g1 rfl
    apply (Z.call_triple (script n) hhold hready).bind
    intro result g2 hreturned
    apply (Z.leaveFrame_triple hreturned).bind
    intro _ g3 hnext
    exact Contract.Triple.ret hnext
  · exact fun _ _ _ => Contract.Triple.ret trivial
  · exact ⟨rfl, fun _ _ => ⟨rfl, rfl, Nat.le_refl 0⟩⟩

end QnxVirtio
