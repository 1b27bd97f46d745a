import QnxVirtio.Gpio.UsedRing

/-!
# Runs with a used ring that cannot be trusted

As long as every element that the interrupt thread looks at names the head of a chain in
flight, nothing else in the used ring does any harm.  No other element is rejected.
-/

namespace QnxVirtio

open Foundation

/-!
## Chains in flight
-/

section Flying

variable {w : GpioSystem} {gs : GpioThread -> ChainGhost} {fl : Nat -> Holding}
  {flying : Flying}

theorem ChainsInv.count_chains (h : ChainsInv w gs fl flying) (chain : List UInt16) :
    (w.queue.published.map Published.chain).count chain =
      w.queue.retrieved.count chain + (flying.map fun x => x.2.chain).count chain := by
  rw [h.chains.count_eq, List.count_append]

theorem ChainsInv.flying_mem (h : ChainsInv w gs fl flying) {p : Published}
    (hp : w.queue.flying p = true) : exists x, x ∈ flying ∧ x.2.chain = p.chain := by
  have hlt := of_decide_eq_true hp
  rw [h.count_chains] at hlt
  have hpos : 0 < (flying.map fun x => x.2.chain).count p.chain := by
    omega
  rcases List.mem_map.mp (List.count_pos_iff.mp hpos) with ⟨x, hx, hchain⟩
  exact ⟨x, hx, hchain⟩

theorem chain_head {p p' : Published} (h : p.chain = p'.chain) : p.head = p'.head :=
  (List.cons.inj h).1

theorem ChainsInv.inFlight_mem (h : ChainsInv w gs fl flying) {id : UInt32}
    (hid : w.queue.inFlight id = true) :
    exists x, x ∈ flying ∧ x.2.head = id.toUInt16 := by
  rcases List.any_eq_true.mp hid with ⟨p, _, hp⟩
  rcases Bool.and_eq_true_iff.mp hp with ⟨hhead, hflying⟩
  rcases h.flying_mem hflying with ⟨x, hx, hchain⟩
  refine ⟨x, hx, ?_⟩
  rw [chain_head hchain, ← beq_iff_eq.mp hhead, UInt16.toUInt16_toUInt32]

theorem ChainsInv.count_retrieved_le (h : ChainsInv w gs fl flying) (idx : UInt16) :
    (gs .ist).retrieved.flatten.count idx <=
      (w.queue.published.flatMap Published.chain).count idx := by
  rw [← h.retrieved, List.flatMap_def, h.chains.flatten.count_eq, List.flatten_append,
    List.count_append]
  exact Nat.le_add_right ..

theorem ChainsInv.visits (h : ChainsInv w gs fl flying) {x : Nat × Published}
    (hx : x ∈ flying) :
    chainWalk w.queue.vq.desc 2 x.2.head = some x.2.chain ∧
      forall idx, idx ∈ x.2.chain -> idx.toNat < w.queue.vq.num.toNat := by
  rcases h.pair x hx with ⟨ptr, b0, b1, _, hpair⟩
  refine ⟨hpair.walk (o := GpioOwner.chain x.1) h.holding rfl, ?_⟩
  rcases hpair.shape with ⟨resp, m0, m1, hrest, hne, _, _, _, hhold⟩
  have hhead : (holders gs fl (.chain x.1)).desc x.2.head =
      some (requestCell m0 resp x.2.context) := by
    rw [holders_chain, hhold]
    exact pairHolding_head hne
  have hresp : (holders gs fl (.chain x.1)).desc resp = some (responseCell m1) := by
    rw [holders_chain, hhold]
    exact pairHolding_resp
  intro idx hidx
  rw [Published.chain, hrest] at hidx
  rcases List.mem_pair.mp hidx with rfl | rfl
  · exact h.holding.descs.live _ _ _ hhead
  · exact h.holding.descs.live _ _ _ hresp

end Flying

theorem chainVisits_of_walk {desc : UInt16 -> VirtqDesc} {n : Nat} {idx : UInt16}
    {chain : List UInt16} (h : chainWalk desc n idx = some chain) :
    chainVisits desc n idx = chain := by
  induction n generalizing idx chain with
  | zero => cases h
  | succ n ih =>
      unfold chainWalk at h
      unfold chainVisits
      split at h
      · rename_i hnext
        rcases Option.map_eq_some_iff.mp h with ⟨rest, hrest, rfl⟩
        rw [if_pos hnext, ih hrest]
      · rename_i hnext
        cases h
        rw [if_neg hnext]

/-!
## The surroundings
-/

def usedRingSetting : ChainSetting UsedRingMove where
  env := usedRingEnv
  ok := fun _ _ => True
  bound := none
  steady := by
    intro k hk
    cases hk

theorem usedRing_env {move : UsedRingMove} {w w' : GpioSystem}
    {gs : GpioThread -> ChainGhost} (h : usedRingSetting.contract.inv w gs)
    (hmove : usedRingEnv move w = some w') : usedRingSetting.contract.inv w' gs := by
  rcases h with ⟨fl, flying, hinv, _⟩
  have hnone : forall k, usedRingSetting.bound = some k -> Accounts k w' gs flying := by
    intro k hk
    cases hk
  cases move with
  | index idx =>
      cases hmove
      exact ⟨fl, flying, hinv.onUsed rfl rfl rfl, hnone⟩
  | element slot elem =>
      cases hmove
      exact ⟨fl, flying, hinv.onUsed rfl rfl rfl, hnone⟩
  | respond pos status value =>
      dsimp only [usedRingEnv] at hmove
      split at hmove
      · cases hmove
      · rename_i p hp
        split at hmove
        · rename_i hflying
          cases hmove
          rcases hinv.flying_mem hflying with ⟨x, hx, hchain⟩
          rcases hinv.respond hx status value with ⟨fl', hrespond⟩
          rw [chain_head hchain] at hrespond
          exact ⟨fl', flying, hrespond, hnone⟩
        · cases hmove
  | interrupt status =>
      cases hmove
      exact ⟨fl, flying, hinv.congr hinv.holding rfl rfl rfl, hnone⟩

/-!
## Looking at an element
-/

section Look

variable {e : Env} {w : GpioSystem} {gs : GpioThread -> ChainGhost} {fl : Nat -> Holding}
  {flying : Flying} {r : Option (Except Rc (List UInt16))}

theorem freedOf_lookEvents : freedOf (lookEvents e w r) = [] := by
  unfold lookEvents
  split
  · rfl
  · simp [freedOf]

theorem ChainsInv.lookEvents_allowed (h : ChainsInv w gs fl flying)
    (hmet : Met (lookEvents e w r)) :
    forall ev, ev ∈ lookEvents e w r -> forall before, ev.Allowed before := by
  unfold lookEvents at hmet ⊢
  split at hmet
  · rename_i hnothing
    rw [if_pos hnothing]
    intro ev hev
    cases hev
  · rename_i hlook
    rw [if_neg hlook]
    have hflight := hmet _ List.mem_cons_self
    rcases h.inFlight_mem hflight with ⟨x, hx, hhead⟩
    rcases h.visits hx with ⟨hwalk, hlt⟩
    rw [hhead] at hwalk
    intro ev hev before
    rcases List.mem_cons.mp hev with rfl | hev
    · exact fun _ => hflight
    · rcases List.mem_map.mp hev with ⟨idx, hidx, rfl⟩
      rw [chainVisits_of_walk hwalk] at hidx
      exact hlt idx hidx

theorem ChainsInv.look_chain (h : ChainsInv w gs fl flying) {chain : List UInt16}
    {vq' : Virtq} (hget : w.queue.vq.getDescChain e.lock 2 = some (.ok chain, vq'))
    (hmet : Met (lookEvents e w r)) : exists x, x ∈ flying ∧ x.2.chain = chain := by
  rcases getDescChain_ok hget with ⟨hlock, hne, hwalk, _⟩
  unfold lookEvents at hmet
  rw [if_neg (by simp [hlock, hne])] at hmet
  rcases h.inFlight_mem (hmet _ List.mem_cons_self) with ⟨x, hx, hhead⟩
  have hvisits := (h.visits hx).1
  rw [hhead] at hvisits
  exact ⟨x, hx, Option.some.inj (hvisits.symm.trans hwalk)⟩

end Look

/-- The contract next to what the interrupt thread does. -/
abbrev usedRingContract : Contract GpioThread Env UsedRingMove WatchedRing
    (ChainGhost × List RingEvent) :=
  usedRingSetting.contract.logged .ist Met RingSafe

theorem look_triple {x : ChainGhost × List RingEvent} (hrest : Resting x.1) :
    usedRingContract.Triple .ist x
      (Prog.marked lookEvents (onQueue (virtqGetDescChain 2))) fun r y =>
        Met y.2 -> Got x.1 r y.1 ∧ freedOf y.2 = freedOf x.2 := by
  apply Contract.Triple.act
  rintro e ⟨w, log⟩ gs r w' ⟨_, hgood⟩ ⟨hlog, hinv⟩ rfl hf
  rcases Option.map_eq_some_iff.mp hf with ⟨⟨r1, w1⟩, hfw, hout⟩
  cases hout
  rcases Option.map_eq_some_iff.mp hfw with ⟨⟨r2, q'⟩, hfq, hout⟩
  cases hout
  rcases Option.map_eq_some_iff.mp hfq with ⟨⟨out, vq'⟩, hget, hout⟩
  cases hout
  rcases hinv hgood with ⟨⟨fl, flying, hchains, hacc⟩, hsafe⟩
  dsimp only at hlog hget hsafe ⊢
  by_cases hmet : Met (log ++ lookEvents e w (some out))
  · have hlook := (met_append_iff.mp hmet).2
    have hmeets : forall chain, out = .ok chain -> exists x, x ∈ flying ∧
        x.2.chain = chain ∧ forall k, usedRingSetting.bound = some k ->
          w.device.positions[w.queue.retrieved.length]? = some x.1 := by
      rintro chain rfl
      rcases hchains.look_chain hget hlook with ⟨x, hx, hchain⟩
      refine ⟨x, hx, hchain, ?_⟩
      intro k hk
      cases hk
    rcases ChainSetting.getDescChain_step (Z := usedRingSetting) hchains hacc hrest hget
      hmeets with ⟨g', hinv', hgot⟩
    refine ⟨(g', log ++ lookEvents e w (some out)), ⟨?_, fun _ => ⟨?_, ?_⟩⟩,
      Contract.Triple.ret fun _ => ⟨hgot, ?_⟩⟩
    · rw [Function.update_self]
      rfl
    · rw [Function.comp_update]
      exact hinv'
    · exact hsafe.append (hchains.lookEvents_allowed hlook)
    · rw [freedOf_append, freedOf_lookEvents, List.append_nil, hlog]
  · refine ⟨((gs .ist).1, log ++ lookEvents e w (some out)), ⟨?_, fun h => absurd h hmet⟩,
      Contract.Triple.ret fun h => absurd h hmet⟩
    rw [Function.update_self]
    rfl

/-!
## Between the look and the end of a round
-/

/-- The ghost of the interrupt thread, and the descriptors that it has freed, while all
elements that it looked at were in flight. -/
structure Between (x : ChainGhost × List RingEvent) (g : ChainGhost) (fs : List UInt16) :
    Prop where
  ghost : x.1 = g
  met : Met x.2
  freed : freedOf x.2 = fs

section Between

variable {x : ChainGhost × List RingEvent} {g g' : ChainGhost} {fs : List UInt16}
  {idxs : List UInt16} {idx : UInt16} {i : Nat} {c : DescCell}

theorem Between.silent {α : Type} {p : Prog Env GpioSystem α}
    {Q : α -> ChainGhost -> Prop} (h : Between x g fs)
    (hp : usedRingSetting.contract.Triple .ist g p Q) :
    usedRingContract.Triple .ist x (Prog.silent p) fun a y =>
      exists g', Q a g' ∧ Between y g' fs := by
  rcases x with ⟨_, es⟩
  rcases h with ⟨rfl, hmet, hfreed⟩
  apply (Contract.Triple.silent hp es).conseq
  rintro a ⟨g', _⟩ ⟨hQ, rfl⟩
  exact ⟨g', hQ, rfl, hmet, hfreed⟩

theorem Between.marked {α β : Type} {f : Env -> GpioSystem -> Option (β × GpioSystem)}
    {k : β -> Prog Env GpioSystem α}
    {note : Env -> GpioSystem -> Option α -> List RingEvent}
    {Q : α -> ChainGhost -> Prop} (h : Between x g fs)
    (hp : usedRingSetting.contract.Triple .ist g (Prog.act f k) Q)
    (hnote : forall e w gs b w', usedRingSetting.contract.inv w gs -> gs .ist = g ->
      f e w = some (b, w') ->
      (Met (note e w (k b).value) ∧ freedOf (note e w (k b).value) = []) ∧
        forall ev, ev ∈ note e w (k b).value -> forall before, ev.Allowed before) :
    usedRingContract.Triple .ist x (Prog.marked note (Prog.act f k)) fun a y =>
      exists g', Q a g' ∧ Between y g' fs := by
  rcases x with ⟨_, es⟩
  rcases h with ⟨rfl, hmet, hfreed⟩
  apply (Contract.Triple.marked (P := fun l => Met l ∧ freedOf l = []) hp ?_).conseq
  · rintro a ⟨g', _⟩ ⟨hQ, l, rfl, hl, hnil⟩
    refine ⟨g', hQ, rfl, met_append_iff.mpr ⟨hmet, hl⟩, ?_⟩
    rw [freedOf_append, hnil, List.append_nil]
    exact hfreed
  · intro e w gs b w' hinv hg hf hsafe
    rcases hnote e w gs b w' hinv hg hf with ⟨hquiet, hallowed⟩
    exact ⟨hquiet, hsafe.append hallowed⟩

theorem readEvents_safe {α : Type} (hi : i < idxs.length) (idx : UInt16) (e : Env)
    (w : GpioSystem) (r : Option α) : (Met (readEvents i idxs idx e w r) ∧
      freedOf (readEvents i idxs idx e w r) = []) ∧
        forall ev, ev ∈ readEvents i idxs idx e w r -> forall before,
          ev.Allowed before := by
  unfold readEvents
  split
  · simp [Met, RingEvent.met, freedOf, RingEvent.Allowed, hi]
  · rename_i hlt
    have hlt' : idx.toNat < w.queue.vq.num.toNat := by
      rw [UInt16.le_iff_toNat_le] at hlt
      omega
    simp [Met, RingEvent.met, freedOf, RingEvent.Allowed, hi, hlt']

theorem contextEvents_safe {v : CallbackLocals} {context : Option ContextPtr}
    (hi : 0 < idxs.length) (hcontext : context ≠ none) (e : Env) (w : GpioSystem) :
    (Met (contextEvents idxs v e w (some (.ok context))) ∧
      freedOf (contextEvents idxs v e w (some (.ok context))) = []) ∧
        forall ev, ev ∈ contextEvents idxs v e w (some (.ok context)) ->
          forall before, ev.Allowed before := by
  rcases readEvents_safe hi v.idx0 e w
    (some (.ok context : Except Rc (Option ContextPtr))) with ⟨⟨hmet, hfreed⟩, hallowed⟩
  refine ⟨⟨met_append_iff.mpr ⟨hmet, ?_⟩, ?_⟩, ?_⟩
  · intro ev hev
    cases List.mem_singleton.mp hev
    rfl
  · rw [contextEvents, freedOf_append, hfreed]
    rfl
  · intro ev hev before
    rcases List.mem_append.mp hev with hev | hev
    · exact hallowed ev hev before
    · cases List.mem_singleton.mp hev
      exact hcontext

theorem freeEvents_safe {α : Type} {log : List RingEvent} {w : GpioSystem}
    (h : RingSafe log) (hi : i < idxs.length) (hlt : idx.toNat < w.queue.vq.num.toNat)
    (hcount : (freedOf log).count idx <
      (w.queue.published.flatMap Published.chain).count idx) (e : Env) (r : Option α) :
    RingSafe (log ++ freeEvents i idxs idx e w r) := by
  have hentry : RingSafe (log ++ [.entry i idxs.length]) := h.snoc hi
  have htouched : RingSafe ((log ++ [.entry i idxs.length]) ++
      [.touched idx w.queue.vq.num]) := hentry.snoc hlt
  have hfreed : RingSafe (((log ++ [.entry i idxs.length]) ++
      [.touched idx w.queue.vq.num]) ++
        [.freed idx ((w.queue.published.flatMap Published.chain).count idx)]) := by
    apply htouched.snoc
    change (freedOf ((log ++ [.entry i idxs.length]) ++
      [.touched idx w.queue.vq.num])).count idx < _
    rw [freedOf_append, freedOf_append]
    change ((freedOf log ++ []) ++ []).count idx < _
    rw [List.append_nil, List.append_nil]
    exact hcount
  rw [List.append_assoc, List.append_assoc] at hfreed
  exact hfreed

theorem Between.vaddr (h : Between x g fs) (hi : i < idxs.length)
    (hcell : g.holding.desc idx = some c) :
    usedRingContract.Triple .ist x (Prog.marked (readEvents i idxs idx)
      (onQueue (virtqGetDescVaddr idx))) fun a y =>
        a = .ok c.extras.vaddr ∧ Between y g fs := by
  have hread := usedRingSetting.queue_triple (t := .ist) (virtqGetDescVaddr_keepsFree idx)
    (virtqGetDescVaddr_holding hcell)
  apply (h.marked hread fun e w _ _ _ _ _ _ => readEvents_safe hi idx e w _).conseq
  rintro a y ⟨_, ⟨H, ⟨rfl, rfl⟩, rfl⟩, hy⟩
  exact ⟨rfl, hy⟩

theorem Between.context (h : Between x g fs) {v : CallbackLocals} (hi : 0 < idxs.length)
    (hcell : g.holding.desc v.idx0 = some c) (hcontext : c.extras.context ≠ none) :
    usedRingContract.Triple .ist x (Prog.marked (contextEvents idxs v)
      (onQueue (virtqGetDescContext v.idx0))) fun a y =>
        a = .ok c.extras.context ∧ Between y g fs := by
  have hread := usedRingSetting.queue_triple (t := .ist)
    (virtqGetDescContext_keepsFree v.idx0) (virtqGetDescContext_holding hcell)
  apply (h.marked hread ?_).conseq
  · rintro a y ⟨_, ⟨H, ⟨rfl, rfl⟩, rfl⟩, hy⟩
    exact ⟨rfl, hy⟩
  · rintro e w gs b w' ⟨fl, flying, hinv, _⟩ rfl hf
    have hheld : (holders gs fl (.thread .ist)).desc v.idx0 = some c := hcell
    have hb : b = .ok c.extras.context := by
      cases hf
      change (if w.queue.vq.num <= v.idx0 then _ else _) = _
      rw [if_neg (hinv.holding.lt_num hheld), ← hinv.holding.descs.known _ _ _ hheld]
      rfl
    subst hb
    exact contextEvents_safe hi hcontext e w

theorem Between.free (h : Between x g fs) (hi : i < idxs.length)
    (hcell : g.holding.desc idx = some c)
    (hcount : fs.count idx < g.retrieved.flatten.count idx)
    (hfree : usedRingSetting.contract.Triple .ist g (onQueue (virtqFreeDesc idx))
      fun _ g1 => g1 = g') :
    usedRingContract.Triple .ist x (Prog.marked (freeEvents i idxs idx)
      (onQueue (virtqFreeDesc idx))) fun _ y => Between y g' (fs ++ [idx]) := by
  rcases x with ⟨_, es⟩
  rcases h with ⟨rfl, hmet, rfl⟩
  apply (Contract.Triple.marked (P := fun l => Met l ∧ freedOf l = [idx]) hfree ?_).conseq
  · rintro a ⟨g1, _⟩ ⟨rfl, l, rfl, hl, hfreed⟩
    refine ⟨rfl, met_append_iff.mpr ⟨hmet, hl⟩, ?_⟩
    rw [freedOf_append, hfreed]
  · rintro e w gs b w' ⟨fl, flying, hinv, _⟩ hg _ hsafe
    have hheld : (holders gs fl (.thread .ist)).desc idx = some c := by
      rw [holders_thread, hg]
      exact hcell
    have hle := hinv.count_retrieved_le idx
    rw [hg] at hle
    refine ⟨⟨?_, rfl⟩, ?_⟩
    · simp [Met, freeEvents, RingEvent.met]
    · exact freeEvents_safe hsafe hi (hinv.holding.descs.live _ _ _ hheld)
        (Nat.lt_of_lt_of_le hcount hle) e _

end Between

/-!
## The loops
-/

/-- Between two rounds, everything that was retrieved is freed, as long as all elements
were in flight. -/
def RestLog (x : ChainGhost × List RingEvent) : Prop :=
  Met x.2 -> Resting x.1 ∧ (freedOf x.2).Perm x.1.retrieved.flatten

theorem freed_chain {fs : List UInt16} {chains : List (List UInt16)} {head resp : UInt16}
    (h : fs.Perm chains.flatten) (hne : head ≠ resp) :
    fs.count head < (chains ++ [[head, resp]]).flatten.count head ∧
      (fs ++ [head]).count resp < (chains ++ [[head, resp]]).flatten.count resp ∧
        ((fs ++ [head]) ++ [resp]).Perm (chains ++ [[head, resp]]).flatten := by
  have hflatten : (chains ++ [[head, resp]]).flatten = chains.flatten ++ [head, resp] := by
    simp
  rw [hflatten]
  refine ⟨?_, ?_, ?_⟩
  · rw [List.count_append, h.count_eq]
    simp
  · rw [List.count_append, List.count_append, h.count_eq]
    simp [hne]
  · rw [List.append_assoc]
    exact h.append_right _

theorem watchedCallbackRound_triple {x : ChainGhost × List RingEvent}
    {v : CallbackLocals} (hx : RestLog x) :
    usedRingContract.Triple .ist x (watchedCallbackRound v) fun _ y => RestLog y := by
  by_cases hmet : Met x.2
  · rcases hx hmet with ⟨hrest, hperm⟩
    unfold watchedCallbackRound
    apply (look_triple hrest).bind
    intro r y hy
    by_cases hmety : Met y.2
    · rcases hy hmety with
        ⟨⟨⟨rc, rfl⟩, hghost⟩ | ⟨p, ptr, b0, b1, rfl, h, hret⟩, hfreed⟩
      · apply Contract.Triple.ret
        intro _
        rw [hghost, hfreed]
        exact ⟨hrest, hperm⟩
      · rcases h.pair.shape with ⟨resp, m0, m1, hp, hne, hmne, hlen0, hlen1, hhold⟩
        have hdescs := h.descs
        rw [Published.chain, hp] at hdescs hret ⊢
        have h0 : y.1.holding.desc p.head = some (requestCell m0 resp p.context) := by
          rw [hhold]
          exact pairHolding_head hne
        have h1 : y.1.holding.desc resp = some (responseCell m1) := by
          rw [hhold]
          exact pairHolding_resp
        have hi0 : 0 < [p.head, resp].length := Nat.zero_lt_two
        have hi1 : 1 < [p.head, resp].length := Nat.one_lt_two
        rcases freed_chain hperm hne with ⟨hcount0, hcount1, hchains⟩
        rw [← hret] at hcount0 hcount1 hchains
        have hbetween : Between y y.1 (freedOf x.2) := ⟨rfl, hmety, hfreed⟩
        refine Contract.Triple.bind (hbetween.vaddr hi0 h0) ?_
        rintro _ y2 ⟨rfl, hy2⟩
        refine Contract.Triple.bind (hy2.vaddr hi1 h1) ?_
        rintro _ y3 ⟨rfl, hy3⟩
        refine Contract.Triple.bind (hy3.context hi0 h0 (by
          change p.context ≠ none
          rw [h.context]
          exact Option.some_ne_none ptr)) ?_
        rintro _ y4 ⟨rfl, hy4⟩
        dsimp only [CallbackLocals.withIdxs, Except.toOption, Option.getD]
        rw [h.context]
        refine Contract.Triple.bind
          (hy4.silent (offQueue_triple (contextCallback_offQueue ptr))) ?_
        rintro callback y5 ⟨_, rfl, hy5⟩
        cases callback
        refine Contract.Triple.bind (hy5.silent (usedRingSetting.gpioCallback_triple h
          (by rw [hhold]; exact pairHolding_request hmne) hlen0
          (by rw [hhold]; exact pairHolding_response) hlen1)) ?_
        rintro _ y6 ⟨_, rfl, hy6⟩
        have hdelivered : Delivered { y.1 with serving := none } p.head resp m0 m1
            p.context b0 b1 := ⟨hne, hmne, hlen0, hlen1, hhold, hdescs, rfl⟩
        refine Contract.Triple.bind
          (hy6.free hi0 hdelivered.headCell hcount0 hdelivered.freeHead) ?_
        rintro _ y7 hy7
        refine Contract.Triple.bind
          (hy7.free hi1 hdelivered.respCell hcount1 hdelivered.freeResp) ?_
        rintro _ y8 hy8
        apply Contract.Triple.ret
        intro _
        rw [hy8.ghost, hy8.freed]
        exact ⟨hdelivered.rest, hchains⟩
    · exact Contract.Triple.stopped hmety fun _ h => absurd h hmety
  · exact Contract.Triple.stopped hmet fun _ h => absurd h hmet

theorem RestLog.silent {α : Type} {x : ChainGhost × List RingEvent} (hx : RestLog x)
    {p : Prog Env GpioSystem α} (hp : p.Within OffQueue) :
    usedRingContract.Triple .ist x (Prog.silent p) fun _ y => RestLog y := by
  rcases x with ⟨g, es⟩
  have hoff : usedRingSetting.contract.Triple .ist g p fun _ g' => g' = g :=
    offQueue_triple hp
  apply (Contract.Triple.silent hoff es).conseq
  rintro a ⟨g', es'⟩ ⟨rfl, rfl⟩
  exact hx

theorem watchedCallback_triple {x : ChainGhost × List RingEvent} (hx : RestLog x) :
    usedRingContract.Triple .ist x watchedCallback fun _ y => RestLog y := by
  unfold watchedCallback
  apply (hx.silent (ask_offQueue _)).bind
  intro v y hy
  apply Contract.Triple.loop (J := fun _ y => RestLog y) (R := fun _ y => RestLog y)
  · intro v1 y1 hy1
    apply (watchedCallbackRound_triple hy1).conseq
    intro r y2 hy2
    cases r with
    | inl v2 => exact hy2
    | inr rc => exact hy2
  · exact fun _ _ hy1 => Contract.Triple.ret hy1
  · exact hy

theorem watchedDrain_triple {x : ChainGhost × List RingEvent} (hx : RestLog x) :
    usedRingContract.Triple .ist x watchedDrain fun _ y => RestLog y := by
  unfold watchedDrain
  apply Contract.Triple.loop (J := fun _ y => RestLog y) (R := fun _ y => RestLog y)
  · intro _ y hy
    apply (watchedCallback_triple hy).bind
    intro rc y1 hy1
    split
    · exact Contract.Triple.ret hy1
    · exact Contract.Triple.ret hy1
  · exact fun _ _ hy => Contract.Triple.ret hy
  · exact hx

theorem watchedRingCallback_triple {transport : Transport}
    {x : ChainGhost × List RingEvent} (hx : RestLog x) :
    usedRingContract.Triple .ist x (watchedRingCallback transport) fun _ y =>
      RestLog y := by
  cases transport with
  | mmio =>
      have hread : (Prog.read GpioSystem.intStatus).Within (E := Env) OffQueue :=
        Prog.within_look OffQueue.refl _
      apply (hx.silent hread).bind
      intro status y hy
      split
      · have hack : (Prog.modify fun w : GpioSystem => { w with
            intStatus := w.intStatus &&& ~~~ VIRTIO_MMIO_INT_VIRTQ }).Within (E := Env)
              OffQueue := Prog.within_modify fun _ => ⟨rfl, rfl, rfl, rfl⟩
        apply (hy.silent hack).bind
        intro _ y1 hy1
        exact watchedDrain_triple hy1
      · exact watchedDrain_triple hy
  | pci => exact watchedDrain_triple hx

theorem watchedRingIst_triple {transport : Transport} :
    usedRingContract.Triple .ist (ChainGhost.initial, []) (watchedRingIst transport)
      fun _ _ => True := by
  have hinitial : RestLog (ChainGhost.initial, []) :=
    fun _ => ⟨⟨rfl, rfl, rfl⟩, List.Perm.refl _⟩
  unfold watchedRingIst
  apply (hinitial.silent (ask_offQueue _)).bind
  intro attached y hy
  split
  · apply Contract.Triple.loop (J := fun _ y => RestLog y) (R := fun _ _ => True)
    · intro _ y1 hy1
      have hunmask : interruptUnmask.Within OffQueue :=
        Prog.within_modify fun _ => ⟨rfl, rfl, rfl, rfl⟩
      apply (hy1.silent hunmask).bind
      intro _ y2 hy2
      apply (hy2.silent (interruptWait_offQueue transport)).bind
      intro _ y3 hy3
      apply (watchedRingCallback_triple hy3).bind
      intro _ y4 hy4
      exact Contract.Triple.ret hy4
    · exact fun _ _ _ => Contract.Triple.ret trivial
    · exact hy
  · exact Contract.Triple.ret trivial

/-!
## Every run
-/

theorem watchedCallbackRound_grows (v : CallbackLocals) :
    (watchedCallbackRound v).Within Watched.Grows := by
  refine (Prog.within_marked _ _).bind fun r => ?_
  cases r with
  | error rc => exact Prog.within_ret _
  | ok idxs =>
      refine (Prog.within_marked _ _).bind fun request => ?_
      refine (Prog.within_marked _ _).bind fun response => ?_
      refine (Prog.within_marked _ _).bind fun context => ?_
      dsimp only
      cases context.toOption.getD (v.withIdxs idxs).context with
      | none => exact Prog.within_silent _
      | some ptr =>
          refine (Prog.within_silent _).bind fun callback => ?_
          refine (Prog.within_silent _).bind fun _ => ?_
          refine (Prog.within_marked _ _).bind fun _ => ?_
          refine (Prog.within_marked _ _).bind fun _ => ?_
          exact Prog.within_ret _

theorem watchedDrain_grows : watchedDrain.Within Watched.Grows := by
  refine Prog.within_iterate (fun _ => ?_) ()
  have hcallback : watchedCallback.Within Watched.Grows :=
    (Prog.within_silent _).bind fun v =>
      Prog.within_iterate watchedCallbackRound_grows v
  refine hcallback.bind fun rc => ?_
  split
  · exact Prog.within_ret _
  · exact Prog.within_ret _

theorem watchedRingIst_grows (transport : Transport) :
    (watchedRingIst transport).Within Watched.Grows := by
  have hcallback : (watchedRingCallback transport).Within Watched.Grows := by
    cases transport with
    | mmio =>
        refine (Prog.within_silent _).bind fun status => ?_
        split
        · exact (Prog.within_silent _).bind fun _ => watchedDrain_grows
        · exact watchedDrain_grows
    | pci => exact watchedDrain_grows
  refine (Prog.within_silent _).bind fun attached => ?_
  split
  · refine Prog.within_iterate (fun _ => ?_) ()
    refine (Prog.within_silent _).bind fun _ => ?_
    refine (Prog.within_silent _).bind fun _ => ?_
    exact hcallback.bind fun _ => Prog.within_ret _
  · exact Prog.within_ret _

/-- In every run, as long as each element that the interrupt thread looks at names the head
of a chain in flight, it does nothing that is not safe.  A rejected element changes
nothing. -/
theorem used_ring_safe {transport : Transport} {config : VirtioGpioConfig}
    {scripts : Nat -> Nat -> GpioCall} {size : Nat} {legacy : Bool} {h h' : Host}
    {rc : Rc} {obj : VirtqObject} {w : WatchedRing}
    (hcreate : Prog.Runs (fun _ => True) h (virtqCreate size legacy) (rc, some obj) h')
    (hreach : UsedRingReachable transport config obj h'.mem scripts w)
    (hmet : Met w.events) :
    RingSafe w.events ∧ forall lock count rc vq',
      w.state.queue.vq.getDescChain lock count = some (.error rc, vq') ->
        vq' = w.state.queue.vq := by
  refine ⟨?_, fun _ _ _ _ hget => getDescChain_error hget⟩
  rcases hreach with ⟨c, hc, rfl⟩
  have hinit : usedRingSetting.contract.inv (obj.gpioSystem h'.mem)
      fun _ => ChainGhost.initial := by
    refine ⟨_, _, chainsInv_fresh (virtqCreate_fresh hcreate).2 h'.mem, ?_⟩
    rintro k hk
    cases hk
  have hgrows : forall t, (watchedRingThread transport config scripts t).Within
      Watched.Grows := by
    intro t
    cases t with
    | client t => exact Prog.within_silent _
    | ist => exact watchedRingIst_grows transport
  have hthread : forall t, usedRingContract.Triple t (ChainGhost.initial, [])
      (watchedRingThread transport config scripts t) fun _ _ => True := by
    intro t
    cases t with
    | client t =>
        exact (Contract.Triple.silent usedRingSetting.client_triple []).conseq
          fun _ _ _ => trivial
    | ist => exact watchedRingIst_triple
  exact Contract.sound_of_reachable (fun l l' hpre hl => hl.of_prefix hpre) hinit rfl
    ringSafe_nil hgrows hthread (fun move w gs w' _ hinv hmove => usedRing_env hinv hmove)
    hc hmet

/-!
## Runs of one element
-/

/-- `n` steps of a thread in which every call succeeds, with a mapping at page `page`. -/
def ringSteps (t : GpioThread) (n page : Nat) : List (Move GpioThread Env UsedRingMove) :=
  List.replicate n (.thread t { mmap := .ok (4096 * page, 4096 * page) })

/-- The device returns the id `id`, and the interrupt thread makes `n` steps. -/
def elementMoves (id : UInt32) (n : Nat) : List (Move GpioThread Env UsedRingMove) :=
  [.env (.element 0 { id := id, len := 2 }), .env (.index 1),
    .env (.interrupt VIRTIO_MMIO_INT_VIRTQ)] ++ ringSteps .ist n 300

theorem usedRingReachable_run (moves : List (Move GpioThread Env UsedRingMove))
    {log : List RingEvent}
    (hrun : ((usedRingPool .mmio configEight queueFour createdFour.2.mem setLineScripts).run
      (Pool.watchEnv (fun _ _ => []) usedRingEnv) moves).any
        (fun c => c.state.events == log) = true) :
    exists w, UsedRingReachable .mmio configEight queueFour createdFour.2.mem
      setLineScripts w ∧ w.events = log := by
  rcases (Option.any_eq_true ..).mp hrun with ⟨c, hc, hlog⟩
  have hreach : Pool.Reachable (Pool.watchEnv (fun _ _ => []) usedRingEnv)
      (fun _ _ => True) (usedRingPool .mmio configEight queueFour createdFour.2.mem
        setLineScripts) c :=
    Pool.reachable_run Pool.Reachable.refl (fun _ _ _ => trivial) hc
  exact ⟨c.state, ⟨c, hreach, rfl⟩, beq_iff_eq.mp hlog⟩

/-- Client 0 publishes a chain, its head comes back, and its descriptors are freed. -/
theorem used_ring_safe_four : exists w : WatchedRing,
    freedOf w.events = [0, 1] ∧ RingSafe w.events := by
  have hexists : exists w, UsedRingReachable .mmio configEight queueFour
      createdFour.2.mem setLineScripts w ∧ w.events =
        [.looked 0 true true, .touched 0 4, .touched 1 4, .entry 0 2, .touched 0 4,
          .entry 1 2, .touched 1 4, .entry 0 2, .touched 0 4, .completed (some ⟨0, 0⟩),
          .entry 0 2, .touched 0 4, .freed 0 1, .entry 1 2, .touched 1 4, .freed 1 1] :=
    usedRingReachable_run (ringSteps (.client 0) 15 100 ++
      ringSteps (.client 0) 19 200 ++ elementMoves 0 40) (by decide +kernel)
  rcases hexists with ⟨w, hreach, hlog⟩
  have hmet : Met w.events := by
    rw [hlog]
    unfold Met
    decide
  refine ⟨w, ?_, (used_ring_safe queueFour_created hreach hmet).1⟩
  rw [hlog]
  rfl

/-- With four descriptors, the id 5 leads to an access to `desc[5]`. -/
theorem used_ring_outside : ¬ forall w : WatchedRing,
    UsedRingReachable .mmio configEight queueFour createdFour.2.mem setLineScripts w ->
      RingSafe w.events := by
  intro hall
  have hexists : exists w, UsedRingReachable .mmio configEight queueFour
      createdFour.2.mem setLineScripts w ∧
        w.events = [.looked 5 false true, .touched 5 4] :=
    usedRingReachable_run (elementMoves 5 10) (by decide +kernel)
  rcases hexists with ⟨w, hreach, hlog⟩
  have htouched : (5 : UInt16).toNat < (4 : UInt16).toNat :=
    hall w hreach [.looked 5 false true] (.touched 5 4) [] hlog
  exact absurd htouched (by decide)

end QnxVirtio
