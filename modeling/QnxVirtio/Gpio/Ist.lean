import QnxVirtio.Gpio.Retrieve

/-!
# The interrupt service thread

Every program of the interrupt service thread keeps the invariant: it copies the
answer that it retrieved into the context of the waiting client, posts it, and
frees the chain, until a check finds no used element.
-/

namespace QnxVirtio

open Foundation

variable {mode : GpioMode} {transport : Transport}
  {scripts : Nat -> Nat -> GpioCall} {w w' : GpioSystem}
  {gs : GpioThread -> GpioGhost} {fl : Nat -> Holding}

theorem GpioInv.onIst (h : GpioInv mode scripts w gs fl) {phase : IstPhase}
    (hqueue : w'.queue = w.queue) (hdevice : w'.device = w.device)
    (hanswers : w'.answers = w.answers) (hphase : PhaseInv mode w' phase)
    (hctx : mode.calm = true ->
      ContextInv mode scripts w (stages gs) (gs .ist).phase ->
      ContextInv mode scripts w' (stages gs) phase) :
    GpioInv mode scripts w'
      (Function.update gs .ist { gs .ist with phase := phase }) fl where
  holding := by
    rw [holdings_update_thread, hqueue]
    have heq : Function.update (holdings gs fl) (.thread .ist) (gs .ist).holding =
        holdings gs fl :=
      Function.update_eq_self (GpioOwner.thread .ist) (holdings gs fl)
    rw [heq]
    exact h.holding
  flow := by
    refine h.flow.congr ?_ hdevice hanswers
    rw [hqueue]
    exact SameRings.refl _
  phase := by
    rw [Function.update_self]
    exact hphase
  context := by
    intro hcalm
    rw [Function.update_self, stages_update_ist]
    exact hctx hcalm (h.context hcalm)

theorem IstPhase.fresh {phase : IstPhase} (h : phase = .away ∨ phase = .draining) :
    forall pos p a k, phase = .serving pos p a k -> k = 0 := by
  intro pos p a k heq
  rcases h with rfl | rfl
  · cases heq
  · cases heq

/-!
## Waiting for the interrupt
-/

theorem interruptUnmask_triple {g : GpioGhost} (hphase : g.phase = .away) :
    (gpioContract mode scripts).Triple .ist g interruptUnmask
      fun _ g' => g'.phase = .away := by
  apply Contract.Triple.action
  rintro e w gs b w' hok ⟨fl, hinv⟩ rfl hf
  cases hf
  have hold := hinv.phase
  rw [hphase] at hold
  refine ⟨{ gs .ist with phase := .away }, ⟨fl, hinv.onIst rfl rfl rfl ?_ ?_⟩, rfl⟩
  · exact ⟨hold.history, hold.delivered, fun _ => rfl, hold.signalled⟩
  · intro _ hctx
    exact (hctx.enterPhase (IstPhase.fresh (Or.inl rfl))).congr rfl rfl rfl rfl rfl
      fun _ ha => ha

theorem interruptWait_triple {g : GpioGhost} (hphase : g.phase = .away) :
    (gpioContract mode scripts).Triple .ist g (interruptWait transport)
      fun _ g' => g'.phase = .draining := by
  apply Contract.Triple.action
  rintro e w gs b w' hok ⟨fl, hinv⟩ rfl hf
  have hw' : w' = { w with waiting := false } := by
    cases transport with
    | mmio =>
        dsimp only at hf
        split at hf
        · cases hf
        · cases hf
          rfl
    | pci =>
        cases hf
        rfl
  subst hw'
  have hold := hinv.phase
  rw [hphase] at hold
  refine ⟨{ gs .ist with phase := .draining },
    ⟨fl, hinv.onIst rfl rfl rfl ?_ ?_⟩, rfl⟩
  · refine ⟨hold.history, hold.delivered, ?_, ?_⟩
    · intro htrue
      cases htrue
    · intro _ haway
      cases haway
  · intro _ hctx
    exact (hctx.enterPhase (IstPhase.fresh (Or.inr rfl))).congr rfl rfl rfl rfl rfl
      fun _ ha => ha

/-- The acknowledgement comes before the drain loop looks at the used ring. -/
theorem acknowledge_triple {g : GpioGhost} (hphase : g.phase = .draining) :
    (gpioContract mode scripts).Triple .ist g
      (Prog.modify fun w =>
        { w with intStatus := w.intStatus &&& ~~~ VIRTIO_MMIO_INT_VIRTQ })
      fun _ g' => g'.phase = .draining := by
  apply Contract.Triple.action
  rintro e w gs b w' hok ⟨fl, hinv⟩ rfl hf
  cases hf
  have hold := hinv.phase
  rw [hphase] at hold
  refine ⟨{ gs .ist with phase := .draining },
    ⟨fl, hinv.onIst rfl rfl rfl ?_ ?_⟩, rfl⟩
  · refine ⟨hold.history, hold.delivered, ?_, ?_⟩
    · intro hwaiting
      have haway := hold.waiting hwaiting
      cases haway
    · intro _ haway
      cases haway
  · intro _ hctx
    exact (hctx.enterPhase (IstPhase.fresh (Or.inr rfl))).congr rfl rfl rfl rfl rfl
      fun _ ha => ha

theorem readStatus_triple {g : GpioGhost} :
    (gpioContract mode scripts).Triple .ist g
      (Prog.read GpioSystem.intStatus) fun _ g' => g' = g := by
  apply Contract.Triple.action
  rintro e w gs b w' hok ⟨fl, hinv⟩ rfl hf
  cases hf
  refine ⟨gs .ist, ⟨fl, ?_⟩, rfl⟩
  rwa [Function.update_eq_self]

/-!
## The check for a used element
-/

theorem GpioInv.emptyCheck (h : GpioInv mode scripts w gs fl) {rc : Rc}
    {vq' : Virtq}
    (hget : w.queue.vq.getDescChain .EOK 2 = some (.error rc, vq')) :
    w.queue.retrieved.length = w.device.produced.length := by
  by_contra hne
  have hlt := Nat.lt_of_le_of_ne h.flow.ring.retrieved_le hne
  have he : w.device.produced[w.queue.retrieved.length]? =
      some w.device.produced[w.queue.retrieved.length] := List.getElem?_eq_getElem hlt
  rcases h.nextChain he with ⟨p, a, ptr, hnext, hhead⟩
  have hwalk := hnext.pair.walk (o := GpioOwner.chain _) h.holding rfl
  rw [hhead] at hwalk
  have hunseen : ¬ w.queue.vq.usedIdx = w.queue.vq.lastSeenUsed :=
    fun heq => hne (h.flow.ring.lastSeen_eq_iff.mp heq)
  have hmin : min 2 65536 = 2 := rfl
  simp only [Virtq.getDescChain, ne_eq, not_true_eq_false, if_false, if_neg hunseen,
    h.flow.ring.next_elem _ he, hmin, hwalk] at hget
  cases hget

theorem getDescChain_error_ne {vq vq' : Virtq} {lock : Rc} {count : Nat} {rc : Rc}
    (h : vq.getDescChain lock count = some (.error rc, vq')) : rc ≠ .EOK := by
  unfold Virtq.getDescChain at h
  split at h
  · rename_i hlock
    cases h
    exact hlock
  · split at h
    · cases h
      simp
    · dsimp only at h
      split at h
      · cases h
      · split at h
        · cases h
          simp
        · cases h

/-- The interrupt thread serves the chain `p` for the request of `ptr`. -/
structure Serving (scripts : Nat -> Nat -> GpioCall) (g : GpioGhost) (pos : Nat)
    (p : Published) (a : GpioAnswer) (ptr : ContextPtr) (copied : Nat) : Prop where
  context : p.context = some ptr
  pair : PairHolding p (requestOf scripts ptr).encode [a.status, a.value] g.holding
  phase : g.phase = .serving pos p a copied

theorem virtqGetDescChain_triple {g : GpioGhost} (hphase : g.phase = .draining) :
    (gpioContract mode scripts).Triple .ist g
      (onQueue (virtqGetDescChain 2)) fun r g' =>
        (exists rc, r = .error rc ∧ rc ≠ .EOK ∧ g'.phase = .away) ∨
          exists pos p a ptr, r = .ok p.chain ∧ Serving scripts g' pos p a ptr 0 := by
  apply Contract.Triple.act
  rintro e w gs r w' hok ⟨fl, hinv⟩ rfl hf
  rcases Option.map_eq_some_iff.mp hf with ⟨⟨r1, q'⟩, hfq, hout⟩
  cases hout
  rcases Option.map_eq_some_iff.mp hfq with ⟨⟨out, vq'⟩, hget, hout⟩
  cases hout
  cases out with
  | error rc =>
      have hvq := getDescChain_error hget
      subst hvq
      have hold := hinv.phase
      rw [hphase] at hold
      refine ⟨{ gs .ist with phase := .away }, ⟨fl, hinv.onIst rfl rfl rfl ?_ ?_⟩,
        Contract.Triple.ret (Or.inl ⟨rc, rfl, getDescChain_error_ne hget, rfl⟩)⟩
      · refine ⟨hold.history, hold.delivered, fun _ => rfl, ?_⟩
        -- nothing is unseen at this moment
        intro hstrict _ hlt
        rw [show e.lock = .EOK from hok hstrict] at hget
        exact absurd (hinv.emptyCheck hget) (Nat.ne_of_lt hlt)
      · intro _ hctx
        exact hctx.enterPhase (IstPhase.fresh (Or.inl rfl))
  | ok chain =>
      rcases hinv.retrieve hphase hget with
        ⟨pos, p, a, ptr, rfl, hcontext, hpair, hinv'⟩
      exact ⟨_, ⟨_, hinv'⟩, Contract.Triple.ret
        (Or.inr ⟨pos, p, a, ptr, rfl, hcontext, hpair, rfl⟩)⟩

end QnxVirtio
