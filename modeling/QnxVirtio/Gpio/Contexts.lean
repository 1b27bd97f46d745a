import QnxVirtio.Gpio.Frame

/-!
# Steps on contexts

The context part of the invariant under each kind of step: a client works on its
own context, publishes a chain, or returns; the interrupt thread copies an answer
into the context of a waiting client and posts it.
-/

namespace QnxVirtio

open Foundation

variable {mode : GpioMode} {scripts : Nat -> Nat -> GpioCall} {w w' : GpioSystem}
  {fl : Nat -> Holding}
  {stage : Nat -> ClientStage} {phase : IstPhase}

theorem PhaseInv.published_of_delivered (h : PhaseInv mode w phase)
    {ptr : ContextPtr} (hptr : ptr ∈ w.delivered) :
    exists (n pos : Nat) (p : Published), n < w.delivered.length ∧
      w.device.positions[n]? = some pos ∧ w.queue.published[pos]? = some p ∧
      p.context = some ptr := by
  rcases List.getElem?_of_mem hptr with ⟨n, hn⟩
  rcases h.delivered n ptr hn with ⟨pos, p, hpos, hp, hcontext⟩
  exact ⟨n, pos, p, (List.getElem?_eq_some_iff.mp hn).1, hpos, hp, hcontext⟩

theorem ContextInv.served (h : ContextInv mode scripts w stage phase)
    (hphase : PhaseInv mode w phase) (hring : RingFlow w.queue w.device)
    {pos k : Nat} {p : Published} {a : GpioAnswer} {ptr : ContextPtr}
    (hserving : phase = .serving pos p a k) (hcontext : p.context = some ptr) :
    ptr ∉ w.delivered ∧ stage ptr.thread = .sent ptr.call pos := by
  subst hserving
  rcases hphase.history with ⟨_, hpos, hp, _, _⟩
  have hnot : ptr ∉ w.delivered := by
    intro hmem
    rcases hphase.published_of_delivered hmem with
      ⟨n, pos', p', hn, hpos', hp', hcontext'⟩
    have heq := h.distinct pos' pos p' p hp' hp (hcontext'.trans hcontext.symm)
    subst heq
    rcases List.getElem?_eq_some_iff.mp hpos' with ⟨hlt, hget⟩
    rcases List.getElem?_eq_some_iff.mp hpos with ⟨hlt', hget'⟩
    have hsame := (hring.posNodup.getElem_inj_iff).mp (hget.trans hget'.symm)
    exact Nat.lt_irrefl _ (hsame ▸ hn)
  exact ⟨hnot, h.live pos p ptr hp hcontext hnot⟩

/-!
## Clients
-/

theorem ContextInv.own (h : ContextInv mode scripts w stage phase)
    (hphase : PhaseInv mode w phase) (hring : RingFlow w.queue w.device)
    {t n : Nat} {c : Option VirtioGpioContext} {s : ClientStage}
    (hqueue : w'.queue = w.queue) (hstale : w'.stale = w.stale)
    (hcontexts : w'.contexts = Function.update w.contexts ⟨t, n⟩ c)
    (hdelivered : w'.delivered = w.delivered) (hanswers : w'.answers = w.answers)
    (hrest : forall m pos, stage t = .sent m pos -> ⟨t, m⟩ ∈ w.delivered)
    (hstage : StageInv w' t s) (hcall : (stage t).call <= s.call)
    (hreturns : forall r, r ∈ w'.returns ->
      r ∈ w.returns ∨ ReturnInv mode scripts w' (Function.update stage t s) r) :
    ContextInv mode scripts w' (Function.update stage t s) phase where
  stale := hstale.trans h.stale
  stages := by
    intro t'
    by_cases ht : t' = t
    · subst ht
      rw [Function.update_self]
      exact hstage
    · rw [Function.update_of_ne ht]
      refine (h.stages t').mono ?_ ?_ ?_ ?_ ?_
      · rw [hqueue]
        exact fun _ _ hp => hp
      · intro m hbefore
        unfold PublishedBefore
        rw [hqueue]
        exact hbefore
      · intro m
        rw [hcontexts, Function.update_of_ne (by simp [ht])]
      · intro m
        rw [hdelivered]
      · rw [hanswers]
        exact fun _ ha => ha
  distinct := by
    rw [hqueue]
    exact h.distinct
  live := by
    intro pos p ptr hp hcontext hnot
    rw [hqueue] at hp
    rw [hdelivered] at hnot
    have hsent := h.live pos p ptr hp hcontext hnot
    by_cases ht : ptr.thread = t
    · subst ht
      exact absurd (hrest _ _ hsent) hnot
    · rw [Function.update_of_ne ht]
      exact hsent
  copied := by
    intro pos p a k ptr c' hserving hcontext hc'
    rcases h.served hphase hring hserving hcontext with ⟨hnot, hsent⟩
    have hne : ptr ≠ ⟨t, n⟩ := by
      rintro rfl
      exact hnot (hrest _ _ hsent)
    rw [hcontexts, Function.update_of_ne hne] at hc'
    exact h.copied pos p a k ptr c' hserving hcontext hc'
  deliveredNodup := by
    rw [hdelivered]
    exact h.deliveredNodup
  returns := by
    intro r hr
    rcases hreturns r hr with hold | hnew
    · refine (h.returns r hold).mono ?_ ?_ ?_ ?_ ?_
      · by_cases ht : r.context.thread = t
        · rw [ht, Function.update_self]
          exact hcall
        · exact Nat.le_of_eq (by rw [Function.update_of_ne ht])
      · rw [hqueue]
        exact fun _ hp _ => hp
      · rw [hqueue]
        exact fun _ _ hp => hp
      · rw [hdelivered]
        exact fun _ hp => hp
      · rw [hanswers]
        exact fun _ ha => ha
    · exact hnew

theorem PublishedBefore.publish {t t' n n' : Nat} {p : Published}
    (h : PublishedBefore w t' n') (hcontext : p.context = some ⟨t, n⟩)
    (hpub : w'.queue.published = w.queue.published ++ [p]) (hlt : t' = t -> n < n') :
    PublishedBefore w' t' n' := by
  intro p' hp' m hm
  rw [hpub] at hp'
  rcases List.mem_append.mp hp' with hold | hlast
  · exact h p' hold m hm
  · cases List.mem_singleton.mp hlast
    rw [hcontext] at hm
    cases hm
    exact hlt rfl

theorem ContextInv.publish (h : ContextInv mode scripts w stage phase)
    {t n : Nat} {c : VirtioGpioContext} {p : Published}
    (hstage : stage t = .calling n c) (hsem : c.sem = some 0)
    (hcontext : p.context = some ⟨t, n⟩) (hnew : ⟨t, n⟩ ∉ w.delivered)
    (hpub : w'.queue.published = w.queue.published ++ [p])
    (hstale : w'.stale = w.stale) (hcontexts : w'.contexts = w.contexts)
    (hdelivered : w'.delivered = w.delivered) (hanswers : w'.answers = w.answers)
    (hreturns : w'.returns = w.returns) :
    ContextInv mode scripts w'
      (Function.update stage t (.sent n w.queue.published.length)) phase := by
  have hkept : forall (pos : Nat) (p' : Published),
      w.queue.published[pos]? = some p' -> w'.queue.published[pos]? = some p' := by
    intro pos p' hp'
    rw [hpub]
    exact getElem?_append_of_some hp' _
  have hcases : forall (pos : Nat) (p' : Published),
      w'.queue.published[pos]? = some p' ->
        w.queue.published[pos]? = some p' ∨
          (pos = w.queue.published.length ∧ p' = p) := by
    intro pos p' hp'
    rw [hpub] at hp'
    exact getElem?_concat_eq_some_iff.mp hp'
  rcases (show StageInv w t (.calling n c) from hstage ▸ h.stages t) with
    ⟨hbefore, hc⟩
  have hfresh : forall (pos : Nat) (p' : Published),
      w.queue.published[pos]? = some p' -> p'.context ≠ some ⟨t, n⟩ := by
    intro pos p' hp' hcontext'
    exact Nat.lt_irrefl _ (hbefore p' (List.mem_of_getElem? hp') n hcontext')
  constructor
  case stale => exact hstale.trans h.stale
  case stages =>
    intro t'
    by_cases ht : t' = t
    · subst ht
      rw [Function.update_self]
      have hbefore' : PublishedBefore w t' (n + 1) :=
        fun p' hp' m hm => Nat.lt_succ_of_lt (hbefore p' hp' m hm)
      refine ⟨hbefore'.publish hcontext hpub fun _ => Nat.lt_succ_self n, c, p, ?_, ?_,
        hcontext, fun _ => hsem, ?_⟩
      · rw [hcontexts]
        exact hc
      · rw [hpub]
        exact List.getElem?_concat_length
      · intro hmem
        rw [hdelivered] at hmem
        exact absurd hmem hnew
    · rw [Function.update_of_ne ht]
      refine (h.stages t').mono hkept ?_ ?_ ?_ ?_
      · exact fun m hbef => hbef.publish hcontext hpub fun heq => absurd heq ht
      · intro m
        rw [hcontexts]
      · intro m
        rw [hdelivered]
      · rw [hanswers]
        exact fun _ ha => ha
  case distinct =>
    intro pos pos' p₁ p₂ hp₁ hp₂ heq
    rcases hcases pos p₁ hp₁ with hold₁ | ⟨rfl, rfl⟩
    · rcases hcases pos' p₂ hp₂ with hold₂ | ⟨rfl, rfl⟩
      · exact h.distinct pos pos' p₁ p₂ hold₁ hold₂ heq
      · exact absurd (heq.trans hcontext) (hfresh pos p₁ hold₁)
    · rcases hcases pos' p₂ hp₂ with hold₂ | ⟨rfl, rfl⟩
      · exact absurd (heq.symm.trans hcontext) (hfresh pos' p₂ hold₂)
      · rfl
  case live =>
    intro pos p' ptr hp' hcontext' hnot
    rw [hdelivered] at hnot
    rcases hcases pos p' hp' with hold | ⟨rfl, rfl⟩
    · have hsent := h.live pos p' ptr hold hcontext' hnot
      have ht : ptr.thread ≠ t := by
        intro heq
        rw [heq, hstage] at hsent
        cases hsent
      rw [Function.update_of_ne ht]
      exact hsent
    · rw [hcontext] at hcontext'
      cases hcontext'
      exact Function.update_self ..
  case copied =>
    rw [hcontexts]
    exact h.copied
  case deliveredNodup =>
    rw [hdelivered]
    exact h.deliveredNodup
  case returns =>
    intro r hr
    rw [hreturns] at hr
    have hret := h.returns r hr
    -- the call that publishes has not returned
    have hother : p.context ≠ some r.context := by
      intro heq
      have hpast := hret.past
      rw [← Option.some.inj (hcontext.symm.trans heq), hstage] at hpast
      exact absurd hpast (Nat.lt_irrefl _)
    refine hret.mono ?_ ?_ hkept ?_ ?_
    · by_cases ht : r.context.thread = t
      · rw [ht, Function.update_self, hstage]
        exact Nat.le_refl _
      · exact Nat.le_of_eq (by rw [Function.update_of_ne ht])
    · intro p' hp' hcontext'
      rw [hpub] at hp'
      rcases List.mem_append.mp hp' with hp' | hp'
      · exact hp'
      · cases List.mem_singleton.mp hp'
        exact absurd hcontext' hother
    · rw [hdelivered]
      exact fun _ hp => hp
    · rw [hanswers]
      exact fun _ ha => ha

/-!
## The interrupt thread
-/

theorem ContextInv.enterPhase (h : ContextInv mode scripts w stage phase)
    {phase' : IstPhase}
    (hfresh : forall pos p a k, phase' = .serving pos p a k -> k = 0) :
    ContextInv mode scripts w stage phase' where
  stale := h.stale
  stages := h.stages
  distinct := h.distinct
  live := h.live
  copied := by
    intro pos p a k ptr c hphase _ _
    have hk := hfresh pos p a k hphase
    subst hk
    exact ⟨fun hle => absurd hle (by decide), fun hle => absurd hle (by decide)⟩
  deliveredNodup := h.deliveredNodup
  returns := h.returns

theorem ContextInv.servedContext (h : ContextInv mode scripts w stage phase)
    (hphase : PhaseInv mode w phase) (hring : RingFlow w.queue w.device)
    {pos k : Nat} {p : Published} {a : GpioAnswer} {ptr : ContextPtr}
    (hserving : phase = .serving pos p a k) (hcontext : p.context = some ptr) :
    exists c, w.contexts ptr = some c ∧ c.sem = some 0 ∧
      (1 <= k -> c.status = a.status) ∧ (2 <= k -> c.value = a.value) := by
  rcases h.served hphase hring hserving hcontext with ⟨hnot, hsent⟩
  have hstage := h.stages ptr.thread
  rw [hsent] at hstage
  rcases hstage with ⟨_, c, p', hc, _, _, hzero, _⟩
  exact ⟨c, hc, hzero hnot, h.copied pos p a k ptr c hserving hcontext hc⟩

theorem ContextInv.copy (h : ContextInv mode scripts w stage phase)
    (hphase : PhaseInv mode w phase) (hring : RingFlow w.queue w.device)
    {pos k k' : Nat} {p : Published} {a : GpioAnswer} {ptr : ContextPtr}
    (hserving : phase = .serving pos p a k) (hcontext : p.context = some ptr)
    {f : VirtioGpioContext -> VirtioGpioContext} (hsem : forall c, (f c).sem = c.sem)
    (hcopied : forall c, (1 <= k -> c.status = a.status) ->
      (2 <= k -> c.value = a.value) ->
        (1 <= k' -> (f c).status = a.status) ∧ (2 <= k' -> (f c).value = a.value)) :
    ContextInv mode scripts (w.changeContext ptr f) stage (.serving pos p a k') := by
  rcases h.served hphase hring hserving hcontext with ⟨hnot, hsent⟩
  rcases h.servedContext hphase hring hserving hcontext with
    ⟨c, hc, hzero, hstatus, hvalue⟩
  have hw : w.changeContext ptr f = w.setContext ptr (some (f c)) := by
    simp [GpioSystem.changeContext, hc]
  rw [hw]
  constructor
  case stale => exact h.stale
  case stages =>
    intro t
    by_cases ht : t = ptr.thread
    · subst ht
      have hstage := h.stages ptr.thread
      rw [hsent] at hstage ⊢
      rcases hstage with ⟨hbefore, c₀, p', hc₀, hp', hcontext', hsem₀, hdel⟩
      have heq : c₀ = c := Option.some.inj (hc₀.symm.trans hc)
      subst heq
      refine ⟨hbefore, f c₀, p', Function.update_self .., hp', hcontext', ?_, ?_⟩
      · intro hmem
        rw [hsem]
        exact hsem₀ hmem
      · exact fun hmem => absurd hmem hnot
    · refine (h.stages t).mono (fun _ _ hp => hp) (fun _ hb => hb) ?_
        (fun _ => Iff.rfl) (fun _ ha => ha)
      intro n
      refine Function.update_of_ne ?_ ..
      rintro rfl
      exact ht rfl
  case distinct => exact h.distinct
  case live => exact h.live
  case copied =>
    intro pos' p' a' k'' ptr' c' heq hcontext' hc'
    cases heq
    rw [hcontext] at hcontext'
    cases hcontext'
    have hself : (w.setContext ptr (some (f c))).contexts ptr = some (f c) :=
      Function.update_self ..
    rw [hself] at hc'
    cases hc'
    exact hcopied c hstatus hvalue
  case deliveredNodup => exact h.deliveredNodup
  case returns =>
    intro r hr
    exact (h.returns r hr).mono (Nat.le_refl _) (fun _ hp _ => hp) (fun _ _ hp => hp)
      (fun _ hp => hp) (fun _ ha => ha)

theorem ContextInv.post (h : ContextInv mode scripts w stage phase)
    (hphase : PhaseInv mode w phase) (hring : RingFlow w.queue w.device)
    {pos : Nat} {p : Published} {a : GpioAnswer} {ptr : ContextPtr}
    (hserving : phase = .serving pos p a 2) (hcontext : p.context = some ptr)
    {f : VirtioGpioContext -> VirtioGpioContext}
    (hf : f = fun c => { c with sem := c.sem.map (· + 1) })
    (hw' : w' = { w.changeContext ptr f with delivered := w.delivered ++ [ptr] }) :
    ContextInv mode scripts w' stage .draining := by
  rcases h.served hphase hring hserving hcontext with ⟨hnot, hsent⟩
  rcases h.servedContext hphase hring hserving hcontext with
    ⟨c, hc, hzero, hstatus, hvalue⟩
  have hhistory := hphase.history
  rw [hserving] at hhistory
  rcases hhistory with ⟨_, _, _, ha, hapos⟩
  have hw : w.changeContext ptr f = w.setContext ptr (some (f c)) := by
    simp [GpioSystem.changeContext, hc]
  rw [hw] at hw'
  subst hw' hf
  have hdelivered : forall ptr', ptr' ∈ w.delivered -> ptr' ∈ w.delivered ++ [ptr] :=
    fun _ hmem => List.mem_append_left _ hmem
  constructor
  case stale => exact h.stale
  case stages =>
    intro t
    by_cases ht : t = ptr.thread
    · subst ht
      have hstage := h.stages ptr.thread
      rw [hsent] at hstage ⊢
      rcases hstage with ⟨hbefore, _, p', _, hp', hcontext', _, _⟩
      refine ⟨hbefore, _, p', Function.update_self .., hp', hcontext', ?_, ?_⟩
      · intro hmem
        exact absurd (List.mem_append_right _ (List.mem_singleton.mpr rfl)) hmem
      · intro _
        refine ⟨?_, a, ha, hapos, hstatus (by decide), hvalue (by decide)⟩
        dsimp only
        rw [hzero]
        rfl
    · refine (h.stages t).mono (fun _ _ hp => hp) (fun _ hb => hb) ?_ ?_
        (fun _ ha => ha)
      · intro n
        refine Function.update_of_ne ?_ ..
        rintro rfl
        exact ht rfl
      · intro n
        constructor
        · intro hmem
          rcases List.mem_append.mp hmem with hmem | hmem
          · exact hmem
          · exact absurd (congrArg ContextPtr.thread (List.mem_singleton.mp hmem)) ht
        · exact hdelivered _
  case distinct => exact h.distinct
  case live =>
    intro pos' p' ptr' hp' hcontext' hmem
    exact h.live pos' p' ptr' hp' hcontext' fun hold => hmem (hdelivered _ hold)
  case copied =>
    intro _ _ _ _ _ _ heq
    cases heq
  case deliveredNodup =>
    exact List.Nodup.append h.deliveredNodup (List.nodup_singleton _)
      (by simpa using hnot)
  case returns =>
    intro r hr
    exact (h.returns r hr).mono (Nat.le_refl _) (fun _ hp _ => hp) (fun _ _ hp => hp)
      hdelivered (fun _ ha => ha)

end QnxVirtio
