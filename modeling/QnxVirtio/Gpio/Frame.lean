import QnxVirtio.Gpio.Invariant

/-!
# What a step leaves alone

The parts of the invariant depend on parts of the system.  A step on the queue by
one who owns what it touches changes the holding of that thread only.
-/

namespace QnxVirtio

open Foundation

/-!
## Ghosts
-/

section Ghosts

variable (gs : GpioThread -> GpioGhost) (fl : Nat -> Holding)

theorem holdings_update_thread (t : GpioThread) (g : GpioGhost) :
    holdings (Function.update gs t g) fl =
      Function.update (holdings gs fl) (.thread t) g.holding := by
  funext o
  cases o with
  | thread t' =>
      by_cases ht : t' = t
      · subst ht
        simp [holdings]
      · have hne : GpioOwner.thread t' ≠ .thread t := by simpa using ht
        simp [holdings, Function.update_of_ne ht, Function.update_of_ne hne]
  | chain pos => simp [holdings]

theorem holdings_update_chain (pos : Nat) (H : Holding) :
    holdings gs (Function.update fl pos H) =
      Function.update (holdings gs fl) (.chain pos) H := by
  funext o
  cases o with
  | thread t => simp [holdings]
  | chain pos' =>
      by_cases hpos : pos' = pos
      · subst hpos
        simp [holdings]
      · have hne : GpioOwner.chain pos' ≠ .chain pos := by simpa using hpos
        simp [holdings, Function.update_of_ne hpos, Function.update_of_ne hne]

theorem stages_update_client (t : Nat) (g : GpioGhost) :
    stages (Function.update gs (.client t) g) =
      Function.update (stages gs) t g.stage := by
  funext t'
  by_cases ht : t' = t
  · subst ht
    simp [stages]
  · have hne : GpioThread.client t' ≠ .client t := by simpa using ht
    simp [stages, Function.update_of_ne ht, Function.update_of_ne hne]

theorem stages_update_ist (g : GpioGhost) :
    stages (Function.update gs .ist g) = stages gs := by
  funext t
  simp [stages]

theorem phase_update_client (t : Nat) (g : GpioGhost) :
    (Function.update gs (.client t) g .ist).phase = (gs .ist).phase := by
  rw [Function.update_of_ne (by simp)]

end Ghosts

/-!
## Parts of the invariant
-/

section Congr

variable {mode : GpioMode} {scripts : Nat -> Nat -> GpioCall} {w w' : GpioSystem}
  {fl : Nat -> Holding}

theorem Outstanding.congr {q q' : Queue} {d d' : Device} {pos : Nat}
    (h : Outstanding q d pos) (hpub : q'.published = q.published)
    (hret : q'.retrieved = q.retrieved) (hpos : d'.positions = d.positions) :
    Outstanding q' d' pos := by
  unfold Outstanding retiredPositions at h ⊢
  rw [hpub, hret, hpos]
  exact h

theorem FlowInv.congr (h : FlowInv scripts w fl) (hsame : SameRings w.queue w'.queue)
    (hdevice : w'.device = w.device) (hanswers : w'.answers = w.answers) :
    FlowInv scripts w' fl where
  ring := by
    rw [hdevice]
    exact h.ring.congr hsame
  published := by
    rw [hsame.published]
    exact h.published
  flight := by
    intro pos p hout hp
    rw [hsame.published] at hp
    rw [hanswers]
    refine h.flight pos p (hout.congr ?_ ?_ ?_) hp
    · exact hsame.published.symm
    · exact hsame.retrieved.symm
    · rw [hdevice]
  answered := by
    rw [hanswers, hdevice, hsame.published]
    exact h.answered
  answersNodup := by
    rw [hanswers]
    exact h.answersNodup
  produced := by
    rw [hanswers, hdevice]
    exact h.produced
  pending := by
    rw [hanswers, hdevice]
    exact h.pending

theorem Device.positions_congr {d d' : Device} (h : d'.produced = d.produced) :
    d'.positions = d.positions := by
  rw [Device.positions, h, Device.positions]

theorem PhaseHistory.congr {phase : IstPhase} (h : PhaseHistory w phase)
    (hpub : w'.queue.published = w.queue.published)
    (hret : w'.queue.retrieved = w.queue.retrieved)
    (hproduced : w'.device.produced = w.device.produced)
    (hanswers : forall a, a ∈ w.answers -> a ∈ w'.answers)
    (hdelivered : w'.delivered = w.delivered) : PhaseHistory w' phase := by
  cases phase with
  | away =>
      unfold PhaseHistory at h ⊢
      rw [hdelivered, hret]
      exact h
  | draining =>
      unfold PhaseHistory at h ⊢
      rw [hdelivered, hret]
      exact h
  | serving pos p a copied =>
      rcases h with ⟨hlen, hpos, hp, ha, hapos⟩
      unfold PhaseHistory
      rw [hdelivered, hret, Device.positions_congr hproduced, hpub]
      exact ⟨hlen, hpos, hp, hanswers a ha, hapos⟩

theorem PhaseInv.congr {phase : IstPhase} (h : PhaseInv mode w phase)
    (hpub : w'.queue.published = w.queue.published)
    (hret : w'.queue.retrieved = w.queue.retrieved)
    (hproduced : w'.device.produced = w.device.produced)
    (hanswers : forall a, a ∈ w.answers -> a ∈ w'.answers)
    (hdelivered : w'.delivered = w.delivered) (hwaiting : w'.waiting = w.waiting)
    (hsignalled : Signalled w -> Signalled w') :
    PhaseInv mode w' phase where
  history := h.history.congr hpub hret hproduced hanswers hdelivered
  delivered := by
    rw [hdelivered, Device.positions_congr hproduced, hpub]
    exact h.delivered
  waiting := by
    rw [hwaiting]
    exact h.waiting
  signalled := fun hstrict haway => hsignalled (h.signalled hstrict haway)

theorem Signalled.congr (h : Signalled w)
    (hret : w'.queue.retrieved = w.queue.retrieved)
    (hproduced : w'.device.produced = w.device.produced)
    (hstatus : w'.intStatus = w.intStatus) (hraise : w'.raise = w.raise) :
    Signalled w' := by
  unfold Signalled at h ⊢
  rw [hret, hproduced, hstatus, hraise]
  exact h

theorem StageInv.mono {t : Nat} {s : ClientStage} (h : StageInv w t s)
    (hpub : forall (pos : Nat) (p : Published), w.queue.published[pos]? = some p ->
      w'.queue.published[pos]? = some p)
    (hbefore : forall n, PublishedBefore w t n -> PublishedBefore w' t n)
    (hcontexts : forall n, w'.contexts ⟨t, n⟩ = w.contexts ⟨t, n⟩)
    (hdelivered : forall n, ⟨t, n⟩ ∈ w'.delivered <-> ⟨t, n⟩ ∈ w.delivered)
    (hanswers : forall a, a ∈ w.answers -> a ∈ w'.answers) : StageInv w' t s := by
  cases s with
  | idle n => exact hbefore n h
  | calling n c => exact ⟨hbefore n h.1, (hcontexts n).trans h.2⟩
  | sent n pos =>
      rcases h with ⟨hbef, c, p, hc, hp, hcontext, hnot, hdel⟩
      refine ⟨hbefore _ hbef, c, p, (hcontexts n).trans hc, hpub pos p hp, hcontext,
        ?_, ?_⟩
      · intro hmem
        exact hnot fun hmem' => hmem ((hdelivered n).mpr hmem')
      · intro hmem
        rcases hdel ((hdelivered n).mp hmem) with ⟨hsem, a, ha, hapos, hcar⟩
        exact ⟨hsem, a, hanswers a ha, hapos, hcar⟩
  | woken n pos a =>
      rcases h with ⟨hbef, c, p, hc, hp, hcontext, hdel, ha, hapos, hcar⟩
      exact ⟨hbefore _ hbef, c, p, (hcontexts n).trans hc, hpub pos p hp, hcontext,
        (hdelivered n).mpr hdel, hanswers a ha, hapos, hcar⟩

theorem Routed.mono {r : GpioReturn} (h : Routed w r)
    (hpub : forall (pos : Nat) (p : Published), w.queue.published[pos]? = some p ->
      w'.queue.published[pos]? = some p)
    (hanswers : forall a, a ∈ w.answers -> a ∈ w'.answers) : Routed w' r := by
  rcases h with ⟨pos, p, a, hp, hcontext, ha, hpos, hresult⟩
  exact ⟨pos, p, a, hpub pos p hp, hcontext, hanswers a ha, hpos, hresult⟩

theorem ReturnInv.mono {stage stage' : Nat -> ClientStage} {r : GpioReturn}
    (h : ReturnInv mode scripts w stage r)
    (hstage : (stage r.context.thread).call <= (stage' r.context.thread).call)
    (hnew : forall p, p ∈ w'.queue.published -> p.context = some r.context ->
      p ∈ w.queue.published)
    (hpub : forall (pos : Nat) (p : Published), w.queue.published[pos]? = some p ->
      w'.queue.published[pos]? = some p)
    (hdelivered : forall ptr, ptr ∈ w.delivered -> ptr ∈ w'.delivered)
    (hanswers : forall a, a ∈ w.answers -> a ∈ w'.answers) :
    ReturnInv mode scripts w' stage' r where
  call := h.call
  past := Nat.lt_of_lt_of_le h.past hstage
  delivered := fun p hp hcontext =>
    hdelivered _ (h.delivered p (hnew p hp hcontext) hcontext)
  routed := fun hquiet hwaited => (h.routed hquiet hwaited).mono hpub hanswers
  settled := fun p hp hcontext =>
    (h.settled p (hnew p hp hcontext) hcontext).mono hpub hanswers

theorem ContextInv.congr {stage : Nat -> ClientStage} {phase : IstPhase}
    (h : ContextInv mode scripts w stage phase)
    (hpub : w'.queue.published = w.queue.published) (hstale : w'.stale = w.stale)
    (hcontexts : w'.contexts = w.contexts) (hdelivered : w'.delivered = w.delivered)
    (hreturns : w'.returns = w.returns)
    (hanswers : forall a, a ∈ w.answers -> a ∈ w'.answers) :
    ContextInv mode scripts w' stage phase where
  stale := hstale.trans h.stale
  stages := by
    intro t
    refine (h.stages t).mono ?_ ?_ ?_ ?_ hanswers
    · intro pos p hp
      rw [hpub]
      exact hp
    · intro n hbefore
      unfold PublishedBefore
      rw [hpub]
      exact hbefore
    · intro n
      rw [hcontexts]
    · intro n
      rw [hdelivered]
  distinct := by
    rw [hpub]
    exact h.distinct
  live := by
    rw [hpub, hdelivered]
    exact h.live
  copied := by
    rw [hcontexts]
    exact h.copied
  deliveredNodup := by
    rw [hdelivered]
    exact h.deliveredNodup
  returns := by
    intro r hr
    rw [hreturns] at hr
    refine (h.returns r hr).mono (Nat.le_refl _) ?_ ?_ ?_ hanswers
    · rw [hpub]
      exact fun _ hp _ => hp
    · rw [hpub]
      exact fun _ _ hp => hp
    · rw [hdelivered]
      exact fun _ hp => hp

end Congr

/-!
## Steps on the queue
-/

section Queue

variable {mode : GpioMode} {scripts : Nat -> Nat -> GpioCall} {w : GpioSystem}
  {gs : GpioThread -> GpioGhost} {fl : Nat -> Holding}

theorem GpioInv.onQueue (h : GpioInv mode scripts w gs fl)
    (t : GpioThread) {q' : Queue} {H' : Holding} (hsame : SameRings w.queue q')
    (hhold : HoldInv q' (Function.update (holdings gs fl) (.thread t) H')) :
    GpioInv mode scripts { w with queue := q' }
      (Function.update gs t { gs t with holding := H' }) fl := by
  have hphase : (Function.update gs t { gs t with holding := H' } .ist).phase =
      (gs .ist).phase := by
    by_cases ht : GpioThread.ist = t
    · subst ht
      rw [Function.update_self]
    · rw [Function.update_of_ne ht]
  have hstages : stages (Function.update gs t { gs t with holding := H' }) =
      stages gs := by
    cases t with
    | client t =>
        rw [stages_update_client]
        exact Function.update_eq_self t (stages gs)
    | ist => exact stages_update_ist gs _
  constructor
  · rw [holdings_update_thread]
    exact hhold
  · exact h.flow.congr hsame rfl rfl
  · rw [hphase]
    exact h.phase.congr hsame.published hsame.retrieved rfl (fun _ ha => ha) rfl rfl
      fun hsig => hsig.congr hsame.retrieved rfl rfl rfl
  · intro hcalm
    rw [hphase, hstages]
    exact (h.context hcalm).congr hsame.published rfl rfl rfl rfl fun _ ha => ha

theorem onQueue_triple {α : Type} {t : GpioThread} {p : Prog Env Queue α} :
    forall {g : GpioGhost} {Q : α -> GpioGhost -> Prop},
      HoldingSpec GpioOwner g.holding p
        (fun a H' => Q a { g with holding := H' }) ->
      (gpioContract mode scripts).Triple t g
        (QnxVirtio.onQueue p) Q := by
  induction p with
  | ret a =>
      intro g Q hspec
      exact Contract.Triple.ret hspec
  | act f k ih =>
      intro g Q hspec
      apply Contract.Triple.act
      rintro e w gs b w' hok ⟨fl, hinv⟩ rfl hf
      rcases Option.map_eq_some_iff.mp hf with ⟨⟨b', q'⟩, hfq, hout⟩
      cases hout
      rcases hspec e w.queue (holdings gs fl) (.thread t) b' q' hinv.holding rfl hfq with
        ⟨hsame, H', hhold, hrest⟩
      exact ⟨{ gs t with holding := H' }, ⟨fl, hinv.onQueue t hsame hhold⟩,
        ih b' hrest⟩
  | loop body x k =>
      intro g Q hspec
      exact hspec.elim

end Queue

end QnxVirtio
