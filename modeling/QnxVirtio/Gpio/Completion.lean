import QnxVirtio.Gpio.Acknowledge
import QnxVirtio.Gpio.Endings
import QnxVirtio.Gpio.Schedule

/-!
# Every call returns

Under a scheduler that forgets neither the interrupt thread nor the client, and with a
device that completes what it is given and raises the interrupts that it announces, every
chain is delivered and every call of the client returns.
-/

namespace QnxVirtio

open Foundation

/-- The chains that a phase has taken and not delivered. -/
def IstPhase.held : IstPhase -> Nat
  | .away => 0
  | .draining => 0
  | .serving _ _ _ _ => 1

theorem PhaseInv.taken {mode : GpioMode} {w : GpioSystem} {phase : IstPhase}
    (h : PhaseInv mode w phase) : w.taken = w.delivered.length + phase.held := by
  have hhistory := h.history
  cases phase with
  | away => exact hhistory.symm
  | draining => exact hhistory.symm
  | serving pos p a k => exact hhistory.1.symm

theorem gpioEnv_status {move : GpioDeviceMove} {w w' : GpioSystem}
    (h : gpioEnv move w = some w') (hstatus : w.intStatus ≠ 0) : w'.intStatus ≠ 0 := by
  have hor : forall bits, w.intStatus ||| bits ≠ 0 :=
    fun bits hzero => hstatus (UInt32.or_eq_zero_iff.mp hzero).1
  cases move with
  | take =>
      rcases Option.map_eq_some_iff.mp h with ⟨d, _, rfl⟩
      exact hstatus
  | answer pos status value =>
      rcases GpioSystem.answerRequest_cases h with ⟨head, _, _, rfl⟩
      exact hstatus
  | store pos len =>
      simp only [gpioEnv] at h
      split at h
      · rcases Option.map_eq_some_iff.mp h with ⟨r, _, rfl⟩
        exact hstatus
      · cases h
  | bump =>
      rcases Option.map_eq_some_iff.mp h with ⟨r, _, rfl⟩
      exact hstatus
  | raiseVirtq =>
      simp only [gpioEnv] at h
      split at h
      · cases h
        exact hor _
      · cases h
  | raiseConfig =>
      cases h
      exact hor _

theorem raiseVirtq_status {w w' : GpioSystem} (h : gpioEnv .raiseVirtq w = some w') :
    w'.intStatus ≠ 0 := by
  simp only [gpioEnv] at h
  split at h
  · cases h
    intro hzero
    exact absurd (UInt32.or_eq_zero_iff.mp hzero).2 (by decide)
  · cases h

section Runs

variable {transport : Transport} {config : VirtioGpioConfig} {obj : VirtqObject}
  {mem : Memory} {scripts : Nat -> Nat -> GpioCall}
  (R : Pool.Run gpioEnv (aliveContract servedMode scripts true).ok
    (gpioPool transport config obj mem scripts))

/-- At every point of the run all threads are alive. -/
def AlwaysAlive : Prop :=
  forall n k, exists gs, Contract.AllAlive (aliveContract servedMode scripts true)
    (gpioPatience transport true) (fun t _ => t = .ist ∧ true = false) k (R.pool n) gs

variable {R}

theorem waits_of_blocked {t : GpioThread} {n k : Nat} {gs : GpioThread -> GpioGhost}
    (h : Contract.AllAlive (aliveContract servedMode scripts true)
      (gpioPatience transport true) (fun t _ => t = .ist ∧ true = false) (k + 1) (R.pool n) gs)
    (hblocked : R.Blocked unmapped t n) :
    gpioWaits transport true t (gs t) (R.pool n).state := by
  rcases Contract.AllAlive.waits (C := aliveContract servedMode scripts true)
    (W := gpioPatience transport true) R h hblocked with ⟨_, hfalse⟩ | hwaits
  · cases hfalse
  · exact hwaits

/-!
## Deliveries
-/

theorem taken_of_not_moves (halive : AlwaysAlive R) {n : Nat}
    (hsame : (R.pool (n + 1)).state.delivered.length = (R.pool n).state.delivered.length)
    (hnot : ¬ R.Moves .ist n) :
    (R.pool (n + 1)).state.taken = (R.pool n).state.taken := by
  rcases halive n 2 with ⟨gs, h⟩
  rcases h.move (fun d w gs w' _ => aliveContract_env true d w gs w') (R.allowed n)
    (R.next n) with ⟨gs', h', hghost⟩
  rcases h.1 with ⟨⟨fl, hinv⟩, _⟩
  rcases h'.1 with ⟨⟨fl', hinv'⟩, _⟩
  rw [hinv.phase.taken, hinv'.phase.taken, hsame,
    hghost .ist fun e hmove => hnot ⟨e, hmove⟩]

theorem status_of_not_moves {n m : Nat} (hle : n <= m)
    (hstatus : (R.pool n).state.intStatus ≠ 0)
    (hnot : forall j, n <= j -> ¬ R.Moves .ist j) : (R.pool m).state.intStatus ≠ 0 := by
  induction hle with
  | refl => exact hstatus
  | @step m hm ih =>
      cases hmove : R.move m with
      | thread t e =>
          cases t with
          | client t =>
              have hsame : SameInterrupts (R.pool m).state (R.pool (m + 1)).state :=
                R.within_of_move (M := SameInterrupts) (t := .client t) (fun _ => rfl)
                  (client_within config t (scripts t)) ⟨e, hmove⟩
              rw [hsame]
              exact ih
          | ist => exact absurd ⟨e, hmove⟩ (hnot m hm)
      | env d => exact gpioEnv_status (R.env_of_move hmove) ih

theorem ist_busy (halive : AlwaysAlive R) (hserves : Serves R)
    (hfair : R.Fair unmapped .ist) {d n : Nat}
    (hstuck : forall m, n <= m -> Undelivered scripts d (R.pool m).state) :
    R.Busy .ist n := by
  intro m hm
  by_contra hnone
  have hnot : forall j, m <= j -> ¬ R.Moves .ist j := fun j hj hmoves => hnone ⟨j, hj, hmoves⟩
  have hblocks : forall j, m <= j -> exists j', j <= j' ∧ R.Blocked unmapped .ist j' := by
    intro j hj
    rcases hfair j with ⟨j', hj', hmoves | hblocked⟩
    · exact absurd hmoves (hnot j' (Nat.le_trans hj hj'))
    · exact ⟨j', hj', hblocked⟩
  rcases hblocks m (Nat.le_refl m) with ⟨m1, hm1, hblocked⟩
  rcases halive m1 1 with ⟨gs, h⟩
  rcases waits_of_blocked h hblocked with ⟨_, hidle, haway⟩
  have hraise : (R.pool m1).state.raise = true := by
    rcases h.1 with ⟨⟨fl, hinv⟩, _⟩
    have hone := hstuck m1 (Nat.le_trans hm hm1)
    have htaken := hinv.phase.taken
    rw [haway, hone.delivered] at htaken
    have hunseen : (R.pool m1).state.queue.retrieved.length <
        (R.pool m1).state.device.produced.length := by
      rw [show (R.pool m1).state.queue.retrieved.length = d from htaken]
      exact hone.produced
    rcases hinv.phase.signalled rfl haway hunseen with hbit | hraise
    · rw [hidle] at hbit
      exact absurd rfl hbit
    · exact hraise
  rcases hserves.interrupts m1 hraise with ⟨m2, hm2, hmove⟩
  have hstatus := raiseVirtq_status (R.env_of_move hmove)
  have hlater : m <= m2 + 1 := Nat.le_succ_of_le (Nat.le_trans hm1 hm2)
  rcases hblocks (m2 + 1) hlater with ⟨m3, hm3, hblocked3⟩
  rcases halive m3 1 with ⟨gs3, h3⟩
  rcases waits_of_blocked h3 hblocked3 with ⟨_, hidle3, _⟩
  exact status_of_not_moves hm3 hstatus (fun j hj => hnot j (Nat.le_trans hlater hj)) hidle3

theorem delivered_of_produced (halive : AlwaysAlive R) (hserves : Serves R)
    (hfair : R.Fair unmapped .ist) (d : Nat) {n : Nat}
    (hproduced : d < (R.pool n).state.device.produced.length) :
    exists m, n <= m ∧ d < (R.pool m).state.delivered.length := by
  induction d using Nat.strongRecOn generalizing n with
  | ind d ih =>
      have hbefore : exists m, n <= m ∧ d <= (R.pool m).state.delivered.length := by
        cases d with
        | zero => exact ⟨n, Nat.le_refl n, Nat.zero_le _⟩
        | succ d => exact ih d (Nat.lt_succ_self d) (Nat.lt_of_succ_lt hproduced)
      rcases hbefore with ⟨n1, hn1, hmany⟩
      by_contra hnone
      -- then nothing is delivered from `n1` on
      have hstuck : forall m, n1 <= m -> Undelivered scripts d (R.pool m).state := by
        intro m hm
        have hon := Onwards.run R hm
        rcases halive m 1 with ⟨gs, ⟨⟨fl, hinv⟩, _⟩, _⟩
        constructor
        · exact ⟨gs, fl, hinv⟩
        · refine Nat.le_antisymm (Nat.le_of_not_lt fun hlt => ?_) ?_
          · exact hnone ⟨m, Nat.le_trans hn1 hm, hlt⟩
          · exact Nat.le_trans hmany hon.delivered.length_le
        · exact Nat.lt_of_lt_of_le hproduced
            (Onwards.run R (Nat.le_trans hn1 hm)).produced.length_le
      have htame : Prog.Tame (Stalls scripts d) GpioSystem.taken ((R.pool n1).thread .ist) := by
        refine R.thread_invariant (P := fun p => Prog.Tame (Stalls scripts d) GpioSystem.taken p)
          (ist_tame transport) ?_ n1
        exact fun p e w w' p' hp hstep => hp.step hstep
      refine R.not_busy (M := Stalls scripts d) ?_ ?_ (htame.ends _)
        (ist_busy halive hserves hfair hstuck)
      · intro m e hm hmove
        have hallowed := R.allowed m
        rw [hmove] at hallowed
        exact ⟨(hallowed.2 rfl).1, hstuck m hm, hstuck (m + 1) (Nat.le_succ_of_le hm)⟩
      · intro m hm hnot
        refine taken_of_not_moves halive ?_ hnot
        rw [(hstuck m hm).delivered, (hstuck (m + 1) (Nat.le_succ_of_le hm)).delivered]

theorem delivered_of_published (halive : AlwaysAlive R) (hserves : Serves R)
    (hfair : R.Fair unmapped .ist) {n pos : Nat} {p : Published} {ptr : ContextPtr}
    (hp : (R.pool n).state.queue.published[pos]? = some p) (hcontext : p.context = some ptr) :
    exists m, n <= m ∧ ptr ∈ (R.pool m).state.delivered := by
  rcases hserves.completes n pos (List.getElem?_eq_some_iff.mp hp).1 with ⟨m1, hm1, hpos⟩
  rcases List.mem_iff_getElem?.mp hpos with ⟨d, hd⟩
  have hproduced : d < (R.pool m1).state.device.produced.length := by
    rw [← Device.length_positions]
    exact (List.getElem?_eq_some_iff.mp hd).1
  rcases delivered_of_produced halive hserves hfair d hproduced with ⟨m2, hm2, hlt⟩
  refine ⟨m2, Nat.le_trans hm1 hm2, ?_⟩
  rcases halive m2 1 with ⟨gs, ⟨⟨fl, hinv⟩, _⟩, _⟩
  have hget := List.getElem?_eq_getElem hlt
  rcases hinv.phase.delivered d _ hget with ⟨pos', p', hpos', hp', hcontext'⟩
  -- the used element and the chain are the same as before
  rcases (Onwards.run R hm2).produced with ⟨more, hmore⟩
  have hsame : (R.pool m2).state.device.positions[d]? = some pos := by
    rw [Device.positions, ← hmore, List.map_append]
    exact getElem?_append_of_some hd _
  cases Option.some.inj (hpos'.symm.trans hsame)
  rcases (Onwards.run R (Nat.le_trans hm1 hm2)).published with ⟨later, hlater⟩
  rw [← hlater, getElem?_append_of_some hp later] at hp'
  cases hp'
  cases Option.some.inj (hcontext'.symm.trans hcontext)
  exact List.getElem_mem hlt

theorem all_delivered (halive : AlwaysAlive R) (hserves : Serves R)
    (hfair : R.Fair unmapped .ist) (n count : Nat) :
    exists m, n <= m ∧ forall pos (p : Published) ptr, pos < count ->
      (R.pool n).state.queue.published[pos]? = some p -> p.context = some ptr ->
      ptr ∈ (R.pool m).state.delivered := by
  induction count with
  | zero => exact ⟨n, Nat.le_refl n, fun pos _ _ hlt => absurd hlt (Nat.not_lt_zero pos)⟩
  | succ count ih =>
      rcases ih with ⟨m, hm, hall⟩
      by_cases hnew : exists (p : Published) (ptr : ContextPtr),
          (R.pool n).state.queue.published[count]? = some p ∧ p.context = some ptr
      · rcases hnew with ⟨p, ptr, hp, hcontext⟩
        rcases delivered_of_published halive hserves hfair hp hcontext with ⟨m', hm', hmem⟩
        refine ⟨max m m', Nat.le_trans hm (Nat.le_max_left m m'), ?_⟩
        intro pos p1 ptr1 hlt hp1 hcontext1
        rcases Nat.lt_succ_iff_lt_or_eq.mp hlt with hold | heq
        · exact (Onwards.run R (Nat.le_max_left m m')).delivered.subset
            (hall pos p1 ptr1 hold hp1 hcontext1)
        · subst heq
          cases Option.some.inj (hp1.symm.trans hp)
          cases Option.some.inj (hcontext1.symm.trans hcontext)
          exact (Onwards.run R (Nat.le_max_right m m')).delivered.subset hmem
      · refine ⟨m, hm, fun pos p1 ptr1 hlt hp1 hcontext1 => ?_⟩
        rcases Nat.lt_succ_iff_lt_or_eq.mp hlt with hold | heq
        · exact hall pos p1 ptr1 hold hp1 hcontext1
        · subst heq
          exact absurd ⟨p1, ptr1, hp1, hcontext1⟩ hnew

/-!
## Returns
-/

theorem client_busy (halive : AlwaysAlive R) (hserves : Serves R)
    (hist : R.Fair unmapped .ist) {t : Nat} (hclient : R.Fair unmapped (.client t)) :
    R.Busy (.client t) 0 := by
  intro m _
  by_contra hnone
  have hnot : forall j, m <= j -> ¬ R.Moves (.client t) j :=
    fun j hj hmoves => hnone ⟨j, hj, hmoves⟩
  have hblocks : forall j, m <= j ->
      exists j', j <= j' ∧ R.Blocked unmapped (.client t) j' := by
    intro j hj
    rcases hclient j with ⟨j', hj', hmoves | hblocked⟩
    · exact absurd hmoves (hnot j' (Nat.le_trans hj hj'))
    · exact ⟨j', hj', hblocked⟩
  rcases hblocks m (Nat.le_refl m) with ⟨m1, hm1, hblocked1⟩
  rcases all_delivered halive hserves hist m1 (R.pool m1).state.queue.published.length with
    ⟨m2, hm2, hall⟩
  rcases hblocks m2 (Nat.le_trans hm1 hm2) with ⟨m3, hm3, hblocked3⟩
  -- blocked at both times, and in the same wait
  rcases Nat.exists_eq_add_of_le (Nat.le_trans hm2 hm3) with ⟨k, hk⟩
  rcases halive m1 (1 + k) with ⟨gs1, h1⟩
  rcases Contract.AllAlive.later R (fun d w gs w' _ => aliveContract_env true d w gs w') k h1
    with ⟨gs3, h3, hsame⟩
  have hghost : gs3 (.client t) = gs1 (.client t) :=
    hsame _ fun j _ => hnot (m1 + j) (Nat.le_trans hm1 (Nat.le_add_right m1 j))
  rw [← hk] at h3
  rcases waits_of_blocked h3 hblocked3 with ⟨n, c, hc, hzero, ⟨pos, hsent⟩ | ⟨hfalse, _⟩⟩
  · have hsent1 : (gs1 (.client t)).stage = .sent n pos := by
      rw [← hghost]
      exact hsent
    rcases h1.1 with ⟨⟨fl1, hinv1⟩, _⟩
    rcases h3.1 with ⟨⟨fl3, hinv3⟩, _⟩
    have hstage1 := (hinv1.context rfl).stages t
    rw [show stages gs1 t = .sent n pos from hsent1] at hstage1
    rcases hstage1 with ⟨_, _, p, _, hp, hcontext, _⟩
    have hmem := (Onwards.run R hm3).delivered.subset
      (hall pos p ⟨t, n⟩ (List.getElem?_eq_some_iff.mp hp).1 hp hcontext)
    have hstage3 := (hinv3.context rfl).stages t
    rw [show stages gs3 t = .sent n pos from hsent] at hstage3
    rcases hstage3 with ⟨_, c', _, hc', _, _, _, hdelivered⟩
    have hone := (hdelivered hmem).1
    rw [← Option.some.inj (hc.symm.trans hc'), hzero] at hone
    cases hone
  · cases hfalse

theorem returned_of_fair (halive : AlwaysAlive R) (hserves : Serves R)
    (hist : R.Fair unmapped .ist) {t : Nat} (hclient : R.Fair unmapped (.client t))
    (n : Nat) :
    exists m r, r ∈ (R.pool m).state.returns ∧ r.context = ⟨t, n⟩ := by
  by_contra hnone
  have hends : ClientEnds ⟨t, n⟩ ((R.pool 0).thread (.client t)) fun _ => False := by
    rw [R.start]
    exact gpioClient_ends (Nat.zero_le n)
  refine R.not_busy ?_ (fun _ _ _ => rfl) hends (client_busy halive hserves hist hclient)
  intro m e _ _ r hr hcontext
  exact hnone ⟨m + 1, r, hr, hcontext⟩

end Runs

end QnxVirtio
