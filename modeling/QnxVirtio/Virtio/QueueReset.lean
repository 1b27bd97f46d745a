import QnxVirtio.Virtio.ResetLoops

/-!
# Reset of a queue

When the reset of a queue waits for the device.
-/

namespace QnxVirtio
namespace Virtio

open Foundation

/-- What a caller of the queue reset expects, for a timeout and a poll interval. -/
structure QueueResetWaits (timeout interval : Nat) (r : Except Rc Unit)
    (es : List PollEvent) : Prop where
  done : r = .ok () -> .ok 0 ∈ pollsOf es
  timedOut : (forall rc, .error rc ∉ pollsOf es) -> r = .error .ETIMEDOUT ->
    (exists value, .ok value ∈ pollsOf es) ∧ .ok 0 ∉ pollsOf es ∧
      timeout <= (waitsOf es).sum
  reads : (pollsOf es).length <= 1 + timeout ⌈/⌉ interval
  failed : forall rc, .error rc ∈ pollsOf es -> r = .error rc

section Queue

variable {σ : Nat -> VirtioEnv} {i j : Nat} {s : VirtioSystem}
  {w : Watched VirtioSystem PollEvent} {index : UInt16} {r : Except Rc Unit}

/-- A request that is refused ends the reset, and the wait after a granted one starts with
what the local variable held. -/
theorem runsOn_watchedResetQueue
    (hrun : Prog.RunsOn σ i ⟨s, []⟩ (watchedResetQueue index) r w j) :
    (¬ SectionGranted (σ (i + 1)) ∧
        exists rc, r = .error rc ∧ w.events = [.wrote (.error rc)]) ∨
      (SectionGranted (σ (i + 1)) ∧ exists es, w.events = .wrote (.ok ()) :: es ∧
        PollRun s.deviceResetPollIntervalMs s.queueResetPollIntervalMs
          (UInt32.ofNat (σ (i + 2)).garbage, s.queueResetTimeoutMs) r es) := by
  unfold watchedResetQueue at hrun
  rcases Prog.runsOn_bind_iff.mp hrun with ⟨timeout, w1, _, hread, hrun⟩
  rcases Prog.runsOn_silent hread with ⟨hread, hevents1⟩
  rcases Prog.runsOn_read_iff.mp hread with ⟨rfl, hstate1, rfl⟩
  rcases Prog.runsOn_bind_iff.mp hrun with ⟨written, w2, _, hwrite, hrun⟩
  rcases Prog.runsOn_noted_iff.mp hwrite with ⟨hwrite, hevents2⟩
  have hsame := (queueInvariant_sameIntervals s).virtioSetQueueReset index _ _ _ _
    hwrite.runs (by rw [hstate1]; exact ⟨rfl, rfl, rfl⟩)
  rcases runsOn_section hwrite with ⟨rfl, hgranted⟩
  cases written with
  | error rc =>
      rcases Prog.runsOn_ret_iff.mp hrun with ⟨rfl, rfl, _⟩
      refine Or.inl ⟨fun h => ?_, rc, rfl, ?_⟩
      · rcases hgranted.mpr h with ⟨u, hu⟩
        cases hu
      · rw [hevents2, hevents1]
        rfl
  | ok u =>
      refine Or.inr ⟨hgranted.mp ⟨u, rfl⟩, ?_⟩
      rcases Prog.runsOn_bind_iff.mp hrun with ⟨value, w3, _, hvalue, hrun⟩
      rcases Prog.runsOn_silent hvalue with ⟨hvalue, hevents3⟩
      rcases Prog.runsOn_action_iff.mp hvalue with ⟨hf, rfl⟩
      obtain ⟨rfl, hstate3⟩ := Prod.mk.inj (Option.some.inj hf)
      rw [hstate3] at hsame
      rcases pollRun_queue hrun with ⟨es, hes, hpoll⟩
      rw [hsame.device, hsame.queue] at hpoll
      refine ⟨es, ?_, hpoll⟩
      rw [hes, hevents3, hevents2, hevents1]
      rfl

theorem resetQueue_ok_iff
    (hrun : Prog.RunsOn σ i ⟨s, []⟩ (watchedResetQueue index) r w j) :
    r = .ok () <-> SectionGranted (σ (i + 1)) ∧
      (UInt32.ofNat (σ (i + 2)).garbage = 0 ∨ .ok 0 ∈ pollsOf w.events) := by
  rcases runsOn_watchedResetQueue hrun with ⟨hrefused, rc, rfl, _⟩ | ⟨hgranted, es, hes, hpoll⟩
  · refine iff_of_false (fun hr => ?_) fun h => hrefused h.1
    cases hr
  · have hpolls : pollsOf w.events = pollsOf es := by
      rw [hes]
      rfl
    rw [hpoll.ok_iff, hpolls, and_iff_right hgranted]

theorem queueResetWaits_iff (hinterval : 0 < s.queueResetPollIntervalMs)
    (hrun : Prog.RunsOn σ i ⟨s, []⟩ (watchedResetQueue index) r w j)
    (hwrote : .wrote (.ok ()) ∈ w.events) :
    QueueResetWaits s.queueResetTimeoutMs s.queueResetPollIntervalMs r w.events <->
      UInt32.ofNat (σ (i + 2)).garbage ≠ 0 ∧ 0 < s.queueResetTimeoutMs ∧
        (s.queueResetTimeoutMs <=
            s.queueResetTimeoutMs ⌈/⌉ s.queueResetPollIntervalMs *
              s.deviceResetPollIntervalMs ∨
          exists answer, answer ∈ pollsOf w.events ∧
            (answer = .ok 0 ∨ exists rc, answer = .error rc)) := by
  rcases runsOn_watchedResetQueue hrun with ⟨_, rc, _, hes⟩ | ⟨_, es, hes, hpoll⟩
  · rw [hes] at hwrote
    simp at hwrote
  have hpolls : pollsOf w.events = pollsOf es := by rw [hes]; rfl
  have hwaits : waitsOf w.events = waitsOf es := by rw [hes]; rfl
  constructor
  · intro h
    -- in each of the three ways to end, the register was read
    have hread : pollsOf es ≠ [] := by
      intro hnone
      have hdone : r ≠ .ok () := by
        intro hr
        have hmem := h.done hr
        rw [hpolls, hnone] at hmem
        cases hmem
      have hvalue : UInt32.ofNat (σ (i + 2)).garbage ≠ 0 :=
        fun hzero => hdone (hpoll.ok_iff.mpr (Or.inl hzero))
      rcases hpoll.timeout hinterval hvalue (by simp [hnone]) (by simp [hnone]) with
        ⟨hr, _⟩
      rcases (h.timedOut (by simp [hpolls, hnone]) hr).1 with ⟨value, hmem⟩
      rw [hpolls, hnone] at hmem
      cases hmem
    rcases hpoll.reads_iff.mp hread with ⟨hvalue, hpos⟩
    refine ⟨hvalue, hpos, ?_⟩
    by_cases hend : exists answer, answer ∈ pollsOf w.events ∧
        (answer = .ok 0 ∨ exists rc, answer = .error rc)
    · exact Or.inr hend
    · have hzero : .ok 0 ∉ pollsOf es := fun hmem =>
        hend ⟨_, hpolls ▸ hmem, Or.inl rfl⟩
      have hfail : forall rc, .error rc ∉ pollsOf es := fun rc hmem =>
        hend ⟨_, hpolls ▸ hmem, Or.inr ⟨rc, rfl⟩⟩
      rcases hpoll.timeout hinterval hvalue hzero hfail with ⟨hr, _, hsum⟩
      have hlong := (h.timedOut (hpolls ▸ hfail) hr).2.2
      rw [hwaits, hsum] at hlong
      exact Or.inl hlong
  · rintro ⟨hvalue, hpos, hlong⟩
    constructor
    · intro hr
      rw [hpolls]
      exact (hpoll.ok_iff.mp hr).resolve_left hvalue
    · intro hfail hr
      rw [hpolls] at hfail ⊢
      have hzero : .ok 0 ∉ pollsOf es := by
        intro hmem
        rw [hpoll.ok_iff.mpr (Or.inr hmem)] at hr
        cases hr
      rcases hpoll.timeout hinterval hvalue hzero hfail with ⟨_, _, hsum⟩
      refine ⟨?_, hzero, ?_⟩
      · rcases List.exists_mem_of_ne_nil _ (hpoll.reads_iff.mpr ⟨hvalue, hpos⟩) with
          ⟨answer, hmem⟩
        cases answer with
        | error rc => exact absurd hmem (hfail rc)
        | ok value => exact ⟨value, hmem⟩
      · rw [hwaits, hsum]
        rcases hlong with hlong | ⟨answer, hmem, rfl | ⟨rc, rfl⟩⟩
        · exact hlong
        · exact absurd (hpolls ▸ hmem) hzero
        · exact absurd (hpolls ▸ hmem) (hfail rc)
    · rw [hpolls]
      exact Nat.le_trans (hpoll.length_polls_le hinterval) (Nat.le_add_left _ _)
    · intro rc hmem
      exact hpoll.failed (hpolls ▸ hmem)

/-- The uninitialised value ends the wait before a read when it is 0, and the delays are
those of the device reset, whose sum may be shorter than the timeout. -/
theorem reset_queue_waits_iff {s' : VirtioSystem}
    (hinterval : 0 < s.queueResetPollIntervalMs)
    (hrun : Prog.RunsOn σ i s (virtioResetQueue index) r s' j) :
    exists es, Prog.RunsOn σ i ⟨s, []⟩ (watchedResetQueue index) r ⟨s', es⟩ j ∧
      (.wrote (.ok ()) ∈ es ->
        (QueueResetWaits s.queueResetTimeoutMs s.queueResetPollIntervalMs r es <->
          UInt32.ofNat (σ (i + 2)).garbage ≠ 0 ∧ 0 < s.queueResetTimeoutMs ∧
            (s.queueResetTimeoutMs <=
                s.queueResetTimeoutMs ⌈/⌉ s.queueResetPollIntervalMs *
                  s.deviceResetPollIntervalMs ∨
              exists answer, answer ∈ pollsOf es ∧
                (answer = .ok 0 ∨ exists rc, answer = .error rc)))) := by
  rcases (watches_resetQueue index).runsOn hrun [] with ⟨es, hwatched⟩
  exact ⟨es, hwatched, fun hwrote => queueResetWaits_iff hinterval hwatched hwrote⟩

end Queue

/-- The local variable happens to hold 1, and the device is done at the first read. -/
def freshAnswers (i : Nat) : VirtioEnv where
  garbage := if i = 2 then 1 else 0

def freshReset : Except Rc Unit × Watched VirtioSystem PollEvent × Nat :=
  (Prog.execOn freshAnswers 40 0 ⟨VirtioSystem.initial .mmio, []⟩
    (watchedResetQueue 0)).get (by decide +kernel)

theorem freshReset_runs :
    Prog.RunsOn freshAnswers 0 ⟨VirtioSystem.initial .mmio, []⟩ (watchedResetQueue 0)
      freshReset.1 freshReset.2.1 freshReset.2.2 :=
  Prog.runsOn_of_execOn (Option.some_get _).symm

theorem reset_queue_waits_fresh :
    QueueResetWaits 500 10 freshReset.1 freshReset.2.1.events := by
  rcases reset_queue_waits_iff (s := VirtioSystem.initial .mmio) (by decide)
    ((watches_resetQueue 0).of_runsOn freshReset_runs) with ⟨es, hrun, hiff⟩
  have heq := (freshReset_runs.unique hrun).2.1
  have hes : es = freshReset.2.1.events := congrArg Watched.events heq
  rw [← hes]
  refine (hiff ?_).mpr ⟨by decide, by decide, Or.inl (by decide)⟩
  rw [hes]
  exact List.mem_cons_self ..

/-- The local variable happens to hold 0. -/
def staleReset : Except Rc Unit × Watched VirtioSystem PollEvent × Nat :=
  (Prog.execOn (fun _ => {}) 10 0 ⟨VirtioSystem.initial .mmio, []⟩
    (watchedResetQueue 0)).get (by decide +kernel)

/-- The reset is reported as done, and the register was never read. -/
theorem reset_queue_returns_early :
    ¬ forall (σ : Nat -> VirtioEnv) i s index r w j, 0 < s.queueResetPollIntervalMs ->
      Prog.RunsOn σ i ⟨s, []⟩ (watchedResetQueue index) r w j ->
      .wrote (.ok ()) ∈ w.events ->
      QueueResetWaits s.queueResetTimeoutMs s.queueResetPollIntervalMs r w.events := by
  intro hclaim
  have hwaits := hclaim (fun _ => {}) 0 (VirtioSystem.initial .mmio) 0 staleReset.1
    staleReset.2.1 staleReset.2.2 (by decide)
    (Prog.runsOn_of_execOn (Option.some_get _).symm) (List.mem_cons_self ..)
  have hread := hwaits.done rfl
  cases hread

end Virtio
end QnxVirtio
