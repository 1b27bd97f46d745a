import QnxVirtio.Virtio.ResetLoops

/-!
# Reset of the device

The reset of the device ends, and its result is what the device answered.
-/

namespace QnxVirtio
namespace Virtio

open Foundation

/-- What a caller of the device reset expects, once `written` was the answer to the
request. -/
structure DeviceResetOutcome (timeout interval : Nat) (written r : Except Rc Unit)
    (es : List PollEvent) : Prop where
  writeFailed : forall rc, written = .error rc -> r = .error rc ∧ es = []
  readFailed : forall rc, .error rc ∈ pollsOf es -> r = .error rc
  reads : (pollsOf es).length <= 1 + timeout ⌈/⌉ interval
  spent : forall left amount, .spent left amount ∈ es -> amount <= left
  done : r = .ok () <-> .ok 0 ∈ pollsOf es
  doneLast : .ok 0 ∉ (pollsOf es).dropLast
  timedOut : written = .ok () -> (forall rc, .error rc ∉ pollsOf es) ->
    (r = .error .ETIMEDOUT <-> .ok 0 ∉ pollsOf es)
  waited : written = .ok () -> (forall rc, .error rc ∉ pollsOf es) ->
    .ok 0 ∉ pollsOf es -> (pollsOf es).length = 1 + timeout ⌈/⌉ interval

theorem PollRun.outcome {interval timeout : Nat} {status : UInt32} {r : Except Rc Unit}
    {es : List PollEvent} (hinterval : 0 < interval)
    (h : PollRun interval interval (status, timeout) r es) :
    DeviceResetOutcome timeout interval (.ok ()) r (.polled (.ok status) :: es) := by
  have hpolls : pollsOf (.polled (.ok status) :: es) = .ok status :: pollsOf es := rfl
  have hdone : r = .ok () <-> .ok 0 ∈ pollsOf (.polled (.ok status) :: es) := by
    rw [h.ok_iff, hpolls]
    simp [eq_comm]
  have hlong : (forall rc, .error rc ∉ pollsOf (.polled (.ok status) :: es)) ->
      .ok 0 ∉ pollsOf (.polled (.ok status) :: es) ->
      r = .error .ETIMEDOUT ∧ (pollsOf es).length = timeout ⌈/⌉ interval := by
    intro hfail hzero
    rw [hpolls] at hfail hzero
    rcases h.timeout hinterval (fun hstatus => hzero (by simp [show status = 0 from hstatus]))
      (fun hmem => hzero (by simp [hmem])) (fun rc hmem => hfail rc (by simp [hmem])) with
      ⟨hr, hlength, _⟩
    exact ⟨hr, hlength⟩
  refine {
    writeFailed := fun rc hrc => by cases hrc
    readFailed := ?_
    reads := ?_
    spent := ?_
    done := hdone
    doneLast := ?_
    timedOut := ?_
    waited := ?_ }
  · intro rc hmem
    rw [hpolls] at hmem
    exact h.failed (by simpa using hmem)
  · rw [hpolls, List.length_cons, Nat.add_comm]
    exact Nat.add_le_add_left (h.length_polls_le hinterval) 1
  · intro left amount hmem
    exact h.spent left amount (by simpa using hmem)
  · rw [hpolls]
    cases hes : pollsOf es with
    | nil => exact List.not_mem_nil
    | cons p ps =>
        have hstatus : status ≠ 0 := (h.reads_iff.mp (by simp [hes])).1
        intro hmem
        rcases List.mem_cons.mp hmem with heq | hmem
        · exact hstatus (Except.ok.inj heq).symm
        · exact h.zero_last (hes ▸ hmem)
  · intro _ hfail
    constructor
    · intro hr hzero
      rw [hdone.mpr hzero] at hr
      cases hr
    · exact fun hzero => (hlong hfail hzero).1
  · intro _ hfail hzero
    rw [hpolls, List.length_cons, (hlong hfail hzero).2, Nat.add_comm]

/-- `delay` sleeps for a while, at least. -/
def DelaysShrink (w : Watched VirtioSystem PollEvent) : Prop :=
  forall ms unslept, .slept ms unslept ∈ w.events -> unslept < ms

def PollEvent.shrinks : PollEvent -> Bool
  | .slept ms unslept => unslept < ms
  | _ => true

theorem delaysShrink_of_all {w : Watched VirtioSystem PollEvent}
    (h : w.events.all PollEvent.shrinks = true) : DelaysShrink w := by
  intro ms unslept hmem
  exact of_decide_eq_true (List.all_eq_true.mp h _ hmem)

section Ends

variable {σ : Nat -> VirtioEnv} {i : Nat} {w : Watched VirtioSystem PollEvent}

theorem noted_ends {β : Type} (note : β -> List PollEvent)
    {f : VirtioEnv -> VirtioSystem -> Option (β × VirtioSystem)}
    (hf : forall e s, exists out, f e s = some out) :
    exists b w', Prog.RunsOn σ i w (Prog.noted note (Prog.action f)) b w' (i + 1) := by
  rcases hf (σ i) w.state with ⟨⟨b, s⟩, hout⟩
  exact ⟨b, ⟨s, _⟩, Prog.runsOn_noted_iff.mpr
    ⟨Prog.runsOn_action_iff.mpr ⟨hout, rfl⟩, rfl⟩⟩

theorem transportOp_some {α : Type} (heard : VirtioEnv -> Heard)
    (event : VirtioEnv -> StatusEvent) (value : VirtioEnv -> α) (note : _)
    (i : Nat) (w : Watched VirtioSystem PollEvent) :
    exists r w', Prog.RunsOn σ i w
      (Prog.noted note (transportOp heard event value)) r w' (i + 1) := by
  refine noted_ends note fun e s => ?_
  dsimp only
  split
  · exact ⟨_, rfl⟩
  · exact ⟨_, rfl⟩

theorem delayFor_ends (ms : Nat)
    (h : Prog.Along σ DelaysShrink i w (watchedDelayFor ms)) :
    exists u w' j, Prog.RunsOn σ i w (watchedDelayFor ms) u w' j := by
  refine Prog.exists_runsOn_iterate id (fun _ => True) (fun remaining i w _ h => ?_)
    ms i w trivial h
  have hround := h.round
  by_cases hpos : 0 < remaining
  · simp only [if_pos hpos] at hround ⊢
    have hsleep : Prog.RunsOn σ i w
        (Prog.noted (fun unslept => [PollEvent.slept remaining unslept])
          (Prog.action fun e s => some (e.unslept, s))) (σ i).unslept
        ⟨w.state, w.events ++ [.slept remaining (σ i).unslept]⟩ (i + 1) :=
      Prog.runsOn_noted_iff.mpr ⟨Prog.runsOn_action_iff.mpr ⟨rfl, rfl⟩, rfl⟩
    refine ⟨_, _, _, Prog.runsOn_bind_iff.mpr ⟨_, _, _, hsleep, Prog.RunsOn.ret _ _ _⟩, ?_⟩
    rintro y hy
    cases hy
    exact ⟨trivial, hround.bind_left.final hsleep remaining (σ i).unslept (by simp)⟩
  · simp only [if_neg hpos]
    refine ⟨_, _, _, Prog.RunsOn.ret _ _ _, ?_⟩
    rintro y hy
    cases hy

theorem deviceResetRound_ends (x : UInt8 × Nat)
    (h : Prog.Along σ DelaysShrink i w (watchedDeviceResetRound x)) :
    exists r w' j, Prog.RunsOn σ i w (watchedDeviceResetRound x) r w' j := by
  unfold watchedDeviceResetRound at h ⊢
  by_cases hgo : x.1 ≠ 0 ∧ 0 < x.2
  · rw [if_pos hgo] at h ⊢
    have hread : exists b w1, Prog.RunsOn σ i w
        (Prog.noted (fun interval => [PollEvent.wait interval])
          (Prog.read VirtioSystem.deviceResetPollIntervalMs)) b w1 (i + 1) :=
      noted_ends _ fun _ s => ⟨_, rfl⟩
    rcases hread with ⟨interval, w1, hread⟩
    have h := h.bind_right hread
    rcases delayFor_ends interval h.bind_left with ⟨u, w2, k, hdelay⟩
    have hget := transportOp_some (fun e => .poll (e.transport 0) e.reg.toUInt8)
      (fun e => .read e.reg.toUInt8) (fun e => e.reg.toUInt8)
      (σ := σ) (fun r => [.spent x.2 (min x.2 interval), .polled (r.map UInt8.toUInt32)])
      k w2
    rcases hget with ⟨r, w3, hget⟩
    cases r with
    | error rc =>
        exact ⟨_, _, _, Prog.runsOn_bind_iff.mpr ⟨_, _, _, hread,
          Prog.runsOn_bind_iff.mpr ⟨_, _, _, hdelay,
            Prog.runsOn_bind_iff.mpr ⟨_, _, _, hget, Prog.RunsOn.ret _ _ _⟩⟩⟩⟩
    | ok status =>
        exact ⟨_, _, _, Prog.runsOn_bind_iff.mpr ⟨_, _, _, hread,
          Prog.runsOn_bind_iff.mpr ⟨_, _, _, hdelay,
            Prog.runsOn_bind_iff.mpr ⟨_, _, _, hget, Prog.RunsOn.ret _ _ _⟩⟩⟩⟩
  · rw [if_neg hgo]
    exact ⟨_, _, _, Prog.RunsOn.ret _ _ _⟩

theorem deviceReset_ends (x : UInt8 × Nat) (hinterval : 0 < w.state.deviceResetPollIntervalMs)
    (h : Prog.Along σ DelaysShrink i w (Prog.iterate watchedDeviceResetRound x)) :
    exists r w' j,
      Prog.RunsOn σ i w (Prog.iterate watchedDeviceResetRound x) r w' j := by
  refine Prog.exists_runsOn_iterate Prod.snd
    (fun w => 0 < w.state.deviceResetPollIntervalMs) (fun x i w hinterval h => ?_)
    x i w hinterval h
  rcases deviceResetRound_ends x h.round with ⟨r, w1, k, hround⟩
  rcases pollStep_device hround with ⟨hsame, es, _, hstep⟩
  refine ⟨r, w1, k, hround, ?_⟩
  rintro y rfl
  rcases hstep.next with ⟨_, hpos, hleft, _⟩
  constructor
  · rw [hsame.device]
    exact hinterval
  · change y.2 = x.2 - min x.2 w.state.deviceResetPollIntervalMs at hleft
    change 0 < x.2 at hpos
    omega

theorem resetDevice_ends (hinterval : 0 < w.state.deviceResetPollIntervalMs)
    (h : Prog.Along σ DelaysShrink i w watchedResetDevice) :
    exists r w' j, Prog.RunsOn σ i w watchedResetDevice r w' j := by
  rcases transportOp_some (σ := σ) (fun e => .reset (e.transport 0)) (fun _ => .reset)
    (fun _ => ()) (fun r => [.wrote r]) i w with ⟨r, w1, hwrite⟩
  have h := h.bind_right hwrite
  cases r with
  | error rc =>
      exact ⟨_, _, _, Prog.runsOn_bind_iff.mpr ⟨_, _, _, hwrite, Prog.RunsOn.ret _ _ _⟩⟩
  | ok u =>
      have hread : Prog.RunsOn σ (i + 1) w1
          (Prog.silent (Prog.read VirtioSystem.deviceResetTimeoutMs))
          w1.state.deviceResetTimeoutMs w1 (i + 1 + 1) :=
        Prog.runsOn_action_iff.mpr ⟨rfl, rfl⟩
      have h := h.bind_right hread
      rcases transportOp_some (σ := σ) (fun e => .poll (e.transport 0) e.reg.toUInt8)
        (fun e => .read e.reg.toUInt8) (fun e => e.reg.toUInt8)
        (fun r => [.polled (r.map UInt8.toUInt32)]) (i + 1 + 1) w1 with ⟨r, w2, hget⟩
      have h := h.bind_right hget
      cases r with
      | error rc =>
          exact ⟨_, _, _, Prog.runsOn_bind_iff.mpr ⟨_, _, _, hwrite,
            Prog.runsOn_bind_iff.mpr ⟨_, _, _, hread,
              Prog.runsOn_bind_iff.mpr ⟨_, _, _, hget, Prog.RunsOn.ret _ _ _⟩⟩⟩⟩
      | ok status =>
          have hsame1 := sameIntervals_transportOp (Prog.runsOn_noted_iff.mp hwrite).1
          have hsame2 := sameIntervals_transportOp (Prog.runsOn_noted_iff.mp hget).1
          rcases deviceReset_ends (status, w1.state.deviceResetTimeoutMs)
            (by rw [hsame2.device, hsame1.device]; exact hinterval) h with ⟨r, w3, j, hloop⟩
          exact ⟨_, _, _, Prog.runsOn_bind_iff.mpr ⟨_, _, _, hwrite,
            Prog.runsOn_bind_iff.mpr ⟨_, _, _, hread,
              Prog.runsOn_bind_iff.mpr ⟨_, _, _, hget, hloop⟩⟩⟩⟩

theorem resetDevice_outcome {s : VirtioSystem} {r : Except Rc Unit} {j : Nat}
    (hinterval : 0 < s.deviceResetPollIntervalMs)
    (hrun : Prog.RunsOn σ i ⟨s, []⟩ watchedResetDevice r w j) :
    exists written es, w.events = .wrote written :: es ∧
      DeviceResetOutcome s.deviceResetTimeoutMs s.deviceResetPollIntervalMs written r es := by
  rcases Prog.runsOn_bind_iff.mp hrun with ⟨written, w1, _, hwrite, hrun⟩
  rcases Prog.runsOn_noted_iff.mp hwrite with ⟨hwrite, hevents1⟩
  have hsame1 := sameIntervals_transportOp hwrite
  cases written with
  | error rc =>
      rcases Prog.runsOn_ret_iff.mp hrun with ⟨rfl, rfl, rfl⟩
      refine ⟨_, [], hevents1, ?_⟩
      constructor
      · rintro rc' heq
        cases heq
        exact ⟨rfl, rfl⟩
      all_goals simp [pollsOf]
  | ok u =>
      rcases Prog.runsOn_bind_iff.mp hrun with ⟨timeout, w2, _, hread, hrun⟩
      rcases Prog.runsOn_silent hread with ⟨hread, hevents2⟩
      rcases Prog.runsOn_read_iff.mp hread with ⟨rfl, hstate2, rfl⟩
      rcases Prog.runsOn_bind_iff.mp hrun with ⟨answer, w3, _, hget, hrun⟩
      rcases Prog.runsOn_noted_iff.mp hget with ⟨hget, hevents3⟩
      have hsame3 := sameIntervals_transportOp hget
      rw [hevents2, hevents1] at hevents3
      cases answer with
      | error rc =>
          rcases Prog.runsOn_ret_iff.mp hrun with ⟨rfl, rfl, rfl⟩
          refine ⟨.ok (), _, hevents3, ?_⟩
          constructor
          all_goals simp [pollsOf, Except.map]
      | ok status =>
          have hdevice : w3.state.deviceResetPollIntervalMs =
              s.deviceResetPollIntervalMs := by
            rw [hsame3.device, hstate2, hsame1.device]
          rcases pollRun_device hrun with
            ⟨es, hes, hpoll⟩
          rw [hdevice] at hpoll
          refine ⟨.ok (), .polled (.ok status.toUInt32) :: es, ?_, ?_⟩
          · rw [hes, hevents3]
            rfl
          · rw [← hsame1.timeout]
            exact PollRun.outcome hinterval hpoll

end Ends

/-- The second read returns 0, and the delay before it is interrupted once. -/
def busyAnswers (i : Nat) : VirtioEnv where
  reg := if i < 4 then 1 else 0
  unslept := if i = 4 then 3 else 0

def busyStates : List (Watched VirtioSystem PollEvent) :=
  (Prog.statesOn busyAnswers 40 0 ⟨VirtioSystem.initial .mmio, []⟩
    watchedResetDevice).get (by decide +kernel)

end Virtio
end QnxVirtio
