import QnxVirtio.Foundation.Watch
import QnxVirtio.Virtio.Polling
import QnxVirtio.Virtio.QueueSpecs
import QnxVirtio.Virtio.Init

/-!
# The loops of the resets

The two resets with their events noted, and their loops as waits.
-/

namespace QnxVirtio
namespace Virtio

open Foundation

abbrev WatchedProg (α : Type) : Type 1 :=
  Prog VirtioEnv (Watched VirtioSystem PollEvent) α

def watchedDelayFor (ms : Nat) : WatchedProg Unit :=
  Prog.iterate (fun remaining =>
    if 0 < remaining then do
      let unslept <- Prog.noted (fun unslept => [.slept remaining unslept])
        (Prog.action fun e s => some (e.unslept, s))
      pure (.inl unslept)
    else pure (.inr ())) ms

def watchedDeviceResetRound (state : UInt8 × Nat) :
    WatchedProg ((UInt8 × Nat) ⊕ Except Rc Unit) := do
  if state.1 ≠ 0 ∧ 0 < state.2 then
    let interval <- Prog.noted (fun interval => [.wait interval])
      (Prog.read VirtioSystem.deviceResetPollIntervalMs)
    watchedDelayFor interval
    let remaining := state.2 - min state.2 interval
    match <- Prog.noted (fun r =>
        [.spent state.2 (min state.2 interval), .polled (r.map UInt8.toUInt32)])
        virtioGetDeviceStatus with
    | .error rc => pure (.inr (.error rc))
    | .ok status => pure (.inl (status, remaining))
  else pure (.inr (if state.1 = 0 then .ok () else .error .ETIMEDOUT))

def watchedResetDevice : WatchedProg (Except Rc Unit) := do
  match <- Prog.noted (fun r => [.wrote r]) resetDevice with
  | .error rc => pure (.error rc)
  | .ok _ =>
      let timeout <- Prog.silent (Prog.read VirtioSystem.deviceResetTimeoutMs)
      match <- Prog.noted (fun r => [.polled (r.map UInt8.toUInt32)])
          virtioGetDeviceStatus with
      | .error rc => pure (.error rc)
      | .ok status => Prog.iterate watchedDeviceResetRound (status, timeout)

def watchedQueueResetRound (index : UInt16) (state : UInt32 × Nat) :
    WatchedProg ((UInt32 × Nat) ⊕ Except Rc Unit) := do
  if state.1 ≠ 0 ∧ 0 < state.2 then
    let interval <- Prog.noted (fun interval => [.wait interval])
      (Prog.read VirtioSystem.deviceResetPollIntervalMs)
    watchedDelayFor interval
    let interval <- Prog.silent (Prog.read VirtioSystem.queueResetPollIntervalMs)
    let remaining := state.2 - min state.2 interval
    match <- Prog.noted (fun r => [.spent state.2 (min state.2 interval), .polled r])
        (virtioGetQueueReset index) with
    | .error rc => pure (.inr (.error rc))
    | .ok value => pure (.inl (value, remaining))
  else pure (.inr (if state.1 = 0 then .ok () else .error .ETIMEDOUT))

def watchedResetQueue (index : UInt16) : WatchedProg (Except Rc Unit) := do
  let timeout <- Prog.silent (Prog.read VirtioSystem.queueResetTimeoutMs)
  match <- Prog.noted (fun r => [.wrote r]) (virtioSetQueueReset index) with
  | .error rc => pure (.error rc)
  | .ok _ =>
      let value <- Prog.silent (Prog.action fun e s => some (UInt32.ofNat e.garbage, s))
      Prog.iterate (watchedQueueResetRound index) (value, timeout)

theorem watches_delayFor (ms : Nat) : (delayFor ms).Watches (watchedDelayFor ms) := by
  refine Prog.watches_iterate (fun remaining => ?_) ms
  by_cases h : 0 < remaining
  · rw [if_pos h, if_pos h]
    exact (Prog.watches_noted _ _).bind fun _ => Prog.Watches.ret _
  · rw [if_neg h, if_neg h]
    exact Prog.Watches.ret _

theorem watches_deviceResetRound (state : UInt8 × Nat) :
    (deviceResetRound state).Watches (watchedDeviceResetRound state) := by
  unfold deviceResetRound watchedDeviceResetRound
  by_cases h : state.1 ≠ 0 ∧ 0 < state.2
  · rw [if_pos h, if_pos h]
    refine (Prog.watches_noted _ _).bind fun interval => ?_
    refine (watches_delayFor interval).bind fun _ => ?_
    refine (Prog.watches_noted _ _).bind fun r => ?_
    cases r with
    | error rc => exact Prog.Watches.ret _
    | ok status => exact Prog.Watches.ret _
  · rw [if_neg h, if_neg h]
    exact Prog.Watches.ret _

theorem watches_resetDevice : virtioResetDevice.Watches watchedResetDevice := by
  refine (Prog.watches_noted _ _).bind fun r => ?_
  cases r with
  | error rc => exact Prog.Watches.ret _
  | ok _ =>
      refine (Prog.watches_silent _).bind fun timeout => ?_
      refine (Prog.watches_noted _ _).bind fun r => ?_
      cases r with
      | error rc => exact Prog.Watches.ret _
      | ok status => exact Prog.watches_iterate watches_deviceResetRound _

theorem watches_queueResetRound (index : UInt16) (state : UInt32 × Nat) :
    (queueResetRound index state).Watches (watchedQueueResetRound index state) := by
  unfold queueResetRound watchedQueueResetRound
  by_cases h : state.1 ≠ 0 ∧ 0 < state.2
  · rw [if_pos h, if_pos h]
    refine (Prog.watches_noted _ _).bind fun interval => ?_
    refine (watches_delayFor interval).bind fun _ => ?_
    refine (Prog.watches_silent _).bind fun interval => ?_
    refine (Prog.watches_noted _ _).bind fun r => ?_
    cases r with
    | error rc => exact Prog.Watches.ret _
    | ok value => exact Prog.Watches.ret _
  · rw [if_neg h, if_neg h]
    exact Prog.Watches.ret _

theorem watches_resetQueue (index : UInt16) :
    (virtioResetQueue index).Watches (watchedResetQueue index) := by
  refine (Prog.watches_silent _).bind fun timeout => ?_
  refine (Prog.watches_noted _ _).bind fun r => ?_
  cases r with
  | error rc => exact Prog.Watches.ret _
  | ok _ =>
      refine (Prog.watches_silent _).bind fun value => ?_
      exact Prog.watches_iterate (watches_queueResetRound index) _

/-!
## Runs
-/

section Runs

variable {σ : Nat -> VirtioEnv} {i j : Nat} {w w' : Watched VirtioSystem PollEvent}

/-- The intervals and the timeout of the device reset are as they were. -/
structure SameIntervals (s s' : VirtioSystem) : Prop where
  device : s'.deviceResetPollIntervalMs = s.deviceResetPollIntervalMs
  queue : s'.queueResetPollIntervalMs = s.queueResetPollIntervalMs
  timeout : s'.deviceResetTimeoutMs = s.deviceResetTimeoutMs

theorem SameIntervals.trans {s s' s'' : VirtioSystem} (h : SameIntervals s s')
    (h' : SameIntervals s' s'') : SameIntervals s s'' :=
  ⟨h'.device.trans h.device, h'.queue.trans h.queue, h'.timeout.trans h.timeout⟩

theorem queueInvariant_sameIntervals (s : VirtioSystem) :
    QueueInvariant (SameIntervals s) where
  host _ _ h := ⟨h.device, h.queue, h.timeout⟩
  locked _ _ h := ⟨h.device, h.queue, h.timeout⟩
  access _ _ _ h := ⟨h.device, h.queue, h.timeout⟩
  write _ _ _ _ _ h := ⟨h.device, h.queue, h.timeout⟩
  select _ _ h := ⟨h.device, h.queue, h.timeout⟩
  windows _ _ h := ⟨h.device, h.queue, h.timeout⟩

theorem sameIntervals_transportOp {α : Type} {heard : VirtioEnv -> Heard}
    {event : VirtioEnv -> StatusEvent} {value : VirtioEnv -> α} {s s' : VirtioSystem}
    {r : Except Rc α} (hrun : Prog.RunsOn σ i s (transportOp heard event value) r s' j) :
    SameIntervals s s' := by
  have hf := (Prog.runsOn_action_iff.mp hrun).1
  dsimp only at hf
  split at hf
  · cases hf
    exact ⟨rfl, rfl, rfl⟩
  · cases hf
    exact ⟨rfl, rfl, rfl⟩

theorem runsOn_delayFor {ms : Nat} {u : Unit}
    (hrun : Prog.RunsOn σ i w (watchedDelayFor ms) u w' j) :
    w'.state = w.state ∧ exists naps, Naps naps ∧ w'.events = w.events ++ naps := by
  have hnil : Naps [] := fun _ he => by cases he
  refine Prog.runs_iterate_inv
    (J := fun _ w1 => w1.state = w.state ∧ exists naps, Naps naps ∧
      w1.events = w.events ++ naps)
    (Q := fun _ w1 => w1.state = w.state ∧ exists naps, Naps naps ∧
      w1.events = w.events ++ naps) ?_ ⟨rfl, [], hnil, by simp⟩ hrun.runs
  rintro remaining w1 r w2 ⟨hstate, naps, hnaps, hevents⟩ hbody
  by_cases hpos : 0 < remaining
  · rw [if_pos hpos] at hbody
    rcases Prog.runs_bind_iff.mp hbody with ⟨unslept, w3, hsleep, hret⟩
    rcases Prog.runs_ret_iff.mp hret with ⟨rfl, rfl⟩
    rcases Prog.runs_action_iff.mp hsleep with ⟨e, _, hf⟩
    cases hf
    refine ⟨hstate, naps ++ [.slept remaining e.unslept], ?_, ?_⟩
    · intro event hmem
      rcases List.mem_append.mp hmem with hmem | hmem
      · exact hnaps event hmem
      · exact ⟨remaining, e.unslept, List.mem_singleton.mp hmem⟩
    · change w1.events ++ _ = _
      rw [hevents, List.append_assoc]
  · rw [if_neg hpos] at hbody
    rcases Prog.runs_ret_iff.mp hbody with ⟨rfl, rfl⟩
    exact ⟨hstate, naps, hnaps, hevents⟩

theorem runsOn_wait {α : Type} {k : Nat -> WatchedProg α} {a : α}
    (hrun : Prog.RunsOn σ i w (do
      let interval <- Prog.noted (fun interval => [.wait interval])
        (Prog.read VirtioSystem.deviceResetPollIntervalMs)
      watchedDelayFor interval
      k interval) a w' j) :
    exists w1 i1 naps, w1.state = w.state ∧ Naps naps ∧
      w1.events = w.events ++ .wait w.state.deviceResetPollIntervalMs :: naps ∧
      Prog.RunsOn σ i1 w1 (k w.state.deviceResetPollIntervalMs) a w' j := by
  rcases Prog.runsOn_bind_iff.mp hrun with ⟨interval, w1, _, hread, hrun⟩
  rcases Prog.runsOn_noted_iff.mp hread with ⟨hread, hevents⟩
  rcases Prog.runsOn_read_iff.mp hread with ⟨rfl, hstate, rfl⟩
  rcases Prog.runsOn_bind_iff.mp hrun with ⟨u, w2, i2, hdelay, hrun⟩
  rcases runsOn_delayFor hdelay with ⟨hstate2, naps, hnaps, hevents2⟩
  refine ⟨w2, i2, naps, hstate2.trans hstate, hnaps, ?_, hrun⟩
  rw [hevents2, hevents, List.append_assoc]
  rfl

theorem pollStep_device {x : UInt8 × Nat} {r : (UInt8 × Nat) ⊕ Except Rc Unit}
    (hrun : Prog.RunsOn σ i w (watchedDeviceResetRound x) r w' j) :
    SameIntervals w.state w'.state ∧ exists es, w'.events = w.events ++ es ∧
      PollStep w.state.deviceResetPollIntervalMs w.state.deviceResetPollIntervalMs
        (x.1.toUInt32, x.2) (r.map (Prod.map UInt8.toUInt32 id) id) es := by
  rcases x with ⟨status, remaining⟩
  have hvalue : status.toUInt32 = 0 <-> status = 0 := by
    constructor
    · intro hzero
      simpa using congrArg UInt32.toUInt8 hzero
    · rintro rfl
      rfl
  unfold watchedDeviceResetRound at hrun
  by_cases hgo : status ≠ 0 ∧ 0 < remaining
  · rw [if_pos hgo] at hrun
    rcases runsOn_wait hrun with ⟨w1, i1, naps, hstate, hnaps, hevents, hrun⟩
    rcases Prog.runsOn_bind_iff.mp hrun with ⟨answer, w2, _, hget, hrun⟩
    rcases Prog.runsOn_noted_iff.mp hget with ⟨hget, hevents2⟩
    have hsame := sameIntervals_transportOp hget
    rw [hstate] at hsame
    have hes : w2.events = w.events ++
        (.wait w.state.deviceResetPollIntervalMs :: naps ++
          [.spent remaining (min remaining w.state.deviceResetPollIntervalMs),
            .polled (answer.map UInt8.toUInt32)]) := by
      rw [hevents2, hevents, List.append_assoc]
    have hstep := @PollStep.read w.state.deviceResetPollIntervalMs
      w.state.deviceResetPollIntervalMs _ _ _ (answer.map UInt8.toUInt32)
      (fun hzero => hgo.1 (hvalue.mp hzero)) hgo.2 hnaps
    cases answer with
    | error rc =>
        rcases Prog.runsOn_ret_iff.mp hrun with ⟨rfl, rfl, rfl⟩
        exact ⟨hsame, _, hes, hstep⟩
    | ok status' =>
        rcases Prog.runsOn_ret_iff.mp hrun with ⟨rfl, rfl, rfl⟩
        exact ⟨hsame, _, hes, hstep⟩
  · rw [if_neg hgo] at hrun
    rcases Prog.runsOn_ret_iff.mp hrun with ⟨rfl, rfl, rfl⟩
    refine ⟨⟨rfl, rfl, rfl⟩, [], by simp, ?_⟩
    have hstep := @PollStep.finished w'.state.deviceResetPollIntervalMs
      w'.state.deviceResetPollIntervalMs status.toUInt32 remaining
      (fun hread => hgo ⟨fun hzero => hread.1 (hvalue.mpr hzero), hread.2⟩)
    simp only [hvalue] at hstep
    exact hstep

theorem pollStep_queue {index : UInt16} {x : UInt32 × Nat}
    {r : (UInt32 × Nat) ⊕ Except Rc Unit}
    (hrun : Prog.RunsOn σ i w (watchedQueueResetRound index x) r w' j) :
    SameIntervals w.state w'.state ∧ exists es, w'.events = w.events ++ es ∧
      PollStep w.state.deviceResetPollIntervalMs w.state.queueResetPollIntervalMs
        x r es := by
  rcases x with ⟨value, remaining⟩
  unfold watchedQueueResetRound at hrun
  by_cases hgo : value ≠ 0 ∧ 0 < remaining
  · rw [if_pos hgo] at hrun
    rcases runsOn_wait hrun with ⟨w1, i1, naps, hstate, hnaps, hevents, hrun⟩
    rcases Prog.runsOn_bind_iff.mp hrun with ⟨interval, w2, _, hread, hrun⟩
    rcases Prog.runsOn_silent hread with ⟨hread, hevents2⟩
    rcases Prog.runsOn_read_iff.mp hread with ⟨rfl, hstate2, rfl⟩
    rcases Prog.runsOn_bind_iff.mp hrun with ⟨answer, w3, _, hget, hrun⟩
    rcases Prog.runsOn_noted_iff.mp hget with ⟨hget, hevents3⟩
    have hsame := (queueInvariant_sameIntervals w.state).virtioGetQueueReset index _ _ _ _
      hget.runs (by rw [hstate2, hstate]; exact ⟨rfl, rfl, rfl⟩)
    have hes : w3.events = w.events ++
        (.wait w.state.deviceResetPollIntervalMs :: naps ++
          [.spent remaining (min remaining w.state.queueResetPollIntervalMs),
            .polled answer]) := by
      rw [hevents3, hevents2, hevents, hstate, List.append_assoc]
    have hstep := @PollStep.read w.state.deviceResetPollIntervalMs
      w.state.queueResetPollIntervalMs _ _ _ answer hgo.1 hgo.2 hnaps
    cases answer with
    | error rc =>
        rcases Prog.runsOn_ret_iff.mp hrun with ⟨rfl, rfl, rfl⟩
        exact ⟨hsame, _, hes, hstep⟩
    | ok value' =>
        rcases Prog.runsOn_ret_iff.mp hrun with ⟨rfl, rfl, rfl⟩
        rw [hstate]
        exact ⟨hsame, _, hes, hstep⟩
  · rw [if_neg hgo] at hrun
    rcases Prog.runsOn_ret_iff.mp hrun with ⟨rfl, rfl, rfl⟩
    exact ⟨⟨rfl, rfl, rfl⟩, [], by simp, PollStep.finished hgo⟩

theorem pollRun_of_iterate {γ : Type} {round : γ -> WatchedProg (γ ⊕ Except Rc Unit)}
    (view : γ -> UInt32 × Nat) {wait interval : VirtioSystem -> Nat}
    (hwait : forall s s', SameIntervals s s' -> wait s' = wait s ∧ interval s' = interval s)
    (hround : forall (σ : Nat -> VirtioEnv) x i w r w' j,
      Prog.RunsOn σ i w (round x) r w' j ->
      SameIntervals w.state w'.state ∧ exists es, w'.events = w.events ++ es ∧
        PollStep (wait w.state) (interval w.state) (view x) (r.map view id) es)
    {x : γ} {r : Except Rc Unit} (hrun : Prog.RunsOn σ i w (Prog.iterate round x) r w' j) :
    exists es, w'.events = w.events ++ es ∧
      PollRun (wait w.state) (interval w.state) (view x) r es := by
  -- a wait from the value that the loop has reached completes the events so far
  refine Prog.runs_iterate_inv
    (J := fun y w1 => SameIntervals w.state w1.state ∧
      exists es, w1.events = w.events ++ es ∧ forall r' es',
        PollRun (wait w.state) (interval w.state) (view y) r' es' ->
        PollRun (wait w.state) (interval w.state) (view x) r' (es ++ es'))
    (Q := fun r' w1 => exists es, w1.events = w.events ++ es ∧
      PollRun (wait w.state) (interval w.state) (view x) r' es)
    ?_ ⟨⟨rfl, rfl, rfl⟩, [], by simp, fun _ _ h => h⟩ hrun.runs
  intro y w1 out w2 hJ hbody
  rcases hJ with ⟨hsame, es, hes, hpoll⟩
  rcases hbody.exists_runsOn 0 with ⟨σ', k, hbody⟩
  rcases hround σ' y 0 w1 out w2 k hbody with ⟨hsame2, es2, hes2, hstep⟩
  have hevents : w2.events = w.events ++ (es ++ es2) := by
    rw [hes2, hes, List.append_assoc]
  rcases hwait _ _ hsame with ⟨hwait1, hinterval1⟩
  rw [hwait1, hinterval1] at hstep
  cases out with
  | inr r' => exact ⟨_, hevents, hpoll r' es2 (PollRun.last hstep)⟩
  | inl z =>
      refine ⟨hsame.trans hsame2, _, hevents, fun r' es' hrest => ?_⟩
      rw [List.append_assoc]
      exact hpoll r' _ (PollRun.again hstep hrest)

theorem pollRun_device {x : UInt8 × Nat} {r : Except Rc Unit}
    (hrun : Prog.RunsOn σ i w (Prog.iterate watchedDeviceResetRound x) r w' j) :
    exists es, w'.events = w.events ++ es ∧
      PollRun w.state.deviceResetPollIntervalMs w.state.deviceResetPollIntervalMs
        (x.1.toUInt32, x.2) r es :=
  pollRun_of_iterate (fun x => (x.1.toUInt32, x.2)) (fun _ _ h => ⟨h.device, h.device⟩)
    (fun _ _ _ _ _ _ _ h => pollStep_device h) hrun

theorem pollRun_queue {index : UInt16} {x : UInt32 × Nat} {r : Except Rc Unit}
    (hrun : Prog.RunsOn σ i w (Prog.iterate (watchedQueueResetRound index) x) r w' j) :
    exists es, w'.events = w.events ++ es ∧
      PollRun w.state.deviceResetPollIntervalMs w.state.queueResetPollIntervalMs x r es := by
  refine pollRun_of_iterate id (fun _ _ h => ⟨h.device, h.queue⟩)
    (fun _ x _ w r _ _ h => ?_) hrun
  rw [Sum.map_id_id]
  exact pollStep_queue h

end Runs

end Virtio
end QnxVirtio
