import QnxVirtio.Virtio.InitLedger

/-!
# DRIVER_OK after every step

`virtio_gpio_init` discards the results of the reset, of all additions to the device
status, of the configuration read and of enabling the queue.  What it does to the device
is a function of what it is told, and DRIVER_OK comes only after success of every step
exactly when it is told so.
-/

namespace QnxVirtio
namespace Virtio

open Foundation

/-!
## Orders of events
-/

section Orders

variable {α : Type} {a x : α} {before after : List α}

theorem mem_before_of_sublist (ha : a ∉ after)
    (h : [x, a].Sublist (before ++ a :: after)) : x ∈ before := by
  rcases List.sublist_append_iff.mp h with ⟨l1, l2, heq, h1, h2⟩
  cases l1 with
  | nil =>
      cases heq
      cases h2 with
      | cons _ h2 => exact absurd (h2.subset (by simp)) ha
      | cons_cons _ h2 => exact absurd (h2.subset (by simp)) ha
  | cons y rest =>
      rw [(List.cons.inj heq).1]
      exact h1.subset (List.mem_cons_self ..)

theorem mem_after_of_sublist (ha : a ∉ before)
    (h : [a, x].Sublist (before ++ a :: after)) : x ∈ after := by
  rcases List.sublist_append_iff.mp h with ⟨l1, l2, heq, h1, h2⟩
  cases l1 with
  | nil =>
      cases heq
      exact List.singleton_sublist.mp (List.cons_sublist_cons.mp h2)
  | cons y rest =>
      rw [(List.cons.inj heq).1] at ha
      exact absurd (h1.subset (List.mem_cons_self ..)) ha

end Orders

theorem or_and_of_disjoint {status bit mask : UInt8} (h : bit &&& mask = 0) :
    (status ||| bit) &&& mask = status &&& mask := by
  apply UInt8.toBitVec_inj.mp
  have hbits : bit.toBitVec &&& mask.toBitVec = 0#8 := congrArg UInt8.toBitVec h
  simp only [UInt8.toBitVec_and, UInt8.toBitVec_or, BitVec.and_or_distrib_right, hbits,
    BitVec.or_zero]

/-!
## What is done and what is told
-/

namespace Heard

/-- What an operation does to the device, given its answers. -/
def effects : Heard -> List StatusEvent
  | .reset op => if op = .EOK then [.reset] else []
  | .poll get status => if get = .EOK then [.read status] else []
  | .add bit lock get status set =>
      if lock = .EOK ∧ get = .EOK then
        if set = .EOK then [.read status, .write (status ||| bit), .added bit]
        else [.read status]
      else []
  | .config op => if op = .EOK then [.config] else []
  | .created index => [.created index]
  | .enable index lock select op =>
      if lock = .EOK ∧ select = .EOK ∧ op = .EOK then [.enabled index] else []

variable {h : Heard}

theorem mem_effects_reset : .reset ∈ h.effects <-> h = .reset .EOK := by
  cases h <;> simp only [effects] <;> repeat' split
  all_goals simp_all

theorem mem_effects_config : .config ∈ h.effects <-> h = .config .EOK := by
  cases h <;> simp only [effects] <;> repeat' split
  all_goals simp_all

theorem mem_effects_created {index : UInt16} :
    .created index ∈ h.effects <-> h = .created index := by
  cases h <;> simp only [effects] <;> repeat' split
  all_goals simp_all [eq_comm]

theorem mem_effects_enabled {index : UInt16} :
    .enabled index ∈ h.effects <-> h = .enable index .EOK .EOK .EOK := by
  cases h <;> simp only [effects] <;> repeat' split
  all_goals simp_all [eq_comm]

theorem mem_effects_added {bit : UInt8} :
    .added bit ∈ h.effects <-> exists status, h = .add bit .EOK .EOK status .EOK := by
  cases h <;> simp only [effects] <;> repeat' split
  all_goals simp_all [eq_comm]

theorem mem_effects_write {written : UInt8} :
    .write written ∈ h.effects <->
      exists bit status, h = .add bit .EOK .EOK status .EOK ∧
        written = status ||| bit := by
  cases h <;> simp only [effects] <;> repeat' split
  all_goals simp_all

theorem mem_effects_read {status : UInt8} :
    .read status ∈ h.effects <->
      h = .poll .EOK status ∨ exists bit set, h = .add bit .EOK .EOK status set := by
  cases h <;> simp only [effects] <;> repeat' split
  all_goals simp_all [eq_comm]

end Heard

/-- What was told between two states, and that the device saw its effects. -/
structure Told (s s' : VirtioSystem) (l : List Heard) : Prop where
  heard : s'.heard = s.heard ++ l
  trace : s'.trace = s.trace ++ l.flatMap Heard.effects

section Runs

variable {ok : VirtioEnv -> Prop} {s s1 s' : VirtioSystem} {l l' : List Heard}

theorem Told.trans (h : Told s s1 l) (h' : Told s1 s' l') : Told s s' (l ++ l') := by
  constructor
  · rw [h'.heard, h.heard, List.append_assoc]
  · rw [h'.trace, h.trace, List.append_assoc, List.flatMap_append]

theorem told_nil_of_preserves {α : Type} {p : VirtioProg α} {a : α}
    (hp : Prog.Preserves (fun x => x.heard = s.heard ∧ x.trace = s.trace) p)
    (hrun : Prog.Runs ok s p a s') : Told s s' [] := by
  rcases hp _ _ _ _ hrun ⟨rfl, rfl⟩ with ⟨hheard, htrace⟩
  exact ⟨by simp [hheard], by simp [htrace]⟩

theorem runs_addDeviceStatus {bit : UInt8} {r : Except Rc Unit}
    (hrun : Prog.Runs ok s (virtioAddDeviceStatus bit) r s') :
    exists lock get status set, Told s s' [.add bit lock get status set] := by
  rcases Prog.runs_action_iff.mp hrun with ⟨e, _, hf⟩
  refine ⟨e.lock, e.transport 0, e.reg.toUInt8, e.transport 1, ?_⟩
  rcases underLock_cases hf with ⟨hlock, _, rfl⟩ | ⟨hlock, _, _, rfl⟩
  · constructor
    · rfl
    · simp [Heard.effects, hlock, VirtioSystem.hear]
  · by_cases h0 : e.transport 0 = .EOK
    · by_cases h1 : e.transport 1 = .EOK
      · constructor
        · simp [addDeviceStatus, h0, h1, VirtioSystem.hear, VirtioSystem.observe]
        · simp [Heard.effects, addDeviceStatus, h0, h1, hlock, VirtioSystem.hear,
            VirtioSystem.observe]
      · constructor
        · simp [addDeviceStatus, h0, h1, VirtioSystem.hear, VirtioSystem.observe]
        · simp [Heard.effects, addDeviceStatus, h0, h1, hlock, VirtioSystem.hear,
            VirtioSystem.observe]
    · constructor
      · simp [addDeviceStatus, h0, VirtioSystem.hear]
      · simp [Heard.effects, addDeviceStatus, h0, VirtioSystem.hear]

theorem runs_transportOp {α : Type} {heard : VirtioEnv -> Heard}
    {event : VirtioEnv -> StatusEvent} {value : VirtioEnv -> α} {r : Except Rc α}
    (heffects : forall e, (heard e).effects =
      if e.transport 0 = .EOK then [event e] else [])
    (hrun : Prog.Runs ok s (transportOp heard event value) r s') :
    exists e, Told s s' [heard e] := by
  rcases Prog.runs_action_iff.mp hrun with ⟨e, _, hf⟩
  refine ⟨e, ?_⟩
  by_cases h0 : e.transport 0 = .EOK
  · simp only [h0, ne_eq, not_true_eq_false, if_false, Option.some.injEq,
      Prod.mk.injEq] at hf
    rw [← hf.2]
    exact ⟨rfl, by simp [heffects, h0, VirtioSystem.hear, VirtioSystem.observe]⟩
  · simp only [ne_eq, h0, not_false_eq_true, if_true, Option.some.injEq,
      Prod.mk.injEq] at hf
    rw [← hf.2]
    exact ⟨rfl, by simp [heffects, h0, VirtioSystem.hear]⟩

theorem runs_readDeviceConfig {r : Except Rc Unit}
    (hrun : Prog.Runs ok s virtioReadDeviceConfig r s') :
    exists op, Told s s' [.config op] := by
  rcases runs_transportOp (fun _ => rfl) hrun with ⟨e, h⟩
  exact ⟨_, h⟩

theorem runs_getDeviceStatus {r : Except Rc UInt8}
    (hrun : Prog.Runs ok s virtioGetDeviceStatus r s') :
    exists get status, Told s s' [.poll get status] := by
  rcases runs_transportOp (fun _ => rfl) hrun with ⟨e, h⟩
  exact ⟨_, _, h⟩

/-- Only polls. -/
def Polls (l : List Heard) : Prop :=
  forall h, h ∈ l -> exists get status, h = .poll get status

theorem polls_nil : Polls [] := by
  intro h hmem
  cases hmem

theorem told_nil_delayFor {ms : Nat} {u : Unit}
    (hrun : Prog.Runs ok s (delayFor ms) u s') : Told s s' [] :=
  told_nil_of_preserves (preserves_delayFor ms) hrun

theorem told_nil_read {α : Type} {f : VirtioSystem -> α} {a : α}
    (hrun : Prog.Runs ok s (Prog.read f) a s') : Told s s' [] :=
  told_nil_of_preserves (Prog.preserves_read f) hrun

theorem polls_iterate {x : UInt8 × Nat} {r : Except Rc Unit}
    (hrun : Prog.Runs ok s (Prog.iterate deviceResetRound x) r s') :
    exists polls, Polls polls ∧ Told s s' polls := by
  refine Prog.runs_iterate_inv
    (J := fun _ s1 => exists polls, Polls polls ∧ Told s s1 polls)
    (Q := fun _ s1 => exists polls, Polls polls ∧ Told s s1 polls) ?_ ?_ hrun
  · rintro state s1 r s2 ⟨polls, hpolls, htold⟩ hbody
    unfold deviceResetRound at hbody
    by_cases hgo : state.1 ≠ 0 ∧ 0 < state.2
    · rw [if_pos hgo] at hbody
      rcases Prog.runs_bind_iff.mp hbody with ⟨interval, s3, hread, hbody⟩
      rcases Prog.runs_bind_iff.mp hbody with ⟨u, s4, hdelay, hbody⟩
      rcases Prog.runs_bind_iff.mp hbody with ⟨status, s5, hget, hbody⟩
      rcases runs_getDeviceStatus hget with ⟨get, value, hvalue⟩
      have h5 : Told s s5 (polls ++ [.poll get value]) := by
        have hwait := (told_nil_read hread).trans (told_nil_delayFor hdelay)
        exact htold.trans (hwait.trans hvalue)
      have hmore : Polls (polls ++ [.poll get value]) := by
        intro h hmem
        rcases List.mem_append.mp hmem with hmem | hmem
        · exact hpolls h hmem
        · exact ⟨get, value, List.mem_singleton.mp hmem⟩
      cases status with
      | error rc =>
          rcases Prog.runs_ret_iff.mp hbody with ⟨rfl, rfl⟩
          exact ⟨_, hmore, h5⟩
      | ok status =>
          rcases Prog.runs_ret_iff.mp hbody with ⟨rfl, rfl⟩
          exact ⟨_, hmore, h5⟩
    · rw [if_neg hgo] at hbody
      rcases Prog.runs_ret_iff.mp hbody with ⟨rfl, rfl⟩
      exact ⟨polls, hpolls, htold⟩
  · exact ⟨[], polls_nil, by simp, by simp⟩

theorem runs_resetDevice {r : Except Rc Unit}
    (hrun : Prog.Runs ok s virtioResetDevice r s') :
    exists op polls, Polls polls ∧ Told s s' (.reset op :: polls) := by
  rcases Prog.runs_bind_iff.mp hrun with ⟨first, s2, hreset, hrun⟩
  rcases runs_transportOp (fun _ => rfl) hreset with ⟨e, h2⟩
  cases first with
  | error rc =>
      rcases Prog.runs_ret_iff.mp hrun with ⟨_, rfl⟩
      exact ⟨_, [], polls_nil, h2⟩
  | ok _ =>
      rcases Prog.runs_bind_iff.mp hrun with ⟨timeout, s3, hread, hrun⟩
      rcases Prog.runs_bind_iff.mp hrun with ⟨status, s4, hget, hrun⟩
      rcases runs_getDeviceStatus hget with ⟨get, value, hvalue⟩
      have h4 := h2.trans ((told_nil_read hread).trans hvalue)
      cases status with
      | error rc =>
          rcases Prog.runs_ret_iff.mp hrun with ⟨_, rfl⟩
          refine ⟨_, [.poll get value], ?_, h4⟩
          intro h hmem
          exact ⟨get, value, List.mem_singleton.mp hmem⟩
      | ok status =>
          rcases polls_iterate hrun with ⟨polls, hpolls, htold⟩
          refine ⟨_, .poll get value :: polls, ?_, h4.trans htold⟩
          intro h hmem
          rcases List.mem_cons.mp hmem with rfl | hmem
          · exact ⟨get, value, rfl⟩
          · exact hpolls h hmem

theorem runs_enableQueue {index : UInt16} {r : Except Rc Unit}
    (hrun : Prog.Runs ok s (virtioEnableQueue index true) r s') :
    exists lock select op, Told s s' [.enable index lock select op] := by
  rcases Prog.runs_action_iff.mp hrun with ⟨e, _, hf⟩
  refine ⟨e.lock, e.transport 0, e.transport 1, ?_⟩
  rcases underLock_cases hf with ⟨hlock, _, rfl⟩ | ⟨hlock, _, _, rfl⟩
  · constructor
    · rfl
    · simp [Heard.effects, hlock, VirtioSystem.hear]
  · rcases onSelected_cases index (enableQueue index true) e
        { s.hear (.enable index e.lock (e.transport 0) (e.transport 1)) with
          locked := true } with ⟨h0, hbody⟩ | ⟨h0, h1, hbody⟩ | ⟨h0, h1, hbody⟩
    · rw [hbody]
      constructor
      · rfl
      · simp [Heard.effects, noteEnabled, h0, VirtioSystem.hear]
    · rw [hbody]
      constructor
      · rfl
      · simp [Heard.effects, noteEnabled, h1, VirtioSystem.hear, VirtioSystem.selectQueue]
    · rw [hbody]
      simp only [noteEnabled, if_true, enableQueue]
      constructor
      · split <;> rfl
      · simp only [hlock, h0, h1]
        split <;> rfl

theorem runs_createQueue_told {t : Nat} {index size : UInt16}
    {out : Rc × Option VirtqObject}
    (hrun : Prog.Runs ok s (virtioCreateQueue t index size) out s') :
    (out.1 ≠ .EOK ∧ Told s s' []) ∨ (out.1 = .EOK ∧ Told s s' [.created index]) := by
  have hI : QueueInvariant fun x => x.heard = s.heard ∧ x.trace = s.trace :=
    { host := fun _ _ h => h
      locked := fun _ _ h => h
      access := fun _ _ _ h => h
      write := fun _ _ _ _ _ h => h
      select := fun _ _ h => h
      windows := fun _ _ h => h }
  rcases hI.runs_createQueue ⟨rfl, rfl⟩ hrun with
    ⟨hrc, hheard, htrace⟩ | ⟨hrc, s1, ⟨hheard, htrace⟩, rfl⟩
  · exact Or.inl ⟨hrc, by simp [hheard], by simp [htrace]⟩
  · refine Or.inr ⟨hrc, ?_, ?_⟩
    · simp [VirtioSystem.hear, VirtioSystem.observe, hheard]
    · simp [VirtioSystem.hear, VirtioSystem.observe, htrace, Heard.effects]

theorem setupInvariant_told (s : VirtioSystem) :
    SetupInvariant fun x => x.heard = s.heard ∧ x.trace = s.trace := by
  constructor
  · rintro x x' _ hheard htrace _ ⟨h1, h2⟩
    exact ⟨hheard.trans h1, htrace.trans h2⟩
  · exact fun _ _ _ h => h

/-!
## What an initialisation is told
-/

def AddOf (bit : UInt8) (h : Heard) : Prop :=
  exists lock get status set, h = .add bit lock get status set

/-- The answers up to the creation of the queue. -/
structure Opening where
  op : Rc
  polls : List Heard
  ack : Heard
  driver : Heard
  config : Rc
  features : Heard
  onlyPolls : Polls polls
  ackBit : AddOf VIRTIO_DEVICE_STATUS_ACKNOWLEDGE ack
  driverBit : AddOf VIRTIO_DEVICE_STATUS_DRIVER driver
  featuresBit : AddOf VIRTIO_DEVICE_STATUS_FEATURES_OK features

def Opening.heard (o : Opening) : List Heard :=
  .reset o.op :: o.polls ++ [o.ack, o.driver, .config o.config, o.features]

/-- The answers after the creation of the queue. -/
structure Closing where
  lock : Rc
  select : Rc
  enable : Rc
  last : Heard
  lastBit : AddOf VIRTIO_DEVICE_STATUS_DRIVER_OK last

def Closing.heard (c : Closing) : List Heard :=
  [.created 0, .enable 0 c.lock c.select c.enable, c.last]

theorem runs_bringUp {t : Nat} {qsize : UInt16} {pdev vdev : Nat}
    {out : Rc × Option (Option Nat)}
    (hrun : Prog.Runs ok s (bringUp t qsize pdev vdev) out s') :
    exists o : Opening, (out.1 ≠ .EOK ∧ Told s s' o.heard) ∨
      (out.1 = .EOK ∧ exists c : Closing, Told s s' (o.heard ++ c.heard)) := by
  rcases Prog.runs_bind_iff.mp hrun with ⟨r1, s1, hreset, hrun⟩
  rcases Prog.runs_bind_iff.mp hrun with ⟨r2, s2, hack, hrun⟩
  rcases Prog.runs_bind_iff.mp hrun with ⟨r3, s3, hdriver, hrun⟩
  rcases Prog.runs_bind_iff.mp hrun with ⟨r4, s4, hconfig, hrun⟩
  rcases Prog.runs_bind_iff.mp hrun with ⟨r5, s5, hfeatures, hrun⟩
  rcases Prog.runs_bind_iff.mp hrun with ⟨⟨rc, vq⟩, s6, hcreate, hrun⟩
  rcases runs_resetDevice hreset with ⟨op, polls, hpolls, h1⟩
  rcases runs_addDeviceStatus hack with ⟨l2, g2, v2, w2, h2⟩
  rcases runs_addDeviceStatus hdriver with ⟨l3, g3, v3, w3, h3⟩
  rcases runs_readDeviceConfig hconfig with ⟨config, h4⟩
  rcases runs_addDeviceStatus hfeatures with ⟨l5, g5, v5, w5, h5⟩
  have hopen := h1.trans (h2.trans (h3.trans (h4.trans h5)))
  refine ⟨⟨op, polls, _, _, config, _, hpolls, ⟨l2, g2, v2, w2, rfl⟩,
    ⟨l3, g3, v3, w3, rfl⟩, ⟨l5, g5, v5, w5, rfl⟩⟩, ?_⟩
  rcases runs_createQueue_told hcreate with ⟨hrc, h6⟩ | ⟨hrc, h6⟩
  · simp only [ne_eq] at hrc
    simp only [ne_eq, hrc, not_false_eq_true, if_true] at hrun
    rcases Prog.runs_bind_iff.mp hrun with ⟨r7, s7, hdestroy, hrun⟩
    rcases Prog.runs_ret_iff.mp hrun with ⟨rfl, rfl⟩
    have h7 : Told s6 s' [] :=
      told_nil_of_preserves ((setupInvariant_told s6).virtioDestroy vdev) hdestroy
    have hall := hopen.trans (h6.trans h7)
    rw [List.append_nil, List.append_nil] at hall
    exact Or.inl ⟨hrc, hall⟩
  · change rc = .EOK at hrc
    simp only [hrc, ne_eq, not_true_eq_false, if_false] at hrun
    rcases Prog.runs_bind_iff.mp hrun with ⟨r7, s7, henable, hrun⟩
    rcases Prog.runs_bind_iff.mp hrun with ⟨r8, s8, hlast, hrun⟩
    rcases Prog.runs_ret_iff.mp hrun with ⟨rfl, rfl⟩
    rcases runs_enableQueue henable with ⟨lock, select, enable, h7⟩
    rcases runs_addDeviceStatus hlast with ⟨l8, g8, v8, w8, h8⟩
    exact Or.inr ⟨rfl, ⟨lock, select, enable, _, ⟨l8, g8, v8, w8, rfl⟩⟩,
      hopen.trans (h6.trans (h7.trans h8))⟩

theorem callocResource_error {r : Resource} {rc : Rc}
    (hrun : Prog.Runs ok s (callocResource r) (.error rc) s') : rc ≠ .EOK := by
  rcases Prog.runs_bind_iff.mp hrun with ⟨a, s1, halloc, hrun⟩
  cases a with
  | error rc' =>
      rcases Prog.runs_ret_iff.mp hrun with ⟨heq, _⟩
      cases heq
      rcases runs_onHost halloc with ⟨h, hrunHost, _⟩
      rcases Prog.runs_action_iff.mp hrunHost with ⟨e, _, hf⟩
      cases hcalloc : e.calloc with
      | none => simp [hcalloc] at hf
      | some f =>
          simp only [hcalloc, Option.some.injEq, Prod.mk.injEq, Except.error.injEq] at hf
          rw [← hf.1]
          exact f.property
  | ok block => cases hrun.eq_of_bind_ret

theorem virtioInit_none {rc : Rc} (hrun : Prog.Runs ok s virtioInit (rc, none) s') :
    rc ≠ .EOK := by
  rcases Prog.runs_bind_iff.mp hrun with ⟨a, s1, hcalloc, hrun⟩
  cases a with
  | error rc' =>
      rcases Prog.runs_ret_iff.mp hrun with ⟨heq, _⟩
      cases heq
      exact callocResource_error hcalloc
  | ok vdev =>
      rcases Prog.runs_bind_iff.mp hrun with ⟨rc', s2, _, hrun⟩
      cases hrun.eq_of_bind_ret

theorem runs_setUp {t : Nat} {mem : UInt64} {qsize : UInt16} {dev : Option (Option Nat)}
    {pdev : Nat} {out : Rc × Option (Option Nat)}
    (hrun : Prog.Runs ok s (setUp t mem qsize dev pdev) out s') :
    (out.1 ≠ .EOK ∧ Told s s' []) ∨
      exists o : Opening, (out.1 ≠ .EOK ∧ Told s s' o.heard) ∨
        (out.1 = .EOK ∧ exists c : Closing, Told s s' (o.heard ++ c.heard)) := by
  rcases Prog.runs_bind_iff.mp hrun with ⟨⟨rc, vdev⟩, s1, hinit, hrun⟩
  have h1 := told_nil_of_preserves (setupInvariant_told s).virtioInit hinit
  cases vdev with
  | none =>
      rcases Prog.runs_ret_iff.mp hrun with ⟨rfl, rfl⟩
      exact Or.inl ⟨virtioInit_none hinit, h1⟩
  | some vdev =>
      by_cases hrc : rc = .EOK
      · simp only [hrc, ne_eq, not_true_eq_false, if_false] at hrun
        rcases Prog.runs_bind_iff.mp hrun with ⟨rc', s2, htransport, hrun⟩
        have h2 := h1.trans (told_nil_of_preserves
          ((setupInvariant_told s1).transportInit mem vdev) htransport)
        by_cases hrc' : rc' = .EOK
        · simp only [hrc', not_true_eq_false, if_false] at hrun
          rcases runs_bringUp hrun with ⟨o, ⟨hfail, h3⟩ | ⟨hok, c, h3⟩⟩
          · exact Or.inr ⟨o, Or.inl ⟨hfail, h2.trans h3⟩⟩
          · exact Or.inr ⟨o, Or.inr ⟨hok, c, h2.trans h3⟩⟩
        · simp only [hrc', not_false_eq_true, if_true] at hrun
          rcases Prog.runs_bind_iff.mp hrun with ⟨r3, s3, hdestroy, hrun⟩
          rcases Prog.runs_ret_iff.mp hrun with ⟨rfl, rfl⟩
          have h3 := h2.trans (told_nil_of_preserves
            ((setupInvariant_told s2).virtioDestroy vdev) hdestroy)
          exact Or.inl ⟨hrc', h3⟩
      · simp only [hrc, ne_eq, not_false_eq_true, if_true] at hrun
        rcases Prog.runs_ret_iff.mp hrun with ⟨rfl, rfl⟩
        exact Or.inl ⟨hrc, h1⟩

/-- A whole initialisation: it fails before the reset, at the queue, or not at all. -/
theorem runs_virtioGpioInit {t : Nat} {mem : UInt64} {qsize : UInt16}
    {dev : Option (Option Nat)} {out : Rc × Option (Option Nat)}
    (hrun : Prog.Runs ok s (virtioGpioInit t mem qsize dev) out s') :
    (out.1 ≠ .EOK ∧ Told s s' []) ∨
      exists o : Opening, (out.1 ≠ .EOK ∧ Told s s' o.heard) ∨
        (out.1 = .EOK ∧ exists c : Closing, Told s s' (o.heard ++ c.heard)) := by
  cases dev with
  | none =>
      rcases Prog.runs_ret_iff.mp hrun with ⟨rfl, rfl⟩
      exact Or.inl ⟨by decide, by simp, by simp⟩
  | some before =>
      rcases Prog.runs_bind_iff.mp hrun with ⟨r, s1, hcalloc, hrun⟩
      have h1 := told_nil_of_preserves ((setupInvariant_told s).callocResource _) hcalloc
      cases r with
      | error rc =>
          rcases Prog.runs_ret_iff.mp hrun with ⟨rfl, rfl⟩
          exact Or.inl ⟨callocResource_error hcalloc, h1⟩
      | ok pdev =>
          rcases runs_setUp hrun with ⟨hrc, h2⟩ | ⟨o, ⟨hrc, h2⟩ | ⟨hrc, c, h2⟩⟩
          · exact Or.inl ⟨hrc, h1.trans h2⟩
          · exact Or.inr ⟨o, Or.inl ⟨hrc, h1.trans h2⟩⟩
          · exact Or.inr ⟨o, Or.inr ⟨hrc, c, h1.trans h2⟩⟩

end Runs

/-!
## Success of every step
-/

/-- All steps happened, the changes of the status in their order: it was read as 0 after
the reset and before ACKNOWLEDGE, and FEATURES_OK was read back after it was added. -/
structure InitSteps (trace : List StatusEvent) : Prop where
  status : exists status, status &&& VIRTIO_DEVICE_STATUS_FEATURES_OK ≠ 0 ∧
    [.reset, .read 0, .added VIRTIO_DEVICE_STATUS_ACKNOWLEDGE,
      .added VIRTIO_DEVICE_STATUS_DRIVER, .added VIRTIO_DEVICE_STATUS_FEATURES_OK,
      .read status].Sublist trace
  config : .config ∈ trace
  created : .created 0 ∈ trace
  enabled : .enabled 0 ∈ trace

/-- Without success of every step the initialisation fails and writes no DRIVER_OK. -/
def DriverOkLast (rc : Rc) (trace : List StatusEvent) : Prop :=
  ¬ InitSteps trace -> rc ≠ .EOK ∧
    forall status, .write status ∈ trace -> status &&& VIRTIO_DEVICE_STATUS_DRIVER_OK = 0

namespace Heard

/-- Nothing refused the operation, and the status that DRIVER_OK is added to shows
FEATURES_OK. -/
def Granted : Heard -> Prop
  | .reset op => op = .EOK
  | .poll _ _ => True
  | .add bit lock get status set => lock = .EOK ∧ get = .EOK ∧
      if bit = VIRTIO_DEVICE_STATUS_DRIVER_OK then
        status &&& VIRTIO_DEVICE_STATUS_FEATURES_OK ≠ 0
      else set = .EOK
  | .config op => op = .EOK
  | .created _ => True
  | .enable _ lock select op => lock = .EOK ∧ select = .EOK ∧ op = .EOK

instance : DecidablePred Granted
  | .reset op => inferInstanceAs (Decidable (op = .EOK))
  | .poll _ _ => isTrue trivial
  | .add bit lock get status set => inferInstanceAs (Decidable (lock = .EOK ∧ get = .EOK ∧
      if bit = VIRTIO_DEVICE_STATUS_DRIVER_OK then
        status &&& VIRTIO_DEVICE_STATUS_FEATURES_OK ≠ 0
      else set = .EOK))
  | .config op => inferInstanceAs (Decidable (op = .EOK))
  | .created _ => isTrue trivial
  | .enable _ _ _ _ => inferInstanceAs (Decidable (_ ∧ _ ∧ _))

/-- A status of 0 was read while the device was reset or to be acknowledged. -/
def ShowsReset (h : Heard) : Prop :=
  h = .poll .EOK 0 ∨
    exists set, h = .add VIRTIO_DEVICE_STATUS_ACKNOWLEDGE .EOK .EOK 0 set

/-- The device shows DRIVER_OK in a status that bits are successfully added to. -/
def ShowsDriverOk (h : Heard) : Prop :=
  exists bit status, h = .add bit .EOK .EOK status .EOK ∧
    status &&& VIRTIO_DEVICE_STATUS_DRIVER_OK ≠ 0

end Heard

/-- If the queue gets created, every other step is granted and the reset shows; if not,
the device does not show DRIVER_OK by itself. -/
def InitGranted (heard : List Heard) : Prop :=
  (.created 0 ∈ heard -> (forall h, h ∈ heard -> h.Granted) ∧
    exists h, h ∈ heard ∧ h.ShowsReset) ∧
  (.created 0 ∉ heard -> forall h, h ∈ heard -> ¬ h.ShowsDriverOk)

theorem driverOkLast_failed_iff {rc : Rc} (hrc : rc ≠ .EOK) {l : List Heard}
    (hcreated : .created 0 ∉ l)
    (hbits : forall bit status, .add bit .EOK .EOK status .EOK ∈ l ->
      bit &&& VIRTIO_DEVICE_STATUS_DRIVER_OK = 0) :
    DriverOkLast rc (l.flatMap Heard.effects) <-> InitGranted l := by
  have hnot : ¬ InitSteps (l.flatMap Heard.effects) := by
    intro hsteps
    rcases List.mem_flatMap.mp hsteps.created with ⟨h, hmem, he⟩
    rw [Heard.mem_effects_created] at he
    rw [he] at hmem
    exact hcreated hmem
  have hwrites : (forall status, .write status ∈ l.flatMap Heard.effects ->
        status &&& VIRTIO_DEVICE_STATUS_DRIVER_OK = 0) <->
      forall h, h ∈ l -> ¬ h.ShowsDriverOk := by
    constructor
    · rintro hw h hmem ⟨bit, status, rfl, hshows⟩
      have hwritten := hw (status ||| bit) (List.mem_flatMap.mpr ⟨_, hmem,
        Heard.mem_effects_write.mpr ⟨bit, status, rfl, rfl⟩⟩)
      rw [or_and_of_disjoint (hbits bit status hmem)] at hwritten
      exact hshows hwritten
    · intro hshows written hmem
      rcases List.mem_flatMap.mp hmem with ⟨h, hl, he⟩
      rcases Heard.mem_effects_write.mp he with ⟨bit, status, rfl, rfl⟩
      rw [or_and_of_disjoint (hbits bit status hl)]
      by_contra hne
      exact hshows _ hl ⟨bit, status, rfl, hne⟩
  constructor
  · intro hlast
    exact ⟨fun h => absurd h hcreated, fun _ => hwrites.mp (hlast hnot).2⟩
  · intro hgranted _
    exact ⟨hrc, hwrites.mpr (hgranted.2 hcreated)⟩

/-!
### Initialisations that succeed
-/

theorem Polls.not_mem {polls : List Heard} (h : Polls polls) {x : Heard}
    (hx : forall get status, x ≠ .poll get status) : x ∉ polls := by
  intro hmem
  rcases h x hmem with ⟨get, status, heq⟩
  exact hx get status heq

theorem Polls.effects {polls : List Heard} (h : Polls polls) {e : StatusEvent}
    (he : e ∈ polls.flatMap Heard.effects) :
    exists status, e = .read status ∧ .poll .EOK status ∈ polls := by
  rcases List.mem_flatMap.mp he with ⟨x, hx, hex⟩
  rcases h x hx with ⟨get, status, rfl⟩
  by_cases hget : get = .EOK
  · subst hget
    exact ⟨status, by simpa [Heard.effects] using hex, hx⟩
  · simp [Heard.effects, hget] at hex

theorem initSteps_of_granted (o : Opening) (c : Closing)
    (hgranted : forall h, h ∈ o.heard ++ c.heard -> h.Granted)
    (hreset : exists h, h ∈ o.heard ++ c.heard ∧ h.ShowsReset) :
    InitSteps ((o.heard ++ c.heard).flatMap Heard.effects) := by
  rcases o with ⟨op, polls, ack, driver, config, features, hpolls,
    ⟨l1, g1, v1, w1, rfl⟩, ⟨l2, g2, v2, w2, rfl⟩, ⟨l3, g3, v3, w3, rfl⟩⟩
  rcases c with ⟨lock, select, enable, last, ⟨l4, g4, v4, w4, rfl⟩⟩
  simp only [Opening.heard, Closing.heard] at hgranted hreset ⊢
  have hop : op = .EOK := hgranted (.reset op) (by simp)
  have hack := hgranted (.add VIRTIO_DEVICE_STATUS_ACKNOWLEDGE l1 g1 v1 w1) (by simp)
  have hdriver := hgranted (.add VIRTIO_DEVICE_STATUS_DRIVER l2 g2 v2 w2) (by simp)
  have hconfig : config = .EOK := hgranted (.config config) (by simp)
  have hfeatures := hgranted (.add VIRTIO_DEVICE_STATUS_FEATURES_OK l3 g3 v3 w3) (by simp)
  have henable := hgranted (.enable 0 lock select enable) (by simp)
  have hlast := hgranted (.add VIRTIO_DEVICE_STATUS_DRIVER_OK l4 g4 v4 w4) (by simp)
  rcases hack with ⟨rfl, rfl, rfl⟩
  rcases hdriver with ⟨rfl, rfl, rfl⟩
  rcases hfeatures with ⟨rfl, rfl, rfl⟩
  rcases henable with ⟨rfl, rfl, rfl⟩
  rcases hlast with ⟨rfl, rfl, hshown⟩
  subst hop hconfig
  have hzero : .read 0 ∈ polls.flatMap Heard.effects ++ [.read v1] := by
    rcases hreset with ⟨h, hmem, rfl | ⟨set, rfl⟩⟩
    · have hin : .poll .EOK 0 ∈ polls := by simpa using hmem
      exact List.mem_append_left _ (List.mem_flatMap.mpr ⟨_, hin, by simp [Heard.effects]⟩)
    · have hne : .add VIRTIO_DEVICE_STATUS_ACKNOWLEDGE .EOK .EOK 0 set ∉ polls :=
        hpolls.not_mem fun _ _ => Heard.noConfusion
      simp [VIRTIO_DEVICE_STATUS_ACKNOWLEDGE, VIRTIO_DEVICE_STATUS_DRIVER,
        VIRTIO_DEVICE_STATUS_FEATURES_OK, VIRTIO_DEVICE_STATUS_DRIVER_OK] at hmem
      rcases hmem with hin | ⟨hv, _⟩
      · exact absurd hin hne
      · simp [hv]
  have htrace : (Heard.reset .EOK :: polls ++
        [Heard.add VIRTIO_DEVICE_STATUS_ACKNOWLEDGE .EOK .EOK v1 .EOK,
          Heard.add VIRTIO_DEVICE_STATUS_DRIVER .EOK .EOK v2 .EOK, Heard.config .EOK,
          Heard.add VIRTIO_DEVICE_STATUS_FEATURES_OK .EOK .EOK v3 .EOK] ++
        [Heard.created 0, Heard.enable 0 .EOK .EOK .EOK,
          Heard.add VIRTIO_DEVICE_STATUS_DRIVER_OK .EOK .EOK v4 w4]).flatMap Heard.effects =
      [.reset] ++ (polls.flatMap Heard.effects ++ [.read v1]) ++
        [.write (v1 ||| VIRTIO_DEVICE_STATUS_ACKNOWLEDGE),
          .added VIRTIO_DEVICE_STATUS_ACKNOWLEDGE, .read v2,
          .write (v2 ||| VIRTIO_DEVICE_STATUS_DRIVER), .added VIRTIO_DEVICE_STATUS_DRIVER,
          .config, .read v3, .write (v3 ||| VIRTIO_DEVICE_STATUS_FEATURES_OK),
          .added VIRTIO_DEVICE_STATUS_FEATURES_OK, .created 0, .enabled 0] ++
        (Heard.add VIRTIO_DEVICE_STATUS_DRIVER_OK .EOK .EOK v4 w4).effects := by
    simp [Heard.effects]
  have hread : .read v4 ∈
      (Heard.add VIRTIO_DEVICE_STATUS_DRIVER_OK .EOK .EOK v4 w4).effects :=
    Heard.mem_effects_read.mpr (Or.inr ⟨_, _, rfl⟩)
  rw [htrace]
  constructor
  · refine ⟨v4, by simpa using hshown, ?_⟩
    have hmiddle := (List.singleton_sublist.mpr (List.mem_singleton_self .reset)).append
      (List.singleton_sublist.mpr hzero)
    have hadded : [StatusEvent.added VIRTIO_DEVICE_STATUS_ACKNOWLEDGE,
        .added VIRTIO_DEVICE_STATUS_DRIVER,
        .added VIRTIO_DEVICE_STATUS_FEATURES_OK].Sublist
        [.write (v1 ||| VIRTIO_DEVICE_STATUS_ACKNOWLEDGE),
          .added VIRTIO_DEVICE_STATUS_ACKNOWLEDGE, .read v2,
          .write (v2 ||| VIRTIO_DEVICE_STATUS_DRIVER), .added VIRTIO_DEVICE_STATUS_DRIVER,
          .config, .read v3, .write (v3 ||| VIRTIO_DEVICE_STATUS_FEATURES_OK),
          .added VIRTIO_DEVICE_STATUS_FEATURES_OK, .created 0, .enabled 0] := by
      refine .cons _ (.cons_cons _ (.cons _ (.cons _ (.cons_cons _ ?_))))
      exact .cons _ (.cons _ (.cons _ (.cons_cons _ (List.nil_sublist _))))
    exact (hmiddle.append hadded).append (List.singleton_sublist.mpr hread)
  · simp
  · simp
  · simp

theorem added_of_mem {l : List Heard} {bit : UInt8}
    (h : .added bit ∈ l.flatMap Heard.effects) :
    exists status, .add bit .EOK .EOK status .EOK ∈ l := by
  rcases List.mem_flatMap.mp h with ⟨x, hx, he⟩
  rcases Heard.mem_effects_added.mp he with ⟨status, rfl⟩
  exact ⟨status, hx⟩

theorem mem_before_add (bit status : UInt8) (pre post : List Heard) {e : StatusEvent}
    (hpost : forall other, .add bit .EOK .EOK other .EOK ∉ post)
    (h : [e, .added bit].Sublist
      ((pre ++ .add bit .EOK .EOK status .EOK :: post).flatMap Heard.effects)) :
    e ∈ pre.flatMap Heard.effects ++ [.read status, .write (status ||| bit)] := by
  have hshape : (pre ++ .add bit .EOK .EOK status .EOK :: post).flatMap Heard.effects =
      (pre.flatMap Heard.effects ++ [.read status, .write (status ||| bit)]) ++
        .added bit :: post.flatMap Heard.effects := by
    simp [Heard.effects]
  rw [hshape] at h
  refine mem_before_of_sublist (fun hmem => ?_) h
  rcases added_of_mem hmem with ⟨other, hx⟩
  exact hpost other hx

theorem mem_after_add (bit status : UInt8) (pre post : List Heard) {e : StatusEvent}
    (hpre : forall other, .add bit .EOK .EOK other .EOK ∉ pre)
    (h : [.added bit, e].Sublist
      ((pre ++ .add bit .EOK .EOK status .EOK :: post).flatMap Heard.effects)) :
    e ∈ post.flatMap Heard.effects := by
  have hshape : (pre ++ .add bit .EOK .EOK status .EOK :: post).flatMap Heard.effects =
      (pre.flatMap Heard.effects ++ [.read status, .write (status ||| bit)]) ++
        .added bit :: post.flatMap Heard.effects := by
    simp [Heard.effects]
  rw [hshape] at h
  refine mem_after_of_sublist (fun hmem => ?_) h
  rcases List.mem_append.mp hmem with hmem | hmem
  · rcases added_of_mem hmem with ⟨other, hx⟩
    exact hpre other hx
  · simp at hmem

theorem statusBits_ne :
    VIRTIO_DEVICE_STATUS_ACKNOWLEDGE ≠ VIRTIO_DEVICE_STATUS_DRIVER ∧
      VIRTIO_DEVICE_STATUS_ACKNOWLEDGE ≠ VIRTIO_DEVICE_STATUS_FEATURES_OK ∧
      VIRTIO_DEVICE_STATUS_ACKNOWLEDGE ≠ VIRTIO_DEVICE_STATUS_DRIVER_OK ∧
      VIRTIO_DEVICE_STATUS_DRIVER ≠ VIRTIO_DEVICE_STATUS_FEATURES_OK ∧
      VIRTIO_DEVICE_STATUS_DRIVER ≠ VIRTIO_DEVICE_STATUS_DRIVER_OK ∧
      VIRTIO_DEVICE_STATUS_FEATURES_OK ≠ VIRTIO_DEVICE_STATUS_DRIVER_OK := by
  decide

theorem granted_of_initSteps (o : Opening) (c : Closing)
    (h : InitSteps ((o.heard ++ c.heard).flatMap Heard.effects)) :
    (forall h, h ∈ o.heard ++ c.heard -> h.Granted) ∧
      exists h, h ∈ o.heard ++ c.heard ∧ h.ShowsReset := by
  rcases o with ⟨op, polls, ack, driver, config, features, hpolls,
    ⟨l1, g1, v1, w1, rfl⟩, ⟨l2, g2, v2, w2, rfl⟩, ⟨l3, g3, v3, w3, rfl⟩⟩
  rcases c with ⟨lock, select, enable, last, ⟨l4, g4, v4, w4, rfl⟩⟩
  simp only [Opening.heard, Closing.heard] at h ⊢
  rcases h.status with ⟨shown, hshown, hsub⟩
  have hreset : op = .EOK := by
    rcases List.mem_flatMap.mp (hsub.subset (by simp : .reset ∈ _)) with ⟨x, hx, he⟩
    rw [Heard.mem_effects_reset] at he
    subst he
    simpa [hpolls.not_mem, eq_comm] using hx
  have hconfig : config = .EOK := by
    rcases List.mem_flatMap.mp h.config with ⟨x, hx, he⟩
    rw [Heard.mem_effects_config] at he
    subst he
    simpa [hpolls.not_mem, eq_comm] using hx
  have henable : lock = .EOK ∧ select = .EOK ∧ enable = .EOK := by
    rcases List.mem_flatMap.mp h.enabled with ⟨x, hx, he⟩
    rw [Heard.mem_effects_enabled] at he
    subst he
    simpa [hpolls.not_mem, eq_comm] using hx
  rcases statusBits_ne with ⟨hne1, hne2, hne3, hne4, hne5, hne6⟩
  have hadded : forall bit, StatusEvent.added bit ∈ [StatusEvent.reset, .read 0,
      .added VIRTIO_DEVICE_STATUS_ACKNOWLEDGE, .added VIRTIO_DEVICE_STATUS_DRIVER,
      .added VIRTIO_DEVICE_STATUS_FEATURES_OK, .read shown] ->
      exists status, Heard.add bit .EOK .EOK status .EOK ∈
        [Heard.add VIRTIO_DEVICE_STATUS_ACKNOWLEDGE l1 g1 v1 w1,
          .add VIRTIO_DEVICE_STATUS_DRIVER l2 g2 v2 w2,
          .add VIRTIO_DEVICE_STATUS_FEATURES_OK l3 g3 v3 w3,
          .add VIRTIO_DEVICE_STATUS_DRIVER_OK l4 g4 v4 w4] := by
    intro bit hmem
    rcases added_of_mem (hsub.subset hmem) with ⟨status, hx⟩
    exact ⟨status, by simpa [hpolls.not_mem] using hx⟩
  have hack : l1 = .EOK ∧ g1 = .EOK ∧ w1 = .EOK := by
    rcases hadded VIRTIO_DEVICE_STATUS_ACKNOWLEDGE (by simp) with ⟨status, hx⟩
    simp only [List.mem_cons, Heard.add.injEq, hne1, hne2, hne3, false_and, or_false,
      List.not_mem_nil] at hx
    exact ⟨hx.2.1.symm, hx.2.2.1.symm, hx.2.2.2.2.symm⟩
  have hdriver : l2 = .EOK ∧ g2 = .EOK ∧ w2 = .EOK := by
    rcases hadded VIRTIO_DEVICE_STATUS_DRIVER (by simp) with ⟨status, hx⟩
    simp only [List.mem_cons, Heard.add.injEq, hne1.symm, hne4, hne5, false_and, false_or,
      or_false, List.not_mem_nil] at hx
    exact ⟨hx.2.1.symm, hx.2.2.1.symm, hx.2.2.2.2.symm⟩
  have hfeatures : l3 = .EOK ∧ g3 = .EOK ∧ w3 = .EOK := by
    rcases hadded VIRTIO_DEVICE_STATUS_FEATURES_OK (by simp) with ⟨status, hx⟩
    simp only [List.mem_cons, Heard.add.injEq, hne2.symm, hne4.symm, hne6, false_and,
      false_or, or_false, List.not_mem_nil] at hx
    exact ⟨hx.2.1.symm, hx.2.2.1.symm, hx.2.2.2.2.symm⟩
  rcases henable with ⟨rfl, rfl, rfl⟩
  rcases hack with ⟨rfl, rfl, rfl⟩
  rcases hdriver with ⟨rfl, rfl, rfl⟩
  rcases hfeatures with ⟨rfl, rfl, rfl⟩
  subst hreset hconfig
  have hzero : .read 0 ∈ polls.flatMap Heard.effects ∨ v1 = 0 := by
    have hpair := List.Sublist.trans
      (.cons _ (.cons_cons _ (.cons_cons _ (List.nil_sublist _)))) hsub
    have hbefore := mem_before_add VIRTIO_DEVICE_STATUS_ACKNOWLEDGE v1
      (.reset .EOK :: polls)
      [.add VIRTIO_DEVICE_STATUS_DRIVER .EOK .EOK v2 .EOK, .config .EOK,
        .add VIRTIO_DEVICE_STATUS_FEATURES_OK .EOK .EOK v3 .EOK, .created 0,
        .enable 0 .EOK .EOK .EOK, .add VIRTIO_DEVICE_STATUS_DRIVER_OK l4 g4 v4 w4]
      (fun other hmem => by simp [hne1, hne2, hne3] at hmem) (by simpa using hpair)
    simpa [Heard.effects, eq_comm] using hbefore
  have hback : l4 = .EOK ∧ g4 = .EOK ∧ v4 = shown := by
    have hpair := List.Sublist.trans
      (.cons _ (.cons _ (.cons _ (.cons _ (List.Sublist.refl _))))) hsub
    have hafter := mem_after_add VIRTIO_DEVICE_STATUS_FEATURES_OK v3
      (.reset .EOK :: polls ++
        [.add VIRTIO_DEVICE_STATUS_ACKNOWLEDGE .EOK .EOK v1 .EOK,
          .add VIRTIO_DEVICE_STATUS_DRIVER .EOK .EOK v2 .EOK, .config .EOK])
      [.created 0, .enable 0 .EOK .EOK .EOK,
        .add VIRTIO_DEVICE_STATUS_DRIVER_OK l4 g4 v4 w4]
      (fun other hmem => by simp [hpolls.not_mem, hne2.symm, hne4.symm] at hmem)
      (by simpa using hpair)
    rcases List.mem_flatMap.mp hafter with ⟨x, hx, he⟩
    rcases Heard.mem_effects_read.mp he with rfl | ⟨bit, set, rfl⟩
    · simp at hx
    · simp only [List.mem_cons, reduceCtorEq, Heard.add.injEq, List.not_mem_nil, or_false,
        false_or] at hx
      exact ⟨hx.2.1.symm, hx.2.2.1.symm, hx.2.2.2.1.symm⟩
  rcases hback with ⟨rfl, rfl, rfl⟩
  constructor
  · intro x hx
    simp only [List.cons_append, List.mem_cons, List.mem_append, List.not_mem_nil,
      or_false] at hx
    rcases hx with rfl | (hx | rfl | rfl | rfl | rfl) | rfl | rfl | rfl
    · rfl
    · rcases hpolls x hx with ⟨get, status, rfl⟩
      exact trivial
    · exact ⟨rfl, rfl, rfl⟩
    · exact ⟨rfl, rfl, rfl⟩
    · rfl
    · exact ⟨rfl, rfl, rfl⟩
    · exact trivial
    · exact ⟨rfl, rfl, rfl⟩
    · exact ⟨rfl, rfl, hshown⟩
  · rcases hzero with hin | rfl
    · rcases hpolls.effects hin with ⟨status, heq, hmem⟩
      cases heq
      exact ⟨_, by simp [hmem], Or.inl rfl⟩
    · exact ⟨_, by simp, Or.inr ⟨.EOK, rfl⟩⟩

/-- Before the queue is created no step adds DRIVER_OK. -/
theorem Opening.bits (o : Opening) {bit status : UInt8} {lock get set : Rc}
    (hmem : .add bit lock get status set ∈ o.heard) :
    bit &&& VIRTIO_DEVICE_STATUS_DRIVER_OK = 0 := by
  rcases o with ⟨op, polls, ack, driver, config, features, hpolls,
    ⟨l1, g1, v1, w1, rfl⟩, ⟨l2, g2, v2, w2, rfl⟩, ⟨l3, g3, v3, w3, rfl⟩⟩
  simp only [Opening.heard, List.cons_append, List.mem_cons, List.mem_append,
    reduceCtorEq, ne_eq, not_false_eq_true, implies_true, hpolls.not_mem,
    Heard.add.injEq, List.not_mem_nil, false_or, or_false] at hmem
  rcases hmem with ⟨rfl, _⟩ | ⟨rfl, _⟩ | ⟨rfl, _⟩
  · decide
  · decide
  · decide

theorem Opening.not_created (o : Opening) : .created 0 ∉ o.heard := by
  rcases o with ⟨op, polls, ack, driver, config, features, hpolls,
    ⟨l1, g1, v1, w1, rfl⟩, ⟨l2, g2, v2, w2, rfl⟩, ⟨l3, g3, v3, w3, rfl⟩⟩
  intro hmem
  simp only [Opening.heard, List.cons_append, List.mem_cons, List.mem_append,
    reduceCtorEq, List.not_mem_nil, false_or, or_false] at hmem
  exact hpolls.not_mem (fun _ _ => Heard.noConfusion) hmem

/-- A modern MMIO device that shows its identity, and a status that depends on the time. -/
def deviceAnswers (status : Nat -> UInt32) (i : Nat) : VirtioEnv where
  mmap := .ok (4096 * (i + 1), 4096 * (i + 1))
  malloc := some fun _ => 0
  reg :=
    if i = 12 then VIRTIO_MMIO_MAGIC
    else if i = 13 then 2
    else if i = 15 then VIRTIO_DT_GPIO.toUInt32
    else status i

def deviceInit (status : Nat -> UInt32) :
    Option ((Rc × Option (Option Nat)) × VirtioSystem × Nat) :=
  Prog.execOn (deviceAnswers status) 200 0 (VirtioSystem.initial .mmio)
    (virtioGpioInit 0 8192 2 (some none))

theorem deviceInit_runs {status : Nat -> UInt32}
    {out : (Rc × Option (Option Nat)) × VirtioSystem × Nat}
    (h : deviceInit status = some out) :
    Prog.Runs (fun _ => True) (VirtioSystem.initial .mmio)
      (virtioGpioInit 0 8192 2 (some none)) (out.1.1, out.1.2) out.2.1 :=
  (Prog.runsOn_of_execOn h).runs

/-- The status has the bits that the driver has added. -/
def writtenStatus (i : Nat) : UInt32 :=
  if i < 21 then 0 else if i < 23 then 1 else if i < 54 then 3 else 11

def servedInit : (Rc × Option (Option Nat)) × VirtioSystem × Nat :=
  (deviceInit writtenStatus).get (by decide +kernel)

/-- The status reads as 0 whatever is written to it. -/
def deafInit : (Rc × Option (Option Nat)) × VirtioSystem × Nat :=
  (deviceInit fun _ => 0).get (by decide +kernel)

end Virtio
end QnxVirtio
