import QnxVirtio.Virtio.QueueSpecs

/-!
# The size of a new queue

The rings of a new queue are sized by the clamped size, the device is told the requested
one.  Both sides agree exactly on sizes that need no clamping.
-/

namespace QnxVirtio
namespace Virtio

open Foundation

/-!
## Registers
-/

namespace DeviceRegs

variable (regs : DeviceRegs) (reg : QueueReg) (value : UInt64)

theorem write_same :
    (regs.write reg value).queue regs.queueSel reg = some value := by
  simp [write]

/-- The address of a part of a queue as the device holds it. -/
def ringAddr (transport : Transport) (q : UInt16) (part : RingPart) : Option UInt64 :=
  match transport with
  | .mmio =>
      match regs.queue q (.addrLow part), regs.queue q (.addrHigh part) with
      | some low, some high => some (high <<< 32 ||| low)
      | _, _ => none
  | .pci => regs.queue q (.addr part)

end DeviceRegs

theorem join_halves (paddr : UInt64) : highHalf paddr <<< 32 ||| lowHalf paddr = paddr := by
  apply UInt64.toNat_inj.mp
  have hlt := paddr.toNat_lt
  have hlow : (lowHalf paddr).toNat = paddr.toNat % 2 ^ 32 := by
    have hmask := Nat.and_two_pow_sub_one_eq_mod (paddr.toNat % 2 ^ 32) 32
    simpa [lowHalf] using hmask
  have hhigh : (highHalf paddr).toNat = paddr.toNat / 2 ^ 32 := by
    simp [highHalf, Nat.shiftRight_eq_div_pow]
    omega
  have hmod : paddr.toNat % 2 ^ 32 < 2 ^ 32 := Nat.mod_lt _ (by decide)
  have hshift : (paddr.toNat / 2 ^ 32) <<< 32 % 2 ^ 64 = (paddr.toNat / 2 ^ 32) <<< 32 := by
    apply Nat.mod_eq_of_lt
    rw [Nat.shiftLeft_eq]
    omega
  rw [UInt64.toNat_or, UInt64.toNat_shiftLeft, hlow, hhigh]
  change (paddr.toNat / 2 ^ 32) <<< 32 % 2 ^ 64 ||| paddr.toNat % 2 ^ 32 = paddr.toNat
  rw [hshift, ← Nat.shiftLeft_add_eq_or_of_lt hmod, Nat.shiftLeft_eq]
  omega

/-- The device holds the size and the addresses of the queue. -/
structure QueueAgrees (transport : Transport) (regs : DeviceRegs) (index : UInt16)
    (vq : Virtq) : Prop where
  size : regs.queue index .size = some vq.num.toUInt64
  nonzero : vq.num ≠ 0
  within : vq.num.toNat <= (regs.sizeMax index).toNat
  desc : regs.ringAddr transport index .desc = some (UInt64.ofNat vq.descPaddr)
  driver : regs.ringAddr transport index .driver = some (UInt64.ofNat vq.availPaddr)
  device : regs.ringAddr transport index .device = some (UInt64.ofNat vq.usedPaddr)

section Runs

variable {ok : VirtioEnv -> Prop} {s s' : VirtioSystem}

theorem runs_setQueueAddr {t : Nat} {index : UInt16} {vq : Virtq}
    (hrun : Prog.Runs ok s (virtioSetQueueAddr t index (some vq)) (.ok ()) s')
    (hlegacy : s.legacy = false) :
    s'.regs.sizeMax = s.regs.sizeMax ∧
      s'.regs.queue s.regs.queueSel .size = s.regs.queue s.regs.queueSel .size ∧
      s'.regs.ringAddr s.transport s.regs.queueSel .desc =
        some (UInt64.ofNat vq.descPaddr) ∧
      s'.regs.ringAddr s.transport s.regs.queueSel .driver =
        some (UInt64.ofNat vq.availPaddr) ∧
      s'.regs.ringAddr s.transport s.regs.queueSel .device =
        some (UInt64.ofNat vq.usedPaddr) := by
  rcases Prog.runs_bind_iff.mp hrun with ⟨transport, s1, hread, hrest⟩
  rcases Prog.runs_read_iff.mp hread with ⟨_, rfl, rfl⟩
  cases htransport : s1.transport with
  | mmio =>
      rw [htransport] at hrest
      rcases Prog.runs_bind_iff.mp hrest with ⟨legacy, s2, hread2, hrest⟩
      rcases Prog.runs_read_iff.mp hread2 with ⟨_, rfl, rfl⟩
      rw [hlegacy] at hrest
      rcases Prog.runs_bind_iff.mp hrest with ⟨_, s3, h3, hrest⟩
      rcases Prog.runs_bind_iff.mp hrest with ⟨_, s4, h4, hrest⟩
      rcases Prog.runs_bind_iff.mp hrest with ⟨_, s5, h5, hrest⟩
      rcases Prog.runs_bind_iff.mp hrest with ⟨_, s6, h6, hrest⟩
      rcases Prog.runs_bind_iff.mp hrest with ⟨_, s7, h7, hrest⟩
      rcases Prog.runs_bind_iff.mp hrest with ⟨_, s8, h8, hrest⟩
      rcases Prog.runs_ret_iff.mp hrest with ⟨_, rfl⟩
      rw [(Prog.runs_modify_iff.mp h8).2, (Prog.runs_modify_iff.mp h7).2,
        (Prog.runs_modify_iff.mp h6).2, (Prog.runs_modify_iff.mp h5).2,
        (Prog.runs_modify_iff.mp h4).2, (Prog.runs_modify_iff.mp h3).2]
      refine ⟨rfl, ?_, ?_, ?_, ?_⟩
      · simp [VirtioSystem.writeQueue, VirtioSystem.access, DeviceRegs.write]
      · simp [VirtioSystem.writeQueue, VirtioSystem.access, DeviceRegs.write,
          DeviceRegs.ringAddr, join_halves]
      · simp [VirtioSystem.writeQueue, VirtioSystem.access, DeviceRegs.write,
          DeviceRegs.ringAddr, join_halves]
      · simp [VirtioSystem.writeQueue, VirtioSystem.access, DeviceRegs.write,
          DeviceRegs.ringAddr, join_halves]
  | pci =>
      rw [htransport] at hrest
      rcases Prog.runs_bind_iff.mp hrest with ⟨_, s3, h3, hrest⟩
      rcases Prog.runs_bind_iff.mp hrest with ⟨_, s4, h4, hrest⟩
      rcases Prog.runs_bind_iff.mp hrest with ⟨_, s5, h5, hrest⟩
      rcases Prog.runs_ret_iff.mp hrest with ⟨_, rfl⟩
      rw [(Prog.runs_modify_iff.mp h5).2, (Prog.runs_modify_iff.mp h4).2,
        (Prog.runs_modify_iff.mp h3).2]
      refine ⟨rfl, ?_, ?_, ?_, ?_⟩
      · simp [VirtioSystem.writeQueue, VirtioSystem.access, DeviceRegs.write]
      · simp [VirtioSystem.writeQueue, VirtioSystem.access, DeviceRegs.write,
          DeviceRegs.ringAddr]
      · simp [VirtioSystem.writeQueue, VirtioSystem.access, DeviceRegs.write,
          DeviceRegs.ringAddr]
      · simp [VirtioSystem.writeQueue, VirtioSystem.access, DeviceRegs.write,
          DeviceRegs.ringAddr]

theorem runs_setQueueSize {index size : UInt16} {owner : Option Nat} {u : Unit}
    (hrun : Prog.Runs ok s (virtioSetQueueSize index size owner) (.ok u) s') :
    s'.legacy = s.legacy ∧ s'.transport = s.transport ∧ s'.regs.queueSel = index ∧
      s'.regs.sizeMax = s.regs.sizeMax ∧
      s'.regs.queue index .size = some size.toUInt64 := by
  rcases Prog.runs_action_iff.mp hrun with ⟨e, _, hf⟩
  rcases underLock_cases hf with ⟨_, hr, _⟩ | ⟨_, _, hr, rfl⟩
  · cases hr
  · rcases onSelected_cases index (setQueueSize index size owner) e
        { s with locked := true } with ⟨_, hbody⟩ | ⟨_, _, hbody⟩ | ⟨_, _, hbody⟩
    · rw [hbody] at hr
      cases hr
    · rw [hbody] at hr
      cases hr
    · rw [hbody]
      cases owner with
      | none =>
          exact ⟨rfl, rfl, rfl, rfl, DeviceRegs.write_same _ _ _⟩
      | some t =>
          exact ⟨rfl, rfl, rfl, rfl, DeviceRegs.write_same _ _ _⟩

theorem queueInvariant_fields (s : VirtioSystem) : QueueInvariant fun x =>
    x.legacy = s.legacy ∧ x.transport = s.transport ∧
      x.regs.sizeMax = s.regs.sizeMax where
  host := fun _ _ h => h
  locked := fun _ _ h => h
  access := fun _ _ _ h => h
  write := fun _ _ _ _ _ h => h
  select := fun _ _ h => h
  windows := fun _ _ h => h

theorem runs_programQueue {t : Nat} {index size : UInt16} {vq out : Option VirtqObject}
    (hrun : Prog.Runs ok s (virtioProgramQueue t index size vq) (.EOK, out) s')
    (hlegacy : s.legacy = false) :
    exists obj, vq = some obj ∧ out = some obj ∧ s'.regs.sizeMax = s.regs.sizeMax ∧
      s'.regs.queue index .size = some size.toUInt64 ∧
      s'.regs.ringAddr s.transport index .desc = some (UInt64.ofNat obj.vq.descPaddr) ∧
      s'.regs.ringAddr s.transport index .driver =
        some (UInt64.ofNat obj.vq.availPaddr) ∧
      s'.regs.ringAddr s.transport index .device =
        some (UInt64.ofNat obj.vq.usedPaddr) := by
  rcases Prog.runs_bind_iff.mp hrun with ⟨r, s1, hreset, hrest⟩
  rcases (queueInvariant_fields s).virtioResetQueue index _ _ _ _ hreset ⟨rfl, rfl, rfl⟩
    with ⟨hlegacy1, htransport1, hmax1⟩
  cases r with
  | error rc =>
      rcases Prog.runs_ret_iff.mp hrest with ⟨heq, _⟩
      cases heq
      exact absurd rfl (failsWithCode_resetQueue index _ _ _ _ hreset)
  | ok _ =>
      rcases Prog.runs_bind_iff.mp hrest with ⟨r, s2, hsize, hrest⟩
      cases r with
      | error rc =>
          rcases Prog.runs_ret_iff.mp hrest with ⟨heq, _⟩
          cases heq
          exact absurd rfl (failsWithCode_section _ _ _ _ _ _ hsize)
      | ok _ =>
          rcases runs_setQueueSize hsize with ⟨hlegacy2, htransport2, hsel, hmax2, hreg⟩
          rcases Prog.runs_bind_iff.mp hrest with ⟨r, s3, haddr, hrest⟩
          cases r with
          | error rc =>
              rcases Prog.runs_ret_iff.mp hrest with ⟨heq, _⟩
              cases heq
              exact absurd rfl (failsWithCode_setQueueAddr _ _ _ _ _ _ _ haddr)
          | ok _ =>
              rcases Prog.runs_bind_iff.mp hrest with ⟨u, s4, hstart, hrest⟩
              rcases Prog.runs_ret_iff.mp hrest with ⟨heq, rfl⟩
              cases heq
              cases vq with
              | none =>
                  rcases Prog.runs_bind_iff.mp haddr with ⟨transport, s5, _, haddr⟩
                  cases transport with
                  | mmio => cases (Prog.runs_ret_iff.mp haddr).1
                  | pci => cases (Prog.runs_ret_iff.mp haddr).1
              | some obj =>
                  have hmodern : s2.legacy = false := by
                    rw [hlegacy2, hlegacy1, hlegacy]
                  rcases runs_setQueueAddr haddr hmodern with
                    ⟨hmax3, hkeep, hdesc, hdriver, hdevice⟩
                  rcases runs_startInterruptThread hstart with ⟨h, rfl⟩
                  rw [hsel, htransport2, htransport1] at hdesc hdriver hdevice
                  rw [hsel, hreg] at hkeep
                  exact ⟨obj, rfl, rfl, hmax3.trans (hmax2.trans hmax1), hkeep, hdesc,
                    hdriver, hdevice⟩

end Runs

/-!
## Clamped sizes
-/

/-- The locked section of `virtio_max_queue_size` gets through. -/
def MaxObtained (e : VirtioEnv) : Prop :=
  e.lock = .EOK ∧ e.transport 0 = .EOK ∧ e.transport 1 = .EOK

instance (e : VirtioEnv) : Decidable (MaxObtained e) :=
  inferInstanceAs (Decidable (_ ∧ _))

/-- What `queue_size` holds after `virtio_max_queue_size`: the maximum of the device, cut
to 16 bits, or what was there before. -/
def obtainedMax (garbage : Nat) (e : VirtioEnv) (s : VirtioSystem) (index : UInt16) :
    UInt16 :=
  if MaxObtained e then s.regs.maxQueueSize s.transport index else UInt16.ofNat garbage

theorem maxQueueSize_fst (index : UInt16) (e : VirtioEnv) (s : VirtioSystem) :
    (maxQueueSize index e s).1 = s.regs.maxQueueSize s.transport s.regs.queueSel := by
  unfold maxQueueSize
  cases s.transport with
  | mmio => rfl
  | pci => rfl

theorem runsOn_virtioMaxQueueSize {σ : Nat -> VirtioEnv} {i j : Nat}
    {s s' : VirtioSystem} {index : UInt16} {r : Except Rc UInt16}
    (hrun : Prog.RunsOn σ i s (virtioMaxQueueSize index) r s' j) (garbage : Nat) :
    r.toOption.getD (UInt16.ofNat garbage) = obtainedMax garbage (σ i) s index ∧
      j = i + 1 := by
  rcases Prog.runsOn_action_iff.mp hrun with ⟨hf, hj⟩
  refine ⟨?_, hj⟩
  unfold obtainedMax
  rcases underLock_cases hf with ⟨hlock, hr, _⟩ | ⟨hlock, _, hr, _⟩
  · rw [hr, if_neg fun h => hlock h.1]
    rfl
  · rcases onSelected_cases index (maxQueueSize index) (σ i) { s with locked := true } with
      ⟨hne, hbody⟩ | ⟨_, hne, hbody⟩ | ⟨h0, h1, hbody⟩
    · rw [hbody] at hr
      rw [hr, if_neg fun h => hne h.2.1]
      rfl
    · rw [hbody] at hr
      rw [hr, if_neg fun h => hne h.2.2]
      rfl
    · rw [hbody] at hr
      rw [hr, if_pos ⟨hlock, h0, h1⟩, Except.toOption, Option.getD_some, maxQueueSize_fst]
      rfl

theorem clampSize_eq_iff {size queueSize : UInt16} (h : clampSize size queueSize ≠ 0) :
    clampSize size queueSize = size <-> size ≠ 0 ∧ size <= queueSize := by
  unfold clampSize at h ⊢
  by_cases hzero : size = 0
  · rw [if_pos hzero] at h ⊢
    exact ⟨fun heq => absurd (heq.trans hzero) h, fun hand => absurd hzero hand.1⟩
  · rw [if_neg hzero]
    change (if size <= queueSize then size else queueSize) = size <-> _
    by_cases hle : size <= queueSize
    · rw [if_pos hle]
      exact iff_of_true rfl ⟨hzero, hle⟩
    · rw [if_neg hle]
      refine iff_of_false (fun heq => hle ?_) fun hand => hle hand.2
      rw [heq]
      exact UInt16.le_refl size

theorem clampSize_agrees_iff {size queueSize : UInt16} {max : Nat}
    (h : clampSize size queueSize ≠ 0) :
    (clampSize size queueSize = size ∧ (clampSize size queueSize).toNat <= max) <->
      size ≠ 0 ∧ size.toNat <= max ∧ size <= queueSize := by
  constructor
  · rintro ⟨heq, hle⟩
    rcases (clampSize_eq_iff h).mp heq with ⟨hzero, hsize⟩
    rw [heq] at hle
    exact ⟨hzero, hle, hsize⟩
  · rintro ⟨hzero, hle, hsize⟩
    have heq := (clampSize_eq_iff h).mpr ⟨hzero, hsize⟩
    exact ⟨heq, by rw [heq]; exact hle⟩

/-- After a successful creation the device agrees with the queue exactly when the size was
given, is at most the maximum, and is at most what the driver took for the maximum. -/
theorem queue_registers_agree_iff (t : Nat) (index size : UInt16) (σ : Nat -> VirtioEnv)
    (s s' : VirtioSystem) (j : Nat) (vq : Option VirtqObject) (hlegacy : s.legacy = false)
    (hrun : Prog.RunsOn σ 0 s (virtioCreateQueue t index size) (.EOK, vq) s' j) :
    exists obj, vq = some obj ∧
      (QueueAgrees s.transport s'.regs index obj.vq <->
        size ≠ 0 ∧ size.toNat <= (s.regs.sizeMax index).toNat ∧
          size <= obtainedMax (σ 0).garbage (σ 1) s index) := by
  rcases Prog.runsOn_bind_iff.mp hrun with ⟨garbage, s1, k1, hgarbage, hrest⟩
  rcases Prog.runsOn_action_iff.mp hgarbage with ⟨hf, rfl⟩
  cases hf
  rcases Prog.runsOn_bind_iff.mp hrest with ⟨r, s2, k2, hmax, hrest⟩
  rcases (queueInvariant_fields s).virtioMaxQueueSize index _ _ _ _ hmax.runs
    ⟨rfl, rfl, rfl⟩ with ⟨hlegacy2, htransport2, hmax2⟩
  rw [(runsOn_virtioMaxQueueSize hmax _).1] at hrest
  by_cases hzero : clampSize size (obtainedMax (σ 0).garbage (σ 1) s index) = 0
  · simp only [Nat.zero_add, hzero, if_true] at hrest
    cases (Prog.runsOn_ret_iff.mp hrest).1
  · simp only [Nat.zero_add, hzero, if_false] at hrest
    rcases Prog.runsOn_bind_iff.mp hrest with ⟨legacy, s3, k3, hread, hrest⟩
    rcases Prog.runsOn_read_iff.mp hread with ⟨rfl, rfl, rfl⟩
    rcases Prog.runsOn_bind_iff.mp hrest with ⟨⟨rc, created⟩, s4, k4, hcreate, hrest⟩
    rcases runs_onHost hcreate.runs with ⟨h, hhost, rfl⟩
    by_cases hrc : rc = .EOK
    · simp only [hrc, ne_eq, not_true_eq_false, if_false] at hrest
      rcases runs_programQueue hrest.runs (hlegacy2.trans hlegacy) with
        ⟨obj, rfl, rfl, hmax', hsize, hdesc, hdriver, hdevice⟩
      refine ⟨obj, rfl, ?_⟩
      have hnum : obj.vq.num = clampSize size (obtainedMax (σ 0).garbage (σ 1) s index) := by
        apply UInt16.toNat_inj.mp
        exact (virtqCreate_fresh hhost).2.num_toNat
      rw [htransport2] at hdesc hdriver hdevice
      rw [← clampSize_agrees_iff hzero, ← hnum]
      constructor
      · intro hagree
        have hreg : obj.vq.num.toUInt64 = size.toUInt64 :=
          Option.some.inj (hagree.size.symm.trans hsize)
        have hle := hagree.within
        rw [hmax', hmax2] at hle
        exact ⟨UInt16.toUInt64_inj.mp hreg, hle⟩
      · rintro ⟨heq, hle⟩
        constructor
        case size => rw [hsize, heq]
        case nonzero =>
          rw [hnum]
          exact hzero
        case within =>
          rw [hmax', hmax2]
          exact hle
        case desc => exact hdesc
        case driver => exact hdriver
        case device => exact hdevice
    · simp only [ne_eq, hrc, not_false_eq_true, if_true] at hrest
      cases (Prog.runsOn_ret_iff.mp hrest).1
      exact absurd rfl hrc

/-- A modern device whose queues take two descriptors. -/
def smallDevice : VirtioSystem :=
  { VirtioSystem.initial .mmio with
    regs := { (VirtioSystem.initial .mmio).regs with sizeMax := fun _ => 2 } }

/-- Answers that let every call succeed. -/
def goodAnswers (i : Nat) : VirtioEnv where
  mmap := .ok (4096 * (i + 1), 4096 * (i + 1))
  malloc := some fun _ => 0

/-- The creation of a queue of the requested size on the small device. -/
def createdSized (size : UInt16) : Option ((Rc × Option VirtqObject) × VirtioSystem × Nat) :=
  Prog.execOn goodAnswers 100 0 smallDevice (virtioCreateQueue 0 0 size)

theorem createdSized_runs {size : UInt16} (h : (createdSized size).isSome)
    (hrc : ((createdSized size).get h).1.1 = .EOK) :
    Prog.RunsOn goodAnswers 0 smallDevice (virtioCreateQueue 0 0 size)
      (.EOK, ((createdSized size).get h).1.2) ((createdSized size).get h).2.1
      ((createdSized size).get h).2.2 := by
  have hrun := Prog.runsOn_of_execOn
    (Option.some_get h).symm
  rw [show ((createdSized size).get h).1 =
    (.EOK, ((createdSized size).get h).1.2) from Prod.ext hrc rfl] at hrun
  exact hrun

theorem queue_registers_agree_two :
    exists obj, ((createdSized 2).get (by decide +kernel)).1.2 = some obj ∧
      (QueueAgrees .mmio ((createdSized 2).get (by decide +kernel)).2.1.regs 0 obj.vq <->
        (2 : UInt16) ≠ 0 ∧ (2 : UInt16).toNat <= (smallDevice.regs.sizeMax 0).toNat ∧
          2 <= obtainedMax 0 (goodAnswers 1) smallDevice 0) :=
  queue_registers_agree_iff 0 0 2 goodAnswers smallDevice _ _ _ rfl
    (createdSized_runs (by decide +kernel) (by decide +kernel))

/-- The maximum is asked for with a size of 0, and the device is told 0. -/
theorem queue_registers_differ :
    ¬ forall (t : Nat) (index size : UInt16) (σ : Nat -> VirtioEnv) (s s' : VirtioSystem)
      (j : Nat) (vq : Option VirtqObject), s.legacy = false ->
      Prog.RunsOn σ 0 s (virtioCreateQueue t index size) (.EOK, vq) s' j ->
      exists obj, vq = some obj ∧ QueueAgrees s.transport s'.regs index obj.vq := by
  intro hclaim
  rcases hclaim 0 0 0 goodAnswers smallDevice _ _ _ rfl
    (createdSized_runs (by decide +kernel) (by decide +kernel)) with ⟨obj, hobj, hagree⟩
  have hnum : obj.vq.num = 0 := by
    have hreg : ((createdSized 0).get (by decide +kernel)).2.1.regs.queue 0 .size =
        some 0 := by
      decide +kernel
    have heq : obj.vq.num.toUInt64 = (0 : UInt16).toUInt64 :=
      Option.some.inj (hagree.size.symm.trans hreg)
    exact UInt16.toUInt64_inj.mp heq
  exact hagree.nonzero hnum

end Virtio
end QnxVirtio
