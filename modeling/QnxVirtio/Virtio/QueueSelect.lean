import QnxVirtio.Virtio.QueueSpecs

/-!
# Queue selection

Threads share the queue-select register.  A locked section selects its own queue before
it touches a register of it; the addresses of a new queue are written without the lock,
so they need the window between its size and its last address to themselves.
-/

namespace QnxVirtio
namespace Virtio

open Foundation

/-!
## Threads
-/

/-- A call of a queue function by a client of the device. -/
inductive VirtioCall
  | createQueue (index size : UInt16)
  | notifyQueue (index : UInt16)
  | enableQueue (index : UInt16) (enable : Bool)
  | resetQueue (index : UInt16)
  | maxQueueSize (index : UInt16)
  | setQueueSize (index size : UInt16)

/-- The call on thread `t`, whatever it returns. -/
def VirtioCall.run (t : Nat) : VirtioCall -> VirtioProg Unit
  | .createQueue index size => do let _ <- virtioCreateQueue t index size
  | .notifyQueue index => do let _ <- virtioNotifyQueue index
  | .enableQueue index enable => do let _ <- virtioEnableQueue index enable
  | .resetQueue index => do let _ <- virtioResetQueue index
  | .maxQueueSize index => do let _ <- virtioMaxQueueSize index
  | .setQueueSize index size => do let _ <- virtioSetQueueSize index size none

/-- Thread `t` makes the calls of its script one after the other. -/
def virtioClient (t : Nat) (script : Nat -> VirtioCall) : VirtioProg Unit :=
  Prog.iterate (fun n => do
    (script n).run t
    pure (.inl (n + 1))) 0

/-- The device may change any register of any queue at any time. -/
def deviceWrites (queue : UInt16 -> QueueReg -> Option UInt64) (s : VirtioSystem) :
    Option VirtioSystem :=
  some { s with regs := { s.regs with queue := queue } }

abbrev VirtioMove : Type :=
  Move Nat VirtioEnv (UInt16 -> QueueReg -> Option UInt64)

def virtioPool (s : VirtioSystem) (scripts : Nat -> Nat -> VirtioCall) :
    Pool Nat VirtioEnv VirtioSystem where
  state := s
  thread := fun t => virtioClient t (scripts t)

/-- No queue is being created and no access has been recorded. -/
structure Fresh (s : VirtioSystem) : Prop where
  locked : s.locked = false
  windows : s.windows = []
  clashes : s.clashes = []
  accesses : s.accesses = []

/-!
## Windows
-/

/-- The window of each thread is the one in its ghost.  Without a clash every access met
its own queue, and the queue of an open window is selected. -/
structure Windowed (s : VirtioSystem) (gs : Nat -> Option UInt16) : Prop where
  nodup : s.windows.Nodup
  owner : forall t index, (t, index) ∈ s.windows <-> gs t = some index
  accesses : s.clashes = [] -> forall a, a ∈ s.accesses -> a.select = a.queue
  selected : s.clashes = [] -> forall w, w ∈ s.windows -> w.2 = s.regs.queueSel

/-- What the threads of a device agree on outside of the locked sections. -/
def selectContract :
    Contract Nat VirtioEnv (UInt16 -> QueueReg -> Option UInt64) VirtioSystem
      (Option UInt16) where
  env := deviceWrites
  ok := fun _ _ => True
  inv := fun s gs => s.locked = false ∧ Windowed s gs

/-- The step from `s` to `s'` only accesses registers on behalf of `index`. -/
structure AccessesFor (index : UInt16) (s s' : VirtioSystem) : Prop where
  windows : s'.windows = s.windows
  clashes : s'.clashes = s.clashes
  queueSel : s'.regs.queueSel = s.regs.queueSel
  accesses : forall a, a ∈ s'.accesses ->
    a ∈ s.accesses ∨ a.queue = index ∧ a.select = s.regs.queueSel

namespace AccessesFor

variable {index : UInt16} {s s' s'' : VirtioSystem}

theorem refl (index : UInt16) (s : VirtioSystem) : AccessesFor index s s where
  windows := rfl
  clashes := rfl
  queueSel := rfl
  accesses := fun _ h => Or.inl h

theorem trans (h : AccessesFor index s s') (h' : AccessesFor index s' s'') :
    AccessesFor index s s'' where
  windows := h'.windows.trans h.windows
  clashes := h'.clashes.trans h.clashes
  queueSel := h'.queueSel.trans h.queueSel
  accesses := by
    intro a ha
    rcases h'.accesses a ha with hold | ⟨hqueue, hselect⟩
    · exact h.accesses a hold
    · exact Or.inr ⟨hqueue, hselect.trans h.queueSel⟩

theorem access (index : UInt16) (reg : QueueReg) (s : VirtioSystem) :
    AccessesFor index s (s.access index reg) where
  windows := rfl
  clashes := rfl
  queueSel := rfl
  accesses := by
    intro a ha
    rcases List.mem_append.mp ha with hold | hnew
    · exact Or.inl hold
    · cases List.mem_singleton.mp hnew
      exact Or.inr ⟨rfl, rfl⟩

theorem writeQueue (index : UInt16) (reg : QueueReg) (value : UInt64)
    (s : VirtioSystem) : AccessesFor index s (s.writeQueue index reg value) where
  windows := rfl
  clashes := rfl
  queueSel := rfl
  accesses := (access index reg s).accesses

end AccessesFor

theorem Windowed.accessesFor {index : UInt16} {s s' : VirtioSystem}
    {gs : Nat -> Option UInt16} (h : Windowed s gs)
    (hsel : s.clashes = [] -> s.regs.queueSel = index) (hacc : AccessesFor index s s') :
    Windowed s' gs where
  nodup := by
    rw [hacc.windows]
    exact h.nodup
  owner := by
    rw [hacc.windows]
    exact h.owner
  accesses := by
    intro hclash a ha
    rw [hacc.clashes] at hclash
    rcases hacc.accesses a ha with hold | ⟨hqueue, hselect⟩
    · exact h.accesses hclash a hold
    · rw [hqueue, hselect, hsel hclash]
  selected := by
    rw [hacc.clashes, hacc.windows, hacc.queueSel]
    exact h.selected

theorem Windowed.select {s : VirtioSystem} {gs : Nat -> Option UInt16}
    (h : Windowed s gs) (index : UInt16) : Windowed (s.selectQueue index) gs := by
  by_cases hall : (s.windows.all fun w => w.2 == index) = true
  · have hsame : (s.selectQueue index).clashes = s.clashes := if_pos hall
    refine { nodup := h.nodup, owner := h.owner, accesses := ?_, selected := ?_ }
    · rw [hsame]
      exact h.accesses
    · intro _ w hw
      exact beq_iff_eq.mp (List.all_eq_true.mp hall w hw)
  · have hclash : (s.selectQueue index).clashes ≠ [] := by
      have hmore : (s.selectQueue index).clashes = s.clashes ++ [index] := if_neg hall
      rw [hmore]
      exact List.append_ne_nil_of_right_ne_nil _ (List.cons_ne_nil _ _)
    exact {
      nodup := h.nodup
      owner := h.owner
      accesses := fun hnone => absurd hnone hclash
      selected := fun hnone => absurd hnone hclash }

theorem Windowed.opened {s : VirtioSystem} {gs : Nat -> Option UInt16} {t : Nat}
    {index : UInt16} (h : Windowed s gs) (hg : gs t = none)
    (hsel : s.clashes = [] -> s.regs.queueSel = index) :
    Windowed { s with windows := (t, index) :: s.windows }
      (Function.update gs t (some index)) where
  nodup := by
    refine List.nodup_cons.mpr ⟨fun hmem => ?_, h.nodup⟩
    rw [(h.owner t index).mp hmem] at hg
    cases hg
  owner := by
    intro u index'
    by_cases hu : u = t
    · subst hu
      have hno : (u, index') ∉ s.windows := by
        intro hmem
        rw [(h.owner u index').mp hmem] at hg
        cases hg
      simp [hno, eq_comm]
    · simp [hu, h.owner]
  accesses := h.accesses
  selected := by
    intro hclash w hw
    rcases List.mem_cons.mp hw with rfl | hw
    · exact (hsel hclash).symm
    · exact h.selected hclash w hw

theorem Windowed.closed {s : VirtioSystem} {gs : Nat -> Option UInt16} {t : Nat}
    {index : UInt16} (h : Windowed s gs) (hg : gs t = some index) :
    Windowed { s with windows := s.windows.erase (t, index) }
      (Function.update gs t none) where
  nodup := h.nodup.erase _
  owner := by
    intro u index'
    rw [h.nodup.mem_erase_iff]
    by_cases hu : u = t
    · subst hu
      simp only [Function.update_self, ne_eq, Prod.mk.injEq, true_and, reduceCtorEq,
        iff_false, not_and, h.owner, hg, Option.some.injEq]
      exact fun hne heq => hne heq.symm
    · simp [hu, h.owner]
  accesses := h.accesses
  selected := fun hclash w hw => h.selected hclash w (List.mem_of_mem_erase hw)

/-!
## Locked sections
-/

section Triples

variable {α : Type} {t : Nat} {g : Option UInt16} {index : UInt16}

theorem keeps_underLock
    {body : VirtioEnv -> VirtioSystem -> Except Rc α × VirtioSystem}
    {post : Except Rc α -> Option UInt16 -> Prop}
    (hfail : forall rc, post (.error rc) g)
    (hbody : forall e s gs, Windowed s gs -> gs t = g ->
      exists g', Windowed (body e s).2 (Function.update gs t g') ∧
        post (body e s).1 g') :
    selectContract.Keeps t g (underLock body) post := by
  intro e s gs r s' _ hinv hg hf
  rcases hinv with ⟨hunlocked, hw⟩
  rcases underLock_cases hf with ⟨_, rfl, rfl⟩ | ⟨_, _, rfl, rfl⟩
  · refine ⟨g, ?_, hfail _⟩
    rw [← hg, Function.update_eq_self]
    exact ⟨hunlocked, hw⟩
  · have hw' : Windowed { s with locked := true } gs :=
      ⟨hw.nodup, hw.owner, hw.accesses, hw.selected⟩
    rcases hbody e _ gs hw' hg with ⟨g', hw1, hpost⟩
    exact ⟨g', ⟨rfl, ⟨hw1.nodup, hw1.owner, hw1.accesses, hw1.selected⟩⟩, hpost⟩

theorem windowed_onSelected
    {op : VirtioEnv -> VirtioSystem -> α × VirtioSystem}
    (post : Except Rc α -> Option UInt16 -> Prop)
    (hfail : forall rc, post (.error rc) g)
    (hop : forall e s gs, Windowed s gs -> s.regs.queueSel = index -> gs t = g ->
      exists g', Windowed (op e s).2 (Function.update gs t g') ∧
        post (.ok (op e s).1) g')
    (e : VirtioEnv) (s : VirtioSystem) (gs : Nat -> Option UInt16)
    (hw : Windowed s gs) (hg : gs t = g) :
    exists g', Windowed (onSelected index op e s).2 (Function.update gs t g') ∧
      post (onSelected index op e s).1 g' := by
  have hsame : Function.update gs t g = gs := by
    rw [← hg, Function.update_eq_self]
  rcases onSelected_cases index op e s with ⟨_, h⟩ | ⟨_, _, h⟩ | ⟨_, _, h⟩
  · rw [h]
    exact ⟨g, hsame.symm ▸ hw, hfail _⟩
  · rw [h]
    exact ⟨g, hsame.symm ▸ hw.select index, hfail _⟩
  · rw [h]
    exact hop e _ gs (hw.select index) rfl hg

theorem windowed_accessesFor
    {op : VirtioEnv -> VirtioSystem -> α × VirtioSystem}
    (hacc : forall e s, AccessesFor index s (op e s).2) (e : VirtioEnv)
    (s : VirtioSystem) (gs : Nat -> Option UInt16) (hw : Windowed s gs)
    (hsel : s.regs.queueSel = index) (hg : gs t = g) :
    exists g', Windowed (op e s).2 (Function.update gs t g') ∧ g' = g := by
  refine ⟨g, ?_, rfl⟩
  rw [← hg, Function.update_eq_self]
  exact hw.accessesFor (fun _ => hsel) (hacc e s)

theorem triple_queueSection
    {op : VirtioEnv -> VirtioSystem -> α × VirtioSystem}
    (hacc : forall e s, AccessesFor index s (op e s).2) :
    selectContract.Triple t g (queueSection index op) fun _ g' => g' = g :=
  Contract.Triple.action (keeps_underLock (fun _ => rfl)
    (windowed_onSelected (fun _ g' => g' = g) (fun _ => rfl) (windowed_accessesFor hacc)))

theorem triple_maxQueueSize :
    selectContract.Triple t g (virtioMaxQueueSize index) fun _ g' => g' = g := by
  refine triple_queueSection fun e s => ?_
  unfold maxQueueSize
  cases s.transport with
  | mmio => exact AccessesFor.access index .sizeMax s
  | pci => exact AccessesFor.access index .size s

theorem triple_notifyQueue :
    selectContract.Triple t g (virtioNotifyQueue index) fun _ g' => g' = g := by
  refine triple_queueSection fun e s => ?_
  unfold notifyQueue
  cases s.transport with
  | mmio => exact AccessesFor.refl index s
  | pci => exact AccessesFor.access index .notifyOff s

theorem triple_setQueueReset :
    selectContract.Triple t g (virtioSetQueueReset index) fun _ g' => g' = g :=
  triple_queueSection fun _ s => AccessesFor.writeQueue index .reset 1 s

theorem triple_getQueueReset :
    selectContract.Triple t g (virtioGetQueueReset index) fun _ g' => g' = g := by
  refine triple_queueSection fun e s => ?_
  unfold getQueueReset
  cases s.transport with
  | mmio => exact AccessesFor.access index .reset s
  | pci => exact AccessesFor.access index .reset s

theorem accessesFor_enableQueue (enable : Bool) (e : VirtioEnv) (s : VirtioSystem) :
    AccessesFor index s (enableQueue index enable e s).2 := by
  unfold enableQueue
  cases s.transport with
  | mmio => exact AccessesFor.writeQueue index .ready _ s
  | pci =>
      exact (AccessesFor.writeQueue index .msixVector 0 s).trans
        (AccessesFor.writeQueue index .ready _ _)

theorem triple_enableQueue (enable : Bool) :
    selectContract.Triple t g (virtioEnableQueue index enable) fun _ g' => g' = g := by
  refine Contract.Triple.action ?_
  intro e s gs r s' hok hinv hg hf
  dsimp only at hf
  have hkeeps : selectContract.Keeps t g (underLock fun e s =>
      noteEnabled index enable (onSelected index (enableQueue index enable) e s))
      fun _ g' => g' = g := by
    refine keeps_underLock (fun _ => rfl) fun e s gs hw hg => ?_
    rcases windowed_onSelected (fun _ g' => g' = g) (fun _ => rfl)
      (windowed_accessesFor (accessesFor_enableQueue enable)) e s gs hw hg with
      ⟨g', hw1, hpost⟩
    refine ⟨g', ?_, hpost⟩
    unfold noteEnabled
    split
    · cases enable with
      | true => exact ⟨hw1.nodup, hw1.owner, hw1.accesses, hw1.selected⟩
      | false => exact hw1
    · exact hw1
  have hheard : Windowed (s.hear (.enable index e.lock (e.transport 0) (e.transport 1)))
      gs := ⟨hinv.2.nodup, hinv.2.owner, hinv.2.accesses, hinv.2.selected⟩
  exact hkeeps e (s.hear (.enable index e.lock (e.transport 0) (e.transport 1))) gs r s'
    hok ⟨hinv.1, hheard⟩ hg hf

theorem triple_setQueueSize (size : UInt16) (owner : Option Nat)
    (howner : owner = none ∨ owner = some t) :
    selectContract.Triple t none (virtioSetQueueSize index size owner) fun r g' =>
      g' = r.toOption.bind fun _ => owner.map fun _ => index := by
  refine Contract.Triple.action (keeps_underLock (fun _ => rfl)
    (windowed_onSelected (fun r g' =>
      g' = r.toOption.bind fun _ => owner.map fun _ => index) (fun _ => rfl) ?_))
  intro e s gs hw hsel hg
  have hwrite : Windowed (s.writeQueue index .size size.toUInt64) gs :=
    hw.accessesFor (fun _ => hsel) (AccessesFor.writeQueue index .size _ s)
  rcases howner with rfl | rfl
  · refine ⟨none, ?_, rfl⟩
    rw [← hg, Function.update_eq_self]
    exact hwrite
  · exact ⟨some index, hwrite.opened hg fun _ => hsel, rfl⟩

/-!
## Resets and addresses
-/

theorem triple_ask (f : VirtioEnv -> α) :
    selectContract.Triple t g (Prog.action fun e s => some (f e, s))
      fun _ g' => g' = g := by
  refine Contract.Triple.action ?_
  intro e s gs a s' _ hinv hg hf
  cases hf
  refine ⟨g, ?_, rfl⟩
  rw [← hg, Function.update_eq_self]
  exact hinv

theorem triple_read (f : VirtioSystem -> α) :
    selectContract.Triple t g (Prog.read f) fun _ g' => g' = g := by
  refine Contract.Triple.action ?_
  intro e s gs a s' _ hinv hg hf
  cases hf
  refine ⟨g, ?_, rfl⟩
  rw [← hg, Function.update_eq_self]
  exact hinv

theorem triple_onHost (p : Prog Env Host α) :
    selectContract.Triple t g (onHost p) fun _ g' => g' = g := by
  refine Contract.Triple.embed ?_ p
  intro h s gs hinv
  exact ⟨hinv.1, hinv.2.nodup, hinv.2.owner, hinv.2.accesses, hinv.2.selected⟩

theorem triple_delayFor (ms : Nat) :
    selectContract.Triple t g (delayFor ms) fun _ g' => g' = g := by
  apply Contract.Triple.loop (J := fun _ g' => g' = g) (R := fun _ g' => g' = g)
  · rintro remaining g1 rfl
    split
    · apply (triple_ask _).bind
      rintro unslept g2 rfl
      exact Contract.Triple.ret rfl
    · exact Contract.Triple.ret rfl
  · rintro _ g1 rfl
    exact Contract.Triple.ret rfl
  · rfl

theorem triple_queueResetRound (state : UInt32 × Nat) :
    selectContract.Triple t g (queueResetRound index state) fun _ g' => g' = g := by
  unfold queueResetRound
  split
  · apply (triple_read _).bind
    rintro interval g1 rfl
    apply (triple_delayFor interval).bind
    rintro _ g2 rfl
    apply (triple_read _).bind
    rintro interval g3 rfl
    apply triple_getQueueReset.bind
    rintro r g4 rfl
    cases r with
    | error rc => exact Contract.Triple.ret rfl
    | ok value => exact Contract.Triple.ret rfl
  · exact Contract.Triple.ret rfl

theorem triple_resetQueue :
    selectContract.Triple t g (virtioResetQueue index) fun _ g' => g' = g := by
  unfold virtioResetQueue
  apply (triple_read _).bind
  rintro timeout g1 rfl
  apply triple_setQueueReset.bind
  rintro r g2 rfl
  cases r with
  | error rc => exact Contract.Triple.ret rfl
  | ok _ =>
      apply (triple_ask _).bind
      rintro value g3 rfl
      apply Contract.Triple.loop (J := fun _ g' => g' = g3) (R := fun _ g' => g' = g3)
      · rintro state g4 rfl
        apply (triple_queueResetRound state).conseq
        rintro r g5 rfl
        cases r with
        | inl next => rfl
        | inr result => rfl
      · rintro result g4 rfl
        exact Contract.Triple.ret rfl
      · rfl

theorem triple_writeSelected (reg : QueueReg) (value : UInt64) :
    selectContract.Triple t (some index) (writeSelected index reg value)
      fun _ g' => g' = some index := by
  refine Contract.Triple.action ?_
  intro e s gs u s' _ hinv hg hf
  cases hf
  refine ⟨some index, ⟨hinv.1, ?_⟩, rfl⟩
  rw [← hg, Function.update_eq_self]
  refine hinv.2.accessesFor (fun hclash => ?_) (AccessesFor.writeQueue index reg value s)
  exact (hinv.2.selected hclash _ ((hinv.2.owner t index).mpr hg)).symm

theorem triple_writeLast (reg : QueueReg) (value : UInt64) :
    selectContract.Triple t (some index) (writeLast t index reg value)
      fun _ g' => g' = none := by
  refine Contract.Triple.action ?_
  intro e s gs u s' _ hinv hg hf
  cases hf
  refine ⟨none, ⟨hinv.1, ?_⟩, rfl⟩
  have hwrite : Windowed (s.writeQueue index reg value) gs := by
    refine hinv.2.accessesFor (fun hclash => ?_)
      (AccessesFor.writeQueue index reg value s)
    exact (hinv.2.selected hclash _ ((hinv.2.owner t index).mpr hg)).symm
  exact hwrite.closed hg

theorem triple_mmioSetQueueAddr (vq : Virtq) :
    selectContract.Triple t (some index) (virtioMmioSetQueueAddr t index (some vq))
      fun _ g' => g' = none := by
  unfold virtioMmioSetQueueAddr
  simp only [virtqDescPaddr, virtqAvailPaddr, virtqUsedPaddr]
  apply (triple_read _).bind
  rintro legacy g1 rfl
  split
  · split
    · refine Contract.Triple.action ?_
      intro e s gs r s' _ _ _ hf
      cases hf
    · apply (triple_writeLast _ _).bind
      rintro _ g2 rfl
      exact Contract.Triple.ret rfl
  · apply (triple_writeSelected _ _).bind
    rintro _ g2 rfl
    apply (triple_writeSelected _ _).bind
    rintro _ g3 rfl
    apply (triple_writeSelected _ _).bind
    rintro _ g4 rfl
    apply (triple_writeSelected _ _).bind
    rintro _ g5 rfl
    apply (triple_writeSelected _ _).bind
    rintro _ g6 rfl
    apply (triple_writeLast _ _).bind
    rintro _ g7 rfl
    exact Contract.Triple.ret rfl

theorem triple_pciSetQueueAddr (vq : Virtq) :
    selectContract.Triple t (some index) (virtioPciSetQueueAddr t index (some vq))
      fun _ g' => g' = none := by
  unfold virtioPciSetQueueAddr
  simp only [virtqDescPaddr, virtqAvailPaddr, virtqUsedPaddr]
  apply (triple_writeSelected _ _).bind
  rintro _ g1 rfl
  apply (triple_writeSelected _ _).bind
  rintro _ g2 rfl
  apply (triple_writeLast _ _).bind
  rintro _ g3 rfl
  exact Contract.Triple.ret rfl

theorem triple_setQueueAddr (vq : Option Virtq) :
    selectContract.Triple t (vq.map fun _ => index) (virtioSetQueueAddr t index vq)
      fun _ g' => g' = none := by
  unfold virtioSetQueueAddr
  apply (triple_read _).bind
  rintro transport g1 rfl
  cases vq with
  | none =>
      cases transport with
      | mmio => exact Contract.Triple.ret rfl
      | pci => exact Contract.Triple.ret rfl
  | some vq =>
      cases transport with
      | mmio => exact triple_mmioSetQueueAddr vq
      | pci => exact triple_pciSetQueueAddr vq

/-!
## Creation
-/

theorem triple_startInterruptThread :
    selectContract.Triple t g (startInterruptThread index) fun _ g' => g' = g := by
  unfold startInterruptThread
  apply (triple_onHost _).bind
  rintro r g1 rfl
  cases r with
  | error rc =>
      refine Contract.Triple.action ?_
      intro e s gs r s' _ _ _ hf
      cases hf
  | ok _ =>
      refine Contract.Triple.action ?_
      intro e s gs u s' _ hinv hg hf
      cases hf
      refine ⟨g1, ?_, rfl⟩
      rw [← hg, Function.update_eq_self]
      exact ⟨hinv.1, hinv.2.nodup, hinv.2.owner, hinv.2.accesses, hinv.2.selected⟩

theorem triple_programQueue (size : UInt16) (vq : Option VirtqObject) :
    selectContract.Triple t none (virtioProgramQueue t index size vq)
      fun _ g' => g' = none := by
  unfold virtioProgramQueue
  apply triple_resetQueue.bind
  rintro r g1 rfl
  cases r with
  | error rc => exact Contract.Triple.ret rfl
  | ok _ =>
      have howner : vq.map (fun _ => t) = none ∨ vq.map (fun _ => t) = some t := by
        cases vq with
        | none => exact Or.inl rfl
        | some vq => exact Or.inr rfl
      apply (triple_setQueueSize size _ howner).bind
      rintro r g2 rfl
      cases r with
      | error rc => exact Contract.Triple.ret rfl
      | ok _ =>
          have hwindow : (vq.map fun _ => t).map (fun _ => index) =
              (vq.map VirtqObject.vq).map fun _ => index := by
            cases vq with
            | none => rfl
            | some vq => rfl
          change selectContract.Triple t ((vq.map fun _ => t).map fun _ => index) _ _
          rw [hwindow]
          apply (triple_setQueueAddr _).bind
          rintro r g3 rfl
          cases r with
          | error rc => exact Contract.Triple.ret rfl
          | ok _ =>
              apply triple_startInterruptThread.bind
              rintro _ g4 rfl
              exact Contract.Triple.ret rfl

theorem triple_createQueue (size : UInt16) :
    selectContract.Triple t none (virtioCreateQueue t index size)
      fun _ g' => g' = none := by
  unfold virtioCreateQueue
  apply (triple_ask _).bind
  rintro garbage g1 rfl
  apply triple_maxQueueSize.bind
  rintro max g2 rfl
  simp only
  split
  · exact Contract.Triple.ret rfl
  · apply (triple_read _).bind
    rintro legacy g3 rfl
    apply (triple_onHost _).bind
    rintro ⟨rc, vq⟩ g4 rfl
    simp only
    split
    · exact Contract.Triple.ret rfl
    · exact triple_programQueue size vq

end Triples

theorem triple_call {t : Nat} (call : VirtioCall) :
    selectContract.Triple t none (call.run t) fun _ g' => g' = none := by
  have hdrop : forall {α : Type} {p : VirtioProg α},
      selectContract.Triple t none p (fun _ g' => g' = none) ->
      selectContract.Triple t none (p.bind fun _ => Prog.ret ()) fun _ g' => g' = none :=
    fun hp => hp.bind fun _ _ hg => Contract.Triple.ret hg
  cases call with
  | createQueue index size => exact hdrop (triple_createQueue size)
  | notifyQueue index => exact hdrop triple_notifyQueue
  | enableQueue index enable => exact hdrop (triple_enableQueue enable)
  | resetQueue index => exact hdrop triple_resetQueue
  | maxQueueSize index => exact hdrop triple_maxQueueSize
  | setQueueSize index size =>
      refine hdrop ((triple_setQueueSize size none (Or.inl rfl)).conseq ?_)
      rintro r g rfl
      cases r with
      | error rc => rfl
      | ok _ => rfl

theorem triple_virtioClient (t : Nat) (script : Nat -> VirtioCall) :
    selectContract.Triple t none (virtioClient t script) fun _ _ => True := by
  unfold virtioClient
  apply Contract.Triple.loop (J := fun _ g => g = none) (R := fun _ _ => True)
  · rintro n g rfl
    apply (triple_call (script n)).bind
    rintro _ g1 rfl
    exact Contract.Triple.ret rfl
  · exact fun _ _ _ => Contract.Triple.ret trivial
  · rfl

/-!
## Interleavings
-/

/-- States that any threads, calls, answers and interleaving lead to. -/
def VirtioReachable (s : VirtioSystem) (scripts : Nat -> Nat -> VirtioCall)
    (s' : VirtioSystem) : Prop :=
  exists c, Pool.Reachable deviceWrites (fun _ _ => True) (virtioPool s scripts) c ∧
    c.state = s'

/-- The lock is free between the steps, and each access met the queue it was for. -/
structure Disciplined (s : VirtioSystem) : Prop where
  released : s.locked = false
  accesses : forall a, a ∈ s.accesses -> a.select = a.queue

theorem VirtioReachable.windowed {s s' : VirtioSystem}
    {scripts : Nat -> Nat -> VirtioCall} (h : VirtioReachable s scripts s')
    (hfresh : Fresh s) : s'.locked = false ∧ exists gs, Windowed s' gs := by
  rcases h with ⟨c, hc, rfl⟩
  have hstart : Windowed s fun _ => none := {
    nodup := hfresh.windows ▸ List.nodup_nil
    owner := by simp [hfresh.windows]
    accesses := by simp [hfresh.accesses]
    selected := by simp [hfresh.windows] }
  rcases selectContract.invariant_of_reachable
    (show selectContract.inv s fun _ => none from ⟨hfresh.locked, hstart⟩)
    (fun t => triple_virtioClient t (scripts t))
    (by
      intro queue s1 gs s2 _ hinv hstep
      cases hstep
      exact ⟨hinv.1, hinv.2.nodup, hinv.2.owner, hinv.2.accesses, hinv.2.selected⟩)
    hc with ⟨gs, hunlocked, hw⟩
  exact ⟨hunlocked, gs, hw⟩

/-- The lock is released on every path; and in a run that never selects another queue
between the size of a new queue and its last address, every access meets its queue. -/
theorem queue_select_disciplined {s s' : VirtioSystem}
    {scripts : Nat -> Nat -> VirtioCall} (hfresh : Fresh s)
    (hreach : VirtioReachable s scripts s') :
    s'.locked = false ∧ (s'.clashes = [] -> Disciplined s') := by
  rcases hreach.windowed hfresh with ⟨hunlocked, gs, hw⟩
  exact ⟨hunlocked, fun hclash => ⟨hunlocked, hw.accesses hclash⟩⟩

theorem fresh_initial (transport : Transport) : Fresh (VirtioSystem.initial transport) where
  locked := rfl
  windows := rfl
  clashes := rfl
  accesses := rfl

/-- Thread 0 creates queue 0 while the others ask for the size of queue 1. -/
def createScripts (t _ : Nat) : VirtioCall :=
  if t = 0 then .createQueue 0 2 else .maxQueueSize 1

/-- Steps of the creation in which nothing fails. -/
def createMoves (n k : Nat) : List VirtioMove :=
  (List.range' n k).map fun i =>
    .thread 0 { mmap := .ok (4096 * (i + 1), 4096 * (i + 1)), malloc := some fun _ => 0 }

def createPool : Pool Nat VirtioEnv VirtioSystem :=
  virtioPool (VirtioSystem.initial .mmio) createScripts

theorem createPool_reachable {moves : List VirtioMove}
    {c : Pool Nat VirtioEnv VirtioSystem}
    (hrun : createPool.run deviceWrites moves = some c) :
    VirtioReachable (VirtioSystem.initial .mmio) createScripts c.state :=
  ⟨c, Pool.reachable_run Pool.Reachable.refl (fun _ _ _ => trivial) hrun, rfl⟩

/-- Thread 1 asks for a size before and after the creation of thread 0. -/
def createdApart : Pool Nat VirtioEnv VirtioSystem :=
  (createPool.run deviceWrites
    ([.thread 1 {}, .thread 1 {}] ++ createMoves 0 34 ++ [.thread 1 {}, .thread 1 {}])).get
      (by decide +kernel)

theorem queue_select_disciplined_apart :
    createdApart.state.accesses.map QueueAccess.queue = 1 :: List.replicate 9 0 ++ [1] ∧
      createdApart.state.clashes = [] ∧ createdApart.state.locked = false ∧
      (createdApart.state.clashes = [] -> Disciplined createdApart.state) :=
  ⟨by decide +kernel, by decide +kernel,
    queue_select_disciplined (fresh_initial .mmio)
      (createPool_reachable (Option.some_get _).symm)⟩

/-- Thread 1 asks for a size between two address writes of thread 0. -/
def createdBetween : Pool Nat VirtioEnv VirtioSystem :=
  (createPool.run deviceWrites
    (createMoves 0 27 ++ [.thread 1 {}, .thread 1 {}] ++ createMoves 27 1)).get
      (by decide +kernel)

/-- An address of queue 0 is written to queue 1. -/
theorem queue_select_missed :
    ¬ forall (s s' : VirtioSystem) (scripts : Nat -> Nat -> VirtioCall), Fresh s ->
      VirtioReachable s scripts s' -> Disciplined s' := by
  intro hall
  have hdisc := hall (VirtioSystem.initial .mmio) createdBetween.state createScripts
    (fresh_initial .mmio) (createPool_reachable (Option.some_get _).symm)
  have hmissed : createdBetween.state.accesses.getLast? =
      some { queue := 0, select := 1, reg := .addrHigh .desc } := by
    decide +kernel
  have hselect := hdisc.accesses _ (List.mem_of_getLast? hmissed)
  exact absurd hselect (by decide)

end Virtio
end QnxVirtio
