import QnxVirtio.Gpio.Deliver
import QnxVirtio.Gpio.DeviceSteps
import QnxVirtio.Virtq.RingIntegrity
import QnxVirtio.Virtq.Conservation

/-!
# Requests and their answers

The invariant holds in every state that the clients, the interrupt service thread
and the device reach together.  From it come the routing of answers, the lifetime
of contexts, and the absence of lost interrupts.
-/

namespace QnxVirtio

open Foundation

/-!
## Every interleaving
-/

/-- The ghosts of threads that have not started. -/
def initialGhosts (_ : GpioThread) : GpioGhost where
  holding := Holding.empty
  stage := .idle 0
  phase := .away

theorem holdings_initial (o : GpioOwner) :
    holdings initialGhosts (fun _ => Holding.empty) o = Holding.empty := by
  cases o <;> rfl

theorem holdInv_fresh {size : Nat} {legacy : Bool} {obj : VirtqObject}
    (h : Virtq.Fresh size legacy obj.vq) (mem : Memory) :
    HoldInv (obj.queue mem) (holdings initialGhosts fun _ => Holding.empty) := by
  have hconserved := Conserved.fresh h mem
  have hempty : holdings initialGhosts (fun _ => Holding.empty) =
      fun _ => Holding.empty := funext holdings_initial
  rw [hempty]
  constructor
  case freeWf => exact hconserved.freeWf
  case freeNodup => exact hconserved.freeNodup
  case freeLt => exact fun idx hidx => (hconserved.cover idx).mpr (Or.inl hidx)
  case freeUnheld => exact fun _ _ _ => rfl
  case descs => exact Owned.empty _ _
  case regions => exact Owned.empty _ _

theorem flowInv_fresh {scripts : Nat -> Nat -> GpioCall} {obj : VirtqObject}
    {mem : Memory} (hring : RingFlow (obj.queue mem) Device.initial) :
    FlowInv scripts (obj.gpioSystem mem) fun _ => Holding.empty where
  ring := hring
  published := by
    intro p hp
    cases hp
  flight := by
    intro pos p hout hp
    cases hp
  answered := by
    intro a ha
    cases ha
  answersNodup := List.nodup_nil
  produced := by
    intro e he
    cases he
  pending := by
    intro e he
    cases he

theorem contextInv_fresh (mode : GpioMode) (scripts : Nat -> Nat -> GpioCall)
    (obj : VirtqObject) (mem : Memory) :
    ContextInv mode scripts (obj.gpioSystem mem) (stages initialGhosts) .away where
  stale := rfl
  stages := by
    intro t p hp
    cases hp
  distinct := by
    intro pos pos' p p' hp
    cases hp
  live := by
    intro pos p ptr hp
    cases hp
  copied := by
    intro pos p a k ptr c hphase
    cases hphase
  deliveredNodup := List.nodup_nil
  returns := by
    intro r hr
    cases hr

theorem gpioInv_fresh (mode : GpioMode) (scripts : Nat -> Nat -> GpioCall)
    {size : Nat} {legacy : Bool} {obj : VirtqObject}
    (h : Virtq.Fresh size legacy obj.vq) (hpos : 0 < size) (hdvd : size ∣ 65536)
    (mem : Memory) :
    GpioInv mode scripts (obj.gpioSystem mem) initialGhosts fun _ => Holding.empty where
  holding := holdInv_fresh h mem
  flow := flowInv_fresh (h.ringFlow hpos hdvd mem)
  phase := by
    constructor
    · rfl
    · intro n ptr hn
      cases hn
    · intro hwaiting
      cases hwaiting
    · intro _ _ hlt
      exact absurd hlt (Nat.not_lt_zero _)
  context := fun _ => contextInv_fresh mode scripts obj mem

/-- Every interleaving of clients, interrupt thread and device keeps the
invariant. -/
theorem GpioReachable.inv {mode : GpioMode} {transport : Transport}
    {config : VirtioGpioConfig} {scripts : Nat -> Nat -> GpioCall} {size : Nat}
    {legacy : Bool} {ok : Env -> Prop} {h h' : Host} {rc : Rc} {obj : VirtqObject}
    {w : GpioSystem} (hsize : exists k, size = 2 ^ k)
    (hcreate : Prog.Runs ok h (virtqCreate size legacy) (rc, some obj) h')
    (hreach : GpioReachable mode transport config obj h'.mem scripts w) :
    exists gs fl, GpioInv mode scripts w gs fl := by
  have hfresh := (virtqCreate_fresh hcreate).2
  rcases hsize with ⟨k, hk⟩
  have hpos : 0 < size := by
    rw [hk]
    exact Nat.two_pow_pos k
  have hinit := gpioInv_fresh mode scripts hfresh hpos
    (dvd_of_pow_lt hk hfresh.size_lt) h'.mem
  rcases hreach with ⟨c, hc, rfl⟩
  apply (gpioContract mode scripts).invariant_of_reachable
    (show (gpioContract mode scripts).inv _ initialGhosts from ⟨_, hinit⟩) ?_ ?_ hc
  · intro t
    cases t with
    | client t => exact gpioClient_triple rfl rfl
    | ist => exact virtioIst_triple rfl
  · rintro move w gs w' _ ⟨fl, hinv⟩ hmove
    exact hinv.device hmove

/-!
## A queue of two descriptors
-/

abbrev GpioMove : Type :=
  Move GpioThread Env GpioDeviceMove

def configEight : VirtioGpioConfig where
  ngpio := 8
  gpioNamesSize := 0

/-- Every client sets line 3 over and over. -/
def setLineScripts (_ _ : Nat) : GpioCall :=
  .setValue 3 1

def poolTwo : Pool GpioThread Env GpioSystem :=
  gpioPool .mmio configEight queueTwo createdTwo.2.mem setLineScripts

/-- Client 0 calls and waits for the request at position 0. -/
def submitMoves : List GpioMove :=
  List.replicate 15 (.thread (.client 0) { mmap := .ok (409600, 409600) }) ++
    List.replicate 19 (.thread (.client 0) { mmap := .ok (819200, 819200) })

/-- The device completes the request at position 0, but for the interrupt. -/
def completeMoves : List GpioMove :=
  [.env .take, .env (.answer 0 0 1), .env (.store 0 2), .env .bump]

def interruptMoves (n : Nat) : List GpioMove :=
  List.replicate n (.thread .ist {})

/-- Nothing fails and no signal arrives. -/
def steadyMove : GpioMove -> Bool
  | .thread (.client _) e => !e.interrupted
  | .thread .ist e => decide (e.lock = .EOK)
  | .env _ => true

theorem gpioOk_of_steady (mode : GpioMode) {move : GpioMove}
    (h : steadyMove move = true) (w : GpioSystem) : gpioOk mode move w := by
  cases move with
  | thread t e =>
      cases t with
      | client t =>
          have hnot : e.interrupted = false := by simpa [steadyMove] using h
          constructor
          · exact fun _ => hnot
          · intro _ hintr
            rw [hnot] at hintr
            cases hintr
      | ist => exact fun _ => of_decide_eq_true h
  | env d => trivial

theorem exists_run (moves : List GpioMove) {P : GpioSystem -> Bool}
    (h : ((poolTwo.run gpioEnv moves).any fun c => P c.state) = true) :
    exists c, poolTwo.run gpioEnv moves = some c ∧ P c.state = true := by
  cases hrun : poolTwo.run gpioEnv moves with
  | none =>
      rw [hrun] at h
      cases h
  | some c =>
      rw [hrun] at h
      exact ⟨c, rfl, h⟩

theorem reachable_of_steady (mode : GpioMode) {moves : List GpioMove}
    {c : Pool GpioThread Env GpioSystem} (hsteady : moves.all steadyMove = true)
    (hrun : poolTwo.run gpioEnv moves = some c) :
    GpioReachable mode .mmio configEight queueTwo createdTwo.2.mem setLineScripts
      c.state := by
  refine ⟨c, Pool.reachable_run Pool.Reachable.refl ?_ hrun, rfl⟩
  intro move hmove w
  exact gpioOk_of_steady mode (List.all_eq_true.mp hsteady move hmove) w

/-- Client 0 has its answer and returns. -/
def answeredMoves : List GpioMove :=
  submitMoves ++ completeMoves ++ [.env .raiseVirtq] ++ interruptMoves 44 ++
    List.replicate 4 (.thread (.client 0) {})

/-!
## Routing
-/

/-- Runs in which no signal ends a wait. -/
def uninterruptedRuns : GpioMode where
  calm := true
  quiet := true
  strict := false

/-- Every call that waited got what the device answered to its own request, and
every chain is delivered at most once, in the order of the used ring. -/
structure Routing (w : GpioSystem) : Prop where
  returned : forall r, r ∈ w.returns -> r.result.waited = true ->
    exists (pos : Nat) (p : Published) (a : GpioAnswer),
      w.queue.published[pos]? = some p ∧ p.context = some r.context ∧
        a ∈ w.answers ∧ a.pos = pos ∧ a.request = r.call.request ∧
        r.result = r.call.resultOf a
  /-- No two chains share a context. -/
  own : forall (pos pos' : Nat) (p p' : Published),
    w.queue.published[pos]? = some p -> w.queue.published[pos']? = some p' ->
    p.context = p'.context -> pos = pos'
  answeredOnce : (w.answers.map GpioAnswer.pos).Nodup
  deliveredOnce : w.delivered.Nodup
  delivery : forall (n : Nat) (ptr : ContextPtr), w.delivered[n]? = some ptr ->
    exists (pos : Nat) (p : Published), w.device.positions[n]? = some pos ∧
      w.queue.published[pos]? = some p ∧ p.context = some ptr
  /-- All retrieved chains are delivered, but for the one being served. -/
  complete : w.delivered.length <= w.queue.retrieved.length ∧
    w.queue.retrieved.length <= w.delivered.length + 1

theorem PhaseHistory.complete {w : GpioSystem} {phase : IstPhase}
    (h : PhaseHistory w phase) : w.delivered.length <= w.queue.retrieved.length ∧
      w.queue.retrieved.length <= w.delivered.length + 1 := by
  cases phase with
  | away => exact ⟨Nat.le_of_eq h, Nat.le_succ_of_le (Nat.le_of_eq h.symm)⟩
  | draining => exact ⟨Nat.le_of_eq h, Nat.le_succ_of_le (Nat.le_of_eq h.symm)⟩
  | serving pos p a copied =>
      exact ⟨Nat.le_of_succ_le (Nat.le_of_eq h.1), Nat.le_of_eq h.1.symm⟩

theorem GpioInv.routing {mode : GpioMode} {scripts : Nat -> Nat -> GpioCall}
    {w : GpioSystem} {gs : GpioThread -> GpioGhost} {fl : Nat -> Holding}
    (h : GpioInv mode scripts w gs fl) (hcalm : mode.calm = true)
    (hquiet : mode.quiet = true) : Routing w := by
  have hctx := h.context hcalm
  constructor
  · intro r hr hwaited
    have hreturn := hctx.returns r hr
    rcases hreturn.routed hquiet hwaited with
      ⟨pos, p, a, hp, hcontext, ha, hpos, hresult⟩
    refine ⟨pos, p, a, hp, hcontext, ha, hpos, ?_, hresult⟩
    rcases (h.flow.answered a ha).2 with ⟨p', ptr, hp', hcontext', hrequest⟩
    rw [hpos, hp] at hp'
    cases hp'
    rw [hcontext] at hcontext'
    cases hcontext'
    rw [hrequest, hreturn.call]
    rfl
  · exact hctx.distinct
  · exact h.flow.answersNodup
  · exact hctx.deliveredNodup
  · exact h.phase.delivered
  · exact h.phase.history.complete

/-- The answers of the device reach the calls that asked. -/
theorem gpio_routing {transport : Transport} {config : VirtioGpioConfig}
    {scripts : Nat -> Nat -> GpioCall} {size : Nat} {legacy : Bool} {h h' : Host}
    {rc : Rc} {obj : VirtqObject} {w : GpioSystem} (hsize : exists k, size = 2 ^ k)
    (hcreate : Prog.Runs (fun _ => True) h (virtqCreate size legacy) (rc, some obj) h')
    (hreach : GpioReachable uninterruptedRuns transport config obj h'.mem scripts w) :
    Routing w := by
  rcases hreach.inv hsize hcreate with ⟨gs, fl, hinv⟩
  exact hinv.routing rfl rfl

/-- A call on the queue of two descriptors got its answer. -/
theorem gpio_routing_two : exists w : GpioSystem,
    w.returns.map (fun r => r.result.waited) = [true] ∧ Routing w := by
  rcases exists_run answeredMoves
    (P := fun w => w.returns.map (fun r => r.result.waited) == [true])
    (by decide +kernel) with ⟨c, hrun, hreturns⟩
  exact ⟨c.state, beq_iff_eq.mp hreturns, gpio_routing ⟨1, rfl⟩ queueTwo_created
    (reachable_of_steady _ (by decide) hrun)⟩

/-!
## Contexts
-/

/-- Runs in which no signal ends the wait for a request that is published. -/
def calmRuns : GpioMode where
  calm := true
  quiet := false
  strict := false

/-- No completion meets a context whose frame is gone. -/
structure ContextsLive (w : GpioSystem) : Prop where
  stale : w.stale = []
  live : forall p, p ∈ w.queue.published -> forall ptr, p.context = some ptr ->
    ptr ∉ w.delivered -> exists c, w.contexts ptr = some c
  /-- A call that returned was not published, or its callback has run. -/
  returned : forall r, r ∈ w.returns -> forall p, p ∈ w.queue.published ->
    p.context = some r.context -> r.context ∈ w.delivered

theorem ContextInv.contextsLive {mode : GpioMode} {scripts : Nat -> Nat -> GpioCall}
    {w : GpioSystem} {stage : Nat -> ClientStage} {phase : IstPhase}
    (h : ContextInv mode scripts w stage phase) : ContextsLive w where
  stale := h.stale
  live := by
    intro p hp ptr hcontext hnot
    rcases List.mem_iff_getElem?.mp hp with ⟨pos, hpos⟩
    have hsent := h.live pos p ptr hpos hcontext hnot
    have hstage := h.stages ptr.thread
    rw [hsent] at hstage
    rcases hstage.2 with ⟨c, _, hc, _⟩
    exact ⟨c, hc⟩
  returned := fun r hr p hp hcontext => (h.returns r hr).delivered p hp hcontext

/-- As long as no signal ends the wait for a published request, every completion
finds the context of a call that has not returned. -/
theorem gpio_contexts_live {transport : Transport} {config : VirtioGpioConfig}
    {scripts : Nat -> Nat -> GpioCall} {size : Nat} {legacy : Bool} {h h' : Host}
    {rc : Rc} {obj : VirtqObject} {w : GpioSystem} (hsize : exists k, size = 2 ^ k)
    (hcreate : Prog.Runs (fun _ => True) h (virtqCreate size legacy) (rc, some obj) h')
    (hreach : GpioReachable calmRuns transport config obj h'.mem scripts w) :
    ContextsLive w := by
  rcases hreach.inv hsize hcreate with ⟨gs, fl, hinv⟩
  exact (hinv.context rfl).contextsLive

/-- A call on the queue of two descriptors waits for its answer. -/
theorem gpio_contexts_live_two : exists w : GpioSystem,
    w.queue.published.length = 1 ∧ w.delivered = [] ∧ ContextsLive w := by
  rcases exists_run submitMoves
    (P := fun w => w.queue.published.length == 1 && w.delivered == [])
    (by decide +kernel) with ⟨c, hrun, hwaits⟩
  rw [Bool.and_eq_true, beq_iff_eq, beq_iff_eq] at hwaits
  exact ⟨c.state, hwaits.1, hwaits.2, gpio_contexts_live ⟨1, rfl⟩ queueTwo_created
    (reachable_of_steady _ (by decide) hrun)⟩

def anyRuns : GpioMode where
  calm := false
  quiet := false
  strict := false

theorem gpioOk_anyRuns (move : GpioMove) (w : GpioSystem) : gpioOk anyRuns move w := by
  cases move with
  | thread t e =>
      cases t with
      | client t =>
          exact ⟨fun h => absurd h Bool.false_ne_true,
            fun h => absurd h Bool.false_ne_true⟩
      | ist => exact fun h => absurd h Bool.false_ne_true
  | env d => trivial

/-- A signal ends the wait of client 0, its call returns, and the completion finds
no context. -/
def danglingMoves : List GpioMove :=
  submitMoves ++ List.replicate 3 (.thread (.client 0) { interrupted := true }) ++
    completeMoves ++ [.env .raiseVirtq] ++ interruptMoves 14

theorem gpio_context_dangles : ¬ forall w : GpioSystem,
    GpioReachable anyRuns .mmio configEight queueTwo createdTwo.2.mem setLineScripts w ->
      ContextsLive w := by
  intro hall
  rcases exists_run danglingMoves (P := fun w => w.stale != [])
    (by decide +kernel) with ⟨c, hrun, hstale⟩
  have hreach : GpioReachable anyRuns .mmio configEight queueTwo createdTwo.2.mem
      setLineScripts c.state :=
    ⟨c, Pool.reachable_run Pool.Reachable.refl (fun move _ => gpioOk_anyRuns move) hrun, rfl⟩
  exact bne_iff_ne.mp hstale (hall c.state hreach).stale

/-!
## Interrupts
-/

/-- Runs in which the interrupt thread gets every spinlock. -/
def strictRuns : GpioMode where
  calm := false
  quiet := false
  strict := true

/-- No completion is lost, and each is consumed once and in order. -/
structure NoLostCompletion (w : GpioSystem) : Prop where
  signalled : w.waiting = true -> w.queue.vq.usedIdx ≠ w.queue.vq.lastSeenUsed ->
    w.intStatus &&& VIRTIO_MMIO_INT_VIRTQ ≠ 0 ∨ w.raise = true
  inOrder : forall (k : Nat) (chain : List UInt16), w.queue.retrieved[k]? = some chain ->
    exists e : UsedEntry, w.device.produced[k]? = some e ∧
      chain.head? = some e.elem.id.toUInt16
  once : w.device.positions.Nodup

theorem GpioInv.noLostCompletion {mode : GpioMode} {scripts : Nat -> Nat -> GpioCall}
    {w : GpioSystem} {gs : GpioThread -> GpioGhost} {fl : Nat -> Holding}
    (h : GpioInv mode scripts w gs fl) (hstrict : mode.strict = true) :
    NoLostCompletion w where
  signalled := by
    intro hwaiting hunseen
    apply h.phase.signalled hstrict (h.phase.waiting hwaiting)
    apply Nat.lt_of_le_of_ne h.flow.ring.retrieved_le
    exact fun heq => hunseen (h.flow.ring.lastSeen_eq_iff.mpr heq)
  inOrder := h.flow.ring.integrity.retrieved
  once := h.flow.ring.posNodup

/-- While the interrupt thread of the MMIO transport waits, an unseen used element
has its interrupt. -/
theorem mmio_no_lost_completion {config : VirtioGpioConfig}
    {scripts : Nat -> Nat -> GpioCall} {size : Nat} {legacy : Bool} {h h' : Host}
    {rc : Rc} {obj : VirtqObject} {w : GpioSystem} (hsize : exists k, size = 2 ^ k)
    (hcreate : Prog.Runs (fun _ => True) h (virtqCreate size legacy) (rc, some obj) h')
    (hreach : GpioReachable strictRuns .mmio config obj h'.mem scripts w) :
    NoLostCompletion w := by
  rcases hreach.inv hsize hcreate with ⟨gs, fl, hinv⟩
  exact hinv.noLostCompletion rfl

/-- The interrupt thread waits and the device has completed a request. -/
theorem mmio_no_lost_completion_two : exists w : GpioSystem,
    w.waiting = true ∧ w.queue.vq.usedIdx ≠ w.queue.vq.lastSeenUsed ∧
      NoLostCompletion w := by
  rcases exists_run (interruptMoves 3 ++ submitMoves ++ completeMoves)
    (P := fun w => w.waiting && w.queue.vq.usedIdx != w.queue.vq.lastSeenUsed)
    (by decide +kernel) with ⟨c, hrun, hwaits⟩
  rw [Bool.and_eq_true, bne_iff_ne] at hwaits
  exact ⟨c.state, hwaits.1, hwaits.2, mmio_no_lost_completion ⟨1, rfl⟩
    queueTwo_created (reachable_of_steady _ (by decide) hrun)⟩

end QnxVirtio
