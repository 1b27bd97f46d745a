import QnxVirtio.Gpio.AliveClient
import QnxVirtio.Gpio.AliveIst
import QnxVirtio.Gpio.Routing

/-!
# The driver goes on

No thread is stuck: what the driver does with its queue, its buffers and the contexts of
its callers is always possible, and a thread stops only at its semaphore or at its
interrupt.  Where the system grants every lock a client that waits is waited on: the device
or the interrupt thread can move.
-/

namespace QnxVirtio

open Foundation

/-!
## What serves a client
-/

/-- The move serves a chain.  A change of the device configuration serves none. -/
def GpioDeviceMove.serves : GpioDeviceMove -> Bool
  | take => true
  | answer _ _ _ => true
  | store _ _ => true
  | bump => true
  | raiseVirtq => true
  | raiseConfig => false

section Device

variable {mode : GpioMode} {scripts : Nat -> Nat -> GpioCall} {w : GpioSystem}
  {gs : GpioThread -> GpioGhost} {fl : Nat -> Holding}

theorem GpioInv.canTake (h : GpioInv mode scripts w gs fl)
    (hlt : w.device.consumed.length < w.queue.published.length) :
    (gpioEnv .take w).isSome = true := by
  have hroom := h.flow.ring.avail.room
  rw [Queue.length_heads] at hroom
  have hne : w.device.availSeen ≠ w.queue.vq.availIdx := by
    rw [h.flow.ring.availSeen, h.flow.ring.availIdx]
    intro heq
    exact Nat.ne_of_lt hlt ((ofNat_eq_iff (Nat.le_of_lt hlt) hroom).mp heq)
  simp only [gpioEnv, Device.take, if_neg hne]
  rfl

theorem GpioInv.canAnswer (h : GpioInv mode scripts w gs fl) {pos : Nat}
    (hlt : pos < w.device.consumed.length)
    (hnew : pos ∉ w.answers.map GpioAnswer.pos) (status value : UInt8) :
    (gpioEnv (.answer pos status value) w).isSome = true := by
  have hout := h.flow.outstanding_of_unanswered hlt hnew
  have hpublt : pos < w.queue.published.length := hout.1
  have hp : w.queue.published[pos]? = some w.queue.published[pos] :=
    List.getElem?_eq_getElem hpublt
  generalize w.queue.published[pos] = p at hp
  rcases h.flow.flight pos p hout hp with ⟨ptr, b1, hcontext, ⟨⟨resp, m0, m1, hrest,
    hne, hmne, hlen0, hlen1, hhold⟩⟩, _⟩
  have hhead : w.device.consumed[pos]? = some p.head := by
    rcases h.flow.ring.consumed with ⟨tail, htail⟩
    rw [← List.getElem?_append_left hlt, htail, Queue.heads, List.getElem?_map, hp]
    rfl
  have hcell0 : (holdings gs fl (.chain pos)).desc p.head =
      some (requestCell m0 resp p.context) := by
    change (fl pos).desc p.head = _
    rw [hhold]
    exact pairHolding_head hne
  have hcell1 : (holdings gs fl (.chain pos)).desc resp = some (responseCell m1) := by
    change (fl pos).desc resp = _
    rw [hhold]
    exact pairHolding_resp
  have hd0 : w.queue.vq.desc p.head = (requestCell m0 resp p.context).desc :=
    congrArg DescCell.desc (h.holding.descs.known _ _ _ hcell0)
  have hd1 : w.queue.vq.desc (w.queue.vq.desc p.head).next = (responseCell m1).desc := by
    rw [hd0]
    exact congrArg DescCell.desc (h.holding.descs.known _ _ _ hcell1)
  have hformed : ¬ (pos ∈ w.answers.map GpioAnswer.pos ∨
      ¬ (w.queue.vq.desc p.head).hasNext ∨
      (w.queue.vq.desc p.head).len < sizeofVirtioGpioRequest ∨
      (w.queue.vq.desc (w.queue.vq.desc p.head).next).len < sizeofVirtioGpioResponse ∨
      (w.queue.vq.desc (w.queue.vq.desc p.head).next).flags &&& VIRTQ_DESC_F_WRITE =
        0) := by
    rw [hd1, hd0]
    intro hill
    rcases hill with hmem | hnext | hshort | hshort | hflag
    · exact hnew hmem
    · exact hnext (show ((0 ||| VIRTQ_DESC_F_NEXT) &&& VIRTQ_DESC_F_NEXT != 0) = true by
        decide)
    · exact UInt32.lt_irrefl _ hshort
    · exact UInt32.lt_irrefl _ hshort
    · change VIRTQ_DESC_F_WRITE &&& VIRTQ_DESC_F_WRITE = 0 at hflag
      exact absurd hflag (by decide)
  simp only [gpioEnv, GpioSystem.answerRequest, hhead, if_neg hformed]
  rfl

theorem GpioInv.canStore (h : GpioInv mode scripts w gs fl) {pos : Nat}
    (hpending : w.device.pending = none)
    (hanswered : pos ∈ w.answers.map GpioAnswer.pos) (hnew : pos ∉ w.device.positions)
    (len : UInt32) : (gpioEnv (.store pos len) w).isSome = true := by
  rcases List.mem_map.mp hanswered with ⟨a, ha, rfl⟩
  have hhead := List.getElem?_eq_getElem (h.flow.answered a ha).1
  simp only [gpioEnv, if_pos hanswered, Device.store_eq hpending hhead hnew]
  rfl

theorem canBump {e : UsedEntry} (hpending : w.device.pending = some e) :
    (gpioEnv .bump w).isSome = true := by
  simp only [gpioEnv, Device.bump, hpending]
  rfl

theorem canRaise (hraise : w.raise = true) : (gpioEnv .raiseVirtq w).isSome = true := by
  simp only [gpioEnv, if_pos hraise]
  rfl

/-- While the interrupt thread waits, the device can move for every chain that is not
delivered. -/
theorem GpioInv.served (h : GpioInv mode scripts w gs fl) (hstrict : mode.strict = true)
    (haway : (gs .ist).phase = .away) (hidle : w.intStatus = 0) {pos : Nat}
    {p : Published} {ptr : ContextPtr} (hp : w.queue.published[pos]? = some p)
    (hcontext : p.context = some ptr) (hnot : ptr ∉ w.delivered) :
    exists move, move.serves = true ∧ (gpioEnv move w).isSome = true := by
  have hlt := (List.getElem?_eq_some_iff.mp hp).1
  rcases Nat.lt_or_ge w.device.consumed.length w.queue.published.length with hnew | hall
  · exact ⟨.take, rfl, h.canTake hnew⟩
  · have hread : pos < w.device.consumed.length := Nat.lt_of_lt_of_le hlt hall
    by_cases hanswered : pos ∈ w.answers.map GpioAnswer.pos
    · cases hpending : w.device.pending with
      | some e => exact ⟨.bump, rfl, canBump hpending⟩
      | none =>
          by_cases hproduced : pos ∈ w.device.positions
          · -- the used element is there and the interrupt thread has not seen it
            have hphase := h.phase
            rw [haway] at hphase
            rcases List.mem_iff_getElem?.mp hproduced with ⟨n, hn⟩
            have hunseen : w.queue.retrieved.length <= n := by
              rw [← show w.delivered.length = w.queue.retrieved.length from hphase.history]
              refine Nat.le_of_not_lt fun hseen => ?_
              have hget := List.getElem?_eq_getElem hseen
              rcases hphase.delivered n _ hget with ⟨pos', p', hpos', hp', hcontext'⟩
              cases Option.some.inj (hpos'.symm.trans hn)
              cases Option.some.inj (hp'.symm.trans hp)
              cases Option.some.inj (hcontext'.symm.trans hcontext)
              exact hnot (List.getElem_mem hseen)
            have hlen : n < w.device.produced.length := by
              rw [← Device.length_positions]
              exact (List.getElem?_eq_some_iff.mp hn).1
            rcases hphase.signalled hstrict rfl (Nat.lt_of_le_of_lt hunseen hlen) with
              hbit | hraise
            · rw [hidle] at hbit
              exact absurd rfl hbit
            · exact ⟨.raiseVirtq, rfl, canRaise hraise⟩
          · exact ⟨.store pos 0, rfl, h.canStore hpending hanswered hproduced 0⟩
    · exact ⟨.answer pos 0 0, rfl, h.canAnswer hread hanswered 0 0⟩

end Device

/-!
## Progress
-/

/-- The client has a next step, or it is at its semaphore, which a signal would end. -/
def ClientGoesOn (c : Pool GpioThread Env GpioSystem) (t : Nat) : Prop :=
  forall e, unmapped e ->
    ((c.thread (.client t)).step e c.state).isSome = true ∨
      (exists n x, c.state.contexts ⟨t, n⟩ = some x ∧ x.sem = some 0) ∧
        ((c.thread (.client t)).step { e with interrupted := true } c.state).isSome = true

/-- The interrupt thread has a next step, or it waits for an interrupt. -/
def IstGoesOn (transport : Transport) (c : Pool GpioThread Env GpioSystem) : Prop :=
  forall e, unmapped e ->
    ((c.thread .ist).step e c.state).isSome = true ∨
      (transport = .mmio ∧ c.state.intStatus = 0) ∧
        ((c.thread .ist).step e
          { c.state with intStatus := VIRTIO_MMIO_INT_VIRTQ }).isSome = true

theorem gpioEnv_contexts {move : GpioDeviceMove} {w w' : GpioSystem}
    (hmove : gpioEnv move w = some w') : w'.contexts = w.contexts := by
  cases move with
  | take =>
      rcases Option.map_eq_some_iff.mp hmove with ⟨d, _, rfl⟩
      rfl
  | answer pos status value =>
      rcases GpioSystem.answerRequest_cases hmove with ⟨head, _, _, rfl⟩
      rfl
  | store pos len =>
      simp only [gpioEnv] at hmove
      split at hmove
      · rcases Option.map_eq_some_iff.mp hmove with ⟨r, _, rfl⟩
        rfl
      · cases hmove
  | bump =>
      rcases Option.map_eq_some_iff.mp hmove with ⟨r, _, rfl⟩
      rfl
  | raiseVirtq =>
      simp only [gpioEnv] at hmove
      split at hmove
      · cases hmove
        rfl
      · cases hmove
  | raiseConfig =>
      cases hmove
      rfl

section Runs

variable {mode : GpioMode} {transport : Transport} {config : VirtioGpioConfig}
  {scripts : Nat -> Nat -> GpioCall} {size : Nat} {legacy : Bool} {ok : Env -> Prop}
  {h h' : Host} {rc : Rc} {obj : VirtqObject} {c : Pool GpioThread Env GpioSystem}

theorem aliveContract_env (served : Bool) (move : GpioDeviceMove) (w : GpioSystem)
    (gs : GpioThread -> GpioGhost) (w' : GpioSystem)
    (hinv : (aliveContract mode scripts served).inv w gs) (hmove : gpioEnv move w = some w') :
    (aliveContract mode scripts served).inv w' gs := by
  rcases hinv with ⟨⟨fl, hinv⟩, hset⟩
  exact ⟨hinv.device hmove, hset.congr (gpioEnv_contexts hmove)⟩

theorem aliveContract_alive (served : Bool) (hcalm : mode.calm = true)
    (hsize : exists k, size = 2 ^ k)
    (hcreate : Prog.Runs ok h (virtqCreate size legacy) (rc, some obj) h')
    (hc : Pool.Reachable gpioEnv (aliveContract mode scripts served).ok
      (gpioPool transport config obj h'.mem scripts) c) (n : Nat) :
    exists gs, Contract.AllAlive (aliveContract mode scripts served)
      (gpioPatience transport served) (fun t _ => t = .ist ∧ served = false) n c gs := by
  have hfresh := (virtqCreate_fresh hcreate).2
  rcases hsize with ⟨k, hk⟩
  have hpos : 0 < size := by
    rw [hk]
    exact Nat.two_pow_pos k
  have hinit := gpioInv_fresh mode scripts hfresh hpos
    (dvd_of_pow_lt hk hfresh.size_lt) h'.mem
  have hinv : (aliveContract mode scripts served).inv (obj.gpioSystem h'.mem)
      initialGhosts :=
    ⟨⟨_, hinit⟩, CallbacksSet.initial obj h'.mem⟩
  refine Contract.allAlive_of_reachable hinv ?_ ?_ hc n
  · intro t
    cases t with
    | client t => exact (gpioClient_live hcalm rfl rfl).conseq fun _ _ h => h.elim
    | ist => exact (virtioIst_live hcalm rfl).conseq fun _ _ h => ⟨rfl, h⟩
  · intro move w gs w' _ hinv hmove
    exact aliveContract_env served move w gs w' hinv hmove

/-- Runs without signals in which the system grants every lock and the interrupt. -/
def servedOk (m : Move GpioThread Env GpioDeviceMove) (w : GpioSystem) : Prop :=
  gpioOk { calm := true, quiet := true, strict := true } m w ∧ granted m

end Runs

/-!
## A client that waits
-/

theorem exists_waiting : exists c, poolTwo.run gpioEnv submitMoves = some c ∧
    (c.thread (.client 0)).step {} c.state = none := by
  have hrun : ((poolTwo.run gpioEnv submitMoves).any fun c =>
      ((c.thread (.client 0)).step {} c.state).isNone) = true := by decide +kernel
  cases hc : poolTwo.run gpioEnv submitMoves with
  | none =>
      rw [hc] at hrun
      cases hrun
  | some c =>
      rw [hc] at hrun
      exact ⟨c, rfl, Option.isNone_iff_eq_none.mp hrun⟩

theorem servedOk_submitMoves : forall m, m ∈ submitMoves -> forall w, servedOk m w := by
  intro m hm w
  have hsteady : submitMoves.all steadyMove = true := by decide
  have hgranted : submitMoves.all (fun m => decide (granted m)) = true := by decide
  exact ⟨gpioOk_of_steady _ (List.all_eq_true.mp hsteady m hm) w,
    of_decide_eq_true (List.all_eq_true.mp hgranted m hm)⟩

end QnxVirtio
