import QnxVirtio.Gpio.ChainIst
import QnxVirtio.Gpio.Routing

/-!
# A descriptor for every client

When nothing fails and the queue has more than two descriptors for each client, every
client that asks for a descriptor gets one.  Two descriptors for each client are not
enough: the interrupt thread wakes a client before it frees the descriptors of its
request.
-/

namespace QnxVirtio

open Foundation

/-!
## The device
-/

section Device

variable {w : GpioSystem} {gs : GpioThread -> ChainGhost} {fl : Nat -> Holding}
  {flying : Flying} {k : Nat}

theorem ChainsInv.respond (h : ChainsInv w gs fl flying) {x : Nat × Published}
    (hx : x ∈ flying) (status value : UInt8) :
    exists fl', ChainsInv { w with queue := { w.queue with
      mem := w.queue.mem.store
        (w.queue.vq.desc (w.queue.vq.desc x.2.head).next).addr [status, value] } }
      gs fl' flying := by
  rcases h.pair x hx with ⟨ptr, b0, b1, hcontext, ⟨⟨resp, m0, m1, hrest, hne, hmne,
    hlen0, hlen1, hhold⟩⟩⟩
  have hcell0 : (holders gs fl (.chain x.1)).desc x.2.head =
      some (requestCell m0 resp x.2.context) := by
    rw [holders_chain, hhold]
    exact pairHolding_head hne
  have hcell1 : (holders gs fl (.chain x.1)).desc resp = some (responseCell m1) := by
    rw [holders_chain, hhold]
    exact pairHolding_resp
  have hreg1 : (holders gs fl (.chain x.1)).region m1 = some b1 := by
    rw [holders_chain, hhold]
    exact pairHolding_response
  have haddr : (w.queue.vq.desc (w.queue.vq.desc x.2.head).next).addr = m1.paddr := by
    have hd0 : w.queue.vq.desc x.2.head = (requestCell m0 resp x.2.context).desc :=
      congrArg DescCell.desc (h.holding.descs.known _ _ _ hcell0)
    have hd1 : w.queue.vq.desc resp = (responseCell m1).desc :=
      congrArg DescCell.desc (h.holding.descs.known _ _ _ hcell1)
    rw [hd0]
    exact congrArg VirtqDesc.addr hd1
  have hb1 : b1.length = 2 := (h.holding.length_region hreg1).trans hlen1
  have hover : overwrite b1 0 [status, value] = [status, value] := by
    match b1, hb1 with
    | [_, _], _ => rfl
  have hwrite := h.holding.writeRegion hreg1
    (show 0 + [status, value].length <= m1.len from Nat.le_of_eq hlen1.symm)
  rw [hover, Nat.add_zero] at hwrite
  rw [haddr]
  refine ⟨Function.update fl x.1 ((fl x.1).setRegion m1 (some [status, value])), ?_⟩
  constructor
  case holding =>
    rw [holders_update_chain]
    exact hwrite
  case keys => exact h.keys
  case published => exact h.published
  case pair =>
    intro y hy
    by_cases hpos : y.1 = x.1
    · have heq : y.2 = x.2 := by
        have hy' := h.published y hy
        rw [hpos, h.published x hx] at hy'
        exact (Option.some.inj hy').symm
      rw [hpos, Function.update_self, heq, hhold, pairHolding_setResponse]
      exact ⟨ptr, b0, [status, value], hcontext,
        ⟨⟨resp, m0, m1, hrest, hne, hmne, hlen0, hlen1, rfl⟩⟩⟩
    · rw [Function.update_of_ne hpos]
      exact h.pair y hy
  case chains => exact h.chains
  case retrieved => exact h.retrieved

theorem ChainsInv.take (h : ChainsInv w gs fl flying) {d' : Device} :
    ChainsInv { w with device := d' } gs fl flying :=
  h.congr h.holding rfl rfl rfl

theorem ChainsInv.onUsed (h : ChainsInv w gs fl flying) {vq' : Virtq} {d' : Device}
    {raise : Bool} (hfree : vq'.freeDescs = w.queue.vq.freeDescs)
    (hnum : vq'.num = w.queue.vq.num) (hcell : vq'.cell = w.queue.vq.cell) :
    ChainsInv { w with
      queue := { w.queue with vq := vq' }
      device := d'
      raise := raise } gs fl flying :=
  h.congr (h.holding.congr hfree hnum hcell rfl) rfl rfl rfl

theorem Accounts.device (h : Accounts k w gs flying) {w' : GpioSystem}
    (hnum : w'.queue.vq.num = w.queue.vq.num)
    (hfree : w'.queue.vq.freeDescs = w.queue.vq.freeDescs)
    (hpub : w'.queue.published = w.queue.published)
    (hret : w'.queue.retrieved = w.queue.retrieved)
    (hpositions : forall pos, Outstanding w'.queue w'.device pos ->
      Outstanding w.queue w.device pos)
    (hdelivered : w'.delivered = w.delivered) (hreturns : w'.returns = w.returns) :
    Accounts k w' gs flying :=
  h.congr ⟨hnum, hpub, hret, hpositions, hdelivered, hreturns⟩
    (Virtq.freeList_congr hfree) fun _ => ⟨⟨rfl, rfl, rfl⟩, rfl⟩

theorem Accounts.answered (h : Accounts k w gs flying) (hsettled : Settled w) {pos : Nat}
    {head : UInt16} (hhead : w.device.consumed[pos]? = some head)
    (hnew : pos ∉ w.answers.map GpioAnswer.pos) :
    exists x, x ∈ flying ∧ x.2.head = head := by
  have hlt := (List.getElem?_eq_some_iff.mp hhead).1
  have hout := hsettled.unanswered pos hlt hnew
  have hpublt : pos < w.queue.published.length := hout.1
  have hp : w.queue.published[pos]? = some w.queue.published[pos] :=
    List.getElem?_eq_getElem hpublt
  refine ⟨_, h.outstanding pos _ hout hp, ?_⟩
  rcases hsettled.ring.consumed with ⟨tail, htail⟩
  have hheads : w.queue.heads[pos]? = some head := by
    rw [← htail]
    exact getElem?_append_of_some hhead tail
  rw [Queue.heads, List.getElem?_map, hp] at hheads
  exact Option.some.inj hheads

theorem Accounts.move (h : Accounts k w gs flying) (hinv : ChainsInv w gs fl flying)
    (hsettled : Settled w) {move : GpioDeviceMove} {w' : GpioSystem}
    (hmove : gpioEnv move w = some w') :
    (exists fl', ChainsInv w' gs fl' flying) ∧ Accounts k w' gs flying := by
  cases move with
  | take =>
      rcases Option.map_eq_some_iff.mp hmove with ⟨d', htake, rfl⟩
      unfold Device.take at htake
      split at htake
      · cases htake
      · cases htake
        exact ⟨⟨fl, hinv.take⟩, h.device rfl rfl rfl rfl (fun _ hout => hout) rfl rfl⟩
  | answer pos status value =>
      rcases GpioSystem.answerRequest_cases hmove with ⟨head, hhead, hnew, rfl⟩
      rcases h.answered hsettled hhead hnew with ⟨x, hx, rfl⟩
      rcases hinv.respond hx status value with ⟨fl', hrespond⟩
      exact ⟨⟨fl', hrespond.congr hrespond.holding rfl rfl rfl⟩,
        h.device rfl rfl rfl rfl (fun _ hout => hout) rfl rfl⟩
  | store pos len =>
      dsimp only [gpioEnv] at hmove
      split at hmove
      · rcases Option.map_eq_some_iff.mp hmove with ⟨⟨vq', d'⟩, hstore, rfl⟩
        unfold Device.store at hstore
        split at hstore
        · split at hstore
          · cases hstore
          · cases hstore
            exact ⟨⟨fl, hinv.onUsed rfl rfl rfl⟩,
              h.device rfl rfl rfl rfl (fun _ hout => hout) rfl rfl⟩
        · cases hstore
      · cases hmove
  | bump =>
      rcases Option.map_eq_some_iff.mp hmove with ⟨⟨vq', d'⟩, hbump, rfl⟩
      rcases Option.map_eq_some_iff.mp hbump with ⟨e, _, hout⟩
      cases hout
      have hle : w.queue.retrieved.length <= w.device.positions.length := by
        rw [Device.length_positions]
        exact hsettled.ring.retrieved_le
      exact ⟨⟨fl, hinv.onUsed rfl rfl rfl⟩,
        h.device rfl rfl rfl rfl (fun _ hout => outstanding_bump hle hout) rfl rfl⟩
  | raiseVirtq =>
      dsimp only [gpioEnv] at hmove
      split at hmove
      · cases hmove
        exact ⟨⟨fl, hinv.congr hinv.holding rfl rfl rfl⟩,
          h.device rfl rfl rfl rfl (fun _ hout => hout) rfl rfl⟩
      · cases hmove
  | raiseConfig =>
      cases hmove
      exact ⟨⟨fl, hinv.congr hinv.holding rfl rfl rfl⟩,
        h.device rfl rfl rfl rfl (fun _ hout => hout) rfl rfl⟩

end Device

/-!
## Runs in which nothing fails
-/

/-- Nothing fails, no signal ends a wait, and `k` clients run. -/
def steadySetting (k : Nat) : ChainSetting GpioDeviceMove where
  env := gpioEnv
  ok := fun m w => SteadyMove k m ∧ Settled w
  bound := some k
  steady := by
    rintro k' hk m w hok
    cases hk
    exact hok

theorem steadySetting_meets (k : Nat) : (steadySetting k).Meets := by
  intro e w gs fl flying chain vq' hok hinv hacc hget
  rcases (hacc k rfl).nextChain hinv hok.2.ring hget with ⟨x, hx, hchain, hpos⟩
  exact ⟨x, hx, hchain, fun _ _ => hpos⟩

def steadyRuns : GpioMode where
  calm := true
  quiet := true
  strict := true

theorem gpioOk_of_steadyMove {k : Nat} {m : Move GpioThread Env GpioDeviceMove}
    {w : GpioSystem} (h : SteadyMove k m) : gpioOk steadyRuns m w := by
  cases m with
  | thread t e =>
      cases t with
      | client t =>
          refine ⟨fun _ => h.1.interrupted, fun _ hintr => ?_⟩
          rw [h.1.interrupted] at hintr
          cases hintr
      | ist => exact fun _ => h.1.lock
  | env d => trivial

/-- The states that runs of `k` clients reach when nothing fails. -/
def SteadyReachable (k : Nat) (transport : Transport) (config : VirtioGpioConfig)
    (obj : VirtqObject) (mem : Memory) (scripts : Nat -> Nat -> GpioCall)
    (w : GpioSystem) : Prop :=
  exists c, Pool.Reachable gpioEnv (fun m _ => SteadyMove k m)
    (gpioPool transport config obj mem scripts) c ∧ c.state = w

theorem SteadyReachable.gpio {k : Nat} {transport : Transport} {config : VirtioGpioConfig}
    {obj : VirtqObject} {mem : Memory} {scripts : Nat -> Nat -> GpioCall} {w : GpioSystem}
    (h : SteadyReachable k transport config obj mem scripts w) :
    GpioReachable steadyRuns transport config obj mem scripts w := by
  rcases h with ⟨c, hc, rfl⟩
  exact ⟨c, hc.mono fun _ _ hm => gpioOk_of_steadyMove hm, rfl⟩

theorem GpioInv.settled {scripts : Nat -> Nat -> GpioCall} {w : GpioSystem}
    {gs : GpioThread -> GpioGhost} {fl : Nat -> Holding}
    (h : GpioInv steadyRuns scripts w gs fl) : Settled w where
  ring := h.flow.ring
  asleep := by
    intro p hp ptr hcontext hnot
    have hctx := h.context rfl
    rcases List.mem_iff_getElem?.mp hp with ⟨pos, hpos⟩
    have hsent := hctx.live pos p ptr hpos hcontext hnot
    have hstage := hctx.stages ptr.thread
    rw [hsent] at hstage
    rcases hstage.2 with ⟨c, _, hc, _, _, hasleep, _⟩
    exact ⟨c, hc, hasleep hnot⟩
  unanswered := fun pos hlt hnew => h.flow.outstanding_of_unanswered hlt hnew

/-!
## Initially
-/

section Fresh

variable {size : Nat} {legacy : Bool} {obj : VirtqObject}

theorem chainsInv_fresh (h : Virtq.Fresh size legacy obj.vq) (mem : Memory) :
    ChainsInv (obj.gpioSystem mem) (fun _ => ChainGhost.initial)
      (fun _ => Holding.empty) [] where
  holding := holdInv_fresh h mem
  keys := List.nodup_nil
  published := by simp
  pair := by simp
  chains := List.Perm.refl _
  retrieved := rfl

theorem accounts_fresh {k : Nat} (h : Virtq.Fresh size legacy obj.vq)
    (hroom : 2 * k < size) (mem : Memory) :
    Accounts k (obj.gpioSystem mem) (fun _ => ChainGhost.initial) [] where
  room := by
    change 2 * k < obj.vq.num.toNat
    rw [h.num_toNat]
    exact hroom
  covered := by
    intro idx hidx
    have hcover := ((Conserved.fresh h mem).cover idx).mp hidx
    exact Or.inl (hcover.resolve_right List.not_mem_nil)
  short := fun _ => Nat.zero_le _
  outside := fun _ _ => rfl
  asleep := by
    intro t ht
    cases ht
  undelivered := by
    intro p hp
    cases hp
  before := by
    intro p hp
    cases hp
  delivered := by
    intro ptr hptr
    cases hptr
  contexts := List.nodup_nil
  fresh := by
    intro x hx
    cases hx
  serving := by
    intro p hp
    cases hp
  outstanding := by
    intro pos p _ hp
    cases hp
  returns := by
    intro r hr
    cases hr

end Fresh

/-!
## Enough descriptors
-/

/-- No call that returned found the free list empty. -/
def NoneExhausted (w : GpioSystem) : Prop :=
  forall r, r ∈ w.returns -> r.result.rc ≠ .ENOENT

/-- With more than two descriptors for each client, no call fails for want of one. -/
theorem descriptors_suffice {k : Nat} {transport : Transport} {config : VirtioGpioConfig}
    {scripts : Nat -> Nat -> GpioCall} {size : Nat} {legacy : Bool} {h h' : Host}
    {rc : Rc} {obj : VirtqObject} {w : GpioSystem} (hsize : exists m, size = 2 ^ m)
    (hcreate : Prog.Runs (fun _ => True) h (virtqCreate size legacy) (rc, some obj) h')
    (hroom : 2 * k < size)
    (hreach : SteadyReachable k transport config obj h'.mem scripts w) :
    NoneExhausted w := by
  have hfresh := (virtqCreate_fresh hcreate).2
  have hsettled : forall c, Pool.Reachable gpioEnv (fun m _ => SteadyMove k m)
      (gpioPool transport config obj h'.mem scripts) c -> Settled c.state := by
    intro c hc
    have hgpio : SteadyReachable k transport config obj h'.mem scripts c.state :=
      ⟨c, hc, rfl⟩
    rcases hgpio.gpio.inv hsize hcreate with ⟨gs, fl, hinv⟩
    exact hinv.settled
  rcases hreach with ⟨c, hc, rfl⟩
  have hinit : (steadySetting k).contract.inv (obj.gpioSystem h'.mem)
      fun _ => ChainGhost.initial := by
    refine ⟨_, _, chainsInv_fresh hfresh h'.mem, ?_⟩
    rintro k' hk
    cases hk
    exact accounts_fresh hfresh hroom h'.mem
  have hinv : exists gs, (steadySetting k).contract.inv c.state gs := by
    apply (steadySetting k).contract.invariant_of_reachable hinit ?_ ?_
      (hc.strengthen hsettled)
    · intro t
      cases t with
      | client t => exact (steadySetting k).client_triple
      | ist => exact (steadySetting k).ist_triple (steadySetting_meets k)
    · rintro move w gs w' hok ⟨fl, flying, hinv, hacc⟩ hmove
      rcases (hacc k rfl).move hinv hok.2 hmove with ⟨⟨fl', hinv'⟩, hacc'⟩
      refine ⟨fl', flying, hinv', ?_⟩
      rintro k' hk
      cases hk
      exact hacc'
  rcases hinv with ⟨gs, fl, flying, _, hacc⟩
  exact (hacc k rfl).returns

/-!
## Runs of one client
-/

/-- `n` steps of a thread in which every call succeeds, with a mapping at page `page`. -/
def steadySteps (t : GpioThread) (n page : Nat) : List GpioMove :=
  List.replicate n (.thread t { mmap := .ok (4096 * page, 4096 * page) })

/-- Client 0 calls, the device answers, and the interrupt thread posts the context. -/
def postedMoves : List GpioMove :=
  steadySteps (.client 0) 15 100 ++ steadySteps (.client 0) 19 200 ++ completeMoves ++
    [.env .raiseVirtq] ++ steadySteps .ist 20 300

theorem steadyMove_of_mem {t : GpioThread} (ht : forall u, t = .client u -> u < 1)
    {n page : Nat} {m : GpioMove} (hm : m ∈ steadySteps t n page) : SteadyMove 1 m := by
  rw [(List.mem_replicate.mp hm).2]
  refine ⟨⟨rfl, ⟨_, rfl⟩, ?_, rfl⟩, ht⟩
  intro f hf
  cases hf

theorem steadyMove_client {n page : Nat} {m : GpioMove}
    (hm : m ∈ steadySteps (.client 0) n page) : SteadyMove 1 m := by
  refine steadyMove_of_mem (fun u hu => ?_) hm
  cases hu
  exact Nat.one_pos

theorem steadyMove_posted {m : GpioMove} (hm : m ∈ postedMoves) : SteadyMove 1 m := by
  simp only [postedMoves, completeMoves, List.mem_append, List.mem_cons,
    List.not_mem_nil, or_false] at hm
  rcases hm with (((hm | hm) | rfl | rfl | rfl | rfl) | rfl) | hm
  · exact steadyMove_client hm
  · exact steadyMove_client hm
  · exact trivial
  · exact trivial
  · exact trivial
  · exact trivial
  · exact trivial
  · exact steadyMove_of_mem (fun u hu => by cases hu) hm

theorem steadyReachable_run {obj : VirtqObject} {mem : Memory} {moves : List GpioMove}
    {c : Pool GpioThread Env GpioSystem} (hmoves : forall m, m ∈ moves -> SteadyMove 1 m)
    (hrun : (gpioPool .mmio configEight obj mem setLineScripts).run gpioEnv
      (postedMoves ++ moves) = some c) :
    SteadyReachable 1 .mmio configEight obj mem setLineScripts c.state := by
  refine ⟨c, Pool.reachable_run Pool.Reachable.refl (fun m hm _ => ?_) hrun, rfl⟩
  rcases List.mem_append.mp hm with hm | hm
  · exact steadyMove_posted hm
  · exact hmoves m hm

def createdFour : (Rc × Option VirtqObject) × Host :=
  (Prog.exec (succeedingEnvs 19 1) Host.initial (virtqCreate 4 false)).get
    (by decide +kernel)

def queueFour : VirtqObject :=
  createdFour.1.2.get (by decide +kernel)

theorem queueFour_created :
    Prog.Runs (fun _ => True) Host.initial (virtqCreate 4 false)
      (createdFour.1.1, some queueFour) createdFour.2 := by
  have hrun : Prog.Runs (fun _ => True) Host.initial (virtqCreate 4 false)
      createdFour.1 createdFour.2 :=
    Prog.runs_of_exec (fun _ _ => trivial) (Option.some_get _).symm
  have hobj : createdFour.1 = (createdFour.1.1, some queueFour) :=
    Prod.ext rfl (Option.some_get _).symm
  rw [← hobj]
  exact hrun

/-- With four descriptors, client 0 publishes its second request before the interrupt
thread has freed the descriptors of the first one. -/
theorem descriptors_suffice_four : exists w : GpioSystem,
    w.returns.length = 1 ∧ w.queue.published.length = 2 ∧ w.queue.vq.freeList = [] ∧
      NoneExhausted w := by
  have hrun : ((gpioPool .mmio configEight queueFour createdFour.2.mem
      setLineScripts).run gpioEnv (postedMoves ++ (steadySteps (.client 0) 19 400 ++
        steadySteps (.client 0) 17 500))).any (fun c => c.state.returns.length == 1 &&
          c.state.queue.published.length == 2 &&
            c.state.queue.vq.freeList == []) = true := by decide +kernel
  rcases (Option.any_eq_true ..).mp hrun with ⟨c, hc, hstate⟩
  simp only [Bool.and_eq_true, beq_iff_eq] at hstate
  have hreach := steadyReachable_run (fun m hm => (List.mem_append.mp hm).elim
    steadyMove_client steadyMove_client) hc
  exact ⟨c.state, hstate.1.1, hstate.1.2, hstate.2,
    descriptors_suffice ⟨2, rfl⟩ queueFour_created (by decide) hreach⟩

/-- With two descriptors, the second call of client 0 fails: its semaphore is posted
before the descriptors of its first request are freed. -/
theorem descriptors_run_out : ¬ forall w : GpioSystem,
    SteadyReachable 1 .mmio configEight queueTwo createdTwo.2.mem setLineScripts w ->
      NoneExhausted w := by
  intro hall
  rcases exists_run (postedMoves ++ steadySteps (.client 0) 12 400)
    (P := fun w => w.returns.any fun r => r.result.rc == .ENOENT)
    (by decide +kernel) with ⟨c, hrun, hreturns⟩
  rcases List.any_eq_true.mp hreturns with ⟨r, hr, hrc⟩
  have hreach := steadyReachable_run (fun _ hm => steadyMove_client hm) hrun
  exact hall c.state hreach r hr (beq_iff_eq.mp hrc)

end QnxVirtio
