import QnxVirtio.Foundation.Pool
import QnxVirtio.Virtq.Create
import QnxVirtio.Virtq.Device

/-!
# Ring integrity

Threads put and get chains while the device works on the rings, with every store
of the driver and of the device a step of its own.  As long as outstanding chains
use disjoint descriptors, nothing is overwritten or reordered, for every queue
whose size is a power of two.  For any other size there is a run that overwrites
an entry that the device has not read yet.
-/

namespace QnxVirtio

open Foundation

/-- A queue and its device. -/
structure RingWorld where
  queue : Queue
  device : Device

/-- A step of the device. -/
inductive DeviceMove
  | take
  | store (pos : Nat) (len : UInt32)
  | bump

def DeviceMove.step (move : DeviceMove) (q : Queue) (d : Device) :
    Option (Queue × Device) :=
  match move with
  | .take => (d.take q.vq).map fun d' => (q, d')
  | .store pos len =>
      (d.store pos len q.vq).map fun r => ({ q with vq := r.1 }, r.2)
  | .bump => (d.bump q.vq).map fun r => ({ q with vq := r.1 }, r.2)

def ringEnv (move : DeviceMove) (w : RingWorld) : Option RingWorld :=
  (move.step w.queue w.device).map fun r => { queue := r.1, device := r.2 }

/-- A call of a client thread. -/
inductive RingCall
  | put (head : UInt16) (rest : List UInt16)
  | get (count : Nat)

def onRingQueue {α : Type} (p : Prog Env Queue α) : Prog Env RingWorld α :=
  Prog.zoom RingWorld.queue (fun q w => { w with queue := q }) p

/-- One round of a client: the `n`-th call of its script. -/
def ringRound (script : Nat -> RingCall) (n : Nat) :
    Prog Env RingWorld (Nat ⊕ Unit) :=
  match script n with
  | .put head rest =>
      (onRingQueue (virtqPutDescChain head rest)).bind fun _ =>
        Prog.ret (.inl (n + 1))
  | .get count =>
      (onRingQueue (virtqGetDescChain count)).bind fun _ =>
        Prog.ret (.inl (n + 1))

def ringClient (script : Nat -> RingCall) : Prog Env RingWorld Unit :=
  Prog.iterate (ringRound script) 0

/-- Outstanding chains use disjoint descriptors of the queue. -/
structure ChainsApart (q : Queue) (d : Device) : Prop where
  lt : forall pos (p : Published), Outstanding q d pos -> q.published[pos]? = some p ->
    forall idx, idx ∈ p.chain -> idx.toNat < q.vq.num.toNat
  disjoint : forall pos pos' (p p' : Published), Outstanding q d pos -> Outstanding q d pos' ->
    pos ≠ pos' -> q.published[pos]? = some p -> q.published[pos']? = some p' ->
    p.chain.Disjoint p'.chain

/-- The condition on a run: chains are apart whenever something moves. -/
def ringOk (_ : Move Nat Env DeviceMove) (w : RingWorld) : Prop :=
  ChainsApart w.queue w.device

def ringPool (obj : VirtqObject) (mem : Memory)
    (scripts : Nat -> Nat -> RingCall) : Pool Nat Env RingWorld where
  state := { queue := obj.queue mem, device := Device.initial }
  thread := fun t => ringClient (scripts t)

/-- The states that clients with these scripts and the device can reach. -/
def RingReachable (obj : VirtqObject) (mem : Memory)
    (scripts : Nat -> Nat -> RingCall) (w : RingWorld) : Prop :=
  exists c, Pool.Reachable ringEnv ringOk (ringPool obj mem scripts) c ∧
    c.state = w ∧ ChainsApart w.queue w.device

/-- Nothing is lost, reordered or overwritten on the way through the rings. -/
structure RingIntegrity (q : Queue) (d : Device) : Prop where
  consumed : forall (k : Nat) (head : UInt16), d.consumed[k]? = some head ->
    exists p : Published, q.published[k]? = some p ∧ p.head = head
  retrieved : forall (k : Nat) (chain : List UInt16), q.retrieved[k]? = some chain ->
    exists e : UsedEntry, d.produced[k]? = some e ∧
      chain.head? = some e.elem.id.toUInt16
  availKept : forall (k : Nat) (p : Published), d.consumed.length <= k ->
    q.published[k]? = some p ->
    q.vq.availRing (ringSlot q.vq.num k) = p.head
  usedKept : forall (k : Nat) (e : UsedEntry), q.retrieved.length <= k -> d.produced[k]? = some e ->
    q.vq.usedRing (ringSlot q.vq.num k) = e.elem

/-!
## Sizes that are powers of two
-/

theorem ChainsApart.headsApart {q : Queue} {d : Device} (h : ChainsApart q d) :
    HeadsApart q d where
  lt := by
    intro pos head hout hhead
    rw [Queue.heads, List.getElem?_map] at hhead
    rcases Option.map_eq_some_iff.mp hhead with ⟨p, hp, rfl⟩
    exact h.lt pos p hout hp p.head (List.mem_cons_self ..)
  inj := by
    intro pos pos' head hout hout' hhead hhead'
    rw [Queue.heads, List.getElem?_map] at hhead hhead'
    rcases Option.map_eq_some_iff.mp hhead with ⟨p, hp, rfl⟩
    rcases Option.map_eq_some_iff.mp hhead' with ⟨p', hp', heq⟩
    by_contra hne
    refine h.disjoint pos pos' p p' hout hout' hne hp hp'
      (List.mem_cons_self ..) ?_
    rw [← heq]
    exact List.mem_cons_self ..

theorem ChainsApart.congr {q q' : Queue} {d d' : Device} (h : ChainsApart q d)
    (hnum : q'.vq.num = q.vq.num) (hpub : q'.published = q.published)
    (hret : q'.retrieved = q.retrieved) (hpos : d'.positions = d.positions) :
    ChainsApart q' d' := by
  have hout : forall pos, Outstanding q' d' pos -> Outstanding q d pos := by
    intro pos hpos'
    unfold Outstanding retiredPositions at hpos' ⊢
    rw [hpub, hret, hpos] at hpos'
    exact hpos'
  constructor
  · intro pos p ho hp
    rw [hnum]
    exact h.lt pos p (hout pos ho) (hpub ▸ hp)
  · intro pos pos' p p' ho ho' hne hp hp'
    exact h.disjoint pos pos' p p' (hout pos ho) (hout pos' ho') hne
      (hpub ▸ hp) (hpub ▸ hp')

theorem RingFlow.integrity {q : Queue} {d : Device} (h : RingFlow q d) :
    RingIntegrity q d where
  consumed := by
    intro k head hk
    have hlt := (List.getElem?_eq_some_iff.mp hk).1
    rcases h.consumed with ⟨rest, hrest⟩
    have hhead : q.heads[k]? = some head := by
      rw [← hrest, List.getElem?_append_left hlt, hk]
    rw [Queue.heads, List.getElem?_map] at hhead
    exact Option.map_eq_some_iff.mp hhead
  retrieved := by
    intro k chain hk
    rcases h.retrieved with ⟨rest, hrest⟩
    have hlt := (List.getElem?_eq_some_iff.mp hk).1
    have hmap := congrArg (fun l => l[k]?) hrest
    simp only [List.getElem?_map] at hmap
    rw [List.getElem?_append_left (by simpa using hlt), List.getElem?_map, hk] at hmap
    rcases Option.map_eq_some_iff.mp hmap.symm with ⟨e, he, heq⟩
    exact ⟨e, he, heq.symm⟩
  availKept := by
    intro k p hk hp
    exact h.avail.get k p.head hk (by rw [Queue.heads, List.getElem?_map, hp]; rfl)
  usedKept := by
    intro k e hk he
    exact h.used.get k e.elem hk (by rw [List.getElem?_map, he]; rfl)

/-!
## Every interleaving
-/

/-- Chains that are apart flow through the rings in order. -/
def ringContract : Contract Nat Env DeviceMove RingWorld Unit where
  env := ringEnv
  ok := ringOk
  inv w _ := ChainsApart w.queue w.device -> RingFlow w.queue w.device

theorem ringContract_device {move : DeviceMove} {w w' : RingWorld}
    (happart : ChainsApart w.queue w.device) (h : RingFlow w.queue w.device)
    (hstep : ringEnv move w = some w') : RingFlow w'.queue w'.device := by
  rcases Option.map_eq_some_iff.mp hstep with ⟨⟨q', d'⟩, hmove, rfl⟩
  cases move with
  | take =>
      rcases Option.map_eq_some_iff.mp hmove with ⟨d1, htake, hout⟩
      cases hout
      exact h.take htake
  | store pos len =>
      rcases Option.map_eq_some_iff.mp hmove with ⟨⟨vq1, d1⟩, hstore, hout⟩
      cases hout
      exact h.store happart.headsApart hstore
  | bump =>
      rcases Option.map_eq_some_iff.mp hmove with ⟨⟨vq1, d1⟩, hbump, hout⟩
      cases hout
      exact h.bump happart.headsApart hbump

theorem ringContract_action {α : Type} {t : Nat}
    {f : Env -> Queue -> Option (α × Queue)}
    (hf : forall e (q : Queue) (d : Device) a q', RingFlow q d ->
      ChainsApart q' d -> f e q = some (a, q') -> RingFlow q' d) :
    ringContract.Triple t () (onRingQueue (Prog.action f)) fun _ _ => True := by
  apply Contract.Triple.act
  intro e w gs a w' hok hinv _ hstep
  rcases Option.map_eq_some_iff.mp hstep with ⟨⟨a1, q'⟩, hact, hout⟩
  cases hout
  refine ⟨(), ?_, Contract.Triple.ret trivial⟩
  intro happart'
  exact hf e w.queue w.device a1 q' (hinv hok) happart' hact

theorem onRingQueue_bind {α β : Type} (p : Prog Env Queue α)
    (f : α -> Prog Env Queue β) :
    onRingQueue (p.bind f) = (onRingQueue p).bind fun a => onRingQueue (f a) :=
  Prog.zoom_bind p f

theorem setDesc_ring (t : Nat) (idx : UInt16) (f : VirtqDesc -> VirtqDesc) :
    ringContract.Triple t () (onRingQueue (setDesc idx f)) fun _ _ => True := by
  apply ringContract_action
  intro e q d a q' hflow _ hf
  cases hf
  exact hflow.congr ⟨rfl, rfl, rfl, rfl, rfl, rfl, rfl, rfl⟩

theorem linkChain_ring (t : Nat) (rest : List UInt16) :
    forall head, ringContract.Triple t () (onRingQueue (linkChain head rest))
      fun _ _ => True := by
  induction rest with
  | nil => exact fun head => setDesc_ring t head _
  | cons idx rest ih =>
      intro head
      unfold linkChain
      simp only [Prog.bind_eq_bind, onRingQueue_bind]
      apply (setDesc_ring t head _).bind
      intro _ _ _
      apply (setDesc_ring t head _).bind
      intro _ _ _
      exact ih idx

theorem virtqPutDescChain_ring (t : Nat) (head : UInt16) (rest : List UInt16) :
    ringContract.Triple t () (onRingQueue (virtqPutDescChain head rest))
      fun _ _ => True := by
  unfold virtqPutDescChain
  simp only [Prog.bind_eq_bind, onRingQueue_bind]
  apply (linkChain_ring t rest head).bind
  intro _ _ _
  apply ringContract_action
  intro e q d rc q' hflow happart hf
  split at hf
  · cases hf
    exact hflow
  · cases hf
    exact hflow.publish { head := head
                          rest := rest
                          context := (q.vq.descExtras head).context } rfl
      happart.headsApart

theorem virtqGetDescChain_ring (t : Nat) (count : Nat) :
    ringContract.Triple t () (onRingQueue (virtqGetDescChain count))
      fun _ _ => True := by
  apply ringContract_action
  intro e q d r q' hflow _ hf
  rcases Option.map_eq_some_iff.mp hf with ⟨⟨out, vq'⟩, hget, hout⟩
  cases hout
  cases out with
  | ok chain => exact (hflow.retrieve hget).2.2
  | error rc =>
      rw [getDescChain_error hget]
      exact hflow

theorem ringClient_triple (t : Nat) (script : Nat -> RingCall) :
    ringContract.Triple t () (ringClient script) fun _ _ => True := by
  apply Contract.Triple.loop (J := fun _ _ => True) (R := fun _ _ => True)
  · intro n g _
    unfold ringRound
    cases script n with
    | put head rest =>
        apply (virtqPutDescChain_ring t head rest).bind
        intro _ _ _
        exact Contract.Triple.ret trivial
    | get count =>
        apply (virtqGetDescChain_ring t count).bind
        intro _ _ _
        exact Contract.Triple.ret trivial
  · intro _ _ _
    exact Contract.Triple.ret trivial
  · trivial

theorem dvd_of_pow_lt {size k : Nat} (hk : size = 2 ^ k) (hlt : size < 65536) :
    size ∣ 65536 := by
  have hle : k <= 16 := by
    by_contra hgt
    have := Nat.pow_le_pow_right (show 0 < 2 by omega) (show 17 <= k by omega)
    omega
  rw [hk]
  exact Nat.pow_dvd_pow 2 hle

theorem Virtq.Fresh.ringFlow {size : Nat} {legacy : Bool} {obj : VirtqObject}
    (hfresh : Virtq.Fresh size legacy obj.vq) (hpos : 0 < size)
    (hdvd : size ∣ 65536) (mem : Memory) :
    RingFlow (obj.queue mem) Device.initial := by
  have hnum : obj.vq.num.toNat = size := hfresh.num_toNat
  rcases hfresh.shape with ⟨d, a, u, fifo, heq⟩
  apply RingFlow.initial
  · change 0 < obj.vq.num.toNat
    rw [hnum]
    exact hpos
  · change obj.vq.num.toNat ∣ 65536
    rw [hnum]
    exact hdvd
  · exact congrArg Virtq.availIdx heq
  · exact congrArg Virtq.usedIdx heq
  · exact congrArg Virtq.lastSeenUsed heq
  · rfl
  · rfl

/-- In every run of any clients with the device, a queue whose size is a power of
two keeps its rings intact. -/
theorem ring_integrity_of_dvd {size : Nat} {legacy : Bool} {obj : VirtqObject}
    (hfresh : Virtq.Fresh size legacy obj.vq) (hpos : 0 < size)
    (hdvd : size ∣ 65536) {mem : Memory} {scripts : Nat -> Nat -> RingCall}
    {w : RingWorld} (hreach : RingReachable obj mem scripts w) :
    RingIntegrity w.queue w.device := by
  rcases hreach with ⟨c, hc, rfl, happart⟩
  have hinit := hfresh.ringFlow hpos hdvd mem
  rcases ringContract.invariant_of_reachable
      (show ringContract.inv _ fun _ => () from fun _ => hinit)
      (fun t => ringClient_triple t (scripts t))
      (fun move w gs w' hok hinv hstep happart' =>
        ringContract_device hok (hinv hok) hstep) hc with ⟨gs, hinv⟩
  exact (hinv happart).integrity

end QnxVirtio
