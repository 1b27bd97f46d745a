import QnxVirtio.Foundation.Framing
import QnxVirtio.Gpio.Frame
import QnxVirtio.Gpio.Publish

/-!
# Where the descriptors are

A descriptor is free, or with a client that builds a request, or in a chain in flight, or
with the interrupt thread that frees it.  This holds whatever the device puts into the
used ring, as long as the interrupt thread meets heads of chains in flight only.  When no
lock and no mapping fails and `k` clients run, nothing is lost either: every descriptor is
in one of these places.
-/

namespace QnxVirtio

open Foundation

/-!
## Ghosts
-/

/-- What a thread holds, and what it knows of its calls and chains. -/
structure ChainGhost where
  holding : Holding
  /-- The descriptors that the thread has to give back. -/
  descs : List UInt16
  /-- The call of a client that may publish next, or that waits. -/
  call : Nat
  waiting : Bool
  /-- The chains that the interrupt thread has retrieved. -/
  retrieved : List (List UInt16)
  /-- The chain that it is about to deliver. -/
  serving : Option Published

/-- The ghost of a thread that has not started. -/
def ChainGhost.initial : ChainGhost where
  holding := Holding.empty
  descs := []
  call := 0
  waiting := false
  retrieved := []
  serving := none

def ChainGhost.gpio (g : ChainGhost) : GpioGhost where
  holding := g.holding
  stage := .idle 0
  phase := .away

/-- The holdings of the threads and of the chains in flight. -/
def holders (gs : GpioThread -> ChainGhost) (fl : Nat -> Holding) : GpioOwner -> Holding :=
  holdings (ChainGhost.gpio ∘ gs) fl

theorem holders_thread (gs : GpioThread -> ChainGhost) (fl : Nat -> Holding)
    (t : GpioThread) : holders gs fl (.thread t) = (gs t).holding := rfl

theorem holders_chain (gs : GpioThread -> ChainGhost) (fl : Nat -> Holding) (pos : Nat) :
    holders gs fl (.chain pos) = fl pos := rfl

theorem holders_update_thread (gs : GpioThread -> ChainGhost) (fl : Nat -> Holding)
    (t : GpioThread) (g : ChainGhost) :
    holders (Function.update gs t g) fl =
      Function.update (holders gs fl) (.thread t) g.holding := by
  unfold holders
  rw [Function.comp_update, holdings_update_thread]
  rfl

theorem holders_update_chain (gs : GpioThread -> ChainGhost) (fl : Nat -> Holding)
    (pos : Nat) (H : Holding) :
    holders gs (Function.update fl pos H) =
      Function.update (holders gs fl) (.chain pos) H :=
  holdings_update_chain (ChainGhost.gpio ∘ gs) fl pos H

/-!
## Chains in flight
-/

/-- The chains in flight by their place in the order of publication. -/
abbrev Flying : Type :=
  List (Nat × Published)

/-- Every chain is in flight or has been retrieved, and the chains in flight own their
descriptors and buffers. -/
structure ChainsInv (w : GpioSystem) (gs : GpioThread -> ChainGhost)
    (fl : Nat -> Holding) (flying : Flying) : Prop where
  holding : HoldInv w.queue (holders gs fl)
  keys : (flying.map Prod.fst).Nodup
  published : forall x, x ∈ flying -> w.queue.published[x.1]? = some x.2
  pair : forall x, x ∈ flying -> exists ptr b0 b1, x.2.context = some ptr ∧
    PairHolding x.2 b0 b1 (fl x.1)
  chains : (w.queue.published.map Published.chain).Perm
    (w.queue.retrieved ++ flying.map fun x => x.2.chain)
  retrieved : w.queue.retrieved = (gs .ist).retrieved

/-- Every descriptor of the queue is somewhere, and `k` clients can hold few of them. -/
structure Accounts (k : Nat) (w : GpioSystem) (gs : GpioThread -> ChainGhost)
    (flying : Flying) : Prop where
  room : 2 * k < w.queue.vq.num.toNat
  covered : forall idx, idx.toNat < w.queue.vq.num.toNat -> idx ∈ w.queue.vq.freeList ∨
    (exists t, idx ∈ (gs t).descs) ∨ exists x, x ∈ flying ∧ idx ∈ x.2.chain
  short : forall t, (gs t).descs.length <= 2
  outside : forall t, k <= t -> (gs (.client t)).descs = []
  /-- A client that waits has given its descriptors away. -/
  asleep : forall t, (gs (.client t)).waiting = true -> (gs (.client t)).descs = []
  /-- A chain that is not delivered belongs to a client that waits. -/
  undelivered : forall p, p ∈ w.queue.published -> forall ptr, p.context = some ptr ->
    ptr ∉ w.delivered -> ptr.thread < k ∧ (gs (.client ptr.thread)).waiting = true ∧
      (gs (.client ptr.thread)).call = ptr.call
  before : forall p, p ∈ w.queue.published -> forall ptr, p.context = some ptr ->
    ptr.call < (gs (.client ptr.thread)).call ∨
      ptr.call = (gs (.client ptr.thread)).call ∧
        (gs (.client ptr.thread)).waiting = true
  delivered : forall ptr, ptr ∈ w.delivered ->
    exists p, p ∈ w.queue.published ∧ p.context = some ptr
  /-- No two chains in flight, or about to be delivered, share a context. -/
  contexts : ((flying.map fun x => x.2.context) ++
    ((gs .ist).serving.map Published.context).toList).Nodup
  fresh : forall x, x ∈ flying -> forall ptr, x.2.context = some ptr -> ptr ∉ w.delivered
  serving : forall p, (gs .ist).serving = some p -> p ∈ w.queue.published
  outstanding : forall pos (p : Published), Outstanding w.queue w.device pos ->
    w.queue.published[pos]? = some p -> (pos, p) ∈ flying
  returns : forall r, r ∈ w.returns -> r.result.rc ≠ .ENOENT

/-!
## The contract
-/

/-- What is known of every state when the device conforms: the order of the rings, the
answers, and that the client of a chain that is not delivered sleeps. -/
structure Settled (w : GpioSystem) : Prop where
  ring : RingFlow w.queue w.device
  asleep : forall p, p ∈ w.queue.published -> forall ptr, p.context = some ptr ->
    ptr ∉ w.delivered -> exists c, w.contexts ptr = some c ∧ c.sem = some 0
  unanswered : forall pos, pos < w.device.consumed.length ->
    pos ∉ w.answers.map GpioAnswer.pos -> Outstanding w.queue w.device pos

/-- No lock, mapping or wait fails, and no address lookup with the code of an empty free
list. -/
structure SteadyEnv (e : Env) : Prop where
  lock : e.lock = .EOK
  mmap : exists a, e.mmap = .ok a
  memOffset : forall f, e.memOffset = some f -> f.val ≠ .ENOENT
  interrupted : e.interrupted = false

/-- Nothing fails, and client threads from `k` on do not run. -/
def SteadyMove {D : Type} (k : Nat) : Move GpioThread Env D -> Prop
  | .thread t e => SteadyEnv e ∧ forall u, t = .client u -> u < k
  | .env _ => True

/-- The surroundings of the threads; with a bound, the runs in which everything is
accounted for. -/
structure ChainSetting (D : Type) where
  env : D -> GpioSystem -> Option GpioSystem
  ok : Move GpioThread Env D -> GpioSystem -> Prop
  bound : Option Nat
  steady : forall k, bound = some k -> forall m w, ok m w -> SteadyMove k m ∧ Settled w

def ChainSetting.contract {D : Type} (Z : ChainSetting D) :
    Contract GpioThread Env D GpioSystem ChainGhost where
  env := Z.env
  ok := Z.ok
  inv := fun w gs => exists fl flying, ChainsInv w gs fl flying ∧
    forall k, Z.bound = some k -> Accounts k w gs flying

/-- In bounded runs the code is an error, and not the one of an empty free list. -/
def Refused {D : Type} (Z : ChainSetting D) (rc : Rc) : Prop :=
  forall k, Z.bound = some k -> rc ≠ .EOK ∧ rc ≠ .ENOENT

/-!
## Steps that leave the chains alone
-/

section Congr

variable {w w' : GpioSystem} {gs gs' : GpioThread -> ChainGhost} {fl : Nat -> Holding}
  {flying : Flying} {k : Nat}

theorem ChainsInv.congr (h : ChainsInv w gs fl flying)
    (hhold : HoldInv w'.queue (holders gs' fl))
    (hpub : w'.queue.published = w.queue.published)
    (hret : w'.queue.retrieved = w.queue.retrieved)
    (hgs : (gs' .ist).retrieved = (gs .ist).retrieved) : ChainsInv w' gs' fl flying where
  holding := hhold
  keys := h.keys
  published := by
    rw [hpub]
    exact h.published
  pair := h.pair
  chains := by
    rw [hpub, hret]
    exact h.chains
  retrieved := by
    rw [hret, hgs]
    exact h.retrieved

/-- What the accounts look at besides the descriptors. -/
structure SameCalls (g g' : ChainGhost) : Prop where
  call : g'.call = g.call
  waiting : g'.waiting = g.waiting
  serving : g'.serving = g.serving

/-- What the accounts look at in the system besides the free list. -/
structure SameBooks (w w' : GpioSystem) : Prop where
  num : w'.queue.vq.num = w.queue.vq.num
  published : w'.queue.published = w.queue.published
  retrieved : w'.queue.retrieved = w.queue.retrieved
  positions : forall pos, Outstanding w'.queue w'.device pos ->
    Outstanding w.queue w.device pos
  delivered : w'.delivered = w.delivered
  returns : w'.returns = w.returns

theorem Accounts.recount (h : Accounts k w gs flying) (hw : SameBooks w w')
    (hgs : forall t, SameCalls (gs t) (gs' t))
    (hcover : forall idx, idx ∈ w.queue.vq.freeList ∨ (exists t, idx ∈ (gs t).descs) ->
      idx ∈ w'.queue.vq.freeList ∨ exists t, idx ∈ (gs' t).descs)
    (hshort : forall t, (gs' t).descs.length <= 2)
    (hempty : forall t, (gs t).descs = [] -> (gs' t).descs = [] ∨
      exists u, t = .client u ∧ u < k ∧ (gs t).waiting = false) :
    Accounts k w' gs' flying where
  room := by
    rw [hw.num]
    exact h.room
  covered := by
    intro idx hidx
    rw [hw.num] at hidx
    rcases h.covered idx hidx with hfree | hthread | hchain
    · rcases hcover idx (Or.inl hfree) with hfree' | hthread'
      · exact Or.inl hfree'
      · exact Or.inr (Or.inl hthread')
    · rcases hcover idx (Or.inr hthread) with hfree' | hthread'
      · exact Or.inl hfree'
      · exact Or.inr (Or.inl hthread')
    · exact Or.inr (Or.inr hchain)
  short := hshort
  outside := by
    intro t ht
    rcases hempty _ (h.outside t ht) with hnil | ⟨u, heq, hu, _⟩
    · exact hnil
    · cases heq
      exact absurd hu (Nat.not_lt.mpr ht)
  asleep := by
    intro t ht
    rw [(hgs _).waiting] at ht
    rcases hempty _ (h.asleep t ht) with hnil | ⟨u, heq, _, hawake⟩
    · exact hnil
    · rw [ht] at hawake
      cases hawake
  undelivered := by
    intro p hp ptr hcontext hnot
    rw [hw.published] at hp
    rw [hw.delivered] at hnot
    rw [(hgs _).waiting, (hgs _).call]
    exact h.undelivered p hp ptr hcontext hnot
  before := by
    intro p hp ptr hcontext
    rw [hw.published] at hp
    rw [(hgs _).waiting, (hgs _).call]
    exact h.before p hp ptr hcontext
  delivered := by
    rw [hw.delivered, hw.published]
    exact h.delivered
  contexts := by
    rw [(hgs .ist).serving]
    exact h.contexts
  fresh := by
    rw [hw.delivered]
    exact h.fresh
  serving := by
    rw [(hgs .ist).serving, hw.published]
    exact h.serving
  outstanding := by
    intro pos p hout hp
    rw [hw.published] at hp
    exact h.outstanding pos p (hw.positions pos hout) hp
  returns := by
    rw [hw.returns]
    exact h.returns

theorem Accounts.congr (h : Accounts k w gs flying) (hw : SameBooks w w')
    (hfree : w'.queue.vq.freeList = w.queue.vq.freeList)
    (hgs : forall t, SameCalls (gs t) (gs' t) ∧ (gs' t).descs = (gs t).descs) :
    Accounts k w' gs' flying := by
  refine h.recount hw (fun t => (hgs t).1) ?_ ?_ ?_
  · rintro idx (hidx | ⟨t, ht⟩)
    · exact Or.inl (hfree.symm ▸ hidx)
    · exact Or.inr ⟨t, (hgs t).2.symm ▸ ht⟩
  · intro t
    rw [(hgs t).2]
    exact h.short t
  · intro t ht
    exact Or.inl ((hgs t).2.trans ht)

/-- Steps on anything but the queue, the device and the calls. -/
structure OffQueue (w w' : GpioSystem) : Prop where
  queue : w'.queue = w.queue
  device : w'.device = w.device
  delivered : w'.delivered = w.delivered
  returns : w'.returns = w.returns

theorem OffQueue.refl (w : GpioSystem) : OffQueue w w :=
  ⟨rfl, rfl, rfl, rfl⟩

theorem OffQueue.sameBooks (h : OffQueue w w') : SameBooks w w' where
  num := by rw [h.queue]
  published := by rw [h.queue]
  retrieved := by rw [h.queue]
  positions := by
    intro pos hout
    rwa [h.queue, h.device] at hout
  delivered := h.delivered
  returns := h.returns

theorem OffQueue.setContext (w : GpioSystem) (ptr : ContextPtr)
    (c : Option VirtioGpioContext) : OffQueue w (w.setContext ptr c) :=
  ⟨rfl, rfl, rfl, rfl⟩

theorem OffQueue.changeContext (w : GpioSystem) (ptr : ContextPtr)
    (f : VirtioGpioContext -> VirtioGpioContext) : OffQueue w (w.changeContext ptr f) := by
  unfold GpioSystem.changeContext
  split
  · exact OffQueue.setContext w ptr _
  · exact ⟨rfl, rfl, rfl, rfl⟩

end Congr

variable {D : Type} {Z : ChainSetting D}

theorem ChainSetting.inv_offQueue {w w' : GpioSystem} {gs : GpioThread -> ChainGhost}
    (hoff : OffQueue w w') (h : Z.contract.inv w gs) : Z.contract.inv w' gs := by
  rcases h with ⟨fl, flying, hinv, hacc⟩
  refine ⟨fl, flying, hinv.congr ?_ ?_ ?_ rfl, fun k hk => ?_⟩
  · rw [hoff.queue]
    exact hinv.holding
  · rw [hoff.queue]
  · rw [hoff.queue]
  · exact (hacc k hk).congr hoff.sameBooks (by rw [hoff.queue])
      fun t => ⟨⟨rfl, rfl, rfl⟩, rfl⟩

theorem offQueue_triple {α : Type} {p : Prog Env GpioSystem α} (hp : p.Within OffQueue)
    {t : GpioThread} {g : ChainGhost} :
    Z.contract.Triple t g p fun _ g' => g' = g :=
  Contract.Triple.of_within (fun _ _ _ hoff hinv => Z.inv_offQueue hoff hinv) hp

/-!
## Steps on the queue
-/

section Queue

variable {w : GpioSystem} {gs : GpioThread -> ChainGhost} {fl : Nat -> Holding}
  {flying : Flying} {k : Nat}

theorem ChainsInv.onQueue (h : ChainsInv w gs fl flying) {t : GpioThread} {q' : Queue}
    {g : ChainGhost} (hsame : SameRings w.queue q')
    (hhold : HoldInv q' (Function.update (holders gs fl) (.thread t) g.holding))
    (hret : g.retrieved = (gs t).retrieved) :
    ChainsInv { w with queue := q' } (Function.update gs t g) fl flying := by
  refine h.congr ?_ hsame.published hsame.retrieved ?_
  · rw [holders_update_thread]
    exact hhold
  · by_cases ht : GpioThread.ist = t
    · subst ht
      rw [Function.update_self, hret]
    · rw [Function.update_of_ne ht]

theorem sameBooks_onQueue {q' : Queue} (hsame : SameRings w.queue q') :
    SameBooks w { w with queue := q' } where
  num := hsame.num
  published := hsame.published
  retrieved := hsame.retrieved
  positions := fun _ hout =>
    hout.congr hsame.published.symm hsame.retrieved.symm rfl
  delivered := rfl
  returns := rfl

theorem forall_update {P : ChainGhost -> ChainGhost -> Prop} (hrefl : forall g, P g g)
    {t : GpioThread} {g : ChainGhost} (h : P (gs t) g) (u : GpioThread) :
    P (gs u) (Function.update gs t g u) := by
  by_cases hu : u = t
  · subst hu
    rw [Function.update_self]
    exact h
  · rw [Function.update_of_ne hu]
    exact hrefl _

theorem Accounts.onQueue (h : Accounts k w gs flying) {t : GpioThread} {q' : Queue}
    {H : Holding} (hsame : SameRings w.queue q')
    (hfree : q'.vq.freeDescs = w.queue.vq.freeDescs) :
    Accounts k { w with queue := q' }
      (Function.update gs t { gs t with holding := H }) flying :=
  h.congr (sameBooks_onQueue hsame) (Virtq.freeList_congr hfree)
    (forall_update (P := fun g g' => SameCalls g g' ∧ g'.descs = g.descs)
      (fun _ => ⟨⟨rfl, rfl, rfl⟩, rfl⟩) ⟨⟨rfl, rfl, rfl⟩, rfl⟩)

end Queue

/-- The step does not touch the free list. -/
def KeepsFree (q q' : Queue) : Prop :=
  q'.vq.freeDescs = q.vq.freeDescs

theorem ChainSetting.keeps_queue {β : Type} {t : GpioThread} {g : ChainGhost}
    {f : Env -> Queue -> Option (β × Queue)} {P : β -> Holding -> Prop}
    {post : β -> ChainGhost -> Prop}
    (hfree : forall e q b q', f e q = some (b, q') -> KeepsFree q q')
    (hspec : HoldingStep GpioOwner g.holding f P)
    (hpost : forall e q hold b q' H, (forall k, Z.bound = some k -> SteadyEnv e) ->
      HoldInv q hold -> hold (GpioOwner.thread t) = g.holding ->
      f e q = some (b, q') -> P b H -> post b { g with holding := H }) :
    Z.contract.Keeps t g (fun e w =>
      (f e w.queue).map fun out => (out.1, { w with queue := out.2 })) post := by
  rintro e w gs b w' hok ⟨fl, flying, hinv, hacc⟩ rfl hf
  rcases Option.map_eq_some_iff.mp hf with ⟨⟨b', q'⟩, hfq, hout⟩
  cases hout
  rcases hspec e w.queue (holders gs fl) (.thread t) b' q' hinv.holding rfl hfq with
    ⟨hsame, H, hhold, hP⟩
  refine ⟨{ gs t with holding := H }, ⟨fl, flying, ?_, fun k hk => ?_⟩, ?_⟩
  · exact hinv.onQueue hsame hhold rfl
  · exact (hacc k hk).onQueue hsame (hfree _ _ _ _ hfq)
  · exact hpost e w.queue (holders gs fl) b' q' H
      (fun k hk => (Z.steady k hk _ _ hok).1.1) hinv.holding rfl hfq hP

theorem ChainSetting.queue_triple {α : Type} {t : GpioThread} {p : Prog Env Queue α}
    (hfree : p.Within KeepsFree) {g : ChainGhost} {P : α -> Holding -> Prop}
    (hspec : HoldingSpec GpioOwner g.holding p P) :
    Z.contract.Triple t g (onQueue p) fun a g' =>
      exists H, P a H ∧ g' = { g with holding := H } := by
  induction p generalizing g with
  | ret a => exact Contract.Triple.ret ⟨g.holding, hspec, rfl⟩
  | act f k ih =>
      exact Contract.Triple.act (Z.keeps_queue hfree.1 hspec
        fun _ _ _ b _ H _ _ _ _ hrest => ih b (hfree.2 b) hrest)
  | loop body x k => exact hspec.elim

end QnxVirtio
