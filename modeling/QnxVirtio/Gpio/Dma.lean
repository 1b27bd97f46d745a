import QnxVirtio.Gpio.Routing

/-!
# What the device may touch

The device follows the descriptors of a chain by physical addresses, and nobody stops it
where they lead elsewhere.  With any signal and any failing call, up to the first access to
a context that is gone, a chain that is outstanding leads to live buffers of its own: the
request that was submitted and room for the response.  After such an access the driver may
do anything.
-/

namespace QnxVirtio

open Foundation

/-- The response descriptor as the device finds it. -/
def Virtq.second (vq : Virtq) (head : UInt16) : UInt16 :=
  (vq.desc head).next

/-- A chain that leads to its request and to room for its response. -/
structure ChainSafe (scripts : Nat -> Nat -> GpioCall) (w : GpioSystem) (pos : Nat)
    (p : Published) : Prop where
  /-- The device finds the chain that was published. -/
  walk : chainWalk w.queue.vq.desc 2 p.head = some p.chain
  chain : p.chain = [p.head, w.queue.vq.second p.head]
  lt : forall idx, idx ∈ p.chain -> idx.toNat < w.queue.vq.num.toNat
  unfree : forall idx, idx ∈ p.chain -> idx ∉ w.queue.vq.freeList
  mapped : forall idx, idx ∈ p.chain -> w.queue.vq.buffer idx ∈ w.queue.mem.maps
  apart : (w.queue.vq.buffer p.head).Apart (w.queue.vq.buffer (w.queue.vq.second p.head))
  /-- The device may read the request and write the response. -/
  readable : (w.queue.vq.desc p.head).flags &&& VIRTQ_DESC_F_WRITE = 0
  writable : (w.queue.vq.desc (w.queue.vq.second p.head)).flags &&& VIRTQ_DESC_F_WRITE ≠ 0
  room : (w.queue.vq.buffer (w.queue.vq.second p.head)).len = sizeofVirtioGpioResponse.toNat
  request : exists ptr, p.context = some ptr ∧
    w.queue.mem.bytes (w.queue.vq.buffer p.head) = (requestOf scripts ptr).encode
  /-- Nobody overwrites an answer before it is retrieved. -/
  response : forall a, a ∈ w.answers -> a.pos = pos ->
    w.queue.mem.bytes (w.queue.vq.buffer (w.queue.vq.second p.head)) = [a.status, a.value]

/-- All outstanding chains are safe, and no two of them share a descriptor or a byte. -/
structure DmaSafe (scripts : Nat -> Nat -> GpioCall) (w : GpioSystem) : Prop where
  chains : forall pos (p : Published), Outstanding w.queue w.device pos ->
    w.queue.published[pos]? = some p -> ChainSafe scripts w pos p
  apart : forall pos pos' (p p' : Published), Outstanding w.queue w.device pos ->
    Outstanding w.queue w.device pos' -> w.queue.published[pos]? = some p ->
    w.queue.published[pos']? = some p' -> pos ≠ pos' ->
    forall idx, idx ∈ p.chain -> forall idx', idx' ∈ p'.chain ->
      idx ≠ idx' ∧ (w.queue.vq.buffer idx).Apart (w.queue.vq.buffer idx')

/-- An answer of the device reads the request of its chain and changes its response buffer
and nothing else. -/
structure AnswerInside (scripts : Nat -> Nat -> GpioCall) (w : GpioSystem) (pos : Nat)
    (status value : UInt8) (w' : GpioSystem) : Prop where
  outstanding : Outstanding w.queue w.device pos
  read : exists (p : Published) (ptr : ContextPtr), w.queue.published[pos]? = some p ∧
    p.context = some ptr ∧
    w'.answers = w.answers ++ [⟨pos, requestOf scripts ptr, status, value⟩]
  maps : w'.queue.mem.maps = w.queue.mem.maps
  written : forall p : Published, w.queue.published[pos]? = some p ->
    w'.queue.mem.bytes (w.queue.vq.buffer (w.queue.vq.second p.head)) = [status, value] ∧
    forall n, n ∈ w.queue.mem.maps ->
      n ≠ w.queue.vq.buffer (w.queue.vq.second p.head) ->
      w'.queue.mem.bytes n = w.queue.mem.bytes n

section Held

variable {mode : GpioMode} {scripts : Nat -> Nat -> GpioCall} {w w' : GpioSystem}
  {gs : GpioThread -> GpioGhost} {fl : Nat -> Holding} {pos : Nat} {p : Published}

/-- The descriptors and the buffers of an outstanding chain. -/
structure ChainHeld (scripts : Nat -> Nat -> GpioCall) (w : GpioSystem)
    (hold : GpioOwner -> Holding) (pos : Nat) (p : Published) (resp : UInt16)
    (m0 m1 : Mapping) (ptr : ContextPtr) (b1 : List UInt8) : Prop where
  rest : p.rest = [resp]
  context : p.context = some ptr
  cell0 : (hold (.chain pos)).desc p.head = some (requestCell m0 resp p.context)
  cell1 : (hold (.chain pos)).desc resp = some (responseCell m1)
  region0 : (hold (.chain pos)).region m0 = some (requestOf scripts ptr).encode
  region1 : (hold (.chain pos)).region m1 = some b1
  ne : m0 ≠ m1
  len0 : m0.len = sizeofVirtioGpioRequest.toNat
  len1 : m1.len = sizeofVirtioGpioResponse.toNat
  answered : forall a, a ∈ w.answers -> a.pos = pos -> b1 = [a.status, a.value]

theorem GpioInv.chainHeld (h : GpioInv mode scripts w gs fl)
    (hout : Outstanding w.queue w.device pos) (hp : w.queue.published[pos]? = some p) :
    exists resp m0 m1 ptr b1, ChainHeld scripts w (holdings gs fl) pos p resp m0 m1 ptr b1
    := by
  rcases h.flow.flight pos p hout hp with ⟨ptr, b1, hcontext, ⟨⟨resp, m0, m1, hrest,
    hne, hmne, hlen0, hlen1, hhold⟩⟩, hanswered⟩
  refine ⟨resp, m0, m1, ptr, b1, hrest, hcontext, ?_, ?_, ?_, ?_, hmne, hlen0, hlen1,
    hanswered⟩
  · change (fl pos).desc p.head = _
    rw [hhold]
    exact pairHolding_head hne
  · change (fl pos).desc resp = _
    rw [hhold]
    exact pairHolding_resp
  · change (fl pos).region m0 = _
    rw [hhold]
    exact pairHolding_request hmne
  · change (fl pos).region m1 = _
    rw [hhold]
    exact pairHolding_response

variable {resp : UInt16} {m0 m1 : Mapping} {ptr : ContextPtr} {b1 : List UInt8}

theorem HoldInv.buffer {hold : GpioOwner -> Holding} (h : HoldInv w.queue hold)
    {o : GpioOwner} {idx : UInt16} {c : DescCell} (hc : (hold o).desc idx = some c) :
    w.queue.vq.buffer idx = c.buffer ∧ w.queue.vq.desc idx = c.desc := by
  have hcell := h.descs.known o idx c hc
  rw [← hcell]
  exact ⟨rfl, rfl⟩

theorem ChainHeld.second (hc : ChainHeld scripts w (holdings gs fl) pos p resp m0 m1 ptr b1)
    (h : GpioInv mode scripts w gs fl) : w.queue.vq.second p.head = resp := by
  unfold Virtq.second
  rw [(h.holding.buffer hc.cell0).2]
  rfl

theorem ChainHeld.buffers
    (hc : ChainHeld scripts w (holdings gs fl) pos p resp m0 m1 ptr b1)
    (h : GpioInv mode scripts w gs fl) :
    w.queue.vq.buffer p.head = m0 ∧ w.queue.vq.buffer resp = m1 := by
  constructor
  · exact (h.holding.buffer hc.cell0).1.trans (requestCell_buffer hc.len0)
  · exact (h.holding.buffer hc.cell1).1.trans (responseCell_buffer hc.len1)

theorem ChainHeld.holds
    (hc : ChainHeld scripts w (holdings gs fl) pos p resp m0 m1 ptr b1)
    (h : GpioInv mode scripts w gs fl) {idx : UInt16} (hidx : idx ∈ p.chain) :
    (exists c, (holdings gs fl (.chain pos)).desc idx = some c) ∧
      exists b, (holdings gs fl (.chain pos)).region (w.queue.vq.buffer idx) = some b := by
  have hmem : idx = p.head ∨ idx = resp := by
    unfold Published.chain at hidx
    rw [hc.rest] at hidx
    simpa using hidx
  rcases hmem with rfl | rfl
  · rw [(hc.buffers h).1]
    exact ⟨⟨_, hc.cell0⟩, ⟨_, hc.region0⟩⟩
  · rw [(hc.buffers h).2]
    exact ⟨⟨_, hc.cell1⟩, ⟨_, hc.region1⟩⟩

theorem ChainHeld.safe (hc : ChainHeld scripts w (holdings gs fl) pos p resp m0 m1 ptr b1)
    (h : GpioInv mode scripts w gs fl) : ChainSafe scripts w pos p := by
  have hsecond := hc.second h
  rcases hc.buffers h with ⟨hbuf0, hbuf1⟩
  have hd0 := (h.holding.buffer hc.cell0).2
  have hd1 := (h.holding.buffer hc.cell1).2
  constructor
  case walk =>
    have hnext : (w.queue.vq.desc p.head).hasNext = true := by
      rw [hd0]
      exact show ((0 ||| VIRTQ_DESC_F_NEXT) &&& VIRTQ_DESC_F_NEXT != 0) = true by decide
    have hlast : (w.queue.vq.desc resp).hasNext = false := by
      rw [hd1]
      exact show (VIRTQ_DESC_F_WRITE &&& VIRTQ_DESC_F_NEXT != 0) = false by decide
    simp only [chainWalk, if_pos hnext]
    rw [show (w.queue.vq.desc p.head).next = resp from hsecond]
    simp only [hlast, Bool.false_eq_true, if_false, Option.map_some]
    unfold Published.chain
    rw [hc.rest]
  case chain =>
    unfold Published.chain
    rw [hc.rest, hsecond]
  case lt =>
    intro idx hidx
    rcases (hc.holds h hidx).1 with ⟨c, hheld⟩
    exact h.holding.descs.live _ _ _ hheld
  case unfree =>
    intro idx hidx hfree
    rcases (hc.holds h hidx).1 with ⟨c, hheld⟩
    rw [h.holding.freeUnheld idx hfree] at hheld
    cases hheld
  case mapped =>
    intro idx hidx
    rcases (hc.holds h hidx).2 with ⟨b, hheld⟩
    exact h.holding.regions.live _ _ _ hheld
  case apart =>
    rw [hsecond, hbuf0, hbuf1]
    exact w.queue.mem.apart_of_ne (h.holding.regions.live _ _ _ hc.region0)
      (h.holding.regions.live _ _ _ hc.region1) hc.ne
  case readable =>
    rw [hd0]
    exact show (0 ||| VIRTQ_DESC_F_NEXT) &&& VIRTQ_DESC_F_WRITE = 0 by decide
  case writable =>
    rw [hsecond, hd1]
    exact show VIRTQ_DESC_F_WRITE &&& VIRTQ_DESC_F_WRITE ≠ 0 by decide
  case room =>
    rw [hsecond, hbuf1]
    exact hc.len1
  case request =>
    refine ⟨ptr, hc.context, ?_⟩
    rw [hbuf0]
    exact h.holding.regions.known _ _ _ hc.region0
  case response =>
    intro a ha hpos
    rw [hsecond, hbuf1, ← hc.answered a ha hpos]
    exact h.holding.regions.known _ _ _ hc.region1

theorem GpioInv.dmaSafe (h : GpioInv mode scripts w gs fl) : DmaSafe scripts w where
  chains := by
    intro pos p hout hp
    rcases h.chainHeld hout hp with ⟨resp, m0, m1, ptr, b1, hc⟩
    exact hc.safe h
  apart := by
    intro pos pos' p p' hout hout' hp hp' hne idx hidx idx' hidx'
    rcases h.chainHeld hout hp with ⟨resp, m0, m1, ptr, b1, hc⟩
    rcases h.chainHeld hout' hp' with ⟨resp', m0', m1', ptr', b1', hc'⟩
    rcases hc.holds h hidx with ⟨⟨c, hdesc⟩, ⟨b, hregion⟩⟩
    rcases hc'.holds h hidx' with ⟨⟨c', hdesc'⟩, ⟨b', hregion'⟩⟩
    constructor
    · intro heq
      subst heq
      cases h.holding.descs.unique _ _ _ _ _ hdesc hdesc'
      exact hne rfl
    · refine w.queue.mem.apart_of_ne (h.holding.regions.live _ _ _ hregion)
        (h.holding.regions.live _ _ _ hregion') fun heq => ?_
      rw [← heq] at hregion'
      cases h.holding.regions.unique _ _ _ _ _ hregion hregion'
      exact hne rfl

/-- Of an outstanding chain the device reads the request that was submitted. -/
theorem ChainSafe.decoded (hsafe : ChainSafe scripts w pos p)
    (hptr : p.context = some ptr) (hlen : (w.queue.vq.buffer p.head).len =
      sizeofVirtioGpioRequest.toNat) :
    VirtioGpioRequest.decode (loadBytes w.queue.mem.phys (w.queue.vq.desc p.head).addr
      sizeofVirtioGpioRequest.toNat) = requestOf scripts ptr := by
  rcases hsafe.request with ⟨ptr', hptr', hbytes⟩
  cases Option.some.inj (hptr.symm.trans hptr')
  rw [← hlen, ← VirtioGpioRequest.decode_encode (requestOf scripts ptr), ← hbytes]
  rfl

theorem GpioInv.answerInside (h : GpioInv mode scripts w gs fl) {status value : UInt8}
    (hanswer : gpioEnv (.answer pos status value) w = some w') :
    AnswerInside scripts w pos status value w' := by
  rcases GpioSystem.answerRequest_cases hanswer with ⟨head, hhead, hnew, rfl⟩
  have hlt := (List.getElem?_eq_some_iff.mp hhead).1
  have hout := h.flow.outstanding_of_unanswered hlt hnew
  have hpub : exists p, w.queue.published[pos]? = some p :=
    ⟨_, List.getElem?_eq_getElem hout.1⟩
  rcases hpub with ⟨p, hp⟩
  rcases h.chainHeld hout hp with ⟨resp, m0, m1, ptr, b1, hc⟩
  have hsafe := hc.safe h
  have hph : head = p.head := by
    rcases h.flow.ring.consumed with ⟨tail, htail⟩
    have hheads : w.queue.heads[pos]? = some head := by
      rw [← htail]
      exact getElem?_append_of_some hhead tail
    rw [Queue.heads, List.getElem?_map, hp] at hheads
    exact (Option.some.inj hheads).symm
  subst hph
  constructor
  · exact hout
  · refine ⟨p, ptr, hp, hc.context, ?_⟩
    rw [hsafe.decoded hc.context (by rw [(hc.buffers h).1, hc.len0])]
  · rfl
  · intro p' hp'
    cases Option.some.inj (hp.symm.trans hp')
    constructor
    · unfold Memory.bytes
      rw [hsafe.room]
      exact loadBytes_storeBytes_same _ _ [status, value]
    · intro n hn hne
      have hmem : w.queue.vq.buffer (w.queue.vq.second p.head) ∈ w.queue.mem.maps := by
        apply hsafe.mapped
        rw [hsafe.chain]
        exact List.mem_cons_of_mem _ (List.mem_cons_self ..)
      have hapart := (w.queue.mem.apart_of_ne hn hmem hne).2
      rw [hsafe.room] at hapart
      exact loadBytes_storeBytes_disjoint hapart.symm

end Held

section Runs

variable {transport : Transport} {config : VirtioGpioConfig}
  {scripts : Nat -> Nat -> GpioCall} {size : Nat} {legacy : Bool} {h h' : Host}
  {rc : Rc} {obj : VirtqObject} {w : GpioSystem}

/-- States of runs with signals in which no context that is gone has been accessed. -/
def IntactReachable (transport : Transport) (config : VirtioGpioConfig)
    (obj : VirtqObject) (mem : Memory) (scripts : Nat -> Nat -> GpioCall)
    (w : GpioSystem) : Prop :=
  GpioReachable anyRuns transport config obj mem scripts w ∧ w.stale = []

/-- Whatever fails and whoever is interrupted, as long as no context that is gone has been
accessed, the device finds each request in a live buffer of its own, and what it writes
lands in the response buffer of the chain that it answers. -/
theorem gpio_dma_safe (hsize : exists k, size = 2 ^ k)
    (hcreate : Prog.Runs (fun _ => True) h (virtqCreate size legacy) (rc, some obj) h')
    (hreach : IntactReachable transport config obj h'.mem scripts w) :
    DmaSafe scripts w ∧ forall pos status value w',
      gpioEnv (.answer pos status value) w = some w' ->
        AnswerInside scripts w pos status value w' := by
  rcases hreach.1.inv hsize hcreate with ⟨gs, fl, hinv⟩
  exact ⟨hinv.dmaSafe, fun pos status value w' hanswer => hinv.answerInside hanswer⟩

/-- A signal ends the wait of client 0, whose call returns before the device answers. -/
def abandonedMoves : List GpioMove :=
  submitMoves ++ List.replicate 3 (.thread (.client 0) { interrupted := true }) ++
    [.env .take]

theorem gpio_dma_safe_two : exists w : GpioSystem,
    w.returns.length = 1 ∧ w.delivered = [] ∧ w.device.consumed.length = 1 ∧
      DmaSafe setLineScripts w := by
  rcases exists_run abandonedMoves
    (P := fun w => w.returns.length == 1 && w.delivered == [] &&
      w.device.consumed.length == 1 && w.stale == []) (by decide +kernel) with
    ⟨c, hrun, hstate⟩
  simp only [Bool.and_eq_true, beq_iff_eq] at hstate
  have hreach : GpioReachable anyRuns .mmio configEight queueTwo createdTwo.2.mem
      setLineScripts c.state :=
    ⟨c, Pool.reachable_run Pool.Reachable.refl (fun move _ => gpioOk_anyRuns move) hrun,
      rfl⟩
  exact ⟨c.state, hstate.1.1.1, hstate.1.1.2, hstate.1.2,
    (gpio_dma_safe ⟨1, rfl⟩ queueTwo_created ⟨hreach, hstate.2⟩).1⟩

end Runs

end QnxVirtio
