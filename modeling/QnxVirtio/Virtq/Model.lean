import QnxVirtio.Fifo

/-!
# The virtqueue

The split virtqueue of the driver: the descriptor table, the available ring, the
used ring that the device writes, and the driver's own side tables.  Tables are
indexed by `uint16_t`, as every access of the source is.

The driver functions are programs over the queue.  Every store to a descriptor
is a step of its own, and so is every section under a spinlock.
-/

namespace QnxVirtio

open Foundation

/-- Marks the descriptor as continuing via the next field. -/
def VIRTQ_DESC_F_NEXT : UInt16 := 1

/-- Marks the descriptor as write-only (otherwise read-only). -/
def VIRTQ_DESC_F_WRITE : UInt16 := 2

structure VirtqDesc where
  addr : Nat
  len : UInt32
  flags : UInt16
  next : UInt16
  deriving DecidableEq

structure VirtqUsedElem where
  id : UInt32
  len : UInt32
  deriving DecidableEq

structure DescExtras where
  vaddr : Nat
  context : Option ContextPtr
  deriving DecidableEq

structure Virtq where
  num : UInt16
  legacy : Bool
  desc : UInt16 -> VirtqDesc
  descPaddr : Nat
  availIdx : UInt16
  availRing : UInt16 -> UInt16
  availPaddr : Nat
  usedIdx : UInt16
  usedRing : UInt16 -> VirtqUsedElem
  usedPaddr : Nat
  lastSeenUsed : UInt16
  freeDescs : Fifo
  descExtras : UInt16 -> DescExtras

/-- A chain put into the available ring, with the context that was stored for
its head at that time. -/
structure Published where
  head : UInt16
  rest : List UInt16
  context : Option ContextPtr
  deriving DecidableEq

def Published.chain (p : Published) : List UInt16 :=
  p.head :: p.rest

/-- A queue, the memory its buffers come from, and its history: the chains
published and retrieved so far, and the descriptors that the free FIFO refused
as being full. -/
structure Queue where
  vq : Virtq
  mem : Memory
  published : List Published
  retrieved : List (List UInt16)
  refused : List UInt16

/-!
## Elementary steps
-/

def Queue.updateDesc (q : Queue) (idx : UInt16) (f : VirtqDesc -> VirtqDesc) :
    Queue :=
  { q with vq := { q.vq with
      desc := Function.update q.vq.desc idx (f (q.vq.desc idx)) } }

def Queue.updateExtras (q : Queue) (idx : UInt16)
    (f : DescExtras -> DescExtras) : Queue :=
  { q with vq := { q.vq with
      descExtras := Function.update q.vq.descExtras idx (f (q.vq.descExtras idx)) } }

def setDesc (idx : UInt16) (f : VirtqDesc -> VirtqDesc) : Prog Env Queue Unit :=
  Prog.modify fun q => q.updateDesc idx f

def setExtras (idx : UInt16) (f : DescExtras -> DescExtras) :
    Prog Env Queue Unit :=
  Prog.modify fun q => q.updateExtras idx f

/-- `fifo_get` on the free descriptors. -/
def freeDescsGet : Prog Env Queue (Except Rc UInt16) :=
  Prog.action fun e q =>
    let r := fifoGet e.lock q.vq.freeDescs
    some (r.1.map decode16, { q with vq := { q.vq with freeDescs := r.2 } })

/-- `fifo_put` on the free descriptors. -/
def freeDescsPut (idx : UInt16) : Prog Env Queue Rc :=
  Prog.action fun e q =>
    let r := fifoPut e.lock q.vq.freeDescs (encode16 idx)
    some (r.1, { q with
      vq := { q.vq with freeDescs := r.2 }
      refused := if r.1 = .ENOMEM then q.refused ++ [idx] else q.refused })

def mapBuffer (len : UInt32) : Prog Env Queue (Except Rc Nat) :=
  Prog.action fun e q =>
    (mmap64 e.mmap len.toNat q.mem).map fun r => (r.1, { q with mem := r.2 })

def bufferOffset (vaddr : Nat) : Prog Env Queue (Except Rc Nat) :=
  Prog.action fun e q => some (memOffset64 e.memOffset vaddr q.mem, q)

def unmapBuffer (vaddr : Nat) (len : UInt32) : Prog Env Queue Rc :=
  Prog.action fun _ q =>
    let r := munmap vaddr len.toNat q.mem
    some (r.1, { q with mem := r.2 })

/-- A store through a virtual address.  There is no step at an address that is
not mapped. -/
def storeVirt (vaddr : Nat) (block : List UInt8) : Prog Env Queue Unit :=
  Prog.action fun _ q =>
    (q.mem.resolve vaddr block.length).map fun paddr =>
      ((), { q with mem := q.mem.store paddr block })

def loadVirt (vaddr n : Nat) : Prog Env Queue (List UInt8) :=
  Prog.action fun _ q =>
    (q.mem.resolve vaddr n).map fun paddr => (loadBytes q.mem.phys paddr n, q)

/-!
## Descriptors
-/

def virtqAllocDesc (len : UInt32) (writable : Bool) :
    Prog Env Queue (Except Rc UInt16) := do
  match <- freeDescsGet with
  | .error rc => pure (.error rc)
  | .ok idx =>
      match <- mapBuffer len with
      | .error rc =>
          let _ <- freeDescsPut idx
          pure (.error rc)
      | .ok vaddr =>
          match <- bufferOffset vaddr with
          | .error rc =>
              let _ <- unmapBuffer vaddr len
              let _ <- freeDescsPut idx
              pure (.error rc)
          | .ok paddr =>
              setExtras idx fun x => { x with vaddr := vaddr }
              setExtras idx fun x => { x with context := none }
              setDesc idx fun d => { d with addr := paddr }
              setDesc idx fun d => { d with len := len }
              setDesc idx fun d =>
                { d with flags := if writable then VIRTQ_DESC_F_WRITE else 0 }
              setDesc idx fun d => { d with next := 0 }
              pure (.ok idx)

def virtqFreeDesc (idx : UInt16) : Prog Env Queue Rc := do
  let vaddr <- Prog.read fun q => (q.vq.descExtras idx).vaddr
  let len <- Prog.read fun q => (q.vq.desc idx).len
  let rc <- unmapBuffer vaddr len
  if rc ≠ .EOK then pure rc
  else
    setExtras idx fun x => { x with vaddr := 0 }
    setExtras idx fun x => { x with context := none }
    setDesc idx fun d => { d with addr := 0 }
    setDesc idx fun d => { d with len := 0 }
    setDesc idx fun d => { d with flags := 0 }
    setDesc idx fun d => { d with next := 0 }
    freeDescsPut idx

def virtqGetDescVaddr (idx : UInt16) : Prog Env Queue (Except Rc Nat) :=
  Prog.read fun q =>
    if q.vq.num <= idx then .error .EINVAL else .ok (q.vq.descExtras idx).vaddr

def virtqGetDescContext (idx : UInt16) :
    Prog Env Queue (Except Rc (Option ContextPtr)) :=
  Prog.read fun q =>
    if q.vq.num <= idx then .error .EINVAL else .ok (q.vq.descExtras idx).context

def virtqSetDescContext (idx : UInt16) (context : ContextPtr) :
    Prog Env Queue Rc :=
  Prog.action fun _ q =>
    if q.vq.num <= idx then some (.EINVAL, q)
    else some (.EOK, q.updateExtras idx fun x => { x with context := some context })

/-!
## Chains
-/

/-- The links of a chain: each descriptor but the last points to its successor,
the last one to 0. -/
def linkChain : UInt16 -> List UInt16 -> Prog Env Queue Unit
  | last, [] => setDesc last fun d => { d with next := 0 }
  | prev, idx :: rest => do
      setDesc prev fun d => { d with next := idx }
      setDesc prev fun d => { d with flags := d.flags ||| VIRTQ_DESC_F_NEXT }
      linkChain idx rest

/-- The store to the available ring and the increment of its index. -/
def Virtq.publish (vq : Virtq) (head : UInt16) : Virtq :=
  { vq with
    availRing := Function.update vq.availRing (vq.availIdx % vq.num) head
    availIdx := vq.availIdx + 1 }

/-- `virtq_put_desc_chain` of a chain with at least one descriptor, the array
`idx` of the source given by its head and its rest. -/
def virtqPutDescChain (head : UInt16) (rest : List UInt16) :
    Prog Env Queue Rc := do
  linkChain head rest
  Prog.action fun e q =>
    if e.lock ≠ .EOK then some (e.lock, q)
    else
      some (.EOK, { q with
        vq := q.vq.publish head
        published := q.published ++
          [{ head := head
             rest := rest
             context := (q.vq.descExtras head).context }] })

def VirtqDesc.hasNext (d : VirtqDesc) : Bool :=
  d.flags &&& VIRTQ_DESC_F_NEXT != 0

/-- The descriptors from `idx` on along the next flags, if the chain ends within
`n` of them. -/
def chainWalk (desc : UInt16 -> VirtqDesc) : Nat -> UInt16 -> Option (List UInt16)
  | 0, _ => none
  | n + 1, idx =>
      if (desc idx).hasNext then
        (chainWalk desc n (desc idx).next).map (idx :: ·)
      else some [idx]

/-- The locked section of `virtq_get_desc_chain`.  The loop counter is 16 bits
wide, so a `count` from 65536 on does not end the loop; a walk that has not ended
after 65536 descriptors has come back to one of them and never ends.  The outer
option is empty for such a call. -/
def Virtq.getDescChain (lock : Rc) (count : Nat) (vq : Virtq) :
    Option (Except Rc (List UInt16) × Virtq) :=
  if lock ≠ .EOK then some (.error lock, vq)
  else if vq.usedIdx = vq.lastSeenUsed then some (.error .ENOENT, vq)
  else
    let head := (vq.usedRing (vq.lastSeenUsed % vq.num)).id.toUInt16
    match chainWalk vq.desc (min count 65536) head with
    | some idx => some (.ok idx, { vq with lastSeenUsed := vq.lastSeenUsed + 1 })
    | none => if count < 65536 then some (.error .ENOMEM, vq) else none

def virtqGetDescChain (count : Nat) : Prog Env Queue (Except Rc (List UInt16)) :=
  Prog.action fun e q =>
    (q.vq.getDescChain e.lock count).map fun r =>
      (r.1, { q with
        vq := r.2
        retrieved :=
          match r.1 with
          | .ok idx => q.retrieved ++ [idx]
          | .error _ => q.retrieved })

/-!
## The rings
-/

/-- Both rings, their counters and the history of both are the same. -/
structure SameRings (q q' : Queue) : Prop where
  num : q'.vq.num = q.vq.num
  availIdx : q'.vq.availIdx = q.vq.availIdx
  availRing : q'.vq.availRing = q.vq.availRing
  usedIdx : q'.vq.usedIdx = q.vq.usedIdx
  usedRing : q'.vq.usedRing = q.vq.usedRing
  lastSeen : q'.vq.lastSeenUsed = q.vq.lastSeenUsed
  published : q'.published = q.published
  retrieved : q'.retrieved = q.retrieved

theorem SameRings.refl (q : Queue) : SameRings q q :=
  ⟨rfl, rfl, rfl, rfl, rfl, rfl, rfl, rfl⟩

theorem SameRings.trans {q q1 q2 : Queue} (h : SameRings q q1) (h' : SameRings q1 q2) :
    SameRings q q2 where
  num := h'.num.trans h.num
  availIdx := h'.availIdx.trans h.availIdx
  availRing := h'.availRing.trans h.availRing
  usedIdx := h'.usedIdx.trans h.usedIdx
  usedRing := h'.usedRing.trans h.usedRing
  lastSeen := h'.lastSeen.trans h.lastSeen
  published := h'.published.trans h.published
  retrieved := h'.retrieved.trans h.retrieved

theorem SameRings.updateDesc {q q' : Queue} {idx : UInt16}
    {f : VirtqDesc -> VirtqDesc} (h : SameRings q q') :
    SameRings q (q'.updateDesc idx f) :=
  ⟨h.num, h.availIdx, h.availRing, h.usedIdx, h.usedRing, h.lastSeen, h.published,
    h.retrieved⟩

theorem SameRings.updateExtras {q q' : Queue} {idx : UInt16}
    {f : DescExtras -> DescExtras} (h : SameRings q q') :
    SameRings q (q'.updateExtras idx f) :=
  ⟨h.num, h.availIdx, h.availRing, h.usedIdx, h.usedRing, h.lastSeen, h.published,
    h.retrieved⟩

end QnxVirtio
