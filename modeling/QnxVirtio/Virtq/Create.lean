import QnxVirtio.Virtq.FreeList

/-!
# Creating and destroying virtqueues

`virtq_create` with all of its failure paths, over the memory and the heap of the
process.  The queue structure is zeroed by `calloc` and its `num` is set last, so
the clean-up of a failed creation computes its sizes from a `num` of 0.
-/

namespace QnxVirtio

open Foundation

/-!
## Sizes
-/

def virtqDescMemSize (size : UInt64) : UInt64 :=
  size * 16

def virtqAvailMemSize (num : UInt16) : UInt64 :=
  4 + num.toUInt64 * 2 + 2

def virtqUsedMemSize (num : UInt16) : UInt64 :=
  4 + num.toUInt64 * 8 + 2

/-- The `ALIGN` macro. -/
def alignSize (size alignment : UInt64) : UInt64 :=
  (size + (alignment - 1)) &&& ~~~(alignment - 1)

def virtqLegacyMemSize (num alignment : UInt16) : UInt64 :=
  alignSize (virtqDescMemSize num.toUInt64 + virtqAvailMemSize num)
      alignment.toUInt64 +
    alignSize (virtqAvailMemSize num) alignment.toUInt64

/-!
## The rings
-/

/-- The virtual addresses of the three parts of a queue. -/
structure VirtqRings where
  desc : Nat
  avail : Nat
  used : Nat

/-- A created queue with the addresses and heap blocks that it owns. -/
structure VirtqObject where
  vq : Virtq
  rings : VirtqRings
  block : Nat
  extrasBlock : Nat
  fifoBlock : Nat

/-- A created queue on the memory it was created in. -/
def VirtqObject.queue (obj : VirtqObject) (mem : Memory) : Queue where
  vq := obj.vq
  mem := mem
  published := []
  retrieved := []
  refused := []

def virtqCreateLegacy (num : UInt16) : Prog Env Host (Except Rc VirtqRings) := do
  let pagesize <- Prog.read fun h => h.pagesize
  match <- mapPages (virtqLegacyMemSize num pagesize.toUInt16).toNat with
  | .error rc => pure (.error rc)
  | .ok desc =>
      let availOffset := virtqDescMemSize num.toUInt64
      let usedOffset := alignSize (availOffset + virtqAvailMemSize num) pagesize
      pure (.ok {
        desc := desc
        avail := desc + availOffset.toNat
        used := desc + usedOffset.toNat })

def virtqDestroyLegacy (num : UInt16) (rings : VirtqRings) :
    Prog Env Host Rc := do
  let pagesize <- Prog.read fun h => h.pagesize
  unmapPages rings.desc (virtqLegacyMemSize num pagesize.toUInt16).toNat

def virtqCreateModern (num : UInt16) : Prog Env Host (Except Rc VirtqRings) := do
  match <- mapPages (virtqDescMemSize num.toUInt64).toNat with
  | .error rc => pure (.error rc)
  | .ok desc =>
      match <- mapPages (virtqAvailMemSize num).toNat with
      | .error _ =>
          let _ <- unmapPages desc (virtqDescMemSize num.toUInt64).toNat
          pure (.error .ENOMEM)
      | .ok avail =>
          match <- mapPages (virtqUsedMemSize num).toNat with
          | .error _ =>
              let _ <- unmapPages avail (virtqAvailMemSize num).toNat
              let _ <- unmapPages desc (virtqDescMemSize num.toUInt64).toNat
              pure (.error .ENOMEM)
          | .ok used => pure (.ok { desc := desc, avail := avail, used := used })

def virtqDestroyModern (num : UInt16) (rings : VirtqRings) :
    Prog Env Host Rc := do
  let rc <- unmapPages rings.desc (virtqDescMemSize num.toUInt64).toNat
  if rc ≠ .EOK then pure rc
  else
    let rc <- unmapPages rings.avail (virtqAvailMemSize num).toNat
    if rc ≠ .EOK then pure rc
    else unmapPages rings.used (virtqUsedMemSize num).toNat

def virtqCreateRings (legacy : Bool) (num : UInt16) :
    Prog Env Host (Except Rc VirtqRings) :=
  if legacy then virtqCreateLegacy num else virtqCreateModern num

def virtqDestroyRings (legacy : Bool) (num : UInt16) (rings : VirtqRings) :
    Prog Env Host Rc :=
  if legacy then virtqDestroyLegacy num rings else virtqDestroyModern num rings

/-!
## The free list
-/

/-- `fifo_create`, which owns one block on success. -/
def createFreeDescs (size : Nat) : Prog Env Host (Except Rc (Nat × Fifo)) :=
  Prog.action fun e h =>
    match fifoCreate e.malloc e.spinInit size 2 with
    | .error rc => some (.error rc, h)
    | .ok fifo =>
        some (.ok (h.nextBlock, fifo),
          { h with heap := h.nextBlock :: h.heap, nextBlock := h.nextBlock + 1 })

/-- `fifo_destory` keeps the block when the lock cannot be destroyed. -/
def fifoDestory (block : Nat) : Prog Env Host Rc := do
  let rc <- Prog.action fun e h => some (e.spinDestroy, h)
  if rc ≠ .EOK then pure rc
  else
    freeBlock block
    pure .EOK

/-- One round of `for (uint16_t i = 0; i < size; i++)`: put `i` and go on, or
stop with the filled FIFO, or with nothing when a put fails. -/
def fillFreeDescs (size : Nat) (state : UInt16 × Fifo) :
    Prog Env Host ((UInt16 × Fifo) ⊕ Option Fifo) :=
  if state.1.toNat < size then
    Prog.action fun e h =>
      let r := fifoPut e.lock state.2 (encode16 state.1)
      some (if r.1 ≠ .EOK then .inr none else .inl (state.1 + 1, r.2), h)
  else pure (.inr (some state.2))

/-!
## Creation
-/

/-- The queue structure that `virtq_create` hands out.  The rings and the
descriptor table are anonymous memory and start zeroed, as do the extras. -/
def Virtq.created (size : Nat) (legacy : Bool)
    (descPaddr availPaddr usedPaddr : Nat) (freeDescs : Fifo) : Virtq where
  num := UInt16.ofNat size
  legacy := legacy
  desc := fun _ => { addr := 0, len := 0, flags := 0, next := 0 }
  descPaddr := descPaddr
  availIdx := 0
  availRing := fun _ => 0
  availPaddr := availPaddr
  usedIdx := 0
  usedRing := fun _ => { id := 0, len := 0 }
  usedPaddr := usedPaddr
  lastSeenUsed := 0
  freeDescs := freeDescs
  descExtras := fun _ => { vaddr := 0, context := none }

/-- The clean-up labels of `virtq_create`, from `destroy` on.  The `num` of the
structure is still 0 there. -/
def virtqCreateUnwind (legacy : Bool) (rings : VirtqRings) (block : Nat) :
    Prog Env Host Unit := do
  let _ <- virtqDestroyRings legacy 0 rings
  freeBlock block

/-- `virtq_create` returns its code and, when `*vq` was set, the queue. -/
def virtqCreate (size : Nat) (legacy : Bool) :
    Prog Env Host (Rc × Option VirtqObject) := do
  match <- allocBlock with
  | .error rc => pure (rc, none)
  | .ok block =>
      match <- virtqCreateRings legacy (UInt16.ofNat size) with
      | .error rc =>
          freeBlock block
          pure (rc, none)
      | .ok rings =>
          match <- pagesOffset rings.desc with
          | .error _ =>
              virtqCreateUnwind legacy rings block
              pure (.minusOne, none)
          | .ok descPaddr =>
              match <- pagesOffset rings.avail with
              | .error _ =>
                  virtqCreateUnwind legacy rings block
                  pure (.minusOne, none)
              | .ok availPaddr =>
                  match <- pagesOffset rings.used with
                  | .error _ =>
                      virtqCreateUnwind legacy rings block
                      pure (.minusOne, none)
                  | .ok usedPaddr =>
                      virtqCreateTables size legacy block rings descPaddr
                        availPaddr usedPaddr
where
  /-- The second half of `virtq_create`: extras, free list and lock. -/
  virtqCreateTables (size : Nat) (legacy : Bool) (block : Nat)
      (rings : VirtqRings) (descPaddr availPaddr usedPaddr : Nat) :
      Prog Env Host (Rc × Option VirtqObject) := do
    match <- allocBlock with
    | .error rc =>
        virtqCreateUnwind legacy rings block
        pure (rc, none)
    | .ok extrasBlock =>
        match <- createFreeDescs size with
        | .error rc =>
            freeBlock extrasBlock
            virtqCreateUnwind legacy rings block
            pure (rc, none)
        | .ok (fifoBlock, fifo) =>
            match <- Prog.iterate (fillFreeDescs size) (0, fifo) with
            | none =>
                -- a failed put leaves the code of `fifo_create`
                let _ <- fifoDestory fifoBlock
                freeBlock extrasBlock
                virtqCreateUnwind legacy rings block
                pure (.EOK, none)
            | some fifo =>
                let rc <- Prog.action fun e h => some (e.spinInit, h)
                if rc ≠ .EOK then
                  let _ <- fifoDestory fifoBlock
                  freeBlock extrasBlock
                  virtqCreateUnwind legacy rings block
                  pure (rc, none)
                else
                  pure (.EOK, some {
                    vq := Virtq.created size legacy descPaddr availPaddr
                      usedPaddr fifo
                    rings := rings
                    block := block
                    extrasBlock := extrasBlock
                    fifoBlock := fifoBlock })

/-!
## Created queues
-/

/-- What the fill loop keeps: the first `count` indices are in the FIFO. -/
structure FillInv (size : Nat) (state : UInt16 × Fifo) : Prop where
  wf : state.2.Wf
  capacity : state.2.capacity = size
  elemSize : state.2.elemSize = 2
  index : state.1 = UInt16.ofNat state.2.count
  items : state.2.items =
    (List.range state.2.count).map fun i => encode16 (UInt16.ofNat i)

/-- The outcome of one round of the fill loop. -/
def FillPost (size : Nat) (state : UInt16 × Fifo) :
    (UInt16 × Fifo) ⊕ Option Fifo -> Prop
  | .inl next => FillInv size next
  | .inr none => True
  | .inr (some fifo) => size <= state.1.toNat ∧ fifo = state.2

theorem runs_fillFreeDescs {ok : Env -> Prop} {size : Nat}
    {state : UInt16 × Fifo} {r : (UInt16 × Fifo) ⊕ Option Fifo} {h h' : Host}
    (hJ : FillInv size state)
    (hrun : Prog.Runs ok h (fillFreeDescs size state) r h') :
    FillPost size state r := by
  unfold fillFreeDescs at hrun
  by_cases hlt : state.1.toNat < size
  · rw [if_pos hlt] at hrun
    rcases Prog.runs_action_iff.mp hrun with ⟨e, _, hf⟩
    simp only [Option.some.injEq, Prod.mk.injEq] at hf
    rcases hf with ⟨rfl, rfl⟩
    by_cases hput : (fifoPut e.lock state.2 (encode16 state.1)).1 ≠ .EOK
    · rw [if_pos hput]
      trivial
    · rw [if_neg hput]
      have hlock : e.lock = .EOK := by
        by_contra hne
        exact hput (by simp [fifoPut, hne])
      rw [hlock] at hput ⊢
      have hcount := hJ.wf.count_le
      have hroom : state.2.count < state.2.capacity := by
        by_contra hfull
        have hfull' : state.2.count = state.2.capacity := by omega
        exact hput (by simp [fifoPut_full hfull'])
      rcases fifoPut_spec hJ.wf
          (by rw [hJ.elemSize]; rfl : (encode16 state.1).length = _) hroom with
        ⟨fifo', hspec, hwf, hitems, hcap, helem⟩
      rw [hspec]
      have hlen : fifo'.count = state.2.count + 1 := by
        have := congrArg List.length hitems
        simpa using this
      constructor
      · exact hwf
      · exact hcap.trans hJ.capacity
      · exact helem.trans hJ.elemSize
      · simp only [hlen, hJ.index]
        exact (UInt16.ofNat_add _ 1).symm
      · simp only [hlen, hitems, hJ.items, List.range_succ, List.map_append,
          List.map_cons, List.map_nil, hJ.index]
  · rw [if_neg hlt] at hrun
    rcases Prog.runs_ret_iff.mp hrun with ⟨rfl, _⟩
    exact ⟨Nat.le_of_not_lt hlt, rfl⟩

/-- A filled free list holds every index once, in order, and only sizes that fit
16 bits are ever filled. -/
theorem runs_fill {ok : Env -> Prop} {size : Nat} {fifo fifo' : Fifo}
    {h h' : Host} (hcreate : size < 65536 -> FillInv size (0, fifo))
    (hrun : Prog.Runs ok h (Prog.iterate (fillFreeDescs size) (0, fifo))
      (some fifo') h') :
    size < 65536 ∧ exists i, FillInv size (i, fifo') ∧ fifo'.count = size := by
  have hsize : size < 65536 := by
    refine Prog.runs_iterate_inv (J := fun _ _ => True)
      (Q := fun r _ => r = some fifo' -> size < 65536) ?_ trivial hrun rfl
    intro state s r s1 _ hbody
    unfold fillFreeDescs at hbody
    by_cases hlt : state.1.toNat < size
    · rw [if_pos hlt] at hbody
      rcases Prog.runs_action_iff.mp hbody with ⟨e, _, hf⟩
      simp only [Option.some.injEq, Prod.mk.injEq] at hf
      rcases hf with ⟨rfl, rfl⟩
      split
      · intro hcontra
        cases hcontra
      · trivial
    · rw [if_neg hlt] at hbody
      rcases Prog.runs_ret_iff.mp hbody with ⟨rfl, _⟩
      intro _
      have := state.1.toNat_lt
      omega
  refine ⟨hsize, ?_⟩
  refine Prog.runs_iterate_inv (J := fun state _ => FillInv size state)
    (Q := fun r _ => r = some fifo' ->
      exists i, FillInv size (i, fifo') ∧ fifo'.count = size)
    ?_ (hcreate hsize) hrun rfl
  intro state s r s1 hJ hbody
  have hround := runs_fillFreeDescs hJ hbody
  cases r with
  | inl next => exact hround
  | inr out =>
      intro hout
      change out = some fifo' at hout
      subst hout
      rcases hround with ⟨hge, rfl⟩
      refine ⟨state.1, hJ, ?_⟩
      have hle := hJ.wf.count_le
      have hcap := hJ.capacity
      rw [hJ.index, UInt16.toNat_ofNat'] at hge
      have hmod : state.2.count % 2 ^ 16 <= state.2.count := Nat.mod_le _ _
      omega

/-- What a queue is when `virtq_create` has just handed it out. -/
structure Virtq.Fresh (size : Nat) (legacy : Bool) (vq : Virtq) : Prop where
  size_lt : size < 65536
  shape : exists descPaddr availPaddr usedPaddr freeDescs,
    vq = Virtq.created size legacy descPaddr availPaddr usedPaddr freeDescs
  free : vq.FreeWf
  freeList : vq.freeList = (List.range size).map UInt16.ofNat

theorem Virtq.Fresh.num_toNat {size : Nat} {legacy : Bool} {vq : Virtq}
    (h : Virtq.Fresh size legacy vq) : vq.num.toNat = size := by
  rcases h.shape with ⟨d, a, u, fifo, heq⟩
  rw [heq]
  change (UInt16.ofNat size).toNat = size
  rw [UInt16.toNat_ofNat', Nat.mod_eq_of_lt h.size_lt]

theorem runs_createTables {ok : Env -> Prop} {size : Nat} {legacy : Bool}
    {block d a u : Nat} {rings : VirtqRings} {h h' : Host} {rc : Rc}
    {obj : VirtqObject}
    (hrun : Prog.Runs ok h
      (virtqCreate.virtqCreateTables size legacy block rings d a u)
      (rc, some obj) h') :
    rc = .EOK ∧ Virtq.Fresh size legacy obj.vq := by
  unfold virtqCreate.virtqCreateTables at hrun
  rcases Prog.runs_bind_iff.mp hrun with ⟨extras, h1, _, hrun⟩
  cases extras with
  | error e => cases hrun.eq_of_bind_ret
  | ok extrasBlock =>
      rcases Prog.runs_bind_iff.mp hrun with ⟨created, h2, hcreate, hrun⟩
      cases created with
      | error e =>
          simp only [Prog.bind_eq_bind, Prog.pure_eq_ret, ← Prog.bind_assoc]
            at hrun
          cases hrun.eq_of_bind_ret
      | ok out =>
          rcases out with ⟨fifoBlock, fifo⟩
          rcases Prog.runs_bind_iff.mp hrun with ⟨filled, h3, hfill, hrun⟩
          cases filled with
          | none =>
              simp only [Prog.bind_eq_bind, Prog.pure_eq_ret,
                ← Prog.bind_assoc] at hrun
              cases hrun.eq_of_bind_ret
          | some fifo' =>
              rcases Prog.runs_bind_iff.mp hrun with ⟨rc', h4, _, hrun⟩
              by_cases hrc : rc' ≠ .EOK
              · simp only [if_pos hrc, Prog.bind_eq_bind, Prog.pure_eq_ret,
                  ← Prog.bind_assoc] at hrun
                cases hrun.eq_of_bind_ret
              · simp only [if_neg hrc] at hrun
                rcases Prog.runs_ret_iff.mp hrun with ⟨hret, _⟩
                cases hret
                have hinit : size < 65536 -> FillInv size (0, fifo) := by
                  intro hsize
                  rcases Prog.runs_action_iff.mp hcreate with ⟨e, _, hf⟩
                  cases hc : fifoCreate e.malloc e.spinInit size 2 with
                  | error rc => simp [hc] at hf
                  | ok fifo0 =>
                      simp only [hc, Option.some.injEq, Prod.mk.injEq,
                        Except.ok.injEq] at hf
                      rcases hf with ⟨⟨_, rfl⟩, _⟩
                      rcases fifoCreate_ok hc (by unfold sizeMod; omega) with
                        ⟨hwf, hitems, hcap, helem⟩
                      have hcount : fifo0.count = 0 := by
                        simpa using congrArg List.length hitems
                      exact ⟨hwf, hcap, helem, by simp [hcount],
                        by simp [hcount, hitems]⟩
                rcases runs_fill hinit hfill with ⟨hsize, i, hinv, hcount⟩
                refine ⟨rfl, hsize, ⟨d, a, u, fifo', rfl⟩, ?_, ?_⟩
                · constructor
                  · exact hinv.wf
                  · change fifo'.capacity = (UInt16.ofNat size).toNat
                    rw [hinv.capacity, UInt16.toNat_ofNat', Nat.mod_eq_of_lt hsize]
                  · exact hinv.elemSize
                · change fifo'.items.map decode16 = _
                  rw [hinv.items, List.map_map, hcount]
                  apply List.map_congr_left
                  intro i _
                  simp

theorem virtqCreate_fresh {ok : Env -> Prop} {size : Nat} {legacy : Bool}
    {h h' : Host} {rc : Rc} {obj : VirtqObject}
    (hrun : Prog.Runs ok h (virtqCreate size legacy) (rc, some obj) h') :
    rc = .EOK ∧ Virtq.Fresh size legacy obj.vq := by
  unfold virtqCreate at hrun
  rcases Prog.runs_bind_iff.mp hrun with ⟨r, h1, _, hrun⟩
  cases r with
  | error e => cases (Prog.runs_ret_iff.mp hrun).1
  | ok block =>
      rcases Prog.runs_bind_iff.mp hrun with ⟨r, h2, _, hrun⟩
      cases r with
      | error e => cases hrun.eq_of_bind_ret
      | ok rings =>
          rcases Prog.runs_bind_iff.mp hrun with ⟨r, h3, _, hrun⟩
          cases r with
          | error e => cases hrun.eq_of_bind_ret
          | ok d =>
              rcases Prog.runs_bind_iff.mp hrun with ⟨r, h4, _, hrun⟩
              cases r with
              | error e => cases hrun.eq_of_bind_ret
              | ok a =>
                  rcases Prog.runs_bind_iff.mp hrun with ⟨r, h5, _, hrun⟩
                  cases r with
                  | error e => cases hrun.eq_of_bind_ret
                  | ok u => exact runs_createTables hrun

/-!
## A queue of two descriptors
-/

def createdTwo : (Rc × Option VirtqObject) × Host :=
  (Prog.exec (succeedingEnvs 15 1) Host.initial (virtqCreate 2 false)).get
    (by decide +kernel)

def queueTwo : VirtqObject :=
  createdTwo.1.2.get (by decide +kernel)

theorem queueTwo_created :
    Prog.Runs (fun _ => True) Host.initial (virtqCreate 2 false)
      (createdTwo.1.1, some queueTwo) createdTwo.2 := by
  have hrun : Prog.Runs (fun _ => True) Host.initial (virtqCreate 2 false)
      createdTwo.1 createdTwo.2 :=
    Prog.runs_of_exec (fun _ _ => trivial) (Option.some_get _).symm
  have hobj : createdTwo.1 = (createdTwo.1.1, some queueTwo) :=
    Prod.ext rfl (Option.some_get _).symm
  rw [← hobj]
  exact hrun

end QnxVirtio
