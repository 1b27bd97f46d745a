import QnxVirtio.Foundation.Answers
import QnxVirtio.Virtq.Layout

/-!
# Failures of `virtq_create`

Which calls of `virtq_create` may fail without leaving something behind.  The
clean-up after the rings are mapped sees a `num` of 0: it unmaps nothing of a modern
queue, and of a legacy queue the length for an empty queue.
-/

namespace QnxVirtio

open Foundation Prog

variable {σ : Nat -> Env} {i j : Nat} {h h' : Host}

/-!
## Mappings
-/

theorem release_newest {m : Memory} {n : Mapping} {rest : List Mapping}
    (hm : m.maps = n :: rest) : (m.release n.vaddr n.len).maps = rest := by
  rw [m.release_start hm (Nat.le_refl _), Mapping.cut_all]
  rfl

/-- The answer refuses a mapping. -/
def Env.RefusesMap (e : Env) : Prop :=
  exists f, e.mmap = .error f

theorem runsOn_mapPages {len : Nat} {r : Except Rc Nat}
    (hrun : RunsOn σ i h (mapPages len) r h' j) :
    j = i + 1 ∧
      (((len = 0 ∨ (σ i).RefusesMap) ∧ h' = h ∧
          exists rc, r = .error rc ∧ rc ≠ Rc.EOK) ∨
        (¬ (len = 0 ∨ (σ i).RefusesMap) ∧ exists v p m, r = .ok v ∧
          h' = { h with mem := m } ∧ m.maps = ⟨v, p, len⟩ :: h.mem.maps)) := by
  rcases runsOn_action_iff.mp hrun with ⟨hf, rfl⟩
  refine ⟨rfl, ?_⟩
  rcases Option.map_eq_some_iff.mp hf with ⟨⟨r', m⟩, hmmap, hout⟩
  cases hout
  unfold mmap64 at hmmap
  by_cases hlen : len = 0
  · rw [dif_pos hlen] at hmmap
    cases hmmap
    exact Or.inl ⟨Or.inl hlen, rfl, .EINVAL, rfl, by decide⟩
  · rw [dif_neg hlen] at hmmap
    cases hanswer : (σ i).mmap with
    | error f =>
        rw [hanswer] at hmmap
        cases hmmap
        exact Or.inl ⟨Or.inr ⟨f, hanswer⟩, rfl, f.val, rfl, f.property⟩
    | ok vp =>
        rcases vp with ⟨v, p⟩
        simp only [hanswer] at hmmap
        split at hmmap
        · cases hmmap
          refine Or.inr ⟨?_, v, p, _, rfl, rfl, rfl⟩
          rintro (hzero | ⟨f, hf⟩)
          · exact hlen hzero
          · rw [hanswer] at hf
            cases hf
        · cases hmmap

theorem runsOn_unmapPages {vaddr len : Nat} {rc : Rc}
    (hrun : RunsOn σ i h (unmapPages vaddr len) rc h' j) :
    (len = 0 ∧ rc = .minusOne ∧ h' = h) ∨
      (len ≠ 0 ∧ rc = .EOK ∧ h' = { h with mem := h.mem.release vaddr len }) := by
  rcases runsOn_action_iff.mp hrun with ⟨hf, rfl⟩
  cases hf
  by_cases hlen : len = 0
  · simp [munmap, hlen]
  · simp [munmap, hlen]

theorem runsOn_unmap_newest {v p len : Nat} {rest : List Mapping} {rc : Rc}
    (hm : h.mem.maps = ⟨v, p, len⟩ :: rest)
    (hrun : RunsOn σ i h (unmapPages v len) rc h' j) :
    exists m, h' = { h with mem := m } ∧ m.maps = rest := by
  have hpos : 0 < len := h.mem.pos ⟨v, p, len⟩ (by rw [hm]; exact List.mem_cons_self ..)
  rcases runsOn_unmapPages hrun with ⟨hzero, _⟩ | ⟨_, _, rfl⟩
  · exact absurd hzero (Nat.ne_of_gt hpos)
  · exact ⟨_, rfl, release_newest hm⟩

/-!
## Rings
-/

/-- The calls that map the rings fail, or there is nothing to map. -/
def RingsRefused (legacy : Bool) (num : UInt16) (pagesize : UInt64)
    (σ : Nat -> Env) : Prop :=
  if legacy then
    (virtqLegacyMemSize num pagesize.toUInt16).toNat = 0 ∨ (σ 2).RefusesMap
  else num = 0 ∨ (σ 1).RefusesMap ∨ (σ 2).RefusesMap ∨ (σ 3).RefusesMap

/-- The position of the first answer after the rings are mapped. -/
def afterRings (legacy : Bool) : Nat :=
  if legacy then 3 else 4

/-- The rings lie in mappings that were added to those of `m`. -/
structure RingsMapped (legacy : Bool) (num : UInt16) (pagesize : UInt64)
    (m m' : Memory) (rings : VirtqRings) : Prop where
  added : exists ms, ms ≠ [] ∧ m'.maps = ms ++ m.maps
  legacy_map : legacy = true -> exists paddr, m'.maps =
    ⟨rings.desc, paddr, (virtqLegacyMemSize num pagesize.toUInt16).toNat⟩ :: m.maps
  legacy_size : legacy = true -> (virtqLegacyMemSize 0 pagesize.toUInt16).toNat <=
    (virtqLegacyMemSize num pagesize.toUInt16).toNat
  desc : exists n, findMapping m'.maps rings.desc = some n
  avail : exists n, findMapping m'.maps rings.avail = some n
  used : exists n, findMapping m'.maps rings.used = some n

theorem findMapping_start {m : Memory} {n : Mapping} (hn : n ∈ m.maps) :
    findMapping m.maps n.vaddr = some n :=
  findMapping_of_mem hn (Nat.le_refl _) (Nat.lt_add_of_pos_right (m.pos n hn))

theorem legacyRings_in_mapping {num : UInt16} {pagesize : UInt64}
    (hpage : PageSize pagesize)
    (hlen : (virtqLegacyMemSize num pagesize.toUInt16).toNat ≠ 0) (desc : Nat) :
    let bound := desc + (virtqLegacyMemSize num pagesize.toUInt16).toNat
    desc < bound ∧ (legacyRings num pagesize desc).avail < bound ∧
      (legacyRings num pagesize desc).used < bound := by
  have hlt : pagesize.toNat < 65536 := by
    by_contra hge
    rw [virtqLegacyMemSize_of_ge hpage (Nat.le_of_not_lt hge)] at hlen
    exact hlen rfl
  have hround := le_alignUp hpage.pos (18 * num.toNat + 6)
  have havail := le_alignUp hpage.pos (2 * num.toNat + 6)
  have hused := toNat_usedOffset hpage num
  unfold legacyRings
  rw [virtqLegacyMemSize_of_lt hpage hlt, toNat_virtqDescMemSize, hused]
  refine ⟨?_, ?_, ?_⟩
  · omega
  · change desc + 16 * num.toNat < _
    omega
  · change desc + alignUp (18 * num.toNat + 6) pagesize.toNat < _
    omega

theorem runsOn_createModern {num : UInt16} {r : Except Rc VirtqRings}
    (hrun : RunsOn σ 1 h (virtqCreateModern num) r h' j) :
    (RingsRefused false num h.pagesize σ ∧
        (exists rc, r = .error rc ∧ rc ≠ Rc.EOK) ∧
        exists m, h' = { h with mem := m } ∧ m.maps = h.mem.maps) ∨
      (¬ RingsRefused false num h.pagesize σ ∧ j = 4 ∧ exists rings m, r = .ok rings ∧
        h' = { h with mem := m } ∧
        RingsMapped false num h.pagesize h.mem m rings) := by
  have hdesc : (virtqDescMemSize num.toUInt64).toNat = 0 <-> num = 0 := by
    rw [toNat_virtqDescMemSize, ← UInt16.toNat_inj, UInt16.toNat_zero]
    omega
  have havail : (virtqAvailMemSize num).toNat ≠ 0 := by
    rw [toNat_virtqAvailMemSize]
    omega
  have hused : (virtqUsedMemSize num).toNat ≠ 0 := by
    rw [toNat_virtqUsedMemSize]
    omega
  unfold virtqCreateModern at hrun
  rcases runsOn_bind_iff.mp hrun with ⟨r1, h1, k1, hmap1, hrun⟩
  rcases runsOn_mapPages hmap1 with ⟨rfl, ⟨hfail1, rfl, rc1, rfl, hrc1⟩ |
    ⟨hok1, v1, p1, m1, rfl, rfl, hm1⟩⟩
  · rcases runsOn_ret_iff.mp hrun with ⟨rfl, rfl, rfl⟩
    refine Or.inl ⟨?_, ⟨rc1, rfl, hrc1⟩, _, rfl, rfl⟩
    rw [hdesc] at hfail1
    exact hfail1.imp_right Or.inl
  · rw [hdesc] at hok1
    rcases runsOn_bind_iff.mp hrun with ⟨r2, h2, k2, hmap2, hrun⟩
    rcases runsOn_mapPages hmap2 with ⟨rfl, ⟨hfail2, rfl, rc2, rfl, hrc2⟩ |
      ⟨hok2, v2, p2, m2, rfl, rfl, hm2⟩⟩
    · rcases runsOn_bind_iff.mp hrun with ⟨_, h3, k3, hunmap, hrun⟩
      rcases runsOn_ret_iff.mp hrun with ⟨rfl, rfl, rfl⟩
      rcases runsOn_unmap_newest hm1 hunmap with ⟨m, rfl, hm⟩
      refine Or.inl ⟨?_, ⟨.ENOMEM, rfl, by decide⟩, m, rfl, hm⟩
      exact Or.inr (Or.inr (Or.inl (hfail2.resolve_left havail)))
    · rcases runsOn_bind_iff.mp hrun with ⟨r3, h3, k3, hmap3, hrun⟩
      rcases runsOn_mapPages hmap3 with ⟨rfl, ⟨hfail3, rfl, rc3, rfl, hrc3⟩ |
        ⟨hok3, v3, p3, m3, rfl, rfl, hm3⟩⟩
      · rcases runsOn_bind_iff.mp hrun with ⟨_, h4, k4, hunmap2, hrun⟩
        rcases runsOn_unmap_newest hm2 hunmap2 with ⟨m4, rfl, hm4⟩
        rcases runsOn_bind_iff.mp hrun with ⟨_, h5, k5, hunmap1, hrun⟩
        rcases runsOn_ret_iff.mp hrun with ⟨rfl, rfl, rfl⟩
        rcases runsOn_unmap_newest (hm4.trans hm1) hunmap1 with ⟨m5, rfl, hm5⟩
        refine Or.inl ⟨?_, ⟨.ENOMEM, rfl, by decide⟩, m5, rfl, hm5⟩
        exact Or.inr (Or.inr (Or.inr (hfail3.resolve_left hused)))
      · rcases runsOn_ret_iff.mp hrun with ⟨rfl, rfl, rfl⟩
        refine Or.inr ⟨?_, rfl, _, m3, rfl, rfl, ?_⟩
        · rintro (hzero | hone | htwo | hthree)
          · exact hok1 (Or.inl hzero)
          · exact hok1 (Or.inr hone)
          · exact hok2 (Or.inr htwo)
          · exact hok3 (Or.inr hthree)
        · have hmaps : m3.maps =
              [⟨v3, p3, (virtqUsedMemSize num).toNat⟩,
                ⟨v2, p2, (virtqAvailMemSize num).toNat⟩,
                ⟨v1, p1, (virtqDescMemSize num.toUInt64).toNat⟩] ++ h.mem.maps :=
            hm3.trans (congrArg (List.cons _) (hm2.trans (congrArg (List.cons _) hm1)))
          have hin : forall n, n ∈ m3.maps ->
              exists n', findMapping m3.maps n.vaddr = some n' :=
            fun n hn => ⟨n, findMapping_start hn⟩
          constructor
          · exact ⟨_, List.cons_ne_nil _ _, hmaps⟩
          · intro hlegacy
            cases hlegacy
          · intro hlegacy
            cases hlegacy
          · exact hin ⟨v1, p1, (virtqDescMemSize num.toUInt64).toNat⟩
              (by rw [hmaps]; simp)
          · exact hin ⟨v2, p2, (virtqAvailMemSize num).toNat⟩
              (by rw [hmaps]; simp)
          · exact hin ⟨v3, p3, (virtqUsedMemSize num).toNat⟩
              (by rw [hmaps]; simp)

theorem runsOn_createLegacy {num : UInt16} {r : Except Rc VirtqRings}
    (hpage : PageSize h.pagesize)
    (hrun : RunsOn σ 1 h (virtqCreateLegacy num) r h' j) :
    (RingsRefused true num h.pagesize σ ∧
        (exists rc, r = .error rc ∧ rc ≠ Rc.EOK) ∧
        exists m, h' = { h with mem := m } ∧ m.maps = h.mem.maps) ∨
      (¬ RingsRefused true num h.pagesize σ ∧ j = 3 ∧ exists rings m, r = .ok rings ∧
        h' = { h with mem := m } ∧
        RingsMapped true num h.pagesize h.mem m rings) := by
  unfold virtqCreateLegacy at hrun
  rcases runsOn_bind_iff.mp hrun with ⟨pagesize, h1, k1, hread, hrun⟩
  rcases runsOn_read_iff.mp hread with ⟨rfl, rfl, rfl⟩
  rcases runsOn_bind_iff.mp hrun with ⟨r2, h2, k2, hmap, hrun⟩
  rcases runsOn_mapPages hmap with ⟨rfl, ⟨hfail, rfl, rc, rfl, hrc⟩ |
    ⟨hok, v, p, m, rfl, rfl, hm⟩⟩
  · rcases runsOn_ret_iff.mp hrun with ⟨rfl, rfl, rfl⟩
    exact Or.inl ⟨hfail, ⟨rc, rfl, hrc⟩, _, rfl, rfl⟩
  · rcases runsOn_ret_iff.mp hrun with ⟨rfl, rfl, rfl⟩
    refine Or.inr ⟨hok, rfl, _, m, rfl, rfl, ?_⟩
    have hin := legacyRings_in_mapping hpage (fun hzero => hok (Or.inl hzero)) v
    have hmem : (⟨v, p, (virtqLegacyMemSize num h1.pagesize.toUInt16).toNat⟩ : Mapping)
        ∈ m.maps := by
      rw [hm]
      exact List.mem_cons_self ..
    constructor
    · exact ⟨[_], by simp, hm⟩
    · exact fun _ => ⟨p, hm⟩
    · exact fun _ => virtqLegacyMemSize_zero_le hpage num
    · exact ⟨_, findMapping_of_mem hmem (Nat.le_refl _) hin.1⟩
    · exact ⟨_, findMapping_of_mem hmem (Nat.le_add_right _ _) hin.2.1⟩
    · exact ⟨_, findMapping_of_mem hmem (Nat.le_add_right _ _) hin.2.2⟩

theorem runsOn_createRings {legacy : Bool} {num : UInt16} {r : Except Rc VirtqRings}
    (hrun : RunsOn σ 1 h (virtqCreateRings legacy num) r h' j)
    (hpage : PageSize h.pagesize) :
    (RingsRefused legacy num h.pagesize σ ∧
        (exists rc, r = .error rc ∧ rc ≠ Rc.EOK) ∧
        exists m, h' = { h with mem := m } ∧ m.maps = h.mem.maps) ∨
      (¬ RingsRefused legacy num h.pagesize σ ∧ j = afterRings legacy ∧
        exists rings m, r = .ok rings ∧ h' = { h with mem := m } ∧
        RingsMapped legacy num h.pagesize h.mem m rings) := by
  cases legacy with
  | true => exact runsOn_createLegacy hpage hrun
  | false => exact runsOn_createModern hrun

/-!
## The clean-up
-/

/-- The mapping of a legacy queue is as long as that of an empty queue, which is what
the clean-up unmaps. -/
def UnwindExact (legacy : Bool) (num : UInt16) (pagesize : UInt64) : Prop :=
  legacy = true ∧ virtqLegacyMemSize num pagesize.toUInt16 =
    virtqLegacyMemSize 0 pagesize.toUInt16

theorem not_perm_of_added {ms l l' : List Mapping} (hms : ms ≠ []) (h : l' = ms ++ l) :
    ¬ l'.Perm l := by
  intro hperm
  have hlen := hperm.length_eq
  rw [h, List.length_append] at hlen
  have hpos := List.length_pos_of_ne_nil hms
  omega

theorem runsOn_destroyLegacy {num : UInt16} {rings : VirtqRings} {m₀ : Memory} {rc : Rc}
    (hmapped : RingsMapped true num h.pagesize m₀ h.mem rings)
    (hrun : RunsOn σ i h (virtqDestroyLegacy 0 rings) rc h' j) :
    h'.heap = h.heap ∧
      (h'.mem.maps.Perm m₀.maps <-> UnwindExact true num h.pagesize) := by
  rcases hmapped.legacy_map rfl with ⟨p, hm⟩
  have hpos := h.mem.pos _ (by rw [hm]; exact List.mem_cons_self ..)
  unfold virtqDestroyLegacy at hrun
  rcases runsOn_bind_iff.mp hrun with ⟨pagesize, h1, k1, hread, hrun⟩
  rcases runsOn_read_iff.mp hread with ⟨rfl, rfl, rfl⟩
  by_cases hexact : virtqLegacyMemSize num h1.pagesize.toUInt16 =
      virtqLegacyMemSize 0 h1.pagesize.toUInt16
  · rw [← hexact] at hrun
    rcases runsOn_unmap_newest hm hrun with ⟨m, rfl, hrest⟩
    refine ⟨rfl, iff_of_true ?_ ⟨rfl, hexact⟩⟩
    rw [← hrest]
  · have hshort : (virtqLegacyMemSize 0 h1.pagesize.toUInt16).toNat <
        (virtqLegacyMemSize num h1.pagesize.toUInt16).toNat := by
      refine Nat.lt_of_le_of_ne (hmapped.legacy_size rfl) fun heq => ?_
      exact hexact (UInt64.toNat_inj.mp heq.symm)
    have hleft : h'.heap = h1.heap ∧
        exists ms, ms ≠ [] ∧ h'.mem.maps = ms ++ m₀.maps := by
      rcases runsOn_unmapPages hrun with ⟨_, _, rfl⟩ | ⟨_, _, rfl⟩
      · exact ⟨rfl, hmapped.added⟩
      · exact ⟨rfl, _, Mapping.cut_start_ne_nil hshort,
          h1.mem.release_start hm (Nat.le_of_lt hshort)⟩
    rcases hleft with ⟨hheap, ms, hne, hms⟩
    exact ⟨hheap, iff_of_false (not_perm_of_added hne hms) fun h => hexact h.2⟩

theorem runsOn_destroyModern {num : UInt16} {rings : VirtqRings} {m₀ : Memory} {rc : Rc}
    (hmapped : RingsMapped false num h.pagesize m₀ h.mem rings)
    (hrun : RunsOn σ i h (virtqDestroyModern 0 rings) rc h' j) :
    h'.heap = h.heap ∧
      (h'.mem.maps.Perm m₀.maps <-> UnwindExact false num h.pagesize) := by
  unfold virtqDestroyModern at hrun
  rcases runsOn_bind_iff.mp hrun with ⟨rc1, h1, k1, hunmap, hrest⟩
  -- the descriptor table of an empty queue has no bytes to unmap
  rcases runsOn_unmapPages hunmap with ⟨_, rfl, rfl⟩ | ⟨hne, _⟩
  · rw [if_pos (by decide)] at hrest
    rcases runsOn_ret_iff.mp hrest with ⟨_, rfl, _⟩
    refine ⟨rfl, iff_of_false ?_ fun h => Bool.false_ne_true h.1⟩
    rcases hmapped.added with ⟨ms, hne, hms⟩
    exact not_perm_of_added hne hms
  · exact absurd (by decide) hne

/-- The clean-up frees the structure, and the rings only if the lengths agree. -/
theorem runsOn_unwind {legacy : Bool} {num : UInt16} {rings : VirtqRings} {m₀ : Memory}
    {block : Nat} {u : Unit}
    (hmapped : RingsMapped legacy num h.pagesize m₀ h.mem rings)
    (hrun : RunsOn σ i h (virtqCreateUnwind legacy rings block) u h' j) :
    h'.heap = h.heap.erase block ∧
      (h'.mem.maps.Perm m₀.maps <-> UnwindExact legacy num h.pagesize) := by
  unfold virtqCreateUnwind at hrun
  rcases runsOn_bind_iff.mp hrun with ⟨rc, h1, k1, hdestroy, hrun⟩
  rcases runsOn_modify_iff.mp hrun with ⟨rfl, _⟩
  have hspec : h1.heap = h.heap ∧
      (h1.mem.maps.Perm m₀.maps <-> UnwindExact legacy num h.pagesize) := by
    cases legacy with
    | true => exact runsOn_destroyLegacy hmapped hdestroy
    | false => exact runsOn_destroyModern hmapped hdestroy
  refine ⟨?_, hspec.2⟩
  rw [← hspec.1]

/-!
## All or nothing
-/

/-- A queue of `size` descriptors, all of them free, whose blocks and rings are
live. -/
structure VirtqObject.Live (size : Nat) (h h' : Host) (obj : VirtqObject) : Prop where
  num : obj.vq.num.toNat = size
  availIdx : obj.vq.availIdx = 0
  lastSeenUsed : obj.vq.lastSeenUsed = 0
  freeList : obj.vq.freeList = (List.range size).map UInt16.ofNat
  heap : h'.heap = obj.fifoBlock :: obj.extrasBlock :: obj.block :: h.heap
  desc : exists n, findMapping h'.mem.maps obj.rings.desc = some n
  avail : exists n, findMapping h'.mem.maps obj.rings.avail = some n
  used : exists n, findMapping h'.mem.maps obj.rings.used = some n

/-- With `EOK` comes a queue; with any other code everything is as it was. -/
structure AllOrNothing (size : Nat) (h h' : Host) (rc : Rc)
    (out : Option VirtqObject) : Prop where
  created : rc = .EOK -> exists obj, out = some obj ∧ obj.Live size h h'
  failed : rc ≠ .EOK ->
    out = none ∧ h'.mem.maps.Perm h.mem.maps ∧ h'.heap.Perm h.heap

theorem allOrNothing_of_unwind (h₀ : Host) {size : Nat} {legacy : Bool}
    {num : UInt16} {rings : VirtqRings} {block : Nat} {rc' rc : Rc}
    {out : Option VirtqObject}
    (hrun : RunsOn σ i h ((virtqCreateUnwind legacy rings block).bind
      fun _ => Prog.ret (rc', none)) (rc, out) h' j)
    (hmapped : RingsMapped legacy num h.pagesize h₀.mem h.mem rings)
    (hheap : h.heap = block :: h₀.heap) (hrc : rc' ≠ .EOK) :
    AllOrNothing size h₀ h' rc out <-> UnwindExact legacy num h.pagesize := by
  rcases runsOn_bind_iff.mp hrun with ⟨u, h1, k1, hunwind, hrun⟩
  rcases runsOn_ret_iff.mp hrun with ⟨hout, rfl, _⟩
  cases hout
  rcases runsOn_unwind hmapped hunwind with ⟨hheap', hperm⟩
  constructor
  · exact fun hall => hperm.mp (hall.failed hrc).2.1
  · intro hexact
    constructor
    · exact fun heq => absurd heq hrc
    · intro _
      refine ⟨rfl, hperm.mpr hexact, ?_⟩
      rw [hheap', hheap, List.erase_cons_head]

/-!
## The fill loop
-/

/-- The locks of the first `size` puts are all taken. -/
def PutsAllowed (size : Nat) (σ : Nat -> Env) (i : Nat) : Prop :=
  forall k, k < size -> (σ (i + k)).lock = .EOK

theorem fifoPut_refused {lock : Rc} {fifo : Fifo} {elem : List UInt8}
    (h : lock ≠ .EOK ∨ fifo.count = fifo.capacity) :
    (fifoPut lock fifo elem).1 ≠ .EOK := by
  by_cases hlock : lock = .EOK
  · have hfull : fifoFull fifo = true := by
      simp [fifoFull, h.resolve_left (fun hne => hne hlock)]
    simp [fifoPut, hlock, hfull]
  · simp [fifoPut, hlock]

theorem fifoPut_allowed {lock : Rc} {fifo : Fifo} (elem : List UInt8)
    (hlock : lock = .EOK) (hroom : fifo.count ≠ fifo.capacity) :
    (fifoPut lock fifo elem).1 = .EOK ∧
      (fifoPut lock fifo elem).2.count = fifo.count + 1 ∧
      (fifoPut lock fifo elem).2.capacity = fifo.capacity := by
  simp [fifoPut, hlock, fifoFull, hroom]

/-- The loop ends: with the FIFO if the index can reach the size and every put is
allowed, and otherwise with nothing. -/
def FillEnds (size : Nat) (σ : Nat -> Env) (i : Nat) (h : Host)
    (r : Option Fifo) (h' : Host) (j : Nat) : Prop :=
  h' = h ∧
    (((exists fifo, r = some fifo) ∧ j = i + size ∧ size < 65536 ∧
        PutsAllowed size σ i) ∨
      (r = none ∧ ¬ (size < 65536 ∧ PutsAllowed size σ i)))

/-- Before the last element there is a put to do; with a size that 16 bits cannot
count to there always is. -/
theorem fill_index_lt_iff {size count : Nat} (hle : count <= size) :
    (UInt16.ofNat count).toNat < size <-> ¬ (size < 65536 ∧ count = size) := by
  rw [UInt16.toNat_ofNat']
  have hmod : count % 2 ^ 16 <= count := Nat.mod_le _ _
  have hlt : count % 2 ^ 16 < 65536 := Nat.mod_lt _ (by decide)
  constructor
  · rintro h ⟨hsize, rfl⟩
    rw [Nat.mod_eq_of_lt hsize] at h
    exact Nat.lt_irrefl _ h
  · intro h
    by_cases hsize : size < 65536
    · have hne : count ≠ size := fun heq => h ⟨hsize, heq⟩
      omega
    · omega

theorem runsOn_fill_refused {size : Nat} {x : UInt16} {fifo : Fifo}
    (hlt : x.toNat < size)
    (hput : (fifoPut (σ i).lock fifo (encode16 x)).1 ≠ .EOK) :
    RunsOn σ i h (Prog.iterate (fillFreeDescs size) (x, fifo)) none h (i + 1) := by
  rw [runsOn_iterate_iff]
  refine ⟨.inr none, h, i + 1, ?_, RunsOn.ret _ _ _⟩
  unfold fillFreeDescs
  rw [if_pos hlt]
  exact runsOn_action_iff.mpr ⟨by simp [hput], rfl⟩

theorem runsOn_fill_allowed {size : Nat} {x : UInt16} {fifo : Fifo}
    {r : Option Fifo} (hlt : x.toNat < size)
    (hput : (fifoPut (σ i).lock fifo (encode16 x)).1 = .EOK)
    (hrest : RunsOn σ (i + 1) h (Prog.iterate (fillFreeDescs size)
      (x + 1, (fifoPut (σ i).lock fifo (encode16 x)).2)) r h' j) :
    RunsOn σ i h (Prog.iterate (fillFreeDescs size) (x, fifo)) r h' j := by
  rw [runsOn_iterate_iff]
  refine ⟨.inl (x + 1, (fifoPut (σ i).lock fifo (encode16 x)).2), h, i + 1, ?_, hrest⟩
  unfold fillFreeDescs
  rw [if_pos hlt]
  exact runsOn_action_iff.mpr ⟨by simp [hput], rfl⟩

theorem runsOn_fill_done {size : Nat} {x : UInt16} (fifo : Fifo)
    (hge : ¬ x.toNat < size) :
    RunsOn σ i h (Prog.iterate (fillFreeDescs size) (x, fifo)) (some fifo) h i := by
  rw [runsOn_iterate_iff]
  refine ⟨.inr (some fifo), h, i, ?_, RunsOn.ret _ _ _⟩
  unfold fillFreeDescs
  rw [if_neg hge]
  exact RunsOn.ret _ _ _

/-- From `count` elements on, by induction on the number of elements to come. -/
theorem fill_ends_from {size : Nat} (d : Nat) :
    forall (count : Nat) (fifo : Fifo), count + d = size -> fifo.count = count ->
      fifo.capacity = size -> PutsAllowed count σ i ->
      exists r h' j, RunsOn σ (i + count) h
        (Prog.iterate (fillFreeDescs size) (UInt16.ofNat count, fifo)) r h' j ∧
        FillEnds size σ i h r h' j := by
  induction d with
  | zero =>
      rintro count fifo hsum hcount hcap hputs
      have hsize : count = size := hsum
      have hiff := fill_index_lt_iff (Nat.le_of_eq hsize)
      by_cases hlt : size < 65536
      · have hge : ¬ (UInt16.ofNat count).toNat < size :=
          fun h => hiff.mp h ⟨hlt, hsize⟩
        refine ⟨some fifo, h, i + count, runsOn_fill_done fifo hge, rfl, ?_⟩
        rw [hsize] at hputs ⊢
        exact Or.inl ⟨⟨fifo, rfl⟩, rfl, hlt, hputs⟩
      · have hput : (fifoPut (σ (i + count)).lock fifo
            (encode16 (UInt16.ofNat count))).1 ≠ .EOK :=
          fifoPut_refused (Or.inr (by rw [hcount, hcap, hsize]))
        exact ⟨none, h, _, runsOn_fill_refused (hiff.mpr fun h => hlt h.1) hput, rfl,
          Or.inr ⟨rfl, fun h => hlt h.1⟩⟩
  | succ d ih =>
      rintro count fifo hsum hcount hcap hputs
      have hlt : (UInt16.ofNat count).toNat < size :=
        (fill_index_lt_iff (by omega)).mpr fun h => by omega
      by_cases hlock : (σ (i + count)).lock = .EOK
      · have hroom : fifo.count ≠ fifo.capacity := by omega
        rcases fifoPut_allowed (encode16 (UInt16.ofNat count)) hlock hroom with
          ⟨hput, hcount', hcap'⟩
        have hputs' : PutsAllowed (count + 1) σ i := by
          intro k hk
          rcases Nat.lt_succ_iff_lt_or_eq.mp hk with hk | rfl
          · exact hputs k hk
          · exact hlock
        rcases ih (count + 1) _ (by omega) (hcount'.trans (congrArg (· + 1) hcount))
          (hcap'.trans hcap) hputs' with ⟨r, h', j, hrun, hends⟩
        refine ⟨r, h', j, runsOn_fill_allowed hlt hput ?_, hends⟩
        rw [UInt16.ofNat_add] at hrun
        exact hrun
      · refine ⟨none, h, _, runsOn_fill_refused hlt (fifoPut_refused (Or.inl hlock)),
          rfl, Or.inr ⟨rfl, fun hall => hlock (hall.2 count (by omega))⟩⟩

theorem fill_ends {size : Nat} {fifo : Fifo} (hcount : fifo.count = 0)
    (hcap : fifo.capacity = size) (σ : Nat -> Env) (i : Nat) (h : Host) :
    exists r h' j, RunsOn σ i h (Prog.iterate (fillFreeDescs size) (0, fifo)) r h' j ∧
      FillEnds size σ i h r h' j :=
  fill_ends_from size 0 fifo (Nat.zero_add size) hcount hcap
    fun _ hk => absurd hk (Nat.not_lt_zero _)

theorem runsOn_fill {size : Nat} {fifo : Fifo} {r : Option Fifo}
    (hcount : fifo.count = 0) (hcap : fifo.capacity = size)
    (hrun : RunsOn σ i h (Prog.iterate (fillFreeDescs size) (0, fifo)) r h' j) :
    FillEnds size σ i h r h' j := by
  rcases fill_ends hcount hcap σ i h with ⟨r1, h1, j1, hrun1, hends⟩
  rcases hrun1.unique hrun with ⟨rfl, rfl, rfl⟩
  exact hends

/-!
## Tables
-/

theorem runsOn_allocBlock {r : Except Rc Nat}
    (hrun : RunsOn σ i h allocBlock r h' j) :
    j = i + 1 ∧
      (((σ i).calloc ≠ none ∧ h' = h ∧ exists rc, r = .error rc ∧ rc ≠ Rc.EOK) ∨
        ((σ i).calloc = none ∧ r = .ok h.nextBlock ∧
          h' = { h with heap := h.nextBlock :: h.heap, nextBlock := h.nextBlock + 1 })) := by
  rcases runsOn_action_iff.mp hrun with ⟨hf, rfl⟩
  refine ⟨rfl, ?_⟩
  cases hcalloc : (σ i).calloc with
  | none =>
      simp only [hcalloc, Option.some.injEq, Prod.mk.injEq] at hf
      exact Or.inr ⟨rfl, hf.1.symm, hf.2.symm⟩
  | some f =>
      simp only [hcalloc, Option.some.injEq, Prod.mk.injEq] at hf
      exact Or.inl ⟨fun h => (by cases h), hf.2.symm, f.val, hf.1.symm, f.property⟩

/-- `fifo_create` gets no memory or cannot set up its lock. -/
def Env.RefusesFifo (e : Env) : Prop :=
  e.malloc = none ∨ e.spinInit ≠ .EOK

theorem runsOn_createFreeDescs {size : Nat} {r : Except Rc (Nat × Fifo)}
    (hrun : RunsOn σ i h (createFreeDescs size) r h' j) :
    j = i + 1 ∧
      (((σ i).RefusesFifo ∧ h' = h ∧ exists rc, r = .error rc ∧ rc ≠ Rc.EOK) ∨
        (¬ (σ i).RefusesFifo ∧ exists fifo, r = .ok (h.nextBlock, fifo) ∧
          fifo.count = 0 ∧ fifo.capacity = size ∧
          h' = { h with heap := h.nextBlock :: h.heap, nextBlock := h.nextBlock + 1 })) := by
  rcases runsOn_action_iff.mp hrun with ⟨hf, rfl⟩
  refine ⟨rfl, ?_⟩
  cases hmalloc : (σ i).malloc with
  | none =>
      simp only [hmalloc, fifoCreate, Option.some.injEq, Prod.mk.injEq] at hf
      exact Or.inl ⟨Or.inl hmalloc, hf.2.symm, .ENOMEM, hf.1.symm, by decide⟩
  | some data =>
      by_cases hspin : (σ i).spinInit = .EOK
      · simp only [hmalloc, hspin, fifoCreate, ne_eq, not_true_eq_false, if_false,
          Option.some.injEq, Prod.mk.injEq] at hf
        refine Or.inr ⟨?_, _, hf.1.symm, rfl, rfl, hf.2.symm⟩
        rintro (hnone | hne)
        · rw [hmalloc] at hnone
          cases hnone
        · exact hne hspin
      · simp only [hmalloc, hspin, fifoCreate, ne_eq, not_false_eq_true, if_true,
          Option.some.injEq, Prod.mk.injEq] at hf
        exact Or.inl ⟨Or.inr hspin, hf.2.symm, _, hf.1.symm, hspin⟩

theorem runsOn_fifoDestory {block : Nat} {rc : Rc}
    (hdestroy : (σ i).spinDestroy = .EOK)
    (hrun : RunsOn σ i h (fifoDestory block) rc h' j) :
    h' = { h with heap := h.heap.erase block } := by
  unfold fifoDestory at hrun
  rcases runsOn_bind_iff.mp hrun with ⟨rc1, h1, k1, hspin, hrest⟩
  rcases runsOn_action_iff.mp hspin with ⟨hf, rfl⟩
  simp only [hdestroy, Option.some.injEq, Prod.mk.injEq] at hf
  rcases hf with ⟨rfl, rfl⟩
  rcases runsOn_bind_iff.mp hrest with ⟨_, h2, k2, hfree, hret⟩
  rcases runsOn_modify_iff.mp hfree with ⟨rfl, rfl⟩
  exact (runsOn_ret_iff.mp hret).2.1

/-- From position `i` on: the extras or the FIFO cannot be allocated. -/
def TablesRefused (σ : Nat -> Env) (i : Nat) : Prop :=
  (σ i).calloc ≠ none ∨ (σ (i + 1)).RefusesFifo

/-- Every index fits 16 bits and is put. -/
def Filled (size : Nat) (σ : Nat -> Env) (i : Nat) : Prop :=
  size < 65536 ∧ PutsAllowed size σ i

theorem allOrNothing_tables (h₀ : Host) {size : Nat} {legacy : Bool}
    {block d a u : Nat} {rings : VirtqRings} {rc : Rc} {out : Option VirtqObject}
    (hdestroy : forall n, (σ n).spinDestroy = .EOK)
    (hmapped : RingsMapped legacy (UInt16.ofNat size) h.pagesize h₀.mem h.mem rings)
    (hheap : h.heap = block :: h₀.heap)
    (hrun : RunsOn σ i h
      (virtqCreate.virtqCreateTables size legacy block rings d a u) (rc, out) h' j) :
    AllOrNothing size h₀ h' rc out <->
      (¬ TablesRefused σ i ∧ Filled size σ (i + 2) ∧
          (σ (i + 2 + size)).spinInit = .EOK) ∨
        (UnwindExact legacy (UInt16.ofNat size) h.pagesize ∧
          (TablesRefused σ i ∨
            (Filled size σ (i + 2) ∧ (σ (i + 2 + size)).spinInit ≠ .EOK))) := by
  have hruns := hrun
  unfold virtqCreate.virtqCreateTables at hrun
  rcases runsOn_bind_iff.mp hrun with ⟨r1, h1, k1, halloc, hrest⟩
  rcases runsOn_allocBlock halloc with ⟨rfl, ⟨hcalloc, rfl, rc1, rfl, hrc1⟩ |
    ⟨hcalloc, rfl, rfl⟩⟩
  · have hrefused : TablesRefused σ i := Or.inl hcalloc
    rw [allOrNothing_of_unwind h₀ hrest hmapped hheap hrc1]
    simp [hrefused]
  · rcases runsOn_bind_iff.mp hrest with ⟨r2, h2, k2, hcreate, hrest⟩
    rcases runsOn_createFreeDescs hcreate with ⟨rfl, ⟨hfifo, rfl, rc2, rfl, hrc2⟩ |
      ⟨hfifo, fifo, rfl, hcount, hcap, rfl⟩⟩
    · have hrefused : TablesRefused σ i := Or.inr hfifo
      rcases runsOn_bind_iff.mp hrest with ⟨_, h3, k3, hfree, hrest⟩
      rcases runsOn_modify_iff.mp hfree with ⟨rfl, rfl⟩
      rw [allOrNothing_of_unwind h₀ hrest hmapped
        ((List.erase_cons_head _ _).trans hheap) hrc2]
      simp [hrefused]
    · have hallowed : ¬ TablesRefused σ i := fun h => h.elim (· hcalloc) hfifo
      rcases runsOn_bind_iff.mp hrest with ⟨r3, h3, k3, hfill, hrest⟩
      rcases runsOn_fill hcount hcap hfill with ⟨rfl, ⟨⟨filled, rfl⟩, rfl, hfilled⟩ |
        ⟨rfl, hnot⟩⟩
      · rcases runsOn_bind_iff.mp hrest with ⟨rc4, h4, k4, hspin, hrest⟩
        rcases runsOn_action_iff.mp hspin with ⟨hf, rfl⟩
        cases hf
        by_cases hlock : (σ (i + 1 + 1 + size)).spinInit = .EOK
        · rw [if_neg (fun h => h hlock)] at hrest
          rcases runsOn_ret_iff.mp hrest with ⟨hout, rfl, _⟩
          cases hout
          refine iff_of_true ?_ (Or.inl ⟨hallowed, hfilled, hlock⟩)
          have hfresh := (runs_createTables hruns.runs).2
          constructor
          · refine fun _ => ⟨_, rfl, ?_⟩
            constructor
            case num => exact hfresh.num_toNat
            case availIdx => rfl
            case lastSeenUsed => rfl
            case freeList => exact hfresh.freeList
            case heap => rw [← hheap]
            case desc => exact hmapped.desc
            case avail => exact hmapped.avail
            case used => exact hmapped.used
          · exact fun hne => absurd rfl hne
        · rw [if_pos hlock] at hrest
          rcases runsOn_bind_iff.mp hrest with ⟨_, h5, k5, hfifoFree, hrest⟩
          cases runsOn_fifoDestory (hdestroy _) hfifoFree
          rcases runsOn_bind_iff.mp hrest with ⟨_, h6, k6, hfree, hrest⟩
          rcases runsOn_modify_iff.mp hfree with ⟨rfl, rfl⟩
          have hheap' : (((h.nextBlock + 1) :: h.nextBlock :: h.heap).erase
              (h.nextBlock + 1)).erase h.nextBlock = block :: h₀.heap := by
            rw [List.erase_cons_head, List.erase_cons_head, hheap]
          rw [allOrNothing_of_unwind h₀ hrest hmapped hheap' hlock]
          simp [hallowed, Filled, hfilled, hlock]
      · have hfailed : rc = .EOK ∧ out = none := by
          rcases runsOn_bind_iff.mp hrest with ⟨_, h4, k4, _, hrest⟩
          rcases runsOn_bind_iff.mp hrest with ⟨_, h5, k5, _, hrest⟩
          rcases runsOn_bind_iff.mp hrest with ⟨_, h6, k6, _, hrest⟩
          cases (runsOn_ret_iff.mp hrest).1
          exact ⟨rfl, rfl⟩
        rcases hfailed with ⟨rfl, rfl⟩
        apply iff_of_false
        · intro hall
          rcases hall.created rfl with ⟨obj, hobj, _⟩
          cases hobj
        · rintro (⟨_, hfilled, _⟩ | ⟨_, hrefused | ⟨hfilled, _⟩⟩)
          · exact hnot hfilled
          · exact hallowed hrefused
          · exact hnot hfilled

/-!
## The whole call
-/

theorem runsOn_pagesOffset {vaddr : Nat} {r : Except Rc Nat}
    (hfound : exists n, findMapping h.mem.maps vaddr = some n)
    (hrun : RunsOn σ i h (pagesOffset vaddr) r h' j) :
    j = i + 1 ∧ h' = h ∧
      (((σ i).memOffset ≠ none ∧ exists rc, r = .error rc) ∨
        ((σ i).memOffset = none ∧ exists p, r = .ok p)) := by
  rcases hfound with ⟨n, hn⟩
  rcases runsOn_action_iff.mp hrun with ⟨hf, rfl⟩
  simp only [Option.some.injEq, Prod.mk.injEq] at hf
  rcases hf with ⟨rfl, rfl⟩
  refine ⟨rfl, rfl, ?_⟩
  cases hanswer : (σ i).memOffset with
  | none =>
      refine Or.inr ⟨rfl, n.paddr + (vaddr - n.vaddr), ?_⟩
      simp only [memOffset64, hn]
  | some f => exact Or.inl ⟨fun h => (by cases h), f.val, rfl⟩

/-- Of the three answers from position `i` on, one fails a `mem_offset64`. -/
def OffsetRefused (σ : Nat -> Env) (i : Nat) : Prop :=
  (σ i).memOffset ≠ none ∨ (σ (i + 1)).memOffset ≠ none ∨
    (σ (i + 2)).memOffset ≠ none

/-- After the rings are mapped, a call before the fill loop fails. -/
def SetupRefused (legacy : Bool) (σ : Nat -> Env) : Prop :=
  OffsetRefused σ (afterRings legacy) ∨ TablesRefused σ (afterRings legacy + 3)

/-- The indices fit, and every put of the fill loop is allowed. -/
def FillAllowed (size : Nat) (legacy : Bool) (σ : Nat -> Env) : Prop :=
  Filled size σ (afterRings legacy + 5)

def LockRefused (size : Nat) (legacy : Bool) (σ : Nat -> Env) : Prop :=
  (σ (afterRings legacy + 5 + size)).spinInit ≠ .EOK

/-- Nothing fails after the rings are mapped, or the rings are never mapped, or the
clean-up unmaps the right length and the call that fails is no `fifo_put`. -/
def CreateClean (size : Nat) (legacy : Bool) (pagesize : UInt64)
    (σ : Nat -> Env) : Prop :=
  (σ 0).calloc ≠ none ∨ RingsRefused legacy (UInt16.ofNat size) pagesize σ ∨
    (¬ SetupRefused legacy σ ∧ FillAllowed size legacy σ ∧
      ¬ LockRefused size legacy σ) ∨
    (UnwindExact legacy (UInt16.ofNat size) pagesize ∧
      (SetupRefused legacy σ ∨
        (FillAllowed size legacy σ ∧ LockRefused size legacy σ)))

theorem allOrNothing_unchanged {size : Nat} {rc : Rc} (hrc : rc ≠ .EOK)
    (hmaps : h'.mem.maps = h.mem.maps) (hheap : h'.heap = h.heap) :
    AllOrNothing size h h' rc none where
  created := fun heq => absurd heq hrc
  failed := fun _ => ⟨rfl, by rw [hmaps], by rw [hheap]⟩

theorem allOrNothing_iff {size : Nat} {legacy : Bool} {rc : Rc}
    {out : Option VirtqObject} (hpage : PageSize h.pagesize)
    (hdestroy : forall n, (σ n).spinDestroy = .EOK)
    (hrun : RunsOn σ 0 h (virtqCreate size legacy) (rc, out) h' j) :
    AllOrNothing size h h' rc out <-> CreateClean size legacy h.pagesize σ := by
  unfold virtqCreate at hrun
  rcases runsOn_bind_iff.mp hrun with ⟨r1, h1, k1, halloc, hrest⟩
  rcases runsOn_allocBlock halloc with ⟨rfl, ⟨hcalloc, rfl, rc1, rfl, hrc1⟩ |
    ⟨hcalloc, rfl, rfl⟩⟩
  · rcases runsOn_ret_iff.mp hrest with ⟨hout, rfl, _⟩
    cases hout
    exact iff_of_true (allOrNothing_unchanged hrc1 rfl rfl) (Or.inl hcalloc)
  · rcases runsOn_bind_iff.mp hrest with ⟨r2, h2, k2, hrings, hrest⟩
    rcases runsOn_createRings hrings hpage with
      ⟨hrefused, ⟨rc2, rfl, hrc2⟩, m, rfl, hm⟩ | ⟨hmapped, rfl, rings, m, rfl, rfl, hrm⟩
    · rcases runsOn_bind_iff.mp hrest with ⟨_, h3, k3, hfree, hrest⟩
      rcases runsOn_modify_iff.mp hfree with ⟨rfl, rfl⟩
      rcases runsOn_ret_iff.mp hrest with ⟨hout, rfl, _⟩
      cases hout
      refine iff_of_true ?_ (Or.inr (Or.inl hrefused))
      exact allOrNothing_unchanged hrc2 hm (List.erase_cons_head _ _)
    · rcases runsOn_bind_iff.mp hrest with ⟨r3, h3, k3, hdesc, hrest⟩
      rcases runsOn_pagesOffset hrm.desc hdesc with ⟨rfl, rfl, ⟨hoff, rc3, rfl⟩ |
        ⟨hoff1, d, rfl⟩⟩
      · have hsetup : SetupRefused legacy σ := Or.inl (Or.inl hoff)
        rw [allOrNothing_of_unwind h hrest hrm rfl (by decide)]
        simp [CreateClean, hcalloc, hmapped, hsetup]
      · rcases runsOn_bind_iff.mp hrest with ⟨r4, h4, k4, havail, hrest⟩
        rcases runsOn_pagesOffset hrm.avail havail with ⟨rfl, rfl, ⟨hoff, rc4, rfl⟩ |
          ⟨hoff2, a, rfl⟩⟩
        · have hsetup : SetupRefused legacy σ := Or.inl (Or.inr (Or.inl hoff))
          rw [allOrNothing_of_unwind h hrest hrm rfl (by decide)]
          simp [CreateClean, hcalloc, hmapped, hsetup]
        · rcases runsOn_bind_iff.mp hrest with ⟨r5, h5, k5, hused, hrest⟩
          rcases runsOn_pagesOffset hrm.used hused with ⟨rfl, rfl, ⟨hoff, rc5, rfl⟩ |
            ⟨hoff3, u, rfl⟩⟩
          · have hsetup : SetupRefused legacy σ := Or.inl (Or.inr (Or.inr hoff))
            rw [allOrNothing_of_unwind h hrest hrm rfl (by decide)]
            simp [CreateClean, hcalloc, hmapped, hsetup]
          · have hoffset : ¬ OffsetRefused σ (afterRings legacy) := by
              rintro (h1 | h2 | h3)
              · exact h1 hoff1
              · exact h2 hoff2
              · exact h3 hoff3
            have hsetup : SetupRefused legacy σ <->
                TablesRefused σ (afterRings legacy + 3) := or_iff_right hoffset
            have hlock : ¬ LockRefused size legacy σ <->
                (σ (afterRings legacy + 5 + size)).spinInit = .EOK := not_not
            have hcalloc' : ¬ (σ 0).calloc ≠ none := fun hne => hne hcalloc
            have hmapped' : ¬ RingsRefused legacy (UInt16.ofNat size) h.pagesize σ :=
              hmapped
            rw [allOrNothing_tables h hdestroy hrm rfl hrest]
            unfold CreateClean
            rw [or_iff_right hcalloc', or_iff_right hmapped', hsetup, hlock]
            exact Iff.rfl

/-- Whatever fails, `virtq_create` is all or nothing exactly when its failures are
clean, and the loop that fills the free list ends. -/
theorem virtq_create_all_or_nothing (size : Nat) (legacy : Bool) (h : Host)
    (hpage : PageSize h.pagesize) (σ : Nat -> Env)
    (hdestroy : forall n, (σ n).spinDestroy = .EOK) :
    (forall rc out h' j, RunsOn σ 0 h (virtqCreate size legacy) (rc, out) h' j ->
      (AllOrNothing size h h' rc out <-> CreateClean size legacy h.pagesize σ)) ∧
    forall malloc spinInit fifo i h1,
      fifoCreate malloc spinInit size 2 = .ok fifo ->
      exists r h' j,
        RunsOn σ i h1 (Prog.iterate (fillFreeDescs size) (0, fifo)) r h' j := by
  constructor
  · intro rc out h' j hrun
    exact allOrNothing_iff hpage hdestroy hrun
  · intro malloc spinInit fifo i h1 hcreate
    rcases fifoCreate_eq hcreate with ⟨data, hfifo⟩
    have hcount : fifo.count = 0 := congrArg Fifo.count hfifo
    have hcap : fifo.capacity = size := congrArg Fifo.capacity hfifo
    rcases fill_ends hcount hcap σ i h1 with ⟨r, h', j, hrun, _⟩
    exact ⟨r, h', j, hrun⟩

/-- Every call succeeds but, if they `fail`, those of `mem_offset64`. -/
def twoAnswers (fails : Option Failure) (i : Nat) : Env where
  mmap := .ok (4096 * (i + 1), 4096 * (i + 1))
  malloc := some fun _ => 0
  memOffset := fails

def attemptTwo (fails : Option Failure) : Option ((Rc × Option VirtqObject) × Host × Nat) :=
  Prog.execOn (twoAnswers fails) 20 0 Host.initial (virtqCreate 2 false)

theorem attemptTwo_runs {fails : Option Failure}
    {out : (Rc × Option VirtqObject) × Host × Nat} (h : attemptTwo fails = some out) :
    RunsOn (twoAnswers fails) 0 Host.initial (virtqCreate 2 false) out.1 out.2.1 out.2.2 :=
  runsOn_of_execOn h

def liveTwo : (Rc × Option VirtqObject) × Host × Nat :=
  (attemptTwo none).get (by decide +kernel)

/-- A modern queue of two descriptors is created. -/
theorem virtq_create_all_or_nothing_two :
    liveTwo.1.1 = .EOK ∧ AllOrNothing 2 Host.initial liveTwo.2.1 liveTwo.1.1 liveTwo.1.2 := by
  refine ⟨by decide +kernel, ((virtq_create_all_or_nothing 2 false Host.initial
    ⟨12, by decide, rfl⟩ (twoAnswers none) (fun _ => rfl)).1 _ _ _ _
    (attemptTwo_runs (Option.some_get _).symm)).mpr (Or.inr (Or.inr (Or.inl ⟨?_, ?_, ?_⟩)))⟩
  · simp [SetupRefused, OffsetRefused, TablesRefused, Env.RefusesFifo, twoAnswers]
  · exact ⟨by decide, fun _ _ => rfl⟩
  · simp [LockRefused, twoAnswers]

/-- A modern queue of two descriptors whose descriptor table has no address. -/
def failedTwo : (Rc × Option VirtqObject) × Host × Nat :=
  (attemptTwo (some Failure.EINVAL)).get (by decide +kernel)

/-- The three mappings of the rings stay behind. -/
theorem virtq_create_leaks :
    ¬ forall (size : Nat) (legacy : Bool) (h : Host), PageSize h.pagesize ->
      forall σ : Nat -> Env, (forall n, (σ n).spinDestroy = .EOK) ->
      forall rc out h' j, RunsOn σ 0 h (virtqCreate size legacy) (rc, out) h' j ->
      AllOrNothing size h h' rc out := by
  intro hclaim
  have hall := hclaim 2 false Host.initial ⟨12, by decide, rfl⟩
    (twoAnswers (some Failure.EINVAL)) (fun _ => rfl) failedTwo.1.1 failedTwo.1.2 failedTwo.2.1
    _ (attemptTwo_runs (Option.some_get _).symm)
  have hrc : failedTwo.1.1 ≠ .EOK := by decide +kernel
  have hlen := (hall.failed hrc).2.1.length_eq
  exact absurd hlen (by decide +kernel)

end QnxVirtio
