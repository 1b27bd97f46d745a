import QnxVirtio.Virtq.Chain
import QnxVirtio.Virtq.Conservation
import QnxVirtio.Virtq.RingIntegrity

/-!
# The round trip of a chain

A driver allocates and frees descriptors, puts and gets chains, and the device
works on the rings.  A chain that is put comes back as it was put exactly if the
last descriptor of the list had no next flag left over from an earlier chain:
`virtq_put_desc_chain` sets the flags of the others but does not clear that one.
-/

namespace QnxVirtio

open Foundation

/-- A descriptor that is part of an outstanding chain. -/
def InFlight (q : Queue) (d : Device) (idx : UInt16) : Prop :=
  exists pos p, Outstanding q d pos ∧ q.published[pos]? = some p ∧ idx ∈ p.chain

/-- What a driver may put: different allocated descriptors, none in flight. -/
structure Submittable (w : RingWorld) (allocated chain : List UInt16) : Prop where
  nodup : chain.Nodup
  allocated : forall idx, idx ∈ chain -> idx ∈ allocated
  idle : forall idx, idx ∈ chain -> ¬ InFlight w.queue w.device idx

/-- A call of the driver or a step of the device.  The list holds the allocated
descriptors. -/
inductive ChainStep : RingWorld -> List UInt16 -> RingWorld -> List UInt16 -> Prop
  | desc {w : RingWorld} {allocated allocated' : List UInt16} {op : DescOp}
      {rc : Rc} {q' : Queue} :
      (forall idx, op = .free idx -> ¬ InFlight w.queue w.device idx) ->
      DescStep w.queue allocated op rc q' allocated' ->
      ChainStep w allocated { w with queue := q' } allocated'
  | context {w : RingWorld} {allocated : List UInt16} {idx : UInt16}
      {context : ContextPtr} {rc : Rc} {q' : Queue} :
      Prog.Runs LockOk w.queue (virtqSetDescContext idx context) rc q' ->
      ChainStep w allocated { w with queue := q' } allocated
  | put {w : RingWorld} {allocated : List UInt16} {head : UInt16}
      {rest : List UInt16} {rc : Rc} {q' : Queue} :
      Submittable w allocated (head :: rest) ->
      Prog.Runs (fun _ => True) w.queue (virtqPutDescChain head rest) rc q' ->
      ChainStep w allocated { w with queue := q' } allocated
  | get {w : RingWorld} {allocated : List UInt16} {count : Nat}
      {r : Except Rc (List UInt16)} {q' : Queue} :
      Prog.Runs (fun _ => True) w.queue (virtqGetDescChain count) r q' ->
      ChainStep w allocated { w with queue := q' } allocated
  | device {w w' : RingWorld} {allocated : List UInt16} {move : DeviceMove} :
      ringEnv move w = some w' -> ChainStep w allocated w' allocated

inductive ChainRun (w : RingWorld) (allocated : List UInt16) :
    RingWorld -> List UInt16 -> Prop
  | refl : ChainRun w allocated w allocated
  | step {w' w'' : RingWorld} {allocated' allocated'' : List UInt16} :
      ChainRun w allocated w' allocated' ->
      ChainStep w' allocated' w'' allocated'' ->
      ChainRun w allocated w'' allocated''

/-!
## What is in flight stays as it is
-/

/-- From `w` to `w'` nothing becomes outstanding among the chains of `w`, and the
descriptors in flight keep their entries. -/
structure Carries (w w' : RingWorld) : Prop where
  published : w.queue.published <+: w'.queue.published
  outstanding : forall pos, pos < w.queue.published.length ->
    Outstanding w'.queue w'.device pos -> Outstanding w.queue w.device pos
  desc : forall idx, InFlight w.queue w.device idx ->
    w'.queue.vq.desc idx = w.queue.vq.desc idx

theorem Carries.refl (w : RingWorld) : Carries w w :=
  ⟨List.prefix_refl _, fun _ _ h => h, fun _ _ => rfl⟩

/-- The invariant of a driver that keeps to the rules. -/
structure ChainInv (base : List Mapping) (w : RingWorld)
    (allocated : List UInt16) : Prop where
  flow : RingFlow w.queue w.device
  conserved : Conserved base w.queue allocated
  apart : ChainsApart w.queue w.device
  allocated : forall idx, InFlight w.queue w.device idx -> idx ∈ allocated

/-!
## One step
-/

theorem Conserved.congr {base : List Mapping} {q q' : Queue}
    {allocated : List UInt16} (h : Conserved base q allocated)
    (hfree : q'.vq.freeDescs = q.vq.freeDescs) (hnum : q'.vq.num = q.vq.num)
    (hmem : q'.mem = q.mem) (hrefused : q'.refused = q.refused)
    (hbuffer : forall idx, q'.vq.buffer idx = q.vq.buffer idx)
    (hlen : forall idx, (q'.vq.desc idx).len = (q.vq.desc idx).len) :
    Conserved base q' allocated := by
  have hlist := Virtq.freeList_congr hfree
  have hbuffers : q'.vq.buffer = q.vq.buffer := funext hbuffer
  constructor
  case freeWf => exact h.freeWf.congr hfree hnum
  case freeNodup =>
    rw [hlist]
    exact h.freeNodup
  case allocatedNodup => exact h.allocatedNodup
  case disjoint =>
    rw [hlist]
    exact h.disjoint
  case cover =>
    rw [hlist, hnum]
    exact h.cover
  case own =>
    rw [hbuffers]
    exact h.own
  case ownPos =>
    rw [hbuffers]
    exact h.ownPos
  case maps =>
    rw [hbuffers, hmem]
    exact h.maps
  case freeEmpty =>
    intro idx hidx
    rw [hlist] at hidx
    have hvaddr := congrArg Mapping.vaddr (hbuffer idx)
    rw [hlen idx]
    exact ⟨hvaddr.trans (h.freeEmpty idx hidx).1, (h.freeEmpty idx hidx).2⟩
  case refused => rw [hrefused, h.refused]

theorem ChainInv.shrink {base : List Mapping} {w w' : RingWorld}
    {allocated allocated' : List UInt16} (h : ChainInv base w allocated)
    (hflow : RingFlow w'.queue w'.device)
    (hcons : Conserved base w'.queue allocated')
    (hnum : w'.queue.vq.num = w.queue.vq.num)
    (hpub : w'.queue.published = w.queue.published)
    (hout : forall pos, Outstanding w'.queue w'.device pos ->
      Outstanding w.queue w.device pos)
    (hkeep : forall idx, idx ∈ allocated -> InFlight w.queue w.device idx ->
      idx ∈ allocated' ∧ w'.queue.vq.desc idx = w.queue.vq.desc idx) :
    ChainInv base w' allocated' ∧ Carries w w' := by
  have hflight : forall idx, InFlight w'.queue w'.device idx ->
      InFlight w.queue w.device idx := by
    rintro idx ⟨pos, p, ho, hp, hidx⟩
    exact ⟨pos, p, hout pos ho, hpub ▸ hp, hidx⟩
  constructor
  · constructor
    · exact hflow
    · exact hcons
    · constructor
      · intro pos p ho hp
        rw [hnum]
        exact h.apart.lt pos p (hout pos ho) (hpub ▸ hp)
      · intro pos pos' p p' ho ho' hne hp hp'
        exact h.apart.disjoint pos pos' p p' (hout pos ho) (hout pos' ho') hne
          (hpub ▸ hp) (hpub ▸ hp')
    · intro idx hidx
      have hold := hflight idx hidx
      exact (hkeep idx (h.allocated idx hold) hold).1
  · constructor
    · exact hpub ▸ List.prefix_refl _
    · exact fun pos _ => hout pos
    · intro idx hidx
      exact (hkeep idx (h.allocated idx hidx) hidx).2

theorem outstanding_congr {q q' : Queue} {d : Device} (h : SameRings q q')
    (pos : Nat) : Outstanding q' d pos <-> Outstanding q d pos := by
  unfold Outstanding retiredPositions
  rw [h.published, h.retrieved]

theorem DescStep.keeps {base : List Mapping} {q q' : Queue}
    {allocated allocated' : List UInt16} {op : DescOp} {rc : Rc}
    (h : Conserved base q allocated)
    (hstep : DescStep q allocated op rc q' allocated') :
    SameRings q q' ∧ forall i, i ∈ allocated -> op ≠ .free i ->
      i ∈ allocated' ∧ q'.vq.desc i = q.vq.desc i := by
  have hlen : q.vq.freeList.length <= q.vq.num.toNat :=
    length_le_of_nodup_of_lt h.freeNodup fun i hi => (h.cover i).mpr (Or.inl hi)
  cases hstep with
  | @alloc _ _ _ _ idx hrun =>
      have hpost : Allocated _ idx q q' := virtqAllocDesc_runs hrun h.freeWf hlen
      refine ⟨hpost.rings, ?_⟩
      intro i hi _
      have hfree : idx ∈ q.vq.freeList := by
        rw [hpost.freeList]
        exact List.mem_cons_self ..
      have hne : i ≠ idx := fun heq => h.disjoint idx hfree (heq ▸ hi)
      exact ⟨List.mem_cons_of_mem _ hi, hpost.desc i hne⟩
  | allocError hrun =>
      have hpost := (virtqAllocDesc_runs hrun h.freeWf hlen).2
      exact ⟨hpost.rings, fun i hi _ => ⟨hi, congrFun hpost.desc i⟩⟩
  | @free _ _ idx hidx hrun =>
      rcases virtqFreeDesc_runs hrun h.freeWf
          (fun hne => h.room (h.mem_allocated hidx hne)) with
        ⟨hrc, _⟩ | ⟨_, hfreed⟩
      · exact absurd rfl hrc
      · refine ⟨hfreed.rings, ?_⟩
        intro i hi hop
        have hne : i ≠ idx := fun heq => hop (heq ▸ rfl)
        exact ⟨(List.mem_erase_of_ne hne).mpr hi, hfreed.desc i hne⟩
  | freeError hidx hrc hrun =>
      rcases virtqFreeDesc_runs hrun h.freeWf
          (fun hne => h.room (h.mem_allocated hidx hne)) with
        ⟨_, rfl⟩ | ⟨hok, _⟩
      · exact ⟨SameRings.refl _, fun i hi _ => ⟨hi, rfl⟩⟩
      · exact absurd hok hrc

theorem ChainInv.desc {base : List Mapping} {w : RingWorld}
    {allocated allocated' : List UInt16} {op : DescOp} {rc : Rc} {q' : Queue}
    (h : ChainInv base w allocated)
    (hfree : forall idx, op = .free idx -> ¬ InFlight w.queue w.device idx)
    (hstep : DescStep w.queue allocated op rc q' allocated') :
    ChainInv base { w with queue := q' } allocated' ∧
      Carries w { w with queue := q' } := by
  rcases hstep.keeps h.conserved with ⟨hrings, hkeep⟩
  refine h.shrink (h.flow.congr hrings) (h.conserved.step hstep).1 hrings.num
    hrings.published (fun pos => (outstanding_congr hrings pos).mp) ?_
  intro idx hidx hflight
  exact hkeep idx hidx fun hop => hfree idx hop hflight

theorem ChainInv.context {base : List Mapping} {w : RingWorld}
    {allocated : List UInt16} {ok : Env -> Prop} {idx : UInt16}
    {context : ContextPtr} {rc : Rc} {q' : Queue} (h : ChainInv base w allocated)
    (hrun : Prog.Runs ok w.queue (virtqSetDescContext idx context) rc q') :
    ChainInv base { w with queue := q' } allocated ∧
      Carries w { w with queue := q' } := by
  rcases Prog.runs_action_iff.mp hrun with ⟨e, _, hf⟩
  split at hf
  · cases hf
    exact ⟨h, Carries.refl w⟩
  · cases hf
    have hrings : SameRings w.queue (w.queue.updateExtras idx fun x =>
        { x with context := some context }) := (SameRings.refl _).updateExtras
    refine h.shrink (h.flow.congr hrings) ?_ rfl rfl
      (fun pos => (outstanding_congr hrings pos).mp) fun i hi _ => ⟨hi, rfl⟩
    refine h.conserved.congr rfl rfl rfl rfl ?_ fun _ => rfl
    intro i
    unfold Virtq.buffer
    by_cases hi : i = idx
    · subst hi
      simp
    · simp [Function.update_of_ne hi]

theorem Conserved.link {base : List Mapping} {q q' : Queue}
    {allocated : List UInt16} (h : Conserved base q allocated) {head : UInt16}
    {rest : List UInt16} (hdesc : q'.vq.desc = linkDescs head rest q.vq.desc)
    (hextras : q'.vq.descExtras = q.vq.descExtras)
    (hfree : q'.vq.freeDescs = q.vq.freeDescs) (hnum : q'.vq.num = q.vq.num)
    (hmem : q'.mem = q.mem) (hrefused : q'.refused = q.refused) :
    Conserved base q' allocated := by
  have hsame : forall i, SameBuffer (q.vq.desc i) (q'.vq.desc i) := by
    intro i
    rw [hdesc]
    exact linkDescs_sameBuffer head q.vq.desc i
  refine h.congr hfree hnum hmem hrefused ?_ fun i => (hsame i).len
  intro i
  unfold Virtq.buffer
  rw [hextras, (hsame i).addr, (hsame i).len]

theorem ChainInv.put {base : List Mapping} {w : RingWorld}
    {allocated : List UInt16} {ok : Env -> Prop} {head : UInt16}
    {rest : List UInt16} {rc : Rc} {q' : Queue} (h : ChainInv base w allocated)
    (hsub : Submittable w allocated (head :: rest))
    (hrun : Prog.Runs ok w.queue (virtqPutDescChain head rest) rc q') :
    ChainInv base { w with queue := q' } allocated ∧
      Carries w { w with queue := q' } := by
  have hdesc : forall idx, InFlight w.queue w.device idx ->
      linkDescs head rest w.queue.vq.desc idx = w.queue.vq.desc idx :=
    fun idx hflight => linkDescs_of_notMem fun hidx => hsub.idle idx hidx hflight
  rcases virtqPutDescChain_runs hrun with ⟨_, rfl⟩ | ⟨_, rfl⟩
  · have hrings : SameRings w.queue { w.queue with
        vq := { w.queue.vq with desc := linkDescs head rest w.queue.vq.desc } } :=
      ⟨rfl, rfl, rfl, rfl, rfl, rfl, rfl, rfl⟩
    exact h.shrink (h.flow.congr hrings)
      (h.conserved.link rfl rfl rfl rfl rfl rfl) rfl rfl
      (fun pos => (outstanding_congr hrings pos).mp)
      fun idx hidx hflight => ⟨hidx, hdesc idx hflight⟩
  · generalize hp : ({ head := head, rest := rest, context := _ } : Published) = p
    have hchain : p.chain = head :: rest := by
      rw [← hp]
      rfl
    have hhead : p.head = head := by rw [← hp]
    -- outstanding is what was outstanding, and the new chain
    have hout : forall pos p', Outstanding { w.queue with
        published := w.queue.published ++ [p] } w.device pos ->
        (w.queue.published ++ [p])[pos]? = some p' ->
        (pos = w.queue.published.length ∧ p' = p) ∨
          (Outstanding w.queue w.device pos ∧
            w.queue.published[pos]? = some p') :=
      fun pos p' ho hp' => ho.of_concat rfl rfl hp'
    have hnew : forall idx, idx ∈ p.chain -> idx ∈ allocated ∧
        ¬ InFlight w.queue w.device idx := by
      rw [hchain]
      exact fun idx hidx => ⟨hsub.allocated idx hidx, hsub.idle idx hidx⟩
    have happart : ChainsApart { w.queue with
        published := w.queue.published ++ [p] } w.device := by
      constructor
      · intro pos p' ho hp' idx hidx
        rcases hout pos p' ho hp' with ⟨_, rfl⟩ | ⟨hold, hold'⟩
        · exact (h.conserved.cover idx).mpr (Or.inr (hnew idx hidx).1)
        · exact h.apart.lt pos p' hold hold' idx hidx
      · intro pos pos' p₁ p₂ ho ho' hne hp₁ hp₂ idx hidx hidx'
        rcases hout pos p₁ ho hp₁ with ⟨heq, rfl⟩ | ⟨hold, hold₁⟩
        · rcases hout pos' p₂ ho' hp₂ with ⟨heq', _⟩ | ⟨hold', hold₂⟩
          · exact hne (heq.trans heq'.symm)
          · exact (hnew idx hidx).2 ⟨pos', p₂, hold', hold₂, hidx'⟩
        · rcases hout pos' p₂ ho' hp₂ with ⟨_, rfl⟩ | ⟨hold', hold₂⟩
          · exact (hnew idx hidx').2 ⟨pos, p₁, hold, hold₁, hidx⟩
          · exact h.apart.disjoint pos pos' p₁ p₂ hold hold' hne hold₁ hold₂
              hidx hidx'
    have happart' : ChainsApart { w.queue with
        vq := w.queue.vq.publish p.head
        published := w.queue.published ++ [p] } w.device :=
      happart.congr rfl rfl rfl rfl
    have hflow := h.flow.publish p rfl happart'.headsApart
    constructor
    · constructor
      · exact hflow.congr ⟨rfl, by rw [hhead], by rw [hhead], rfl, rfl, rfl, rfl,
          rfl⟩
      · exact h.conserved.link rfl rfl rfl rfl rfl rfl
      · exact happart.congr rfl rfl rfl rfl
      · rintro idx ⟨pos, p', ho, hp', hidx⟩
        rcases hout pos p' ho hp' with ⟨_, rfl⟩ | ⟨hold, hold'⟩
        · exact (hnew idx hidx).1
        · exact h.allocated idx ⟨pos, p', hold, hold', hidx⟩
    · constructor
      · exact List.prefix_append _ _
      · intro pos hlt ho
        exact ⟨hlt, ho.2⟩
      · exact hdesc

theorem ChainInv.get {base : List Mapping} {w : RingWorld}
    {allocated : List UInt16} {ok : Env -> Prop} {count : Nat}
    {r : Except Rc (List UInt16)} {q' : Queue} (h : ChainInv base w allocated)
    (hrun : Prog.Runs ok w.queue (virtqGetDescChain count) r q') :
    ChainInv base { w with queue := q' } allocated ∧
      Carries w { w with queue := q' } := by
  rcases Prog.runs_action_iff.mp hrun with ⟨e, _, hf⟩
  rcases Option.map_eq_some_iff.mp hf with ⟨⟨out, vq'⟩, hget, hout⟩
  cases hout
  cases out with
  | error rc =>
      rw [getDescChain_error hget]
      exact ⟨h, Carries.refl w⟩
  | ok chain =>
      rcases h.flow.retrieve hget with ⟨rfl, _, hflow⟩
      refine h.shrink hflow (h.conserved.congr rfl rfl rfl rfl
        (fun _ => rfl) fun _ => rfl) rfl rfl ?_ fun idx hidx _ => ⟨hidx, rfl⟩
      intro pos ho
      refine ⟨ho.1, fun hretired => ho.2 ?_⟩
      unfold retiredPositions
      rw [List.length_append, List.length_singleton, List.take_add_one]
      exact List.mem_append_left _ hretired

theorem outstanding_device {w w' : RingWorld} {move : DeviceMove}
    (h : RingFlow w.queue w.device) (hstep : ringEnv move w = some w') (pos : Nat)
    (hout : Outstanding w'.queue w'.device pos) :
    Outstanding w.queue w.device pos := by
  rcases Option.map_eq_some_iff.mp hstep with ⟨⟨q', d'⟩, hmove, rfl⟩
  cases move with
  | take =>
      rcases Option.map_eq_some_iff.mp hmove with ⟨d1, htake, hr⟩
      cases hr
      unfold Device.take at htake
      split at htake
      · cases htake
      · cases htake
        exact hout
  | store pos' len =>
      rcases Option.map_eq_some_iff.mp hmove with ⟨⟨vq1, d1⟩, hstore, hr⟩
      cases hr
      unfold Device.store at hstore
      split at hstore
      · split at hstore
        · cases hstore
        · cases hstore
          exact hout
      · cases hstore
  | bump =>
      rcases Option.map_eq_some_iff.mp hmove with ⟨⟨vq1, d1⟩, hbump, hr⟩
      cases hr
      rcases Option.map_eq_some_iff.mp hbump with ⟨entry, _, hr⟩
      cases hr
      have hle : w.queue.retrieved.length <= w.device.positions.length := by
        rw [Device.length_positions]
        exact h.retrieved_le
      refine ⟨hout.1, fun hretired => hout.2 ?_⟩
      unfold retiredPositions Device.positions
      rw [List.map_append]
      change pos ∈ (w.device.positions ++ _).take _
      rw [List.take_append_of_le_length hle]
      exact hretired

theorem deviceMove_frame {move : DeviceMove} {q q' : Queue} {d d' : Device}
    (h : move.step q d = some (q', d')) :
    exists usedIdx usedRing, q' = { q with
      vq := { q.vq with usedIdx := usedIdx, usedRing := usedRing } } := by
  cases move with
  | take =>
      rcases Option.map_eq_some_iff.mp h with ⟨d1, _, hr⟩
      cases hr
      exact ⟨_, _, rfl⟩
  | store pos len =>
      rcases Option.map_eq_some_iff.mp h with ⟨⟨vq1, d1⟩, hstore, hr⟩
      cases hr
      unfold Device.store at hstore
      split at hstore
      · split at hstore
        · cases hstore
        · cases hstore
          exact ⟨_, _, rfl⟩
      · cases hstore
  | bump =>
      rcases Option.map_eq_some_iff.mp h with ⟨⟨vq1, d1⟩, hbump, hr⟩
      cases hr
      rcases Option.map_eq_some_iff.mp hbump with ⟨entry, _, hr⟩
      cases hr
      exact ⟨_, _, rfl⟩

theorem ChainInv.device {base : List Mapping} {w w' : RingWorld}
    {allocated : List UInt16} {move : DeviceMove} (h : ChainInv base w allocated)
    (hstep : ringEnv move w = some w') :
    ChainInv base w' allocated ∧ Carries w w' := by
  have hflow := ringContract_device h.apart h.flow hstep
  have hout := outstanding_device h.flow hstep
  rcases Option.map_eq_some_iff.mp hstep with ⟨⟨q', d'⟩, hmove, rfl⟩
  rcases deviceMove_frame hmove with ⟨usedIdx, usedRing, rfl⟩
  exact h.shrink hflow (h.conserved.congr rfl rfl rfl rfl (fun _ => rfl)
    fun _ => rfl) rfl rfl hout fun idx hidx _ => ⟨hidx, rfl⟩

/-!
## Runs
-/

theorem ChainInv.step {base : List Mapping} {w w' : RingWorld}
    {allocated allocated' : List UInt16} (h : ChainInv base w allocated)
    (hstep : ChainStep w allocated w' allocated') :
    ChainInv base w' allocated' ∧ Carries w w' := by
  cases hstep with
  | desc hfree hstep => exact h.desc hfree hstep
  | context hrun => exact h.context hrun
  | put hsub hrun => exact h.put hsub hrun
  | get hrun => exact h.get hrun
  | device hstep => exact h.device hstep

theorem ChainInv.run {base : List Mapping} {w w' : RingWorld}
    {allocated allocated' : List UInt16} (h : ChainInv base w allocated)
    (hrun : ChainRun w allocated w' allocated') : ChainInv base w' allocated' := by
  induction hrun with
  | refl => exact h
  | step _ hstep ih => exact (ih.step hstep).1

/-- While a chain is outstanding, its descriptors keep their entries. -/
theorem ChainRun.carries {base : List Mapping} {w w' : RingWorld}
    {allocated allocated' : List UInt16} (h : ChainInv base w allocated)
    (hrun : ChainRun w allocated w' allocated') {pos : Nat} {p : Published}
    (hp : w.queue.published[pos]? = some p) :
    w'.queue.published[pos]? = some p ∧
      (Outstanding w'.queue w'.device pos -> forall idx, idx ∈ p.chain ->
        w'.queue.vq.desc idx = w.queue.vq.desc idx) := by
  induction hrun with
  | refl => exact ⟨hp, fun _ _ _ => rfl⟩
  | @step w₁ w₂ _ _ hrun hstep ih =>
      have hcarries := ((h.run hrun).step hstep).2
      have hlt := (List.getElem?_eq_some_iff.mp ih.1).1
      constructor
      · rcases hcarries.published with ⟨more, hmore⟩
        rw [← hmore, List.getElem?_append_left hlt]
        exact ih.1
      · intro hout idx hidx
        have hold := hcarries.outstanding pos hlt hout
        rw [hcarries.desc idx ⟨pos, p, hold, ih.1, hidx⟩]
        exact ih.2 hold idx hidx

/-- A created queue with its device. -/
def VirtqObject.ringWorld (obj : VirtqObject) (mem : Memory) : RingWorld where
  queue := obj.queue mem
  device := Device.initial

theorem ChainInv.initial {size : Nat} {legacy : Bool} {obj : VirtqObject}
    (hfresh : Virtq.Fresh size legacy obj.vq) (hpos : 0 < size)
    (hdvd : size ∣ 65536) (mem : Memory) :
    ChainInv mem.maps (obj.ringWorld mem) [] where
  flow := hfresh.ringFlow hpos hdvd mem
  conserved := Conserved.fresh hfresh mem
  apart := by
    constructor
    · intro pos p ho
      exact absurd ho.1 (Nat.not_lt_zero _)
    · intro pos pos' p p' ho
      exact absurd ho.1 (Nat.not_lt_zero _)
  allocated := by
    rintro idx ⟨pos, p, ho, _⟩
    exact absurd ho.1 (Nat.not_lt_zero _)

/-!
## The round trip
-/

/-- What a submission must not touch. -/
structure SubmitFrame (chain : List UInt16) (q q' : Queue) : Prop where
  outside : forall idx, idx ∉ chain -> q'.vq.desc idx = q.vq.desc idx
  buffers : forall idx, SameBuffer (q.vq.desc idx) (q'.vq.desc idx)

/-- The used element that the driver finds next belongs to position `pos`. -/
def NextUsed (w : RingWorld) (pos : Nat) : Prop :=
  exists e, w.device.produced[w.queue.retrieved.length]? = some e ∧ e.pos = pos

theorem submitFrame_of_runs {ok : Env -> Prop} {head : UInt16}
    {rest : List UInt16} {q q' : Queue} {rc : Rc}
    (hrun : Prog.Runs ok q (virtqPutDescChain head rest) rc q') :
    SubmitFrame (head :: rest) q q' := by
  have hdesc : q'.vq.desc = linkDescs head rest q.vq.desc := by
    rcases virtqPutDescChain_runs hrun with ⟨_, rfl⟩ | ⟨_, rfl⟩ <;> rfl
  constructor
  · intro idx hidx
    rw [hdesc]
    exact linkDescs_of_notMem hidx
  · intro idx
    rw [hdesc]
    exact linkDescs_sameBuffer head q.vq.desc idx

/-- When the used element of a chain is next, the driver retrieves what the walk
from the head of this chain finds. -/
theorem RingFlow.getDescChain_iff {q : Queue} {d : Device} (h : RingFlow q d)
    {e : UsedEntry} (he : d.produced[q.retrieved.length]? = some e)
    {p : Published} (hp : q.published[e.pos]? = some p) {count : Nat}
    {chain : List UInt16} :
    (exists vq', q.vq.getDescChain .EOK count = some (.ok chain, vq')) <->
      chainWalk q.vq.desc (min count 65536) p.head = some chain := by
  have hhead : e.elem.id.toUInt16 = p.head := by
    rcases h.integrity.consumed e.pos _ (h.entry e (List.mem_of_getElem? he)) with
      ⟨p', hp', hhead⟩
    rw [hp] at hp'
    cases hp'
    exact hhead.symm
  constructor
  · rintro ⟨vq', hget⟩
    rcases (h.retrieve hget).2.1 with ⟨e', he', hwalk⟩
    rw [he] at he'
    cases he'
    rw [← hhead]
    exact hwalk
  · intro hwalk
    have hne : q.vq.usedIdx ≠ q.vq.lastSeenUsed := by
      intro heq
      have hlt := (List.getElem?_eq_some_iff.mp he).1
      exact Nat.ne_of_lt hlt (h.lastSeen_eq_iff.mp heq)
    refine ⟨{ q.vq with lastSeenUsed := q.vq.lastSeenUsed + 1 }, ?_⟩
    simp [Virtq.getDescChain, hne, h.next_elem e he, hhead, hwalk]

theorem virtqGetDescChain_ok_iff {q : Queue} {count : Nat} {chain : List UInt16} :
    (exists q', Prog.Runs LockOk q (virtqGetDescChain count) (.ok chain) q') <->
      exists vq', q.vq.getDescChain .EOK count = some (.ok chain, vq') := by
  constructor
  · rintro ⟨q', hrun⟩
    rcases Prog.runs_action_iff.mp hrun with ⟨e, hlock, hf⟩
    rcases Option.map_eq_some_iff.mp hf with ⟨⟨out, vq'⟩, hget, hout⟩
    cases hout
    rw [show e.lock = .EOK from hlock] at hget
    exact ⟨vq', hget⟩
  · rintro ⟨vq', hget⟩
    refine ⟨{ q with vq := vq', retrieved := q.retrieved ++ [chain] }, ?_⟩
    refine Prog.runs_action_iff.mpr ⟨{}, rfl, ?_⟩
    rw [hget]
    rfl

/-- A chain that was submitted in a reachable state, and whose used element is
next after any further run, is retrieved as it was put, and the submission
touched nothing else, exactly if the last descriptor of the list had a clear next
flag when the list was submitted. -/
theorem chain_round_trip_iff {size : Nat} {legacy : Bool} {h h' : Host} {rc : Rc}
    {obj : VirtqObject} {w w₂ : RingWorld} {q₁ : Queue}
    {allocated allocated₂ : List UInt16} {head : UInt16} {rest : List UInt16}
    {count : Nat} (hsize : exists k, size = 2 ^ k)
    (hcreate : Prog.Runs (fun _ => True) h (virtqCreate size legacy)
      (rc, some obj) h')
    (hreach : ChainRun (obj.ringWorld h'.mem) [] w allocated)
    (hsub : Submittable w allocated (head :: rest))
    (hput : Prog.Runs (fun _ => True) w.queue (virtqPutDescChain head rest) .EOK q₁)
    (hlater : ChainRun { w with queue := q₁ } allocated w₂ allocated₂)
    (hnext : NextUsed w₂ w.queue.published.length)
    (hcount : (head :: rest).length <= count) :
    (SubmitFrame (head :: rest) w.queue q₁ ∧
      exists q₂, Prog.Runs LockOk w₂.queue (virtqGetDescChain count)
        (.ok (head :: rest)) q₂) <->
      (w.queue.vq.desc ((head :: rest).getLast (List.cons_ne_nil _ _))).hasNext =
        false := by
  have hfresh := (virtqCreate_fresh hcreate).2
  rcases hsize with ⟨k, hk⟩
  have hinv := (ChainInv.initial hfresh (hk ▸ Nat.two_pow_pos k)
    (dvd_of_pow_lt hk hfresh.size_lt) h'.mem).run hreach
  have hinv₁ := (hinv.put hsub hput).1
  have hinv₂ := hinv₁.run hlater
  generalize hlastEq : (head :: rest).getLast (List.cons_ne_nil _ _) = last
  have hlast : (head :: rest).getLast? = some last := by
    rw [List.getLast?_eq_some_getLast (List.cons_ne_nil _ _), hlastEq]
  -- what the submission published and linked
  rcases virtqPutDescChain_runs hput with ⟨hrc, _⟩ | ⟨_, hq₁⟩
  · exact absurd rfl hrc
  have hpub : q₁.published[w.queue.published.length]? = some {
      head := head
      rest := rest
      context := (w.queue.vq.descExtras head).context } := by
    rw [hq₁]
    exact List.getElem?_concat_length
  have hdesc : q₁.vq.desc = linkDescs head rest w.queue.vq.desc := by rw [hq₁]
  rcases linkDescs_linked head w.queue.vq.desc hsub.nodup with ⟨hlinked, hflags⟩
  -- and what is left of it when the used element is next
  rcases hnext with ⟨e, he, hpos⟩
  have hout : Outstanding w₂.queue w₂.device w.queue.published.length := by
    apply hinv₂.flow.outstanding_of_drop
    rw [← hpos, Device.positions, ← List.map_drop]
    apply List.mem_map_of_mem
    exact List.mem_of_getElem? (i := 0) (by simpa using he)
  rcases hlater.carries hinv₁ hpub with ⟨hpub₂, hcarried⟩
  have hsame : forall idx, idx ∈ head :: rest -> w₂.queue.vq.desc idx =
      linkDescs head rest w.queue.vq.desc idx := by
    intro idx hidx
    rw [hcarried hout idx hidx]
    exact congrFun hdesc idx
  have hlastMem := List.mem_of_getLast? hlast
  have hflag : (w₂.queue.vq.desc last).hasNext =
      (w.queue.vq.desc last).hasNext := by
    unfold VirtqDesc.hasNext
    rw [hsame last hlastMem, hflags last hlast]
  rw [virtqGetDescChain_ok_iff, hinv₂.flow.getDescChain_iff he (hpos ▸ hpub₂),
    ← hflag]
  constructor
  · rintro ⟨_, hwalk⟩
    exact chainWalk_last hwalk hlast
  · intro hclear
    refine ⟨submitFrame_of_runs hput, ?_⟩
    apply chainWalk_linked
    · exact hlinked.congr hsame
    · intro last' hlast'
      rw [hlast] at hlast'
      cases hlast'
      exact hclear
    · have hlen := length_le_of_nodup_of_lt hsub.nodup fun idx hidx =>
        (hinv.conserved.cover idx).mpr (Or.inr (hsub.allocated idx hidx))
      have hnum := w.queue.vq.num.toNat_lt
      simp only [List.length_cons] at hlen hcount
      omega

/-!
## Reusing the descriptors of a chain
-/

def onDevice (move : DeviceMove) : Prog Env RingWorld Unit :=
  Prog.action fun _ w => (ringEnv move w).map fun w' => ((), w')

/-- A chain of two descriptors is put, and the device returns it. -/
def sendChain (head next : UInt16) (pos : Nat) : Prog Env RingWorld Rc := do
  let rc <- onRingQueue (virtqPutDescChain head [next])
  onDevice .take
  onDevice (.store pos 0)
  onDevice .bump
  pure rc

theorem onRingQueue_runs {ok : Env -> Prop} {α : Type} {p : Prog Env Queue α}
    {w w' : RingWorld} {a : α} (hrun : Prog.Runs ok w (onRingQueue p) a w') :
    exists q', w' = { w with queue := q' } ∧ Prog.Runs ok w.queue p a q' := by
  have hsel : Prog.Selects RingWorld.queue fun q (w : RingWorld) =>
      { w with queue := q } := ⟨fun _ _ => rfl, fun _ _ _ => rfl, fun _ => rfl⟩
  rcases Prog.runs_zoom hsel hrun with ⟨hq, hw⟩
  exact ⟨w'.queue, hw, hq⟩

theorem onDevice_runs {ok : Env -> Prop} {move : DeviceMove} {w w' : RingWorld}
    {u : Unit} (hrun : Prog.Runs ok w (onDevice move) u w') :
    ringEnv move w = some w' := by
  rcases Prog.runs_action_iff.mp hrun with ⟨e, _, hf⟩
  rcases Option.map_eq_some_iff.mp hf with ⟨w₁, hmove, hout⟩
  cases hout
  exact hmove

theorem ChainRun.trans {w w' w'' : RingWorld}
    {allocated allocated' allocated'' : List UInt16}
    (h : ChainRun w allocated w' allocated')
    (h' : ChainRun w' allocated' w'' allocated'') :
    ChainRun w allocated w'' allocated'' := by
  induction h' with
  | refl => exact h
  | step _ hstep ih => exact ChainRun.step ih hstep

theorem sendChain_runs {head next : UInt16} {pos : Nat} {w w' : RingWorld}
    {rc : Rc} (allocated : List UInt16)
    (hrun : Prog.Runs (fun _ => True) w (sendChain head next pos) rc w') :
    exists q₁, Prog.Runs (fun _ => True) w.queue (virtqPutDescChain head [next])
      rc q₁ ∧ ChainRun { w with queue := q₁ } allocated w' allocated := by
  rcases Prog.runs_bind_iff.mp hrun with ⟨_, w₁, hput, hrun⟩
  rcases Prog.runs_bind_iff.mp hrun with ⟨_, w₂, htake, hrun⟩
  rcases Prog.runs_bind_iff.mp hrun with ⟨_, w₃, hstore, hrun⟩
  rcases Prog.runs_bind_iff.mp hrun with ⟨_, w₄, hbump, hrun⟩
  rcases Prog.runs_ret_iff.mp hrun with ⟨rfl, rfl⟩
  rcases onRingQueue_runs hput with ⟨q₁, rfl, hputRun⟩
  exact ⟨q₁, hputRun, ((ChainRun.refl.step (.device (onDevice_runs htake))).step
    (.device (onDevice_runs hstore))).step (.device (onDevice_runs hbump))⟩

/-- Two descriptors are allocated. -/
def allocTwo : Prog Env RingWorld (Except Rc UInt16 × Except Rc UInt16) := do
  let first <- onRingQueue (virtqAllocDesc 8 false)
  let second <- onRingQueue (virtqAllocDesc 2 true)
  pure (first, second)

def allocatedTwo : RingWorld :=
  ((Prog.exec (succeedingEnvs 20 16) (queueTwo.ringWorld createdTwo.2.mem)
    allocTwo).get (by decide +kernel)).2

/-- They have gone around as the chain 0, 1. -/
def aroundOnce : RingWorld :=
  ((Prog.exec (succeedingEnvs 20 16) allocatedTwo (do
    let _ <- sendChain 0 1 0
    onRingQueue (virtqGetDescChain 2))).get (by decide +kernel)).2

/-- They are used again, in a given order. -/
def usedAgain (head next : UInt16) : Option (Rc × RingWorld) :=
  Prog.exec (succeedingEnvs 20 16) aroundOnce (sendChain head next 1)

theorem submittable_of_idle {w : RingWorld} {allocated chain : List UInt16}
    (hnodup : chain.Nodup) (hmem : forall idx, idx ∈ chain -> idx ∈ allocated)
    (hidle : forall pos, pos < w.queue.published.length ->
      pos ∈ retiredPositions w.queue w.device) : Submittable w allocated chain := by
  refine ⟨hnodup, hmem, ?_⟩
  rintro idx _ ⟨pos, p, hout, _⟩
  exact hout.2 (hidle pos hout.1)

theorem allocatedTwo_reach :
    ChainRun (queueTwo.ringWorld createdTwo.2.mem) [] allocatedTwo [1, 0] := by
  have hexec : Prog.exec (succeedingEnvs 20 16)
      (queueTwo.ringWorld createdTwo.2.mem) allocTwo =
        some ((.ok 0, .ok 1), allocatedTwo) := rfl
  have hrun := Prog.runs_of_exec (lockOk_succeedingEnvs 20 16) hexec
  rcases Prog.runs_bind_iff.mp hrun with ⟨a, w₁, hfirst, hrun⟩
  rcases Prog.runs_bind_iff.mp hrun with ⟨b, w₂, hsecond, hrun⟩
  rcases Prog.runs_ret_iff.mp hrun with ⟨hout, hw⟩
  cases hout
  rw [show allocatedTwo = w₂ from hw]
  rcases onRingQueue_runs hfirst with ⟨q₁, rfl, hrun₁⟩
  rcases onRingQueue_runs hsecond with ⟨q₂, rfl, hrun₂⟩
  exact (ChainRun.refl.step (.desc (fun idx hop => by cases hop)
    (.alloc hrun₁))).step (.desc (fun idx hop => by cases hop) (.alloc hrun₂))

theorem aroundOnce_reach :
    ChainRun (queueTwo.ringWorld createdTwo.2.mem) [] aroundOnce [1, 0] := by
  have hexec : Prog.exec (succeedingEnvs 20 16) allocatedTwo (do
      let _ <- sendChain 0 1 0
      onRingQueue (virtqGetDescChain 2)) = some (.ok [0, 1], aroundOnce) := rfl
  have hrun := Prog.runs_of_exec (fun _ _ => trivial : forall e,
    e ∈ succeedingEnvs 20 16 -> True) hexec
  rcases Prog.runs_bind_iff.mp hrun with ⟨rc, w₁, hsend, hget⟩
  rcases sendChain_runs [1, 0] hsend with ⟨q₁, hput, hlater⟩
  rcases onRingQueue_runs hget with ⟨q₂, hw, hget⟩
  have hsub : Submittable allocatedTwo [1, 0] [0, 1] :=
    submittable_of_idle (by decide) (by simp) fun pos hpos =>
      absurd hpos (Nat.not_lt_zero pos)
  rw [show aroundOnce = _ from hw]
  exact ((allocatedTwo_reach.step (.put hsub hput)).trans hlater).step (.get hget)

theorem aroundOnce_submittable {chain : List UInt16} (hnodup : chain.Nodup)
    (hmem : forall idx, idx ∈ chain -> idx ∈ [1, 0]) :
    Submittable aroundOnce [1, 0] chain := by
  refine submittable_of_idle hnodup hmem ?_
  intro pos hpos
  have hone : aroundOnce.queue.published.length = 1 := rfl
  have hretired : retiredPositions aroundOnce.queue aroundOnce.device = [0] := rfl
  rw [hone] at hpos
  rw [hretired]
  exact List.mem_singleton.mpr (Nat.lt_one_iff.mp hpos)

/-- In the same order the two descriptors make the round trip again. -/
theorem chain_round_trip_again :
    exists (q₁ : Queue) (w₂ : RingWorld), (SubmitFrame [0, 1] aroundOnce.queue q₁ ∧
      exists q₂, Prog.Runs LockOk w₂.queue (virtqGetDescChain 2)
        (.ok [0, 1]) q₂) <-> (aroundOnce.queue.vq.desc 1).hasNext = false := by
  have hexec : exists w₂, usedAgain 0 1 = some (.EOK, w₂) ∧ NextUsed w₂ 1 :=
    ⟨_, rfl, _, rfl, rfl⟩
  rcases hexec with ⟨w₂, hexec, hnext⟩
  have hrun := Prog.runs_of_exec (fun _ _ => trivial : forall e,
    e ∈ succeedingEnvs 20 16 -> True) hexec
  rcases sendChain_runs [1, 0] hrun with ⟨q₁, hput, hlater⟩
  exact ⟨q₁, w₂, chain_round_trip_iff ⟨1, rfl⟩ queueTwo_created aroundOnce_reach
    (aroundOnce_submittable (by decide) (by simp)) hput hlater hnext
    (Nat.le_refl _)⟩

/-- In the other order they do not: descriptor 0 ends the chain 1, 0 and still
has the next flag from the chain 0, 1. -/
theorem chain_reversed_lost :
    exists q₁ w₂, ChainRun (queueTwo.ringWorld createdTwo.2.mem) []
        aroundOnce [1, 0] ∧
      Submittable aroundOnce [1, 0] [1, 0] ∧
      Prog.Runs (fun _ => True) aroundOnce.queue (virtqPutDescChain 1 [0]) .EOK q₁ ∧
      ChainRun { aroundOnce with queue := q₁ } [1, 0] w₂ [1, 0] ∧
      NextUsed w₂ aroundOnce.queue.published.length ∧
      ¬ exists q₂, Prog.Runs LockOk w₂.queue (virtqGetDescChain 2)
        (.ok [1, 0]) q₂ := by
  have hexec : exists (w₂ : RingWorld) (vq' : Virtq), usedAgain 1 0 = some (.EOK, w₂) ∧
      NextUsed w₂ aroundOnce.queue.published.length ∧
      w₂.queue.vq.getDescChain .EOK 2 = some (.error .ENOMEM, vq') :=
    ⟨_, _, rfl, ⟨_, rfl, rfl⟩, rfl⟩
  rcases hexec with ⟨w₂, vq', hexec, hnext, hget⟩
  have hrun := Prog.runs_of_exec (fun _ _ => trivial : forall e,
    e ∈ succeedingEnvs 20 16 -> True) hexec
  rcases sendChain_runs [1, 0] hrun with ⟨q₁, hput, hlater⟩
  refine ⟨q₁, w₂, aroundOnce_reach,
    aroundOnce_submittable (by decide) (by simp), hput, hlater, hnext, ?_⟩
  rw [virtqGetDescChain_ok_iff, hget]
  rintro ⟨vq, hcontra⟩
  cases hcontra

end QnxVirtio
