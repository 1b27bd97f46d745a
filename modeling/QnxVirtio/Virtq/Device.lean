import QnxVirtio.Foundation.RingWindow
import QnxVirtio.Virtq.Model

/-!
# The device side of a virtqueue

The device reads the available ring behind a counter of its own, completes what
it read in any order, once each, and writes the used ring: first the element,
then the index.

`RingFlow` says that both rings carry what was put into them, in order.  It is
kept by the locked sections of the driver and by the device as long as the heads
of the outstanding chains are told apart.
-/

namespace QnxVirtio

open Foundation

/-- An element of the used ring, with the position that its chain had in the
available ring. -/
structure UsedEntry where
  pos : Nat
  elem : VirtqUsedElem
  deriving DecidableEq

/-- The device: its counter for the available ring, the heads it read, the used
element it has stored but not counted yet, and the used elements it produced. -/
structure Device where
  availSeen : UInt16
  consumed : List UInt16
  pending : Option UsedEntry
  produced : List UsedEntry

namespace Device

def initial : Device where
  availSeen := 0
  consumed := []
  pending := none
  produced := []

/-- The positions that were returned, in the order of the used ring. -/
def positions (d : Device) : List Nat :=
  d.produced.map UsedEntry.pos

/-- Read the next entry of the available ring, if there is one. -/
def take (vq : Virtq) (d : Device) : Option Device :=
  if d.availSeen = vq.availIdx then none
  else
    some { d with
      availSeen := d.availSeen + 1
      consumed := d.consumed ++ [vq.availRing (d.availSeen % vq.num)] }

/-- Store the used element of a chain that was read and not returned before. -/
def store (pos : Nat) (len : UInt32) (vq : Virtq) (d : Device) :
    Option (Virtq × Device) :=
  match d.pending, d.consumed[pos]? with
  | none, some head =>
      if pos ∈ d.positions then none
      else
        let elem : VirtqUsedElem := { id := head.toUInt32, len := len }
        some ({ vq with
            usedRing := Function.update vq.usedRing (vq.usedIdx % vq.num) elem },
          { d with pending := some { pos := pos, elem := elem } })
  | _, _ => none

theorem store_eq {pos : Nat} {len : UInt32} {vq : Virtq} {d : Device}
    {head : UInt16} (hpending : d.pending = none)
    (hhead : d.consumed[pos]? = some head) (hnew : pos ∉ d.positions) :
    d.store pos len vq =
      some ({ vq with
          usedRing := Function.update vq.usedRing (vq.usedIdx % vq.num)
            { id := head.toUInt32, len := len } },
        { d with
          pending := some {
            pos := pos
            elem := { id := head.toUInt32, len := len } } }) := by
  simp only [store, hpending, hhead]
  rw [if_neg hnew]

/-- Count the stored element. -/
def bump (vq : Virtq) (d : Device) : Option (Virtq × Device) :=
  d.pending.map fun entry =>
    ({ vq with usedIdx := vq.usedIdx + 1 },
      { d with pending := none, produced := d.produced ++ [entry] })

end Device

/-!
## Outstanding chains
-/

def Queue.heads (q : Queue) : List UInt16 :=
  q.published.map Published.head

/-- The positions whose used elements the driver has retrieved. -/
def retiredPositions (q : Queue) (d : Device) : List Nat :=
  d.positions.take q.retrieved.length

/-- A chain is outstanding from its publication until its used element is
retrieved. -/
def Outstanding (q : Queue) (d : Device) (pos : Nat) : Prop :=
  pos < q.published.length ∧ pos ∉ retiredPositions q d

theorem Outstanding.of_concat {q q' : Queue} {d : Device} {p p' : Published}
    {pos : Nat} (h : Outstanding q' d pos)
    (hpub : q'.published = q.published ++ [p]) (hret : q'.retrieved = q.retrieved)
    (hp' : q'.published[pos]? = some p') :
    (pos = q.published.length ∧ p' = p) ∨
      (Outstanding q d pos ∧ q.published[pos]? = some p') := by
  rw [hpub] at hp'
  rcases getElem?_concat_eq_some_iff.mp hp' with hold | hlast
  · have hnot : pos ∉ retiredPositions q d := by
      rw [retiredPositions, ← hret]
      exact h.2
    exact Or.inr ⟨⟨(List.getElem?_eq_some_iff.mp hold).1, hnot⟩, hold⟩
  · exact Or.inl hlast

/-- The heads of outstanding chains are descriptors of the queue, all
different. -/
structure HeadsApart (q : Queue) (d : Device) : Prop where
  lt : forall pos head, Outstanding q d pos -> q.heads[pos]? = some head ->
    head.toNat < q.vq.num.toNat
  inj : forall pos pos' head, Outstanding q d pos -> Outstanding q d pos' ->
    q.heads[pos]? = some head -> q.heads[pos']? = some head -> pos = pos'

@[simp] theorem Queue.length_heads (q : Queue) :
    q.heads.length = q.published.length := by
  simp [Queue.heads]

@[simp] theorem Device.length_positions (d : Device) :
    d.positions.length = d.produced.length := by
  simp [Device.positions]

namespace HeadsApart

variable {q : Queue} {d : Device}

private theorem head_of_lt {pos : Nat} (h : pos < q.published.length) :
    q.heads[pos]? = some (q.heads.getD pos 0) := by
  have hlt : pos < q.heads.length := by simpa using h
  rw [List.getElem?_eq_getElem hlt, List.getD_eq_getElem?_getD,
    List.getElem?_eq_getElem hlt]
  rfl

/-- Publication is never more than `num` ahead of retrieval. -/
theorem published_le (h : HeadsApart q d) :
    q.published.length <= (retiredPositions q d).length + q.vq.num.toNat := by
  refine le_length_add_of_key_lt (f := fun i => (q.heads.getD i 0).toNat) ?_ ?_
  · intro i hi hdone
    exact h.lt i _ ⟨hi, hdone⟩ (head_of_lt hi)
  · intro i j hi hidone hj hjdone hij
    refine h.inj i j _ ⟨hi, hidone⟩ ⟨hj, hjdone⟩ (head_of_lt hi) ?_
    rw [UInt16.toNat_inj.mp hij]
    exact head_of_lt hj

theorem length_le (h : HeadsApart q d) {l : List Nat} (hnodup : l.Nodup)
    (hout : forall i, i ∈ l -> Outstanding q d i) :
    l.length <= q.vq.num.toNat := by
  refine length_le_of_key_lt (f := fun i => (q.heads.getD i 0).toNat) hnodup ?_ ?_
  · intro i hi
    exact h.lt i _ (hout i hi) (head_of_lt (hout i hi).1)
  · intro i j hi hj hij
    refine h.inj i j _ (hout i hi) (hout j hj) (head_of_lt (hout i hi).1) ?_
    rw [UInt16.toNat_inj.mp hij]
    exact head_of_lt (hout j hj).1

end HeadsApart

/-!
## The flow through the rings
-/

/-- The slot of the `i`-th entry of a ring. -/
def ringSlot (num : UInt16) (i : Nat) : UInt16 :=
  UInt16.ofNat i % num

theorem ringSlot_toNat (num : UInt16) (i : Nat) :
    (ringSlot num i).toNat = wrapSlot 65536 num.toNat i := by
  simp [ringSlot, wrapSlot]

theorem separates_ringSlot {num : UInt16} (h : num.toNat ∣ 65536) :
    Separates num.toNat (ringSlot num) := by
  intro i j hij hj heq
  have hnat := congrArg UInt16.toNat heq
  rw [ringSlot_toNat, ringSlot_toNat] at hnat
  exact separates_wrapSlot h i j hij hj hnat

/-- A used entry names the head that the device read at its position. -/
def UsedEntry.Names (d : Device) (entry : UsedEntry) : Prop :=
  d.consumed[entry.pos]? = some entry.elem.id.toUInt16

/-- Both rings carry their entries in order. -/
structure RingFlow (q : Queue) (d : Device) : Prop where
  num_pos : 0 < q.vq.num.toNat
  num_dvd : q.vq.num.toNat ∣ 65536
  availIdx : q.vq.availIdx = UInt16.ofNat q.published.length
  availSeen : d.availSeen = UInt16.ofNat d.consumed.length
  usedIdx : q.vq.usedIdx = UInt16.ofNat d.produced.length
  lastSeen : q.vq.lastSeenUsed = UInt16.ofNat q.retrieved.length
  avail : RingWindow q.vq.num.toNat (ringSlot q.vq.num) q.vq.availRing q.heads
    d.consumed.length
  used : RingWindow q.vq.num.toNat (ringSlot q.vq.num) q.vq.usedRing
    (d.produced.map UsedEntry.elem) q.retrieved.length
  /-- The heads read are the first ones published. -/
  consumed : d.consumed <+: q.heads
  posNodup : d.positions.Nodup
  entry : forall e, e ∈ d.produced -> e.Names d
  pending : forall e, d.pending = some e -> e.pos ∉ d.positions ∧ e.Names d ∧
    q.vq.usedRing (ringSlot q.vq.num d.produced.length) = e.elem
  /-- The chains retrieved start with the first heads returned. -/
  retrieved : q.retrieved.map List.head? <+:
    d.produced.map fun e => some e.elem.id.toUInt16

theorem ofNat_eq_iff {num : UInt16} {a b : Nat} (hle : a <= b)
    (hb : b <= a + num.toNat) : UInt16.ofNat a = UInt16.ofNat b <-> a = b := by
  have hnum := num.toNat_lt
  constructor
  · intro heq
    have hnat := congrArg UInt16.toNat heq
    simp only [UInt16.toNat_ofNat'] at hnat
    omega
  · rintro rfl
    rfl

theorem chainWalk_head {desc : UInt16 -> VirtqDesc} {n : Nat} {idx : UInt16}
    {chain : List UInt16} (h : chainWalk desc n idx = some chain) :
    chain.head? = some idx := by
  cases n with
  | zero => cases h
  | succ n =>
      unfold chainWalk at h
      split at h
      · rcases Option.map_eq_some_iff.mp h with ⟨rest, _, rfl⟩
        rfl
      · cases h
        rfl

theorem getDescChain_error {vq vq' : Virtq} {lock : Rc} {count : Nat} {rc : Rc}
    (h : vq.getDescChain lock count = some (.error rc, vq')) : vq' = vq := by
  unfold Virtq.getDescChain at h
  split at h
  · cases h
    rfl
  · split at h
    · cases h
      rfl
    · dsimp only at h
      split at h
      · cases h
      · split at h
        · cases h
          rfl
        · cases h

theorem getDescChain_ok {vq vq' : Virtq} {lock : Rc} {count : Nat} {chain : List UInt16}
    (h : vq.getDescChain lock count = some (.ok chain, vq')) :
    lock = .EOK ∧ vq.usedIdx ≠ vq.lastSeenUsed ∧
      chainWalk vq.desc (min count 65536)
        (vq.usedRing (vq.lastSeenUsed % vq.num)).id.toUInt16 = some chain ∧
      vq' = { vq with lastSeenUsed := vq.lastSeenUsed + 1 } := by
  unfold Virtq.getDescChain at h
  split at h
  · cases h
  · rename_i hlock
    split at h
    · cases h
    · rename_i hne
      dsimp only at h
      split at h
      · rename_i chain' hwalk
        cases h
        exact ⟨not_not.mp hlock, hne, hwalk, rfl⟩
      · split at h
        · cases h
        · cases h

namespace RingFlow

variable {q q' : Queue} {d d' : Device}

theorem initial (hpos : 0 < q.vq.num.toNat) (hdvd : q.vq.num.toNat ∣ 65536)
    (havail : q.vq.availIdx = 0) (hused : q.vq.usedIdx = 0)
    (hlast : q.vq.lastSeenUsed = 0) (hpub : q.published = [])
    (hret : q.retrieved = []) : RingFlow q Device.initial where
  num_pos := hpos
  num_dvd := hdvd
  availIdx := by rw [havail, hpub]; rfl
  availSeen := rfl
  usedIdx := by rw [hused]; rfl
  lastSeen := by rw [hlast, hret]; rfl
  avail := by
    rw [Queue.heads, hpub]
    exact RingWindow.empty ..
  used := by
    rw [hret]
    exact RingWindow.empty ..
  consumed := List.nil_prefix
  posNodup := List.nodup_nil
  entry := by
    intro e he
    cases he
  pending := by
    intro e he
    cases he
  retrieved := by
    rw [hret]
    exact List.nil_prefix

theorem congr (h : RingFlow q d) (hsame : SameRings q q') : RingFlow q' d where
  num_pos := by rw [hsame.num]; exact h.num_pos
  num_dvd := by rw [hsame.num]; exact h.num_dvd
  availIdx := by rw [hsame.availIdx, hsame.published, h.availIdx]
  availSeen := h.availSeen
  usedIdx := by rw [hsame.usedIdx, h.usedIdx]
  lastSeen := by rw [hsame.lastSeen, hsame.retrieved, h.lastSeen]
  avail := by
    rw [hsame.num, hsame.availRing, Queue.heads, hsame.published]
    exact h.avail
  used := by
    rw [hsame.num, hsame.usedRing, hsame.retrieved]
    exact h.used
  consumed := by
    rw [Queue.heads, hsame.published]
    exact h.consumed
  posNodup := h.posNodup
  entry := h.entry
  pending := by
    rw [hsame.num, hsame.usedRing]
    exact h.pending
  retrieved := by
    rw [hsame.retrieved]
    exact h.retrieved

theorem consumed_le (h : RingFlow q d) :
    d.consumed.length <= q.published.length := by
  simpa using h.avail.popped_le

theorem retrieved_le (h : RingFlow q d) :
    q.retrieved.length <= d.produced.length := by
  simpa using h.used.popped_le

theorem pos_lt (h : RingFlow q d) {pos : Nat} (hpos : pos ∈ d.positions) :
    pos < d.consumed.length := by
  rcases List.mem_map.mp hpos with ⟨e, he, rfl⟩
  exact (List.getElem?_eq_some_iff.mp (h.entry e he)).1

theorem produced_le (h : RingFlow q d) :
    d.produced.length <= d.consumed.length := by
  have hsub : d.positions ⊆ List.range d.consumed.length :=
    fun pos hpos => List.mem_range.mpr (h.pos_lt hpos)
  have hle := (List.subperm_of_subset h.posNodup hsub).length_le
  simpa using hle

theorem length_retired (h : RingFlow q d) :
    (retiredPositions q d).length = q.retrieved.length := by
  have := h.retrieved_le
  simp [retiredPositions]
  omega

theorem outstanding_of_drop (h : RingFlow q d) {pos : Nat}
    (hpos : pos ∈ d.positions.drop q.retrieved.length) :
    Outstanding q d pos := by
  have hlt := h.pos_lt (List.mem_of_mem_drop hpos)
  refine ⟨Nat.lt_of_lt_of_le hlt h.consumed_le, ?_⟩
  intro hretired
  have hnodup := h.posNodup
  rw [← List.take_append_drop q.retrieved.length d.positions] at hnodup
  exact (List.nodup_append.mp hnodup).2.2 pos hretired pos hpos rfl

theorem produced_lt (h : RingFlow q d) (happart : HeadsApart q d) {pos : Nat}
    (hpos : pos < d.consumed.length) (hnew : pos ∉ d.positions) :
    d.produced.length < q.retrieved.length + q.vq.num.toNat := by
  have hnodup : (pos :: d.positions.drop q.retrieved.length).Nodup := by
    refine List.nodup_cons.mpr ⟨?_, h.posNodup.sublist (List.drop_sublist _ _)⟩
    exact fun hmem => hnew (List.mem_of_mem_drop hmem)
  have hle := happart.length_le hnodup (by
    intro i hi
    rcases List.mem_cons.mp hi with rfl | hi
    · refine ⟨Nat.lt_of_lt_of_le hpos h.consumed_le, ?_⟩
      exact fun hmem => hnew (List.mem_of_mem_take hmem)
    · exact h.outstanding_of_drop hi)
  have := h.retrieved_le
  simp only [List.length_cons, List.length_drop, Device.length_positions] at hle
  omega

/-!
## The steps of the driver
-/

theorem publish (h : RingFlow q d) (p : Published)
    (hq : q' = { q with
      vq := q.vq.publish p.head
      published := q.published ++ [p] })
    (happart : HeadsApart q' d) : RingFlow q' d := by
  subst hq
  have hheads : Queue.heads { q with
      vq := q.vq.publish p.head
      published := q.published ++ [p] } = q.heads ++ [p.head] := by
    simp [Queue.heads]
  have hroom : q.heads.length < d.consumed.length + q.vq.num.toNat := by
    have hle := happart.published_le
    have hretired : (retiredPositions { q with
        vq := q.vq.publish p.head
        published := q.published ++ [p] } d).length = q.retrieved.length :=
      h.length_retired
    have hret := h.retrieved_le
    have hprod := h.produced_le
    rw [hretired] at hle
    simp only [List.length_append, List.length_singleton, Virtq.publish] at hle
    rw [Queue.length_heads]
    omega
  have hslot : q.vq.availIdx % q.vq.num =
      ringSlot q.vq.num q.heads.length := by
    rw [h.availIdx, Queue.length_heads]
    rfl
  constructor
  case num_pos => exact h.num_pos
  case num_dvd => exact h.num_dvd
  case availIdx =>
    change q.vq.availIdx + 1 = _
    rw [h.availIdx, List.length_append, List.length_singleton, UInt16.ofNat_add]
    rfl
  case availSeen => exact h.availSeen
  case usedIdx => exact h.usedIdx
  case lastSeen => exact h.lastSeen
  case avail =>
    rw [hheads]
    change RingWindow _ _ (Function.update q.vq.availRing _ _) _ _
    rw [hslot]
    exact h.avail.push (separates_ringSlot h.num_dvd) hroom p.head
  case used => exact h.used
  case consumed =>
    rw [hheads]
    exact h.consumed.trans (List.prefix_append _ _)
  case posNodup => exact h.posNodup
  case entry => exact h.entry
  case pending => exact h.pending
  case retrieved => exact h.retrieved

theorem lastSeen_eq_iff (h : RingFlow q d) :
    q.vq.usedIdx = q.vq.lastSeenUsed <->
      q.retrieved.length = d.produced.length := by
  have hroom := h.used.room
  rw [List.length_map] at hroom
  rw [h.usedIdx, h.lastSeen, eq_comm]
  exact ofNat_eq_iff h.retrieved_le hroom

theorem next_elem (h : RingFlow q d) (e : UsedEntry)
    (he : d.produced[q.retrieved.length]? = some e) :
    q.vq.usedRing (q.vq.lastSeenUsed % q.vq.num) = e.elem := by
  have hget := h.used.get q.retrieved.length e.elem (Nat.le_refl _)
    (by rw [List.getElem?_map, he]; rfl)
  rw [← hget, h.lastSeen]
  rfl

theorem retrieve (h : RingFlow q d) {lock : Rc} {count : Nat}
    {chain : List UInt16} {vq' : Virtq}
    (hget : q.vq.getDescChain lock count = some (.ok chain, vq')) :
    vq' = { q.vq with lastSeenUsed := q.vq.lastSeenUsed + 1 } ∧
      (exists e, d.produced[q.retrieved.length]? = some e ∧
        chainWalk q.vq.desc (min count 65536) e.elem.id.toUInt16 = some chain) ∧
      RingFlow { q with vq := vq', retrieved := q.retrieved ++ [chain] } d := by
  rcases getDescChain_ok hget with ⟨_, hne, hwalk, rfl⟩
  have hlt : q.retrieved.length < d.produced.length := by
    have hle := h.retrieved_le
    have hneq : q.retrieved.length ≠ d.produced.length :=
      fun heq => hne (h.lastSeen_eq_iff.mpr heq)
    omega
  have he : d.produced[q.retrieved.length]? =
      some d.produced[q.retrieved.length] := List.getElem?_eq_getElem hlt
  rw [h.next_elem _ he] at hwalk
  refine ⟨rfl, ⟨_, he, hwalk⟩, ?_⟩
  constructor
  case num_pos => exact h.num_pos
  case num_dvd => exact h.num_dvd
  case availIdx => exact h.availIdx
  case availSeen => exact h.availSeen
  case usedIdx => exact h.usedIdx
  case lastSeen =>
    change q.vq.lastSeenUsed + 1 = _
    rw [h.lastSeen, List.length_append, List.length_singleton,
      UInt16.ofNat_add]
    rfl
  case avail => exact h.avail
  case used =>
    rw [List.length_append, List.length_singleton]
    exact h.used.pop (by simpa using hlt)
  case consumed => exact h.consumed
  case posNodup => exact h.posNodup
  case entry => exact h.entry
  case pending => exact h.pending
  case retrieved =>
    rw [List.map_append]
    have hpre := h.retrieved
    rw [List.prefix_iff_eq_take] at hpre
    rw [hpre, List.length_map, List.map_singleton, chainWalk_head hwalk]
    rw [List.prefix_iff_eq_take]
    simp only [List.length_append, List.length_take, List.length_map,
      List.length_singleton]
    rw [Nat.min_eq_left h.retrieved_le, List.take_add_one,
      List.getElem?_map, he]
    rfl

/-!
## The steps of the device
-/

theorem Names.mono {entry : UsedEntry} (h : entry.Names d)
    (hpre : d.consumed <+: d'.consumed) : entry.Names d' := by
  rcases hpre with ⟨rest, hrest⟩
  unfold UsedEntry.Names at h ⊢
  rw [← hrest, List.getElem?_append_left (List.getElem?_eq_some_iff.mp h).1]
  exact h

theorem take (h : RingFlow q d) (htake : d.take q.vq = some d') :
    RingFlow q d' := by
  unfold Device.take at htake
  split at htake
  · cases htake
  · rename_i hne
    cases htake
    have hlt : d.consumed.length < q.heads.length := by
      have hle := h.avail.popped_le
      have hneq : d.consumed.length ≠ q.heads.length := by
        intro heq
        apply hne
        rw [h.availSeen, h.availIdx, heq, Queue.length_heads]
      omega
    have hfront : q.vq.availRing (d.availSeen % q.vq.num) =
        q.heads[d.consumed.length] := by
      rw [h.availSeen]
      exact h.avail.front hlt
    constructor
    case num_pos => exact h.num_pos
    case num_dvd => exact h.num_dvd
    case availIdx => exact h.availIdx
    case availSeen =>
      change d.availSeen + 1 = _
      rw [h.availSeen, List.length_append, List.length_singleton,
        UInt16.ofNat_add]
      rfl
    case usedIdx => exact h.usedIdx
    case lastSeen => exact h.lastSeen
    case avail =>
      rw [List.length_append, List.length_singleton]
      exact h.avail.pop hlt
    case used => exact h.used
    case consumed =>
      have hpre := List.prefix_iff_eq_take.mp h.consumed
      rw [hfront, List.prefix_iff_eq_take, List.length_append,
        List.length_singleton, List.take_add_one, List.getElem?_eq_getElem hlt,
        ← hpre]
      rfl
    case posNodup => exact h.posNodup
    case entry =>
      intro e he
      exact Names.mono (h.entry e he) (List.prefix_append _ _)
    case pending =>
      intro e he
      rcases h.pending e he with ⟨hnew, hnames, hslot⟩
      exact ⟨hnew, Names.mono hnames (List.prefix_append _ _), hslot⟩
    case retrieved => exact h.retrieved

theorem store (h : RingFlow q d) (happart : HeadsApart q d) {pos : Nat}
    {len : UInt32} {vq' : Virtq} (hstore : d.store pos len q.vq = some (vq', d')) :
    RingFlow { q with vq := vq' } d' := by
  unfold Device.store at hstore
  split at hstore
  · rename_i head hpending hhead
    split at hstore
    · cases hstore
    · rename_i hnew
      cases hstore
      have hpos := (List.getElem?_eq_some_iff.mp hhead).1
      have hroom := h.produced_lt happart hpos hnew
      have hslot : q.vq.usedIdx % q.vq.num =
          ringSlot q.vq.num (d.produced.map UsedEntry.elem).length := by
        rw [h.usedIdx, List.length_map]
        rfl
      constructor
      case num_pos => exact h.num_pos
      case num_dvd => exact h.num_dvd
      case availIdx => exact h.availIdx
      case availSeen => exact h.availSeen
      case usedIdx => exact h.usedIdx
      case lastSeen => exact h.lastSeen
      case avail => exact h.avail
      case used =>
        dsimp only
        rw [hslot]
        exact h.used.write (separates_ringSlot h.num_dvd)
          (by rw [List.length_map]; exact hroom) _
      case consumed => exact h.consumed
      case posNodup => exact h.posNodup
      case entry => exact h.entry
      case pending =>
        intro e he
        cases he
        refine ⟨hnew, ?_, ?_⟩
        · unfold UsedEntry.Names
          rw [hhead]
          simp
        · dsimp only
          rw [hslot, List.length_map]
          exact Function.update_self ..
      case retrieved => exact h.retrieved
  · cases hstore

theorem bump (h : RingFlow q d) (happart : HeadsApart q d) {vq' : Virtq}
    (hbump : d.bump q.vq = some (vq', d')) :
    RingFlow { q with vq := vq' } d' := by
  unfold Device.bump at hbump
  rcases Option.map_eq_some_iff.mp hbump with ⟨e, hpending, hout⟩
  cases hout
  rcases h.pending e hpending with ⟨hnew, hnames, hslot⟩
  have hroom := h.produced_lt happart
    (List.getElem?_eq_some_iff.mp hnames).1 hnew
  constructor
  case num_pos => exact h.num_pos
  case num_dvd => exact h.num_dvd
  case availIdx => exact h.availIdx
  case availSeen => exact h.availSeen
  case usedIdx =>
    change q.vq.usedIdx + 1 = _
    rw [h.usedIdx, List.length_append, List.length_singleton, UInt16.ofNat_add]
    rfl
  case lastSeen => exact h.lastSeen
  case avail => exact h.avail
  case used =>
    rw [List.map_append]
    exact h.used.publish (by rw [List.length_map]; exact hroom)
      (by rw [List.length_map]; exact hslot)
  case consumed => exact h.consumed
  case posNodup =>
    unfold Device.positions
    rw [List.map_append]
    exact List.Nodup.append h.posNodup (List.nodup_singleton _)
      (by simpa [Device.positions] using hnew)
  case entry =>
    intro e' he'
    rcases List.mem_append.mp he' with he' | he'
    · exact h.entry e' he'
    · cases List.mem_singleton.mp he'
      exact hnames
  case pending =>
    intro e' he'
    cases he'
  case retrieved =>
    rw [List.map_append]
    exact h.retrieved.trans (List.prefix_append _ _)

end RingFlow

end QnxVirtio
