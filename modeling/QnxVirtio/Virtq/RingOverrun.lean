import Mathlib.Data.Nat.Prime.Basic
import QnxVirtio.Virtq.RingIntegrity

/-!
# Ring sizes that are not powers of two

A run that overwrites an unread entry of the available ring, for every size that
does not divide 65536.  One client sends chains of a single descriptor one after
the other until the counters are about to wrap, then several at once.
-/

namespace QnxVirtio

open Foundation

/-- The calls of the run: 65535 chains sent and received in turn, then chains
with the heads 0, 1, 2, and so on. -/
def overrunScript (n : Nat) : RingCall :=
  if n < 2 * 65535 then
    if n % 2 = 0 then .put 0 [] else .get 1
  else .put (UInt16.ofNat (n - 2 * 65535)) []

/-- The queue after `laps` chains that came back and `ahead` chains that the
device has not read. -/
structure Overrun (size laps ahead : Nat) (q : Queue) (d : Device) : Prop where
  num : q.vq.num.toNat = size
  published : q.published.map Published.chain =
    List.replicate laps [0] ++ (List.range ahead).map fun i => [UInt16.ofNat i]
  retrieved : q.retrieved.length = laps
  availIdx : q.vq.availIdx = UInt16.ofNat (laps + ahead)
  availSeen : d.availSeen = UInt16.ofNat laps
  usedIdx : q.vq.usedIdx = UInt16.ofNat laps
  lastSeen : q.vq.lastSeenUsed = UInt16.ofNat laps
  consumed : d.consumed.length = laps
  positions : d.positions = List.range laps
  pending : d.pending = none
  flags : forall idx, (q.vq.desc idx).flags = 0
  last : 0 < ahead -> q.vq.availRing (ringSlot q.vq.num (laps + ahead - 1)) =
    UInt16.ofNat (ahead - 1)

theorem chainsApart_of_laps {size laps ahead : Nat} {q : Queue} {d : Device}
    (hnum : q.vq.num.toNat = size) (hle : ahead <= size)
    (hpub : q.published.map Published.chain =
      List.replicate laps [0] ++ (List.range ahead).map fun i => [UInt16.ofNat i])
    (hretired : retiredPositions q d = List.range laps) : ChainsApart q d := by
  have hsize : size < 65536 := hnum ▸ q.vq.num.toNat_lt
  have hchain : forall pos p, Outstanding q d pos ->
      q.published[pos]? = some p ->
      laps <= pos ∧ pos < laps + ahead ∧ p.chain = [UInt16.ofNat (pos - laps)] := by
    intro pos p hout hp
    have hge : laps <= pos := by
      by_contra hlt
      exact hout.2 (hretired ▸ List.mem_range.mpr (Nat.lt_of_not_le hlt))
    have hget : (q.published.map Published.chain)[pos]? = some p.chain := by
      rw [List.getElem?_map, hp]
      rfl
    rw [hpub, List.getElem?_append_right (by simpa using hge),
      List.length_replicate, List.getElem?_map] at hget
    rcases Option.map_eq_some_iff.mp hget with ⟨i, hi, heq⟩
    have hlt := (List.getElem?_eq_some_iff.mp hi).1
    rw [List.length_range] at hlt
    rw [List.getElem?_range hlt] at hi
    cases hi
    exact ⟨hge, by omega, heq.symm⟩
  constructor
  · intro pos p hout hp idx hidx
    rcases hchain pos p hout hp with ⟨hge, hlt, heq⟩
    rw [heq, List.mem_singleton] at hidx
    rw [hidx, hnum, UInt16.toNat_ofNat']
    omega
  · intro pos pos' p p' hout hout' hne hp hp' idx hidx hidx'
    rcases hchain pos p hout hp with ⟨hge, hlt, heq⟩
    rcases hchain pos' p' hout' hp' with ⟨hge', hlt', heq'⟩
    rw [heq, List.mem_singleton] at hidx
    rw [heq', List.mem_singleton] at hidx'
    have hnat := congrArg UInt16.toNat (hidx.symm.trans hidx')
    simp only [UInt16.toNat_ofNat'] at hnat
    omega

theorem Overrun.apart {size laps ahead : Nat} {q : Queue} {d : Device}
    (h : Overrun size laps ahead q d) (hle : ahead <= size) : ChainsApart q d := by
  refine chainsApart_of_laps h.num hle h.published ?_
  rw [retiredPositions, h.positions, h.retrieved]
  exact List.take_of_length_le (by simp)

/-!
## The calls of the run
-/

/-- The queue after a put of a single descriptor. -/
def putSingle (head : UInt16) (q : Queue) : Queue :=
  let linked := q.updateDesc head fun d => { d with next := 0 }
  { linked with
    vq := linked.vq.publish head
    published := q.published ++
      [{ head := head
         rest := []
         context := (q.vq.descExtras head).context }] }

/-- A client at the `n`-th call of the script. -/
def AtCall (c : Pool Nat Env RingWorld) (n : Nat) : Prop :=
  c.thread 0 = Prog.loop (ringRound overrunScript) n Prog.ret

section Run

variable {c₀ c : Pool Nat Env RingWorld}

theorem reach_call {n : Nat} (hc : Pool.Reachable ringEnv ringOk c₀ c)
    (hat : AtCall c n) (happart : ChainsApart c.state.queue c.state.device) :
    Pool.Reachable ringEnv ringOk c₀ {
      state := c.state
      thread := Function.update c.thread 0
        (Prog.unroll (ringRound overrunScript) n Prog.ret) } := by
  refine hc.inside 0 {} happart ?_
  rw [hat]
  rfl

theorem reach_put {n : Nat} {head : UInt16}
    (hc : Pool.Reachable ringEnv ringOk c₀ c) (hat : AtCall c n)
    (hcall : overrunScript n = .put head [])
    (happart : ChainsApart c.state.queue c.state.device) :
    exists c', Pool.Reachable ringEnv ringOk c₀ c' ∧ AtCall c' (n + 1) ∧
      c'.state = { c.state with queue := putSingle head c.state.queue } := by
  have hunroll : Prog.unroll (ringRound overrunScript) n Prog.ret =
      (onRingQueue (virtqPutDescChain head [])).bind fun _ =>
        Prog.loop (ringRound overrunScript) (n + 1) Prog.ret := by
    unfold Prog.unroll
    rw [ringRound, hcall]
    rfl
  have hc1 := reach_call hc hat happart
  rw [hunroll] at hc1
  have hc2 := hc1.inside 0 {} happart rfl
  have hc3 := hc2.inside 0 {} (ChainsApart.congr happart rfl rfl rfl rfl) rfl
  refine ⟨_, hc3, ?_, rfl⟩
  simp only [AtCall, Function.update_self]
  rfl

theorem reach_get {n : Nat} {chain : List UInt16} {vq : Virtq}
    (hc : Pool.Reachable ringEnv ringOk c₀ c) (hat : AtCall c n)
    (hcall : overrunScript n = .get 1)
    (happart : ChainsApart c.state.queue c.state.device)
    (hget : c.state.queue.vq.getDescChain .EOK 1 = some (.ok chain, vq)) :
    exists c', Pool.Reachable ringEnv ringOk c₀ c' ∧ AtCall c' (n + 1) ∧
      c'.state = { c.state with queue := { c.state.queue with
        vq := vq
        retrieved := c.state.queue.retrieved ++ [chain] } } := by
  have hunroll : Prog.unroll (ringRound overrunScript) n Prog.ret =
      (onRingQueue (virtqGetDescChain 1)).bind fun _ =>
        Prog.loop (ringRound overrunScript) (n + 1) Prog.ret := by
    unfold Prog.unroll
    rw [ringRound, hcall]
    rfl
  have hc1 := reach_call hc hat happart
  rw [hunroll] at hc1
  have hc2 := hc1.inside 0 {} happart
    (p := Prog.loop (ringRound overrunScript) (n + 1) Prog.ret)
    (s := { c.state with queue := { c.state.queue with
        vq := vq
        retrieved := c.state.queue.retrieved ++ [chain] } })
    (by simp [virtqGetDescChain, onRingQueue, Prog.action, Prog.zoom, Prog.step,
      hget])
  refine ⟨_, hc2, ?_, rfl⟩
  simp only [AtCall, Function.update_self]

end Run

/-!
## Laps
-/

theorem Overrun.put {size laps ahead : Nat} {q : Queue} {d : Device}
    (h : Overrun size laps ahead q d) :
    Overrun size laps (ahead + 1) (putSingle (UInt16.ofNat ahead) q) d where
  num := h.num
  published := by
    simp only [putSingle, List.map_append, h.published, List.range_succ,
      List.append_assoc]
    rfl
  retrieved := h.retrieved
  availIdx := by
    change q.vq.availIdx + 1 = _
    rw [h.availIdx, ← Nat.add_assoc]
    exact (UInt16.ofNat_add _ 1).symm
  availSeen := h.availSeen
  usedIdx := h.usedIdx
  lastSeen := h.lastSeen
  consumed := h.consumed
  positions := h.positions
  pending := h.pending
  flags := by
    intro idx
    simp only [putSingle, Virtq.publish, Queue.updateDesc]
    by_cases heq : idx = UInt16.ofNat ahead
    · rw [heq, Function.update_self]
      exact h.flags _
    · rw [Function.update_of_ne heq]
      exact h.flags idx
  last := by
    intro _
    have hslot : q.vq.availIdx % q.vq.num = ringSlot q.vq.num (laps + ahead) := by
      rw [h.availIdx]
      rfl
    change Function.update q.vq.availRing (q.vq.availIdx % q.vq.num) _ _ = _
    rw [hslot]
    exact Function.update_self ..

theorem Overrun.take {size laps ahead : Nat} {q : Queue} {d : Device}
    (h : Overrun size laps (ahead + 1) q d) (hahead : ahead < 65535) :
    d.take q.vq = some { d with
      availSeen := d.availSeen + 1
      consumed := d.consumed ++
        [q.vq.availRing (ringSlot q.vq.num laps)] } := by
  have hne : d.availSeen ≠ q.vq.availIdx := by
    rw [h.availSeen, h.availIdx]
    intro heq
    have hnat := congrArg UInt16.toNat heq
    simp only [UInt16.toNat_ofNat'] at hnat
    omega
  rw [Device.take, if_neg hne, h.availSeen]
  rfl

/-- The used element of a chain with head 0 at position `pos`. -/
def usedZero (pos : Nat) : UsedEntry where
  pos := pos
  elem := { id := 0, len := 0 }

/-- The queue once the device has returned a chain with head 0. -/
def returnZero (q : Queue) : Queue :=
  { q with vq := { q.vq with
      usedRing := Function.update q.vq.usedRing (q.vq.usedIdx % q.vq.num)
        { id := 0, len := 0 }
      usedIdx := q.vq.usedIdx + 1 } }

/-- The device that has read and returned a chain with head 0. -/
def Device.returnZero (d : Device) : Device :=
  { d with
    availSeen := d.availSeen + 1
    consumed := d.consumed ++ [0]
    produced := d.produced ++ [usedZero d.consumed.length] }

theorem reach_return {size laps : Nat} {c₀ c : Pool Nat Env RingWorld}
    (hc : Pool.Reachable ringEnv ringOk c₀ c) (hsize : 0 < size)
    (h : Overrun size laps 1 c.state.queue c.state.device) :
    Pool.Reachable ringEnv ringOk c₀ { c with state := {
      queue := returnZero c.state.queue
      device := c.state.device.returnZero } } := by
  have happart := h.apart hsize
  have hhead : c.state.queue.vq.availRing
      (ringSlot c.state.queue.vq.num laps) = 0 := h.last (by omega)
  have htake := h.take (by omega)
  rw [hhead] at htake
  have hc1 := hc.outside .take happart
    (by rw [ringEnv, DeviceMove.step, htake]; rfl)
  have hnew : c.state.device.consumed.length ∉ c.state.device.positions := by
    rw [h.positions, h.consumed]
    simp
  have hstore : Device.store c.state.device.consumed.length 0 c.state.queue.vq
      { c.state.device with
        availSeen := c.state.device.availSeen + 1
        consumed := c.state.device.consumed ++ [0] } = some _ :=
    Device.store_eq h.pending List.getElem?_concat_length hnew
  have hc2 := hc1.outside (.store c.state.device.consumed.length 0)
    (ChainsApart.congr happart rfl rfl rfl rfl)
    (congrArg (fun r => (r.map fun r => ({ c.state.queue with vq := r.1 }, r.2)).map
      fun r => RingWorld.mk r.1 r.2) hstore)
  have hc3 := hc2.outside .bump (ChainsApart.congr happart rfl rfl rfl rfl) rfl
  have hpending : { c.state.device.returnZero with pending := none } =
      c.state.device.returnZero := by
    unfold Device.returnZero
    rw [h.pending]
  rw [← hpending]
  exact hc3

/-- A retrieved queue. -/
def retrieveZero (q : Queue) : Queue :=
  { q with
    vq := { q.vq with lastSeenUsed := q.vq.lastSeenUsed + 1 }
    retrieved := q.retrieved ++ [[0]] }

theorem Overrun.lap {size laps : Nat} {q : Queue} {d : Device}
    (h : Overrun size laps 1 q d) :
    Overrun size (laps + 1) 0 (retrieveZero (returnZero q)) d.returnZero where
  num := h.num
  published := by
    change q.published.map Published.chain = _
    rw [h.published, List.replicate_succ', List.append_assoc]
    rfl
  retrieved := by simp [retrieveZero, returnZero, h.retrieved]
  availIdx := h.availIdx
  availSeen := by
    change d.availSeen + 1 = _
    rw [h.availSeen]
    exact (UInt16.ofNat_add _ 1).symm
  usedIdx := by
    change q.vq.usedIdx + 1 = _
    rw [h.usedIdx]
    exact (UInt16.ofNat_add _ 1).symm
  lastSeen := by
    change q.vq.lastSeenUsed + 1 = _
    rw [h.lastSeen]
    exact (UInt16.ofNat_add _ 1).symm
  consumed := by simp [Device.returnZero, h.consumed]
  positions := by
    have hpos := h.positions
    unfold Device.positions at hpos ⊢
    simp [Device.returnZero, hpos, List.range_succ, usedZero, h.consumed]
  pending := h.pending
  flags := h.flags
  last := by simp

theorem Overrun.getDescChain {size laps : Nat} {q : Queue} {d : Device}
    (h : Overrun size laps 1 q d) :
    (returnZero q).vq.getDescChain .EOK 1 =
      some (.ok [0], (retrieveZero (returnZero q)).vq) := by
  have hslot : q.vq.usedIdx = q.vq.lastSeenUsed := h.usedIdx.trans h.lastSeen.symm
  simp [Virtq.getDescChain, returnZero, retrieveZero, hslot, chainWalk,
    VirtqDesc.hasNext, h.flags]

theorem reach_lap {size laps : Nat} {c₀ c : Pool Nat Env RingWorld}
    (hc : Pool.Reachable ringEnv ringOk c₀ c) (hsize : 0 < size)
    (hlaps : laps < 65535) (hat : AtCall c (2 * laps))
    (h : Overrun size laps 0 c.state.queue c.state.device) :
    exists c', Pool.Reachable ringEnv ringOk c₀ c' ∧ AtCall c' (2 * (laps + 1)) ∧
      Overrun size (laps + 1) 0 c'.state.queue c'.state.device := by
  have hput : overrunScript (2 * laps) = .put 0 [] := by
    rw [overrunScript, if_pos (by omega), if_pos (by omega)]
  have hget : overrunScript (2 * laps + 1) = .get 1 := by
    rw [overrunScript, if_pos (by omega), if_neg (by omega)]
  rcases reach_put hc hat hput (h.apart (Nat.zero_le _)) with
    ⟨c1, hc1, hat1, hstate1⟩
  have h1 : Overrun size laps 1 c1.state.queue c1.state.device := by
    rw [hstate1]
    exact h.put
  have hc2 := reach_return hc1 hsize h1
  have happart2 : ChainsApart (returnZero c1.state.queue)
      c1.state.device.returnZero := by
    refine chainsApart_of_laps h1.num hsize h1.published ?_
    have hpos := h1.lap.positions
    rw [retiredPositions, hpos]
    change (List.range (laps + 1)).take c1.state.queue.retrieved.length = _
    rw [h1.retrieved, List.take_range]
    simp
  rcases reach_get hc2 hat1 hget happart2 h1.getDescChain with
    ⟨c3, hc3, hat3, hstate3⟩
  refine ⟨c3, hc3, hat3, ?_⟩
  rw [hstate3]
  exact h1.lap

theorem reach_laps {size : Nat} {c₀ c : Pool Nat Env RingWorld}
    (hc : Pool.Reachable ringEnv ringOk c₀ c) (hsize : 0 < size)
    (hat : AtCall c 0) (h : Overrun size 0 0 c.state.queue c.state.device) :
    forall laps, laps <= 65535 ->
      exists c', Pool.Reachable ringEnv ringOk c₀ c' ∧ AtCall c' (2 * laps) ∧
        Overrun size laps 0 c'.state.queue c'.state.device := by
  intro laps
  induction laps with
  | zero => exact fun _ => ⟨c, hc, hat, h⟩
  | succ laps ih =>
      intro hle
      rcases ih (Nat.le_of_succ_le hle) with ⟨c1, hc1, hat1, h1⟩
      exact reach_lap hc1 hsize hle hat1 h1

theorem reach_ahead {size : Nat} {c₀ c : Pool Nat Env RingWorld}
    (hc : Pool.Reachable ringEnv ringOk c₀ c) (hat : AtCall c (2 * 65535))
    (h : Overrun size 65535 0 c.state.queue c.state.device) :
    forall ahead, ahead <= size ->
      exists c', Pool.Reachable ringEnv ringOk c₀ c' ∧
        AtCall c' (2 * 65535 + ahead) ∧
        Overrun size 65535 ahead c'.state.queue c'.state.device := by
  intro ahead
  induction ahead with
  | zero => exact fun _ => ⟨c, hc, hat, h⟩
  | succ ahead ih =>
      intro hle
      rcases ih (Nat.le_of_succ_le hle) with ⟨c1, hc1, hat1, h1⟩
      have hput : overrunScript (2 * 65535 + ahead) =
          .put (UInt16.ofNat ahead) [] := by
        rw [overrunScript, if_neg (by omega), Nat.add_sub_cancel_left]
      rcases reach_put hc1 hat1 hput (h1.apart (Nat.le_of_succ_le hle)) with
        ⟨c2, hc2, hat2, hstate2⟩
      refine ⟨c2, hc2, hat2, ?_⟩
      rw [hstate2]
      exact h1.put

theorem Overrun.initial {size : Nat} {legacy : Bool} {obj : VirtqObject}
    (hfresh : Virtq.Fresh size legacy obj.vq) (mem : Memory) :
    Overrun size 0 0 (obj.queue mem) Device.initial := by
  have hnum := hfresh.num_toNat
  rcases hfresh.shape with ⟨d, a, u, fifo, heq⟩
  constructor
  · exact hnum
  · rfl
  · rfl
  all_goals simp [VirtqObject.queue, heq, Virtq.created, Device.initial,
    Device.positions]

/-- A size that does not divide 65536 has a run in which the device reads a head
that was not published at that place. -/
theorem ring_overrun {size : Nat} {legacy : Bool} {obj : VirtqObject}
    (hfresh : Virtq.Fresh size legacy obj.vq) (hpos : 0 < size)
    (hdvd : ¬ size ∣ 65536) (mem : Memory) :
    exists scripts w, RingReachable obj mem scripts w ∧
      ¬ RingIntegrity w.queue w.device := by
  have hsize := hfresh.size_lt
  rcases wrapSlot_collision (w := 65536) (Nat.le_of_lt hsize) hpos hdvd with
    ⟨b, hb, hslot⟩
  rcases reach_laps (c := ringPool obj mem fun _ => overrunScript)
      (Pool.Reachable.refl) hpos rfl (Overrun.initial hfresh mem) 65535
      (Nat.le_refl _) with ⟨c1, hc1, hat1, h1⟩
  rcases reach_ahead hc1 hat1 h1 (b + 2) hb with ⟨c2, hc2, _, h2⟩
  have happart := h2.apart hb
  have htake := h2.take (by omega)
  have hc3 := hc2.outside .take happart
    (by rw [ringEnv, DeviceMove.step, htake]; rfl)
  refine ⟨fun _ => overrunScript, _, ⟨_, hc3, rfl,
    ChainsApart.congr happart rfl rfl rfl rfl⟩, ?_⟩
  intro hintegrity
  -- the entry at 65535 shares its slot with the last one sent
  have hring : c2.state.queue.vq.availRing
      (ringSlot c2.state.queue.vq.num 65535) = UInt16.ofNat (b + 1) := by
    have hsame : ringSlot c2.state.queue.vq.num 65535 =
        ringSlot c2.state.queue.vq.num (65535 + (b + 2) - 1) := by
      apply UInt16.toNat_inj.mp
      rw [ringSlot_toNat, ringSlot_toNat, h2.num,
        show 65535 + (b + 2) - 1 = 65536 + b by omega]
      exact hslot
    rw [hsame]
    exact h2.last (by omega)
  have hread := hintegrity.consumed 65535 (UInt16.ofNat (b + 1)) (by
    change (c2.state.device.consumed ++ [_])[65535]? = _
    rw [hring, ← h2.consumed, List.getElem?_concat_length])
  rcases hread with ⟨p, hp, hhead⟩
  have hchain : (c2.state.queue.published.map Published.chain)[65535]? =
      some p.chain := by
    rw [List.getElem?_map]
    exact congrArg (Option.map Published.chain) hp
  rw [h2.published, List.getElem?_append_right
    (Nat.le_of_eq List.length_replicate)] at hchain
  simp only [List.length_replicate, Nat.sub_self, List.getElem?_map] at hchain
  rw [List.getElem?_range (by omega)] at hchain
  have hzero : p.head = 0 := by
    have := Option.some.inj hchain
    exact (List.cons.inj this).1.symm
  rw [hzero] at hhead
  have hnat := congrArg UInt16.toNat hhead
  simp only [UInt16.toNat_ofNat'] at hnat
  change 0 = _ at hnat
  omega

/-- The rings of a created queue stay intact in every run of any clients with the
device exactly if its size is a power of two. -/
theorem split_ring_integrity_iff {size : Nat} {legacy : Bool} {h h' : Host}
    {rc : Rc} {obj : VirtqObject} (hsize : 0 < size)
    (hcreate : Prog.Runs (fun _ => True) h (virtqCreate size legacy)
      (rc, some obj) h') :
    (forall scripts w, RingReachable obj h'.mem scripts w ->
      RingIntegrity w.queue w.device) <-> exists k, size = 2 ^ k := by
  have hfresh := (virtqCreate_fresh hcreate).2
  constructor
  · intro hall
    by_contra hpow
    have hdvd : ¬ size ∣ 65536 := by
      intro hdvd
      rcases (Nat.dvd_prime_pow Nat.prime_two).mp
        (show size ∣ 2 ^ 16 from hdvd) with ⟨k, _, hk⟩
      exact hpow ⟨k, hk⟩
    rcases ring_overrun hfresh hsize hdvd h'.mem with ⟨scripts, w, hw, hbad⟩
    exact hbad (hall scripts w hw)
  · rintro ⟨k, hk⟩ scripts w hw
    exact ring_integrity_of_dvd hfresh hsize (dvd_of_pow_lt hk hfresh.size_lt) hw

theorem split_ring_integrity_two :
    (forall scripts w, RingReachable queueTwo createdTwo.2.mem scripts w ->
      RingIntegrity w.queue w.device) <-> exists k, 2 = 2 ^ k :=
  split_ring_integrity_iff (by omega) queueTwo_created

/-- `virtq_create` accepts three descriptors, and their rings get overrun. -/
theorem split_ring_overrun_three :
    exists rc obj h', Prog.Runs (fun _ => True) Host.initial (virtqCreate 3 false)
        (rc, some obj) h' ∧
      exists scripts w, RingReachable obj h'.mem scripts w ∧
        ¬ RingIntegrity w.queue w.device := by
  have hexec : exists rc obj h',
      Prog.exec (succeedingEnvs 20 1) Host.initial (virtqCreate 3 false) =
        some ((rc, some obj), h') := ⟨_, _, _, rfl⟩
  rcases hexec with ⟨rc, obj, h', hexec⟩
  have hrun : Prog.Runs (fun _ => True) Host.initial (virtqCreate 3 false)
      (rc, some obj) h' := Prog.runs_of_exec (fun _ _ => trivial) hexec
  exact ⟨rc, obj, h', hrun,
    ring_overrun (virtqCreate_fresh hrun).2 (by omega) (by decide) h'.mem⟩

end QnxVirtio
