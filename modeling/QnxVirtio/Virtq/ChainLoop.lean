import QnxVirtio.Foundation.Answers
import QnxVirtio.Virtq.Chain

/-!
# The loop of a retrieval

`virtq_get_desc_chain` step by step, with the counter, the caller's array and the lock
that the single step of a queue leaves out.  The loop ends exactly when that step exists.
-/

namespace QnxVirtio

open Foundation Prog

/-!
## Walks
-/

section Walk

variable {desc : UInt16 -> VirtqDesc}

theorem chainWalk_mono {n m : Nat} {head : UInt16} {chain : List UInt16}
    (h : chainWalk desc n head = some chain) (hle : n <= m) :
    chainWalk desc m head = some chain := by
  induction n generalizing m head chain with
  | zero => cases h
  | succ n ih =>
      rcases Nat.exists_eq_succ_of_ne_zero (Nat.ne_of_gt (Nat.lt_of_lt_of_le n.succ_pos hle))
        with ⟨k, rfl⟩
      unfold chainWalk at h ⊢
      by_cases hnext : (desc head).hasNext = true
      · rw [if_pos hnext] at h ⊢
        rcases Option.map_eq_some_iff.mp h with ⟨rest, hrest, rfl⟩
        rw [ih hrest (Nat.le_of_succ_le_succ hle)]
        rfl
      · rw [if_neg hnext] at h ⊢
        exact h

theorem chainWalk_unique {n m : Nat} {head : UInt16} {chain chain' : List UInt16}
    (h : chainWalk desc n head = some chain) (h' : chainWalk desc m head = some chain') :
    chain' = chain := by
  have h1 := chainWalk_mono h (Nat.le_max_left n m)
  have h2 := chainWalk_mono h' (Nat.le_max_right n m)
  rw [h1] at h2
  exact (Option.some.inj h2).symm

theorem chainWalk_length {n : Nat} {head : UInt16} {chain : List UInt16}
    (h : chainWalk desc n head = some chain) :
    chain.length <= n ∧ chainWalk desc chain.length head = some chain := by
  induction n generalizing head chain with
  | zero => cases h
  | succ n ih =>
      unfold chainWalk at h
      by_cases hnext : (desc head).hasNext = true
      · rw [if_pos hnext] at h
        rcases Option.map_eq_some_iff.mp h with ⟨rest, hrest, rfl⟩
        rcases ih hrest with ⟨hle, hwalk⟩
        refine ⟨Nat.succ_le_succ hle, ?_⟩
        rw [List.length_cons, chainWalk, if_pos hnext, hwalk]
        rfl
      · rw [if_neg hnext] at h
        cases h
        refine ⟨Nat.succ_le_succ (Nat.zero_le n), ?_⟩
        rw [List.length_singleton, chainWalk, if_neg hnext]

theorem chainWalk_mem {n : Nat} {head idx : UInt16} {chain : List UInt16}
    (h : chainWalk desc n head = some chain) (hmem : idx ∈ chain) :
    exists tail, chainWalk desc n idx = some tail ∧ tail <:+ chain := by
  induction n generalizing head chain with
  | zero => cases h
  | succ n ih =>
      have hall := h
      unfold chainWalk at h
      by_cases hnext : (desc head).hasNext = true
      · rw [if_pos hnext] at h
        rcases Option.map_eq_some_iff.mp h with ⟨rest, hrest, rfl⟩
        rcases List.mem_cons.mp hmem with rfl | hmem
        · exact ⟨_, hall, List.suffix_refl _⟩
        · rcases ih hrest hmem with ⟨tail, htail, hsuffix⟩
          exact ⟨tail, chainWalk_mono htail n.le_succ, hsuffix.trans (List.suffix_cons ..)⟩
      · rw [if_neg hnext] at h
        cases h
        rw [List.mem_singleton.mp hmem]
        exact ⟨_, hall, List.suffix_refl _⟩

theorem chainWalk_nodup {n : Nat} {head : UInt16} {chain : List UInt16}
    (h : chainWalk desc n head = some chain) : chain.Nodup := by
  induction n generalizing head chain with
  | zero => cases h
  | succ n ih =>
      have hall := h
      unfold chainWalk at h
      by_cases hnext : (desc head).hasNext = true
      · rw [if_pos hnext] at h
        rcases Option.map_eq_some_iff.mp h with ⟨rest, hrest, rfl⟩
        refine List.nodup_cons.mpr ⟨fun hmem => ?_, ih hrest⟩
        -- from the head again the walk would be shorter
        rcases chainWalk_mem hrest hmem with ⟨tail, htail, hsuffix⟩
        have hlen := hsuffix.length_le
        rw [chainWalk_unique hall htail, List.length_cons] at hlen
        exact Nat.not_succ_le_self _ hlen
      · rw [if_neg hnext] at h
        cases h
        exact List.nodup_singleton _

theorem nodup_length_le {chain : List UInt16} (h : chain.Nodup) : chain.length <= 65536 := by
  have hnat : (chain.map UInt16.toNat).Nodup :=
    h.map fun _ _ heq => UInt16.toNat_inj.mp heq
  have hsub : chain.map UInt16.toNat ⊆ List.range 65536 := by
    intro n hn
    rcases List.mem_map.mp hn with ⟨idx, _, rfl⟩
    exact List.mem_range.mpr idx.toNat_lt
  have hle := (hnat.subperm hsub).length_le
  rwa [List.length_map, List.length_range] at hle

/-- A chain that ends at all ends within the range of the counter. -/
theorem chainWalk_bound {n : Nat} {head : UInt16} {chain : List UInt16}
    (h : chainWalk desc n head = some chain) : chainWalk desc 65536 head = some chain :=
  chainWalk_mono (chainWalk_length h).2 (nodup_length_le (chainWalk_nodup h))

end Walk

/-!
## The call
-/

/-- The queue with its lock, and the variables of the caller: `*count` and the array. -/
structure ChainCall where
  vq : Virtq
  locked : Bool
  count : UInt64
  idx : Nat -> UInt16

/-- One round of the loop, with `desc_idx` and `desc_count`; a round that ends it answers
with the count. -/
def chainRound (state : UInt16 × UInt16) :
    Prog Env ChainCall ((UInt16 × UInt16) ⊕ UInt16) := do
  let count <- Prog.read ChainCall.count
  if state.2.toUInt64 < count then
    Prog.modify fun s => { s with idx := Function.update s.idx state.2.toNat state.1 }
    let desc <- Prog.read fun s => s.vq.desc state.1
    if desc.hasNext then pure (.inl (desc.next, state.2 + 1))
    else pure (.inr state.2)
  else pure (.inr state.2)

/-- The label `unlock`. -/
def unlockCall (rc : Rc) : Prog Env ChainCall Rc := do
  Prog.modify fun s => { s with locked := false }
  pure rc

/-- `virtq_get_desc_chain`. -/
def virtqGetDescChainLoop : Prog Env ChainCall Rc := do
  let rc <- Prog.action fun e s =>
    if e.lock ≠ .EOK then some (e.lock, s) else some (.EOK, { s with locked := true })
  if rc ≠ .EOK then pure rc
  else
    let vq <- Prog.read ChainCall.vq
    if vq.usedIdx = vq.lastSeenUsed then unlockCall .ENOENT
    else
      let head := (vq.usedRing (vq.lastSeenUsed % vq.num)).id.toUInt16
      let descCount <- Prog.iterate chainRound (head, 0)
      let count <- Prog.read ChainCall.count
      if descCount.toUInt64 = count then unlockCall .ENOMEM
      else
        Prog.modify fun s => { s with count := descCount.toUInt64 + 1 }
        Prog.modify fun s =>
          { s with vq := { s.vq with lastSeenUsed := s.vq.lastSeenUsed + 1 } }
        unlockCall .EOK

/-- The array after the stores of a walk from position `n` on. -/
def storeChain (idx : Nat -> UInt16) (n : Nat) : List UInt16 -> Nat -> UInt16
  | [] => idx
  | a :: rest => storeChain (Function.update idx n a) (n + 1) rest

theorem storeChain_of_lt {chain : List UInt16} :
    forall {idx : Nat -> UInt16} {n m : Nat}, m < n -> storeChain idx n chain m = idx m := by
  induction chain with
  | nil => exact fun _ => rfl
  | cons a rest ih =>
      intro idx n m h
      rw [storeChain, ih (Nat.lt_succ_of_lt h), Function.update_of_ne (Nat.ne_of_lt h)]

theorem storeChain_of_ge {chain : List UInt16} :
    forall {idx : Nat -> UInt16} {n m : Nat}, n + chain.length <= m ->
      storeChain idx n chain m = idx m := by
  induction chain with
  | nil => exact fun _ => rfl
  | cons a rest ih =>
      intro idx n m h
      rw [List.length_cons] at h
      rw [storeChain, ih (by omega), Function.update_of_ne (by omega)]

theorem storeChain_get {chain : List UInt16} :
    forall {idx : Nat -> UInt16} {n k : Nat} (hk : k < chain.length),
      storeChain idx n chain (n + k) = chain[k] := by
  induction chain with
  | nil =>
      intro idx n k hk
      cases hk
  | cons a rest ih =>
      intro idx n k hk
      cases k with
      | zero => rw [storeChain, storeChain_of_lt (by omega), Nat.add_zero,
          Function.update_self, List.getElem_cons_zero]
      | succ k =>
          rw [storeChain, show n + (k + 1) = n + 1 + k by omega,
            ih (Nat.lt_of_succ_lt_succ hk), List.getElem_cons_succ]

/-!
## Rounds
-/

section Rounds

variable {σ : Nat -> Env} {s : ChainCall}

theorem toUInt64_lt_iff {n : UInt16} {count : UInt64} :
    n.toUInt64 < count <-> n.toNat < count.toNat := by
  rw [UInt64.lt_iff_toNat_lt, UInt16.toNat_toUInt64]

theorem chainRound_stores (idx n : UInt16) (h : n.toNat < s.count.toNat) (i : Nat) :
    RunsOn σ i s (chainRound (idx, n))
      (if (s.vq.desc idx).hasNext then .inl ((s.vq.desc idx).next, n + 1) else .inr n)
      { s with idx := Function.update s.idx n.toNat idx } (i + 3) := by
  refine runsOn_bind_iff.mpr ⟨_, _, _, runsOn_read_iff.mpr ⟨rfl, rfl, rfl⟩, ?_⟩
  simp only [if_pos (toUInt64_lt_iff.mpr h)]
  refine runsOn_bind_iff.mpr ⟨(), _, _, runsOn_modify_iff.mpr ⟨rfl, rfl⟩, ?_⟩
  refine runsOn_bind_iff.mpr ⟨_, _, _, runsOn_read_iff.mpr ⟨rfl, rfl, rfl⟩, ?_⟩
  dsimp only
  split
  · exact RunsOn.ret _ _ _
  · exact RunsOn.ret _ _ _

theorem chainRound_full (idx n : UInt16) (h : ¬ n.toNat < s.count.toNat) (i : Nat) :
    RunsOn σ i s (chainRound (idx, n)) (.inr n) s (i + 1) := by
  refine runsOn_bind_iff.mpr ⟨_, _, _, runsOn_read_iff.mpr ⟨rfl, rfl, rfl⟩, ?_⟩
  simp only [if_neg fun hlt => h (toUInt64_lt_iff.mp hlt)]
  exact RunsOn.ret _ _ _

theorem chainRounds_end {k : Nat} :
    forall {idx n : UInt16} {chain : List UInt16} {s : ChainCall} (i : Nat),
      chainWalk s.vq.desc k idx = some chain -> n.toNat + chain.length <= 65536 ->
      n.toNat + chain.length <= s.count.toNat ->
      exists last j, RunsOn σ i s (Prog.iterate chainRound (idx, n)) last
          { s with idx := storeChain s.idx n.toNat chain } j ∧
        last.toNat + 1 = n.toNat + chain.length := by
  induction k with
  | zero =>
      intro idx n chain s i h
      cases h
  | succ k ih =>
      intro idx n chain s i h hcounter hcount
      unfold chainWalk at h
      by_cases hnext : (s.vq.desc idx).hasNext = true
      · rw [if_pos hnext] at h
        rcases Option.map_eq_some_iff.mp h with ⟨rest, hrest, rfl⟩
        rw [List.length_cons] at hcounter hcount
        have hround := chainRound_stores (σ := σ) (s := s) idx n (by omega) i
        rw [if_pos hnext] at hround
        have hpos : 0 < rest.length := by
          cases rest with
          | nil => cases chainWalk_head hrest
          | cons _ _ => exact Nat.succ_pos _
        have hsucc : (n + 1).toNat = n.toNat + 1 := by
          rw [UInt16.toNat_add]
          exact Nat.mod_eq_of_lt (by change n.toNat + 1 < 65536; omega)
        rcases ih (n := n + 1) (s := { s with idx := Function.update s.idx n.toNat idx })
            (i + 3) hrest (by omega) (by rw [hsucc]; dsimp only; omega) with
          ⟨last, j, hrun, hlast⟩
        rw [hsucc] at hrun hlast
        refine ⟨last, j, runsOn_iterate_iff.mpr ⟨_, _, _, hround, hrun⟩, ?_⟩
        rw [hlast, List.length_cons]
        omega
      · rw [if_neg hnext] at h
        cases h
        have hround := chainRound_stores (σ := σ) (s := s) idx n hcount i
        rw [if_neg hnext] at hround
        exact ⟨n, _, runsOn_iterate_iff.mpr ⟨_, _, _, hround, RunsOn.ret _ _ _⟩, rfl⟩

theorem chainRounds_short {k : Nat} :
    forall {idx n : UInt16} {s : ChainCall} (i : Nat),
      chainWalk s.vq.desc k idx = none -> n.toNat + k = s.count.toNat ->
      s.count.toNat < 65536 ->
      exists last idx' j, RunsOn σ i s (Prog.iterate chainRound (idx, n)) last
          { s with idx := idx' } j ∧
        last.toNat = s.count.toNat ∧ forall m, s.count.toNat <= m -> idx' m = s.idx m := by
  induction k with
  | zero =>
      intro idx n s i _ hn _
      have hround := chainRound_full (σ := σ) (s := s) idx n (by omega) i
      exact ⟨n, s.idx, _, runsOn_iterate_iff.mpr ⟨_, _, _, hround, RunsOn.ret _ _ _⟩,
        by omega, fun _ _ => rfl⟩
  | succ k ih =>
      intro idx n s i h hn hcount
      unfold chainWalk at h
      have hnext : (s.vq.desc idx).hasNext = true := by
        by_contra hend
        rw [if_neg hend] at h
        cases h
      rw [if_pos hnext, Option.map_eq_none_iff] at h
      have hround := chainRound_stores (σ := σ) (s := s) idx n (by omega) i
      rw [if_pos hnext] at hround
      have hsucc : (n + 1).toNat = n.toNat + 1 := by
        rw [UInt16.toNat_add]
        exact Nat.mod_eq_of_lt (by change n.toNat + 1 < 65536; omega)
      rcases ih (n := n + 1) (s := { s with idx := Function.update s.idx n.toNat idx })
          (i + 3) h (by rw [hsucc]; dsimp only; omega) hcount with
        ⟨last, idx', j, hrun, hlast, hsame⟩
      refine ⟨last, idx', j, runsOn_iterate_iff.mpr ⟨_, _, _, hround, hrun⟩, hlast, ?_⟩
      intro m hm
      rw [hsame m hm]
      exact Function.update_of_ne (by omega) ..

/-- The counter wraps before a bound from 65536 on, so that only the end of the chain ends
the loop. -/
theorem chainRounds_diverge {idx n last : UInt16} {s s' : ChainCall} {i j : Nat}
    (hend : forall k, chainWalk s.vq.desc k idx = none) (hcount : 65536 <= s.count.toNat) :
    ¬ RunsOn σ i s (Prog.iterate chainRound (idx, n)) last s' j := by
  intro hrun
  refine runs_iterate_inv
    (J := fun x s1 => s1.vq = s.vq ∧ s1.count = s.count ∧
      forall k, chainWalk s.vq.desc k x.1 = none)
    (Q := fun _ _ => False) ?_ ⟨rfl, rfl, hend⟩ hrun.runs
  rintro ⟨idx, n⟩ s1 r s2 ⟨hvq, hc, hwalk⟩ hbody
  have hlt : n.toNat < s1.count.toNat := by
    rw [hc]
    exact Nat.lt_of_lt_of_le n.toNat_lt hcount
  have hone := hwalk 1
  have hnext : (s.vq.desc idx).hasNext = true := by
    by_contra hlast
    simp [chainWalk, hlast] at hone
  rcases runs_bind_iff.mp hbody with ⟨count, s3, hread, hbody⟩
  rcases runs_read_iff.mp hread with ⟨_, rfl, rfl⟩
  simp only [if_pos (toUInt64_lt_iff.mpr hlt)] at hbody
  rcases runs_bind_iff.mp hbody with ⟨_, s4, hstore, hbody⟩
  rcases runs_modify_iff.mp hstore with ⟨_, rfl⟩
  rcases runs_bind_iff.mp hbody with ⟨d, s5, hread, hbody⟩
  rcases runs_read_iff.mp hread with ⟨_, rfl, rfl⟩
  simp only [hvq, hnext, if_true] at hbody
  rcases runs_ret_iff.mp hbody with ⟨rfl, rfl⟩
  refine ⟨rfl, hc, fun k => ?_⟩
  have hk := hwalk (k + 1)
  simpa [chainWalk, hnext] using hk

end Rounds

/-!
## Totality
-/

/-- The first descriptor of the oldest used element. -/
def Virtq.usedHead (vq : Virtq) : UInt16 :=
  (vq.usedRing (vq.lastSeenUsed % vq.num)).id.toUInt16

/-- What a caller of `virtq_get_desc_chain` expects of a call that got `lock` for an
answer to its lock. -/
structure ChainRetrieved (lock : Rc) (s s' : ChainCall) (rc : Rc) : Prop where
  lockFailed : lock ≠ .EOK -> rc = lock ∧ s' = s
  unlocked : lock = .EOK -> s'.locked = false
  frame : forall n, s.count.toNat <= n -> s'.idx n = s.idx n
  empty : lock = .EOK -> s.vq.usedIdx = s.vq.lastSeenUsed ->
    rc = .ENOENT ∧ s'.vq = s.vq ∧ s'.count = s.count
  found : lock = .EOK -> s.vq.usedIdx ≠ s.vq.lastSeenUsed -> forall chain,
    chainWalk s.vq.desc s.count.toNat s.vq.usedHead = some chain ->
    rc = .EOK ∧ s'.vq = { s.vq with lastSeenUsed := s.vq.lastSeenUsed + 1 } ∧
      s'.count.toNat = chain.length ∧
      forall k (hk : k < chain.length), s'.idx k = chain[k]
  tooSmall : lock = .EOK -> s.vq.usedIdx ≠ s.vq.lastSeenUsed ->
    chainWalk s.vq.desc s.count.toNat s.vq.usedHead = none ->
    rc = .ENOMEM ∧ s'.vq = s.vq ∧ s'.count = s.count

section Total

variable {σ : Nat -> Env} {s : ChainCall} {i : Nat}

theorem unlockCall_runs (rc : Rc) (s : ChainCall) (i : Nat) :
    RunsOn σ i s (unlockCall rc) rc { s with locked := false } (i + 1) :=
  runsOn_bind_iff.mpr ⟨(), _, _, runsOn_modify_iff.mpr ⟨rfl, rfl⟩, RunsOn.ret _ _ _⟩

theorem lockedCall_runs {rc : Rc} {s' : ChainCall} {j : Nat} (hlock : (σ i).lock = .EOK)
    (hused : s.vq.usedIdx ≠ s.vq.lastSeenUsed)
    (hrun : RunsOn σ (i + 2) { s with locked := true } (do
      let descCount <- Prog.iterate chainRound (s.vq.usedHead, 0)
      let count <- Prog.read ChainCall.count
      if descCount.toUInt64 = count then unlockCall .ENOMEM
      else
        Prog.modify fun s => { s with count := descCount.toUInt64 + 1 }
        Prog.modify fun s =>
          { s with vq := { s.vq with lastSeenUsed := s.vq.lastSeenUsed + 1 } }
        unlockCall .EOK) rc s' j) :
    RunsOn σ i s virtqGetDescChainLoop rc s' j := by
  refine runsOn_bind_iff.mpr ⟨.EOK, { s with locked := true }, i + 1, ?_, ?_⟩
  · exact runsOn_action_iff.mpr ⟨by simp [hlock], rfl⟩
  · refine runsOn_bind_iff.mpr ⟨s.vq, { s with locked := true }, i + 2, ?_, ?_⟩
    · exact runsOn_read_iff.mpr ⟨rfl, rfl, rfl⟩
    · simp only [if_neg hused]
      exact hrun

theorem retrieved_of_lock (hlock : (σ i).lock ≠ .EOK) :
    exists rc s' j, RunsOn σ i s virtqGetDescChainLoop rc s' j ∧
      ChainRetrieved (σ i).lock s s' rc := by
  have hrun : RunsOn σ i s virtqGetDescChainLoop (σ i).lock s (i + 1) := by
    refine runsOn_bind_iff.mpr ⟨(σ i).lock, s, i + 1, ?_, ?_⟩
    · exact runsOn_action_iff.mpr ⟨by rw [if_pos hlock], rfl⟩
    · rw [if_pos hlock]
      exact RunsOn.ret _ _ _
  exact ⟨_, _, _, hrun, {
    lockFailed := fun _ => ⟨rfl, rfl⟩
    unlocked := fun h => absurd h hlock
    frame := fun _ _ => rfl
    empty := fun h => absurd h hlock
    found := fun h => absurd h hlock
    tooSmall := fun h => absurd h hlock }⟩

theorem retrieved_of_empty (hlock : (σ i).lock = .EOK)
    (hused : s.vq.usedIdx = s.vq.lastSeenUsed) :
    exists rc s' j, RunsOn σ i s virtqGetDescChainLoop rc s' j ∧
      ChainRetrieved (σ i).lock s s' rc := by
  have hrun : RunsOn σ i s virtqGetDescChainLoop .ENOENT { s with locked := false }
      (i + 3) := by
    refine runsOn_bind_iff.mpr ⟨.EOK, { s with locked := true }, i + 1, ?_, ?_⟩
    · exact runsOn_action_iff.mpr ⟨by simp [hlock], rfl⟩
    · refine runsOn_bind_iff.mpr ⟨s.vq, { s with locked := true }, i + 2, ?_, ?_⟩
      · exact runsOn_read_iff.mpr ⟨rfl, rfl, rfl⟩
      · simp only [if_pos hused]
        exact unlockCall_runs _ _ _
  exact ⟨_, _, _, hrun, {
    lockFailed := fun h => absurd hlock h
    unlocked := fun _ => rfl
    frame := fun _ _ => rfl
    empty := fun _ _ => ⟨rfl, rfl, rfl⟩
    found := fun _ h => absurd hused h
    tooSmall := fun _ h => absurd hused h }⟩

theorem retrieved_of_chain {chain : List UInt16} (hlock : (σ i).lock = .EOK)
    (hused : s.vq.usedIdx ≠ s.vq.lastSeenUsed)
    (hwalk : chainWalk s.vq.desc s.count.toNat s.vq.usedHead = some chain) :
    exists rc s' j, RunsOn σ i s virtqGetDescChainLoop rc s' j ∧
      ChainRetrieved (σ i).lock s s' rc := by
  have hlength := (chainWalk_length hwalk).1
  have hbound := nodup_length_le (chainWalk_nodup hwalk)
  have hzero : (0 : UInt16).toNat = 0 := rfl
  rcases chainRounds_end (σ := σ) (n := 0) (s := { s with locked := true }) (i + 2) hwalk
    (by rw [hzero, Nat.zero_add]; exact hbound)
    (by rw [hzero, Nat.zero_add]; exact hlength) with ⟨last, j, hloop, hlast⟩
  rw [hzero, Nat.zero_add] at hlast
  rw [hzero] at hloop
  have hne : ¬ last.toUInt64 = s.count := by
    intro heq
    rw [← heq, UInt16.toNat_toUInt64] at hlength
    omega
  have hcount : (last.toUInt64 + 1).toNat = chain.length := by
    rw [UInt64.toNat_add, UInt16.toNat_toUInt64]
    change (last.toNat + 1) % 2 ^ 64 = _
    rw [hlast]
    exact Nat.mod_eq_of_lt (Nat.lt_of_le_of_lt hbound (by decide))
  have hrun := lockedCall_runs hlock hused (runsOn_bind_iff.mpr ⟨_, _, _, hloop,
    runsOn_bind_iff.mpr ⟨_, _, _, runsOn_read_iff.mpr ⟨rfl, rfl, rfl⟩, by
      simp only [if_neg hne]
      exact runsOn_bind_iff.mpr ⟨(), _, _, runsOn_modify_iff.mpr ⟨rfl, rfl⟩,
        runsOn_bind_iff.mpr ⟨(), _, _, runsOn_modify_iff.mpr ⟨rfl, rfl⟩,
          unlockCall_runs _ _ _⟩⟩⟩⟩)
  refine ⟨_, _, _, hrun, {
    lockFailed := fun h => absurd hlock h
    unlocked := fun _ => rfl
    frame := fun n hn => storeChain_of_ge (by rw [Nat.zero_add]; exact Nat.le_trans hlength hn)
    empty := fun _ h => absurd h hused
    found := fun _ _ chain' hwalk' => ?_
    tooSmall := fun _ _ hnone => by rw [hwalk] at hnone; cases hnone }⟩
  rw [hwalk] at hwalk'
  cases hwalk'
  refine ⟨rfl, rfl, hcount, fun k hk => ?_⟩
  have hget : storeChain s.idx 0 chain (0 + k) = chain[k] := storeChain_get hk
  rw [Nat.zero_add] at hget
  exact hget

theorem retrieved_of_short (hlock : (σ i).lock = .EOK)
    (hused : s.vq.usedIdx ≠ s.vq.lastSeenUsed) (hcount : s.count.toNat < 65536)
    (hwalk : chainWalk s.vq.desc s.count.toNat s.vq.usedHead = none) :
    exists rc s' j, RunsOn σ i s virtqGetDescChainLoop rc s' j ∧
      ChainRetrieved (σ i).lock s s' rc := by
  rcases chainRounds_short (σ := σ) (n := 0) (s := { s with locked := true }) (i + 2) hwalk
    (by rw [show (0 : UInt16).toNat = 0 from rfl, Nat.zero_add]) hcount with
    ⟨last, idx', j, hloop, hlast, hsame⟩
  have heq : last.toUInt64 = s.count := by
    apply UInt64.toNat_inj.mp
    rw [UInt16.toNat_toUInt64]
    exact hlast
  have hrun := lockedCall_runs hlock hused (runsOn_bind_iff.mpr ⟨_, _, _, hloop,
    runsOn_bind_iff.mpr ⟨_, _, _, runsOn_read_iff.mpr ⟨rfl, rfl, rfl⟩, by
      simp only [if_pos heq]
      exact unlockCall_runs _ _ _⟩⟩)
  exact ⟨_, _, _, hrun, {
    lockFailed := fun h => absurd hlock h
    unlocked := fun _ => rfl
    frame := hsame
    empty := fun _ h => absurd h hused
    found := fun _ _ chain' hwalk' => by rw [hwalk] at hwalk'; cases hwalk'
    tooSmall := fun _ _ _ => ⟨rfl, rfl, rfl⟩ }⟩

end Total

/-- The loop of the call is finite. -/
def CallEnds (lock : Rc) (s : ChainCall) : Prop :=
  lock ≠ .EOK ∨ s.vq.usedIdx = s.vq.lastSeenUsed ∨ s.count.toNat < 65536 ∨
    exists n chain, chainWalk s.vq.desc n s.vq.usedHead = some chain

section Total

variable {σ : Nat -> Env} {s s' : ChainCall} {i j : Nat} {rc : Rc}

theorem retrieved_of_callEnds (h : CallEnds (σ i).lock s) :
    exists rc s' j, RunsOn σ i s virtqGetDescChainLoop rc s' j ∧
      ChainRetrieved (σ i).lock s s' rc := by
  by_cases hlock : (σ i).lock = .EOK
  · by_cases hused : s.vq.usedIdx = s.vq.lastSeenUsed
    · exact retrieved_of_empty hlock hused
    · cases hwalk : chainWalk s.vq.desc s.count.toNat s.vq.usedHead with
      | some chain => exact retrieved_of_chain hlock hused hwalk
      | none =>
          refine retrieved_of_short hlock hused ?_ hwalk
          rcases h with h | h | h | ⟨n, chain, hchain⟩
          · exact absurd hlock h
          · exact absurd h hused
          · exact h
          · by_contra hcount
            rw [chainWalk_mono (chainWalk_bound hchain) (Nat.le_of_not_lt hcount)] at hwalk
            cases hwalk
  · exact retrieved_of_lock hlock

theorem callEnds_of_runsOn (hrun : RunsOn σ i s virtqGetDescChainLoop rc s' j) :
    CallEnds (σ i).lock s := by
  by_contra hnot
  simp only [CallEnds, not_or, not_not, not_exists, Nat.not_lt] at hnot
  rcases hnot with ⟨hlock, hused, hcount, hend⟩
  rcases runsOn_bind_iff.mp hrun with ⟨got, s1, _, haction, hrun⟩
  have hf := (runsOn_action_iff.mp haction).1
  simp only [hlock, ne_eq, not_true_eq_false, if_false, Option.some.injEq,
    Prod.mk.injEq] at hf
  rcases hf with ⟨rfl, rfl⟩
  rcases runsOn_bind_iff.mp hrun with ⟨vq, s2, _, hread, hrun⟩
  rcases runsOn_read_iff.mp hread with ⟨rfl, rfl, _⟩
  simp only [if_neg hused] at hrun
  rcases runsOn_bind_iff.mp hrun with ⟨last, s3, _, hloop, _⟩
  refine chainRounds_diverge (s := { s with locked := true }) (fun k => ?_) hcount hloop
  cases hwalk : chainWalk s.vq.desc k s.vq.usedHead with
  | none => exact hwalk
  | some chain => exact absurd hwalk (hend k chain)

theorem chainRetrieved_of_runsOn (hrun : RunsOn σ i s virtqGetDescChainLoop rc s' j) :
    ChainRetrieved (σ i).lock s s' rc := by
  rcases retrieved_of_callEnds (callEnds_of_runsOn hrun) with ⟨rc', s'', j', hrun', hret⟩
  rcases hrun.unique hrun' with ⟨rfl, rfl, _⟩
  exact hret

/-- What a finished call reports of the chain or the error of the single step. -/
def Reports (s s' : ChainCall) (rc : Rc) : Except Rc (List UInt16) -> Prop
  | .error e => rc = e ∧ s'.count = s.count
  | .ok chain => rc = .EOK ∧ s'.count.toNat = chain.length ∧
      forall k (hk : k < chain.length), s'.idx k = chain[k]

/-- The call refines the single step of the queue. -/
theorem getDescChain_of_runsOn (hrun : RunsOn σ i s virtqGetDescChainLoop rc s' j) :
    exists r, s.vq.getDescChain (σ i).lock s.count.toNat = some (r, s'.vq) ∧
      Reports s s' rc r := by
  have hret := chainRetrieved_of_runsOn hrun
  unfold Virtq.getDescChain
  by_cases hlock : (σ i).lock = .EOK
  · rw [if_neg (not_not.mpr hlock)]
    by_cases hused : s.vq.usedIdx = s.vq.lastSeenUsed
    · rcases hret.empty hlock hused with ⟨hrc, hvq, hcount⟩
      rw [if_pos hused, hvq]
      exact ⟨_, rfl, hrc, hcount⟩
    · rw [if_neg hused]
      cases hwalk : chainWalk s.vq.desc s.count.toNat s.vq.usedHead with
      | some chain =>
          rcases hret.found hlock hused chain hwalk with ⟨hrc, hvq, hcount, hidx⟩
          have hmin : chainWalk s.vq.desc (min s.count.toNat 65536) s.vq.usedHead =
              some chain :=
            chainWalk_mono (chainWalk_length hwalk).2
              (Nat.le_min.mpr ⟨(chainWalk_length hwalk).1,
                nodup_length_le (chainWalk_nodup hwalk)⟩)
          refine ⟨.ok chain, ?_, hrc, hcount, hidx⟩
          unfold Virtq.usedHead at hmin
          simp only [hmin, hvq]
      | none =>
          rcases hret.tooSmall hlock hused hwalk with ⟨hrc, hvq, hcount⟩
          have hmin : chainWalk s.vq.desc (min s.count.toNat 65536) s.vq.usedHead =
              none := by
            cases h : chainWalk s.vq.desc (min s.count.toNat 65536) s.vq.usedHead with
            | none => rfl
            | some chain =>
                rw [chainWalk_mono h (Nat.min_le_left _ _)] at hwalk
                cases hwalk
          have hlt : s.count.toNat < 65536 := by
            rcases callEnds_of_runsOn hrun with h | h | h | ⟨n, chain, hchain⟩
            · exact absurd hlock h
            · exact absurd h hused
            · exact h
            · by_contra hcount
              rw [chainWalk_mono (chainWalk_bound hchain) (Nat.le_of_not_lt hcount)]
                at hwalk
              cases hwalk
          refine ⟨.error .ENOMEM, ?_, hrc, hcount⟩
          unfold Virtq.usedHead at hmin
          simp only [hmin, if_pos hlt, hvq]
  · rcases hret.lockFailed hlock with ⟨rfl, rfl⟩
    rw [if_pos hlock]
    exact ⟨_, rfl, rfl, rfl⟩

/-- The call ends as its caller expects, unless the chain does not end and the array is
large enough for the counter to wrap. -/
theorem get_desc_chain_total_iff (σ : Nat -> Env) (i : Nat) (s : ChainCall) :
    (exists rc s' j, RunsOn σ i s virtqGetDescChainLoop rc s' j ∧
      ChainRetrieved (σ i).lock s s' rc) <-> CallEnds (σ i).lock s := by
  constructor
  · rintro ⟨rc, s', j, hrun, _⟩
    exact callEnds_of_runsOn hrun
  · exact retrieved_of_callEnds

end Total

/-- Two descriptors that point at each other, and a used element for the first. -/
def cyclicCall : ChainCall where
  vq := {
    num := 2
    legacy := false
    desc := fun idx =>
      { addr := 0
        len := 1
        flags := VIRTQ_DESC_F_NEXT
        next := if idx = 0 then 1 else 0 }
    descPaddr := 0
    availIdx := 1
    availRing := fun _ => 0
    availPaddr := 0
    usedIdx := 1
    usedRing := fun _ => { id := 0, len := 0 }
    usedPaddr := 0
    lastSeenUsed := 0
    freeDescs := {
      head := 0
      tail := 0
      count := 0
      capacity := 2
      elemSize := 2
      allocated := 4
      data := fun _ => 0 }
    descExtras := fun _ => { vaddr := 0, context := none } }
  locked := false
  count := 65536
  idx := fun _ => 0

theorem cyclicCall_walk (n : Nat) (idx : UInt16) :
    chainWalk cyclicCall.vq.desc n idx = none := by
  induction n generalizing idx with
  | zero => rfl
  | succ n ih =>
      have hnext : (cyclicCall.vq.desc idx).hasNext = true := by
        change (VIRTQ_DESC_F_NEXT &&& VIRTQ_DESC_F_NEXT != 0) = true
        decide
      unfold chainWalk
      rw [if_pos hnext, ih]
      rfl

/-- The call for the cyclic chain never returns. -/
theorem get_desc_chain_diverges :
    ¬ forall (σ : Nat -> Env) (i : Nat) (s : ChainCall),
      s.vq.usedHead < s.vq.num -> (forall idx, (s.vq.desc idx).next < s.vq.num) ->
      exists rc s' j, RunsOn σ i s virtqGetDescChainLoop rc s' j ∧
        ChainRetrieved (σ i).lock s s' rc := by
  intro hclaim
  have hret := hclaim (fun _ => {}) 0 cyclicCall (by decide) (fun idx => by
    change (if idx = 0 then 1 else 0 : UInt16) < 2
    split <;> decide)
  rcases hret with ⟨rc, s', j, hrun, _⟩
  rcases callEnds_of_runsOn hrun with h | h | h | ⟨n, chain, hchain⟩
  · exact h rfl
  · exact absurd h (by decide)
  · exact absurd h (by decide)
  · rw [cyclicCall_walk] at hchain
    cases hchain

end QnxVirtio
