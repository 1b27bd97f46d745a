import Mathlib.Data.List.Nodup
import Mathlib.Data.List.Perm.Subperm
import QnxVirtio.Foundation.Answers
import QnxVirtio.Host

/-!
# Starting the resource manager

`resmgr_run` up to its dispatch loop: what it allocates and attaches, and what its labels
release.
-/

namespace QnxVirtio

open Foundation Prog

/-- What `resmgr_run` allocates. -/
inductive ResmgrBlock
  | dispatch
  | resmgr
  | attrs
  | ids
  | context
  deriving DecidableEq

/-- A path is given by its place in `ids`; the chip comes after the lines. -/
inductive StartupEvent
  | allocated (b : ResmgrBlock)
  | freed (b : ResmgrBlock)
  | attached (n : Nat) (id : Int)
  | detached (id : Int)
  deriving DecidableEq

/-- The array `ids` and what happened so far. -/
structure Startup where
  ids : Nat -> Int
  events : List StartupEvent

/-- What a step is told: whether an allocation or `dispatch_block` fails, and what
`resmgr_attach` returns. -/
structure StartupEnv where
  alloc : Option Failure := none
  attach : Except Failure Nat := .ok 0
  block : Option Failure := none

abbrev StartupProg (α : Type) : Type 1 :=
  Prog StartupEnv Startup α

def Startup.log (s : Startup) (e : StartupEvent) : Startup :=
  { s with events := s.events ++ [e] }

/-!
## Steps
-/

def allocate (b : ResmgrBlock) : StartupProg (Except Rc Unit) :=
  Prog.action fun e s =>
    match e.alloc with
    | some f => some (.error f.val, s)
    | none => some (.ok (), s.log (.allocated b))

def release (b : ResmgrBlock) : StartupProg Unit :=
  Prog.modify fun s => s.log (.freed b)

/-- `ids[n] = resmgr_attach(..)`, which is -1 when it fails. -/
def attachPath (n : Nat) : StartupProg (Except Rc Unit) :=
  Prog.action fun e s =>
    match e.attach with
    | .error f => some (.error f.val, { s with ids := Function.update s.ids n (-1) })
    | .ok id =>
        some (.ok (), {
          ids := Function.update s.ids n (Int.ofNat id)
          events := s.events ++ [.attached n (Int.ofNat id)] })

/-- `memset(ids, -1, ngpio * sizeof(int))` on a block of zeros. -/
def initIds (ngpio : UInt16) : StartupProg Unit :=
  Prog.modify fun s => { s with ids := fun n => if n < ngpio.toNat then -1 else 0 }

def attachRound (ngpio n : UInt16) : StartupProg (UInt16 ⊕ Except Rc Unit) := do
  if n < ngpio then
    match <- attachPath n.toNat with
    | .error rc => pure (.inr (.error rc))
    | .ok _ => pure (.inl (n + 1))
  else pure (.inr (.ok ()))

def detachRound (ngpio n : UInt16) : StartupProg (UInt16 ⊕ Unit) := do
  if n < ngpio then
    Prog.modify fun s =>
      if s.ids n.toNat ≠ -1 then s.log (.detached (s.ids n.toNat)) else s
    pure (.inl (n + 1))
  else pure (.inr ())

/-- The labels `free_dpp`, `free_resmgr`, `free_attrs` and `detach`. -/
def freeDpp (rc : Rc) : StartupProg Rc := do
  release .dispatch
  pure rc

def freeResmgr (rc : Rc) : StartupProg Rc := do
  release .resmgr
  freeDpp rc

def freeAttrs (rc : Rc) : StartupProg Rc := do
  release .attrs
  freeResmgr rc

def detach (ngpio : UInt16) (rc : Rc) : StartupProg Rc := do
  Prog.iterate (detachRound ngpio) 0
  release .ids
  freeAttrs rc

/-- The dispatch loop ends when `dispatch_block` fails, and unwinds nothing. -/
def dispatchLoop : StartupProg Rc :=
  Prog.iterate (fun _ => Prog.action fun e s =>
    match e.block with
    | some f => some (.inr f.val, s)
    | none => some (.inl (), s)) ()

/-- `resmgr_run` from the first path on. -/
def attachPaths (ngpio : UInt16) : StartupProg Rc := do
  match <- attachPath ngpio.toNat with
  | .error rc => detach ngpio rc
  | .ok _ =>
      match <- Prog.iterate (attachRound ngpio) 0 with
      | .error rc => detach ngpio rc
      | .ok _ =>
          match <- allocate .context with
          | .error rc => detach ngpio rc
          | .ok _ => dispatchLoop

/-- `resmgr_run` for a device with `ngpio` lines. -/
def resmgrRun (ngpio : UInt16) : StartupProg Rc := do
  match <- allocate .dispatch with
  | .error rc => pure rc
  | .ok _ =>
      match <- allocate .resmgr with
      | .error rc => freeDpp rc
      | .ok _ =>
          match <- allocate .attrs with
          | .error rc => freeResmgr rc
          | .ok _ =>
              match <- allocate .ids with
              | .error rc => freeAttrs rc
              | .ok _ =>
                  initIds ngpio
                  attachPaths ngpio

/-!
## What is outstanding
-/

def attachedIds (es : List StartupEvent) : List Int :=
  es.filterMap fun
    | .attached _ id => some id
    | _ => none

def detachedIds (es : List StartupEvent) : List Int :=
  es.filterMap fun
    | .detached id => some id
    | _ => none

def allocatedBlocks (es : List StartupEvent) : List ResmgrBlock :=
  es.filterMap fun
    | .allocated b => some b
    | _ => none

def freedBlocks (es : List StartupEvent) : List ResmgrBlock :=
  es.filterMap fun
    | .freed b => some b
    | _ => none

/-- What a caller expects of a start-up that failed. -/
structure Unwound (rc : Rc) (es : List StartupEvent) : Prop where
  failed : rc ≠ .EOK
  detached : (detachedIds es).Perm (attachedIds es)
  freed : (freedBlocks es).Perm (allocatedBlocks es)

/-!
## The loops
-/

section Loops

variable {σ : Nat -> StartupEnv} {ngpio : UInt16}

/-- The lines from `n` on, `k` of them, are attached. -/
structure LinesAttached (n k : Nat) (s s' : Startup) : Prop where
  events : s'.events =
    s.events ++ (List.range k).map fun m => .attached (n + m) (s'.ids (n + m))
  ids : forall m, m < k -> s'.ids (n + m) ≠ -1
  frame : forall m, m < n ∨ n + k <= m -> s'.ids m = s.ids m

theorem toNat_succ {n : UInt16} (h : n.toNat < ngpio.toNat) :
    (n + 1).toNat = n.toNat + 1 := by
  have hlt : ngpio.toNat < 65536 := ngpio.toNat_lt
  rw [UInt16.toNat_add]
  exact Nat.mod_eq_of_lt (by change n.toNat + 1 < 65536; omega)

theorem attachLines_runs {k : Nat} :
    forall {n : UInt16} {s : Startup} {i : Nat}, n.toNat + k <= ngpio.toNat ->
      (forall m, m < k -> exists id, (σ (i + m)).attach = .ok id) ->
      exists s' n', n'.toNat = n.toNat + k ∧ LinesAttached n.toNat k s s' ∧
        forall {r : Except Rc Unit} {s'' : Startup} {j : Nat},
          RunsOn σ (i + k) s' (Prog.iterate (attachRound ngpio) n') r s'' j ->
          RunsOn σ i s (Prog.iterate (attachRound ngpio) n) r s'' j := by
  induction k with
  | zero =>
      intro n s i _ _
      refine ⟨s, n, rfl,
        ⟨by simp, fun m hm => absurd hm (Nat.not_lt_zero m), fun _ _ => rfl⟩, ?_⟩
      intro r s'' j hrun
      exact hrun
  | succ k ih =>
      intro n s i hle hok
      have hlt : n.toNat < ngpio.toNat := by omega
      rcases hok 0 (Nat.succ_pos k) with ⟨id, hid⟩
      have hround : RunsOn σ i s (attachRound ngpio n) (.inl (n + 1))
          { ids := Function.update s.ids n.toNat (Int.ofNat id)
            events := s.events ++ [.attached n.toNat (Int.ofNat id)] } (i + 1) := by
        unfold attachRound
        rw [if_pos (UInt16.lt_iff_toNat_lt.mpr hlt)]
        refine runsOn_bind_iff.mpr ⟨.ok (), _, _, runsOn_action_iff.mpr ⟨?_, rfl⟩,
          RunsOn.ret _ _ _⟩
        rw [Nat.add_zero] at hid
        simp only [hid]
      have hsucc := toNat_succ hlt
      rcases ih (n := n + 1)
          (s := { ids := Function.update s.ids n.toNat (Int.ofNat id)
                  events := s.events ++ [.attached n.toNat (Int.ofNat id)] })
          (i := i + 1) (by omega)
          (fun m hm => by
            rcases hok (m + 1) (Nat.succ_lt_succ hm) with ⟨id', hid'⟩
            exact ⟨id', by rw [← hid']; congr 2; omega⟩) with
        ⟨s', n', hn', hattached, hrest⟩
      rw [hsucc] at hattached hn'
      have hhead : s'.ids n.toNat = Int.ofNat id := by
        rw [hattached.frame n.toNat (Or.inl (Nat.lt_succ_self _))]
        exact Function.update_self ..
      refine ⟨s', n', by omega, ⟨?_, ?_, ?_⟩, ?_⟩
      · rw [hattached.events, List.append_assoc, List.singleton_append, ← hhead,
          List.range_succ_eq_map, List.map_cons, List.map_map]
        congr 2
        apply List.map_congr_left
        intro m _
        simp only [Function.comp_apply]
        rw [show n.toNat + 1 + m = n.toNat + m.succ by omega]
      · intro m hm
        cases m with
        | zero =>
            rw [Nat.add_zero, hhead]
            intro heq
            cases heq
        | succ m =>
            rw [show n.toNat + (m + 1) = n.toNat + 1 + m by omega]
            exact hattached.ids m (by omega)
      · intro m hm
        rw [hattached.frame m (by omega)]
        exact Function.update_of_ne (by omega) ..
      · intro r s'' j hrun
        refine runsOn_iterate_iff.mpr ⟨_, _, _, hround, hrest ?_⟩
        rw [show i + 1 + k = i + (k + 1) by omega]
        exact hrun

/-- What the loop under `detach` detaches. -/
def detachEvents (ids : Nat -> Int) (n k : Nat) : List StartupEvent :=
  (List.range k).filterMap fun m =>
    if ids (n + m) ≠ -1 then some (.detached (ids (n + m))) else none

theorem detachEvents_succ (ids : Nat -> Int) (n k : Nat) :
    detachEvents ids n (k + 1) =
      (if ids n ≠ -1 then [.detached (ids n)] else []) ++ detachEvents ids (n + 1) k := by
  unfold detachEvents
  rw [List.range_succ_eq_map, List.filterMap_cons, Nat.add_zero, List.filterMap_map]
  have htail : (fun m => if ids (n + m) ≠ -1 then some (StartupEvent.detached (ids (n + m)))
      else none) ∘ Nat.succ = fun m =>
      if ids (n + 1 + m) ≠ -1 then some (.detached (ids (n + 1 + m))) else none := by
    funext m
    simp only [Function.comp_apply]
    rw [show n + m.succ = n + 1 + m by omega]
  rw [htail]
  by_cases h : ids n ≠ -1
  · rw [if_pos h, if_pos h]
    rfl
  · rw [if_neg h, if_neg h]
    rfl

theorem detachLines_runs {k : Nat} :
    forall {n : UInt16} {s : Startup} (i : Nat), n.toNat + k = ngpio.toNat ->
      exists j, RunsOn σ i s (Prog.iterate (detachRound ngpio) n) ()
        { s with events := s.events ++ detachEvents s.ids n.toNat k } j := by
  induction k with
  | zero =>
      intro n s i hn
      have hround : RunsOn σ i s (detachRound ngpio n) (.inr ()) s i := by
        unfold detachRound
        rw [if_neg fun hlt => by
          have := UInt16.lt_iff_toNat_lt.mp hlt
          omega]
        exact RunsOn.ret _ _ _
      refine ⟨i, runsOn_iterate_iff.mpr ⟨_, _, _, hround, ?_⟩⟩
      simp only [detachEvents, List.range_zero, List.filterMap_nil, List.append_nil]
      exact RunsOn.ret _ _ _
  | succ k ih =>
      intro n s i hn
      have hlt : n.toNat < ngpio.toNat := by omega
      have hsucc := toNat_succ hlt
      have hround : RunsOn σ i s (detachRound ngpio n) (.inl (n + 1))
          (if s.ids n.toNat ≠ -1 then s.log (.detached (s.ids n.toNat)) else s)
          (i + 1) := by
        unfold detachRound
        rw [if_pos (UInt16.lt_iff_toNat_lt.mpr hlt)]
        exact runsOn_bind_iff.mpr ⟨(), _, _, runsOn_modify_iff.mpr ⟨rfl, rfl⟩,
          RunsOn.ret _ _ _⟩
      rw [detachEvents_succ]
      by_cases hid : s.ids n.toNat ≠ -1
      · rw [if_pos hid] at hround ⊢
        rcases ih (s := s.log (.detached (s.ids n.toNat))) (i + 1)
          (by omega : (n + 1).toNat + k = ngpio.toNat) with ⟨j, hrest⟩
        rw [hsucc] at hrest
        refine ⟨j, runsOn_iterate_iff.mpr ⟨_, _, _, hround, ?_⟩⟩
        rw [← List.append_assoc]
        exact hrest
      · rw [if_neg hid] at hround ⊢
        rcases ih (s := s) (i + 1) (by omega : (n + 1).toNat + k = ngpio.toNat) with
          ⟨j, hrest⟩
        rw [hsucc] at hrest
        exact ⟨j, runsOn_iterate_iff.mpr ⟨_, _, _, hround, hrest⟩⟩

end Loops

/-!
## Whole runs
-/

/-- An allocation or the attachment of the chip fails. -/
def FailsEarly (σ : Nat -> StartupEnv) : Prop :=
  (σ 0).alloc ≠ none ∨ (σ 1).alloc ≠ none ∨ (σ 2).alloc ≠ none ∨ (σ 3).alloc ≠ none ∨
    exists f, (σ 5).attach = .error f

/-- Something fails before the dispatch loop. -/
def StartupFails (ngpio : UInt16) (σ : Nat -> StartupEnv) : Prop :=
  FailsEarly σ ∨ (exists n, n < ngpio.toNat ∧ exists f, (σ (6 + n)).attach = .error f) ∨
    (σ (6 + ngpio.toNat)).alloc ≠ none

def blocksAllocated : List StartupEvent :=
  [.allocated .dispatch, .allocated .resmgr, .allocated .attrs, .allocated .ids]

def blocksFreed : List StartupEvent :=
  [.freed .ids, .freed .attrs, .freed .resmgr, .freed .dispatch]

section Events

variable {ids : Nat -> Int} {n k : Nat} {rc : Rc}

/-- Only attached paths. -/
def Attachments (es : List StartupEvent) : Prop :=
  forall e, e ∈ es -> exists m id, e = .attached m id

theorem attachedIds_append (es es' : List StartupEvent) :
    attachedIds (es ++ es') = attachedIds es ++ attachedIds es' :=
  List.filterMap_append

theorem detachedIds_append (es es' : List StartupEvent) :
    detachedIds (es ++ es') = detachedIds es ++ detachedIds es' :=
  List.filterMap_append

theorem Attachments.filterMap_eq_nil {β : Type} {es : List StartupEvent}
    (h : Attachments es) {f : StartupEvent -> Option β}
    (hf : forall m id, f (.attached m id) = none) : es.filterMap f = [] := by
  refine List.filterMap_eq_nil_iff.mpr fun e he => ?_
  rcases h e he with ⟨m, id, rfl⟩
  exact hf m id

theorem Attachments.length {es : List StartupEvent} (h : Attachments es) :
    (attachedIds es).length = es.length := by
  induction es with
  | nil => rfl
  | cons e es ih =>
      rcases h e (List.mem_cons_self ..) with ⟨m, id, rfl⟩
      change (attachedIds es).length + 1 = es.length + 1
      rw [ih fun e he => h e (List.mem_cons_of_mem _ he)]

theorem mem_detachEvents {e : StartupEvent} (h : e ∈ detachEvents ids n k) :
    exists id, e = .detached id := by
  rcases List.mem_filterMap.mp h with ⟨m, _, hm⟩
  split at hm
  · exact ⟨_, (Option.some.inj hm).symm⟩
  · cases hm

theorem detachEvents_filterMap_eq_nil {β : Type} {f : StartupEvent -> Option β}
    (hf : forall id, f (.detached id) = none) :
    (detachEvents ids n k).filterMap f = [] := by
  refine List.filterMap_eq_nil_iff.mpr fun e he => ?_
  rcases mem_detachEvents he with ⟨id, rfl⟩
  exact hf id

theorem length_detachEvents_le (h : forall m, k <= m -> m < n -> ids m = -1) :
    (detachEvents ids 0 n).length <= k := by
  unfold detachEvents
  rw [List.length_filterMap_eq_countP, List.countP_eq_length_filter]
  have hsub : (List.range n).filter (fun m => (if ids (0 + m) ≠ -1 then
      some (StartupEvent.detached (ids (0 + m))) else none).isSome) ⊆ List.range k := by
    intro m hm
    rcases List.mem_filter.mp hm with ⟨hrange, hsome⟩
    by_contra hge
    have hid := h m (by simpa using hge) (List.mem_range.mp hrange)
    simp [hid] at hsome
  have hle := (List.Nodup.subperm (List.Nodup.filter _ List.nodup_range) hsub).length_le
  rwa [List.length_range] at hle

theorem length_detachedIds_le (es : List StartupEvent) :
    (detachedIds es).length <= es.length :=
  List.length_filterMap_le _ _

/-- What is allocated, attached, detached and freed, in this order. -/
def unwinding (atts : List StartupEvent) (ids : Nat -> Int) (n : Nat) : List StartupEvent :=
  blocksAllocated ++ atts ++ detachEvents ids 0 n ++ blocksFreed

/-- The labels free every block; what they detach is compared with what was attached. -/
theorem unwound_unwinding_iff {atts : List StartupEvent} (hatts : Attachments atts) :
    Unwound rc (unwinding atts ids n) <->
      rc ≠ .EOK ∧ (detachedIds (detachEvents ids 0 n)).Perm (attachedIds atts) := by
  have hdetached : detachedIds (unwinding atts ids n) =
      detachedIds (detachEvents ids 0 n) := by
    rw [unwinding, detachedIds_append, detachedIds_append, detachedIds_append,
      show detachedIds atts = [] from hatts.filterMap_eq_nil fun _ _ => rfl]
    exact List.append_nil _
  have hattached : attachedIds (unwinding atts ids n) = attachedIds atts := by
    rw [unwinding, attachedIds_append, attachedIds_append, attachedIds_append,
      show attachedIds (detachEvents ids 0 n) = [] from
        detachEvents_filterMap_eq_nil fun _ => rfl, List.append_nil]
    exact List.append_nil _
  have halloc : allocatedBlocks (unwinding atts ids n) = [.dispatch, .resmgr, .attrs, .ids] := by
    unfold unwinding allocatedBlocks
    rw [List.filterMap_append, List.filterMap_append, List.filterMap_append,
      hatts.filterMap_eq_nil fun _ _ => rfl, detachEvents_filterMap_eq_nil fun _ => rfl]
    rfl
  have hfreed : freedBlocks (unwinding atts ids n) = [.ids, .attrs, .resmgr, .dispatch] := by
    unfold unwinding freedBlocks
    rw [List.filterMap_append, List.filterMap_append, List.filterMap_append,
      hatts.filterMap_eq_nil fun _ _ => rfl, detachEvents_filterMap_eq_nil fun _ => rfl]
    rfl
  constructor
  · intro h
    refine ⟨h.failed, ?_⟩
    rw [← hdetached, ← hattached]
    exact h.detached
  · rintro ⟨hrc, hperm⟩
    refine ⟨hrc, ?_, ?_⟩
    · rw [hdetached, hattached]
      exact hperm
    · rw [halloc, hfreed]
      decide

theorem not_unwound {id : Int} {lines : List StartupEvent}
    (hlines : Attachments lines) (hk : lines.length = k)
    (hids : forall m, k <= m -> m < n -> ids m = -1) :
    ¬ Unwound rc (unwinding (.attached n id :: lines) ids n) := by
  have hatts : Attachments (.attached n id :: lines) := by
    intro e he
    rcases List.mem_cons.mp he with rfl | he
    · exact ⟨n, id, rfl⟩
    · exact hlines e he
  rw [unwound_unwinding_iff hatts]
  rintro ⟨_, hperm⟩
  have hlength := hperm.length_eq
  rw [hatts.length, List.length_cons, hk] at hlength
  have h1 := length_detachedIds_le (detachEvents ids 0 n)
  have h2 := length_detachEvents_le hids
  omega

end Events

section Runs

variable {σ : Nat -> StartupEnv} {ngpio : UInt16}

theorem release_runs (b : ResmgrBlock) (s : Startup) (i : Nat) :
    RunsOn σ i s (release b) () (s.log (.freed b)) (i + 1) :=
  runsOn_modify_iff.mpr ⟨rfl, rfl⟩

theorem freeDpp_runs (rc : Rc) (s : Startup) (i : Nat) :
    exists j, RunsOn σ i s (freeDpp rc) rc (s.log (.freed .dispatch)) j :=
  ⟨_, runsOn_bind_iff.mpr ⟨_, _, _, release_runs _ _ _, RunsOn.ret _ _ _⟩⟩

theorem freeResmgr_runs (rc : Rc) (s : Startup) (i : Nat) :
    exists j, RunsOn σ i s (freeResmgr rc) rc
      ((s.log (.freed .resmgr)).log (.freed .dispatch)) j := by
  rcases freeDpp_runs (σ := σ) rc (s.log (.freed .resmgr)) (i + 1) with ⟨j, hrun⟩
  exact ⟨j, runsOn_bind_iff.mpr ⟨_, _, _, release_runs _ _ _, hrun⟩⟩

theorem freeAttrs_runs (rc : Rc) (s : Startup) (i : Nat) :
    exists j, RunsOn σ i s (freeAttrs rc) rc
      (((s.log (.freed .attrs)).log (.freed .resmgr)).log (.freed .dispatch)) j := by
  rcases freeResmgr_runs (σ := σ) rc (s.log (.freed .attrs)) (i + 1) with ⟨j, hrun⟩
  exact ⟨j, runsOn_bind_iff.mpr ⟨_, _, _, release_runs _ _ _, hrun⟩⟩

theorem detach_runs (ngpio : UInt16) (rc : Rc) (s : Startup) (i : Nat) :
    exists j, RunsOn σ i s (detach ngpio rc) rc
      { s with events := s.events ++ detachEvents s.ids 0 ngpio.toNat ++ blocksFreed } j := by
  rcases detachLines_runs (σ := σ) (n := 0) (s := s) i (Nat.zero_add ngpio.toNat) with
    ⟨k, hloop⟩
  rcases freeAttrs_runs (σ := σ) rc
    ({ s with events := s.events ++ detachEvents s.ids 0 ngpio.toNat }.log (.freed .ids))
    (k + 1) with ⟨j, hrun⟩
  refine ⟨j, runsOn_bind_iff.mpr ⟨_, _, _, hloop,
    runsOn_bind_iff.mpr ⟨_, _, _, release_runs _ _ _, ?_⟩⟩⟩
  have hstate : (((({ s with events := s.events ++ detachEvents s.ids 0 ngpio.toNat }.log
      (.freed .ids)).log (.freed .attrs)).log (.freed .resmgr)).log (.freed .dispatch)) =
      { s with events := s.events ++ detachEvents s.ids 0 ngpio.toNat ++ blocksFreed } := by
    simp [Startup.log, blocksFreed]
  rw [← hstate]
  exact hrun

theorem allocate_ok (b : ResmgrBlock) (s : Startup) {i : Nat} (h : (σ i).alloc = none) :
    RunsOn σ i s (allocate b) (.ok ()) (s.log (.allocated b)) (i + 1) :=
  runsOn_action_iff.mpr ⟨by simp only [h], rfl⟩

theorem allocate_error (b : ResmgrBlock) (s : Startup) {i : Nat} {f : Failure}
    (h : (σ i).alloc = some f) :
    RunsOn σ i s (allocate b) (.error f.val) s (i + 1) :=
  runsOn_action_iff.mpr ⟨by simp only [h], rfl⟩

/-- The state once everything is allocated. -/
def prepared (ngpio : UInt16) : Startup where
  ids n := if n < ngpio.toNat then -1 else 0
  events := blocksAllocated

theorem resmgrRun_prepared {ids : Nat -> Int} {rc : Rc} {s' : Startup} {j : Nat}
    (h0 : (σ 0).alloc = none) (h1 : (σ 1).alloc = none) (h2 : (σ 2).alloc = none)
    (h3 : (σ 3).alloc = none)
    (hrun : RunsOn σ 5 (prepared ngpio) (attachPaths ngpio) rc s' j) :
    RunsOn σ 0 ⟨ids, []⟩ (resmgrRun ngpio) rc s' j :=
  runsOn_bind_iff.mpr ⟨_, _, _, allocate_ok _ _ h0,
    runsOn_bind_iff.mpr ⟨_, _, _, allocate_ok _ _ h1,
      runsOn_bind_iff.mpr ⟨_, _, _, allocate_ok _ _ h2,
        runsOn_bind_iff.mpr ⟨_, _, _, allocate_ok _ _ h3,
          runsOn_bind_iff.mpr ⟨(), _, _, runsOn_modify_iff.mpr ⟨rfl, rfl⟩, hrun⟩⟩⟩⟩⟩

theorem resmgrRun_alloc_fails (ngpio : UInt16) (ids : Nat -> Int)
    (h : (σ 0).alloc ≠ none ∨ (σ 1).alloc ≠ none ∨ (σ 2).alloc ≠ none ∨
      (σ 3).alloc ≠ none) :
    exists rc s' j, RunsOn σ 0 ⟨ids, []⟩ (resmgrRun ngpio) rc s' j ∧
      Unwound rc s'.events := by
  cases h0 : (σ 0).alloc with
  | some f =>
      exact ⟨_, _, _, runsOn_bind_iff.mpr ⟨_, _, _, allocate_error _ _ h0,
        RunsOn.ret _ _ _⟩, f.property, List.Perm.refl _, List.Perm.refl _⟩
  | none =>
      cases h1 : (σ 1).alloc with
      | some f =>
          rcases freeDpp_runs (σ := σ) f.val (Startup.mk ids [.allocated .dispatch]) 2 with
            ⟨j, hfree⟩
          exact ⟨_, _, _, runsOn_bind_iff.mpr ⟨_, _, _, allocate_ok _ _ h0,
            runsOn_bind_iff.mpr ⟨_, _, _, allocate_error _ _ h1, hfree⟩⟩,
            f.property, List.Perm.refl [], List.reverse_perm [ResmgrBlock.dispatch]⟩
      | none =>
          cases h2 : (σ 2).alloc with
          | some f =>
              rcases freeResmgr_runs (σ := σ) f.val
                (Startup.mk ids [.allocated .dispatch, .allocated .resmgr]) 3 with
                ⟨j, hfree⟩
              exact ⟨_, _, _, runsOn_bind_iff.mpr ⟨_, _, _, allocate_ok _ _ h0,
                runsOn_bind_iff.mpr ⟨_, _, _, allocate_ok _ _ h1,
                  runsOn_bind_iff.mpr ⟨_, _, _, allocate_error _ _ h2, hfree⟩⟩⟩,
                f.property, List.Perm.refl [],
                List.reverse_perm [ResmgrBlock.dispatch, .resmgr]⟩
          | none =>
              cases h3 : (σ 3).alloc with
              | some f =>
                  rcases freeAttrs_runs (σ := σ) f.val
                    (Startup.mk ids [.allocated .dispatch, .allocated .resmgr,
                      .allocated .attrs]) 4 with ⟨j, hfree⟩
                  exact ⟨_, _, _, runsOn_bind_iff.mpr ⟨_, _, _, allocate_ok _ _ h0,
                    runsOn_bind_iff.mpr ⟨_, _, _, allocate_ok _ _ h1,
                      runsOn_bind_iff.mpr ⟨_, _, _, allocate_ok _ _ h2,
                        runsOn_bind_iff.mpr ⟨_, _, _, allocate_error _ _ h3, hfree⟩⟩⟩⟩,
                    f.property, List.Perm.refl [],
                    List.reverse_perm [ResmgrBlock.dispatch, .resmgr, .attrs]⟩
              | none => simp [h0, h1, h2, h3] at h

theorem attachPaths_chip_fails (ngpio : UInt16) {f : Failure} (h : (σ 5).attach = .error f) :
    exists rc s' j, RunsOn σ 5 (prepared ngpio) (attachPaths ngpio) rc s' j ∧
      Unwound rc s'.events := by
  have hchip : RunsOn σ 5 (prepared ngpio) (attachPath ngpio.toNat) (.error f.val)
      { prepared ngpio with
        ids := Function.update (prepared ngpio).ids ngpio.toNat (-1) } 6 :=
    runsOn_action_iff.mpr ⟨by simp only [h], rfl⟩
  rcases detach_runs (σ := σ) ngpio f.val { prepared ngpio with
    ids := Function.update (prepared ngpio).ids ngpio.toNat (-1) } 6 with ⟨j, hdetach⟩
  refine ⟨_, _, _, runsOn_bind_iff.mpr ⟨_, _, _, hchip, hdetach⟩, ?_⟩
  have hnone : detachEvents (Function.update (prepared ngpio).ids ngpio.toNat (-1)) 0
      ngpio.toNat = [] := by
    refine List.length_eq_zero_iff.mp (Nat.le_zero.mp
      (length_detachEvents_le fun m _ hm => ?_))
    rw [Function.update_of_ne (Nat.ne_of_lt hm)]
    exact if_pos hm
  have hatts : Attachments [] := fun e he => by cases he
  change Unwound f.val (unwinding [] _ _)
  rw [unwound_unwinding_iff hatts, hnone]
  exact ⟨f.property, List.Perm.refl _⟩

theorem attached_prefix (σ : Nat -> StartupEnv) (i n : Nat) :
    exists k, k <= n ∧ (forall m, m < k -> exists id, (σ (i + m)).attach = .ok id) ∧
      (k < n -> exists f, (σ (i + k)).attach = .error f) := by
  induction n with
  | zero => exact ⟨0, Nat.le_refl 0, fun m hm => absurd hm (Nat.not_lt_zero m), fun h =>
      absurd h (Nat.lt_irrefl 0)⟩
  | succ n ih =>
      rcases ih with ⟨k, hk, hok, hfail⟩
      by_cases hlt : k < n
      · exact ⟨k, Nat.le_succ_of_le hk, hok, fun _ => hfail hlt⟩
      · have heq : k = n := Nat.le_antisymm hk (Nat.le_of_not_lt hlt)
        subst heq
        cases hlast : (σ (i + k)).attach with
        | error f => exact ⟨k, Nat.le_succ k, hok, fun _ => ⟨f, hlast⟩⟩
        | ok id =>
            refine ⟨k + 1, Nat.le_refl _, fun m hm => ?_, fun h =>
              absurd h (Nat.lt_irrefl _)⟩
            rcases Nat.lt_succ_iff_lt_or_eq.mp hm with hm | rfl
            · exact hok m hm
            · exact ⟨id, hlast⟩

/-- The state once the chip is attached. -/
def chipAttached (ngpio : UInt16) (id : Nat) : Startup where
  ids := Function.update (prepared ngpio).ids ngpio.toNat (Int.ofNat id)
  events := blocksAllocated ++ [.attached ngpio.toNat (Int.ofNat id)]

theorem attachPath_chip {id : Nat} (hid : (σ 5).attach = .ok id) :
    RunsOn σ 5 (prepared ngpio) (attachPath ngpio.toNat) (.ok ()) (chipAttached ngpio id) 6 :=
  runsOn_action_iff.mpr ⟨by simp only [hid]; rfl, rfl⟩

/-- The chip and the lines below `k` are attached, and nothing else. -/
structure AttachedUpTo (ngpio : UInt16) (id k : Nat) (s : Startup) : Prop where
  events : exists lines, Attachments lines ∧ lines.length = k ∧
    s.events = blocksAllocated ++ (.attached ngpio.toNat (Int.ofNat id) :: lines)
  free : forall m, k <= m -> m < ngpio.toNat -> s.ids m = -1

theorem attachLines_upTo (id : Nat) {k : Nat} (hk : k <= ngpio.toNat)
    (hok : forall m, m < k -> exists id, (σ (6 + m)).attach = .ok id) :
    exists s1 n1, n1.toNat = k ∧ AttachedUpTo ngpio id k s1 ∧
      forall {r : Except Rc Unit} {s'' : Startup} {j : Nat},
        RunsOn σ (6 + k) s1 (Prog.iterate (attachRound ngpio) n1) r s'' j ->
        RunsOn σ 6 (chipAttached ngpio id) (Prog.iterate (attachRound ngpio) 0) r s'' j := by
  have hzero : (0 : UInt16).toNat = 0 := rfl
  have hle : (0 : UInt16).toNat + k <= ngpio.toNat := by omega
  rcases attachLines_runs (σ := σ) (s := chipAttached ngpio id) (i := 6) hle hok with
    ⟨s1, n1, hn1, hlines, hloop⟩
  refine ⟨s1, n1, by omega, ⟨?_, ?_⟩, hloop⟩
  · refine ⟨_, ?_, ?_, hlines.events.trans (List.append_assoc ..)⟩
    · intro e he
      rcases List.mem_map.mp he with ⟨m, _, rfl⟩
      exact ⟨_, _, rfl⟩
    · simp
  · intro m hkm hm
    rw [hlines.frame m (Or.inr (by omega))]
    change Function.update (prepared ngpio).ids ngpio.toNat (Int.ofNat id) m = -1
    rw [Function.update_of_ne (Nat.ne_of_lt hm)]
    exact if_pos hm

theorem AttachedUpTo.not_unwound {id k : Nat} {s : Startup} {rc : Rc}
    (h : AttachedUpTo ngpio id k s) {ids : Nat -> Int}
    (hids : forall m, k <= m -> m < ngpio.toNat -> ids m = -1) :
    ¬ Unwound rc (s.events ++ detachEvents ids 0 ngpio.toNat ++ blocksFreed) := by
  rcases h.events with ⟨lines, hlines, hlength, hevents⟩
  rw [hevents]
  exact QnxVirtio.not_unwound hlines hlength hids

theorem attachPaths_line_fails {id k : Nat} {f : Failure} (hid : (σ 5).attach = .ok id)
    (hk : k < ngpio.toNat)
    (hok : forall m, m < k -> exists id, (σ (6 + m)).attach = .ok id)
    (hf : (σ (6 + k)).attach = .error f) :
    exists rc s' j, RunsOn σ 5 (prepared ngpio) (attachPaths ngpio) rc s' j ∧
      ¬ Unwound rc s'.events := by
  rcases attachLines_upTo id (Nat.le_of_lt hk) hok with ⟨s1, n1, hn1, hupTo, hloop⟩
  have hround : RunsOn σ (6 + k) s1 (attachRound ngpio n1) (.inr (.error f.val))
      { s1 with ids := Function.update s1.ids n1.toNat (-1) } (6 + k + 1) := by
    unfold attachRound
    rw [if_pos (UInt16.lt_iff_toNat_lt.mpr (by omega))]
    exact runsOn_bind_iff.mpr ⟨.error f.val, _, _,
      runsOn_action_iff.mpr ⟨by simp only [hf], rfl⟩, RunsOn.ret _ _ _⟩
  have hattach := hloop (runsOn_iterate_iff.mpr ⟨_, _, _, hround, RunsOn.ret _ _ _⟩)
  rcases detach_runs (σ := σ) ngpio f.val
    { s1 with ids := Function.update s1.ids n1.toNat (-1) } (6 + k + 1) with ⟨j, hdetach⟩
  refine ⟨_, _, _, runsOn_bind_iff.mpr ⟨_, _, _, attachPath_chip hid,
    runsOn_bind_iff.mpr ⟨_, _, _, hattach, hdetach⟩⟩, ?_⟩
  refine hupTo.not_unwound fun m hkm hm => ?_
  by_cases hmk : m = n1.toNat
  · rw [hmk]
    exact Function.update_self ..
  · exact (Function.update_of_ne hmk ..).trans (hupTo.free m hkm hm)

theorem attachPaths_context_fails {id : Nat} {f : Failure} (hid : (σ 5).attach = .ok id)
    (hok : forall m, m < ngpio.toNat -> exists id, (σ (6 + m)).attach = .ok id)
    (hf : (σ (6 + ngpio.toNat)).alloc = some f) :
    exists rc s' j, RunsOn σ 5 (prepared ngpio) (attachPaths ngpio) rc s' j ∧
      ¬ Unwound rc s'.events := by
  rcases attachLines_upTo id (Nat.le_refl _) hok with ⟨s1, n1, hn1, hupTo, hloop⟩
  have hround : RunsOn σ (6 + ngpio.toNat) s1 (attachRound ngpio n1) (.inr (.ok ())) s1
      (6 + ngpio.toNat) := by
    unfold attachRound
    rw [if_neg fun hlt => by
      have := UInt16.lt_iff_toNat_lt.mp hlt
      omega]
    exact RunsOn.ret _ _ _
  have hattach := hloop (runsOn_iterate_iff.mpr ⟨_, _, _, hround, RunsOn.ret _ _ _⟩)
  rcases detach_runs (σ := σ) ngpio f.val s1 (6 + ngpio.toNat + 1) with ⟨j, hdetach⟩
  exact ⟨_, _, _, runsOn_bind_iff.mpr ⟨_, _, _, attachPath_chip hid,
    runsOn_bind_iff.mpr ⟨_, _, _, hattach,
      runsOn_bind_iff.mpr ⟨_, _, _, allocate_error _ _ hf, hdetach⟩⟩⟩,
    hupTo.not_unwound hupTo.free⟩

theorem attachPaths_late (ngpio : UInt16) {id : Nat} (hid : (σ 5).attach = .ok id)
    (h : (exists n, n < ngpio.toNat ∧ exists f, (σ (6 + n)).attach = .error f) ∨
      (σ (6 + ngpio.toNat)).alloc ≠ none) :
    exists rc s' j, RunsOn σ 5 (prepared ngpio) (attachPaths ngpio) rc s' j ∧
      ¬ Unwound rc s'.events := by
  rcases attached_prefix σ 6 ngpio.toNat with ⟨k, hk, hok, hfail⟩
  by_cases hlt : k < ngpio.toNat
  · rcases hfail hlt with ⟨f, hf⟩
    exact attachPaths_line_fails hid hlt hok hf
  · have heq : k = ngpio.toNat := Nat.le_antisymm hk (Nat.le_of_not_lt hlt)
    rw [heq] at hok
    rcases h with ⟨n, hn, f, hf⟩ | h
    · rcases hok n hn with ⟨id', hid'⟩
      rw [hf] at hid'
      cases hid'
    · rcases Option.ne_none_iff_exists'.mp h with ⟨f, hf⟩
      exact attachPaths_context_fails hid hok hf

/-- Whatever fails before the dispatch loop, the start-up returns; it has unwound
completely exactly when the chip was not attached yet. -/
theorem resmgr_run_unwinds_iff (ngpio : UInt16) (σ : Nat -> StartupEnv) (ids : Nat -> Int)
    (hfails : StartupFails ngpio σ) :
    exists rc s' j, RunsOn σ 0 ⟨ids, []⟩ (resmgrRun ngpio) rc s' j ∧
      (Unwound rc s'.events <-> FailsEarly σ) := by
  by_cases hearly : (σ 0).alloc ≠ none ∨ (σ 1).alloc ≠ none ∨ (σ 2).alloc ≠ none ∨
      (σ 3).alloc ≠ none
  · rcases resmgrRun_alloc_fails ngpio ids hearly with
      ⟨rc, s', j, hrun, hunwound⟩
    refine ⟨rc, s', j, hrun, fun _ => ?_, fun _ => hunwound⟩
    unfold FailsEarly
    tauto
  · simp only [not_or, not_not] at hearly
    rcases hearly with ⟨h0, h1, h2, h3⟩
    cases hid : (σ 5).attach with
    | error f =>
        rcases attachPaths_chip_fails ngpio hid with ⟨rc, s', j, hrun, hunwound⟩
        exact ⟨rc, s', j, resmgrRun_prepared h0 h1 h2 h3 hrun,
          fun _ => Or.inr (Or.inr (Or.inr (Or.inr ⟨f, hid⟩))), fun _ => hunwound⟩
    | ok id =>
        have hnot : ¬ FailsEarly σ := by
          unfold FailsEarly
          simp [h0, h1, h2, h3, hid]
        rcases attachPaths_late ngpio hid (hfails.resolve_left hnot) with
          ⟨rc, s', j, hrun, hleft⟩
        exact ⟨rc, s', j, resmgrRun_prepared h0 h1 h2 h3 hrun,
          fun h => absurd h hleft, fun h => absurd h hnot⟩

end Runs

/-- The path of the chip is taken. -/
def chipTaken (i : Nat) : StartupEnv where
  attach := if i = 5 then .error Failure.EINVAL else .ok i

theorem resmgr_run_unwinds_chipTaken :
    exists rc s' j, RunsOn chipTaken 0 ⟨fun _ => 0, []⟩ (resmgrRun 2) rc s' j ∧
      Unwound rc s'.events := by
  have hearly : FailsEarly chipTaken := Or.inr (Or.inr (Or.inr (Or.inr ⟨_, rfl⟩)))
  rcases resmgr_run_unwinds_iff 2 chipTaken (fun _ => 0) (Or.inl hearly) with
    ⟨rc, s', j, hrun, hiff⟩
  exact ⟨rc, s', j, hrun, hiff.mpr hearly⟩

/-- The path of the first line is taken. -/
def lineTaken (i : Nat) : StartupEnv where
  attach := if i = 6 then .error Failure.EINVAL else .ok i

/-- The chip is still attached after the start-up failed. -/
theorem resmgr_run_leaves_chip :
    ¬ forall (ngpio : UInt16) (σ : Nat -> StartupEnv) (ids : Nat -> Int) (rc : Rc)
        (s' : Startup) (j : Nat), StartupFails ngpio σ ->
      RunsOn σ 0 ⟨ids, []⟩ (resmgrRun ngpio) rc s' j -> Unwound rc s'.events := by
  intro hclaim
  have hline : exists n, n < (1 : UInt16).toNat ∧ exists f,
      (lineTaken (6 + n)).attach = .error f := ⟨0, by decide, _, rfl⟩
  rcases attachPaths_late 1 (rfl : (lineTaken 5).attach = .ok 5)
    (Or.inl hline) with ⟨rc, s', j, hrun, hleft⟩
  exact hleft (hclaim 1 lineTaken (fun _ => 0) rc s' j (Or.inr (Or.inl hline))
    (resmgrRun_prepared rfl rfl rfl rfl hrun))

end QnxVirtio
