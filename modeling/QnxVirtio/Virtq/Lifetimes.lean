import Mathlib.Algebra.BigOperators.Group.List.Basic
import QnxVirtio.Virtq.Tenants

/-!
# The queues of a process

A process creates queues, calls the functions of `virtq.h` on them in any order, and
destroys them.  Whatever fails on the way, what it has is what its queues and their buffers
own, next to what it had before and what the failed calls left behind.
-/

namespace QnxVirtio

open Foundation Prog Resources

/-!
## Runs
-/

structure Process where
  host : Host
  tenants : List Tenant

/-- What a process did, as far as it can leave something behind. -/
inductive ProcessEvent
  | created
  | refused (size : Nat) (legacy : Bool)
  | called
  | destroyed (t : Tenant) (rc : Rc)

/-- A queue is not used again after `virtq_destroy`. -/
inductive ProcessStep (c : Process) : ProcessEvent -> Process -> Prop
  | created {size : Nat} {legacy : Bool} {rc : Rc} {obj : VirtqObject} {h' : Host} :
      Runs (fun _ => True) c.host (virtqCreate size legacy) (rc, some obj) h' ->
      ProcessStep c .created ⟨h', ⟨obj, []⟩ :: c.tenants⟩
  | refused {size : Nat} {legacy : Bool} {rc : Rc} {h' : Host} :
      Runs (fun _ => True) c.host (virtqCreate size legacy) (rc, none) h' ->
      ProcessStep c (.refused size legacy) ⟨h', c.tenants⟩
  | called {before after : List Tenant} {t t' : Tenant} {mem' : Memory} :
      c.tenants = before ++ t :: after -> TenantStep t c.host.mem t' mem' ->
      ProcessStep c .called ⟨{ c.host with mem := mem' }, before ++ t' :: after⟩
  | destroyed {before after : List Tenant} {t : Tenant} {rc : Rc} {h' : Host} :
      c.tenants = before ++ t :: after ->
      Runs (fun _ => True) c.host (virtqDestroy t.obj) rc h' ->
      ProcessStep c (.destroyed t rc) ⟨h', before ++ after⟩

inductive ProcessRun (c₀ : Process) : Process -> List ProcessEvent -> Prop
  | start : ProcessRun c₀ c₀ []
  | step {c c' : Process} {events : List ProcessEvent} {event : ProcessEvent} :
      ProcessRun c₀ c events -> ProcessStep c event c' ->
      ProcessRun c₀ c' (event :: events)

/-- What an event leaves without an owner: a failed creation rings or the free list, a
destroyed queue the buffers of descriptors that were not freed, and one whose destruction
failed also the blocks that were to be freed after the lock. -/
inductive Leaves (pagesize : UInt64) : ProcessEvent -> Resources -> Prop
  | created : Leaves pagesize .created 0
  | refused {size : Nat} {legacy : Bool} {left : Resources} :
      LeftByCreate legacy (UInt16.ofNat size) pagesize left ->
      Leaves pagesize (.refused size legacy) left
  | called : Leaves pagesize .called 0
  | destroyed (t : Tenant) : Leaves pagesize (.destroyed t .EOK) (ofMaps t.buffers)
  | locked (t : Tenant) {rc : Rc} : rc ≠ .EOK ->
      Leaves pagesize (.destroyed t rc) (ofMaps t.buffers + ofBlock t.obj.block)
  | freeDescsLocked (t : Tenant) {rc : Rc} : rc ≠ .EOK ->
      Leaves pagesize (.destroyed t rc)
        (ofMaps t.buffers + (ofBlock t.obj.fifoBlock + ofBlock t.obj.block))

/-- The account of a process next to what nobody owns. -/
structure Accounted (pagesize : UInt64) (other : Resources) (c : Process) : Prop where
  size : PageSize pagesize
  page : c.host.pagesize = pagesize
  total : c.host.resources = (c.tenants.map (Tenant.resources pagesize)).sum + other
  sound : forall t, t ∈ c.tenants -> t.Sound

theorem Host.resources_eq_ofMaps_iff {h : Host} {maps : List Mapping} {r : Resources} :
    h.resources = ofMaps maps + r <->
      h.mem.maps.Perm (maps ++ r.1.toList) ∧ (h.heap : Multiset Nat) = r.2 := by
  rw [Prod.ext_iff, ← Multiset.coe_eq_coe, ← Multiset.coe_add, Multiset.coe_toList]
  change _ ∧ (h.heap : Multiset Nat) = 0 + r.2 <-> _
  rw [zero_add]
  rfl

namespace Accounted

variable {pagesize : UInt64} {other : Resources} {c : Process} {before after : List Tenant}
  {t : Tenant} {h' : Host} {rc : Rc}

theorem focus (h : Accounted pagesize other c) (hc : c.tenants = before ++ t :: after) :
    c.host.resources = t.resources pagesize +
      (((before ++ after).map (Tenant.resources pagesize)).sum + other) := by
  rw [h.total, hc]
  simp only [List.map_append, List.map_cons, List.sum_append, List.sum_cons]
  ac_rfl

theorem created (h : Accounted pagesize other c) {size : Nat} {legacy : Bool}
    {obj : VirtqObject}
    (hrun : Runs (fun _ => True) c.host (virtqCreate size legacy) (rc, some obj) h') :
    Accounted pagesize other ⟨h', ⟨obj, []⟩ :: c.tenants⟩ := by
  have hcreate : HostAccounts (fun _ => True) pagesize 0 (virtqCreate size legacy)
      (CreateOutcome size legacy pagesize 0) := virtqCreate_accounts h.size
  rcases hcreate c.host.resources _ _ _ h.page (zero_add _).symm hrun with
    ⟨hpage, own', htotal, hown⟩
  cases hown
  constructor
  · exact h.size
  · exact hpage
  · rw [htotal, h.total, List.map_cons, List.sum_cons]
    change _ = obj.resources pagesize + ofMaps [] + _ + other
    rw [ofMaps_nil]
    ac_rfl
  · intro t ht
    rcases List.mem_cons.mp ht with rfl | ht
    · exact ⟨h'.mem, _, (Conserved.fresh (virtqCreate_fresh hrun).2 h'.mem).held⟩
    · exact h.sound t ht

theorem refused (h : Accounted pagesize other c) {size : Nat} {legacy : Bool}
    (hrun : Runs (fun _ => True) c.host (virtqCreate size legacy) (rc, none) h') :
    exists left, Leaves pagesize (.refused size legacy) left ∧
      Accounted pagesize (left + other) ⟨h', c.tenants⟩ := by
  have hcreate : HostAccounts (fun _ => True) pagesize 0 (virtqCreate size legacy)
      (CreateOutcome size legacy pagesize 0) := virtqCreate_accounts h.size
  rcases hcreate c.host.resources _ _ _ h.page (zero_add _).symm hrun with
    ⟨hpage, own', htotal, left, hleft, hown⟩
  refine ⟨left, Leaves.refused hleft, h.size, hpage, ?_, h.sound⟩
  rw [htotal, hown, h.total]
  ac_rfl

theorem called (h : Accounted pagesize other c) (hc : c.tenants = before ++ t :: after)
    {t' : Tenant} {mem' : Memory} (hstep : TenantStep t c.host.mem t' mem') :
    Accounted pagesize other ⟨{ c.host with mem := mem' }, before ++ t' :: after⟩ := by
  have hsound : t.Sound := h.sound t (by rw [hc]; exact List.mem_append_cons_self)
  have hfocus : c.host.resources = ofMaps t.buffers + (t.obj.resources pagesize +
      (((before ++ after).map (Tenant.resources pagesize)).sum + other)) := by
    rw [h.focus hc]
    unfold Tenant.resources
    ac_rfl
  rcases Host.resources_eq_ofMaps_iff.mp hfocus with ⟨hmaps, hheap⟩
  rcases hstep.keeps (hsound.held hmaps) with ⟨hheld, hobj⟩
  constructor
  · exact h.size
  · exact h.page
  · have htotal : ({ c.host with mem := mem' } : Host).resources = ofMaps t'.buffers +
        (t.obj.resources pagesize +
          (((before ++ after).map (Tenant.resources pagesize)).sum + other)) :=
      Host.resources_eq_ofMaps_iff.mpr ⟨hheld.maps, hheap⟩
    rw [htotal, ← hobj]
    simp only [List.map_append, List.map_cons, List.sum_append, List.sum_cons]
    unfold Tenant.resources
    ac_rfl
  · intro s hs
    rcases List.mem_append.mp hs with hs | hs
    · exact h.sound s (by rw [hc]; exact List.mem_append_left _ hs)
    · rcases List.mem_cons.mp hs with rfl | hs
      · exact ⟨mem', _, hheld⟩
      · exact h.sound s (by rw [hc]; exact List.mem_append_right _ (List.mem_cons_of_mem _ hs))

theorem destroyed (h : Accounted pagesize other c) (hc : c.tenants = before ++ t :: after)
    (hrun : Runs (fun _ => True) c.host (virtqDestroy t.obj) rc h') :
    exists left, Leaves pagesize (.destroyed t rc) left ∧
      Accounted pagesize (left + other) ⟨h', before ++ after⟩ := by
  have hsound : forall s, s ∈ before ++ after -> s.Sound := by
    intro s hs
    refine h.sound s ?_
    rw [hc]
    exact List.mem_append.mpr ((List.mem_append.mp hs).imp_right (List.mem_cons_of_mem _))
  have hfocus : c.host.resources = t.obj.resources pagesize + 0 + (ofMaps t.buffers +
      (((before ++ after).map (Tenant.resources pagesize)).sum + other)) := by
    rw [h.focus hc]
    unfold Tenant.resources
    rw [add_zero]
    ac_rfl
  rcases virtqDestroy_accounts t.obj _ _ _ _ h.page hfocus hrun with
    ⟨hpage, own', htotal, hown⟩
  rcases hown with ⟨rfl, rfl⟩ | ⟨hrc, rfl | rfl⟩
  · refine ⟨_, Leaves.destroyed t, h.size, hpage, ?_, hsound⟩
    rw [htotal, zero_add]
    ac_rfl
  · refine ⟨_, Leaves.locked t hrc, h.size, hpage, ?_, hsound⟩
    rw [htotal, add_zero]
    ac_rfl
  · refine ⟨_, Leaves.freeDescsLocked t hrc, h.size, hpage, ?_, hsound⟩
    rw [htotal, add_zero]
    ac_rfl

theorem step (h : Accounted pagesize other c) {c' : Process} {event : ProcessEvent}
    (hstep : ProcessStep c event c') :
    exists left, Leaves pagesize event left ∧ Accounted pagesize (left + other) c' := by
  cases hstep with
  | created hrun =>
      exact ⟨0, Leaves.created, by rw [zero_add]; exact h.created hrun⟩
  | refused hrun => exact h.refused hrun
  | called hc hcall =>
      exact ⟨0, Leaves.called, by rw [zero_add]; exact h.called hc hcall⟩
  | destroyed hc hrun => exact h.destroyed hc hrun

theorem run {c₀ : Process} {events : List ProcessEvent} (h : Accounted pagesize other c₀)
    (hrun : ProcessRun c₀ c events) :
    exists lefts, List.Forall₂ (Leaves pagesize) events lefts ∧
      Accounted pagesize (lefts.sum + other) c := by
  induction hrun with
  | start => exact ⟨[], List.Forall₂.nil, by rw [List.sum_nil, zero_add]; exact h⟩
  | step _ hstep ih =>
      rcases ih with ⟨lefts, hleft, haccount⟩
      rcases haccount.step hstep with ⟨left, hnew, haccount'⟩
      refine ⟨left :: lefts, List.Forall₂.cons hnew hleft, ?_⟩
      rw [List.sum_cons, add_assoc]
      exact haccount'

end Accounted

/-- Events that leave nothing. -/
def ProcessEvent.Clean : ProcessEvent -> Prop
  | .created => True
  | .refused _ _ => False
  | .called => True
  | .destroyed t rc => rc = .EOK ∧ t.allocated = []

theorem leaves_of_clean {pagesize : UInt64} {event : ProcessEvent} {left : Resources}
    (hleft : Leaves pagesize event left) (hclean : event.Clean) : left = 0 := by
  cases hleft with
  | created => rfl
  | refused _ => exact hclean.elim
  | called => rfl
  | destroyed t =>
      unfold Tenant.buffers
      rw [hclean.2]
      rfl
  | locked t hrc => exact absurd hclean.1 hrc
  | freeDescsLocked t hrc => exact absurd hclean.1 hrc

/-- Whatever a process does with its queues and whatever fails, it has what its queues own,
what the failed calls left and what it had before; and if nothing failed, every descriptor
was freed and every queue destroyed, it has what it had before. -/
theorem virtqs_accounted {h₀ : Host} (hpage : PageSize h₀.pagesize) {c : Process}
    {events : List ProcessEvent} (hrun : ProcessRun ⟨h₀, []⟩ c events) :
    (exists lefts, List.Forall₂ (Leaves h₀.pagesize) events lefts ∧
      c.host.resources = (c.tenants.map (Tenant.resources h₀.pagesize)).sum +
        (lefts.sum + h₀.resources)) ∧
      (c.tenants = [] -> (forall event, event ∈ events -> event.Clean) ->
        c.host.mem.maps.Perm h₀.mem.maps ∧ c.host.heap.Perm h₀.heap) := by
  have hstart : Accounted h₀.pagesize h₀.resources ⟨h₀, []⟩ := by
    constructor
    · exact hpage
    · rfl
    · exact (zero_add _).symm
    · intro t ht
      cases ht
  rcases hstart.run hrun with ⟨lefts, hleft, haccount⟩
  refine ⟨⟨lefts, hleft, haccount.total⟩, ?_⟩
  intro hnone hclean
  have hzero : lefts.sum = 0 := by
    have hall : forall left, left ∈ lefts -> left = 0 := by
      clear haccount hrun
      induction hleft with
      | nil =>
          intro left hmem
          cases hmem
      | cons hnew _ ih =>
          intro left hmem
          rcases List.mem_cons.mp hmem with rfl | hmem
          · exact leaves_of_clean hnew (hclean _ (List.mem_cons_self ..))
          · exact ih (fun event hevent => hclean event (List.mem_cons_of_mem _ hevent)) left
              hmem
    exact List.sum_eq_zero hall
  have htotal := haccount.total
  rw [hnone, hzero, List.map_nil, List.sum_nil, zero_add, zero_add] at htotal
  exact ⟨Multiset.coe_eq_coe.mp (congrArg Prod.fst htotal),
    Multiset.coe_eq_coe.mp (congrArg Prod.snd htotal)⟩

/-!
## A whole life
-/

def allocatedOnce : Except Rc UInt16 × Queue :=
  (Prog.exec (succeedingEnvs 10 16) (queueTwo.queue createdTwo.2.mem)
    (virtqAllocDesc 8 true)).get (by decide +kernel)

/-- The spinlock of the free list is refused. -/
def freedOnce : Rc × Queue :=
  (Prog.exec (List.replicate 12 { lock := .ETIMEDOUT })
    ({ queueTwo with vq := allocatedOnce.2.vq }.queue allocatedOnce.2.mem)
    (virtqFreeDesc 0)).get (by decide +kernel)

def destroyedTwo : Rc × Host :=
  (Prog.exec (succeedingEnvs 12 0) { createdTwo.2 with mem := freedOnce.2.mem }
    (virtqDestroy { queueTwo with vq := freedOnce.2.vq })).get (by decide +kernel)

theorem ProcessStep.called_only {h : Host} {t t' : Tenant} {mem' : Memory}
    (hstep : TenantStep t h.mem t' mem') :
    ProcessStep ⟨h, [t]⟩ .called ⟨{ h with mem := mem' }, [t']⟩ := by
  have hc : (⟨h, [t]⟩ : Process).tenants = [] ++ t :: [] := rfl
  exact ProcessStep.called hc hstep

theorem ProcessStep.destroyed_only {h h' : Host} {t : Tenant} {rc : Rc}
    (hrun : Runs (fun _ => True) h (virtqDestroy t.obj) rc h') :
    ProcessStep ⟨h, [t]⟩ (.destroyed t rc) ⟨h', []⟩ := by
  have hc : (⟨h, [t]⟩ : Process).tenants = [] ++ t :: [] := rfl
  exact ProcessStep.destroyed hc hrun

theorem destroyedTwo_run : exists events : List ProcessEvent, events.length = 4 ∧
    (forall event, event ∈ events -> event.Clean) ∧
    ProcessRun ⟨Host.initial, []⟩ ⟨destroyedTwo.2, []⟩ events := by
  have halloc : Runs (fun _ => True) (queueTwo.queue createdTwo.2.mem)
      (virtqAllocDesc 8 true) allocatedOnce.1 allocatedOnce.2 :=
    runs_of_exec (fun _ _ => trivial) (Option.some_get _).symm
  rw [show allocatedOnce.1 = .ok 0 by decide +kernel] at halloc
  have hfree : Runs (fun _ => True)
      ({ queueTwo with vq := allocatedOnce.2.vq }.queue allocatedOnce.2.mem)
      (virtqFreeDesc 0) freedOnce.1 freedOnce.2 :=
    runs_of_exec (fun _ _ => trivial) (Option.some_get _).symm
  have hdestroy : Runs (fun _ => True) { createdTwo.2 with mem := freedOnce.2.mem }
      (virtqDestroy { queueTwo with vq := freedOnce.2.vq }) destroyedTwo.1 destroyedTwo.2 :=
    runs_of_exec (fun _ _ => trivial) (Option.some_get _).symm
  rw [show destroyedTwo.1 = .EOK by decide +kernel] at hdestroy
  have hcreated : ProcessRun ⟨Host.initial, []⟩ ⟨createdTwo.2, [⟨queueTwo, []⟩]⟩ [.created] :=
    ProcessRun.step ProcessRun.start (ProcessStep.created queueTwo_created)
  have hcalled := ProcessRun.step hcreated
    (ProcessStep.called_only (TenantStep.alloc halloc))
  have hcalled' := ProcessRun.step hcalled
    (ProcessStep.called_only (TenantStep.free (by decide +kernel) hfree))
  refine ⟨_, rfl, ?_, ProcessRun.step hcalled' (ProcessStep.destroyed_only hdestroy)⟩
  intro event hevent
  simp only [List.mem_cons, List.not_mem_nil, or_false] at hevent
  rcases hevent with rfl | rfl | rfl | rfl
  · exact ⟨rfl, rfl⟩
  · exact trivial
  · exact trivial
  · exact trivial

theorem virtqs_accounted_two : exists events : List ProcessEvent, events.length = 4 ∧
    destroyedTwo.2.mem.maps.Perm Host.initial.mem.maps ∧
    destroyedTwo.2.heap.Perm Host.initial.heap := by
  rcases destroyedTwo_run with ⟨events, hlength, hclean, hrun⟩
  exact ⟨events, hlength, (virtqs_accounted ⟨12, by decide, rfl⟩ hrun).2 rfl hclean⟩

end QnxVirtio
