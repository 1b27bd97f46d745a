import Mathlib.Data.List.Nodup

/-!
# Linearizable histories

Calls of several threads on one object overlap.  When every call takes effect at one
moment between its invocation and its return, the effects in their order are a run of the
object one call at a time, and that order never contradicts the order in which calls
followed each other.
-/

namespace QnxVirtio
namespace Foundation

/-- What happens to a call. -/
inductive CallEvent (I Op Out : Type)
  | invoked (id : I) (op : Op)
  | effect (id : I) (op : Op) (out : Out)
  | returned (id : I) (out : Out)

/-- A call that took effect, with what it will return. -/
structure Effect (I Op Out : Type) where
  id : I
  op : Op
  out : Out

section Linearize

variable {I Op Out A : Type}

namespace CallEvent

def toEffect : CallEvent I Op Out -> Option (Effect I Op Out)
  | invoked _ _ => none
  | effect id op out => some { id := id, op := op, out := out }
  | returned _ _ => none

/-- The caller takes part in the event. -/
def visible : CallEvent I Op Out -> Bool
  | invoked _ _ => true
  | effect _ _ _ => false
  | returned _ _ => true

end CallEvent

/-- The effects of a log in their order. -/
def effects (log : List (CallEvent I Op Out)) : List (Effect I Op Out) :=
  log.filterMap CallEvent.toEffect

/-- The log without the effects. -/
def history (log : List (CallEvent I Op Out)) : List (CallEvent I Op Out) :=
  log.filter CallEvent.visible

@[simp] theorem effects_nil : effects ([] : List (CallEvent I Op Out)) = [] := rfl

@[simp] theorem effects_append (log log' : List (CallEvent I Op Out)) :
    effects (log ++ log') = effects log ++ effects log' :=
  List.filterMap_append

@[simp] theorem effects_invoked (id : I) (op : Op) :
    effects ([.invoked id op] : List (CallEvent I Op Out)) = [] := rfl

@[simp] theorem effects_effect (id : I) (op : Op) (out : Out) :
    effects [.effect id op out] = [{ id := id, op := op, out := out }] := rfl

@[simp] theorem effects_returned (id : I) (out : Out) :
    effects ([.returned id out] : List (CallEvent I Op Out)) = [] := rfl

/-- Calls that are invoked, then effects, then calls that return. -/
def callBatch (calls : List (I × Op)) (cs : List (Effect I Op Out)) (rs : List (I × Out)) :
    List (CallEvent I Op Out) :=
  calls.map (fun c => .invoked c.1 c.2) ++ cs.map (fun c => .effect c.id c.op c.out) ++
    rs.map fun r => .returned r.1 r.2

@[simp] theorem effects_map_invoked (calls : List (I × Op)) :
    effects (calls.map fun c => (.invoked c.1 c.2 : CallEvent I Op Out)) = [] := by
  unfold effects
  rw [List.filterMap_map]
  exact List.filterMap_eq_nil_iff.mpr fun _ _ => rfl

@[simp] theorem effects_map_effect (cs : List (Effect I Op Out)) :
    effects (cs.map fun c => .effect c.id c.op c.out) = cs := by
  unfold effects
  rw [List.filterMap_map]
  exact List.filterMap_some

@[simp] theorem effects_map_returned (rs : List (I × Out)) :
    effects (rs.map fun r => (.returned r.1 r.2 : CallEvent I Op Out)) = [] := by
  unfold effects
  rw [List.filterMap_map]
  exact List.filterMap_eq_nil_iff.mpr fun _ _ => rfl

@[simp] theorem effects_callBatch (calls : List (I × Op)) (cs : List (Effect I Op Out))
    (rs : List (I × Out)) : effects (callBatch calls cs rs) = cs := by
  simp [callBatch]

theorem invoked_mem_callBatch_iff {calls : List (I × Op)} {cs : List (Effect I Op Out)}
    {rs : List (I × Out)} {id : I} {op : Op} :
    CallEvent.invoked id op ∈ callBatch calls cs rs <-> (id, op) ∈ calls := by
  simp [callBatch]

theorem mem_effects_iff {log : List (CallEvent I Op Out)} {c : Effect I Op Out} :
    c ∈ effects log <-> CallEvent.effect c.id c.op c.out ∈ log := by
  unfold effects
  rw [List.mem_filterMap]
  constructor
  · intro h
    rcases h with ⟨e, hmem, he⟩
    cases e with
    | invoked id op => cases he
    | effect id op out =>
        cases he
        exact hmem
    | returned id out => cases he
  · intro h
    exact ⟨_, h, rfl⟩

/-- The calls can be made one after the other from `a` to `a'`. -/
def SequentialRun (spec : A -> Op -> Out -> A -> Prop) :
    A -> List (Effect I Op Out) -> A -> Prop
  | a, [], a' => a' = a
  | a, c :: order, a' => exists a1, spec a c.op c.out a1 ∧ SequentialRun spec a1 order a'

theorem SequentialRun.append {spec : A -> Op -> Out -> A -> Prop}
    {order order' : List (Effect I Op Out)} {a a1 a' : A}
    (h : SequentialRun spec a order a1) (h' : SequentialRun spec a1 order' a') :
    SequentialRun spec a (order ++ order') a' := by
  induction order generalizing a with
  | nil =>
      cases h
      exact h'
  | cons c order ih =>
      rcases h with ⟨a2, hspec, hrest⟩
      exact ⟨a2, hspec, ih hrest⟩

theorem SequentialRun.concat {spec : A -> Op -> Out -> A -> Prop}
    {order : List (Effect I Op Out)} {a a1 a' : A} {c : Effect I Op Out}
    (h : SequentialRun spec a order a1) (hspec : spec a1 c.op c.out a') :
    SequentialRun spec a (order ++ [c]) a' :=
  h.append ⟨a', hspec, rfl⟩

/-- `order` makes the calls of a history one after the other: every call that returned is
in it with its result, no call that was not invoked is, and a call that returned before
another one was invoked comes first. -/
structure Linearizes (spec : A -> Op -> Out -> A -> Prop) (a₀ : A)
    (hist : List (CallEvent I Op Out)) (order : List (Effect I Op Out)) : Prop where
  legal : exists a, SequentialRun spec a₀ order a
  once : (order.map Effect.id).Nodup
  invoked : forall c, c ∈ order -> CallEvent.invoked c.id c.op ∈ hist
  returned : forall id out, CallEvent.returned id out ∈ hist ->
    exists op, { id := id, op := op, out := out } ∈ order
  realTime : forall id out c, c ∈ order ->
    List.Sublist [CallEvent.returned id out, .invoked c.id c.op] hist ->
    exists b : Effect I Op Out, b.id = id ∧ List.Sublist [b, c] order

/-- Every call of the log takes effect at most once, after its invocation and before its
return, and is invoked at most once. -/
inductive Placed : List (CallEvent I Op Out) -> Prop
  | nil : Placed []
  | invoked {log : List (CallEvent I Op Out)} {id : I} {op : Op} :
      Placed log -> (forall op', CallEvent.invoked id op' ∉ log) ->
      Placed (log ++ [.invoked id op])
  | effect {log : List (CallEvent I Op Out)} {id : I} {op : Op} {out : Out} :
      Placed log -> .invoked id op ∈ log -> id ∉ (effects log).map Effect.id ->
      Placed (log ++ [.effect id op out])
  | returned {log : List (CallEvent I Op Out)} {id : I} {op : Op} {out : Out} :
      Placed log -> .effect id op out ∈ log -> Placed (log ++ [.returned id out])

namespace Placed

variable {log : List (CallEvent I Op Out)}

theorem invoked_of_effect (h : Placed log) {c : Effect I Op Out} (hc : c ∈ effects log) :
    CallEvent.invoked c.id c.op ∈ log := by
  induction h with
  | nil => cases hc
  | invoked _ _ ih =>
      rw [effects_append, effects_invoked, List.append_nil] at hc
      exact List.mem_append_left _ (ih hc)
  | effect _ hinvoked _ ih =>
      rw [effects_append, effects_effect] at hc
      rcases List.mem_append.mp hc with hold | hnew
      · exact List.mem_append_left _ (ih hold)
      · rw [List.mem_singleton.mp hnew]
        exact List.mem_append_left _ hinvoked
  | returned _ _ ih =>
      rw [effects_append, effects_returned, List.append_nil] at hc
      exact List.mem_append_left _ (ih hc)

theorem effect_of_returned (h : Placed log) {id : I} {out : Out}
    (hret : CallEvent.returned id out ∈ log) :
    exists op, { id := id, op := op, out := out } ∈ effects log := by
  induction h with
  | nil => cases hret
  | invoked _ _ ih =>
      rcases List.mem_append.mp hret with hold | hnew
      · rcases ih hold with ⟨op, hop⟩
        exact ⟨op, by simpa using hop⟩
      · cases List.mem_singleton.mp hnew
  | effect _ _ _ ih =>
      rcases List.mem_append.mp hret with hold | hnew
      · rcases ih hold with ⟨op, hop⟩
        exact ⟨op, by simp [hop]⟩
      · cases List.mem_singleton.mp hnew
  | returned _ heffect ih =>
      rcases List.mem_append.mp hret with hold | hnew
      · rcases ih hold with ⟨op, hop⟩
        exact ⟨op, by simpa using hop⟩
      · cases List.mem_singleton.mp hnew
        exact ⟨_, by simpa using mem_effects_iff.mpr heffect⟩

theorem nodup_effects (h : Placed log) : ((effects log).map Effect.id).Nodup := by
  induction h with
  | nil => exact List.nodup_nil
  | invoked _ _ ih => simpa using ih
  | effect _ _ hnot ih =>
      rw [effects_append, effects_effect, List.map_append]
      exact ih.append (List.nodup_singleton _) (by simpa using hnot)
  | returned _ _ ih => simpa using ih

/-!
## Events of one kind
-/

theorem invokedAll {calls : List (I × Op)} (h : Placed log)
    (hnodup : (calls.map Prod.fst).Nodup)
    (hfresh : forall id, id ∈ calls.map Prod.fst -> forall op,
      CallEvent.invoked id op ∉ log) :
    Placed (log ++ calls.map fun c => .invoked c.1 c.2) := by
  induction calls generalizing log with
  | nil => simpa using h
  | cons c calls ih =>
      rw [List.map_cons, List.nodup_cons] at hnodup
      rw [List.map_cons, List.append_cons]
      refine ih (h.invoked (hfresh c.1 (by simp))) hnodup.2 ?_
      intro id hid op hmem
      rcases List.mem_append.mp hmem with hold | hnew
      · exact hfresh id (by simp [hid]) op hold
      · cases List.mem_singleton.mp hnew
        exact hnodup.1 hid

theorem effectAll {cs : List (Effect I Op Out)} (h : Placed log)
    (hnodup : (cs.map Effect.id).Nodup)
    (hinvoked : forall c, c ∈ cs -> CallEvent.invoked c.id c.op ∈ log)
    (hfresh : forall id, id ∈ cs.map Effect.id -> id ∉ (effects log).map Effect.id) :
    Placed (log ++ cs.map fun c => .effect c.id c.op c.out) := by
  induction cs generalizing log with
  | nil => simpa using h
  | cons c cs ih =>
      rw [List.map_cons, List.nodup_cons] at hnodup
      rw [List.map_cons, List.append_cons]
      refine ih (h.effect (hinvoked c (by simp)) (hfresh c.id (by simp))) hnodup.2 ?_ ?_
      · intro c' hc'
        exact List.mem_append_left _ (hinvoked c' (by simp [hc']))
      · intro id hid hmem
        rw [effects_append, effects_effect, List.map_append] at hmem
        rcases List.mem_append.mp hmem with hold | hnew
        · exact hfresh id (by simp [hid]) hold
        · rw [List.mem_singleton.mp hnew] at hid
          exact hnodup.1 hid

theorem returnedAll {rs : List (I × Out)} (h : Placed log)
    (heffect : forall r, r ∈ rs -> exists op, CallEvent.effect r.1 op r.2 ∈ log) :
    Placed (log ++ rs.map fun r => .returned r.1 r.2) := by
  induction rs generalizing log with
  | nil => simpa using h
  | cons r rs ih =>
      rw [List.map_cons, List.append_cons]
      rcases heffect r (by simp) with ⟨op, hop⟩
      refine ih (h.returned hop) ?_
      intro r' hr'
      rcases heffect r' (by simp [hr']) with ⟨op', hop'⟩
      exact ⟨op', List.mem_append_left _ hop'⟩

theorem batch {calls : List (I × Op)} {cs : List (Effect I Op Out)} {rs : List (I × Out)}
    (h : Placed log) (hcalls : (calls.map Prod.fst).Nodup)
    (hfresh : forall id, id ∈ calls.map Prod.fst -> forall op,
      CallEvent.invoked id op ∉ log)
    (honce : ((effects log ++ cs).map Effect.id).Nodup)
    (hinvoked : forall c, c ∈ cs ->
      CallEvent.invoked c.id c.op ∈ log ∨ (c.id, c.op) ∈ calls)
    (hreturned : forall r, r ∈ rs -> exists op,
      { id := r.1, op := op, out := r.2 } ∈ effects log ++ cs) :
    Placed (log ++ callBatch calls cs rs) := by
  rw [List.map_append, List.nodup_append] at honce
  have hnone : effects (log ++ calls.map fun c =>
      (.invoked c.1 c.2 : CallEvent I Op Out)) = effects log := by simp
  have hplaced := (h.invokedAll hcalls hfresh).effectAll honce.2.1 (by
    intro c hc
    rcases hinvoked c hc with hold | hnew
    · exact List.mem_append_left _ hold
    · exact List.mem_append_right _ (List.mem_map.mpr ⟨_, hnew, rfl⟩))
    (by
      intro id hid hold
      rw [hnone] at hold
      exact honce.2.2 id hold id hid rfl)
  have hall := hplaced.returnedAll (fun r (hr : r ∈ rs) => by
    rcases hreturned r hr with ⟨op, hop⟩
    have hmem : { id := r.1, op := op, out := r.2 } ∈ effects ((log ++ calls.map fun c =>
        CallEvent.invoked c.1 c.2) ++ cs.map fun c => .effect c.id c.op c.out) := by
      rw [effects_append, hnone, effects_map_effect]
      exact hop
    exact ⟨op, mem_effects_iff.mp hmem⟩)
  rw [List.append_assoc, List.append_assoc, ← List.append_assoc _ _ (rs.map _)] at hall
  exact hall

/-!
## The order of effects
-/

/-- A pair that does not end with the last event lies before it. -/
private theorem sublist_of_concat {α : Type} {x y z : α} {l : List α} (hne : y ≠ z)
    (h : List.Sublist [x, y] (l ++ [z])) : List.Sublist [x, y] l := by
  have hrev : List.Sublist [y, x] (z :: l.reverse) := by
    have h' := List.reverse_sublist.mpr h
    rwa [List.reverse_append] at h'
  cases hrev with
  | cons _ hrest =>
      have h' := List.reverse_sublist.mpr hrest
      rwa [List.reverse_reverse] at h'
  | cons_cons _ _ => exact absurd rfl hne

theorem effect_order (h : Placed log) {id : I} {out : Out} {c : Effect I Op Out}
    (hc : c ∈ effects log)
    (hpair : List.Sublist [CallEvent.returned id out, .invoked c.id c.op] log) :
    exists b : Effect I Op Out, b.id = id ∧ List.Sublist [b, c] (effects log) := by
  induction h with
  | nil => cases hc
  | @invoked log id' op hlog hfresh ih =>
      rw [effects_append, effects_invoked, List.append_nil] at hc ⊢
      have hold := hlog.invoked_of_effect hc
      refine ih hc (sublist_of_concat ?_ hpair)
      intro heq
      cases heq
      exact hfresh _ hold
  | @effect log id' op out' hlog _ _ ih =>
      rw [effects_append, effects_effect] at hc ⊢
      have hbefore := sublist_of_concat (fun heq => by cases heq) hpair
      rcases List.mem_append.mp hc with hold | hnew
      · rcases ih hold hbefore with ⟨b, hb, hsub⟩
        exact ⟨b, hb, hsub.trans (List.sublist_append_left _ _)⟩
      · cases List.mem_singleton.mp hnew
        have hret : CallEvent.returned id out ∈ log :=
          hbefore.subset (List.mem_cons_self ..)
        rcases hlog.effect_of_returned hret with ⟨op', hop'⟩
        exact ⟨_, rfl, (List.singleton_sublist.mpr hop').append (List.Sublist.refl _)⟩
  | @returned log id' op out' hlog _ ih =>
      rw [effects_append, effects_returned, List.append_nil] at hc ⊢
      exact ih hc (sublist_of_concat (fun heq => by cases heq) hpair)

/-- The method of commit points: effects in their places that are legal one after the
other linearize the history. -/
theorem linearizes (h : Placed log) {spec : A -> Op -> Out -> A -> Prop} {a₀ a : A}
    (hlegal : SequentialRun spec a₀ (effects log) a) :
    Linearizes spec a₀ (history log) (effects log) where
  legal := ⟨a, hlegal⟩
  once := h.nodup_effects
  invoked := fun _ hc => List.mem_filter.mpr ⟨h.invoked_of_effect hc, rfl⟩
  returned := fun _ _ hret => h.effect_of_returned (List.mem_of_mem_filter hret)
  realTime := fun _ _ _ hc hpair => h.effect_order hc (hpair.trans List.filter_sublist)

end Placed

end Linearize

end Foundation
end QnxVirtio
