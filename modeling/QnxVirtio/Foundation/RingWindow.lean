import Mathlib.Logic.Function.Basic
import Mathlib.Data.List.Nodup
import Mathlib.Data.List.Perm.Subperm

/-!
# Rings behind free-running counters

A producer writes its `i`-th element to slot `slot i` of a ring and a consumer
reads the elements back in order.  Both sides only know counters that wrap, so
the slot of a position is all that the ring sees of it.  The ring is correct as
long as two positions that are pending together never share a slot; for a
counter that wraps at `w` and a ring of `num` slots this is the case exactly
when `num` divides `w`.
-/

namespace QnxVirtio
namespace Foundation

variable {α κ : Type}

/-!
## Sequences that grow
-/

theorem getElem?_append_of_some {l : List α} {i : Nat} {a : α}
    (h : l[i]? = some a) (l' : List α) : (l ++ l')[i]? = some a := by
  rw [List.getElem?_append_left (List.getElem?_eq_some_iff.mp h).1, h]

theorem getElem?_concat_eq_some_iff {l : List α} {i : Nat} {a b : α} :
    (l ++ [a])[i]? = some b <-> l[i]? = some b ∨ (i = l.length ∧ b = a) := by
  constructor
  · intro h
    rcases Nat.lt_or_ge i l.length with hlt | hge
    · rw [List.getElem?_append_left hlt] at h
      exact Or.inl h
    · have hi := (List.getElem?_eq_some_iff.mp h).1
      rw [List.length_append, List.length_singleton] at hi
      have heq : i = l.length := Nat.le_antisymm (Nat.le_of_lt_succ hi) hge
      rw [heq, List.getElem?_concat_length, Option.some.injEq] at h
      exact Or.inr ⟨heq, h.symm⟩
  · intro h
    rcases h with h | ⟨rfl, rfl⟩
    · exact getElem?_append_of_some h _
    · exact List.getElem?_concat_length

/-- Positions less than `num` apart have different slots. -/
def Separates (num : Nat) (slot : Nat -> κ) : Prop :=
  forall i j, i < j -> j < i + num -> slot i ≠ slot j

/-- The pending part of a stream is found in the ring: of the elements `pushed`
so far the first `popped` are consumed and each other one sits in its slot. -/
structure RingWindow (num : Nat) (slot : Nat -> κ) (ring : κ -> α)
    (pushed : List α) (popped : Nat) : Prop where
  popped_le : popped <= pushed.length
  room : pushed.length <= popped + num
  get : forall i a, popped <= i -> pushed[i]? = some a -> ring (slot i) = a

namespace RingWindow

variable {num : Nat} {slot : Nat -> κ} {ring : κ -> α} {pushed : List α}
  {popped : Nat}

theorem empty (num : Nat) (slot : Nat -> κ) (ring : κ -> α) :
    RingWindow num slot ring [] 0 where
  popped_le := Nat.le_refl 0
  room := Nat.zero_le _
  get := by
    intro i a _ h
    simp at h

theorem write [DecidableEq κ] (hsep : Separates num slot)
    (h : RingWindow num slot ring pushed popped)
    (hroom : pushed.length < popped + num) (a : α) :
    RingWindow num slot (Function.update ring (slot pushed.length) a)
      pushed popped where
  popped_le := h.popped_le
  room := h.room
  get := by
    intro i b hi hb
    have hlt : i < pushed.length := (List.getElem?_eq_some_iff.mp hb).1
    have hslot : slot i ≠ slot pushed.length :=
      hsep i pushed.length hlt (by omega)
    rw [Function.update_of_ne hslot]
    exact h.get i b hi hb

theorem publish (h : RingWindow num slot ring pushed popped)
    (hroom : pushed.length < popped + num) {a : α}
    (ha : ring (slot pushed.length) = a) :
    RingWindow num slot ring (pushed ++ [a]) popped where
  popped_le := by
    have := h.popped_le
    simp
    omega
  room := by
    simp
    omega
  get := by
    intro i b hi hb
    rcases getElem?_concat_eq_some_iff.mp hb with hold | ⟨rfl, rfl⟩
    · exact h.get i b hi hold
    · exact ha

theorem push [DecidableEq κ] (hsep : Separates num slot)
    (h : RingWindow num slot ring pushed popped)
    (hroom : pushed.length < popped + num) (a : α) :
    RingWindow num slot (Function.update ring (slot pushed.length) a)
      (pushed ++ [a]) popped :=
  (h.write hsep hroom a).publish hroom (Function.update_self ..)

theorem front (h : RingWindow num slot ring pushed popped)
    (hlt : popped < pushed.length) : ring (slot popped) = pushed[popped] :=
  h.get popped _ (Nat.le_refl _) (List.getElem?_eq_getElem hlt)

theorem pop (h : RingWindow num slot ring pushed popped)
    (hlt : popped < pushed.length) :
    RingWindow num slot ring pushed (popped + 1) where
  popped_le := hlt
  room := by
    have := h.room
    omega
  get := fun i a hi ha => h.get i a (by omega) ha

end RingWindow

/-!
## Counting pending positions
-/

theorem length_le_of_key_lt {l : List Nat} {num : Nat} {f : Nat -> Nat}
    (hnodup : l.Nodup) (hlt : forall i, i ∈ l -> f i < num)
    (hinj : forall i j, i ∈ l -> j ∈ l -> f i = f j -> i = j) :
    l.length <= num := by
  have hmap : (l.map f).Nodup :=
    List.Nodup.map_on (fun i hi j hj => hinj i j hi hj) hnodup
  have hsub : l.map f ⊆ List.range num := by
    intro n hn
    rcases List.mem_map.mp hn with ⟨i, hi, rfl⟩
    exact List.mem_range.mpr (hlt i hi)
  have hle := (List.subperm_of_subset hmap hsub).length_le
  simpa using hle

/-- If the positions below `total` that are not in `done` are told apart by keys
below `num`, then `total` is at most `num` ahead of `done`. -/
theorem le_length_add_of_key_lt {total num : Nat} {done : List Nat}
    {f : Nat -> Nat} (hlt : forall i, i < total -> i ∉ done -> f i < num)
    (hinj : forall i j, i < total -> i ∉ done -> j < total -> j ∉ done ->
      f i = f j -> i = j) : total <= done.length + num := by
  have hpending : ((List.range total).filter (· ∉ done)).length <= num := by
    apply length_le_of_key_lt (List.nodup_range.filter _) (f := f)
    · intro i hi
      simp only [List.mem_filter, List.mem_range, decide_eq_true_eq] at hi
      exact hlt i hi.1 hi.2
    · intro i j hi hj
      simp only [List.mem_filter, List.mem_range, decide_eq_true_eq] at hi hj
      exact hinj i j hi.1 hi.2 hj.1 hj.2
  have hcover : List.range total ⊆ done ++ (List.range total).filter (· ∉ done) := by
    intro i hi
    by_cases hdone : i ∈ done
    · exact List.mem_append_left _ hdone
    · refine List.mem_append_right _ (List.mem_filter.mpr ⟨hi, ?_⟩)
      simpa using hdone
  have hle := (List.subperm_of_subset List.nodup_range hcover).length_le
  simp only [List.length_range, List.length_append] at hle
  omega

/-!
## Slots of a wrapping counter
-/

/-- The slot that a counter wrapping at `w` selects in a ring of `num` slots. -/
def wrapSlot (w num i : Nat) : Nat :=
  i % w % num

theorem wrapSlot_of_dvd {w num : Nat} (h : num ∣ w) (i : Nat) :
    wrapSlot w num i = i % num :=
  Nat.mod_mod_of_dvd i h

theorem mod_ne_of_lt_add {num i j : Nat} (hij : i < j) (hj : j < i + num) :
    i % num ≠ j % num := by
  intro heq
  have hdvd : num ∣ j - i :=
    Nat.dvd_of_mod_eq_zero (Nat.sub_mod_eq_zero_of_mod_eq heq.symm)
  have hle : num <= j - i := Nat.le_of_dvd (by omega) hdvd
  omega

theorem separates_wrapSlot {w num : Nat} (h : num ∣ w) :
    Separates num (wrapSlot w num) := by
  intro i j hij hj
  rw [wrapSlot_of_dvd h, wrapSlot_of_dvd h]
  exact mod_ne_of_lt_add hij hj

/-- When `num` does not divide `w`, the last position before a wrap shares its
slot with one of the positions after it. -/
theorem wrapSlot_collision {w num : Nat} (hle : num <= w) (hnum : 0 < num)
    (h : ¬ num ∣ w) :
    exists b, b + 2 <= num ∧ wrapSlot w num (w - 1) = wrapSlot w num (w + b) := by
  have hmod : w % num ≠ 0 := fun h0 => h (Nat.dvd_of_mod_eq_zero h0)
  have hlt : w % num < num := Nat.mod_lt w hnum
  have hdiv : num * (w / num) + w % num = w := Nat.div_add_mod w num
  refine ⟨w % num - 1, by omega, ?_⟩
  have hleft : (w - 1) % w % num = w % num - 1 := by
    rw [Nat.mod_eq_of_lt (by omega : w - 1 < w)]
    rw [show w - 1 = num * (w / num) + (w % num - 1) by omega,
      Nat.mul_add_mod]
    exact Nat.mod_eq_of_lt (by omega)
  have hright : (w + (w % num - 1)) % w % num = w % num - 1 := by
    rw [Nat.add_mod_left, Nat.mod_eq_of_lt (by omega : w % num - 1 < w)]
    exact Nat.mod_eq_of_lt (by omega)
  unfold wrapSlot
  rw [hleft, hright]

end Foundation
end QnxVirtio
