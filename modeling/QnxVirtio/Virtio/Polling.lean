import Mathlib.Algebra.Order.Floor.Div
import QnxVirtio.Host

/-!
# Polling with a timeout

Both resets request, and then poll a register with a delay before each read.  A wait is
described by its events here.
-/

namespace QnxVirtio
namespace Virtio

/-- What a wait does: the request, a wait of some milliseconds with its `delay` calls, the
accounting, and a read of the register. -/
inductive PollEvent
  | wrote (r : Except Rc Unit)
  | wait (ms : Nat)
  | slept (ms unslept : Nat)
  | spent (remaining amount : Nat)
  | polled (r : Except Rc UInt32)

/-- The answers of the register. -/
def pollsOf (es : List PollEvent) : List (Except Rc UInt32) :=
  es.filterMap fun
    | .polled r => some r
    | _ => none

/-- The delays that were requested. -/
def waitsOf (es : List PollEvent) : List Nat :=
  es.filterMap fun
    | .wait ms => some ms
    | _ => none

@[simp] theorem pollsOf_append (es es' : List PollEvent) :
    pollsOf (es ++ es') = pollsOf es ++ pollsOf es' :=
  List.filterMap_append

@[simp] theorem waitsOf_append (es es' : List PollEvent) :
    waitsOf (es ++ es') = waitsOf es ++ waitsOf es' :=
  List.filterMap_append

/-- The events of `delay` calls only. -/
def Naps (es : List PollEvent) : Prop :=
  forall e, e ∈ es -> exists ms unslept, e = .slept ms unslept

theorem Naps.pollsOf {es : List PollEvent} (h : Naps es) : pollsOf es = [] := by
  refine List.filterMap_eq_nil_iff.mpr fun e he => ?_
  rcases h e he with ⟨ms, unslept, rfl⟩
  rfl

theorem Naps.waitsOf {es : List PollEvent} (h : Naps es) : waitsOf es = [] := by
  refine List.filterMap_eq_nil_iff.mpr fun e he => ?_
  rcases h e he with ⟨ms, unslept, rfl⟩
  rfl

/-!
## One round
-/

/-- One round of a wait, from the value last read and the time left. -/
inductive PollStep (wait interval : Nat) :
    UInt32 × Nat -> (UInt32 × Nat) ⊕ Except Rc Unit -> List PollEvent -> Prop
  | done {remaining : Nat} : PollStep wait interval (0, remaining) (.inr (.ok ())) []
  | timeout {value : UInt32} : value ≠ 0 ->
      PollStep wait interval (value, 0) (.inr (.error .ETIMEDOUT)) []
  | read {value : UInt32} {remaining : Nat} {naps : List PollEvent}
      {answer : Except Rc UInt32} : value ≠ 0 -> 0 < remaining -> Naps naps ->
      PollStep wait interval (value, remaining)
        (match answer with
        | .error rc => .inr (.error rc)
        | .ok value' => .inl (value', remaining - min remaining interval))
        (.wait wait :: naps ++
          [.spent remaining (min remaining interval), .polled answer])

theorem PollStep.finished {wait interval : Nat} {value : UInt32} {remaining : Nat}
    (h : ¬ (value ≠ 0 ∧ 0 < remaining)) :
    PollStep wait interval (value, remaining)
      (.inr (if value = 0 then .ok () else .error .ETIMEDOUT)) [] := by
  by_cases hzero : value = 0
  · subst hzero
    exact PollStep.done
  · have hleft : remaining = 0 := by
      by_contra hne
      exact h ⟨hzero, Nat.pos_of_ne_zero hne⟩
    subst hleft
    rw [if_neg hzero]
    exact PollStep.timeout hzero

namespace Naps

variable {naps : List PollEvent} {wait left amount : Nat} {answer : Except Rc UInt32}

theorem pollsOf_read (h : Naps naps) :
    Virtio.pollsOf (.wait wait :: naps ++ [.spent left amount, .polled answer]) =
      [answer] := by
  change Virtio.pollsOf (naps ++ _) = _
  rw [pollsOf_append, h.pollsOf]
  rfl

theorem spent (h : Naps naps) {left' amount' : Nat}
    (hmem : .spent left' amount' ∈
      .wait wait :: naps ++ [.spent left amount, .polled answer]) :
    left' = left ∧ amount' = amount := by
  rcases List.mem_cons.mp hmem with heq | hmem
  · cases heq
  · rcases List.mem_append.mp hmem with hmem | hmem
    · rcases h _ hmem with ⟨ms, unslept, heq⟩
      cases heq
    · simpa using hmem

end Naps

/-- The events of a wait and its result. -/
inductive PollRun (wait interval : Nat) :
    UInt32 × Nat -> Except Rc Unit -> List PollEvent -> Prop
  | last {x : UInt32 × Nat} {r : Except Rc Unit} {es : List PollEvent} :
      PollStep wait interval x (.inr r) es -> PollRun wait interval x r es
  | again {x y : UInt32 × Nat} {r : Except Rc Unit} {es es' : List PollEvent} :
      PollStep wait interval x (.inl y) es -> PollRun wait interval y r es' ->
      PollRun wait interval x r (es ++ es')

section Step

variable {wait interval : Nat} {x y : UInt32 × Nat} {r : Except Rc Unit}
  {es : List PollEvent}

theorem ceilDiv_sub_min {remaining : Nat} (hpos : 0 < remaining)
    (hinterval : 0 < interval) :
    remaining ⌈/⌉ interval = (remaining - min remaining interval) ⌈/⌉ interval + 1 := by
  simp only [Nat.ceilDiv_eq_add_pred_div]
  by_cases hle : remaining <= interval
  · rw [Nat.min_eq_left hle, Nat.sub_self]
    rw [Nat.div_eq_of_lt (by omega : 0 + interval - 1 < interval)]
    rw [show remaining + interval - 1 = remaining - 1 + interval by omega]
    rw [Nat.add_div_right _ hinterval, Nat.div_eq_of_lt (by omega)]
  · rw [Nat.min_eq_right (by omega)]
    rw [← Nat.add_div_right _ hinterval]
    congr 1
    omega

theorem PollStep.next (h : PollStep wait interval x (.inl y) es) :
    x.1 ≠ 0 ∧ 0 < x.2 ∧ y.2 = x.2 - min x.2 interval ∧
      pollsOf es = [.ok y.1] ∧ waitsOf es = [wait] ∧
      forall left amount, .spent left amount ∈ es -> amount <= left := by
  generalize hz : (Sum.inl y : (UInt32 × Nat) ⊕ Except Rc Unit) = z at h
  cases h with
  | done => cases hz
  | timeout _ => cases hz
  | @read value remaining naps answer hvalue hpos hnaps =>
      cases answer with
      | error rc => cases hz
      | ok value' =>
          cases hz
          refine ⟨hvalue, hpos, rfl, ?_, ?_, ?_⟩
          · exact hnaps.pollsOf_read
          · change wait :: waitsOf (naps ++ _) = _
            rw [waitsOf_append, hnaps.waitsOf]
            rfl
          · intro left amount hmem
            rcases hnaps.spent hmem with ⟨rfl, rfl⟩
            exact Nat.min_le_left _ _

theorem PollStep.result (h : PollStep wait interval x (.inr r) es) :
    (x.1 = 0 ∧ r = .ok () ∧ es = []) ∨
      (x.1 ≠ 0 ∧ x.2 = 0 ∧ r = .error .ETIMEDOUT ∧ es = []) ∨
      exists rc, x.1 ≠ 0 ∧ 0 < x.2 ∧ r = .error rc ∧ pollsOf es = [.error rc] ∧
        forall left amount, .spent left amount ∈ es -> amount <= left := by
  generalize hz : (Sum.inr r : (UInt32 × Nat) ⊕ Except Rc Unit) = z at h
  cases h with
  | done =>
      cases hz
      exact Or.inl ⟨rfl, rfl, rfl⟩
  | timeout hvalue =>
      cases hz
      exact Or.inr (Or.inl ⟨hvalue, rfl, rfl, rfl⟩)
  | @read value remaining naps answer hvalue hpos hnaps =>
      cases answer with
      | ok value' => cases hz
      | error rc =>
          cases hz
          refine Or.inr (Or.inr ⟨rc, hvalue, hpos, rfl, ?_, ?_⟩)
          · exact hnaps.pollsOf_read
          · intro left amount hmem
            rcases hnaps.spent hmem with ⟨rfl, rfl⟩
            exact Nat.min_le_left _ _

end Step

/-!
## Whole waits
-/

namespace PollRun

variable {wait interval : Nat} {x : UInt32 × Nat} {r : Except Rc Unit}
  {es : List PollEvent}

theorem spent (h : PollRun wait interval x r es) :
    forall left amount, .spent left amount ∈ es -> amount <= left := by
  induction h with
  | last hstep =>
      intro left amount hmem
      rcases hstep.result with ⟨_, _, rfl⟩ | ⟨_, _, _, rfl⟩ | ⟨_, _, _, _, _, hspent⟩
      · cases hmem
      · cases hmem
      · exact hspent left amount hmem
  | again hstep _ ih =>
      intro left amount hmem
      rcases List.mem_append.mp hmem with hmem | hmem
      · exact hstep.next.2.2.2.2.2 left amount hmem
      · exact ih left amount hmem

theorem length_polls_le (hinterval : 0 < interval) (h : PollRun wait interval x r es) :
    (pollsOf es).length <= x.2 ⌈/⌉ interval := by
  induction h with
  | last hstep =>
      rcases hstep.result with ⟨_, _, rfl⟩ | ⟨_, _, _, rfl⟩ | ⟨_, _, hpos, _, hpolls, _⟩
      · exact Nat.zero_le _
      · exact Nat.zero_le _
      · rw [hpolls, ceilDiv_sub_min hpos hinterval]
        exact Nat.le_add_left _ _
  | again hstep _ ih =>
      rcases hstep.next with ⟨_, hpos, hleft, hpolls, _⟩
      rw [pollsOf_append, hpolls, List.length_append, ceilDiv_sub_min hpos hinterval,
        ← hleft, Nat.add_comm]
      exact Nat.add_le_add_right ih 1

theorem reads_iff (h : PollRun wait interval x r es) :
    pollsOf es ≠ [] <-> x.1 ≠ 0 ∧ 0 < x.2 := by
  cases h with
  | last hstep =>
      rcases hstep.result with ⟨hvalue, _, rfl⟩ | ⟨_, hleft, _, rfl⟩ |
        ⟨rc, hvalue, hpos, _, hpolls, _⟩
      · simp [hvalue, pollsOf]
      · simp [hleft, pollsOf]
      · simp [hpolls, hvalue, hpos]
  | again hstep _ =>
      rcases hstep.next with ⟨hvalue, hpos, _, hpolls, _⟩
      simp [pollsOf_append, hpolls, hvalue, hpos]

theorem ok_iff (h : PollRun wait interval x r es) :
    r = .ok () <-> x.1 = 0 ∨ .ok 0 ∈ pollsOf es := by
  induction h with
  | last hstep =>
      rcases hstep.result with ⟨hvalue, rfl, rfl⟩ | ⟨hvalue, _, rfl, rfl⟩ |
        ⟨rc, hvalue, _, rfl, hpolls, _⟩
      · simp [hvalue]
      · simp [hvalue, pollsOf]
      · simp [hvalue, hpolls]
  | @again x y r es es' hstep _ ih =>
      rcases hstep.next with ⟨hvalue, _, _, hpolls, _⟩
      rw [ih, pollsOf_append, hpolls]
      simp [hvalue, eq_comm]

theorem failed (h : PollRun wait interval x r es) {rc : Rc}
    (hmem : .error rc ∈ pollsOf es) : r = .error rc := by
  induction h with
  | last hstep =>
      rcases hstep.result with
        ⟨_, _, rfl⟩ | ⟨_, _, _, rfl⟩ | ⟨rc', _, _, rfl, hpolls, _⟩
      · cases hmem
      · cases hmem
      · rw [hpolls] at hmem
        simp only [List.mem_singleton, Except.error.injEq] at hmem
        rw [hmem]
  | again hstep _ ih =>
      rcases hstep.next with ⟨_, _, _, hpolls, _⟩
      rw [pollsOf_append, hpolls] at hmem
      exact ih (by simpa using hmem)

theorem zero_last (h : PollRun wait interval x r es) : .ok 0 ∉ (pollsOf es).dropLast := by
  induction h with
  | last hstep =>
      rcases hstep.result with
        ⟨_, _, rfl⟩ | ⟨_, _, _, rfl⟩ | ⟨rc', _, _, rfl, hpolls, _⟩
      · exact List.not_mem_nil
      · exact List.not_mem_nil
      · rw [hpolls]
        exact List.not_mem_nil
  | @again x y r es es' hstep hrest ih =>
      rcases hstep.next with ⟨_, _, _, hpolls, _⟩
      rw [pollsOf_append, hpolls]
      cases hes : pollsOf es' with
      | nil => exact List.not_mem_nil
      | cons p ps =>
          -- another read follows, so the value of this one was not 0
          have hvalue : y.1 ≠ 0 := by
            intro hzero
            cases hrest with
            | last hstep' =>
                rcases hstep'.result with ⟨_, _, rfl⟩ | ⟨hne, _⟩ | ⟨_, hne, _⟩
                · cases hes
                · exact hne hzero
                · exact hne hzero
            | again hstep' _ => exact hstep'.next.1 hzero
          rw [hes] at ih
          intro hmem
          rcases List.mem_cons.mp hmem with heq | hmem
          · exact hvalue (Except.ok.inj heq).symm
          · exact ih hmem

theorem timeout (hinterval : 0 < interval) (h : PollRun wait interval x r es)
    (hvalue : x.1 ≠ 0) (hzero : .ok 0 ∉ pollsOf es)
    (hfail : forall rc, .error rc ∉ pollsOf es) :
    r = .error .ETIMEDOUT ∧ (pollsOf es).length = x.2 ⌈/⌉ interval ∧
      (waitsOf es).sum = x.2 ⌈/⌉ interval * wait := by
  induction h with
  | last hstep =>
      rcases hstep.result with
        ⟨hz, _, _⟩ | ⟨_, hleft, rfl, rfl⟩ | ⟨rc, _, _, _, hpolls, _⟩
      · exact absurd hz hvalue
      · rw [hleft, zero_ceilDiv]
        exact ⟨rfl, rfl, by simp [waitsOf]⟩
      · exact absurd (by simp [hpolls]) (hfail rc)
  | @again x y r es es' hstep _ ih =>
      rcases hstep.next with ⟨_, hpos, hleft, hpolls, hwaits, _⟩
      rw [pollsOf_append, hpolls] at hzero hfail
      have hy : y.1 ≠ 0 := by
        intro hy
        exact hzero (by simp [hy])
      rcases ih hy (fun hmem => hzero (by simp [hmem])) (fun rc hmem =>
        hfail rc (by simp [hmem])) with ⟨hr, hlength, hsum⟩
      refine ⟨hr, ?_, ?_⟩
      · rw [pollsOf_append, hpolls, List.length_append, hlength, hleft,
          ceilDiv_sub_min hpos hinterval, Nat.add_comm]
        rfl
      · rw [waitsOf_append, hwaits, List.sum_append, hsum, hleft,
          ceilDiv_sub_min hpos hinterval, Nat.add_mul, Nat.one_mul, Nat.add_comm]
        simp

end PollRun

end Virtio
end QnxVirtio
