import QnxVirtio.Foundation.Prog

/-!
# Runs along a stream of answers

A run that nobody interrupts takes the answers of its environment one after the
other.  `RunsOn` fixes the stream and counts the answers that were taken, so that
what a run does can be said in terms of the answers that it got.
-/

namespace QnxVirtio
namespace Foundation
namespace Prog

variable {E F S R α β γ δ : Type}

/-- `RunsOn σ i s p a s' j`: taking the answers of `σ` from position `i` on, the
program returns `a` in `s'`, and the next answer is at `j`. -/
inductive RunsOn (σ : Nat -> E) :
    {α : Type} -> Nat -> S -> Prog E S α -> α -> S -> Nat -> Prop
  | ret {α : Type} (i : Nat) (s : S) (a : α) : RunsOn σ i s (ret a) a s i
  | act {α β : Type} {f : E -> S -> Option (β × S)} {k : β -> Prog E S α}
      {i j : Nat} {s s' s'' : S} {b : β} {a : α} :
      f (σ i) s = some (b, s') -> RunsOn σ (i + 1) s' (k b) a s'' j ->
      RunsOn σ i s (act f k) a s'' j
  | loop {α β γ : Type} {body : γ -> Prog E S (γ ⊕ β)} {x : γ}
      {k : β -> Prog E S α} {i j : Nat} {s s' : S} {a : α} :
      RunsOn σ i s (unroll body x k) a s' j -> RunsOn σ i s (loop body x k) a s' j

variable {σ : Nat -> E} {i j : Nat} {s s' : S}

theorem runsOn_ret_iff {a a' : α} :
    RunsOn σ i s (ret a) a' s' j <-> a' = a ∧ s' = s ∧ j = i := by
  constructor
  · intro h
    cases h
    exact ⟨rfl, rfl, rfl⟩
  · rintro ⟨rfl, rfl, rfl⟩
    exact RunsOn.ret _ _ _

theorem runsOn_act_iff {f : E -> S -> Option (β × S)} {k : β -> Prog E S α} {a : α} :
    RunsOn σ i s (act f k) a s' j <->
      exists b s1, f (σ i) s = some (b, s1) ∧ RunsOn σ (i + 1) s1 (k b) a s' j := by
  constructor
  · intro h
    cases h with
    | act hf hk => exact ⟨_, _, hf, hk⟩
  · rintro ⟨b, s1, hf, hk⟩
    exact RunsOn.act hf hk

theorem runsOn_bind_iff {p : Prog E S α} {f : α -> Prog E S β} {b : β} :
    RunsOn σ i s (p.bind f) b s' j <->
      exists a s1 k, RunsOn σ i s p a s1 k ∧ RunsOn σ k s1 (f a) b s' j := by
  constructor
  · intro h
    generalize hq : p.bind f = q at h
    induction h generalizing α with
    | ret i s b =>
        cases p with
        | ret a =>
            refine ⟨a, s, i, RunsOn.ret _ _ _, ?_⟩
            change f a = _ at hq
            rw [hq]
            exact RunsOn.ret _ _ _
        | act g k => cases hq
        | loop body x k => cases hq
    | act hg hk ih =>
        cases p with
        | ret a =>
            change f a = _ at hq
            refine ⟨a, _, _, RunsOn.ret _ _ _, ?_⟩
            rw [hq]
            exact RunsOn.act hg hk
        | act g k =>
            cases hq
            rcases ih rfl with ⟨a, s1, m, hrun, hrest⟩
            exact ⟨a, s1, m, RunsOn.act hg hrun, hrest⟩
        | loop body x k => cases hq
    | loop hrun ih =>
        cases p with
        | ret a =>
            change f a = _ at hq
            refine ⟨a, _, _, RunsOn.ret _ _ _, ?_⟩
            rw [hq]
            exact RunsOn.loop hrun
        | act g k => cases hq
        | loop body x k =>
            cases hq
            rcases ih (unroll_bind _ _ k f) with ⟨a, s1, m, hrun, hrest⟩
            exact ⟨a, s1, m, RunsOn.loop hrun, hrest⟩
  · rintro ⟨a, s1, m, hp, hf⟩
    induction hp with
    | ret i s a => exact hf
    | act hg _ ih => exact RunsOn.act hg (ih hf)
    | loop _ ih =>
        apply RunsOn.loop
        rw [← unroll_bind]
        exact ih hf

theorem runsOn_action_iff {f : E -> S -> Option (β × S)} {b : β} :
    RunsOn σ i s (action f) b s' j <-> f (σ i) s = some (b, s') ∧ j = i + 1 := by
  unfold action
  rw [runsOn_act_iff]
  constructor
  · rintro ⟨b1, s1, hf, hret⟩
    rcases runsOn_ret_iff.mp hret with ⟨rfl, rfl, rfl⟩
    exact ⟨hf, rfl⟩
  · rintro ⟨hf, rfl⟩
    exact ⟨b, s', hf, RunsOn.ret _ _ _⟩

theorem runsOn_read_iff {f : S -> β} {b : β} :
    RunsOn σ i s (read f) b s' j <-> b = f s ∧ s' = s ∧ j = i + 1 := by
  unfold read
  rw [runsOn_action_iff]
  constructor
  · rintro ⟨hf, rfl⟩
    cases hf
    exact ⟨rfl, rfl, rfl⟩
  · rintro ⟨rfl, rfl, rfl⟩
    exact ⟨rfl, rfl⟩

theorem runsOn_modify_iff {f : S -> S} {u : Unit} :
    RunsOn σ i s (modify f) u s' j <-> s' = f s ∧ j = i + 1 := by
  unfold modify
  rw [runsOn_action_iff]
  constructor
  · rintro ⟨hf, rfl⟩
    cases hf
    exact ⟨rfl, rfl⟩
  · rintro ⟨rfl, rfl⟩
    exact ⟨rfl, rfl⟩

theorem runsOn_iterate_iff {body : γ -> Prog E S (γ ⊕ β)} {x : γ} {b : β} :
    RunsOn σ i s (iterate body x) b s' j <->
      exists r s1 k, RunsOn σ i s (body x) r s1 k ∧
        RunsOn σ k s1 (again body ret r) b s' j := by
  constructor
  · intro h
    cases h with
    | loop h => exact runsOn_bind_iff.mp h
  · intro h
    exact RunsOn.loop (runsOn_bind_iff.mpr h)

theorem RunsOn.unique {p : Prog E S α} {a a' : α} {s1 s2 : S} {j1 j2 : Nat}
    (h : RunsOn σ i s p a s1 j1) (h' : RunsOn σ i s p a' s2 j2) :
    a' = a ∧ s2 = s1 ∧ j2 = j1 := by
  induction h with
  | ret i s a => exact runsOn_ret_iff.mp h'
  | act hf _ ih =>
      rcases runsOn_act_iff.mp h' with ⟨b, s3, hf', hrest⟩
      rw [hf] at hf'
      cases hf'
      exact ih hrest
  | loop _ ih =>
      cases h' with
      | loop hrest => exact ih hrest

theorem RunsOn.congr {σ' : Nat -> E} {p : Prog E S α} {a : α}
    (h : RunsOn σ i s p a s' j) (hσ : forall n, i <= n -> σ' n = σ n) :
    RunsOn σ' i s p a s' j := by
  induction h with
  | ret i s a => exact RunsOn.ret i s a
  | act hf _ ih =>
      refine RunsOn.act ?_ (ih fun n hn => hσ n (Nat.le_of_succ_le hn))
      rw [hσ _ (Nat.le_refl _)]
      exact hf
  | loop _ ih => exact RunsOn.loop (ih hσ)

theorem RunsOn.runs {p : Prog E S α} {a : α} (h : RunsOn σ i s p a s' j) :
    Runs (fun _ => True) s p a s' := by
  induction h with
  | ret i s a => exact Runs.ret s a
  | act hf _ ih => exact Runs.act trivial hf ih
  | loop _ ih => exact Runs.loop ih

theorem Runs.exists_runsOn [Inhabited E] {ok : E -> Prop} {p : Prog E S α} {a : α}
    (h : Runs ok s p a s') (i : Nat) : exists σ j, RunsOn σ i s p a s' j := by
  induction h generalizing i with
  | ret s a => exact ⟨fun _ => default, i, RunsOn.ret i s a⟩
  | @act _ _ _ e _ _ _ _ _ _ hf _ ih =>
      rcases ih (i + 1) with ⟨σ, j, hrun⟩
      refine ⟨Function.update σ i e, j, RunsOn.act ?_ (hrun.congr fun n hn => ?_)⟩
      · rw [Function.update_self]
        exact hf
      · exact Function.update_of_ne (Nat.ne_of_gt hn) _ _
  | loop _ ih =>
      rcases ih i with ⟨σ, j, hrun⟩
      exact ⟨σ, j, RunsOn.loop hrun⟩

/-!
## Programs on a part of the state
-/

section Part

variable {get : R -> S} {set : S -> R -> R}

theorem runsOn_embed {σ : Nat -> F} {ans : F -> E} {m : Nat} (hsel : Selects get set)
    {p : Prog E S α} {a : α} {r r' : R}
    (hrun : RunsOn σ (i + m) r (embed ans get set p) a r' j) :
    exists m', j = i + m' ∧
      RunsOn (fun n => ans (σ (i + n))) m (get r) p a (get r') m' ∧
      r' = set (get r') r := by
  generalize hq : embed ans get set p = q at hrun
  generalize hk : i + m = k at hrun
  induction hrun generalizing p m with
  | ret k r a =>
      cases p with
      | ret a' =>
          cases hq
          exact ⟨m, hk.symm, RunsOn.ret _ _ _, (hsel.set_get r).symm⟩
      | act f k => cases hq
      | loop body x k => cases hq
  | act hf _ ih =>
      cases p with
      | ret a' => cases hq
      | act f k =>
          cases hq
          subst hk
          rcases Option.map_eq_some_iff.mp hf with ⟨⟨b, s⟩, hfs, hout⟩
          cases hout
          rcases ih rfl (Nat.add_assoc i m 1).symm with ⟨m', hj, hrun, hr⟩
          rw [hsel.get_set] at hrun
          rw [hsel.set_set] at hr
          exact ⟨m', hj, RunsOn.act hfs hrun, hr⟩
      | loop body x k => cases hq
  | loop _ ih =>
      cases p with
      | ret a' => cases hq
      | act f k => cases hq
      | loop body x k =>
          cases hq
          rcases ih (embed_unroll _ _ _) hk with ⟨m', hj, hrun, hr⟩
          exact ⟨m', hj, RunsOn.loop hrun, hr⟩

theorem runsOn_zoom (hsel : Selects get set) {p : Prog E S α} {a : α} {r r' : R}
    (hrun : RunsOn σ i r (zoom get set p) a r' j) :
    RunsOn σ i (get r) p a (get r') j ∧ r' = set (get r') r := by
  rw [zoom_eq_embed, ← Nat.zero_add i] at hrun
  rcases runsOn_embed hsel hrun with ⟨m, rfl, hrun, hr⟩
  simp only [Nat.zero_add, id] at hrun ⊢
  exact ⟨hrun, hr⟩

end Part

/-!
## Reported ends
-/

/-- `q` takes the steps of `p` and reports how `p` ends, which may be without a result. -/
def Reports (result : β -> Option α) (p : Prog E S α) (q : Prog E S β) : Prop :=
  forall (σ : Nat -> E) i s a s' j,
    RunsOn σ i s p a s' j <-> exists b, RunsOn σ i s q b s' j ∧ result b = some a

section Reports

variable {result : β -> Option α}

theorem reports_ret {a : α} {b : β} (h : result b = some a) :
    Reports result (ret a : Prog E S α) (ret b) := by
  intro σ i s a' s' j
  constructor
  · intro hrun
    rcases runsOn_ret_iff.mp hrun with ⟨rfl, rfl, rfl⟩
    exact ⟨b, RunsOn.ret _ _ _, h⟩
  · rintro ⟨b', hrun, hresult⟩
    rcases runsOn_ret_iff.mp hrun with ⟨rfl, rfl, rfl⟩
    rw [h] at hresult
    cases hresult
    exact RunsOn.ret _ _ _

theorem reports_bind {p : Prog E S γ} {f : γ -> Prog E S α} {g : γ -> Prog E S β}
    (h : forall c, Reports result (f c) (g c)) :
    Reports result (p.bind f) (p.bind g) := by
  intro σ i s a s' j
  constructor
  · intro hrun
    rcases runsOn_bind_iff.mp hrun with ⟨c, s1, k, hp, hf⟩
    rcases (h c σ k s1 a s' j).mp hf with ⟨b, hg, hresult⟩
    exact ⟨b, runsOn_bind_iff.mpr ⟨c, s1, k, hp, hg⟩, hresult⟩
  · rintro ⟨b, hrun, hresult⟩
    rcases runsOn_bind_iff.mp hrun with ⟨c, s1, k, hp, hg⟩
    exact runsOn_bind_iff.mpr
      ⟨c, s1, k, hp, (h c σ k s1 a s' j).mpr ⟨b, hg, hresult⟩⟩

end Reports

/-!
## Execution
-/

/-- Run with the answers of a stream, for at most `fuel` steps. -/
def execOn (σ : Nat -> E) :
    {α : Type} -> Nat -> Nat -> S -> Prog E S α -> Option (α × S × Nat)
  | _, 0, _, _, _ => none
  | _, _ + 1, i, s, ret a => some (a, s, i)
  | _, fuel + 1, i, s, act f k =>
      (f (σ i) s).bind fun r => execOn σ fuel (i + 1) r.2 (k r.1)
  | _, fuel + 1, i, s, loop body x k => execOn σ fuel i s (unroll body x k)

theorem runsOn_of_execOn {fuel : Nat} {p : Prog E S α} {out : α × S × Nat}
    (h : execOn σ fuel i s p = some out) : RunsOn σ i s p out.1 out.2.1 out.2.2 := by
  induction fuel generalizing i s α with
  | zero => cases h
  | succ fuel ih =>
      cases p with
      | ret a =>
          cases h
          exact RunsOn.ret _ _ _
      | act f k =>
          rcases Option.bind_eq_some_iff.mp h with ⟨r, hf, hrest⟩
          exact RunsOn.act hf (ih hrest)
      | loop body x k => exact RunsOn.loop (ih h)

/-!
## Unfinished runs
-/

/-- `PrefixOn σ i s p s' j`: after some steps the state is `s'`, and the next answer is
at `j`. -/
inductive PrefixOn (σ : Nat -> E) :
    {α : Type} -> Nat -> S -> Prog E S α -> S -> Nat -> Prop
  | stop {α : Type} (i : Nat) (s : S) (p : Prog E S α) : PrefixOn σ i s p s i
  | act {α β : Type} {f : E -> S -> Option (β × S)} {k : β -> Prog E S α}
      {i j : Nat} {s s' s'' : S} {b : β} :
      f (σ i) s = some (b, s') -> PrefixOn σ (i + 1) s' (k b) s'' j ->
      PrefixOn σ i s (act f k) s'' j
  | loop {α β γ : Type} {body : γ -> Prog E S (γ ⊕ β)} {x : γ}
      {k : β -> Prog E S α} {i j : Nat} {s s' : S} :
      PrefixOn σ i s (unroll body x k) s' j -> PrefixOn σ i s (loop body x k) s' j

theorem PrefixOn.bind_left {p : Prog E S α} {f : α -> Prog E S β}
    (h : PrefixOn σ i s p s' j) : PrefixOn σ i s (p.bind f) s' j := by
  induction h with
  | stop i s p => exact PrefixOn.stop _ _ _
  | act hf _ ih => exact PrefixOn.act hf ih
  | loop _ ih =>
      apply PrefixOn.loop
      rw [← unroll_bind]
      exact ih

theorem RunsOn.prefixOn {p : Prog E S α} {a : α} (h : RunsOn σ i s p a s' j) :
    PrefixOn σ i s p s' j := by
  induction h with
  | ret i s a => exact PrefixOn.stop _ _ _
  | act hf _ ih => exact PrefixOn.act hf ih
  | loop _ ih => exact PrefixOn.loop ih

theorem RunsOn.bind_prefix {p : Prog E S α} {f : α -> Prog E S β} {a : α} {s1 : S}
    {k : Nat} (hp : RunsOn σ i s p a s1 k) (h : PrefixOn σ k s1 (f a) s' j) :
    PrefixOn σ i s (p.bind f) s' j := by
  induction hp with
  | ret i s a => exact h
  | act hf _ ih => exact PrefixOn.act hf (ih h)
  | loop _ ih =>
      apply PrefixOn.loop
      rw [← unroll_bind]
      exact ih h

/-- `P` holds in all states of the run, finished or not. -/
def Along (σ : Nat -> E) (P : S -> Prop) (i : Nat) (s : S) (p : Prog E S α) : Prop :=
  forall s' j, PrefixOn σ i s p s' j -> P s'

section Along

variable {P : S -> Prop}

theorem Along.here {p : Prog E S α} (h : Along σ P i s p) : P s :=
  h s i (PrefixOn.stop _ _ _)

theorem Along.final {p : Prog E S α} {a : α} (h : Along σ P i s p)
    (hrun : RunsOn σ i s p a s' j) : P s' :=
  h s' j hrun.prefixOn

theorem Along.bind_left {p : Prog E S α} {f : α -> Prog E S β}
    (h : Along σ P i s (p.bind f)) : Along σ P i s p :=
  fun s' j hp => h s' j hp.bind_left

theorem Along.bind_right {p : Prog E S α} {f : α -> Prog E S β} {a : α} {s1 : S}
    {k : Nat} (h : Along σ P i s (p.bind f)) (hp : RunsOn σ i s p a s1 k) :
    Along σ P k s1 (f a) :=
  fun s' j hf => h s' j (hp.bind_prefix hf)

theorem Along.round {body : γ -> Prog E S (γ ⊕ β)} {x : γ}
    (h : Along σ P i s (iterate body x)) : Along σ P i s (body x) :=
  fun s' j hp => h s' j (PrefixOn.loop hp.bind_left)

theorem Along.next {body : γ -> Prog E S (γ ⊕ β)} {x y : γ} {s1 : S} {k : Nat}
    (h : Along σ P i s (iterate body x)) (hr : RunsOn σ i s (body x) (.inl y) s1 k) :
    Along σ P k s1 (iterate body y) :=
  fun s' j hp => h s' j (PrefixOn.loop (hr.bind_prefix hp))

/-- A loop whose rounds all end, keep `I` and come closer to the end of the loop is
finished at some time. -/
theorem exists_runsOn_iterate {body : γ -> Prog E S (γ ⊕ β)} (measure : γ -> Nat)
    (I : S -> Prop)
    (hround : forall x i s, I s -> Along σ P i s (iterate body x) -> exists r s1 k,
      RunsOn σ i s (body x) r s1 k ∧
        forall y, r = .inl y -> I s1 ∧ measure y < measure x)
    (x : γ) (i : Nat) (s : S) (hI : I s) (h : Along σ P i s (iterate body x)) :
    exists b s' j, RunsOn σ i s (iterate body x) b s' j := by
  induction hn : measure x using Nat.strongRecOn generalizing x i s with
  | ind n ih =>
      rcases hround x i s hI h with ⟨r, s1, k, hr, hnext⟩
      cases r with
      | inr b =>
          exact ⟨b, s1, k, runsOn_iterate_iff.mpr ⟨_, s1, k, hr, RunsOn.ret _ _ _⟩⟩
      | inl y =>
          rcases hnext y rfl with ⟨hI1, hlt⟩
          rcases ih (measure y) (hn ▸ hlt) y k s1 hI1 (h.next hr) rfl with
            ⟨b, s', j, hrest⟩
          exact ⟨b, s', j, runsOn_iterate_iff.mpr ⟨_, s1, k, hr, hrest⟩⟩

/-- The states of a run that ends within `fuel` steps. -/
def statesOn (σ : Nat -> E) :
    {α : Type} -> Nat -> Nat -> S -> Prog E S α -> Option (List S)
  | _, 0, _, _, _ => none
  | _, _ + 1, _, s, ret _ => some [s]
  | _, fuel + 1, i, s, act f k =>
      (f (σ i) s).bind fun r => (statesOn σ fuel (i + 1) r.2 (k r.1)).map (s :: ·)
  | _, fuel + 1, i, s, loop body x k => statesOn σ fuel i s (unroll body x k)

theorem along_of_statesOn {fuel : Nat} {p : Prog E S α} {states : List S}
    (h : statesOn σ fuel i s p = some states) (hP : forall s', s' ∈ states -> P s') :
    Along σ P i s p := by
  induction fuel generalizing i s α states with
  | zero => cases h
  | succ fuel ih =>
      intro s' j hprefix
      cases p with
      | ret a =>
          cases h
          cases hprefix with
          | stop _ _ _ => exact hP _ (List.mem_singleton_self _)
      | act f k =>
          rcases Option.bind_eq_some_iff.mp h with ⟨r, hf, hrest⟩
          rcases Option.map_eq_some_iff.mp hrest with ⟨rest, hstates, rfl⟩
          cases hprefix with
          | stop _ _ _ => exact hP _ (List.mem_cons_self ..)
          | act hf' hprefix =>
              rw [hf] at hf'
              cases hf'
              exact ih hstates (fun s hs => hP s (List.mem_cons_of_mem _ hs)) _ _ hprefix
      | loop body x k =>
          cases hprefix with
          | stop _ _ _ => exact (ih h hP).here
          | loop hprefix => exact ih h hP _ _ hprefix

end Along

end Prog
end Foundation
end QnxVirtio
