import Mathlib.Logic.Function.Basic

/-!
# Programs over a shared state

A program is a tree of atomic actions on a shared state.  An action may block
and may consult one answer of its environment (an allocation result, an
interruption, a failing call).  Loops are a constructor of their own, so that a
server that never returns is still a program.

The small-step semantics `Prog.step` is what interleaving is built from; the
big-step relation `Prog.Runs` is the meaning of a call that nobody interrupts.
-/

namespace QnxVirtio
namespace Foundation

/-- Programs with environment answers `E`, shared state `S` and result `α`. -/
inductive Prog (E S : Type) : Type -> Type 1
  | ret {α : Type} (a : α) : Prog E S α
  | act {α β : Type} (f : E -> S -> Option (β × S)) (k : β -> Prog E S α) :
      Prog E S α
  | loop {α β γ : Type} (body : γ -> Prog E S (γ ⊕ β)) (x : γ)
      (k : β -> Prog E S α) : Prog E S α

namespace Prog

variable {E F S R α β γ δ : Type}

def bind : Prog E S α -> (α -> Prog E S β) -> Prog E S β
  | ret a, f => f a
  | act g k, f => act g fun b => bind (k b) f
  | loop body x k, f => loop body x fun b => bind (k b) f

instance : Monad (Prog E S) where
  pure := ret
  bind := bind

@[simp] theorem pure_eq_ret (a : α) : (pure a : Prog E S α) = ret a := rfl

@[simp] theorem bind_eq_bind (p : Prog E S α) (f : α -> Prog E S β) :
    p >>= f = p.bind f := rfl

@[simp] theorem ret_bind (a : α) (f : α -> Prog E S β) :
    (ret a).bind f = f a := rfl

@[simp] theorem act_bind (g : E -> S -> Option (γ × S))
    (k : γ -> Prog E S α) (f : α -> Prog E S β) :
    (act g k).bind f = act g fun b => (k b).bind f := rfl

@[simp] theorem loop_bind (body : γ -> Prog E S (γ ⊕ δ)) (x : γ)
    (k : δ -> Prog E S α) (f : α -> Prog E S β) :
    (loop body x k).bind f = loop body x fun b => (k b).bind f := rfl

theorem bind_assoc (p : Prog E S α) (f : α -> Prog E S β)
    (g : β -> Prog E S γ) :
    (p.bind f).bind g = p.bind fun a => (f a).bind g := by
  induction p with
  | ret a => rfl
  | act h k ih => simp only [act_bind, ih]
  | loop body x k _ ih => simp only [loop_bind, ih]

/-!
## Building blocks
-/

/-- A single atomic action. -/
def action (f : E -> S -> Option (β × S)) : Prog E S β :=
  act f ret

/-- Read a value off the shared state in one step. -/
def read (f : S -> β) : Prog E S β :=
  action fun _ s => some (f s, s)

/-- Replace the shared state in one step. -/
def modify (f : S -> S) : Prog E S Unit :=
  action fun _ s => some ((), f s)

/-- Repeat `body` until it answers with a result. -/
def iterate (body : γ -> Prog E S (γ ⊕ β)) (x : γ) : Prog E S β :=
  loop body x ret

/-- The continuation of one round of a loop. -/
def again (body : γ -> Prog E S (γ ⊕ β)) (k : β -> Prog E S α) :
    γ ⊕ β -> Prog E S α
  | .inl y => loop body y k
  | .inr b => k b

/-- One unrolling of a loop. -/
def unroll (body : γ -> Prog E S (γ ⊕ β)) (x : γ) (k : β -> Prog E S α) :
    Prog E S α :=
  (body x).bind (again body k)

theorem unroll_bind (body : γ -> Prog E S (γ ⊕ δ)) (x : γ)
    (k : δ -> Prog E S α) (f : α -> Prog E S β) :
    (unroll body x k).bind f = unroll body x fun b => (k b).bind f := by
  unfold unroll
  rw [bind_assoc]
  congr 1
  funext r
  cases r <;> rfl

/-!
## Steps
-/

/-- One step: an action with the environment's answer, or a loop unrolling. -/
def step (e : E) (s : S) : Prog E S α -> Option (S × Prog E S α)
  | ret _ => none
  | act f k => (f e s).map fun r => (r.2, k r.1)
  | loop body x k => some (s, unroll body x k)

/-- `Runs ok s p a s'`: run alone from `s` with answers allowed by `ok`, the
program returns `a` in `s'`. -/
inductive Runs (ok : E -> Prop) :
    {α : Type} -> S -> Prog E S α -> α -> S -> Prop
  | ret {α : Type} (s : S) (a : α) : Runs ok s (ret a) a s
  | act {α β : Type} {f : E -> S -> Option (β × S)} {k : β -> Prog E S α}
      {e : E} {s s' s'' : S} {b : β} {a : α} :
      ok e -> f e s = some (b, s') -> Runs ok s' (k b) a s'' ->
      Runs ok s (act f k) a s''
  | loop {α β γ : Type} {body : γ -> Prog E S (γ ⊕ β)} {x : γ}
      {k : β -> Prog E S α} {s s' : S} {a : α} :
      Runs ok s (unroll body x k) a s' -> Runs ok s (loop body x k) a s'

theorem runs_ret_iff {ok : E -> Prop} {s s' : S} {a a' : α} :
    Runs ok s (ret a) a' s' <-> a' = a ∧ s' = s := by
  constructor
  · intro h
    cases h
    exact ⟨rfl, rfl⟩
  · rintro ⟨rfl, rfl⟩
    exact Runs.ret _ _

theorem runs_act_iff {ok : E -> Prop} {f : E -> S -> Option (β × S)}
    {k : β -> Prog E S α} {s s' : S} {a : α} :
    Runs ok s (act f k) a s' <->
      exists e b s1, ok e ∧ f e s = some (b, s1) ∧ Runs ok s1 (k b) a s' := by
  constructor
  · intro h
    cases h with
    | act hok hf hk => exact ⟨_, _, _, hok, hf, hk⟩
  · rintro ⟨e, b, s1, hok, hf, hk⟩
    exact Runs.act hok hf hk

theorem runs_bind_iff {ok : E -> Prop} {p : Prog E S α} {f : α -> Prog E S β}
    {s s' : S} {b : β} :
    Runs ok s (p.bind f) b s' <->
      exists a s1, Runs ok s p a s1 ∧ Runs ok s1 (f a) b s' := by
  constructor
  · intro h
    generalize hq : p.bind f = q at h
    induction h generalizing α with
    | ret s b =>
        cases p with
        | ret a =>
            refine ⟨a, s, Runs.ret _ _, ?_⟩
            change f a = _ at hq
            rw [hq]
            exact Runs.ret _ _
        | act g k => cases hq
        | loop body x k => cases hq
    | act hok hg hk ih =>
        cases p with
        | ret a =>
            change f a = _ at hq
            refine ⟨a, _, Runs.ret _ _, ?_⟩
            rw [hq]
            exact Runs.act hok hg hk
        | act g k =>
            cases hq
            rcases ih rfl with ⟨a, s1, hrun, hrest⟩
            exact ⟨a, s1, Runs.act hok hg hrun, hrest⟩
        | loop body x k => cases hq
    | loop hrun ih =>
        cases p with
        | ret a =>
            change f a = _ at hq
            refine ⟨a, _, Runs.ret _ _, ?_⟩
            rw [hq]
            exact Runs.loop hrun
        | act g k => cases hq
        | loop body x k =>
            cases hq
            rcases ih (unroll_bind _ _ k f) with ⟨a, s1, hrun, hrest⟩
            exact ⟨a, s1, Runs.loop hrun, hrest⟩
  · rintro ⟨a, s1, hp, hf⟩
    induction hp with
    | ret s a => exact hf
    | act hok hg _ ih => exact Runs.act hok hg (ih hf)
    | loop _ ih =>
        apply Runs.loop
        rw [← unroll_bind]
        exact ih hf

theorem runs_action_iff {ok : E -> Prop} {f : E -> S -> Option (β × S)}
    {s s' : S} {b : β} :
    Runs ok s (action f) b s' <-> exists e, ok e ∧ f e s = some (b, s') := by
  unfold action
  rw [runs_act_iff]
  constructor
  · rintro ⟨e, b1, s1, hok, hf, hret⟩
    rcases runs_ret_iff.mp hret with ⟨rfl, rfl⟩
    exact ⟨e, hok, hf⟩
  · rintro ⟨e, hok, hf⟩
    exact ⟨e, b, s', hok, hf, Runs.ret _ _⟩

theorem Runs.bind {ok : E -> Prop} {p : Prog E S α} {f : α -> Prog E S β}
    {s s1 s' : S} {a : α} {b : β} (hp : Runs ok s p a s1)
    (hf : Runs ok s1 (f a) b s') : Runs ok s (p.bind f) b s' :=
  runs_bind_iff.mpr ⟨a, s1, hp, hf⟩

theorem runs_modify_iff {ok : E -> Prop} {f : S -> S} {s s' : S} {u : Unit} :
    Runs ok s (modify f) u s' <-> (exists e, ok e) ∧ s' = f s := by
  unfold modify
  rw [runs_action_iff]
  constructor
  · rintro ⟨e, hok, hf⟩
    cases hf
    exact ⟨⟨e, hok⟩, rfl⟩
  · rintro ⟨⟨e, hok⟩, rfl⟩
    exact ⟨e, hok, rfl⟩

theorem runs_read_iff {ok : E -> Prop} {f : S -> β} {s s' : S} {b : β} :
    Runs ok s (read f) b s' <-> (exists e, ok e) ∧ b = f s ∧ s' = s := by
  unfold read
  rw [runs_action_iff]
  constructor
  · rintro ⟨e, hok, hf⟩
    cases hf
    exact ⟨⟨e, hok⟩, rfl, rfl⟩
  · rintro ⟨⟨e, hok⟩, rfl, rfl⟩
    exact ⟨e, hok, rfl⟩

theorem Runs.eq_of_bind_ret {ok : E -> Prop} {p : Prog E S α} {b b' : β}
    {s s' : S} (h : Runs ok s (p.bind fun _ => Prog.ret b) b' s') : b' = b := by
  rcases runs_bind_iff.mp h with ⟨a, s1, _, hret⟩
  exact (runs_ret_iff.mp hret).1

/-!
## Execution
-/

/-- Run alone with the given answers, one for each step. -/
def exec : {α : Type} -> List E -> S -> Prog E S α -> Option (α × S)
  | _, _, s, ret a => some (a, s)
  | _, [], _, act _ _ => none
  | _, [], _, loop _ _ _ => none
  | _, e :: es, s, act f k => (f e s).bind fun r => exec es r.2 (k r.1)
  | _, _ :: es, s, loop body x k => exec es s (unroll body x k)

theorem runs_of_exec {ok : E -> Prop} {es : List E} (hok : forall e, e ∈ es -> ok e)
    {s : S} {p : Prog E S α} {out : α × S} (h : exec es s p = some out) :
    Runs ok s p out.1 out.2 := by
  induction es generalizing s α with
  | nil =>
      cases p with
      | ret a =>
          cases h
          exact Runs.ret _ _
      | act f k => cases h
      | loop body x k => cases h
  | cons e es ih =>
      have hes : forall e, e ∈ es -> ok e :=
        fun e' he' => hok e' (List.mem_cons_of_mem _ he')
      cases p with
      | ret a =>
          cases h
          exact Runs.ret _ _
      | act f k =>
          rcases Option.bind_eq_some_iff.mp h with ⟨r, hf, hrest⟩
          exact Runs.act (hok e (List.mem_cons_self ..)) hf (ih hes hrest)
      | loop body x k => exact Runs.loop (ih hes h)

theorem exists_runs_of_exec {ok : E -> Prop} {es : List E}
    (hok : forall e, e ∈ es -> ok e) {s : S} {p : Prog E S α} {a : α}
    (h : (exec es s p).map Prod.fst = some a) : exists s', Runs ok s p a s' := by
  rcases Option.map_eq_some_iff.mp h with ⟨out, hout, rfl⟩
  exact ⟨out.2, runs_of_exec hok hout⟩

/-!
## Loops that run alone
-/

/-- What each round of a loop establishes: the invariant for the next round, or
the result. -/
def RoundPost (J : γ -> S -> Prop) (Q : β -> S -> Prop) : γ ⊕ β -> S -> Prop
  | .inl y, s => J y s
  | .inr b, s => Q b s

private theorem runs_again {ok : E -> Prop} {body : γ -> Prog E S (γ ⊕ β)}
    {k : β -> Prog E S α} {J : γ -> S -> Prop} {Q : β -> S -> Prop}
    (hbody : forall x s r s1, J x s -> Runs ok s (body x) r s1 ->
      RoundPost J Q r s1)
    {s s' : S} {p : Prog E S α} {a : α} (hrun : Runs ok s p a s') :
    forall q : Prog E S (γ ⊕ β), p = q.bind (again body k) ->
      (forall r s1, Runs ok s q r s1 -> RoundPost J Q r s1) ->
      exists b s1, Q b s1 ∧ Runs ok s1 (k b) a s' := by
  induction hrun with
  | ret s a =>
      intro q hq hpost
      cases q with
      | ret r =>
          have hr := hpost r s (Runs.ret _ _)
          cases r with
          | inl y => cases hq
          | inr b =>
              refine ⟨b, s, hr, ?_⟩
              change _ = k b at hq
              rw [← hq]
              exact Runs.ret _ _
      | act f kq => cases hq
      | loop body' x' kq => cases hq
  | act hok hf hk ih =>
      intro q hq hpost
      cases q with
      | ret r =>
          have hr := hpost r _ (Runs.ret _ _)
          cases r with
          | inl y => cases hq
          | inr b =>
              refine ⟨b, _, hr, ?_⟩
              change _ = k b at hq
              rw [← hq]
              exact Runs.act hok hf hk
      | act f kq =>
          cases hq
          exact ih _ rfl fun r s1 hr => hpost r s1 (Runs.act hok hf hr)
      | loop body' x' kq => cases hq
  | loop hrun ih =>
      intro q hq hpost
      cases q with
      | ret r =>
          have hr := hpost r _ (Runs.ret _ _)
          cases r with
          | inl y =>
              -- the next round starts: its body takes the place of `q`
              cases hq
              exact ih (body y) rfl
                fun r s1 hbodyRun => hbody y _ r s1 hr hbodyRun
          | inr b =>
              refine ⟨b, _, hr, ?_⟩
              change _ = k b at hq
              rw [← hq]
              exact Runs.loop hrun
      | act f kq => cases hq
      | loop body' x' kq =>
          cases hq
          exact ih _ (unroll_bind _ _ kq (again body k)).symm
            fun r s1 hr => hpost r s1 (Runs.loop hr)

/-- The invariant rule for a loop that runs alone. -/
theorem runs_iterate_inv {ok : E -> Prop} {body : γ -> Prog E S (γ ⊕ β)}
    {J : γ -> S -> Prop} {Q : β -> S -> Prop}
    (hbody : forall x s r s1, J x s -> Runs ok s (body x) r s1 ->
      RoundPost J Q r s1)
    {x : γ} {s s' : S} {b : β} (hJ : J x s)
    (hrun : Runs ok s (iterate body x) b s') : Q b s' := by
  have hround : forall r s1, Runs ok s (ret (.inl x)) r s1 ->
      RoundPost J Q r s1 := by
    intro r s1 hr
    rcases runs_ret_iff.mp hr with ⟨rfl, rfl⟩
    exact hJ
  rcases runs_again hbody hrun (ret (.inl x)) rfl hround with ⟨b', s1, hQ, hret⟩
  rcases runs_ret_iff.mp hret with ⟨rfl, rfl⟩
  exact hQ

/-!
## Programs on a part of the state
-/

/-- Run a program on the component that `get` and `set` select, with the part `ans`
of each answer. -/
def embed (ans : F -> E) (get : R -> S) (set : S -> R -> R) :
    {α : Type} -> Prog E S α -> Prog F R α
  | _, ret a => ret a
  | _, act f k =>
      act (fun e r => (f (ans e) (get r)).map fun out => (out.1, set out.2 r))
        fun b => embed ans get set (k b)
  | _, loop body x k =>
      loop (fun y => embed ans get set (body y)) x fun b => embed ans get set (k b)

/-- What `get` and `set` need to select a component. -/
structure Selects (get : R -> S) (set : S -> R -> R) : Prop where
  get_set : forall s r, get (set s r) = s
  set_set : forall s s' r, set s' (set s r) = set s' r
  set_get : forall r, set (get r) r = r

section Embed

variable {ans : F -> E} {get : R -> S} {set : S -> R -> R}

theorem embed_bind (p : Prog E S α) (f : α -> Prog E S β) :
    embed ans get set (p.bind f) =
      (embed ans get set p).bind fun a => embed ans get set (f a) := by
  induction p with
  | ret a => rfl
  | act g k ih => simp only [act_bind, embed, ih]
  | loop body x k _ ih => simp only [loop_bind, embed, ih]

theorem embed_unroll (body : γ -> Prog E S (γ ⊕ β)) (x : γ) (k : β -> Prog E S α) :
    embed ans get set (unroll body x k) =
      unroll (fun y => embed ans get set (body y)) x
        fun b => embed ans get set (k b) := by
  unfold unroll
  rw [embed_bind]
  congr 1
  funext r
  cases r <;> rfl

theorem runs_embed {ok : F -> Prop} (ok' : E -> Prop)
    (hok : forall e, ok e -> ok' (ans e)) (hsel : Selects get set) {p : Prog E S α}
    {a : α} {r r' : R} (hrun : Runs ok r (embed ans get set p) a r') :
    Runs ok' (get r) p a (get r') ∧ r' = set (get r') r := by
  generalize hq : embed ans get set p = q at hrun
  induction hrun generalizing p with
  | ret r a =>
      cases p with
      | ret a' =>
          cases hq
          exact ⟨Runs.ret _ _, (hsel.set_get r).symm⟩
      | act f k => cases hq
      | loop body x k => cases hq
  | act he hf hk ih =>
      cases p with
      | ret a' => cases hq
      | act f k =>
          cases hq
          rcases Option.map_eq_some_iff.mp hf with ⟨⟨b, s⟩, hfs, hout⟩
          cases hout
          rcases ih rfl with ⟨hrun, hr⟩
          rw [hsel.get_set] at hrun
          rw [hsel.set_set] at hr
          exact ⟨Runs.act (hok _ he) hfs hrun, hr⟩
      | loop body x k => cases hq
  | loop hrun ih =>
      cases p with
      | ret a' => cases hq
      | act f k => cases hq
      | loop body x k =>
          cases hq
          rcases ih (embed_unroll _ _ _) with ⟨hrun, hr⟩
          exact ⟨Runs.loop hrun, hr⟩

end Embed

/-- Run a program on the component of a larger state that `get` and `set`
select. -/
def zoom (get : R -> S) (set : S -> R -> R) :
    {α : Type} -> Prog E S α -> Prog E R α
  | _, ret a => ret a
  | _, act f k =>
      act (fun e r => (f e (get r)).map fun out => (out.1, set out.2 r))
        fun b => zoom get set (k b)
  | _, loop body x k =>
      loop (fun y => zoom get set (body y)) x fun b => zoom get set (k b)

@[simp] theorem zoom_ret (get : R -> S) (set : S -> R -> R) (a : α) :
    zoom get set (ret a : Prog E S α) = ret a := rfl

section Zoom

variable {get : R -> S} {set : S -> R -> R}

theorem zoom_eq_embed (p : Prog E S α) : zoom get set p = embed id get set p := by
  induction p with
  | ret a => rfl
  | act f k ih => simp only [zoom, embed, ih, id]
  | loop body x k hbody ih => simp only [zoom, embed, hbody, ih]

theorem zoom_bind (p : Prog E S α) (f : α -> Prog E S β) :
    zoom get set (p.bind f) = (zoom get set p).bind fun a => zoom get set (f a) := by
  simp only [zoom_eq_embed, embed_bind]

theorem zoom_unroll (body : γ -> Prog E S (γ ⊕ β)) (x : γ) (k : β -> Prog E S α) :
    zoom get set (unroll body x k) =
      unroll (fun y => zoom get set (body y)) x fun b => zoom get set (k b) := by
  simp only [zoom_eq_embed, embed_unroll]

theorem runs_zoom {ok : E -> Prop} (hsel : Selects get set) {p : Prog E S α} {a : α}
    {r r' : R} (hrun : Runs ok r (zoom get set p) a r') :
    Runs ok (get r) p a (get r') ∧ r' = set (get r') r := by
  rw [zoom_eq_embed] at hrun
  exact runs_embed ok (fun _ h => h) hsel hrun

end Zoom

end Prog

end Foundation
end QnxVirtio
