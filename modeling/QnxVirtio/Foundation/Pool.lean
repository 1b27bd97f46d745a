import QnxVirtio.Foundation.Prog

/-!
# Interleaved programs and ghost ownership

A pool runs one program for each thread over one shared state, next to an
environment with moves of its own.  Safety of every interleaving is proved
thread by thread: each thread carries a ghost value that only its own actions
change, and a global invariant ties the shared state to the ghosts of all
threads.  A thread is verified against the invariant with the rules of
`Contract.Triple`; `Contract.invariant_of_reachable` turns the thread proofs
into an invariant of all reachable states.
-/

namespace QnxVirtio
namespace Foundation

/-- One move of a pool: a thread with an answer of its environment, or the
surroundings of the threads. -/
inductive Move (T E D : Type)
  | thread (t : T) (e : E)
  | env (d : D)

structure Pool (T E S : Type) where
  state : S
  thread : T -> Prog E S Unit

namespace Pool

variable {T E D S : Type} [DecidableEq T]

def step (env : D -> S -> Option S) :
    Move T E D -> Pool T E S -> Option (Pool T E S)
  | .thread t e, c =>
      ((c.thread t).step e c.state).map fun r =>
        { state := r.1, thread := Function.update c.thread t r.2 }
  | .env d, c => (env d c.state).map fun s => { c with state := s }

/-- The pool after a list of moves, if each of them is possible. -/
def run (env : D -> S -> Option S) :
    List (Move T E D) -> Pool T E S -> Option (Pool T E S)
  | [], c => some c
  | m :: ms, c => (c.step env m).bind (run env ms)

/-- Pools that moves allowed by `ok` lead to. -/
inductive Reachable (env : D -> S -> Option S) (ok : Move T E D -> S -> Prop)
    (c₀ : Pool T E S) : Pool T E S -> Prop
  | refl : Reachable env ok c₀ c₀
  | step {c c' : Pool T E S} {m : Move T E D} :
      Reachable env ok c₀ c -> ok m c.state -> c.step env m = some c' ->
      Reachable env ok c₀ c'

theorem reachable_run {env : D -> S -> Option S} {ok : Move T E D -> S -> Prop}
    {c₀ c c' : Pool T E S} {ms : List (Move T E D)}
    (hc : Reachable env ok c₀ c) (hok : forall m, m ∈ ms -> forall s, ok m s)
    (hrun : c.run env ms = some c') : Reachable env ok c₀ c' := by
  induction ms generalizing c with
  | nil =>
      cases hrun
      exact hc
  | cons m ms ih =>
      simp only [run] at hrun
      rcases Option.bind_eq_some_iff.mp hrun with ⟨c1, hstep, hrest⟩
      have hc1 : Reachable env ok c₀ c1 :=
        Reachable.step hc (hok m (by simp) c.state) hstep
      exact ih hc1 (fun m' hm' => hok m' (by simp [hm'])) hrest

namespace Reachable

variable {env : D -> S -> Option S} {ok : Move T E D -> S -> Prop}
  {c₀ c : Pool T E S}

theorem inside (hc : Reachable env ok c₀ c) (t : T) (e : E)
    {p : Prog E S Unit} {s : S} (hok : ok (.thread t e) c.state)
    (hstep : (c.thread t).step e c.state = some (s, p)) :
    Reachable env ok c₀
      { state := s, thread := Function.update c.thread t p } := by
  refine Reachable.step hc hok ?_
  simp [Pool.step, hstep]

theorem outside (hc : Reachable env ok c₀ c) (d : D) {s : S}
    (hok : ok (.env d) c.state) (hd : env d c.state = some s) :
    Reachable env ok c₀ { c with state := s } := by
  refine Reachable.step hc hok ?_
  simp [Pool.step, hd]

end Reachable

theorem Reachable.mono {env : D -> S -> Option S}
    {ok ok' : Move T E D -> S -> Prop} {c₀ c : Pool T E S}
    (hle : forall m s, ok m s -> ok' m s) (hc : Reachable env ok c₀ c) :
    Reachable env ok' c₀ c := by
  induction hc with
  | refl => exact Reachable.refl
  | step _ hok hstep ih => exact Reachable.step ih (hle _ _ hok) hstep

theorem Reachable.strengthen {env : D -> S -> Option S}
    {ok : Move T E D -> S -> Prop} {c₀ c : Pool T E S} {P : S -> Prop}
    (hP : forall c', Reachable env ok c₀ c' -> P c'.state)
    (hc : Reachable env ok c₀ c) :
    Reachable env (fun m s => ok m s ∧ P s) c₀ c := by
  induction hc with
  | refl => exact Reachable.refl
  | step hbefore hok hstep ih => exact Reachable.step ih ⟨hok, hP _ hbefore⟩ hstep

theorem Reachable.surroundings {D' : Type} {env : D -> S -> Option S}
    {env' : D' -> S -> Option S} {ok : Move T E D -> S -> Prop} {c₀ c : Pool T E S}
    (h : forall d s s', env d s = some s' -> exists d', env' d' s = some s')
    (hc : Reachable env ok c₀ c) : Reachable env' (fun _ _ => True) c₀ c := by
  induction hc with
  | refl => exact Reachable.refl
  | @step c c' m _ _ hstep ih =>
      cases m with
      | thread t e => exact Reachable.step (m := .thread t e) ih trivial hstep
      | env d =>
          rcases Option.map_eq_some_iff.mp hstep with ⟨s, hd, rfl⟩
          rcases h d _ _ hd with ⟨d', hd'⟩
          exact ih.outside d' trivial hd'

end Pool

/-!
# Thread-local verification
-/

/-- What the threads of a pool agree on: the moves of the surroundings, the
moves that are allowed at all, and the invariant over the shared state and the
ghost of each thread. -/
structure Contract (T E D S G : Type) where
  env : D -> S -> Option S
  ok : Move T E D -> S -> Prop
  inv : S -> (T -> G) -> Prop

namespace Contract

variable {T E D S G : Type} [DecidableEq T] (C : Contract T E D S G)
variable {α β γ : Type}

/-- An action of thread `t` with ghost `g` keeps the invariant, moving the ghost
of `t` to one that satisfies `post`. -/
def Keeps (t : T) (g : G) (f : E -> S -> Option (β × S))
    (post : β -> G -> Prop) : Prop :=
  forall e s gs b s', C.ok (.thread t e) s -> C.inv s gs -> gs t = g ->
    f e s = some (b, s') ->
    exists g', C.inv s' (Function.update gs t g') ∧ post b g'

/-- For `n` steps thread `t` keeps the invariant, and it ends in `Q`. -/
def Safe (t : T) :
    Nat -> G -> {α : Type} -> Prog E S α -> (α -> G -> Prop) -> Prop
  | 0, _, _, _, _ => True
  | _ + 1, g, _, .ret a, Q => Q a g
  | n + 1, g, _, .act f k, Q =>
      C.Keeps t g f fun b g' => Safe t n g' (k b) Q
  | n + 1, g, _, .loop body x k, Q => Safe t n g (Prog.unroll body x k) Q

/-- Thread `t`, started with ghost `g`, keeps the invariant in every step and
ends only in `Q`. -/
def Triple (t : T) (g : G) (p : Prog E S α) (Q : α -> G -> Prop) : Prop :=
  forall n, C.Safe t n g p Q

variable {C}

theorem Keeps.mono {t : T} {g : G} {f : E -> S -> Option (β × S)}
    {post post' : β -> G -> Prop} (h : C.Keeps t g f post)
    (hpost : forall b g', post b g' -> post' b g') : C.Keeps t g f post' := by
  intro e s gs b s' hok hinv hg hf
  rcases h e s gs b s' hok hinv hg hf with ⟨g', hinv', hb⟩
  exact ⟨g', hinv', hpost b g' hb⟩

theorem Safe.mono {t : T} {Q Q' : α -> G -> Prop}
    (hQ : forall a g, Q a g -> Q' a g) :
    forall {n : Nat} {g : G} {p : Prog E S α},
      C.Safe t n g p Q -> C.Safe t n g p Q' := by
  intro n
  induction n with
  | zero => intro g p _; exact trivial
  | succ n ih =>
      intro g p h
      cases p with
      | ret a => exact hQ a g h
      | act f k => exact Keeps.mono h fun b g' hb => ih hb
      | loop body x k => exact ih h

theorem Safe.pred {t : T} {Q : α -> G -> Prop} :
    forall {n : Nat} {g : G} {p : Prog E S α},
      C.Safe t (n + 1) g p Q -> C.Safe t n g p Q := by
  intro n
  induction n with
  | zero => intro g p _; exact trivial
  | succ n ih =>
      intro g p h
      cases p with
      | ret a => exact h
      | act f k => exact Keeps.mono h fun b g' hb => ih hb
      | loop body x k => exact ih h

theorem Safe.bind {t : T} {Q : α -> G -> Prop} {R : β -> G -> Prop}
    {f : α -> Prog E S β} :
    forall {n : Nat} {g : G} {p : Prog E S α},
      (forall m, m <= n -> forall a g, Q a g -> C.Safe t m g (f a) R) ->
      C.Safe t n g p Q -> C.Safe t n g (p.bind f) R := by
  intro n
  induction n with
  | zero => intro g p _ _; exact trivial
  | succ n ih =>
      intro g p hf h
      have hf' : forall m, m <= n -> forall a g, Q a g -> C.Safe t m g (f a) R :=
        fun m hm => hf m (Nat.le_succ_of_le hm)
      cases p with
      | ret a => exact hf (n + 1) (Nat.le_refl _) a g h
      | act h' k => exact Keeps.mono h fun b g' hb => ih hf' hb
      | loop body x k =>
          change C.Safe t n g (Prog.unroll body x fun b => (k b).bind f) R
          rw [← Prog.unroll_bind]
          exact ih hf' h

/-!
## Rules
-/

theorem Triple.ret {t : T} {g : G} {a : α} {Q : α -> G -> Prop} (h : Q a g) :
    C.Triple t g (Prog.ret a) Q := by
  intro n
  cases n with
  | zero => exact trivial
  | succ n => exact h

theorem Triple.conseq {t : T} {g : G} {p : Prog E S α} {Q Q' : α -> G -> Prop}
    (h : C.Triple t g p Q) (hQ : forall a g, Q a g -> Q' a g) :
    C.Triple t g p Q' :=
  fun n => Safe.mono hQ (h n)

theorem Triple.bind {t : T} {g : G} {p : Prog E S α} {f : α -> Prog E S β}
    {Q : α -> G -> Prop} {R : β -> G -> Prop} (hp : C.Triple t g p Q)
    (hf : forall a g', Q a g' -> C.Triple t g' (f a) R) :
    C.Triple t g (p.bind f) R :=
  fun n => Safe.bind (fun m _ a g' ha => hf a g' ha m) (hp n)

theorem Triple.act {t : T} {g : G} {f : E -> S -> Option (β × S)}
    {k : β -> Prog E S α} {Q : α -> G -> Prop}
    (h : C.Keeps t g f fun b g' => C.Triple t g' (k b) Q) :
    C.Triple t g (Prog.act f k) Q := by
  intro n
  cases n with
  | zero => exact trivial
  | succ n => exact Keeps.mono h fun b g' hb => hb n

theorem Triple.action {t : T} {g : G} {f : E -> S -> Option (β × S)}
    {Q : β -> G -> Prop} (h : C.Keeps t g f Q) :
    C.Triple t g (Prog.action f) Q :=
  Triple.act (Keeps.mono h fun _ _ hb => Triple.ret hb)

/-- The loop rule: `J` is the loop invariant over the loop variable and the
ghost of the thread. -/
theorem Triple.loop {t : T} {J : γ -> G -> Prop} {body : γ -> Prog E S (γ ⊕ β)}
    {k : β -> Prog E S α} {Q : α -> G -> Prop} {R : β -> G -> Prop}
    (hbody : forall x g, J x g -> C.Triple t g (body x) fun r g' =>
      match r with
      | .inl y => J y g'
      | .inr b => R b g')
    (hk : forall b g, R b g -> C.Triple t g (k b) Q) :
    forall {x : γ} {g : G}, J x g -> C.Triple t g (Prog.loop body x k) Q := by
  intro x g hJ n
  induction n using Nat.strongRecOn generalizing x g with
  | ind n ih =>
      cases n with
      | zero => exact trivial
      | succ n =>
          -- the unrolling costs one step, so the next round is below `n + 1`
          change C.Safe t n g (Prog.unroll body x k) Q
          apply Safe.bind _ (hbody x g hJ n)
          intro m hm r g' hr
          cases r with
          | inl y => exact ih m (by omega) hr
          | inr b => exact hk b g' hr m

/-!
## From threads to runs
-/

/-- The verified threads of a pool keep the invariant in every reachable state,
whatever the interleaving. -/
theorem invariant_of_reachable {c₀ c : Pool T E S} {gs₀ : T -> G}
    (hinv : C.inv c₀.state gs₀)
    (hthread : forall t, C.Triple t (gs₀ t) (c₀.thread t) fun _ _ => True)
    (henv : forall d s gs s', C.ok (.env d) s -> C.inv s gs ->
      C.env d s = some s' -> C.inv s' gs)
    (hc : Pool.Reachable C.env C.ok c₀ c) :
    exists gs, C.inv c.state gs := by
  -- the threads stay safe for every number of further steps
  have hsafe : forall n, exists gs, C.inv c.state gs ∧
      forall t, C.Safe t n (gs t) (c.thread t) fun _ _ => True := by
    induction hc with
    | refl => exact fun n => ⟨gs₀, hinv, fun t => hthread t n⟩
    | @step c c' m _ hok hstep ih =>
        intro n
        rcases ih (n + 1) with ⟨gs, hI, hS⟩
        cases m with
        | env d =>
            simp only [Pool.step, Option.map_eq_some_iff] at hstep
            rcases hstep with ⟨s', hd, rfl⟩
            exact ⟨gs, henv d _ _ _ hok hI hd, fun t => Safe.pred (hS t)⟩
        | thread t e =>
            simp only [Pool.step, Option.map_eq_some_iff] at hstep
            rcases hstep with ⟨⟨s', p'⟩, hp, rfl⟩
            have ht := hS t
            cases hprog : c.thread t with
            | ret a =>
                rw [hprog] at hp
                cases hp
            | act f k =>
                rw [hprog] at hp ht
                simp only [Prog.step, Option.map_eq_some_iff] at hp
                rcases hp with ⟨⟨b, s1⟩, hf, hout⟩
                cases hout
                rcases ht e c.state gs b s1 hok hI rfl hf with ⟨g', hI', hsafe'⟩
                refine ⟨Function.update gs t g', hI', fun u => ?_⟩
                by_cases hu : u = t
                · subst hu
                  simpa using hsafe'
                · simpa [Function.update_of_ne hu] using Safe.pred (hS u)
            | loop body x k =>
                rw [hprog] at hp ht
                cases hp
                refine ⟨gs, hI, fun u => ?_⟩
                by_cases hu : u = t
                · subst hu
                  simp only [Function.update_self]
                  exact ht
                · simpa [Function.update_of_ne hu] using Safe.pred (hS u)
  rcases hsafe 0 with ⟨gs, hI, _⟩
  exact ⟨gs, hI⟩

end Contract

end Foundation
end QnxVirtio
