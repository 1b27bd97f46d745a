import QnxVirtio.Foundation.Framing

/-!
# Progress

A verified thread keeps the invariant as far as it goes.  Here a thread also goes on: it
has a next step, whatever it is told, unless it waits for somebody.
-/

namespace QnxVirtio
namespace Foundation

variable {T E D S R G α β γ : Type}

namespace Prog

/-- Every action has a step in every state, on any fair answer. -/
def Ready (fair : E -> Prop) : {α : Type} -> Prog E S α -> Prop
  | _, ret _ => True
  | _, act f k => (forall e s, fair e -> (f e s).isSome = true) ∧ forall b, Ready fair (k b)
  | _, loop body _ k => (forall y, Ready fair (body y)) ∧ forall b, Ready fair (k b)

variable {fair : E -> Prop}

theorem ready_action {f : E -> S -> Option (β × S)}
    (h : forall e s, fair e -> (f e s).isSome = true) : Ready fair (action f) :=
  ⟨h, fun _ => trivial⟩

theorem ready_total (f : E -> S -> β × S) :
    Ready fair (action fun e s => some (f e s)) :=
  ready_action fun _ _ _ => rfl

theorem Ready.bind {p : Prog E S α} {f : α -> Prog E S β} (hp : Ready fair p)
    (hf : forall a, Ready fair (f a)) : Ready fair (p.bind f) := by
  induction p with
  | ret a => exact hf a
  | act g k ih => exact ⟨hp.1, fun b => ih b (hp.2 b) hf⟩
  | loop body x k _ ih => exact ⟨hp.1, fun b => ih b (hp.2 b) hf⟩

theorem Ready.unroll {body : γ -> Prog E S (γ ⊕ β)} {x : γ} {k : β -> Prog E S α}
    (hbody : forall y, Ready fair (body y)) (hk : forall b, Ready fair (k b)) :
    Ready fair (unroll body x k) := by
  refine (hbody x).bind fun r => ?_
  cases r with
  | inl y => exact ⟨hbody, hk⟩
  | inr b => exact hk b

theorem Ready.zoom {get : R -> S} {set : S -> R -> R} {p : Prog E S α}
    (hp : Ready fair p) : Ready fair (zoom get set p) := by
  induction p with
  | ret a => exact trivial
  | act f k ih =>
      constructor
      · intro e r he
        rw [Option.isSome_map]
        exact hp.1 e (get r) he
      · exact fun b => ih b (hp.2 b)
  | loop body x k ihBody ih =>
      exact ⟨fun y => ihBody y (hp.1 y), fun b => ih b (hp.2 b)⟩

/-- Every value that the program can give, as its actions answer, has the property. -/
def Gives : {α : Type} -> (α -> Prop) -> Prog E S α -> Prop
  | _, P, ret a => P a
  | _, P, act f k => forall e s b s', f e s = some (b, s') -> Gives P (k b)
  | _, P, loop _ _ k => forall b, Gives P (k b)

theorem Gives.bind {P : α -> Prop} {P' : β -> Prop} {p : Prog E S α} {f : α -> Prog E S β}
    (hp : p.Gives P) (hf : forall a, P a -> (f a).Gives P') : (p.bind f).Gives P' := by
  induction p with
  | ret a => exact hf a hp
  | act g k ih => exact fun e s b s' hg => ih b (hp e s b s' hg) hf
  | loop body x k _ ih => exact fun b => ih b (hp b) hf

theorem gives_action {P : β -> Prop} {f : E -> S -> Option (β × S)}
    (h : forall e s b s', f e s = some (b, s') -> P b) : (action f).Gives P :=
  h

theorem gives_any (p : Prog E S α) : p.Gives fun _ => True := by
  induction p with
  | ret a => exact trivial
  | act f k ih => exact fun _ _ b _ _ => ih b
  | loop body x k _ ih => exact ih

end Prog

/-- The answers that a thread must be able to go on with, when it may wait, and what would
end the wait. -/
structure Patience (T E S G : Type) where
  fair : E -> Prop
  waits : T -> G -> S -> Prop
  wake : T -> E -> S -> E × S

namespace Patience

/-- A step is possible, or the thread waits and the step is possible once it is woken. -/
def Patient (W : Patience T E S G) (t : T) (g : G) (s : S) (e : E)
    (step : E -> S -> Bool) : Prop :=
  step e s = true ∨
    (W.waits t g s ∧ step (W.wake t e s).1 (W.wake t e s).2 = true)

end Patience

namespace Contract

variable [DecidableEq T] (C : Contract T E D S G) (W : Patience T E S G)

/-- Wherever the invariant holds, thread `t` with ghost `g` has this action or waits for
it. -/
def Enabled (t : T) (g : G) (f : E -> S -> Option (β × S)) : Prop :=
  forall s gs e, C.inv s gs -> gs t = g -> W.fair e ->
    W.Patient t g s e fun e s => (f e s).isSome

/-- For `n` steps thread `t` keeps the invariant and is never stuck, and it ends in `Q`. -/
def Alive (t : T) : Nat -> G -> {α : Type} -> Prog E S α -> (α -> G -> Prop) -> Prop
  | 0, _, _, _, _ => True
  | _ + 1, g, _, .ret a, Q => Q a g
  | n + 1, g, _, .act f k, Q =>
      C.Enabled W t g f ∧ C.Keeps t g f fun b g' => Alive t n g' (k b) Q
  | n + 1, g, _, .loop body x k, Q => Alive t n g (Prog.unroll body x k) Q

/-- Thread `t`, started with ghost `g`, keeps the invariant and goes on until it ends in
`Q`. -/
def Live (t : T) (g : G) (p : Prog E S α) (Q : α -> G -> Prop) : Prop :=
  forall n, C.Alive W t n g p Q

variable {C W} {t : T} {g : G}

theorem Alive.mono {Q Q' : α -> G -> Prop} (hQ : forall a g, Q a g -> Q' a g) :
    forall {n : Nat} {g : G} {p : Prog E S α},
      C.Alive W t n g p Q -> C.Alive W t n g p Q' := by
  intro n
  induction n with
  | zero => intro g p _; exact trivial
  | succ n ih =>
      intro g p h
      cases p with
      | ret a => exact hQ a g h
      | act f k => exact ⟨h.1, h.2.mono fun b g' hb => ih hb⟩
      | loop body x k => exact ih h

theorem Alive.pred {Q : α -> G -> Prop} :
    forall {n : Nat} {g : G} {p : Prog E S α},
      C.Alive W t (n + 1) g p Q -> C.Alive W t n g p Q := by
  intro n
  induction n with
  | zero => intro g p _; exact trivial
  | succ n ih =>
      intro g p h
      cases p with
      | ret a => exact h
      | act f k => exact ⟨h.1, h.2.mono fun b g' hb => ih hb⟩
      | loop body x k => exact ih h

theorem Alive.bind {Q : α -> G -> Prop} {Q' : β -> G -> Prop} {f : α -> Prog E S β} :
    forall {n : Nat} {g : G} {p : Prog E S α},
      (forall m, m <= n -> forall a g, Q a g -> C.Alive W t m g (f a) Q') ->
      C.Alive W t n g p Q -> C.Alive W t n g (p.bind f) Q' := by
  intro n
  induction n with
  | zero => intro g p _ _; exact trivial
  | succ n ih =>
      intro g p hf h
      have hf' : forall m, m <= n -> forall a g, Q a g -> C.Alive W t m g (f a) Q' :=
        fun m hm => hf m (Nat.le_succ_of_le hm)
      cases p with
      | ret a => exact hf (n + 1) (Nat.le_refl _) a g h
      | act h' k => exact ⟨h.1, h.2.mono fun b g' hb => ih hf' hb⟩
      | loop body x k =>
          change C.Alive W t n g (Prog.unroll body x fun b => (k b).bind f) Q'
          rw [← Prog.unroll_bind]
          exact ih hf' h

theorem Alive.next {Q : α -> G -> Prop} {n : Nat} {p : Prog E S α} {s : S} {gs : T -> G}
    (h : C.Alive W t (n + 1) g p Q) (hinv : C.inv s gs) (hg : gs t = g) :
    (exists a, p = .ret a ∧ Q a g) ∨
      forall e, W.fair e -> W.Patient t g s e fun e s => (p.step e s).isSome := by
  cases p with
  | ret a => exact Or.inl ⟨a, rfl, h⟩
  | act f k =>
      refine Or.inr fun e he => ?_
      simp only [Prog.step, Option.isSome_map]
      exact h.1 s gs e hinv hg he
  | loop body x k => exact Or.inr fun _ _ => Or.inl rfl

/-!
## Rules
-/

theorem Live.ret {a : α} {Q : α -> G -> Prop} (h : Q a g) :
    C.Live W t g (Prog.ret a) Q := by
  intro n
  cases n with
  | zero => exact trivial
  | succ n => exact h

theorem Live.conseq {p : Prog E S α} {Q Q' : α -> G -> Prop} (h : C.Live W t g p Q)
    (hQ : forall a g, Q a g -> Q' a g) : C.Live W t g p Q' :=
  fun n => Alive.mono hQ (h n)

theorem Live.bind {p : Prog E S α} {f : α -> Prog E S β} {Q : α -> G -> Prop}
    {Q' : β -> G -> Prop} (hp : C.Live W t g p Q)
    (hf : forall a g', Q a g' -> C.Live W t g' (f a) Q') :
    C.Live W t g (p.bind f) Q' :=
  fun n => Alive.bind (fun m _ a g' ha => hf a g' ha m) (hp n)

theorem Live.action {f : E -> S -> Option (β × S)} {Q : β -> G -> Prop}
    (henabled : C.Enabled W t g f) (h : C.Keeps t g f Q) :
    C.Live W t g (Prog.action f) Q := by
  intro n
  cases n with
  | zero => exact trivial
  | succ n => exact ⟨henabled, h.mono fun b g' hb => Live.ret hb n⟩

theorem Live.loop {J : γ -> G -> Prop} {body : γ -> Prog E S (γ ⊕ β)}
    {k : β -> Prog E S α} {Q : α -> G -> Prop} {P : β -> G -> Prop}
    (hbody : forall x g, J x g -> C.Live W t g (body x) fun r g' =>
      match r with
      | .inl y => J y g'
      | .inr b => P b g')
    (hk : forall b g, P b g -> C.Live W t g (k b) Q) :
    forall {x : γ} {g : G}, J x g -> C.Live W t g (Prog.loop body x k) Q := by
  intro x g hJ n
  induction n using Nat.strongRecOn generalizing x g with
  | ind n ih =>
      cases n with
      | zero => exact trivial
      | succ n =>
          change C.Alive W t n g (Prog.unroll body x k) Q
          apply Alive.bind _ (hbody x g hJ n)
          intro m hm r g' hr
          cases r with
          | inl y => exact ih m (Nat.lt_succ_of_le hm) hr
          | inr b => exact hk b g' hr m

theorem Triple.keeps {f : E -> S -> Option (β × S)} {Q : β -> G -> Prop}
    (h : C.Triple t g (Prog.action f) Q) : C.Keeps t g f Q :=
  Keeps.mono (h 2) fun _ _ hb => hb

/-!
## A narrower contract
-/

/-- A contract for fewer moves and a further property of the state. -/
def narrow (C : Contract T E D S G) (ok : Move T E D -> Prop) (X : S -> Prop) :
    Contract T E D S G where
  env := C.env
  ok := fun m s => C.ok m s ∧ ok m
  inv := fun s gs => C.inv s gs ∧ X s

variable {ok : Move T E D -> Prop} {X : S -> Prop}

theorem Keeps.narrow {f : E -> S -> Option (β × S)} {Q Q' : β -> G -> Prop}
    (h : C.Keeps t g f Q)
    (hX : forall e s gs b s' g', C.inv s gs -> gs t = g -> ok (.thread t e) ->
      f e s = some (b, s') -> Q b g' -> X s -> X s' ∧ Q' b g') :
    (C.narrow ok X).Keeps t g f Q' := by
  intro e s gs b s' hok hinv hg hf
  rcases h e s gs b s' hok.1 hinv.1 hg hf with ⟨g', hinv', hQ⟩
  rcases hX e s gs b s' g' hinv.1 hg hok.2 hf hQ hinv.2 with ⟨hX', hQ'⟩
  exact ⟨g', ⟨hinv', hX'⟩, hQ'⟩

theorem Triple.live {M : S -> S -> Prop} (hX : forall s s', M s s' -> X s -> X s')
    {p : Prog E S α} {Q : α -> G -> Prop} (h : C.Triple t g p Q) (hp : p.Within M)
    (hready : p.Ready W.fair) : (C.narrow ok X).Live W t g p Q := by
  intro n
  have hsafe := h n
  clear h
  induction n generalizing g p with
  | zero => exact trivial
  | succ n ih =>
      cases p with
      | ret a => exact hsafe
      | act f k =>
          refine ⟨fun s _ e _ _ he => Or.inl (hready.1 e s he), ?_⟩
          refine Keeps.narrow hsafe fun e s gs b s' g' _ _ _ hf hb hs => ?_
          exact ⟨hX s s' (hp.1 e s b s' hf) hs, ih (hp.2 b) (hready.2 b) hb⟩
      | loop body x k =>
          exact ih (Prog.Within.unroll hp.1 hp.2) (Prog.Ready.unroll hready.1 hready.2) hsafe

/-!
## From threads to runs
-/

/-- The invariant holds and each thread is alive for `n` steps, in `Q` if it has ended. -/
def AllAlive (C : Contract T E D S G) (W : Patience T E S G) (Q : T -> G -> Prop) (n : Nat)
    (c : Pool T E S) (gs : T -> G) : Prop :=
  C.inv c.state gs ∧ forall t, C.Alive W t n (gs t) (c.thread t) fun _ g => Q t g

variable {c₀ c c' : Pool T E S} {gs gs₀ : T -> G} {Q : T -> G -> Prop}

theorem AllAlive.move {n : Nat} {m : Move T E D} (h : AllAlive C W Q (n + 1) c gs)
    (henv : forall d s gs s', C.ok (.env d) s -> C.inv s gs ->
      C.env d s = some s' -> C.inv s' gs)
    (hok : C.ok m c.state) (hstep : c.step C.env m = some c') :
    exists gs', AllAlive C W Q n c' gs' ∧
      forall u, (forall e, m ≠ .thread u e) -> gs' u = gs u := by
  rcases h with ⟨hI, hA⟩
  cases m with
  | env d =>
      rcases Option.map_eq_some_iff.mp hstep with ⟨s', hd, rfl⟩
      exact ⟨gs, ⟨henv d _ _ _ hok hI hd, fun t => (hA t).pred⟩, fun _ _ => rfl⟩
  | thread t e =>
      rcases Option.map_eq_some_iff.mp hstep with ⟨⟨s', p'⟩, hp, rfl⟩
      have ht := hA t
      have hother : forall (g' : G) u, (forall e', Move.thread t e ≠ .thread (D := D) u e') ->
          Function.update gs t g' u = gs u := by
        intro g' u hu
        refine Function.update_of_ne (fun heq => ?_) _ _
        exact hu e (by rw [heq])
      cases hprog : c.thread t with
      | ret a =>
          rw [hprog] at hp
          cases hp
      | act f k =>
          rw [hprog] at hp ht
          rcases Option.map_eq_some_iff.mp hp with ⟨⟨b, s1⟩, hf, hout⟩
          cases hout
          rcases ht.2 e c.state gs b s1 hok hI rfl hf with ⟨g', hI', halive'⟩
          refine ⟨Function.update gs t g', ⟨hI', fun u => ?_⟩, hother g'⟩
          by_cases hu : u = t
          · subst hu
            simpa using halive'
          · simpa [Function.update_of_ne hu] using (hA u).pred
      | loop body x k =>
          rw [hprog] at hp ht
          cases hp
          refine ⟨gs, ⟨hI, fun u => ?_⟩, fun _ _ => rfl⟩
          by_cases hu : u = t
          · subst hu
            simp only [Function.update_self]
            exact ht
          · simpa [Function.update_of_ne hu] using (hA u).pred

theorem allAlive_of_reachable (hinv : C.inv c₀.state gs₀)
    (hthread : forall t, C.Live W t (gs₀ t) (c₀.thread t) fun _ g => Q t g)
    (henv : forall d s gs s', C.ok (.env d) s -> C.inv s gs ->
      C.env d s = some s' -> C.inv s' gs)
    (hc : Pool.Reachable C.env C.ok c₀ c) (n : Nat) :
    exists gs, AllAlive C W Q n c gs := by
  induction hc generalizing n with
  | refl => exact ⟨gs₀, hinv, fun t => hthread t n⟩
  | step _ hok hstep ih =>
      rcases ih (n + 1) with ⟨gs, halive⟩
      rcases halive.move henv hok hstep with ⟨gs', halive', _⟩
      exact ⟨gs', halive'⟩

theorem AllAlive.next {n : Nat} (h : AllAlive C W Q (n + 1) c gs) (t : T) :
    (c.thread t = .ret () ∧ Q t (gs t)) ∨ forall e, W.fair e ->
      W.Patient t (gs t) c.state e fun e s => ((c.thread t).step e s).isSome := by
  rcases (h.2 t).next h.1 rfl with ⟨a, ha, hQ⟩ | hrest
  · exact Or.inl ⟨ha, hQ⟩
  · exact Or.inr hrest

end Contract

end Foundation
end QnxVirtio
