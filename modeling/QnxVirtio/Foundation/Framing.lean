import QnxVirtio.Foundation.Pool

/-!
# Framing

What the actions of a program do at most, step by step, and what follows for a thread
that is verified against an invariant: a program that stays within what the invariant
does not look at keeps it, and what it yields stands next to what is proved of it.
-/

namespace QnxVirtio
namespace Foundation
namespace Prog

variable {E F S R α β γ δ : Type}

/-- Every action of the program, whatever it is told, moves within `M`. -/
def Within (M : S -> S -> Prop) : {α : Type} -> Prog E S α -> Prop
  | _, ret _ => True
  | _, act f k =>
      (forall e s b s', f e s = some (b, s') -> M s s') ∧ forall b, Within M (k b)
  | _, loop body _ k => (forall y, Within M (body y)) ∧ forall b, Within M (k b)

variable {M : S -> S -> Prop}

theorem within_ret (a : α) : Within M (ret a : Prog E S α) :=
  trivial

theorem within_action {f : E -> S -> Option (β × S)}
    (h : forall e s b s', f e s = some (b, s') -> M s s') : Within M (action f) :=
  ⟨h, fun _ => trivial⟩

theorem within_modify {f : S -> S} (h : forall s, M s (f s)) :
    Within M (modify f : Prog E S Unit) := by
  refine within_action fun e s b s' hf => ?_
  cases hf
  exact h s

theorem within_look (hrefl : forall s, M s s) (f : E -> S -> β) :
    Within M (action fun e s => some (f e s, s)) := by
  refine within_action fun e s b s' hf => ?_
  cases hf
  exact hrefl s

theorem Within.mono {N : S -> S -> Prop} (h : forall s s', M s s' -> N s s')
    {p : Prog E S α} (hp : Within M p) : Within N p := by
  induction p with
  | ret a => exact trivial
  | act f k ih =>
      exact ⟨fun e s b s' hf => h s s' (hp.1 e s b s' hf), fun b => ih b (hp.2 b)⟩
  | loop body x k ihBody ih =>
      exact ⟨fun y => ihBody y (hp.1 y), fun b => ih b (hp.2 b)⟩

theorem Within.bind {p : Prog E S α} {f : α -> Prog E S β} (hp : Within M p)
    (hf : forall a, Within M (f a)) : Within M (p.bind f) := by
  induction p with
  | ret a => exact hf a
  | act g k ih => exact ⟨hp.1, fun b => ih b (hp.2 b) hf⟩
  | loop body x k _ ih => exact ⟨hp.1, fun b => ih b (hp.2 b) hf⟩

theorem Within.unroll {body : γ -> Prog E S (γ ⊕ β)} {x : γ} {k : β -> Prog E S α}
    (hbody : forall y, Within M (body y)) (hk : forall b, Within M (k b)) :
    Within M (unroll body x k) := by
  refine (hbody x).bind fun r => ?_
  cases r with
  | inl y => exact ⟨hbody, hk⟩
  | inr b => exact hk b

theorem within_iterate {body : γ -> Prog E S (γ ⊕ β)}
    (h : forall y, Within M (body y)) (x : γ) : Within M (iterate body x) :=
  ⟨h, fun _ => trivial⟩

theorem Within.embed {N : R -> R -> Prop} {ans : F -> E} {get : R -> S}
    {set : S -> R -> R} (h : forall r s, M (get r) s -> N r (set s r))
    {p : Prog E S α} (hp : Within M p) : Within N (embed ans get set p) := by
  induction p with
  | ret a => exact trivial
  | act f k ih =>
      refine ⟨fun e r b r' hf => ?_, fun b => ih b (hp.2 b)⟩
      rcases Option.map_eq_some_iff.mp hf with ⟨⟨b', s⟩, hfs, hout⟩
      cases hout
      exact h r s (hp.1 _ _ b' s hfs)
  | loop body x k ihBody ih =>
      exact ⟨fun y => ihBody y (hp.1 y), fun b => ih b (hp.2 b)⟩

theorem Within.zoom {N : R -> R -> Prop} {get : R -> S} {set : S -> R -> R}
    (h : forall r s, M (get r) s -> N r (set s r)) {p : Prog E S α} (hp : Within M p) :
    Within N (zoom get set p) := by
  rw [zoom_eq_embed]
  exact hp.embed h

theorem within_any (p : Prog E S α) : Within (fun _ _ => True) p := by
  induction p with
  | ret a => exact trivial
  | act f k ih => exact ⟨fun _ _ _ _ _ => trivial, ih⟩
  | loop body x k ihBody ih => exact ⟨ihBody, ih⟩

/-- Every value that the program returns has the property. -/
def Yields : {α : Type} -> (α -> Prop) -> Prog E S α -> Prop
  | _, R, ret a => R a
  | _, R, act _ k => forall b, Yields R (k b)
  | _, R, loop _ _ k => forall b, Yields R (k b)

theorem Yields.bind {R : β -> Prop} {f : α -> Prog E S β}
    (hf : forall a, Yields R (f a)) (p : Prog E S α) : Yields R (p.bind f) := by
  induction p with
  | ret a => exact hf a
  | act g k ih => exact fun b => ih b hf
  | loop body x k _ ih => exact fun b => ih b hf

theorem Yields.unroll {R : α -> Prop} {k : β -> Prog E S α}
    (hk : forall b, Yields R (k b)) (body : γ -> Prog E S (γ ⊕ β)) (x : γ) :
    Yields R (unroll body x k) := by
  refine Yields.bind (fun r => ?_) (body x)
  cases r with
  | inl y => exact hk
  | inr b => exact hk b

theorem Within.step {p p' : Prog E S α} {e : E} {s s' : S} (hp : Within M p)
    (hrefl : forall s, M s s) (hstep : p.step e s = some (s', p')) :
    M s s' ∧ Within M p' := by
  cases p with
  | ret a => cases hstep
  | act f k =>
      rcases Option.map_eq_some_iff.mp hstep with ⟨⟨b, s1⟩, hf, hout⟩
      cases hout
      exact ⟨hp.1 e s b s1 hf, hp.2 b⟩
  | loop body x k =>
      cases hstep
      exact ⟨hrefl s, Within.unroll hp.1 hp.2⟩

end Prog

/-- What holds in the end and is never regained held all along. -/
theorem Pool.Reachable.held {T E D S : Type} [DecidableEq T] {env : D -> S -> Option S}
    {ok : Move T E D -> S -> Prop} {c₀ c : Pool T E S} {M : S -> S -> Prop}
    {P : S -> Prop} (hrefl : forall s, M s s) (hback : forall s s', M s s' -> P s' -> P s)
    (hthread : forall t, (c₀.thread t).Within M)
    (henv : forall d s s', env d s = some s' -> M s s')
    (hc : Pool.Reachable env ok c₀ c) (hP : P c.state) :
    Pool.Reachable env (fun m s => ok m s ∧ P s) c₀ c := by
  suffices hall : (forall t, (c.thread t).Within M) ∧ (P c.state ->
      Pool.Reachable env (fun m s => ok m s ∧ P s) c₀ c) from hall.2 hP
  clear hP
  induction hc with
  | refl => exact ⟨hthread, fun _ => Pool.Reachable.refl⟩
  | @step c c' m _ hok hstep ih =>
      rcases ih with ⟨hwithin, hheld⟩
      have hnext : M c.state c'.state ∧ forall t, (c'.thread t).Within M := by
        cases m with
        | thread t e =>
            rcases Option.map_eq_some_iff.mp hstep with ⟨⟨s, p⟩, hp, rfl⟩
            rcases (hwithin t).step hrefl hp with ⟨hM, hp'⟩
            refine ⟨hM, fun u => ?_⟩
            by_cases hu : u = t
            · subst hu
              simpa using hp'
            · simpa [Function.update_of_ne hu] using hwithin u
        | env d =>
            rcases Option.map_eq_some_iff.mp hstep with ⟨s, hd, rfl⟩
            exact ⟨henv d _ _ hd, hwithin⟩
      refine ⟨hnext.2, fun hP => ?_⟩
      have hbefore := hback _ _ hnext.1 hP
      exact Pool.Reachable.step (hheld hbefore) ⟨hok, hbefore⟩ hstep

namespace Contract

variable {T E D D' S R G α : Type} [DecidableEq T]

theorem Triple.of_within {C : Contract T E D S G} {M : S -> S -> Prop}
    (hinv : forall s s' gs, M s s' -> C.inv s gs -> C.inv s' gs) {t : T} {g : G}
    {p : Prog E S α} (hp : p.Within M) : C.Triple t g p fun _ g' => g' = g := by
  intro n
  induction n generalizing α with
  | zero => exact trivial
  | succ n ih =>
      cases p with
      | ret a => exact rfl
      | act f k =>
          intro e s gs b s' _ hI hg hf
          refine ⟨g, ?_, ih (hp.2 b)⟩
          rw [← hg, Function.update_eq_self]
          exact hinv s s' gs (hp.1 e s b s' hf) hI
      | loop body x k => exact ih (Prog.Within.unroll hp.1 hp.2)

theorem Safe.yields {C : Contract T E D S G} {t : T} {Q : α -> G -> Prop} {R : α -> Prop} :
    forall {n : Nat} {g : G} {p : Prog E S α}, C.Safe t n g p Q -> p.Yields R ->
      C.Safe t n g p fun a g' => Q a g' ∧ R a := by
  intro n
  induction n with
  | zero => intros; exact trivial
  | succ n ih =>
      intro g p h hp
      cases p with
      | ret a => exact ⟨h, hp⟩
      | act f k => exact Keeps.mono h fun b g' hb => ih hb (hp b)
      | loop body x k => exact ih h (Prog.Yields.unroll hp body x)

theorem Triple.yields {C : Contract T E D S G} {t : T} {g : G} {p : Prog E S α}
    {Q : α -> G -> Prop} {R : α -> Prop} (h : C.Triple t g p Q) (hp : p.Yields R) :
    C.Triple t g p fun a g' => Q a g' ∧ R a :=
  fun n => Safe.yields (h n) hp

/-!
## More to keep
-/

section Beside

variable {H : Type}

/-- A contract next to an invariant over further ghosts. -/
def beside (C : Contract T E D S G) (X : S -> (T -> H) -> Prop) :
    Contract T E D S (G × H) where
  env := C.env
  ok := C.ok
  inv := fun s gs => C.inv s (Prod.fst ∘ gs) ∧ X s (Prod.snd ∘ gs)

variable {C : Contract T E D S G} {X : S -> (T -> H) -> Prop} {M : S -> S -> Prop} {t : T}

theorem Safe.beside (hX : forall s s' gs gs' hs, M s s' -> C.inv s gs -> C.inv s' gs' ->
      X s hs -> X s' hs) (x : H) :
    forall {n : Nat} {α : Type} {p : Prog E S α} {g : G} {Q : α -> G -> Prop},
      p.Within M -> C.Safe t n g p Q ->
        (C.beside X).Safe t n (g, x) p fun a y => Q a y.1 ∧ y.2 = x := by
  intro n
  induction n with
  | zero => intros; exact trivial
  | succ n ih =>
      intro α p g Q hp h
      cases p with
      | ret a => exact ⟨h, rfl⟩
      | act f k =>
          rintro e s gs b s' hok ⟨hI, hx⟩ hg hf
          rcases h e s _ b s' hok hI (congrArg Prod.fst hg) hf with ⟨g', hI', hrest⟩
          have hsame : Function.update (Prod.snd ∘ gs) t x = Prod.snd ∘ gs := by
            rw [← show (Prod.snd ∘ gs) t = x from congrArg Prod.snd hg,
              Function.update_eq_self]
          refine ⟨(g', x), ⟨?_, ?_⟩, ih (hp.2 b) hrest⟩
          · rw [Function.comp_update]
            exact hI'
          · rw [Function.comp_update, hsame]
            exact hX s s' _ _ _ (hp.1 e s b s' hf) hI hI' hx
      | loop body x k => exact ih (Prog.Within.unroll hp.1 hp.2) h

theorem Triple.beside (hX : forall s s' gs gs' hs, M s s' -> C.inv s gs -> C.inv s' gs' ->
      X s hs -> X s' hs) {g : G} {p : Prog E S α} {Q : α -> G -> Prop}
    (hp : p.Within M) (h : C.Triple t g p Q) (x : H) :
    (C.beside X).Triple t (g, x) p fun a y => Q a y.1 ∧ y.2 = x :=
  fun n => Safe.beside hX x hp (h n)

theorem Triple.besideAction {g : G} {x x' : H} {f : E -> S -> Option (β × S)}
    {Q : β -> G -> Prop} (h : C.Triple t g (Prog.action f) Q)
    (hX : forall e s gs hs b s' g', C.inv s gs -> gs t = g -> f e s = some (b, s') ->
      C.inv s' (Function.update gs t g') -> Q b g' -> hs t = x -> X s hs ->
        X s' (Function.update hs t x')) :
    (C.beside X).Triple t (g, x) (Prog.action f) fun b y => Q b y.1 ∧ y.2 = x' := by
  apply Triple.action
  rintro e s gs b s' hok ⟨hI, hx⟩ hg hf
  rcases h 2 e s _ b s' hok hI (congrArg Prod.fst hg) hf with ⟨g', hI', hQ⟩
  refine ⟨(g', x'), ⟨?_, ?_⟩, hQ, rfl⟩
  · rw [Function.comp_update]
    exact hI'
  · rw [Function.comp_update]
    exact hX e s _ _ b s' g' hI (congrArg Prod.fst hg) hf hI' hQ (congrArg Prod.snd hg) hx

end Beside

end Contract

end Foundation
end QnxVirtio
