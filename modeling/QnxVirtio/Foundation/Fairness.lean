import QnxVirtio.Foundation.Progress

/-!
# Fair runs

A thread that is scheduled again and again gets where it must get, if it cannot go on
forever elsewhere.  How far a program can go is a matter of its own steps: here the steps
that are allowed are those of a stretch of a run, with all that is known to hold
throughout the stretch, and a program is followed until no such step is left.  A quantity
that no other thread changes is followed along with it.
-/

namespace QnxVirtio
namespace Foundation

variable {T E D S G V α β γ : Type}

namespace Prog

variable {M : E -> S -> S -> Prop} {q : S -> V} {v : V} {Q : α -> V -> Prop}

/-- Wherever the quantity is `v`, and whatever the program is told, steps within `M` lead it
to an end in `Q`, or to a place from where no step is within `M`. -/
inductive Ends (M : E -> S -> S -> Prop) (q : S -> V) (Q : α -> V -> Prop) :
    V -> Prog E S α -> Prop
  | ret {v : V} {a : α} : Q a v -> Ends M q Q v (ret a)
  | act {β : Type} {v : V} {f : E -> S -> Option (β × S)} {k : β -> Prog E S α} :
      (forall e s b s', M e s s' -> q s = v -> f e s = some (b, s') ->
        Ends M q Q (q s') (k b)) ->
      Ends M q Q v (act f k)
  | loop {β γ : Type} {v : V} {body : γ -> Prog E S (γ ⊕ β)} {x : γ}
      {k : β -> Prog E S α} :
      Ends M q Q v (unroll body x k) -> Ends M q Q v (loop body x k)

theorem ends_action {f : E -> S -> Option (β × S)} {Q : β -> V -> Prop}
    (h : forall e s b s', M e s s' -> q s = v -> f e s = some (b, s') -> Q b (q s')) :
    Ends M q Q v (action f) :=
  Ends.act fun e s b s' hM hv hf => Ends.ret (h e s b s' hM hv hf)

theorem Ends.mono {Q' : α -> V -> Prop} (hQ : forall a v, Q a v -> Q' a v)
    {p : Prog E S α} (h : Ends M q Q v p) : Ends M q Q' v p := by
  induction h with
  | ret ha => exact Ends.ret (hQ _ _ ha)
  | act _ ih => exact Ends.act ih
  | loop _ ih => exact Ends.loop ih

theorem Ends.bind {P : β -> V -> Prop} {p : Prog E S α} {f : α -> Prog E S β}
    (hp : Ends M q Q v p) (hf : forall a v, Q a v -> Ends M q P v (f a)) :
    Ends M q P v (p.bind f) := by
  induction hp with
  | ret ha => exact hf _ _ ha
  | act _ ih => exact Ends.act ih
  | loop _ ih =>
      refine Ends.loop ?_
      rw [unroll_bind] at ih
      exact ih

theorem Ends.once {body : γ -> Prog E S (γ ⊕ β)} {x : γ} {k : β -> Prog E S α}
    {P : β -> V -> Prop}
    (hbody : Ends M q (fun r v => exists b, r = .inr b ∧ P b v) v (body x))
    (hk : forall b v, P b v -> Ends M q Q v (k b)) : Ends M q Q v (Prog.loop body x k) := by
  refine Ends.loop (hbody.bind fun r v' hr => ?_)
  rcases hr with ⟨b, rfl, hb⟩
  exact hk b v' hb

/-!
## Wherever the program is
-/

/-- A round of a loop that is begun within `M` is the last one. -/
def Tame (M : E -> S -> S -> Prop) (q : S -> V) : {α : Type} -> Prog E S α -> Prop
  | _, ret _ => True
  | _, act _ k => forall b, Tame M q (k b)
  | _, loop body _ k =>
      (forall y, Tame M q (body y) ∧
        forall v, Ends M q (fun r _ => exists b, r = .inr b) v (body y)) ∧
      forall b, Tame M q (k b)

theorem tame_action (f : E -> S -> Option (β × S)) : Tame M q (action f) :=
  fun _ => trivial

theorem Tame.bind {p : Prog E S α} {f : α -> Prog E S β} (hp : Tame M q p)
    (hf : forall a, Tame M q (f a)) : Tame M q (p.bind f) := by
  induction p with
  | ret a => exact hf a
  | act g k ih => exact fun b => ih b (hp b) hf
  | loop body x k _ ih => exact ⟨hp.1, fun b => ih b (hp.2 b) hf⟩

theorem tame_iterate {body : γ -> Prog E S (γ ⊕ β)} {x : γ}
    (hbody : forall y, Tame M q (body y))
    (hends : forall y v, Ends M q (fun r _ => exists b, r = .inr b) v (body y)) :
    Tame M q (iterate body x) :=
  ⟨fun y => ⟨hbody y, hends y⟩, fun _ => trivial⟩

/-- Wherever a step leads, within `M` or not, the program stays tame. -/
theorem Tame.step {p p' : Prog E S α} {e : E} {s s' : S} (hp : Tame M q p)
    (hstep : p.step e s = some (s', p')) : Tame M q p' := by
  cases p with
  | ret a => cases hstep
  | act f k =>
      rcases Option.map_eq_some_iff.mp hstep with ⟨r, _, hout⟩
      cases hout
      exact hp r.1
  | loop body x k =>
      cases hstep
      refine Tame.bind (hp.1 x).1 fun r => ?_
      cases r with
      | inl y => exact hp
      | inr b => exact hp.2 b

theorem Tame.ends {p : Prog E S α} (hp : Tame M q p) (v : V) :
    Ends M q (fun _ _ => True) v p := by
  induction p generalizing v with
  | ret a => exact Ends.ret trivial
  | act f k ih => exact Ends.act fun e s b s' _ _ _ => ih b (hp b) (q s')
  | loop body x k _ ih =>
      refine Ends.once (P := fun _ _ => True) (((hp.1 x).2 v).mono fun r v' hr => ?_) ?_
      · rcases hr with ⟨b, hb⟩
        exact ⟨b, hb, trivial⟩
      · exact fun b v' _ => ih b (hp.2 b) v'

/-- A program without loops. -/
def Plain : {α : Type} -> Prog E S α -> Prop
  | _, ret _ => True
  | _, act _ k => forall b, Plain (k b)
  | _, loop _ _ _ => False

theorem plain_action (f : E -> S -> Option (β × S)) : Plain (action f) :=
  fun _ => trivial

theorem Plain.bind {p : Prog E S α} {f : α -> Prog E S β} (hp : Plain p)
    (hf : forall a, Plain (f a)) : Plain (p.bind f) := by
  induction p with
  | ret a => exact hf a
  | act g k ih => exact fun b => ih b (hp b) hf
  | loop body x k _ _ => exact hp.elim

theorem Plain.zoom {R : Type} {get : R -> S} {set : S -> R -> R} {p : Prog E S α}
    (hp : Plain p) : Plain (zoom get set p) := by
  induction p with
  | ret a => exact trivial
  | act f k ih => exact fun b => ih b (hp b)
  | loop body x k _ _ => exact hp.elim

theorem Plain.tame {p : Prog E S α} (hp : Plain p) : Tame M q p := by
  induction p with
  | ret a => exact trivial
  | act f k ih => exact fun b => ih b (hp b)
  | loop body x k _ _ => exact hp.elim

/-!
## The steps that are left
-/

/-- The second place comes after the first by a step within `M`. -/
def After (M : E -> S -> S -> Prop) (q : S -> V) (next here : V × Prog E S α) : Prop :=
  exists e s s', M e s s' ∧ q s = here.1 ∧ q s' = next.1 ∧
    here.2.step e s = some (s', next.2)

theorem Ends.acc {p : Prog E S α} (h : Ends M q Q v p) : Acc (After M q) (v, p) := by
  induction h with
  | ret _ =>
      constructor
      intro next hafter
      rcases hafter with ⟨e, s, s', _, _, _, hstep⟩
      cases hstep
  | act _ ih =>
      constructor
      intro next hafter
      rcases next with ⟨v', p'⟩
      rcases hafter with ⟨e, s, s', hM, hv, hv', hstep⟩
      rcases Option.map_eq_some_iff.mp hstep with ⟨⟨b, s1⟩, hf, hout⟩
      cases hout
      cases hv'
      exact ih e s b _ hM hv hf
  | loop _ ih =>
      constructor
      intro next hafter
      rcases next with ⟨v', p'⟩
      rcases hafter with ⟨e, s, s', _, hv, hv', hstep⟩
      cases hstep
      cases hv
      cases hv'
      exact ih

end Prog

/-!
## Infinite runs
-/

namespace Pool

variable [DecidableEq T]

/-- A run that goes on forever. -/
structure Run (env : D -> S -> Option S) (ok : Move T E D -> S -> Prop)
    (c₀ : Pool T E S) where
  pool : Nat -> Pool T E S
  move : Nat -> Move T E D
  start : pool 0 = c₀
  allowed : forall n, ok (move n) (pool n).state
  next : forall n, (pool n).step env (move n) = some (pool (n + 1))

namespace Run

variable {env : D -> S -> Option S} {ok : Move T E D -> S -> Prop} {c₀ : Pool T E S}
  (R : Run env ok c₀) {t : T}

/-- Thread `t` makes the move at `n`. -/
def Moves (t : T) (n : Nat) : Prop :=
  exists e, R.move n = .thread t e

/-- At `n` the thread has no step for some of the answers that it may get. -/
def Blocked (fair : E -> Prop) (t : T) (n : Nat) : Prop :=
  exists e, fair e ∧ ((R.pool n).thread t).step e (R.pool n).state = none

/-- Again and again the thread is scheduled, or has no next step. -/
def Fair (fair : E -> Prop) (t : T) : Prop :=
  forall n, exists m, n <= m ∧ (R.Moves t m ∨ R.Blocked fair t m)

/-- From `n` on, the thread moves again and again. -/
def Busy (t : T) (n : Nat) : Prop :=
  forall m, n <= m -> exists m', m <= m' ∧ R.Moves t m'

theorem reachable (n : Nat) : Reachable env ok c₀ (R.pool n) := by
  induction n with
  | zero =>
      rw [R.start]
      exact Reachable.refl
  | succ n ih => exact Reachable.step ih (R.allowed n) (R.next n)

theorem step_of_move {n : Nat} {e : E} (hmove : R.move n = .thread t e) :
    ((R.pool n).thread t).step e (R.pool n).state =
      some ((R.pool (n + 1)).state, (R.pool (n + 1)).thread t) := by
  have hnext := R.next n
  rw [hmove] at hnext
  rcases Option.map_eq_some_iff.mp hnext with ⟨⟨s, p⟩, hstep, hpool⟩
  rw [hstep, ← hpool]
  simp

theorem thread_of_not_moves {n : Nat} (hnot : ¬ R.Moves t n) :
    (R.pool (n + 1)).thread t = (R.pool n).thread t := by
  have hnext := R.next n
  cases hmove : R.move n with
  | thread u e =>
      rw [hmove] at hnext
      rcases Option.map_eq_some_iff.mp hnext with ⟨r, _, hpool⟩
      have hne : t ≠ u := by
        intro heq
        subst heq
        exact hnot ⟨e, hmove⟩
      rw [← hpool]
      exact Function.update_of_ne hne _ _
  | env d =>
      rw [hmove] at hnext
      rcases Option.map_eq_some_iff.mp hnext with ⟨s, _, hpool⟩
      rw [← hpool]

theorem thread_invariant {P : Prog E S Unit -> Prop} (hinit : P (c₀.thread t))
    (hstep : forall p e s s' p', P p -> p.step e s = some (s', p') -> P p') (n : Nat) :
    P ((R.pool n).thread t) := by
  induction n with
  | zero =>
      rw [R.start]
      exact hinit
  | succ n ih =>
      by_cases hmoves : R.Moves t n
      · rcases hmoves with ⟨e, hmove⟩
        exact hstep _ _ _ _ _ ih (R.step_of_move hmove)
      · rw [R.thread_of_not_moves hmoves]
        exact ih

theorem not_busy {M : E -> S -> S -> Prop} {q : S -> V} {Q : Unit -> V -> Prop} {n : Nat}
    (hM : forall m e, n <= m -> R.move m = .thread t e ->
      M e (R.pool m).state (R.pool (m + 1)).state)
    (hq : forall m, n <= m -> ¬ R.Moves t m ->
      q (R.pool (m + 1)).state = q (R.pool m).state)
    (hends : Prog.Ends M q Q (q (R.pool n).state) ((R.pool n).thread t)) :
    ¬ R.Busy t n := by
  have hacc := hends.acc
  generalize hp : (q (R.pool n).state, (R.pool n).thread t) = here at hacc
  clear hends
  induction hacc generalizing n with
  | intro here _ ih =>
      intro hbusy
      -- no move is the first one from `n` on
      have hnone : forall d, ¬ R.Moves t (n + d) := by
        intro d
        induction d using Nat.strongRecOn with
        | ind d ihd =>
            intro hmoves
            have hstay : forall j, j <= d ->
                (q (R.pool (n + j)).state, (R.pool (n + j)).thread t) = here := by
              intro j
              induction j with
              | zero => exact fun _ => hp
              | succ j ihj =>
                  intro hj
                  have hnot : ¬ R.Moves t (n + j) := ihd j hj
                  rw [← ihj (Nat.le_of_succ_le hj)]
                  exact Prod.ext (hq _ (Nat.le_add_right n j) hnot)
                    (R.thread_of_not_moves hnot)
            rcases hmoves with ⟨e, hmove⟩
            have hhere := hstay d (Nat.le_refl d)
            have hstep := R.step_of_move hmove
            have hlater : n <= n + d + 1 := Nat.le_add_right n (d + 1)
            refine ih (q (R.pool (n + d + 1)).state, (R.pool (n + d + 1)).thread t) ?_ ?_ ?_
              rfl ?_
            · subst hhere
              exact ⟨e, _, _, hM _ e (Nat.le_add_right n d) hmove, rfl, rfl, hstep⟩
            · exact fun m e' hm => hM m e' (Nat.le_trans hlater hm)
            · exact fun m hm => hq m (Nat.le_trans hlater hm)
            · exact fun m hm => hbusy m (Nat.le_trans hlater hm)
      rcases hbusy n (Nat.le_refl n) with ⟨m, hm, hmoves⟩
      refine hnone (m - n) ?_
      rwa [Nat.add_sub_cancel' hm]

theorem within_of_move {M : S -> S -> Prop} (hrefl : forall s, M s s)
    (hthread : (c₀.thread t).Within M) {n : Nat} (hmoves : R.Moves t n) :
    M (R.pool n).state (R.pool (n + 1)).state := by
  have hwithin : ((R.pool n).thread t).Within M := by
    refine R.thread_invariant (P := fun p => p.Within M) hthread ?_ n
    intro p e s s' p' hp hstep
    exact (hp.step hrefl hstep).2
  rcases hmoves with ⟨e, hmove⟩
  exact (hwithin.step hrefl (R.step_of_move hmove)).1

theorem env_of_move {n : Nat} {d : D} (hmove : R.move n = .env d) :
    env d (R.pool n).state = some (R.pool (n + 1)).state := by
  have hnext := R.next n
  rw [hmove] at hnext
  rcases Option.map_eq_some_iff.mp hnext with ⟨s, hd, hpool⟩
  rw [hd, ← hpool]

theorem related {M : S -> S -> Prop} (hrefl : forall s, M s s)
    (htrans : forall s s1 s2, M s s1 -> M s1 s2 -> M s s2)
    (hthread : forall t, (c₀.thread t).Within M)
    (henv : forall d s s', env d s = some s' -> M s s') {n m : Nat} (hle : n <= m) :
    M (R.pool n).state (R.pool m).state := by
  induction hle with
  | refl => exact hrefl _
  | @step m _ ih =>
      refine htrans _ _ _ ih ?_
      cases hmove : R.move m with
      | thread t e => exact R.within_of_move hrefl (hthread t) ⟨e, hmove⟩
      | env d => exact henv d _ _ (R.env_of_move hmove)

end Run

/-!
## Schedules
-/

section Schedule

variable {env : D -> S -> Option S} {ok : Move T E D -> S -> Prop}

/-- The pools of a schedule that chooses a move for each point in time. -/
def scheduled (env : D -> S -> Option S) (choose : Nat -> Pool T E S -> Move T E D)
    (c₀ : Pool T E S) : Nat -> Pool T E S
  | 0 => c₀
  | n + 1 =>
      let c := scheduled env choose c₀ n
      (c.step env (choose n c)).getD c

/-- A schedule of possible moves is a run. -/
def Run.ofSchedule (choose : Nat -> Pool T E S -> Move T E D) (c₀ : Pool T E S)
    (hpossible : forall n (c : Pool T E S), (c.step env (choose n c)).isSome = true)
    (hok : forall n (c : Pool T E S), ok (choose n c) c.state) : Run env ok c₀ where
  pool := scheduled env choose c₀
  move := fun n => choose n (scheduled env choose c₀ n)
  start := rfl
  allowed := fun n => hok n _
  next := by
    intro n
    rcases Option.isSome_iff_exists.mp (hpossible n (scheduled env choose c₀ n)) with
      ⟨c, hc⟩
    simp only [scheduled, hc]
    rfl

/-- The first of the moves that is possible, or the last resort. -/
def firstPossible (env : D -> S -> Option S) (resort : Move T E D) (c : Pool T E S) :
    List (Move T E D) -> Move T E D
  | [] => resort
  | m :: ms => if (c.step env m).isSome then m else firstPossible env resort c ms

variable {resort : Move T E D} {c : Pool T E S} {ms : List (Move T E D)}

theorem firstPossible_isSome (hresort : (c.step env resort).isSome = true) :
    (c.step env (firstPossible env resort c ms)).isSome = true := by
  induction ms with
  | nil => exact hresort
  | cons m ms ih =>
      unfold firstPossible
      split
      · rename_i hm
        exact hm
      · exact ih

theorem firstPossible_mem : firstPossible env resort c ms ∈ resort :: ms := by
  induction ms with
  | nil => exact List.mem_singleton.mpr rfl
  | cons m ms ih =>
      unfold firstPossible
      split
      · exact List.mem_cons_of_mem _ (List.mem_cons_self ..)
      · rcases List.mem_cons.mp ih with heq | hmem
        · rw [heq]
          exact List.mem_cons_self ..
        · exact List.mem_cons_of_mem _ (List.mem_cons_of_mem _ hmem)

/-- One of the moves is made, if one of them is possible. -/
theorem firstPossible_mem_of {m : Move T E D} (hm : m ∈ ms)
    (hpossible : (c.step env m).isSome = true) : firstPossible env resort c ms ∈ ms := by
  induction ms with
  | nil => cases hm
  | cons m' ms ih =>
      unfold firstPossible
      split
      · exact List.mem_cons_self ..
      · rename_i hnot
        rcases List.mem_cons.mp hm with heq | hmem
        · subst heq
          exact absurd hpossible hnot
        · exact List.mem_cons_of_mem _ (ih hmem)

end Schedule

end Pool

namespace Contract

variable [DecidableEq T] {C : Contract T E D S G} {W : Patience T E S G}
  {Q : T -> G -> Prop} {c₀ : Pool T E S} {gs : T -> G} {t : T}

theorem AllAlive.waits (R : Pool.Run C.env C.ok c₀) {n m : Nat}
    (h : AllAlive C W Q (m + 1) (R.pool n) gs) (hblocked : R.Blocked W.fair t n) :
    Q t (gs t) ∨ W.waits t (gs t) (R.pool n).state := by
  rcases hblocked with ⟨e, he, hnone⟩
  rcases h.next t with ⟨_, hQ⟩ | hgoes
  · exact Or.inl hQ
  · rcases hgoes e he with hstep | ⟨hwaits, _⟩
    · dsimp only at hstep
      rw [hnone] at hstep
      cases hstep
    · exact Or.inr hwaits

theorem AllAlive.later (R : Pool.Run C.env C.ok c₀)
    (henv : forall d s gs s', C.ok (.env d) s -> C.inv s gs ->
      C.env d s = some s' -> C.inv s' gs) {n m : Nat} (k : Nat)
    (h : AllAlive C W Q (m + k) (R.pool n) gs) :
    exists gs', AllAlive C W Q m (R.pool (n + k)) gs' ∧
      forall u, (forall j, j < k -> ¬ R.Moves u (n + j)) -> gs' u = gs u := by
  induction k generalizing m with
  | zero => exact ⟨gs, h, fun _ _ => rfl⟩
  | succ k ih =>
      have h' : AllAlive C W Q (m + 1 + k) (R.pool n) gs := by
        rw [Nat.add_assoc, Nat.add_comm 1 k]
        exact h
      rcases ih h' with ⟨gs1, h1, hsame1⟩
      rcases h1.move henv (R.allowed (n + k)) (R.next (n + k)) with ⟨gs2, h2, hsame2⟩
      refine ⟨gs2, h2, fun u hu => ?_⟩
      rw [hsame2 u fun e hmove => hu k (Nat.lt_succ_self k) ⟨e, hmove⟩]
      exact hsame1 u fun j hj => hu j (Nat.lt_succ_of_lt hj)

end Contract
end Foundation
end QnxVirtio
