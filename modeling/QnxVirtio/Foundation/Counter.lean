import QnxVirtio.Foundation.Pool

/-!
# Loops with a machine counter

`for (c = 0; c < bound; c++)`, where the counter wraps and the bound may lie beyond what
the counter can reach.
-/

namespace QnxVirtio
namespace Foundation

/-- A counter that stands for the numbers below `top`. -/
structure Counter (C : Type) where
  zero : C
  next : C -> C
  val : C -> Nat
  top : Nat
  val_zero : val zero = 0
  val_lt : forall c, val c < top
  val_next : forall c, val c + 1 < top -> val (next c) = val c + 1

def counter32 : Counter UInt32 where
  zero := 0
  next := (· + 1)
  val := UInt32.toNat
  top := 2 ^ 32
  val_zero := rfl
  val_lt := UInt32.toNat_lt
  val_next := by
    intro c h
    rw [UInt32.toNat_add]
    exact Nat.mod_eq_of_lt h

namespace Counter

variable {T C E D S G α : Type}

/-- One round, with what the body passes on. -/
def round (κ : Counter C) (bound : Nat) (body : C -> α -> Prog E S α) (x : C × α) :
    Prog E S ((C × α) ⊕ α) :=
  if κ.val x.1 < bound then
    (body x.1 x.2).bind fun y => Prog.ret (.inl (κ.next x.1, y))
  else Prog.ret (.inr x.2)

def each (κ : Counter C) (bound : Nat) (body : C -> α -> Prog E S α) (x : α) :
    Prog E S α :=
  Prog.iterate (κ.round bound body) (κ.zero, x)

variable {κ : Counter C} {bound : Nat} {body : C -> α -> Prog E S α}

/-!
## Runs
-/

section Runs

variable {ok : E -> Prop} {s s' : S} {x y : α}

theorem each_diverges (h : κ.top <= bound) :
    ¬ Prog.Runs ok s (κ.each bound body x) y s' := by
  intro hrun
  refine Prog.runs_iterate_inv (J := fun _ _ => True) (Q := fun _ _ => False) ?_ trivial hrun
  intro x s r s1 _ hround
  unfold round at hround
  rw [if_pos (Nat.lt_of_lt_of_le (κ.val_lt x.1) h)] at hround
  rcases Prog.runs_bind_iff.mp hround with ⟨y, s2, _, hret⟩
  rcases Prog.runs_ret_iff.mp hret with ⟨rfl, _⟩
  exact trivial

theorem round_runs_from (h : bound < κ.top)
    (hbody : forall c x s, exists y s', Prog.Runs ok s (body c x) y s') {n : Nat} :
    forall {c : C} {x : α} {s : S}, κ.val c + n = bound ->
      exists y s', Prog.Runs ok s (Prog.iterate (κ.round bound body) (c, x)) y s' := by
  induction n with
  | zero =>
      intro c x s hn
      have hlast : κ.round bound body (c, x) = Prog.ret (.inr x) :=
        if_neg (Nat.not_lt.mpr (Nat.le_of_eq hn.symm))
      refine ⟨x, s, Prog.Runs.loop ?_⟩
      unfold Prog.unroll
      rw [hlast]
      exact Prog.Runs.ret _ _
  | succ n ih =>
      intro c x s hn
      have hlt : κ.val c < bound := by omega
      have hnext : κ.val (κ.next c) = κ.val c + 1 := κ.val_next c (by omega)
      rcases hbody c x s with ⟨y, s1, hone⟩
      rcases ih (c := κ.next c) (x := y) (s := s1) (by omega) with ⟨z, s2, hrest⟩
      have hround : Prog.Runs ok s (κ.round bound body (c, x)) (.inl (κ.next c, y)) s1 := by
        unfold round
        rw [if_pos hlt]
        exact hone.bind (Prog.Runs.ret _ _)
      exact ⟨z, s2, Prog.Runs.loop (hround.bind hrest)⟩

theorem each_returns_iff (κ : Counter C)
    (hbody : forall c x s, exists y s', Prog.Runs ok s (body c x) y s') :
    (exists y s', Prog.Runs ok s (κ.each bound body x) y s') <-> bound < κ.top := by
  constructor
  · intro hruns
    rcases hruns with ⟨y, s', hrun⟩
    exact Nat.lt_of_not_le fun h => each_diverges h hrun
  · intro h
    exact round_runs_from h hbody ((congrArg (· + bound) κ.val_zero).trans (Nat.zero_add _))

end Runs

/-!
## Threads
-/

variable [DecidableEq T]

theorem each_triple (κ : Counter C) {K : Contract T E D S G} {t : T}
    {J : C -> α -> G -> Prop}
    (hbody : forall c x g, κ.val c < bound -> J c x g ->
      K.Triple t g (body c x) fun y g' => J (κ.next c) y g')
    {x : α} {g : G} (hJ : J κ.zero x g) :
    K.Triple t g (κ.each bound body x) fun y g' =>
      exists c, J c y g' ∧ κ.val c = bound := by
  refine Contract.Triple.loop
    (J := fun z g => J z.1 z.2 g ∧ (bound < κ.top -> κ.val z.1 <= bound))
    (R := fun y g => exists c, J c y g ∧ κ.val c = bound) ?_
    (fun y g hy => Contract.Triple.ret hy)
    ⟨hJ, fun _ => κ.val_zero ▸ Nat.zero_le bound⟩
  intro z g hz
  rcases hz with ⟨hinv, hle⟩
  unfold round
  by_cases hlt : κ.val z.1 < bound
  · rw [if_pos hlt]
    apply (hbody z.1 z.2 g hlt hinv).bind
    intro y g' hy
    refine Contract.Triple.ret ⟨hy, fun htop => ?_⟩
    change κ.val (κ.next z.1) <= bound
    rw [κ.val_next z.1 (Nat.lt_of_le_of_lt hlt htop)]
    exact hlt
  · rw [if_neg hlt]
    -- the counter stands for numbers below `top`, so that the bound does too
    have hge := Nat.le_of_not_lt hlt
    have htop := Nat.lt_of_le_of_lt hge (κ.val_lt z.1)
    exact Contract.Triple.ret ⟨z.1, hinv, Nat.le_antisymm (hle htop) hge⟩

end Counter

end Foundation
end QnxVirtio
