import QnxVirtio.Foundation.Framing

/-!
# Runs with a log

What happened in a run, as read off each of its steps.
-/

namespace QnxVirtio
namespace Foundation
namespace Pool

variable {T E D S V : Type} [DecidableEq T]

/-- A run, with what `note` reads off its steps in their order. -/
inductive Traced (env : D -> S -> Option S) (ok : Move T E D -> S -> Prop)
    (note : S -> S -> List V) (c₀ : Pool T E S) : Pool T E S -> List V -> Prop
  | refl : Traced env ok note c₀ c₀ []
  | step {c c' : Pool T E S} {m : Move T E D} {log : List V} :
      Traced env ok note c₀ c log -> ok m c.state -> c.step env m = some c' ->
      Traced env ok note c₀ c' (log ++ note c.state c'.state)

namespace Traced

variable {env : D -> S -> Option S} {ok : Move T E D -> S -> Prop}
  {note : S -> S -> List V} {c₀ c : Pool T E S} {log : List V}

theorem reachable (h : Traced env ok note c₀ c log) : Reachable env ok c₀ c := by
  induction h with
  | refl => exact Reachable.refl
  | step _ hok hstep ih => exact Reachable.step ih hok hstep

theorem of_reachable (note : S -> S -> List V) (h : Reachable env ok c₀ c) :
    exists log, Traced env ok note c₀ c log := by
  induction h with
  | refl => exact ⟨[], Traced.refl⟩
  | step _ hok hstep ih =>
      rcases ih with ⟨log, hlog⟩
      exact ⟨_, Traced.step hlog hok hstep⟩

theorem invariant {M : S -> S -> Prop} {P : S -> List V -> Prop}
    (hrefl : forall s, M s s) (hthread : forall t, (c₀.thread t).Within M)
    (henv : forall d s s', env d s = some s' -> M s s') (hinit : P c₀.state [])
    (hstep : forall c c' log, Reachable env ok c₀ c -> Reachable env ok c₀ c' ->
      M c.state c'.state -> P c.state log -> P c'.state (log ++ note c.state c'.state))
    (h : Traced env ok note c₀ c log) : P c.state log := by
  suffices hall : (forall t, (c.thread t).Within M) ∧ P c.state log from hall.2
  induction h with
  | refl => exact ⟨hthread, hinit⟩
  | @step c c' m log htraced hok hmove ih =>
      rcases ih with ⟨hwithin, hP⟩
      have hnext : M c.state c'.state ∧ forall t, (c'.thread t).Within M := by
        cases m with
        | thread t e =>
            rcases Option.map_eq_some_iff.mp hmove with ⟨⟨s, p⟩, hp, rfl⟩
            rcases (hwithin t).step hrefl hp with ⟨hM, hp'⟩
            refine ⟨hM, fun u => ?_⟩
            by_cases hu : u = t
            · subst hu
              simpa using hp'
            · simpa [Function.update_of_ne hu] using hwithin u
        | env d =>
            rcases Option.map_eq_some_iff.mp hmove with ⟨s, hd, rfl⟩
            exact ⟨henv d _ _ hd, hwithin⟩
      have hreach := htraced.reachable
      exact ⟨hnext.2, hstep c c' log hreach (Reachable.step hreach hok hmove) hnext.1 hP⟩

end Traced

end Pool
end Foundation
end QnxVirtio
