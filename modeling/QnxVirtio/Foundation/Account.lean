import Mathlib.Algebra.Group.Defs
import QnxVirtio.Foundation.Framing

/-!
# Accounts

Resources are counted in a commutative monoid.  A program accounts for what it owns if it
turns it into something that its postcondition allows, and leaves alone whatever else there
is.  The rest is arbitrary in every statement, so that it may grow from one program to the
next and programs with owners of their own can take turns.
-/

namespace QnxVirtio
namespace Foundation
namespace Prog

variable {E S M α β γ : Type} [AddCommMonoid M] {ok : E -> Prop} {total : S -> M}
  {I : S -> Prop} {own : M}

/-- A run of `p` from `own` ends with something in `Q`, next to the same rest. -/
def AccountsFor (ok : E -> Prop) (total : S -> M) (I : S -> Prop) (own : M) (p : Prog E S α)
    (Q : α -> M -> Prop) : Prop :=
  forall rest s a s', I s -> total s = own + rest -> Runs ok s p a s' ->
    I s' ∧ exists own', total s' = own' + rest ∧ Q a own'

theorem accounts_ret {a : α} {Q : α -> M -> Prop} (h : Q a own) :
    AccountsFor ok total I own (ret a) Q := by
  intro rest s a' s' hI htotal hrun
  rcases runs_ret_iff.mp hrun with ⟨rfl, rfl⟩
  exact ⟨hI, own, htotal, h⟩

theorem accounts_action {f : E -> S -> Option (β × S)} {Q : β -> M -> Prop}
    (h : forall rest e s b s', ok e -> I s -> total s = own + rest ->
      f e s = some (b, s') -> I s' ∧ exists own', total s' = own' + rest ∧ Q b own') :
    AccountsFor ok total I own (action f) Q := by
  intro rest s b s' hI htotal hrun
  rcases runs_action_iff.mp hrun with ⟨e, hok, hf⟩
  exact h rest e s b s' hok hI htotal hf

theorem accounts_read {f : S -> β} {Q : β -> M -> Prop}
    (h : forall s, I s -> Q (f s) own) : AccountsFor ok total I own (read f) Q := by
  intro rest s b s' hI htotal hrun
  rcases runs_read_iff.mp hrun with ⟨_, rfl, rfl⟩
  exact ⟨hI, own, htotal, h s' hI⟩

theorem AccountsFor.bind {p : Prog E S α} {f : α -> Prog E S β} {Q : α -> M -> Prop}
    {P : β -> M -> Prop} (hp : AccountsFor ok total I own p Q)
    (hf : forall a own', Q a own' -> AccountsFor ok total I own' (f a) P) :
    AccountsFor ok total I own (p.bind f) P := by
  intro rest s b s' hI htotal hrun
  rcases runs_bind_iff.mp hrun with ⟨a, s1, hfirst, hsecond⟩
  rcases hp rest s a s1 hI htotal hfirst with ⟨hI1, own1, htotal1, ha⟩
  exact hf a own1 ha rest s1 b s' hI1 htotal1 hsecond

theorem AccountsFor.conseq {p : Prog E S α} {Q Q' : α -> M -> Prop}
    (hp : AccountsFor ok total I own p Q) (hQ : forall a own', Q a own' -> Q' a own') :
    AccountsFor ok total I own p Q' := by
  intro rest s a s' hI htotal hrun
  rcases hp rest s a s' hI htotal hrun with ⟨hI', own', htotal', ha⟩
  exact ⟨hI', own', htotal', hQ a own' ha⟩

theorem Within.runs {R : S -> S -> Prop} (hrefl : forall s, R s s)
    (htrans : forall s s1 s2, R s s1 -> R s1 s2 -> R s s2) {p : Prog E S α} {s s' : S}
    {a : α} (hp : p.Within R) (hrun : Runs ok s p a s') : R s s' := by
  induction hrun with
  | ret s a => exact hrefl s
  | act hok hf _ ih => exact htrans _ _ _ (hp.1 _ _ _ _ hf) (ih (hp.2 _))
  | loop _ ih => exact ih (Within.unroll hp.1 hp.2)

theorem accounts_within {p : Prog E S α}
    (hp : p.Within fun s s' => (I s -> I s') ∧ total s' = total s) :
    AccountsFor ok total I own p fun _ own' => own' = own := by
  intro rest s a s' hI htotal hrun
  have hkeep : (I s -> I s') ∧ total s' = total s := by
    refine hp.runs (fun _ => ⟨id, rfl⟩) ?_ hrun
    intro s s1 s2 h h'
    exact ⟨fun hs => h'.1 (h.1 hs), h'.2.trans h.2⟩
  exact ⟨hkeep.1 hI, own, hkeep.2.trans htotal, rfl⟩

end Prog
end Foundation
end QnxVirtio
