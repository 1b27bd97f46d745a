import QnxVirtio.Foundation.Answers
import QnxVirtio.Foundation.Framing

/-!
# Programs inside a larger system

What a program on a component does not touch is stated by the invariants that it
preserves.
-/

namespace QnxVirtio
namespace Foundation
namespace Prog

variable {E F S R α β γ : Type}

/-!
## What runs preserve
-/

/-- Every run of the program, whatever it is told, keeps `I`. -/
def Preserves (I : S -> Prop) (p : Prog E S α) : Prop :=
  forall ok s a s', Runs ok s p a s' -> I s -> I s'

section Preserves

variable {I : S -> Prop}

theorem preserves_ret (a : α) : Preserves I (ret a : Prog E S α) := by
  intro ok s a' s' hrun hI
  rcases runs_ret_iff.mp hrun with ⟨_, rfl⟩
  exact hI

theorem preserves_bind {p : Prog E S α} {f : α -> Prog E S β}
    (hp : Preserves I p) (hf : forall a, Preserves I (f a)) :
    Preserves I (p.bind f) := by
  intro ok s b s' hrun hI
  rcases runs_bind_iff.mp hrun with ⟨a, s1, hrunp, hrunf⟩
  exact hf a ok s1 b s' hrunf (hp ok s a s1 hrunp hI)

theorem preserves_action {f : E -> S -> Option (β × S)}
    (h : forall e s b s', f e s = some (b, s') -> I s -> I s') :
    Preserves I (action f) := by
  intro ok s b s' hrun hI
  rcases runs_action_iff.mp hrun with ⟨e, _, hf⟩
  exact h e s b s' hf hI

theorem preserves_read (f : S -> β) : Preserves I (read f : Prog E S β) := by
  intro ok s b s' hrun hI
  rcases runs_read_iff.mp hrun with ⟨_, _, rfl⟩
  exact hI

theorem preserves_modify {f : S -> S} (h : forall s, I s -> I (f s)) :
    Preserves I (modify f : Prog E S Unit) := by
  intro ok s u s' hrun hI
  rcases runs_modify_iff.mp hrun with ⟨_, rfl⟩
  exact h s hI

theorem preserves_ask (f : E -> β) :
    Preserves I (action fun e s => some (f e, s) : Prog E S β) := by
  refine preserves_action fun e s b s' hf hI => ?_
  cases hf
  exact hI

theorem preserves_iterate {body : γ -> Prog E S (γ ⊕ β)}
    (h : forall y, Preserves I (body y)) (x : γ) : Preserves I (iterate body x) := by
  intro ok s b s' hrun hI
  refine runs_iterate_inv (J := fun _ s => I s) (Q := fun _ s => I s) ?_ hI hrun
  intro y s r s1 hs hbody
  have h1 := h y ok s r s1 hbody hs
  cases r with
  | inl z => exact h1
  | inr b => exact h1

theorem preserves_embed {J : R -> Prop} {ans : F -> E} {get : R -> S}
    {set : S -> R -> R} (hsel : Selects get set)
    (hJ : forall s r, J r -> J (set s r)) (p : Prog E S α) :
    Preserves J (embed ans get set p) := by
  intro ok r a r' hrun hr
  rw [(runs_embed (fun _ => True) (fun _ _ => trivial) hsel hrun).2]
  exact hJ _ r hr

end Preserves

end Prog

/-!
## Threads
-/

namespace Contract

variable {T E F D S R G : Type} [DecidableEq T] {C : Contract T F D R G}
variable {α : Type}

theorem Triple.embed {ans : F -> E} {get : R -> S} {set : S -> R -> R}
    (hinv : forall s r gs, C.inv r gs -> C.inv (set s r) gs) {t : T} {g : G}
    (p : Prog E S α) :
    C.Triple t g (Prog.embed ans get set p) fun _ g' => g' = g := by
  have hwithin : (Prog.embed ans get set p).Within fun r r' => exists s, r' = set s r :=
    (Prog.within_any p).embed fun r s _ => ⟨s, rfl⟩
  refine Triple.of_within ?_ hwithin
  intro r r' gs hmove hI
  rcases hmove with ⟨s, rfl⟩
  exact hinv s r gs hI

end Contract

end Foundation
end QnxVirtio
