import Mathlib.Logic.Function.Basic

/-!
# Exclusive ownership of cells

Owners hold cells of a store and know what is in the cells they hold.  No cell is
held twice, so an owner may change its cells without anybody else noticing, and
may hand over everything it holds.
-/

namespace QnxVirtio
namespace Foundation

variable {ω κ ν : Type}

/-- Each owner knows the values of its cells, which are live, and holds them
alone. -/
structure Owned (hold : ω -> κ -> Option ν) (live : κ -> Prop) (value : κ -> ν) :
    Prop where
  unique : forall o o' k x y, hold o k = some x -> hold o' k = some y -> o = o'
  live : forall o k x, hold o k = some x -> live k
  known : forall o k x, hold o k = some x -> value k = x

namespace Owned

variable {hold : ω -> κ -> Option ν} {live : κ -> Prop} {value : κ -> ν}

theorem empty (live : κ -> Prop) (value : κ -> ν) :
    Owned (fun (_ : ω) (_ : κ) => (none : Option ν)) live value where
  unique := by
    intro o o' k x y h
    cases h
  live := by
    intro o k x h
    cases h
  known := by
    intro o k x h
    cases h

theorem frame (h : Owned hold live value) {live' : κ -> Prop} {value' : κ -> ν}
    (hsame : forall o k x, hold o k = some x -> live' k ∧ value' k = value k) :
    Owned hold live' value' where
  unique := h.unique
  live := fun o k x hk => (hsame o k x hk).1
  known := fun o k x hk => (hsame o k x hk).2.trans (h.known o k x hk)

variable [DecidableEq ω]

theorem forget (h : Owned hold live value) (o : ω) :
    Owned (Function.update hold o fun _ => none) live value := by
  have hcases : forall {o' k x},
      Function.update hold o (fun _ => none) o' k = some x -> hold o' k = some x := by
    intro o' k x hx
    by_cases ho : o' = o
    · subst ho
      rw [Function.update_self] at hx
      cases hx
    · rwa [Function.update_of_ne ho] at hx
  constructor
  · intro o₁ o₂ k x y hx hy
    exact h.unique _ _ _ _ _ (hcases hx) (hcases hy)
  · intro o' k x hx
    exact h.live _ _ _ (hcases hx)
  · intro o' k x hx
    exact h.known _ _ _ (hcases hx)

theorem transfer (h : Owned hold live value) {o o' : ω} (hne : o ≠ o') :
    Owned (Function.update (Function.update hold o' (hold o)) o fun _ => none)
      live value := by
  have hcases : forall {o₁ k x},
      Function.update (Function.update hold o' (hold o)) o (fun _ => none) o₁ k =
        some x -> (o₁ = o' ∧ hold o k = some x) ∨
          (o₁ ≠ o ∧ o₁ ≠ o' ∧ hold o₁ k = some x) := by
    intro o₁ k x hx
    by_cases ho : o₁ = o
    · subst ho
      rw [Function.update_self] at hx
      cases hx
    · rw [Function.update_of_ne ho] at hx
      by_cases ho' : o₁ = o'
      · subst ho'
        rw [Function.update_self] at hx
        exact Or.inl ⟨rfl, hx⟩
      · rw [Function.update_of_ne ho'] at hx
        exact Or.inr ⟨ho, ho', hx⟩
  constructor
  · intro o₁ o₂ k x y hx hy
    rcases hcases hx with ⟨rfl, hold₁⟩ | ⟨hne₁, _, hold₁⟩
    · rcases hcases hy with ⟨rfl, _⟩ | ⟨hne₂, _, hold₂⟩
      · rfl
      · exact absurd (h.unique _ _ _ _ _ hold₂ hold₁) hne₂
    · rcases hcases hy with ⟨rfl, hold₂⟩ | ⟨_, _, hold₂⟩
      · exact absurd (h.unique _ _ _ _ _ hold₁ hold₂) hne₁
      · exact h.unique _ _ _ _ _ hold₁ hold₂
  · intro o₁ k x hx
    rcases hcases hx with ⟨_, hx⟩ | ⟨_, _, hx⟩
    · exact h.live _ _ _ hx
    · exact h.live _ _ _ hx
  · intro o₁ k x hx
    rcases hcases hx with ⟨_, hx⟩ | ⟨_, _, hx⟩
    · exact h.known _ _ _ hx
    · exact h.known _ _ _ hx

end Owned

variable [DecidableEq ω] [DecidableEq κ]

/-- The holdings after the one of `o` changed at the cell `k`. -/
def setHold (hold : ω -> κ -> Option ν) (o : ω) (k : κ) (x : Option ν) :
    ω -> κ -> Option ν :=
  Function.update hold o (Function.update (hold o) k x)

theorem setHold_cases {hold : ω -> κ -> Option ν} {o : ω} {k : κ} {x : Option ν}
    {o' : ω} {k' : κ} {y : ν} (h : setHold hold o k x o' k' = some y) :
    (o' = o ∧ k' = k ∧ x = some y) ∨
      ((o' = o -> k' ≠ k) ∧ hold o' k' = some y) := by
  unfold setHold at h
  by_cases ho : o' = o
  · subst ho
    rw [Function.update_self] at h
    by_cases hk : k' = k
    · subst hk
      rw [Function.update_self] at h
      exact Or.inl ⟨rfl, rfl, h⟩
    · rw [Function.update_of_ne hk] at h
      exact Or.inr ⟨fun _ => hk, h⟩
  · rw [Function.update_of_ne ho] at h
    exact Or.inr ⟨fun heq => absurd heq ho, h⟩

namespace Owned

variable {hold : ω -> κ -> Option ν} {live : κ -> Prop} {value : κ -> ν}

theorem write (h : Owned hold live value) {o : ω} {k : κ} {x : ν}
    (hk : hold o k = some x) (y : ν) :
    Owned (setHold hold o k (some y)) live (Function.update value k y) where
  unique := by
    intro o₁ o₂ k' x₁ x₂ h₁ h₂
    rcases setHold_cases h₁ with ⟨rfl, rfl, _⟩ | ⟨_, hold₁⟩
    · rcases setHold_cases h₂ with ⟨rfl, _, _⟩ | ⟨_, hold₂⟩
      · rfl
      · exact h.unique _ _ _ _ _ hk hold₂
    · rcases setHold_cases h₂ with ⟨rfl, rfl, _⟩ | ⟨_, hold₂⟩
      · exact h.unique _ _ _ _ _ hold₁ hk
      · exact h.unique _ _ _ _ _ hold₁ hold₂
  live := by
    intro o' k' z hz
    rcases setHold_cases hz with ⟨rfl, rfl, _⟩ | ⟨_, hz⟩
    · exact h.live _ _ _ hk
    · exact h.live _ _ _ hz
  known := by
    intro o' k' z hz
    rcases setHold_cases hz with ⟨rfl, rfl, heq⟩ | ⟨hne, hold'⟩
    · rw [Function.update_self]
      exact Option.some.inj heq
    · have hk' : k' ≠ k := by
        rintro rfl
        exact hne (h.unique _ _ _ _ _ hold' hk) rfl
      rw [Function.update_of_ne hk']
      exact h.known _ _ _ hold'

theorem acquire (h : Owned hold live value) {o : ω} {k : κ}
    (hfree : forall o', hold o' k = none) (hlive : live k) :
    Owned (setHold hold o k (some (value k))) live value where
  unique := by
    intro o₁ o₂ k' x₁ x₂ h₁ h₂
    rcases setHold_cases h₁ with ⟨rfl, rfl, _⟩ | ⟨_, hold₁⟩
    · rcases setHold_cases h₂ with ⟨rfl, _, _⟩ | ⟨_, hold₂⟩
      · rfl
      · rw [hfree] at hold₂
        cases hold₂
    · rcases setHold_cases h₂ with ⟨rfl, rfl, _⟩ | ⟨_, hold₂⟩
      · rw [hfree] at hold₁
        cases hold₁
      · exact h.unique _ _ _ _ _ hold₁ hold₂
  live := by
    intro o' k' z hz
    rcases setHold_cases hz with ⟨_, rfl, _⟩ | ⟨_, hz⟩
    · exact hlive
    · exact h.live _ _ _ hz
  known := by
    intro o' k' z hz
    rcases setHold_cases hz with ⟨_, rfl, heq⟩ | ⟨_, hz⟩
    · exact Option.some.inj heq
    · exact h.known _ _ _ hz

theorem drop (h : Owned hold live value) (o : ω) (k : κ) :
    Owned (setHold hold o k none) live value where
  unique := by
    intro o₁ o₂ k' x₁ x₂ h₁ h₂
    rcases setHold_cases h₁ with ⟨_, _, heq⟩ | ⟨_, h₁⟩
    · cases heq
    · rcases setHold_cases h₂ with ⟨_, _, heq⟩ | ⟨_, h₂⟩
      · cases heq
      · exact h.unique _ _ _ _ _ h₁ h₂
  live := by
    intro o' k' z hz
    rcases setHold_cases hz with ⟨_, _, heq⟩ | ⟨_, hz⟩
    · cases heq
    · exact h.live _ _ _ hz
  known := by
    intro o' k' z hz
    rcases setHold_cases hz with ⟨_, _, heq⟩ | ⟨_, hz⟩
    · cases heq
    · exact h.known _ _ _ hz

theorem free_of_drop (h : Owned hold live value) {o : ω} {k : κ} {x : ν}
    (hk : hold o k = some x) (o' : ω) : setHold hold o k none o' k = none := by
  by_contra hne
  rcases Option.ne_none_iff_exists'.mp hne with ⟨y, hy⟩
  rcases setHold_cases hy with ⟨_, _, heq⟩ | ⟨hne', hold'⟩
  · cases heq
  · exact hne' (h.unique _ _ _ _ _ hold' hk) rfl

end Owned

end Foundation
end QnxVirtio
