/-!
# Machines and refinement

A machine answers each input and moves on.  One machine refines another along a
relation of their states when related states answer alike and stay related.  A property of
single steps holds along a run when every step of the run has it.
-/

namespace QnxVirtio
namespace Foundation

/-- A machine with states `S`, inputs `I` and outputs `O`. -/
structure Machine (S I O : Type) where
  step : S -> I -> O × S

namespace Machine

variable {S T I O : Type}

/-- The answers to a list of inputs and the state after the last one. -/
def run (M : Machine S I O) : S -> List I -> List O × S
  | s, [] => ([], s)
  | s, i :: is =>
      let r := M.step s i
      let rest := M.run r.2 is
      (r.1 :: rest.1, rest.2)

/-- Related states answer alike and stay related. -/
structure Refines (M : Machine S I O) (N : Machine T I O) (R : S -> T -> Prop) :
    Prop where
  output : forall s t i, R s t -> (M.step s i).1 = (N.step t i).1
  next : forall s t i, R s t -> R (M.step s i).2 (N.step t i).2

theorem Refines.run {M : Machine S I O} {N : Machine T I O} {R : S -> T -> Prop}
    (h : Refines M N R) {s : S} {t : T} (hR : R s t) (is : List I) :
    (M.run s is).1 = (N.run t is).1 ∧ R (M.run s is).2 (N.run t is).2 := by
  induction is generalizing s t with
  | nil => exact ⟨rfl, hR⟩
  | cons i is ih =>
      rcases ih (h.next s t i hR) with ⟨hout, hrest⟩
      constructor
      · change (M.step s i).1 :: _ = (N.step t i).1 :: _
        rw [h.output s t i hR, hout]
      · exact hrest

theorem run_invariant (M : Machine S I O) {P : S -> Prop}
    (hstep : forall s i, P s -> P (M.step s i).2) {s : S} (h : P s) (is : List I) :
    P (M.run s is).2 := by
  induction is generalizing s with
  | nil => exact h
  | cons i is ih => exact ih (hstep s i h)

/-- `P` holds at every input of a run, in the state that the input meets. -/
def Along (M : Machine S I O) (P : S -> I -> Prop) : S -> List I -> Prop
  | _, [] => True
  | s, i :: is => P s i ∧ M.Along P (M.step s i).2 is

theorem along_congr (M : Machine S I O) {P Q : S -> I -> Prop}
    (h : forall s i, P s i <-> Q s i) {s : S} {is : List I} :
    M.Along P s is <-> M.Along Q s is := by
  induction is generalizing s with
  | nil => rfl
  | cons i is ih => exact and_congr (h s i) ih

end Machine

end Foundation
end QnxVirtio
