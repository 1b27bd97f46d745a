import QnxVirtio.Foundation.Ownership
import QnxVirtio.Virtq.Descriptors

/-!
# Holding descriptors and buffers

Who holds a descriptor or the memory of a buffer may use them without
coordination.  This module says what the driver functions do to the holding of
the one who calls them, whatever all others hold.
-/

namespace QnxVirtio

open Foundation

/-- A descriptor with its side table entry. -/
structure DescCell where
  desc : VirtqDesc
  extras : DescExtras

def Virtq.cell (vq : Virtq) (idx : UInt16) : DescCell where
  desc := vq.desc idx
  extras := vq.descExtras idx

/-- The buffer that a descriptor records. -/
def DescCell.buffer (c : DescCell) : Mapping where
  vaddr := c.extras.vaddr
  paddr := c.desc.addr
  len := c.desc.len.toNat

/-- The bytes behind a mapping. -/
def Memory.bytes (mem : Memory) (m : Mapping) : List UInt8 :=
  loadBytes mem.phys m.paddr m.len

/-- The descriptors and the mappings that somebody holds, with what is in them. -/
structure Holding where
  desc : UInt16 -> Option DescCell
  region : Mapping -> Option (List UInt8)

namespace Holding

def empty : Holding where
  desc _ := none
  region _ := none

def setDesc (H : Holding) (idx : UInt16) (c : Option DescCell) : Holding :=
  { H with desc := Function.update H.desc idx c }

def setRegion (H : Holding) (m : Mapping) (b : Option (List UInt8)) : Holding :=
  { H with region := Function.update H.region m b }

@[simp] theorem setDesc_region (H : Holding) (idx : UInt16) (c : Option DescCell) :
    (H.setDesc idx c).region = H.region := rfl

@[simp] theorem setDesc_self (H : Holding) (idx : UInt16) (c : Option DescCell) :
    (H.setDesc idx c).desc idx = c := Function.update_self ..

theorem setDesc_of_ne (H : Holding) {idx i : UInt16} (c : Option DescCell)
    (h : i ≠ idx) : (H.setDesc idx c).desc i = H.desc i :=
  Function.update_of_ne h ..

@[simp] theorem setRegion_desc (H : Holding) (m : Mapping)
    (b : Option (List UInt8)) : (H.setRegion m b).desc = H.desc := rfl

@[simp] theorem setRegion_self (H : Holding) (m : Mapping)
    (b : Option (List UInt8)) : (H.setRegion m b).region m = b :=
  Function.update_self ..

theorem setRegion_of_ne (H : Holding) {m n : Mapping} (b : Option (List UInt8))
    (h : n ≠ m) : (H.setRegion m b).region n = H.region n :=
  Function.update_of_ne h ..

@[simp] theorem setDesc_setDesc (H : Holding) (idx : UInt16)
    (c c' : Option DescCell) :
    (H.setDesc idx c).setDesc idx c' = H.setDesc idx c' := by
  simp [setDesc]

@[simp] theorem setRegion_setRegion (H : Holding) (m : Mapping)
    (b b' : Option (List UInt8)) :
    (H.setRegion m b).setRegion m b' = H.setRegion m b' := by
  simp [setRegion]

theorem setDesc_eq_self {H : Holding} {idx : UInt16} {c : Option DescCell}
    (h : H.desc idx = c) : H.setDesc idx c = H := by
  unfold setDesc
  rw [← h, Function.update_eq_self]

theorem setRegion_eq_self {H : Holding} {m : Mapping} {b : Option (List UInt8)}
    (h : H.region m = b) : H.setRegion m b = H := by
  unfold setRegion
  rw [← h, Function.update_eq_self]

theorem setDesc_setRegion (H : Holding) (idx : UInt16) (c : Option DescCell)
    (m : Mapping) (b : Option (List UInt8)) :
    (H.setRegion m b).setDesc idx c = (H.setDesc idx c).setRegion m b := rfl

end Holding

/-!
## The invariant of all holdings
-/

section Holdings

variable {ω : Type} [DecidableEq ω]

/-- The free list and the holdings are told apart, and holders know what they
hold. -/
structure HoldInv (q : Queue) (hold : ω -> Holding) : Prop where
  freeWf : q.vq.FreeWf
  freeNodup : q.vq.freeList.Nodup
  freeLt : forall idx, idx ∈ q.vq.freeList -> idx.toNat < q.vq.num.toNat
  freeUnheld : forall idx, idx ∈ q.vq.freeList -> forall o, (hold o).desc idx = none
  descs : Owned (fun o => (hold o).desc) (fun idx => idx.toNat < q.vq.num.toNat)
    q.vq.cell
  regions : Owned (fun o => (hold o).region) (· ∈ q.mem.maps) q.mem.bytes

theorem desc_update (hold : ω -> Holding) (o : ω) (H : Holding) :
    (fun o' => (Function.update hold o H o').desc) =
      Function.update (fun o' => (hold o').desc) o H.desc := by
  funext o'
  by_cases ho : o' = o
  · subst ho
    simp
  · simp [Function.update_of_ne ho]

theorem region_update (hold : ω -> Holding) (o : ω) (H : Holding) :
    (fun o' => (Function.update hold o H o').region) =
      Function.update (fun o' => (hold o').region) o H.region := by
  funext o'
  by_cases ho : o' = o
  · subst ho
    simp
  · simp [Function.update_of_ne ho]

theorem desc_setDesc (hold : ω -> Holding) (o : ω) (idx : UInt16)
    (c : Option DescCell) :
    (fun o' => (Function.update hold o ((hold o).setDesc idx c) o').desc) =
      setHold (fun o' => (hold o').desc) o idx c :=
  desc_update hold o _

theorem region_setDesc (hold : ω -> Holding) (o : ω) (idx : UInt16)
    (c : Option DescCell) :
    (fun o' => (Function.update hold o ((hold o).setDesc idx c) o').region) =
      fun o' => (hold o').region := by
  rw [region_update]
  exact Function.update_eq_self o (fun o' => (hold o').region)

theorem region_setRegion (hold : ω -> Holding) (o : ω) (m : Mapping)
    (b : Option (List UInt8)) :
    (fun o' => (Function.update hold o ((hold o).setRegion m b) o').region) =
      setHold (fun o' => (hold o').region) o m b :=
  region_update hold o _

theorem desc_setRegion (hold : ω -> Holding) (o : ω) (m : Mapping)
    (b : Option (List UInt8)) :
    (fun o' => (Function.update hold o ((hold o).setRegion m b) o').desc) =
      fun o' => (hold o').desc := by
  rw [desc_update]
  exact Function.update_eq_self o (fun o' => (hold o').desc)

/-!
## Specifications of programs
-/

/-- An action, called by one who holds `H`, moves the holding of the caller only
and leaves the rings alone. -/
def HoldingStep (ω : Type) [DecidableEq ω] {β : Type} (H : Holding)
    (f : Env -> Queue -> Option (β × Queue)) (post : β -> Holding -> Prop) : Prop :=
  forall e q (hold : ω -> Holding) o b q', HoldInv q hold -> hold o = H ->
    f e q = some (b, q') ->
      SameRings q q' ∧
        exists H', HoldInv q' (Function.update hold o H') ∧ post b H'

/-- A program without loops that moves the holding of its caller only. -/
def HoldingSpec (ω : Type) [DecidableEq ω] :
    {α : Type} -> Holding -> Prog Env Queue α -> (α -> Holding -> Prop) -> Prop
  | _, H, .ret a, Q => Q a H
  | _, H, .act f k, Q => HoldingStep ω H f fun b H' => HoldingSpec ω H' (k b) Q
  | _, _, .loop _ _ _, _ => False

variable {α β : Type}

theorem HoldingStep.mono {H : Holding} {f : Env -> Queue -> Option (β × Queue)}
    {post post' : β -> Holding -> Prop} (h : HoldingStep ω H f post)
    (hpost : forall b H', post b H' -> post' b H') : HoldingStep ω H f post' := by
  intro e q hold o b q' hinv hhold hf
  rcases h e q hold o b q' hinv hhold hf with ⟨hsame, H', hinv', hb⟩
  exact ⟨hsame, H', hinv', hpost b H' hb⟩

theorem HoldingSpec.bind {p : Prog Env Queue α} {f : α -> Prog Env Queue β}
    {Q : α -> Holding -> Prop} {R : β -> Holding -> Prop} {H : Holding}
    (hp : HoldingSpec ω H p Q)
    (hf : forall a H', Q a H' -> HoldingSpec ω H' (f a) R) :
    HoldingSpec ω H (p.bind f) R := by
  induction p generalizing H with
  | ret a => exact hf a H hp
  | act g k ih => exact HoldingStep.mono hp fun b H' hb => ih b hb hf
  | loop body x k => exact hp.elim

theorem HoldingSpec.conseq {p : Prog Env Queue α} {Q Q' : α -> Holding -> Prop}
    {H : Holding} (hp : HoldingSpec ω H p Q)
    (hQ : forall a H', Q a H' -> Q' a H') : HoldingSpec ω H p Q' := by
  induction p generalizing H with
  | ret a => exact hQ a H hp
  | act g k ih => exact HoldingStep.mono hp fun b H' hb => ih b hb hQ
  | loop body x k => exact hp.elim

end Holdings

end QnxVirtio
