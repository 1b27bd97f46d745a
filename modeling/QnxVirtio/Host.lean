import Mathlib.Algebra.Group.Nat.Defs
import Mathlib.Data.List.Pairwise
import QnxVirtio.Foundation.Prog
import QnxVirtio.Foundation.Bytes

/-!
# The host system

What the driver uses of QNX: return codes, anonymous physical mappings, heap
blocks, and the answers that a blocking or failing call may get.
-/

namespace QnxVirtio

open Foundation

/-- Return codes.  `minusOne` is the -1 of calls that report their reason in
errno, `other` any further errno value. -/
inductive Rc
  | EOK | EINTR | EIO | ENOMEM | EINVAL | ENODEV | ENOENT | ETIMEDOUT
  | ENOTSUP | ENOSYS | minusOne
  | other (code : Nat)
  deriving DecidableEq, Repr

/-- The code of a failed call. -/
def Failure : Type :=
  { rc : Rc // rc ≠ Rc.EOK }

def Failure.ENOMEM : Failure :=
  ⟨.ENOMEM, by decide⟩

def Failure.EINVAL : Failure :=
  ⟨.EINVAL, by decide⟩

/-- The address of a completion context.  A context lives in the frame of one
call of one client thread. -/
structure ContextPtr where
  thread : Nat
  call : Nat
  deriving DecidableEq, Repr

/-- How a device is attached to the host. -/
inductive Transport
  | mmio
  | pci

/-!
## Mappings
-/

/-- A live mapping of physically contiguous memory. -/
structure Mapping where
  vaddr : Nat
  paddr : Nat
  len : Nat
  deriving DecidableEq, Repr

/-- Two mappings share neither an address nor a physical byte. -/
def Mapping.Apart (m n : Mapping) : Prop :=
  (m.vaddr + m.len <= n.vaddr ∨ n.vaddr + n.len <= m.vaddr) ∧
    (m.paddr + m.len <= n.paddr ∨ n.paddr + n.len <= m.paddr)

instance (m n : Mapping) : Decidable (m.Apart n) :=
  inferInstanceAs (Decidable (_ ∧ _))

theorem Mapping.Apart.symm {m n : Mapping} (h : m.Apart n) : n.Apart m :=
  ⟨h.1.symm, h.2.symm⟩

instance : Std.Symm Mapping.Apart :=
  ⟨fun _ _ h => h.symm⟩

theorem Mapping.Apart.vaddr_ne {m n : Mapping} (h : m.Apart n)
    (hm : 0 < m.len) (hn : 0 < n.len) : m.vaddr ≠ n.vaddr := by
  have := h.1
  omega

/-- What a mapping has below an address, and from an address on. -/
def Mapping.below (n : Mapping) (vaddr : Nat) : List Mapping :=
  if n.vaddr < vaddr then [{ n with len := min n.len (vaddr - n.vaddr) }] else []

def Mapping.above (n : Mapping) (vaddr : Nat) : List Mapping :=
  if vaddr < n.vaddr + n.len then
    [{ vaddr := n.vaddr + (vaddr - n.vaddr)
       paddr := n.paddr + (vaddr - n.vaddr)
       len := n.len - (vaddr - n.vaddr) }]
  else []

/-- What is left of a mapping when a range of addresses is unmapped. -/
def Mapping.cut (vaddr len : Nat) (n : Mapping) : List Mapping :=
  n.below vaddr ++ n.above (vaddr + len)

/-- A nonempty part of a mapping. -/
structure Mapping.Inside (n m : Mapping) : Prop where
  pos : 0 < n.len
  low : m.vaddr <= n.vaddr
  high : n.vaddr + n.len <= m.vaddr + m.len
  phys : n.paddr = m.paddr + (n.vaddr - m.vaddr)

theorem Mapping.Inside.apart {n n' m m' : Mapping} (h : n.Inside m) (h' : n'.Inside m')
    (hapart : m.Apart m') : n.Apart n' := by
  rcases h with ⟨hpos, hlow, hhigh, hphys⟩
  rcases h' with ⟨hpos', hlow', hhigh', hphys'⟩
  unfold Mapping.Apart at hapart ⊢
  omega

theorem Mapping.inside_of_mem_cut {vaddr len : Nat} {n m : Mapping} (hm : 0 < m.len)
    (h : n ∈ m.cut vaddr len) : n.Inside m := by
  unfold Mapping.cut Mapping.below Mapping.above at h
  rcases List.mem_append.mp h with hbelow | habove
  · split at hbelow
    · rcases List.mem_singleton.mp hbelow with rfl
      constructor <;> dsimp only <;> omega
    · cases hbelow
  · split at habove
    · rcases List.mem_singleton.mp habove with rfl
      constructor <;> dsimp only <;> omega
    · cases habove

theorem Mapping.pairwise_cut (vaddr len : Nat) (n : Mapping) :
    (n.cut vaddr len).Pairwise Mapping.Apart := by
  unfold Mapping.cut Mapping.below Mapping.above
  split
  · split
    · refine List.pairwise_pair.mpr ?_
      unfold Mapping.Apart
      dsimp only
      omega
    · exact List.pairwise_singleton _ _
  · split
    · exact List.pairwise_singleton _ _
    · exact List.Pairwise.nil

theorem Mapping.cut_outside {vaddr len : Nat} {n : Mapping} (hn : 0 < n.len)
    (h : n.vaddr + n.len <= vaddr ∨ vaddr + len <= n.vaddr) : n.cut vaddr len = [n] := by
  rcases n with ⟨v, p, l⟩
  unfold Mapping.cut Mapping.below Mapping.above
  dsimp only at hn h ⊢
  rcases h with h | h
  · rw [if_pos (by omega), if_neg (by omega), Nat.min_eq_left (by omega)]
    rfl
  · rw [if_neg (by omega), if_pos (by omega), Nat.sub_eq_zero_of_le h]
    rfl

theorem Mapping.cut_start (n : Mapping) (len : Nat) :
    n.cut n.vaddr len = n.above (n.vaddr + len) := by
  unfold Mapping.cut Mapping.below
  rw [if_neg (Nat.lt_irrefl _)]
  rfl

theorem Mapping.cut_all (n : Mapping) : n.cut n.vaddr n.len = [] := by
  rw [Mapping.cut_start]
  exact if_neg (Nat.lt_irrefl _)

theorem Mapping.cut_start_ne_nil {n : Mapping} {len : Nat} (h : len < n.len) :
    n.cut n.vaddr len ≠ [] := by
  rw [Mapping.cut_start]
  unfold Mapping.above
  rw [if_pos (Nat.add_lt_add_left h _)]
  exact List.cons_ne_nil _ _

/-- The live mappings, nonempty and apart from each other, and the physical
memory. -/
structure Memory where
  maps : List Mapping
  phys : Bytes
  pos : forall n, n ∈ maps -> 0 < n.len
  apart : maps.Pairwise Mapping.Apart

namespace Memory

/-- Add a fresh mapping.  The bytes behind it are whatever is there. -/
def extend (m : Memory) (n : Mapping) (hlen : 0 < n.len)
    (hfresh : forall n', n' ∈ m.maps -> n.Apart n') : Memory where
  maps := n :: m.maps
  phys := m.phys
  pos := by
    intro n' hn'
    rcases List.mem_cons.mp hn' with rfl | hn'
    · exact hlen
    · exact m.pos n' hn'
  apart := List.pairwise_cons.mpr ⟨hfresh, m.apart⟩

/-- Unmap a range of addresses. -/
def release (m : Memory) (vaddr len : Nat) : Memory where
  maps := m.maps.flatMap (Mapping.cut vaddr len)
  phys := m.phys
  pos := by
    intro n hn
    rcases List.mem_flatMap.mp hn with ⟨n', hn', hcut⟩
    exact (Mapping.inside_of_mem_cut (m.pos n' hn') hcut).pos
  apart := by
    refine List.pairwise_flatMap.mpr ⟨fun n _ => Mapping.pairwise_cut vaddr len n, ?_⟩
    refine m.apart.imp_of_mem fun {n n'} hn hn' hapart x hx y hy => ?_
    exact (Mapping.inside_of_mem_cut (m.pos n hn) hx).apart
      (Mapping.inside_of_mem_cut (m.pos n' hn') hy) hapart

/-- Overwrite bytes of physical memory. -/
def store (m : Memory) (paddr : Nat) (block : List UInt8) : Memory :=
  { m with phys := storeBytes m.phys paddr block }

end Memory

/-- `mmap64` of anonymous physical memory.  The environment picks the addresses,
apart from everything that is mapped, or fails the call; a mapping of no bytes is
refused.  The outer option is empty for an answer that the call cannot get. -/
def mmap64 (answer : Except Failure (Nat × Nat)) (len : Nat) (m : Memory) :
    Option (Except Rc Nat × Memory) :=
  if hlen : len = 0 then some (.error .EINVAL, m)
  else
    match answer with
    | .error f => some (.error f.val, m)
    | .ok (v, p) =>
        if hfresh : v ≠ 0 ∧ forall n, n ∈ m.maps -> Mapping.Apart ⟨v, p, len⟩ n
        then
          some (.ok v, m.extend ⟨v, p, len⟩ (Nat.pos_of_ne_zero hlen) hfresh.2)
        else none

/-- The mapping that a virtual address lies in. -/
def findMapping (maps : List Mapping) (vaddr : Nat) : Option Mapping :=
  maps.find? fun n => n.vaddr <= vaddr && vaddr < n.vaddr + n.len

/-- The physical address behind `n` mapped bytes. -/
def Memory.resolve (m : Memory) (vaddr n : Nat) : Option Nat :=
  (findMapping m.maps vaddr).bind fun b =>
    if vaddr + n <= b.vaddr + b.len then some (b.paddr + (vaddr - b.vaddr)) else none

/-- `mem_offset64`: the physical address of a mapped address. -/
def memOffset64 (answer : Option Failure) (vaddr : Nat) (m : Memory) :
    Except Rc Nat :=
  match answer with
  | some f => .error f.val
  | none =>
      match findMapping m.maps vaddr with
      | some n => .ok (n.paddr + (vaddr - n.vaddr))
      | none => .error .EINVAL

/-- `munmap` fails for an empty range.  It takes whole pages; where the driver unmaps less
than a whole mapping, the length is one of pages. -/
def munmap (vaddr len : Nat) (m : Memory) : Rc × Memory :=
  if len = 0 then (.minusOne, m) else (.EOK, m.release vaddr len)

/-!
## Facts about mappings
-/

namespace Memory

theorem apart_of_ne (m : Memory) {n n' : Mapping} (hn : n ∈ m.maps)
    (hn' : n' ∈ m.maps) (hne : n ≠ n') : n.Apart n' :=
  m.apart.forall hn hn' hne

@[simp] theorem extend_maps (m : Memory) (n : Mapping) (hlen : 0 < n.len)
    (hfresh : forall n', n' ∈ m.maps -> n.Apart n') :
    (m.extend n hlen hfresh).maps = n :: m.maps := rfl

@[simp] theorem extend_phys (m : Memory) (n : Mapping) (hlen : 0 < n.len)
    (hfresh : forall n', n' ∈ m.maps -> n.Apart n') :
    (m.extend n hlen hfresh).phys = m.phys := rfl

@[simp] theorem release_phys (m : Memory) (v len : Nat) :
    (m.release v len).phys = m.phys := rfl

@[simp] theorem store_maps (m : Memory) (p : Nat) (block : List UInt8) :
    (m.store p block).maps = m.maps := rfl

@[simp] theorem store_phys (m : Memory) (p : Nat) (block : List UInt8) :
    (m.store p block).phys = storeBytes m.phys p block := rfl

theorem nodup_maps (m : Memory) : m.maps.Nodup := by
  refine m.apart.imp_of_mem ?_
  rintro n n' hn _ hapart rfl
  have hpos := m.pos n hn
  exact hapart.vaddr_ne hpos hpos rfl

theorem cut_other (m : Memory) {n n' : Mapping} (hn : n ∈ m.maps) (hn' : n' ∈ m.maps)
    (hne : n' ≠ n) {len : Nat} (hlen : len <= n.len) : n'.cut n.vaddr len = [n'] := by
  apply Mapping.cut_outside (m.pos n' hn')
  have hapart := (m.apart_of_ne hn' hn hne).1
  omega

theorem flatMap_cut_rest (m : Memory) {n : Mapping} {rest : List Mapping}
    (h : m.maps.Perm (n :: rest)) {len : Nat} (hlen : len <= n.len) :
    rest.flatMap (Mapping.cut n.vaddr len) = rest := by
  have hnodup := h.nodup_iff.mp m.nodup_maps
  have hkeep : forall n', n' ∈ rest -> n'.cut n.vaddr len = [n'] := by
    intro n' hn'
    refine m.cut_other (h.mem_iff.mpr (List.mem_cons_self ..))
      (h.mem_iff.mpr (List.mem_cons_of_mem _ hn')) ?_ hlen
    rintro rfl
    exact (List.nodup_cons.mp hnodup).1 hn'
  rw [List.flatMap_congr hkeep, List.flatMap_singleton']

/-- Unmapping the start of a live mapping leaves the end of that mapping. -/
theorem release_start (m : Memory) {n : Mapping} {rest : List Mapping}
    (h : m.maps = n :: rest) {len : Nat} (hlen : len <= n.len) :
    (m.release n.vaddr len).maps = n.cut n.vaddr len ++ rest := by
  change m.maps.flatMap _ = _
  have hrest := m.flatMap_cut_rest (List.Perm.of_eq h) hlen
  rw [h, List.flatMap_cons, hrest]

theorem release_start_perm (m : Memory) {n : Mapping} {rest : List Mapping}
    (h : m.maps.Perm (n :: rest)) {len : Nat} (hlen : len <= n.len) :
    (m.release n.vaddr len).maps.Perm (n.cut n.vaddr len ++ rest) := by
  have hcut := h.flatMap_right (Mapping.cut n.vaddr len)
  rw [List.flatMap_cons, m.flatMap_cut_rest h hlen] at hcut
  exact hcut

theorem release_perm (m : Memory) {n : Mapping} {rest : List Mapping}
    (h : m.maps.Perm (n :: rest)) :
    (m.release n.vaddr n.len).maps.Perm rest := by
  have hrest := m.release_start_perm h (Nat.le_refl _)
  rw [Mapping.cut_all] at hrest
  exact hrest

end Memory

theorem mmap64_cases {answer : Except Failure (Nat × Nat)} {len : Nat}
    {m m' : Memory} {r : Except Rc Nat} (h : mmap64 answer len m = some (r, m')) :
    (exists rc, r = .error rc ∧ rc ≠ Rc.EOK ∧ m' = m) ∨
      exists (v p : Nat) (hlen : 0 < len)
        (hfresh : forall n, n ∈ m.maps -> Mapping.Apart ⟨v, p, len⟩ n),
        r = .ok v ∧ v ≠ 0 ∧ m' = m.extend ⟨v, p, len⟩ hlen hfresh := by
  unfold mmap64 at h
  by_cases hlen : len = 0
  · simp only [hlen, dite_true, Option.some.injEq, Prod.mk.injEq] at h
    exact Or.inl ⟨.EINVAL, h.1.symm, by decide, h.2.symm⟩
  · rw [dif_neg hlen] at h
    cases answer with
    | error f =>
        simp only [Option.some.injEq, Prod.mk.injEq] at h
        exact Or.inl ⟨f.val, h.1.symm, f.property, h.2.symm⟩
    | ok vp =>
        rcases vp with ⟨v, p⟩
        by_cases hfresh : v ≠ 0 ∧
            forall n, n ∈ m.maps -> Mapping.Apart ⟨v, p, len⟩ n
        · simp only [dif_pos hfresh, Option.some.injEq, Prod.mk.injEq] at h
          exact Or.inr ⟨v, p, Nat.pos_of_ne_zero hlen, hfresh.2, h.1.symm,
            hfresh.1, h.2.symm⟩
        · simp [dif_neg hfresh] at h

theorem findMapping_of_mem {m : Memory} {n : Mapping} (hn : n ∈ m.maps)
    {vaddr : Nat} (hlow : n.vaddr <= vaddr) (hhigh : vaddr < n.vaddr + n.len) :
    findMapping m.maps vaddr = some n := by
  cases hfind : findMapping m.maps vaddr with
  | none =>
      have hnot := List.find?_eq_none.mp hfind n hn
      simp [hlow, hhigh] at hnot
  | some n' =>
      have hmem : n' ∈ m.maps := List.mem_of_find?_eq_some hfind
      have hin := List.find?_some hfind
      simp only [Bool.and_eq_true, decide_eq_true_eq] at hin
      by_contra hne
      have hapart := (m.apart_of_ne hmem hn fun heq => hne (by rw [heq])).1
      omega

theorem memOffset64_base {m : Memory} {n : Mapping} (hn : n ∈ m.maps) :
    memOffset64 none n.vaddr m = .ok n.paddr := by
  have hfind := findMapping_of_mem hn (Nat.le_refl _)
    (Nat.lt_add_of_pos_right (m.pos n hn))
  simp [memOffset64, hfind]

theorem memOffset64_extend {answer : Option Failure} {m : Memory} {n : Mapping}
    {hlen : 0 < n.len} {hfresh : forall n', n' ∈ m.maps -> n.Apart n'} {paddr : Nat}
    (h : memOffset64 answer n.vaddr (m.extend n hlen hfresh) = .ok paddr) :
    paddr = n.paddr := by
  cases answer with
  | some f => cases h
  | none =>
      rw [memOffset64_base (m := m.extend n hlen hfresh) (List.mem_cons_self ..)] at h
      cases h
      rfl

theorem Memory.resolve_of_mem {m : Memory} {b : Mapping} (hb : b ∈ m.maps)
    {off n : Nat} (hn : 0 < n) (hoff : off + n <= b.len) :
    m.resolve (b.vaddr + off) n = some (b.paddr + off) := by
  have hfind := findMapping_of_mem hb (Nat.le_add_right _ off) (by omega)
  simp only [Memory.resolve, hfind, Option.bind_some]
  rw [if_pos (by omega), Nat.add_sub_cancel_left]

theorem memOffset64_error {answer : Option Failure} {v : Nat} {m : Memory}
    {rc : Rc} (h : memOffset64 answer v m = .error rc) : rc ≠ Rc.EOK := by
  unfold memOffset64 at h
  cases answer with
  | some f =>
      cases h
      exact f.property
  | none =>
      cases hfind : findMapping m.maps v with
      | none =>
          simp only [hfind, Except.error.injEq] at h
          rw [← h]
          decide
      | some n => simp [hfind] at h

/-!
## Answers of the environment
-/

/-- What one step of a thread may be told from outside.  Each action looks at the
answers it asks for. -/
structure Env where
  /-- Result of taking a spinlock. -/
  lock : Rc := .EOK
  mmap : Except Failure (Nat × Nat) := .error Failure.ENOMEM
  memOffset : Option Failure := none
  calloc : Option Failure := none
  malloc : Option Bytes := none
  spinInit : Rc := .EOK
  spinDestroy : Rc := .EOK
  semInit : Rc := .EOK
  /-- A signal arrives while the thread waits. -/
  interrupted : Bool := false
  /-- Result of the register write that notifies the device. -/
  notify : Rc := .EOK
  /-- `InterruptAttachThread` succeeds. -/
  attach : Bool := true
  /-- What uninitialised memory holds, as a number and as a pointer. -/
  garbage : Nat := 0
  wild : Option ContextPtr := none

instance : Inhabited Env :=
  ⟨{}⟩

/-- The process: its memory and its live heap blocks. -/
structure Host where
  mem : Memory
  pagesize : UInt64
  heap : List Nat
  nextBlock : Nat

/-- Answers that let every call succeed, with mappings a page apart. -/
def succeedingEnvs (count page : Nat) : List Env :=
  (List.range count).map fun i =>
    { mmap := .ok (4096 * (page + i), 4096 * (page + i))
      malloc := some fun _ => 0 }

/-- A process that has mapped nothing yet. -/
def Host.initial : Host where
  mem := {
    maps := []
    phys := fun _ => 0
    pos := by simp
    apart := List.Pairwise.nil }
  pagesize := 4096
  heap := []
  nextBlock := 0

/-- `calloc` and `malloc`, as far as ownership of the block goes. -/
def allocBlock : Prog Env Host (Except Rc Nat) :=
  Prog.action fun e h =>
    match e.calloc with
    | some f => some (.error f.val, h)
    | none =>
        some (.ok h.nextBlock,
          { h with heap := h.nextBlock :: h.heap, nextBlock := h.nextBlock + 1 })

/-- `mmap64`, `mem_offset64` and `munmap` on the memory of the process. -/
def mapPages (len : Nat) : Prog Env Host (Except Rc Nat) :=
  Prog.action fun e h =>
    (mmap64 e.mmap len h.mem).map fun r => (r.1, { h with mem := r.2 })

def pagesOffset (vaddr : Nat) : Prog Env Host (Except Rc Nat) :=
  Prog.action fun e h => some (memOffset64 e.memOffset vaddr h.mem, h)

def unmapPages (vaddr len : Nat) : Prog Env Host Rc :=
  Prog.action fun _ h =>
    let r := munmap vaddr len h.mem
    some (r.1, { h with mem := r.2 })

def freeBlock (block : Nat) : Prog Env Host Unit :=
  Prog.modify fun h => { h with heap := h.heap.erase block }

end QnxVirtio
