import Mathlib.Algebra.Order.BigOperators.Group.Finset
import Mathlib.Algebra.Group.Action.Defs
import Mathlib.Data.Nat.Prime.Basic
import QnxVirtio.Gpio.Chains

/-!
# Counting descriptors

Each client owes at most two descriptors, those of its chain in flight among them, and the
interrupt thread at most two.  So a client that is awake and has at most one finds a free
descriptor when the queue has more than two for each client.
-/

namespace QnxVirtio

open Foundation

variable {w : GpioSystem} {gs : GpioThread -> ChainGhost} {fl : Nat -> Holding}
  {flying : Flying} {k : Nat}

/-- The client that a chain in flight belongs to. -/
def clientOf (x : Nat × Published) : Nat :=
  x.2.context.elim 0 ContextPtr.thread

theorem Accounts.clients_nodup (h : Accounts k w gs flying)
    (hinv : ChainsInv w gs fl flying) : (flying.map clientOf).Nodup := by
  have hcontexts : (flying.map fun x => x.2.context).Nodup :=
    (List.nodup_append.mp h.contexts).1
  refine (List.Nodup.of_map _ hcontexts).map_on ?_
  intro x hx y hy heq
  rcases hinv.pair x hx with ⟨ptr, _, _, hptr, _⟩
  rcases hinv.pair y hy with ⟨ptr', _, _, hptr', _⟩
  have hx' := h.undelivered _ (List.mem_of_getElem? (hinv.published x hx)) ptr hptr
    (h.fresh x hx ptr hptr)
  have hy' := h.undelivered _ (List.mem_of_getElem? (hinv.published y hy)) ptr' hptr'
    (h.fresh y hy ptr' hptr')
  have hthread : ptr.thread = ptr'.thread := by
    simpa [clientOf, hptr, hptr'] using heq
  have hcall : ptr.call = ptr'.call := by
    rw [← hx'.2.2, ← hy'.2.2, hthread]
  have hsame : ptr = ptr' := by
    cases ptr
    cases ptr'
    simp_all
  exact List.inj_on_of_nodup_map hcontexts hx hy (hptr.trans (hsame ▸ hptr'.symm))

/-- The descriptors that client `u` answers for, its chain in flight included. -/
def owed (gs : GpioThread -> ChainGhost) (u : Nat) : Nat :=
  if (gs (.client u)).waiting then 2 else (gs (.client u)).descs.length

theorem Accounts.flying_le (h : Accounts k w gs flying) (hinv : ChainsInv w gs fl flying) :
    flying.length <=
      ((Finset.range k).filter fun u => (gs (.client u)).waiting = true).card := by
  have hnodup := h.clients_nodup hinv
  rw [← List.length_map clientOf, ← List.toFinset_card_of_nodup hnodup]
  apply Finset.card_le_card
  intro u hu
  rcases List.mem_map.mp (List.mem_toFinset.mp hu) with ⟨x, hx, rfl⟩
  rcases hinv.pair x hx with ⟨ptr, _, _, hptr, _⟩
  have hclient := h.undelivered _ (List.mem_of_getElem? (hinv.published x hx)) ptr hptr
    (h.fresh x hx ptr hptr)
  have hthread : clientOf x = ptr.thread := by
    simp [clientOf, hptr]
  rw [hthread]
  exact Finset.mem_filter.mpr ⟨Finset.mem_range.mpr hclient.1, hclient.2.1⟩

theorem Accounts.owed_le (h : Accounts k w gs flying) (u : Nat) : owed gs u <= 2 := by
  unfold owed
  split
  · exact Nat.le_refl 2
  · exact h.short _

theorem Accounts.sum_owed (h : Accounts k w gs flying) (hinv : ChainsInv w gs fl flying) :
    ((List.range k).flatMap fun u => (gs (.client u)).descs).length + 2 * flying.length <=
      ∑ u ∈ Finset.range k, owed gs u := by
  have hclients : ((List.range k).flatMap fun u => (gs (.client u)).descs).length =
      ∑ u ∈ Finset.range k, (gs (.client u)).descs.length := by
    rw [List.length_flatMap]
    rfl
  have hflying : 2 * flying.length <=
      ∑ u ∈ Finset.range k, if (gs (.client u)).waiting = true then 2 else 0 := by
    rw [← Finset.sum_filter, Finset.sum_const, smul_eq_mul, Nat.mul_comm]
    exact Nat.mul_le_mul_right 2 (h.flying_le hinv)
  rw [hclients]
  calc _ <= _ := Nat.add_le_add_left hflying _
    _ = ∑ u ∈ Finset.range k, owed gs u := by
        rw [← Finset.sum_add_distrib]
        refine Finset.sum_congr rfl fun u _ => ?_
        unfold owed
        by_cases hwaiting : (gs (.client u)).waiting = true
        · simp [hwaiting, h.asleep u hwaiting]
        · simp [hwaiting]

/-- Where a descriptor can be when none is free. -/
theorem Accounts.covered_list (h : Accounts k w gs flying)
    (hempty : w.queue.vq.freeList = []) {idx : UInt16}
    (hidx : idx.toNat < w.queue.vq.num.toNat) :
    idx ∈ ((List.range k).flatMap fun u => (gs (.client u)).descs) ++
      ((gs .ist).descs ++ flying.flatMap fun x => x.2.chain) := by
  rcases h.covered idx hidx with hfree | ⟨t, ht⟩ | ⟨x, hx, hchain⟩
  · rw [hempty] at hfree
    cases hfree
  · cases t with
    | client u =>
        by_cases hu : u < k
        · exact List.mem_append_left _
            (List.mem_flatMap.mpr ⟨u, List.mem_range.mpr hu, ht⟩)
        · rw [h.outside u (Nat.not_lt.mp hu)] at ht
          cases ht
    | ist => exact List.mem_append_right _ (List.mem_append_left _ ht)
  · exact List.mem_append_right _
      (List.mem_append_right _ (List.mem_flatMap.mpr ⟨x, hx, hchain⟩))

theorem length_chains (hinv : ChainsInv w gs fl flying) :
    (flying.flatMap fun x => x.2.chain).length = 2 * flying.length := by
  have hpairs : forall x, x ∈ flying -> x.2.chain.length = 2 := by
    intro x hx
    rcases hinv.pair x hx with ⟨_, _, _, _, hpair⟩
    rcases hpair.shape with ⟨resp, _, _, hrest, _⟩
    simp [Published.chain, hrest]
  rw [List.length_flatMap, List.map_congr_left hpairs]
  simp [Nat.mul_comm]

theorem Accounts.freeList_ne_nil (h : Accounts k w gs flying)
    (hinv : ChainsInv w gs fl flying) (hdvd : w.queue.vq.num.toNat ∣ 65536) {t : Nat}
    (ht : t < k) (hawake : (gs (.client t)).waiting = false)
    (hdescs : (gs (.client t)).descs.length <= 1) : w.queue.vq.freeList ≠ [] := by
  intro hempty
  have hlen : w.queue.vq.num.toNat <= (((List.range k).flatMap
      fun u => (gs (.client u)).descs) ++
        ((gs .ist).descs ++ flying.flatMap fun x => x.2.chain)).length := by
    have hnum := w.queue.vq.num.toNat_lt
    have hsub : (List.range w.queue.vq.num.toNat).map UInt16.ofNat ⊆ ((List.range k).flatMap
        fun u => (gs (.client u)).descs) ++
          ((gs .ist).descs ++ flying.flatMap fun x => x.2.chain) := by
      intro idx hidx
      rcases List.mem_map.mp hidx with ⟨i, hi, rfl⟩
      have hi' := List.mem_range.mp hi
      exact h.covered_list hempty (by simp only [UInt16.toNat_ofNat']; omega)
    simpa using (List.Nodup.subperm (nodup_indices (by omega)) hsub).length_le
  have hsum : ∑ u ∈ Finset.range k, owed gs u < ∑ _u ∈ Finset.range k, 2 := by
    refine Finset.sum_lt_sum (fun u _ => h.owed_le u) ⟨t, Finset.mem_range.mpr ht, ?_⟩
    simp only [owed, hawake, Bool.false_eq_true, if_false]
    omega
  have howed := h.sum_owed hinv
  have hist := h.short .ist
  have hroom := h.room
  -- a power of two above `2 * k` is even
  have heven : 2 ∣ w.queue.vq.num.toNat := by
    have hpow : w.queue.vq.num.toNat ∣ 2 ^ 16 := hdvd
    rcases (Nat.dvd_prime_pow Nat.prime_two).mp hpow with ⟨m, _, hm⟩
    rw [hm]
    refine dvd_pow_self 2 ?_
    rintro rfl
    omega
  rw [List.length_append, List.length_append, length_chains hinv] at hlen
  simp only [Finset.sum_const, Finset.card_range, smul_eq_mul] at hsum
  omega

end QnxVirtio
