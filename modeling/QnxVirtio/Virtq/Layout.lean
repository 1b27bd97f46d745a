import QnxVirtio.Foundation.Align
import QnxVirtio.Virtq.Create

/-!
# The memory layout of legacy queues

The descriptor table, the available ring and the used ring of a legacy queue share
one mapping.  The size of the mapping is computed with the size of the available
ring in the place of the used ring.
-/

namespace QnxVirtio

open Foundation

/-- Where `virtq_create_legacy` puts the rings in a mapping at `desc`. -/
def legacyRings (num : UInt16) (pagesize : UInt64) (desc : Nat) : VirtqRings where
  desc := desc
  avail := desc + (virtqDescMemSize num.toUInt64).toNat
  used := desc +
    (alignSize (virtqDescMemSize num.toUInt64 + virtqAvailMemSize num) pagesize).toNat

/-- The rings lie in `len` bytes from `desc` on, apart from each other, and the used
ring begins a page. -/
structure LegacyLayout (num : UInt16) (pagesize : UInt64) (rings : VirtqRings)
    (desc len : Nat) : Prop where
  desc_start : rings.desc = desc
  desc_avail : rings.desc + 16 * num.toNat <= rings.avail
  avail_used : rings.avail + (virtqAvailMemSize num).toNat <= rings.used
  used_end : rings.used + (virtqUsedMemSize num).toNat <= desc + len
  used_page : pagesize.toNat ∣ rings.used - desc

/-!
## Sizes
-/

theorem toNat_virtqDescMemSize (num : UInt16) :
    (virtqDescMemSize num.toUInt64).toNat = 16 * num.toNat := by
  have hnum := num.toNat_lt
  simp only [virtqDescMemSize, UInt64.toNat_mul, UInt16.toNat_toUInt64,
    UInt64.reduceToNat]
  omega

theorem toNat_virtqAvailMemSize (num : UInt16) :
    (virtqAvailMemSize num).toNat = 2 * num.toNat + 6 := by
  have hnum := num.toNat_lt
  simp only [virtqAvailMemSize, UInt64.toNat_add, UInt64.toNat_mul,
    UInt16.toNat_toUInt64, UInt64.reduceToNat]
  omega

theorem toNat_virtqUsedMemSize (num : UInt16) :
    (virtqUsedMemSize num).toNat = 8 * num.toNat + 6 := by
  have hnum := num.toNat_lt
  simp only [virtqUsedMemSize, UInt64.toNat_add, UInt64.toNat_mul,
    UInt16.toNat_toUInt64, UInt64.reduceToNat]
  omega

theorem toNat_desc_avail (num : UInt16) :
    (virtqDescMemSize num.toUInt64 + virtqAvailMemSize num).toNat =
      18 * num.toNat + 6 := by
  have hnum := num.toNat_lt
  rw [UInt64.toNat_add, toNat_virtqDescMemSize, toNat_virtqAvailMemSize]
  omega

theorem toNat_alignSize {size p : UInt64} {k : Nat} (hp : p.toNat = 2 ^ k)
    (hsize : size.toNat + p.toNat <= 2 ^ 64) :
    (alignSize size p).toNat = alignUp size.toNat p.toNat := by
  have hpos : 1 <= p.toNat := by
    rw [hp]
    exact Nat.two_pow_pos k
  have hone : (p - 1).toNat = p.toNat - 1 := by
    have hle : (1 : UInt64) <= p := UInt64.le_iff_toNat_le.mpr hpos
    rw [UInt64.toNat_sub_of_le _ _ hle]
    rfl
  have hsum : (size + (p - 1)).toNat = size.toNat + p.toNat - 1 := by
    rw [UInt64.toNat_add, hone]
    omega
  unfold alignSize
  rw [and_not_mask_toNat hp, hsum, ← hp]
  exact Nat.mul_comm _ _

theorem alignSize_zero (size : UInt64) : alignSize size 0 = 0 := by
  simp [alignSize]

/-!
## Page sizes
-/

/-- What `getpagesize` may return: a power of two that fits an `int`. -/
def PageSize (pagesize : UInt64) : Prop :=
  exists k, k <= 30 ∧ pagesize.toNat = 2 ^ k

theorem PageSize.pos {pagesize : UInt64} (h : PageSize pagesize) :
    0 < pagesize.toNat := by
  rcases h with ⟨k, _, hk⟩
  rw [hk]
  exact Nat.two_pow_pos k

theorem PageSize.le {pagesize : UInt64} (h : PageSize pagesize) :
    pagesize.toNat <= 2 ^ 30 := by
  rcases h with ⟨k, hle, hk⟩
  rw [hk]
  exact Nat.pow_le_pow_right (by decide) hle

theorem PageSize.alignSize {pagesize size : UInt64} (h : PageSize pagesize)
    (hsize : size.toNat <= 2 ^ 32) :
    (alignSize size pagesize).toNat = alignUp size.toNat pagesize.toNat := by
  have hle := h.le
  rcases h with ⟨k, _, hk⟩
  exact toNat_alignSize hk (by omega)

theorem PageSize.toUInt16_of_lt {pagesize : UInt64} (h : pagesize.toNat < 65536) :
    pagesize.toUInt16.toUInt64 = pagesize := by
  rw [← UInt64.toNat_inj, UInt16.toNat_toUInt64, UInt64.toNat_toUInt16]
  exact Nat.mod_eq_of_lt h

theorem PageSize.toUInt16_of_ge {pagesize : UInt64} (h : PageSize pagesize)
    (hge : 65536 <= pagesize.toNat) : pagesize.toUInt16.toUInt64 = 0 := by
  rcases h with ⟨k, _, hk⟩
  have h16 : 16 <= k := by
    by_contra hlt
    have hpow : 2 ^ k <= 2 ^ 15 := Nat.pow_le_pow_right (by decide) (by omega)
    omega
  rw [← UInt64.toNat_inj, UInt16.toNat_toUInt64, UInt64.toNat_toUInt16, hk]
  exact Nat.mod_eq_zero_of_dvd (Nat.pow_dvd_pow 2 h16)

theorem virtqLegacyMemSize_of_lt {num : UInt16} {pagesize : UInt64}
    (h : PageSize pagesize) (hlt : pagesize.toNat < 65536) :
    (virtqLegacyMemSize num pagesize.toUInt16).toNat =
      alignUp (18 * num.toNat + 6) pagesize.toNat +
        alignUp (2 * num.toNat + 6) pagesize.toNat := by
  have hnum := num.toNat_lt
  have hdesc := alignUp_lt_add h.pos (18 * num.toNat + 6)
  have havail := alignUp_lt_add h.pos (2 * num.toNat + 6)
  unfold virtqLegacyMemSize
  rw [PageSize.toUInt16_of_lt hlt, UInt64.toNat_add,
    h.alignSize (by rw [toNat_desc_avail]; omega),
    h.alignSize (by rw [toNat_virtqAvailMemSize]; omega),
    toNat_desc_avail, toNat_virtqAvailMemSize]
  omega

theorem virtqLegacyMemSize_of_ge {num : UInt16} {pagesize : UInt64}
    (h : PageSize pagesize) (hge : 65536 <= pagesize.toNat) :
    virtqLegacyMemSize num pagesize.toUInt16 = 0 := by
  unfold virtqLegacyMemSize
  rw [h.toUInt16_of_ge hge, alignSize_zero, alignSize_zero]
  rfl

theorem virtqLegacyMemSize_zero_le {pagesize : UInt64} (h : PageSize pagesize)
    (num : UInt16) :
    (virtqLegacyMemSize 0 pagesize.toUInt16).toNat <=
      (virtqLegacyMemSize num pagesize.toUInt16).toNat := by
  by_cases hlt : pagesize.toNat < 65536
  · rw [virtqLegacyMemSize_of_lt h hlt, virtqLegacyMemSize_of_lt h hlt, UInt16.toNat_zero]
    apply Nat.add_le_add
    · exact alignUp_mono h.pos (by omega)
    · exact alignUp_mono h.pos (by omega)
  · have hge := Nat.le_of_not_lt hlt
    rw [virtqLegacyMemSize_of_ge h hge, virtqLegacyMemSize_of_ge h hge]

/-!
## The layout
-/

/-- The used ring fits where the size of the available ring was reserved only if one
page holds it. -/
theorem used_fits_iff {n p k : Nat} (hp : p = 2 ^ k) (hn : 0 < n) :
    8 * n + 6 <= alignUp (2 * n + 6) p <-> 8 * n + 6 <= p := by
  have hpos : 0 < p := by
    rw [hp]
    exact Nat.two_pow_pos k
  by_cases hle : 2 * n + 6 <= p
  · rw [alignUp_eq_self_of_le (by omega) hle]
  · have hlt := alignUp_lt_add hpos (2 * n + 6)
    have hseven : p ≠ 7 := by
      intro h7
      have h3 : k < 3 := by
        by_contra hge
        have : 2 ^ 3 <= 2 ^ k := Nat.pow_le_pow_right (by decide) (by omega)
        omega
      have hcases : k = 0 ∨ k = 1 ∨ k = 2 := by omega
      rcases hcases with rfl | rfl | rfl
      · omega
      · omega
      · omega
    constructor
    · intro h
      omega
    · intro h
      omega

theorem toNat_usedOffset {pagesize : UInt64} (h : PageSize pagesize) (num : UInt16) :
    (alignSize (virtqDescMemSize num.toUInt64 + virtqAvailMemSize num)
      pagesize).toNat = alignUp (18 * num.toNat + 6) pagesize.toNat := by
  have hnum := num.toNat_lt
  rw [h.alignSize (by rw [toNat_desc_avail]; omega), toNat_desc_avail]

theorem legacyLayout_iff_used {pagesize : UInt64} (h : PageSize pagesize)
    (num : UInt16) (desc len : Nat) :
    LegacyLayout num pagesize (legacyRings num pagesize desc) desc len <->
      alignUp (18 * num.toNat + 6) pagesize.toNat + (8 * num.toNat + 6) <= len := by
  have hused : (legacyRings num pagesize desc).used =
      desc + alignUp (18 * num.toNat + 6) pagesize.toNat := by
    unfold legacyRings
    rw [toNat_usedOffset h]
  have havail : (legacyRings num pagesize desc).avail = desc + 16 * num.toNat := by
    unfold legacyRings
    rw [toNat_virtqDescMemSize]
  have hround := le_alignUp h.pos (18 * num.toNat + 6)
  constructor
  · intro hlayout
    have hend := hlayout.used_end
    rw [hused, toNat_virtqUsedMemSize] at hend
    omega
  · intro hend
    constructor
    · rfl
    · rw [havail]
      exact Nat.le_refl _
    · rw [havail, hused, toNat_virtqAvailMemSize]
      omega
    · rw [hused, toNat_virtqUsedMemSize]
      omega
    · rw [hused, Nat.add_sub_cancel_left]
      exact dvd_alignUp _ _

theorem runs_virtqCreateLegacy {ok : Env -> Prop} {num : UInt16} {h h' : Host}
    {rings : VirtqRings}
    (hrun : Prog.Runs ok h (virtqCreateLegacy num) (.ok rings) h') :
    rings = legacyRings num h.pagesize rings.desc ∧
      exists paddr, ⟨rings.desc, paddr,
        (virtqLegacyMemSize num h.pagesize.toUInt16).toNat⟩ ∈ h'.mem.maps := by
  unfold virtqCreateLegacy at hrun
  rcases Prog.runs_bind_iff.mp hrun with ⟨pagesize, h1, hpage, hrun⟩
  rcases Prog.runs_read_iff.mp hpage with ⟨_, rfl, rfl⟩
  rcases Prog.runs_bind_iff.mp hrun with ⟨r, h2, hmap, hrun⟩
  cases r with
  | error rc => cases (Prog.runs_ret_iff.mp hrun).1
  | ok desc =>
      rcases Prog.runs_ret_iff.mp hrun with ⟨hrings, rfl⟩
      cases hrings
      constructor
      · rfl
      · rcases Prog.runs_action_iff.mp hmap with ⟨e, _, hf⟩
        rcases Option.map_eq_some_iff.mp hf with ⟨⟨r, m⟩, hmmap, hout⟩
        cases hout
        rcases mmap64_cases hmmap with ⟨rc, hr, _⟩ | ⟨v, p, hlen, hfresh, hr, _, hm⟩
        · cases hr
        · cases hr
          refine ⟨p, ?_⟩
          rw [hm]
          exact List.mem_cons_self ..

/-- A legacy queue is laid out as it should be exactly when one page below 64 KiB
holds its used ring. -/
theorem legacy_layout_iff (num : UInt16) (hnum : 0 < num.toNat) (pagesize : UInt64)
    (hpage : PageSize pagesize) (desc : Nat) :
    LegacyLayout num pagesize (legacyRings num pagesize desc) desc
        (virtqLegacyMemSize num pagesize.toUInt16).toNat <->
      8 * num.toNat + 6 <= pagesize.toNat ∧ pagesize.toNat < 65536 := by
  rw [legacyLayout_iff_used hpage]
  by_cases hlt : pagesize.toNat < 65536
  · have hfits : 8 * num.toNat + 6 <= alignUp (2 * num.toNat + 6) pagesize.toNat <->
        8 * num.toNat + 6 <= pagesize.toNat := by
      rcases hpage with ⟨k, _, hk⟩
      exact used_fits_iff hk hnum
    rw [virtqLegacyMemSize_of_lt hpage hlt, Nat.add_le_add_iff_left, hfits]
    exact (and_iff_left hlt).symm
  · have hge := Nat.le_of_not_lt hlt
    rw [virtqLegacyMemSize_of_ge hpage hge]
    constructor
    · intro hle
      have hzero : (0 : UInt64).toNat = 0 := rfl
      omega
    · exact fun h => absurd h.2 hlt

/-- Every successful `virtq_create_legacy` places the rings like this in the bytes
that it maps. -/
theorem virtq_legacy_layout (num : UInt16) (hnum : 0 < num.toNat) (h : Host)
    (hpage : PageSize h.pagesize) :
    (forall desc,
      LegacyLayout num h.pagesize (legacyRings num h.pagesize desc) desc
          (virtqLegacyMemSize num h.pagesize.toUInt16).toNat <->
        8 * num.toNat + 6 <= h.pagesize.toNat ∧ h.pagesize.toNat < 65536) ∧
    forall (ok : Env -> Prop) (h' : Host) (rings : VirtqRings),
      Prog.Runs ok h (virtqCreateLegacy num) (.ok rings) h' ->
      rings = legacyRings num h.pagesize rings.desc ∧
        exists paddr, ⟨rings.desc, paddr,
          (virtqLegacyMemSize num h.pagesize.toUInt16).toNat⟩ ∈ h'.mem.maps := by
  constructor
  · exact fun desc => legacy_layout_iff num hnum h.pagesize hpage desc
  · exact fun ok h' rings hrun => runs_virtqCreateLegacy hrun

theorem virtq_legacy_layout_eight :
    LegacyLayout 8 4096 (legacyRings 8 4096 0) 0 (virtqLegacyMemSize 8 4096).toNat <->
      8 * (8 : UInt16).toNat + 6 <= (4096 : UInt64).toNat ∧
        (4096 : UInt64).toNat < 65536 :=
  (virtq_legacy_layout 8 (by decide) Host.initial ⟨12, by decide, rfl⟩).1 0

/-- With 512 descriptors and pages of 4 KiB the used ring ends past the mapping. -/
theorem legacy_layout_overrun :
    ¬ forall (num : UInt16) (pagesize : UInt64), 0 < num.toNat ->
      PageSize pagesize -> forall desc,
      LegacyLayout num pagesize (legacyRings num pagesize desc) desc
        (virtqLegacyMemSize num pagesize.toUInt16).toNat := by
  intro h
  have hlayout := h 512 4096 (by decide) ⟨12, by decide, rfl⟩ 0
  exact absurd hlayout.used_end (by decide)

end QnxVirtio
