import QnxVirtio.Virtio.PciInit
import QnxVirtio.Virtio.QueueSpecs

/-!
# Regions of a PCI device

Where the pointers of a PCI device come from, and when they are valid.
-/

namespace QnxVirtio
namespace Virtio

open Foundation

/-!
## What the search stores
-/

/-- The last capability of a type. -/
def lastCap (cfgType : UInt8) (caps : List VirtioPciCap) : Option VirtioPciCap :=
  (caps.filter fun cap => cap.cfgType == cfgType).getLast?

theorem lastCap_cons_of_ne {cfgType : UInt8} {cap : VirtioPciCap}
    (h : cap.cfgType ≠ cfgType) (caps : List VirtioPciCap) :
    lastCap cfgType (cap :: caps) = lastCap cfgType caps := by
  unfold lastCap
  rw [List.filter_cons_of_neg (by simpa using h)]

theorem lastCap_cons_getD {cfgType : UInt8} {cap : VirtioPciCap}
    (h : cap.cfgType = cfgType) (caps : List VirtioPciCap) (d : VirtioPciCap) :
    (lastCap cfgType (cap :: caps)).getD d = (lastCap cfgType caps).getD cap := by
  unfold lastCap
  rw [List.filter_cons_of_pos (by simpa using h), List.getLast?_cons]
  cases (caps.filter fun cap => cap.cfgType == cfgType).getLast? <;> rfl

theorem lastCap_mem {cfgType : UInt8} {caps : List VirtioPciCap} {cap : VirtioPciCap}
    (h : lastCap cfgType caps = some cap) : cap ∈ caps ∧ cap.cfgType = cfgType := by
  have hmem := List.mem_filter.mp (List.mem_of_getLast? h)
  exact ⟨hmem.1, by simpa using hmem.2⟩

/-- The structures of the three regions that the driver uses. -/
structure CapsFrom (caps : List VirtioPciCap) (pdev pdev' : VirtioPciDevice) : Prop where
  common : pdev'.commonCfgCap =
    (lastCap VIRTIO_PCI_CAP_COMMON_CFG caps).getD pdev.commonCfgCap
  notify : pdev'.notifyCfgCap =
    (lastCap VIRTIO_PCI_CAP_NOTIFY_CFG caps).getD pdev.notifyCfgCap
  device : pdev'.deviceCfgCap =
    (lastCap VIRTIO_PCI_CAP_DEVICE_CFG caps).getD pdev.deviceCfgCap

theorem capsFrom_nil (pdev : VirtioPciDevice) : CapsFrom [] pdev pdev :=
  ⟨rfl, rfl, rfl⟩

/-- A capability of another type leaves the last of a type alone, one of the type
replaces it. -/
theorem CapsFrom.cons {cap : VirtioPciCap} {rest : List VirtioPciCap}
    {pdev pdev' : VirtioPciDevice} (h : CapsFrom rest (pdev.storeCap cap) pdev') :
    CapsFrom (cap :: rest) pdev pdev' := by
  have hlast : forall (cfgType : UInt8) (d d' : VirtioPciCap),
      (cap.cfgType = cfgType -> d' = cap) -> (cap.cfgType ≠ cfgType -> d' = d) ->
      (lastCap cfgType rest).getD d' = (lastCap cfgType (cap :: rest)).getD d := by
    intro cfgType d d' heq hne
    by_cases htype : cap.cfgType = cfgType
    · rw [lastCap_cons_getD htype, heq htype]
    · rw [lastCap_cons_of_ne htype, hne htype]
  constructor
  · rw [h.common]
    apply hlast
    · intro htype
      simp [VirtioPciDevice.storeCap, htype]
    · intro htype
      unfold VirtioPciDevice.storeCap
      rw [if_neg htype]
      split_ifs <;> rfl
  · rw [h.notify]
    apply hlast
    · intro htype
      simp [VirtioPciDevice.storeCap, htype, VIRTIO_PCI_CAP_COMMON_CFG,
        VIRTIO_PCI_CAP_NOTIFY_CFG]
    · intro htype
      unfold VirtioPciDevice.storeCap
      rw [if_neg htype]
      split_ifs <;> rfl
  · rw [h.device]
    apply hlast
    · intro htype
      simp [VirtioPciDevice.storeCap, htype, VIRTIO_PCI_CAP_COMMON_CFG,
        VIRTIO_PCI_CAP_NOTIFY_CFG, VIRTIO_PCI_CAP_ISR_CFG, VIRTIO_PCI_CAP_DEVICE_CFG]
    · intro htype
      unfold VirtioPciDevice.storeCap
      rw [if_neg htype]
      split_ifs <;> rfl

theorem storeCap_of_unknown {cap : VirtioPciCap} (h : knownCap cap.cfgType = false)
    (pdev : VirtioPciDevice) : pdev.storeCap cap = pdev := by
  have hne : forall t : UInt8, knownCap t = true -> cap.cfgType ≠ t := by
    rintro t ht rfl
    rw [ht] at h
    cases h
  unfold VirtioPciDevice.storeCap
  rw [if_neg (hne _ (by decide)), if_neg (hne _ (by decide)), if_neg (hne _ (by decide)),
    if_neg (hne _ (by decide)), if_neg (hne _ (by decide))]

section Runs

variable {σ : Nat -> VirtioEnv} {i j : Nat} {s s' : PciSystem}

theorem onSystem_pdev {α : Type} {p : VirtioProg α} {a : α}
    (hrun : Prog.RunsOn σ i s (onSystem p) a s' j) : s'.pdev = s.pdev := by
  rw [(Prog.runsOn_zoom selectsSystem hrun).2]

theorem runsOn_pciCall {rc : Rc} (hrun : Prog.RunsOn σ i s (onSystem pciCall) rc s' j) :
    s'.pdev = s.pdev ∧ j = i + 1 :=
  ⟨onSystem_pdev hrun,
    (Prog.runsOn_action_iff.mp (Prog.runsOn_zoom selectsSystem hrun).1).2⟩

theorem runsOn_checked {α : Type} {a : α} {r : Rc} {p q : PciProg α}
    (hp : r ≠ .EOK -> ¬ Prog.RunsOn σ i s p a s' j)
    (hrun : Prog.RunsOn σ i s (if r ≠ .EOK then p else q) a s' j) :
    r = .EOK ∧ Prog.RunsOn σ i s q a s' j := by
  by_cases hr : r = .EOK
  · rw [if_neg (not_not.mpr hr)] at hrun
    exact ⟨hr, hrun⟩
  · rw [if_pos hr] at hrun
    exact absurd hrun (hp hr)

theorem not_runsOn_ret {r : Rc} (hr : r ≠ .EOK) :
    ¬ Prog.RunsOn σ i s (pure r) .EOK s' j :=
  fun hrun => hr (Prog.runsOn_ret_iff.mp hrun).1.symm

/-!
## The search
-/

/-- The answers that the search takes for a capability. -/
def capSteps (cap : VirtioPciCap) : Nat :=
  if knownCap cap.cfgType then 3 else 2

/-- The answers that it takes for a list of them. -/
def capsSteps : List VirtioPciCap -> Nat
  | [] => 0
  | cap :: rest => capSteps cap + capsSteps rest

theorem readVendorCap_pdev {cap : VirtioPciCap}
    (hrun : Prog.RunsOn σ (i + 2) s (readVendorCap cap) .EOK s' j) :
    s'.pdev = s.pdev.storeCap cap ∧ j = i + capSteps cap := by
  unfold readVendorCap at hrun
  unfold capSteps
  cases hknown : knownCap cap.cfgType with
  | true =>
      simp only [hknown, if_true] at hrun
      rcases Prog.runsOn_action_iff.mp hrun with ⟨hf, hj⟩
      by_cases hpci : (σ (i + 2)).pci ≠ .EOK
      · rw [if_pos hpci] at hf
        exact absurd (congrArg Prod.fst (Option.some.inj hf)) hpci
      · rw [if_neg hpci] at hf
        cases hf
        exact ⟨rfl, hj⟩
  | false =>
      simp only [hknown, Bool.false_eq_true, if_false] at hrun
      rcases Prog.runsOn_ret_iff.mp hrun with ⟨_, rfl, hj⟩
      exact ⟨(storeCap_of_unknown hknown _).symm, hj⟩

theorem storeCap_mappedBars (cap : VirtioPciCap) (pdev : VirtioPciDevice) :
    (pdev.storeCap cap).mappedBars = pdev.mappedBars := by
  unfold VirtioPciDevice.storeCap
  split_ifs <;> rfl

theorem findVendorCaps_pdev {caps : List VirtioPciCap}
    (hrun : Prog.RunsOn σ i s (findVendorCaps caps) .EOK s' j) :
    CapsFrom caps s.pdev s'.pdev ∧ s'.pdev.mappedBars = s.pdev.mappedBars ∧
      j = i + capsSteps caps := by
  induction caps generalizing i s with
  | nil =>
      rcases Prog.runsOn_ret_iff.mp hrun with ⟨_, rfl, hj⟩
      exact ⟨capsFrom_nil _, rfl, hj⟩
  | cons cap rest ih =>
      unfold findVendorCaps at hrun
      rcases Prog.runsOn_bind_iff.mp hrun with ⟨r1, s1, _, h1, hrun⟩
      rcases runsOn_pciCall h1 with ⟨hsame1, rfl⟩
      rcases runsOn_checked not_runsOn_ret hrun with ⟨_, hrun⟩
      rcases Prog.runsOn_bind_iff.mp hrun with ⟨r2, s2, _, h2, hrun⟩
      rcases runsOn_pciCall h2 with ⟨hsame2, rfl⟩
      rcases runsOn_checked not_runsOn_ret hrun with ⟨_, hrun⟩
      rcases Prog.runsOn_bind_iff.mp hrun with ⟨r3, s3, _, h3, hrun⟩
      rcases runsOn_checked not_runsOn_ret hrun with ⟨rfl, hrun⟩
      rcases readVendorCap_pdev h3 with ⟨hstored, rfl⟩
      rcases ih hrun with ⟨hcaps, hbars, hj⟩
      rw [hstored, hsame2, hsame1] at hcaps hbars
      refine ⟨hcaps.cons, hbars.trans (storeCap_mappedBars cap s.pdev), ?_⟩
      rw [hj, capsSteps, Nat.add_assoc]

/-- The answers of the whole search. -/
def findSteps (fn : PciFunction) : Nat :=
  capsSteps fn.caps + if fn.msix then 1 else 0

theorem virtioPciFindCapsOf_pdev {fn : PciFunction} {msix : Bool}
    (hrun : Prog.RunsOn σ i s (virtioPciFindCapsOf fn) (.EOK, msix) s' j) :
    CapsFrom fn.caps s.pdev s'.pdev ∧ s'.pdev.mappedBars = s.pdev.mappedBars ∧
      j = i + findSteps fn := by
  have hfailed : forall {r : Rc} {i : Nat} {s : PciSystem}, r ≠ .EOK ->
      ¬ Prog.RunsOn σ i s (pure (r, false)) (.EOK, msix) s' j :=
    fun hr hret => hr (congrArg Prod.fst (Prog.runsOn_ret_iff.mp hret).1).symm
  rcases Prog.runsOn_bind_iff.mp hrun with ⟨r, s1, _, h1, hrun⟩
  rcases runsOn_checked hfailed hrun with ⟨rfl, hrun⟩
  rcases findVendorCaps_pdev h1 with ⟨hcaps, hbars, rfl⟩
  unfold findSteps
  cases hmsix : fn.msix with
  | false =>
      simp only [hmsix, Bool.not_false, if_true] at hrun
      rcases Prog.runsOn_ret_iff.mp hrun with ⟨_, rfl, hj⟩
      exact ⟨hcaps, hbars, hj⟩
  | true =>
      simp only [hmsix, Bool.not_true, Bool.false_eq_true, if_false] at hrun
      rcases Prog.runsOn_bind_iff.mp hrun with ⟨r, s2, _, h2, hrun⟩
      rcases runsOn_pciCall h2 with ⟨hsame, rfl⟩
      rcases runsOn_checked hfailed hrun with ⟨_, hrun⟩
      rcases Prog.runsOn_ret_iff.mp hrun with ⟨_, rfl, hj⟩
      rw [hsame]
      exact ⟨hcaps, hbars, hj⟩

/-!
## The mappings
-/

/-- The structures of the capabilities are the same. -/
structure SameCaps (pdev pdev' : VirtioPciDevice) : Prop where
  common : pdev'.commonCfgCap = pdev.commonCfgCap
  notify : pdev'.notifyCfgCap = pdev.notifyCfgCap
  device : pdev'.deviceCfgCap = pdev.deviceCfgCap

/-- The BAR with a number that is mapped last, and the position of its answer, where the
answers start at `p`. -/
def lastBar (bar : Nat) : List PciBa -> Nat -> Option (PciBa × Nat)
  | [], _ => none
  | ba :: rest, p =>
      if ba.size = 0 then lastBar bar rest p
      else (lastBar bar rest (p + 1)).or
        (if ba.barNum.val = bar then some (ba, p) else none)

theorem lastBar_barNum {bar : Nat} {bars : List PciBa} {p q : Nat} {ba : PciBa}
    (h : lastBar bar bars p = some (ba, q)) : ba.barNum.val = bar := by
  induction bars generalizing p with
  | nil => cases h
  | cons b rest ih =>
      unfold lastBar at h
      by_cases hsize : b.size = 0
      · rw [if_pos hsize] at h
        exact ih h
      · rw [if_neg hsize] at h
        rcases Option.or_eq_some_iff.mp h with h | ⟨_, h⟩
        · exact ih h
        · by_cases hbar : b.barNum.val = bar
          · rw [if_pos hbar] at h
            cases h
            exact hbar
          · rw [if_neg hbar] at h
            cases h

theorem mapEachBar_pdev {bars : List PciBa} {u : Unit}
    (hrun : Prog.RunsOn σ i s (mapEachBar bars) u s' j) :
    SameCaps s.pdev s'.pdev ∧ forall n : Fin 6, s'.pdev.mappedBars n =
      (lastBar n bars i).elim (s.pdev.mappedBars n) fun x => x.1.mapping (σ x.2) := by
  induction bars generalizing i s with
  | nil =>
      rcases Prog.runsOn_ret_iff.mp hrun with ⟨_, rfl, _⟩
      exact ⟨⟨rfl, rfl, rfl⟩, fun _ => rfl⟩
  | cons ba rest ih =>
      unfold mapEachBar at hrun
      unfold lastBar
      by_cases hsize : ba.size = 0
      · rw [if_pos hsize] at hrun
        simp only [if_pos hsize]
        exact ih hrun
      · rw [if_neg hsize] at hrun
        simp only [if_neg hsize]
        rcases Prog.runsOn_bind_iff.mp hrun with ⟨_, s1, _, hmap, hrun⟩
        rcases Prog.runsOn_action_iff.mp hmap with ⟨hf, rfl⟩
        cases hf
        rcases ih hrun with ⟨hcaps, hbars⟩
        refine ⟨⟨hcaps.common, hcaps.notify, hcaps.device⟩, fun n => ?_⟩
        rw [hbars n]
        cases hlast : lastBar n rest (i + 1) with
        | some x => rfl
        | none =>
            -- no later BAR has the number
            by_cases hbar : ba.barNum.val = n
            · rw [if_pos hbar, ← Fin.ext hbar]
              exact Function.update_self _ _ _
            · rw [if_neg hbar]
              exact Function.update_of_ne (fun heq => hbar (congrArg Fin.val heq.symm)) _ _

/-- The pointers are those of the capabilities. -/
structure Placed (pdev pdev' : VirtioPciDevice) : Prop where
  caps : SameCaps pdev pdev'
  bars : pdev'.mappedBars = pdev.mappedBars
  common : exists e, pdev'.commonCfg = pdev.capPointer pdev.commonCfgCap e
  notify : exists e, pdev'.notifyCfg = pdev.capPointer pdev.notifyCfgCap e
  device : exists e, pdev'.deviceCfg = pdev.capPointer pdev.deviceCfgCap e

theorem placeRegions_pdev {u : Unit} (hrun : Prog.RunsOn σ i s placeRegions u s' j) :
    Placed s.pdev s'.pdev := by
  rcases Prog.runsOn_bind_iff.mp hrun with ⟨_, s1, _, h1, hrun⟩
  cases (Prog.runsOn_action_iff.mp h1).1
  rcases Prog.runsOn_bind_iff.mp hrun with ⟨_, s2, _, h2, hrun⟩
  cases (Prog.runsOn_action_iff.mp h2).1
  cases (Prog.runsOn_action_iff.mp hrun).1
  exact ⟨⟨rfl, rfl, rfl⟩, rfl, ⟨_, rfl⟩, ⟨_, rfl⟩, ⟨_, rfl⟩⟩

end Runs

/-!
## Validity
-/

/-- The range of a capability lies in a BAR that was mapped, at `pointer`. -/
def InsideBar (bars : Fin 6 -> BarMapping) (cap : VirtioPciCap) (pointer : UInt64) : Prop :=
  exists (hbar : cap.bar.toNat < 6) (vaddr size : UInt64),
    bars ⟨cap.bar.toNat, hbar⟩ = .mapped vaddr size ∧
      cap.offset.toNat + cap.length.toNat <= size.toNat ∧
      pointer = vaddr + cap.offset.toUInt64

/-- The device presents `cap` with the type, and its range is mapped at `pointer`. -/
structure RegionValid (fn : PciFunction) (bars : Fin 6 -> BarMapping) (cfgType : UInt8)
    (cap : VirtioPciCap) (pointer : UInt64) : Prop where
  present : cap ∈ fn.caps
  type : cap.cfgType = cfgType
  inside : InsideBar bars cap pointer

structure RegionsValid (fn : PciFunction) (pdev : VirtioPciDevice) : Prop where
  common : RegionValid fn pdev.mappedBars VIRTIO_PCI_CAP_COMMON_CFG pdev.commonCfgCap
    pdev.commonCfg
  notify : RegionValid fn pdev.mappedBars VIRTIO_PCI_CAP_NOTIFY_CFG pdev.notifyCfgCap
    pdev.notifyCfg
  device : RegionValid fn pdev.mappedBars VIRTIO_PCI_CAP_DEVICE_CFG pdev.deviceCfgCap
    pdev.deviceCfg

/-- The position of the answer to the first mapping, in an initialisation that starts at
`i`. -/
def barsAt (fn : PciFunction) (i : Nat) : Nat :=
  i + 6 + 1 + findSteps fn + 1

/-- The last capability of the type is there, `mmap64` maps the BAR that it names, and its
range is inside of that BAR. -/
def LastCapFits (σ : Nat -> VirtioEnv) (i : Nat) (fn : PciFunction) (cfgType : UInt8) :
    Prop :=
  exists cap, lastCap cfgType fn.caps = some cap ∧
    exists ba p v, lastBar cap.bar.toNat fn.bars (barsAt fn i) = some (ba, p) ∧
      (σ p).mmap = .ok v ∧ cap.offset.toNat + cap.length.toNat <= ba.size.toNat

/-- What a successful initialisation leaves of the capabilities and the BARs. -/
structure Initialised (σ : Nat -> VirtioEnv) (i : Nat) (fn : PciFunction)
    (pdev : VirtioPciDevice) : Prop where
  caps : CapsFrom fn.caps VirtioPciDevice.zero pdev
  bars : forall n : Fin 6, pdev.mappedBars n =
    (lastBar n fn.bars (barsAt fn i)).elim .null fun x => x.1.mapping (σ x.2)
  common : exists e, pdev.commonCfg = pdev.capPointer pdev.commonCfgCap e
  notify : exists e, pdev.notifyCfg = pdev.capPointer pdev.notifyCfgCap e
  device : exists e, pdev.deviceCfg = pdev.capPointer pdev.deviceCfgCap e

section Fits

variable {σ : Nat -> VirtioEnv} {i : Nat} {fn : PciFunction} {pdev : VirtioPciDevice}

theorem Initialised.mapped_iff (h : Initialised σ i fn pdev) {n : Fin 6}
    {vaddr size : UInt64} :
    pdev.mappedBars n = .mapped vaddr size <->
      exists ba p v, lastBar n fn.bars (barsAt fn i) = some (ba, p) ∧
        (σ p).mmap = .ok v ∧ vaddr = UInt64.ofNat v.1 ∧ size = ba.size := by
  rw [h.bars n]
  cases hlast : lastBar n fn.bars (barsAt fn i) with
  | none => simp
  | some x =>
      rcases x with ⟨ba, p⟩
      cases hmmap : (σ p).mmap with
      | error f => simp [PciBa.mapping, hmmap]
      | ok v =>
          rcases v with ⟨v, paddr⟩
          simp [PciBa.mapping, hmmap, eq_comm]

theorem regionValid_iff (h : Initialised σ i fn pdev) {cfgType : UInt8}
    {cap : VirtioPciCap} {pointer : UInt64} (htype : cfgType ≠ 0)
    (hcap : cap = (lastCap cfgType fn.caps).getD VirtioPciCap.zero)
    (hpointer : exists e, pointer = pdev.capPointer cap e) :
    RegionValid fn pdev.mappedBars cfgType cap pointer <-> LastCapFits σ i fn cfgType := by
  constructor
  · intro hvalid
    cases hlast : lastCap cfgType fn.caps with
    | none =>
        rw [hlast] at hcap
        have hzero := hvalid.type
        rw [hcap] at hzero
        exact absurd hzero.symm htype
    | some c =>
        rw [hlast] at hcap
        change cap = c at hcap
        subst hcap
        rcases hvalid.inside with ⟨hbar, vaddr, size, hmapped, hfits, _⟩
        rcases h.mapped_iff.mp hmapped with ⟨ba, p, v, hba, hmmap, _, rfl⟩
        exact ⟨cap, hlast, ba, p, v, hba, hmmap, hfits⟩
  · intro hfits
    rcases hfits with ⟨c, hlast, ba, p, v, hba, hmmap, hfits⟩
    rw [hlast] at hcap
    change cap = c at hcap
    subst hcap
    rcases lastCap_mem hlast with ⟨hmem, heq⟩
    rcases hpointer with ⟨e, hpointer⟩
    have hbar : cap.bar.toNat < 6 := lastBar_barNum hba ▸ ba.barNum.isLt
    have hmapped : pdev.mappedBars ⟨cap.bar.toNat, hbar⟩ =
        .mapped (UInt64.ofNat v.1) ba.size :=
      h.mapped_iff.mpr ⟨ba, p, v, hba, hmmap, rfl, rfl⟩
    refine ⟨hmem, heq, hbar, UInt64.ofNat v.1, ba.size, hmapped, hfits, ?_⟩
    rw [hpointer, VirtioPciDevice.capPointer, VirtioPciDevice.barPointer, dif_pos hbar,
      hmapped]
    rfl

end Fits

section Init

variable {σ : Nat -> VirtioEnv} {i j : Nat} {s s' : PciSystem}

theorem not_runsOn_freePdev {vdev pdev : Nat} {rc : Rc} (hrc : rc ≠ .EOK) :
    ¬ Prog.RunsOn σ i s (onSystem (freePdev vdev pdev rc)) .EOK s' j := by
  intro hrun
  rcases Prog.runsOn_bind_iff.mp (Prog.runsOn_zoom selectsSystem hrun).1 with
    ⟨_, s1, _, _, hrun⟩
  exact hrc hrun.runs.eq_of_bind_ret.symm

theorem CapsFrom.trans {caps : List VirtioPciCap} {p p' p'' : VirtioPciDevice}
    (h : CapsFrom caps p p') (hsame : SameCaps p' p'') : CapsFrom caps p p'' :=
  ⟨hsame.common.trans h.common, hsame.notify.trans h.notify, hsame.device.trans h.device⟩

theorem capPointer_congr {pdev pdev' : VirtioPciDevice}
    (h : pdev'.mappedBars = pdev.mappedBars) (cap : VirtioPciCap) (e : VirtioEnv) :
    pdev'.capPointer cap e = pdev.capPointer cap e := by
  unfold VirtioPciDevice.capPointer VirtioPciDevice.barPointer
  rw [h]

theorem Placed.initialised {fn : PciFunction} {pdev pdev' : VirtioPciDevice}
    (hcaps : CapsFrom fn.caps VirtioPciDevice.zero pdev)
    (hbars : forall n : Fin 6, pdev.mappedBars n =
      (lastBar n fn.bars (barsAt fn i)).elim .null fun x => x.1.mapping (σ x.2))
    (h : Placed pdev pdev') : Initialised σ i fn pdev' := by
  refine ⟨hcaps.trans h.caps, fun n => h.bars ▸ hbars n, ?_, ?_, ?_⟩
  · rcases h.common with ⟨e, he⟩
    exact ⟨e, by rw [he, capPointer_congr h.bars, h.caps.common]⟩
  · rcases h.notify with ⟨e, he⟩
    exact ⟨e, by rw [he, capPointer_congr h.bars, h.caps.notify]⟩
  · rcases h.device with ⟨e, he⟩
    exact ⟨e, by rw [he, capPointer_congr h.bars, h.caps.device]⟩

theorem callocResource_steps {r : Resource} {block : Nat} {s s' : VirtioSystem}
    (hrun : Prog.RunsOn σ i s (callocResource r) (.ok block) s' j) : j = i + 2 := by
  rcases Prog.runsOn_bind_iff.mp hrun with ⟨out, s1, _, halloc, hrun⟩
  rcases Prog.runsOn_embed (m := 0) selectsHost halloc with ⟨m, rfl, halloc, _⟩
  have hm := (Prog.runsOn_action_iff.mp halloc).2
  subst hm
  cases out with
  | error rc => cases (Prog.runsOn_ret_iff.mp hrun).1
  | ok block' =>
      rcases Prog.runsOn_bind_iff.mp hrun with ⟨_, s2, _, hnote, hrun⟩
      rcases Prog.runsOn_ret_iff.mp hrun with ⟨_, _, rfl⟩
      exact (Prog.runsOn_modify_iff.mp hnote).2

theorem virtioPciInitOf_initialised {fn : PciFunction} {vdev : Nat} {count : UInt16}
    (hrun : Prog.RunsOn σ i s (virtioPciInitOf fn vdev count) .EOK s' j) :
    Initialised σ i fn s'.pdev := by
  rcases Prog.runsOn_bind_iff.mp hrun with ⟨block, s1, _, h1, hrun⟩
  cases block with
  | error rc =>
      rcases Prog.runsOn_bind_iff.mp hrun with ⟨_, s2, _, _, hret⟩
      exact absurd hret (not_runsOn_ret (by decide))
  | ok pdev =>
      cases callocResource_steps (Prog.runsOn_zoom selectsSystem h1).1
      rcases Prog.runsOn_bind_iff.mp hrun with ⟨_, s2, _, hzero, hrun⟩
      rcases Prog.runsOn_modify_iff.mp hzero with ⟨rfl, rfl⟩
      rcases Prog.runsOn_bind_iff.mp hrun with ⟨_, s3, _, h3, hrun⟩
      cases (Prog.runsOn_modify_iff.mp (Prog.runsOn_zoom selectsSystem h3).1).2
      rcases Prog.runsOn_bind_iff.mp hrun with ⟨_, s4, _, h4, hrun⟩
      cases (Prog.runsOn_modify_iff.mp (Prog.runsOn_zoom selectsSystem h4).1).2
      rcases Prog.runsOn_bind_iff.mp hrun with ⟨found, s5, _, h5, hrun⟩
      cases (Prog.runsOn_action_iff.mp (Prog.runsOn_zoom selectsSystem h5).1).2
      cases found with
      | false => exact absurd hrun (not_runsOn_freePdev (by decide))
      | true =>
          rcases Prog.runsOn_bind_iff.mp hrun with ⟨rc, s6, _, h6, hrun⟩
          rcases runsOn_pciCall h6 with ⟨hsame6, rfl⟩
          rcases runsOn_checked not_runsOn_freePdev hrun with ⟨_, hrun⟩
          rcases Prog.runsOn_bind_iff.mp hrun with ⟨⟨rc, msix⟩, s7, _, h7, hrun⟩
          rcases runsOn_checked not_runsOn_freePdev hrun with ⟨hrc, hrun⟩
          subst hrc
          rcases virtioPciFindCapsOf_pdev h7 with ⟨hcaps, hbars7, rfl⟩
          rw [hsame6, onSystem_pdev h5, onSystem_pdev h4, onSystem_pdev h3] at hcaps
          rcases Prog.runsOn_bind_iff.mp hrun with ⟨rc, s8, k, h8, hrun⟩
          rcases runsOn_checked not_runsOn_freePdev hrun with ⟨hrc, hrun⟩
          subst hrc
          rcases Prog.runsOn_bind_iff.mp h8 with ⟨rc, t1, _, hread, h8⟩
          rcases runsOn_pciCall hread with ⟨hsame, rfl⟩
          rcases runsOn_checked not_runsOn_ret h8 with ⟨_, h8⟩
          rcases Prog.runsOn_bind_iff.mp h8 with ⟨_, t2, _, hmap, h8⟩
          rcases Prog.runsOn_ret_iff.mp h8 with ⟨_, rfl, rfl⟩
          rcases mapEachBar_pdev hmap with ⟨hsameCaps, hbars⟩
          rw [hsame] at hsameCaps hbars
          have hnull : s7.pdev.mappedBars = fun _ => .null := by
            rw [hbars7, hsame6, onSystem_pdev h5, onSystem_pdev h4, onSystem_pdev h3]
            rfl
          rw [hnull] at hbars
          rcases Prog.runsOn_bind_iff.mp hrun with ⟨_, s9, _, h9, hrun⟩
          have hinit := (placeRegions_pdev h9).initialised (hcaps.trans hsameCaps) hbars
          rcases Prog.runsOn_bind_iff.mp hrun with ⟨rc, s10, _, h10, hrun⟩
          rcases runsOn_checked not_runsOn_freePdev hrun with ⟨_, hrun⟩
          rcases Prog.runsOn_bind_iff.mp hrun with ⟨_, s11, _, h11, hrun⟩
          rw [(Prog.runsOn_ret_iff.mp hrun).2.1, onSystem_pdev h11, onSystem_pdev h10]
          exact hinit

/-- The last capability of a type decides, and nothing checks it. -/
theorem pci_regions_valid_iff {fn : PciFunction} {vdev : Nat} {count : UInt16}
    (hrun : Prog.RunsOn σ i s (virtioPciInitOf fn vdev count) .EOK s' j) :
    RegionsValid fn s'.pdev <->
      LastCapFits σ i fn VIRTIO_PCI_CAP_COMMON_CFG ∧
        LastCapFits σ i fn VIRTIO_PCI_CAP_NOTIFY_CFG ∧
        LastCapFits σ i fn VIRTIO_PCI_CAP_DEVICE_CFG := by
  have hinit := virtioPciInitOf_initialised hrun
  rw [← regionValid_iff hinit (by decide) hinit.caps.common hinit.common,
    ← regionValid_iff hinit (by decide) hinit.caps.notify hinit.notify,
    ← regionValid_iff hinit (by decide) hinit.caps.device hinit.device]
  constructor
  · exact fun h => ⟨h.common, h.notify, h.device⟩
  · exact fun h => ⟨h.1, h.2.1, h.2.2⟩

end Init

/-- Three capabilities in one BAR of a page. -/
def onePage : PciFunction where
  caps := [
    { cfgType := 1, bar := 0, offset := 0, length := 64, notifyOffMultiplier := 0 },
    { cfgType := 2, bar := 0, offset := 1024, length := 4, notifyOffMultiplier := 4 },
    { cfgType := 4, bar := 0, offset := 2048, length := 8, notifyOffMultiplier := 0 }]
  bars := [{ barNum := 0, size := 4096 }]
  msix := true

/-- A function without a vendor capability. -/
def noCaps : PciFunction where
  caps := []
  bars := []
  msix := true

def pciStart : PciSystem where
  system := VirtioSystem.initial .pci
  pdev := VirtioPciDevice.zero

def pciAnswers (_ : Nat) : VirtioEnv where
  reg := 1
  mmap := .ok (4096, 4096)

def initialised (fn : PciFunction) : Option (Rc × PciSystem × Nat) :=
  Prog.execOn pciAnswers 60 0 pciStart (virtioPciInitOf fn 0 1)

theorem initialised_runs {fn : PciFunction} {out : Rc × PciSystem × Nat}
    (h : initialised fn = some out) :
    Prog.RunsOn pciAnswers 0 pciStart (virtioPciInitOf fn 0 1) out.1 out.2.1 out.2.2 :=
  Prog.runsOn_of_execOn h

def onePageInit : Rc × PciSystem × Nat :=
  (initialised onePage).get (by decide +kernel)

theorem pci_regions_valid_page : RegionsValid onePage onePageInit.2.1.pdev := by
  have hrun : Prog.RunsOn pciAnswers 0 pciStart (virtioPciInitOf onePage 0 1) .EOK
      onePageInit.2.1 onePageInit.2.2 := initialised_runs (Option.some_get _).symm
  refine (pci_regions_valid_iff hrun).mpr ⟨?_, ?_, ?_⟩
  · exact ⟨_, rfl, _, _, _, rfl, rfl, by decide⟩
  · exact ⟨_, rfl, _, _, _, rfl, rfl, by decide⟩
  · exact ⟨_, rfl, _, _, _, rfl, rfl, by decide⟩

def noCapsInit : Rc × PciSystem × Nat :=
  (initialised noCaps).get (by decide +kernel)

/-- Without any capability the initialisation succeeds, with null pointers. -/
theorem pci_regions_invalid :
    ¬ forall (σ : Nat -> VirtioEnv) (i j : Nat) (fn : PciFunction) (vdev : Nat)
        (count : UInt16) (s s' : PciSystem),
      Prog.RunsOn σ i s (virtioPciInitOf fn vdev count) .EOK s' j ->
      RegionsValid fn s'.pdev := by
  intro hclaim
  have hrun : Prog.RunsOn pciAnswers 0 pciStart (virtioPciInitOf noCaps 0 1) .EOK
      noCapsInit.2.1 noCapsInit.2.2 := initialised_runs (Option.some_get _).symm
  cases (hclaim _ _ _ _ _ _ _ _ hrun).common.present

end Virtio
end QnxVirtio
