import QnxVirtio.Virtio.Init

/-!
# Initialising a PCI device

`virtio_pci_init` with the capabilities and the base address registers that the device
presents, and the pointers that come out of them.
-/

namespace QnxVirtio
namespace Virtio

open Foundation

def VIRTIO_PCI_CAP_COMMON_CFG : UInt8 := 1
def VIRTIO_PCI_CAP_NOTIFY_CFG : UInt8 := 2
def VIRTIO_PCI_CAP_ISR_CFG : UInt8 := 3
def VIRTIO_PCI_CAP_DEVICE_CFG : UInt8 := 4
def VIRTIO_PCI_CAP_PCI_CFG : UInt8 := 5

/-- A vendor capability, from its type on.  The multiplier is read for the notify
configuration only. -/
structure VirtioPciCap where
  cfgType : UInt8
  bar : UInt8
  offset : UInt32
  length : UInt32
  notifyOffMultiplier : UInt32
  deriving DecidableEq

/-- What `calloc` leaves of a capability that is never read. -/
def VirtioPciCap.zero : VirtioPciCap where
  cfgType := 0
  bar := 0
  offset := 0
  length := 0
  notifyOffMultiplier := 0

/-- A base address register. -/
structure PciBa where
  barNum : Fin 6
  size : UInt64

/-- What a PCI function presents. -/
structure PciFunction where
  caps : List VirtioPciCap
  bars : List PciBa
  msix : Bool

/-- An entry of `mapped_bars`: null, `MAP_FAILED`, or a mapping. -/
inductive BarMapping
  | null
  | failed
  | mapped (vaddr size : UInt64)
  deriving DecidableEq

def BarMapping.pointer : BarMapping -> UInt64
  | .null => 0
  | .failed => -1
  | .mapped vaddr _ => vaddr

/-- `struct virtio_pci_device`, as far as the regions go. -/
structure VirtioPciDevice where
  commonCfgCap : VirtioPciCap
  notifyCfgCap : VirtioPciCap
  isrCfgCap : VirtioPciCap
  deviceCfgCap : VirtioPciCap
  pciCfgCap : VirtioPciCap
  mappedBars : Fin 6 -> BarMapping
  commonCfg : UInt64
  notifyCfg : UInt64
  deviceCfg : UInt64

def VirtioPciDevice.zero : VirtioPciDevice where
  commonCfgCap := VirtioPciCap.zero
  notifyCfgCap := VirtioPciCap.zero
  isrCfgCap := VirtioPciCap.zero
  deviceCfgCap := VirtioPciCap.zero
  pciCfgCap := VirtioPciCap.zero
  mappedBars := fun _ => .null
  commonCfg := 0
  notifyCfg := 0
  deviceCfg := 0

structure PciSystem where
  system : VirtioSystem
  pdev : VirtioPciDevice

abbrev PciProg (α : Type) : Type 1 :=
  Prog VirtioEnv PciSystem α

def onSystem {α : Type} (p : VirtioProg α) : PciProg α :=
  Prog.zoom PciSystem.system (fun s w => { w with system := s }) p

/-!
## Capabilities
-/

/-- The `switch` over the types. -/
def VirtioPciDevice.storeCap (cap : VirtioPciCap) (pdev : VirtioPciDevice) :
    VirtioPciDevice :=
  if cap.cfgType = VIRTIO_PCI_CAP_COMMON_CFG then { pdev with commonCfgCap := cap }
  else if cap.cfgType = VIRTIO_PCI_CAP_NOTIFY_CFG then { pdev with notifyCfgCap := cap }
  else if cap.cfgType = VIRTIO_PCI_CAP_ISR_CFG then { pdev with isrCfgCap := cap }
  else if cap.cfgType = VIRTIO_PCI_CAP_DEVICE_CFG then { pdev with deviceCfgCap := cap }
  else if cap.cfgType = VIRTIO_PCI_CAP_PCI_CFG then { pdev with pciCfgCap := cap }
  else pdev

/-- The read of a capability of a known type. -/
def readVendorCap (cap : VirtioPciCap) : PciProg Rc :=
  if knownCap cap.cfgType then
    Prog.action fun e s =>
      if e.pci ≠ .EOK then some (e.pci, s)
      else some (.EOK, { s with pdev := s.pdev.storeCap cap })
  else pure .EOK

/-- The loop of `virtio_pci_find_caps` over the vendor capabilities. -/
def findVendorCaps : List VirtioPciCap -> PciProg Rc
  | [] => pure .EOK
  | cap :: rest => do
      let r <- onSystem pciCall
      if r ≠ .EOK then pure r
      else
        let r <- onSystem pciCall
        if r ≠ .EOK then pure r
        else
          let r <- readVendorCap cap
          if r ≠ .EOK then pure r else findVendorCaps rest

/-- `virtio_pci_find_caps`, with whether there is an MSI-X capability. -/
def virtioPciFindCapsOf (fn : PciFunction) : PciProg (Rc × Bool) := do
  let r <- findVendorCaps fn.caps
  if r ≠ .EOK then pure (r, false)
  else if !fn.msix then pure (.EOK, false)
  else
    let r <- onSystem pciCall
    if r ≠ .EOK then pure (r, false) else pure (.EOK, true)

/-!
## Base address registers
-/

/-- What `mmap64` returns for a base address register. -/
def PciBa.mapping (ba : PciBa) (e : VirtioEnv) : BarMapping :=
  match e.mmap with
  | .error _ => .failed
  | .ok (v, _) => .mapped (UInt64.ofNat v) ba.size

/-- A mapping is stored whether it succeeded or not. -/
def mapBar (ba : PciBa) : PciProg Unit :=
  Prog.action fun e s => some ((), { s with pdev := { s.pdev with
    mappedBars := Function.update s.pdev.mappedBars ba.barNum (ba.mapping e) } })

def mapEachBar : List PciBa -> PciProg Unit
  | [] => pure ()
  | ba :: rest =>
      if ba.size = 0 then mapEachBar rest
      else do
        mapBar ba
        mapEachBar rest

/-- `virtio_pci_map_bars`. -/
def virtioPciMapBarsOf (fn : PciFunction) : PciProg Rc := do
  let r <- onSystem pciCall
  if r ≠ .EOK then pure r
  else
    mapEachBar fn.bars
    pure .EOK

/-!
## Initialisation
-/

/-- `pdev->mapped_bars[bar]`.  Behind the array is whatever is there. -/
def VirtioPciDevice.barPointer (bar : UInt8) (e : VirtioEnv) (pdev : VirtioPciDevice) :
    UInt64 :=
  if h : bar.toNat < 6 then (pdev.mappedBars ⟨bar.toNat, h⟩).pointer
  else UInt64.ofNat e.garbage

/-- The pointer that a capability stands for. -/
def VirtioPciDevice.capPointer (cap : VirtioPciCap) (e : VirtioEnv)
    (pdev : VirtioPciDevice) : UInt64 :=
  pdev.barPointer cap.bar e + cap.offset.toUInt64

def placeRegions : PciProg Unit := do
  Prog.action fun e s => some ((), { s with pdev := { s.pdev with
    commonCfg := s.pdev.capPointer s.pdev.commonCfgCap e } })
  Prog.action fun e s => some ((), { s with pdev := { s.pdev with
    deviceCfg := s.pdev.capPointer s.pdev.deviceCfgCap e } })
  Prog.action fun e s => some ((), { s with pdev := { s.pdev with
    notifyCfg := s.pdev.capPointer s.pdev.notifyCfgCap e } })

/-- `virtio_pci_init` for the function that is found. -/
def virtioPciInitOf (fn : PciFunction) (vdev : Nat) (msixVectorCount : UInt16) :
    PciProg Rc := do
  match <- onSystem (callocResource .priv) with
  | .error _ =>
      let _ <- onSystem (virtioDestroy vdev)
      pure .ENOMEM
  | .ok pdev =>
      Prog.modify fun s => { s with pdev := VirtioPciDevice.zero }
      onSystem (note (.used .virtioDevice))
      onSystem (Prog.modify fun s => { s with legacy := false })
      let found <- onSystem pciFound
      if !found then onSystem (freePdev vdev pdev .ENODEV)
      else
        let rc <- onSystem pciCall
        if rc ≠ .EOK then onSystem (freePdev vdev pdev rc)
        else
          let (rc, msix) <- virtioPciFindCapsOf fn
          if rc ≠ .EOK then onSystem (freePdev vdev pdev rc)
          else
            let rc <- virtioPciMapBarsOf fn
            if rc ≠ .EOK then onSystem (freePdev vdev pdev rc)
            else
              placeRegions
              let rc <- onSystem (configureMsix msix msixVectorCount)
              if rc ≠ .EOK then onSystem (freePdev vdev pdev rc)
              else
                onSystem (Prog.modify fun s => { s with transport := .pci })
                pure .EOK

/-!
## The regions left out
-/

theorem selectsSystem :
    Prog.Selects PciSystem.system (fun s (w : PciSystem) => { w with system := s }) where
  get_set _ _ := rfl
  set_set _ _ _ := rfl
  set_get _ := rfl

section Refines

variable {s s' : PciSystem}

abbrev anyEnv (_ : VirtioEnv) : Prop := True

theorem onSystem_runs {α : Type} {p : VirtioProg α} {a : α}
    (hrun : Prog.Runs anyEnv s (onSystem p) a s') :
    Prog.Runs anyEnv s.system p a s'.system :=
  (Prog.runs_zoom selectsSystem hrun).1

theorem pciFound_runs (s : VirtioSystem) (found : Bool) :
    Prog.Runs anyEnv s pciFound found s :=
  Prog.runs_action_iff.mpr ⟨{ found := found }, trivial, rfl⟩

theorem readVendorCap_refines {cap : VirtioPciCap} {r : Rc}
    (hrun : Prog.Runs anyEnv s (readVendorCap cap) r s') :
    Prog.Runs anyEnv s.system (readCap cap.cfgType) r s'.system := by
  unfold readVendorCap at hrun
  unfold readCap
  cases hknown : knownCap cap.cfgType with
  | true =>
      simp only [hknown, if_true] at hrun ⊢
      rcases Prog.runs_action_iff.mp hrun with ⟨e, _, hf⟩
      refine Prog.runs_action_iff.mpr ⟨e, trivial, ?_⟩
      by_cases hpci : e.pci ≠ .EOK
      · rw [if_pos hpci] at hf
        cases hf
        rfl
      · rw [if_neg hpci, Option.some.injEq, Prod.mk.injEq] at hf
        rw [not_not.mp hpci, ← hf.1, ← hf.2]
  | false =>
      simp only [hknown, Bool.false_eq_true, if_false] at hrun ⊢
      rcases Prog.runs_ret_iff.mp hrun with ⟨rfl, rfl⟩
      exact Prog.Runs.ret _ _

theorem runs_iterate_next {β γ : Type} {body : γ -> VirtioProg (γ ⊕ β)} {x y : γ} {b : β}
    {s s1 s2 : VirtioSystem} (hround : Prog.Runs anyEnv s (body x) (.inl y) s1)
    (hrest : Prog.Runs anyEnv s1 (Prog.iterate body y) b s2) :
    Prog.Runs anyEnv s (Prog.iterate body x) b s2 :=
  Prog.Runs.loop (hround.bind hrest)

theorem runs_iterate_last {β γ : Type} {body : γ -> VirtioProg (γ ⊕ β)} {x : γ} {b : β}
    {s s1 : VirtioSystem} (hround : Prog.Runs anyEnv s (body x) (.inr b) s1) :
    Prog.Runs anyEnv s (Prog.iterate body x) b s1 :=
  Prog.Runs.loop (hround.bind (Prog.Runs.ret _ _))

theorem findVendorCaps_refines {caps : List VirtioPciCap} {r : Rc}
    (hrun : Prog.Runs anyEnv s (findVendorCaps caps) r s') :
    Prog.Runs anyEnv s.system (Prog.iterate findCapsRound ()) r s'.system := by
  induction caps generalizing s with
  | nil =>
      rcases Prog.runs_ret_iff.mp hrun with ⟨rfl, rfl⟩
      exact runs_iterate_last ((pciFound_runs _ false).bind (Prog.Runs.ret _ _))
  | cons cap rest ih =>
      unfold findVendorCaps at hrun
      rcases Prog.runs_bind_iff.mp hrun with ⟨r1, s1, h1, hrun⟩
      have h1 := onSystem_runs h1
      by_cases hr1 : r1 ≠ .EOK
      · rw [if_pos hr1] at hrun
        rcases Prog.runs_ret_iff.mp hrun with ⟨rfl, rfl⟩
        exact runs_iterate_last ((pciFound_runs _ true).bind (h1.bind (by
          rw [if_pos hr1]
          exact Prog.Runs.ret _ _)))
      · rw [if_neg hr1] at hrun
        rcases Prog.runs_bind_iff.mp hrun with ⟨r2, s2, h2, hrun⟩
        have h2 := onSystem_runs h2
        by_cases hr2 : r2 ≠ .EOK
        · rw [if_pos hr2] at hrun
          rcases Prog.runs_ret_iff.mp hrun with ⟨rfl, rfl⟩
          exact runs_iterate_last ((pciFound_runs _ true).bind (h1.bind (by
            rw [if_neg hr1]
            refine h2.bind ?_
            rw [if_pos hr2]
            exact Prog.Runs.ret _ _)))
        · rw [if_neg hr2] at hrun
          rcases Prog.runs_bind_iff.mp hrun with ⟨r3, s3, h3, hrun⟩
          have h3 := readVendorCap_refines h3
          have htype : Prog.Runs anyEnv s2.system
              (Prog.action fun e s => some (e.reg.toUInt8, s)) cap.cfgType s2.system :=
            Prog.runs_action_iff.mpr ⟨{ reg := cap.cfgType.toUInt32 }, trivial, by simp⟩
          by_cases hr3 : r3 ≠ .EOK
          · rw [if_pos hr3] at hrun
            rcases Prog.runs_ret_iff.mp hrun with ⟨rfl, rfl⟩
            exact runs_iterate_last ((pciFound_runs _ true).bind (h1.bind (by
              rw [if_neg hr1]
              refine h2.bind ?_
              rw [if_neg hr2]
              refine htype.bind (h3.bind ?_)
              rw [if_pos hr3]
              exact Prog.Runs.ret _ _)))
          · rw [if_neg hr3] at hrun
            refine runs_iterate_next ((pciFound_runs _ true).bind (h1.bind ?_)) (ih hrun)
            rw [if_neg hr1]
            refine h2.bind ?_
            rw [if_neg hr2]
            refine htype.bind (h3.bind ?_)
            rw [if_neg hr3]
            exact Prog.Runs.ret _ _

theorem virtioPciFindCapsOf_refines {fn : PciFunction} {out : Rc × Bool}
    (hrun : Prog.Runs anyEnv s (virtioPciFindCapsOf fn) out s') :
    Prog.Runs anyEnv s.system virtioPciFindCaps out s'.system := by
  rcases Prog.runs_bind_iff.mp hrun with ⟨r, s1, h1, hrun⟩
  refine (findVendorCaps_refines h1).bind ?_
  by_cases hr : r ≠ .EOK
  · rw [if_pos hr] at hrun ⊢
    rcases Prog.runs_ret_iff.mp hrun with ⟨rfl, rfl⟩
    exact Prog.Runs.ret _ _
  · rw [if_neg hr] at hrun ⊢
    refine (pciFound_runs _ fn.msix).bind ?_
    cases hmsix : fn.msix with
    | false =>
        simp only [hmsix, Bool.not_false, if_true] at hrun ⊢
        rcases Prog.runs_ret_iff.mp hrun with ⟨rfl, rfl⟩
        exact Prog.Runs.ret _ _
    | true =>
        simp only [hmsix, Bool.not_true, Bool.false_eq_true, if_false] at hrun ⊢
        rcases Prog.runs_bind_iff.mp hrun with ⟨r2, s2, h2, hrun⟩
        refine (onSystem_runs h2).bind ?_
        by_cases hr2 : r2 ≠ .EOK
        · rw [if_pos hr2] at hrun ⊢
          rcases Prog.runs_ret_iff.mp hrun with ⟨rfl, rfl⟩
          exact Prog.Runs.ret _ _
        · rw [if_neg hr2] at hrun ⊢
          rcases Prog.runs_ret_iff.mp hrun with ⟨rfl, rfl⟩
          exact Prog.Runs.ret _ _

theorem mapEachBar_system {bars : List PciBa} {u : Unit}
    (hrun : Prog.Runs anyEnv s (mapEachBar bars) u s') : s'.system = s.system := by
  induction bars generalizing s with
  | nil => rw [(Prog.runs_ret_iff.mp hrun).2]
  | cons ba rest ih =>
      unfold mapEachBar at hrun
      by_cases hsize : ba.size = 0
      · rw [if_pos hsize] at hrun
        exact ih hrun
      · rw [if_neg hsize] at hrun
        rcases Prog.runs_bind_iff.mp hrun with ⟨_, s1, hmap, hrun⟩
        rcases Prog.runs_action_iff.mp hmap with ⟨e, _, hf⟩
        cases hf
        rw [ih hrun]

theorem virtioPciMapBarsOf_refines {fn : PciFunction} {rc : Rc}
    (hrun : Prog.Runs anyEnv s (virtioPciMapBarsOf fn) rc s') :
    Prog.Runs anyEnv s.system virtioPciMapBars rc s'.system := by
  rcases Prog.runs_bind_iff.mp hrun with ⟨r, s1, h1, hrun⟩
  have h1 := onSystem_runs h1
  by_cases hr : r ≠ .EOK
  · rw [if_pos hr] at hrun
    rcases Prog.runs_ret_iff.mp hrun with ⟨rfl, rfl⟩
    exact h1
  · rw [if_neg hr] at hrun
    rcases Prog.runs_bind_iff.mp hrun with ⟨_, s2, h2, hrun⟩
    rcases Prog.runs_ret_iff.mp hrun with ⟨rfl, rfl⟩
    rw [mapEachBar_system h2, ← not_not.mp hr]
    exact h1

theorem placeRegions_system {u : Unit} (hrun : Prog.Runs anyEnv s placeRegions u s') :
    s'.system = s.system := by
  rcases Prog.runs_bind_iff.mp hrun with ⟨_, s1, h1, hrun⟩
  rcases Prog.runs_action_iff.mp h1 with ⟨e1, _, hf⟩
  cases hf
  rcases Prog.runs_bind_iff.mp hrun with ⟨_, s2, h2, hrun⟩
  rcases Prog.runs_action_iff.mp h2 with ⟨e2, _, hf⟩
  cases hf
  rcases Prog.runs_action_iff.mp hrun with ⟨e3, _, hf⟩
  cases hf
  rfl

/-- The initialisation of a function is a run of the initialisation that asks for the
capabilities one by one. -/
theorem virtioPciInitOf_refines {fn : PciFunction} {vdev : Nat} {count : UInt16} {rc : Rc}
    (hrun : Prog.Runs anyEnv s (virtioPciInitOf fn vdev count) rc s') :
    Prog.Runs anyEnv s.system (virtioPciInit vdev count) rc s'.system := by
  rcases Prog.runs_bind_iff.mp hrun with ⟨block, s1, h1, hrun⟩
  refine (onSystem_runs h1).bind ?_
  cases block with
  | error _ =>
      rcases Prog.runs_bind_iff.mp hrun with ⟨_, s2, h2, hret⟩
      rcases Prog.runs_ret_iff.mp hret with ⟨rfl, rfl⟩
      exact (onSystem_runs h2).bind (Prog.Runs.ret _ _)
  | ok pdev =>
      rcases Prog.runs_bind_iff.mp hrun with ⟨_, s2, hzero, hrun⟩
      rcases Prog.runs_modify_iff.mp hzero with ⟨_, rfl⟩
      rcases Prog.runs_bind_iff.mp hrun with ⟨_, s3, h3, hrun⟩
      rcases Prog.runs_bind_iff.mp hrun with ⟨_, s4, h4, hrun⟩
      rcases Prog.runs_bind_iff.mp hrun with ⟨found, s5, h5, hrun⟩
      refine (onSystem_runs h3).bind ((onSystem_runs h4).bind ((onSystem_runs h5).bind ?_))
      cases found with
      | false => exact onSystem_runs hrun
      | true =>
          rcases Prog.runs_bind_iff.mp hrun with ⟨rc6, s6, h6, hrun⟩
          refine (onSystem_runs h6).bind ?_
          by_cases hrc6 : rc6 ≠ .EOK
          · rw [if_pos hrc6] at hrun ⊢
            exact onSystem_runs hrun
          · rw [if_neg hrc6] at hrun ⊢
            rcases Prog.runs_bind_iff.mp hrun with ⟨⟨rc7, msix⟩, s7, h7, hrun⟩
            refine (virtioPciFindCapsOf_refines h7).bind ?_
            dsimp only at hrun ⊢
            by_cases hrc7 : rc7 ≠ .EOK
            · rw [if_pos hrc7] at hrun ⊢
              exact onSystem_runs hrun
            · rw [if_neg hrc7] at hrun ⊢
              rcases Prog.runs_bind_iff.mp hrun with ⟨rc8, s8, h8, hrun⟩
              refine (virtioPciMapBarsOf_refines h8).bind ?_
              by_cases hrc8 : rc8 ≠ .EOK
              · rw [if_pos hrc8] at hrun ⊢
                exact onSystem_runs hrun
              · rw [if_neg hrc8] at hrun ⊢
                rcases Prog.runs_bind_iff.mp hrun with ⟨_, s9, h9, hrun⟩
                rcases Prog.runs_bind_iff.mp hrun with ⟨rc10, s10, h10, hrun⟩
                rw [← placeRegions_system h9]
                refine (onSystem_runs h10).bind ?_
                by_cases hrc10 : rc10 ≠ .EOK
                · rw [if_pos hrc10] at hrun ⊢
                  exact onSystem_runs hrun
                · rw [if_neg hrc10] at hrun ⊢
                  rcases Prog.runs_bind_iff.mp hrun with ⟨_, s11, h11, hrun⟩
                  rcases Prog.runs_ret_iff.mp hrun with ⟨rfl, rfl⟩
                  exact (onSystem_runs h11).bind (Prog.Runs.ret _ _)

end Refines

end Virtio
end QnxVirtio
