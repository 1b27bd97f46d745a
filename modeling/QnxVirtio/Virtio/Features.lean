import QnxVirtio.Foundation.Counter
import QnxVirtio.Host

/-!
# Feature words

The feature bits of a device lie in words of 32 bits behind a select register: one bank
that the device offers and one that the driver accepts.  The transports go through a bank
with a counter of 32 bits up to a bound of 64 bits.  They take no lock, so that a transfer
relies on nobody else using its select register.
-/

namespace QnxVirtio
namespace Virtio

open Foundation Prog

/-!
## Registers
-/

def VIRTIO_MMIO_DEVICE_FEATURES : Nat := 0x010
def VIRTIO_MMIO_DEVICE_FEATURES_SEL : Nat := 0x014
def VIRTIO_MMIO_DRIVER_FEATURES : Nat := 0x020
def VIRTIO_MMIO_DRIVER_FEATURES_SEL : Nat := 0x024

/-- The offsets of the feature registers. -/
structure FeatureLayout where
  deviceFeatureSelect : Nat
  deviceFeature : Nat
  driverFeatureSelect : Nat
  driverFeature : Nat

/-- `struct virtio_pci_common_cfg` starts with the four registers. -/
def featureLayout : Transport -> FeatureLayout
  | .mmio => {
      deviceFeatureSelect := VIRTIO_MMIO_DEVICE_FEATURES_SEL
      deviceFeature := VIRTIO_MMIO_DEVICE_FEATURES
      driverFeatureSelect := VIRTIO_MMIO_DRIVER_FEATURES_SEL
      driverFeature := VIRTIO_MMIO_DRIVER_FEATURES }
  | .pci => {
      deviceFeatureSelect := 0
      deviceFeature := 4
      driverFeatureSelect := 8
      driverFeature := 12 }

structure FeatureDevice where
  deviceSelect : UInt32
  driverSelect : UInt32
  offered : UInt32 -> UInt32
  accepted : UInt32 -> UInt32

namespace FeatureDevice

/-- A store of 32 bits at an offset. -/
def store (layout : FeatureLayout) (offset : Nat) (value : UInt32) (d : FeatureDevice) :
    FeatureDevice :=
  if offset = layout.deviceFeatureSelect then { d with deviceSelect := value }
  else if offset = layout.driverFeatureSelect then { d with driverSelect := value }
  else if offset = layout.driverFeature then
    { d with accepted := Function.update d.accepted d.driverSelect value }
  else d

/-- A load of 32 bits at an offset.  Only the offered words can be read. -/
def load (layout : FeatureLayout) (offset : Nat) (d : FeatureDevice) : UInt32 :=
  if offset = layout.deviceFeature then d.offered d.deviceSelect else 0

@[simp] theorem store_deviceSelect (transport : Transport) (value : UInt32)
    (d : FeatureDevice) :
    d.store (featureLayout transport) (featureLayout transport).deviceFeatureSelect value =
      { d with deviceSelect := value } :=
  if_pos rfl

@[simp] theorem store_driverSelect (transport : Transport) (value : UInt32)
    (d : FeatureDevice) :
    d.store (featureLayout transport) (featureLayout transport).driverFeatureSelect value =
      { d with driverSelect := value } := by
  cases transport with
  | mmio => rfl
  | pci => rfl

@[simp] theorem store_driverFeature (transport : Transport) (value : UInt32)
    (d : FeatureDevice) :
    d.store (featureLayout transport) (featureLayout transport).driverFeature value =
      { d with accepted := Function.update d.accepted d.driverSelect value } := by
  cases transport with
  | mmio => rfl
  | pci => rfl

@[simp] theorem load_deviceFeature (transport : Transport) (d : FeatureDevice) :
    d.load (featureLayout transport) (featureLayout transport).deviceFeature =
      d.offered d.deviceSelect :=
  if_pos rfl

end FeatureDevice

/-!
## Transfers
-/

/-- A call: which pointers of the device are set, the array of the caller and the number
of its words. -/
structure FeatureCall where
  dev : Bool
  priv : Bool
  commonCfg : Bool
  features : Option (Nat -> UInt32)
  count : UInt64

/-- The device, and what the calls returned. -/
structure FeatureSystem where
  device : FeatureDevice
  reads : List (Rc × Option (Nat -> UInt32))
  writes : List Rc

abbrev FeatureProg (α : Type) : Type 1 :=
  Prog Unit FeatureSystem α

def storeFeature (transport : Transport) (offset : Nat) (value : UInt32) :
    FeatureProg Unit :=
  Prog.modify fun w =>
    { w with device := w.device.store (featureLayout transport) offset value }

def loadFeature (transport : Transport) (offset : Nat) : FeatureProg UInt32 :=
  Prog.read fun w => w.device.load (featureLayout transport) offset

/-- One word of a read. -/
def readWord (transport : Transport) (select : UInt32) (features : Nat -> UInt32) :
    FeatureProg (Nat -> UInt32) := do
  storeFeature transport (featureLayout transport).deviceFeatureSelect select
  let word <- loadFeature transport (featureLayout transport).deviceFeature
  pure (Function.update features select.toNat word)

/-- One word of a write. -/
def writeWord (transport : Transport) (features : Nat -> UInt32) (select : UInt32)
    (_ : Unit) : FeatureProg Unit := do
  storeFeature transport (featureLayout transport).driverFeatureSelect select
  storeFeature transport (featureLayout transport).driverFeature (features select.toNat)

/-- The checks, then the loop. -/
def readFeatures (transport : Transport) (found : Bool)
    (features : Option (Nat -> UInt32)) (count : UInt64) :
    FeatureProg (Rc × Option (Nat -> UInt32)) :=
  match features with
  | none => pure (.EINVAL, none)
  | some features =>
      if found then do
        let words <- counter32.each count.toNat (readWord transport) features
        pure (.EOK, some words)
      else pure (.EINVAL, some features)

def writeFeatures (transport : Transport) (found : Bool)
    (features : Option (Nat -> UInt32)) (count : UInt64) : FeatureProg Rc :=
  match features with
  | none => pure .EINVAL
  | some features =>
      if found then do
        counter32.each count.toNat (writeWord transport features) ()
        pure .EOK
      else pure .EINVAL

def virtioMmioReadDeviceFeatures (c : FeatureCall) :
    FeatureProg (Rc × Option (Nat -> UInt32)) :=
  readFeatures .mmio (c.dev && c.priv) c.features c.count

def virtioMmioWriteDriverFeatures (c : FeatureCall) : FeatureProg Rc :=
  writeFeatures .mmio (c.dev && c.priv) c.features c.count

def virtioPciReadDeviceFeatures (c : FeatureCall) :
    FeatureProg (Rc × Option (Nat -> UInt32)) :=
  readFeatures .pci (c.dev && c.priv && c.commonCfg) c.features c.count

def virtioPciWriteDriverFeatures (c : FeatureCall) : FeatureProg Rc :=
  writeFeatures .pci (c.dev && c.priv && c.commonCfg) c.features c.count

/-- The operation that the transport puts into `ops`. -/
def readDeviceFeatures : Transport -> FeatureCall ->
    FeatureProg (Rc × Option (Nat -> UInt32))
  | .mmio => virtioMmioReadDeviceFeatures
  | .pci => virtioPciReadDeviceFeatures

def writeDriverFeatures : Transport -> FeatureCall -> FeatureProg Rc
  | .mmio => virtioMmioWriteDriverFeatures
  | .pci => virtioPciWriteDriverFeatures

/-- The pointers that the transport looks at are set. -/
def FeatureCall.found (c : FeatureCall) : Transport -> Bool
  | .mmio => c.dev && c.priv
  | .pci => c.dev && c.priv && c.commonCfg

theorem readDeviceFeatures_eq (transport : Transport) (c : FeatureCall) :
    readDeviceFeatures transport c =
      readFeatures transport (c.found transport) c.features c.count := by
  cases transport with
  | mmio => rfl
  | pci => rfl

theorem writeDriverFeatures_eq (transport : Transport) (c : FeatureCall) :
    writeDriverFeatures transport c =
      writeFeatures transport (c.found transport) c.features c.count := by
  cases transport with
  | mmio => rfl
  | pci => rfl

/-!
## What the calls do
-/

/-- The call passes the checks of the transport. -/
def FeatureCall.Granted (c : FeatureCall) (transport : Transport) : Prop :=
  c.features ≠ none ∧ c.found transport = true

/-- The counter can get past the bound. -/
def FeatureCall.Fits (c : FeatureCall) : Prop :=
  c.count.toNat < 2 ^ 32

/-- The array after a read of the first `n` words. -/
def wordsRead (offered : UInt32 -> UInt32) (n : Nat) (features : Nat -> UInt32) :
    Nat -> UInt32 :=
  fun i => if i < n then offered (UInt32.ofNat i) else features i

/-- The bank after the first `n` words were written. -/
def wordsWritten (features : Nat -> UInt32) (n : Nat) (bank : UInt32 -> UInt32) :
    UInt32 -> UInt32 :=
  fun i => if i.toNat < n then features i.toNat else bank i

theorem wordsRead_zero (offered : UInt32 -> UInt32) (features : Nat -> UInt32) :
    wordsRead offered 0 features = features := by
  funext i
  exact if_neg (Nat.not_lt_zero i)

theorem wordsWritten_zero (features : Nat -> UInt32) (bank : UInt32 -> UInt32) :
    wordsWritten features 0 bank = bank := by
  funext i
  exact if_neg (Nat.not_lt_zero i.toNat)

theorem wordsRead_succ (offered : UInt32 -> UInt32) (select : UInt32)
    (features : Nat -> UInt32) :
    Function.update (wordsRead offered select.toNat features) select.toNat
        (offered select) =
      wordsRead offered (select.toNat + 1) features := by
  funext i
  unfold wordsRead
  by_cases hi : i = select.toNat
  · subst hi
    rw [Function.update_self, if_pos (Nat.lt_succ_self _), UInt32.ofNat_toNat]
  · rw [Function.update_of_ne hi]
    by_cases hlt : i < select.toNat
    · rw [if_pos hlt, if_pos (Nat.lt_succ_of_lt hlt)]
    · rw [if_neg hlt, if_neg fun h => hlt (Nat.lt_of_le_of_ne (Nat.le_of_lt_succ h) hi)]

theorem wordsWritten_max (features : Nat -> UInt32) {select : UInt32} {n : Nat}
    (hle : select.toNat <= n) (bank : UInt32 -> UInt32) :
    Function.update (wordsWritten features n bank) select (features select.toNat) =
      wordsWritten features (max n (select.toNat + 1)) bank := by
  funext i
  unfold wordsWritten
  by_cases hi : i = select
  · subst hi
    rw [Function.update_self, if_pos (Nat.lt_of_lt_of_le (Nat.lt_succ_self _)
      (Nat.le_max_right ..))]
  · rw [Function.update_of_ne hi]
    have hne : i.toNat ≠ select.toNat := fun h => hi (UInt32.toNat_inj.mp h)
    by_cases hlt : i.toNat < n
    · rw [if_pos hlt, if_pos (Nat.lt_of_lt_of_le hlt (Nat.le_max_left ..))]
    · rw [if_neg hlt, if_neg fun h => by omega]

/-- What a read returns. -/
def FeatureCall.readOutcome (c : FeatureCall) (transport : Transport)
    (offered : UInt32 -> UInt32) : Rc × Option (Nat -> UInt32) :=
  match c.features with
  | none => (.EINVAL, none)
  | some features =>
      if c.found transport then (.EOK, some (wordsRead offered c.count.toNat features))
      else (.EINVAL, some features)

/-- What a write returns. -/
def FeatureCall.writeOutcome (c : FeatureCall) (transport : Transport) : Rc :=
  match c.features with
  | none => .EINVAL
  | some _ => if c.found transport then .EOK else .EINVAL

/-- The bank after `n` words of a write. -/
def FeatureCall.writes (c : FeatureCall) (n : Nat) (bank : UInt32 -> UInt32) :
    UInt32 -> UInt32 :=
  match c.features with
  | none => bank
  | some features => wordsWritten features n bank

theorem FeatureCall.writes_zero (c : FeatureCall) (bank : UInt32 -> UInt32) :
    c.writes 0 bank = bank := by
  unfold FeatureCall.writes
  cases c.features with
  | none => rfl
  | some features => exact wordsWritten_zero features bank

/-- The words that a write has written when it returns. -/
def FeatureCall.length (c : FeatureCall) (transport : Transport) : Nat :=
  match c.features with
  | none => 0
  | some _ => if c.found transport then c.count.toNat else 0

theorem FeatureCall.length_of_found {c : FeatureCall} {transport : Transport}
    {features : Nat -> UInt32} (hfeatures : c.features = some features)
    (hfound : c.found transport = true) : c.length transport = c.count.toNat := by
  unfold FeatureCall.length
  rw [hfeatures]
  exact if_pos hfound

theorem FeatureCall.length_of_refused {c : FeatureCall} {transport : Transport}
    (h : ¬ c.Granted transport) : c.length transport = 0 := by
  unfold FeatureCall.length
  cases hfeatures : c.features with
  | none => rfl
  | some features =>
      refine if_neg fun hfound => h ⟨?_, hfound⟩
      rw [hfeatures]
      exact Option.some_ne_none features

/-!
## Calls that return
-/

theorem returns_iff_of_bind_ret {α β : Type} {ok : Unit -> Prop} {w : FeatureSystem}
    {p : FeatureProg α} (f : α -> β) :
    (exists b w', Prog.Runs ok w (p.bind fun a => Prog.ret (f a)) b w') <->
      exists a w', Prog.Runs ok w p a w' := by
  constructor
  · intro hruns
    rcases hruns with ⟨b, w', hrun⟩
    rcases runs_bind_iff.mp hrun with ⟨a, w1, hp, _⟩
    exact ⟨a, w1, hp⟩
  · intro hruns
    rcases hruns with ⟨a, w', hp⟩
    exact ⟨f a, w', hp.bind (Runs.ret _ _)⟩

theorem storeFeature_runs {transport : Transport} (offset : Nat) (value : UInt32)
    (w : FeatureSystem) :
    Prog.Runs (fun _ => True) w (storeFeature transport offset value) ()
      { w with device := w.device.store (featureLayout transport) offset value } :=
  runs_modify_iff.mpr ⟨⟨(), trivial⟩, rfl⟩

theorem loadFeature_runs {transport : Transport} (offset : Nat) (w : FeatureSystem) :
    Prog.Runs (fun _ => True) w (loadFeature transport offset)
      (w.device.load (featureLayout transport) offset) w :=
  runs_read_iff.mpr ⟨⟨(), trivial⟩, rfl, rfl⟩

theorem readLoop_returns_iff {transport : Transport} {features : Nat -> UInt32}
    {count : UInt64} {w : FeatureSystem} :
    (exists words w', Prog.Runs (fun _ => True) w
      (counter32.each count.toNat (readWord transport) features) words w') <->
        count.toNat < 2 ^ 32 := by
  apply counter32.each_returns_iff
  intro select words w
  exact ⟨_, _, (storeFeature_runs _ _ w).bind ((loadFeature_runs _ _).bind (Runs.ret _ _))⟩

theorem writeLoop_returns_iff {transport : Transport} {features : Nat -> UInt32}
    {count : UInt64} {w : FeatureSystem} :
    (exists u w', Prog.Runs (fun _ => True) w
      (counter32.each count.toNat (writeWord transport features) ()) u w') <->
        count.toNat < 2 ^ 32 := by
  apply counter32.each_returns_iff
  intro select u w
  exact ⟨_, _, (storeFeature_runs _ _ w).bind (storeFeature_runs _ _ _)⟩

/-- A call that passes its checks returns if and only if the bound fits into the counter. -/
theorem feature_calls_return_iff (transport : Transport) (c : FeatureCall)
    (w : FeatureSystem) :
    ((exists out w', Prog.Runs (fun _ => True) w (readDeviceFeatures transport c) out w') <->
        (c.Granted transport -> c.Fits)) ∧
      ((exists rc w', Prog.Runs (fun _ => True) w (writeDriverFeatures transport c) rc w') <->
        (c.Granted transport -> c.Fits)) := by
  rw [readDeviceFeatures_eq, writeDriverFeatures_eq]
  unfold readFeatures writeFeatures FeatureCall.Granted FeatureCall.Fits
  cases hfeatures : c.features with
  | none =>
      have hrefused : (none : Option (Nat -> UInt32)) ≠ none ∧
          c.found transport = true -> c.count.toNat < 2 ^ 32 := fun h => absurd rfl h.1
      exact ⟨⟨fun _ => hrefused, fun _ => ⟨_, w, Runs.ret _ _⟩⟩,
        ⟨fun _ => hrefused, fun _ => ⟨_, w, Runs.ret _ _⟩⟩⟩
  | some features =>
      cases hfound : c.found transport with
      | false =>
          simp only [Bool.false_eq_true, if_false, and_false, false_implies, iff_true]
          exact ⟨⟨_, w, Runs.ret _ _⟩, ⟨_, w, Runs.ret _ _⟩⟩
      | true =>
          simp only [if_true, ne_eq, reduceCtorEq, not_false_eq_true, and_self, forall_const]
          exact ⟨(returns_iff_of_bind_ret _).trans readLoop_returns_iff,
            (returns_iff_of_bind_ret _).trans writeLoop_returns_iff⟩

/-!
## A reader and a writer
-/

inductive FeatureThread
  | reader
  | writer
  deriving DecidableEq

/-- The reader makes its calls one after the other. -/
def featureReader (transport : Transport) (script : Nat -> FeatureCall) :
    FeatureProg Unit :=
  Prog.iterate (fun n => do
    let out <- readDeviceFeatures transport (script n)
    Prog.modify fun w => { w with reads := w.reads ++ [out] }
    pure (.inl (n + 1))) 0

def featureWriter (transport : Transport) (script : Nat -> FeatureCall) :
    FeatureProg Unit :=
  Prog.iterate (fun n => do
    let rc <- writeDriverFeatures transport (script n)
    Prog.modify fun w => { w with writes := w.writes ++ [rc] }
    pure (.inl (n + 1))) 0

/-- A device to be read and written by these calls. -/
structure FeatureSetting where
  transport : Transport
  device : FeatureDevice
  reads : Nat -> FeatureCall
  writes : Nat -> FeatureCall

def FeatureSetting.thread (Z : FeatureSetting) : FeatureThread -> FeatureProg Unit
  | .reader => featureReader Z.transport Z.reads
  | .writer => featureWriter Z.transport Z.writes

def FeatureSetting.pool (Z : FeatureSetting) : Pool FeatureThread Unit FeatureSystem where
  state := { device := Z.device, reads := [], writes := [] }
  thread := Z.thread

/-- Nobody else touches the feature registers. -/
def noOthers (d : Empty) (_ : FeatureSystem) : Option FeatureSystem :=
  d.elim

def FeatureSetting.Reachable (Z : FeatureSetting) (w : FeatureSystem) : Prop :=
  exists c, Pool.Reachable noOthers (fun _ _ => True) Z.pool c ∧ c.state = w

/-- The bank after the first `n` writes. -/
def FeatureSetting.acceptedAfter (Z : FeatureSetting) : Nat -> UInt32 -> UInt32
  | 0 => Z.device.accepted
  | n + 1 => (Z.writes n).writes ((Z.writes n).length Z.transport) (Z.acceptedAfter n)

/-- What a thread knows of its select register, the calls that returned and the words that
the current call has written. -/
structure FeatureGhost where
  selected : Option UInt32
  calls : Nat
  words : Nat

structure FeatureInv (Z : FeatureSetting) (w : FeatureSystem)
    (gs : FeatureThread -> FeatureGhost) : Prop where
  offered : w.device.offered = Z.device.offered
  deviceSelect : forall s, (gs .reader).selected = some s -> w.device.deviceSelect = s
  driverSelect : forall s, (gs .writer).selected = some s -> w.device.driverSelect = s
  accepted : w.device.accepted = (Z.writes (gs .writer).calls).writes (gs .writer).words
    (Z.acceptedAfter (gs .writer).calls)
  within : (gs .writer).words <= (Z.writes (gs .writer).calls).length Z.transport
  reads : w.reads = (List.range (gs .reader).calls).map fun n =>
    (Z.reads n).readOutcome Z.transport Z.device.offered
  writes : w.writes = (List.range (gs .writer).calls).map fun n =>
    (Z.writes n).writeOutcome Z.transport

def FeatureSetting.contract (Z : FeatureSetting) :
    Contract FeatureThread Unit Empty FeatureSystem FeatureGhost where
  env := noOthers
  ok := fun _ _ => True
  inv := FeatureInv Z

section Threads

variable {Z : FeatureSetting} {w : FeatureSystem} {gs : FeatureThread -> FeatureGhost}
  {g : FeatureGhost} {select : UInt32}

theorem FeatureInv.selectDevice (h : FeatureInv Z w gs) (select : UInt32) :
    FeatureInv Z { w with device := { w.device with deviceSelect := select } }
      (Function.update gs .reader { gs .reader with selected := some select }) where
  offered := h.offered
  deviceSelect := by
    intro s hs
    rw [Function.update_self] at hs
    exact Option.some.inj hs
  driverSelect := h.driverSelect
  accepted := h.accepted
  within := h.within
  reads := by
    rw [Function.update_self]
    exact h.reads
  writes := h.writes

theorem FeatureInv.selectDriver (h : FeatureInv Z w gs) (select : UInt32) :
    FeatureInv Z { w with device := { w.device with driverSelect := select } }
      (Function.update gs .writer { gs .writer with selected := some select }) where
  offered := h.offered
  deviceSelect := h.deviceSelect
  driverSelect := by
    intro s hs
    rw [Function.update_self] at hs
    exact Option.some.inj hs
  accepted := by
    rw [Function.update_self]
    exact h.accepted
  within := by
    rw [Function.update_self]
    exact h.within
  reads := h.reads
  writes := by
    rw [Function.update_self]
    exact h.writes

theorem FeatureInv.accept (h : FeatureInv Z w gs) {features : Nat -> UInt32}
    (hfeatures : (Z.writes (gs .writer).calls).features = some features)
    (hselected : (gs .writer).selected = some select)
    (hle : select.toNat <= (gs .writer).words)
    (hlt : select.toNat < (Z.writes (gs .writer).calls).length Z.transport) :
    FeatureInv Z { w with device := { w.device with
      accepted := Function.update w.device.accepted w.device.driverSelect
        (features select.toNat) } }
      (Function.update gs .writer
        { gs .writer with words := max (gs .writer).words (select.toNat + 1) }) where
  offered := h.offered
  deviceSelect := h.deviceSelect
  driverSelect := by
    rw [Function.update_self]
    exact h.driverSelect
  accepted := by
    rw [Function.update_self]
    change Function.update w.device.accepted w.device.driverSelect _ = _
    rw [h.driverSelect select hselected, h.accepted]
    unfold FeatureCall.writes
    simp only [hfeatures]
    exact wordsWritten_max features hle _
  within := by
    rw [Function.update_self]
    exact Nat.max_le.mpr ⟨h.within, hlt⟩
  reads := h.reads
  writes := by
    rw [Function.update_self]
    exact h.writes

theorem FeatureInv.returnRead (h : FeatureInv Z w gs) :
    FeatureInv Z { w with reads := w.reads ++
      [(Z.reads (gs .reader).calls).readOutcome Z.transport Z.device.offered] }
      (Function.update gs .reader { gs .reader with calls := (gs .reader).calls + 1 }) where
  offered := h.offered
  deviceSelect := by
    rw [Function.update_self]
    exact h.deviceSelect
  driverSelect := h.driverSelect
  accepted := h.accepted
  within := h.within
  reads := by
    rw [Function.update_self]
    change w.reads ++ [_] = _
    rw [List.range_succ, List.map_append, h.reads]
    rfl
  writes := h.writes

theorem FeatureInv.returnWrite (h : FeatureInv Z w gs)
    (hwords : (gs .writer).words = (Z.writes (gs .writer).calls).length Z.transport) :
    FeatureInv Z { w with writes := w.writes ++
      [(Z.writes (gs .writer).calls).writeOutcome Z.transport] }
      (Function.update gs .writer
        { gs .writer with calls := (gs .writer).calls + 1, words := 0 }) where
  offered := h.offered
  deviceSelect := h.deviceSelect
  driverSelect := by
    rw [Function.update_self]
    exact h.driverSelect
  accepted := by
    rw [Function.update_self]
    change w.device.accepted = FeatureCall.writes _ 0 (Z.acceptedAfter _)
    rw [FeatureCall.writes_zero, h.accepted, hwords]
    rfl
  within := by
    rw [Function.update_self]
    exact Nat.zero_le _
  reads := h.reads
  writes := by
    rw [Function.update_self]
    change w.writes ++ [_] = _
    rw [List.range_succ, List.map_append, h.writes]
    rfl

/-!
## Threads
-/

theorem selectDevice_triple (select : UInt32) :
    Z.contract.Triple .reader g (storeFeature Z.transport
        (featureLayout Z.transport).deviceFeatureSelect select)
      fun _ g' => g' = { g with selected := some select } := by
  apply Contract.Triple.action
  intro e w gs u w' _ hinv hg hf
  subst hg
  cases hf
  refine ⟨_, ?_, rfl⟩
  have hnext := hinv.selectDevice select
  rw [← FeatureDevice.store_deviceSelect Z.transport] at hnext
  exact hnext

theorem loadDevice_triple (hselected : g.selected = some select) :
    Z.contract.Triple .reader g (loadFeature Z.transport
        (featureLayout Z.transport).deviceFeature)
      fun word g' => word = Z.device.offered select ∧ g' = g := by
  apply Contract.Triple.action
  intro e w gs word w' _ hinv hg hf
  subst hg
  cases hf
  refine ⟨gs .reader, ?_, ?_, rfl⟩
  · rw [Function.update_eq_self]
    exact hinv
  · change w.device.load _ _ = _
    rw [FeatureDevice.load_deviceFeature, hinv.deviceSelect select hselected, hinv.offered]

theorem selectDriver_triple (select : UInt32) :
    Z.contract.Triple .writer g (storeFeature Z.transport
        (featureLayout Z.transport).driverFeatureSelect select)
      fun _ g' => g' = { g with selected := some select } := by
  apply Contract.Triple.action
  intro e w gs u w' _ hinv hg hf
  subst hg
  cases hf
  refine ⟨_, ?_, rfl⟩
  have hnext := hinv.selectDriver select
  rw [← FeatureDevice.store_driverSelect Z.transport] at hnext
  exact hnext

theorem storeDriver_triple {features : Nat -> UInt32}
    (hfeatures : (Z.writes g.calls).features = some features)
    (hselected : g.selected = some select) (hle : select.toNat <= g.words)
    (hlt : select.toNat < (Z.writes g.calls).length Z.transport) :
    Z.contract.Triple .writer g (storeFeature Z.transport
        (featureLayout Z.transport).driverFeature (features select.toNat))
      fun _ g' => g' = { g with words := max g.words (select.toNat + 1) } := by
  apply Contract.Triple.action
  intro e w gs u w' _ hinv hg hf
  subst hg
  cases hf
  refine ⟨_, ?_, rfl⟩
  have hnext := hinv.accept hfeatures hselected hle hlt
  rw [← FeatureDevice.store_driverFeature Z.transport] at hnext
  exact hnext

theorem readDeviceFeatures_triple (n : Nat) (hn : g.calls = n) :
    Z.contract.Triple .reader g (readDeviceFeatures Z.transport (Z.reads n)) fun out g' =>
      g'.calls = n ∧ out = (Z.reads n).readOutcome Z.transport Z.device.offered := by
  rw [readDeviceFeatures_eq]
  unfold readFeatures FeatureCall.readOutcome
  cases (Z.reads n).features with
  | none => exact Contract.Triple.ret ⟨hn, rfl⟩
  | some features =>
      cases (Z.reads n).found Z.transport with
      | false => exact Contract.Triple.ret ⟨hn, rfl⟩
      | true =>
          simp only [if_true]
          apply (counter32.each_triple
            (J := fun c words g => g.calls = n ∧ ((Z.reads n).count.toNat < 2 ^ 32 ->
              words = wordsRead Z.device.offered c.toNat features)) ?_
            ⟨hn, fun _ => (wordsRead_zero _ _).symm⟩).bind
          · intro words g' hend
            rcases hend with ⟨c, ⟨hcalls, hwords⟩, hbound⟩
            have hfits : (Z.reads n).count.toNat < 2 ^ 32 := hbound ▸ c.toNat_lt
            refine Contract.Triple.ret ⟨hcalls, ?_⟩
            rw [hwords hfits, show c.toNat = (Z.reads n).count.toNat from hbound]
          · intro c words g hlt hJ
            rcases hJ with ⟨hcalls, hwords⟩
            apply (selectDevice_triple c).bind
            intro _ g1 hg1
            subst hg1
            apply (loadDevice_triple rfl).bind
            intro word g2 hload
            rcases hload with ⟨rfl, rfl⟩
            refine Contract.Triple.ret ⟨hcalls, fun hfits => ?_⟩
            have hnext : (counter32.next c).toNat = c.toNat + 1 :=
              counter32.val_next c (Nat.lt_of_le_of_lt hlt hfits)
            rw [hwords hfits, wordsRead_succ, hnext]

theorem writeLoop_triple {features : Nat -> UInt32}
    (hfeatures : (Z.writes g.calls).features = some features) (hzero : g.words = 0) :
    Z.contract.Triple .writer g
      (counter32.each ((Z.writes g.calls).length Z.transport)
        (writeWord Z.transport features) ())
      fun _ g' => g'.calls = g.calls ∧
        g'.words = (Z.writes g.calls).length Z.transport := by
  refine (counter32.each_triple
    (J := fun c _ g' => g'.calls = g.calls ∧ c.toNat <= g'.words ∧
      ((Z.writes g.calls).length Z.transport < 2 ^ 32 -> g'.words = c.toNat)) ?_
    ⟨rfl, Nat.zero_le _, fun _ => hzero⟩).conseq ?_
  · intro c u g' hlt hJ
    rcases hJ with ⟨hcalls, hle, hwords⟩
    apply (selectDriver_triple c).bind
    intro _ g1 hg1
    subst hg1
    rw [← hcalls] at hfeatures hlt
    apply (storeDriver_triple (g := { g' with selected := some c }) hfeatures rfl hle
      hlt).conseq
    intro _ g2 hg2
    subst hg2
    have hnext : (c + 1).toNat <= c.toNat + 1 := by
      rw [UInt32.toNat_add]
      exact Nat.mod_le _ _
    refine ⟨hcalls, Nat.le_trans hnext (Nat.le_max_right ..), fun hfits => ?_⟩
    change max g'.words (c.toNat + 1) = (counter32.next c).toNat
    rw [hwords hfits, Nat.max_eq_right (Nat.le_succ _)]
    rw [hcalls] at hlt
    exact (counter32.val_next c (Nat.lt_of_le_of_lt hlt hfits)).symm
  · intro u g' hend
    rcases hend with ⟨c, ⟨hcalls, _, hwords⟩, hbound⟩
    exact ⟨hcalls, (hwords (hbound ▸ c.toNat_lt)).trans hbound⟩

theorem writeDriverFeatures_triple (n : Nat) (hn : g.calls = n) (hzero : g.words = 0) :
    Z.contract.Triple .writer g (writeDriverFeatures Z.transport (Z.writes n))
      fun rc g' => g'.calls = n ∧ rc = (Z.writes n).writeOutcome Z.transport ∧
        g'.words = (Z.writes n).length Z.transport := by
  subst hn
  rw [writeDriverFeatures_eq]
  unfold writeFeatures FeatureCall.writeOutcome
  cases hfeatures : (Z.writes g.calls).features with
  | none =>
      have hlength : (Z.writes g.calls).length Z.transport = 0 :=
        FeatureCall.length_of_refused fun h => h.1 hfeatures
      exact Contract.Triple.ret ⟨rfl, rfl, hzero.trans hlength.symm⟩
  | some features =>
      cases hfound : (Z.writes g.calls).found Z.transport with
      | false =>
          have hlength : (Z.writes g.calls).length Z.transport = 0 :=
            FeatureCall.length_of_refused fun h => Bool.false_ne_true (hfound.symm.trans h.2)
          exact Contract.Triple.ret ⟨rfl, rfl, hzero.trans hlength.symm⟩
      | true =>
          have hlength : (Z.writes g.calls).length Z.transport =
              (Z.writes g.calls).count.toNat :=
            FeatureCall.length_of_found hfeatures hfound
          simp only [if_true]
          rw [← hlength]
          exact (writeLoop_triple hfeatures hzero).bind fun _ _ h =>
            Contract.Triple.ret ⟨h.1, rfl, h.2⟩

theorem featureReader_triple (hn : g.calls = 0) :
    Z.contract.Triple .reader g (featureReader Z.transport Z.reads) fun _ _ => True := by
  unfold featureReader
  apply Contract.Triple.loop (J := fun n g => g.calls = n) (R := fun _ _ => True)
  · intro n g hg
    apply (readDeviceFeatures_triple n hg).bind
    intro out g1 hout
    rcases hout with ⟨rfl, rfl⟩
    refine Contract.Triple.bind (Q := fun _ g' => g'.calls = g1.calls + 1) ?_ ?_
    · apply Contract.Triple.action
      intro e w gs u w' _ hinv hg hf
      subst hg
      cases hf
      exact ⟨_, hinv.returnRead, rfl⟩
    · intro _ g2 hg2
      exact Contract.Triple.ret hg2
  · intro _ _ _
    exact Contract.Triple.ret trivial
  · exact hn

theorem featureWriter_triple (hn : g.calls = 0) (hzero : g.words = 0) :
    Z.contract.Triple .writer g (featureWriter Z.transport Z.writes) fun _ _ => True := by
  unfold featureWriter
  apply Contract.Triple.loop (J := fun n g => g.calls = n ∧ g.words = 0)
    (R := fun _ _ => True)
  · intro n g hg
    apply (writeDriverFeatures_triple n hg.1 hg.2).bind
    intro rc g1 hrc
    rcases hrc with ⟨rfl, rfl, hwords⟩
    refine Contract.Triple.bind (Q := fun _ g' => g'.calls = g1.calls + 1 ∧ g'.words = 0)
      ?_ ?_
    · apply Contract.Triple.action
      intro e w gs u w' _ hinv hg hf
      subst hg
      cases hf
      exact ⟨_, hinv.returnWrite hwords, rfl, rfl⟩
    · intro _ g2 hg2
      exact Contract.Triple.ret hg2
  · intro _ _ _
    exact Contract.Triple.ret trivial
  · exact ⟨hn, hzero⟩

end Threads

/-!
## Interleavings
-/

theorem FeatureSetting.Reachable.kept {Z : FeatureSetting} {w : FeatureSystem}
    (h : Z.Reachable w) : exists gs, FeatureInv Z w gs := by
  rcases h with ⟨c, hc, rfl⟩
  have hinit : FeatureInv Z Z.pool.state fun _ => ⟨none, 0, 0⟩ := {
    offered := rfl
    deviceSelect := by
      intro s hs
      cases hs
    driverSelect := by
      intro s hs
      cases hs
    accepted := (FeatureCall.writes_zero _ _).symm
    within := Nat.zero_le _
    reads := rfl
    writes := rfl }
  have hthread : forall t, Z.contract.Triple t ⟨none, 0, 0⟩ (Z.pool.thread t)
      fun _ _ => True := by
    intro t
    cases t with
    | reader => exact featureReader_triple rfl
    | writer => exact featureWriter_triple rfl rfl
  exact Z.contract.invariant_of_reachable hinit hthread (fun d => d.elim) hc

/-- One thread that reads and one that writes do not disturb each other.  Each read returns
the offered words; the accepted words are those of the writes that returned, one after the
other, and some first words of the write that has not. -/
theorem features_exchanged {Z : FeatureSetting} {w : FeatureSystem}
    (hreach : Z.Reachable w) :
    w.device.offered = Z.device.offered ∧
      w.reads = (List.range w.reads.length).map (fun n =>
        (Z.reads n).readOutcome Z.transport Z.device.offered) ∧
      w.writes = (List.range w.writes.length).map (fun n =>
        (Z.writes n).writeOutcome Z.transport) ∧
      exists n, n <= (Z.writes w.writes.length).length Z.transport ∧
        w.device.accepted =
          (Z.writes w.writes.length).writes n (Z.acceptedAfter w.writes.length) := by
  rcases hreach.kept with ⟨gs, h⟩
  have hreads : w.reads.length = (gs .reader).calls := by
    rw [h.reads, List.length_map, List.length_range]
  have hwrites : w.writes.length = (gs .writer).calls := by
    rw [h.writes, List.length_map, List.length_range]
  rw [hreads, hwrites]
  exact ⟨h.offered, h.reads, h.writes, (gs .writer).words, h.within, h.accepted⟩

/-- A call for two words. -/
def twoWords (features : Nat -> UInt32) : FeatureCall where
  dev := true
  priv := true
  commonCfg := true
  features := some features
  count := 2

def exchange : FeatureSetting where
  transport := .pci
  device := {
    deviceSelect := 9
    driverSelect := 9
    offered := fun i => i + 5
    accepted := fun _ => 0 }
  reads := fun _ => twoWords fun _ => 0
  writes := fun n => twoWords fun i => UInt32.ofNat (n + i + 7)

/-- The threads take turns. -/
def exchangeMoves (n : Nat) : List (Move FeatureThread Unit Empty) :=
  (List.replicate n [.thread .reader (), .thread .writer ()]).flatten

/-- Both threads are in their second call, and the writer has written one word of it. -/
theorem features_exchanged_two :
    exists w : FeatureSystem, w.reads.length = 1 ∧ w.writes.length = 1 ∧
      w.device.accepted 0 = 8 ∧ w.device.accepted 1 = 8 ∧
        w.device.offered = exchange.device.offered ∧
          w.reads = (List.range w.reads.length).map (fun n =>
            (exchange.reads n).readOutcome exchange.transport exchange.device.offered) ∧
          w.writes = (List.range w.writes.length).map (fun n =>
            (exchange.writes n).writeOutcome exchange.transport) ∧
          exists n, n <= (exchange.writes w.writes.length).length exchange.transport ∧
            w.device.accepted = (exchange.writes w.writes.length).writes n
              (exchange.acceptedAfter w.writes.length) := by
  have hrun : ((exchange.pool.run noOthers (exchangeMoves 14)).map fun c =>
      (c.state.reads.length, c.state.writes.length, c.state.device.accepted 0,
        c.state.device.accepted 1)) = some (1, 1, 8, 8) := by
    decide +kernel
  rcases Option.map_eq_some_iff.mp hrun with ⟨c, hc, hvalues⟩
  simp only [Prod.mk.injEq] at hvalues
  rcases hvalues with ⟨hreads, hwrites, hfirst, hsecond⟩
  exact ⟨c.state, hreads, hwrites, hfirst, hsecond, features_exchanged
    ⟨c, Pool.reachable_run Pool.Reachable.refl (fun _ _ _ => trivial) hc, rfl⟩⟩

end Virtio
end QnxVirtio
