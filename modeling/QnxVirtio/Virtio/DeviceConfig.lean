import QnxVirtio.Host

/-!
# Reading the device configuration

Both transports copy the configuration space word by word.  The MMIO loop counts
words and reads bytes at their offset; the PCI loop counts bytes but indexes words
with them.
-/

namespace QnxVirtio

open Foundation

def VIRTIO_MMIO_CONFIG : Nat := 0x100

/-- A copy in progress: the destination, and which bytes of it were written and which
bytes of the source were read. -/
structure ConfigCopy where
  dst : Bytes
  stored : List Nat
  loaded : List Nat

def ConfigCopy.start (dst : Bytes) : ConfigCopy where
  dst := dst
  stored := []
  loaded := []

/-- Copy four bytes. -/
def ConfigCopy.word (src : Bytes) (dstAt srcAt : Nat) (r : ConfigCopy) : ConfigCopy where
  dst := storeBytes r.dst dstAt (loadBytes src srcAt 4)
  stored := r.stored ++ List.range' dstAt 4
  loaded := r.loaded ++ List.range' srcAt 4

/-- Copy `n` words, each from and to its own address. -/
def copyWords (src : Bytes) (dstAt srcAt : Nat -> Nat) : Nat -> ConfigCopy -> ConfigCopy
  | 0, r => r
  | n + 1, r => (copyWords src dstAt srcAt n r).word src (dstAt n) (srcAt n)

/-- The register region of an MMIO device ends with the configuration space. -/
def mmioRegion (regs config : Bytes) : Bytes :=
  fun a => if a < VIRTIO_MMIO_CONFIG then regs a else config (a - VIRTIO_MMIO_CONFIG)

/-- Registers are addressed with 32 bits.  A null `dst` is `none`. -/
def virtioMmioReadDeviceConfig (region : Bytes) (dst : Option Bytes)
    (len offset : Nat) : Except Rc ConfigCopy :=
  match dst with
  | none => .error .EINVAL
  | some dst =>
      if len % 4 ≠ 0 ∨ offset % 4 ≠ 0 then .error .EINVAL
      else
        .ok (copyWords region (fun word => 4 * word)
          (fun word => (VIRTIO_MMIO_CONFIG + offset + word * 4) % 2 ^ 32)
          (len / 4) (ConfigCopy.start dst))

/-- In round `n` of the loop `i` is `4 * n`, which counts words on both sides. -/
def virtioPciReadDeviceConfig (config : Bytes) (dst : Option Bytes)
    (len offset : Nat) : Except Rc ConfigCopy :=
  match dst with
  | none => .error .EINVAL
  | some dst =>
      .ok (copyWords config (fun n => 4 * (4 * n)) (fun n => 4 * (offset + 4 * n))
        ((len + 3) / 4) (ConfigCopy.start dst))

/-!
## Copied words
-/

/-- The bytes of the first `n` words. -/
def wordsAt (pos : Nat -> Nat) : Nat -> List Nat
  | 0 => []
  | n + 1 => wordsAt pos n ++ List.range' (pos n) 4

theorem mem_wordsAt {pos : Nat -> Nat} {n i : Nat} :
    i ∈ wordsAt pos n <-> exists k, k < n ∧ pos k <= i ∧ i < pos k + 4 := by
  induction n with
  | zero => simp [wordsAt]
  | succ n ih =>
      rw [wordsAt, List.mem_append, ih, List.mem_range'_1]
      constructor
      · rintro (⟨k, hk, hi⟩ | hi)
        · exact ⟨k, Nat.lt_succ_of_lt hk, hi⟩
        · exact ⟨n, Nat.lt_succ_self n, hi⟩
      · rintro ⟨k, hk, hi⟩
        rcases Nat.lt_succ_iff_lt_or_eq.mp hk with hk | rfl
        · exact Or.inl ⟨k, hk, hi⟩
        · exact Or.inr hi

section CopyWords

variable (src dst : Bytes) (dstAt srcAt : Nat -> Nat) (n : Nat)

theorem stored_copyWords :
    (copyWords src dstAt srcAt n (ConfigCopy.start dst)).stored = wordsAt dstAt n := by
  induction n with
  | zero => rfl
  | succ n ih => simp only [copyWords, ConfigCopy.word, ih, wordsAt]

theorem loaded_copyWords :
    (copyWords src dstAt srcAt n (ConfigCopy.start dst)).loaded = wordsAt srcAt n := by
  induction n with
  | zero => rfl
  | succ n ih => simp only [copyWords, ConfigCopy.word, ih, wordsAt]

theorem dst_copyWords {i : Nat} (hi : i < 4 * n) :
    (copyWords src (fun word => 4 * word) srcAt n (ConfigCopy.start dst)).dst i =
      src (srcAt (i / 4) + i % 4) := by
  induction n with
  | zero => exact absurd hi (Nat.not_lt_zero i)
  | succ n ih =>
      simp only [copyWords, ConfigCopy.word]
      by_cases hlast : i < 4 * n
      · rw [storeBytes_of_lt hlast, ih hlast]
      · have hdiv : i / 4 = n := by omega
        have hmod : i - 4 * n = i % 4 := by omega
        have hlt : i % 4 < 4 := Nat.mod_lt i (by decide)
        have hle : 4 * n <= i := Nat.le_of_not_lt hlast
        simp [storeBytes, hle, hmod, hdiv, loadBytes, hlt]

end CopyWords

/-!
## Agreement
-/

/-- The bytes of the configuration from `offset` on are copied, and no other byte is
written or read.  The configuration space begins at `base`. -/
structure ExactRead (base : Nat) (config : Bytes) (len offset : Nat)
    (r : ConfigCopy) : Prop where
  bytes : forall i, i < len -> r.dst i = config (offset + i)
  stored : forall i, i ∈ r.stored -> i < len
  loaded : forall a, a ∈ r.loaded -> base + offset <= a ∧ a < base + offset + len

def readCode : Except Rc ConfigCopy -> Rc
  | .ok _ => .EOK
  | .error rc => rc

/-- Both transports return the same code and read exactly what is asked for. -/
structure ConfigReadsAgree (regs config : Bytes) (size : Nat) (dst : Option Bytes)
    (len offset : Nat) : Prop where
  code : readCode (virtioPciReadDeviceConfig config dst len offset) =
    readCode (virtioMmioReadDeviceConfig (mmioRegion regs config) dst len offset)
  pci : forall r, virtioPciReadDeviceConfig config dst len offset = .ok r ->
    offset + len <= size -> ExactRead 0 config len offset r
  mmio : forall r,
    virtioMmioReadDeviceConfig (mmioRegion regs config) dst len offset = .ok r ->
    offset + len <= size -> ExactRead VIRTIO_MMIO_CONFIG config len offset r

/-- Whole words are read, and inside the configuration space only its first one. -/
def WholeWords (size : Nat) (dst : Option Bytes) (len offset : Nat) : Prop :=
  dst = none ∨ (len % 4 = 0 ∧ offset % 4 = 0 ∧
    (offset + len <= size -> len = 0 ∨ (len = 4 ∧ offset = 0)))

section Reads

variable {regs config : Bytes} {dst : Bytes} {len offset : Nat}

theorem pci_exact_first_word {r : ConfigCopy}
    (hr : virtioPciReadDeviceConfig config (some dst) len offset = .ok r)
    (hexact : ExactRead 0 config len offset r) (hlen : len % 4 = 0) :
    len = 0 ∨ (len = 4 ∧ offset = 0) := by
  cases hr
  by_cases hzero : len = 0
  · exact Or.inl hzero
  · have hstored := hexact.stored (4 * (4 * ((len + 3) / 4 - 1)) + 3) (by
      rw [stored_copyWords, mem_wordsAt]
      exact ⟨(len + 3) / 4 - 1, by omega, by omega, by omega⟩)
    have hloaded := hexact.loaded (4 * (offset + 4 * 0) + 3) (by
      rw [loaded_copyWords, mem_wordsAt]
      exact ⟨0, by omega, by omega, by omega⟩)
    exact Or.inr ⟨by omega, by omega⟩

theorem pci_exact_of_first_word {r : ConfigCopy}
    (hr : virtioPciReadDeviceConfig config (some dst) len offset = .ok r)
    (h : len = 0 ∨ (len = 4 ∧ offset = 0)) : ExactRead 0 config len offset r := by
  cases hr
  rcases h with rfl | ⟨rfl, rfl⟩
  · constructor
    · intro i hi
      exact absurd hi (Nat.not_lt_zero i)
    · intro i hi
      cases hi
    · intro a ha
      cases ha
  · constructor
    · intro i hi
      simp [copyWords, ConfigCopy.word, ConfigCopy.start, storeBytes, loadBytes, hi]
    · intro i hi
      rw [stored_copyWords, mem_wordsAt] at hi
      rcases hi with ⟨k, hk, hlow, hhigh⟩
      omega
    · intro a ha
      rw [loaded_copyWords, mem_wordsAt] at ha
      rcases ha with ⟨k, hk, hlow, hhigh⟩
      omega

theorem mmio_exact {r : ConfigCopy}
    (hr : virtioMmioReadDeviceConfig (mmioRegion regs config) (some dst) len offset =
      .ok r)
    (hfit : 0 < len -> VIRTIO_MMIO_CONFIG + offset + len <= 2 ^ 32) :
    ExactRead VIRTIO_MMIO_CONFIG config len offset r := by
  by_cases haligned : len % 4 ≠ 0 ∨ offset % 4 ≠ 0
  · simp [virtioMmioReadDeviceConfig, haligned] at hr
  · simp only [virtioMmioReadDeviceConfig, haligned, if_false] at hr
    have hlen : len % 4 = 0 := by
      by_contra hne
      exact haligned (Or.inl hne)
    cases hr
    have haddr : forall k, k < len / 4 ->
        (VIRTIO_MMIO_CONFIG + offset + k * 4) % 2 ^ 32 =
          VIRTIO_MMIO_CONFIG + offset + 4 * k := by
      intro k hk
      have hpos : 0 < len := by omega
      have := hfit hpos
      rw [Nat.mul_comm k 4]
      exact Nat.mod_eq_of_lt (by omega)
    constructor
    · intro i hi
      rw [dst_copyWords _ _ _ _ (by omega), haddr (i / 4) (by omega)]
      have hge : ¬ VIRTIO_MMIO_CONFIG + offset + 4 * (i / 4) + i % 4 <
          VIRTIO_MMIO_CONFIG := by omega
      have hindex : VIRTIO_MMIO_CONFIG + offset + 4 * (i / 4) + i % 4 -
          VIRTIO_MMIO_CONFIG = offset + i := by omega
      rw [mmioRegion, if_neg hge, hindex]
    · intro i hi
      rw [stored_copyWords, mem_wordsAt] at hi
      rcases hi with ⟨k, hk, hlow, hhigh⟩
      omega
    · intro a ha
      rw [loaded_copyWords, mem_wordsAt] at ha
      rcases ha with ⟨k, hk, hlow, hhigh⟩
      rw [haddr k hk] at hlow hhigh
      omega

end Reads

/-- The transports agree exactly on reads of whole words that, inside the
configuration space, read nothing or its first word. -/
theorem config_reads_agree_iff (regs config : Bytes) (size : Nat)
    (dst : Option Bytes) (len offset : Nat) :
    ConfigReadsAgree regs config size dst len offset <->
      WholeWords size dst len offset := by
  cases dst with
  | none =>
      apply iff_of_true _ (Or.inl rfl)
      constructor
      · rfl
      · intro r hr
        cases hr
      · intro r hr
        cases hr
  | some dst =>
      by_cases haligned : len % 4 ≠ 0 ∨ offset % 4 ≠ 0
      · apply iff_of_false
        · intro hagree
          have hcode := hagree.code
          simp [virtioPciReadDeviceConfig, virtioMmioReadDeviceConfig, haligned,
            readCode] at hcode
        · rintro (hnone | ⟨hlen, hoffset, _⟩)
          · cases hnone
          · exact haligned.elim (fun hne => hne hlen) (fun hne => hne hoffset)
      · simp only [ne_eq, not_or, not_not] at haligned
        constructor
        · intro hagree
          refine Or.inr ⟨haligned.1, haligned.2, fun hin => ?_⟩
          exact pci_exact_first_word rfl (hagree.pci _ rfl hin) haligned.1
        · rintro (hnone | ⟨_, _, hfirst⟩)
          · cases hnone
          · constructor
            · simp [virtioPciReadDeviceConfig, virtioMmioReadDeviceConfig, haligned,
                readCode]
            · intro r hr hin
              exact pci_exact_of_first_word hr (hfirst hin)
            · intro r hr hin
              apply mmio_exact hr
              intro hpos
              rcases hfirst hin with rfl | ⟨rfl, rfl⟩
              · exact absurd hpos (Nat.lt_irrefl 0)
              · decide

/-- The driver's own read of the eight bytes of the GPIO configuration. -/
theorem config_reads_differ :
    ¬ forall (regs config : Bytes) (size : Nat) (dst : Option Bytes)
      (len offset : Nat), ConfigReadsAgree regs config size dst len offset := by
  intro h
  have hagree := h (fun _ => 0) (fun _ => 0) 8 (some fun _ => 0) 8 0
  have hexact := hagree.pci _ rfl (Nat.le_refl 8)
  exact absurd (hexact.stored 19 (by decide)) (by decide)

end QnxVirtio
