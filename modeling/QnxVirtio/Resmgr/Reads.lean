import QnxVirtio.Resmgr.Model

/-!
# Reads within the value

A read transfers what is left of the one byte of a line, as long as the offset has
not passed it.  Past the end the length that is left wraps around.
-/

namespace QnxVirtio

open Foundation

variable {ngpio : UInt16}

/-- What a read should transfer. -/
def GpioOcb.available (ocb : GpioOcb ngpio) (nbytes : UInt64) : Nat :=
  min nbytes.toNat (ocb.node.nbytes.toNat - ocb.offset.toNat)

/-- The number of bytes that a successful read sends. -/
def ResmgrReply.sent : ResmgrReply -> Option Nat
  | .nothing => some 0
  | .bytes _ nbytes => some nbytes.toNat
  | _ => none

/-- A read sends what is available, asks the driver only for that, and moves the
offset by what it sent. -/
structure ReadInside (verify : Option Failure) (nbytes : UInt64)
    (ocb : GpioOcb ngpio) (driver : GpioCall -> GpioResult)
    (out : List GpioCall × ReadResult) : Prop where
  replies : verify = none ->
    (0 < ocb.available nbytes ->
      (driver (.getValue ocb.node.index.toUInt16)).rc = .EOK) ->
    out.2.reply.sent = some (ocb.available nbytes)
  sent : forall k, out.2.reply.sent = some k ->
    k = ocb.available nbytes ∧ k <= 1 ∧ out.2.offset.toNat = ocb.offset.toNat + k
  failed : out.2.reply.sent = none -> out.2.offset = ocb.offset
  calls : forall c, c ∈ out.1 ->
    c = .getValue ocb.node.index.toUInt16 ∧ 0 < ocb.available nbytes

/-- The read is refused, asks for nothing, or starts at most at the end. -/
def StartsInside (verify : Option Failure) (nbytes : UInt64) (ocb : GpioOcb ngpio) :
    Prop :=
  verify ≠ none ∨ nbytes = 0 ∨ ocb.offset.toNat <= ocb.node.nbytes.toNat

instance (verify : Option Failure) (nbytes : UInt64) (ocb : GpioOcb ngpio) :
    Decidable (StartsInside verify nbytes ocb) :=
  inferInstanceAs (Decidable (_ ∨ _ ∨ _))

/-!
## Lengths
-/

theorem nbytes_le_one (node : GpioNode ngpio) : node.nbytes.toNat <= 1 := by
  cases node with
  | chip => exact Nat.zero_le 1
  | line n attached => exact Nat.le_of_eq rfl

theorem available_le (ocb : GpioOcb ngpio) (nbytes : UInt64) :
    ocb.available nbytes <= ocb.node.nbytes.toNat - ocb.offset.toNat :=
  Nat.min_le_right _ _

theorem available_le_one (ocb : GpioOcb ngpio) (nbytes : UInt64) :
    ocb.available nbytes <= 1 :=
  Nat.le_trans (available_le ocb nbytes)
    (Nat.le_trans (Nat.sub_le _ _) (nbytes_le_one ocb.node))

theorem toNat_transfer_of_le {ocb : GpioOcb ngpio} {nbytes : UInt64}
    (h : nbytes = 0 ∨ ocb.offset.toNat <= ocb.node.nbytes.toNat) :
    (ocb.transfer nbytes).toNat = ocb.available nbytes := by
  rw [toNat_transfer]
  rcases h with hzero | hle
  · rw [hzero]
    change min 0 _ = min 0 _
    rw [Nat.zero_min, Nat.zero_min]
  · rw [UInt64.toNat_sub_of_le _ _ (UInt64.le_iff_toNat_le.mpr hle)]
    rfl

theorem toNat_offset_add {ocb : GpioOcb ngpio} {nbytes : UInt64}
    (hlen : (ocb.transfer nbytes).toNat = ocb.available nbytes)
    (hpos : 0 < ocb.available nbytes) :
    (ocb.offset + ocb.transfer nbytes).toNat =
      ocb.offset.toNat + ocb.available nbytes := by
  have hend : ocb.offset.toNat + ocb.available nbytes <= ocb.node.nbytes.toNat := by
    have := available_le ocb nbytes
    omega
  have hbound : ocb.offset.toNat + ocb.available nbytes < 2 ^ 64 :=
    Nat.lt_of_le_of_lt hend ocb.node.nbytes.toNat_lt
  rw [UInt64.toNat_add, hlen, Nat.mod_eq_of_lt hbound]

/-!
## One read
-/

theorem readInside_refused (f : Failure) (nbytes : UInt64) (ocb : GpioOcb ngpio)
    (value : UInt8) (driver : GpioCall -> GpioResult) :
    ReadInside (some f) nbytes ocb driver
      ((resmgrRead (some f) nbytes ocb value).outcome driver) := by
  rw [resmgrRead_refused]
  constructor
  · intro h
    cases h
  · intro k hk
    cases hk
  · exact fun _ => rfl
  · intro c hc
    cases hc

theorem readInside_of_le {ocb : GpioOcb ngpio} {nbytes : UInt64}
    (h : nbytes = 0 ∨ ocb.offset.toNat <= ocb.node.nbytes.toNat) (value : UInt8)
    (driver : GpioCall -> GpioResult) :
    ReadInside none nbytes ocb driver
      ((resmgrRead none nbytes ocb value).outcome driver) := by
  have hlen := toNat_transfer_of_le h
  by_cases hzero : ocb.transfer nbytes = 0
  · have havail : ocb.available nbytes = 0 := by
      rw [← hlen, hzero, UInt64.toNat_zero]
    rw [resmgrRead_empty hzero]
    constructor
    · intro _ _
      rw [havail]
      rfl
    · intro k hk
      cases hk
      rw [havail]
      exact ⟨rfl, Nat.zero_le 1, rfl⟩
    · exact fun _ => rfl
    · intro c hc
      cases hc
  · have hpos : 0 < ocb.available nbytes := by
      rw [← hlen]
      exact UInt64.lt_iff_toNat_lt.mp (UInt64.pos_iff_ne_zero.mpr hzero)
    rw [resmgrRead_transfer hzero]
    by_cases hrc : (driver (.getValue ocb.node.index.toUInt16)).rc = .EOK
    · simp only [hrc, ne_eq, not_true_eq_false, if_false]
      constructor
      · intro _ _
        rw [← hlen]
        rfl
      · intro k hk
        cases hk
        rw [hlen]
        exact ⟨rfl, available_le_one ocb nbytes, toNat_offset_add hlen hpos⟩
      · intro hnone
        cases hnone
      · intro c hc
        exact ⟨List.mem_singleton.mp hc, hpos⟩
    · simp only [hrc, ne_eq, not_false_eq_true, if_true]
      constructor
      · exact fun _ hok => absurd (hok hpos) hrc
      · intro k hk
        cases hk
      · exact fun _ => rfl
      · intro c hc
        exact ⟨List.mem_singleton.mp hc, hpos⟩

theorem readInside_iff (verify : Option Failure) (nbytes : UInt64)
    (ocb : GpioOcb ngpio) (value : UInt8) (driver : GpioCall -> GpioResult) :
    ReadInside verify nbytes ocb driver
        ((resmgrRead verify nbytes ocb value).outcome driver) <->
      StartsInside verify nbytes ocb := by
  cases verify with
  | some f =>
      apply iff_of_true (readInside_refused f nbytes ocb value driver)
      exact Or.inl fun h => by cases h
  | none =>
      constructor
      · intro h
        by_contra hout
        simp only [StartsInside, ne_eq, not_true_eq_false, false_or, not_or,
          Nat.not_le] at hout
        have htransfer : ocb.transfer nbytes ≠ 0 := by
          rw [ne_eq, transfer_eq_zero_iff, not_or]
          refine ⟨hout.1, fun heq => ?_⟩
          rw [heq] at hout
          exact Nat.lt_irrefl _ hout.2
        have hcall := h.calls (.getValue ocb.node.index.toUInt16) (by
          rw [resmgrRead_transfer htransfer]
          exact List.mem_singleton_self _)
        have havail := available_le ocb nbytes
        rw [Nat.sub_eq_zero_of_le (Nat.le_of_lt hout.2)] at havail
        exact absurd hcall.2 (Nat.not_lt.mpr havail)
      · rintro (hrefused | hstart)
        · exact absurd rfl hrefused
        · exact readInside_of_le hstart value driver

/-!
## Runs
-/

/-- A read of an open file at an offset that is not negative stays inside. -/
def ReadsInside (m : Resmgr ngpio) (i : ResmgrInput ngpio) : Prop :=
  match i.msg with
  | .read fd verify nbytes =>
      forall ocb, m.ocbs[fd]? = some ocb -> OffsetNonneg ocb.offset ->
        ReadInside verify nbytes ocb i.driver
          ((resmgrRead verify nbytes ocb (m.value ocb.node)).outcome i.driver)
  | _ => True

def ReadsStartInside (m : Resmgr ngpio) (i : ResmgrInput ngpio) : Prop :=
  match i.msg with
  | .read fd verify nbytes =>
      forall ocb, m.ocbs[fd]? = some ocb -> OffsetNonneg ocb.offset ->
        StartsInside verify nbytes ocb
  | _ => True

theorem readsInside_iff (m : Resmgr ngpio) (i : ResmgrInput ngpio) :
    ReadsInside m i <-> ReadsStartInside m i := by
  rcases i with ⟨msg, driver⟩
  cases msg with
  | read fd verify nbytes =>
      constructor
      · intro h ocb hocb hoffset
        exact (readInside_iff verify nbytes ocb _ driver).mp (h ocb hocb hoffset)
      · intro h ocb hocb hoffset
        exact (readInside_iff verify nbytes ocb _ driver).mpr (h ocb hocb hoffset)
  | _ => exact Iff.rfl

/-- Whatever the clients read, write and seek, every read stays inside the value
exactly when every read starts inside the file. -/
theorem resmgr_reads_inside (ngpio : UInt16) (index : UInt64)
    (inputs : List (ResmgrInput ngpio)) :
    (resmgrMachine ngpio).Along ReadsInside (Resmgr.initial ngpio index) inputs <->
      (resmgrMachine ngpio).Along ReadsStartInside (Resmgr.initial ngpio index)
        inputs :=
  (resmgrMachine ngpio).along_congr readsInside_iff

/-- A line that is read at offset 2 still asks the device and sends a byte. -/
theorem resmgr_reads_past_end :
    ¬ forall (ngpio : UInt16) (index : UInt64) (inputs : List (ResmgrInput ngpio)),
      (resmgrMachine ngpio).Along ReadsInside (Resmgr.initial ngpio index) inputs := by
  intro h
  have hrun := h 4 0 [
    ⟨.open (.line 0 (by decide)), fun _ => ⟨.EOK, none, true⟩⟩,
    ⟨.lseek 0 2, fun _ => ⟨.EOK, none, true⟩⟩,
    ⟨.read 0 none 1, fun _ => ⟨.EOK, some 1, true⟩⟩]
  have hread := hrun.2.2.1 ⟨.line 0 (by decide), 2⟩ rfl (by decide)
  exact absurd ((readInside_iff _ _ _ _ _).mp hread) (by decide)

end QnxVirtio
