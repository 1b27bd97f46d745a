import QnxVirtio.Resmgr.Model

/-!
# Requests for existing lines

A line path can only name its own line, and a line query checks its operand.  The
chip path names no line, but its index is cut down to the number 65535 and sent.
-/

namespace QnxVirtio

open Foundation

variable {ngpio : UInt16}

/-- The client is given nothing: an error, or the end of the file. -/
def ResmgrReply.Refuses : ResmgrReply -> Prop
  | .status rc => rc ≠ .EOK
  | .nothing => True
  | _ => False

/-- A read, a write or a line query that names no existing line. -/
def ResmgrMsg.NamesNoLine (m : Resmgr ngpio) : ResmgrMsg ngpio -> Prop
  | .write fd _ _ _ => exists ocb, m.ocbs[fd]? = some ocb ∧ ocb.node = .chip
  | .read fd _ _ => exists ocb, m.ocbs[fd]? = some ocb ∧ ocb.node = .chip
  | .devctl _ none .v2GetLineinfo payload => ngpio.toNat <= payload.toNat
  | _ => False

/-- Requests are for existing lines only, and an operation that names no existing
line is refused without a request. -/
structure LinesOnly (m : Resmgr ngpio) (i : ResmgrInput ngpio) : Prop where
  requests : forall c, c ∈ ((resmgrMachine ngpio).step m i).1.calls ->
    c.request.gpio < ngpio
  missing : i.msg.NamesNoLine m ->
    ((resmgrMachine ngpio).step m i).1.calls = [] ∧
      ((resmgrMachine ngpio).step m i).1.reply.Refuses

/-- The chip path is not written with one byte, and not read away from the start of
the file. -/
def ChipSpared (m : Resmgr ngpio) (i : ResmgrInput ngpio) : Prop :=
  match i.msg with
  | .write fd none nbytes (.ok _) =>
      forall ocb, m.ocbs[fd]? = some ocb -> ocb.node = .chip -> nbytes ≠ 1
  | .read fd none nbytes =>
      forall ocb, m.ocbs[fd]? = some ocb -> ocb.node = .chip ->
        nbytes = 0 ∨ ocb.offset = 0
  | _ => True

/-!
## Handlers
-/

theorem line_index (n : UInt16) (attached : n < ngpio) :
    (GpioNode.line n attached).index.toUInt16 = n := by
  simp [GpioNode.index]

theorem chip_index : (GpioNode.chip : GpioNode ngpio).index.toUInt16 = 65535 := by
  simp [GpioNode.index]

theorem chip_index_not_lt :
    ¬ ((GpioNode.chip : GpioNode ngpio).index.toUInt16 < ngpio) := by
  intro hlt
  rw [chip_index, UInt16.lt_iff_toNat_lt] at hlt
  have hmax : ngpio.toNat < 65536 := ngpio.toNat_lt
  have hindex : (65535 : UInt16).toNat = 65535 := rfl
  omega

theorem line_query_lt {payload : UInt32} (h : ¬ payload >= ngpio.toUInt32) :
    payload.toUInt16 < ngpio := by
  have hlt : payload.toNat < ngpio.toNat := by
    have h' := UInt32.lt_iff_toNat_lt.mp (UInt32.not_le.mp h)
    simpa using h'
  have hmax : ngpio.toNat < 65536 := ngpio.toNat_lt
  rw [UInt16.lt_iff_toNat_lt, UInt32.toNat_toUInt16,
    Nat.mod_eq_of_lt (Nat.lt_trans hlt hmax)]
  exact hlt

/-!
## Single messages
-/

theorem node_index_lt_iff (node : GpioNode ngpio) :
    node.index.toUInt16 < ngpio <-> node ≠ .chip := by
  cases node with
  | chip => exact iff_of_false chip_index_not_lt (fun h => h rfl)
  | line n attached =>
      rw [line_index]
      exact iff_of_true attached (fun h => by cases h)

theorem linesOnly_request {m : Resmgr ngpio} {i : ResmgrInput ngpio}
    {node : GpioNode ngpio} {c : GpioCall}
    (hcalls : ((resmgrMachine ngpio).step m i).1.calls = [c])
    (hgpio : c.request.gpio = node.index.toUInt16)
    (hmissing : i.msg.NamesNoLine m -> node = .chip) :
    LinesOnly m i <-> node ≠ .chip := by
  constructor
  · intro h
    have hlt := h.requests c (by rw [hcalls]; exact List.mem_singleton_self c)
    rw [hgpio] at hlt
    exact (node_index_lt_iff node).mp hlt
  · intro hnode
    constructor
    · intro c' hc'
      rw [hcalls, List.mem_singleton] at hc'
      rw [hc', hgpio]
      exact (node_index_lt_iff node).mpr hnode
    · exact fun h => absurd (hmissing h) hnode

theorem linesOnly_refused {m : Resmgr ngpio} {i : ResmgrInput ngpio}
    (hcalls : ((resmgrMachine ngpio).step m i).1.calls = [])
    (hreply : i.msg.NamesNoLine m -> ((resmgrMachine ngpio).step m i).1.reply.Refuses) :
    LinesOnly m i := by
  constructor
  · intro c hc
    rw [hcalls] at hc
    cases hc
  · exact fun h => ⟨hcalls, hreply h⟩

theorem line_query_ge {payload : UInt32} (h : ngpio.toNat <= payload.toNat) :
    payload >= ngpio.toUInt32 := by
  rw [ge_iff_le, UInt32.le_iff_toNat_le, UInt16.toNat_toUInt32]
  exact h

theorem refuses_EBADF : (ResmgrReply.status .EBADF).Refuses := by
  change Rc.EBADF ≠ .EOK
  decide

theorem linesOnly_closed {m : Resmgr ngpio} {i : ResmgrInput ngpio}
    (hstep : (resmgrMachine ngpio).step m i =
      ({ calls := [], reply := .status .EBADF }, m)) : LinesOnly m i := by
  apply linesOnly_refused
  · rw [hstep]
  · intro _
    rw [hstep]
    exact refuses_EBADF

theorem chipSpared_write_of_closed {m : Resmgr ngpio} {fd : Nat}
    (hocb : m.ocbs[fd]? = none) (verify : Option Failure) (nbytes : UInt64)
    (msgget : Except Failure UInt8) (driver : GpioCall -> GpioResult) :
    ChipSpared m ⟨.write fd verify nbytes msgget, driver⟩ := by
  cases verify with
  | some f => trivial
  | none =>
      cases msgget with
      | error f => trivial
      | ok byte =>
          intro ocb hsome
          simp [hocb] at hsome

theorem chipSpared_read_of_closed {m : Resmgr ngpio} {fd : Nat}
    (hocb : m.ocbs[fd]? = none) (verify : Option Failure) (nbytes : UInt64)
    (driver : GpioCall -> GpioResult) :
    ChipSpared m ⟨.read fd verify nbytes, driver⟩ := by
  cases verify with
  | some f => trivial
  | none =>
      intro ocb hsome
      simp [hocb] at hsome

section Files

variable {m : Resmgr ngpio} {fd : Nat} {ocb : GpioOcb ngpio}

theorem chip_of_namesNoLine (hocb : m.ocbs[fd]? = some ocb)
    (h : exists ocb', m.ocbs[fd]? = some ocb' ∧ ocb'.node = .chip) :
    ocb.node = .chip := by
  rcases h with ⟨ocb', hocb', hchip⟩
  rw [hocb, Option.some.injEq] at hocb'
  rw [hocb']
  exact hchip

theorem linesOnly_write (hocb : m.ocbs[fd]? = some ocb) (verify : Option Failure)
    (nbytes : UInt64) (msgget : Except Failure UInt8)
    (driver : GpioCall -> GpioResult) :
    LinesOnly m ⟨.write fd verify nbytes msgget, driver⟩ <->
      ChipSpared m ⟨.write fd verify nbytes msgget, driver⟩ := by
  by_cases haccept : verify = none ∧ nbytes = 1 ∧ exists byte, msgget = .ok byte
  · rcases haccept with ⟨rfl, rfl, byte, rfl⟩
    have hlines : LinesOnly m ⟨.write fd none 1 (.ok byte), driver⟩ <->
        ocb.node ≠ .chip := by
      apply linesOnly_request (c := .setValue ocb.node.index.toUInt16 (writtenValue byte))
      · rw [step_write driver hocb, resmgrWrite_accepted]
      · rfl
      · exact chip_of_namesNoLine hocb
    rw [hlines]
    simp [ChipSpared, hocb]
  · have hrefused : verify = none -> nbytes = 1 -> forall byte, msgget ≠ .ok byte :=
      fun hverify hn byte hmsg => haccept ⟨hverify, hn, byte, hmsg⟩
    rcases resmgrWrite_refused hrefused ocb.node driver with ⟨rc, hrc, hout⟩
    apply iff_of_true
    · apply linesOnly_refused
      · rw [step_write driver hocb, hout]
      · intro _
        rw [step_write driver hocb, hout]
        exact hrc
    · cases verify with
      | some f => trivial
      | none =>
          cases msgget with
          | error f => trivial
          | ok byte => exact fun _ _ _ hn => haccept ⟨rfl, hn, byte, rfl⟩

theorem linesOnly_read (hocb : m.ocbs[fd]? = some ocb) (verify : Option Failure)
    (nbytes : UInt64) (driver : GpioCall -> GpioResult) :
    LinesOnly m ⟨.read fd verify nbytes, driver⟩ <->
      ChipSpared m ⟨.read fd verify nbytes, driver⟩ := by
  cases verify with
  | some f =>
      apply iff_of_true _ trivial
      apply linesOnly_refused
      · rw [step_read driver hocb, resmgrRead_refused]
      · intro _
        rw [step_read driver hocb, resmgrRead_refused]
        exact f.property
  | none =>
      by_cases htransfer : ocb.transfer nbytes = 0
      · apply iff_of_true
        · apply linesOnly_refused
          · rw [step_read driver hocb, resmgrRead_empty htransfer]
          · intro _
            rw [step_read driver hocb, resmgrRead_empty htransfer]
            trivial
        · intro ocb' hocb' hchip
          rw [hocb, Option.some.injEq] at hocb'
          rw [← hocb'] at hchip ⊢
          have hzero := (transfer_eq_zero_iff ocb nbytes).mp htransfer
          rw [hchip] at hzero
          exact hzero
      · have hlines : LinesOnly m ⟨.read fd none nbytes, driver⟩ <->
            ocb.node ≠ .chip := by
          apply linesOnly_request (c := .getValue ocb.node.index.toUInt16)
          · rw [step_read driver hocb, resmgrRead_transfer htransfer]
          · rfl
          · exact chip_of_namesNoLine hocb
        rw [hlines]
        constructor
        · intro hnode ocb' hocb' hchip
          rw [hocb, Option.some.injEq] at hocb'
          rw [← hocb'] at hchip
          exact absurd hchip hnode
        · intro h hchip
          apply htransfer
          rw [transfer_eq_zero_iff, hchip]
          exact h ocb hocb hchip

theorem linesOnly_devctl (hocb : m.ocbs[fd]? = some ocb) (default : Option Rc)
    (dcmd : GpioCommand) (payload : UInt32) (driver : GpioCall -> GpioResult) :
    LinesOnly m ⟨.devctl fd default dcmd payload, driver⟩ := by
  have hcalls := congrArg (fun r => r.1.calls)
    (step_devctl driver hocb default dcmd payload)
  dsimp only at hcalls
  rw [resmgrDevctl_calls] at hcalls
  by_cases hquery : default = none ∧ dcmd = .v2GetLineinfo
  · rcases hquery with ⟨rfl, rfl⟩
    by_cases hpayload : payload >= ngpio.toUInt32
    · simp only [hpayload, if_true] at hcalls
      apply linesOnly_refused hcalls
      intro _
      rw [step_devctl driver hocb]
      simp only [resmgrDevctl, hpayload, if_true, Handler.outcome]
      change Rc.ENOENT ≠ .EOK
      decide
    · simp only [hpayload, if_false] at hcalls
      constructor
      · intro c hc
        rw [hcalls, List.mem_singleton] at hc
        rw [hc]
        exact line_query_lt hpayload
      · intro hmissing
        exact absurd (line_query_ge hmissing) hpayload
  · apply linesOnly_refused
    · rw [hcalls]
      cases default with
      | some status => rfl
      | none =>
          cases dcmd with
          | v2GetLineinfo => exact absurd ⟨rfl, rfl⟩ hquery
          | _ => rfl
    · intro hmissing
      cases default with
      | some status => cases hmissing
      | none =>
          cases dcmd with
          | v2GetLineinfo => exact absurd ⟨rfl, rfl⟩ hquery
          | _ => cases hmissing

end Files

theorem linesOnly_iff_chipSpared (m : Resmgr ngpio) (i : ResmgrInput ngpio) :
    LinesOnly m i <-> ChipSpared m i := by
  rcases i with ⟨msg, driver⟩
  cases msg with
  | «open» node => exact iff_of_true (linesOnly_refused rfl False.elim) trivial
  | lseek fd offset =>
      refine iff_of_true (linesOnly_refused ?_ False.elim) trivial
      cases hocb : m.ocbs[fd]? with
      | none => simp only [resmgrMachine, hocb]
      | some ocb =>
          by_cases hoffset : OffsetNonneg offset
          · simp only [resmgrMachine, hocb, hoffset, if_true]
          · simp only [resmgrMachine, hocb, hoffset, if_false]
  | write fd verify nbytes msgget =>
      cases hocb : m.ocbs[fd]? with
      | none =>
          apply iff_of_true
          · exact linesOnly_closed (by simp only [resmgrMachine, hocb])
          · exact chipSpared_write_of_closed hocb verify nbytes msgget driver
      | some ocb => exact linesOnly_write hocb verify nbytes msgget driver
  | read fd verify nbytes =>
      cases hocb : m.ocbs[fd]? with
      | none =>
          apply iff_of_true
          · exact linesOnly_closed (by simp only [resmgrMachine, hocb])
          · exact chipSpared_read_of_closed hocb verify nbytes driver
      | some ocb => exact linesOnly_read hocb verify nbytes driver
  | devctl fd default dcmd payload =>
      refine iff_of_true ?_ trivial
      cases hocb : m.ocbs[fd]? with
      | none => exact linesOnly_closed (by simp only [resmgrMachine, hocb])
      | some ocb => exact linesOnly_devctl hocb default dcmd payload driver

/-!
## Runs
-/

/-- In every run each step asks only for existing lines exactly when the clients
spare the chip path. -/
theorem resmgr_lines_only (ngpio : UInt16) (index : UInt64)
    (inputs : List (ResmgrInput ngpio)) :
    (resmgrMachine ngpio).Along LinesOnly (Resmgr.initial ngpio index) inputs <->
      (resmgrMachine ngpio).Along ChipSpared (Resmgr.initial ngpio index) inputs :=
  (resmgrMachine ngpio).along_congr linesOnly_iff_chipSpared

/-- A byte written to the chip path is a request for line 65535. -/
theorem resmgr_writes_chip :
    ¬ forall (ngpio : UInt16) (index : UInt64) (inputs : List (ResmgrInput ngpio)),
      (resmgrMachine ngpio).Along LinesOnly (Resmgr.initial ngpio index) inputs := by
  intro h
  have hrun := h 4 0 [
    ⟨.open .chip, fun _ => { rc := .EOK, value := none, waited := true }⟩,
    ⟨.write 0 none 1 (.ok 0x31), fun _ => { rc := .EOK, value := none, waited := true }⟩]
  have hlt := hrun.2.1.requests (.setValue 65535 1) (List.mem_singleton_self _)
  exact absurd hlt (by decide)

end QnxVirtio
