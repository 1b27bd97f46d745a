import QnxVirtio.Gpio.Model
import QnxVirtio.Foundation.Machine

/-!
# The resource manager

Clients open the paths `/dev/gpiochipX` and `/dev/gpioX.n` and read, write, seek
and send commands.  A handler is a tree of driver calls: the driver may answer
each of them in any way.
-/

namespace QnxVirtio

open Foundation

/-- A handler that calls the driver and in the end returns. -/
inductive Handler (α : Type)
  | done (a : α)
  | call (c : GpioCall) (k : GpioResult -> Handler α)

/-- The calls that a handler makes and what it returns, when the driver answers
like this. -/
def Handler.outcome {α : Type} (driver : GpioCall -> GpioResult) :
    Handler α -> List GpioCall × α
  | .done a => ([], a)
  | .call c k =>
      let r := (k (driver c)).outcome driver
      (c :: r.1, r.2)

/-!
## Attributes and open files
-/

/-- The attached paths: the chip and its lines. -/
inductive GpioNode (ngpio : UInt16)
  | chip
  | line (n : UInt16) (attached : n < ngpio)
  deriving DecidableEq

namespace GpioNode

variable {ngpio : UInt16}

/-- `attr->index`; the chip has -1. -/
def index : GpioNode ngpio -> UInt64
  | chip => 0xffffffffffffffff
  | line n _ => n.toUInt64

/-- `attr->attr.nbytes`. -/
def nbytes : GpioNode ngpio -> UInt64
  | chip => 0
  | line _ _ => 1

end GpioNode

/-- An open file.  The offset is an `off_t`, kept modulo 2^64. -/
structure GpioOcb (ngpio : UInt16) where
  node : GpioNode ngpio
  offset : UInt64

/-- An `off_t` that is not negative. -/
def OffsetNonneg (offset : UInt64) : Prop :=
  offset.toNat < 2 ^ 63

instance (offset : UInt64) : Decidable (OffsetNonneg offset) :=
  inferInstanceAs (Decidable (_ < _))

structure GpiochipInfo where
  name : String
  label : String
  lines : UInt32

structure GpioV2LineInfo where
  offset : UInt32
  name : String
  flags : UInt64

def GPIO_MAX_NAME_SIZE : Nat := 32
def GPIO_V2_LINE_FLAG_INPUT : UInt64 := (1 : UInt64) <<< 2
def GPIO_V2_LINE_FLAG_OUTPUT : UInt64 := (1 : UInt64) <<< 3

/-- The commands that `resmgr_devctl` tells apart. -/
inductive GpioCommand
  | getChipinfo
  | v2GetLineinfo
  | getLineinfoUnwatch
  | v2GetLineinfoWatch
  | v2GetLine
  | v2LineSetConfig
  | v2LineGetValues
  | v2LineSetValues
  | getLineinfo
  | getLinehandle
  | getLineevent
  | gpiohandleGetLineValues
  | gpiohandleSetLineValues
  | gpiohandleSetConfig
  | getLineinfoWatch
  | other (dcmd : UInt32)

/-- What the client is told.  A read that transfers `nbytes` bytes sends them from
the address of the value onwards. -/
inductive ResmgrReply
  | status (rc : Rc)
  | written (nbytes : UInt64)
  | nothing
  | bytes (value : UInt8) (nbytes : UInt64)
  | chipinfo (info : GpiochipInfo)
  | lineinfo (info : GpioV2LineInfo)

/-!
## Handlers
-/

/-- `virtio_gpio_set_value` is called with the index cut down to 16 bits. -/
def resmgrWrite {ngpio : UInt16} (verify : Option Failure) (nbytes : UInt64)
    (msgget : Except Failure UInt8) (node : GpioNode ngpio) : Handler ResmgrReply :=
  match verify with
  | some f => .done (.status f.val)
  | none =>
      if nbytes ≠ 1 then .done (.status .EINVAL)
      else
        match msgget with
        | .error f => .done (.status f.val)
        | .ok byte =>
            let value : UInt8 := if byte = 0x30 then 0 else 1
            .call (.setValue node.index.toUInt16 value) fun r =>
              if r.rc = .EOK then .done (.written 1) else .done (.status r.rc)

/-- The reply of a read, the file offset and the value of the attribute. -/
structure ReadResult where
  reply : ResmgrReply
  offset : UInt64
  value : UInt8

def resmgrRead {ngpio : UInt16} (verify : Option Failure) (nbytes : UInt64)
    (ocb : GpioOcb ngpio) (value : UInt8) : Handler ReadResult :=
  match verify with
  | some f => .done { reply := .status f.val, offset := ocb.offset, value := value }
  | none =>
      let nleft := ocb.node.nbytes - ocb.offset
      let n := min nbytes nleft
      if 0 < n then
        .call (.getValue ocb.node.index.toUInt16) fun r =>
          let value := r.value.getD value
          if r.rc ≠ .EOK then
            .done { reply := .status r.rc, offset := ocb.offset, value := value }
          else
            let value := value + 0x30
            .done {
              reply := .bytes value n
              offset := ocb.offset + n
              value := value }
      else .done { reply := .nothing, offset := ocb.offset, value := value }

/-- `snprintf` into a buffer of `size` bytes. -/
def snprintf (size : Nat) (text : String) : String :=
  String.ofList (text.toList.take (size - 1))

def chipName (index : UInt64) : String :=
  snprintf GPIO_MAX_NAME_SIZE ("gpiochip" ++ toString index)

def lineName (index : UInt64) (offset : UInt32) : String :=
  snprintf GPIO_MAX_NAME_SIZE ("gpio" ++ toString index ++ "." ++ toString offset)

/-- `iofunc_devctl_default` answers first; `none` stands for `_RESMGR_DEFAULT`. -/
def resmgrDevctl (ngpio : UInt16) (index : UInt64) (default : Option Rc)
    (dcmd : GpioCommand) (payload : UInt32) : Handler ResmgrReply :=
  match default with
  | some status => .done (.status status)
  | none =>
      match dcmd with
      | .getChipinfo =>
          .done (.chipinfo {
            name := chipName index
            label := "virtio"
            lines := ngpio.toUInt32 })
      | .v2GetLineinfo =>
          if payload >= ngpio.toUInt32 then .done (.status .ENOENT)
          else
            .call (.getDirection payload.toUInt16) fun r =>
              if r.rc ≠ .EOK then .done (.status r.rc)
              else
                .done (.lineinfo {
                  offset := payload
                  name := lineName index payload
                  flags :=
                    if r.value.getD 0 = 0 then GPIO_V2_LINE_FLAG_INPUT
                    else GPIO_V2_LINE_FLAG_OUTPUT })
      | .other _ => .done (.status .ENOSYS)
      | _ => .done (.status .ENOTSUP)

/-!
## Calls to the driver
-/

theorem Handler.outcome_ite_done {α : Type} (driver : GpioCall -> GpioResult)
    (p : Prop) [Decidable p] (a b : α) :
    (if p then Handler.done a else Handler.done b).outcome driver =
      ([], if p then a else b) := by
  by_cases hp : p
  · simp only [hp, if_true, Handler.outcome]
  · simp only [hp, if_false, Handler.outcome]

/-- The value that a written byte stands for. -/
def writtenValue (byte : UInt8) : UInt8 :=
  if byte = 0x30 then 0 else 1

theorem resmgrWrite_accepted {ngpio : UInt16} (byte : UInt8) (node : GpioNode ngpio)
    (driver : GpioCall -> GpioResult) :
    (resmgrWrite none 1 (.ok byte) node).outcome driver =
      let r := driver (.setValue node.index.toUInt16 (writtenValue byte))
      ([.setValue node.index.toUInt16 (writtenValue byte)],
        if r.rc = .EOK then .written 1 else .status r.rc) := by
  simp only [resmgrWrite, ne_eq, not_true_eq_false, if_false, Handler.outcome,
    Handler.outcome_ite_done]
  rfl

theorem resmgrWrite_refused {ngpio : UInt16} {verify : Option Failure}
    {nbytes : UInt64} {msgget : Except Failure UInt8}
    (h : verify = none -> nbytes = 1 -> forall byte, msgget ≠ .ok byte)
    (node : GpioNode ngpio) (driver : GpioCall -> GpioResult) :
    exists rc, rc ≠ Rc.EOK ∧
      (resmgrWrite verify nbytes msgget node).outcome driver = ([], .status rc) := by
  cases verify with
  | some f => exact ⟨f.val, f.property, rfl⟩
  | none =>
      by_cases hn : nbytes = 1
      · cases msgget with
        | ok byte => exact absurd rfl (h rfl hn byte)
        | error f =>
            refine ⟨f.val, f.property, ?_⟩
            simp [resmgrWrite, hn, Handler.outcome]
      · refine ⟨.EINVAL, by decide, ?_⟩
        simp [resmgrWrite, hn, Handler.outcome]

/-- What a read asks for and what is left of the file, whichever is less. -/
def GpioOcb.transfer {ngpio : UInt16} (ocb : GpioOcb ngpio) (nbytes : UInt64) :
    UInt64 :=
  min nbytes (ocb.node.nbytes - ocb.offset)

theorem toNat_transfer {ngpio : UInt16} (ocb : GpioOcb ngpio) (nbytes : UInt64) :
    (ocb.transfer nbytes).toNat =
      min nbytes.toNat (ocb.node.nbytes - ocb.offset).toNat := by
  change (if nbytes <= ocb.node.nbytes - ocb.offset then nbytes
    else ocb.node.nbytes - ocb.offset).toNat = _
  by_cases hle : nbytes <= ocb.node.nbytes - ocb.offset
  · rw [if_pos hle, Nat.min_eq_left (UInt64.le_iff_toNat_le.mp hle)]
  · rw [if_neg hle, Nat.min_eq_right]
    exact UInt64.le_iff_toNat_le.mp (UInt64.le_of_lt (UInt64.not_le.mp hle))

theorem transfer_eq_zero_iff {ngpio : UInt16} (ocb : GpioOcb ngpio)
    (nbytes : UInt64) :
    ocb.transfer nbytes = 0 <-> nbytes = 0 ∨ ocb.offset = ocb.node.nbytes := by
  rw [← UInt64.toNat_inj, toNat_transfer, UInt64.toNat_zero, Nat.min_eq_zero_iff,
    ← UInt64.toNat_zero, UInt64.toNat_inj, UInt64.toNat_inj,
    UInt64.sub_eq_iff_eq_add, UInt64.zero_add]
  exact or_congr_right eq_comm

theorem resmgrRead_refused {ngpio : UInt16} (f : Failure) (nbytes : UInt64)
    (ocb : GpioOcb ngpio) (value : UInt8) (driver : GpioCall -> GpioResult) :
    (resmgrRead (some f) nbytes ocb value).outcome driver =
      ([], { reply := .status f.val, offset := ocb.offset, value := value }) := rfl

theorem resmgrRead_empty {ngpio : UInt16} {nbytes : UInt64} {ocb : GpioOcb ngpio}
    (h : ocb.transfer nbytes = 0) (value : UInt8) (driver : GpioCall -> GpioResult) :
    (resmgrRead none nbytes ocb value).outcome driver =
      ([], { reply := .nothing, offset := ocb.offset, value := value }) := by
  have hn : ¬ 0 < min nbytes (ocb.node.nbytes - ocb.offset) := by
    change ¬ 0 < ocb.transfer nbytes
    rw [h]
    exact UInt64.lt_irrefl 0
  simp only [resmgrRead, hn, if_false, Handler.outcome]

theorem resmgrRead_transfer {ngpio : UInt16} {nbytes : UInt64} {ocb : GpioOcb ngpio}
    (h : ocb.transfer nbytes ≠ 0) (value : UInt8) (driver : GpioCall -> GpioResult) :
    (resmgrRead none nbytes ocb value).outcome driver =
      let r := driver (.getValue ocb.node.index.toUInt16)
      let value := r.value.getD value
      ([.getValue ocb.node.index.toUInt16],
        if r.rc ≠ .EOK then
          { reply := .status r.rc, offset := ocb.offset, value := value }
        else
          { reply := .bytes (value + 0x30) (ocb.transfer nbytes)
            offset := ocb.offset + ocb.transfer nbytes
            value := value + 0x30 }) := by
  have hn : 0 < min nbytes (ocb.node.nbytes - ocb.offset) :=
    UInt64.pos_iff_ne_zero.mpr h
  simp only [resmgrRead, hn, if_true, Handler.outcome, Handler.outcome_ite_done]
  rfl

theorem resmgrDevctl_calls (ngpio : UInt16) (index : UInt64) (default : Option Rc)
    (dcmd : GpioCommand) (payload : UInt32) (driver : GpioCall -> GpioResult) :
    ((resmgrDevctl ngpio index default dcmd payload).outcome driver).1 =
      match default, dcmd with
      | none, .v2GetLineinfo =>
          if payload >= ngpio.toUInt32 then [] else [.getDirection payload.toUInt16]
      | _, _ => [] := by
  cases default with
  | some status => rfl
  | none =>
      cases dcmd with
      | v2GetLineinfo =>
          by_cases hp : payload >= ngpio.toUInt32
          · simp only [resmgrDevctl, hp, if_true, Handler.outcome]
          · simp only [resmgrDevctl, hp, if_false, Handler.outcome,
              Handler.outcome_ite_done]
      | _ => rfl

/-!
## The dispatch loop
-/

/-- A message of a client.  `lseek` and `open` go to the default handlers. -/
inductive ResmgrMsg (ngpio : UInt16)
  | open (node : GpioNode ngpio)
  | lseek (fd : Nat) (offset : UInt64)
  | write (fd : Nat) (verify : Option Failure) (nbytes : UInt64)
      (msgget : Except Failure UInt8)
  | read (fd : Nat) (verify : Option Failure) (nbytes : UInt64)
  | devctl (fd : Nat) (default : Option Rc) (dcmd : GpioCommand) (payload : UInt32)

/-- A message, and how the driver answers while it is handled. -/
structure ResmgrInput (ngpio : UInt16) where
  msg : ResmgrMsg ngpio
  driver : GpioCall -> GpioResult

structure ResmgrOutput where
  calls : List GpioCall
  reply : ResmgrReply

/-- The open files, the number of the chip and the values of the attributes. -/
structure Resmgr (ngpio : UInt16) where
  index : UInt64
  ocbs : List (GpioOcb ngpio)
  value : GpioNode ngpio -> UInt8

/-- The state in which the dispatch loop starts. -/
def Resmgr.initial (ngpio : UInt16) (index : UInt64) : Resmgr ngpio where
  index := index
  ocbs := []
  value := fun _ => 0

def Resmgr.setOffset {ngpio : UInt16} (m : Resmgr ngpio) (fd : Nat)
    (offset : UInt64) : Resmgr ngpio :=
  { m with ocbs := m.ocbs.modify fd fun ocb => { ocb with offset := offset } }

/-- `EBADF`: the kernel knows no such file. -/
def Rc.EBADF : Rc := .other 9

def resmgrMachine (ngpio : UInt16) :
    Machine (Resmgr ngpio) (ResmgrInput ngpio) ResmgrOutput where
  step m i :=
    match i.msg with
    | .open node =>
        ({ calls := [], reply := .status .EOK },
          { m with ocbs := m.ocbs ++ [{ node := node, offset := 0 }] })
    | .lseek fd offset =>
        match m.ocbs[fd]? with
        | none => ({ calls := [], reply := .status .EBADF }, m)
        | some _ =>
            if OffsetNonneg offset then
              ({ calls := [], reply := .status .EOK }, m.setOffset fd offset)
            else ({ calls := [], reply := .status .EINVAL }, m)
    | .write fd verify nbytes msgget =>
        match m.ocbs[fd]? with
        | none => ({ calls := [], reply := .status .EBADF }, m)
        | some ocb =>
            let r := (resmgrWrite verify nbytes msgget ocb.node).outcome i.driver
            ({ calls := r.1, reply := r.2 }, m)
    | .read fd verify nbytes =>
        match m.ocbs[fd]? with
        | none => ({ calls := [], reply := .status .EBADF }, m)
        | some ocb =>
            let r := (resmgrRead verify nbytes ocb (m.value ocb.node)).outcome i.driver
            ({ calls := r.1, reply := r.2.reply },
              { m.setOffset fd r.2.offset with
                value := Function.update m.value ocb.node r.2.value })
    | .devctl fd default dcmd payload =>
        match m.ocbs[fd]? with
        | none => ({ calls := [], reply := .status .EBADF }, m)
        | some _ =>
            let r := (resmgrDevctl ngpio m.index default dcmd payload).outcome i.driver
            ({ calls := r.1, reply := r.2 }, m)

section Steps

variable {ngpio : UInt16} {m : Resmgr ngpio} {fd : Nat} {ocb : GpioOcb ngpio}
  (driver : GpioCall -> GpioResult)

theorem step_write (hocb : m.ocbs[fd]? = some ocb) (verify : Option Failure)
    (nbytes : UInt64) (msgget : Except Failure UInt8) :
    (resmgrMachine ngpio).step m ⟨.write fd verify nbytes msgget, driver⟩ =
      let r := (resmgrWrite verify nbytes msgget ocb.node).outcome driver
      ({ calls := r.1, reply := r.2 }, m) := by
  simp only [resmgrMachine, hocb]

theorem step_read (hocb : m.ocbs[fd]? = some ocb) (verify : Option Failure)
    (nbytes : UInt64) :
    (resmgrMachine ngpio).step m ⟨.read fd verify nbytes, driver⟩ =
      let r := (resmgrRead verify nbytes ocb (m.value ocb.node)).outcome driver
      ({ calls := r.1, reply := r.2.reply },
        { m.setOffset fd r.2.offset with
          value := Function.update m.value ocb.node r.2.value }) := by
  simp only [resmgrMachine, hocb]

theorem step_devctl (hocb : m.ocbs[fd]? = some ocb) (default : Option Rc)
    (dcmd : GpioCommand) (payload : UInt32) :
    (resmgrMachine ngpio).step m ⟨.devctl fd default dcmd payload, driver⟩ =
      let r := (resmgrDevctl ngpio m.index default dcmd payload).outcome driver
      ({ calls := r.1, reply := r.2 }, m) := by
  simp only [resmgrMachine, hocb]

end Steps

end QnxVirtio
