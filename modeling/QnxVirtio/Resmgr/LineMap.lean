import QnxVirtio.Gpio.Lines
import QnxVirtio.Resmgr.Lines

/-!
# A map from lines to bits

What the resource manager is for: each line keeps the bit that was written to it last.
Writes of one byte and reads of one byte are served one at a time, each through a file that
was just opened, by a dispatch thread that is the only client of the driver.
-/

namespace QnxVirtio

open Foundation

/-!
## The map
-/

abbrev LineBits : Type :=
  UInt16 -> Bool

/-- A write of one byte to the path of a line, or a read of one byte from it. -/
inductive LineOp (ngpio : UInt16)
  | write (n : UInt16) (attached : n < ngpio) (byte : UInt8)
  | read (n : UInt16) (attached : n < ngpio)

variable {ngpio : UInt16}

/-- The byte '0' stands for a low line, any other byte for a high one. -/
def bitOf (byte : UInt8) : Bool :=
  decide (byte ≠ 0x30)

def charOf (bit : Bool) : UInt8 :=
  if bit then 0x31 else 0x30

/-- The value of a line in requests and responses. -/
def levelOf (bit : Bool) : UInt8 :=
  if bit then 1 else 0

/-- What an operation that succeeds makes of the map. -/
def LineOp.store : LineOp ngpio -> LineBits -> LineBits
  | .write n _ byte, bits => Function.update bits n (bitOf byte)
  | .read _ _, bits => bits

/-- The reply to an operation and the map after it.  An operation that fails leaves the map
as it is. -/
inductive LineStep : LineOp ngpio -> LineBits -> ResmgrReply -> LineBits -> Prop
  | failed {op : LineOp ngpio} {bits : LineBits} {rc : Rc} :
      rc ≠ .EOK -> LineStep op bits (.status rc) bits
  | written {n : UInt16} {attached : n < ngpio} {byte : UInt8} {bits : LineBits} :
      LineStep (.write n attached byte) bits (.written 1)
        (Function.update bits n (bitOf byte))
  | delivered {n : UInt16} {attached : n < ngpio} {bits : LineBits} :
      LineStep (.read n attached) bits (.bytes (charOf (bits n)) 1) bits

/-!
## The handlers
-/

namespace LineOp

def node : LineOp ngpio -> GpioNode ngpio
  | .write n attached _ => .line n attached
  | .read n attached => .line n attached

def message (fd : Nat) : LineOp ngpio -> ResmgrMsg ngpio
  | .write _ _ byte => .write fd none 1 (.ok byte)
  | .read _ _ => .read fd none 1

/-- The call that the handler makes. -/
def call : LineOp ngpio -> GpioCall
  | .write n _ byte => .setValue n (writtenValue byte)
  | .read n _ => .getValue n

/-- The path is opened and the message is handled through this file, when the driver
answers like this. -/
def serve (op : LineOp ngpio) (m : Resmgr ngpio) (r : GpioResult) :
    ResmgrOutput × Resmgr ngpio :=
  let opened := (resmgrMachine ngpio).step m ⟨.open op.node, fun _ => r⟩
  (resmgrMachine ngpio).step opened.2 ⟨op.message m.ocbs.length, fun _ => r⟩

theorem opened_ocb (op : LineOp ngpio) (m : Resmgr ngpio) (r : GpioResult) :
    ((resmgrMachine ngpio).step m ⟨.open op.node, fun _ => r⟩).2.ocbs[m.ocbs.length]? =
      some { node := op.node, offset := 0 } :=
  List.getElem?_concat_length

theorem serve_write (n : UInt16) (attached : n < ngpio) (byte : UInt8)
    (m : Resmgr ngpio) (r : GpioResult) :
    ((LineOp.write n attached byte).serve m r).1 =
      { calls := [.setValue n (writtenValue byte)]
        reply := if r.rc = .EOK then .written 1 else .status r.rc } := by
  have hstep := step_write (fun _ => r) (opened_ocb (.write n attached byte) m r) none 1
    (.ok byte)
  unfold serve message
  rw [hstep, resmgrWrite_accepted]
  dsimp only [node]
  rw [line_index]

theorem transfer_opened (n : UInt16) (attached : n < ngpio) :
    ({ node := .line n attached, offset := 0 } : GpioOcb ngpio).transfer 1 = 1 := by
  change min (1 : UInt64) (1 - 0) = 1
  decide

theorem serve_read (n : UInt16) (attached : n < ngpio) (m : Resmgr ngpio)
    (r : GpioResult) :
    ((LineOp.read n attached).serve m r).1 =
      { calls := [.getValue n]
        reply := if r.rc = .EOK then
            .bytes (r.value.getD (m.value (.line n attached)) + 0x30) 1
          else .status r.rc } := by
  have hstep := step_read (fun _ => r) (opened_ocb (.read n attached) m r) none 1
  have htransfer : ({ node := .line n attached, offset := 0 } : GpioOcb ngpio).transfer 1 ≠
      0 := by
    rw [transfer_opened]
    decide
  unfold serve message
  rw [hstep]
  dsimp only [node]
  rw [resmgrRead_transfer htransfer, transfer_opened, line_index]
  by_cases hok : r.rc = .EOK
  · simp only [hok, ne_eq, not_true_eq_false, if_false, if_true]
    rfl
  · simp only [hok, ne_eq, not_false_eq_true, if_false, if_true]

theorem serve_calls (op : LineOp ngpio) (m : Resmgr ngpio) (r : GpioResult) :
    (op.serve m r).1.calls = [op.call] := by
  cases op with
  | write n attached byte => rw [serve_write, call]
  | read n attached => rw [serve_read, call]

theorem serve_failed {op : LineOp ngpio} {m : Resmgr ngpio} {r : GpioResult}
    (hrc : r.rc ≠ .EOK) : (op.serve m r).1.reply = .status r.rc := by
  cases op with
  | write n attached byte => rw [serve_write, if_neg hrc]
  | read n attached => rw [serve_read, if_neg hrc]

/-- The value that a response to the call reports while the lines are these bits. -/
def Reports (op : LineOp ngpio) (bits : LineBits) (value : UInt8) : Prop :=
  forall n attached, op = .read n attached -> value = levelOf (bits n)

theorem levelOf_add (bit : Bool) : levelOf bit + 0x30 = charOf bit := by
  cases bit with
  | false => rfl
  | true => rfl

theorem serve_succeeded {op : LineOp ngpio} {bits : LineBits} {a : GpioAnswer}
    (hok : a.status = VIRTIO_GPIO_STATUS_OK) (hreports : op.Reports bits a.value)
    (m : Resmgr ngpio) : LineStep op bits (op.serve m (op.call.resultOf a)).1.reply
      (op.store bits) := by
  have hrc : (op.call.resultOf a).rc = .EOK := if_pos hok
  cases op with
  | write n attached byte =>
      rw [serve_write, if_pos hrc]
      exact LineStep.written
  | read n attached =>
      rw [serve_read, if_pos hrc]
      change LineStep _ _ (.bytes (a.value + 0x30) 1) bits
      rw [hreports n attached rfl, levelOf_add]
      exact LineStep.delivered

end LineOp

/-!
## The device
-/

/-- The device stores these bits. -/
def GpioLines.Holds (ngpio : UInt16) (s : GpioLines) (bits : LineBits) : Prop :=
  forall n, n < ngpio -> s.value n.toNat = levelOf (bits n)

theorem toUInt8_writtenValue (byte : UInt8) :
    (writtenValue byte).toUInt16.toUInt32.toUInt8 = levelOf (bitOf byte) := by
  unfold writtenValue bitOf levelOf
  by_cases hbyte : byte = 0x30
  · simp [hbyte]
  · simp [hbyte]

/-- A device that grants the request of an operation stores and reports what the map
says. -/
theorem GpioLines.Holds.granted {s : GpioLines} {bits : LineBits} {op : LineOp ngpio}
    {a : GpioAnswer} (h : s.Holds ngpio bits) (hgrants : s.Grants ngpio a)
    (hrequest : a.request = op.call.request) :
    (s.apply a.request).Holds ngpio (op.store bits) ∧ op.Reports bits a.value := by
  rw [hrequest]
  cases op with
  | write n attached byte =>
      constructor
      · intro k hk
        change Function.update s.value n.toNat
          (writtenValue byte).toUInt16.toUInt32.toUInt8 k.toNat =
            levelOf (Function.update bits n (bitOf byte) k)
        by_cases hkn : k = n
        · subst hkn
          rw [Function.update_self, Function.update_self, toUInt8_writtenValue]
        · have hne : k.toNat ≠ n.toNat := fun heq => hkn (UInt16.toNat_inj.mp heq)
          rw [Function.update_of_ne hne, Function.update_of_ne hkn]
          exact h k hk
      · intro k hk heq
        cases heq
  | read n attached =>
      constructor
      · exact h
      · intro k hk heq
        cases heq
        have hresponse := hgrants.response
        rw [hrequest] at hresponse
        exact hresponse.trans (h n attached)

/-!
## Runs
-/

/-- The requests `ops` are served one after the other, with these results of the driver:
each handler makes the one call of its operation, and what it replies is what the map
allows. -/
inductive LineRun (ops : Nat -> LineOp ngpio) (m₀ : Resmgr ngpio) (bits₀ : LineBits) :
    List GpioReturn -> Resmgr ngpio -> LineBits -> Prop
  | start : LineRun ops m₀ bits₀ [] m₀ bits₀
  | next {returns : List GpioReturn} {m : Resmgr ngpio} {bits bits' : LineBits}
      {r : GpioReturn} :
      LineRun ops m₀ bits₀ returns m bits ->
      ((ops returns.length).serve m r.result).1.calls = [r.call] ->
      LineStep (ops returns.length) bits
        ((ops returns.length).serve m r.result).1.reply bits' ->
      LineRun ops m₀ bits₀ (returns ++ [r])
        ((ops returns.length).serve m r.result).2 bits'

section Replies

variable {ops : Nat -> LineOp ngpio} {m₀ m : Resmgr ngpio} {op : LineOp ngpio}
  {bits₀ bits bits' : LineBits} {returns : List GpioReturn} {r : GpioReturn}

theorem LineRun.last (h : LineRun ops m₀ bits₀ (returns ++ [r]) m bits') :
    exists m bits, LineRun ops m₀ bits₀ returns m bits ∧
      LineStep (ops returns.length) bits
        ((ops returns.length).serve m r.result).1.reply bits' := by
  generalize hreturns : returns ++ [r] = all at h
  cases h with
  | start => cases returns <;> cases hreturns
  | next hrun _ hstep =>
      rcases List.append_inj' hreturns rfl with ⟨rfl, hlast⟩
      cases hlast
      exact ⟨_, _, hrun, hstep⟩

theorem LineStep.of_written {n : UInt16} {attached : n < ngpio} {byte : UInt8}
    {r : GpioResult} (hrc : r.rc = .EOK) (h : LineStep (.write n attached byte) bits
      ((LineOp.write n attached byte).serve m r).1.reply bits') :
    bits' = Function.update bits n (bitOf byte) := by
  rw [LineOp.serve_write, if_pos hrc] at h
  cases h
  rfl

theorem LineStep.of_failed {r : GpioResult} (hrc : r.rc ≠ .EOK)
    (h : LineStep op bits (op.serve m r).1.reply bits') : bits' = bits := by
  rw [LineOp.serve_failed hrc] at h
  cases h
  rfl

theorem LineStep.of_read {n : UInt16} {attached : n < ngpio} {r : GpioResult}
    {value : UInt8} (hrc : r.rc = .EOK) (hvalue : r.value = some value)
    (h : LineStep (.read n attached) bits
      ((LineOp.read n attached).serve m r).1.reply bits') :
    value + 0x30 = charOf (bits n) := by
  rw [LineOp.serve_read, if_pos hrc, hvalue] at h
  generalize hchar : (some value).getD (m.value (.line n attached)) + 0x30 = char at h
  cases h
  exact hchar

end Replies

/-- The requests served so far were answered as the map allows.  The device stores the map,
or what the operation in progress makes of it when its request has been granted. -/
def RefinesBits (index : UInt64) (ops : Nat -> LineOp ngpio) (bits₀ : LineBits)
    (s : GpioLines) (w : GpioSystem) : Prop :=
  exists m bits, LineRun ops (Resmgr.initial ngpio index) bits₀ w.returns m bits ∧
    ((s.after w.answers).Holds ngpio bits ∨
      (exists a, a ∈ w.answers ∧ w.Answers ⟨0, w.returns.length⟩ a ∧
        a.status = VIRTIO_GPIO_STATUS_OK) ∧
      (s.after w.answers).Holds ngpio ((ops w.returns.length).store bits))

/-- The dispatch thread, which serves `ops`, is client 0, and there is no other client. -/
def dispatchThread (transport : Transport) (config : VirtioGpioConfig)
    (ops : Nat -> LineOp ngpio) : GpioThread -> Prog Env GpioSystem Unit
  | .client 0 => gpioClient config 0 fun k => (ops k).call
  | .client (_ + 1) => Prog.ret ()
  | .ist => virtioIst transport

def dispatchPool (transport : Transport) (config : VirtioGpioConfig) (obj : VirtqObject)
    (mem : Memory) (ops : Nat -> LineOp ngpio) : Pool GpioThread Env GpioSystem where
  state := obj.gpioSystem mem
  thread := dispatchThread transport config ops

/-- The states that runs of the dispatch loop reach. -/
def DispatchReachable (mode : GpioMode) (transport : Transport)
    (config : VirtioGpioConfig) (obj : VirtqObject) (mem : Memory)
    (ops : Nat -> LineOp ngpio) (w : GpioSystem) : Prop :=
  exists c, Pool.Reachable gpioEnv (gpioOk mode)
    (dispatchPool transport config obj mem ops) c ∧ c.state = w

end QnxVirtio
