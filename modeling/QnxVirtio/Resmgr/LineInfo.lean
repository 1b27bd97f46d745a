import QnxVirtio.Gpio.Allocations
import QnxVirtio.Gpio.Lines
import QnxVirtio.Resmgr.Lines

/-!
# Line information

A line query asks the device for the direction of the line and answers with a flag.  The
header of the driver says that direction 0 is an input; the device says that 2 is.
-/

namespace QnxVirtio

open Foundation

/-- The calls and the reply of a line query, when the driver's answer is `r`. -/
def lineQuery (ngpio : UInt16) (index : UInt64) (offset : UInt32) (r : GpioResult) :
    List GpioCall × ResmgrReply :=
  (resmgrDevctl ngpio index none .v2GetLineinfo offset).outcome fun _ => r

/-- A reply with line information carries the offset that was asked for and the flag of
the direction. -/
structure ReflectsDirection (offset : UInt32) (direction : UInt8) (info : GpioV2LineInfo) :
    Prop where
  offset : info.offset = offset
  input : info.flags &&& GPIO_V2_LINE_FLAG_INPUT ≠ 0 <->
    direction = VIRTIO_GPIO_DIRECTION_IN
  output : info.flags &&& GPIO_V2_LINE_FLAG_OUTPUT ≠ 0 <->
    direction = VIRTIO_GPIO_DIRECTION_OUT

/-- Lines that do not exist are refused without a request, and only these; the others
are reported as the device has them. -/
structure ReflectsLine (ngpio : UInt16) (index : UInt64) (offset : UInt32)
    (r : GpioResult) (direction : UInt8) : Prop where
  missing : ((lineQuery ngpio index offset r).2 = .status .ENOENT ∧
    ((lineQuery ngpio index offset r).1 = [] ∨ r.waited = false)) <->
      ngpio.toNat <= offset.toNat
  info : forall info, (lineQuery ngpio index offset r).2 = .lineinfo info ->
    ReflectsDirection offset direction info

variable {ngpio : UInt16} {index : UInt64} {offset : UInt32} {r : GpioResult}
  {direction : UInt8}

theorem lineQuery_missing (h : ngpio.toNat <= offset.toNat) :
    lineQuery ngpio index offset r = ([], .status .ENOENT) := by
  simp only [lineQuery, resmgrDevctl, line_query_ge h, if_true, Handler.outcome]

theorem lineQuery_present (h : offset.toNat < ngpio.toNat) :
    lineQuery ngpio index offset r = ([.getDirection offset.toUInt16],
      if r.rc ≠ .EOK then .status r.rc
      else .lineinfo {
        offset := offset
        name := lineName index offset
        flags := if r.value.getD 0 = 0 then GPIO_V2_LINE_FLAG_INPUT
          else GPIO_V2_LINE_FLAG_OUTPUT }) := by
  have hlt : ¬ offset >= ngpio.toUInt32 := by
    rw [ge_iff_le, UInt32.le_iff_toNat_le, UInt16.toNat_toUInt32]
    exact Nat.not_le.mpr h
  simp only [lineQuery, resmgrDevctl, hlt, if_false, Handler.outcome,
    Handler.outcome_ite_done]

theorem reflectsDirection_iff {name : String} :
    ReflectsDirection offset direction {
      offset := offset
      name := name
      flags := if direction = 0 then GPIO_V2_LINE_FLAG_INPUT
        else GPIO_V2_LINE_FLAG_OUTPUT } <-> direction = VIRTIO_GPIO_DIRECTION_OUT := by
  constructor
  · intro h
    apply h.output.mp
    by_cases hzero : direction = 0
    · -- an input flag is set, so the direction would be 2
      have hinput := h.input.mp (by
        rw [if_pos hzero]
        dsimp only
        decide)
      rw [hzero] at hinput
      cases hinput
    · rw [if_neg hzero]
      dsimp only
      decide
  · rintro rfl
    constructor
    · rfl
    · dsimp only
      decide
    · dsimp only
      decide

theorem reflectsLine_iff (h : offset.toNat < ngpio.toNat)
    (hvalue : r.rc = .EOK -> r.value = some direction) :
    ReflectsLine ngpio index offset r direction <->
      (r.rc = .ENOENT -> r.waited = true) ∧
        (r.rc = .EOK -> direction = VIRTIO_GPIO_DIRECTION_OUT) := by
  by_cases hok : r.rc = .EOK
  · have hquery : lineQuery ngpio index offset r = ([.getDirection offset.toUInt16],
        .lineinfo {
          offset := offset
          name := lineName index offset
          flags := if direction = 0 then GPIO_V2_LINE_FLAG_INPUT
            else GPIO_V2_LINE_FLAG_OUTPUT }) := by
      rw [lineQuery_present h, if_neg (not_not.mpr hok), hvalue hok]
      rfl
    constructor
    · intro hreflects
      constructor
      · intro hnoent
        rw [hok] at hnoent
        cases hnoent
      · intro _
        exact reflectsDirection_iff.mp (hreflects.info _ (by rw [hquery]))
    · rintro ⟨_, hdirection⟩
      constructor
      · rw [hquery]
        apply iff_of_false
        · rintro ⟨hreply, _⟩
          cases hreply
        · exact Nat.not_le.mpr h
      · intro info hinfo
        rw [hquery] at hinfo
        cases hinfo
        exact reflectsDirection_iff.mpr (hdirection hok)
  · have hquery : lineQuery ngpio index offset r =
        ([.getDirection offset.toUInt16], .status r.rc) := by
      rw [lineQuery_present h, if_pos hok]
    constructor
    · intro hreflects
      constructor
      · intro hnoent
        by_contra hwaited
        have hle := hreflects.missing.mp (by
          rw [hquery, hnoent]
          exact ⟨rfl, Or.inr (Bool.eq_false_iff.mpr hwaited)⟩)
        exact absurd h (Nat.not_lt.mpr hle)
      · exact fun hok' => absurd hok' hok
    · rintro ⟨hwaited, _⟩
      constructor
      · rw [hquery]
        apply iff_of_false
        · rintro ⟨hreply, hnone | hnone⟩
          · cases hnone
          · rw [hwaited (ResmgrReply.status.inj hreply)] at hnone
            cases hnone
        · exact Nat.not_le.mpr h
      · intro info hinfo
        rw [hquery] at hinfo
        cases hinfo

theorem reflectsLine_missing (h : ngpio.toNat <= offset.toNat) :
    ReflectsLine ngpio index offset r direction := by
  constructor
  · rw [lineQuery_missing h]
    exact iff_of_true ⟨rfl, Or.inl rfl⟩ h
  · intro info hinfo
    rw [lineQuery_missing h] at hinfo
    cases hinfo

theorem toNat_toUInt16_of_lt (h : offset.toNat < ngpio.toNat) :
    offset.toUInt16.toNat = offset.toNat := by
  rw [UInt32.toNat_toUInt16]
  exact Nat.mod_eq_of_lt (Nat.lt_trans h ngpio.toNat_lt)

/-!
## Runs
-/

/-- A line query that the driver serves with the call `r` reflects the device exactly
when no allocation of the call found nothing and a line that exists is an output, if the
device granted the request. -/
theorem lineinfo_reflects_iff {transport : Transport} {config : VirtioGpioConfig}
    {scripts : Nat -> Nat -> GpioCall} {size : Nat} {legacy : Bool} {h h' : Host}
    {rc : Rc} {obj : VirtqObject} {w : WatchedAllocs} (hsize : exists k, size = 2 ^ k)
    (hcreate : Prog.Runs (fun _ => True) h (virtqCreate size legacy) (rc, some obj) h')
    (hreach : AllocReachable uninterruptedRuns transport config obj h'.mem scripts w)
    {ngpio : UInt16} {s : GpioLines} (hconform : Conforming ngpio s w.state.answers)
    {r : GpioReturn} (hr : r ∈ w.state.returns) {index : UInt64} {offset : UInt32}
    (hserves : forall c, c ∈ (lineQuery ngpio index offset r.result).1 -> r.call = c) :
    ReflectsLine ngpio index offset r.result
        ((w.state.linesFor s r.context).direction offset.toNat) <->
      ngpio.toNat <= offset.toNat ∨
        (¬ Starved w.events r.context ∧
          (w.state.Granted r.context -> (w.state.linesFor s r.context).direction offset.toNat =
            VIRTIO_GPIO_DIRECTION_OUT)) := by
  rcases Nat.lt_or_ge offset.toNat ngpio.toNat with hlt | hge
  · have hcall : r.call = .getDirection offset.toUInt16 := by
      apply hserves
      rw [lineQuery_present hlt]
      exact List.mem_singleton_self _
    have hvalue : r.result.rc = .EOK -> r.result.value =
        some ((w.state.linesFor s r.context).direction offset.toNat) := by
      intro hok
      rcases granted_of_returned hsize hcreate hreach.gpio hconform hr hok with
        ⟨a, hrequest, hresult, hgrants⟩
      rw [hresult, hcall]
      have hresponse := hgrants.response
      rw [hrequest, hcall] at hresponse
      rw [← toNat_toUInt16_of_lt hlt]
      exact congrArg some hresponse
    have hsent : (r.result.rc = .ENOENT -> r.result.waited = true) <->
        ¬ Starved w.events r.context := by
      rw [← hreach.unsent_iff hr, ← Bool.not_eq_false]
      exact not_and.symm
    rw [reflectsLine_iff hlt hvalue, hsent,
      succeeded_iff_granted hsize hcreate hreach.gpio hr]
    exact (or_iff_right (Nat.not_le.mpr hlt)).symm
  · exact iff_of_true (reflectsLine_missing hge) (Or.inl hge)

/-- A client makes line 3 an output, or not, and asks for its direction after that. -/
def queryScripts (direction : UInt8) (_ n : Nat) : GpioCall :=
  if n = 0 then .setDirection 3 direction else .getDirection 3

def poolQueries (direction : UInt8) : Pool GpioThread Env GpioSystem :=
  gpioPool .mmio configEight queueTwo createdTwo.2.mem (queryScripts direction)

/-- A call of client 0 whose chain has this position.  The device grants it with a value,
and then the interrupt thread and the client take so many steps. -/
def queryRoundMoves (pos : Nat) (value : UInt8) (served returned : Nat) : List GpioMove :=
  submitMoves ++ [.env .take, .env (.answer pos 0 value), .env (.store pos 2), .env .bump,
    .env .raiseVirtq] ++ interruptMoves served ++
    List.replicate returned (.thread (.client 0) {})

def queryMoves (direction : UInt8) : List GpioMove :=
  queryRoundMoves 0 0 44 4 ++ queryRoundMoves 1 direction 41 5

theorem queryMoves_steady (direction : UInt8) :
    (queryMoves direction).all steadyMove = true := by
  have hfirst : (queryRoundMoves 0 0 44 4).all steadyMove = true := rfl
  have hsecond : (queryRoundMoves 1 direction 41 5).all steadyMove = true := rfl
  rw [queryMoves, List.all_append, hfirst, hsecond]
  rfl

def queryReturn (direction : UInt8) : GpioReturn where
  context := ⟨0, 1⟩
  call := .getDirection 3
  result := { rc := .EOK, value := some direction, waited := true }

/-- The device grants this request at this position. -/
def acceptedAnswer (pos : Nat) (call : GpioCall) (value : UInt8) : GpioAnswer where
  pos := pos
  request := call.request
  status := VIRTIO_GPIO_STATUS_OK
  value := value

def queryAnswers (direction : UInt8) : List GpioAnswer :=
  [acceptedAnswer 0 (.setDirection 3 direction) 0,
    acceptedAnswer 1 (.getDirection 3) direction]

/-- All lines have this direction. -/
def linesAt (direction : UInt8) : GpioLines where
  direction := fun _ => direction
  value := fun _ => 0

theorem queryAnswers_conforming {direction : UInt8}
    (hdirection : direction ∈ [VIRTIO_GPIO_DIRECTION_NONE, VIRTIO_GPIO_DIRECTION_OUT,
      VIRTIO_GPIO_DIRECTION_IN]) : Conforming 8 (linesAt 2) (queryAnswers direction) := by
  have hset : (linesAt 2).Grants 8 (acceptedAnswer 0 (.setDirection 3 direction) 0) := by
    constructor
    · exact show (3 : UInt16) < 8 by decide
    · intro _
      change direction.toUInt16.toUInt32.toUInt8 ∈ _
      simpa using hdirection
    · rfl
  have hafter : ((linesAt 2).after [acceptedAnswer 0 (.setDirection 3 direction) 0]).direction 3 =
      direction := by
    change Function.update (linesAt 2).direction 3 direction.toUInt16.toUInt32.toUInt8 3 = _
    rw [Function.update_self]
    simp
  change Conforming 8 (linesAt 2) ([_] ++ [_])
  refine conforming_concat_iff.mpr ⟨conforming_singleton hset, fun _ => ?_⟩
  constructor
  · exact show (3 : UInt16) < 8 by decide
  · exact fun hset => absurd hset
      (show VIRTIO_GPIO_MSG_GET_DIRECTION ≠ VIRTIO_GPIO_MSG_SET_DIRECTION by decide)
  · exact hafter.symm

theorem exists_query (direction : UInt8)
    (hdirection : direction ∈ [VIRTIO_GPIO_DIRECTION_NONE, VIRTIO_GPIO_DIRECTION_OUT,
      VIRTIO_GPIO_DIRECTION_IN])
    (h : (((poolQueries direction).run gpioEnv (queryMoves direction)).any fun c => decide
      (queryReturn direction ∈ c.state.returns ∧ c.state.answers = queryAnswers direction ∧
        (c.state.linesFor (linesAt 2) ⟨0, 1⟩).direction 3 = direction)) = true) :
    exists w, AllocReachable uninterruptedRuns .mmio configEight queueTwo createdTwo.2.mem
        (queryScripts direction) w ∧
      queryReturn direction ∈ w.state.returns ∧
      Conforming 8 (linesAt 2) w.state.answers ∧
        (w.state.linesFor (linesAt 2) ⟨0, 1⟩).direction 3 = direction := by
  cases hrun : (poolQueries direction).run gpioEnv (queryMoves direction) with
  | none =>
      rw [hrun] at h
      cases h
  | some c =>
      rw [hrun] at h
      rcases of_decide_eq_true h with ⟨hreturns, hanswers, hlines⟩
      have hreach : GpioReachable uninterruptedRuns .mmio configEight queueTwo
          createdTwo.2.mem (queryScripts direction) c.state := by
        refine ⟨c, Pool.reachable_run Pool.Reachable.refl (fun move hmove w => ?_) hrun, rfl⟩
        refine gpioOk_of_steady _ ?_ w
        exact List.all_eq_true.mp (queryMoves_steady direction) move hmove
      rcases allocReachable_iff.mp hreach with ⟨log, hlog⟩
      refine ⟨⟨c.state, log⟩, hlog, hreturns, ?_, hlines⟩
      rw [hanswers]
      exact queryAnswers_conforming hdirection

/-- A line that was made an output is reported as one. -/
theorem lineinfo_reflects_output : exists (w : WatchedAllocs) (r : GpioReturn),
    r ∈ w.state.returns ∧ r.result.rc = .EOK ∧
      ReflectsLine 8 0 3 r.result ((w.state.linesFor (linesAt 2) r.context).direction 3) := by
  rcases exists_query 1 (by decide) (by decide +kernel) with
    ⟨w, hreach, hr, hconform, hdirection⟩
  refine ⟨w, queryReturn 1, hr, rfl, ?_⟩
  refine (lineinfo_reflects_iff ⟨1, rfl⟩ queueTwo_created hreach hconform hr ?_).mpr ?_
  · intro c hc
    exact (List.mem_singleton.mp hc).symm
  · refine Or.inr ⟨?_, fun _ => hdirection⟩
    rw [← hreach.unsent_iff hr]
    exact fun hunsent => by cases hunsent.1

/-- A line that is an input is reported as an output. -/
theorem lineinfo_misreports_input :
    ¬ forall (w : WatchedAllocs) (s : GpioLines) (r : GpioReturn),
      AllocReachable uninterruptedRuns .mmio configEight queueTwo createdTwo.2.mem
        (queryScripts 2) w ->
      Conforming 8 s w.state.answers -> r ∈ w.state.returns -> r.call = .getDirection 3 ->
        ReflectsLine 8 0 3 r.result ((w.state.linesFor s r.context).direction 3) := by
  intro hall
  rcases exists_query 2 (by decide) (by decide +kernel) with
    ⟨w, hreach, hr, hconform, hdirection⟩
  have hreflects := hall w _ _ hreach hconform hr rfl
  have hinfo := hreflects.info _ rfl
  have hinput := hinfo.output.mp (by decide)
  rw [show (queryReturn 2).context = ⟨0, 1⟩ from rfl, hdirection] at hinput
  cases hinput

end QnxVirtio
