import QnxVirtio.Gpio.Routing
import QnxVirtio.Gpio.Untouched

/-!
# The lines of a conforming device

A device keeps a direction and a value for each line.  What it grants changes or reports
the line that the request names; what it refuses changes nothing.  Its lines are a
function of the history of its answers.
-/

namespace QnxVirtio

open Foundation

deriving instance DecidableEq for GpioCall, GpioResult, GpioReturn, GpioAnswer

def VIRTIO_GPIO_DIRECTION_NONE : UInt8 := 0x00
def VIRTIO_GPIO_DIRECTION_OUT : UInt8 := 0x01
def VIRTIO_GPIO_DIRECTION_IN : UInt8 := 0x02

structure GpioLines where
  direction : Nat -> UInt8
  value : Nat -> UInt8

namespace GpioLines

/-- The lines after a request that is granted. -/
def apply (s : GpioLines) (r : VirtioGpioRequest) : GpioLines :=
  if r.type = VIRTIO_GPIO_MSG_SET_DIRECTION then
    { s with direction := Function.update s.direction r.gpio.toNat r.value.toUInt8 }
  else if r.type = VIRTIO_GPIO_MSG_SET_VALUE then
    { s with value := Function.update s.value r.gpio.toNat r.value.toUInt8 }
  else s

/-- The value in the response to a request that is granted. -/
def response (s : GpioLines) (r : VirtioGpioRequest) : UInt8 :=
  if r.type = VIRTIO_GPIO_MSG_GET_DIRECTION then s.direction r.gpio.toNat
  else if r.type = VIRTIO_GPIO_MSG_GET_VALUE then s.value r.gpio.toNat
  else 0

def afterAnswer (s : GpioLines) (a : GpioAnswer) : GpioLines :=
  if a.status = VIRTIO_GPIO_STATUS_OK then s.apply a.request else s

/-- The lines after a history. -/
def after (s : GpioLines) (answers : List GpioAnswer) : GpioLines :=
  answers.foldl afterAnswer s

theorem after_concat (s : GpioLines) (answers : List GpioAnswer) (a : GpioAnswer) :
    s.after (answers ++ [a]) = (s.after answers).afterAnswer a :=
  List.foldl_concat ..

end GpioLines

/-- A conforming device grants a request only for a line that it has, and a direction only
if there is one of this code; it responds from its lines. -/
structure GpioLines.Grants (ngpio : UInt16) (s : GpioLines) (a : GpioAnswer) : Prop where
  line : a.request.gpio < ngpio
  direction : a.request.type = VIRTIO_GPIO_MSG_SET_DIRECTION ->
    a.request.value.toUInt8 ∈ [VIRTIO_GPIO_DIRECTION_NONE, VIRTIO_GPIO_DIRECTION_OUT,
      VIRTIO_GPIO_DIRECTION_IN]
  response : a.value = s.response a.request

/-- All answers are those of a conforming device that starts with lines `s`. -/
def Conforming (ngpio : UInt16) (s : GpioLines) (answers : List GpioAnswer) : Prop :=
  forall k a, answers[k]? = some a -> a.status = VIRTIO_GPIO_STATUS_OK ->
    (s.after (answers.take k)).Grants ngpio a

theorem conforming_nil (ngpio : UInt16) (s : GpioLines) : Conforming ngpio s [] := by
  intro k a hget
  cases hget

theorem conforming_concat_iff {ngpio : UInt16} {s : GpioLines} {answers : List GpioAnswer}
    {a : GpioAnswer} : Conforming ngpio s (answers ++ [a]) <->
      Conforming ngpio s answers ∧
        (a.status = VIRTIO_GPIO_STATUS_OK -> (s.after answers).Grants ngpio a) := by
  constructor
  · intro h
    constructor
    · intro k a' hget hstatus
      have hlt := (List.getElem?_eq_some_iff.mp hget).1
      have hgrants := h k a' (by rw [List.getElem?_append_left hlt, hget]) hstatus
      rwa [List.take_append_of_le_length (Nat.le_of_lt hlt)] at hgrants
    · intro hstatus
      have hgrants := h answers.length a List.getElem?_concat_length hstatus
      rwa [List.take_left] at hgrants
  · rintro ⟨h, hlast⟩ k a' hget hstatus
    rcases getElem?_concat_eq_some_iff.mp hget with hold | ⟨rfl, rfl⟩
    · have hlt := (List.getElem?_eq_some_iff.mp hold).1
      rw [List.take_append_of_le_length (Nat.le_of_lt hlt)]
      exact h k a' hold hstatus
    · rw [List.take_left]
      exact hlast hstatus

theorem conforming_singleton {ngpio : UInt16} {s : GpioLines} {a : GpioAnswer}
    (h : s.Grants ngpio a) : Conforming ngpio s [a] :=
  conforming_concat_iff.mpr ⟨conforming_nil ngpio s, fun _ => h⟩

/-!
## The answer to a call
-/

/-- The answer is the one to the chain that was published with this context. -/
def GpioSystem.Answers (w : GpioSystem) (ptr : ContextPtr) (a : GpioAnswer) : Prop :=
  (w.queue.published[a.pos]?).bind Published.context = some ptr

instance (w : GpioSystem) (ptr : ContextPtr) (a : GpioAnswer) :
    Decidable (w.Answers ptr a) :=
  inferInstanceAs (Decidable (_ = _))

/-- How many requests the device answered before that of this call. -/
def GpioSystem.answersBefore (w : GpioSystem) (ptr : ContextPtr) : Nat :=
  w.answers.findIdx fun a => decide (w.Answers ptr a)

/-- The lines as they were when the device answered this call. -/
def GpioSystem.linesFor (w : GpioSystem) (s : GpioLines) (ptr : ContextPtr) : GpioLines :=
  s.after (w.answers.take (w.answersBefore ptr))

theorem Routing.answersBefore {w : GpioSystem} (h : Routing w) {ptr : ContextPtr}
    {a : GpioAnswer} (ha : a ∈ w.answers) (hanswers : w.Answers ptr a) :
    w.answers[w.answersBefore ptr]? = some a := by
  have hlt : w.answersBefore ptr < w.answers.length :=
    List.findIdx_lt_length_of_exists ⟨a, ha, decide_eq_true hanswers⟩
  have hfound : w.Answers ptr w.answers[w.answersBefore ptr] :=
    of_decide_eq_true (List.findIdx_getElem (w := hlt))
  rcases Option.bind_eq_some_iff.mp hanswers with ⟨p, hp, hcontext⟩
  rcases Option.bind_eq_some_iff.mp hfound with ⟨p', hp', hcontext'⟩
  have hpos := h.own _ _ p' p hp' hp (hcontext'.trans hcontext.symm)
  rw [List.getElem?_eq_getElem hlt]
  exact congrArg some
    (List.inj_on_of_nodup_map h.answeredOnce (List.getElem_mem hlt) ha hpos)

/-- The device answered the request of this call with success. -/
def GpioSystem.Granted (w : GpioSystem) (ptr : ContextPtr) : Prop :=
  exists a, a ∈ w.answers ∧ w.Answers ptr a ∧ a.status = VIRTIO_GPIO_STATUS_OK

theorem GpioCall.resultOf_rc_iff (call : GpioCall) (a : GpioAnswer) :
    (call.resultOf a).rc = .EOK <-> a.status = VIRTIO_GPIO_STATUS_OK := by
  constructor
  · intro hok
    by_contra hrefused
    simp only [GpioCall.resultOf, if_neg hrefused] at hok
    cases hok
  · exact fun hstatus => if_pos hstatus

theorem succeeded_iff_granted {transport : Transport} {config : VirtioGpioConfig}
    {scripts : Nat -> Nat -> GpioCall} {size : Nat} {legacy : Bool} {h h' : Host}
    {rc : Rc} {obj : VirtqObject} {w : GpioSystem} (hsize : exists k, size = 2 ^ k)
    (hcreate : Prog.Runs (fun _ => True) h (virtqCreate size legacy) (rc, some obj) h')
    (hreach : GpioReachable uninterruptedRuns transport config obj h'.mem scripts w)
    {r : GpioReturn} (hr : r ∈ w.returns) :
    r.result.rc = .EOK <-> w.Granted r.context := by
  rcases hreach.inv hsize hcreate with ⟨gs, fl, hinv⟩
  have hreturn := (hinv.context rfl).returns r hr
  have hrouting := hinv.routing rfl rfl
  constructor
  · intro hok
    rcases hreturn.routed rfl (hreach.awaited hr hok) with
      ⟨pos, p, a, hp, hcontext, ha, hpos, hresult⟩
    have hanswers : w.Answers r.context a := by
      change (w.queue.published[a.pos]?).bind Published.context = some r.context
      rw [hpos, hp]
      exact hcontext
    rw [hresult] at hok
    exact ⟨a, ha, hanswers, (r.call.resultOf_rc_iff a).mp hok⟩
  · intro hgranted
    rcases hgranted with ⟨a, ha, hanswers, hstatus⟩
    rcases Option.bind_eq_some_iff.mp hanswers with ⟨p, hp, hcontext⟩
    rcases hreturn.settled p (List.mem_of_getElem? hp) hcontext with
      ⟨pos, p', a', hp', hcontext', ha', hpos, hresult⟩
    -- the chain is the one that the call published, and it is answered once
    have hsame := hrouting.own _ _ p p' hp hp' (hcontext.trans hcontext'.symm)
    have heq : a = a' := List.inj_on_of_nodup_map hrouting.answeredOnce ha ha'
      (hsame.trans hpos.symm)
    rw [hresult, ← heq]
    exact (r.call.resultOf_rc_iff a).mpr hstatus

theorem granted_of_returned {transport : Transport} {config : VirtioGpioConfig}
    {scripts : Nat -> Nat -> GpioCall} {size : Nat} {legacy : Bool} {h h' : Host}
    {rc : Rc} {obj : VirtqObject} {w : GpioSystem} (hsize : exists k, size = 2 ^ k)
    (hcreate : Prog.Runs (fun _ => True) h (virtqCreate size legacy) (rc, some obj) h')
    (hreach : GpioReachable uninterruptedRuns transport config obj h'.mem scripts w)
    {ngpio : UInt16} {s : GpioLines} (hconform : Conforming ngpio s w.answers)
    {r : GpioReturn} (hr : r ∈ w.returns) (hok : r.result.rc = .EOK) :
    exists a, a.request = r.call.request ∧ r.result = r.call.resultOf a ∧
      (w.linesFor s r.context).Grants ngpio a := by
  rcases hreach.inv hsize hcreate with ⟨gs, fl, hinv⟩
  have hrouting := hinv.routing rfl rfl
  rcases hrouting.returned r hr (hreach.awaited hr hok) with
    ⟨pos, p, a, hp, hcontext, ha, hpos, hrequest, hresult⟩
  have hanswers : w.Answers r.context a := by
    change (w.queue.published[a.pos]?).bind Published.context = some r.context
    rw [hpos, hp]
    exact hcontext
  have hstatus : a.status = VIRTIO_GPIO_STATUS_OK := by
    rw [hresult] at hok
    exact (r.call.resultOf_rc_iff a).mp hok
  exact ⟨a, hrequest, hresult, hconform _ a (hrouting.answersBefore ha hanswers) hstatus⟩

end QnxVirtio
