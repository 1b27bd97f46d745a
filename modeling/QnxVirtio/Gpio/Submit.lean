import QnxVirtio.Gpio.Routing
import QnxVirtio.Virtq.Unwind

/-!
# Submitting a request

`virtio_gpio_request` builds a chain, publishes it and rings the doorbell, or gives its
descriptors back.  It does not look at what the publication and the doorbell return, nor
at what the free list says when it gets a descriptor back.
-/

namespace QnxVirtio

open Foundation

/-!
## What is asked on the way
-/

/-- The spinlock of the free list for a descriptor that goes back, the spinlock of the
available ring, and the doorbell. -/
inductive RequestEvent
  | putBack (lock : Rc)
  | published (lock : Rc)
  | notified (rc : Rc)
  deriving DecidableEq

def RequestEvent.Granted : RequestEvent -> Prop
  | .putBack rc => rc = .EOK
  | .published rc => rc = .EOK
  | .notified rc => rc = .EOK

def onWatchedQueue {α : Type} (p : Prog Env (Watched Queue RequestEvent) α) :
    Prog Env (Watched GpioSystem RequestEvent) α :=
  Prog.watchedZoom GpioSystem.queue (fun q w => { w with queue := q }) p

/-- The part that fails no more. -/
def watchedSubmit (type gpio value : UInt16) (context : ContextPtr) (idx0 idx1 : UInt16)
    (request : Nat) : Prog Env (Watched GpioSystem RequestEvent) Rc := do
  Prog.silent (onQueue (storeRequest request type gpio value.toUInt32))
  let _ <- Prog.silent (onQueue (virtqSetDescContext idx0 context))
  Prog.silent (onQueue (linkChain idx0 [idx1]))
  let _ <- onWatchedQueue
    (Prog.asked (fun e => [.published e.lock]) (publishChain idx0 [idx1]))
  let _ <- Prog.asked (fun e => [.notified e.notify]) virtioNotifyQueue
  pure .EOK

def watchedRequest (config : VirtioGpioConfig) (type gpio value : UInt16)
    (context : ContextPtr) : Prog Env (Watched GpioSystem RequestEvent) Rc := do
  match <- onWatchedQueue (watchedAllocDesc .putBack sizeofVirtioGpioRequest false) with
  | .error rc => pure rc
  | .ok idx0 =>
      match <- onWatchedQueue
          (watchedAllocDesc .putBack (virtioGpioResponseSize config type) true) with
      | .error rc =>
          let _ <- onWatchedQueue (watchedFreeDesc .putBack idx0)
          pure rc
      | .ok idx1 =>
          match <- Prog.silent (onQueue (virtqGetDescVaddr idx0)) with
          | .error rc =>
              let _ <- onWatchedQueue (watchedFreeDesc .putBack idx1)
              let _ <- onWatchedQueue (watchedFreeDesc .putBack idx0)
              pure rc
          | .ok request => watchedSubmit type gpio value context idx0 idx1 request

theorem watches_request (config : VirtioGpioConfig) (type gpio value : UInt16)
    (context : ContextPtr) :
    Prog.Watches (virtioGpioRequest config type gpio value context)
      (watchedRequest config type gpio value context) := by
  refine (watches_allocDesc _ _ _).zoom.bind fun r0 => ?_
  cases r0 with
  | error rc => exact Prog.Watches.ret _
  | ok idx0 =>
      refine (watches_allocDesc _ _ _).zoom.bind fun r1 => ?_
      cases r1 with
      | error rc =>
          exact (watches_freeDesc _ _).zoom.bind fun _ => Prog.Watches.ret _
      | ok idx1 =>
          refine (Prog.watches_silent _).bind fun r2 => ?_
          cases r2 with
          | error rc =>
              refine (watches_freeDesc _ _).zoom.bind fun _ => ?_
              exact (watches_freeDesc _ _).zoom.bind fun _ => Prog.Watches.ret _
          | ok request =>
              refine (Prog.watches_silent _).bind fun _ => ?_
              refine (Prog.watches_silent _).bind fun _ => ?_
              have hput : forall k, onQueue (virtqPutDescChain idx0 [idx1]) >>= k =
                  (onQueue (linkChain idx0 [idx1])).bind fun _ =>
                    ((onQueue (publishChain idx0 [idx1])).bind k :
                      Prog Env GpioSystem Rc) := by
                intro k
                rfl
              rw [hput]
              refine (Prog.watches_silent _).bind fun _ => ?_
              refine (Prog.watches_asked _ _).zoom.bind fun _ => ?_
              exact (Prog.watches_asked _ _).bind fun _ => Prog.Watches.ret _

/-!
## What the caller may rely on
-/

/-- A chain of a request and a response buffer lies in the tables, with the caller's
request and context. -/
structure ChainBuilt (req : VirtioGpioRequest) (size : UInt32) (context : ContextPtr)
    (head resp : UInt16) (q : Queue) : Prop where
  chain : chainWalk q.vq.desc 2 head = some [head, resp]
  request : loadBytes q.mem.phys (q.vq.desc head).addr (q.vq.desc head).len.toNat =
    req.encode
  readable : (q.vq.desc head).flags &&& VIRTQ_DESC_F_WRITE = 0
  response : (q.vq.desc resp).len = size
  writable : (q.vq.desc resp).flags &&& VIRTQ_DESC_F_WRITE ≠ 0
  caller : (q.vq.descExtras head).context = some context

/-- One such chain has been put into the available ring, and nothing else. -/
structure Submitted (req : VirtioGpioRequest) (size : UInt32) (context : ContextPtr)
    (head resp : UInt16) (q q' : Queue) : Prop extends
    ChainBuilt req size context head resp q' where
  published : q'.published = q.published ++
    [{ head := head, rest := [resp], context := some context }]
  availIdx : q'.vq.availIdx = q.vq.availIdx + 1
  availRing : q'.vq.availRing =
    Function.update q.vq.availRing (q.vq.availIdx % q.vq.num) head

/-- Success means that the chain is published and the device notified; failure means
that the rings, the free descriptors and the mappings are those of before. -/
structure SubmittedOrUndone (req : VirtioGpioRequest) (size : UInt32) (context : ContextPtr)
    (q q' : Queue) (events : List RequestEvent) (rc : Rc) : Prop where
  submitted : rc = .EOK ->
    (exists head resp, Submitted req size context head resp q q') ∧
      .notified .EOK ∈ events
  undone : rc ≠ .EOK -> SameRings q q' ∧ SameResources q q'

/-!
## The request buffer
-/

section Stores

variable {ok : Env -> Prop} {q q' : Queue} {b : Mapping}

theorem storeVirt_runs {off : Nat} {block : List UInt8} {u : Unit}
    (hrun : Prog.Runs ok q (storeVirt (b.vaddr + off) block) u q') (hb : b ∈ q.mem.maps)
    (hpos : 0 < block.length) (hoff : off + block.length <= b.len) :
    q' = { q with mem := q.mem.store (b.paddr + off) block } := by
  rcases Prog.runs_action_iff.mp hrun with ⟨e, _, hf⟩
  rw [Memory.resolve_of_mem hb hpos hoff] at hf
  cases hf
  rfl

theorem storeRequest_runs {req : VirtioGpioRequest} {u : Unit} (hb : b ∈ q.mem.maps)
    (hlen : b.len = 8)
    (hrun : Prog.Runs ok q (storeRequest b.vaddr req.type req.gpio req.value) u q') :
    exists mem : Memory, q' = { q with mem := mem } ∧ mem.maps = q.mem.maps ∧
      loadBytes mem.phys b.paddr 8 = req.encode := by
  rcases Prog.runs_bind_iff.mp hrun with ⟨_, q1, htype, hrest⟩
  change Prog.Runs ok q (storeVirt (b.vaddr + 0) (encode16 req.type)) _ q1 at htype
  have hq1 := storeVirt_runs htype hb (by simp) (by rw [hlen]; simp)
  subst hq1
  rcases Prog.runs_bind_iff.mp hrest with ⟨_, q2, hgpio, hvalue⟩
  have hq2 := storeVirt_runs hgpio hb (by simp) (by rw [hlen]; simp)
  subst hq2
  have hq3 := storeVirt_runs hvalue hb (by simp) (by rw [hlen]; simp)
  subst hq3
  refine ⟨_, rfl, rfl, ?_⟩
  simp only [Memory.store_phys]
  rw [loadBytes_overwrite _ _ (by simp), loadBytes_overwrite _ _ (by simp),
    loadBytes_overwrite _ _ (by simp)]
  exact overwrite_request (length_loadBytes ..) req

theorem chainBuilt_runs {req : VirtioGpioRequest} {size : UInt32} {context : ContextPtr}
    {head resp : UInt16} {q0 q1 q2 q3 q4 q5 : Queue} {u u' : Unit} {rc : Rc}
    (h0 : AllocatedCell sizeofVirtioGpioRequest false head q0 q1)
    (h1 : AllocatedCell size true resp q1 q2) (hne : head ≠ resp)
    (hnum : head < q2.vq.num)
    (hstore : Prog.Runs ok q2
      (storeRequest (q2.vq.descExtras head).vaddr req.type req.gpio req.value) u q3)
    (hcontext : Prog.Runs ok q3 (virtqSetDescContext head context) rc q4)
    (hlink : Prog.Runs ok q4 (linkChain head [resp]) u' q5) :
    SameRings q0 q5 ∧ ChainBuilt req size context head resp q5 := by
  have hdesc : q2.vq.desc head = q1.vq.desc head := h1.desc head hne
  have hextras : q2.vq.descExtras head = q1.vq.descExtras head := h1.descExtras head hne
  have hbuffer : q2.vq.buffer head = q1.vq.buffer head := buffer_congr hdesc hextras
  have hmem : q2.vq.buffer head ∈ q2.mem.maps := by
    rw [h1.maps, h0.maps, hbuffer]
    exact List.mem_cons_of_mem _ (List.mem_cons_self ..)
  have hlen : (q2.vq.desc head).len = sizeofVirtioGpioRequest := by
    rw [hdesc]
    exact h0.len
  have hlen8 : (q2.vq.buffer head).len = 8 := congrArg UInt32.toNat hlen
  rcases storeRequest_runs hmem hlen8 hstore with ⟨mem, rfl, hmaps, hbytes⟩
  rcases Prog.runs_action_iff.mp hcontext with ⟨e, _, hf⟩
  rw [if_neg (UInt16.not_le.mpr hnum)] at hf
  cases hf
  have hrest := setDesc_runs (setDesc_runs hlink)
  rcases Prog.runs_modify_iff.mp hrest with ⟨_, hq5⟩
  have hhead : q5.vq.desc head = { q2.vq.desc head with
      next := resp
      flags := (q2.vq.desc head).flags ||| VIRTQ_DESC_F_NEXT } := by
    rw [hq5]
    simp [Function.update_of_ne hne]
  have hresp : q5.vq.desc resp = { q2.vq.desc resp with next := 0 } := by
    rw [hq5]
    simp [Function.update_of_ne hne.symm]
  have hflags : (q2.vq.desc head).flags = 0 := by
    rw [hdesc]
    exact h0.flags
  have hflags' : (q2.vq.desc resp).flags = VIRTQ_DESC_F_WRITE := h1.flags
  constructor
  · rw [hq5]
    exact (h0.rings.trans h1.rings).withMem.updateExtras.updateDesc.updateDesc.updateDesc
  · constructor
    case chain =>
      simp only [chainWalk, VirtqDesc.hasNext, hhead, hresp, hflags, hflags']
      rfl
    case request =>
      have hphys : q5.mem.phys = mem.phys := by
        rw [hq5]
        rfl
      rw [hphys, hhead]
      dsimp only
      rw [hlen]
      exact hbytes
    case readable =>
      rw [hhead]
      dsimp only
      rw [hflags]
      decide
    case response =>
      rw [hresp]
      exact h1.len
    case writable =>
      rw [hresp]
      dsimp only
      rw [hflags']
      decide
    case caller =>
      rw [hq5]
      simp

end Stores

/-!
## Both outcomes
-/

section Outcomes

variable {req : VirtioGpioRequest} {size : UInt32} {context : ContextPtr} {q q' : Queue}
  {rc : Rc}

theorem submittedOrUndone_failed {locks : List Rc} (hrc : rc ≠ .EOK)
    (hundone : Undone locks q q') (hnodup : q.vq.freeList.Nodup) :
    SubmittedOrUndone req size context q q' (locks.map .putBack) rc <->
      forall e, e ∈ locks.map RequestEvent.putBack -> e.Granted := by
  have hiff := hundone.sameResources_iff hnodup
  constructor
  · intro h e he
    rcases List.mem_map.mp he with ⟨lock, hlock, rfl⟩
    exact hiff.mp (h.undone hrc).2 lock hlock
  · intro h
    constructor
    · exact fun hok => absurd hok hrc
    · intro _
      refine ⟨hundone.rings, hiff.mpr fun lock hlock => ?_⟩
      exact h (.putBack lock) (List.mem_map_of_mem hlock)

theorem submittedOrUndone_claimed {head resp : UInt16} {q1 : Queue} {lock notify : Rc}
    (hrings : SameRings q q1) (hbuilt : ChainBuilt req size context head resp q1)
    (hpublish : q' = if lock ≠ .EOK then q1 else { q1 with
      vq := q1.vq.publish head
      published := q1.published ++
        [{ head := head
           rest := [resp]
           context := (q1.vq.descExtras head).context }] }) :
    SubmittedOrUndone req size context q q' [.published lock, .notified notify] .EOK <->
      lock = .EOK ∧ notify = .EOK := by
  constructor
  · intro h
    rcases h.submitted rfl with ⟨⟨head', resp', hsubmitted⟩, hnotified⟩
    constructor
    · by_contra hlock
      -- nothing has been added to the available ring
      rw [if_pos hlock] at hpublish
      have hlength := congrArg List.length hsubmitted.published
      rw [hpublish, hrings.published, List.length_append] at hlength
      simp at hlength
    · simpa [eq_comm] using hnotified
  · rintro ⟨hlock, hnotify⟩
    rw [if_neg (not_not.mpr hlock)] at hpublish
    subst hpublish hnotify
    constructor
    · intro _
      refine ⟨⟨head, resp, ?_⟩, by simp⟩
      constructor
      · exact ⟨hbuilt.chain, hbuilt.request, hbuilt.readable, hbuilt.response,
          hbuilt.writable, hbuilt.caller⟩
      · change q1.published ++ _ = _
        rw [hrings.published, hbuilt.caller]
      · change q1.vq.availIdx + 1 = _
        rw [hrings.availIdx]
      · change Function.update q1.vq.availRing (q1.vq.availIdx % q1.vq.num) head = _
        rw [hrings.availRing, hrings.availIdx, hrings.num]
    · exact fun hrc => absurd rfl hrc

end Outcomes

theorem selects_queue :
    Prog.Selects GpioSystem.queue fun q (w : GpioSystem) => { w with queue := q } where
  get_set _ _ := rfl
  set_set _ _ _ := rfl
  set_get _ := rfl

theorem silent_queue_runsOn {α : Type} {σ : Nat -> Env} {i j : Nat}
    {p : Prog Env Queue α} {a : α} {w w' : Watched GpioSystem RequestEvent}
    (hrun : Prog.RunsOn σ i w (Prog.silent (onQueue p)) a w' j) :
    Prog.RunsOn σ i w.state.queue p a w'.state.queue j ∧ w'.events = w.events := by
  rcases Prog.runsOn_silent hrun with ⟨hrun, hevents⟩
  exact ⟨(Prog.runsOn_zoom selects_queue hrun).1, hevents⟩

/-- Both descriptors are there: the chain is built, and the two answers that nobody looks
at decide about the rest. -/
theorem watchedSubmit_runsOn {σ : Nat -> Env} {i j : Nat} {size : UInt32}
    {type gpio value : UInt16} {context : ContextPtr} {idx0 idx1 : UInt16}
    {q0 q1 : Queue} {w w' : Watched GpioSystem RequestEvent} {rc : Rc}
    (h0 : AllocatedCell sizeofVirtioGpioRequest false idx0 q0 q1)
    (h1 : AllocatedCell size true idx1 q1 w.state.queue) (hne : idx0 ≠ idx1)
    (hnum : idx0 < w.state.queue.vq.num) (hstart : w.events = [])
    (hrun : Prog.RunsOn σ i w (watchedSubmit type gpio value context idx0 idx1
      (w.state.queue.vq.descExtras idx0).vaddr) rc w' j) :
    SubmittedOrUndone { type := type, gpio := gpio, value := value.toUInt32 } size context q0
        w'.state.queue w'.events rc <->
      forall e, e ∈ w'.events -> e.Granted := by
  rcases Prog.runsOn_bind_iff.mp hrun with ⟨_, w1, _, hstore, hrest⟩
  rcases silent_queue_runsOn hstore with ⟨hstore, hevents1⟩
  rcases Prog.runsOn_bind_iff.mp hrest with ⟨_, w2, _, hcontext, hrest⟩
  rcases silent_queue_runsOn hcontext with ⟨hcontext, hevents2⟩
  rcases Prog.runsOn_bind_iff.mp hrest with ⟨_, w3, k, hlink, hrest⟩
  rcases silent_queue_runsOn hlink with ⟨hlink, hevents3⟩
  have hbuilt : SameRings q0 w3.state.queue ∧
      ChainBuilt { type := type, gpio := gpio, value := value.toUInt32 } size context idx0
        idx1 w3.state.queue :=
    chainBuilt_runs h0 h1 hne hnum hstore.runs hcontext.runs hlink.runs
  rcases Prog.runsOn_bind_iff.mp hrest with ⟨_, w4, l, hpublish, hrest⟩
  rcases Prog.runsOn_watchedZoom selects_queue hpublish with ⟨hpublish, _⟩
  rcases Prog.runsOn_asked_iff.mp hpublish with ⟨hpublish, hevents4⟩
  rcases Prog.runsOn_bind_iff.mp hrest with ⟨_, w5, _, hnotify, hrest⟩
  rcases Prog.runsOn_asked_iff.mp hnotify with ⟨hnotify, hevents5⟩
  rcases Prog.runsOn_ret_iff.mp hrest with ⟨rfl, rfl, _⟩
  have hstate : w4.state.queue = if (σ k).lock ≠ .EOK then w3.state.queue else
      { w3.state.queue with
        vq := w3.state.queue.vq.publish idx0
        published := w3.state.queue.published ++
          [{ head := idx0
             rest := [idx1]
             context := (w3.state.queue.vq.descExtras idx0).context }] } := by
    have hf := (Prog.runsOn_action_iff.mp hpublish).1
    split at hf
    · rename_i hlock
      rw [if_pos hlock]
      injection hf with hf
      injection hf with _ hqueue
      exact hqueue.symm
    · rename_i hlock
      rw [if_neg hlock]
      injection hf with hf
      injection hf with _ hqueue
      exact hqueue.symm
  have hsame : w'.state.queue = w4.state.queue := by
    have hf := (Prog.runsOn_action_iff.mp hnotify).1
    injection hf with hf
    injection hf with _ hsystem
    rw [hsystem]
  have hevents : w'.events = [.published (σ k).lock, .notified (σ l).notify] := by
    rw [hevents5, hevents4, hevents3, hevents2, hevents1, hstart]
    rfl
  rw [hsame, hevents, submittedOrUndone_claimed hbuilt.1 hbuilt.2 hstate]
  simp [RequestEvent.Granted]

/-- A request is all or nothing exactly when everything is granted that it asks for
without looking. -/
theorem request_all_or_nothing_iff {σ : Nat -> Env} {i j : Nat} {config : VirtioGpioConfig}
    {type gpio value : UInt16} {context : ContextPtr}
    {w w' : Watched GpioSystem RequestEvent} {rc : Rc} {base : List Mapping}
    {allocated : List UInt16} (hcons : Conserved base w.state.queue allocated)
    (hstart : w.events = [])
    (hrun : Prog.RunsOn σ i w (watchedRequest config type gpio value context) rc w' j) :
    SubmittedOrUndone { type := type, gpio := gpio, value := value.toUInt32 }
        (virtioGpioResponseSize config type) context w.state.queue w'.state.queue
        w'.events rc <->
      forall e, e ∈ w'.events -> e.Granted := by
  have hlen : w.state.queue.vq.freeList.length <= w.state.queue.vq.num.toNat :=
    length_le_of_nodup_of_lt hcons.freeNodup fun i hi => (hcons.cover i).mpr (Or.inl hi)
  rcases Prog.runsOn_bind_iff.mp hrun with ⟨r0, w1, _, halloc0, hrest⟩
  rcases Prog.runsOn_watchedZoom selects_queue halloc0 with ⟨hrun0, _⟩
  have hout0 := watchedAllocDesc_runsOn hrun0 hcons.freeWf hlen
  cases r0 with
  | error rc0 =>
      rcases Prog.runsOn_ret_iff.mp hrest with ⟨rfl, rfl, _⟩
      rcases hout0 with ⟨hrc, locks, hevents, hundone⟩
      dsimp only at hevents hundone
      rw [hstart, List.nil_append] at hevents
      rw [hevents]
      exact submittedOrUndone_failed hrc hundone.toUndone hcons.freeNodup
  | ok idx0 =>
      rcases hout0 with ⟨hevents0, hcell0⟩
      dsimp only at hevents0 hcell0
      have hcons1 := hcons.alloc hcell0.toAllocated
      have hroom1 := hcons1.room (List.mem_cons_self ..)
      rcases Prog.runsOn_bind_iff.mp hrest with ⟨r1, w2, _, halloc1, hrest⟩
      rcases Prog.runsOn_watchedZoom selects_queue halloc1 with ⟨hrun1, _⟩
      have hout1 := watchedAllocDesc_runsOn hrun1 hcons1.freeWf (Nat.le_of_lt hroom1)
      cases r1 with
      | error rc1 =>
          rcases hout1 with ⟨hrc, locks, hevents1, hundone⟩
          dsimp only at hevents1 hundone
          rcases Prog.runsOn_bind_iff.mp hrest with ⟨_, w3, _, hfree, hrest⟩
          rcases Prog.runsOn_ret_iff.mp hrest with ⟨rfl, rfl, _⟩
          rcases Prog.runsOn_watchedZoom selects_queue hfree with ⟨hrun2, _⟩
          have hroom2 : w2.state.queue.vq.freeList.length <
              w2.state.queue.vq.num.toNat := by
            rcases hundone.free with ⟨lost, hperm, _⟩
            have hlength := hperm.length_eq
            rw [List.length_append] at hlength
            rw [hundone.rings.num]
            omega
          have hbuffer : (w2.state.queue.vq.desc idx0).len ≠ 0 := by
            rw [hundone.desc, hcell0.len]
            decide
          rcases watchedFreeDesc_runsOn hrun2 hundone.freeWf hbuffer hroom2 with
            ⟨lock, hevents2, hrelease⟩
          dsimp only at hevents2 hrelease
          have hevents : w'.events = (locks ++ [lock]).map RequestEvent.putBack := by
            rw [hevents2, hevents1, hevents0, hstart, List.nil_append, List.map_append]
            rfl
          rw [hevents]
          exact submittedOrUndone_failed hrc (hcell0.undone hundone hrelease) hcons.freeNodup
      | ok idx1 =>
          rcases hout1 with ⟨hevents1, hcell1⟩
          dsimp only at hevents1 hcell1
          have hne : idx0 ≠ idx1 := by
            have hnodup := hcons.freeNodup
            rw [hcell0.freeList, hcell1.freeList] at hnodup
            rintro rfl
            exact (List.nodup_cons.mp hnodup).1 (List.mem_cons_self ..)
          have hnum : idx0 < w2.state.queue.vq.num := by
            rw [hcell1.rings.num, UInt16.lt_iff_toNat_lt]
            exact (hcons1.cover idx0).mpr (Or.inr (List.mem_cons_self ..))
          rcases Prog.runsOn_bind_iff.mp hrest with ⟨r2, w3, _, hvaddr, hrest⟩
          rcases silent_queue_runsOn hvaddr with ⟨hvaddr, hevents2⟩
          rcases Prog.runsOn_read_iff.mp hvaddr with ⟨rfl, hw3, _⟩
          rw [if_neg (UInt16.not_le.mpr hnum), ← hw3] at hrest
          rw [← hw3] at hcell1 hnum
          refine watchedSubmit_runsOn hcell0 hcell1 hne hnum ?_ hrest
          rw [hevents2, hevents1, hevents0, hstart]

/-!
## A queue of two descriptors
-/

theorem queueTwo_conserved :
    Conserved createdTwo.2.mem.maps (queueTwo.gpioSystem createdTwo.2.mem).queue [] :=
  Conserved.fresh (virtqCreate_fresh queueTwo_created).2 createdTwo.2.mem

/-- Every call succeeds; `lock` is what the spinlock of the available ring answers. -/
def submitAnswers (lock : Rc) (i : Nat) : Env where
  lock := if i = 26 then lock else .EOK
  mmap := .ok (4096 * (100 + i), 4096 * (100 + i))

def submitStart : Watched GpioSystem RequestEvent where
  state := queueTwo.gpioSystem createdTwo.2.mem
  events := []

def submitTwo : Prog Env (Watched GpioSystem RequestEvent) Rc :=
  watchedRequest configEight VIRTIO_GPIO_MSG_SET_VALUE 3 1 ⟨0, 0⟩

theorem submitTwo_runs (lock : Rc) (count : Nat)
    (h : ((Prog.execOn (submitAnswers lock) 40 0 submitStart submitTwo).map fun out =>
      (out.1, out.2.1.events, out.2.1.state.queue.published.length)) =
        some (.EOK, [.published lock, .notified .EOK], count)) :
    exists w' j, Prog.RunsOn (submitAnswers lock) 0 submitStart submitTwo .EOK w' j ∧
      w'.events = [.published lock, .notified .EOK] ∧
      w'.state.queue.published.length = count := by
  rcases Option.map_eq_some_iff.mp h with ⟨⟨rc, w', j⟩, hexec, hout⟩
  injection hout with hrc hout
  injection hout with hevents hcount
  dsimp only at hrc hevents hcount
  subst hrc
  exact ⟨w', j, Prog.runsOn_of_execOn hexec, hevents, hcount⟩

/-- Everything is granted, and the request is submitted. -/
theorem request_all_or_nothing_granted : exists w' : Watched GpioSystem RequestEvent,
    SubmittedOrUndone { type := VIRTIO_GPIO_MSG_SET_VALUE, gpio := 3, value := 1 } 2 ⟨0, 0⟩
      submitStart.state.queue w'.state.queue w'.events .EOK := by
  rcases submitTwo_runs .EOK 1 (by decide +kernel) with ⟨w', j, hrun, hevents, _⟩
  refine ⟨w', (request_all_or_nothing_iff queueTwo_conserved rfl hrun).mpr ?_⟩
  rw [hevents]
  simp [RequestEvent.Granted]

/-- The spinlock of the available ring is not granted: the caller is told that its
request is on its way, and nothing has been published. -/
theorem request_not_published :
    ¬ forall (σ : Nat -> Env) (j : Nat) (w' : Watched GpioSystem RequestEvent) (rc : Rc),
      Prog.RunsOn σ 0 submitStart submitTwo rc w' j ->
        SubmittedOrUndone { type := VIRTIO_GPIO_MSG_SET_VALUE, gpio := 3, value := 1 } 2 ⟨0, 0⟩
          submitStart.state.queue w'.state.queue w'.events rc := by
  intro hall
  rcases submitTwo_runs .EINVAL 0 (by decide +kernel) with ⟨w', j, hrun, _, hcount⟩
  rcases ((hall _ j w' _ hrun).submitted rfl).1 with ⟨head, resp, hsubmitted⟩
  rw [hsubmitted.published, List.length_append] at hcount
  cases hcount

end QnxVirtio
