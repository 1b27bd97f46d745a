import QnxVirtio.Foundation.Linearize
import QnxVirtio.Foundation.Pool

/-!
# Objects behind a spinlock

The operations of an object take its lock, work on the object in steps of their own, and
release the lock.  However the steps of the threads are interleaved, the calls are
linearizable: each section under the lock takes effect where it releases the lock.
-/

namespace QnxVirtio
namespace Foundation

/-- A call of a thread, counted from 0. -/
structure CallId (T : Type) where
  thread : T
  call : Nat
  deriving DecidableEq

/-- An object that is reached under its spinlock only. -/
structure LockedObject (E S Op Out : Type) where
  /-- What an operation answers when it does not get the lock. -/
  refused : E -> Op -> Option Out
  /-- The section under the lock. -/
  body : Op -> Prog E S Out

/-- The object, its lock, and what happened to the calls. -/
structure Locked (T S Op Out : Type) where
  val : S
  held : Bool
  log : List (CallEvent (CallId T) Op Out)

variable {T E S Op Out A : Type}

def Locked.record (e : CallEvent (CallId T) Op Out) (w : Locked T S Op Out) :
    Locked T S Op Out :=
  { w with log := w.log ++ [e] }

def Locked.initial (v : S) : Locked T S Op Out where
  val := v
  held := false
  log := []

namespace LockedObject

variable (O : LockedObject E S Op Out)

/-- Without the lock the call is over. -/
def lock (id : CallId T) (op : Op) : Prog E (Locked T S Op Out) (Option Out) :=
  Prog.action fun e w =>
    match O.refused e op with
    | some out => some (some out, w.record (.effect id op out))
    | none => if w.held then none else some (none, { w with held := true })

def unlock (id : CallId T) (op : Op) (out : Out) :
    Prog E (Locked T S Op Out) Unit :=
  Prog.modify fun w => { w.record (.effect id op out) with held := false }

/-- The section, step by step. -/
def inside (p : Prog E S Out) : Prog E (Locked T S Op Out) Out :=
  Prog.zoom Locked.val (fun v w => { w with val := v }) p

def perform (id : CallId T) (op : Op) : Prog E (Locked T S Op Out) Out := do
  match <- O.lock id op with
  | some out => pure out
  | none =>
      let out <- inside (O.body op)
      unlock id op out
      pure out

/-- The `n`-th call of thread `t`. -/
def round (t : T) (script : Nat -> Op) (n : Nat) :
    Prog E (Locked T S Op Out) (Nat ⊕ Unit) := do
  Prog.modify fun w => w.record (.invoked ⟨t, n⟩ (script n))
  let out <- O.perform ⟨t, n⟩ (script n)
  Prog.modify fun w => w.record (.returned ⟨t, n⟩ out)
  pure (.inl (n + 1))

def client (t : T) (script : Nat -> Op) : Prog E (Locked T S Op Out) Unit :=
  Prog.iterate (O.round t script) 0

def pool (v : S) (scripts : T -> Nat -> Op) : Pool T E (Locked T S Op Out) where
  state := Locked.initial v
  thread t := O.client t (scripts t)

/-- Nothing but the threads acts on the object. -/
def noDevice (move : Empty) (_ : Locked T S Op Out) : Option (Locked T S Op Out) :=
  move.elim

/-- What the threads reach together. -/
def Reachable [DecidableEq T] (v : S) (scripts : T -> Nat -> Op)
    (w : Locked T S Op Out) : Prop :=
  exists c, Pool.Reachable noDevice (fun _ _ => True)
    (O.pool v scripts) c ∧ c.state = w

/-- The sections do to the object what `spec` says of the abstract values, and a call that
does not get the lock does nothing. -/
structure Implements (spec : A -> Op -> Out -> A -> Prop) (R : S -> A -> Prop) : Prop where
  body : forall s a op out s', R s a -> Prog.Runs (fun _ => True) s (O.body op) out s' ->
    exists a', spec a op out a' ∧ R s' a'
  refused : forall s a e op out, R s a -> O.refused e op = some out -> spec a op out a

end LockedObject

/-!
## The invariant
-/

/-- How far a thread is: before its `n`-th call, in it without the lock, in the section
that found the object as `start` and has brought it to `current`, or past its effect. -/
inductive LockStage (S Out : Type)
  | idle (n : Nat)
  | called (n : Nat)
  | inside (n : Nat) (start current : S)
  | done (n : Nat) (out : Out)

namespace LockStage

def isInside : LockStage S Out -> Bool
  | idle _ => false
  | called _ => false
  | inside _ _ _ => true
  | done _ _ => false

/-- The thread has made the calls before the `n`-th only. -/
def InvokedBelow (t : T) (n : Nat) (log : List (CallEvent (CallId T) Op Out)) : Prop :=
  forall m op, CallEvent.invoked ⟨t, m⟩ op ∈ log -> m < n

/-- The `n`-th call is under way and has had no effect. -/
structure Pending (t : T) (script : Nat -> Op) (n : Nat)
    (log : List (CallEvent (CallId T) Op Out)) : Prop where
  below : InvokedBelow t (n + 1) log
  invoked : CallEvent.invoked ⟨t, n⟩ (script n) ∈ log
  fresh : (⟨t, n⟩ : CallId T) ∉ (effects log).map Effect.id

/-- What the log says of the thread. -/
def Logged (t : T) (script : Nat -> Op) (log : List (CallEvent (CallId T) Op Out)) :
    LockStage S Out -> Prop
  | idle n => InvokedBelow t n log
  | called n => Pending t script n log
  | inside n _ _ => Pending t script n log
  | done n out => InvokedBelow t (n + 1) log ∧ .effect ⟨t, n⟩ (script n) out ∈ log

theorem InvokedBelow.concat {t : T} {n : Nat} {log : List (CallEvent (CallId T) Op Out)}
    (h : InvokedBelow t n log) {e : CallEvent (CallId T) Op Out}
    (he : forall m op, e = .invoked ⟨t, m⟩ op -> m < n) :
    InvokedBelow t n (log ++ [e]) := by
  intro m op hmem
  rcases List.mem_append.mp hmem with hold | hnew
  · exact h m op hold
  · exact he m op (List.mem_singleton.mp hnew).symm

theorem Pending.concat {t : T} {script : Nat -> Op} {n : Nat}
    {log : List (CallEvent (CallId T) Op Out)} (h : Pending t script n log)
    {e : CallEvent (CallId T) Op Out} (he : forall m op, e ≠ .invoked ⟨t, m⟩ op)
    (heffect : forall m op out, e ≠ .effect ⟨t, m⟩ op out) :
    Pending t script n (log ++ [e]) where
  below := h.below.concat fun m op heq => absurd heq (he m op)
  invoked := List.mem_append_left _ h.invoked
  fresh := by
    rw [effects_append, List.map_append, List.mem_append]
    intro hmem
    cases hmem with
    | inl hold => exact h.fresh hold
    | inr hnew =>
        rcases List.mem_map.mp hnew with ⟨c, hc, hid⟩
        have hevent := List.mem_singleton.mp (mem_effects_iff.mp hc)
        rw [hid] at hevent
        exact heffect n _ _ hevent.symm

theorem Logged.concat {t : T} {script : Nat -> Op}
    {log : List (CallEvent (CallId T) Op Out)} {stage : LockStage S Out}
    (h : stage.Logged t script log) {e : CallEvent (CallId T) Op Out}
    (he : forall m op, e ≠ .invoked ⟨t, m⟩ op)
    (heffect : forall m op out, e ≠ .effect ⟨t, m⟩ op out) :
    stage.Logged t script (log ++ [e]) := by
  cases stage with
  | idle n => exact InvokedBelow.concat h fun m op heq => absurd heq (he m op)
  | called n => exact Pending.concat h he heffect
  | inside n start current => exact Pending.concat h he heffect
  | done n out =>
      exact ⟨h.1.concat fun m op heq => absurd heq (he m op), List.mem_append_left _ h.2⟩

end LockStage

/-- The lock is free and the object has the abstract value `a`, or one thread is in its
section and found the object with that value. -/
inductive Custody (R : S -> A -> Prop) (a : A) (val : S) (gs : T -> LockStage S Out) :
    Bool -> Prop
  | free : (forall t, (gs t).isInside = false) -> R val a -> Custody R a val gs false
  | taken (t : T) (n : Nat) (start : S) : gs t = .inside n start val ->
      (forall u, u ≠ t -> (gs u).isInside = false) -> R start a ->
      Custody R a val gs true

structure LockInv (spec : A -> Op -> Out -> A -> Prop) (R : S -> A -> Prop) (a₀ : A)
    (scripts : T -> Nat -> Op) (w : Locked T S Op Out) (gs : T -> LockStage S Out) :
    Prop where
  placed : Placed w.log
  logged : forall t, (gs t).Logged t (scripts t) w.log
  custody : exists a, SequentialRun spec a₀ (effects w.log) a ∧
    Custody R a w.val gs w.held

/-!
## Steps of a thread
-/

section Steps

variable [DecidableEq T] {R : S -> A -> Prop} {a : A} {val : S}
  {gs : T -> LockStage S Out} {t : T}

omit [DecidableEq T] in
theorem Custody.found {held : Bool} (h : Custody R a val gs held) : exists v, R v a := by
  cases h with
  | free _ hR => exact ⟨val, hR⟩
  | taken _ _ start _ _ hR => exact ⟨start, hR⟩

theorem Custody.move {held : Bool} (h : Custody R a val gs held) {stage : LockStage S Out}
    (hbefore : (gs t).isInside = false) (hafter : stage.isInside = false) :
    Custody R a val (Function.update gs t stage) held := by
  have hupdate : forall u, (gs u).isInside = false ->
      (Function.update gs t stage u).isInside = false := by
    intro u hu
    by_cases hut : u = t
    · rw [hut, Function.update_self]
      exact hafter
    · rw [Function.update_of_ne hut]
      exact hu
  cases h with
  | free hnone hR => exact Custody.free (fun u => hupdate u (hnone u)) hR
  | taken u n start hu hothers hR =>
      have hne : u ≠ t := by
        intro heq
        rw [← heq, hu] at hbefore
        cases hbefore
      refine Custody.taken u n start ?_ (fun v hv => hupdate v (hothers v hv)) hR
      rw [Function.update_of_ne hne]
      exact hu

theorem Custody.enter (h : Custody R a val gs false) (n : Nat) :
    Custody R a val (Function.update gs t (.inside n val val)) true := by
  cases h with
  | free hnone hR =>
      refine Custody.taken t n val (Function.update_self ..) ?_ hR
      intro u hu
      rw [Function.update_of_ne hu]
      exact hnone u

theorem Custody.own {held : Bool} (h : Custody R a val gs held) {n : Nat}
    {start current : S} (hstage : gs t = .inside n start current) :
    held = true ∧ val = current ∧ R start a ∧
      forall u, u ≠ t -> (gs u).isInside = false := by
  cases h with
  | free hnone _ =>
      have hout := hnone t
      rw [hstage] at hout
      cases hout
  | taken u m start' hu hothers hR =>
      have heq : t = u := by
        by_contra hne
        have hout := hothers t hne
        rw [hstage] at hout
        cases hout
      subst heq
      rw [hstage] at hu
      cases hu
      exact ⟨rfl, rfl, hR, hothers⟩

variable {spec : A -> Op -> Out -> A -> Prop} {a₀ : A} {scripts : T -> Nat -> Op}
  {w : Locked T S Op Out}

theorem LockInv.logged_update (h : LockInv spec R a₀ scripts w gs)
    {e : CallEvent (CallId T) Op Out} {stage : LockStage S Out}
    (he : forall u, u ≠ t -> forall m op, e ≠ .invoked ⟨u, m⟩ op)
    (heffect : forall u, u ≠ t -> forall m op out, e ≠ .effect ⟨u, m⟩ op out)
    (hstage : stage.Logged t (scripts t) (w.log ++ [e])) (u : T) :
    (Function.update gs t stage u).Logged u (scripts u) (w.log ++ [e]) := by
  by_cases hu : u = t
  · rw [hu, Function.update_self]
    exact hstage
  · rw [Function.update_of_ne hu]
    exact (h.logged u).concat (he u hu) (heffect u hu)

theorem LockInv.invoke (h : LockInv spec R a₀ scripts w gs) {n : Nat}
    (hstage : gs t = .idle n) :
    LockInv spec R a₀ scripts (w.record (.invoked ⟨t, n⟩ (scripts t n)))
      (Function.update gs t (.called n)) := by
  have hbelow : LockStage.InvokedBelow t n w.log := by
    have hlogged := h.logged t
    rw [hstage] at hlogged
    exact hlogged
  rcases h.custody with ⟨a, hrun, hcustody⟩
  constructor
  · exact h.placed.invoked fun op hmem => Nat.lt_irrefl n (hbelow n op hmem)
  · refine h.logged_update ?_ ?_ ?_
    · intro u hu m op heq
      cases heq
      exact hu rfl
    · intro u hu m op out heq
      cases heq
    · constructor
      · intro m op hmem
        rcases List.mem_append.mp hmem with hold | hnew
        · exact Nat.lt_succ_of_lt (hbelow m op hold)
        · cases List.mem_singleton.mp hnew
          exact Nat.lt_succ_self n
      · exact List.mem_append_right _ (List.mem_singleton_self _)
      · rw [effects_append, effects_invoked, List.append_nil]
        intro hmem
        rcases List.mem_map.mp hmem with ⟨c, hc, hid⟩
        have hinvoked := h.placed.invoked_of_effect hc
        rw [hid] at hinvoked
        exact Nat.lt_irrefl n (hbelow n _ hinvoked)
  · refine ⟨a, ?_, hcustody.move (by rw [hstage]; rfl) rfl⟩
    change SequentialRun spec a₀ (effects (w.log ++ [_])) a
    rw [effects_append, effects_invoked, List.append_nil]
    exact hrun

theorem LockInv.takeEffect (h : LockInv spec R a₀ scripts w gs) {n : Nat} {out : Out}
    {a' : A} {v : S} {held : Bool}
    (hpending : LockStage.Pending t (scripts t) n w.log)
    (hrun : SequentialRun spec a₀ (effects w.log) a)
    (hspec : spec a (scripts t n) out a')
    (hcustody : Custody R a' v (Function.update gs t (.done n out)) held) :
    LockInv spec R a₀ scripts
      { val := v, held := held, log := w.log ++ [.effect ⟨t, n⟩ (scripts t n) out] }
      (Function.update gs t (.done n out)) := by
  constructor
  · exact h.placed.effect hpending.invoked hpending.fresh
  · refine h.logged_update ?_ ?_ ?_
    · intro u hu m op heq
      cases heq
    · intro u hu m op out heq
      cases heq
      exact hu rfl
    · refine ⟨hpending.below.concat ?_, List.mem_append_right _ (List.mem_singleton_self _)⟩
      intro m op heq
      cases heq
  · refine ⟨a', ?_, hcustody⟩
    change SequentialRun spec a₀ (effects (w.log ++ [_])) a'
    rw [effects_append, effects_effect]
    exact hrun.concat hspec

theorem LockInv.return (h : LockInv spec R a₀ scripts w gs) {n : Nat} {out : Out}
    (hstage : gs t = .done n out) :
    LockInv spec R a₀ scripts (w.record (.returned ⟨t, n⟩ out))
      (Function.update gs t (.idle (n + 1))) := by
  have hlogged := h.logged t
  rw [hstage] at hlogged
  rcases h.custody with ⟨a, hrun, hcustody⟩
  constructor
  · exact h.placed.returned hlogged.2
  · refine h.logged_update ?_ ?_ ?_
    · intro u hu m op heq
      cases heq
    · intro u hu m op out heq
      cases heq
    · refine hlogged.1.concat ?_
      intro m op heq
      cases heq
  · refine ⟨a, ?_, hcustody.move (by rw [hstage]; rfl) rfl⟩
    change SequentialRun spec a₀ (effects (w.log ++ [_])) a
    rw [effects_append, effects_returned, List.append_nil]
    exact hrun

/-!
## Threads
-/

def lockContract (E : Type) (spec : A -> Op -> Out -> A -> Prop) (R : S -> A -> Prop)
    (a₀ : A) (scripts : T -> Nat -> Op) :
    Contract T E Empty (Locked T S Op Out) (LockStage S Out) where
  env := LockedObject.noDevice
  ok := fun _ _ => True
  inv := LockInv spec R a₀ scripts

theorem section_safe {k n : Nat} {start current : S} (p : Prog E S Out) :
    (lockContract E spec R a₀ scripts).Safe t k (.inside n start current)
      (LockedObject.inside p) fun out g => exists s', g = .inside n start s' ∧
        Prog.Runs (fun _ => True) current p out s' := by
  induction k generalizing current p with
  | zero => exact trivial
  | succ k ih =>
      cases p with
      | ret out => exact ⟨current, rfl, Prog.Runs.ret _ _⟩
      | act f next =>
          intro e w gs b w' _ hinv hstage hf
          rcases Option.map_eq_some_iff.mp hf with ⟨⟨b', s'⟩, hfs, hout⟩
          cases hout
          rcases hinv.custody with ⟨a, hrun, hcustody⟩
          rcases hcustody.own hstage with ⟨hheld, hval, hR, hothers⟩
          rw [hval] at hfs
          have hlogged := hinv.logged t
          rw [hstage] at hlogged
          refine ⟨.inside n start s', ?_, ?_⟩
          · constructor
            · exact hinv.placed
            · intro u
              by_cases hu : u = t
              · rw [hu, Function.update_self]
                exact hlogged
              · rw [Function.update_of_ne hu]
                exact hinv.logged u
            · refine ⟨a, hrun, ?_⟩
              change Custody R a s' _ w.held
              rw [hheld]
              refine Custody.taken t n start (Function.update_self ..) ?_ hR
              intro u hu
              rw [Function.update_of_ne hu]
              exact hothers u hu
          · refine Contract.Safe.mono ?_ (ih (next b'))
            intro out g h
            rcases h with ⟨s1, hg, hnext⟩
            exact ⟨s1, hg, Prog.Runs.act trivial hfs hnext⟩
      | loop round x next =>
          have hunroll := @ih current (Prog.unroll round x next)
          rw [LockedObject.inside, Prog.zoom_unroll] at hunroll
          refine Contract.Safe.mono ?_ hunroll
          intro out g h
          rcases h with ⟨s1, hg, hnext⟩
          exact ⟨s1, hg, Prog.Runs.loop hnext⟩

variable {O : LockedObject E S Op Out}

theorem lock_triple (hO : O.Implements spec R) {n : Nat} :
    (lockContract E spec R a₀ scripts).Triple t (.called n)
      (O.lock ⟨t, n⟩ (scripts t n)) fun r g =>
        match r with
        | some out => g = .done n out
        | none => exists v, g = .inside n v v := by
  apply Contract.Triple.action
  intro e w gs r w' _ hinv hstage hf
  have hpending := hinv.logged t
  rw [hstage] at hpending
  rcases hinv.custody with ⟨a, hrun, hcustody⟩
  have hout : (gs t).isInside = false := by rw [hstage]; rfl
  dsimp only at hf
  cases hrefused : O.refused e (scripts t n) with
  | some out =>
      rw [hrefused] at hf
      cases hf
      refine ⟨.done n out, ?_, rfl⟩
      rcases hcustody.found with ⟨v, hR⟩
      exact hinv.takeEffect hpending hrun (hO.refused v a e _ out hR hrefused)
        (hcustody.move hout rfl)
  | none =>
      rw [hrefused] at hf
      cases hheld : w.held with
      | true => simp [hheld] at hf
      | false =>
          simp only [hheld, Bool.false_eq_true, if_false] at hf
          cases hf
          rw [hheld] at hcustody
          refine ⟨.inside n w.val w.val, ?_, w.val, rfl⟩
          constructor
          · exact hinv.placed
          · intro u
            by_cases hu : u = t
            · rw [hu, Function.update_self]
              exact hpending
            · rw [Function.update_of_ne hu]
              exact hinv.logged u
          · exact ⟨a, hrun, hcustody.enter n⟩

theorem unlock_triple (hO : O.Implements spec R) {n : Nat} {start current : S} {out : Out}
    (hbody : Prog.Runs (fun _ => True) start (O.body (scripts t n)) out current) :
    (lockContract E spec R a₀ scripts).Triple t (.inside n start current)
      (LockedObject.unlock ⟨t, n⟩ (scripts t n) out) fun _ g => g = .done n out := by
  apply Contract.Triple.action
  intro e w gs r w' _ hinv hstage hf
  cases hf
  have hpending := hinv.logged t
  rw [hstage] at hpending
  rcases hinv.custody with ⟨a, hrun, hcustody⟩
  rcases hcustody.own hstage with ⟨_, hval, hR, hothers⟩
  rcases hO.body _ _ _ _ _ hR hbody with ⟨a', hspec, hR'⟩
  refine ⟨.done n out, ?_, rfl⟩
  refine hinv.takeEffect hpending hrun hspec (Custody.free ?_ ?_)
  · intro u
    by_cases hu : u = t
    · rw [hu, Function.update_self]
      rfl
    · rw [Function.update_of_ne hu]
      exact hothers u hu
  · change R w.val a'
    rw [hval]
    exact hR'

theorem perform_triple (hO : O.Implements spec R) {n : Nat} :
    (lockContract E spec R a₀ scripts).Triple t (.called n)
      (O.perform ⟨t, n⟩ (scripts t n)) fun out g => g = .done n out := by
  refine (lock_triple hO).bind ?_
  intro r g hr
  cases r with
  | some out => exact Contract.Triple.ret hr
  | none =>
      rcases hr with ⟨v, rfl⟩
      refine Contract.Triple.bind (fun k => section_safe (O.body (scripts t n))) ?_
      intro out g hsection
      rcases hsection with ⟨s', rfl, hbody⟩
      refine (unlock_triple hO hbody).bind ?_
      intro _ g hg
      exact Contract.Triple.ret hg

theorem lockClient_triple (hO : O.Implements spec R) :
    (lockContract E spec R a₀ scripts).Triple t (.idle 0) (O.client t (scripts t))
      fun _ _ => True := by
  refine Contract.Triple.loop (J := fun n g => g = .idle n) (R := fun _ _ => True)
    ?_ ?_ rfl
  · intro n g hg
    subst hg
    refine Contract.Triple.bind (Q := fun _ g => g = .called n) ?_ ?_
    · apply Contract.Triple.action
      intro e w gs _ w' _ hinv hstage hf
      cases hf
      exact ⟨.called n, hinv.invoke hstage, rfl⟩
    · intro _ g hg
      subst hg
      refine (perform_triple hO).bind ?_
      intro out g hg
      subst hg
      refine Contract.Triple.bind (Q := fun _ g => g = .idle (n + 1)) ?_ ?_
      · apply Contract.Triple.action
        intro e w gs _ w' _ hinv hstage hf
        cases hf
        exact ⟨.idle (n + 1), hinv.return hstage, rfl⟩
      · intro _ g hg
        exact Contract.Triple.ret hg
  · intro _ _ _
    exact Contract.Triple.ret trivial

/-- Whatever the interleaving, the calls on a locked object are linearizable, and a free
object is what the calls in their order have made of it. -/
theorem LockedObject.Implements.linearizable (hO : O.Implements spec R) {v : S}
    (hv : R v a₀) (hreach : O.Reachable v scripts w) :
    exists order, Linearizes spec a₀ (history w.log) order ∧
      exists a, SequentialRun spec a₀ order a ∧ (w.held = false -> R w.val a) := by
  rcases hreach with ⟨c, hc, rfl⟩
  have hinit : LockInv spec R a₀ scripts (O.pool v scripts).state fun _ => .idle 0 := by
    constructor
    · exact Placed.nil
    · intro t m op hmem
      cases hmem
    · exact ⟨a₀, rfl, Custody.free (fun _ => rfl) hv⟩
  rcases (lockContract E spec R a₀ scripts).invariant_of_reachable hinit
      (fun t => lockClient_triple hO) (fun d => d.elim) hc with ⟨gs, hinv⟩
  rcases hinv.custody with ⟨a, hrun, hcustody⟩
  refine ⟨effects c.state.log, hinv.placed.linearizes hrun, a, hrun, ?_⟩
  intro hfree
  rw [hfree] at hcustody
  cases hcustody with
  | free _ hR => exact hR

end Steps

end Foundation
end QnxVirtio
