import Mathlib.Logic.Function.Basic
import QnxVirtio.Foundation.Framing
import QnxVirtio.Foundation.Watch

/-!
# Contracts with a log

One thread of a pool keeps a log.  The contract of the pool holds as long as the log is
good, and what the log says is then sound.  What is proved of the programs without a log
carries over.
-/

namespace QnxVirtio
namespace Foundation

/-!
## The log only grows
-/

def Watched.Grows {S V : Type} (w w' : Watched S V) : Prop :=
  w.events <+: w'.events

namespace Prog

variable {E S V α : Type}

theorem within_silent (p : Prog E S α) :
    (silent p : Prog E (Watched S V) α).Within Watched.Grows :=
  Within.zoom (fun w _ _ => List.prefix_refl w.events) (within_any p)

theorem within_marked (note : E -> S -> Option α -> List V) (p : Prog E S α) :
    (marked note p).Within Watched.Grows := by
  cases p with
  | ret a => exact within_ret a
  | act f k =>
      refine ⟨fun e w b w' hf => ?_, fun b => within_silent (k b)⟩
      rcases Option.map_eq_some_iff.mp hf with ⟨out, _, hout⟩
      cases hout
      exact List.prefix_append _ _
  | loop body x k => exact within_silent _

end Prog

/-!
## Contracts
-/

namespace Contract

section Logged

variable {T E D S V G : Type}

/-- A contract next to the log of the thread `writer`; its ghost has a copy. -/
def logged (C : Contract T E D S G) (writer : T) (good sound : List V -> Prop) :
    Contract T E D (Watched S V) (G × List V) where
  env := Pool.watchEnv (fun _ _ => []) C.env
  ok := fun m w => C.ok m w.state ∧ good w.events
  inv := fun w gs => w.events = (gs writer).2 ∧
    (good w.events -> C.inv w.state (Prod.fst ∘ gs) ∧ sound w.events)

variable {C : Contract T E D S G} {writer : T} {good sound : List V -> Prop}

theorem logged_env
    (henv : forall d s gs s', C.ok (.env d) s -> C.inv s gs ->
      C.env d s = some s' -> C.inv s' gs) :
    forall d w gs w', (C.logged writer good sound).ok (.env d) w ->
      (C.logged writer good sound).inv w gs ->
      (C.logged writer good sound).env d w = some w' ->
      (C.logged writer good sound).inv w' gs := by
  rintro d w gs w' ⟨hok, hgood⟩ ⟨hlog, hinv⟩ hd
  rcases Option.map_eq_some_iff.mp hd with ⟨s', hs, rfl⟩
  rcases hinv hgood with ⟨hC, hsound⟩
  dsimp only [logged]
  rw [List.append_nil]
  exact ⟨hlog, fun _ => ⟨henv d w.state _ s' hok hC hs, hsound⟩⟩

end Logged

variable {T E D S V G α β : Type} [DecidableEq T] {C : Contract T E D S G} {writer : T}
  {good sound : List V -> Prop}

theorem Triple.stopped {g : G} {es : List V} (hbad : ¬ good es) {p : Prog E (Watched S V) α}
    {Q : α -> G × List V -> Prop} (hQ : forall a, Q a (g, es)) :
    (C.logged writer good sound).Triple writer (g, es) p Q := by
  intro n
  induction n generalizing α with
  | zero => exact trivial
  | succ n ih =>
      cases p with
      | ret a => exact hQ a
      | act f k =>
          rintro e w gs b w' ⟨_, hgood⟩ ⟨hlog, _⟩ hg _
          rw [hlog, hg] at hgood
          exact absurd hgood hbad
      | loop body x k => exact ih hQ

theorem Safe.silent {t : T} (es : List V) :
    forall {n : Nat} {α : Type} {p : Prog E S α} {g : G} {Q : α -> G -> Prop},
      C.Safe t n g p Q -> (C.logged writer good sound).Safe t n (g, es) (Prog.silent p)
        fun a x => Q a x.1 ∧ x.2 = es := by
  intro n
  induction n with
  | zero => intros; exact trivial
  | succ n ih =>
      intro α p g Q h
      cases p with
      | ret a => exact ⟨h, rfl⟩
      | act f k =>
          rintro e w gs b w' ⟨hok, hgood⟩ ⟨hlog, hinv⟩ hg hf
          rcases Option.map_eq_some_iff.mp hf with ⟨⟨b', s'⟩, hfs, hout⟩
          cases hout
          rcases hinv hgood with ⟨hC, hsound⟩
          rcases h e w.state _ b' s' hok hC (congrArg Prod.fst hg) hfs with
            ⟨g', hC', hrest⟩
          refine ⟨(g', es), ⟨?_, fun _ => ⟨?_, hsound⟩⟩, ih hrest⟩
          · by_cases ht : writer = t
            · subst ht
              rw [hg] at hlog
              rw [Function.update_self]
              exact hlog
            · rw [Function.update_of_ne ht]
              exact hlog
          · rw [Function.comp_update]
            exact hC'
      | loop body x k =>
          have hunroll : Prog.unroll (fun y => Prog.silent (V := V) (body y)) x
              (fun b => Prog.silent (k b)) = Prog.silent (Prog.unroll body x k) :=
            (Prog.zoom_unroll ..).symm
          change (C.logged writer good sound).Safe t n (g, es) (Prog.unroll
            (fun y => Prog.silent (body y)) x fun b => Prog.silent (k b)) _
          rw [hunroll]
          exact ih h

theorem Triple.silent {t : T} {g : G} {p : Prog E S α} {Q : α -> G -> Prop}
    (h : C.Triple t g p Q) (es : List V) :
    (C.logged writer good sound).Triple t (g, es) (Prog.silent p) fun a x =>
      Q a x.1 ∧ x.2 = es :=
  fun n => Safe.silent es (h n)

theorem Triple.marked {f : E -> S -> Option (β × S)} {k : β -> Prog E S α} {g : G}
    {es : List V} {note : E -> S -> Option α -> List V} {Q : α -> G -> Prop}
    {P : List V -> Prop} (h : C.Triple writer g (Prog.act f k) Q)
    (hnote : forall e s gs b s', C.inv s gs -> gs writer = g -> f e s = some (b, s') ->
      sound es -> P (note e s (k b).value) ∧ sound (es ++ note e s (k b).value)) :
    (C.logged writer good sound).Triple writer (g, es)
      (Prog.marked note (Prog.act f k)) fun a x =>
        Q a x.1 ∧ exists l, x.2 = es ++ l ∧ P l := by
  intro n
  cases n with
  | zero => exact trivial
  | succ n =>
      rintro e w gs b w' ⟨hok, hgood⟩ ⟨hlog, hinv⟩ hg hf
      rcases Option.map_eq_some_iff.mp hf with ⟨⟨b', s'⟩, hfs, hout⟩
      cases hout
      rcases hinv hgood with ⟨hC, hsound⟩
      have hes : w.events = es := by
        rw [hlog, hg]
      rw [hes] at hsound
      rcases hnote e w.state _ b' s' hC (congrArg Prod.fst hg) hfs hsound with
        ⟨hP, hsound'⟩
      rcases h (n + 1) e w.state _ b' s' hok hC (congrArg Prod.fst hg) hfs with
        ⟨g', hC', hrest⟩
      refine ⟨(g', es ++ note e w.state (k b').value), ⟨?_, fun _ => ⟨?_, ?_⟩⟩, ?_⟩
      · rw [Function.update_self, hes]
      · rw [Function.comp_update]
        exact hC'
      · rw [hes]
        exact hsound'
      · refine (Safe.silent _ hrest).mono ?_
        rintro a x ⟨hQ, hx⟩
        exact ⟨hQ, _, hx, hP⟩

theorem sound_of_reachable {c₀ c : Pool T E (Watched S V)} {gs₀ : T -> G}
    (hearlier : forall l l', l <+: l' -> good l' -> good l)
    (hinv : C.inv c₀.state.state gs₀) (hevents : c₀.state.events = [])
    (hsound : sound []) (hgrows : forall t, (c₀.thread t).Within Watched.Grows)
    (hthread : forall t, (C.logged writer good sound).Triple t (gs₀ t, []) (c₀.thread t)
      fun _ _ => True)
    (henv : forall d s gs s', C.ok (.env d) s -> C.inv s gs ->
      C.env d s = some s' -> C.inv s' gs)
    (hc : Pool.Reachable (Pool.watchEnv (fun _ _ => []) C.env)
      (fun m w => C.ok m w.state) c₀ c) (hgood : good c.state.events) :
    sound c.state.events := by
  have hheld : Pool.Reachable (C.logged writer good sound).env
      (C.logged writer good sound).ok c₀ c := by
    refine Pool.Reachable.held (M := Watched.Grows) (P := fun w => good w.events)
      (fun w => List.prefix_refl w.events) (fun w w' hgrow => hearlier _ _ hgrow)
      hgrows ?_ hc hgood
    intro d w w' hd
    rcases Option.map_eq_some_iff.mp hd with ⟨s, _, rfl⟩
    exact List.prefix_append _ _
  have hstart : (C.logged writer good sound).inv c₀.state fun t => (gs₀ t, []) := by
    refine ⟨hevents, fun _ => ⟨hinv, ?_⟩⟩
    rw [hevents]
    exact hsound
  rcases invariant_of_reachable hstart hthread (logged_env henv) hheld with ⟨gs, _, hall⟩
  exact (hall hgood).2

end Contract
end Foundation
end QnxVirtio
