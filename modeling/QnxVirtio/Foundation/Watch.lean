import QnxVirtio.Foundation.Answers
import QnxVirtio.Foundation.Pool

/-!
# Watched programs

A watched program notes events next to the state.  It `Watches` a program when it is that
program up to what it notes: then each run of one is a run of the other, with the same
answers and the same result.
-/

namespace QnxVirtio
namespace Foundation

/-- A state and the events so far. -/
structure Watched (S V : Type) where
  state : S
  events : List V

namespace Prog

variable {E S V α β γ : Type}

inductive Watches :
    {α : Type} -> Prog E S α -> Prog E (Watched S V) α -> Prop
  | ret {α : Type} (a : α) : Watches (ret a) (ret a)
  | act {α β : Type} {f : E -> S -> Option (β × S)}
      {g : E -> Watched S V -> Option (β × Watched S V)} {k : β -> Prog E S α}
      {l : β -> Prog E (Watched S V) α} :
      (forall e w, (g e w).map (fun out => (out.1, out.2.state)) = f e w.state) ->
      (forall b, Watches (k b) (l b)) -> Watches (act f k) (act g l)
  | loop {α β γ : Type} {body : γ -> Prog E S (γ ⊕ β)}
      {body' : γ -> Prog E (Watched S V) (γ ⊕ β)} {x : γ} {k : β -> Prog E S α}
      {l : β -> Prog E (Watched S V) α} :
      (forall y, Watches (body y) (body' y)) -> (forall b, Watches (k b) (l b)) ->
      Watches (loop body x k) (loop body' x l)

/-!
## Building watched programs
-/

/-- An action that notes what it was told, what it saw and what it answers. -/
def noting (note : E -> S -> β -> List V) (f : E -> S -> Option (β × S)) :
    Prog E (Watched S V) β :=
  action fun e w => (f e w.state).map fun out =>
    (out.1, { state := out.2, events := w.events ++ note e w.state out.1 })

/-- A program that notes nothing. -/
def silent (p : Prog E S α) : Prog E (Watched S V) α :=
  zoom Watched.state (fun s w => { w with state := s }) p

/-- Note what the last action of a program returns. -/
def noted (note : α -> List V) : Prog E S α -> Prog E (Watched S V) α
  | ret a => ret a
  | act f k =>
      act (fun e w => (f e w.state).map fun out =>
          (out.1, {
            state := out.2
            events := w.events ++
              match k out.1 with
              | ret a => note a
              | act _ _ | loop _ _ _ => [] }))
        fun b => noted note (k b)
  | loop body x k => loop (fun y => silent (body y)) x fun b => noted note (k b)

/-- Note what the first action of a program is told. -/
def asked (note : E -> List V) : Prog E S α -> Prog E (Watched S V) α
  | ret a => ret a
  | act f k =>
      act (fun e w => (f e w.state).map fun out =>
          (out.1, { state := out.2, events := w.events ++ note e }))
        fun b => silent (k b)
  | loop body x k => silent (loop body x k)

/-- What a program returns that does nothing more. -/
def value : Prog E S α -> Option α
  | ret a => some a
  | act _ _ => none
  | loop _ _ _ => none

/-- Note what the first action of a program finds and, if it is the only one, what it
returns. -/
def marked (note : E -> S -> Option α -> List V) :
    Prog E S α -> Prog E (Watched S V) α
  | ret a => ret a
  | act f k =>
      act (fun e w => (f e w.state).map fun out =>
          (out.1, {
            state := out.2
            events := w.events ++ note e w.state (k out.1).value }))
        fun b => silent (k b)
  | loop body x k => silent (loop body x k)

/-- A watched program on a component. -/
def watchedZoom {R : Type} (get : R -> S) (set : S -> R -> R)
    (p : Prog E (Watched S V) α) : Prog E (Watched R V) α :=
  zoom (fun r => { state := get r.state, events := r.events })
    (fun w r => { state := set w.state r.state, events := w.events }) p

theorem asked_action (note : E -> List V) (f : E -> S -> Option (β × S)) :
    asked note (action f) = noting (fun e _ _ => note e) f := rfl

theorem noted_action (note : β -> List V) (f : E -> S -> Option (β × S)) :
    noted note (action f) = noting (fun _ _ b => note b) f := rfl

theorem marked_action (note : E -> S -> Option β -> List V) (f : E -> S -> Option (β × S)) :
    marked note (action f) = noting (fun e s b => note e s (some b)) f := rfl

theorem selects_state :
    Selects (Watched.state : Watched S V -> S) (fun s w => { w with state := s }) where
  get_set _ _ := rfl
  set_set _ _ _ := rfl
  set_get _ := rfl

theorem watches_noting (note : E -> S -> β -> List V) (f : E -> S -> Option (β × S)) :
    Watches (action f) (noting note f) := by
  refine Watches.act (fun e w => ?_) Watches.ret
  rw [Option.map_map]
  exact Option.map_id'

theorem watches_silent (p : Prog E S α) :
    Watches p (silent p : Prog E (Watched S V) α) := by
  induction p with
  | ret a => exact Watches.ret a
  | act f k ih =>
      refine Watches.act (fun e w => ?_) ih
      rw [Option.map_map]
      exact Option.map_id'
  | loop body x k ihBody ih => exact Watches.loop ihBody ih

theorem watches_noted (note : α -> List V) (p : Prog E S α) :
    Watches p (noted note p) := by
  induction p with
  | ret a => exact Watches.ret a
  | act f k ih =>
      refine Watches.act (fun e w => ?_) fun b => ih b note
      rw [Option.map_map]
      exact Option.map_id'
  | loop body x k _ ih =>
      exact Watches.loop (fun y => watches_silent (body y)) fun b => ih b note

theorem watches_asked (note : E -> List V) (p : Prog E S α) :
    Watches p (asked note p) := by
  cases p with
  | ret a => exact Watches.ret a
  | act f k =>
      refine Watches.act (fun e w => ?_) fun b => watches_silent (k b)
      rw [Option.map_map]
      exact Option.map_id'
  | loop body x k => exact watches_silent _

theorem watches_marked (note : E -> S -> Option α -> List V) (p : Prog E S α) :
    Watches p (marked note p) := by
  cases p with
  | ret a => exact Watches.ret a
  | act f k =>
      refine Watches.act (fun e w => ?_) fun b => watches_silent (k b)
      rw [Option.map_map]
      exact Option.map_id'
  | loop body x k => exact watches_silent _

theorem Watches.zoom {R : Type} {get : R -> S} {set : S -> R -> R} {p : Prog E S α}
    {q : Prog E (Watched S V) α} (h : Watches p q) :
    Watches (Prog.zoom get set p) (watchedZoom get set q) := by
  induction h with
  | ret a => exact Watches.ret a
  | @act _ _ f g k l hstep _ ih =>
      refine Watches.act (fun e w => ?_) ih
      have hget := hstep e ⟨get w.state, w.events⟩
      rw [← hget, Option.map_map, Option.map_map]
      rfl
  | loop _ _ ihBody ih => exact Watches.loop ihBody ih

theorem Watches.bind {p : Prog E S α} {q : Prog E (Watched S V) α}
    {f : α -> Prog E S β} {g : α -> Prog E (Watched S V) β} (hp : Watches p q)
    (hf : forall a, Watches (f a) (g a)) : Watches (p.bind f) (q.bind g) := by
  induction hp with
  | ret a => exact hf a
  | act hstep _ ih => exact Watches.act hstep fun b => ih b hf
  | loop hbody _ _ ih => exact Watches.loop hbody fun b => ih b hf

theorem Watches.unroll {body : γ -> Prog E S (γ ⊕ β)}
    {body' : γ -> Prog E (Watched S V) (γ ⊕ β)} {x : γ} {k : β -> Prog E S α}
    {l : β -> Prog E (Watched S V) α} (hbody : forall y, Watches (body y) (body' y))
    (hk : forall b, Watches (k b) (l b)) :
    Watches (Prog.unroll body x k) (Prog.unroll body' x l) := by
  refine (hbody x).bind fun r => ?_
  cases r with
  | inl y => exact Watches.loop hbody hk
  | inr b => exact hk b

theorem watches_iterate {body : γ -> Prog E S (γ ⊕ β)}
    {body' : γ -> Prog E (Watched S V) (γ ⊕ β)} (h : forall y, Watches (body y) (body' y))
    (x : γ) : Watches (iterate body x) (iterate body' x) :=
  Watches.loop h Watches.ret

/-!
## Runs
-/

section Runs

variable {σ : Nat -> E} {i j : Nat}

theorem Watches.runsOn {p : Prog E S α} {q : Prog E (Watched S V) α} {s s' : S} {a : α}
    (h : Watches p q) (hrun : RunsOn σ i s p a s' j) (es : List V) :
    exists es', RunsOn σ i ⟨s, es⟩ q a ⟨s', es'⟩ j := by
  induction hrun generalizing q es with
  | ret i s a =>
      cases h with
      | ret _ => exact ⟨es, RunsOn.ret _ _ _⟩
  | act hf _ ih =>
      cases h with
      | act hstep hk =>
          rcases Option.map_eq_some_iff.mp ((hstep _ ⟨_, es⟩).trans hf) with
            ⟨⟨b, w⟩, hg, hout⟩
          cases hout
          rcases ih (hk b) w.events with ⟨es', hrest⟩
          exact ⟨es', RunsOn.act hg hrest⟩
  | loop _ ih =>
      cases h with
      | loop hbody hk =>
          rcases ih (Watches.unroll hbody hk) es with ⟨es', hrest⟩
          exact ⟨es', RunsOn.loop hrest⟩

theorem Watches.of_runsOn {p : Prog E S α} {q : Prog E (Watched S V) α}
    {w w' : Watched S V} {a : α} (h : Watches p q) (hrun : RunsOn σ i w q a w' j) :
    RunsOn σ i w.state p a w'.state j := by
  induction hrun generalizing p with
  | ret i w a =>
      cases h with
      | ret _ => exact RunsOn.ret _ _ _
  | act hg _ ih =>
      cases h with
      | act hstep hk =>
          exact RunsOn.act (by rw [← hstep, hg]; rfl) (ih (hk _))
  | loop _ ih =>
      cases h with
      | loop hbody hk => exact RunsOn.loop (ih (Watches.unroll hbody hk))

theorem runsOn_noting_iff {note : E -> S -> β -> List V} {f : E -> S -> Option (β × S)}
    {w w' : Watched S V} {b : β} :
    RunsOn σ i w (noting note f) b w' j <-> exists s, f (σ i) w.state = some (b, s) ∧
      w' = ⟨s, w.events ++ note (σ i) w.state b⟩ ∧ j = i + 1 := by
  unfold noting
  rw [runsOn_action_iff]
  constructor
  · rintro ⟨hf, rfl⟩
    rcases Option.map_eq_some_iff.mp hf with ⟨⟨b', s⟩, hfs, hout⟩
    cases hout
    exact ⟨s, hfs, rfl, rfl⟩
  · rintro ⟨s, hfs, rfl, rfl⟩
    rw [hfs]
    exact ⟨rfl, rfl⟩

theorem runsOn_noted_iff {note : β -> List V} {f : E -> S -> Option (β × S)}
    {w w' : Watched S V} {b : β} :
    RunsOn σ i w (noted note (action f)) b w' j <->
      RunsOn σ i w.state (action f) b w'.state j ∧ w'.events = w.events ++ note b := by
  rw [noted_action, runsOn_noting_iff, runsOn_action_iff]
  constructor
  · rintro ⟨s, hf, rfl, rfl⟩
    exact ⟨⟨hf, rfl⟩, rfl⟩
  · rintro ⟨⟨hf, rfl⟩, hw⟩
    exact ⟨w'.state, hf, by rw [← hw], rfl⟩

theorem runsOn_asked_iff {note : E -> List V} {f : E -> S -> Option (β × S)}
    {w w' : Watched S V} {b : β} :
    RunsOn σ i w (asked note (action f)) b w' j <->
      RunsOn σ i w.state (action f) b w'.state j ∧
        w'.events = w.events ++ note (σ i) := by
  rw [asked_action, runsOn_noting_iff, runsOn_action_iff]
  constructor
  · rintro ⟨s, hf, rfl, rfl⟩
    exact ⟨⟨hf, rfl⟩, rfl⟩
  · rintro ⟨⟨hf, rfl⟩, hw⟩
    exact ⟨w'.state, hf, by rw [← hw], rfl⟩

theorem runsOn_watchedZoom {R : Type} {get : R -> S} {set : S -> R -> R}
    (hsel : Selects get set) {p : Prog E (Watched S V) α} {a : α} {w w' : Watched R V}
    (hrun : RunsOn σ i w (watchedZoom get set p) a w' j) :
    RunsOn σ i ⟨get w.state, w.events⟩ p a ⟨get w'.state, w'.events⟩ j ∧
      w'.state = set (get w'.state) w.state := by
  have hsel' : Selects (fun r : Watched R V => (⟨get r.state, r.events⟩ : Watched S V))
      (fun w r => ⟨set w.state r.state, w.events⟩) := by
    constructor
    · intro w r
      simp only [hsel.get_set]
    · intro w w' r
      simp only [hsel.set_set]
    · intro r
      simp only [hsel.set_get]
  rcases runsOn_zoom hsel' hrun with ⟨h, hw⟩
  exact ⟨h, congrArg Watched.state hw⟩

theorem runsOn_silent {p : Prog E S α} {w w' : Watched S V} {a : α}
    (hrun : RunsOn σ i w (silent p) a w' j) :
    RunsOn σ i w.state p a w'.state j ∧ w'.events = w.events := by
  rcases runsOn_zoom selects_state hrun with ⟨h, hw⟩
  refine ⟨h, ?_⟩
  rw [hw]

end Runs

/-!
## Steps
-/

section Steps

variable {p p' : Prog E S α} {q q' : Prog E (Watched S V) α} {e : E}
  {w w' : Watched S V} {s : S}

theorem Watches.step (h : Watches p q) (hstep : p.step e w.state = some (s, p')) :
    exists w' q', q.step e w = some (w', q') ∧ w'.state = s ∧ Watches p' q' := by
  cases h with
  | ret a => cases hstep
  | act hact hk =>
      rcases Option.map_eq_some_iff.mp hstep with ⟨⟨b, s1⟩, hf, hout⟩
      cases hout
      rcases Option.map_eq_some_iff.mp ((hact e w).trans hf) with ⟨⟨b', w'⟩, hg, hout⟩
      cases hout
      refine ⟨w', _, ?_, rfl, hk b'⟩
      simp only [Prog.step, hg, Option.map_some]
  | loop hbody hk =>
      cases hstep
      exact ⟨w, _, rfl, rfl, Watches.unroll hbody hk⟩

theorem Watches.of_step (h : Watches p q) (hstep : q.step e w = some (w', q')) :
    exists p', p.step e w.state = some (w'.state, p') ∧ Watches p' q' := by
  cases h with
  | ret a => cases hstep
  | act hact hk =>
      rcases Option.map_eq_some_iff.mp hstep with ⟨⟨b, w1⟩, hg, hout⟩
      cases hout
      refine ⟨_, ?_, hk b⟩
      simp only [Prog.step, ← hact, hg, Option.map_some]
  | loop hbody hk =>
      cases hstep
      exact ⟨_, rfl, Watches.unroll hbody hk⟩

end Steps

end Prog

/-!
## Watched pools
-/

namespace Pool

variable {T E D S V : Type} [DecidableEq T]

/-- The surroundings, with a note of what they do. -/
def watchEnv (note : D -> S -> List V) (env : D -> S -> Option S) (d : D)
    (w : Watched S V) : Option (Watched S V) :=
  (env d w.state).map fun s => { state := s, events := w.events ++ note d w.state }

/-- A pool with its events next to the pool without them. -/
structure Watches (c : Pool T E S) (q : Pool T E (Watched S V)) : Prop where
  state : q.state.state = c.state
  thread : forall t, Prog.Watches (c.thread t) (q.thread t)

variable {note : D -> S -> List V} {env : D -> S -> Option S}
  {ok : Move T E D -> S -> Prop} {c₀ c : Pool T E S} {q₀ q : Pool T E (Watched S V)}

theorem Watches.update {t : T} {s : S} {p : Prog E S Unit} {w : Watched S V}
    {p' : Prog E (Watched S V) Unit} (h : Watches c q) (hstate : w.state = s)
    (hp : Prog.Watches p p') :
    Watches { state := s, thread := Function.update c.thread t p }
      { state := w, thread := Function.update q.thread t p' } where
  state := hstate
  thread := by
    intro u
    by_cases hu : u = t
    · subst hu
      simpa using hp
    · simpa [Function.update_of_ne hu] using h.thread u

theorem Reachable.watch (h₀ : Watches c₀ q₀) (hc : Reachable env ok c₀ c) :
    exists q, Reachable (watchEnv note env) (fun m w => ok m w.state) q₀ q ∧
      Watches c q := by
  induction hc with
  | refl => exact ⟨q₀, Reachable.refl, h₀⟩
  | @step c c' m _ hok hstep ih =>
      rcases ih with ⟨q, hq, hwatch⟩
      rw [← hwatch.state] at hok
      cases m with
      | thread t e =>
          rcases Option.map_eq_some_iff.mp hstep with ⟨⟨s, p⟩, hp, rfl⟩
          rw [← hwatch.state] at hp
          rcases (hwatch.thread t).step hp with ⟨w, p', hp', hstate, hthread⟩
          exact ⟨_, hq.inside t e hok hp', hwatch.update hstate hthread⟩
      | env d =>
          rcases Option.map_eq_some_iff.mp hstep with ⟨s, hd, rfl⟩
          rw [← hwatch.state] at hd
          have hd' : watchEnv note env d q.state =
              some ⟨s, q.state.events ++ note d q.state.state⟩ := by
            simp only [watchEnv, hd, Option.map_some]
          exact ⟨_, hq.outside d hok hd', ⟨rfl, hwatch.thread⟩⟩

theorem Reachable.of_watch (h₀ : Watches c₀ q₀)
    (hq : Reachable (watchEnv note env) (fun m w => ok m w.state) q₀ q) :
    exists c, Reachable env ok c₀ c ∧ Watches c q := by
  induction hq with
  | refl => exact ⟨c₀, Reachable.refl, h₀⟩
  | @step q q' m _ hok hstep ih =>
      rcases ih with ⟨c, hc, hwatch⟩
      rw [hwatch.state] at hok
      cases m with
      | thread t e =>
          rcases Option.map_eq_some_iff.mp hstep with ⟨⟨w, p'⟩, hp', rfl⟩
          rcases (hwatch.thread t).of_step hp' with ⟨p, hp, hthread⟩
          rw [hwatch.state] at hp
          exact ⟨_, hc.inside t e hok hp, hwatch.update rfl hthread⟩
      | env d =>
          rcases Option.map_eq_some_iff.mp hstep with ⟨w, hd', rfl⟩
          rcases Option.map_eq_some_iff.mp hd' with ⟨s, hd, rfl⟩
          rw [hwatch.state] at hd
          exact ⟨_, hc.outside d hok hd, ⟨rfl, hwatch.thread⟩⟩

/-- Watching changes nothing. -/
theorem watched_iff (h₀ : Watches c₀ q₀) {s : S} :
    (exists c, Reachable env ok c₀ c ∧ c.state = s) <->
      exists events q, Reachable (watchEnv note env) (fun m w => ok m w.state) q₀ q ∧
        q.state = ⟨s, events⟩ := by
  constructor
  · rintro ⟨c, hc, rfl⟩
    have hwatched : exists q, Reachable (watchEnv note env) (fun m w => ok m w.state) q₀ q ∧
        Watches c q := hc.watch h₀
    rcases hwatched with ⟨q, hq, hwatches⟩
    exact ⟨q.state.events, q, hq, by rw [← hwatches.state]⟩
  · rintro ⟨events, q, hq, hstate⟩
    rcases hq.of_watch h₀ with ⟨c, hc, hwatches⟩
    exact ⟨c, hc, by rw [← hwatches.state, hstate]⟩

end Pool
end Foundation
end QnxVirtio
