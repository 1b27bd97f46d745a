import Mathlib.Data.Nat.Pairing
import QnxVirtio.Gpio.FairRuns

/-!
# A fair schedule

Clients, the interrupt thread and the device take turns, and each client gets its turn
again and again.  The device works on one chain at a time, in the order of their
publication.
-/

namespace QnxVirtio

open Foundation

/-!
## The device
-/

/-- What the device does when it is its turn. -/
def deviceTurn (w : GpioSystem) : GpioDeviceMove :=
  if w.raise then .raiseVirtq
  else if w.queue.published.length <= w.device.produced.length then .raiseConfig
  else if w.device.pending.isSome then .bump
  else if w.device.produced.length < w.answers.length then .store w.device.produced.length 2
  else if w.answers.length < w.device.consumed.length then .answer w.answers.length 0 0
  else .take

/-- The device has worked on the chains in their order, and on one at a time. -/
structure InOrder (w : GpioSystem) : Prop where
  answers : w.answers.map GpioAnswer.pos = List.range w.answers.length
  positions : w.device.positions = List.range w.device.produced.length
  pending : forall e, w.device.pending = some e -> e.pos = w.device.produced.length
  consumed : w.device.consumed.length <= w.device.produced.length + 1

/-- Something is left for the device to do. -/
def GpioSystem.Due (w : GpioSystem) : Prop :=
  w.raise = true ∨ w.device.produced.length < w.queue.published.length

/-- The work that the device has done. -/
def GpioSystem.work (w : GpioSystem) : Nat :=
  2 * (w.device.consumed.length + w.answers.length + 2 * w.device.produced.length +
    w.device.pending.toList.length) + if w.raise then 0 else 1

section Turn

variable {mode : GpioMode} {scripts : Nat -> Nat -> GpioCall} {w w' : GpioSystem}
  {gs : GpioThread -> GpioGhost} {fl : Nat -> Holding}

theorem InOrder.initial (obj : VirtqObject) (mem : Memory) : InOrder (obj.gpioSystem mem) where
  answers := rfl
  positions := rfl
  pending := fun _ he => by cases he
  consumed := Nat.zero_le _

theorem InOrder.congr (h : InOrder w) (hdevice : w'.device = w.device)
    (hanswers : w'.answers = w.answers) : InOrder w' := by
  constructor
  · rw [hanswers]
    exact h.answers
  · rw [hdevice]
    exact h.positions
  · rw [hdevice]
    exact h.pending
  · rw [hdevice]
    exact h.consumed

theorem work_congr (hdevice : w'.device = w.device) (hanswers : w'.answers = w.answers)
    (hraise : w'.raise = w.raise) : w'.work = w.work := by
  unfold GpioSystem.work
  rw [hdevice, hanswers, hraise]

theorem InOrder.answers_le (h : InOrder w) (hflow : FlowInv scripts w fl) :
    w.answers.length <= w.device.consumed.length := by
  cases hlen : w.answers.length with
  | zero => exact Nat.zero_le _
  | succ k =>
      have hmem : k ∈ w.answers.map GpioAnswer.pos := by
        rw [h.answers, hlen]
        exact List.mem_range.mpr (Nat.lt_succ_self k)
      rcases List.mem_map.mp hmem with ⟨a, ha, heq⟩
      have hlt := (hflow.answered a ha).1
      rw [heq] at hlt
      exact hlt

/-- One more unit of work. -/
def Works (move : GpioDeviceMove) (w : GpioSystem) : Prop :=
  exists w', gpioEnv move w = some w' ∧ InOrder w' ∧ w.work < w'.work

theorem works_raise (h : InOrder w) (hraise : w.raise = true) : Works .raiseVirtq w := by
  refine ⟨_, if_pos hraise, h.congr rfl rfl, ?_⟩
  simp [GpioSystem.work, hraise]

theorem works_bump (h : InOrder w) {e : UsedEntry} (hpending : w.device.pending = some e)
    (hraise : w.raise = false) : Works .bump w := by
  have hbump : w.device.bump w.queue.vq = some ({ w.queue.vq with
      usedIdx := w.queue.vq.usedIdx + 1 }, { w.device with
      pending := none, produced := w.device.produced ++ [e] }) := by
    unfold Device.bump
    rw [hpending]
    rfl
  refine ⟨_, by rw [gpioEnv, hbump]; rfl, ?_, ?_⟩
  · constructor
    · exact h.answers
    · have hpositions := h.positions
      unfold Device.positions at hpositions ⊢
      rw [List.map_append, hpositions, List.length_append, List.length_singleton,
        List.range_succ, List.map_singleton, h.pending e hpending]
    · intro e' he'
      cases he'
    · change _ <= (w.device.produced ++ [e]).length + 1
      rw [List.length_append]
      exact Nat.le_trans h.consumed (Nat.le_add_right _ _)
  · simp only [GpioSystem.work, hpending, hraise, List.length_append, List.length_singleton,
      Option.toList_some, Option.toList_none, List.length_nil, if_true]
    simp
    omega

theorem works_store (hinv : GpioInv mode scripts w gs fl) (h : InOrder w)
    (hpending : w.device.pending = none)
    (hlt : w.device.produced.length < w.answers.length) :
    Works (.store w.device.produced.length 2) w := by
  have hanswered : w.device.produced.length ∈ w.answers.map GpioAnswer.pos := by
    rw [h.answers]
    exact List.mem_range.mpr hlt
  have hnew : w.device.produced.length ∉ w.device.positions := by
    rw [h.positions, List.mem_range]
    exact Nat.lt_irrefl _
  have hhead := List.getElem?_eq_getElem
    (Nat.lt_of_lt_of_le hlt (h.answers_le hinv.flow))
  refine ⟨_, by rw [gpioEnv, if_pos hanswered, Device.store_eq hpending hhead hnew]; rfl,
    ?_, ?_⟩
  · constructor
    · exact h.answers
    · exact h.positions
    · intro e he
      cases he
      rfl
    · exact h.consumed
  · simp only [GpioSystem.work, hpending, Option.toList_some, Option.toList_none,
      List.length_nil, List.length_singleton]
    omega

theorem works_answer (hinv : GpioInv mode scripts w gs fl) (h : InOrder w)
    (hlt : w.answers.length < w.device.consumed.length) :
    Works (.answer w.answers.length 0 0) w := by
  have hnew : w.answers.length ∉ w.answers.map GpioAnswer.pos := by
    rw [h.answers, List.mem_range]
    exact Nat.lt_irrefl _
  rcases Option.isSome_iff_exists.mp (hinv.canAnswer hlt hnew 0 0) with ⟨w', hw'⟩
  refine ⟨w', hw', ?_⟩
  rcases GpioSystem.answerRequest_cases hw' with ⟨head, _, _, rfl⟩
  constructor
  · constructor
    · dsimp only
      rw [List.map_append, h.answers, List.length_append, List.length_singleton,
        List.range_succ]
      rfl
    · exact h.positions
    · exact h.pending
    · exact h.consumed
  · simp only [GpioSystem.work, List.length_append, List.length_singleton]
    omega

theorem works_take (hinv : GpioInv mode scripts w gs fl) (h : InOrder w)
    (hdone : w.device.consumed.length <= w.device.produced.length)
    (hlt : w.device.consumed.length < w.queue.published.length) : Works .take w := by
  rcases Option.isSome_iff_exists.mp (hinv.canTake hlt) with ⟨w', hw'⟩
  refine ⟨w', hw', ?_⟩
  rcases Option.map_eq_some_iff.mp hw' with ⟨d, hd, rfl⟩
  unfold Device.take at hd
  split at hd
  · cases hd
  · cases hd
    constructor
    · constructor
      · exact h.answers
      · exact h.positions
      · exact h.pending
      · change (w.device.consumed ++ [_]).length <= _
        rw [List.length_append]
        exact Nat.succ_le_succ hdone
    · simp only [GpioSystem.work, List.length_append, List.length_singleton]
      omega

theorem works_deviceTurn (hinv : GpioInv mode scripts w gs fl) (h : InOrder w)
    (hdue : w.Due) : Works (deviceTurn w) w := by
  unfold deviceTurn
  split
  · rename_i hraise
    exact works_raise h hraise
  · rename_i hraise
    have hlt : w.device.produced.length < w.queue.published.length :=
      hdue.resolve_left hraise
    rw [if_neg (Nat.not_le_of_lt hlt)]
    split
    · rename_i hsome
      rcases Option.isSome_iff_exists.mp hsome with ⟨e, he⟩
      exact works_bump h he (Bool.eq_false_iff.mpr hraise)
    · rename_i hnone
      split
      · rename_i hanswered
        exact works_store hinv h (Option.not_isSome_iff_eq_none.mp hnone) hanswered
      · rename_i hstored
        split
        · rename_i hread
          exact works_answer hinv h hread
        · rename_i hanswered
          have hdone : w.device.consumed.length <= w.device.produced.length :=
            Nat.le_trans (Nat.le_of_not_lt hanswered) (Nat.le_of_not_lt hstored)
          exact works_take hinv h hdone (Nat.lt_of_le_of_lt hdone hlt)

theorem deviceTurn_idle (hidle : ¬ w.Due) : deviceTurn w = .raiseConfig := by
  unfold deviceTurn
  rw [if_neg fun hraise => hidle (Or.inl hraise),
    if_pos (Nat.le_of_not_lt fun hlt => hidle (Or.inr hlt))]

theorem InOrder.work_le (h : InOrder w) (hflow : FlowInv scripts w fl) {k : Nat}
    (hproduced : w.device.produced.length <= k) : w.work <= 8 * k + 7 := by
  have hanswers := h.answers_le hflow
  have hconsumed := h.consumed
  have hpending : w.device.pending.toList.length <= 1 := by
    cases w.device.pending with
    | none => exact Nat.zero_le 1
    | some e => exact Nat.le_refl 1
  have hraise : (if w.raise then 0 else 1) <= 1 := by
    split
    · exact Nat.zero_le 1
    · exact Nat.le_refl 1
  unfold GpioSystem.work
  omega

end Turn

/-!
## Turns
-/

/-- An answer of the system that grants a mapping of its own at each point in time. -/
def mappingAnswer (n : Nat) : Env :=
  { mmap := .ok (4096 * (1024 + n), 4096 * (1024 + n)) }

/-- The client whose turn is at `n`. -/
def clientTurn (n : Nat) : GpioThread :=
  .client (n / 3).unpair.1

/-- What may be done at `n`, the best first. -/
def turnMoves (n : Nat) (w : GpioSystem) : List GpioMove :=
  if n % 3 = 0 then
    [.thread (clientTurn n) (mappingAnswer n), .thread (clientTurn n) {}]
  else if n % 3 = 1 then [.thread .ist {}]
  else [.env (deviceTurn w)]

def takeTurns (n : Nat) (c : Pool GpioThread Env GpioSystem) : GpioMove :=
  c.firstPossible gpioEnv (.env .raiseConfig) (turnMoves n c.state)

theorem takeTurns_isSome (n : Nat) (c : Pool GpioThread Env GpioSystem) :
    (c.step gpioEnv (takeTurns n c)).isSome = true :=
  Pool.firstPossible_isSome rfl

theorem turnMoves_served {n : Nat} {w : GpioSystem} {move : GpioMove}
    (hmove : move ∈ turnMoves n w) : steadyMove move = true ∧ granted move := by
  unfold turnMoves at hmove
  split at hmove
  · rcases List.mem_cons.mp hmove with rfl | hmove
    · exact ⟨rfl, rfl, rfl⟩
    · rcases List.mem_singleton.mp hmove with rfl
      exact ⟨rfl, rfl, rfl⟩
  · split at hmove
    · rcases List.mem_singleton.mp hmove with rfl
      exact ⟨rfl, rfl, rfl⟩
    · rcases List.mem_singleton.mp hmove with rfl
      exact ⟨rfl, trivial⟩

theorem takeTurns_served (n : Nat) (c : Pool GpioThread Env GpioSystem) :
    servedOk (takeTurns n c) c.state := by
  have hmove : takeTurns n c ∈ .env .raiseConfig :: turnMoves n c.state :=
    Pool.firstPossible_mem
  have hserved : steadyMove (takeTurns n c) = true ∧ granted (takeTurns n c) := by
    rcases List.mem_cons.mp hmove with heq | hmem
    · rw [heq]
      exact ⟨rfl, trivial⟩
    · exact turnMoves_served hmem
  exact ⟨gpioOk_of_steady _ hserved.1 c.state, hserved.2⟩

section Runs

variable {transport : Transport} {config : VirtioGpioConfig} {obj : VirtqObject}
  {mem : Memory} {scripts : Nat -> Nat -> GpioCall}
  {R : Pool.Run gpioEnv servedOk (gpioPool transport config obj mem scripts)} {n : Nat}

/-- The moves of the run are those of the schedule. -/
def TakesTurns (R : Pool.Run gpioEnv servedOk (gpioPool transport config obj mem scripts)) :
    Prop :=
  forall n, R.move n = takeTurns n (R.pool n)

theorem exists_takesTurns (transport : Transport) (config : VirtioGpioConfig)
    (obj : VirtqObject) (mem : Memory) (scripts : Nat -> Nat -> GpioCall) :
    exists R : Pool.Run gpioEnv servedOk (gpioPool transport config obj mem scripts),
      TakesTurns R :=
  ⟨Pool.Run.ofSchedule takeTurns _ takeTurns_isSome takeTurns_served, fun _ => rfl⟩

namespace TakesTurns

theorem turn (h : TakesTurns R) {t : GpioThread}
    (hall : forall w move, move ∈ turnMoves n w -> exists e, move = .thread t e)
    (hmem : forall w, .thread t {} ∈ turnMoves n w) :
    R.Moves t n ∨ R.Blocked unmapped t n := by
  cases hstep : ((R.pool n).thread t).step {} (R.pool n).state with
  | none => exact Or.inr ⟨{}, ⟨_, rfl⟩, hstep⟩
  | some r =>
      have hpossible : ((R.pool n).step gpioEnv (.thread t {})).isSome = true := by
        rw [Pool.step, Option.isSome_map, hstep]
        rfl
      rcases hall (R.pool n).state _
        (Pool.firstPossible_mem_of (hmem (R.pool n).state) hpossible) with ⟨e, he⟩
      exact Or.inl ⟨e, (h n).trans he⟩

theorem fair_ist (h : TakesTurns R) : R.Fair unmapped .ist := by
  intro n
  refine ⟨3 * n + 1, by omega, h.turn ?_ ?_⟩
  · intro w move hmove
    rw [turnMoves, if_neg (by omega), if_pos (by omega)] at hmove
    exact ⟨{}, List.mem_singleton.mp hmove⟩
  · intro w
    rw [turnMoves, if_neg (by omega), if_pos (by omega)]
    exact List.mem_singleton.mpr rfl

theorem fair_client (h : TakesTurns R) (t : Nat) : R.Fair unmapped (.client t) := by
  intro n
  have hturn : clientTurn (3 * Nat.pair t n) = .client t := by
    rw [clientTurn, Nat.mul_div_cancel_left _ (by omega), Nat.unpair_pair]
  have hlater : n <= 3 * Nat.pair t n :=
    Nat.le_trans (Nat.right_le_pair t n) (Nat.le_mul_of_pos_left _ (by omega))
  refine ⟨3 * Nat.pair t n, hlater, h.turn ?_ ?_⟩
  · intro w move hmove
    rw [turnMoves, if_pos (Nat.mul_mod_right 3 _), hturn] at hmove
    rcases List.mem_cons.mp hmove with rfl | hmove
    · exact ⟨_, rfl⟩
    · exact ⟨_, List.mem_singleton.mp hmove⟩
  · intro w
    rw [turnMoves, if_pos (Nat.mul_mod_right 3 _), hturn]
    exact List.mem_cons_of_mem _ (List.mem_singleton.mpr rfl)

end TakesTurns

/-!
## The device in the schedule
-/

/-- What a step does to the work of the device. -/
structure TurnStep (n : Nat) (move : GpioMove) (w w' : GpioSystem) : Prop where
  order : InOrder w'
  work : w.work <= w'.work
  raise : w.raise = true -> n % 3 ≠ 2 -> w'.raise = true
  due : n % 3 = 2 -> w.Due -> move = .env (deviceTurn w) ∧ w.work < w'.work

theorem TurnStep.quiet {move : GpioMove} {w w' : GpioSystem} (hord : InOrder w)
    (hdevice : w'.device = w.device) (hanswers : w'.answers = w.answers)
    (hraise : w'.raise = w.raise) (hdue : n % 3 = 2 -> ¬ w.Due) : TurnStep n move w w' where
  order := hord.congr hdevice hanswers
  work := Nat.le_of_eq (work_congr hdevice hanswers hraise).symm
  raise := fun h _ => hraise.trans h
  due := fun hturn h => absurd h (hdue hturn)

theorem turnStep_of_quiet (hord : InOrder (R.pool n).state)
    (hmove : R.move n = .env .raiseConfig ∨ exists t, R.Moves t n)
    (hdue : n % 3 = 2 -> ¬ (R.pool n).state.Due) :
    TurnStep n (R.move n) (R.pool n).state (R.pool (n + 1)).state := by
  rcases hmove with hmove | ⟨t, hmoves⟩
  · have henv := Option.some.inj (R.env_of_move hmove)
    rw [← henv]
    exact TurnStep.quiet hord rfl rfl rfl hdue
  · have hstep := R.within_of_move DriverStep.refl
      (DriverStep.thread transport config scripts t) hmoves
    exact TurnStep.quiet hord hstep.device hstep.answers hstep.raise hdue

namespace TakesTurns

theorem step (h : TakesTurns R) {mode : GpioMode} {gs : GpioThread -> GpioGhost}
    {fl : Nat -> Holding} (hinv : GpioInv mode scripts (R.pool n).state gs fl)
    (hord : InOrder (R.pool n).state) :
    TurnStep n (R.move n) (R.pool n).state (R.pool (n + 1)).state := by
  by_cases hgo : n % 3 = 2 ∧ (R.pool n).state.Due
  · rcases works_deviceTurn hinv hord hgo.2 with ⟨w', hw', hord', hlt⟩
    have hmove : R.move n = .env (deviceTurn (R.pool n).state) := by
      rw [h n, takeTurns, turnMoves, if_neg (by omega), if_neg (by omega),
        Pool.firstPossible, if_pos]
      rw [Pool.step, Option.isSome_map, hw']
      rfl
    rw [← Option.some.inj (hw'.symm.trans (R.env_of_move hmove))]
    exact ⟨hord', Nat.le_of_lt hlt, fun _ hne => absurd hgo.1 hne, fun _ _ => ⟨hmove, hlt⟩⟩
  · refine turnStep_of_quiet hord ?_ fun hmod hdue => hgo ⟨hmod, hdue⟩
    have hmem : R.move n ∈ .env .raiseConfig :: turnMoves n (R.pool n).state := by
      rw [h n]
      exact Pool.firstPossible_mem
    rcases List.mem_cons.mp hmem with hresort | hturn
    · exact Or.inl hresort
    · unfold turnMoves at hturn
      split at hturn
      · refine Or.inr ⟨clientTurn n, ?_⟩
        rcases List.mem_cons.mp hturn with hmove | hturn
        · exact ⟨_, hmove⟩
        · exact ⟨_, List.mem_singleton.mp hturn⟩
      · split at hturn
        · exact Or.inr ⟨.ist, _, List.mem_singleton.mp hturn⟩
        · refine Or.inl ?_
          have hidle : ¬ (R.pool n).state.Due := fun hdue => hgo ⟨by omega, hdue⟩
          rw [List.mem_singleton.mp hturn, deviceTurn_idle hidle]

variable {mode : GpioMode}

theorem steps (h : TakesTurns R)
    (hinv : forall n, exists gs fl, GpioInv mode scripts (R.pool n).state gs fl) (n : Nat) :
    InOrder (R.pool n).state ∧
      TurnStep n (R.move n) (R.pool n).state (R.pool (n + 1)).state := by
  have horder : InOrder (R.pool n).state := by
    induction n with
    | zero =>
        rw [R.start]
        exact InOrder.initial obj mem
    | succ n ih =>
        rcases hinv n with ⟨gs, fl, hn⟩
        exact (h.step hn ih).order
  rcases hinv n with ⟨gs, fl, hn⟩
  exact ⟨horder, h.step hn horder⟩

theorem work_mono (h : TakesTurns R)
    (hinv : forall n, exists gs fl, GpioInv mode scripts (R.pool n).state gs fl) {n m : Nat}
    (hle : n <= m) : (R.pool n).state.work <= (R.pool m).state.work := by
  induction hle with
  | refl => exact Nat.le_refl _
  | @step m _ ih => exact Nat.le_trans ih (h.steps hinv m).2.work

theorem exists_deviceTurn (n : Nat) :
    exists k, (n + k) % 3 = 2 ∧ forall j, j < k -> (n + j) % 3 ≠ 2 :=
  ⟨2 - n % 3, by omega, fun j hj => by omega⟩

/-- Whatever is left to do, the device does more and more. -/
theorem work_grows (h : TakesTurns R)
    (hinv : forall n, exists gs fl, GpioInv mode scripts (R.pool n).state gs fl) {n : Nat}
    (hdue : forall m, n <= m -> (R.pool m).state.Due) (k : Nat) :
    exists m, n <= m ∧ k <= (R.pool m).state.work := by
  induction k with
  | zero => exact ⟨n, Nat.le_refl n, Nat.zero_le _⟩
  | succ k ih =>
      rcases ih with ⟨m, hm, hk⟩
      rcases exists_deviceTurn m with ⟨j, hturn, _⟩
      have hlater : n <= m + j := Nat.le_trans hm (Nat.le_add_right m j)
      have hmore := (h.steps hinv (m + j)).2.due hturn (hdue _ hlater)
      refine ⟨m + j + 1, Nat.le_succ_of_le hlater, ?_⟩
      exact Nat.lt_of_le_of_lt
        (Nat.le_trans hk (h.work_mono hinv (Nat.le_add_right m j))) hmore.2

theorem serves (h : TakesTurns R)
    (hinv : forall n, exists gs fl, GpioInv mode scripts (R.pool n).state gs fl) :
    Serves R := by
  constructor
  · intro n pos hlt
    by_contra hnone
    have hfew : forall m, n <= m -> (R.pool m).state.device.produced.length <= pos := by
      intro m hm
      refine Nat.le_of_not_lt fun hmany => hnone ⟨m, hm, ?_⟩
      rw [(h.steps hinv m).1.positions]
      exact List.mem_range.mpr hmany
    have hdue : forall m, n <= m -> (R.pool m).state.Due := by
      intro m hm
      refine Or.inr (Nat.lt_of_le_of_lt (hfew m hm) ?_)
      exact Nat.lt_of_lt_of_le hlt (Onwards.run R hm).published.length_le
    rcases h.work_grows hinv hdue (8 * pos + 8) with ⟨m, hm, hwork⟩
    rcases hinv m with ⟨gs, fl, hn⟩
    have hbound := (h.steps hinv m).1.work_le hn.flow (hfew m hm)
    omega
  · intro n hraise
    rcases exists_deviceTurn n with ⟨k, hturn, hbefore⟩
    have hstill : forall j, j <= k -> (R.pool (n + j)).state.raise = true := by
      intro j
      induction j with
      | zero => exact fun _ => hraise
      | succ j ih =>
          intro hj
          exact (h.steps hinv (n + j)).2.raise (ih (Nat.le_of_succ_le hj)) (hbefore j hj)
    have hnow := hstill k (Nat.le_refl k)
    refine ⟨n + k, Nat.le_add_right n k, ?_⟩
    rw [((h.steps hinv (n + k)).2.due hturn (Or.inl hnow)).1, deviceTurn, if_pos hnow]

end TakesTurns

end Runs

end QnxVirtio
