import WebCore.FunctorQueue
import Mathlib

/-!
# `EventLoopThread`

A loop in a thread of its own, and the thread that created it (`ZEventLoop/event_loop_thread.cpp`).
`threadFunc` publishes the loop, enters `loop()` and clears the pointer afterwards. `startLoop`
returns once the loop is published, and from then on any thread may call `quit()`; the destructor
calls it and joins.

`loop()` starts with `quit_ = false`. A `quit()` between the publication and that assignment is
overwritten (`quit_lost`), the loop polls on and the join waits for it.

**Theorem (`quit_kept_and_join_returns`).** When every `quit()` comes after the loop thread has
made that assignment, `quit_` stays set until the `while` is left, no further iteration begins, and
the thread finishes.
-/

namespace WebCore

/-! ## The model -/

/-- Where `threadFunc` stands. -/
inductive ThreadPc
  /-- before the publication of `loop_` -/
  | init
  | looping
  /-- `loop_` is `nullptr` again -/
  | finished
deriving DecidableEq, Repr

/-- Where the creating thread stands. -/
inductive CreatorPc
  /-- inside `startLoop` -/
  | starting
  | returned
  /-- in the destructor, having read a `loop_` that is not `nullptr` -/
  | quitting
  | waking
  | joining
  | joined
  /-- the destructor found `loop_` to be `nullptr` and does not join -/
  | detached
deriving DecidableEq, Repr

structure LoopThread (F C T : Type*) where
  sys : LoopSystem F C T
  thread : ThreadPc
  creator : CreatorPc
  /-- `quit()` has stored `quit_` since `startLoop` returned -/
  asked : Bool
  /-- the calls of `poll` since then -/
  polls : Nat

inductive ThreadAction (F C T : Type*)
  | loop (a : LoopAction F C T)
  | publish
  | clear
  | startLoopReturns
  | destroy
  | dtorQuit
  | dtorWakeup
  | join

namespace LoopAction

variable {F C T : Type*}

/-- The action stores `quit_`. -/
def storesQuit : LoopAction F C T → Bool
  | .quit _ | .quitOwn => true
  | _ => false

/-- The loop thread takes the action in `loop()` or `doPendingFunctors`, not in user code. -/
def inLoop : LoopAction F C T → Bool
  | .enter | .test | .pollReturn _ | .dispatch | .startFunctors | .swapFunctors | .runFunctor
  | .endFunctors => true
  | _ => false

end LoopAction

namespace LoopThread

variable {F C T : Type*}

def new [DecidableEq C] (fd : C → Int) (wakeupChannel : C) : LoopThread F C T :=
  ⟨.new fd wakeupChannel, .init, .starting, false, 0⟩

/-- `loop()` is entered after the publication, user code runs on the loop thread before it or
inside `loop()`, and the creating thread `main` calls the loop between `startLoop` and the
destructor. -/
def allows [DecidableEq T] (main : T) (s : LoopThread F C T) : LoopAction F C T → Bool
  | .enter => s.thread = .looping
  | .push t _ | .quit t | .wakeup t => t ≠ main ∨ s.creator = .returned
  | .pushOwn _ | .quitOwn | .channelOp _ _ =>
    (s.sys.loop.pc = .idle → s.thread = .init) ∧ s.sys.loop.pc ≠ .left
  | _ => true

variable [DecidableEq C] [DecidableEq T]

/-- One step of the loop thread, of `main`, or of another thread. -/
def step (main : T) (s : LoopThread F C T) : ThreadAction F C T → Option (LoopThread F C T)
  | .loop a =>
    if s.allows main a then
      (s.sys.step a).map fun sys =>
        { s with sys
                 asked := s.asked || (a.storesQuit && s.creator != .starting)
                 polls := if s.asked ∧ sys.loop.pc = .poll ∧ s.sys.loop.pc ≠ .poll then s.polls + 1
                          else s.polls }
    else none
  | .publish =>
    if s.thread = .init ∧ s.sys.isAt .idle then some { s with thread := .looping } else none
  | .clear =>
    if s.thread = .looping ∧ s.sys.isAt .left then some { s with thread := .finished } else none
  | .startLoopReturns =>
    if s.creator = .starting ∧ s.thread = .looping then some { s with creator := .returned }
    else none
  | .destroy =>
    if s.creator = .returned ∧ s.sys.caller main = .idle then
      some { s with creator := if s.thread = .looping then .quitting else .detached }
    else none
  | .dtorQuit =>
    if s.creator = .quitting then
      (s.sys.step (.quit main)).map fun sys => { s with sys, creator := .waking, asked := true }
    else none
  | .dtorWakeup =>
    if s.creator = .waking then
      (s.sys.step (.wakeup main)).map fun sys => { s with sys, creator := .joining }
    else none
  | .join =>
    if s.creator = .joining ∧ s.thread = .finished then some { s with creator := .joined }
    else none

def run (main : T) (s : LoopThread F C T) (as : List (ThreadAction F C T)) :
    Option (LoopThread F C T) :=
  Transition.run (step main) s as

/-- The step stores `quit_` on a loop that `startLoop` has returned only once `loop()` has set its
flags. -/
def QuitsAfterEntry (s : LoopThread F C T) : ThreadAction F C T → Prop
  | .loop a => a.storesQuit = true → s.creator ≠ .starting → s.sys.loop.pc ≠ .idle
  | .dtorQuit => s.sys.loop.pc ≠ .idle
  | _ => True

instance (s : LoopThread F C T) : ∀ a, Decidable (s.QuitsAfterEntry a)
  | .loop a => inferInstanceAs
      (Decidable (a.storesQuit = true → s.creator ≠ .starting → s.sys.loop.pc ≠ .idle))
  | .dtorQuit => inferInstanceAs (Decidable (s.sys.loop.pc ≠ .idle))
  | .publish | .clear | .startLoopReturns | .destroy | .dtorWakeup | .join =>
    inferInstanceAs (Decidable True)

end LoopThread

/-! ## A loop that was asked to stop -/

namespace LoopSystem

variable {F C T : Type*}

/-- `quit_` is set for good: the flags are initialised, the `while` ends at its next test, and a
`poll` that is waiting has its wakeup. -/
structure Stopped (s : LoopSystem F C T) : Prop where
  entered : s.loop.pc ≠ .idle
  quit : s.loop.pc ≠ .left → s.loop.quit = true
  awake : s.loop.pc = .poll → s.loop.eventfd ≠ 0 ∨ ∃ t, s.caller t ≠ .idle

/-- The phases of the last iteration, counted down. -/
def phase : LoopPc → Nat
  | .idle => 7
  | .poll => 6
  | .dispatch => 5
  | .swap => 4
  | .run => 3
  | .test => 2
  | .left => 1

/-- What is left of the iteration: first the phase, then the calls to be made in it. -/
def rank (s : LoopSystem F C T) : ℕ ×ₗ ℕ :=
  toLex (phase s.loop.pc, s.loop.activeChannels.length + s.loop.functors.length)

theorem rank_lt_of_phase {s s' : LoopSystem F C T} (h : phase s'.loop.pc < phase s.loop.pc) :
    rank s' < rank s :=
  Prod.Lex.toLex_lt_toLex.2 (.inl h)

variable [DecidableEq C] [DecidableEq T]

theorem stopped_of_storesQuit {s s' : LoopSystem F C T} {a : LoopAction F C T}
    (hidle : s.loop.pc ≠ .idle) (ha : a.storesQuit = true) (h : s.step a = some s') :
    s'.Stopped := by
  have h := step_inv h
  cases a with
  | quit t =>
    obtain ⟨-, rfl⟩ := h
    exact ⟨hidle, fun _ => rfl, fun _ => .inr ⟨t, by simp⟩⟩
  | quitOwn =>
    obtain ⟨hu, -, rfl⟩ := h
    refine ⟨hidle, fun _ => rfl, fun hpc => ?_⟩
    simp [EventLoop.inUserCode, show s.loop.pc = .poll from hpc] at hu
  | _ => simp [LoopAction.storesQuit] at ha

/-- **A stopped loop stays stopped**, does not enter `poll` again, and comes closer to its end with
every step that `loop()` takes. -/
theorem Stopped.step {s s' : LoopSystem F C T} {a : LoopAction F C T} (hs : s.Stopped)
    (h : s.step a = some s') :
    s'.Stopped ∧ (s'.loop.pc = .poll → s.loop.pc = .poll) ∧ s'.rank ≤ s.rank ∧
      (a.inLoop = true → s'.rank < s.rank) := by
  obtain ⟨hent, hquit, hawake⟩ := hs
  have h := step_inv h
  cases a with
  | enter => exact absurd h.1 hent
  | test =>
    obtain ⟨hpc, -, rfl⟩ := h
    have hq := hquit (by simp [hpc])
    have hlt : phase .left < phase s.loop.pc := by simp [phase, hpc]
    refine ⟨⟨?_, fun _ => hq, ?_⟩, ?_, (rank_lt_of_phase ?_).le, fun _ => rank_lt_of_phase ?_⟩ <;>
      simp [hq, hlt]
  | pollReturn active =>
    obtain ⟨hpc, -, -, -, rfl⟩ := h
    have hlt : phase .dispatch < phase s.loop.pc := by simp [phase, hpc]
    exact ⟨⟨LoopPc.noConfusion, fun _ => hquit (by simp [hpc]), LoopPc.noConfusion⟩,
      LoopPc.noConfusion, (rank_lt_of_phase hlt).le, fun _ => rank_lt_of_phase hlt⟩
  | dispatch =>
    obtain ⟨hpc, -, c, rest, hact, rfl⟩ := h
    have hlt : rank { s with loop := { s.loop with
        activeChannels := rest
        eventfd := if c = s.loop.wakeupChannel then 0 else s.loop.eventfd } } < rank s :=
      Prod.Lex.toLex_lt_toLex.2 (.inr ⟨rfl, by simp [hact]⟩)
    exact ⟨⟨hent, hquit, fun hp => by simp [hpc] at hp⟩, id, hlt.le, fun _ => hlt⟩
  | startFunctors =>
    obtain ⟨hpc, -, -, rfl⟩ := h
    have hlt : phase .swap < phase s.loop.pc := by simp [phase, hpc]
    exact ⟨⟨LoopPc.noConfusion, fun _ => hquit (by simp [hpc]), LoopPc.noConfusion⟩,
      LoopPc.noConfusion, (rank_lt_of_phase hlt).le, fun _ => rank_lt_of_phase hlt⟩
  | swapFunctors =>
    obtain ⟨hpc, -, rfl⟩ := h
    have hlt : phase .run < phase s.loop.pc := by simp [phase, hpc]
    exact ⟨⟨LoopPc.noConfusion, fun _ => hquit (by simp [hpc]), LoopPc.noConfusion⟩,
      LoopPc.noConfusion, (rank_lt_of_phase hlt).le, fun _ => rank_lt_of_phase hlt⟩
  | runFunctor =>
    obtain ⟨hpc, -, f, rest, hf, rfl⟩ := h
    have hlt : rank { s with loop := s.loop.takeFunctor rest
                             executed := s.executed ++ [(f, s.batches)] } < rank s :=
      Prod.Lex.toLex_lt_toLex.2 (.inr ⟨rfl, by simp [EventLoop.takeFunctor, hf]⟩)
    exact ⟨⟨hent, hquit, hawake⟩, id, hlt.le, fun _ => hlt⟩
  | endFunctors =>
    obtain ⟨hpc, -, -, rfl⟩ := h
    have hlt : phase .test < phase s.loop.pc := by simp [phase, hpc]
    exact ⟨⟨LoopPc.noConfusion, fun _ => hquit (by simp [hpc]), LoopPc.noConfusion⟩,
      LoopPc.noConfusion, (rank_lt_of_phase hlt).le, fun _ => rank_lt_of_phase hlt⟩
  | push t f =>
    obtain ⟨-, rfl⟩ := h
    exact ⟨⟨hent, hquit, fun _ => .inr ⟨t, by simp⟩⟩, id, le_rfl, nofun⟩
  | quit t =>
    obtain ⟨-, rfl⟩ := h
    exact ⟨⟨hent, fun _ => rfl, fun _ => .inr ⟨t, by simp⟩⟩, id, le_rfl, nofun⟩
  | wakeup t =>
    obtain ⟨-, rfl⟩ := h
    exact ⟨⟨hent, hquit, fun _ => .inl (Nat.succ_ne_zero _)⟩, id, le_rfl, nofun⟩
  | pushOwn =>
    obtain ⟨-, -, rfl⟩ := h
    exact ⟨⟨hent, hquit, hawake⟩, id, le_rfl, nofun⟩
  | wakeupOwn =>
    obtain ⟨-, rfl⟩ := h
    refine ⟨⟨hent, hquit, fun hpc => (hawake hpc).imp (fun hfd => ?_) id⟩, id, le_rfl, nofun⟩
    dsimp only
    split
    · exact Nat.succ_ne_zero _
    · exact hfd
  | quitOwn =>
    obtain ⟨-, -, rfl⟩ := h
    exact ⟨⟨hent, fun _ => rfl, hawake⟩, id, le_rfl, nofun⟩
  | channelOp =>
    obtain ⟨-, -, -, rfl⟩ := h
    exact ⟨⟨hent, hquit, hawake⟩, id, le_rfl, nofun⟩

/-- `loop()` can go on wherever it stands, unless the loop thread is inside `queueInLLoop`. -/
theorem exists_step {s : LoopSystem F C T} (hown : s.own = .idle) (hidle : s.loop.pc ≠ .idle)
    (hleft : s.loop.pc ≠ .left) :
    ∃ a : LoopAction F C T, a.inLoop = true ∧ a ≠ .enter ∧ (s.step a).isSome := by
  cases hpc : s.loop.pc with
  | idle => exact absurd hpc hidle
  | left => exact absurd hpc hleft
  | test => exact ⟨.test, rfl, by simp, by simp [step, isAt, hpc, hown]⟩
  | poll => exact ⟨.pollReturn [], rfl, by simp, by simp [step, isAt, hpc, hown]⟩
  | swap => exact ⟨.swapFunctors, rfl, by simp, by simp [step, isAt, hpc, hown]⟩
  | dispatch =>
    cases hact : s.loop.activeChannels with
    | nil => exact ⟨.startFunctors, rfl, by simp, by simp [step, isAt, hpc, hown, hact]⟩
    | cons c rest => exact ⟨.dispatch, rfl, by simp, by simp [step, isAt, hpc, hown, hact]⟩
  | run =>
    cases hf : s.loop.functors with
    | nil => exact ⟨.endFunctors, rfl, by simp, by simp [step, isAt, hpc, hown, hf]⟩
    | cons f rest => exact ⟨.runFunctor, rfl, by simp, by simp [step, isAt, hpc, hown, hf]⟩

end LoopSystem

/-! ## The thread -/

namespace ThreadAction

variable {F C T : Type*}

/-- The action is a step of `threadFunc`, or of `loop()` called from it. -/
def inThreadFunc : ThreadAction F C T → Bool
  | .loop a => a.inLoop
  | .publish | .clear => true
  | _ => false

end ThreadAction

namespace LoopThread

variable {F C T : Type*}

/-- What is left for the thread to do. -/
def rank (s : LoopThread F C T) : ℕ ×ₗ ℕ :=
  if s.thread = .finished then toLex (0, 0) else s.sys.rank

/-- Once `quit()` was called, the loop is stopped; no iteration has begun since. -/
structure Handshake (s : LoopThread F C T) : Prop where
  init : s.thread = .init → s.creator = .starting
  asked : s.asked = true → s.sys.Stopped ∧ s.thread ≠ .init
  polls : s.polls = 0

/-- What the request to stop leads to: `quit_` stays set until the `while` is left, `poll` is not
called again and does not wait without a wakeup, and the thread can go on. -/
structure QuitKept [DecidableEq C] [DecidableEq T] (main : T) (s : LoopThread F C T) : Prop where
  quit : s.sys.loop.pc ≠ .left → s.sys.loop.quit = true
  polls : s.polls = 0
  awake : s.sys.loop.pc = .poll → s.sys.loop.eventfd ≠ 0 ∨ ∃ t, s.sys.caller t ≠ .idle
  enabled : s.sys.own = .idle → s.thread ≠ .finished →
    ∃ a : ThreadAction F C T, a.inThreadFunc = true ∧ (s.step main a).isSome

variable [DecidableEq C]

theorem handshake_new (fd : C → Int) (wakeupChannel : C) :
    Handshake (new fd wakeupChannel : LoopThread F C T) :=
  ⟨fun _ => rfl, nofun, rfl⟩

variable [DecidableEq T] {main : T}

theorem Handshake.quitKept {s : LoopThread F C T} (hs : s.Handshake) (ha : s.asked = true) :
    s.QuitKept main := by
  obtain ⟨⟨hent, hquit, hawake⟩, hinit⟩ := hs.asked ha
  refine ⟨hquit, hs.polls, hawake, fun hown hfin => ?_⟩
  by_cases hleft : s.sys.loop.pc = .left
  · have hloop : s.thread = .looping := by cases ht : s.thread <;> simp_all
    exact ⟨.clear, rfl, by simp [step, LoopSystem.isAt, hloop, hleft, hown]⟩
  · obtain ⟨a, ha, hne, hsome⟩ := LoopSystem.exists_step hown hent hleft
    refine ⟨.loop a, ha, ?_⟩
    have hall : s.allows main a = true := by
      cases a with
      | enter => exact absurd rfl hne
      | test | pollReturn | dispatch | startFunctors | swapFunctors | runFunctor | endFunctors =>
        rfl
      | _ => simp [LoopAction.inLoop] at ha
    simp [step, hall, hsome]

/-- **Inversion of a step of the loop** seen from its thread. -/
theorem step_loop_inv {s s' : LoopThread F C T} {a : LoopAction F C T}
    (h : s.step main (.loop a) = some s') :
    s.allows main a = true ∧ ∃ sys, s.sys.step a = some sys ∧ s' = { s with
      sys
      asked := s.asked || (a.storesQuit && s.creator != .starting)
      polls := if s.asked ∧ sys.loop.pc = .poll ∧ s.sys.loop.pc ≠ .poll then s.polls + 1
               else s.polls } := by
  simp only [step, Option.ite_none_right_eq_some, Option.map_eq_some_iff] at h
  obtain ⟨hall, sys, hsys, rfl⟩ := h
  exact ⟨hall, sys, hsys, rfl⟩

/-- A step after the request keeps the request, and brings the thread closer to its end. -/
theorem Handshake.progress {s s' : LoopThread F C T} {a : ThreadAction F C T} (hs : s.Handshake)
    (ha : s.asked = true) (h : s.step main a = some s') :
    s'.Handshake ∧ s'.asked = true ∧ s'.rank ≤ s.rank ∧
      (s.thread ≠ .finished → a.inThreadFunc = true → s'.rank < s.rank) := by
  obtain ⟨hstop, hinit⟩ := hs.asked ha
  cases a with
  | loop a =>
    obtain ⟨hall, sys, hsys, rfl⟩ := step_loop_inv h
    obtain ⟨hstop', hpoll, hle, hlt⟩ := hstop.step hsys
    refine ⟨⟨hs.init, fun _ => ⟨hstop', hinit⟩, ?_⟩, by simp [ha], ?_, fun hfin hact => ?_⟩
    · have : ¬ (s.asked = true ∧ sys.loop.pc = .poll ∧ s.sys.loop.pc ≠ .poll) :=
        fun h => h.2.2 (hpoll h.2.1)
      simpa [this] using hs.polls
    · by_cases hfin : s.thread = .finished <;> simp [rank, hfin, hle]
    · simpa [rank, hfin] using hlt hact
  | publish =>
    simp only [step, Option.ite_none_right_eq_some] at h
    exact absurd h.1.1 hinit
  | clear =>
    simp only [step, Option.ite_none_right_eq_some, Option.some.injEq, LoopSystem.isAt,
      decide_eq_true_eq] at h
    obtain ⟨⟨hloop, hpc, -⟩, rfl⟩ := h
    have hlt : rank { s with thread := .finished } < s.rank := by
      simp only [rank, hloop, if_true, reduceCtorEq, if_false]
      exact Prod.Lex.toLex_lt_toLex.2 (.inl (by simp [LoopSystem.phase, hpc]))
    exact ⟨⟨fun ht => by simp at ht, fun _ => ⟨hstop, by simp⟩, hs.polls⟩, ha, hlt.le,
      fun _ _ => hlt⟩
  | startLoopReturns | destroy | join =>
    simp only [step, Option.ite_none_right_eq_some, Option.some.injEq] at h
    obtain ⟨-, rfl⟩ := h
    exact ⟨⟨fun ht => absurd ht hinit, fun _ => ⟨hstop, hinit⟩, hs.polls⟩, ha, le_rfl,
      fun _ hact => by simp [ThreadAction.inThreadFunc] at hact⟩
  | dtorQuit | dtorWakeup =>
    simp only [step, Option.ite_none_right_eq_some, Option.map_eq_some_iff] at h
    obtain ⟨-, sys, hsys, rfl⟩ := h
    obtain ⟨hstop', -, hle, -⟩ := hstop.step hsys
    refine ⟨⟨fun ht => absurd ht hinit, fun _ => ⟨hstop', hinit⟩, hs.polls⟩, ?_, ?_,
      fun _ hact => by simp [ThreadAction.inThreadFunc] at hact⟩
    · first | rfl | exact ha
    · by_cases hfin : s.thread = .finished <;> simp [rank, hfin, hle]

/-- **Every step keeps the handshake**, when `quit_` is stored only after the flags are set. -/
theorem Handshake.step {s s' : LoopThread F C T} {a : ThreadAction F C T} (hs : s.Handshake)
    (hok : s.QuitsAfterEntry a) (h : s.step main a = some s') : s'.Handshake := by
  by_cases ha : s.asked = true
  · exact (hs.progress ha h).1
  rw [Bool.not_eq_true] at ha
  cases a with
  | loop a =>
    obtain ⟨hall, sys, hsys, rfl⟩ := step_loop_inv h
    refine ⟨hs.init, fun hnow => ?_, by simpa [ha] using hs.polls⟩
    have hnow : a.storesQuit = true ∧ s.creator ≠ .starting := by simpa [ha] using hnow
    exact ⟨LoopSystem.stopped_of_storesQuit (hok hnow.1 hnow.2) hnow.1 hsys,
      fun ht => hnow.2 (hs.init ht)⟩
  | publish | clear =>
    simp only [LoopThread.step, Option.ite_none_right_eq_some, Option.some.injEq] at h
    obtain ⟨-, rfl⟩ := h
    exact ⟨fun ht => by simp at ht, fun hnow => by simp [ha] at hnow, hs.polls⟩
  | startLoopReturns =>
    simp only [LoopThread.step, Option.ite_none_right_eq_some, Option.some.injEq] at h
    obtain ⟨⟨-, hloop⟩, rfl⟩ := h
    exact ⟨fun ht => by simp [hloop] at ht, fun hnow => by simp [ha] at hnow, hs.polls⟩
  | destroy | join =>
    simp only [LoopThread.step, Option.ite_none_right_eq_some, Option.some.injEq] at h
    obtain ⟨⟨hc, -⟩, rfl⟩ := h
    exact ⟨fun ht => by simp [hs.init ht] at hc, fun hnow => by simp [ha] at hnow, hs.polls⟩
  | dtorQuit =>
    simp only [LoopThread.step, Option.ite_none_right_eq_some, Option.map_eq_some_iff] at h
    obtain ⟨hc, sys, hsys, rfl⟩ := h
    have hinit : s.thread ≠ .init := fun ht => by simp [hs.init ht] at hc
    exact ⟨fun ht => absurd ht hinit,
      fun _ => ⟨LoopSystem.stopped_of_storesQuit hok rfl hsys, hinit⟩, hs.polls⟩
  | dtorWakeup =>
    simp only [LoopThread.step, Option.ite_none_right_eq_some, Option.map_eq_some_iff] at h
    obtain ⟨hc, sys, hsys, rfl⟩ := h
    exact ⟨fun ht => by simp [hs.init ht] at hc, fun hnow => by simp [ha] at hnow, hs.polls⟩

/-- **A quit request is kept, and the join returns.** Take any run in which `quit_` is stored only
once `loop()` has set its flags. After the first such store `quit_` stays set until the `while` is
left, `poll` is not called again, a `poll` that is waiting has its wakeup, and the thread can go on
until it has finished. In an infinite run the thread then does finish, if it keeps going. -/
theorem quit_kept_and_join_returns (main : T) (fd : C → Int) (wakeupChannel : C) :
    (∀ (as : List (ThreadAction F C T)) (s : LoopThread F C T),
      (new fd wakeupChannel).run main as = some s →
      Transition.Meets (step main) QuitsAfterEntry (new fd wakeupChannel) as →
      s.asked = true → s.QuitKept main) ∧
    ∀ p : Transition.Path (step main : LoopThread F C T → _), p.state 0 = new fd wakeupChannel →
      (∀ n, (p.state n).QuitsAfterEntry (p.action n)) →
      ∀ n, (p.state n).asked = true →
        (∀ k, ∃ m, k ≤ m ∧ ((p.action m).inThreadFunc = true ∨ (p.state m).thread = .finished)) →
        ∃ m, n ≤ m ∧ (p.state m).thread = .finished := by
  have hstep : ∀ (s : LoopThread F C T) a s', s.Handshake → s.QuitsAfterEntry a →
      s.step main a = some s' → s'.Handshake := fun _ _ _ hs hok h => hs.step hok h
  refine ⟨fun as s h hm ha => ?_, fun p h₀ hok n ha hfair => ?_⟩
  · exact (hm.invariant Handshake hstep (handshake_new fd wakeupChannel) h).quitKept ha
  · have hinv : ∀ k, (p.state k).Handshake :=
      p.invariant hok hstep (h₀ ▸ handshake_new fd wakeupChannel)
    have hasked : ∀ k, (p.state (n + k)).asked = true := fun k => by
      induction k with
      | zero => exact ha
      | succ k ih => exact ((hinv (n + k)).progress ih (p.next (n + k))).2.1
    obtain ⟨m, hm⟩ := (p.drop n).eventually (fun s => s.thread = .finished) rank
      (fun k => ((hinv (n + k)).progress (hasked k) (p.next (n + k))).2.2.1) fun k => by
        obtain ⟨m, hkm, hm⟩ := hfair (n + k)
        obtain ⟨j, rfl⟩ := Nat.exists_eq_add_of_le (show n ≤ m by omega)
        refine ⟨j, by omega, ?_⟩
        by_cases hfin : (p.state (n + j)).thread = .finished
        · exact .inl hfin
        · exact .inr (((hinv (n + j)).progress (hasked j) (p.next (n + j))).2.2.2 hfin
            (hm.resolve_right hfin))
    exact ⟨n + m, by omega, hm⟩

/-! ## Two runs of one thread, one channel and one functor -/

/-- The destructor stops a loop that is already polling. -/
def stopPolling : List (ThreadAction Unit Unit Unit) :=
  [.publish, .startLoopReturns, .loop .enter, .loop .test, .destroy, .dtorQuit]

theorem quitKept_stopPolling :
    ∃ s : LoopThread Unit Unit Unit, (new (fun _ => 3) ()).run () stopPolling = some s ∧
      s.QuitKept () := by
  obtain ⟨s, h, ha⟩ := Option.map_eq_some_iff.1
    (show ((new (fun _ => 3) ()).run () stopPolling).map LoopThread.asked = some true by decide)
  exact ⟨s, h,
    (quit_kept_and_join_returns () (fun _ => 3) ()).1 stopPolling s h (by decide) ha⟩

/-- The destructor stops a loop that has not been entered yet, and the loop goes twice round. -/
def stopBeforeEntry : List (ThreadAction Unit Unit Unit) :=
  [.publish, .startLoopReturns, .destroy, .dtorQuit, .dtorWakeup, .loop .enter, .loop .test,
    .loop (.pollReturn [((), EPOLLIN)]), .loop .dispatch, .loop .startFunctors, .loop .swapFunctors,
    .loop .endFunctors, .loop .test]

/-- **`loop()` overwrites a request that comes before it.** The destructor has called `quit()` and
waits in `join`, and the loop waits in its second `poll` with `quit_` cleared and no wakeup. -/
theorem quit_lost :
    ((new (fun _ => 3) () : LoopThread Unit Unit Unit).run () stopBeforeEntry).map
      (fun s => (s.asked, s.creator, s.sys.loop.pc, s.sys.loop.quit, s.sys.loop.eventfd, s.polls)) =
    some (true, .joining, .poll, false, 0, 2) := by
  decide

end LoopThread

end WebCore
