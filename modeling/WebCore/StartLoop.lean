import WebCore.LoopThread
import WebCore.Thread
import WebCore.Lib.LeadsTo

/-!
# The handshake of `startLoop`

`LoopThread` takes the publication of `loop_` and the return of `startLoop` as one step each. Here
they are what `ZEventLoop/event_loop_thread.cpp` and `Thread_::start` make of them: the semaphore on
which `start` waits for the new thread, `mutex_`, and the condition variable, whose `wait` releases
the mutex and may wake for no reason.

**Theorem (`startLoop_refines`).** Every run of this system is a run of `LoopThread`.

The invariant `Coherent` has three parts: `Locked`, about the mutex and the pointer it guards,
`Placed`, about where the loop stands meanwhile, and `Started`, about the semaphore and `thread_`.
-/

namespace WebCore

open Transition

/-! ## The model -/

/-- Who holds `mutex_`. -/
inductive Party
  | starter
  | worker
deriving DecidableEq, Repr

/-- Where the thread stands that calls `startLoop` and the destructor. -/
inductive StarterPc
  /-- before `thread_.start()` -/
  | spawn
  | semWait
  /-- about to take `mutex_`, at first or when it has been woken -/
  | lock
  /-- at the predicate of `wait` -/
  | test
  | waiting
  /-- at `loop = loop_` -/
  | read
  | unlock
  | returned
  /-- in the destructor, at `loop_->quit()` -/
  | quitting
  | waking
  | joining
  /-- the destructor has joined, and the members are destroyed -/
  | joined
  /-- the destructor has found `loop_` to be null, and the members are destroyed -/
  | detached
deriving DecidableEq, Repr

/-- Where the new thread stands. -/
inductive WorkerPc
  | unborn
  | storeTid
  /-- at `sem_post` -/
  | post
  /-- in `threadFunc`, with `_loop` constructed, up to the end of `callback_` -/
  | init
  | lock
  /-- at `loop_ = &_loop` -/
  | publish
  | notify
  | unlock
  | loop
  /-- `loop()` has returned -/
  | lockEnd
  /-- at `loop_ = nullptr` -/
  | clear
  | unlockEnd
  /-- `mutex_` is released, and `_loop` is being destroyed -/
  | dtor
  | ended
deriving DecidableEq, Repr

namespace StarterPc

def holds : StarterPc → Bool
  | .test | .read | .unlock => true
  | _ => false

/-- `startLoop` has returned. -/
def hasReturned : StarterPc → Bool
  | .returned | .quitting | .waking | .joining | .joined | .detached => true
  | _ => false

/-- `startLoop` has found `loop_` not to be null. -/
def seen : StarterPc → Bool
  | .read | .unlock => true
  | pc => pc.hasReturned

/-- The destructor is through. -/
def destroyed : StarterPc → Bool
  | .joined | .detached => true
  | _ => false

/-- The steps left until `startLoop` returns. -/
def rank : StarterPc → Nat
  | .spawn => 6
  | .semWait => 5
  | .lock => 4
  | .test => 3
  | .read => 2
  | .unlock => 1
  | _ => 0

theorem hasReturned_of_holds {pc : StarterPc} (h : pc.holds = true) : pc.hasReturned = false := by
  cases pc <;> simp_all [holds, hasReturned]

def creator : StarterPc → CreatorPc
  | .returned => .returned
  | .quitting => .quitting
  | .waking => .waking
  | .joining => .joining
  | .joined => .joined
  | .detached => .detached
  | _ => .starting

end StarterPc

namespace WorkerPc

def holds : WorkerPc → Bool
  | .publish | .notify | .unlock | .clear | .unlockEnd => true
  | _ => false

/-- `loop_` is not null. -/
def published : WorkerPc → Bool
  | .notify | .unlock | .loop | .lockEnd | .clear => true
  | _ => false

/-- `loop_` is null again. -/
def cleared : WorkerPc → Bool
  | .unlockEnd | .dtor | .ended => true
  | _ => false

/-- The steps left until the thread has ended. -/
def rank : WorkerPc → Nat
  | .unborn => 13
  | .storeTid => 12
  | .post => 11
  | .init => 10
  | .lock => 9
  | .publish => 8
  | .notify => 7
  | .unlock => 6
  | .loop => 5
  | .lockEnd => 4
  | .clear => 3
  | .unlockEnd => 2
  | .dtor => 1
  | .ended => 0

def thread (pc : WorkerPc) : ThreadPc :=
  if pc.published then .looping else if pc.cleared then .finished else .init

theorem rank_of_published {pc : WorkerPc} (h : pc.published = true) : pc.rank ≤ rank .notify := by
  cases pc <;> simp_all [published, rank]

theorem cleared_of_rank {pc : WorkerPc} (hrank : pc.rank ≤ rank .notify)
    (h : pc.published = false) : pc.cleared = true := by
  cases pc <;> simp_all [published, cleared, rank]

end WorkerPc

namespace LoopAction

variable {F C T : Type*}

/-- Another thread takes the action. -/
def isCall : LoopAction F C T → Bool
  | .push _ _ | .quit _ | .wakeup _ => true
  | _ => false

end LoopAction

namespace LoopSystem

variable {F C T : Type*} [DecidableEq C] [DecidableEq T] {s s' : LoopSystem F C T}
  {a : LoopAction F C T}

/-- The callers do not move the loop thread. -/
theorem step_call (ha : a.isCall = true) (h : s.step a = some s') :
    s'.loop.pc = s.loop.pc ∧ s'.own = s.own := by
  have h := step_inv h
  cases a with
  | push | quit | wakeup =>
    obtain ⟨-, rfl⟩ := h
    exact ⟨rfl, rfl⟩
  | _ => cases ha

/-- Nor does user code, on whatever thread. -/
theorem step_outside (ha : a.inLoop = false) (h : s.step a = some s') :
    s'.loop.pc = s.loop.pc := by
  have h := step_inv h
  cases a with
  | push | quit | wakeup | wakeupOwn =>
    obtain ⟨-, rfl⟩ := h
    rfl
  | pushOwn | quitOwn =>
    obtain ⟨-, -, rfl⟩ := h
    rfl
  | channelOp =>
    obtain ⟨-, -, -, rfl⟩ := h
    rfl
  | _ => cases ha

/-- The loop thread is never between the two steps of `quit`. -/
theorem step_own_ne (hs : s.own ≠ .quitting) (h : s.step a = some s') : s'.own ≠ .quitting := by
  have h := step_inv h
  cases a with
  | wakeupOwn =>
    obtain ⟨-, rfl⟩ := h
    exact CallerPc.noConfusion
  | pushOwn =>
    obtain ⟨-, -, rfl⟩ := h
    exact CallerPc.noConfusion
  | quitOwn | test | swapFunctors =>
    obtain ⟨-, -, rfl⟩ := h
    exact hs
  | channelOp | startFunctors | endFunctors =>
    obtain ⟨-, -, -, rfl⟩ := h
    exact hs
  | pollReturn =>
    obtain ⟨-, -, -, -, rfl⟩ := h
    exact hs
  | dispatch | runFunctor =>
    obtain ⟨-, -, _, _, -, rfl⟩ := h
    exact hs
  | enter =>
    obtain ⟨-, -, rfl⟩ := h
    exact hs
  | push | quit | wakeup =>
    obtain ⟨-, rfl⟩ := h
    exact hs

end LoopSystem

/-- An `EventLoopThread`, its loop and the two threads. -/
structure StartSystem (F C T : Type*) where
  sys : LoopSystem F C T
  starter : StarterPc
  worker : WorkerPc
  mutex : Option Party
  /-- the semaphore in `Thread_::start` -/
  sem : Nat
  /-- `thread_`, or how a call of it has failed -/
  thread : Except ThreadFault Thread_
  /-- `loop_` is not null -/
  loop : Bool
  /-- what `startLoop` returns is not null -/
  result : Bool
  /-- `quit()` has stored `quit_` since `startLoop` returned -/
  asked : Bool
  /-- the calls of `poll` since then -/
  polls : Nat

inductive StartAction (F C T : Type*)
  /-- a step of `_loop` and its callers -/
  | loop (a : LoopAction F C T)
  /-- the next step of `startLoop` or the destructor -/
  | starter
  /-- `wait` wakes for no reason -/
  | wake
  /-- the destructor begins -/
  | destroy
  /-- the next step of the new thread outside `loop()` and `callback_` -/
  | worker

namespace StartSystem

variable {F C T : Type*}

def new [DecidableEq C] (fd : C → Int) (wakeupChannel : C) : StartSystem F C T where
  sys := .new fd wakeupChannel
  starter := .spawn
  worker := .unborn
  mutex := none
  sem := 0
  thread := .ok .new
  loop := false
  result := false
  asked := false
  polls := 0

/-- `loop()` runs on the new thread and so does user code, in `callback_` or inside `loop()`. The
other threads know `_loop` from `callback_` on, and `main` knows it between the return of
`startLoop` and the destructor. -/
def allows [DecidableEq T] (main : T) (s : StartSystem F C T) : LoopAction F C T → Bool
  | .push t _ | .quit t | .wakeup t =>
    s.worker.rank ≤ WorkerPc.rank .init ∧ (t ≠ main ∨ s.starter = .returned)
  | .pushOwn _ | .quitOwn | .channelOp _ _ =>
    s.worker = .init ∨ s.worker = .loop ∧ s.sys.loop.pc ≠ .idle ∧ s.sys.loop.pc ≠ .left
  | .wakeupOwn => s.worker = .init ∨ s.worker = .loop
  | _ => s.worker = .loop

variable [DecidableEq C] [DecidableEq T]

/-- The next step of `startLoop`, or of the destructor once it has begun. -/
def starterStep (main : T) (s : StartSystem F C T) : Option (StartSystem F C T) :=
  match s.starter with
  | .spawn =>
    some { s with starter := .semWait, worker := .storeTid, thread := s.thread.bind Thread_.create }
  | .semWait => if 0 < s.sem then some { s with starter := .lock, sem := s.sem - 1 } else none
  | .lock =>
    if s.mutex = none then some { s with starter := .test, mutex := some .starter } else none
  | .test =>
    if s.loop then some { s with starter := .read }
    else some { s with starter := .waiting, mutex := none }
  | .waiting => none
  | .read => some { s with starter := .unlock, result := s.loop }
  | .unlock => some { s with starter := .returned, mutex := none }
  | .returned => none
  | .quitting =>
    (s.sys.step (.quit main)).map fun sys => { s with sys, starter := .waking, asked := true }
  | .waking => (s.sys.step (.wakeup main)).map fun sys => { s with sys, starter := .joining }
  | .joining =>
    if s.worker = .ended then
      some { s with starter := .joined, thread := s.thread.bind Thread_.join }
    else none
  | .joined | .detached => none

/-- The next step of the new thread. -/
def workerStep (s : StartSystem F C T) : Option (StartSystem F C T) :=
  match s.worker with
  | .unborn => none
  | .storeTid => some { s with worker := .post, thread := s.thread.map Thread_.storeTid }
  | .post => some { s with worker := .init, sem := s.sem + 1 }
  | .init => if s.sys.isAt .idle then some { s with worker := .lock } else none
  | .lock =>
    if s.mutex = none then some { s with worker := .publish, mutex := some .worker } else none
  | .publish => some { s with worker := .notify, loop := true }
  | .notify =>
    some { s with worker := .unlock
                  starter := if s.starter = .waiting then .lock else s.starter }
  | .unlock => some { s with worker := .loop, mutex := none }
  | .loop => if s.sys.isAt .left then some { s with worker := .lockEnd } else none
  | .lockEnd =>
    if s.mutex = none then some { s with worker := .clear, mutex := some .worker } else none
  | .clear => some { s with worker := .unlockEnd, loop := false }
  | .unlockEnd => some { s with worker := .dtor, mutex := none }
  | .dtor => some { s with worker := .ended }
  | .ended => none

def step (main : T) (s : StartSystem F C T) : StartAction F C T → Option (StartSystem F C T)
  | .loop a =>
    if s.allows main a then
      (s.sys.step a).map fun sys =>
        { s with sys
                 asked := s.asked || (a.storesQuit && s.starter.hasReturned)
                 polls := if s.asked ∧ sys.loop.pc = .poll ∧ s.sys.loop.pc ≠ .poll then s.polls + 1
                          else s.polls }
    else none
  | .starter => s.starterStep main
  | .wake => if s.starter = .waiting then some { s with starter := .lock } else none
  | .destroy =>
    if s.starter = .returned ∧ s.sys.caller main = .idle then
      some { s with starter := if s.loop then .quitting else .detached }
    else none
  | .worker => s.workerStep

/-! ## What a step does -/

theorem step_loop_inv {main : T} {s s' : StartSystem F C T} {a : LoopAction F C T}
    (h : s.step main (.loop a) = some s') :
    s.allows main a = true ∧ ∃ sys, s.sys.step a = some sys ∧ s' = { s with
      sys
      asked := s.asked || (a.storesQuit && s.starter.hasReturned)
      polls := if s.asked ∧ sys.loop.pc = .poll ∧ s.sys.loop.pc ≠ .poll then s.polls + 1
               else s.polls } := by
  simp only [step, Option.ite_none_right_eq_some, Option.map_eq_some_iff] at h
  obtain ⟨hall, sys, hsys, rfl⟩ := h
  exact ⟨hall, sys, hsys, rfl⟩

/-- The mutex, the pointer it guards and the condition variable. -/
structure Locked (s : StartSystem F C T) : Prop where
  born : s.starter = .spawn ↔ s.worker = .unborn
  starter : s.mutex = some .starter ↔ s.starter.holds = true
  worker : s.mutex = some .worker ↔ s.worker.holds = true
  loop : s.loop = s.worker.published
  /-- no notification is lost -/
  awake : s.starter = .waiting → s.loop = true → s.worker = .notify
  kept : s.starter = .read ∨ s.starter = .unlock → s.loop = true
  result : s.starter = .unlock ∨ s.starter.hasReturned = true → s.result = true

variable {main : T} {s s' : StartSystem F C T} {a : StartAction F C T}

theorem Locked.starterStep (hs : s.Locked) (h : s.starterStep main = some s') : s'.Locked := by
  obtain ⟨hborn, hstarter, hworker, hloop, hawake, hkept, hresult⟩ := hs
  cases hpc : s.starter <;>
    simp only [StartSystem.starterStep, hpc, Option.ite_none_right_eq_some,
      Option.some.injEq, Option.map_eq_some_iff, reduceCtorEq] at h
  case spawn =>
    subst h
    have hborn' := hborn.1 hpc
    constructor <;> simp_all [StarterPc.holds, WorkerPc.holds, WorkerPc.published,
      StarterPc.hasReturned]
  case lock =>
    obtain ⟨hfree, rfl⟩ := h
    have hother : s.worker.holds = false := by simpa [hfree] using hworker
    constructor <;> simp_all [StarterPc.holds, StarterPc.hasReturned]
  case test =>
    have hmine := hstarter.2 (by simp [hpc, StarterPc.holds])
    split at h <;> obtain rfl := Option.some.inj h
    · -- `loop_` is set, and the mutex is kept for the read
      constructor <;> simp_all [StarterPc.holds, StarterPc.hasReturned]
    · -- `wait` releases the mutex, and `loop_` is null, so that no notification has been missed
      constructor <;> simp_all [StarterPc.holds, StarterPc.hasReturned]
  case unlock =>
    subst h
    have hmine := hstarter.2 (by simp [hpc, StarterPc.holds])
    constructor <;> simp_all [StarterPc.holds, StarterPc.hasReturned]
  all_goals first
    | subst h
    | obtain ⟨hguard, rfl⟩ := h
    | obtain ⟨sys, -, rfl⟩ := h
  all_goals constructor <;> simp_all [StarterPc.holds, StarterPc.hasReturned]

omit [DecidableEq C] [DecidableEq T] in
theorem Locked.workerStep (hs : s.Locked) (h : s.workerStep = some s') : s'.Locked := by
  obtain ⟨hborn, hstarter, hworker, hloop, hawake, hkept, hresult⟩ := hs
  cases hpc : s.worker <;>
    simp only [StartSystem.workerStep, hpc, Option.ite_none_right_eq_some,
      Option.some.injEq, reduceCtorEq] at h
  case lock | lockEnd =>
    obtain ⟨hfree, rfl⟩ := h
    have hother : s.starter.holds = false := by simpa [hfree] using hstarter
    constructor <;> simp_all [WorkerPc.holds, WorkerPc.published]
  case publish | unlock | unlockEnd =>
    subst h
    have hmine := hworker.2 (by simp [hpc, WorkerPc.holds])
    constructor <;> simp_all [WorkerPc.holds, WorkerPc.published]
  case notify =>
    subst h
    have hmine := hworker.2 (by simp [hpc, WorkerPc.holds])
    by_cases hwait : s.starter = .waiting
    · constructor <;> simp_all [WorkerPc.holds, WorkerPc.published, StarterPc.holds,
        StarterPc.hasReturned]
    · constructor <;> simp_all [WorkerPc.holds, WorkerPc.published]
  case clear =>
    subst h
    -- the mutex keeps the other thread from `read` and `unlock`
    have hmine := hworker.2 (by simp [hpc, WorkerPc.holds])
    have hother : s.starter.holds = false := by simpa [hmine] using hstarter
    have hread : s.starter ≠ .read := fun he => by simp [he, StarterPc.holds] at hother
    have hunlock : s.starter ≠ .unlock := fun he => by simp [he, StarterPc.holds] at hother
    constructor <;> simp_all [WorkerPc.holds, WorkerPc.published]
  all_goals first | subst h | obtain ⟨hguard, rfl⟩ := h
  all_goals constructor <;> simp_all [WorkerPc.holds, WorkerPc.published]

theorem Locked.step (hs : s.Locked) (h : s.step main a = some s') : s'.Locked := by
  cases a with
  | loop a =>
    obtain ⟨-, sys, -, rfl⟩ := step_loop_inv h
    exact ⟨hs.born, hs.starter, hs.worker, hs.loop, hs.awake, hs.kept, hs.result⟩
  | starter => exact hs.starterStep h
  | worker => exact hs.workerStep h
  | wake =>
    obtain ⟨hborn, hstarter, hworker, hloop, hawake, hkept, hresult⟩ := hs
    simp only [StartSystem.step, Option.ite_none_right_eq_some, Option.some.injEq] at h
    obtain ⟨hpc, rfl⟩ := h
    constructor <;> simp_all [StarterPc.holds, StarterPc.hasReturned]
  | destroy =>
    obtain ⟨hborn, hstarter, hworker, hloop, hawake, hkept, hresult⟩ := hs
    simp only [StartSystem.step, Option.ite_none_right_eq_some, Option.some.injEq] at h
    obtain ⟨⟨hpc, -⟩, rfl⟩ := h
    cases hl : s.loop <;> constructor <;> simp_all [StarterPc.holds, StarterPc.hasReturned]

/-- Where the loop stands. -/
structure Placed (s : StartSystem F C T) : Prop where
  idle : WorkerPc.rank .loop < s.worker.rank → s.sys.loop.pc = .idle
  left : s.worker.rank < WorkerPc.rank .loop → s.sys.loop.pc = .left
  own : s.worker ≠ .init → s.worker ≠ .loop → s.sys.own = .idle
  called : s.sys.own ≠ .quitting

omit [DecidableEq C] in
theorem allows_inside {a : LoopAction F C T} (h : s.allows main a = true) (ha : a.isCall = false) :
    s.worker = .loop ∨ s.worker = .init ∧ a.inLoop = false := by
  cases a with
  | push | quit | wakeup => cases ha
  | enter | test | pollReturn | dispatch | startFunctors | swapFunctors | runFunctor
  | endFunctors => exact .inl (by simpa [allows] using h)
  | pushOwn | quitOwn | channelOp =>
    simp only [allows, decide_eq_true_eq] at h
    exact h.elim (fun h => .inr ⟨h, rfl⟩) fun h => .inl h.1
  | wakeupOwn =>
    simp only [allows, decide_eq_true_eq] at h
    exact h.elim (fun h => .inr ⟨h, rfl⟩) .inl

theorem Placed.step (hs : s.Placed) (hl : s.Locked) (h : s.step main a = some s') : s'.Placed := by
  obtain ⟨hidle, hleft, hown, hcalled⟩ := hs
  cases a with
  | loop a =>
    obtain ⟨hall, sys, hsys, rfl⟩ := step_loop_inv h
    have hcalled := LoopSystem.step_own_ne hcalled hsys
    by_cases hcall : a.isCall = true
    · obtain ⟨hpc, hsame⟩ := LoopSystem.step_call hcall hsys
      exact ⟨fun hlt => hpc.trans (hidle hlt), fun hlt => hpc.trans (hleft hlt),
        fun hinit hloop => hsame.trans (hown hinit hloop), hcalled⟩
    -- the loop thread itself is in `callback_` or inside `loop()`
    obtain hat | ⟨hat, hin⟩ := allows_inside hall (Bool.not_eq_true _ ▸ hcall)
    · constructor <;> simp [hat, hcalled]
    · have hpc := LoopSystem.step_outside hin hsys
      constructor <;> simp_all [WorkerPc.rank]
  | starter =>
    have hborn := hl.born
    cases hpc : s.starter <;>
      simp only [StartSystem.step, StartSystem.starterStep, hpc, Option.ite_none_right_eq_some,
        Option.some.injEq, Option.map_eq_some_iff, reduceCtorEq] at h
    case spawn =>
      subst h
      have hw := hborn.1 hpc
      constructor <;> simp_all [WorkerPc.rank]
    case quitting | waking =>
      obtain ⟨sys, hsys, rfl⟩ := h
      obtain ⟨hsame, hown'⟩ := LoopSystem.step_call rfl hsys
      exact ⟨fun hlt => hsame.trans (hidle hlt), fun hlt => hsame.trans (hleft hlt),
        fun hinit hloop => hown'.trans (hown hinit hloop), LoopSystem.step_own_ne hcalled hsys⟩
    all_goals first
      | subst h
      | obtain ⟨hguard, rfl⟩ := h
      | (split at h <;> obtain rfl := Option.some.inj h)
    all_goals exact ⟨hidle, hleft, hown, hcalled⟩
  | worker =>
    cases hpc : s.worker <;>
      simp only [StartSystem.step, StartSystem.workerStep, hpc, Option.ite_none_right_eq_some,
        Option.some.injEq, reduceCtorEq, LoopSystem.isAt, decide_eq_true_eq] at h
    case init =>
      -- `callback_` has returned, so that the thread is out of `queueInLLoop`
      obtain ⟨⟨hat, hout⟩, rfl⟩ := h
      constructor <;> simp_all [WorkerPc.rank]
    case loop =>
      obtain ⟨⟨hat, hout⟩, rfl⟩ := h
      constructor <;> simp_all [WorkerPc.rank]
    all_goals first | subst h | obtain ⟨hguard, rfl⟩ := h
    all_goals constructor <;> simp_all [WorkerPc.rank]
  | wake =>
    simp only [StartSystem.step, Option.ite_none_right_eq_some, Option.some.injEq] at h
    obtain ⟨-, rfl⟩ := h
    exact ⟨hidle, hleft, hown, hcalled⟩
  | destroy =>
    simp only [StartSystem.step, Option.ite_none_right_eq_some, Option.some.injEq] at h
    obtain ⟨-, rfl⟩ := h
    exact ⟨hidle, hleft, hown, hcalled⟩

/-- The semaphore, `thread_`, and where the new thread is when the destructor is through. -/
structure Started (s : StartSystem F C T) : Prop where
  sem : s.starter = .spawn ∨ s.starter = .semWait →
    s.sem = if s.worker.rank ≤ WorkerPc.rank .init then 1 else 0
  posted : s.starter ≠ .spawn → s.starter ≠ .semWait → s.worker.rank ≤ WorkerPc.rank .init
  shown : s.starter.hasReturned = true → s.worker.rank ≤ WorkerPc.rank .notify
  thread : s.thread = .ok (match s.starter with
    | .spawn => .new
    | .joined => ⟨true, true, some .released, 0⟩
    | _ => ⟨true, false, some .joinable, 0⟩)
  joined : s.starter = .joined → s.worker = .ended
  detached : s.starter = .detached → s.worker.cleared = true

theorem Started.starterStep (hs : s.Started) (hl : s.Locked) (h : s.starterStep main = some s') :
    s'.Started := by
  obtain ⟨hsem, hposted, hshown, hthread, hjoined, hdetached⟩ := hs
  have hborn := hl.born
  cases hpc : s.starter <;>
    simp only [StartSystem.starterStep, hpc, Option.ite_none_right_eq_some,
      Option.some.injEq, Option.map_eq_some_iff, reduceCtorEq] at h
  case spawn =>
    subst h
    refine ⟨fun _ => ?_, by simp, by simp [StarterPc.hasReturned], ?_, by simp, by simp⟩
    · simpa [hborn.1 hpc, WorkerPc.rank] using hsem (.inl hpc)
    · simp [hthread, hpc, Except.bind, Thread_.create, Thread_.new]
  case unlock =>
    subst h
    have hlate := WorkerPc.rank_of_published (hl.loop.symm.trans (hl.kept (.inr hpc)))
    constructor <;> simp_all
  case joining =>
    obtain ⟨hend, rfl⟩ := h
    refine ⟨by simp, fun _ _ => hposted (by simp [hpc]) (by simp [hpc]),
      fun _ => by simp [hend, WorkerPc.rank], ?_, fun _ => hend, by simp⟩
    simp [hthread, hpc, Except.bind, Thread_.join]
  case semWait =>
    -- the semaphore has been posted, and is zero again
    obtain ⟨hpos, rfl⟩ := h
    have hpost : s.worker.rank ≤ WorkerPc.rank .init := by
      by_contra hpre
      simp [hsem (.inr hpc), hpre] at hpos
    constructor <;> simp_all [StarterPc.hasReturned]
  all_goals first
    | subst h
    | obtain ⟨hguard, rfl⟩ := h
    | obtain ⟨sys, -, rfl⟩ := h
    | (split at h <;> obtain rfl := Option.some.inj h)
  all_goals constructor <;> simp_all [StarterPc.hasReturned]

omit [DecidableEq C] [DecidableEq T] in
theorem Started.workerStep (hs : s.Started) (hl : s.Locked) (h : s.workerStep = some s') :
    s'.Started := by
  obtain ⟨hsem, hposted, hshown, hthread, hjoined, hdetached⟩ := hs
  have hborn := hl.born
  cases hpc : s.worker <;>
    simp only [StartSystem.workerStep, hpc, Option.ite_none_right_eq_some,
      Option.some.injEq, reduceCtorEq] at h
  case storeTid =>
    subst h
    have hsame : s.thread.map Thread_.storeTid = s.thread := by
      rw [hthread]
      rfl
    constructor <;> simp_all [WorkerPc.rank, WorkerPc.cleared]
  case post | clear =>
    subst h
    constructor <;> simp_all [WorkerPc.rank, WorkerPc.cleared]
  case notify =>
    subst h
    by_cases hwait : s.starter = .waiting
    · constructor <;> simp_all [WorkerPc.rank, StarterPc.hasReturned]
    · constructor <;> simp_all [WorkerPc.rank, WorkerPc.cleared]
  all_goals first | subst h | obtain ⟨hguard, rfl⟩ := h
  all_goals constructor <;> simp_all [WorkerPc.rank, WorkerPc.cleared]

theorem Started.step (hs : s.Started) (hl : s.Locked) (h : s.step main a = some s') :
    s'.Started := by
  cases a with
  | loop a =>
    obtain ⟨-, sys, -, rfl⟩ := step_loop_inv h
    exact ⟨hs.sem, hs.posted, hs.shown, hs.thread, hs.joined, hs.detached⟩
  | starter => exact hs.starterStep hl h
  | worker => exact hs.workerStep hl h
  | wake =>
    obtain ⟨hsem, hposted, hshown, hthread, hjoined, hdetached⟩ := hs
    simp only [StartSystem.step, Option.ite_none_right_eq_some, Option.some.injEq] at h
    obtain ⟨hpc, rfl⟩ := h
    constructor <;> simp_all [StarterPc.hasReturned]
  | destroy =>
    obtain ⟨hsem, hposted, hshown, hthread, hjoined, hdetached⟩ := hs
    have hloop := hl.loop
    simp only [StartSystem.step, Option.ite_none_right_eq_some, Option.some.injEq] at h
    obtain ⟨⟨hpc, -⟩, rfl⟩ := h
    have hlate := hshown (by simp [hpc, StarterPc.hasReturned])
    cases hl : s.loop
    · have hcleared := WorkerPc.cleared_of_rank hlate (hloop.symm.trans hl)
      constructor <;> simp_all
    · constructor <;> simp_all

/-- What holds in every state of a run. -/
structure Coherent (s : StartSystem F C T) : Prop where
  locked : s.Locked
  placed : s.Placed
  started : s.Started

theorem Coherent.step (hs : s.Coherent) (h : s.step main a = some s') : s'.Coherent :=
  ⟨hs.locked.step h, hs.placed.step hs.locked h, hs.started.step hs.locked h⟩

omit [DecidableEq T] in
theorem coherent_new (fd : C → Int) (wakeupChannel : C) :
    Coherent (new fd wakeupChannel : StartSystem F C T) where
  locked := by constructor <;> simp [new, StarterPc.holds, WorkerPc.holds, WorkerPc.published,
    StarterPc.hasReturned]
  placed := by constructor <;> simp [new, LoopSystem.new, EventLoop.new, WorkerPc.rank]
  started := by constructor <;> simp [new, WorkerPc.rank, StarterPc.hasReturned]

/-! ## The refinement -/

/-- What `LoopThread` sees. -/
def abs (s : StartSystem F C T) : LoopThread F C T where
  sys := s.sys
  thread := s.worker.thread
  creator := s.starter.creator
  asked := s.asked
  polls := s.polls

omit [DecidableEq C] in
theorem allows_abs (hs : s.Placed) {a : LoopAction F C T} (h : s.allows main a = true) :
    s.abs.allows main a = true := by
  cases a with
  | enter =>
    have hw : s.worker = .loop := by simpa [allows] using h
    simp [LoopThread.allows, abs, hw, WorkerPc.thread, WorkerPc.published]
  | push | quit | wakeup =>
    simp only [allows, Bool.decide_and, Bool.and_eq_true, decide_eq_true_eq] at h
    obtain ⟨-, hne | hpc⟩ := h
    · simp [LoopThread.allows, hne]
    · simp [LoopThread.allows, abs, hpc, StarterPc.creator]
  | pushOwn | quitOwn | channelOp =>
    simp only [allows, decide_eq_true_eq] at h
    obtain hw | ⟨-, hidle, hleft⟩ := h
    · have hpc : s.sys.loop.pc = .idle := hs.idle (by simp [hw, WorkerPc.rank])
      simp [LoopThread.allows, abs, hw, hpc, WorkerPc.thread, WorkerPc.published, WorkerPc.cleared]
    · simp [LoopThread.allows, abs, hidle, hleft]
  | _ => rfl

theorem abs_loop (hs : s.Placed) {a : LoopAction F C T} (h : s.step main (.loop a) = some s') :
    s.abs.step main (.loop a) = some s'.abs := by
  obtain ⟨hall, sys, hsys, rfl⟩ := step_loop_inv h
  have hret : s.starter.hasReturned = (s.starter.creator != .starting) := by
    cases s.starter <;> rfl
  rw [LoopThread.step, if_pos (allows_abs hs hall)]
  simp only [abs, hsys, hret, Option.map_some]
  rfl

/-- The return of `startLoop` is the release of the mutex, which `loop_` stays set up to. -/
theorem abs_starter (hs : s.Coherent) (h : s.step main .starter = some s') :
    s'.abs = s.abs ∨ ∃ b, s.abs.step main b = some s'.abs := by
  cases hpc : s.starter <;>
    simp only [StartSystem.step, StartSystem.starterStep, hpc, Option.ite_none_right_eq_some,
      Option.some.injEq, Option.map_eq_some_iff, reduceCtorEq] at h
  case spawn =>
    subst h
    have hw := hs.locked.born.1 hpc
    exact .inl (by simp [abs, hpc, hw, StarterPc.creator, WorkerPc.thread, WorkerPc.published,
      WorkerPc.cleared])
  case unlock =>
    subst h
    have hpub : s.worker.published = true := hs.locked.loop.symm.trans (hs.locked.kept (.inr hpc))
    exact .inr ⟨.startLoopReturns, by
      simp [LoopThread.step, abs, hpc, hpub, StarterPc.creator, WorkerPc.thread]⟩
  case quitting =>
    obtain ⟨sys, hsys, rfl⟩ := h
    exact .inr ⟨.dtorQuit, by simp [LoopThread.step, abs, hpc, hsys, StarterPc.creator]⟩
  case waking =>
    obtain ⟨sys, hsys, rfl⟩ := h
    exact .inr ⟨.dtorWakeup, by simp [LoopThread.step, abs, hpc, hsys, StarterPc.creator]⟩
  case joining =>
    obtain ⟨hw, rfl⟩ := h
    exact .inr ⟨.join, by simp [LoopThread.step, abs, hpc, hw, StarterPc.creator, WorkerPc.thread,
      WorkerPc.published, WorkerPc.cleared]⟩
  case test =>
    split at h <;> obtain rfl := Option.some.inj h
    · exact .inl (by simp [abs, hpc, StarterPc.creator])
    · exact .inl (by simp [abs, hpc, StarterPc.creator])
  all_goals first | subst h | obtain ⟨-, rfl⟩ := h
  all_goals exact .inl (by simp [abs, hpc, StarterPc.creator])

/-- `loop_` is set and cleared under the mutex. -/
theorem abs_worker (hs : s.Coherent) (h : s.step main .worker = some s') :
    s'.abs = s.abs ∨ ∃ b, s.abs.step main b = some s'.abs := by
  have hidle := hs.placed.idle
  have hleft := hs.placed.left
  have hown := hs.placed.own
  cases hpc : s.worker <;>
    simp only [StartSystem.step, StartSystem.workerStep, hpc, Option.ite_none_right_eq_some,
      Option.some.injEq, reduceCtorEq] at h
  case publish =>
    subst h
    simp only [hpc, WorkerPc.rank] at hidle
    exact .inr ⟨.publish, by simp [LoopThread.step, LoopSystem.isAt, abs, hpc, hidle, hown,
      WorkerPc.thread, WorkerPc.published, WorkerPc.cleared]⟩
  case clear =>
    subst h
    simp only [hpc, WorkerPc.rank] at hleft
    exact .inr ⟨.clear, by simp [LoopThread.step, LoopSystem.isAt, abs, hpc, hleft, hown,
      WorkerPc.thread, WorkerPc.published, WorkerPc.cleared]⟩
  case notify =>
    subst h
    by_cases hwait : s.starter = .waiting
    · exact .inl (by simp [abs, hpc, hwait, StarterPc.creator, WorkerPc.thread,
        WorkerPc.published])
    · exact .inl (by simp [abs, hpc, hwait, WorkerPc.thread, WorkerPc.published])
  all_goals first | subst h | obtain ⟨-, rfl⟩ := h
  all_goals exact .inl (by simp [abs, hpc, WorkerPc.thread, WorkerPc.published, WorkerPc.cleared])

/-- **Each step is a step of `LoopThread`, or none.** -/
theorem step_abs (hs : s.Coherent) (h : s.step main a = some s') :
    s'.abs = s.abs ∨ ∃ b, s.abs.step main b = some s'.abs := by
  cases a with
  | loop a => exact .inr ⟨_, abs_loop hs.placed h⟩
  | starter => exact abs_starter hs h
  | worker => exact abs_worker hs h
  | wake =>
    simp only [StartSystem.step, Option.ite_none_right_eq_some, Option.some.injEq] at h
    obtain ⟨hpc, rfl⟩ := h
    exact .inl (by simp [abs, hpc, StarterPc.creator])
  | destroy =>
    simp only [StartSystem.step, Option.ite_none_right_eq_some, Option.some.injEq] at h
    obtain ⟨⟨hpc, hcaller⟩, rfl⟩ := h
    have hloop : (s.worker.thread = .looping) = (s.loop = true) := by
      rw [hs.locked.loop]
      cases s.worker <;> simp [WorkerPc.thread, WorkerPc.published, WorkerPc.cleared]
    refine .inr ⟨.destroy, ?_⟩
    cases hl : s.loop <;>
      simp [LoopThread.step, abs, hpc, hcaller, hloop, hl, StarterPc.creator]

/-- **The handshake refines `LoopThread`.** Whatever the two threads, other callers and spurious
wakeups do, a run of the handshake with its mutex, condition variable and semaphore goes through
the states of a run in which `loop_` is published, cleared and seen in single steps. -/
theorem startLoop_refines (main : T) (fd : C → Int) (wakeupChannel : C)
    (as : List (StartAction F C T)) (s : StartSystem F C T)
    (h : run (step main) (new fd wakeupChannel) as = some s) :
    ∃ bs, (LoopThread.new fd wakeupChannel).run main bs = some s.abs := by
  refine run_refines abs Coherent (fun _ _ _ hs => hs.step) (fun s a s' hs hstep => ?_)
    (coherent_new fd wakeupChannel) h
  obtain heq | ⟨b, hb⟩ := step_abs hs hstep
  · exact ⟨[], congrArg some heq.symm⟩
  · exact ⟨[b], run_cons.2 ⟨_, hb, rfl⟩⟩

/-- `startLoop` waits for the publication, and the loop comes to user code. -/
def handshake : List (StartAction Unit Unit Unit) :=
  [.starter, .worker, .worker, .worker, .starter, .starter, .starter, .worker, .worker, .worker,
    .worker, .starter, .starter, .starter, .starter, .loop .enter, .loop .test,
    .loop (.pollReturn []), .loop .quitOwn]

def running : StartSystem Unit Unit Unit :=
  (run (step ()) (new (fun _ => 3) ()) handshake).get (by decide)

theorem run_handshake : run (step ()) (new (fun _ => 3) ()) handshake = some running := by
  simp [running]

theorem startLoop_refines_handshake :
    ∃ bs, (LoopThread.new (fun _ => 3) ()).run () bs = some running.abs :=
  startLoop_refines () (fun _ => 3) () handshake running run_handshake

end StartSystem

end WebCore
