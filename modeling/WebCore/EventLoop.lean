import WebCore.Poller
import WebCore.Lib.BatchQueue
import WebCore.Lib.Transition

/-!
# `EventLoop`

The loop of `ZEventLoop/event_loop.cpp` and the threads around it. `EventLoop` is the object, with
the loop thread's program counter and the local vector of `doPendingFunctors`. `F` is the type of
functors and `C` the type of `Channel*`.

`LoopSystem` adds the threads. A call of `queueInLLoop` is two steps: the push under the mutex, and
the write to the eventfd; so is `quit`. What runs inside a channel callback or a functor is any
sequence of steps of the loop thread itself (`pushOwn`, `quitOwn`, `channelOp`).

The eventfd is a counter: a write adds one, a read returns it and sets it to zero, and it is
readable iff it is not zero.
-/

namespace WebCore

/-! ## The object -/

/-- Where the loop thread stands. -/
inductive LoopPc
  /-- not yet in `loop()`: its flags are still to be set -/
  | idle
  /-- at `while (!quit_)` -/
  | test
  /-- inside `poller_->poll` -/
  | poll
  /-- in the loop over `activeChannels_` -/
  | dispatch
  /-- in `doPendingFunctors`, before the swap -/
  | swap
  /-- in the loop over `functors` -/
  | run
  /-- `loop()` has left its `while` -/
  | left
deriving DecidableEq, Repr

structure EventLoop (F C : Type*) where
  looping : Bool
  quit : Bool
  callingPendingFunctors : Bool
  pendingFunctors : List F
  /-- the local vector of `doPendingFunctors`, as far as it is still to be run -/
  functors : List F
  /-- the vector `activeChannels_`, as far as it is still to be dispatched -/
  activeChannels : List C
  wakeupChannel : C
  poller : EpollPoller C
  /-- the counter of `wakeupFd_` -/
  eventfd : Nat
  pc : LoopPc

namespace EventLoop

variable {F C : Type*}

/-- The constructor, on channels with the descriptors `fd`: only `wakeupChannel` is registered. -/
def new [DecidableEq C] (fd : C → Int) (wakeupChannel : C) : EventLoop F C where
  looping := false
  quit := false
  callingPendingFunctors := false
  pendingFunctors := []
  functors := []
  activeChannels := []
  wakeupChannel := wakeupChannel
  poller := (EpollPoller.new fd).enableReading false wakeupChannel
  eventfd := 0
  pc := .idle

/-! ### `loop()` -/

/-- `looping_ = true; quit_ = false;` -/
def enter (l : EventLoop F C) : EventLoop F C :=
  { l with looping := true, quit := false, pc := .test }

/-- The test of the `while`, and what follows it in either case up to the next wait. -/
def test (l : EventLoop F C) : EventLoop F C :=
  if l.quit then { l with looping := false, pc := .left }
  else { l with activeChannels := [], pc := .poll }

/-- The kernel can report this channel and mask: it is registered with this pointer and for these
events, and the wakeup channel's descriptor is readable. -/
def mayReport [DecidableEq C] (l : EventLoop F C) (ev : C × EventMask) : Bool :=
  ((l.poller.interest (l.poller.channel ev.1).fd).any fun reg =>
    reg.ptr == ev.1 && ev.2.reportedFor reg.events) &&
  (ev.1 != l.wakeupChannel || l.eventfd != 0)

/-- `poll` returns with the channels `active` and their masks. -/
def pollReturn [DecidableEq C] (active : List (C × EventMask)) (l : EventLoop F C) :
    EventLoop F C :=
  { l with activeChannels := active.map Prod.fst
           poller := l.poller.fillActiveChannels active
           pc := .dispatch }

/-- `handleRead`: the read of `wakeupFd_`. -/
def handleRead (l : EventLoop F C) : EventLoop F C := { l with eventfd := 0 }

/-- `handleEvent` is called on the next active channel. Only the wakeup channel's callback is
known here. -/
def dispatch [DecidableEq C] (c : C) (rest : List C) (l : EventLoop F C) : EventLoop F C :=
  let l := { l with activeChannels := rest }
  if c = l.wakeupChannel then l.handleRead else l

/-- `doPendingFunctors` begins. -/
def startFunctors (l : EventLoop F C) : EventLoop F C :=
  { l with callingPendingFunctors := true, pc := .swap }

/-- `functors.swap(pendingFunctors_)`, under the mutex. -/
def swapFunctors (l : EventLoop F C) : EventLoop F C :=
  { l with functors := l.pendingFunctors, pendingFunctors := [], pc := .run }

/-- The next functor of the batch is called. -/
def takeFunctor (rest : List F) (l : EventLoop F C) : EventLoop F C := { l with functors := rest }

/-- `doPendingFunctors` ends. -/
def endFunctors (l : EventLoop F C) : EventLoop F C :=
  { l with callingPendingFunctors := false, pc := .test }

/-! ### `queueInLLoop` and `quit` -/

/-- `pendingFunctors_.emplace_back(cb)`, under the mutex. -/
def push (f : F) (l : EventLoop F C) : EventLoop F C :=
  { l with pendingFunctors := l.pendingFunctors ++ [f] }

/-- The write to `wakeupFd_`. -/
def wakeup (l : EventLoop F C) : EventLoop F C := { l with eventfd := l.eventfd + 1 }

/-- `if (!isInLoopThread() || callingPendingFunctors_) wakeup();` -/
def wakeupIfNeeded (inLoopThread : Bool) (l : EventLoop F C) : EventLoop F C :=
  if !inLoopThread || l.callingPendingFunctors then l.wakeup else l

def queueInLLoop (inLoopThread : Bool) (f : F) (l : EventLoop F C) : EventLoop F C :=
  (l.push f).wakeupIfNeeded inLoopThread

def setQuit (l : EventLoop F C) : EventLoop F C := { l with quit := true }

/-- An operation on a channel of this loop. -/
def channelOp [DecidableEq C] (op : ChannelOp) (c : C) (l : EventLoop F C) : EventLoop F C :=
  { l with poller := l.poller.apply false op c }

theorem test_eq (l : EventLoop F C) :
    l.test = { l with looping := l.looping && !l.quit
                      activeChannels := if l.quit then l.activeChannels else []
                      pc := if l.quit then .left else .poll } := by
  cases l with | mk looping quit => cases quit <;> simp [test]

theorem dispatch_eq [DecidableEq C] (l : EventLoop F C) (c : C) (rest : List C) :
    l.dispatch c rest = { l with activeChannels := rest
                                 eventfd := if c = l.wakeupChannel then 0 else l.eventfd } := by
  unfold dispatch; dsimp only; split <;> rfl

theorem wakeupIfNeeded_eq (l : EventLoop F C) (inLoopThread : Bool) :
    l.wakeupIfNeeded inLoopThread = { l with
      eventfd :=
        if !inLoopThread || l.callingPendingFunctors then l.eventfd + 1 else l.eventfd } := by
  unfold wakeupIfNeeded; split <;> rfl

/-- User code can run on the loop thread: outside `loop()`, in a channel callback, in a functor. -/
def inUserCode (l : EventLoop F C) : Bool := l.pc ∈ [.idle, .dispatch, .run, .left]

end EventLoop

/-! ## The threads -/

/-- Where a thread stands in `queueInLLoop` or `quit`. -/
inductive CallerPc
  | idle
  /-- the functor is in the queue; `wakeup()` is to come -/
  | pushed
  /-- `quit_` is stored; `wakeup()` is to come -/
  | quitting
deriving DecidableEq, Repr

/-- A loop, the threads `T` that call it, and the history of its queue. -/
structure LoopSystem (F C T : Type*) where
  loop : EventLoop F C
  caller : T → CallerPc
  /-- the loop thread inside `queueInLLoop` -/
  own : CallerPc
  /-- the functors pushed so far, each with the number of swaps before it -/
  queued : List (F × Nat)
  /-- the functors run so far, each with the number of its batch -/
  executed : List (F × Nat)
  /-- the number of swaps so far -/
  batches : Nat

inductive LoopAction (F C T : Type*)
  | enter
  | test
  | pollReturn (active : List (C × EventMask))
  | dispatch
  | startFunctors
  | swapFunctors
  | runFunctor
  | endFunctors
  | push (t : T) (f : F)
  | quit (t : T)
  | wakeup (t : T)
  | pushOwn (f : F)
  | wakeupOwn
  | quitOwn
  | channelOp (op : ChannelOp) (c : C)

namespace LoopSystem

variable {F C T : Type*}

def new [DecidableEq C] (fd : C → Int) (wakeupChannel : C) : LoopSystem F C T :=
  ⟨.new fd wakeupChannel, fun _ => .idle, .idle, [], [], 0⟩

/-- The loop thread is at `pc`, and not inside `queueInLLoop`. -/
def isAt (s : LoopSystem F C T) (pc : LoopPc) : Bool := s.loop.pc = pc ∧ s.own = .idle

variable [DecidableEq C] [DecidableEq T]

/-- One step of one of the threads, when it can take it. -/
def step (s : LoopSystem F C T) : LoopAction F C T → Option (LoopSystem F C T)
  | .enter => if s.isAt .idle then some { s with loop := s.loop.enter } else none
  | .test => if s.isAt .test then some { s with loop := s.loop.test } else none
  | .pollReturn active =>
    if s.isAt .poll ∧ active.all s.loop.mayReport ∧ (active.map Prod.fst).Nodup then
      some { s with loop := s.loop.pollReturn active }
    else none
  | .dispatch =>
    match s.loop.activeChannels with
    | c :: rest =>
      if s.isAt .dispatch then some { s with loop := s.loop.dispatch c rest } else none
    | [] => none
  | .startFunctors =>
    if s.isAt .dispatch ∧ s.loop.activeChannels = [] then
      some { s with loop := s.loop.startFunctors }
    else none
  | .swapFunctors =>
    if s.isAt .swap then some { s with loop := s.loop.swapFunctors, batches := s.batches + 1 }
    else none
  | .runFunctor =>
    match s.loop.functors with
    | f :: rest =>
      if s.isAt .run then
        some { s with loop := s.loop.takeFunctor rest
                      executed := s.executed ++ [(f, s.batches)] }
      else none
    | [] => none
  | .endFunctors =>
    match s.loop.functors with
    | [] => if s.isAt .run then some { s with loop := s.loop.endFunctors } else none
    | _ :: _ => none
  | .push t f =>
    if s.caller t = .idle then
      some { s with loop := s.loop.push f
                    caller := Function.update s.caller t .pushed
                    queued := s.queued ++ [(f, s.batches)] }
    else none
  | .quit t =>
    if s.caller t = .idle then
      some { s with loop := s.loop.setQuit, caller := Function.update s.caller t .quitting }
    else none
  | .wakeup t =>
    if s.caller t ≠ .idle then
      some { s with loop := s.loop.wakeup, caller := Function.update s.caller t .idle }
    else none
  | .pushOwn f =>
    if s.loop.inUserCode ∧ s.own = .idle then
      some { s with loop := s.loop.push f, own := .pushed, queued := s.queued ++ [(f, s.batches)] }
    else none
  | .wakeupOwn =>
    if s.own = .pushed then some { s with loop := s.loop.wakeupIfNeeded true, own := .idle }
    else none
  | .quitOwn =>
    if s.loop.inUserCode ∧ s.own = .idle then some { s with loop := s.loop.setQuit } else none
  | .channelOp op c =>
    if s.loop.inUserCode ∧ s.own = .idle ∧ c ≠ s.loop.wakeupChannel then
      some { s with loop := s.loop.channelOp op c }
    else none

/-- A run of the system. -/
def run (s : LoopSystem F C T) (as : List (LoopAction F C T)) : Option (LoopSystem F C T) :=
  Transition.run step s as

/-- What a step requires and what it does, action by action. -/
def Takes (s s' : LoopSystem F C T) : LoopAction F C T → Prop
  | .enter => s.loop.pc = .idle ∧ s.own = .idle ∧ s' = { s with loop := s.loop.enter }
  | .test => s.loop.pc = .test ∧ s.own = .idle ∧
      s' = { s with loop := { s.loop with
        looping := s.loop.looping && !s.loop.quit
        activeChannels := if s.loop.quit then s.loop.activeChannels else []
        pc := if s.loop.quit then .left else .poll } }
  | .pollReturn active => s.loop.pc = .poll ∧ s.own = .idle ∧ active.all s.loop.mayReport ∧
      (active.map Prod.fst).Nodup ∧ s' = { s with loop := s.loop.pollReturn active }
  | .dispatch => s.loop.pc = .dispatch ∧ s.own = .idle ∧
      ∃ c rest, s.loop.activeChannels = c :: rest ∧
        s' = { s with loop := { s.loop with
          activeChannels := rest
          eventfd := if c = s.loop.wakeupChannel then 0 else s.loop.eventfd } }
  | .startFunctors => s.loop.pc = .dispatch ∧ s.own = .idle ∧ s.loop.activeChannels = [] ∧
      s' = { s with loop := s.loop.startFunctors }
  | .swapFunctors => s.loop.pc = .swap ∧ s.own = .idle ∧
      s' = { s with loop := s.loop.swapFunctors, batches := s.batches + 1 }
  | .runFunctor => s.loop.pc = .run ∧ s.own = .idle ∧ ∃ f rest, s.loop.functors = f :: rest ∧
      s' = { s with loop := s.loop.takeFunctor rest, executed := s.executed ++ [(f, s.batches)] }
  | .endFunctors => s.loop.pc = .run ∧ s.own = .idle ∧ s.loop.functors = [] ∧
      s' = { s with loop := s.loop.endFunctors }
  | .push t f => s.caller t = .idle ∧
      s' = { s with loop := s.loop.push f, caller := Function.update s.caller t .pushed
                    queued := s.queued ++ [(f, s.batches)] }
  | .quit t => s.caller t = .idle ∧
      s' = { s with loop := s.loop.setQuit, caller := Function.update s.caller t .quitting }
  | .wakeup t => s.caller t ≠ .idle ∧
      s' = { s with loop := s.loop.wakeup, caller := Function.update s.caller t .idle }
  | .pushOwn f => s.loop.inUserCode = true ∧ s.own = .idle ∧
      s' = { s with loop := s.loop.push f, own := .pushed, queued := s.queued ++ [(f, s.batches)] }
  | .wakeupOwn => s.own = .pushed ∧
      s' = { s with own := .idle, loop := { s.loop with
        eventfd := if s.loop.callingPendingFunctors then s.loop.eventfd + 1 else s.loop.eventfd } }
  | .quitOwn => s.loop.inUserCode = true ∧ s.own = .idle ∧ s' = { s with loop := s.loop.setQuit }
  | .channelOp op c => s.loop.inUserCode = true ∧ s.own = .idle ∧ c ≠ s.loop.wakeupChannel ∧
      s' = { s with loop := s.loop.channelOp op c }

/-- **Inversion of a step.** -/
theorem step_inv {s s' : LoopSystem F C T} {a : LoopAction F C T} (h : s.step a = some s') :
    s.Takes s' a := by
  cases a with
  | dispatch | runFunctor | endFunctors =>
    simp only [step] at h
    split at h
    · rename_i hl
      simp only [Option.ite_none_right_eq_some, Option.some.injEq, isAt, Bool.decide_and,
        Bool.and_eq_true, decide_eq_true_eq, EventLoop.dispatch_eq] at h
      obtain ⟨⟨hpc, hown⟩, rfl⟩ := h
      first
        | exact ⟨hpc, hown, _, _, hl, rfl⟩
        | exact ⟨hpc, hown, hl, rfl⟩
    · cases h
  | _ =>
    simp only [step, Option.ite_none_right_eq_some, Option.some.injEq, isAt, Bool.decide_and,
      Bool.and_eq_true, decide_eq_true_eq, EventLoop.test_eq, EventLoop.wakeupIfNeeded_eq,
      Bool.not_true, Bool.false_or] at h
    simp only [Takes]
    grind

/-- `loop()` is entered once. -/
theorem step_pc_ne_idle {s s' : LoopSystem F C T} {a : LoopAction F C T}
    (hidle : s.loop.pc ≠ .idle) (h : s.step a = some s') : s'.loop.pc ≠ .idle := by
  have h := step_inv h
  cases a with
  | enter => exact absurd h.1 hidle
  | test =>
    obtain ⟨-, -, rfl⟩ := h
    cases s.loop.quit <;> simp
  | pollReturn =>
    obtain ⟨-, -, -, -, rfl⟩ := h
    exact LoopPc.noConfusion
  | startFunctors | endFunctors =>
    obtain ⟨-, -, -, rfl⟩ := h
    exact LoopPc.noConfusion
  | swapFunctors =>
    obtain ⟨-, -, rfl⟩ := h
    exact LoopPc.noConfusion
  | dispatch | runFunctor =>
    obtain ⟨-, -, _, _, -, rfl⟩ := h
    exact hidle
  | channelOp =>
    obtain ⟨-, -, -, rfl⟩ := h
    exact hidle
  | pushOwn | quitOwn =>
    obtain ⟨-, -, rfl⟩ := h
    exact hidle
  | push | quit | wakeup | wakeupOwn =>
    obtain ⟨-, rfl⟩ := h
    exact hidle

/-- `loop()` is left once. -/
theorem step_pc_left {s s' : LoopSystem F C T} {a : LoopAction F C T} (hleft : s.loop.pc = .left)
    (h : s.step a = some s') : s'.loop.pc = .left := by
  have h := step_inv h
  cases a with
  | push | quit | wakeup | wakeupOwn =>
    obtain ⟨-, rfl⟩ := h
    exact hleft
  | pushOwn | quitOwn =>
    obtain ⟨-, -, rfl⟩ := h
    exact hleft
  | channelOp =>
    obtain ⟨-, -, -, rfl⟩ := h
    exact hleft
  | _ => simp [Takes, hleft] at h

end LoopSystem

end WebCore
