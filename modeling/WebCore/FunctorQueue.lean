import WebCore.EventLoop

/-!
# The functor queue is exactly-once and FIFO

`doPendingFunctors` is the consumer of a queue that is run in batches: the swap takes what is
pending, and the functors of the batch run in order before the next swap. Every step of the loop
thread or of another thread is a move of that queue (`step_move`), whatever it does to the rest of
the loop.

**Theorem (`functors_exactly_once`).** In every reachable state, the functors executed so far, then
the rest of the batch, then the pending functors are the functors queued so far, in the order of
their pushes; and a functor queued while a batch runs is run in a later batch.
-/

namespace WebCore

namespace LoopSystem

open BatchQueue

variable {F C T : Type*}

/-- The functor queue of the loop, with its history. -/
def queue (s : LoopSystem F C T) : Queue F where
  done := s.executed
  batch := s.loop.functors
  pending := s.loop.pendingFunctors
  history := s.queued
  batches := s.batches

/-- The queue is in order, and only `doPendingFunctors` holds a batch. -/
structure Ordered (s : LoopSystem F C T) : Prop where
  exact : s.queue.Exact
  batch_nil : s.loop.pc ≠ .run → s.loop.functors = []

theorem Ordered.order {s : LoopSystem F C T} (h : Ordered s) :
    s.executed.map Prod.fst ++ s.loop.functors ++ s.loop.pendingFunctors =
      s.queued.map Prod.fst :=
  h.exact.order

theorem ordered_new [DecidableEq C] (fd : C → Int) (wakeupChannel : C) :
    Ordered (new fd wakeupChannel : LoopSystem F C T) :=
  ⟨⟨rfl, by simp [queue, new], by simp [queue, new], by simp [queue, new]⟩, fun _ => rfl⟩

variable [DecidableEq C] [DecidableEq T]

/-- **Every step is a move of the queue.** -/
theorem step_move {s s' : LoopSystem F C T} {a : LoopAction F C T}
    (hb : s.loop.pc ≠ .run → s.loop.functors = []) (h : s.step a = some s') :
    Queue.Move s.queue s'.queue := by
  have h := step_inv h
  cases a with
  | push t f =>
    obtain ⟨-, rfl⟩ := h
    exact .push s.queue f
  | pushOwn f =>
    obtain ⟨-, -, rfl⟩ := h
    exact .push s.queue f
  | swapFunctors =>
    obtain ⟨hpc, -, rfl⟩ := h
    exact .swap s.queue (hb (by simp [hpc]))
  | runFunctor =>
    obtain ⟨-, -, f, rest, hf, rfl⟩ := h
    exact .take s.queue f rest hf
  | dispatch =>
    obtain ⟨-, -, c, rest, -, rfl⟩ := h
    exact .stay s.queue
  | pollReturn =>
    obtain ⟨-, -, -, -, rfl⟩ := h
    exact .stay s.queue
  | startFunctors | endFunctors | channelOp =>
    obtain ⟨-, -, -, rfl⟩ := h
    exact .stay s.queue
  | enter | test | quitOwn =>
    obtain ⟨-, -, rfl⟩ := h
    exact .stay s.queue
  | quit | wakeup | wakeupOwn =>
    obtain ⟨-, rfl⟩ := h
    exact .stay s.queue

/-- A batch is begun by the swap and finished before `doPendingFunctors` ends. -/
theorem step_batch_nil {s s' : LoopSystem F C T} {a : LoopAction F C T}
    (hb : s.loop.pc ≠ .run → s.loop.functors = []) (h : s.step a = some s') :
    s'.loop.pc ≠ .run → s'.loop.functors = [] := by
  intro hpc'
  have h := step_inv h
  cases a with
  | swapFunctors =>
    obtain ⟨-, -, rfl⟩ := h
    exact absurd rfl hpc'
  | runFunctor =>
    obtain ⟨hpc, -, f, rest, -, rfl⟩ := h
    exact absurd hpc hpc'
  | endFunctors =>
    obtain ⟨-, -, hf, rfl⟩ := h
    exact hf
  | dispatch =>
    obtain ⟨hpc, -, c, rest, -, rfl⟩ := h
    exact hb (by simp [hpc])
  | pollReturn =>
    obtain ⟨hpc, -, -, -, rfl⟩ := h
    exact hb (by simp [hpc])
  | startFunctors =>
    obtain ⟨hpc, -, -, rfl⟩ := h
    exact hb (by simp [hpc])
  | enter | test =>
    obtain ⟨hpc, -, rfl⟩ := h
    exact hb (by simp [hpc])
  | channelOp =>
    obtain ⟨-, -, -, rfl⟩ := h
    exact hb hpc'
  | pushOwn | quitOwn =>
    obtain ⟨-, -, rfl⟩ := h
    exact hb hpc'
  | push | quit | wakeup | wakeupOwn =>
    obtain ⟨-, rfl⟩ := h
    exact hb hpc'

theorem Ordered.step {s s' : LoopSystem F C T} {a : LoopAction F C T} (hs : Ordered s)
    (h : s.step a = some s') : Ordered s' :=
  ⟨(step_move hs.batch_nil h).exact hs.exact, step_batch_nil hs.batch_nil h⟩

theorem Ordered.run {s s' : LoopSystem F C T} {as : List (LoopAction F C T)} (hs : Ordered s)
    (h : s.run as = some s') : Ordered s' :=
  Transition.run_invariant Ordered (fun _ _ _ => Ordered.step) hs h

/-- **The functor queue is exactly-once and FIFO.** Whatever the threads do, the functors executed
so far, the rest of the batch and the pending functors make up the functors queued so far, in the
order of their pushes. The `i`-th functor executed is the `i`-th functor queued, and the batch that
ran it was swapped out after its push: a functor queued while a batch runs is not in that batch. -/
theorem functors_exactly_once (fd : C → Int) (wakeupChannel : C) (as : List (LoopAction F C T))
    (s : LoopSystem F C T) (h : (new fd wakeupChannel).run as = some s) :
    s.executed.map Prod.fst ++ s.loop.functors ++ s.loop.pendingFunctors =
      s.queued.map Prod.fst ∧
    ∀ (i : Nat) (f : F) (batch : Nat), s.executed[i]? = some (f, batch) →
      ∃ before, s.queued[i]? = some (f, before) ∧ before < batch := by
  have hs := (ordered_new fd wakeupChannel).run h
  refine ⟨hs.order, fun i f batch hi => ?_⟩
  have hf : (s.queued.map Prod.fst)[i]? = some f := by
    rw [← hs.order]
    have hlt : i < s.executed.length := (List.getElem?_eq_some_iff.1 hi).1
    simp only [List.append_assoc]
    rw [List.getElem?_append_left (by simpa using hlt), List.getElem?_map, hi]
    rfl
  obtain ⟨⟨g, before⟩, hg, rfl⟩ : ∃ x, s.queued[i]? = some x ∧ x.1 = f := by
    simpa using hf
  exact ⟨before, hg, hs.exact.later i _ _ hi hg⟩

/-- Another thread queues a functor during `poll`, and that functor queues one. -/
def pushInBatch : List (LoopAction Bool Unit Unit) :=
  [.enter, .test, .push () true, .wakeup (), .pollReturn [((), EPOLLIN)], .dispatch, .startFunctors,
    .swapFunctors, .runFunctor, .pushOwn false, .wakeupOwn, .endFunctors]

theorem functors_pushInBatch :
    ∃ s : LoopSystem Bool Unit Unit, (new (fun _ => 3) ()).run pushInBatch = some s ∧
      s.executed.map Prod.fst ++ s.loop.functors ++ s.loop.pendingFunctors = [true, false] := by
  obtain ⟨s, h, hq⟩ := Option.map_eq_some_iff.1
    (show ((new (fun _ => 3) ()).run pushInBatch).map (fun s => s.queued.map Prod.fst) =
      some [true, false] by decide)
  exact ⟨s, h, (functors_exactly_once (fun _ => 3) () pushInBatch s h).1.trans hq⟩

end LoopSystem

end WebCore
