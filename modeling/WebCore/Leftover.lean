import WebCore.ConnFrame
import WebCore.LoopThread

/-!
# What a destroyed server leaves behind

A close on an io loop calls `TcpServer::removeConnection`, which queues `removeConnectionInPool` on
the base loop, bound to the bare `this` of the server. The server is destroyed on the base loop's
thread, which runs no functor meanwhile, and the io threads go on until each of them is joined.

**Theorem (`no_work_left`).** When the server is destroyed with no removal in the base loop's queue,
and no io thread closes a connection from then on, no removal is in the queue once the destructor
is through, and none comes. Any removal that is in the queue before, and any close between the
start of the destructor and the join of its thread, is still there when the destructor ends
(`removal_outlives`).
-/

namespace WebCore

/-! ## The model -/

/-- The functors of the base loop. -/
inductive BaseFunctor (K : Type*)
  /-- bound to the server and the connection -/
  | removeConnectionInPool (conn : K)
  | other
deriving DecidableEq, Repr

/-- The functor targets the server. -/
def BaseFunctor.isRemoval {K : Type*} : BaseFunctor K → Bool
  | .removeConnectionInPool _ => true
  | .other => false

/-- Where `~TcpServer` stands. -/
inductive DtorStage (T : Type*)
  | alive
  /-- in the loop over the connections -/
  | body
  /-- in the destruction of the thread pool, with these threads still to be joined -/
  | pool (rest : List T)
  | done
deriving DecidableEq, Repr

/-- A server, its base loop and its io threads, in the order of `_threads`. -/
structure ServerBase (K C T : Type*) where
  base : LoopSystem (BaseFunctor K) C T
  threads : List T
  dtor : DtorStage T

inductive BaseAction (K C T : Type*)
  /-- a step of the base loop, or of another thread -/
  | base (a : LoopAction (BaseFunctor K) C T)
  /-- the io thread `t` runs `handleClose` for the connection, which calls `removeConnection` -/
  | handleClose (t : T) (conn : K)
  | destroy
  | enterPool
  | join
  | finish

namespace ServerBase

variable {K C T : Type*}

/-- The io threads that run. -/
def running (s : ServerBase K C T) : List T :=
  match s.dtor with
  | .alive | .body => s.threads
  | .pool rest => rest
  | .done => []

/-- The base loop's thread is in the destructor. -/
def inDtor (s : ServerBase K C T) : Bool :=
  match s.dtor with
  | .alive | .done => false
  | .body | .pool _ => true

/-- A step that queues no removal. While the destructor runs, the base loop runs no functor. -/
def passes (s : ServerBase K C T) (a : LoopAction (BaseFunctor K) C T) : Bool :=
  (LoopSystem.pushes a).all (fun f => !f.isRemoval) && !(s.inDtor && a.inLoop)

/-- There is a batch in `doPendingFunctors` only. -/
def BatchInRun (s : ServerBase K C T) : Prop := s.base.loop.pc ≠ .run → s.base.loop.functors = []

/-- No functor in the base loop's queue targets the server. -/
def NoWork (s : ServerBase K C T) : Prop :=
  ∀ f ∈ s.base.loop.functors ++ s.base.loop.pendingFunctors, f.isRemoval = false

instance (s : ServerBase K C T) : Decidable s.NoWork :=
  inferInstanceAs
    (Decidable (∀ f ∈ s.base.loop.functors ++ s.base.loop.pendingFunctors, f.isRemoval = false))

variable [DecidableEq T]

/-- The server is destroyed without a removal in the queue, and no connection is closed while the
destructor runs. -/
def InOrder (s : ServerBase K C T) : BaseAction K C T → Prop
  | .destroy => s.NoWork
  | .handleClose _ _ => s.dtor = .alive
  | .base _ | .enterPool | .join | .finish => True

instance (s : ServerBase K C T) : ∀ a, Decidable (s.InOrder a)
  | .destroy => inferInstanceAs (Decidable s.NoWork)
  | .handleClose _ _ => inferInstanceAs (Decidable (s.dtor = .alive))
  | .base _ | .enterPool | .join | .finish => inferInstanceAs (Decidable True)

def new [DecidableEq C] (fd : C → Int) (wakeupChannel : C) (threads : List T) : ServerBase K C T :=
  ⟨.new fd wakeupChannel, threads, .alive⟩

variable [DecidableEq C]

def step (s : ServerBase K C T) : BaseAction K C T → Option (ServerBase K C T)
  | .base a => if s.passes a then (s.base.step a).map fun base => { s with base } else none
  | .handleClose t conn =>
    if t ∈ s.running then
      (s.base.step (.push t (.removeConnectionInPool conn))).map fun base => { s with base }
    else none
  | .destroy =>
    if s.dtor = .alive ∧ s.base.loop.inUserCode ∧ s.base.own = .idle then
      some { s with dtor := .body }
    else none
  | .enterPool => if s.dtor = .body then some { s with dtor := .pool s.threads } else none
  | .join =>
    match s.dtor with
    | .pool (t :: rest) =>
      if s.base.caller t = .idle then some { s with dtor := .pool rest } else none
    | _ => none
  | .finish => if s.dtor = .pool [] then some { s with dtor := .done } else none

def run (s : ServerBase K C T) (as : List (BaseAction K C T)) : Option (ServerBase K C T) :=
  Transition.run step s as

/-! ## A step of the base loop -/

/-- Functors leave the queue at its front, and come in as the action queues them. -/
theorem noWork_base {s : ServerBase K C T} {a : LoopAction (BaseFunctor K) C T}
    {base : LoopSystem (BaseFunctor K) C T} (hb : s.BatchInRun)
    (hp : ∀ f ∈ LoopSystem.pushes a, f.isRemoval = false) (h : s.base.step a = some base)
    (hs : s.NoWork) : NoWork { s with base } := by
  intro f hf
  by_cases ha : a = .runFunctor
  · subst ha
    obtain ⟨-, -, g, rest, hg, rfl⟩ := LoopSystem.step_inv h
    refine hs f ?_
    rw [hg]
    exact List.mem_cons_of_mem _ hf
  · rw [LoopSystem.step_queue hb ha h] at hf
    rcases List.mem_append.1 hf with hf | hf
    · exact hs f hf
    · exact hp f hf

/-- **What is in the queue stays there** while the loop's thread is elsewhere. -/
theorem noWork_of_base {s : ServerBase K C T} {a : LoopAction (BaseFunctor K) C T}
    {base : LoopSystem (BaseFunctor K) C T} (hb : s.BatchInRun)
    (ha : a ≠ .runFunctor) (h : s.base.step a = some base) (hs : NoWork { s with base }) :
    s.NoWork ∧ ∀ f ∈ LoopSystem.pushes a, f.isRemoval = false := by
  have hq : ∀ f ∈ s.base.loop.functors ++ s.base.loop.pendingFunctors ++ LoopSystem.pushes a,
      f.isRemoval = false := by
    rw [← LoopSystem.step_queue hb ha h]
    exact hs
  exact ⟨fun f hf => hq f (List.mem_append_left _ hf),
    fun f hf => hq f (List.mem_append_right _ hf)⟩

theorem step_base_inv {s s' : ServerBase K C T} {a : LoopAction (BaseFunctor K) C T}
    (h : s.step (.base a) = some s') :
    (∀ f ∈ LoopSystem.pushes a, f.isRemoval = false) ∧ (s.inDtor = true → a ≠ .runFunctor) ∧
      ∃ base, s.base.step a = some base ∧ s' = { s with base } := by
  simp only [step, passes, Option.ite_none_right_eq_some, Option.map_eq_some_iff,
    Bool.and_eq_true, List.all_eq_true, Bool.not_eq_true', Bool.and_eq_false_iff] at h
  obtain ⟨⟨hp, hd⟩, base, hbase, rfl⟩ := h
  refine ⟨hp, fun hin ha => ?_, base, hbase, rfl⟩
  rcases hd with hd | hd
  · simp [hin] at hd
  · simp [ha, LoopAction.inLoop] at hd

theorem step_handleClose_inv {s s' : ServerBase K C T} {t : T} {conn : K}
    (h : s.step (.handleClose t conn) = some s') :
    t ∈ s.running ∧ ∃ base, s.base.step (.push t (.removeConnectionInPool conn)) = some base ∧
      s' = { s with base } := by
  simp only [step, Option.ite_none_right_eq_some, Option.map_eq_some_iff] at h
  obtain ⟨ht, base, hbase, rfl⟩ := h
  exact ⟨ht, base, hbase, rfl⟩

/-! ## The destructor -/

/-- A batch is begun and finished in `doPendingFunctors`, at every step. -/
theorem step_batch {s s' : ServerBase K C T} {a : BaseAction K C T}
    (hb : s.BatchInRun) (h : s.step a = some s') :
    s'.BatchInRun := by
  cases a with
  | base a =>
    obtain ⟨-, -, base, hbase, rfl⟩ := step_base_inv h
    exact LoopSystem.step_batch_nil hb hbase
  | handleClose t conn =>
    obtain ⟨-, base, hbase, rfl⟩ := step_handleClose_inv h
    exact LoopSystem.step_batch_nil hb hbase
  | destroy | enterPool | finish =>
    simp only [step, Option.ite_none_right_eq_some, Option.some.injEq] at h
    obtain ⟨-, rfl⟩ := h
    exact hb
  | join =>
    simp only [step] at h
    split at h
    · simp only [Option.ite_none_right_eq_some, Option.some.injEq] at h
      obtain ⟨-, rfl⟩ := h
      exact hb
    · cases h

/-- From the start of the destructor on, nothing in the queue targets the server. -/
structure Cleared (s : ServerBase K C T) : Prop where
  batch : s.BatchInRun
  noWork : s.dtor ≠ .alive → s.NoWork

theorem Cleared.step {s s' : ServerBase K C T} {a : BaseAction K C T} (hs : s.Cleared)
    (hok : s.InOrder a) (h : s.step a = some s') : s'.Cleared := by
  refine ⟨step_batch hs.batch h, fun hd => ?_⟩
  cases a with
  | base a =>
    obtain ⟨hp, -, base, hbase, rfl⟩ := step_base_inv h
    exact noWork_base hs.batch hp hbase (hs.noWork hd)
  | handleClose t conn =>
    obtain ⟨-, base, -, rfl⟩ := step_handleClose_inv h
    exact absurd hok hd
  | destroy =>
    simp only [ServerBase.step, Option.ite_none_right_eq_some, Option.some.injEq] at h
    obtain ⟨-, rfl⟩ := h
    exact hok
  | enterPool | finish =>
    simp only [ServerBase.step, Option.ite_none_right_eq_some, Option.some.injEq] at h
    obtain ⟨hpc, rfl⟩ := h
    exact hs.noWork (by simp [hpc])
  | join =>
    simp only [ServerBase.step] at h
    split at h
    · rename_i hpc
      simp only [Option.ite_none_right_eq_some, Option.some.injEq] at h
      obtain ⟨-, rfl⟩ := h
      exact hs.noWork (by simp [hpc])
    · cases h

/-- The destructor runs, and there is a removal in the queue. -/
structure Late (s : ServerBase K C T) : Prop where
  inDtor : s.inDtor = true
  work : ¬ s.NoWork

/-- **A removal outlasts the destructor**, whose thread is the one that would run it. -/
theorem Late.step {s s' : ServerBase K C T} {a : BaseAction K C T} (hs : s.Late)
    (hb : s.BatchInRun) (h : s.step a = some s') :
    ¬ s'.NoWork ∧ (a ≠ .finish → s'.Late) := by
  cases a with
  | base a =>
    obtain ⟨-, hne, base, hbase, rfl⟩ := step_base_inv h
    have hw : ¬ NoWork { s with base } := fun hw =>
      hs.work (noWork_of_base hb (hne hs.inDtor) hbase hw).1
    exact ⟨hw, fun _ => ⟨hs.inDtor, hw⟩⟩
  | handleClose t conn =>
    obtain ⟨-, base, hbase, rfl⟩ := step_handleClose_inv h
    have hw : ¬ NoWork { s with base } := fun hw =>
      hs.work (noWork_of_base hb (by simp) hbase hw).1
    exact ⟨hw, fun _ => ⟨hs.inDtor, hw⟩⟩
  | destroy =>
    simp only [ServerBase.step, Option.ite_none_right_eq_some] at h
    have hd := hs.inDtor
    simp [ServerBase.inDtor, h.1.1] at hd
  | enterPool =>
    simp only [ServerBase.step, Option.ite_none_right_eq_some, Option.some.injEq] at h
    obtain ⟨-, rfl⟩ := h
    exact ⟨hs.work, fun _ => ⟨rfl, hs.work⟩⟩
  | join =>
    simp only [ServerBase.step] at h
    split at h
    · simp only [Option.ite_none_right_eq_some, Option.some.injEq] at h
      obtain ⟨-, rfl⟩ := h
      exact ⟨hs.work, fun _ => ⟨rfl, hs.work⟩⟩
    · cases h
  | finish =>
    simp only [ServerBase.step, Option.ite_none_right_eq_some, Option.some.injEq] at h
    obtain ⟨-, rfl⟩ := h
    exact ⟨hs.work, fun hne => absurd rfl hne⟩

/-- The two ways to leave a removal. -/
theorem late_of_not_inOrder {s s' : ServerBase K C T} {a : BaseAction K C T}
    (hb : s.BatchInRun) (hok : ¬ s.InOrder a)
    (h : s.step a = some s') : s'.Late := by
  cases a with
  | destroy =>
    simp only [step, Option.ite_none_right_eq_some, Option.some.injEq] at h
    obtain ⟨-, rfl⟩ := h
    exact ⟨rfl, hok⟩
  | handleClose t conn =>
    have hd : s.dtor ≠ .alive := hok
    obtain ⟨ht, base, hbase, rfl⟩ := step_handleClose_inv h
    refine ⟨?_, fun hw => ?_⟩
    · cases hpc : s.dtor with
      | alive => exact absurd hpc hd
      | body | pool => simp [inDtor]
      | done => simp [running, hpc] at ht
    · have hp := (noWork_of_base hb (by simp) hbase hw).2
      simpa [BaseFunctor.isRemoval] using hp _ List.mem_cons_self
  | base | enterPool | join | finish => exact absurd trivial hok

/-- The destructor is through once. -/
theorem step_done {s s' : ServerBase K C T} {a : BaseAction K C T} (hd : s.dtor = .done)
    (h : s.step a = some s') : s'.dtor = .done ∧ a ≠ .finish := by
  cases a with
  | base a =>
    obtain ⟨-, -, base, -, rfl⟩ := step_base_inv h
    exact ⟨hd, by simp⟩
  | handleClose t conn =>
    obtain ⟨-, base, -, rfl⟩ := step_handleClose_inv h
    exact ⟨hd, by simp⟩
  | destroy | enterPool | join | finish => simp [step, hd] at h

/-- **A run to the end of the destructor** that begins with a removal ends with one. -/
theorem Late.run_finish {s s' : ServerBase K C T} {as : List (BaseAction K C T)} (hs : s.Late)
    (hb : s.BatchInRun)
    (h : s.run (as ++ [.finish]) = some s') : ¬ s'.NoWork := by
  obtain ⟨t, has, hfin⟩ := Transition.run_append.1 h
  obtain ⟨u, hu, hend⟩ := Transition.run_cons.1 hfin
  obtain rfl : u = s' := Option.some.inj hend
  have hinv := Transition.run_invariant
    (fun s : ServerBase K C T => (s.BatchInRun ∧ s.Late) ∨ s.dtor = .done) ?_ (.inl ⟨hb, hs⟩) has
  · rcases hinv with ⟨hb, hl⟩ | hd
    · exact (hl.step hb hu).1
    · exact absurd rfl (step_done hd hu).2
  · rintro s a s' (⟨hb, hl⟩ | hd) h
    · by_cases ha : a = .finish
      · subst ha
        simp only [ServerBase.step, Option.ite_none_right_eq_some, Option.some.injEq] at h
        obtain ⟨-, rfl⟩ := h
        exact .inr rfl
      · exact .inl ⟨step_batch hb h, (hl.step hb h).2 ha⟩
    · exact .inr (step_done hd h).1

/-- A run to the end of the destructor that leaves no removal is in order. -/
theorem meets_of_noWork {s s' : ServerBase K C T} {as : List (BaseAction K C T)}
    (hb : s.BatchInRun)
    (h : s.run (as ++ [.finish]) = some s') (hs : s'.NoWork) :
    Transition.Meets step InOrder s (as ++ [.finish]) := by
  induction as generalizing s with
  | nil => exact ⟨trivial, fun _ _ => trivial⟩
  | cons a as ih =>
    obtain ⟨t, ht, hrest⟩ := Transition.run_cons.1 h
    refine ⟨?_, fun u hu => ?_⟩
    · by_contra hok
      exact (late_of_not_inOrder hb hok ht).run_finish (step_batch hb ht) hrest hs
    · obtain rfl : t = u := Option.some.inj (ht.symm.trans hu)
      exact ih (step_batch hb ht) hrest

/-- **No work is left for a destroyed server**, in a run where the destructor starts without a
removal in the base loop's queue and no io thread closes a connection while it runs. At the end of
the destructor this is the only way: a run to there leaves no removal exactly when it was in
order. -/
theorem no_work_left (fd : C → Int) (wakeupChannel : C) (threads : List T)
    (as : List (BaseAction K C T)) (s : ServerBase K C T)
    (h : (new fd wakeupChannel threads).run as = some s) :
    (Transition.Meets step InOrder (new fd wakeupChannel threads) as → s.dtor = .done →
      s.NoWork) ∧
    (∀ before, as = before ++ [.finish] → s.NoWork →
      Transition.Meets step InOrder (new fd wakeupChannel threads) as) := by
  refine ⟨fun hm hd => ?_, ?_⟩
  · have hnew : Cleared (new fd wakeupChannel threads : ServerBase K C T) :=
      ⟨fun _ => rfl, fun hd => absurd rfl hd⟩
    have hs := hm.invariant Cleared (fun s a s' hs hok h => hs.step hok h) hnew h
    exact hs.noWork (by simp [hd])
  · rintro before rfl hs
    exact meets_of_noWork (fun _ => rfl) h hs

/-! ## One connection, closed before and after the start of the destructor -/

/-- The base loop goes round once, up to the functors of its batch. -/
def toBatch : List (BaseAction Unit Unit Unit) :=
  [.base .enter, .base .test, .base (.pollReturn [((), EPOLLIN)]), .base .dispatch,
    .base .startFunctors, .base .swapFunctors]

/-- The io thread closes the connection and the base loop removes it. The next functor destroys the
server. -/
def closedBefore : List (BaseAction Unit Unit Unit) :=
  [BaseAction.handleClose () (), .base (.wakeup ()), .base (.push () .other),
    .base (.wakeup ())] ++ toBatch ++
    [BaseAction.base .runFunctor, .base .runFunctor, .destroy, .enterPool, .join, .finish]

theorem noWork_closedBefore :
    ∃ s : ServerBase Unit Unit Unit, (new (fun _ => 3) () [()]).run closedBefore = some s ∧
      s.dtor = .done ∧ s.NoWork := by
  obtain ⟨s, h, hd⟩ := Option.map_eq_some_iff.1
    (show ((new (fun _ => 3) () [()]).run closedBefore).map ServerBase.dtor = some .done by
      decide +kernel)
  exact ⟨s, h, hd, (no_work_left (fun _ => 3) () [()] closedBefore s h).1 (by decide +kernel) hd⟩

/-- The io thread closes the connection while the destructor runs. The base loop goes on. -/
def closedLate : List (BaseAction Unit Unit Unit) :=
  [BaseAction.base (.push () .other), .base (.wakeup ())] ++ toBatch ++
    [BaseAction.base .runFunctor, .destroy, .handleClose () (), .base (.wakeup ()), .enterPool,
      .join, .finish]

/-- **A removal outlives the server.** The destructor is through, and the functor bound to the
server is pending. -/
theorem removal_outlives :
    ((new (fun _ => 3) () [()]).run closedLate).map
      (fun s => (s.dtor, s.base.loop.pendingFunctors, decide s.NoWork)) =
    some (.done, [.removeConnectionInPool ()], false) := by
  decide +kernel

end ServerBase

end WebCore
