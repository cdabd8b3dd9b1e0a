import WebCore.LoopThread
import WebCore.Quit

/-!
# `~TcpServer`

The destructor queues `connectDestroyed` on the io loop of every connection, and the destruction
of the thread pool then stops and joins the io threads one after the other
(`ZTcpServer/tcp_server.cpp`, `ZEventLoop/event_loop_thread.cpp`). `main` is the thread that runs
it.

A loop whose thread is inside `doPendingFunctors`, after the swap, when `quit()` comes does not
look at its queue again, and what was queued meanwhile is dropped (`connection_dropped`).

**Theorem (`teardown_complete`).** When every `quit()` finds its loop thread before the swap, or
nothing pending, every connection is torn down by the time the threads are joined. For one loop,
the functors queued before `quit()` are run exactly in this case.
-/

namespace WebCore

/-! ## The model -/

/-- The part of a server that its destructor reads. -/
structure TcpServer (K L F : Type*) where
  connections : List K
  /-- the io loops, in the order of `_threads` -/
  threads : List L
  getLoop : K → L
  connectDestroyed : K → F
  getLoop_mem : ∀ k ∈ connections, getLoop k ∈ threads

/-- Where the destructor stands. -/
inductive DtorPc (K L : Type*)
  /-- in the loop over the connections -/
  | body (rest : List K)
  /-- inside `queueInLLoop` for the connection `k`, before the wakeup -/
  | queued (k : K) (rest : List K)
  /-- in the destruction of the thread pool -/
  | pool (rest : List L)
  | done

structure ServerTeardown (K L F C T : Type*) where
  threads : L → LoopThread F C T
  dtor : DtorPc K L

inductive ServerAction (L F C T : Type*)
  /-- a step of the io loop `l` or of a thread other than `main` -/
  | io (l : L) (a : ThreadAction F C T)
  | queueInLLoop
  | wakeup
  | enterPool
  /-- a step of `~EventLoopThread` on the first thread that is left -/
  | thread (a : ThreadAction F C T)
  /-- `~EventLoopThread` is through -/
  | next
  | finish

namespace ThreadAction

variable {F C T : Type*}

/-- The action belongs to the destructor of the thread. -/
def inDtor : ThreadAction F C T → Bool
  | .destroy | .dtorQuit | .dtorWakeup | .join => true
  | _ => false

/-- The action is a step of another thread than `main`. -/
def notBy [DecidableEq T] (main : T) : ThreadAction F C T → Bool
  | .loop (.push t _) | .loop (.quit t) | .loop (.wakeup t) => t ≠ main
  | .loop _ | .publish | .clear => true
  | _ => false

end ThreadAction

namespace ServerTeardown

variable {K L F C T : Type*} [DecidableEq L] [DecidableEq C] [DecidableEq T]

/-- Replace the state of the io loop `l` by the outcome of a step. -/
def setThread (s : ServerTeardown K L F C T) (l : L) (t : Option (LoopThread F C T)) :
    Option (ServerTeardown K L F C T) :=
  t.map fun t => { s with threads := Function.update s.threads l t }

/-- One step of `main` or of another thread. -/
def step (server : TcpServer K L F) (main : T) (s : ServerTeardown K L F C T) :
    ServerAction L F C T → Option (ServerTeardown K L F C T)
  | .io l a =>
    if a.notBy main then s.setThread l ((s.threads l).step main a) else none
  | .queueInLLoop =>
    match s.dtor with
    | .body (k :: rest) =>
      ({ s with dtor := .queued k rest }).setThread (server.getLoop k)
        ((s.threads (server.getLoop k)).step main (.loop (.push main (server.connectDestroyed k))))
    | _ => none
  | .wakeup =>
    match s.dtor with
    | .queued k rest =>
      ({ s with dtor := .body rest }).setThread (server.getLoop k)
        ((s.threads (server.getLoop k)).step main (.loop (.wakeup main)))
    | _ => none
  | .enterPool =>
    match s.dtor with
    | .body [] => some { s with dtor := .pool server.threads }
    | _ => none
  | .thread a =>
    match s.dtor with
    | .pool (l :: _) => if a.inDtor then s.setThread l ((s.threads l).step main a) else none
    | _ => none
  | .next =>
    match s.dtor with
    | .pool (l :: rest) =>
      if (s.threads l).creator = .joined ∨ (s.threads l).creator = .detached then
        some { s with dtor := .pool rest }
      else none
    | _ => none
  | .finish =>
    match s.dtor with
    | .pool [] => some { s with dtor := .done }
    | _ => none

def run (server : TcpServer K L F) (main : T) (s : ServerTeardown K L F C T)
    (as : List (ServerAction L F C T)) : Option (ServerTeardown K L F C T) :=
  Transition.run (step server main) s as

/-- The destructor begins. -/
def start (server : TcpServer K L F) (threads : L → LoopThread F C T) :
    ServerTeardown K L F C T :=
  ⟨threads, .body server.connections⟩

/-- The io loop whose thread is being destroyed. -/
def stopping (s : ServerTeardown K L F C T) : Option L :=
  match s.dtor with
  | .pool (l :: _) => some l
  | _ => none

/-- Only the destructor stops the io loops, and each of its calls of `quit()` finds the loop thread
before the swap of its iteration, or nothing pending. -/
def QuitsInTime (s : ServerTeardown K L F C T) : ServerAction L F C T → Prop
  | .io _ (.loop a) => a.storesQuit = false
  | .thread .dtorQuit => ∀ l ∈ s.stopping,
      (s.threads l).sys.SwapAhead ∨ (s.threads l).sys.loop.pendingFunctors = []
  | _ => True

instance (s : ServerTeardown K L F C T) : ∀ a, Decidable (s.QuitsInTime a)
  | .io _ (.loop a) => inferInstanceAs (Decidable (a.storesQuit = false))
  | .thread .dtorQuit => inferInstanceAs (Decidable (∀ l ∈ s.stopping,
      (s.threads l).sys.SwapAhead ∨ (s.threads l).sys.loop.pendingFunctors = []))
  | .io _ .publish | .io _ .clear | .io _ .startLoopReturns | .io _ .destroy | .io _ .dtorQuit
  | .io _ .dtorWakeup | .io _ .join | .queueInLLoop | .wakeup | .enterPool
  | .thread (.loop _) | .thread .publish | .thread .clear | .thread .startLoopReturns
  | .thread .destroy | .thread .dtorWakeup | .thread .join | .next | .finish =>
    inferInstanceAs (Decidable True)

end ServerTeardown

/-! ## One io thread -/

namespace LoopSystem

variable {F C T : Type*} [DecidableEq C] [DecidableEq T]

/-- A loop that nobody stops goes on. -/
theorem step_quit_false {s s' : LoopSystem F C T} {a : LoopAction F C T}
    (hs : s.loop.quit = false ∧ s.loop.pc ≠ .left) (ha : a.storesQuit = false)
    (h : s.step a = some s') : s'.loop.quit = false ∧ s'.loop.pc ≠ .left := by
  obtain ⟨hq, hpc⟩ := hs
  have h := step_inv h
  cases a with
  | quit | quitOwn => simp [LoopAction.storesQuit] at ha
  | enter =>
    obtain ⟨-, -, rfl⟩ := h
    exact ⟨rfl, LoopPc.noConfusion⟩
  | test =>
    obtain ⟨-, -, rfl⟩ := h
    exact ⟨hq, by simp [hq]⟩
  | pollReturn =>
    obtain ⟨-, -, -, -, rfl⟩ := h
    exact ⟨hq, LoopPc.noConfusion⟩
  | startFunctors | endFunctors =>
    obtain ⟨-, -, -, rfl⟩ := h
    exact ⟨hq, LoopPc.noConfusion⟩
  | swapFunctors =>
    obtain ⟨-, -, rfl⟩ := h
    exact ⟨hq, LoopPc.noConfusion⟩
  | dispatch | runFunctor =>
    obtain ⟨-, -, _, _, -, rfl⟩ := h
    exact ⟨hq, hpc⟩
  | channelOp =>
    obtain ⟨-, -, -, rfl⟩ := h
    exact ⟨hq, hpc⟩
  | pushOwn =>
    obtain ⟨-, -, rfl⟩ := h
    exact ⟨hq, hpc⟩
  | push | wakeup | wakeupOwn =>
    obtain ⟨-, rfl⟩ := h
    exact ⟨hq, hpc⟩

theorem Ordered.queued_isPrefix {s s' : LoopSystem F C T} {a : LoopAction F C T} (hs : Ordered s)
    (h : s.step a = some s') : s.queued.map Prod.fst <+: s'.queued.map Prod.fst :=
  (step_move hs.batch_nil h).history_isPrefix.map Prod.fst

end LoopSystem

namespace LoopThread

variable {F C T : Type*}

/-- An io thread that owes the functors `fs` to the server: until the destructor stops it, they are
in its queue's history and the loop goes on; afterwards they are covered. -/
structure Owes (fs : List F) (s : LoopThread F C T) : Prop where
  ordered : s.sys.Ordered
  entered : s.sys.loop.pc ≠ .idle
  thread : s.thread = .looping ∨ s.thread = .finished ∧ s.sys.loop.pc = .left
  before : s.creator = .returned ∨ s.creator = .quitting →
    (s.sys.loop.quit = false ∧ s.sys.loop.pc ≠ .left) ∧ fs.Sublist (s.sys.queued.map Prod.fst)
  after : s.creator = .waking ∨ s.creator = .joining ∨ s.creator = .joined →
    ∃ gs, fs.Sublist gs ∧ s.sys.Covered gs
  creator : s.creator ≠ .starting ∧ s.creator ≠ .detached
  joined : s.creator = .joined → s.thread = .finished

/-- A joined thread has run what it owed. -/
theorem Owes.executed {fs : List F} {s : LoopThread F C T} (hs : s.Owes fs)
    (hj : s.creator = .joined) : fs.Sublist (s.sys.executed.map Prod.fst) := by
  obtain ⟨gs, hfs, hcov⟩ := hs.after (.inr (.inr hj))
  have hleft : s.sys.loop.pc = .left := by
    rcases hs.thread with ht | ⟨-, hpc⟩
    · rw [hs.joined hj] at ht; cases ht
    · exact hpc
  exact hfs.trans (hcov.executed hs.ordered hleft).sublist

variable [DecidableEq C] [DecidableEq T] {main : T}

/-- An io thread in its loop, which nobody has asked to stop. -/
structure Serving (main : T) (s : LoopThread F C T) : Prop where
  reached : ∃ fd wakeupChannel as, (new fd wakeupChannel).run main as = some s
  thread : s.thread = .looping
  creator : s.creator = .returned
  inLoop : s.sys.loop.pc ≠ .idle ∧ s.sys.loop.pc ≠ .left
  quit : s.sys.loop.quit = false

theorem step_sys {s s' : LoopThread F C T} {a : ThreadAction F C T}
    (h : s.step main a = some s') : s'.sys = s.sys ∨ ∃ b, s.sys.step b = some s'.sys := by
  cases a with
  | loop b =>
    obtain ⟨-, sys, hsys, rfl⟩ := step_loop_inv h
    exact .inr ⟨b, hsys⟩
  | dtorQuit | dtorWakeup =>
    simp only [step, Option.ite_none_right_eq_some, Option.map_eq_some_iff] at h
    obtain ⟨-, sys, hsys, rfl⟩ := h
    exact .inr ⟨_, hsys⟩
  | _ =>
    simp only [step, Option.ite_none_right_eq_some, Option.some.injEq] at h
    obtain ⟨-, rfl⟩ := h
    exact .inl rfl

theorem ordered_run {fd : C → Int} {wakeupChannel : C} {as : List (ThreadAction F C T)}
    {s : LoopThread F C T} (h : (new fd wakeupChannel).run main as = some s) : s.sys.Ordered := by
  refine Transition.run_invariant (fun s : LoopThread F C T => s.sys.Ordered)
    (fun s a s' hs h => ?_) (LoopSystem.ordered_new fd wakeupChannel) h
  rcases step_sys h with he | ⟨b, hb⟩
  · rw [he]; exact hs
  · exact hs.step hb

theorem Serving.owes {s : LoopThread F C T} (hs : s.Serving main) :
    s.Owes (s.sys.queued.map Prod.fst) := by
  obtain ⟨fd, wakeupChannel, as, h⟩ := hs.reached
  exact {
    ordered := ordered_run h
    entered := hs.inLoop.1
    thread := .inl hs.thread
    before := fun _ => ⟨⟨hs.quit, hs.inLoop.2⟩, List.Sublist.refl _⟩
    after := by simp [hs.creator]
    creator := by simp [hs.creator]
    joined := by simp [hs.creator] }

/-- What a step of the loop leaves of the debt, while the thread is still in `loop()`. -/
theorem Owes.loop {fs : List F} {s s' : LoopThread F C T} {a : LoopAction F C T}
    (hs : s.Owes fs) (ha : a.storesQuit = false) (h : s.step main (.loop a) = some s') :
    s'.Owes fs ∧ s'.creator = s.creator := by
  obtain ⟨-, sys, hsys, rfl⟩ := step_loop_inv h
  refine ⟨⟨hs.ordered.step hsys, LoopSystem.step_pc_ne_idle hs.entered hsys, ?_, fun hc => ?_,
    fun hc => ?_, hs.creator, hs.joined⟩, rfl⟩
  · exact hs.thread.imp id fun ⟨ht, hpc⟩ => ⟨ht, LoopSystem.step_pc_left hpc hsys⟩
  · obtain ⟨hq, hfs⟩ := hs.before hc
    exact ⟨LoopSystem.step_quit_false hq ha hsys,
      hfs.trans (hs.ordered.queued_isPrefix hsys).sublist⟩
  · obtain ⟨gs, hfs, hcov⟩ := hs.after hc
    exact ⟨gs, hfs, hcov.step hs.ordered hs.entered hsys⟩

/-- The other threads and the loop itself do not lose the debt. -/
theorem Owes.io {fs : List F} {s s' : LoopThread F C T} {a : ThreadAction F C T} (hs : s.Owes fs)
    (hby : a.notBy main = true) (ha : ∀ b, a = .loop b → b.storesQuit = false)
    (h : s.step main a = some s') : s'.Owes fs ∧ s'.creator = s.creator := by
  cases a with
  | loop a => exact hs.loop (ha a rfl) h
  | publish =>
    simp only [step, Option.ite_none_right_eq_some] at h
    rcases hs.thread with ht | ⟨ht, -⟩ <;> simp [ht] at h
  | clear =>
    simp only [step, Option.ite_none_right_eq_some, Option.some.injEq, LoopSystem.isAt,
      decide_eq_true_eq] at h
    obtain ⟨⟨-, hpc, -⟩, rfl⟩ := h
    exact ⟨{ hs with thread := .inr ⟨rfl, hpc⟩, joined := fun _ => rfl }, rfl⟩
  | _ => simp [ThreadAction.notBy] at hby

/-- A functor that `main` queues is owed from then on. -/
theorem Owes.push {fs : List F} {s s' : LoopThread F C T} {f : F} (hs : s.Owes fs)
    (h : s.step main (.loop (.push main f)) = some s') :
    s'.Owes (fs ++ [f]) ∧ s'.creator = .returned := by
  have hret : s.creator = .returned := by
    have := (step_loop_inv h).1
    simpa [allows] using this
  obtain ⟨hs', hc⟩ := hs.loop rfl h
  rw [hret] at hc
  refine ⟨{ hs' with before := fun _ => ?_, after := fun ha => by simp [hc] at ha }, hc⟩
  obtain ⟨hq, -⟩ := hs'.before (.inl hc)
  obtain ⟨-, sys, hsys, rfl⟩ := step_loop_inv h
  obtain ⟨-, rfl⟩ := LoopSystem.step_inv hsys
  refine ⟨hq, ?_⟩
  simpa using (hs.before (.inl hret)).2

/-- A step of the destructor keeps the debt, when its `quit()` comes in time. -/
theorem Owes.dtor {fs : List F} {s s' : LoopThread F C T} {a : ThreadAction F C T} (hs : s.Owes fs)
    (hby : a.inDtor = true)
    (hq : a = .dtorQuit → s.sys.SwapAhead ∨ s.sys.loop.pendingFunctors = [])
    (h : s.step main a = some s') : s'.Owes fs := by
  cases a with
  | destroy =>
    simp only [step, Option.ite_none_right_eq_some, Option.some.injEq] at h
    obtain ⟨⟨hc, -⟩, rfl⟩ := h
    have hb := hs.before (.inl hc)
    have hloop : s.thread = .looping := hs.thread.resolve_right fun ht => hb.1.2 ht.2
    rw [hloop]
    exact { hs with
      thread := .inl rfl
      before := fun _ => hb
      after := by simp
      creator := by simp
      joined := by simp }
  | dtorQuit =>
    simp only [step, Option.ite_none_right_eq_some, Option.map_eq_some_iff] at h
    obtain ⟨hc, sys, hsys, rfl⟩ := h
    obtain ⟨hloop, hfs⟩ := hs.before (.inr hc)
    have hcov := (LoopSystem.covered_of_swapAhead hs.ordered (hq rfl)).step hs.ordered
      hs.entered hsys
    exact {
      ordered := hs.ordered.step hsys
      entered := LoopSystem.step_pc_ne_idle hs.entered hsys
      thread := hs.thread.imp id fun ht => absurd ht.2 hloop.2
      before := by simp
      after := fun _ => ⟨_, hfs, hcov⟩
      creator := by simp
      joined := by simp }
  | dtorWakeup =>
    simp only [step, Option.ite_none_right_eq_some, Option.map_eq_some_iff] at h
    obtain ⟨hc, sys, hsys, rfl⟩ := h
    obtain ⟨gs, hfs, hcov⟩ := hs.after (.inl hc)
    exact {
      ordered := hs.ordered.step hsys
      entered := LoopSystem.step_pc_ne_idle hs.entered hsys
      thread := hs.thread.imp id fun ht => ⟨ht.1, LoopSystem.step_pc_left ht.2 hsys⟩
      before := by simp
      after := fun _ => ⟨gs, hfs, hcov.step hs.ordered hs.entered hsys⟩
      creator := by simp
      joined := by simp }
  | join =>
    simp only [step, Option.ite_none_right_eq_some, Option.some.injEq] at h
    obtain ⟨⟨hc, hfin⟩, rfl⟩ := h
    exact { hs with
      before := by simp
      after := fun _ => hs.after (.inr (.inl hc))
      creator := by simp
      joined := fun _ => hfin }
  | _ => simp [ThreadAction.inDtor] at hby

end LoopThread

/-! ## The server -/

namespace TcpServer

variable {K L F : Type*}

/-- The io loop `l` has a connection. -/
def HasConnection (server : TcpServer K L F) (l : L) : Prop :=
  ∃ k ∈ server.connections, server.getLoop k = l

/-- What the loop `l` owes when `connectDestroyed` is queued for the connections `ks`: the functors
queued `before`, and these. -/
def owed [DecidableEq L] (server : TcpServer K L F) (before : L → List F) (ks : List K) (l : L) :
    List F :=
  before l ++ (ks.filter (server.getLoop · = l)).map server.connectDestroyed

theorem owed_append_self [DecidableEq L] (server : TcpServer K L F) (before : L → List F)
    (ks : List K) (k : K) : server.owed before (ks ++ [k]) (server.getLoop k) =
      server.owed before ks (server.getLoop k) ++ [server.connectDestroyed k] := by
  simp [owed]

theorem owed_append_of_ne [DecidableEq L] (server : TcpServer K L F) (before : L → List F)
    (ks : List K) {k : K} {l : L} (h : l ≠ server.getLoop k) :
    server.owed before (ks ++ [k]) l = server.owed before ks l := by
  simp [owed, h.symm]

end TcpServer

namespace ServerTeardown

variable {K L F C T : Type*} {server : TcpServer K L F} {before : L → List F}

/-- `ks` are the connections that the destructor has handled. -/
def Handled (server : TcpServer K L F) (ks : List K) : DtorPc K L → Prop
  | .body rest => ks ++ rest = server.connections
  | .queued _ rest => ks ++ rest = server.connections
  | .pool _ | .done => ks = server.connections

/-- The thread of the loop `l` is joined, unless it is still among those to be destroyed. -/
def Joined (l : L) (creator : CreatorPc) : DtorPc K L → Prop
  | .body _ | .queued _ _ => True
  | .pool rest => l ∈ rest ∨ creator = .joined
  | .done => creator = .joined

/-- The invariant of the destructor. -/
structure Pending [DecidableEq L] (server : TcpServer K L F) (before : L → List F)
    (s : ServerTeardown K L F C T) : Prop where
  owes : ∃ ks, Handled server ks s.dtor ∧
    ∀ l, server.HasConnection l → (s.threads l).Owes (server.owed before ks l)
  joined : ∀ l, server.HasConnection l → Joined l (s.threads l).creator s.dtor

section Threads

variable [DecidableEq L] {threads : L → LoopThread F C T} {l : L} {t : LoopThread F C T}

theorem setThread_eq_some {s s' : ServerTeardown K L F C T} {t : Option (LoopThread F C T)} :
    s.setThread l t = some s' ↔
      ∃ t', t = some t' ∧ s' = { s with threads := Function.update s.threads l t' } := by
  simp [setThread, eq_comm]

theorem owes_update {owed : L → List F} (ht : server.HasConnection l → t.Owes (owed l))
    (h : ∀ l', l' ≠ l → server.HasConnection l' → (threads l').Owes (owed l')) :
    ∀ l', server.HasConnection l' → (Function.update threads l t l').Owes (owed l') :=
  (Function.forall_update_iff threads fun l' (t' : LoopThread F C T) =>
    server.HasConnection l' → t'.Owes (owed l')).2 ⟨ht, h⟩

theorem joined_update {dtor : DtorPc K L}
    (ht : server.HasConnection l → Joined l t.creator dtor)
    (h : ∀ l', server.HasConnection l' → Joined l' (threads l').creator dtor) :
    ∀ l', server.HasConnection l' → Joined l' (Function.update threads l t l').creator dtor :=
  (Function.forall_update_iff threads fun l' (t' : LoopThread F C T) =>
    server.HasConnection l' → Joined l' t'.creator dtor).2 ⟨ht, fun l' _ => h l'⟩

end Threads

variable [DecidableEq L] [DecidableEq C] [DecidableEq T] {main : T}

/-- **Every step keeps the invariant**, when every `quit()` comes in time. -/
theorem Pending.step {s s' : ServerTeardown K L F C T} {a : ServerAction L F C T}
    (hs : s.Pending server before) (hok : s.QuitsInTime a) (h : s.step server main a = some s') :
    s'.Pending server before := by
  obtain ⟨⟨ks, hks, howes⟩, hjoined⟩ := hs
  cases a with
  | io l a =>
    simp only [ServerTeardown.step, Option.ite_none_right_eq_some, setThread_eq_some] at h
    obtain ⟨hby, t, ht, rfl⟩ := h
    have hio : ∀ hl : server.HasConnection l, t.Owes (server.owed before ks l) ∧
        t.creator = (s.threads l).creator := fun hl =>
      (howes l hl).io hby (fun b hb => by subst hb; exact hok) ht
    exact ⟨⟨ks, hks, owes_update (fun hl => (hio hl).1) fun l' _ => howes l'⟩,
      joined_update (fun hl => (hio hl).2 ▸ hjoined l hl) hjoined⟩
  | queueInLLoop =>
    simp only [ServerTeardown.step] at h
    split at h
    · rename_i k rest hd
      obtain ⟨t, ht, rfl⟩ := setThread_eq_some.1 h
      simp only [hd, Handled] at hks
      have hk : server.HasConnection (server.getLoop k) := ⟨k, by simp [← hks], rfl⟩
      refine ⟨⟨ks ++ [k], by simp [Handled, ← hks], ?_⟩, fun _ _ => trivial⟩
      refine owes_update (fun _ => ?_) fun l' hl' hl => ?_
      · rw [TcpServer.owed_append_self]
        exact ((howes _ hk).push ht).1
      · rw [TcpServer.owed_append_of_ne _ _ _ hl']
        exact howes l' hl
    · cases h
  | wakeup =>
    simp only [ServerTeardown.step] at h
    split at h
    · rename_i k rest hd
      obtain ⟨t, ht, rfl⟩ := setThread_eq_some.1 h
      simp only [hd, Handled] at hks
      exact ⟨⟨ks, hks, owes_update (fun hl => ((howes _ hl).loop rfl ht).1)
        fun l' _ => howes l'⟩, fun _ _ => trivial⟩
    · cases h
  | enterPool =>
    simp only [ServerTeardown.step] at h
    split at h
    · rename_i hd
      obtain rfl := Option.some.inj h
      simp only [hd, Handled, List.append_nil] at hks
      refine ⟨⟨ks, hks, howes⟩, ?_⟩
      rintro l ⟨k, hk, rfl⟩
      exact .inl (server.getLoop_mem k hk)
    · cases h
  | thread a =>
    simp only [ServerTeardown.step] at h
    split at h
    · rename_i l rest hd
      obtain ⟨hby, h⟩ := Option.ite_none_right_eq_some.1 h
      obtain ⟨t, ht, rfl⟩ := setThread_eq_some.1 h
      have hq : a = .dtorQuit →
          (s.threads l).sys.SwapAhead ∨ (s.threads l).sys.loop.pendingFunctors = [] := by
        rintro rfl
        exact hok l (by simp [stopping, hd])
      refine ⟨⟨ks, hks, owes_update (fun hl => (howes l hl).dtor hby hq ht) fun l' _ => howes l'⟩,
        joined_update (fun _ => ?_) hjoined⟩
      rw [hd]
      exact .inl (by simp)
    · cases h
  | next =>
    simp only [ServerTeardown.step] at h
    split at h
    · rename_i l rest hd
      obtain ⟨hc, h⟩ := Option.ite_none_right_eq_some.1 h
      obtain rfl := Option.some.inj h
      rw [hd] at hks hjoined
      refine ⟨⟨ks, hks, howes⟩, fun l' hl' => ?_⟩
      rcases hjoined l' hl' with hmem | hj
      · rcases List.mem_cons.1 hmem with rfl | hmem
        · exact .inr (hc.resolve_right (howes _ hl').creator.2)
        · exact .inl hmem
      · exact .inr hj
    · cases h
  | finish =>
    simp only [ServerTeardown.step] at h
    split at h
    · rename_i hd
      obtain rfl := Option.some.inj h
      rw [hd] at hks hjoined
      exact ⟨⟨ks, hks, howes⟩, fun l hl => (hjoined l hl).resolve_left (by simp)⟩
    · cases h

theorem pending_start {threads : L → LoopThread F C T}
    (h : ∀ k ∈ server.connections, (threads (server.getLoop k)).Serving main) :
    (start server threads).Pending server fun l => (threads l).sys.queued.map Prod.fst := by
  refine ⟨⟨[], rfl, ?_⟩, fun _ _ => trivial⟩
  rintro l ⟨k, hk, rfl⟩
  simpa [TcpServer.owed, start] using (h k hk).owes

/-- **Every connection is torn down**, when the calls of `quit()` come in time.

First, the server. Its io threads are in their loops when the destructor begins. If each `quit()`
of the destructor finds its loop thread before the swap of its iteration, or nothing pending, and
nobody else stops the loops, then `connectDestroyed` has been executed for every connection when
the threads have been joined: each loop has run what was queued before, and then its connections.

Second, a running loop. The functors queued before a `quit()` from another thread are executed
before `loop()` returns if and only if that `quit()` comes in time. -/
theorem teardown_complete :
    (∀ (server : TcpServer K L F) (main : T) (threads : L → LoopThread F C T)
        (as : List (ServerAction L F C T)) (s : ServerTeardown K L F C T),
      (∀ k ∈ server.connections, (threads (server.getLoop k)).Serving main) →
      (start server threads).run server main as = some s →
      Transition.Meets (step server main) QuitsInTime (start server threads) as →
      s.dtor = .done →
      ∀ k ∈ server.connections,
        server.connectDestroyed k ∈ (s.threads (server.getLoop k)).sys.executed.map Prod.fst ∧
        (server.owed (fun l => (threads l).sys.queued.map Prod.fst) server.connections
          (server.getLoop k)).Sublist
          ((s.threads (server.getLoop k)).sys.executed.map Prod.fst)) ∧
    ∀ (fd : C → Int) (wakeupChannel : C) (as bs : List (LoopAction F C T)) (t : T)
        (s₀ s : LoopSystem F C T),
      (LoopSystem.new fd wakeupChannel).run as = some s₀ → s₀.loop.pc ≠ .idle →
      s₀.run (.quit t :: bs) = some s → s.loop.pc = .left →
      (s₀.queued.map Prod.fst <+: s.executed.map Prod.fst ↔
        s₀.SwapAhead ∨ s₀.loop.pendingFunctors = []) := by
  refine ⟨fun server main threads as s hserving h hok hdone k hk => ?_,
    fun fd wakeupChannel as bs t s₀ s h₀ hidle h hleft => ?_⟩
  · have hs := hok.invariant _ (fun _ _ _ hs hok h => hs.step hok h) (pending_start hserving) h
    obtain ⟨⟨ks, hks, howes⟩, hjoined⟩ := hs
    have hl : server.HasConnection (server.getLoop k) := ⟨k, hk, rfl⟩
    rw [hdone] at hks hjoined
    obtain rfl : ks = server.connections := hks
    have hsub := (howes _ hl).executed (hjoined _ hl)
    refine ⟨hsub.subset ?_, hsub⟩
    have : server.connectDestroyed k ∈ (server.connections.filter
        (server.getLoop · = server.getLoop k)).map server.connectDestroyed :=
      List.mem_map_of_mem (List.mem_filter.2 ⟨hk, by simp⟩)
    exact List.mem_append_right _ this
  · exact LoopSystem.executed_before_left_iff ((LoopSystem.ordered_new fd wakeupChannel).run h₀)
      hidle h hleft

/-! ## Two runs with one io thread and one connection -/

/-- The connection's `connectDestroyed` is the functor `true`. -/
def oneConnection : TcpServer Unit Unit Bool where
  connections := [()]
  threads := [()]
  getLoop _ := ()
  connectDestroyed _ := true
  getLoop_mem _ _ := by simp

/-- The io thread has entered its loop and taken these steps. -/
def ioThread (as : List (LoopAction Bool Unit Unit)) : Option (LoopThread Bool Unit Unit) :=
  (LoopThread.new (fun _ => 3) ()).run ()
    ([.publish, .startLoopReturns, .loop .enter, .loop .test] ++ as.map .loop)

/-- The destructor, with the steps `as` of the io thread before it is joined. -/
def destroy (as : List (LoopAction Bool Unit Unit)) : List (ServerAction Unit Bool Unit Unit) :=
  [.queueInLLoop, .wakeup, .enterPool, .thread .destroy, .thread .dtorQuit,
    .thread .dtorWakeup] ++ as.map (.io () ∘ .loop) ++
  [.io () .clear, .thread .join, .next, .finish]

/-- The io thread waits in `poll`. -/
def polling : LoopThread Bool Unit Unit := (ioThread []).get (by decide)

theorem connection_torn_down :
    ∃ s, (start oneConnection fun _ => polling).run oneConnection ()
        (destroy [.pollReturn [((), EPOLLIN)], .dispatch, .startFunctors, .swapFunctors,
          .runFunctor, .endFunctors, .test]) = some s ∧
      oneConnection.connectDestroyed () ∈ (s.threads ()).sys.executed.map Prod.fst := by
  obtain ⟨s, h, hdone⟩ := Option.map_eq_some_iff.1
    (show ((start oneConnection fun _ => polling).run oneConnection ()
      (destroy [.pollReturn [((), EPOLLIN)], .dispatch, .startFunctors, .swapFunctors,
        .runFunctor, .endFunctors, .test])).map
        (fun s => s.dtor matches .done) = some true by decide)
  have hserving : polling.Serving () :=
    ⟨⟨_, _, _, (Option.some_get _).symm⟩, by decide, by decide, by decide, by decide⟩
  have hdone : s.dtor = .done := by
    cases hd : s.dtor with
    | done => rfl
    | _ => simp [hd] at hdone
  exact ⟨s, h, (teardown_complete.1 oneConnection () (fun _ => polling) _ s
    (fun _ _ => hserving) h (by decide) hdone () (by simp [oneConnection])).1⟩

/-- The io thread is in `doPendingFunctors`, after the swap. -/
def pastSwap : LoopThread Bool Unit Unit :=
  (ioThread [.pollReturn [], .startFunctors, .swapFunctors]).get (by decide)

/-- **A functor queued after the swap is dropped by `quit()`.** The io thread has been joined, and
`connectDestroyed` has not been executed. -/
theorem connection_dropped :
    ((start oneConnection fun _ => pastSwap).run oneConnection ()
      (destroy [.endFunctors, .test])).map
        (fun s => (s.dtor matches .done, (s.threads ()).sys.executed)) = some (true, []) := by
  decide

end ServerTeardown

end WebCore
