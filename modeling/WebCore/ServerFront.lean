import WebCore.FunctorQueue
import WebCore.ThreadPool

/-!
# From the acceptor to the loops

`TcpServer` takes a connection on the base loop, gives it the next loop of the pool, and has
`connectEstablished` called there, through the functor queue of that loop or, on the base loop, at
once (`ZTcpServer/tcp_server.cpp`). `start()` may be called by any thread, and `started` lets the
first call through: it starts the pool and then has the acceptor listen.

**Theorem (`established_in_turn`).** In every run the pool is started once, the connections go round
its loops in the order in which they are accepted, so that each loop has its even share of them, and
each loop establishes its own connections in that order, none of them twice.
-/

namespace WebCore

open Transition

/-! ## The model -/

/-- What is queued on a loop. -/
inductive FrontFunctor (F : Type*)
  | connectEstablished (conn : Nat)
  | other (f : F)
deriving DecidableEq, Repr

/-- The connection to be established. -/
def FrontFunctor.conn {F : Type*} : FrontFunctor F → Option Nat
  | .connectEstablished conn => some conn
  | .other _ => none

/-- What `start()` still has to do when it is the first call. -/
inductive StartStage
  | startPool
  | listen
deriving DecidableEq, Repr

/-- A server, its loops `L`, and the connections, in the order in which they are accepted. -/
structure ServerFront (L F C T : Type*) where
  pool : EventLoopTreadPool L
  /-- an `atomic_int` -/
  started : BitVec 32
  stage : Option StartStage
  listening : Bool
  loop : L → LoopSystem (FrontFunctor F) C T
  /-- the loop of each connection -/
  accepted : List L
  /-- the connections that were established at once -/
  direct : List Nat
  /-- the calls of `start()` -/
  starts : Nat

inductive FrontAction (L F C T : Type*)
  | setThreadNum (numThreads : Int)
  | start
  /-- the first call of `start()` goes on -/
  | startPool
  | listen
  | newConnection
  /-- a step of a loop or of its callers that establishes nothing -/
  | loop (l : L) (a : LoopAction (FrontFunctor F) C T)

namespace LoopAction

variable {F C T : Type*}

/-- The action queues `connectEstablished`. -/
def establishes : LoopAction (FrontFunctor F) C T → Bool
  | .push _ (.connectEstablished _) | .pushOwn (.connectEstablished _) => true
  | _ => false

end LoopAction

namespace ServerFront

variable {L F C T : Type*} [DecidableEq L] [DecidableEq C] [DecidableEq T]

def new (baseLoop : L) (name : List Char) (fd : L → C → Int) (wakeupChannel : L → C) :
    ServerFront L F C T where
  pool := .new baseLoop name
  started := 0
  stage := none
  listening := false
  loop l := .new (fd l) (wakeupChannel l)
  accepted := []
  direct := []
  starts := 0

/-- `ioLoop->runInLoop(...)`, on the base loop's thread `main`. -/
def establish (main : T) (l : L) (s : ServerFront L F C T) : Option (ServerFront L F C T) :=
  let conn := s.accepted.length
  if l = s.pool.baseLoop then
    some { s with accepted := s.accepted ++ [l], direct := s.direct ++ [conn] }
  else
    ((s.loop l).step (.push main (.connectEstablished conn))).map fun sys =>
      { s with accepted := s.accepted ++ [l], loop := Function.update s.loop l sys }

def step (startLoop : Nat → L) (main : T) (s : ServerFront L F C T) :
    FrontAction L F C T → Option (ServerFront L F C T)
  | .setThreadNum numThreads => some { s with pool := s.pool.setThreadNum numThreads }
  | .start => some { s with
      started := s.started + 1
      stage := if s.started = 0 then some .startPool else s.stage
      starts := s.starts + 1 }
  | .startPool =>
    if s.stage = some .startPool then
      some { s with pool := s.pool.start startLoop, stage := some .listen }
    else none
  | .listen =>
    if s.stage = some .listen then some { s with stage := none, listening := true } else none
  | .newConnection =>
    if s.listening then
      ({ s with pool := s.pool.getNextLoop.2 } : ServerFront L F C T).establish main
        s.pool.getNextLoop.1
    else none
  | .loop l a =>
    if a.establishes then none
    else ((s.loop l).step a).map fun sys => { s with loop := Function.update s.loop l sys }

/-- The connections of which `connectEstablished` has been queued, or executed. -/
def established (fs : List (FrontFunctor F × Nat)) : List Nat :=
  (fs.map Prod.fst).filterMap FrontFunctor.conn

/-! ## The invariant -/

/-- The loop of the connection `k`. -/
def turn (s : ServerFront L F C T) (k : Nat) : L :=
  s.pool.loops.getD (k % s.pool.loops.length) s.pool.baseLoop

/-- The connections of the loop `l`, in the order in which they were accepted. -/
def connectionsOf (s : ServerFront L F C T) (l : L) : List Nat :=
  (List.range s.accepted.length).filter fun k => s.turn k = l

/-- How far the first call of `start()` has come: nothing is accepted before the pool is filled, and
it is filled once. -/
structure Guarded (startLoop : Nat → L) (s : ServerFront L F C T) : Prop where
  started : s.started = BitVec.ofNat 32 s.starts
  fresh : s.starts = 0 → s.stage = none ∧ s.listening = false
  waiting : s.stage ≠ none → s.listening = false
  unpooled : s.stage ≠ some .listen → s.listening = false → s.pool.loops = []
  closed : s.listening = false → s.accepted = [] ∧ s.pool.next = 0
  once : ∃ n, s.pool.loops = (List.range n).map startLoop

/-- Which connections are where. -/
structure Shared (s : ServerFront L F C T) : Prop where
  next : s.pool.next = s.accepted.length % s.pool.loops.length ∨ s.pool.loops = []
  accepted : s.accepted = (List.range s.accepted.length).map s.turn
  ordered : ∀ l, (s.loop l).Ordered
  queued : ∀ l, l ≠ s.pool.baseLoop → established (s.loop l).queued = s.connectionsOf l
  direct : s.direct = s.connectionsOf s.pool.baseLoop

variable {startLoop : Nat → L} {main : T} {s s' : ServerFront L F C T} {a : FrontAction L F C T}

theorem establish_inv {l : L} (h : s.establish main l = some s') :
    s'.pool = s.pool ∧ s'.started = s.started ∧ s'.stage = s.stage ∧
      s'.listening = s.listening ∧ s'.starts = s.starts ∧ s'.accepted = s.accepted ++ [l] := by
  unfold establish at h
  by_cases hl : l = s.pool.baseLoop
  · rw [if_pos hl, Option.some.injEq] at h
    subst h
    exact ⟨rfl, rfl, rfl, rfl, rfl, rfl⟩
  · rw [if_neg hl, Option.map_eq_some_iff] at h
    obtain ⟨sys, -, rfl⟩ := h
    exact ⟨rfl, rfl, rfl, rfl, rfl, rfl⟩

theorem starts_le (h : s.step startLoop main a = some s') : s.starts ≤ s'.starts := by
  cases a with
  | start =>
    obtain rfl := Option.some.inj h
    exact Nat.le_succ _
  | setThreadNum n =>
    obtain rfl := Option.some.inj h
    exact le_rfl
  | startPool | listen =>
    simp only [step, Option.ite_none_right_eq_some, Option.some.injEq] at h
    obtain ⟨-, rfl⟩ := h
    exact le_rfl
  | newConnection =>
    simp only [step, Option.ite_none_right_eq_some] at h
    exact (establish_inv h.2).2.2.2.2.1.ge
  | loop l a =>
    simp only [step, Option.ite_none_left_eq_some, Option.map_eq_some_iff] at h
    obtain ⟨-, sys, -, rfl⟩ := h
    exact le_rfl

theorem Guarded.step (hs : Guarded startLoop s) (hlt : s'.starts < 2 ^ 32)
    (h : s.step startLoop main a = some s') : Guarded startLoop s' := by
  obtain ⟨hstarted, hfresh, hwaiting, hunpooled, hclosed, honce⟩ := hs
  cases a with
  | setThreadNum n =>
    obtain rfl := Option.some.inj h
    exact ⟨hstarted, hfresh, hwaiting, hunpooled, hclosed, honce⟩
  | start =>
    obtain rfl := Option.some.inj h
    have hfirst : s.started = 0 ↔ s.starts = 0 := by
      rw [hstarted]
      constructor
      · intro h0
        have := congrArg BitVec.toNat h0
        simp only [BitVec.toNat_ofNat, BitVec.ofNat_eq_ofNat, Nat.zero_mod] at this
        dsimp only at hlt
        omega
      · intro h0
        rw [h0]
        rfl
    have hcount : s.started + 1 = BitVec.ofNat 32 (s.starts + 1) := by
      rw [hstarted, BitVec.ofNat_add s.starts 1]
      rfl
    by_cases hzero : s.starts = 0
    · obtain ⟨hstage, hlisten⟩ := hfresh hzero
      refine ⟨hcount, fun h => absurd h (Nat.succ_ne_zero _), fun _ => hlisten, fun _ _ => ?_,
        hclosed, honce⟩
      exact hunpooled (by simp [hstage]) hlisten
    · rw [if_neg (hfirst.not.2 hzero)]
      exact ⟨hcount, fun h => absurd h (Nat.succ_ne_zero _), hwaiting, hunpooled, hclosed, honce⟩
  | startPool =>
    simp only [ServerFront.step, Option.ite_none_right_eq_some, Option.some.injEq] at h
    obtain ⟨hstage, rfl⟩ := h
    have hlisten := hwaiting (by simp [hstage])
    have hempty := hunpooled (by simp [hstage]) hlisten
    refine ⟨hstarted, fun h => ?_, fun _ => hlisten, fun h => absurd rfl h, hclosed,
      s.pool.numThread.toNat, by simp [EventLoopTreadPool.start, hempty]⟩
    simp [(hfresh h).1] at hstage
  | listen =>
    simp only [ServerFront.step, Option.ite_none_right_eq_some, Option.some.injEq] at h
    obtain ⟨hstage, rfl⟩ := h
    refine ⟨hstarted, fun h => ?_, fun h => absurd rfl h, fun _ h => (by cases h),
      fun h => (by cases h), honce⟩
    simp [(hfresh h).1] at hstage
  | newConnection =>
    simp only [ServerFront.step, Option.ite_none_right_eq_some] at h
    obtain ⟨hlisten, h⟩ := h
    obtain ⟨hpool, hst, hstage, hli, hn, -⟩ := establish_inv h
    have hloops : s'.pool.loops = s.pool.loops := by rw [hpool, s.pool.getNextLoop_snd.2.1]
    have hopen : s'.listening ≠ false := by simp [hli, hlisten]
    refine ⟨by rw [hst, hn, hstarted], fun h => ?_, fun h => ?_, fun _ h => absurd h hopen,
      fun h => absurd h hopen, hloops ▸ honce⟩
    · rw [hn] at h
      simp [(hfresh h).2] at hlisten
    · rw [hstage] at h
      simp [hwaiting h] at hlisten
  | loop l a =>
    simp only [ServerFront.step, Option.ite_none_left_eq_some, Option.map_eq_some_iff] at h
    obtain ⟨-, sys, -, rfl⟩ := h
    exact ⟨hstarted, hfresh, hwaiting, hunpooled, hclosed, honce⟩

/-- Only a push of `connectEstablished` adds to what is established. -/
theorem established_step {sys sys' : LoopSystem (FrontFunctor F) C T}
    {a : LoopAction (FrontFunctor F) C T} (ha : a.establishes = false)
    (h : sys.step a = some sys') : established sys'.queued = established sys.queued := by
  have h := LoopSystem.step_inv h
  cases a with
  | push t f =>
    obtain ⟨-, rfl⟩ := h
    cases f with
    | connectEstablished conn => cases ha
    | other f => simp [established, FrontFunctor.conn]
  | pushOwn f =>
    obtain ⟨-, -, rfl⟩ := h
    cases f with
    | connectEstablished conn => cases ha
    | other f => simp [established, FrontFunctor.conn]
  | dispatch | runFunctor =>
    obtain ⟨-, -, _, _, -, rfl⟩ := h
    rfl
  | pollReturn =>
    obtain ⟨-, -, -, -, rfl⟩ := h
    rfl
  | startFunctors | endFunctors | channelOp =>
    obtain ⟨-, -, -, rfl⟩ := h
    rfl
  | enter | test | quitOwn | swapFunctors =>
    obtain ⟨-, -, rfl⟩ := h
    rfl
  | quit | wakeup | wakeupOwn =>
    obtain ⟨-, rfl⟩ := h
    rfl

omit [DecidableEq C] [DecidableEq T] in
/-- One more connection. -/
theorem connectionsOf_succ (hpool : s'.pool.loops = s.pool.loops)
    (hbase : s'.pool.baseLoop = s.pool.baseLoop) (hlen : s'.accepted.length = s.accepted.length + 1)
    (l : L) : s'.connectionsOf l = s.connectionsOf l ++
      if s.turn s.accepted.length = l then [s.accepted.length] else [] := by
  have hturn : s'.turn = s.turn := by
    funext k
    rw [turn, turn, hpool, hbase]
  rw [connectionsOf, connectionsOf, hlen, hturn, List.range_succ, List.filter_append]
  by_cases hl : s.turn s.accepted.length = l <;> simp [hl]

theorem Shared.establish (hs : s.Shared)
    (h : ({ s with pool := s.pool.getNextLoop.2 } : ServerFront L F C T).establish main
      s.pool.getNextLoop.1 = some s') : s'.Shared := by
  obtain ⟨hnext, haccepted, hordered, hqueued, hdirect⟩ := hs
  obtain ⟨hpool, -, -, -, -, hacc⟩ := establish_inv h
  obtain ⟨hbase, hloops, -⟩ := s.pool.getNextLoop_snd
  have hl : s.pool.getNextLoop.1 = s.turn s.accepted.length := by
    rw [EventLoopTreadPool.getNextLoop_fst, EventLoopTreadPool.turn, turn]
    rcases hnext with hn | hn
    · rw [hn, Nat.add_zero, Nat.mod_mod]
    · simp [hn]
  rw [hl] at h hacc
  have hlen : s'.accepted.length = s.accepted.length + 1 := by simp [hacc]
  have hshare := connectionsOf_succ (hpool ▸ hloops) (hpool ▸ hbase) hlen
  have hturn : s'.turn = s.turn := by
    funext k
    rw [turn, turn, hpool, hloops, hbase]
  have hnext' : s'.pool.next = s'.accepted.length % s'.pool.loops.length ∨ s'.pool.loops = [] := by
    by_cases hempty : s.pool.loops = []
    · exact .inr (by rw [hpool, hloops, hempty])
    · refine .inl ?_
      rw [hpool, s.pool.getNextLoop_next hempty, hnext.resolve_right hempty, hlen, hloops,
        Nat.mod_add_mod]
  have haccepted' : s'.accepted = (List.range s'.accepted.length).map s'.turn := by
    rw [hturn, hlen, List.range_succ, List.map_append, ← haccepted, hacc]
    rfl
  have hbase' : s'.pool.baseLoop = s.pool.baseLoop := hpool ▸ hbase
  unfold ServerFront.establish at h
  by_cases hb : s.turn s.accepted.length = s.pool.baseLoop
  · rw [if_pos (hb.trans hbase.symm), Option.some.injEq] at h
    refine ⟨hnext', haccepted', ?_, fun l hne => ?_, ?_⟩
    · rw [← h]
      exact hordered
    · rw [hbase'] at hne
      rw [hshare, if_neg (fun hl => hne (hl.symm.trans hb)), List.append_nil, ← hqueued l hne, ← h]
    · rw [hbase', hshare, if_pos hb, ← hdirect, ← h]
  · rw [if_neg (fun h => hb (h.trans hbase)), Option.map_eq_some_iff] at h
    obtain ⟨sys, hsys, h⟩ := h
    have hpush := LoopSystem.step_inv hsys
    refine ⟨hnext', haccepted', fun l => ?_, fun l hne => ?_, ?_⟩
    · rw [← h]
      dsimp only
      by_cases hl : l = s.turn s.accepted.length
      · rw [hl, Function.update_self]
        exact (hordered _).step hsys
      · rw [Function.update_of_ne hl]
        exact hordered l
    · rw [hbase'] at hne
      rw [hshare, ← hqueued l hne, ← h]
      dsimp only
      by_cases hl : l = s.turn s.accepted.length
      · rw [hl, Function.update_self, if_pos rfl, hpush.2]
        simp [established, FrontFunctor.conn]
      · rw [Function.update_of_ne hl, if_neg (Ne.symm hl), List.append_nil]
    · rw [hbase', hshare, if_neg hb, List.append_nil, ← hdirect, ← h]

theorem Shared.step (hs : s.Shared) (hg : Guarded startLoop s)
    (h : s.step startLoop main a = some s') : s'.Shared := by
  cases a with
  | setThreadNum n =>
    obtain rfl := Option.some.inj h
    exact ⟨hs.next, hs.accepted, hs.ordered, hs.queued, hs.direct⟩
  | start =>
    obtain rfl := Option.some.inj h
    exact ⟨hs.next, hs.accepted, hs.ordered, hs.queued, hs.direct⟩
  | startPool =>
    simp only [ServerFront.step, Option.ite_none_right_eq_some, Option.some.injEq] at h
    obtain ⟨hstage, rfl⟩ := h
    -- nothing has been accepted, so that no connection changes its loop
    obtain ⟨hempty, hzero⟩ := hg.closed (hg.waiting (by simp [hstage]))
    refine ⟨.inl ?_, ?_, hs.ordered, fun l hne => ?_, ?_⟩
    · simp [EventLoopTreadPool.start, hempty, hzero]
    · simp [hempty]
    · simpa [connectionsOf, hempty] using hs.queued l hne
    · simpa [connectionsOf, hempty] using hs.direct
  | listen =>
    simp only [ServerFront.step, Option.ite_none_right_eq_some, Option.some.injEq] at h
    obtain ⟨-, rfl⟩ := h
    exact ⟨hs.next, hs.accepted, hs.ordered, hs.queued, hs.direct⟩
  | newConnection =>
    simp only [ServerFront.step, Option.ite_none_right_eq_some] at h
    exact hs.establish h.2
  | loop l a =>
    simp only [ServerFront.step, Option.ite_none_left_eq_some, Option.map_eq_some_iff] at h
    obtain ⟨ha, sys, hsys, rfl⟩ := h
    refine ⟨hs.next, hs.accepted, fun l' => ?_, fun l' hne => ?_, hs.direct⟩
    · dsimp only
      by_cases hl : l' = l
      · rw [hl, Function.update_self]
        exact (hs.ordered l).step hsys
      · rw [Function.update_of_ne hl]
        exact hs.ordered l'
    · dsimp only
      by_cases hl : l' = l
      · subst hl
        rw [Function.update_self, established_step (by simpa using ha) hsys]
        exact hs.queued l' hne
      · rw [Function.update_of_ne hl]
        exact hs.queued l' hne

omit [DecidableEq L] [DecidableEq T] in
theorem guarded_new (baseLoop : L) (name : List Char) (fd : L → C → Int) (wakeupChannel : L → C) :
    Guarded startLoop (new baseLoop name fd wakeupChannel : ServerFront L F C T) :=
  ⟨rfl, fun _ => ⟨rfl, rfl⟩, fun _ => rfl, fun _ _ => rfl, fun _ => ⟨rfl, rfl⟩, 0, rfl⟩

omit [DecidableEq T] in
theorem shared_new (baseLoop : L) (name : List Char) (fd : L → C → Int) (wakeupChannel : L → C) :
    (new baseLoop name fd wakeupChannel : ServerFront L F C T).Shared :=
  ⟨.inr rfl, rfl, fun l => LoopSystem.ordered_new (fd l) (wakeupChannel l), fun _ _ => rfl, rfl⟩

/-! ## Runs -/

/-- **The connections go round, and each loop establishes its own in order.** Take any run of a
server with fewer than `2 ^ 32` calls of `start()`, by whichever threads, and with any steps of its
loops and of their callers. The pool has been filled at most once. The `k`-th connection was given
the `k`-th loop in turn, so that of distinct loops each has `1 / n` of the connections, rounded down
or up. On each loop `connectEstablished` has been executed for the first few of its own connections,
in the order in which they were accepted, and on the base loop for all of them. -/
theorem established_in_turn (startLoop : Nat → L) (main : T) (baseLoop : L) (name : List Char)
    (fd : L → C → Int) (wakeupChannel : L → C) (as : List (FrontAction L F C T))
    (s : ServerFront L F C T)
    (h : run (step startLoop main) (new baseLoop name fd wakeupChannel) as = some s)
    (hstarts : s.starts < 2 ^ 32) :
    (∃ n, s.pool.loops = (List.range n).map startLoop) ∧
    s.accepted = (List.range s.accepted.length).map s.turn ∧
    (s.pool.loops.Nodup → ∀ l ∈ s.pool.loops,
      s.accepted.count l = s.accepted.length / s.pool.loops.length ∨
      s.accepted.count l = s.accepted.length / s.pool.loops.length + 1) ∧
    (∀ l, l ≠ s.pool.baseLoop → established (s.loop l).executed <+: s.connectionsOf l) ∧
    s.direct = s.connectionsOf s.pool.baseLoop := by
  obtain ⟨hg, hs⟩ := run_invariant
    (fun s => s.starts < 2 ^ 32 → Guarded startLoop s ∧ s.Shared)
    (fun s a s' hs hstep hlt =>
      have hprev := hs ((starts_le hstep).trans_lt hlt)
      ⟨hprev.1.step hlt hstep, hprev.2.step hprev.1 hstep⟩)
    (fun _ => ⟨guarded_new baseLoop name fd wakeupChannel,
      shared_new baseLoop name fd wakeupChannel⟩) h hstarts
  refine ⟨hg.once, hs.accepted, fun hnodup l hl => ?_, fun l hne => ?_, hs.direct⟩
  · rw [hs.accepted, List.length_map, List.length_range]
    have hturn : s.turn = fun k => s.pool.loops.getD ((0 + k) % s.pool.loops.length)
        s.pool.baseLoop := by
      funext k
      rw [Nat.zero_add, turn]
    rw [hturn]
    exact RoundRobin.count_entries hnodup hl s.pool.baseLoop 0 s.accepted.length
  · rw [← hs.queued l hne, established, established, ← (hs.ordered l).order, List.append_assoc,
      List.filterMap_append]
    exact List.prefix_append _ _

/-- Two threads, a second call of `start()`, and three connections, of which the first has been
established. -/
def threeAccepts : List (FrontAction (Fin 3) Unit Unit Unit) :=
  [.setThreadNum 2, .start, .start, .startPool, .listen, .newConnection, .loop 1 (.wakeup ()),
    .newConnection, .loop 1 .enter, .newConnection, .loop 1 .test, .loop 1 (.pollReturn []),
    .loop 1 .startFunctors, .loop 1 .swapFunctors, .loop 1 .runFunctor]

theorem established_threeAccepts : ∃ s : ServerFront (Fin 3) Unit Unit Unit,
    run (step (fun i => Fin.ofNat 3 (i + 1)) ()) (new 0 [] (fun _ _ => 3) fun _ => ())
      threeAccepts = some s ∧
    established (s.loop 1).executed <+: s.connectionsOf 1 ∧ s.direct = s.connectionsOf 0 := by
  obtain ⟨s, hs, hnow⟩ := Option.map_eq_some_iff.1
    (show (run (step (fun i => Fin.ofNat 3 (i + 1)) ()) (new 0 [] (fun _ _ => 3) fun _ => ())
      threeAccepts).map (fun s => (s.starts, s.pool.baseLoop)) = some (2, 0) by decide)
  simp only [Prod.mk.injEq] at hnow
  obtain ⟨-, -, -, hqueued, hdirect⟩ := established_in_turn (fun i => Fin.ofNat 3 (i + 1)) () 0 []
    (fun _ _ => 3) (fun _ => ()) threeAccepts s hs (by simp [hnow.1])
  rw [hnow.2] at hqueued hdirect
  exact ⟨s, hs, hqueued 1 (by decide), hdirect⟩

/-- Loop 1 has the first connection and the third, and loop 2 has the second. -/
example : (run (step (fun i => Fin.ofNat 3 (i + 1)) ()) (new 0 [] (fun _ _ => 3) fun _ => ())
    threeAccepts).map (fun s => (s.accepted, established (s.loop 1).executed,
      s.connectionsOf 1)) = some ([1, 2, 1], [0], [0, 2]) := by
  decide

end ServerFront

end WebCore
