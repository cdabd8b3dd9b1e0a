import WebCore.ServerTable
import WebCore.Lib.RoundRobin

/-!
# `EventLoopTreadPool`

The loops of a server and the order in which they are handed out
(`ZEventLoop/event_loop_thread_pool.cpp`). `start` appends a loop for each thread, and `getNextLoop`
goes round the list; without threads it gives the base loop. The index `_next` is never outside the
list, which the structure says itself.

**Theorem (`getNextLoop_turns`).** Whatever happened to the pool before, the loops are handed out in
turn, and of any number of calls in a row each place in the list gets its even share.
-/

namespace WebCore

structure EventLoopTreadPool (L : Type*) where
  baseLoop : L
  name : List Char
  started : Bool
  numThread : Int
  /-- the names of the threads -/
  threads : List (List Char)
  loops : List L
  next : Nat
  next_ok : next = 0 ∨ next < loops.length

namespace EventLoopTreadPool

variable {L : Type*}

def new (baseLoop : L) (name : List Char) : EventLoopTreadPool L where
  baseLoop := baseLoop
  name := name
  started := false
  numThread := 0
  threads := []
  loops := []
  next := 0
  next_ok := .inl rfl

def setThreadNum (numThread : Int) (p : EventLoopTreadPool L) : EventLoopTreadPool L :=
  { p with numThread }

/-- The name of the thread `i`, in a buffer that has 32 bytes more than the name of the pool. -/
def threadName (p : EventLoopTreadPool L) (i : Nat) : List Char :=
  snprintf (p.name.length + 32) (p.name ++ decimal i)

/-- `start`, where `startLoop` gives the loops of the new threads. -/
def start (startLoop : Nat → L) (p : EventLoopTreadPool L) : EventLoopTreadPool L where
  baseLoop := p.baseLoop
  name := p.name
  started := true
  numThread := p.numThread
  threads := p.threads ++ (List.range p.numThread.toNat).map p.threadName
  loops := p.loops ++ (List.range p.numThread.toNat).map startLoop
  next := p.next
  next_ok := p.next_ok.imp_right fun h => by
    rw [List.length_append]
    omega

/-- The loops on which `start` has `cb` called, on the new threads or here. -/
def initialized (startLoop : Nat → L) (cb : Bool) (p : EventLoopTreadPool L) : List L :=
  if cb then
    if p.numThread = 0 then [p.baseLoop] else (List.range p.numThread.toNat).map startLoop
  else []

theorem next_lt (p : EventLoopTreadPool L) (h : p.loops ≠ []) : p.next < p.loops.length :=
  p.next_ok.elim (fun h₀ => h₀ ▸ List.length_pos_of_ne_nil h) id

def getNextLoop (p : EventLoopTreadPool L) : L × EventLoopTreadPool L :=
  if h : p.loops = [] then (p.baseLoop, p)
  else (p.loops.get ⟨p.next, p.next_lt h⟩,
    { p with next := RoundRobin.advance p.loops.length p.next
             next_ok := RoundRobin.advance_ok _ _ })

def getAllLoops (p : EventLoopTreadPool L) : List L :=
  if p.loops = [] then [p.baseLoop] else p.loops

/-! ## The order of the loops -/

/-- The loop that the `k`-th of the next calls hands out. -/
def turn (p : EventLoopTreadPool L) (k : Nat) : L :=
  p.loops.getD ((p.next + k) % p.loops.length) p.baseLoop

/-- The pool after `k` calls. -/
def after (p : EventLoopTreadPool L) (k : Nat) : EventLoopTreadPool L :=
  (fun p => p.getNextLoop.2)^[k] p

/-- What `m` calls hand out. -/
def handed (p : EventLoopTreadPool L) (m : Nat) : List L :=
  (List.range m).map fun k => (p.after k).getNextLoop.1

theorem getNextLoop_fst (p : EventLoopTreadPool L) : p.getNextLoop.1 = p.turn 0 := by
  unfold getNextLoop turn
  by_cases h : p.loops = []
  · simp [h]
  · rw [dif_neg h, Nat.add_zero, Nat.mod_eq_of_lt (p.next_lt h),
      List.getD_eq_getElem _ _ (p.next_lt h)]
    rfl

theorem getNextLoop_snd (p : EventLoopTreadPool L) :
    p.getNextLoop.2.baseLoop = p.baseLoop ∧ p.getNextLoop.2.loops = p.loops ∧
      ∀ k, p.getNextLoop.2.turn k = p.turn (k + 1) := by
  unfold getNextLoop
  by_cases h : p.loops = []
  · simp [h, turn]
  · rw [dif_neg h]
    refine ⟨rfl, rfl, fun k => ?_⟩
    show p.loops.getD ((RoundRobin.advance p.loops.length p.next + k) % p.loops.length) p.baseLoop
      = p.turn (k + 1)
    rw [turn, RoundRobin.advance_eq (p.next_lt h), Nat.mod_add_mod, Nat.add_assoc,
      Nat.add_comm 1 k]

theorem getNextLoop_next (p : EventLoopTreadPool L) (h : p.loops ≠ []) :
    p.getNextLoop.2.next = (p.next + 1) % p.loops.length := by
  unfold getNextLoop
  rw [dif_neg h, ← RoundRobin.advance_eq (p.next_lt h)]

theorem turn_after (p : EventLoopTreadPool L) (k j : Nat) :
    (p.after k).turn j = p.turn (k + j) := by
  induction k generalizing p with
  | zero => rw [Nat.zero_add]; rfl
  | succ k ih =>
    show (p.getNextLoop.2.after k).turn j = _
    rw [ih, p.getNextLoop_snd.2.2, Nat.add_right_comm]

theorem handed_eq (p : EventLoopTreadPool L) (m : Nat) : p.handed m = (List.range m).map p.turn :=
  List.map_congr_left fun k _ => by rw [getNextLoop_fst, turn_after, Nat.add_zero]

/-- One round hands out all loops, from the place of `_next` on. -/
theorem handed_round (p : EventLoopTreadPool L) :
    p.handed p.getAllLoops.length = p.getAllLoops.rotate p.next := by
  rw [handed_eq]
  by_cases h : p.loops = []
  · simp [getAllLoops, h, turn, List.range_succ]
  · have hall : p.getAllLoops = p.loops := if_neg h
    rw [hall]
    refine List.ext_getElem (by simp) fun k hk _ => ?_
    have hlt : (p.next + k) % p.loops.length < p.loops.length :=
      Nat.mod_lt _ (List.length_pos_of_ne_nil h)
    simp [turn, List.getElem_rotate, hlt, Nat.add_comm k]

/-- `cb` has been called with every loop that a first `start` makes ready. With a negative number of
threads it is called with none, and the base loop is used all the same. -/
theorem getAllLoops_start (startLoop : Nat → L) {p : EventLoopTreadPool L} (hnew : p.loops = [])
    (hnum : 0 ≤ p.numThread) :
    (p.start startLoop).getAllLoops = p.initialized startLoop true := by
  have hzero : p.numThread.toNat = 0 ↔ p.numThread = 0 := by omega
  simp [getAllLoops, initialized, start, hnew, hzero]

/-- **The loops are handed out in turn.** Take a pool in any state. The `k`-th of the next calls
hands out the `k`-th loop from the place of `_next` on, going round the list, or the base loop where
there are no others; and if the loops are distinct, each of them is handed out `m / n` times in `m`
calls, or once more. -/
theorem getNextLoop_turns [DecidableEq L] (p : EventLoopTreadPool L) (m : Nat) :
    p.handed m = (List.range m).map (fun k =>
      p.loops.getD ((p.next + k) % p.loops.length) p.baseLoop) ∧
    (p.loops.Nodup → ∀ l ∈ p.loops, (p.handed m).count l = m / p.loops.length ∨
      (p.handed m).count l = m / p.loops.length + 1) := by
  refine ⟨p.handed_eq m, fun hnodup l hl => ?_⟩
  rw [handed_eq]
  exact RoundRobin.count_entries hnodup hl p.baseLoop p.next m

end EventLoopTreadPool

end WebCore
