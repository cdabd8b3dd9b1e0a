import WebCore.Lib.LeadsTo
import WebCore.Progress
import WebCore.ServerFront

/-!
# An accepted connection is established

`connectEstablished` waits in the functor queue of the connection's loop, behind what was queued
there before. Whatever the other loops and threads do, that loop comes to it.

**Theorem (`accepted_eventually_established`).** Every connection that is accepted is established
on its loop, when the loops of the pool go on.
-/

namespace WebCore

open Transition Path

namespace ServerFront

variable {L F C T : Type*} [DecidableEq L] [DecidableEq C] [DecidableEq T] {startLoop : Nat → L}
  {main : T} {s s' : ServerFront L F C T} {a : FrontAction L F C T}

/-! ## One loop among the others -/

theorem loop_step {l : L} {b : LoopAction (FrontFunctor F) C T}
    (h : s.step startLoop main (.loop l b) = some s') :
    (s.loop l).step b = some (s'.loop l) := by
  simp only [step, Option.ite_none_left_eq_some, Option.map_eq_some_iff] at h
  obtain ⟨-, sys, hsys, rfl⟩ := h
  simpa using hsys

/-- A step of the server is a step of the loop, or does not concern it. -/
theorem step_loop (h : s.step startLoop main a = some s') (l : L) :
    s'.loop l = s.loop l ∨ ∃ b, (s.loop l).step b = some (s'.loop l) := by
  cases a with
  | setThreadNum n | start =>
    obtain rfl := Option.some.inj h
    exact .inl rfl
  | startPool | listen =>
    simp only [step, Option.ite_none_right_eq_some, Option.some.injEq] at h
    obtain ⟨-, rfl⟩ := h
    exact .inl rfl
  | newConnection =>
    simp only [step, Option.ite_none_right_eq_some, establish] at h
    obtain ⟨-, h⟩ := h
    split at h
    · obtain rfl := Option.some.inj h
      exact .inl rfl
    · obtain ⟨sys, hsys, rfl⟩ := Option.map_eq_some_iff.1 h
      dsimp only
      by_cases hl : l = s.pool.getNextLoop.1
      · rw [hl, Function.update_self]
        exact .inr ⟨_, hsys⟩
      · rw [Function.update_of_ne hl]
        exact .inl rfl
  | loop l' b =>
    by_cases hl : l = l'
    · rw [hl]
      exact .inr ⟨b, loop_step h⟩
    · simp only [step, Option.ite_none_left_eq_some, Option.map_eq_some_iff] at h
      obtain ⟨-, sys, -, rfl⟩ := h
      dsimp only
      rw [Function.update_of_ne hl]
      exact .inl rfl

/-- Once a connection has been accepted, the loops of the pool stay the same. -/
theorem turn_step (hg : Guarded startLoop s) (hne : s.accepted ≠ [])
    (h : s.step startLoop main a = some s') :
    s'.turn = s.turn ∧ s'.pool.baseLoop = s.pool.baseLoop ∧
      s.accepted.length ≤ s'.accepted.length := by
  cases a with
  | setThreadNum n | start =>
    obtain rfl := Option.some.inj h
    exact ⟨rfl, rfl, le_rfl⟩
  | startPool =>
    simp only [step, Option.ite_none_right_eq_some, Option.some.injEq] at h
    exact absurd (hg.closed (hg.waiting (by simp [h.1]))).1 hne
  | listen =>
    simp only [step, Option.ite_none_right_eq_some, Option.some.injEq] at h
    obtain ⟨-, rfl⟩ := h
    exact ⟨rfl, rfl, le_rfl⟩
  | newConnection =>
    simp only [step, Option.ite_none_right_eq_some] at h
    obtain ⟨hpool, -, -, -, -, hacc⟩ := establish_inv h.2
    obtain ⟨hbase, hloops, -⟩ := s.pool.getNextLoop_snd
    refine ⟨?_, by rw [hpool, hbase], by simp [hacc]⟩
    funext k
    rw [turn, turn, hpool, hloops, hbase]
  | loop l b =>
    simp only [step, Option.ite_none_left_eq_some, Option.map_eq_some_iff] at h
    obtain ⟨-, sys, -, rfl⟩ := h
    exact ⟨rfl, rfl, le_rfl⟩

/-! ## The way to the establishment -/

/-- The connection `k` has been established. -/
def Established (k : Nat) (s : ServerFront L F C T) : Prop :=
  if s.turn k = s.pool.baseLoop then k ∈ s.direct
  else k ∈ established (s.loop (s.turn k)).executed

/-- `connectEstablished` of the connection `k` is the `i`-th functor queued on its loop `l`. -/
structure Queued (l : L) (i k : Nat) (s : ServerFront L F C T) : Prop where
  accepted : k < s.accepted.length
  turn : s.turn k = l
  pooled : l ≠ s.pool.baseLoop
  queued : ((s.loop l).queued.map Prod.fst)[i]? = some (.connectEstablished k)

omit [DecidableEq L] [DecidableEq C] [DecidableEq T] in
theorem Queued.lt {l : L} {i k : Nat} (hq : Queued l i k s) : i < (s.loop l).queued.length := by
  simpa using (List.getElem?_eq_some_iff.1 hq.queued).1

omit [DecidableEq L] [DecidableEq C] [DecidableEq T] in
theorem Queued.mem_loops {l : L} {i k : Nat} (hq : Queued l i k s) : l ∈ s.pool.loops := by
  have hturn := hq.turn
  by_cases hempty : s.pool.loops = []
  · refine absurd ?_ hq.pooled
    rw [← hturn, ServerFront.turn, hempty]
    rfl
  · have hlt := Nat.mod_lt k (List.length_pos_of_ne_nil hempty)
    rw [ServerFront.turn, List.getD_eq_getElem _ _ hlt] at hturn
    rw [← hturn]
    exact List.getElem_mem _

omit [DecidableEq C] [DecidableEq T] in
/-- A connection that has been accepted is established, or it is in the queue of its loop. -/
theorem Shared.queued_of_accepted (hs : s.Shared) {k : Nat} (hk : k < s.accepted.length) :
    s.Established k ∨ ∃ i, Queued (s.turn k) i k s := by
  have hmem : k ∈ s.connectionsOf (s.turn k) :=
    List.mem_filter.2 ⟨List.mem_range.2 hk, by simp⟩
  by_cases hb : s.turn k = s.pool.baseLoop
  · rw [hb, ← hs.direct] at hmem
    exact .inl (by rw [Established, if_pos hb]; exact hmem)
  · rw [← hs.queued _ hb, established, List.mem_filterMap] at hmem
    obtain ⟨f, hf, hconn⟩ := hmem
    obtain rfl : f = .connectEstablished k := by
      cases f with
      | connectEstablished conn => rw [Option.some.inj hconn]
      | other f => cases hconn
    obtain ⟨i, hi, hfi⟩ := List.getElem_of_mem hf
    exact .inr ⟨i, hk, rfl, hb, List.getElem?_eq_some_iff.2 ⟨hi, hfi⟩⟩

omit [DecidableEq C] [DecidableEq T] in
/-- The functor has been executed. -/
theorem Queued.established {l : L} {i k : Nat} (hq : Queued l i k s) (ho : (s.loop l).Ordered)
    (hi : i < (s.loop l).executed.length) : s.Established k := by
  rw [Established, if_neg (by rw [hq.turn]; exact hq.pooled), hq.turn, ServerFront.established,
    List.mem_filterMap]
  refine ⟨.connectEstablished k, ?_, rfl⟩
  have hget := hq.queued
  rw [← ho.order, List.append_assoc, List.getElem?_append_left (by simpa using hi)] at hget
  exact List.mem_of_getElem? hget

/-- **Every step keeps the functor in its place**, and takes its loop no further from it. -/
theorem Queued.step {l : L} {i k : Nat} (hq : Queued l i k s) (hg : Guarded startLoop s)
    (hs : s.Shared) (h : s.step startLoop main a = some s') :
    Queued l i k s' ∧ LoopSystem.waiting i (s'.loop l) ≤ LoopSystem.waiting i (s.loop l) := by
  obtain ⟨hturn, hbase, hlen⟩ := turn_step hg (List.ne_nil_of_length_pos
    (Nat.zero_lt_of_lt hq.accepted)) h
  have hkeep : ((s'.loop l).queued.map Prod.fst)[i]? = some (.connectEstablished k) →
      Queued l i k s' := fun hget =>
    ⟨hq.accepted.trans_le hlen, by rw [hturn, hq.turn], by rw [hbase]; exact hq.pooled, hget⟩
  rcases step_loop h l with hsame | ⟨b, hb⟩
  · rw [hsame]
    exact ⟨hkeep (by rw [hsame]; exact hq.queued), le_rfl⟩
  · have ho := hs.ordered l
    obtain ⟨later, hlater⟩ := (LoopSystem.step_move ho.batch_nil hb).history_isPrefix
    refine ⟨hkeep ?_, (LoopSystem.waiting_step ho hq.lt hb).1⟩
    show ((s'.loop l).queue.history.map Prod.fst)[i]? = _
    have hlt : i < ((s.loop l).queue.history.map Prod.fst).length := by
      rw [List.length_map]
      exact hq.lt
    rw [← hlater, List.map_append, List.getElem?_append_left hlt]
    exact hq.queued

/-! ## Infinite runs -/

/-- **Every connection that is accepted is established.** Take any infinite run of a server with
fewer than `2 ^ 32` calls of `start()`, from any reachable state, in which every loop of the pool
goes on. Then every connection that has been accepted is established later on: on the base loop, or
by a functor that its loop has executed. -/
theorem accepted_eventually_established (startLoop : Nat → L) (main : T) (baseLoop : L)
    (name : List Char) (fd : L → C → Int) (wakeupChannel : L → C)
    (as : List (FrontAction L F C T))
    (p : Path (step startLoop main : ServerFront L F C T → _))
    (h : run (step startLoop main) (new baseLoop name fd wakeupChannel) as = some (p.state 0))
    (hstarts : ∀ n, (p.state n).starts < 2 ^ 32)
    (hloop : ∀ n, ∀ l ∈ (p.state n).pool.loops, ∃ m, n ≤ m ∧ ∃ b, p.action m = .loop l b ∧
      b.inLoop = true) (k : Nat) :
    p.LeadsTo (fun s => k < s.accepted.length) (Established k) := by
  have hinv : ∀ n, Guarded startLoop (p.state n) ∧ (p.state n).Shared := by
    have hstep : ∀ (s : ServerFront L F C T) (a : FrontAction L F C T) (s' : ServerFront L F C T),
        (s.starts < 2 ^ 32 → Guarded startLoop s ∧ s.Shared) →
        s.step startLoop main a = some s' →
        s'.starts < 2 ^ 32 → Guarded startLoop s' ∧ s'.Shared := fun s a s' hs hstep hlt =>
      have hprev := hs ((starts_le hstep).trans_lt hlt)
      ⟨hprev.1.step hlt hstep, hprev.2.step hprev.1 hstep⟩
    have h₀ := run_invariant (fun s => s.starts < 2 ^ 32 → Guarded startLoop s ∧ s.Shared) hstep
      (fun _ => ⟨guarded_new baseLoop name fd wakeupChannel,
        shared_new baseLoop name fd wakeupChannel⟩) h
    exact fun n => p.always (fun s => s.starts < 2 ^ 32 → Guarded startLoop s ∧ s.Shared) hstep h₀
      n (hstarts n)
  intro n hk
  rcases (hinv n).2.queued_of_accepted hk with hdone | ⟨i, hq⟩
  · exact ⟨n, le_rfl, hdone⟩
  · have hway : p.LeadsTo (fun s => Queued ((p.state n).turn k) i k s ∧
        (s.loop ((p.state n).turn k)).executed.length ≤ i) (Established k) := by
      refine .of_often (fun a => ∃ b, a = .loop ((p.state n).turn k) b ∧ b.inLoop = true)
        (fun s => LoopSystem.waiting i (s.loop ((p.state n).turn k))) (fun m hm => ?_)
        (fun m hm hact => ?_) fun m hm => ?_
      · obtain ⟨hq', hle⟩ := hm.1.step (hinv m).1 (hinv m).2 (p.next m)
        rcases Nat.lt_or_ge i ((p.state (m + 1)).loop ((p.state n).turn k)).executed.length with
          hdone | hnot
        · exact .inl (hq'.established ((hinv (m + 1)).2.ordered _) hdone)
        · exact .inr ⟨⟨hq', hnot⟩, hle⟩
      · obtain ⟨b, hb, hin⟩ := hact
        have hnext := p.next m
        rw [hb] at hnext
        exact .inr ((LoopSystem.waiting_step ((hinv m).2.ordered _) hm.1.lt
          (loop_step hnext)).2 hin hm.2)
      · obtain ⟨j, hj, hact⟩ := hloop m _ hm.1.mem_loops
        exact ⟨j, hj, .inr hact⟩
    rcases Nat.lt_or_ge i ((p.state n).loop ((p.state n).turn k)).executed.length with
      hdone | hnot
    · exact ⟨n, le_rfl, hq.established ((hinv n).2.ordered _) hdone⟩
    · exact hway n ⟨hq, hnot⟩

/-! ## A run that goes on for ever -/

/-- There is one loop in the pool, and it is left to itself. -/
structure Serving (s : ServerFront (Fin 2) Unit Unit Unit) : Prop where
  looping : (s.loop 1).Looping
  loops : s.pool.loops = [1]
  starts : s.starts = 1

def nextStep (s : ServerFront (Fin 2) Unit Unit Unit) : FrontAction (Fin 2) Unit Unit Unit :=
  .loop 1 (LoopSystem.nextStep (s.loop 1))

theorem Serving.next {s : ServerFront (Fin 2) Unit Unit Unit} (h : Serving s) :
    ∃ s', s.step (fun _ => 1) () (nextStep s) = some s' ∧ Serving s' := by
  obtain ⟨sys, hsys, hnext⟩ := h.looping.next
  have hquiet : (LoopSystem.nextStep (s.loop 1)).establishes = false := by
    have hin := LoopSystem.inLoop_nextStep (s.loop 1)
    revert hin
    cases LoopSystem.nextStep (s.loop 1) with
    | push | pushOwn => exact nofun
    | _ => exact fun _ => rfl
  refine ⟨{ s with loop := Function.update s.loop 1 sys }, ?_, ?_, h.loops, h.starts⟩
  · simp [step, nextStep, hquiet, hsys]
  · simpa using hnext

/-- The run of the pool's loop. -/
def serving (s : ServerFront (Fin 2) Unit Unit Unit) (h : Serving s) :
    Path (step (fun _ => 1) () : ServerFront (Fin 2) Unit Unit Unit → _) :=
  .follow nextStep Serving (fun _ => Serving.next) s h

theorem serving_state {s : ServerFront (Fin 2) Unit Unit Unit} (h : Serving s) (n : ℕ) :
    Serving ((serving s h).state n) :=
  follow_inv nextStep Serving (fun _ => Serving.next) s h n

/-- A server with one thread accepts two connections before the loop of that thread begins. -/
def acceptedEarly : List (FrontAction (Fin 2) Unit Unit Unit) :=
  [.setThreadNum 1, .start, .startPool, .listen, .newConnection, .loop 1 (.wakeup ()),
    .newConnection]

theorem established_acceptedEarly : ∃ s : ServerFront (Fin 2) Unit Unit Unit,
    run (step (fun _ => 1) ()) (new 0 [] (fun _ _ => 3) fun _ => ()) acceptedEarly = some s ∧
      established (s.loop 1).executed = [] ∧
      ∃ h : Serving s, ∃ m, Established 1 ((serving s h).state m) := by
  obtain ⟨s, hs, hnow⟩ := Option.map_eq_some_iff.1
    (show (run (step (fun _ => 1) ()) (new 0 [] (fun _ _ => 3) fun _ => ()) acceptedEarly).map
      (fun s => (((s.loop 1).own, (s.loop 1).loop.quit, (s.loop 1).loop.pc), s.pool.loops, s.starts,
        s.accepted.length, established (s.loop 1).executed)) =
      some ((.idle, false, .idle), [1], 1, 2, []) by decide)
  simp only [Prod.mk.injEq] at hnow
  obtain ⟨⟨hown, hquit, hpc⟩, hloops, hstarts, hlen, hnone⟩ := hnow
  have h : Serving s := ⟨⟨hown, hquit, by simp [hpc]⟩, hloops, hstarts⟩
  obtain ⟨m, -, hm⟩ := accepted_eventually_established (fun _ => 1) () 0 [] (fun _ _ => 3)
    (fun _ => ()) acceptedEarly (serving s h) hs (fun n => by
      rw [(serving_state h n).starts]
      decide)
    (fun n l hl => by
      rw [(serving_state h n).loops] at hl
      obtain rfl := List.mem_singleton.1 hl
      exact ⟨n, le_rfl, _, rfl, LoopSystem.inLoop_nextStep _⟩) 1 0 (by
      show 1 < s.accepted.length
      simp [hlen])
  exact ⟨s, hs, hnone, h, m, hm⟩

end ServerFront

end WebCore
