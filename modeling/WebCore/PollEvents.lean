import WebCore.EventLoop
import WebCore.Lib.Window
import WebCore.Buffer

/-!
# The array of `poll`

`EpollPoller::poll` gives `epoll_wait` the vector `events_`, which has sixteen entries at first and
is doubled when it comes back full. What does not fit is left to the next call. `PollSystem` is a
loop with this vector; `ready` is what the kernel has to report, in the order in which it does.

**Theorem (`poll_array`).** Each such `poll` is a `poll` of `LoopSystem`, so that every run of the
loop with its vector is a run of the loop. The vector is never longer than twice the largest number
of channels that have been ready, and among any `k + 1` calls with at most `16 * 2 ^ k` ready
channels there is one that reports all of them.

The conversion of the vector's size to `int` can go wrong: when `2 ^ 30` events have come at once,
the size is `2 ^ 31`, and `epoll_wait` fails from then on (`poll_deaf`). Other limits on `maxevents`
are left out: Linux refuses more than `INT_MAX / sizeof(epoll_event)`.
-/

namespace WebCore

open Transition

/-- `static_cast<int>`. -/
def castInt (n : Nat) : Int := (BitVec.ofNat 32 n).toInt

theorem castInt_eq {n : Nat} (h : n < 2 ^ 31) : castInt n = n := by
  have hmod : n % 2 ^ 32 = n := Nat.mod_eq_of_lt (by omega)
  rw [castInt, BitVec.toInt_eq_toNat_of_lt (by rw [BitVec.toNat_ofNat, hmod]; omega),
    BitVec.toNat_ofNat, hmod]

/-- `epoll_wait`: as many events as there is room for, or `none` for -1. Any positive `maxevents` is
taken. -/
def epollWait {α : Type*} (maxevents : Int) (ready : List α) : Option (List α) :=
  if 0 < maxevents then some (ready.take maxevents.toNat) else none

/-- `poll` with `events_.size() = events`: what it reports, and the size afterwards. -/
def EpollPoller.poll {α : Type*} (ready : List α) (events : Nat) : List α × Nat :=
  match epollWait (castInt events) ready with
  | none => ([], events)
  | some reported =>
    (reported, if 0 < reported.length ∧ reported.length = events then toSize (events * 2)
      else events)

def KInitEventListSize : Nat := 16

structure PollSystem (F C T : Type*) where
  sys : LoopSystem F C T
  /-- `events_.size()` -/
  events : Nat

inductive PollAction (F C T : Type*)
  /-- a step that is not `poll` -/
  | loop (a : LoopAction F C T)
  | poll (ready : List (C × EventMask))

namespace PollSystem

variable {F C T : Type*}

def new (sys : LoopSystem F C T) : PollSystem F C T := ⟨sys, KInitEventListSize⟩

variable [DecidableEq C] [DecidableEq T]

def step (s : PollSystem F C T) : PollAction F C T → Option (PollSystem F C T)
  | .loop (.pollReturn _) => none
  | .loop a => (s.sys.step a).map fun sys => { s with sys }
  | .poll ready =>
    if s.sys.isAt .poll ∧ ready.all s.sys.loop.mayReport ∧ (ready.map Prod.fst).Nodup then
      some ⟨{ s.sys with loop := s.sys.loop.pollReturn (EpollPoller.poll ready s.events).1 },
        (EpollPoller.poll ready s.events).2⟩
    else none

/-- What has been ready at the calls of `poll` in a run. -/
def polls (as : List (PollAction F C T)) : List (List (C × EventMask)) :=
  as.filterMap fun
    | .poll ready => some ready
    | .loop _ => none

/-! ## One call -/

theorem poll_eq {α : Type*} {ready : List α} {events : Nat} (hpos : 0 < events)
    (hlt : events < 2 ^ 31) :
    EpollPoller.poll ready events = (ready.take events, Window.grow events ready) := by
  have hcast := castInt_eq hlt
  have hdouble : toSize (events * 2) = 2 * events := by
    unfold toSize
    omega
  have hwait : epollWait (castInt events) ready = some (ready.take events) := by
    rw [epollWait, hcast, if_pos (by omega), Int.toNat_natCast]
  unfold EpollPoller.poll Window.grow
  rw [hwait]
  by_cases hfull : (ready.take events).length = events
  · simp only [hfull, hpos, and_self, if_true, hdouble]
  · simp only [hfull, and_false, if_false]

/-- A vector of `2 ^ 31` entries is never filled again. -/
theorem poll_deaf {α : Type*} (ready : List α) :
    EpollPoller.poll ready (2 ^ 31) = ([], 2 ^ 31) := by
  have hwait : epollWait (castInt (2 ^ 31)) ready = none := if_neg (by decide)
  rw [EpollPoller.poll, hwait]

/-- Every call is one that the kernel can answer so. -/
theorem poll_sublist {α : Type*} (ready : List α) (events : Nat) :
    (EpollPoller.poll ready events).1.Sublist ready := by
  unfold EpollPoller.poll epollWait
  split
  · exact List.nil_sublist ready
  · rename_i reported h
    split at h
    · obtain rfl := Option.some.inj h
      exact List.take_sublist _ _
    · cases h

/-! ## Runs -/

section Runs

variable {s s' : PollSystem F C T}

/-- **A step of the loop with its vector is a step of the loop.** -/
theorem step_refines {a : PollAction F C T} (h : s.step a = some s') :
    ∃ b, s.sys.step b = some s'.sys := by
  cases a with
  | loop a =>
    cases a with
    | pollReturn active => cases h
    | _ =>
      obtain ⟨sys, hsys, rfl⟩ := Option.map_eq_some_iff.1 h
      exact ⟨_, hsys⟩
  | poll ready =>
    simp only [step, Option.ite_none_right_eq_some, Option.some.injEq] at h
    obtain ⟨⟨hpc, hall, hnodup⟩, rfl⟩ := h
    have hsub := poll_sublist ready s.events
    refine ⟨.pollReturn (EpollPoller.poll ready s.events).1, if_pos ⟨hpc, ?_, ?_⟩⟩
    · exact List.all_eq_true.2 fun ev hev => List.all_eq_true.1 hall ev (hsub.subset hev)
    · exact hnodup.sublist (hsub.map Prod.fst)

theorem events_loop {a : LoopAction F C T} (h : s.step (.loop a) = some s') :
    s'.events = s.events := by
  cases a with
  | pollReturn active => cases h
  | _ =>
    obtain ⟨sys, -, rfl⟩ := Option.map_eq_some_iff.1 h
    rfl

/-- The call reports what the window of the vector shows. -/
theorem step_poll {ready : List (C × EventMask)} (h : s.step (.poll ready) = some s')
    (hpos : 0 < s.events) (hlt : s.events < 2 ^ 31) :
    s'.events = Window.grow s.events ready ∧
      s'.sys.loop.activeChannels = (ready.take s.events).map Prod.fst := by
  simp only [step, Option.ite_none_right_eq_some, Option.some.injEq] at h
  obtain ⟨-, rfl⟩ := h
  rw [poll_eq hpos hlt]
  exact ⟨rfl, rfl⟩

/-- The vector's size is that of a window that doubles when it is full. -/
theorem events_run {as : List (PollAction F C T)} {peak : Nat} (hpeak : peak < 2 ^ 30)
    (hpos : 0 < s.events) (hle : s.events ≤ max 16 (2 * peak))
    (hready : ∀ ready ∈ polls as, ready.length ≤ peak) (h : run step s as = some s') :
    s'.events = (polls as).foldl Window.grow s.events := by
  induction as generalizing s with
  | nil =>
    obtain rfl := Option.some.inj h
    rfl
  | cons a as ih =>
    obtain ⟨t, ht, hrun⟩ := run_cons.1 h
    cases a with
    | loop a =>
      have hkeep := events_loop ht
      rw [ih (hkeep ▸ hpos) (hkeep ▸ hle) hready hrun, hkeep]
      rfl
    | poll ready =>
      obtain ⟨hgrow, -⟩ := step_poll ht hpos (by omega)
      have hlook : ready.length ≤ peak := hready ready (by simp [polls])
      have hbound := Window.grow_le s.events ready
      have hkept := Window.le_grow s.events ready
      have hrest := ih (by omega) (by omega)
        (fun r hr => hready r (by simp only [polls, List.filterMap_cons]; exact .tail _ hr)) hrun
      rw [hrest, hgrow]
      rfl

omit [DecidableEq C] [DecidableEq T] in
/-- The call of `poll` that is found among the calls of a run. -/
theorem exists_of_polls {as : List (PollAction F C T)} {before after : List (List (C × EventMask))}
    {ready : List (C × EventMask)} (h : polls as = before ++ ready :: after) :
    ∃ as₁ as₂, as = as₁ ++ .poll ready :: as₂ ∧ polls as₁ = before := by
  obtain ⟨as₁, rest, rfl, hbefore, hrest⟩ := List.filterMap_eq_append_iff.1 h
  obtain ⟨quiet, a, as₂, rfl, hquiet, ha, -⟩ := List.filterMap_eq_cons_iff.1 hrest
  refine ⟨as₁ ++ quiet, as₂, ?_, ?_⟩
  · cases a with
    | loop a => cases ha
    | poll r =>
      obtain rfl := Option.some.inj ha
      rw [List.append_assoc]
  · rw [polls, List.filterMap_append, hbefore, List.filterMap_eq_nil_iff.2 hquiet,
      List.append_nil]

/-- **The array of `poll`.** Take any run of a loop in which fewer than `2 ^ 30` channels are ready
at a time, `peak` at most, and any run from there. Both are runs of the loop in which `poll` may
report any part of what is ready; the vector has at least sixteen entries, and no more than twice
the `peak`; and if the second run calls `poll` more than `k` times, where `peak ≤ 16 * 2 ^ k`, then
one of these calls reports all channels that are ready at the time. The bound `2 ^ 30` does no more
than rule out the conversion of the size to a negative `int`. -/
theorem poll_array (sys : LoopSystem F C T) (as bs : List (PollAction F C T))
    (s s' : PollSystem F C T) (peak k : Nat) (hpeak : peak < 2 ^ 30)
    (hready : ∀ ready ∈ polls (as ++ bs), ready.length ≤ peak)
    (h : run step (new sys) as = some s) (h' : run step s bs = some s') :
    (∃ cs, sys.run cs = some s'.sys) ∧ 16 ≤ s'.events ∧ s'.events ≤ max 16 (2 * peak) ∧
    (peak ≤ 16 * 2 ^ k → k < (polls bs).length →
      ∃ bs₁ ready bs₂ t t', bs = bs₁ ++ .poll ready :: bs₂ ∧ run step s bs₁ = some t ∧
        t.step (.poll ready) = some t' ∧
        t'.sys.loop.activeChannels = ready.map Prod.fst) := by
  have hall := run_append.2 ⟨s, h, h'⟩
  have hsplit : polls (as ++ bs) = polls as ++ polls bs := List.filterMap_append
  rw [hsplit] at hready
  have hfirst : ∀ ready ∈ polls as, ready.length ≤ peak := fun r hr =>
    hready r (List.mem_append_left _ hr)
  have hsecond : ∀ ready ∈ polls bs, ready.length ≤ peak := fun r hr =>
    hready r (List.mem_append_right _ hr)
  have hnew : (new sys).events = 16 := rfl
  have hs := events_run hpeak (by rw [hnew]; omega) (by rw [hnew]; omega) hfirst h
  have hlow : 16 ≤ s.events := hs ▸ hnew ▸ Window.le_foldl_grow _ _
  have hhigh : s.events ≤ max 16 (2 * peak) := hs ▸ hnew ▸ Window.foldl_grow_le _ hfirst
  have hs' := events_run hpeak (by omega) hhigh hsecond h'
  refine ⟨?_, ?_, ?_, fun hk hmany => ?_⟩
  · refine run_refines (fun s : PollSystem F C T => s.sys) (fun _ => True)
      (fun _ _ _ _ _ => trivial) (fun t a t' _ ht => ?_) trivial hall
    obtain ⟨b, hb⟩ := step_refines ht
    exact ⟨[b], run_cons.2 ⟨_, hb, rfl⟩⟩
  · rw [hs']
    exact hlow.trans (Window.le_foldl_grow _ _)
  · have hlast := Window.foldl_grow_le s.events hsecond
    rw [hs']
    omega
  · -- The call with the window that shows everything.
    obtain ⟨before, ready, after, heq, hwhole⟩ := Window.exists_whole s.events _ hmany
      fun r hr => (hsecond r hr).trans (hk.trans (Nat.mul_le_mul_right _ hlow))
    obtain ⟨bs₁, bs₂, rfl, rfl⟩ := exists_of_polls heq
    obtain ⟨t, ht, hrest⟩ := run_append.1 h'
    obtain ⟨t', ht', -⟩ := run_cons.1 hrest
    have hbefore : ∀ r ∈ polls bs₁, r.length ≤ peak := fun r hr =>
      hsecond r (by rw [polls, List.filterMap_append]; exact List.mem_append_left _ hr)
    have hevents := events_run hpeak (by omega) hhigh hbefore ht
    have hpos := Window.le_foldl_grow s.events (polls bs₁)
    have hlt := Window.foldl_grow_le s.events hbefore
    refine ⟨bs₁, ready, bs₂, t, t', rfl, ht, ht', ?_⟩
    rw [(step_poll ht' (by omega) (by omega)).2, hevents, hwhole]

end Runs

/-! ### More channels than entries -/

/-- Seventeen channels beside that of the wakeup descriptor. -/
def manyLoop : LoopSystem Unit Nat Unit := .new (fun c => c) 0

def registerMany : List (PollAction Unit Nat Unit) :=
  ((List.range 17).map fun c => .loop (.channelOp .enableReading (c + 1))) ++ [.loop .enter]

def manyReady : List (Nat × EventMask) := (List.range 17).map fun c => (c + 1, EPOLLIN)

/-- Two iterations in which all of them are ready. -/
def pollTwice : List (PollAction Unit Nat Unit) :=
  [.loop .test, .poll manyReady] ++ List.replicate 16 (.loop .dispatch) ++
    [.loop .startFunctors, .loop .swapFunctors, .loop .endFunctors, .loop .test, .poll manyReady]

theorem poll_many : ∃ s s' : PollSystem Unit Nat Unit,
    run step (new manyLoop) registerMany = some s ∧ run step s pollTwice = some s' ∧
    s'.events = 32 ∧
    ∃ bs₁ ready bs₂ t t', pollTwice = bs₁ ++ .poll ready :: bs₂ ∧ run step s bs₁ = some t ∧
      t.step (.poll ready) = some t' ∧ t'.sys.loop.activeChannels = ready.map Prod.fst := by
  obtain ⟨s', hall, hsize⟩ := Option.map_eq_some_iff.1
    (show (run step (new manyLoop) (registerMany ++ pollTwice)).map PollSystem.events = some 32 by
      decide +kernel)
  obtain ⟨s, h, h'⟩ := run_append.1 hall
  have hready : ∀ ready ∈ polls (registerMany ++ pollTwice), ready.length ≤ 17 := by decide +kernel
  obtain ⟨-, -, -, hwhole⟩ := poll_array manyLoop registerMany pollTwice s s' 17 1 (by decide)
    hready h h'
  exact ⟨s, s', h, h', hsize, hwhole (by decide) (by decide +kernel)⟩

end PollSystem

end WebCore
