import Mathlib

/-!
# `Thread_`

The wrapper of `std::thread` in `ZThread/thread_.cpp`. `start` creates a thread and waits until it
runs, `join` waits until it has ended, and the destructor detaches a thread that was started and
never joined.

The flags `started_` and `joined_` are never taken back, so that an object stands for as many
threads as it is started for only if each of them is joined before the next one.

**Theorem (`life_ok_iff`).** The calls of an object's life, its destructor included, fail nowhere
iff they are one `start`, or pairs of a `start` and a `join`, or none.

The lambda in `start` names `Thread_::tid`, so that `tid_ = tid()` stores what is there already:
`tid_` stays zero.
-/

namespace WebCore

/-- A `std::thread` object. -/
inductive StdThread
  | joinable
  /-- joined or detached -/
  | released
deriving DecidableEq, Repr

/-- How a call can fail. -/
inductive ThreadFault
  /-- `thread_` is used and points to nothing -/
  | nullThread
  /-- `join()` or `detach()` of a thread that is not joinable throws -/
  | systemError
  /-- a thread that is joinable is destroyed -/
  | terminate
deriving DecidableEq, Repr

structure Thread_ where
  started : Bool
  joined : Bool
  thread : Option StdThread
  tid : Int
deriving DecidableEq, Repr

inductive ThreadCall
  | start
  | join
deriving DecidableEq, Repr

namespace Thread_

def new : Thread_ := ⟨false, false, none, 0⟩

/-- What `start` does up to the wait for the semaphore. The assignment destroys the thread that
`thread_` pointed to. -/
def create (t : Thread_) : Except ThreadFault Thread_ :=
  if t.thread = some .joinable then .error .terminate
  else .ok { t with started := true, thread := some .joinable }

/-- `tid_ = tid()` on the new thread, where `tid` is the member function. -/
def storeTid (t : Thread_) : Thread_ := { t with tid := t.tid }

def start (t : Thread_) : Except ThreadFault Thread_ := t.create.map storeTid

def join (t : Thread_) : Except ThreadFault Thread_ :=
  match t.thread with
  | none => .error .nullThread
  | some .released => .error .systemError
  | some .joinable => .ok { t with joined := true, thread := some .released }

/-- `~Thread_`, and the end of the `std::thread` with it. -/
def destroy (t : Thread_) : Except ThreadFault Unit :=
  if t.started ∧ ¬ t.joined then
    match t.thread with
    | none => .error .nullThread
    | some .released => .error .systemError
    | some .joinable => .ok ()
  else if t.thread = some .joinable then .error .terminate
  else .ok ()

def call (t : Thread_) : ThreadCall → Except ThreadFault Thread_
  | .start => t.start
  | .join => t.join

/-- The calls of an object, one after the other. -/
def calls (t : Thread_) (cs : List ThreadCall) : Except ThreadFault Thread_ :=
  cs.foldlM call t

theorem calls_concat (t : Thread_) (cs : List ThreadCall) (c : ThreadCall) :
    t.calls (cs ++ [c]) = (t.calls cs).bind fun t => t.call c := by
  rw [calls, List.foldlM_append, ← calls]
  cases t.calls cs with
  | error e => rfl
  | ok t' =>
    show List.foldlM call t' [c] = t'.call c
    rw [List.foldlM_cons]
    cases t'.call c <;> rfl

/-- A whole life. -/
def life (cs : List ThreadCall) : Except ThreadFault Unit := (new.calls cs).bind destroy

/-! ## The calls that do not fail -/

/-- A `start` and the `join` behind it, `k` times. -/
def pairs (k : Nat) : List ThreadCall := (List.replicate k [.start, .join]).flatten

/-- The object between two pairs. -/
def rested (k : Nat) : Thread_ := ⟨0 < k, 0 < k, if 0 < k then some .released else none, 0⟩

theorem pairs_succ (k : Nat) : pairs (k + 1) = pairs k ++ [.start, .join] := by
  rw [pairs, pairs, List.replicate_succ', List.flatten_append, List.flatten_singleton]

theorem call_rested (k : Nat) (c : ThreadCall) : (rested k).call c = match c with
    | .start => .ok ⟨true, 0 < k, some .joinable, 0⟩
    | .join => .error (if 0 < k then .systemError else .nullThread) := by
  by_cases hk : 0 < k
  · cases c <;> simp [rested, call, start, create, join, Except.map, storeTid, hk]
  · cases c <;> simp [rested, call, start, create, join, Except.map, storeTid, hk]

theorem call_running (joined : Bool) (c : ThreadCall) :
    (⟨true, joined, some .joinable, 0⟩ : Thread_).call c = match c with
    | .start => .error .terminate
    | .join => .ok ⟨true, true, some .released, 0⟩ := by
  cases c <;> simp [call, start, create, join, Except.map]

/-- **Where the calls can lead.** -/
theorem calls_ok {cs : List ThreadCall} {t : Thread_} (h : new.calls cs = .ok t) :
    ∃ k, (cs = pairs k ∧ t = rested k) ∨
      (cs = pairs k ++ [.start] ∧ t = ⟨true, 0 < k, some .joinable, 0⟩) := by
  induction cs using List.reverseRecOn generalizing t with
  | nil => exact ⟨0, .inl ⟨rfl, (Except.ok.inj h).symm⟩⟩
  | append_singleton cs c ih =>
    rw [calls_concat] at h
    cases hcs : new.calls cs with
    | error e =>
      rw [hcs] at h
      cases h
    | ok t' =>
      rw [hcs] at h
      have h : t'.call c = .ok t := h
      obtain ⟨k, ⟨rfl, rfl⟩ | ⟨rfl, rfl⟩⟩ := ih hcs
      · rw [call_rested] at h
        cases c with
        | start => exact ⟨k, .inr ⟨rfl, (Except.ok.inj h).symm⟩⟩
        | join => cases h
      · rw [call_running] at h
        cases c with
        | start => cases h
        | join =>
          refine ⟨k + 1, .inl ⟨by rw [pairs_succ, List.append_assoc]; rfl, ?_⟩⟩
          rw [rested, ← Except.ok.inj h]
          simp

theorem calls_pairs (k : Nat) : new.calls (pairs k) = .ok (rested k) := by
  induction k with
  | zero => rfl
  | succ k ih =>
    rw [pairs_succ, show pairs k ++ [.start, .join] = pairs k ++ [.start] ++ [.join] by simp,
      calls_concat, calls_concat, ih]
    show ((rested k).call .start).bind _ = _
    rw [call_rested]
    show (⟨true, 0 < k, some .joinable, 0⟩ : Thread_).call .join = _
    rw [call_running]
    simp [rested]

/-- **The lives that do not fail.** Whatever is called on an object and then its destructor, no call
uses a null pointer, throws or destroys a running thread, iff the object is started at most once, or
every `start` is joined before the next call. And `tid()` is zero all the time. -/
theorem life_ok_iff (cs : List ThreadCall) :
    (life cs = .ok () ↔ cs = [.start] ∨ ∃ k, cs = pairs k) ∧
    ∀ t, new.calls cs = .ok t → t.tid = 0 := by
  refine ⟨⟨fun h => ?_, fun h => ?_⟩, fun t ht => ?_⟩
  · cases hcs : new.calls cs with
    | error e =>
      rw [life, hcs] at h
      cases h
    | ok t =>
      obtain ⟨k, ⟨rfl, -⟩ | ⟨rfl, rfl⟩⟩ := calls_ok hcs
      · exact .inr ⟨k, rfl⟩
      · have hk : ¬ 0 < k := fun hk => by
          rw [life, hcs] at h
          simp [Except.bind, destroy, hk] at h
        obtain rfl : k = 0 := by omega
        exact .inl rfl
  · obtain rfl | ⟨k, rfl⟩ := h
    · rfl
    · rw [life, calls_pairs]
      show (rested k).destroy = .ok ()
      by_cases hk : 0 < k <;> simp [rested, destroy, hk]
  · obtain ⟨k, ⟨-, rfl⟩ | ⟨-, rfl⟩⟩ := calls_ok ht <;> rfl

/-- A thread that is started again and not joined again is not detached. -/
example : life [.start, .join, .start] = .error .terminate := by decide

end Thread_

end WebCore
