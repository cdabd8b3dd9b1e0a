import WebCore.PollerFailure

/-!
# A channel without interest

`updateChannel` looks at `index_` first. Only for a channel that is `KAdded` does it ask whether
there is any interest left; a channel that is not is added to the kernel's set whatever its mask.

**Theorem (`unregistered_iff`).** An operation that leaves no interest leaves the descriptor out of
the kernel's set iff the channel was `KAdded` before it, and `disableAll` is never idempotent: each
call undoes the registration of the one before.
-/

namespace WebCore

open Transition

namespace EpollPoller

variable {C : Type*} {p : EpollPoller C} {c : C}

/-- The operations that take interest away. -/
def disabling : List ChannelOp := [.disableReading, .disableWriting, .disableAll]

/-- What the kernel holds after one `epoll_ctl` for `c`. -/
theorem update_absent_iff (nomem : Bool) (op : EpollOp) (hop : op ≠ .ctlMod) :
    (p.update nomem op c).interest (p.channel c).fd = none ↔
      if nomem = true then p.interest (p.channel c).fd = none else op = .ctlDel := by
  cases nomem with
  | true => simp [update, epollCtl]
  | false =>
    cases hev : p.interest (p.channel c).fd <;> cases op <;> simp_all [update, epollCtl]

variable [DecidableEq C]

/-- **An update without interest**: the index decides between ADD and DEL. -/
theorem updateChannel_absent_iff (nomem : Bool) (hnone : (p.channel c).isNoneEvent = true) :
    (p.updateChannel nomem c).interest (p.channel c).fd = none ↔
      if nomem = true then p.interest (p.channel c).fd = none
      else (p.channel c).index = .kAdded := by
  unfold updateChannel
  cases hi : (p.channel c).index with
  | kNew =>
    have h := update_absent_iff (p := (p.setEntry (p.channel c).fd (some c)).setIndex c .kAdded)
      (c := c) nomem .ctlAdd (by simp)
    simpa [setIndex, setEntry] using h
  | kDeleted =>
    have h := update_absent_iff (p := p.setIndex c .kAdded) (c := c) nomem .ctlAdd (by simp)
    simpa [setIndex] using h
  | kAdded =>
    have h := update_absent_iff (p := p) (c := c) nomem .ctlDel (by simp)
    simpa [hnone, setIndex] using h

theorem apply_absent_iff {op : ChannelOp} (hop : op ∈ disabling) (nomem : Bool)
    (hnone : ((p.apply nomem op c).channel c).events = kNoneEvent) :
    (p.apply nomem op c).interest (p.channel c).fd = none ↔
      if nomem = true then p.interest (p.channel c).fd = none
      else (p.channel c).index = .kAdded := by
  have hne : op ≠ .remove := by rintro rfl; simp [disabling] at hop
  rw [channel_apply hne] at hnone
  have h := updateChannel_absent_iff (p := p.setEvents c (maskAfter op (p.channel c).events))
    (c := c) nomem (by simpa [setEvents, Channel.isNoneEvent] using hnone)
  simp only [setEvents, channel_modify_self, interest_modify] at h
  rw [← h]
  cases op with
  | enableReading | enableWriting | remove => simp [disabling] at hop
  | disableReading | disableWriting | disableAll => rfl

/-- `disableAll` takes a registered channel out, and puts any other in. -/
theorem index_disableAll (nomem : Bool) :
    ((p.apply nomem .disableAll c).channel c).index =
      if (p.channel c).index = .kAdded then .kDeleted else .kAdded := by
  rw [channel_apply (by simp)]
  simp [maskAfter]

theorem fd_failRun {fd : C → Int} {as : List (Bool × ChannelOp × C)}
    (h : run failStep (new fd) as = some p) (c : C) : (p.channel c).fd = fd c := by
  have hfds := run_invariant (fun p : EpollPoller C => ∀ c, (p.channel c).fd = fd c) ?_
    (fun _ => rfl) h
  · exact hfds c
  · intro s a s' hs hstep c
    obtain rfl := Option.some.inj hstep
    rw [(apply_frame a.1 a.2.1 a.2.2 s).fd_eq c, hs c]

/-- **No interest means not registered iff the channel was `KAdded`.** In every state that
operations lead to, with any pattern of failures: an operation that leaves `events` empty leaves
the descriptor out of the kernel's set iff `index` was `KAdded` before it, or, where its own
`epoll_ctl` runs out of memory, iff the descriptor was out before. And `disableAll` twice never
leaves the `index` that `disableAll` once has left. -/
theorem unregistered_iff (fd : C → Int) (as : List (Bool × ChannelOp × C)) (p : EpollPoller C)
    (h : run failStep (new fd) as = some p) (c : C) (nomem : Bool) :
    (∀ op ∈ disabling, ((p.apply nomem op c).channel c).events = kNoneEvent →
      ((p.apply nomem op c).interest (fd c) = none ↔
        if nomem = true then p.interest (fd c) = none else (p.channel c).index = .kAdded)) ∧
    ∀ nomem', (((p.apply nomem .disableAll c).apply nomem' .disableAll c).channel c).index ≠
      ((p.apply nomem .disableAll c).channel c).index := by
  refine ⟨fun op hop hnone => ?_, fun nomem' => ?_⟩
  · rw [← fd_failRun h c]
    exact apply_absent_iff hop nomem hnone
  · rw [index_disableAll nomem', index_disableAll nomem]
    split <;> simp

/-- The first channel is registered and the second deleted. -/
def oneOfTwo : List (Bool × ChannelOp × Bool) :=
  [(false, .enableReading, true), (false, .enableReading, false), (false, .disableAll, false)]

theorem unregistered_oneOfTwo : ∃ p, run failStep (new twoFd) oneOfTwo = some p ∧
    (p.apply false .disableReading true).interest 3 = none ∧
    (p.apply false .disableReading false).interest 4 ≠ none := by
  refine ⟨_, rfl, ?_, ?_⟩
  · exact ((unregistered_iff twoFd oneOfTwo _ rfl true false).1 .disableReading (by decide)
      (by decide)).2 (by decide)
  · exact fun h => absurd (((unregistered_iff twoFd oneOfTwo _ rfl false false).1 .disableReading
      (by decide) (by decide)).1 h) (by decide)

/-- **The second `disableAll` registers the channel**, with an empty mask, and so does one on a
channel that is new. -/
theorem disabled_registered :
    let once := ((new twoFd).apply false .enableReading true).apply false .disableAll true
    let twice := once.apply false .disableAll true
    (once.interest 3 = none ∧ (once.channel true).index = .kDeleted) ∧
    (twice.interest 3 = some ⟨kNoneEvent, true⟩ ∧ (twice.channel true).index = .kAdded ∧
      (twice.channel true).events = kNoneEvent) ∧
    ((new twoFd).apply false .disableAll true).interest 3 = some ⟨kNoneEvent, true⟩ := by
  decide

end EpollPoller

end WebCore
