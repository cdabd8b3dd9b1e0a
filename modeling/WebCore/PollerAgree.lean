import WebCore.Poller

/-!
# Poller and kernel agree

The registration of a channel is kept three times: in its `index`, in the poller's `channels` and
in the kernel's interest set. `Agrees p c` says that the three tell the same about `c` and that
the kernel holds the channel's own mask and pointer.

**Theorem (`poller_agrees`).** Over channels with pairwise distinct descriptors, any sequence of
channel operations keeps every channel in agreement, and no `epoll_ctl` of the run fails.

An operation touches one channel only (`apply_frame`), and on that channel it needs less than
agreement: between the assignment to `events` and the `epoll_ctl`, the kernel's mask is stale, and
only `Tracked` holds.
-/

namespace WebCore

theorem EventMask.has_or_self (events : EventMask) {bits : EventMask} (h : bits ≠ 0#32) :
    EventMask.has (events ||| bits) bits = true := by
  have habsorb : (events ||| bits) &&& bits = bits := by
    ext i; simp only [BitVec.getElem_and, BitVec.getElem_or]; grind
  simpa [has, habsorb] using h

namespace EpollPoller

variable {C : Type*}

/-! ## One system call -/

section SystemCall

variable {p : EpollPoller C} {c : C}

@[simp] theorem channel_update (nomem : Bool) (op : EpollOp) :
    (p.update nomem op c).channel = p.channel := by
  unfold update; split <;> rfl

@[simp] theorem channels_update (nomem : Bool) (op : EpollOp) :
    (p.update nomem op c).channels = p.channels := by
  unfold update; split <;> rfl

theorem update_add (h : p.interest (p.channel c).fd = none) :
    p.update false .ctlAdd c =
      ⟨p.channel, p.channels,
        Function.update p.interest (p.channel c).fd (some ⟨(p.channel c).events, c⟩),
        p.failed⟩ := by
  simp [update, epollCtl, h]

theorem update_mod {ev : EpollEvent C} (h : p.interest (p.channel c).fd = some ev) :
    p.update false .ctlMod c =
      ⟨p.channel, p.channels,
        Function.update p.interest (p.channel c).fd (some ⟨(p.channel c).events, c⟩),
        p.failed⟩ := by
  simp [update, epollCtl, h]

theorem update_del {ev : EpollEvent C} (h : p.interest (p.channel c).fd = some ev) :
    p.update false .ctlDel c =
      ⟨p.channel, p.channels, Function.update p.interest (p.channel c).fd none, p.failed⟩ := by
  simp [update, epollCtl, h]

end SystemCall

/-! ## What the three copies say -/

/-- The three copies tell the same about `c`; the kernel's mask may be an old one. -/
structure Tracked (p : EpollPoller C) (c : C) : Prop where
  channels_eq : p.channels (p.channel c).fd =
    if (p.channel c).index = .kNew then none else some c
  interest_iff : (p.interest (p.channel c).fd).isSome ↔ (p.channel c).index = .kAdded

/-- The three copies tell the same about `c`, and the kernel holds its mask and pointer. -/
structure Agrees (p : EpollPoller C) (c : C) : Prop where
  channels_eq : p.channels (p.channel c).fd =
    if (p.channel c).index = .kNew then none else some c
  interest_eq : p.interest (p.channel c).fd =
    if (p.channel c).index = .kAdded then some ⟨(p.channel c).events, c⟩ else none

theorem Agrees.tracked {p : EpollPoller C} {c : C} (h : Agrees p c) : Tracked p c :=
  ⟨h.channels_eq, by rw [h.interest_eq]; split <;> simp_all⟩

theorem Tracked.interest_none {p : EpollPoller C} {c : C} (h : Tracked p c)
    (hi : (p.channel c).index ≠ .kAdded) : p.interest (p.channel c).fd = none := by
  cases hev : p.interest (p.channel c).fd with
  | none => rfl
  | some ev => exact absurd (h.interest_iff.1 (by simp [hev])) hi

/-- Nothing changes but for the channel `c` and its descriptor, which it keeps. -/
structure Frame (c : C) (p p' : EpollPoller C) : Prop where
  fd : (p'.channel c).fd = (p.channel c).fd
  channel : ∀ c' ≠ c, p'.channel c' = p.channel c'
  channels : ∀ fd ≠ (p.channel c).fd, p'.channels fd = p.channels fd
  interest : ∀ fd ≠ (p.channel c).fd, p'.interest fd = p.interest fd

theorem Frame.refl (c : C) (p : EpollPoller C) : Frame c p p :=
  ⟨rfl, fun _ _ => rfl, fun _ _ => rfl, fun _ _ => rfl⟩

theorem Frame.trans {c : C} {p₁ p₂ p₃ : EpollPoller C} (h : Frame c p₁ p₂) (h' : Frame c p₂ p₃) :
    Frame c p₁ p₃ where
  fd := h'.fd.trans h.fd
  channel c' hc := (h'.channel c' hc).trans (h.channel c' hc)
  channels fd hfd := (h'.channels fd (by rwa [h.fd])).trans (h.channels fd hfd)
  interest fd hfd := (h'.interest fd (by rwa [h.fd])).trans (h.interest fd hfd)

theorem Frame.fd_eq {p p' : EpollPoller C} {c : C} (hf : Frame c p p') (c' : C) :
    (p'.channel c').fd = (p.channel c').fd := by
  by_cases hc : c' = c
  · rw [hc, hf.fd]
  · rw [hf.channel c' hc]

theorem Agrees.of_frame {p p' : EpollPoller C} {c c' : C} (h : Agrees p c') (hf : Frame c p p')
    (hne : c' ≠ c) (hfd : (p.channel c').fd ≠ (p.channel c).fd) : Agrees p' c' := by
  constructor
  · rw [hf.channel c' hne, hf.channels _ hfd]; exact h.channels_eq
  · rw [hf.channel c' hne, hf.interest _ hfd]; exact h.interest_eq

/-- Every channel is in agreement, the descriptors are distinct, and no call has failed. -/
structure Sound (p : EpollPoller C) : Prop where
  agrees : ∀ c, Agrees p c
  distinct : Function.Injective fun c => (p.channel c).fd
  failed_eq : p.failed = 0

theorem sound_new {fd : C → Int} (hfd : Function.Injective fd) : Sound (new fd) :=
  ⟨fun _ => ⟨rfl, rfl⟩, hfd, rfl⟩

/-- Nothing changes but `revents`. -/
structure SameRegistration (p p' : EpollPoller C) : Prop where
  channel : ∀ c, ∃ revents, p'.channel c = { p.channel c with revents }
  channels : p'.channels = p.channels
  interest : p'.interest = p.interest
  failed : p'.failed = p.failed

theorem SameRegistration.refl (p : EpollPoller C) : SameRegistration p p :=
  ⟨fun _ => ⟨_, rfl⟩, rfl, rfl, rfl⟩

theorem SameRegistration.trans {p₁ p₂ p₃ : EpollPoller C} (h : SameRegistration p₁ p₂)
    (h' : SameRegistration p₂ p₃) : SameRegistration p₁ p₃ where
  channel c := by
    obtain ⟨r, hr⟩ := h.channel c
    obtain ⟨r', hr'⟩ := h'.channel c
    exact ⟨r', by rw [hr', hr]⟩
  channels := h'.channels.trans h.channels
  interest := h'.interest.trans h.interest
  failed := h'.failed.trans h.failed

theorem Sound.sameRegistration {p p' : EpollPoller C} (h : Sound p)
    (hsame : SameRegistration p p') : Sound p' where
  agrees c := by
    obtain ⟨r, hr⟩ := hsame.channel c
    constructor
    · rw [hr, hsame.channels]; exact (h.agrees c).channels_eq
    · rw [hr, hsame.interest]; exact (h.agrees c).interest_eq
  distinct c c' he := by
    obtain ⟨r, hr⟩ := hsame.channel c
    obtain ⟨r', hr'⟩ := hsame.channel c'
    simp only [hr, hr'] at he
    exact h.distinct he
  failed_eq := by rw [hsame.failed, h.failed_eq]

variable [DecidableEq C] {p : EpollPoller C} {c : C}

theorem Agrees.hasChannel_iff (h : Agrees p c) :
    p.hasChannel c = true ↔ (p.channel c).index ≠ .kNew := by
  rw [hasChannel, h.channels_eq]; split <;> simp_all

theorem Sound.of_frame {p' : EpollPoller C} (h : Sound p) (hf : Frame c p p')
    (hown : Agrees p' c ∧ p'.failed = p.failed) : Sound p' where
  agrees c' := by
    by_cases hc : c' = c
    · rw [hc]; exact hown.1
    · exact (h.agrees c').of_frame hf hc fun he => hc (h.distinct he)
  distinct := by simpa only [hf.fd_eq] using h.distinct
  failed_eq := by rw [hown.2, h.failed_eq]

/-! ## Assignments to a channel -/

section Modify

variable (p c) (f : Channel → Channel)

@[simp] theorem channel_modify_self : (p.modify c f).channel c = f (p.channel c) := by
  simp [modify]

theorem channel_modify_of_ne {c' : C} (h : c' ≠ c) :
    (p.modify c f).channel c' = p.channel c' := by
  simp [modify, h]

@[simp] theorem channels_modify : (p.modify c f).channels = p.channels := rfl

@[simp] theorem interest_modify : (p.modify c f).interest = p.interest := rfl

@[simp] theorem failed_modify : (p.modify c f).failed = p.failed := rfl

theorem setEvents_frame (events : EventMask) : Frame c p (p.setEvents c events) :=
  ⟨by simp [setEvents], fun _ hc => channel_modify_of_ne p c _ hc, fun _ _ => rfl, fun _ _ => rfl⟩

theorem setIndex_frame (index : ChannelIndex) : Frame c p (p.setIndex c index) :=
  ⟨by simp [setIndex], fun _ hc => channel_modify_of_ne p c _ hc, fun _ _ => rfl, fun _ _ => rfl⟩

end Modify

theorem Tracked.setEvents (h : Tracked p c) (events : EventMask) :
    Tracked (p.setEvents c events) c := by
  constructor
  · simpa [EpollPoller.setEvents] using h.channels_eq
  · simpa [EpollPoller.setEvents] using h.interest_iff

/-! ## Other channels -/

omit [DecidableEq C] in
theorem update_frame (nomem : Bool) (op : EpollOp) (p : EpollPoller C) :
    Frame c p (p.update nomem op c) := by
  unfold update
  split
  · rename_i interest h
    refine ⟨rfl, fun _ _ => rfl, fun _ _ => rfl, fun fd hfd => ?_⟩
    unfold epollCtl at h
    split at h
    · cases h
    · split at h <;> cases h <;> exact Function.update_of_ne hfd _ _
  · exact ⟨rfl, fun _ _ => rfl, fun _ _ => rfl, fun _ _ => rfl⟩

omit [DecidableEq C] in
theorem setEntry_frame (entry : Option C) (p : EpollPoller C) :
    Frame c p (p.setEntry (p.channel c).fd entry) :=
  ⟨rfl, fun _ _ => rfl, fun _ hfd => Function.update_of_ne hfd _ _, fun _ _ => rfl⟩

theorem updateChannel_frame (nomem : Bool) (p : EpollPoller C) :
    Frame c p (p.updateChannel nomem c) := by
  unfold updateChannel
  split
  · exact (setEntry_frame (some c) p).trans ((setIndex_frame _ c _).trans (update_frame nomem _ _))
  · exact (setIndex_frame p c _).trans (update_frame nomem _ _)
  · split
    · exact (update_frame nomem .ctlDel p).trans (setIndex_frame _ c _)
    · exact update_frame nomem .ctlMod p

theorem removeChannel_frame (nomem : Bool) (p : EpollPoller C) :
    Frame c p (p.removeChannel nomem c) := by
  unfold removeChannel
  split
  · exact .refl c p
  · split
    · exact (setEntry_frame none p).trans ((update_frame nomem _ _).trans (setIndex_frame _ c _))
    · exact (setEntry_frame none p).trans (setIndex_frame _ c _)

/-- **An operation touches its own channel only.** -/
theorem apply_frame (nomem : Bool) (op : ChannelOp) (c : C) (p : EpollPoller C) :
    Frame c p (p.apply nomem op c) := by
  cases op with
  | remove => exact removeChannel_frame nomem p
  | enableReading | disableReading | enableWriting | disableWriting | disableAll =>
    exact (setEvents_frame p c _).trans (updateChannel_frame nomem _)

/-! ## The operation's own channel -/

theorem updateChannel_agrees (h : Tracked p c) :
    Agrees (p.updateChannel false c) c ∧ (p.updateChannel false c).failed = p.failed := by
  have hch := h.channels_eq
  unfold updateChannel
  split
  · rename_i hi
    have hnone := h.interest_none (by simp [hi])
    rw [update_add (by simpa [setIndex, setEntry] using hnone)]
    exact ⟨⟨by simp [setIndex, setEntry], by simp [setIndex, setEntry]⟩, rfl⟩
  · rename_i hi
    have hnone := h.interest_none (by simp [hi])
    rw [update_add (by simpa [setIndex] using hnone)]
    exact ⟨⟨by simpa [setIndex, hi] using hch, by simp [setIndex]⟩, rfl⟩
  · rename_i hi
    obtain ⟨ev, hev⟩ := Option.isSome_iff_exists.1 (h.interest_iff.2 hi)
    split
    · rw [update_del hev]
      exact ⟨⟨by simpa [setIndex, hi] using hch, by simp [setIndex]⟩, rfl⟩
    · rw [update_mod hev]
      exact ⟨⟨by simpa [hi] using hch, by simp [hi]⟩, rfl⟩

theorem removeChannel_agrees (h : Agrees p c) :
    Agrees (p.removeChannel false c) c ∧ (p.removeChannel false c).failed = p.failed := by
  have hin := h.interest_eq
  unfold removeChannel
  split
  · exact ⟨h, rfl⟩
  · split
    · rename_i hi
      rw [if_pos hi] at hin
      rw [update_del (by simpa [setEntry] using hin)]
      exact ⟨⟨by simp [setIndex, setEntry], by simp [setIndex, setEntry]⟩, rfl⟩
    · rename_i hi
      rw [if_neg hi] at hin
      exact ⟨⟨by simp [setIndex, setEntry], by simpa [setIndex, setEntry] using hin⟩, rfl⟩

/-- An operation leaves its own channel in agreement, and its `epoll_ctl` succeeds. -/
theorem apply_agrees (op : ChannelOp) (h : Agrees p c) :
    Agrees (p.apply false op c) c ∧ (p.apply false op c).failed = p.failed := by
  cases op with
  | remove => exact removeChannel_agrees h
  | enableReading | disableReading | enableWriting | disableWriting | disableAll =>
    exact updateChannel_agrees (h.tracked.setEvents _)

/-- The mask that an operation asks for. -/
def maskAfter (op : ChannelOp) (events : EventMask) : EventMask :=
  match op with
  | .enableReading => events ||| kReadEvent
  | .disableReading => events &&& ~~~kReadEvent
  | .enableWriting => events ||| kWriteEvent
  | .disableWriting => events &&& ~~~kWriteEvent
  | .disableAll => kNoneEvent
  | .remove => events

theorem channel_updateChannel (nomem : Bool) :
    (p.updateChannel nomem c).channel c = { p.channel c with
      index := if (p.channel c).index = .kAdded ∧ (p.channel c).isNoneEvent = true then .kDeleted
               else .kAdded } := by
  unfold updateChannel
  split
  · rename_i hi
    simp [setIndex, setEntry, hi]
  · rename_i hi
    simp [setIndex, hi]
  · rename_i hi
    split
    · rename_i hnone
      simp [setIndex, hi, hnone]
    · rename_i hnone
      rw [channel_update, if_neg (fun h => hnone h.2), ← hi]

/-- The record of its own channel after an operation that is not `remove`. -/
theorem channel_apply {op : ChannelOp} (hop : op ≠ .remove) (nomem : Bool) :
    (p.apply nomem op c).channel c = { p.channel c with
      events := maskAfter op (p.channel c).events
      index := if (p.channel c).index = .kAdded ∧
                 (maskAfter op (p.channel c).events == kNoneEvent) = true
               then .kDeleted else .kAdded } := by
  cases op with
  | remove => exact absurd rfl hop
  | enableReading | disableReading | enableWriting | disableWriting | disableAll =>
    refine (channel_updateChannel nomem).trans ?_
    simp only [setEvents, channel_modify_self, Channel.isNoneEvent, maskAfter]
    rfl

/-- A removed channel is new again. -/
theorem channel_apply_remove (h : Agrees p c) (nomem : Bool) :
    (p.apply nomem .remove c).channel c = { p.channel c with index := .kNew } := by
  have hch := h.channels_eq
  show (p.removeChannel nomem c).channel c = _
  unfold removeChannel
  split
  · rename_i hnone
    rw [hnone] at hch
    have hi : (p.channel c).index = .kNew := by
      by_contra hi
      rw [if_neg hi] at hch
      cases hch
    rw [← hi]
  · split <;> simp [setIndex, setEntry]

/-- No operation touches a mask that the kernel has reported. -/
theorem revents_apply (h : Agrees p c) (nomem : Bool) (op : ChannelOp) :
    ((p.apply nomem op c).channel c).revents = (p.channel c).revents := by
  by_cases hop : op = .remove
  · rw [hop, channel_apply_remove h]
  · rw [channel_apply hop]

theorem Sound.apply (h : Sound p) (op : ChannelOp) (c : C) : Sound (p.apply false op c) :=
  h.of_frame (apply_frame false op c p) (apply_agrees op (h.agrees c))

/-! ## Reported events -/

theorem setRevents_sameRegistration (p : EpollPoller C) (c : C) (revents : EventMask) :
    SameRegistration p (p.setRevents c revents) where
  channel c' := by
    by_cases hc : c' = c
    · exact ⟨revents, by simp [hc, setRevents]⟩
    · exact ⟨(p.channel c').revents, channel_modify_of_ne p c _ hc⟩
  channels := rfl
  interest := rfl
  failed := rfl

theorem fillActiveChannels_sameRegistration (active : List (C × EventMask)) (p : EpollPoller C) :
    SameRegistration p (p.fillActiveChannels active) := by
  induction active generalizing p with
  | nil => exact .refl p
  | cons ev active ih => exact (setRevents_sameRegistration p ev.1 ev.2).trans (ih _)

/-! ## Runs -/

theorem Sound.runOps (h : Sound p) (ops : List (ChannelOp × C)) : Sound (p.runOps ops) := by
  induction ops generalizing p with
  | nil => exact h
  | cons op ops ih => exact ih (h.apply op.1 op.2)

theorem fd_runOps (ops : List (ChannelOp × C)) (p : EpollPoller C) (c : C) :
    ((p.runOps ops).channel c).fd = (p.channel c).fd := by
  induction ops generalizing p with
  | nil => rfl
  | cons op ops ih => exact (ih _).trans ((apply_frame false op.1 op.2 p).fd_eq c)

/-- **Poller and kernel agree.** After any sequence of operations on channels with distinct
descriptors, `channels` maps a descriptor to its channel iff `index ≠ kNew`, which is also what
`hasChannel` answers; the kernel holds the descriptor iff `index = kAdded`, with the channel's mask
and pointer; and no `epoll_ctl` has failed. -/
theorem poller_agrees (fd : C → Int) (hfd : Function.Injective fd)
    (ops : List (ChannelOp × C)) :
    let p := (new fd).runOps ops
    (∀ c, (p.channel c).fd = fd c ∧
      (p.channels (fd c) = some c ↔ (p.channel c).index ≠ .kNew) ∧
      (p.hasChannel c = true ↔ (p.channel c).index ≠ .kNew) ∧
      ((p.interest (fd c)).isSome ↔ (p.channel c).index = .kAdded) ∧
      ∀ ev, p.interest (fd c) = some ev → ev = ⟨(p.channel c).events, c⟩) ∧
    p.failed = 0 := by
  intro p
  have h : Sound p := (sound_new hfd).runOps ops
  have hfds : ∀ c, (p.channel c).fd = fd c := fd_runOps ops (new fd)
  refine ⟨fun c => ?_, h.failed_eq⟩
  have hc := h.agrees c
  have hmap := hc.channels_eq
  have hker := hc.interest_eq
  rw [hfds c] at hmap hker
  refine ⟨hfds c, ?_, hc.hasChannel_iff, ?_, fun ev hev => ?_⟩
  · rw [hmap]; split <;> simp_all
  · rw [hker]; split <;> simp_all
  · rw [hker] at hev
    split at hev
    · exact (Option.some.inj hev).symm
    · cases hev

/-- Two channels: the first is deleted and added again, the second is removed. -/
theorem poller_agrees_two :
    let fd : Bool → Int := fun c => if c then 3 else 4
    let p := (new fd).runOps [(.enableReading, true), (.enableWriting, false), (.disableAll, true),
      (.remove, false), (.enableReading, true)]
    p.hasChannel true = true ∧ p.hasChannel false = false ∧ p.failed = 0 := by
  intro fd p
  have h := poller_agrees fd (by decide) [(.enableReading, true), (.enableWriting, false),
    (.disableAll, true), (.remove, false), (.enableReading, true)]
  exact ⟨(h.1 true).2.2.1.2 (by decide),
    Bool.not_eq_true _ ▸ mt (h.1 false).2.2.1.1 (by decide), h.2⟩

end EpollPoller

end WebCore
