import WebCore.Owners

/-!
# Descriptors that are used again

A descriptor is an index into a table of the process, and the kernel gives the lowest free one to
the next `accept`. So connections that follow each other, on one loop or on different ones, share a
descriptor, and their channels may share an address. Closing a descriptor takes it out of every
interest set that it is in, without a word to the poller.

`Tidy s` says that the map of each poller, and the interest set that the kernel keeps for it, have
an entry for channels of that loop only, whose descriptor is open.

**Theorem (`descriptors_tidy`).** In every run in which a channel has been removed, and is not among
the active ones, when its descriptor is closed, `poll` never returns a pointer to a channel that is
no more, poller and kernel agree about every channel, and no `epoll_ctl` fails.

The three owners of channels keep to that: `Acceptor` and `EventLoop` call `disableAll` and `remove`
before they close (`index_teardown`), and a connection that has lost its last owner has been
removed (`unowned_removed`).
-/

namespace WebCore

open Transition

/-! ## The model -/

/-- One entry of the array that `epoll_wait` fills. -/
structure Report (C : Type*) where
  fd : Int
  ptr : C
  events : EventMask

/-- The loops `L` of a process, the channels at the addresses `C`, and the descriptors. -/
structure DescriptorSystem (L C : Type*) where
  /-- the record of a channel is in the poller of its loop -/
  poller : L → EpollPoller C
  /-- the loop of a channel that exists -/
  owner : C → Option L
  /-- the channel of a descriptor that is open -/
  files : Int → Option C
  /-- what each loop still has to dispatch of `activeChannels_` -/
  activeChannels : L → List C

inductive DescriptorAction (L C : Type*)
  /-- a socket is opened, and its channel created -/
  | create (l : L) (c : C) (fd : Int)
  | channelOp (op : ChannelOp) (c : C)
  | poll (l : L) (reports : List (Report C))
  /-- the loop is done with its next active channel -/
  | dispatch (l : L)
  /-- the socket is closed, and its channel destroyed -/
  | close (c : C)

namespace EpollPoller

variable {C : Type*} [DecidableEq C]

/-- The kernel can report this: the descriptor is registered with this pointer and for these
events. -/
def mayReport (p : EpollPoller C) (r : Report C) : Bool :=
  (p.interest r.fd).any fun reg => reg.ptr == r.ptr && r.events.reportedFor reg.events

/-- What the `close` of a descriptor does to an interest set. -/
def forget (fd : Int) (p : EpollPoller C) : EpollPoller C :=
  { p with interest := Function.update p.interest fd none }

end EpollPoller

namespace DescriptorSystem

variable {L C : Type*}

/-- No descriptor is open. -/
def new : DescriptorSystem L C :=
  ⟨fun _ => .new fun _ => -1, fun _ => none, fun _ => none, fun _ => []⟩

/-- The descriptor of a channel, by its record in the loop `l`. -/
def fd (s : DescriptorSystem L C) (l : L) (c : C) : Int := ((s.poller l).channel c).fd

variable [DecidableEq L] [DecidableEq C]

def setPoller (l : L) (p : EpollPoller C) (s : DescriptorSystem L C) : DescriptorSystem L C :=
  { s with poller := Function.update s.poller l p }

/-- The state when a channel has been created. -/
def created (l : L) (c : C) (fd : Int) (s : DescriptorSystem L C) : DescriptorSystem L C :=
  { s.setPoller l ((s.poller l).modify c fun _ => .new fd) with
    owner := Function.update s.owner c (some l)
    files := Function.update s.files fd (some c) }

/-- The state when the descriptor of a channel of the loop `l` has been closed. -/
def closed (l : L) (c : C) (s : DescriptorSystem L C) : DescriptorSystem L C where
  poller l' := (s.poller l').forget (s.fd l c)
  owner := Function.update s.owner c none
  files := Function.update s.files (s.fd l c) none
  activeChannels := s.activeChannels

def step (s : DescriptorSystem L C) : DescriptorAction L C → Option (DescriptorSystem L C)
  | .create l c fd =>
    if s.owner c = none ∧ s.files fd = none then some (s.created l c fd) else none
  | .channelOp op c => (s.owner c).map fun l => s.setPoller l ((s.poller l).apply false op c)
  | .poll l reports =>
    if s.activeChannels l = [] ∧ reports.all (s.poller l).mayReport ∧
        (reports.map Report.fd).Nodup then
      some { s.setPoller l
          ((s.poller l).fillActiveChannels (reports.map fun r => (r.ptr, r.events))) with
        activeChannels := Function.update s.activeChannels l (reports.map Report.ptr) }
    else none
  | .dispatch l =>
    match s.activeChannels l with
    | _ :: rest => some { s with activeChannels := Function.update s.activeChannels l rest }
    | [] => none
  | .close c => (s.owner c).map fun l => s.closed l c

/-- A channel whose descriptor is closed has been removed, and no loop is to dispatch to it. -/
def RemovedBeforeClose (s : DescriptorSystem L C) : DescriptorAction L C → Prop
  | .close c => ∀ l ∈ s.owner c,
      ((s.poller l).channel c).index = .kNew ∧ c ∉ s.activeChannels l
  | _ => True

instance (s : DescriptorSystem L C) : ∀ a, Decidable (s.RemovedBeforeClose a)
  | .close c => inferInstanceAs (Decidable (∀ l ∈ s.owner c,
      ((s.poller l).channel c).index = .kNew ∧ c ∉ s.activeChannels l))
  | .create _ _ _ | .channelOp _ _ | .poll _ _ | .dispatch _ => inferInstanceAs (Decidable True)

/-! ## The invariant -/

/-- Every entry is that of a channel which exists, on its loop and on its descriptor. -/
structure Tidy (s : DescriptorSystem L C) : Prop where
  agrees : ∀ c l, s.owner c = some l → (s.poller l).Agrees c
  files : ∀ fd c, s.files fd = some c ↔ ∃ l, s.owner c = some l ∧ s.fd l c = fd
  channels : ∀ l fd c, (s.poller l).channels fd = some c → s.owner c = some l ∧ s.fd l c = fd
  interest : ∀ l fd ev, (s.poller l).interest fd = some ev →
    s.owner ev.ptr = some l ∧ s.fd l ev.ptr = fd
  active : ∀ l, ∀ c ∈ s.activeChannels l, s.owner c = some l
  failed : ∀ l, (s.poller l).failed = 0

/-! ## Steps -/

section Steps

variable {s s' : DescriptorSystem L C}

omit [DecidableEq L] [DecidableEq C] in
/-- Channels on one descriptor are one. -/
theorem Tidy.eq_of_fd (h : Tidy s) {l l' : L} {c c' : C} (hc : s.owner c = some l)
    (hc' : s.owner c' = some l') (hfd : s.fd l c = s.fd l' c') : c = c' := by
  have hfile := (h.files (s.fd l' c') c).2 ⟨l, hc, hfd⟩
  exact Option.some.inj (hfile.symm.trans ((h.files _ c').2 ⟨l', hc', rfl⟩))

omit [DecidableEq L] [DecidableEq C] in
theorem tidy_new : Tidy (new : DescriptorSystem L C) := by
  refine ⟨nofun, fun fd c => ?_, nofun, nofun, nofun, fun _ => rfl⟩
  constructor
  · exact nofun
  · rintro ⟨l, ho, -⟩
    cases ho

omit [DecidableEq C] in
theorem poller_setPoller (l l' : L) (p : EpollPoller C) (s : DescriptorSystem L C) :
    (s.setPoller l p).poller l' = if l' = l then p else s.poller l' := by
  simp [setPoller, Function.update_apply]

/-- An operation on a channel that exists. -/
theorem Tidy.channelOp (h : Tidy s) {l : L} {c : C} (ho : s.owner c = some l) (op : ChannelOp) :
    Tidy (s.setPoller l ((s.poller l).apply false op c)) := by
  have hf := EpollPoller.apply_frame false op c (s.poller l)
  obtain ⟨hown, hfail⟩ := EpollPoller.apply_agrees op (h.agrees c l ho)
  have hfd : ∀ l' c', (s.setPoller l ((s.poller l).apply false op c)).fd l' c' = s.fd l' c' := by
    intro l' c'
    rw [fd, poller_setPoller]
    split
    · rename_i hl
      rw [hl]
      exact hf.fd_eq c'
    · rfl
  refine ⟨fun c' l' ho' => ?_, fun fd c' => ?_, fun l' fd c' hch => ?_, fun l' fd ev hev => ?_,
    h.active, fun l' => ?_⟩
  · rw [poller_setPoller]
    split
    · rename_i hl
      subst hl
      by_cases hc : c' = c
      · rw [hc]
        exact hown
      · exact (h.agrees c' l' ho').of_frame hf hc fun he => hc (h.eq_of_fd ho' ho he)
    · exact h.agrees c' l' ho'
  · simp only [hfd]
    exact h.files fd c'
  · rw [hfd]
    rw [poller_setPoller] at hch
    split at hch
    · rename_i hl
      subst hl
      by_cases he : fd = ((s.poller l').channel c).fd
      · -- The entry of the operation's own descriptor is its channel or none.
        rw [he, ← hf.fd, hown.channels_eq] at hch
        split at hch
        · cases hch
        · obtain rfl := Option.some.inj hch
          exact ⟨ho, he.symm⟩
      · rw [hf.channels fd he] at hch
        exact h.channels l' fd c' hch
    · exact h.channels l' fd c' hch
  · rw [hfd]
    rw [poller_setPoller] at hev
    split at hev
    · rename_i hl
      subst hl
      by_cases he : fd = ((s.poller l').channel c).fd
      · rw [he, ← hf.fd, hown.interest_eq] at hev
        split at hev
        · obtain rfl := Option.some.inj hev
          exact ⟨ho, he.symm⟩
        · cases hev
      · rw [hf.interest fd he] at hev
        exact h.interest l' fd ev hev
    · exact h.interest l' fd ev hev
  · rw [poller_setPoller]
    split
    · rename_i hl
      rw [hfail, ← hl]
      exact h.failed l'
    · exact h.failed l'

omit [DecidableEq L] [DecidableEq C] in
/-- Nothing is registered on a descriptor that is not open. -/
theorem Tidy.entries_none (h : Tidy s) {fd : Int} (hfile : s.files fd = none) (l : L) :
    (s.poller l).channels fd = none ∧ (s.poller l).interest fd = none := by
  refine ⟨Option.eq_none_iff_forall_ne_some.2 fun c hc => ?_,
    Option.eq_none_iff_forall_ne_some.2 fun ev hev => ?_⟩
  · rw [(h.files fd c).2 ⟨l, h.channels l fd c hc⟩] at hfile
    cases hfile
  · rw [(h.files fd ev.ptr).2 ⟨l, h.interest l fd ev hev⟩] at hfile
    cases hfile

omit [DecidableEq L] [DecidableEq C] in
/-- A step that touches no entry: what exists goes on to exist, but for `revents`, and what is new
has not been registered. -/
theorem Tidy.of_entries (h : Tidy s)
    (hchannels : ∀ l, (s'.poller l).channels = (s.poller l).channels)
    (hinterest : ∀ l, (s'.poller l).interest = (s.poller l).interest)
    (hfailed : ∀ l, (s'.poller l).failed = (s.poller l).failed)
    (hold : ∀ c l, s.owner c = some l → s'.owner c = some l ∧
      ∃ revents, (s'.poller l).channel c = { (s.poller l).channel c with revents })
    (hnew : ∀ c l, s'.owner c = some l → s.owner c = some l ∨
      ((s'.poller l).channel c).index = .kNew ∧ s.files (s'.fd l c) = none)
    (hfiles : ∀ fd c, s'.files fd = some c ↔ ∃ l, s'.owner c = some l ∧ s'.fd l c = fd)
    (hactive : ∀ l, ∀ c ∈ s'.activeChannels l, s'.owner c = some l) : Tidy s' := by
  have hfd : ∀ c l, s.owner c = some l → s'.fd l c = s.fd l c := by
    intro c l ho
    obtain ⟨-, revents, hrec⟩ := hold c l ho
    rw [DescriptorSystem.fd, hrec]
    rfl
  refine ⟨fun c l ho => ?_, hfiles, fun l fd c hch => ?_, fun l fd ev hev => ?_, hactive,
    fun l => (hfailed l).trans (h.failed l)⟩
  · rcases hnew c l ho with ho | ⟨hi, hfile⟩
    · obtain ⟨-, revents, hrec⟩ := hold c l ho
      have hag := h.agrees c l ho
      constructor
      · rw [hrec, hchannels]
        exact hag.channels_eq
      · rw [hrec, hinterest]
        exact hag.interest_eq
    · obtain ⟨hmap, hker⟩ := h.entries_none hfile l
      constructor
      · rw [if_pos hi, hchannels]
        exact hmap
      · rw [if_neg (by simp [hi]), hinterest]
        exact hker
  · rw [hchannels] at hch
    obtain ⟨ho, he⟩ := h.channels l fd c hch
    exact ⟨(hold c l ho).1, (hfd c l ho).trans he⟩
  · rw [hinterest] at hev
    obtain ⟨ho, he⟩ := h.interest l fd ev hev
    exact ⟨(hold _ l ho).1, (hfd _ l ho).trans he⟩

theorem channel_created (l l' : L) (c c' : C) (fd : Int) (s : DescriptorSystem L C) :
    ((s.created l c fd).poller l').channel c' =
      if l' = l ∧ c' = c then .new fd else (s.poller l').channel c' := by
  show ((s.setPoller l _).poller l').channel c' = _
  rw [poller_setPoller]
  by_cases hl : l' = l
  · rw [if_pos hl, hl]
    by_cases hc : c' = c
    · simp [hc]
    · simp [hc, EpollPoller.channel_modify_of_ne]
  · simp [hl]

theorem owner_created (l : L) (c c' : C) (fd : Int) (s : DescriptorSystem L C) :
    (s.created l c fd).owner c' = if c' = c then some l else s.owner c' := by
  simp [created, Function.update_apply]

/-- A channel on a descriptor that was not in use. -/
theorem Tidy.create (h : Tidy s) (l : L) {c : C} {fd : Int} (ho : s.owner c = none)
    (hfile : s.files fd = none) : Tidy (s.created l c fd) := by
  have hsame : ∀ l', ((s.created l c fd).poller l').channels = (s.poller l').channels ∧
      ((s.created l c fd).poller l').interest = (s.poller l').interest ∧
      ((s.created l c fd).poller l').failed = (s.poller l').failed := by
    intro l'
    show ((s.setPoller l _).poller l').channels = _ ∧ ((s.setPoller l _).poller l').interest = _ ∧
      ((s.setPoller l _).poller l').failed = _
    rw [poller_setPoller]
    split
    · rename_i hl
      rw [hl]
      exact ⟨rfl, rfl, rfl⟩
    · exact ⟨rfl, rfl, rfl⟩
  have hne : ∀ {c' : C} {l' : L}, s.owner c' = some l' → c' ≠ c := by
    rintro c' l' ho' rfl
    rw [ho] at ho'
    cases ho'
  have hfd : ∀ l' c', (s.created l c fd).fd l' c' =
      if l' = l ∧ c' = c then fd else s.fd l' c' := by
    intro l' c'
    rw [DescriptorSystem.fd, channel_created]
    split <;> rfl
  refine h.of_entries (fun l' => (hsame l').1) (fun l' => (hsame l').2.1) (fun l' => (hsame l').2.2)
    (fun c' l' ho' => ⟨?_, ((s.poller l').channel c').revents, ?_⟩) (fun c' l' ho' => ?_)
    (fun fd' c' => ?_) (fun l' c' hmem => ?_)
  · rw [owner_created, if_neg (hne ho')]
    exact ho'
  · rw [channel_created, if_neg fun hx => hne ho' hx.2]
  · rw [owner_created] at ho'
    split at ho'
    · rename_i hc
      obtain rfl := Option.some.inj ho'
      refine .inr ⟨?_, ?_⟩
      · rw [channel_created, if_pos ⟨rfl, hc⟩]
        rfl
      · rw [hfd, if_pos ⟨rfl, hc⟩]
        exact hfile
    · exact .inl ho'
  · simp only [owner_created, hfd]
    show Function.update s.files fd (some c) fd' = some c' ↔ _
    by_cases hc : c' = c
    · subst hc
      constructor
      · intro hfile'
        refine ⟨l, if_pos rfl, ?_⟩
        rw [if_pos ⟨rfl, rfl⟩]
        by_contra hx
        rw [Function.update_of_ne (Ne.symm hx)] at hfile'
        obtain ⟨l', ho', -⟩ := (h.files fd' c').1 hfile'
        exact hne ho' rfl
      · rintro ⟨l', hl', hx⟩
        obtain rfl : l = l' := by simpa using hl'
        rw [if_pos ⟨rfl, rfl⟩] at hx
        rw [← hx, Function.update_self]
    · simp only [if_neg hc, if_neg fun hx : _ ∧ c' = c => hc hx.2]
      rw [← h.files fd' c']
      by_cases hx : fd' = fd
      · rw [hx, Function.update_self, hfile]
        exact iff_of_false (fun he => hc (Option.some.inj he).symm) nofun
      · rw [Function.update_of_ne hx]
  · have ho' := h.active l' c' hmem
    rw [owner_created, if_neg (hne ho')]
    exact ho'

/-- `poll` returns what the kernel reports. -/
theorem Tidy.poll (h : Tidy s) {l : L} {reports : List (Report C)}
    (hreports : reports.all (s.poller l).mayReport = true) :
    Tidy { s.setPoller l
        ((s.poller l).fillActiveChannels (reports.map fun r => (r.ptr, r.events))) with
      activeChannels := Function.update s.activeChannels l (reports.map Report.ptr) } := by
  have hsame : ∀ l', EpollPoller.SameRegistration (s.poller l') ((s.setPoller l
      ((s.poller l).fillActiveChannels (reports.map fun r => (r.ptr, r.events)))).poller l') := by
    intro l'
    rw [poller_setPoller]
    split
    · rename_i hl
      rw [hl]
      exact EpollPoller.fillActiveChannels_sameRegistration _ _
    · exact .refl _
  refine h.of_entries (fun l' => (hsame l').channels) (fun l' => (hsame l').interest)
    (fun l' => (hsame l').failed) (fun c l' ho => ⟨ho, (hsame l').channel c⟩)
    (fun c l' ho => .inl ho) (fun fd c => ?_) (fun l' c hmem => ?_)
  · refine (h.files fd c).trans (exists_congr fun l' => and_congr_right fun _ => ?_)
    obtain ⟨revents, hrec⟩ := (hsame l').channel c
    show _ ↔ (((s.setPoller l _).poller l').channel c).fd = fd
    rw [hrec]
    rfl
  · have hmem : c ∈ Function.update s.activeChannels l (reports.map Report.ptr) l' := hmem
    by_cases hl : l' = l
    · rw [hl, Function.update_self] at hmem
      obtain ⟨r, hr, rfl⟩ := List.mem_map.1 hmem
      have hrep := List.all_eq_true.1 hreports r hr
      simp only [EpollPoller.mayReport, Option.any_eq_true, Bool.and_eq_true, beq_iff_eq] at hrep
      obtain ⟨ev, hev, hptr, -⟩ := hrep
      rw [hl, ← hptr]
      exact (h.interest l r.fd ev hev).1
    · rw [Function.update_of_ne hl] at hmem
      exact h.active l' c hmem

omit [DecidableEq L] in
theorem owner_closed {l l' : L} {c c' : C} :
    (s.closed l c).owner c' = some l' ↔ c' ≠ c ∧ s.owner c' = some l' := by
  by_cases hc : c' = c
  · simp [closed, hc]
  · simp [closed, hc]

omit [DecidableEq L] in
/-- The close of a descriptor whose channel has been removed. -/
theorem Tidy.close (h : Tidy s) {l : L} {c : C} (ho : s.owner c = some l)
    (hi : ((s.poller l).channel c).index = .kNew) (hact : c ∉ s.activeChannels l) :
    Tidy (s.closed l c) := by
  have hown : ∀ {l' : L}, s.owner c = some l' → l' = l := fun ho' =>
    Option.some.inj (ho'.symm.trans ho)
  -- The other channels are on other descriptors.
  have hother : ∀ {c' : C} {l' : L}, s.owner c' = some l' → (c' ≠ c ↔ s.fd l' c' ≠ s.fd l c) := by
    intro c' l' ho'
    constructor
    · exact fun hne he => hne (h.eq_of_fd ho' ho he)
    · rintro hfd rfl
      exact hfd (by rw [hown ho'])
  refine ⟨fun c' l' ho' => ?_, fun fd c' => ?_, fun l' fd c' hch => ?_, fun l' fd ev hev => ?_,
    fun l' c' hmem => ?_, h.failed⟩
  · obtain ⟨hne, ho'⟩ := owner_closed.1 ho'
    refine ⟨(h.agrees c' l' ho').channels_eq, ?_⟩
    show Function.update (s.poller l').interest (s.fd l c) none (s.fd l' c') = _
    rw [Function.update_of_ne ((hother ho').1 hne)]
    exact (h.agrees c' l' ho').interest_eq
  · show Function.update s.files (s.fd l c) none fd = some c' ↔
      ∃ l', (s.closed l c).owner c' = some l' ∧ s.fd l' c' = fd
    simp only [owner_closed]
    by_cases hfd : fd = s.fd l c
    · rw [hfd, Function.update_self]
      refine iff_of_false nofun ?_
      rintro ⟨l', ⟨hne, ho'⟩, he⟩
      exact (hother ho').1 hne he
    · rw [Function.update_of_ne hfd, h.files fd c']
      refine exists_congr fun l' => ⟨?_, fun ⟨⟨_, ho'⟩, he⟩ => ⟨ho', he⟩⟩
      rintro ⟨ho', rfl⟩
      exact ⟨⟨(hother ho').2 hfd, ho'⟩, rfl⟩
  · obtain ⟨ho', he⟩ := h.channels l' fd c' hch
    refine ⟨owner_closed.2 ⟨?_, ho'⟩, he⟩
    rintro rfl
    -- A channel that is new has no entry.
    obtain rfl := hown ho'
    have hnone := (h.agrees c' l' ho).channels_eq
    rw [if_pos hi] at hnone
    have hch : (s.poller l').channels fd = some c' := hch
    rw [← he] at hch
    cases hnone.symm.trans hch
  · have hev : Function.update (s.poller l').interest (s.fd l c) none fd = some ev := hev
    have hne : fd ≠ s.fd l c := by
      rintro rfl
      rw [Function.update_self] at hev
      cases hev
    rw [Function.update_of_ne hne] at hev
    obtain ⟨ho', rfl⟩ := h.interest l' fd ev hev
    exact ⟨owner_closed.2 ⟨(hother ho').2 hne, ho'⟩, rfl⟩
  · have ho' := h.active l' c' hmem
    refine owner_closed.2 ⟨?_, ho'⟩
    rintro rfl
    rw [hown ho'] at hmem
    exact hact hmem

/-- **A step that closes only what has been removed keeps the entries tidy.** -/
theorem Tidy.step {a : DescriptorAction L C} (h : Tidy s) (hok : s.RemovedBeforeClose a)
    (hstep : s.step a = some s') : Tidy s' := by
  cases a with
  | create l c fd =>
    simp only [DescriptorSystem.step, Option.ite_none_right_eq_some, Option.some.injEq] at hstep
    obtain ⟨⟨ho, hfile⟩, rfl⟩ := hstep
    exact h.create l ho hfile
  | channelOp op c =>
    obtain ⟨l, ho, rfl⟩ := Option.map_eq_some_iff.1 hstep
    exact h.channelOp ho op
  | poll l reports =>
    simp only [DescriptorSystem.step, Option.ite_none_right_eq_some, Option.some.injEq] at hstep
    obtain ⟨⟨-, hreports, -⟩, rfl⟩ := hstep
    exact h.poll hreports
  | dispatch l =>
    simp only [DescriptorSystem.step] at hstep
    split at hstep
    · rename_i c rest hact
      obtain rfl := Option.some.inj hstep
      refine ⟨h.agrees, h.files, h.channels, h.interest, fun l' c' hmem => ?_, h.failed⟩
      have hmem : c' ∈ Function.update s.activeChannels l rest l' := hmem
      by_cases hl : l' = l
      · rw [hl, Function.update_self] at hmem
        rw [hl]
        exact h.active l c' (by rw [hact]; exact List.mem_cons_of_mem _ hmem)
      · rw [Function.update_of_ne hl] at hmem
        exact h.active l' c' hmem
    · cases hstep
  | close c =>
    obtain ⟨l, ho, rfl⟩ := Option.map_eq_some_iff.1 hstep
    obtain ⟨hi, hact⟩ := hok l ho
    exact h.close ho hi hact

end Steps

/-! ## Runs -/

/-- **Descriptors and addresses can be used again.** Take any number of loops and any run in which
channels are created on descriptors that are free, operated on, polled and dispatched to, and their
descriptors closed, such that a channel has been removed and is not to be dispatched to when its
descriptor is closed. Then every pointer in `activeChannels_`, in a poller's map and in the kernel's
interest set is that of a channel of this loop that exists, and the entry is under the descriptor
which this channel has open; map, kernel and `index_` agree about every channel that exists, and no
`epoll_ctl` has failed. -/
theorem descriptors_tidy (as : List (DescriptorAction L C)) (s : DescriptorSystem L C)
    (hok : Meets step RemovedBeforeClose new as) (h : run step new as = some s) :
    (∀ l, ∀ c ∈ s.activeChannels l, s.owner c = some l) ∧
    (∀ l fd c, (s.poller l).channels fd = some c → s.owner c = some l ∧ s.files fd = some c) ∧
    (∀ l fd ev, (s.poller l).interest fd = some ev →
      s.owner ev.ptr = some l ∧ s.files fd = some ev.ptr) ∧
    (∀ l c, s.owner c = some l →
      ((s.poller l).hasChannel c = true ↔ ((s.poller l).channel c).index ≠ .kNew) ∧
      ((s.poller l).interest (s.fd l c) = if ((s.poller l).channel c).index = .kAdded
        then some ⟨((s.poller l).channel c).events, c⟩ else none)) ∧
    ∀ l, (s.poller l).failed = 0 := by
  have hs : Tidy s := hok.invariant Tidy (fun _ _ _ hs hok h => hs.step hok h) tidy_new h
  refine ⟨hs.active, fun l fd c hch => ?_, fun l fd ev hev => ?_, fun l c ho => ?_, hs.failed⟩
  · obtain ⟨ho, he⟩ := hs.channels l fd c hch
    exact ⟨ho, (hs.files fd c).2 ⟨l, ho, he⟩⟩
  · obtain ⟨ho, he⟩ := hs.interest l fd ev hev
    exact ⟨ho, (hs.files fd ev.ptr).2 ⟨l, ho, he⟩⟩
  · exact ⟨(hs.agrees c l ho).hasChannel_iff, (hs.agrees c l ho).interest_eq⟩

/-- Two connections follow each other on descriptor 7, at one address and on two loops, beside a
third one. -/
def shared : List (DescriptorAction Bool Bool) :=
  [.create false true 7, .channelOp .enableReading true, .create true false 8,
    .channelOp .enableReading false, .poll false [⟨7, true, EPOLLIN⟩], .channelOp .disableAll true,
    .dispatch false, .channelOp .remove true, .close true, .create true true 7,
    .channelOp .enableReading true, .poll true [⟨8, false, EPOLLIN⟩, ⟨7, true, EPOLLIN⟩]]

theorem shared_tidy : ∃ s : DescriptorSystem Bool Bool, run step new shared = some s ∧
    s.activeChannels true = [false, true] ∧
    (∀ l, ∀ c ∈ s.activeChannels l, s.owner c = some l) ∧ (s.poller false).channels 7 = none := by
  obtain ⟨s, hs, hnow⟩ := Option.map_eq_some_iff.1
    (show (run step new shared).map (fun s : DescriptorSystem Bool Bool =>
      (s.activeChannels true, (s.poller false).channels 7)) = some ([false, true], none) by
      decide +kernel)
  simp only [Prod.mk.injEq] at hnow
  exact ⟨s, hs, hnow.1, (descriptors_tidy shared s (by decide +kernel) hs).1, hnow.2⟩

/-- A descriptor that is closed while its channel waits to be dispatched to, and has not been
removed, leaves pointers to nothing in both places. -/
def unremoved : List (DescriptorAction Bool Bool) :=
  [.create false true 7, .channelOp .enableReading true, .poll false [⟨7, true, EPOLLIN⟩],
    .close true]

example : (run step new unremoved).map (fun s : DescriptorSystem Bool Bool =>
    (s.owner true, s.activeChannels false, (s.poller false).channels 7)) =
      some (none, [true], some true) := by
  decide +kernel

end DescriptorSystem

/-! ## Those who close descriptors -/

/-- **`disableAll` and `remove` take any channel out**, whether it was registered or not. -/
theorem index_teardown {C : Type*} [DecidableEq C] {p : EpollPoller C} {c : C} (h : p.Agrees c) :
    (((p.apply false .disableAll c).apply false .remove c).channel c).index = .kNew := by
  rw [EpollPoller.channel_apply_remove (EpollPoller.apply_agrees .disableAll h).1]

/-- **A connection without an owner has been removed**, and is not to be dispatched to: the
destructor of its socket closes a descriptor as `RemovedBeforeClose` says. -/
theorem unowned_removed {C T : Type*} [DecidableEq C] [DecidableEq T] {fd : C → Int}
    (hfd : Function.Injective fd) {wakeupChannel channel : C} (hne : channel ≠ wakeupChannel)
    {sameLoop writeComplete highWater : Bool} {as : List (ConnAction C T)} {s : ConnSystem C T}
    (hok : Meets ConnSystem.step ConnSystem.StaysLocal
      (.new (.new fd wakeupChannel) channel sameLoop writeComplete highWater) as)
    (h : (ConnSystem.new (.new fd wakeupChannel) channel sameLoop writeComplete highWater).run as =
      some s) (hup : .connectionCallback true ∈ s.conn.log) (howners : s.owners = 0) :
    (s.conn.poller.channel s.conn.channel).index = .kNew ∧
      s.conn.channel ∉ s.conn.sys.loop.activeChannels := by
  rcases ConnSystem.run_born ConnSystem.Local (fun _ => ConnSystem.local_newborn)
    (fun _ _ _ hb hl hok h => hl.step hb hok h)
    (ConnSystem.unborn_new hfd hne sameLoop writeComplete highWater) hok h with hs | ⟨hb, hl⟩
  · cases hs.log _ hup
  · have hgone := hl.gone (hb.destroyed_of_owners howners)
    exact ⟨hgone.index, hgone.active⟩

end WebCore
