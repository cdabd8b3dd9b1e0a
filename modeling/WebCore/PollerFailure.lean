import WebCore.Lib.Transition
import WebCore.PollerAgree

/-!
# When `epoll_ctl` fails

`updateChannel` and `removeChannel` set `index_` beside an `epoll_ctl` whose failure is logged and
not returned. `Lawful p` says that `index_` still tells what the kernel holds.

**Theorem (`registration_survives_iff`).** Over any sequence of operations and any pattern of
failures, the law holds after each operation iff no failure has hit an ADD or a DEL. A failed MOD
does no harm to it.

A failed ADD leaves `KAdded` behind, so that the next update issues MOD (`add_lost`).
-/

namespace WebCore

open Transition

namespace EpollPoller

variable {C : Type*} [DecidableEq C]

/-! ## The law -/

/-- The `epoll_ctl` that an operation issues, if any. -/
def ctlCall (p : EpollPoller C) (op : ChannelOp) (c : C) : Option EpollOp :=
  match op with
  | .remove =>
    if (p.channels (p.channel c).fd).isSome ∧ (p.channel c).index = .kAdded then some .ctlDel
    else none
  | op =>
    match (p.channel c).index with
    | .kNew | .kDeleted => some .ctlAdd
    | .kAdded =>
      if maskAfter op (p.channel c).events == kNoneEvent then some .ctlDel else some .ctlMod

/-- `index_` tells whether the kernel holds the descriptor. -/
def Lawful (p : EpollPoller C) : Prop :=
  ∀ c, (p.channel c).index = .kAdded ↔ (p.interest (p.channel c).fd).isSome

/-- One operation, which comes with whether its `epoll_ctl` is to fail. -/
def failStep (p : EpollPoller C) (a : Bool × ChannelOp × C) : Option (EpollPoller C) :=
  some (p.apply a.1 a.2.1 a.2.2)

/-- The failure, if there is one, does not hit an ADD or a DEL. -/
def SparesRegistration (p : EpollPoller C) (a : Bool × ChannelOp × C) : Prop :=
  a.1 = true → p.ctlCall a.2.1 a.2.2 ≠ some .ctlAdd ∧ p.ctlCall a.2.1 a.2.2 ≠ some .ctlDel

instance (p : EpollPoller C) (a : Bool × ChannelOp × C) : Decidable (SparesRegistration p a) :=
  inferInstanceAs (Decidable (_ → _ ∧ _))

/-- The law, and what comes of it: an update issues ADD iff the kernel lacks the descriptor. -/
def RegistrationSurvives (p : EpollPoller C) : Prop :=
  Lawful p ∧ ∀ c op, op ≠ .remove →
    (p.ctlCall op c = some .ctlAdd ↔ p.interest (p.channel c).fd = none)

/-! ## One operation -/

section Step

variable {p : EpollPoller C} {c : C}

omit [DecidableEq C] in
theorem update_nomem (op : EpollOp) (p : EpollPoller C) (c : C) :
    p.update true op c = { p with failed := p.failed + 1 } := by
  simp [update, epollCtl]

theorem updateChannel_added (nomem : Bool)
    (h : (p.channel c).index = .kAdded ↔ (p.interest (p.channel c).fd).isSome) :
    (((p.updateChannel nomem c).channel c).index = .kAdded ↔
      ((p.updateChannel nomem c).interest ((p.updateChannel nomem c).channel c).fd).isSome) ↔
    (nomem = true → (p.channel c).index = .kAdded ∧ (p.channel c).isNoneEvent = false) := by
  have hnone : (p.channel c).index ≠ .kAdded → p.interest (p.channel c).fd = none := fun hi => by
    simpa using mt h.2 hi
  unfold updateChannel
  cases hi : (p.channel c).index with
  | kNew =>
    have hn := hnone (by simp [hi])
    cases nomem with
    | true => simp [update_nomem, setIndex, setEntry, hn]
    | false =>
      dsimp only
      rw [update_add (by simpa [setIndex, setEntry] using hn)]
      simp [setIndex, setEntry]
  | kDeleted =>
    have hn := hnone (by simp [hi])
    cases nomem with
    | true => simp [update_nomem, setIndex, hn]
    | false =>
      dsimp only
      rw [update_add (by simpa [setIndex] using hn)]
      simp [setIndex]
  | kAdded =>
    obtain ⟨ev, hev⟩ := Option.isSome_iff_exists.1 (h.1 hi)
    cases hno : (p.channel c).isNoneEvent with
    | true =>
      cases nomem with
      | true => simp [update_nomem, setIndex, hev]
      | false => simp [update_del hev, setIndex]
    | false =>
      cases nomem with
      | true => simp [update_nomem, hi, hev]
      | false => simp [update_mod hev, hi]

theorem removeChannel_added (nomem : Bool)
    (ht : p.channels (p.channel c).fd = if (p.channel c).index = .kNew then none else some c)
    (h : (p.channel c).index = .kAdded ↔ (p.interest (p.channel c).fd).isSome) :
    (((p.removeChannel nomem c).channel c).index = .kAdded ↔
      ((p.removeChannel nomem c).interest ((p.removeChannel nomem c).channel c).fd).isSome) ↔
    (nomem = true → (p.channel c).index ≠ .kAdded) := by
  unfold removeChannel
  rw [ht]
  cases hi : (p.channel c).index with
  | kNew => simpa [hi] using h
  | kDeleted =>
    have hn : p.interest (p.channel c).fd = none := by simpa [hi] using h
    simp [setIndex, setEntry, hn]
  | kAdded =>
    obtain ⟨ev, hev⟩ := Option.isSome_iff_exists.1 (h.1 hi)
    cases nomem with
    | true => simp [update_nomem, setIndex, setEntry, hev]
    | false =>
      simp only [reduceCtorEq, if_false, if_true]
      rw [update_del (by simpa [setEntry] using hev)]
      simp [setIndex, setEntry]

omit [DecidableEq C] in
/-- What is spared, read off the channel: an update has to be a MOD. -/
theorem spares_iff {op : ChannelOp} (hop : op ≠ .remove) (nomem : Bool) :
    p.SparesRegistration (nomem, op, c) ↔ (nomem = true → (p.channel c).index = .kAdded ∧
      (maskAfter op (p.channel c).events == kNoneEvent) = false) := by
  unfold SparesRegistration ctlCall
  cases op with
  | remove => exact absurd rfl hop
  | enableReading | disableReading | enableWriting | disableWriting | disableAll =>
    cases hi : (p.channel c).index with
    | kNew => simp
    | kDeleted => simp
    | kAdded => dsimp only; split <;> simp_all

/-- **An operation keeps the law for its channel iff its failure spares the registration.** -/
theorem apply_added (a : Bool × ChannelOp × C)
    (ht : p.channels (p.channel a.2.2).fd =
      if (p.channel a.2.2).index = .kNew then none else some a.2.2)
    (h : (p.channel a.2.2).index = .kAdded ↔ (p.interest (p.channel a.2.2).fd).isSome) :
    (((p.apply a.1 a.2.1 a.2.2).channel a.2.2).index = .kAdded ↔
      ((p.apply a.1 a.2.1 a.2.2).interest ((p.apply a.1 a.2.1 a.2.2).channel a.2.2).fd).isSome) ↔
    p.SparesRegistration a := by
  obtain ⟨nomem, op, c⟩ := a
  dsimp only at ht h ⊢
  cases op with
  | remove =>
    refine (removeChannel_added nomem ht h).trans ?_
    have hch : (p.channels (p.channel c).fd).isSome ↔ (p.channel c).index ≠ .kNew := by
      rw [ht]; split <;> simp_all
    cases hi : (p.channel c).index <;> simp [SparesRegistration, ctlCall, hi, hch]
  | enableReading | disableReading | enableWriting | disableWriting | disableAll =>
    rw [spares_iff (by simp)]
    refine (updateChannel_added nomem (p := p.setEvents c _)
      (by simpa [setEvents] using h)).trans ?_
    simp [setEvents, Channel.isNoneEvent, maskAfter]

end Step

/-! ## Runs -/

/-- `channels` maps the descriptor of `c` to `c` iff `c` is not new. -/
def Mapped (p : EpollPoller C) (c : C) : Prop :=
  p.channels (p.channel c).fd = if (p.channel c).index = .kNew then none else some c

/-- What every operation keeps, failed or not. -/
structure Charted (p : EpollPoller C) : Prop where
  mapped : ∀ c, Mapped p c
  distinct : Function.Injective fun c => (p.channel c).fd

theorem updateChannel_mapped {p : EpollPoller C} {c : C} (h : Mapped p c) (nomem : Bool) :
    Mapped (p.updateChannel nomem c) c := by
  unfold Mapped at h
  unfold updateChannel
  split
  · simp [Mapped, setIndex, setEntry]
  · rename_i hi
    simpa [Mapped, setIndex, hi] using h
  · rename_i hi
    split <;> simpa [Mapped, setIndex, hi] using h

theorem removeChannel_mapped {p : EpollPoller C} {c : C} (h : Mapped p c) (nomem : Bool) :
    Mapped (p.removeChannel nomem c) c := by
  unfold removeChannel
  split
  · exact h
  · split <;> simp [Mapped, setIndex, setEntry]

theorem apply_mapped {p : EpollPoller C} {c : C} (h : Mapped p c) (nomem : Bool) (op : ChannelOp) :
    Mapped (p.apply nomem op c) c := by
  cases op with
  | remove => exact removeChannel_mapped h nomem
  | enableReading | disableReading | enableWriting | disableWriting | disableAll =>
    exact updateChannel_mapped (p := p.setEvents c _) (by simpa [Mapped, setEvents] using h) nomem

theorem Charted.apply {p : EpollPoller C} (h : Charted p) (nomem : Bool) (op : ChannelOp) (c : C) :
    Charted (p.apply nomem op c) := by
  have hf := apply_frame nomem op c p
  refine ⟨fun c' => ?_, by simpa only [hf.fd_eq] using h.distinct⟩
  by_cases hc : c' = c
  · rw [hc]; exact apply_mapped (h.mapped c) nomem op
  · have hfd : (p.channel c').fd ≠ (p.channel c).fd := fun he => hc (h.distinct he)
    unfold Mapped
    rw [hf.channel c' hc, hf.channels _ hfd]
    exact h.mapped c'

/-- **An operation keeps the law iff its failure spares the registration.** -/
theorem Lawful.apply_iff {p : EpollPoller C} (h : Lawful p) (hp : Charted p)
    (a : Bool × ChannelOp × C) :
    Lawful (p.apply a.1 a.2.1 a.2.2) ↔ p.SparesRegistration a := by
  rw [← apply_added a (hp.mapped _) (h _)]
  have hf := apply_frame a.1 a.2.1 a.2.2 p
  refine ⟨fun hl => hl a.2.2, fun hown c => ?_⟩
  by_cases hc : c = a.2.2
  · rw [hc]; exact hown
  · rw [hf.channel c hc, hf.interest _ fun he => hc (hp.distinct he)]
    exact h c

omit [DecidableEq C] in
theorem Lawful.survives {p : EpollPoller C} (h : Lawful p) : RegistrationSurvives p := by
  refine ⟨h, fun c op hop => ?_⟩
  have hnone : p.interest (p.channel c).fd = none ↔ (p.channel c).index ≠ .kAdded := by
    rw [Ne, h c]; simp
  rw [hnone]
  unfold ctlCall
  cases op with
  | remove => exact absurd rfl hop
  | enableReading | disableReading | enableWriting | disableWriting | disableAll =>
    cases hi : (p.channel c).index with
    | kNew => simp
    | kDeleted => simp
    | kAdded => dsimp only; split <;> simp

theorem survives_run_iff {p : EpollPoller C} (h : Lawful p) (hp : Charted p)
    (as : List (Bool × ChannelOp × C)) :
    (∀ pre p', pre <+: as → run failStep p pre = some p' → RegistrationSurvives p') ↔
      Meets failStep SparesRegistration p as := by
  induction as generalizing p with
  | nil =>
    refine ⟨fun _ => trivial, fun _ pre p' hpre hrun => ?_⟩
    obtain rfl := List.prefix_nil.1 hpre
    obtain rfl : p = p' := Option.some.inj hrun
    exact h.survives
  | cons a as ih =>
    have hstep : failStep p a = some (p.apply a.1 a.2.1 a.2.2) := rfl
    have hp' := hp.apply a.1 a.2.1 a.2.2
    constructor
    · intro hall
      have hl : Lawful (p.apply a.1 a.2.1 a.2.2) :=
        (hall [a] _ (by simp) (run_cons.2 ⟨_, hstep, rfl⟩)).1
      refine ⟨(h.apply_iff hp a).1 hl, fun p' hp'' => ?_⟩
      obtain rfl : p.apply a.1 a.2.1 a.2.2 = p' := Option.some.inj hp''
      refine (ih hl hp').1 fun pre q hpre hrun => hall (a :: pre) q ?_ ?_
      · exact List.cons_prefix_cons.2 ⟨rfl, hpre⟩
      · exact run_cons.2 ⟨_, hstep, hrun⟩
    · rintro ⟨hsp, hrest⟩ pre q hpre hrun
      have hl := (h.apply_iff hp a).2 hsp
      cases pre with
      | nil =>
        obtain rfl : p = q := Option.some.inj hrun
        exact h.survives
      | cons b pre =>
        obtain ⟨hb, hpre⟩ := List.cons_prefix_cons.1 hpre
        obtain ⟨t, ht, hrun⟩ := run_cons.1 hrun
        obtain rfl : p.apply a.1 a.2.1 a.2.2 = t := Option.some.inj (hstep.symm.trans (hb ▸ ht))
        exact (ih hl hp').2 (hrest _ hstep) pre q hpre hrun

/-- **Registration survives a failure iff it is spared.** Over channels with distinct descriptors,
any sequence of operations and any pattern of failures: after each operation `index = kAdded` iff
the kernel holds the descriptor, and an update issues ADD iff it does not, exactly when no failure
has hit an ADD or a DEL. -/
theorem registration_survives_iff (fd : C → Int) (hfd : Function.Injective fd)
    (as : List (Bool × ChannelOp × C)) :
    (∀ pre p, pre <+: as → run failStep (new fd) pre = some p → RegistrationSurvives p) ↔
      Meets failStep SparesRegistration (new fd) as :=
  survives_run_iff (fun _ => by simp [new, Channel.new])
    ⟨fun _ => by simp [Mapped, new, Channel.new], hfd⟩ as

/-- The descriptors of two connections. -/
def twoFd (c : Bool) : Int := if c then 3 else 4

/-- A MOD fails while both channels are registered, and both go on. -/
def spared : List (Bool × ChannelOp × Bool) :=
  [(false, .enableReading, true), (false, .enableReading, false), (true, .enableWriting, true),
    (false, .disableAll, true), (false, .enableReading, true), (false, .remove, false)]

theorem survives_mod : run failStep (new twoFd) spared ≠ none ∧
    ∀ pre p, pre <+: spared → run failStep (new twoFd) pre = some p → RegistrationSurvives p :=
  ⟨by decide +kernel, (registration_survives_iff twoFd (by decide) _).2 (by decide +kernel)⟩

/-- An ADD fails. The channel takes itself for registered, the kernel does not hold it, and the
next update issues MOD. -/
theorem add_lost :
    let p := (new twoFd).apply true .enableReading true
    run failStep (new twoFd) [(true, .enableReading, true)] = some p ∧
    (p.channel true).index = .kAdded ∧ p.interest 3 = none ∧
    p.ctlCall .enableWriting true = some .ctlMod ∧ ¬ RegistrationSurvives p :=
  ⟨rfl, by decide, by decide, by decide, fun h => absurd ((h.1 true).1 (by decide)) (by decide)⟩

end EpollPoller

end WebCore
