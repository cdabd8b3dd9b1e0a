import WebCore.StartLoop

/-!
# The return of `startLoop`

Both threads hold `mutex_` for a few steps at a time, and whoever holds it can always go on. So each
of them gets it in the end, and the condition variable loses no notification (`Locked.awake`): the
creating thread is woken after the publication of `loop_`, takes the mutex and looks again. What it
finds then is all that matters.

**Theorem (`startLoop_returns_iff`).** Under a fair scheduler `startLoop` returns iff `loop_` is not
cleared before `startLoop` has seen it, and it never returns a null pointer.

**Theorem (`destroyed_after_thread`).** When the members are destroyed, the thread has ended, or it
has `mutex_` still to release or `_loop` to destroy; it has ended unless the destructor found
`loop_` cleared just then.
-/

namespace WebCore

open Transition

namespace StartSystem

variable {F C T : Type*} [DecidableEq C] [DecidableEq T] {main : T} {s s' : StartSystem F C T}
  {a : StartAction F C T}

/-! ## Who can go on -/

theorem worker_rank (hs : s.Locked) (h : s.step main a = some s') :
    s'.worker.rank ≤ s.worker.rank ∧ (a = .worker → s'.worker.rank < s.worker.rank) := by
  cases a with
  | loop a =>
    obtain ⟨-, sys, -, rfl⟩ := step_loop_inv h
    exact ⟨le_rfl, fun ha => by cases ha⟩
  | wake | destroy =>
    simp only [StartSystem.step, Option.ite_none_right_eq_some, Option.some.injEq] at h
    obtain ⟨-, rfl⟩ := h
    exact ⟨le_rfl, fun ha => by cases ha⟩
  | starter =>
    refine ⟨?_, fun ha => by cases ha⟩
    cases hpc : s.starter <;>
      simp only [StartSystem.step, StartSystem.starterStep, hpc, Option.ite_none_right_eq_some,
        Option.some.injEq, Option.map_eq_some_iff, reduceCtorEq] at h
    case spawn =>
      subst h
      simp [hs.born.1 hpc, WorkerPc.rank]
    all_goals first
      | subst h
      | obtain ⟨-, rfl⟩ := h
      | obtain ⟨sys, -, rfl⟩ := h
      | (split at h <;> obtain rfl := Option.some.inj h)
    all_goals exact le_rfl
  | worker =>
    suffices hlt : s'.worker.rank < s.worker.rank from ⟨hlt.le, fun _ => hlt⟩
    cases hpc : s.worker <;>
      simp only [StartSystem.step, StartSystem.workerStep, hpc, Option.ite_none_right_eq_some,
        Option.some.injEq, reduceCtorEq] at h
    all_goals first | subst h | obtain ⟨-, rfl⟩ := h
    all_goals simp [WorkerPc.rank]

/-- The new thread can go on, unless it waits for the mutex, for `callback_` or for `loop()`. -/
theorem worker_enabled (hborn : s.worker ≠ .unborn) (hloop : WorkerPc.rank .loop < s.worker.rank)
    (hinit : s.worker = .init → s.sys.isAt .idle = true)
    (hlock : s.worker = .lock → s.mutex = none) :
    Enabled (step main) (fun a => a = .worker) s := by
  refine ⟨_, rfl, ?_⟩
  cases hpc : s.worker
  case unborn => exact absurd hpc hborn
  case init => simp [StartSystem.step, StartSystem.workerStep, hpc, hinit hpc]
  case lock => simp [StartSystem.step, StartSystem.workerStep, hpc, hlock hpc]
  case loop | lockEnd | clear | unlockEnd | dtor | ended => simp [hpc, WorkerPc.rank] at hloop
  all_goals simp [StartSystem.step, StartSystem.workerStep, hpc]

/-- `startLoop` can go on, unless it waits for the semaphore, the mutex or the condition. -/
theorem starter_enabled (hret : s.starter.hasReturned = false) (hwait : s.starter ≠ .waiting)
    (hsem : s.starter = .semWait → 0 < s.sem) (hlock : s.starter = .lock → s.mutex = none) :
    Enabled (step main) (fun a => a = .starter) s := by
  refine ⟨_, rfl, ?_⟩
  cases hpc : s.starter
  case semWait => simp [StartSystem.step, StartSystem.starterStep, hpc, hsem hpc]
  case lock => simp [StartSystem.step, StartSystem.starterStep, hpc, hlock hpc]
  case test => cases hl : s.loop <;> simp [StartSystem.step, StartSystem.starterStep, hpc, hl]
  case waiting => exact absurd hpc hwait
  case returned | quitting | waking | joining | joined | detached =>
    simp [hpc, StarterPc.hasReturned] at hret
  all_goals simp [StartSystem.step, StartSystem.starterStep, hpc]

omit [DecidableEq C] [DecidableEq T] in
/-- The new thread moves the other one only by its notification. -/
theorem starter_workerStep (hwait : s.starter ≠ .waiting) (h : s.workerStep = some s') :
    s'.starter = s.starter := by
  cases hpc : s.worker <;>
    simp only [StartSystem.workerStep, hpc, Option.ite_none_right_eq_some, Option.some.injEq,
      reduceCtorEq] at h
  all_goals first | subst h | obtain ⟨-, rfl⟩ := h
  case notify => exact if_neg hwait
  all_goals rfl

theorem starter_kept (ha : a ≠ .starter) (hwait : s.starter ≠ .waiting)
    (hret : s.starter ≠ .returned) (h : s.step main a = some s') : s'.starter = s.starter := by
  cases a with
  | loop a =>
    obtain ⟨-, sys, -, rfl⟩ := step_loop_inv h
    rfl
  | starter => exact absurd rfl ha
  | wake =>
    simp only [StartSystem.step, Option.ite_none_right_eq_some] at h
    exact absurd h.1 hwait
  | destroy =>
    simp only [StartSystem.step, Option.ite_none_right_eq_some] at h
    exact absurd h.1.1 hret
  | worker => exact starter_workerStep hwait h

theorem worker_kept (hs : s.Locked) (ha : a ≠ .worker) (hborn : s.worker ≠ .unborn)
    (h : s.step main a = some s') : s'.worker = s.worker := by
  cases a with
  | loop a =>
    obtain ⟨-, sys, -, rfl⟩ := step_loop_inv h
    rfl
  | worker => exact absurd rfl ha
  | wake | destroy =>
    simp only [StartSystem.step, Option.ite_none_right_eq_some, Option.some.injEq] at h
    obtain ⟨-, rfl⟩ := h
    rfl
  | starter =>
    cases hpc : s.starter <;>
      simp only [StartSystem.step, StartSystem.starterStep, hpc, Option.ite_none_right_eq_some,
        Option.some.injEq, Option.map_eq_some_iff, reduceCtorEq] at h
    case spawn => exact absurd (hs.born.1 hpc) hborn
    all_goals first
      | subst h
      | obtain ⟨-, rfl⟩ := h
      | obtain ⟨sys, -, rfl⟩ := h
      | (split at h <;> obtain rfl := Option.some.inj h)
    all_goals rfl

/-- Who holds the mutex comes closer to its release. -/
theorem starter_releases (hholds : s.starter.holds = true) (h : s.step main .starter = some s') :
    s'.mutex = none ∨ s'.starter.holds = true ∧ s'.starter.rank < s.starter.rank := by
  cases hpc : s.starter <;> rw [hpc] at hholds <;> try cases hholds
  all_goals
    simp only [StartSystem.step, StartSystem.starterStep, hpc, Option.some.injEq] at h
  case test =>
    split at h <;> obtain rfl := Option.some.inj h
    · exact .inr ⟨rfl, by simp [StarterPc.rank]⟩
    · exact .inl rfl
  case read =>
    subst h
    exact .inr ⟨rfl, by simp [StarterPc.rank]⟩
  case unlock =>
    subst h
    exact .inl rfl

theorem worker_releases (hholds : s.worker.holds = true) (h : s.step main .worker = some s') :
    s'.mutex = none ∨ s'.worker.holds = true := by
  cases hpc : s.worker <;> rw [hpc] at hholds <;> try cases hholds
  all_goals
    simp only [StartSystem.step, StartSystem.workerStep, hpc, Option.some.injEq] at h
    subst h
    simp [WorkerPc.holds]

theorem starter_rank (htest : s.starter = .test → s.loop = true)
    (hret : s.starter.hasReturned = false) (h : s.step main .starter = some s') :
    s'.starter.rank < s.starter.rank := by
  cases hpc : s.starter <;> rw [hpc] at hret <;> try cases hret
  all_goals
    simp only [StartSystem.step, StartSystem.starterStep, hpc, Option.ite_none_right_eq_some,
      Option.some.injEq, reduceCtorEq] at h
  case test =>
    rw [if_pos (htest hpc), Option.some.injEq] at h
    subst h
    simp [StarterPc.rank]
  all_goals first | subst h | obtain ⟨-, rfl⟩ := h
  all_goals simp [StarterPc.rank]

theorem returned_kept (hret : s.starter.hasReturned = true) (h : s.step main a = some s') :
    s'.starter.hasReturned = true := by
  have hwait : s.starter ≠ .waiting := fun hw => by simp [hw, StarterPc.hasReturned] at hret
  cases a with
  | loop a =>
    obtain ⟨-, sys, -, rfl⟩ := step_loop_inv h
    exact hret
  | wake =>
    simp only [StartSystem.step, Option.ite_none_right_eq_some] at h
    exact absurd h.1 hwait
  | destroy =>
    simp only [StartSystem.step, Option.ite_none_right_eq_some, Option.some.injEq] at h
    obtain ⟨-, rfl⟩ := h
    cases s.loop <;> rfl
  | worker => exact starter_workerStep hwait h ▸ hret
  | starter =>
    cases hpc : s.starter <;> rw [hpc] at hret <;> try cases hret
    all_goals
      simp only [StartSystem.step, StartSystem.starterStep, hpc, Option.ite_none_right_eq_some,
        Option.some.injEq, Option.map_eq_some_iff, reduceCtorEq] at h
    all_goals
      obtain ⟨sys, -, rfl⟩ := h
      rfl

omit [DecidableEq C] [DecidableEq T] in
theorem cleared_iff : s.worker.cleared = true ↔ s.worker.rank ≤ WorkerPc.rank .unlockEnd := by
  cases s.worker <;> simp [WorkerPc.cleared, WorkerPc.rank]

/-- Once `loop_` is cleared, `startLoop` does not find it any more. -/
theorem unseen_kept (hs : s.Locked) (hc : s.worker.cleared = true) (hn : s.starter.seen = false)
    (h : s.step main a = some s') : s'.worker.cleared = true ∧ s'.starter.seen = false := by
  refine ⟨cleared_iff.2 ((worker_rank hs h).1.trans (cleared_iff.1 hc)), ?_⟩
  have hloop : s.loop = false := by
    rw [hs.loop]
    cases hw : s.worker <;> simp_all [WorkerPc.cleared, WorkerPc.published]
  by_cases ha : a = .starter
  · subst ha
    cases hpc : s.starter <;> rw [hpc] at hn <;> try cases hn
    all_goals
      simp only [StartSystem.step, StartSystem.starterStep, hpc, hloop,
        Option.ite_none_right_eq_some, Option.some.injEq, reduceCtorEq, if_false,
        Bool.false_eq_true] at h
    all_goals first | subst h | obtain ⟨-, rfl⟩ := h
    all_goals rfl
  by_cases hwait : s.starter = .waiting
  · cases a with
    | loop a =>
      obtain ⟨-, sys, -, rfl⟩ := step_loop_inv h
      exact hn
    | wake =>
      simp only [StartSystem.step, Option.ite_none_right_eq_some, Option.some.injEq] at h
      obtain ⟨-, rfl⟩ := h
      rfl
    | destroy => simp [StartSystem.step, hwait] at h
    | worker =>
      cases hw : s.worker <;> rw [hw] at hc <;> try cases hc
      all_goals simp only [StartSystem.step, StartSystem.workerStep, hw, reduceCtorEq,
        Option.some.injEq] at h
      all_goals
        subst h
        exact hn
    | starter => exact absurd rfl ha
  · have hret : s.starter ≠ .returned := fun hr => by
      simp [hr, StarterPc.seen, StarterPc.hasReturned] at hn
    rwa [starter_kept ha hwait hret h]

/-! ## The return of `startLoop` -/

section Returns

variable {p : Path (step main : StartSystem F C T → _)} (hp : ∀ n, (p.state n).Coherent)

include hp

theorem worker_rank_anti {n m : ℕ} (h : n ≤ m) :
    (p.state m).worker.rank ≤ (p.state n).worker.rank := by
  have hanti : Antitone fun n => (p.state n).worker.rank :=
    antitone_nat_of_succ_le fun n => (worker_rank (hp n).locked (p.next n)).1
  exact hanti h

omit hp in
/-- The creating thread releases the mutex. -/
theorem starter_leadsTo_free (hfair : p.Fair fun a => a = .starter) :
    p.LeadsTo (fun s => s.starter.holds = true) fun s => s.mutex = none := by
  have hkept : ∀ n, (p.state n).starter.holds = true → p.action n ≠ .starter →
      (p.state (n + 1)).starter = (p.state n).starter := fun n hn ha =>
    starter_kept ha (fun hw => by simp [hw, StarterPc.holds] at hn)
      (fun hr => by simp [hr, StarterPc.holds] at hn) (p.next n)
  refine Path.LeadsTo.of_fair (fun s => s.starter.rank) hfair (fun n hn => ?_)
    (fun n hn ha => ?_) (.of_imp fun n hn => ?_)
  · by_cases ha : p.action n = .starter
    · exact (starter_releases hn (ha ▸ p.next n)).imp_right fun h => ⟨h.1, h.2.le⟩
    · exact .inr ⟨hkept n hn ha ▸ hn, (congrArg StarterPc.rank (hkept n hn ha)).le⟩
  · exact (starter_releases hn (ha ▸ p.next n)).imp_right And.right
  · refine .inr (starter_enabled ?_ ?_ ?_ ?_)
    · exact StarterPc.hasReturned_of_holds hn
    all_goals
      intro hpc
      simp [hpc, StarterPc.holds] at hn

/-- The new thread releases the mutex. -/
theorem worker_leadsTo_free (hfair : p.Fair fun a => a = .worker) :
    p.LeadsTo (fun s => s.worker.holds = true) fun s => s.mutex = none := by
  have hkept : ∀ n, (p.state n).worker.holds = true → p.action n ≠ .worker →
      (p.state (n + 1)).worker = (p.state n).worker := fun n hn ha =>
    worker_kept (hp n).locked ha (fun hw => by simp [hw, WorkerPc.holds] at hn) (p.next n)
  refine Path.LeadsTo.of_fair (fun s => s.worker.rank) hfair (fun n hn => ?_)
    (fun n hn ha => .inr ((worker_rank (hp n).locked (p.next n)).2 ha)) (.of_imp fun n hn => ?_)
  · have hle := (worker_rank (hp n).locked (p.next n)).1
    by_cases ha : p.action n = .worker
    · exact (worker_releases hn (ha ▸ p.next n)).imp_right fun h => ⟨h, hle⟩
    · exact .inr ⟨hkept n hn ha ▸ hn, hle⟩
  · refine .inr ⟨_, rfl, ?_⟩
    cases hpc : (p.state n).worker
    case publish | notify | unlock | clear | unlockEnd =>
      simp [StartSystem.step, StartSystem.workerStep, hpc]
    all_goals simp [hpc, WorkerPc.holds] at hn

/-- The new thread is created. -/
theorem leadsTo_born (hfair : p.Fair fun a => a = .starter) :
    p.LeadsTo (fun _ => True) fun s => s.worker ≠ .unborn := by
  refine Path.LeadsTo.of_fair (fun _ => 0) hfair (fun n _ => .inr ⟨trivial, le_rfl⟩)
    (fun n _ ha => ?_) (.of_imp fun n _ => ?_)
  · by_cases hborn : (p.state n).worker = .unborn
    · have hpc := (hp n).locked.born.2 hborn
      have h := p.next n
      simp only [ha, StartSystem.step, StartSystem.starterStep, hpc, Option.some.injEq] at h
      exact .inl (by simp [← h])
    · refine .inl fun h => ?_
      have hle := (worker_rank (hp n).locked (p.next n)).1
      rw [h] at hle
      cases hpc : (p.state n).worker <;> simp_all [WorkerPc.rank]
  · by_cases hborn : (p.state n).worker = .unborn
    · have hpc := (hp n).locked.born.2 hborn
      exact .inr (starter_enabled (by simp [hpc, StarterPc.hasReturned]) (by simp [hpc])
        (by simp [hpc]) (by simp [hpc]))
    · exact .inl hborn

/-- `callback_` is not inside `queueInLLoop` for good. -/
theorem leadsTo_idle (hfair : p.Fair fun a => a = .loop .wakeupOwn) :
    p.LeadsTo (fun s => s.worker = .init) fun s => s.worker = .init ∧ s.sys.isAt .idle = true := by
  have hat : ∀ n, (p.state n).worker = .init → (p.state n).sys.own = .idle →
      (p.state n).sys.isAt .idle = true := fun n hn hown => by
    simp [LoopSystem.isAt, hown, (hp n).placed.idle (by simp [hn, WorkerPc.rank])]
  have hinside : p.LeadsTo (fun s => s.worker = .init ∧ s.sys.own ≠ .idle)
      fun s => s.worker = .init ∧ s.sys.isAt .idle = true := by
    have hstay : ∀ n, (p.state n).worker = .init ∧ (p.state n).sys.own ≠ .idle →
        (p.state (n + 1)).worker = .init := by
      intro n hn'
      obtain ⟨hn, hown⟩ := hn'
      refine (worker_kept (hp n).locked (fun ha => ?_) (by simp [hn]) (p.next n)).trans hn
      have h := p.next n
      simp [ha, StartSystem.step, StartSystem.workerStep, hn, LoopSystem.isAt, hown] at h
    refine Path.LeadsTo.of_fair (fun _ => 0) hfair (fun n hn => ?_) (fun n hn ha => .inl ?_)
      (.of_imp fun n hn => .inr ⟨_, rfl, ?_⟩)
    · by_cases hown : (p.state (n + 1)).sys.own = .idle
      · exact .inl ⟨hstay n hn, hat _ (hstay n hn) hown⟩
      · exact .inr ⟨⟨hstay n hn, hown⟩, le_rfl⟩
    · refine ⟨hstay n hn, hat _ (hstay n hn) ?_⟩
      obtain ⟨-, sys, hsys, heq⟩ := step_loop_inv (ha ▸ p.next n)
      rw [heq, (LoopSystem.step_inv hsys).2]
    · obtain ⟨hn, hown⟩ := hn
      have hpushed : (p.state n).sys.own = .pushed := by
        have hcalled := (hp n).placed.called
        cases hown' : (p.state n).sys.own <;> simp_all
      simp [StartSystem.step, allows, hn, LoopSystem.step, hpushed]
  intro n hn
  by_cases hown : (p.state n).sys.own = .idle
  · exact ⟨n, le_rfl, hn, hat n hn hown⟩
  · exact hinside n ⟨hn, hown⟩

/-- The new thread comes to `loop()`. -/
theorem leadsTo_loop (hs : p.Fair fun a => a = .starter) (hw : p.Fair fun a => a = .worker)
    (hc : p.Fair fun a => a = .loop .wakeupOwn) :
    p.LeadsTo (fun _ => True) fun s => s.worker.rank ≤ WorkerPc.rank .loop := by
  refine Path.LeadsTo.of_fair (fun s => s.worker.rank) hw
    (fun n _ => .inr ⟨trivial, (worker_rank (hp n).locked (p.next n)).1⟩)
    (fun n _ ha => .inr ((worker_rank (hp n).locked (p.next n)).2 ha))
    ((leadsTo_born hp hs).trans fun n hborn => ?_)
  have hfree : ∀ m, n ≤ m → (p.state n).worker = .lock → (p.state m).mutex = none →
      (p.state m).worker.rank ≤ WorkerPc.rank .loop ∨
        Enabled (step main) (fun a => a = .worker) (p.state m) := by
    intro m hnm hlock hm
    have hle := worker_rank_anti hp hnm
    rw [hlock] at hle
    refine (Nat.lt_or_ge (WorkerPc.rank .loop) (p.state m).worker.rank).symm.imp_right
      fun hlt => worker_enabled ?_ hlt ?_ fun _ => hm
    · exact fun h => absurd hle (by simp [h, WorkerPc.rank])
    · exact fun h => absurd hle (by simp [h, WorkerPc.rank])
  by_cases hlate : (p.state n).worker.rank ≤ WorkerPc.rank .loop
  · exact ⟨n, le_rfl, .inl hlate⟩
  by_cases hinit : (p.state n).worker = .init
  · obtain ⟨m, hnm, hm, hidle⟩ := leadsTo_idle hp hc n hinit
    exact ⟨m, hnm, .inr (worker_enabled (by simp [hm]) (by simp [hm, WorkerPc.rank])
      (fun _ => hidle) (by simp [hm]))⟩
  by_cases hlock : (p.state n).worker = .lock
  · cases hm : (p.state n).mutex with
    | none => exact ⟨n, le_rfl, hfree n le_rfl hlock hm⟩
    | some party =>
      cases party with
      | starter =>
        obtain ⟨m, hnm, hm⟩ := starter_leadsTo_free hs n ((hp n).locked.starter.1 hm)
        exact ⟨m, hnm, hfree m hnm hlock hm⟩
      | worker =>
        have := (hp n).locked.worker.1 hm
        simp [hlock, WorkerPc.holds] at this
  · exact ⟨n, le_rfl, .inr (worker_enabled hborn (not_le.1 hlate) (fun h => absurd h hinit)
      fun h => absurd h hlock)⟩

/-- `startLoop` returns once the thread is in `loop()`, if `loop_` is not cleared first. -/
theorem leadsTo_returned (hs : p.Fair fun a => a = .starter) (hw : p.Fair fun a => a = .worker)
    (hseen : ∀ n, (p.state n).worker.cleared = true → (p.state n).starter.seen = true) :
    p.LeadsTo (fun s => s.worker.rank ≤ WorkerPc.rank .loop)
      fun s => s.starter.hasReturned = true := by
  have hloop : ∀ n, (p.state n).worker.rank ≤ WorkerPc.rank .loop →
      (p.state n).starter.seen = false → (p.state n).loop = true := fun n hn hns => by
    have hcleared : (p.state n).worker.cleared = false := by
      by_contra hc
      rw [hseen n (by simpa using hc)] at hns
      cases hns
    rw [(hp n).locked.loop]
    cases hpc : (p.state n).worker <;>
      simp_all [WorkerPc.rank, WorkerPc.published, WorkerPc.cleared]
  have hwait : ∀ n, (p.state n).worker.rank ≤ WorkerPc.rank .loop →
      (p.state n).starter ≠ .waiting := fun n hn hpc => by
    have hat := (hp n).locked.awake hpc (hloop n hn (by simp [hpc, StarterPc.seen,
      StarterPc.hasReturned]))
    simp [hat, WorkerPc.rank] at hn
  have hle : ∀ n, (p.state n).worker.rank ≤ WorkerPc.rank .loop →
      (p.state (n + 1)).worker.rank ≤ WorkerPc.rank .loop := fun n =>
    (worker_rank (hp n).locked (p.next n)).1.trans
  have hen : ∀ n, (p.state n).worker.rank ≤ WorkerPc.rank .loop →
      ((p.state n).starter = .lock → (p.state n).mutex = none) →
      (p.state n).starter.hasReturned = true ∨
        Enabled (step main) (fun a => a = .starter) (p.state n) := fun n hn hm => by
    refine (Bool.eq_false_or_eq_true (p.state n).starter.hasReturned).imp_right fun hret =>
      starter_enabled hret (hwait n hn) (fun hpc => ?_) hm
    rw [(hp n).started.sem (.inr hpc), if_pos (hn.trans (by simp [WorkerPc.rank]))]
    exact Nat.one_pos
  refine Path.LeadsTo.of_fair (fun s => s.starter.rank) hs (fun n hn => ?_) (fun n hn ha => ?_)
    fun n hn => ?_
  · rcases Bool.eq_false_or_eq_true (p.state n).starter.hasReturned with hret | hret
    · exact .inl (returned_kept hret (p.next n))
    refine .inr ⟨hle n hn, ?_⟩
    by_cases ha : p.action n = .starter
    · exact (starter_rank (fun hpc => hloop n hn (by simp [hpc, StarterPc.seen,
        StarterPc.hasReturned])) hret (ha ▸ p.next n)).le
    · rw [starter_kept ha (hwait n hn) (fun hr => by simp [hr, StarterPc.hasReturned] at hret)
        (p.next n)]
  · rcases Bool.eq_false_or_eq_true (p.state n).starter.hasReturned with hret | hret
    · exact .inl (returned_kept hret (p.next n))
    · exact .inr (starter_rank (fun hpc => hloop n hn (by simp [hpc, StarterPc.seen,
        StarterPc.hasReturned])) hret (ha ▸ p.next n))
  · by_cases hlock : (p.state n).starter = .lock ∧ (p.state n).worker.holds = true
    · -- the new thread is about to clear `loop_`, and does not find the other one waiting
      obtain ⟨m, hnm, hm⟩ := worker_leadsTo_free hp hw n hlock.2
      exact ⟨m, hnm, hen m ((worker_rank_anti hp hnm).trans hn) fun _ => hm⟩
    · refine ⟨n, le_rfl, hen n hn fun hpc => ?_⟩
      have hother : (p.state n).worker.holds ≠ true := fun h => hlock ⟨hpc, h⟩
      cases hm : (p.state n).mutex with
      | none => rfl
      | some party =>
        cases party with
        | starter =>
          have := (hp n).locked.starter.1 hm
          simp [hpc, StarterPc.holds] at this
        | worker => exact absurd ((hp n).locked.worker.1 hm) hother

end Returns

/-- **`startLoop` returns iff its loop is not stopped too early.** Take any infinite run from the
creation of the thread on in which both threads are scheduled fairly, with any spurious wakeups, any
calls of other threads and any `callback_` that returns. Then `startLoop` returns iff it sees
`loop_` before it is cleared, and what it returns is not null. -/
theorem startLoop_returns_iff (main : T) (fd : C → Int) (wakeupChannel : C)
    (p : Path (step main : StartSystem F C T → _)) (h₀ : p.state 0 = new fd wakeupChannel)
    (hs : p.Fair fun a => a = .starter) (hw : p.Fair fun a => a = .worker)
    (hc : p.Fair fun a => a = .loop .wakeupOwn) :
    ((∃ n, (p.state n).starter.hasReturned = true) ↔
      ∀ n, (p.state n).worker.cleared = true → (p.state n).starter.seen = true) ∧
    ∀ n, (p.state n).starter.hasReturned = true → (p.state n).result = true := by
  have hp : ∀ n, (p.state n).Coherent := p.always Coherent (fun _ _ _ hs => hs.step)
    (h₀ ▸ coherent_new fd wakeupChannel)
  refine ⟨⟨fun ⟨n, hn⟩ m hm => ?_, fun hseen => ?_⟩, fun n hn => (hp n).locked.result (.inr hn)⟩
  · by_contra hns
    have hstuck : ∀ k, m ≤ k →
        (p.state k).worker.cleared = true ∧ (p.state k).starter.seen = false := by
      intro k hk
      induction k, hk using Nat.le_induction with
      | base => exact ⟨hm, by simpa using hns⟩
      | succ k hk ih => exact unseen_kept (hp k).locked ih.1 ih.2 (p.next k)
    have hlater : ∀ k, n ≤ k → (p.state k).starter.hasReturned = true := by
      intro k hk
      induction k, hk using Nat.le_induction with
      | base => exact hn
      | succ k hk ih => exact returned_kept ih (p.next k)
    have h := hlater (max n m) (le_max_left n m)
    have h' := (hstuck (max n m) (le_max_right n m)).2
    cases hpc : (p.state (max n m)).starter <;>
      simp_all [StarterPc.seen, StarterPc.hasReturned]
  · obtain ⟨n, -, hn⟩ := leadsTo_loop hp hs hw hc 0 trivial
    obtain ⟨m, -, hm⟩ := leadsTo_returned hp hs hw hseen n hn
    exact ⟨m, hm⟩

theorem startLoop_returns_handshake :
    ∃ p : Path (step () : StartSystem Unit Unit Unit → _), p.state 0 = new (fun _ => 3) () ∧
      ((∃ n, (p.state n).starter.hasReturned = true) ↔
        ∀ n, (p.state n).worker.cleared = true → (p.state n).starter.seen = true) := by
  have hrest : running.step () (.loop .quitOwn) = some running := rfl
  refine ⟨Path.rest run_handshake hrest, rfl, ?_⟩
  exact (startLoop_returns_iff () (fun _ => 3) () _ rfl
    (Path.rest_fair run_handshake hrest (not_enabled rfl))
    (Path.rest_fair run_handshake hrest (not_enabled rfl))
    (Path.rest_fair run_handshake hrest (not_enabled rfl))).1

/-- User code stops the loop, and the thread comes to the release of `mutex_`. -/
def stopEarly : List (StartAction Unit Unit Unit) :=
  [.loop .enter, .loop .test, .loop (.pollReturn []), .loop .quitOwn, .loop .startFunctors,
    .loop .swapFunctors, .loop .endFunctors, .loop .test, .worker, .worker, .worker]

/-- A loop that is stopped before the notified thread has the mutex leaves it waiting. -/
example : (run (step ()) (new (fun _ => 3) ())
    (handshake.take 11 ++ stopEarly ++ [.worker, .worker, .starter, .starter])).map
      (fun s => (s.starter, s.worker)) = some (.waiting, .ended) := by
  decide

/-! ## The end -/

/-- The destructor does not find `loop_` cleared while the thread is on its way to the end. -/
def DestroysOutside (s : StartSystem F C T) (a : StartAction F C T) : Prop :=
  match a with
  | .destroy => s.worker ≠ .unlockEnd ∧ s.worker ≠ .dtor
  | _ => True

theorem ended_kept (hs : s.Locked) (hw : s.worker = .ended) (h : s.step main a = some s') :
    s'.worker = .ended := by
  have hle := (worker_rank hs h).1
  rw [hw] at hle
  cases hpc : s'.worker <;> simp_all [WorkerPc.rank]

/-- The destructor does not join when `loop_` was null as it began. -/
theorem detached_inv (hd : s'.starter = .detached) (h : s.step main a = some s') :
    s.starter = .detached ∨ a = .destroy ∧ s.loop = false ∧ s'.worker = s.worker := by
  cases a with
  | loop a =>
    obtain ⟨-, sys, -, rfl⟩ := step_loop_inv h
    exact .inl hd
  | wake =>
    simp only [StartSystem.step, Option.ite_none_right_eq_some, Option.some.injEq] at h
    obtain ⟨-, rfl⟩ := h
    cases hd
  | destroy =>
    simp only [StartSystem.step, Option.ite_none_right_eq_some, Option.some.injEq] at h
    obtain ⟨-, rfl⟩ := h
    cases hl : s.loop
    · exact .inr ⟨rfl, rfl, rfl⟩
    · simp [hl] at hd
  | starter =>
    cases hpc : s.starter <;>
      simp only [StartSystem.step, StartSystem.starterStep, hpc, Option.ite_none_right_eq_some,
        Option.some.injEq, Option.map_eq_some_iff, reduceCtorEq] at h
    all_goals first
      | subst h
      | obtain ⟨-, rfl⟩ := h
      | obtain ⟨sys, -, rfl⟩ := h
      | (split at h <;> obtain rfl := Option.some.inj h)
    all_goals cases hd
  | worker =>
    by_cases hwait : s.starter = .waiting
    · cases hpc : s.worker <;>
        simp only [StartSystem.step, StartSystem.workerStep, hpc, hwait,
          Option.ite_none_right_eq_some, Option.some.injEq, reduceCtorEq] at h
      all_goals first | subst h | obtain ⟨-, rfl⟩ := h
      all_goals simp at hd
    · exact .inl (starter_workerStep hwait h ▸ hd)

instance (s : StartSystem F C T) : ∀ a, Decidable (s.DestroysOutside a)
  | .destroy => inferInstanceAs (Decidable (s.worker ≠ .unlockEnd ∧ s.worker ≠ .dtor))
  | .loop _ | .starter | .wake | .worker => inferInstanceAs (Decidable True)

/-- **The members outlive the thread, but for its last steps.** In every run, when the destructor is
through, the new thread has ended, or it has cleared `loop_` and is still to release `mutex_` or to
destroy `_loop`; it has ended if the destructor does not begin between these steps. And `thread_`
has been joined once, or is detached. -/
theorem destroyed_after_thread (main : T) (fd : C → Int) (wakeupChannel : C)
    (as : List (StartAction F C T)) (s : StartSystem F C T)
    (h : run (step main) (new fd wakeupChannel) as = some s) (hd : s.starter.destroyed = true) :
    (s.worker = .unlockEnd ∨ s.worker = .dtor ∨ s.worker = .ended) ∧
    (Meets (step main) DestroysOutside (new fd wakeupChannel) as → s.worker = .ended) ∧
    s.thread.bind Thread_.destroy = .ok () := by
  have hs : s.Coherent := run_invariant Coherent (fun _ _ _ hs => hs.step)
    (coherent_new fd wakeupChannel) h
  have hcases : s.starter = .joined ∨ s.starter = .detached := by
    cases hpc : s.starter <;> simp_all [StarterPc.destroyed]
  refine ⟨?_, fun hok => ?_, ?_⟩
  · rcases hcases with hj | hdet
    · exact .inr (.inr (hs.started.joined hj))
    · have hc := hs.started.detached hdet
      cases hw : s.worker <;> simp_all [WorkerPc.cleared]
  · have hinv : s.Coherent ∧ (s.starter = .detached → s.worker = .ended) := hok.invariant
      (fun s => s.Coherent ∧ (s.starter = .detached → s.worker = .ended))
      (fun s a s' hs hok hstep => ⟨hs.1.step hstep, fun hdet => ?_⟩)
      ⟨coherent_new fd wakeupChannel, fun hdet => by cases hdet⟩ h
    · exact hcases.elim hs.started.joined hinv.2
    · obtain hdet' | ⟨rfl, hloop, hw⟩ := detached_inv hdet hstep
      · exact ended_kept hs.1.locked (hs.2 hdet') hstep
      · have hc := (hs.1.step hstep).started.detached hdet
        rw [hw] at hc ⊢
        have hgap : s.worker ≠ .unlockEnd ∧ s.worker ≠ .dtor := hok
        cases hpc : s.worker <;> simp_all [WorkerPc.cleared]
  · rw [hs.started.thread]
    rcases hcases with hj | hdet
    · rw [hj]
      rfl
    · rw [hdet]
      rfl

theorem destroyed_afterThread : ∃ s : StartSystem Unit Unit Unit,
    run (step ()) (new (fun _ => 3) ())
      (handshake.take 15 ++ stopEarly ++ [.worker, .worker, .destroy]) = some s ∧
    s.worker = .ended ∧ s.thread.bind Thread_.destroy = .ok () := by
  obtain ⟨s, hs, hd⟩ := Option.map_eq_some_iff.1
    (show (run (step ()) (new (fun _ => 3) ()) (handshake.take 15 ++ stopEarly ++
      [.worker, .worker, .destroy])).map (fun s => s.starter.destroyed) = some true by decide)
  obtain ⟨-, hend, hthread⟩ := destroyed_after_thread () (fun _ => 3) () _ s hs hd
  exact ⟨s, hs, hend (by decide), hthread⟩

/-- The destructor begins while `mutex_` is still to be released, or `_loop` to be destroyed. -/
example : ([[.destroy], [.worker, .destroy]].map fun last =>
    (run (step ()) (new (fun _ => 3) ()) (handshake.take 15 ++ stopEarly ++ last)).map
      (fun s => (s.starter, s.worker))) =
    [some (.detached, .unlockEnd), some (.detached, .dtor)] := by
  decide

end StartSystem

end WebCore
