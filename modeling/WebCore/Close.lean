import WebCore.ConnStep

/-!
# One close, and quiet after it

**Theorem (`close_at_most_once`).** In a run whose steps are all `Undisturbed`, `handleClose` is
executed at most once, the user is told of the end at most once, and the server is asked to remove
and to destroy the connection at most once.

**Theorem (`closed_stays_quiet`).** When moreover a `sendInLoop` that runs after the end has nothing
to send and finds output pending (`LeftAlone`), nothing is written or appended after the end, and
the channel is not registered again.

Without the conditions both fail: `closed_twice` is one dispatch that closes the connection in its
read handler and in its close handler, and `reopened` is a send that was queued before the close and
runs after it. `sendInLoop` logs that it gives up writing there, but does not return.
-/

namespace WebCore

namespace ConnSystem

variable {C T : Type*}

/-! ## Silence -/

/-- The log grows, and not by output. -/
def Silent (c c' : TcpConnection C T) : Prop :=
  ∃ es, c'.log = c.log ++ es ∧ ∀ e ∈ es, e.isOutput = false

theorem Silent.of_log {c c' : TcpConnection C T} (h : c'.log = c.log) : Silent c c' :=
  ⟨[], by rw [h, List.append_nil], nofun⟩

theorem Silent.trans {c₁ c₂ c₃ : TcpConnection C T} (h : Silent c₁ c₂) (h' : Silent c₂ c₃) :
    Silent c₁ c₃ := by
  obtain ⟨es, hes, hout⟩ := h
  obtain ⟨es', hes', hout'⟩ := h'
  refine ⟨es ++ es', by rw [hes', hes, List.append_assoc], fun e hmem => ?_⟩
  exact (List.mem_append.1 hmem).elim (hout e) (hout' e)

theorem silent_note {e : ConnEvent} (he : e.isOutput = false) (c : TcpConnection C T) :
    Silent c (c.note e) :=
  ⟨[e], rfl, by simpa using he⟩

theorem silent_shutdownInLoop (c : TcpConnection C T) : Silent c c.shutdownInLoop := by
  unfold TcpConnection.shutdownInLoop
  by_cases hw : c.isWriting = true
  · exact .of_log (by rw [if_pos hw])
  · exact ⟨[.shutdownWrite], by rw [if_neg hw], by simp [ConnEvent.isOutput]⟩

/-! ## After the end -/

/-- A functor that runs now neither writes nor appends. -/
def sendsNothing (s : ConnSystem C T) : LoopFunctor → Prop
  | .sendInLoop _ len _ => len = 0 ∧ ¬s.conn.writesDirectly
  | _ => True

/-- The step is undisturbed, and after the end it runs no send that has something to do. -/
def LeftAlone (s : ConnSystem C T) : ConnAction C T → Prop
  | .runFunctor _ => s.ended → ∀ f ∈ s.conn.sys.loop.functors.head?, s.sendsNothing f
  | a => s.Undisturbed a

theorem LeftAlone.undisturbed {s : ConnSystem C T} {a : ConnAction C T} (h : s.LeftAlone a) :
    s.Undisturbed a := by
  cases a with
  | runFunctor e =>
    intro hended f hf
    have hnone := h hended f hf
    cases f with
    | sendInLoop data len call =>
      refine .inr ?_
      rw [TcpConnection.leavesNothing, if_neg hnone.2]
      exact hnone.1
    | _ => trivial
  | _ => exact h

instance (s : ConnSystem C T) : ∀ f, Decidable (s.sendsNothing f)
  | .sendInLoop _ _ _ => inferInstanceAs (Decidable (_ ∧ ¬(_ ∧ _)))
  | .shutdownInLoop | .connectEstablished | .connectDestroyed | .writeComplete
  | .highWaterMark _ | .other => inferInstanceAs (Decidable True)

variable [DecidableEq C]

theorem silent_connectDestroyed (c : TcpConnection C T) : Silent c c.connectDestroyed := by
  rw [TcpConnection.connectDestroyed_eq]
  refine ⟨_, rfl, ?_⟩
  split <;> simp [ConnEvent.isOutput]

instance (s : ConnSystem C T) : ∀ a, Decidable (s.LeftAlone a)
  | .runFunctor _ =>
    inferInstanceAs (Decidable (s.ended →
      ∀ f ∈ s.conn.sys.loop.functors.head?, s.sendsNothing f))
  | .handle e => inferInstanceAs (Decidable (s.Undisturbed (.handle e)))
  | .destroyServerOwn => inferInstanceAs (Decidable (s.Undisturbed .destroyServerOwn))
  | .loop _ | .newConnection _ | .newConnectionOwn | .sendTest _ _ _ | .sendPush _
  | .shutdownTest _ | .shutdownSet _ | .shutdownPush _ | .sendOwn _ _ _ | .shutdownOwn
  | .removeConnectionInPool _ | .destroyServer _ => inferInstanceAs (Decidable True)

theorem Life.silent_handler {st : Stage} {s : ConnSystem C T} {e : Answers} {h : Handler}
    {rest : List Handler} {conn : TcpConnection C T} (hs : Life st s)
    (hend : st = .closed ∨ st = .destroyed) (hl : s.handling = h :: rest)
    (hrun : s.conn.runHandler e h = some conn) : Silent s.conn conn := by
  have hdead : st ≠ .alive := by rcases hend with rfl | rfl <;> simp
  cases h with
  | error =>
    obtain rfl := Option.some.inj hrun
    exact .of_log rfl
  | read => exact absurd (hs.tied.closing (.inl (by simp [hl]))) hdead
  | write =>
    simp only [TcpConnection.runHandler, Option.ite_none_right_eq_some, Option.some.injEq] at hrun
    obtain ⟨-, rfl⟩ := hrun
    have hw : s.conn.isWriting ≠ true := by
      intro hw
      have hd := (hs.registered.stage_of_isWriting hw).resolve_left hdead
      simpa [hl] using hs.tied.quiet (.inr hd)
    exact .of_log (by rw [TcpConnection.handleWrite, if_neg hw])
  | close => exact absurd (hs.tied.closing (.inr (by simp [hl]))) hdead

theorem Life.silent_functor {st : Stage} {s : ConnSystem C T} {e : Answers} {f : LoopFunctor}
    {rest : List LoopFunctor} {conn : TcpConnection C T} (hs : Life st s)
    (hend : st = .closed ∨ st = .destroyed) (hok : s.sendsNothing f)
    (hf : s.conn.sys.loop.functors = f :: rest)
    (hrun : (s.took f rest).callFunctor e f = some conn) : Silent s.conn conn := by
  cases f with
  | sendInLoop data len call =>
    simp only [TcpConnection.callFunctor, Option.ite_none_right_eq_some, toOption_eq_some] at hrun
    obtain ⟨rfl, hd⟩ := hok
    have hsend := hrun.2
    rw [TcpConnection.sendInLoop, if_neg (by exact hd), TcpConnection.bufferRest_zero] at hsend
    obtain rfl := Except.ok.inj hsend
    exact silent_note rfl _
  | shutdownInLoop =>
    obtain rfl := Option.some.inj hrun
    exact silent_shutdownInLoop _
  | connectEstablished =>
    rw [(hs.booked.of_connectEstablished hf).1] at hend
    simp at hend
  | connectDestroyed =>
    obtain rfl := Option.some.inj hrun
    exact silent_connectDestroyed _
  | writeComplete | highWaterMark | other =>
    obtain rfl := Option.some.inj hrun
    exact .of_log rfl

/-! ## At most one close -/

variable [DecidableEq T]

theorem Life.run {st : Stage} {s s' : ConnSystem C T} {as : List (ConnAction C T)}
    (hs : Life st s) (hok : Transition.Meets ConnSystem.step Undisturbed s as)
    (h : s.run as = some s') :
    ∃ st', Life st' s' :=
  hok.invariant (fun s => ∃ st, Life st s) (fun _ _ _ ⟨_, hs⟩ hok h => hs.step hok h) ⟨st, hs⟩ h

/-- **A connection is closed at most once**, in every run of its loop, its users and its server
whose steps are undisturbed. -/
theorem close_at_most_once (fd : C → Int) (hfd : Function.Injective fd) (wakeupChannel channel : C)
    (hne : channel ≠ wakeupChannel) (sameLoop writeComplete highWater : Bool)
    (as : List (ConnAction C T)) (s : ConnSystem C T)
    (hok : Transition.Meets step Undisturbed
      (new (.new fd wakeupChannel) channel sameLoop writeComplete highWater) as)
    (h : (new (.new fd wakeupChannel) channel sameLoop writeComplete highWater).run as = some s) :
    s.conn.log.count .handleClose ≤ 1 ∧
    s.conn.log.count (.connectionCallback false) ≤ 1 ∧
    s.conn.log.count .closeCallback ≤ 1 ∧
    s.conn.log.count .destroyRequest ≤ 1 := by
  obtain ⟨st, hs⟩ := (life_new hfd hne sameLoop writeComplete highWater).run hok h
  have hb := hs.booked
  exact ⟨hb.closes_le, hb.reports_le, hb.closeCallbacks ▸ hb.closes_le, hb.requests.2⟩

/-! ### Two runs of one connection -/

/-- A connection is made, leaves output pending, and is closed by its peer while the thread is in
`send`. -/
def closing : List (ConnAction Bool Unit) :=
  [.newConnection (), .loop (.wakeup ()), .loop .enter, .loop .test, .loop (.pollReturn []),
    .loop .startFunctors, .loop .swapFunctors, .runFunctor (answers 0 (.failed 0)),
    .sendOwn 0 [0, 0] (answers 1 (.failed 0)), .sendTest () 0 [], .loop .endFunctors,
    .loop .test, .loop (.pollReturn [(true, EPOLLIN)]), .loop .dispatch,
    .handle (answers 0 (.received []))]

/-- The send and the removal reach the loop. -/
def removing : List (ConnAction Bool Unit) :=
  [.sendPush (), .loop (.wakeup ()), .removeConnectionInPool (), .loop .startFunctors,
    .loop .swapFunctors, .runFunctor (answers 0 (.failed 0)), .runFunctor (answers 0 (.failed 0))]

theorem closed_once : ((sampleSystem false).run (closing ++ removing)).isSome ∧
    ∀ s, (sampleSystem false).run (closing ++ removing) = some s →
      s.conn.log.count .handleClose ≤ 1 ∧ s.conn.log.count (.connectionCallback false) ≤ 1 ∧
      s.conn.log.count .closeCallback ≤ 1 ∧ s.conn.log.count .destroyRequest ≤ 1 :=
  ⟨by decide +kernel, fun s h => close_at_most_once sampleFd (by decide) false
    true (by decide) false false false (closing ++ removing) s (by decide +kernel) h⟩

/-- **One dispatch closes a connection twice**: a read event without `EPOLLIN`, a hang-up, and a
read that finds the end of the stream. -/
theorem closed_twice :
    ((sampleSystem true).run [.newConnectionOwn, .loop .enter, .loop .test,
      .loop (.pollReturn [(true, EPOLLPRI ||| EPOLLHUP)]), .loop .dispatch,
      .handle (answers 0 (.received [])), .handle (answers 0 (.received []))]).map
      (fun s => (s.conn.log.count .handleClose, s.conn.log.count (.connectionCallback false),
        s.conn.log.count .closeCallback, s.conn.log.count .destroyRequest)) =
      some (2, 2, 2, 2) := by
  decide +kernel

/-! ## Quiet after the end -/

/-- **After the end no step writes or appends**, when it is left alone. -/
theorem Life.silent {st : Stage} {s s' : ConnSystem C T} {a : ConnAction C T} (hs : Life st s)
    (hend : st = .closed ∨ st = .destroyed) (hok : s.LeftAlone a) (h : s.step a = some s') :
    Silent s.conn s'.conn := by
  have hb := hs.booked
  have hdown := hb.not_kConnected hend
  have hinv := step_inv h
  cases a with
  | loop a =>
    obtain ⟨-, sys, -, rfl⟩ := hinv
    exact .of_log rfl
  | handle e =>
    obtain ⟨-, -, h, rest, conn, hl, hrun, rfl⟩ := hinv
    exact hs.silent_handler hend hl hrun
  | runFunctor e =>
    obtain ⟨-, -, f, rest, conn, hf, hrun, rfl⟩ := hinv
    exact hs.silent_functor hend (hok (hb.ended_iff.2 hend) f (by rw [hf]; rfl)) hf hrun
  | newConnection t =>
    obtain ⟨hc, -⟩ := hinv
    rw [(hb.unborn hc).1] at hend
    simp at hend
  | newConnectionOwn =>
    obtain ⟨hc, -⟩ := hinv
    rw [(hb.unborn hc).1] at hend
    simp at hend
  | sendTest => exact absurd hinv.1 hdown
  | sendPush t =>
    obtain ⟨data, len, call, -, rfl⟩ := hinv
    exact .of_log rfl
  | shutdownTest => exact absurd hinv.1 hdown
  | shutdownSet | shutdownPush =>
    obtain ⟨-, rfl⟩ := hinv
    exact .of_log rfl
  | sendOwn data payload e =>
    obtain ⟨-, -, -, -, conn, hsend, rfl⟩ := hinv
    rw [TcpConnection.send, if_neg hdown] at hsend
    obtain rfl := Except.ok.inj hsend
    exact .of_log rfl
  | shutdownOwn =>
    obtain ⟨-, rfl⟩ := hinv
    exact .of_log (by rw [TcpConnection.shutdown, if_neg hdown])
  | removeConnectionInPool t =>
    obtain ⟨-, -, -, rfl⟩ := hinv
    exact silent_note (c := s.conn.setServer _) rfl
  | destroyServer t =>
    obtain ⟨-, ⟨-, rfl⟩ | ⟨-, rfl⟩⟩ := hinv
    · exact silent_note rfl s.orphaned
    · exact .of_log rfl
  | destroyServerOwn =>
    obtain ⟨-, -, -, ⟨-, rfl⟩ | ⟨-, rfl⟩⟩ := hinv
    · exact (silent_note (e := .destroyRequest) rfl s.orphaned).trans (silent_connectDestroyed _)
    · exact .of_log rfl

/-- **A closed connection stays quiet.** -/
theorem closed_stays_quiet (fd : C → Int) (hfd : Function.Injective fd) (wakeupChannel channel : C)
    (hne : channel ≠ wakeupChannel) (sameLoop writeComplete highWater : Bool)
    (as bs : List (ConnAction C T)) (s s' : ConnSystem C T)
    (hok : Transition.Meets step LeftAlone
      (new (.new fd wakeupChannel) channel sameLoop writeComplete highWater) (as ++ bs))
    (h : (new (.new fd wakeupChannel) channel sameLoop writeComplete highWater).run as = some s)
    (hended : s.ended) (h' : s.run bs = some s') :
    Silent s.conn s'.conn ∧
    s'.conn.poller.interest s'.entry.fd = none ∧
    (s.conn.poller.channels s.entry.fd = none → s'.conn.poller.channels s'.entry.fd = none) := by
  obtain ⟨hok, hok'⟩ := Transition.meets_append hok h
  obtain ⟨st, hs⟩ := (life_new hfd hne sameLoop writeComplete highWater).run
    (hok.mono fun _ _ => LeftAlone.undisturbed) h
  have hst := hs.booked.ended_iff.1 hended
  obtain ⟨st', hs', hst', hsilent⟩ := hok'.invariant
    (fun s' => ∃ st', Life st' s' ∧ (st' = .closed ∨ st' = .destroyed) ∧ Silent s.conn s'.conn)
    (fun s₁ a s₂ ⟨st₁, hs₁, hst₁, hsilent₁⟩ hok₁ h₁ => by
      obtain ⟨st₂, hs₂⟩ := hs₁.step hok₁.undisturbed h₁
      have hstep := hs₁.silent hst₁ hok₁ h₁
      refine ⟨st₂, hs₂, hs₂.booked.ended_iff.1 ?_, hsilent₁.trans hstep⟩
      obtain ⟨es, hes, -⟩ := hstep
      rw [hes]
      exact (hs₁.booked.ended_iff.2 hst₁).imp (List.mem_append_left es) (List.mem_append_left es))
    ⟨st, hs, hst, .of_log rfl⟩ h'
  refine ⟨hsilent, hs'.registered.interest_eq_none ?_, fun hnone => ?_⟩
  · rcases hst' with rfl | rfl <;> simp
  · have hd := hs.booked.destroyed_iff.2 ((hs.registered.channels_eq_none hst).1 hnone)
    obtain ⟨es, hes, -⟩ := hsilent
    have hd' : .connectDestroyed ∈ s'.conn.log := by
      rw [hes]
      exact List.mem_append_left es hd
    exact (hs'.registered.channels_eq_none hst').2 (hs'.booked.destroyed_iff.1 hd')

theorem leftAlone_closing :
    Transition.Meets step LeftAlone (sampleSystem false) (closing ++ removing) := by
  decide +kernel

theorem ended_closing :
    ((sampleSystem false).run closing).all (fun s => decide s.ended) = true := by
  decide +kernel

theorem quiet_removing :
    (((sampleSystem false).run closing).bind fun s => s.run removing).isSome ∧
    ∀ s s', (sampleSystem false).run closing = some s → s.run removing = some s' →
      Silent s.conn s'.conn ∧ s'.conn.poller.interest s'.entry.fd = none ∧
      (s.conn.poller.channels s.entry.fd = none →
        s'.conn.poller.channels s'.entry.fd = none) := by
  refine ⟨by decide +kernel, fun s s' h h' => ?_⟩
  have hended := ended_closing
  rw [h] at hended
  exact closed_stays_quiet sampleFd (by decide) false true (by decide) false
    false false closing removing s s' leftAlone_closing h (of_decide_eq_true hended) h'

/-- **A send reopens a connection**: it sees `kConnected`, the peer closes, and the functor runs
after `connectDestroyed`. -/
theorem reopened :
    let as : List (ConnAction Bool Unit) := [.newConnectionOwn, .loop .enter, .sendTest () 0 [0, 0],
      .loop .test, .loop (.pollReturn [(true, EPOLLIN)]), .loop .dispatch,
      .handle (answers 0 (.received [])), .sendPush (), .loop .startFunctors, .loop .swapFunctors,
      .runFunctor (answers 0 (.failed 0))]
    ((sampleSystem true).run as).map (fun s => (decide s.ended, s.conn.log.length,
      s.conn.poller.channels 4, (s.conn.poller.interest 4).isSome)) =
      some (true, 7, none, false) ∧
    ((sampleSystem true).run (as ++ [.runFunctor (answers 1 (.failed 0))])).map (fun s =>
      (s.conn.log.drop 7, s.conn.poller.channels 4, (s.conn.poller.interest 4).isSome)) =
      some ([.sendInLoop ⟨0, [0, 0]⟩, .write [0], .append [0]], some true, true) := by
  decide +kernel

end ConnSystem

end WebCore
