import WebCore.ConnBorn
import WebCore.ConnLog

/-!
# The report of the end

`connectDestroyed` takes the channel out of the poller. Where it finds `kConnected` it also disables
the channel and tells the user; otherwise it takes it that `handleClose` has done both.

**Theorem (`taken_down_iff`).** It leaves the connection taken down, that is reported, without
interest and unregistered, iff it finds `kConnected`, or `handleClose` has run and nothing has
enabled the channel since.

A `shutdown` stores `kDisconnected` as well, so a connection that its server destroys after that is
never reported (`never_reported`).
-/

namespace WebCore

namespace ConnSystem

variable {C T : Type*}

/-! ## Who reports -/

/-- A close is reported, and what reports the end is a close or `connectDestroyed`. -/
structure Told (log : List ConnEvent) : Prop where
  close : .handleClose ∈ log → .connectionCallback false ∈ log
  cause : .connectionCallback false ∈ log → .handleClose ∈ log ∨ .connectDestroyed ∈ log

theorem Told.append {log es : List ConnEvent} (h : Told log) (hc : Chunk es) :
    Told (log ++ es) := by
  have hes : Told es := by
    cases hc with
    | traffic htraffic =>
      exact ⟨fun hmem => absurd (htraffic _ hmem) (by simp [ConnEvent.isTraffic]),
        fun hmem => absurd (htraffic _ hmem) (by simp [ConnEvent.isTraffic])⟩
    | message | established | requested => exact ⟨by simp, by simp⟩
    | closed asked => exact ⟨by simp, by simp⟩
    | destroyed asked told => exact ⟨by cases asked <;> simp, by simp⟩
  refine ⟨fun hmem => ?_, fun hmem => ?_⟩
  · rcases List.mem_append.1 hmem with hmem | hmem
    · exact List.mem_append_left es (h.close hmem)
    · exact List.mem_append_right log (hes.close hmem)
  · rcases List.mem_append.1 hmem with hmem | hmem
    · exact (h.cause hmem).imp (List.mem_append_left es) (List.mem_append_left es)
    · exact (hes.cause hmem).imp (List.mem_append_right log) (List.mem_append_right log)

/-! ## The outcome of `connectDestroyed` -/

/-- The end has been reported, and the channel is without interest and unregistered. -/
structure TakenDown (c : TcpConnection C T) : Prop where
  reported : .connectionCallback false ∈ c.log
  disabled : (c.poller.channel c.channel).events = kNoneEvent
  channels : c.poller.channels (c.poller.channel c.channel).fd = none
  interest : c.poller.interest (c.poller.channel c.channel).fd = none

/-- The step runs `connectDestroyed`. -/
def Destroys (s : ConnSystem C T) : ConnAction C T → Prop
  | .runFunctor _ => s.conn.sys.loop.functors.head? = some .connectDestroyed
  | .destroyServerOwn => s.conn.server.inMap = true
  | _ => False

instance (s : ConnSystem C T) : ∀ a, Decidable (s.Destroys a)
  | .runFunctor _ => inferInstanceAs (Decidable (_ = _))
  | .destroyServerOwn => inferInstanceAs (Decidable (_ = _))
  | .loop _ | .handle _ | .newConnection _ | .newConnectionOwn | .sendTest _ _ _ | .sendPush _
  | .shutdownTest _ | .shutdownSet _ | .shutdownPush _ | .sendOwn _ _ _ | .shutdownOwn
  | .removeConnectionInPool _ | .destroyServer _ => inferInstanceAs (Decidable False)

variable [DecidableEq C]

/-- What `connectDestroyed` leaves behind, for any connection on a sound poller. -/
theorem takenDown_connectDestroyed {c : TcpConnection C T} (hs : c.poller.Sound) :
    TakenDown c.connectDestroyed ↔ c.state = .kConnected ∨
      .connectionCallback false ∈ c.log ∧ (c.poller.channel c.channel).isNoneEvent = true := by
  have hch : c.connectDestroyed.channel = c.channel := by
    simp only [TcpConnection.connectDestroyed_eq]
  obtain ⟨p, hp, hps, hlog, hev⟩ : ∃ p : EpollPoller C,
      c.connectDestroyed.poller = p.apply false .remove c.channel ∧ p.Sound ∧
      (.connectionCallback false ∈ c.connectDestroyed.log ↔
        c.state = .kConnected ∨ .connectionCallback false ∈ c.log) ∧
      (p.channel c.channel).events =
        if c.state = .kConnected then kNoneEvent else (c.poller.channel c.channel).events := by
    by_cases hk : c.state = .kConnected
    · refine ⟨c.poller.apply false .disableAll c.channel, ?_, hs.apply _ _, ?_, ?_⟩
      · simp only [TcpConnection.connectDestroyed_eq, if_pos hk]
        rfl
      · simp [TcpConnection.connectDestroyed_eq, hk]
      · rw [if_pos hk, EpollPoller.channel_apply (by simp)]
        rfl
    · refine ⟨c.poller, ?_, hs, ?_, ?_⟩
      · simp only [TcpConnection.connectDestroyed_eq, if_neg hk]
        rfl
      · simp [TcpConnection.connectDestroyed_eq, hk]
      · rw [if_neg hk]
  have hgone := EpollPoller.channel_apply_remove (hps.agrees c.channel) false
  have hagree := (hps.apply .remove c.channel).agrees c.channel
  have hindex : ((p.apply false .remove c.channel).channel c.channel).index = .kNew := by
    rw [hgone]
  have hevents : ((p.apply false .remove c.channel).channel c.channel).events =
      if c.state = .kConnected then kNoneEvent else (c.poller.channel c.channel).events := by
    rw [hgone]; exact hev
  constructor
  · rintro ⟨hrep, hdis, -, -⟩
    rw [hp, hch, hevents] at hdis
    by_cases hk : c.state = .kConnected
    · exact .inl hk
    · rw [if_neg hk] at hdis
      exact .inr ⟨(hlog.1 hrep).resolve_left hk, by simp [Channel.isNoneEvent, hdis]⟩
  · intro h
    refine ⟨hlog.2 (h.imp id And.left), ?_, ?_, ?_⟩
    · rw [hp, hch, hevents]
      split
      · rfl
      · rename_i hk
        simpa [Channel.isNoneEvent] using (h.resolve_left hk).2
    · rw [hp, hch, hagree.channels_eq, if_pos hindex]
    · rw [hp, hch, hagree.interest_eq, if_neg (by simp [hindex])]

/-! ## Runs -/

variable [DecidableEq T]

theorem told_run {s s' : ConnSystem C T} {as : List (ConnAction C T)} (h : Told s.conn.log)
    (hrun : s.run as = some s') : Told s'.conn.log := by
  refine Transition.run_invariant (fun s => Told s.conn.log) (fun s a s' h hstep => ?_) h hrun
  obtain ⟨es, hes, hc⟩ := step_chunk hstep
  show Told s'.conn.log
  rw [hes]
  exact h.append hc

/-- A connection that is to be destroyed has been reported only if it has been closed. -/
theorem reported_iff_closed {s s' : ConnSystem C T} {a : ConnAction C T} (hb : Born s)
    (ht : Told s.conn.log) (ha : s.Destroys a) (h : s.step a = some s') :
    .connectionCallback false ∈ s.conn.log ↔ .handleClose ∈ s.conn.log := by
  refine ⟨fun hrep => ?_, ht.close⟩
  by_contra hclose
  have hzero : s.conn.log.count .handleClose = 0 := List.count_eq_zero.2 hclose
  have hdest := List.count_pos_iff.2 ((ht.cause hrep).resolve_left hclose)
  have hq := hb.ledger.queue
  have hone := hb.ledger.unclosed hzero
  cases a with
  | runFunctor e =>
    -- One request is served and one is queued.
    have hmem : .connectDestroyed ∈ s.conn.queue := by
      obtain ⟨rest, hf⟩ := List.head?_eq_some_iff.1 ha
      exact mem_queue hf
    have := List.count_pos_iff.2 hmem
    omega
  | destroyServerOwn =>
    obtain ⟨-, halive, -⟩ := step_inv h
    have := (hb.ledger.server halive).1.1 ha
    omega
  | _ => exact ha

/-- **When `connectDestroyed` returns, the connection is taken down iff** it was `kConnected`, or
`handleClose` had run and the channel had no interest. -/
theorem taken_down_iff (fd : C → Int) (hfd : Function.Injective fd) (wakeupChannel channel : C)
    (hne : channel ≠ wakeupChannel) (sameLoop writeComplete highWater : Bool)
    (as : List (ConnAction C T)) (a : ConnAction C T) (s s' : ConnSystem C T)
    (h : (new (.new fd wakeupChannel) channel sameLoop writeComplete highWater).run as = some s)
    (hup : .connectionCallback true ∈ s.conn.log) (ha : s.Destroys a) (h' : s.step a = some s') :
    TakenDown s'.conn ↔ s.conn.state = .kConnected ∨
      .handleClose ∈ s.conn.log ∧ s.entry.isNoneEvent = true := by
  have ht : Told s.conn.log := told_run ⟨by simp [new, TcpConnection.new], by simp [new,
    TcpConnection.new]⟩ h
  have hb := born_of_up (unborn_new hfd hne sameLoop writeComplete highWater) h hup
  rw [← reported_iff_closed hb ht ha h']
  cases a with
  | runFunctor e =>
    obtain ⟨-, -, f, rest, conn, hf, hrun, rfl⟩ := step_inv h'
    obtain rfl : f = .connectDestroyed := by
      have hhead : s.conn.sys.loop.functors.head? = some .connectDestroyed := ha
      rw [hf] at hhead
      exact Option.some.inj hhead
    obtain rfl := Option.some.inj hrun
    exact takenDown_connectDestroyed (c := s.took .connectDestroyed rest) hb.sound
  | destroyServerOwn =>
    have hm : s.conn.server.inMap = true := ha
    obtain ⟨-, -, -, ⟨-, rfl⟩ | ⟨hno, -⟩⟩ := step_inv h'
    · have hlog : .connectionCallback false ∈ (s.orphaned.note .destroyRequest).log ↔
          .connectionCallback false ∈ s.conn.log := by
        show _ ∈ s.conn.log ++ [ConnEvent.destroyRequest] ↔ _
        simp
      have hout := takenDown_connectDestroyed (c := s.orphaned.note .destroyRequest) hb.sound
      rwa [hlog] at hout
    · rw [hm] at hno
      cases hno
  | _ => exact ha.elim

/-- The peer closes, and the loop is about to run `connectDestroyed`. -/
def peerClosed : List (ConnAction Bool Unit) :=
  [.newConnectionOwn, .loop .enter, .loop .test, .loop (.pollReturn [(true, EPOLLIN)]),
    .loop .dispatch, .handle (answers 0 (.received [])), .loop .startFunctors,
    .loop .swapFunctors]

theorem peerClosed_ready :
    (((sampleSystem true).run peerClosed).bind fun s =>
      s.step (.runFunctor (answers 0 (.failed 0)))).isSome ∧
    ((sampleSystem true).run peerClosed).all (fun s => decide
      (.connectionCallback true ∈ s.conn.log ∧ s.Destroys (.runFunctor (answers 0 (.failed 0))) ∧
        .handleClose ∈ s.conn.log ∧ s.entry.isNoneEvent = true)) = true := by
  decide +kernel

theorem taken_down_peerClosed :
    (((sampleSystem true).run peerClosed).bind fun s =>
      s.step (.runFunctor (answers 0 (.failed 0)))).isSome ∧
    ∀ s s', (sampleSystem true).run peerClosed = some s →
      s.step (.runFunctor (answers 0 (.failed 0))) = some s' → TakenDown s'.conn := by
  obtain ⟨hsome, hready⟩ := peerClosed_ready
  refine ⟨hsome, fun s s' h h' => ?_⟩
  rw [h] at hready
  obtain ⟨hup, ha, hdown⟩ := of_decide_eq_true hready
  exact (taken_down_iff sampleFd (by decide) false true (by decide) true false false peerClosed
    _ s s' h hup ha h').2 (.inr hdown)

/-- **A connection that is shut down and then destroyed with its server is never reported down**,
and keeps its interest. -/
theorem never_reported :
    ((sampleSystem true).run [.newConnectionOwn, .shutdownOwn, .destroyServerOwn]).map
      (fun s => (s.conn.log, s.entry.events)) =
    some ([.connectionCallback true, .shutdownWrite, .destroyRequest, .connectDestroyed],
      kReadEvent) := by
  decide +kernel

end ConnSystem

end WebCore
