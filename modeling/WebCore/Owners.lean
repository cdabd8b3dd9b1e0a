import WebCore.ConnQueue

/-!
# Who owns a connection

The kernel's interest set and `activeChannels_` refer to a `Channel` by a raw pointer. What keeps
the channel's `TcpConnection` is its entry in `connections`, and later a functor: the removal that
is queued on the base loop, then `connectDestroyed` on the io loop. The callbacks of the user that
wait in the queue hold a pointer as well. The guard of a dispatch and a functor that is being run
would count too, but are not needed.

**Theorem (`dispatched_owned`).** While the server is not destroyed and the connection is used on
its own loop only, a connection whose channel is active or being handled has an owner, and an
established connection that has none has been destroyed and is unregistered.

The connection is destroyed outside of a dispatch, and is `Gone` from then on: nothing can register
its channel again.
-/

namespace WebCore

namespace ConnSystem

variable {C T : Type*}

/-- The owners of the connection. -/
def owners (s : ConnSystem C T) : Nat :=
  s.conn.serverOwners + s.conn.queue.countP LoopFunctor.holds

/-- A connection without an owner has been destroyed. -/
theorem Born.destroyed_of_owners {s : ConnSystem C T} (hb : Born s) (h : s.owners = 0) :
    .connectDestroyed ∈ s.conn.log := by
  obtain ⟨hserver, hqueue⟩ : s.conn.serverOwners = 0 ∧
      s.conn.queue.countP LoopFunctor.holds = 0 := by
    unfold owners at h; omega
  have hreq : 0 < s.conn.log.count .destroyRequest := by
    by_cases ha : s.conn.server.alive = true
    · by_contra h0
      have hm := (hb.ledger.server ha).1.2 (by omega)
      simp [TcpConnection.serverOwners, ha, hm] at hserver
    · exact hb.ledger.dead (by simpa using ha)
  have hnone : s.conn.queue.count .connectDestroyed = 0 := by
    refine List.count_eq_zero.2 fun hmem => ?_
    have : 0 < s.conn.queue.countP LoopFunctor.holds := List.countP_pos_iff.2 ⟨_, hmem, rfl⟩
    omega
  have hq := hb.ledger.queue
  exact List.count_pos_iff.1 (by omega)

/-! ## The end -/

/-- Nothing can reach the connection's channel any more. -/
structure Gone (s : ConnSystem C T) : Prop where
  state : s.conn.state = .kDisconnected
  index : (s.conn.poller.channel s.conn.channel).index = .kNew
  active : s.conn.channel ∉ s.conn.sys.loop.activeChannels
  handled : s.handling = []

/-- No thread uses the connection, and it is gone once it has been destroyed. -/
structure Local (s : ConnSystem C T) : Prop where
  user : ∀ t, s.user t = .idle
  queue : ∀ f ∈ s.conn.queue, f.isUse = false
  gone : .connectDestroyed ∈ s.conn.log → Gone s

/-- The server is not destroyed, and no other thread begins to use the connection. -/
def StaysLocal : ConnSystem C T → ConnAction C T → Prop
  | _, .sendTest _ _ _ | _, .shutdownTest _ | _, .destroyServer _ | _, .destroyServerOwn => False
  | _, _ => True

instance (s : ConnSystem C T) : ∀ a, Decidable (s.StaysLocal a)
  | .sendTest _ _ _ | .shutdownTest _ | .destroyServer _ | .destroyServerOwn =>
    inferInstanceAs (Decidable False)
  | .loop _ | .handle _ | .runFunctor _ | .newConnection _ | .newConnectionOwn | .sendPush _
  | .shutdownSet _ | .shutdownPush _ | .sendOwn _ _ _ | .shutdownOwn
  | .removeConnectionInPool _ => inferInstanceAs (Decidable True)

theorem local_newborn {s : ConnSystem C T} (h : Newborn s) : Local s := by
  refine ⟨h.unused.1, h.unused.2, fun hmem => ?_⟩
  rcases h.log _ hmem with he | he <;> cases he

/-- A step that queues no use of the connection. -/
theorem Local.of_frame {s s' : ConnSystem C T} {fs : List LoopFunctor} (hl : Local s)
    (hf : s.conn.sys.Frame fs s'.conn.sys) (hfs : ∀ f ∈ fs, f.isUse = false)
    (hu : s'.user = s.user) (hgone : .connectDestroyed ∈ s'.conn.log → Gone s') : Local s' := by
  refine ⟨fun t => by rw [hu]; exact hl.user t, fun f hmem => ?_, hgone⟩
  rw [queue_frame hf] at hmem
  exact (List.mem_append.1 hmem).elim (hl.queue f) (hfs f)

/-- What runs in a connection that has not been destroyed. -/
theorem Local.of_quiet {s : ConnSystem C T} {conn : TcpConnection C T} (hl : Local s)
    (hlog : .connectDestroyed ∉ s.conn.log) (h : TcpConnection.Quiet s.conn conn) :
    Local { s with conn } := by
  obtain ⟨fs, hfs, hf⟩ := h.frame
  refine hl.of_frame hf (fun f hmem => LoopFunctor.isUse_of_isNotice (hfs f hmem)) rfl
    fun hmem => ?_
  have hcount := h.count_eq (e := .connectDestroyed) rfl
  have := List.count_pos_iff.2 hmem
  exact absurd (List.count_pos_iff.1 (hcount ▸ this)) hlog

section Local

variable [DecidableEq C] {s s' : ConnSystem C T}

theorem Local.handleClose (hl : Local s) (hlog : .connectDestroyed ∉ s.conn.log) :
    Local { s with conn := s.conn.handleClose } := by
  refine hl.of_frame (TcpConnection.frame_handleClose s.conn) ?_ rfl fun hmem => ?_
  · unfold TcpConnection.closeRequest
    split <;> simp [LoopFunctor.isUse]
  · have hmem : .connectDestroyed ∈ s.conn.handleClose.log := hmem
    rw [TcpConnection.handleClose_eq] at hmem
    dsimp only at hmem
    split at hmem <;> exact absurd (by simpa using hmem) hlog

theorem Local.handle {e : Answers} {h : Handler} {rest : List Handler} {conn : TcpConnection C T}
    (hl : Local s) (hh : s.handling = h :: rest) (hrun : s.conn.runHandler e h = some conn) :
    Local { s with conn, handling := rest } := by
  have hlog : .connectDestroyed ∉ s.conn.log := fun hmem => by
    have := (hl.gone hmem).handled
    rw [hh] at this
    cases this
  have hpop : Local { s with handling := rest } :=
    ⟨hl.user, hl.queue, fun hmem => absurd hmem hlog⟩
  cases h with
  | error =>
    obtain rfl := Option.some.inj hrun
    exact hpop
  | read =>
    obtain ⟨b, hread⟩ := handleRead_inv (toOption_eq_some.1 hrun)
    have hin : Local { s with conn := { s.conn with inputBuffer := b }, handling := rest } :=
      ⟨hl.user, hl.queue, fun hmem => absurd hmem hlog⟩
    rcases hread with rfl | ⟨-, rfl⟩ | rfl
    · exact hin.of_quiet hlog (TcpConnection.quiet_note (e := .messageCallback) rfl _)
    · exact hin.handleClose hlog
    · exact hin
  | write =>
    simp only [TcpConnection.runHandler, Option.ite_none_right_eq_some, Option.some.injEq] at hrun
    obtain ⟨-, rfl⟩ := hrun
    exact hpop.of_quiet hlog (TcpConnection.quiet_handleWrite e.write s.conn)
  | close =>
    obtain rfl := Option.some.inj hrun
    exact hpop.handleClose hlog

/-- `connectDestroyed`, when no event of this iteration is to be handled any longer. -/
theorem gone_connectDestroyed (hb : Settled s) (hact : s.conn.sys.loop.activeChannels = [])
    (hnil : s.handling = []) : Gone { s with conn := s.conn.connectDestroyed } := by
  have hs := hb.sound
  have hch : s.conn.connectDestroyed.channel = s.conn.channel := by
    simp only [TcpConnection.connectDestroyed_eq]
  refine ⟨?_, ?_, ?_, hnil⟩
  · rcases hb.state with hst | hst <;> simp [TcpConnection.connectDestroyed_eq, hst]
  · show (s.conn.connectDestroyed.poller.channel s.conn.connectDestroyed.channel).index = .kNew
    rw [hch]
    by_cases hk : s.conn.state = .kConnected
    · have hp : s.conn.connectDestroyed.poller = (s.conn.poller.apply false .disableAll
          s.conn.channel).apply false .remove s.conn.channel := by
        rw [TcpConnection.connectDestroyed_eq, if_pos hk]; rfl
      rw [hp, EpollPoller.channel_apply_remove ((hs.apply .disableAll _).agrees _)]
    · have hp : s.conn.connectDestroyed.poller =
          s.conn.poller.apply false .remove s.conn.channel := by
        rw [TcpConnection.connectDestroyed_eq, if_neg hk]; rfl
      rw [hp, EpollPoller.channel_apply_remove (hs.agrees _)]
  · show s.conn.connectDestroyed.channel ∉ s.conn.connectDestroyed.sys.loop.activeChannels
    rw [(TcpConnection.frame_connectDestroyed s.conn).activeChannels, hact]
    exact List.not_mem_nil

theorem Local.runFunctor {e : Answers} {f : LoopFunctor} {rest : List LoopFunctor}
    {conn : TcpConnection C T} (hl : Local s) (hb : Born s) (hpc : s.conn.sys.loop.pc = .run)
    (hf : s.conn.sys.loop.functors = f :: rest)
    (hrun : (s.took f rest).callFunctor e f = some conn) : Local { s with conn } := by
  have hqueue : ∀ g ∈ (s.took f rest).queue, g.isUse = false := fun g hmem =>
    hl.queue g (queue_took hf ▸ List.mem_cons_of_mem f hmem)
  have hkeep : Local { s with conn := s.took f rest } := by
    refine ⟨hl.user, hqueue, fun hmem => ?_⟩
    obtain ⟨hst, hi, hact, hnil⟩ := hl.gone hmem
    exact ⟨hst, hi, hact, hnil⟩
  have huse := hl.queue f (mem_queue hf)
  cases f with
  | sendInLoop | shutdownInLoop => cases huse
  | connectEstablished => exact absurd (mem_queue hf) hb.begun
  | connectDestroyed =>
    obtain rfl := Option.some.inj hrun
    obtain ⟨hact, hnil⟩ := hb.scheduled.idle (by simp [hpc])
    exact hkeep.of_frame (TcpConnection.frame_connectDestroyed _) (by simp) rfl fun _ =>
      gone_connectDestroyed (hb.toSettled.took hpc hf) hact hnil
  | writeComplete | highWaterMark | other =>
    obtain rfl := Option.some.inj hrun
    exact hkeep

variable [DecidableEq T]

/-- The loop does not come back to a channel that is gone. -/
theorem Gone.loop {a : LoopAction LoopFunctor C T} {sys : LoopSystem LoopFunctor C T}
    (hg : Gone s) (hs : s.conn.poller.Sound) (hp : s.passes a = true)
    (h : s.conn.sys.step a = some sys) :
    Gone { s with conn := s.conn.setSys sys, handling := s.nextHandling a } := by
  obtain ⟨-, revents, hrec, -⟩ := LoopSystem.step_channel hs (passes_channelOp hp) h
  refine ⟨hg.state, ?_, fun hmem => ?_, ?_⟩
  · show (sys.loop.poller.channel s.conn.channel).index = _
    rw [hrec]
    exact hg.index
  · rcases LoopSystem.step_active h hmem with ⟨-, hmem⟩ | ⟨active, m, -, -, hrep⟩
    · exact hg.active hmem
    · have hadded := LoopSystem.kAdded_of_mayReport hs hrep
      exact absurd (hadded.symm.trans hg.index) (by simp)
  · show s.nextHandling a = []
    cases a with
    | dispatch =>
      rw [nextHandling, if_neg]
      exact fun hhead => hg.active (List.mem_of_mem_head? hhead)
    | _ => exact hg.handled

/-- **Every step of a local run keeps the connection local.** -/
theorem Local.step {a : ConnAction C T} (hb : Born s) (hl : Local s) (hok : s.StaysLocal a)
    (h : s.step a = some s') : Local s' := by
  have hinv := step_inv h
  have hstate : s.conn.state = .kConnected → .connectDestroyed ∉ s.conn.log := fun hk hmem =>
    absurd (hk.symm.trans (hl.gone hmem).state) (by simp)
  cases a with
  | loop a =>
    obtain ⟨hp, sys, hsys, rfl⟩ := hinv
    have ha : a ≠ .runFunctor := by rintro rfl; simp [passes] at hp
    have hq : (s.conn.setSys sys).queue = s.conn.queue ++ LoopSystem.pushes a :=
      LoopSystem.step_queue hb.scheduled.batch ha hsys
    refine ⟨hl.user, fun f hmem => ?_, fun hmem => (hl.gone hmem).loop hb.sound hp hsys⟩
    have hmem : f ∈ (s.conn.setSys sys).queue := hmem
    rw [hq] at hmem
    rcases List.mem_append.1 hmem with hmem | hmem
    · exact hl.queue f hmem
    · rw [pushes_other hp hmem]; rfl
  | handle e =>
    obtain ⟨-, -, h, rest, conn, hh, hrun, rfl⟩ := hinv
    exact hl.handle hh hrun
  | runFunctor e =>
    obtain ⟨hpc, -, f, rest, conn, hf, hrun, rfl⟩ := hinv
    exact hl.runFunctor hb hpc hf hrun
  | newConnection | newConnectionOwn => exact absurd (hb.created.symm.trans hinv.1) (by simp)
  | sendTest | shutdownTest | destroyServer | destroyServerOwn => exact hok.elim
  | sendPush t =>
    obtain ⟨data, len, call, hu, -⟩ := hinv
    rw [hl.user t] at hu
    cases hu
  | shutdownSet t | shutdownPush t =>
    have hu := hinv.1
    rw [hl.user t] at hu
    cases hu
  | sendOwn data payload e =>
    obtain ⟨-, -, -, -, conn, hsend, rfl⟩ := hinv
    by_cases hk : s.conn.state = .kConnected
    · obtain ⟨hu, hq, hg⟩ := hl.of_quiet (hstate hk) (TcpConnection.plain_send hsend).toQuiet
      exact ⟨hu, hq, fun hmem => ⟨(hg hmem).state, (hg hmem).index, (hg hmem).active,
        (hg hmem).handled⟩⟩
    · rw [TcpConnection.send, if_neg hk] at hsend
      obtain rfl := Except.ok.inj hsend
      exact ⟨hl.user, hl.queue, fun hmem => ⟨(hl.gone hmem).state, (hl.gone hmem).index,
        (hl.gone hmem).active, (hl.gone hmem).handled⟩⟩
  | shutdownOwn =>
    obtain ⟨-, rfl⟩ := hinv
    by_cases hk : s.conn.state = .kConnected
    · exact hl.of_quiet (hstate hk) (TcpConnection.quiet_shutdown s.conn)
    · rw [TcpConnection.shutdown, if_neg hk]
      exact hl
  | removeConnectionInPool t =>
    obtain ⟨-, -, -, rfl⟩ := hinv
    refine ⟨hl.user, fun f hmem => ?_, fun hmem => ?_⟩
    · rw [queue_pushed] at hmem
      rcases List.mem_append.1 hmem with hmem | hmem
      · exact hl.queue f hmem
      · rw [List.mem_singleton.1 hmem]; rfl
    · have hmem : ConnEvent.connectDestroyed ∈ s.conn.log ++ [.destroyRequest] := hmem
      obtain ⟨hst, hi, hact, hnil⟩ := hl.gone (by simpa using hmem)
      exact ⟨hst, hi, hact, hnil⟩

/-- **A channel that is dispatched to has its connection.** In every run in which the server is not
destroyed and sends and shutdowns are called on the connection's own loop only: a connection whose
channel is among the active ones, or whose handlers are being called, has an owner, and an
established connection that has none has been destroyed, and is in neither `channels_` nor the
kernel's interest set. -/
theorem dispatched_owned (fd : C → Int) (hfd : Function.Injective fd) (wakeupChannel channel : C)
    (hne : channel ≠ wakeupChannel) (sameLoop writeComplete highWater : Bool)
    (as : List (ConnAction C T)) (s : ConnSystem C T)
    (hok : Transition.Meets step StaysLocal
      (new (.new fd wakeupChannel) channel sameLoop writeComplete highWater) as)
    (h : (new (.new fd wakeupChannel) channel sameLoop writeComplete highWater).run as = some s) :
    (s.conn.channel ∈ s.conn.sys.loop.activeChannels ∨ s.handling ≠ [] → 0 < s.owners) ∧
    (.connectionCallback true ∈ s.conn.log → s.owners = 0 → .connectDestroyed ∈ s.conn.log ∧
      s.conn.poller.channels (s.conn.poller.channel s.conn.channel).fd = none ∧
      s.conn.poller.interest (s.conn.poller.channel s.conn.channel).fd = none) := by
  rcases run_born Local (fun _ => local_newborn) (fun _ _ _ hb hl hok h => hl.step hb hok h)
    (unborn_new hfd hne sameLoop writeComplete highWater) hok h with hs | ⟨hb, hl⟩
  · refine ⟨fun hreach => ?_, fun hup => ?_⟩
    · rcases hreach with hact | hhand
      · cases hs.life.tied.active hact
      · exact absurd (hs.life.tied.quiet (.inl rfl)) hhand
    · cases hs.log _ hup
  · have hgone : s.owners = 0 → Gone s := fun h0 => hl.gone (hb.destroyed_of_owners h0)
    refine ⟨fun hreach => ?_, fun _ h0 => ?_⟩
    · by_contra h0
      obtain ⟨-, -, hact, hnil⟩ := hgone (by omega)
      exact hreach.elim hact fun hhand => hhand hnil
    · have hi := (hgone h0).index
      have hagree := hb.sound.agrees s.conn.channel
      refine ⟨hb.destroyed_of_owners h0, ?_, ?_⟩
      · rw [hagree.channels_eq, if_pos hi]
      · rw [hagree.interest_eq, if_neg (by simp [hi])]

end Local

/-- A connection of a server with io threads is established, its peer closes it while a callback is
queued, and the base loop removes it. -/
def handedOver : List (ConnAction Bool Unit) :=
  [.newConnection (), .loop (.wakeup ()), .loop .enter, .loop .test,
    .loop (.pollReturn [(false, EPOLLIN)]), .loop .dispatch, .loop .startFunctors,
    .loop .swapFunctors, .runFunctor (answers 0 (.failed 0)), .loop .endFunctors, .loop .test,
    .loop (.pollReturn [(true, EPOLLIN ||| EPOLLHUP)]), .loop .dispatch,
    .sendOwn 0 [0, 0] (answers 2 (.failed 0)), .handle (answers 0 (.received [])),
    .removeConnectionInPool (), .loop (.wakeup ()), .loop .startFunctors, .loop .swapFunctors,
    .runFunctor (answers 0 (.failed 0))]

theorem staysLocal_handedOver :
    Transition.Meets step StaysLocal (sampleSystem false) handedOver := by
  decide +kernel

theorem owned_handedOver :
    (((sampleSystem false).run handedOver).map fun s => (s.owners, s.conn.log)) = some (0,
      [.connectionCallback true, .send ⟨0, [0, 0]⟩, .sendInLoop ⟨0, [0, 0]⟩, .write [0, 0],
        .handleClose, .connectionCallback false, .closeCallback, .destroyRequest,
        .connectDestroyed]) ∧
    ∀ s, (sampleSystem false).run handedOver = some s →
      (s.conn.channel ∈ s.conn.sys.loop.activeChannels ∨ s.handling ≠ [] → 0 < s.owners) ∧
      (.connectionCallback true ∈ s.conn.log → s.owners = 0 → .connectDestroyed ∈ s.conn.log ∧
        s.conn.poller.channels (s.conn.poller.channel s.conn.channel).fd = none ∧
        s.conn.poller.interest (s.conn.poller.channel s.conn.channel).fd = none) :=
  ⟨by decide +kernel, fun s h => dispatched_owned sampleFd (by decide) false true (by decide)
    false false false handedOver s staysLocal_handedOver h⟩

end ConnSystem

end WebCore
