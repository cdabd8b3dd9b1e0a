import WebCore.ConnBorn
import WebCore.Lib.Trace

/-!
# The order of the user's callbacks

The user is told that the connection is up, then of its messages, then that it is down. Messages
come from the dispatch of read events, the other two from functors and from the close; what orders
them is the registration of the channel. `Deaf` says that no read event can reach the connection:
none is asked for, none is reported, and the read handler is not to come.

**Theorem (`callbacks_ordered`).** In every run in which the server is not destroyed in the middle
of a dispatch of the connection's own loop, the connection is reported up at most once, before its
first message, and no message comes after it has been reported down.

A channel that a late send registers again is registered for writing, and stays deaf.
-/

namespace WebCore

open Trace

/-! ## Read events -/

namespace EventMask

theorem has_or (a b bits : EventMask) (h : b &&& bits = 0#32) :
    EventMask.has (a ||| b) bits = EventMask.has a bits := by
  have hor : (a ||| b) &&& bits = a &&& bits := by
    rw [BitVec.and_or_distrib_right, h, BitVec.or_zero]
  rw [has, has, hor]

/-- What is reported for an interest without `bits` has none of them. -/
theorem has_of_reportedFor {mask events bits : EventMask}
    (hrep : EventMask.reportedFor mask events = true) (hev : EventMask.has events bits = false)
    (hbits : (EPOLLERR ||| EPOLLHUP) &&& bits = 0#32) : EventMask.has mask bits = false := by
  have hout : mask &&& ~~~(events ||| EPOLLERR ||| EPOLLHUP) = 0#32 := by
    simp only [reportedFor, Bool.and_eq_true, bne_iff_ne, beq_iff_eq] at hrep
    exact hrep.2
  have hnone : events &&& bits = 0#32 := by simpa [has] using hev
  have hmask : mask &&& bits = 0#32 := by
    rw [BitVec.or_assoc] at hout
    generalize EPOLLERR ||| EPOLLHUP = k at hout hbits
    ext i hi
    have h₁ := congrArg (fun v => v.getLsbD i) hout
    have h₂ := congrArg (fun v => v.getLsbD i) hnone
    have h₃ := congrArg (fun v => v.getLsbD i) hbits
    simp only [BitVec.getLsbD_and, BitVec.getLsbD_not, BitVec.getLsbD_or, BitVec.getLsbD_zero, hi,
      ← BitVec.getLsbD_eq_getElem] at h₁ h₂ h₃ ⊢
    grind
  rw [has, hmask]
  rfl

end EventMask

namespace EpollPoller

variable {C : Type*} [DecidableEq C]

/-- Only `enableReading` asks for read events. -/
theorem has_read_apply {p : EpollPoller C} (hs : p.Sound) {op : ChannelOp}
    (hop : op ≠ .enableReading)
    {c : C} (h : EventMask.has (p.channel c).events kReadEvent = false) :
    EventMask.has ((p.apply false op c).channel c).events kReadEvent = false := by
  by_cases hrem : op = .remove
  · rw [hrem, channel_apply_remove (hs.agrees c)]
    exact h
  · rw [channel_apply hrem]
    show EventMask.has (maskAfter op (p.channel c).events) kReadEvent = false
    have hclear : ∀ m : EventMask,
        EventMask.has ((p.channel c).events &&& m) kReadEvent = false := by
      intro m
      have hnone : (p.channel c).events &&& kReadEvent = 0#32 := by simpa [EventMask.has] using h
      rw [EventMask.has, BitVec.and_assoc, BitVec.and_comm m, ← BitVec.and_assoc, hnone,
        BitVec.zero_and]
      rfl
    cases op with
    | enableReading => exact absurd rfl hop
    | remove => exact absurd rfl hrem
    | enableWriting => rw [maskAfter, EventMask.has_or _ _ _ (by decide)]; exact h
    | disableReading | disableWriting => exact hclear _
    | disableAll => rw [maskAfter]; decide

theorem has_read_disableAll (p : EpollPoller C) (c : C) :
    EventMask.has ((p.apply false .disableAll c).channel c).events kReadEvent = false := by
  rw [channel_apply (by simp)]
  show EventMask.has kNoneEvent kReadEvent = false
  decide

theorem has_read_runOps {p : EpollPoller C} (hs : p.Sound) {ops : List ChannelOp}
    (hops : .enableReading ∉ ops) {c : C}
    (h : EventMask.has (p.channel c).events kReadEvent = false) :
    EventMask.has ((p.runOps (ops.map (·, c))).channel c).events kReadEvent = false := by
  induction ops generalizing p with
  | nil => exact h
  | cons op ops ih =>
    have hop : op ≠ .enableReading := fun he => hops (by simp [he])
    exact ih (hs.apply op c) (fun hmem => hops (List.mem_cons_of_mem op hmem))
      (has_read_apply hs hop h)

theorem channel_fillActiveChannels {active : List (C × EventMask)} {c : C}
    (hmem : c ∉ active.map Prod.fst) (p : EpollPoller C) :
    (p.fillActiveChannels active).channel c = p.channel c := by
  induction active generalizing p with
  | nil => rfl
  | cons ev active ih =>
    rw [List.map_cons, List.mem_cons, not_or] at hmem
    obtain ⟨hne, hrest⟩ := hmem
    exact (ih hrest _).trans (channel_modify_of_ne p ev.1 _ hne)

/-- The mask that a report stores. -/
theorem revents_fillActiveChannels {active : List (C × EventMask)} {c : C} {m : EventMask}
    (hnodup : (active.map Prod.fst).Nodup) (hmem : (c, m) ∈ active) (p : EpollPoller C) :
    ((p.fillActiveChannels active).channel c).revents = m := by
  induction active generalizing p with
  | nil => cases hmem
  | cons ev active ih =>
    obtain ⟨hev, hrest⟩ := List.nodup_cons.1 hnodup
    rcases List.mem_cons.1 hmem with rfl | hmem
    · rw [fillActiveChannels, List.foldl_cons]
      refine (congrArg Channel.revents (channel_fillActiveChannels hev _)).trans ?_
      simp [setRevents]
    · exact ih hrest hmem _

end EpollPoller

namespace ConnSystem

variable {C T : Type*}

/-! ## Deaf connections -/

/-- No read event can reach the connection. -/
structure Deaf (c : TcpConnection C T) (handling : List Handler) : Prop where
  asks : EventMask.has (c.poller.channel c.channel).events kReadEvent = false
  coming : .read ∉ handling
  active : c.channel ∈ c.sys.loop.activeChannels →
    EventMask.has (c.poller.channel c.channel).revents kReadEvent = false

theorem read_mem_handlers {m : EventMask} (h : .read ∈ handlers m) :
    EventMask.has m kReadEvent = true := by
  unfold handlers at h
  by_contra hne
  have hread : ¬EventMask.has m (EPOLLIN ||| EPOLLPRI) = true := hne
  rw [if_neg hread] at h
  revert h
  split <;> split <;> split <;> simp

section Deaf

variable [DecidableEq C] {c c' : TcpConnection C T} {handling : List Handler}

theorem Deaf.of_frame {fs : List LoopFunctor} (hd : Deaf c handling) (hs : c.poller.Sound)
    (hf : c.sys.Frame fs c'.sys) (hp : Operates c c') (hc : c'.channel = c.channel) :
    Deaf c' handling := by
  obtain ⟨ops, hops, hp⟩ := hp
  refine ⟨?_, hd.coming, fun hmem => ?_⟩
  · rw [hp, hc]
    exact EpollPoller.has_read_runOps hs hops hd.asks
  · rw [hc, hf.activeChannels] at hmem
    rw [hp, hc, revents_runOps hs]
    exact hd.active hmem

/-- What the kernel reports for a channel that does not ask for read events. -/
theorem has_of_mayReport {l : EventLoop LoopFunctor C} {ch : C} {m : EventMask}
    (hs : l.poller.Sound) (hrep : l.mayReport (ch, m) = true)
    (hev : EventMask.has (l.poller.channel ch).events kReadEvent = false) :
    EventMask.has m kReadEvent = false := by
  simp only [EventLoop.mayReport, Bool.and_eq_true, (hs.agrees ch).interest_eq] at hrep
  obtain ⟨hrep, -⟩ := hrep
  split at hrep
  · simp only [Option.any_some, Bool.and_eq_true] at hrep
    exact EventMask.has_of_reportedFor hrep.2 hev (by decide)
  · simp at hrep

variable [DecidableEq T] {s : ConnSystem C T} {a : LoopAction LoopFunctor C T}
  {sys : LoopSystem LoopFunctor C T}

/-- **The steps of the loop leave a deaf connection deaf.** -/
theorem Deaf.loop (hd : Deaf s.conn s.handling) (hs : s.conn.poller.Sound)
    (hp : s.passes a = true) (h : s.conn.sys.step a = some sys) :
    Deaf (s.conn.setSys sys) (s.nextHandling a) := by
  obtain ⟨-, revents, hrec, hsame⟩ := LoopSystem.step_channel hs (passes_channelOp hp) h
  have hasks : EventMask.has ((s.conn.setSys sys).poller.channel s.conn.channel).events
      kReadEvent = false := by
    show EventMask.has (sys.loop.poller.channel s.conn.channel).events _ = _
    rw [hrec]
    exact hd.asks
  have hcoming : .read ∉ s.nextHandling a := by
    cases a with
    | dispatch =>
      rw [nextHandling]
      split
      · rename_i hhead
        intro hmem
        have := hd.active (List.mem_of_mem_head? hhead)
        exact absurd ((read_mem_handlers hmem).symm.trans this) (by simp)
      · exact List.not_mem_nil
    | _ => exact hd.coming
  refine ⟨hasks, hcoming, fun hmem => ?_⟩
  show EventMask.has (sys.loop.poller.channel s.conn.channel).revents _ = _
  rcases LoopSystem.step_active h hmem with ⟨hpoll, hmem⟩ | ⟨active, m, rfl, hin, hrep⟩
  · rw [hrec]
    show EventMask.has revents kReadEvent = false
    rw [hsame hpoll]
    exact hd.active hmem
  · obtain ⟨-, -, -, hnodup, rfl⟩ := LoopSystem.step_inv h
    show EventMask.has
      ((s.conn.poller.fillActiveChannels active).channel s.conn.channel).revents _ = _
    have hin : (s.conn.channel, m) ∈ active := hin
    rw [EpollPoller.revents_fillActiveChannels hnodup hin]
    exact has_of_mayReport hs hrep hd.asks

end Deaf

/-! ## The invariant -/

/-- A message comes after the connection has been reported up, and before it is reported down. -/
def CallbackOrder (pre : List ConnEvent) (e : ConnEvent) : Prop :=
  e = .messageCallback → .connectionCallback true ∈ pre ∧ .connectionCallback false ∉ pre

/-- The callbacks have come in order, and a connection that has been reported down is deaf. -/
structure Calls (s : ConnSystem C T) : Prop where
  order : Guarded CallbackOrder s.conn.log
  deaf : .connectionCallback false ∈ s.conn.log → Deaf s.conn s.handling

/-- The server is not destroyed in the middle of a dispatch of the connection's own loop. -/
def OutsideDispatch (s : ConnSystem C T) : ConnAction C T → Prop
  | .destroyServerOwn => s.conn.sys.loop.pc ≠ .dispatch
  | _ => True

instance (s : ConnSystem C T) : ∀ a, Decidable (s.OutsideDispatch a)
  | .destroyServerOwn => inferInstanceAs (Decidable (_ ≠ _))
  | .loop _ | .handle _ | .runFunctor _ | .newConnection _ | .newConnectionOwn | .sendTest _ _ _
  | .sendPush _ | .shutdownTest _ | .shutdownSet _ | .shutdownPush _ | .sendOwn _ _ _
  | .shutdownOwn | .removeConnectionInPool _ | .destroyServer _ => inferInstanceAs (Decidable True)

theorem guarded_of_traffic {l es : List ConnEvent} (h : Guarded CallbackOrder l)
    (hes : .messageCallback ∉ es) : Guarded CallbackOrder (l ++ es) :=
  h.append_of_forall fun _ he _ hm => absurd (hm ▸ he) hes

theorem calls_newborn {s : ConnSystem C T} (h : Newborn s) : Calls s := by
  refine ⟨guarded_of_forall fun e he pre hm => ?_, fun hmem => ?_⟩
  · rcases h.log e he with rfl | rfl <;> cases hm
  · rcases h.log _ hmem with he | he <;> cases he

/-- The report of the end. -/
theorem Calls.down {s s' : ConnSystem C T} {es : List ConnEvent} (hc : Calls s)
    (hlog : s'.conn.log = s.conn.log ++ es) (hes : .messageCallback ∉ es)
    (hdeaf : Deaf s'.conn s'.handling) : Calls s' :=
  ⟨hlog ▸ guarded_of_traffic hc.order hes, fun _ => hdeaf⟩

theorem Calls.took {s : ConnSystem C T} {f : LoopFunctor} {rest : List LoopFunctor} (hc : Calls s) :
    Calls { s with conn := s.took f rest } :=
  ⟨hc.order, fun h => ⟨(hc.deaf h).asks, (hc.deaf h).coming, (hc.deaf h).active⟩⟩

section Calls

variable [DecidableEq C] {s s' : ConnSystem C T}

/-- A step that neither delivers a message nor reports the end. -/
theorem Calls.of_frame {fs : List LoopFunctor} {es : List ConnEvent} (hc : Calls s)
    (hs : s.conn.poller.Sound) (hf : s.conn.sys.Frame fs s'.conn.sys)
    (hp : Operates s.conn s'.conn) (hch : s'.conn.channel = s.conn.channel)
    (hh : s'.handling = s.handling) (hlog : s'.conn.log = s.conn.log ++ es)
    (hes : .messageCallback ∉ es ∧ .connectionCallback false ∉ es) : Calls s' := by
  refine ⟨hlog ▸ guarded_of_traffic hc.order hes.1, fun hmem => ?_⟩
  rw [hlog, List.mem_append] at hmem
  rw [hh]
  exact (hc.deaf (hmem.resolve_right hes.2)).of_frame hs hf hp hch

theorem Calls.of_plain {conn : TcpConnection C T} (hc : Calls s) (hs : s.conn.poller.Sound)
    (h : TcpConnection.Plain s.conn conn) : Calls { s with conn } := by
  obtain ⟨fs, -, hf⟩ := h.frame
  obtain ⟨es, hes, htraffic⟩ := h.grows
  refine hc.of_frame hs hf (operates_plain h) h.channel rfl hes ⟨fun hmem => ?_, fun hmem => ?_⟩
  · cases htraffic _ hmem
  · cases htraffic _ hmem

/-- The close handler, or a read that finds the end of the stream. -/
theorem Calls.handleClose (hc : Calls s)
    (hact : s.conn.channel ∉ s.conn.sys.loop.activeChannels) (hread : .read ∉ s.handling) :
    Calls { s with conn := s.conn.handleClose } := by
  have hch : s.conn.handleClose.channel = s.conn.channel := by
    simp only [TcpConnection.handleClose_eq]
  have hf := TcpConnection.frame_handleClose s.conn
  have hlog : s.conn.handleClose.log = s.conn.log ++ ([ConnEvent.handleClose,
      .connectionCallback false, .closeCallback] ++
        if s.conn.server.alive = true ∧ s.conn.server.sameLoop = true then [.destroyRequest]
        else []) := by
    rw [TcpConnection.handleClose_eq, List.append_assoc]
  refine hc.down hlog (by split <;> simp) ⟨?_, hread, fun hmem => ?_⟩
  · show EventMask.has (s.conn.handleClose.poller.channel s.conn.handleClose.channel).events _ = _
    rw [TcpConnection.poller_handleClose, hch]
    exact EpollPoller.has_read_disableAll _ _
  · rw [hch, hf.activeChannels] at hmem
    exact absurd hmem hact

/-- `connectDestroyed`, when no event of this iteration concerns the connection any longer. -/
theorem Calls.connectDestroyed (hc : Calls s) (hs : s.conn.poller.Sound)
    (hact : s.conn.sys.loop.activeChannels = []) (hnil : s.handling = []) :
    Calls { s with conn := s.conn.connectDestroyed } := by
  have hf := TcpConnection.frame_connectDestroyed s.conn
  have hop := operates_connectDestroyed s.conn
  have hch : s.conn.connectDestroyed.channel = s.conn.channel := by
    simp only [TcpConnection.connectDestroyed_eq]
  by_cases hk : s.conn.state = .kConnected
  · have hlog : s.conn.connectDestroyed.log =
        s.conn.log ++ [ConnEvent.connectDestroyed, .connectionCallback false] := by
      simp only [TcpConnection.connectDestroyed_eq, if_pos hk]
    refine hc.down hlog (by simp) ⟨?_, by simp [hnil], fun hmem => ?_⟩
    · have hp : s.conn.connectDestroyed.poller = (s.conn.poller.apply false .disableAll
          s.conn.channel).apply false .remove s.conn.channel := by
        rw [TcpConnection.connectDestroyed_eq, if_pos hk]; rfl
      show EventMask.has
        (s.conn.connectDestroyed.poller.channel s.conn.connectDestroyed.channel).events _ = _
      rw [hp, hch]
      exact EpollPoller.has_read_apply (hs.apply .disableAll _) (by simp)
        (EpollPoller.has_read_disableAll _ _)
    · rw [hch, hf.activeChannels, hact] at hmem
      cases hmem
  · have hlog : s.conn.connectDestroyed.log = s.conn.log ++ [ConnEvent.connectDestroyed] := by
      simp only [TcpConnection.connectDestroyed_eq, if_neg hk]
    exact hc.of_frame hs hf hop hch rfl hlog (by simp)

theorem Calls.handle {e : Answers} {h : Handler} {rest : List Handler} {conn : TcpConnection C T}
    (hc : Calls s) (hb : Born s) (hl : s.handling = h :: rest)
    (hrun : s.conn.runHandler e h = some conn) : Calls { s with conn, handling := rest } := by
  have hact : s.conn.channel ∉ s.conn.sys.loop.activeChannels :=
    hb.scheduled.handled (by simp [hl])
  have hsuffix : (h :: rest) <:+ handlers s.entry.revents := hl ▸ hb.scheduled.suffix
  have hpop : Calls { s with handling := rest } := ⟨hc.order, fun h => ⟨(hc.deaf h).asks,
    fun hmem => (hc.deaf h).coming (by rw [hl]; exact List.mem_cons_of_mem _ hmem),
    (hc.deaf h).active⟩⟩
  cases h with
  | error =>
    obtain rfl := Option.some.inj hrun
    exact hpop
  | read =>
    -- The read handler is not deaf, so the end has not been reported.
    have hup : .connectionCallback false ∉ s.conn.log := fun hmem =>
      (hc.deaf hmem).coming (by simp [hl])
    obtain ⟨b, hread⟩ := handleRead_inv (toOption_eq_some.1 hrun)
    have hin : Calls { s with conn := { s.conn with inputBuffer := b }, handling := rest } :=
      ⟨hc.order, fun h => absurd h hup⟩
    rcases hread with rfl | ⟨-, rfl⟩ | rfl
    · refine ⟨hc.order.concat fun _ => ⟨?_, hup⟩, fun hmem => ?_⟩
      · rw [← List.count_pos_iff, hb.once]
        exact Nat.one_pos
      · rcases List.mem_append.1 hmem with hmem | hmem
        · exact absurd hmem hup
        · cases List.mem_singleton.1 hmem
    · exact hin.handleClose hact fun hmem => absurd (place_lt hsuffix hmem) (lt_irrefl _)
    · exact hin
  | write =>
    simp only [TcpConnection.runHandler, Option.ite_none_right_eq_some, Option.some.injEq] at hrun
    obtain ⟨-, rfl⟩ := hrun
    exact hpop.of_plain hb.sound (TcpConnection.plain_handleWrite e.write s.conn)
  | close =>
    obtain rfl := Option.some.inj hrun
    exact hpop.handleClose hact fun hmem => absurd (place_lt hsuffix hmem) (by decide)

theorem Calls.runFunctor {e : Answers} {f : LoopFunctor} {rest : List LoopFunctor}
    {conn : TcpConnection C T} (hc : Calls s) (hb : Born s) (hpc : s.conn.sys.loop.pc = .run)
    (hf : s.conn.sys.loop.functors = f :: rest)
    (hrun : (s.took f rest).callFunctor e f = some conn) : Calls { s with conn } := by
  obtain ⟨hact, hnil⟩ := hb.scheduled.idle (by simp [hpc])
  have htook : Calls { s with conn := s.took f rest } := hc.took
  cases f with
  | sendInLoop data len call =>
    simp only [TcpConnection.callFunctor, Option.ite_none_right_eq_some, toOption_eq_some] at hrun
    exact htook.of_plain hb.sound ((TcpConnection.plain_note rfl _).trans rfl
      (TcpConnection.plain_sendInLoop hrun.2))
  | shutdownInLoop =>
    obtain rfl := Option.some.inj hrun
    exact htook.of_plain hb.sound (TcpConnection.plain_shutdownInLoop _)
  | connectEstablished => exact absurd (mem_queue hf) hb.begun
  | connectDestroyed =>
    obtain rfl := Option.some.inj hrun
    exact htook.connectDestroyed hb.sound hact hnil
  | writeComplete | highWaterMark | other =>
    obtain rfl := Option.some.inj hrun
    exact htook

variable [DecidableEq T]

/-- A thread queues a functor, beside changes to the server and the threads. -/
theorem Calls.pushed {t : T} {f : LoopFunctor} {es : List ConnEvent} (s₁ : ConnSystem C T)
    (hc : Calls s) (hs : s.conn.poller.Sound) (hsys : s₁.conn.sys = s.conn.sys)
    (hch : s₁.conn.channel = s.conn.channel) (hh : s₁.handling = s.handling)
    (hlog : s₁.conn.log = s.conn.log ++ es)
    (hes : .messageCallback ∉ es ∧ .connectionCallback false ∉ es) : Calls (s₁.pushed t f) := by
  have hf : s.conn.sys.Frame [f] (s₁.pushed t f).conn.sys := by
    rw [← hsys]; exact ⟨rfl, rfl, rfl, rfl, rfl⟩
  refine hc.of_frame hs hf (.of_poller ?_) hch hh hlog hes
  show s₁.conn.sys.loop.poller = s.conn.sys.loop.poller
  rw [hsys]

/-- **Every step keeps the order of the callbacks**, outside of the one excluded. -/
theorem Calls.step {a : ConnAction C T} (hb : Born s) (hc : Calls s) (hok : s.OutsideDispatch a)
    (h : s.step a = some s') : Calls s' := by
  have hinv := step_inv h
  have hs := hb.sound
  cases a with
  | loop a =>
    obtain ⟨hp, sys, hsys, rfl⟩ := hinv
    exact ⟨hc.order, fun h => (hc.deaf h).loop hs hp hsys⟩
  | handle e =>
    obtain ⟨-, -, h, rest, conn, hh, hrun, rfl⟩ := hinv
    exact hc.handle hb hh hrun
  | runFunctor e =>
    obtain ⟨hpc, -, f, rest, conn, hf, hrun, rfl⟩ := hinv
    exact hc.runFunctor hb hpc hf hrun
  | newConnection | newConnectionOwn => exact absurd (hb.created.symm.trans hinv.1) (by simp)
  | sendTest t data payload =>
    obtain ⟨-, -, -, rfl⟩ := hinv
    obtain ⟨ho, hd⟩ := hc.of_plain hs
      (TcpConnection.plain_note (e := .send ⟨s.calls, payload⟩) rfl s.conn)
    exact ⟨ho, hd⟩
  | sendPush t =>
    obtain ⟨data, len, call, -, rfl⟩ := hinv
    exact hc.pushed (s.setUser t .idle) hs rfl rfl rfl (List.append_nil _).symm (by simp)
  | shutdownTest t =>
    obtain ⟨-, -, rfl⟩ := hinv
    exact ⟨hc.order, hc.deaf⟩
  | shutdownSet t =>
    obtain ⟨-, rfl⟩ := hinv
    obtain ⟨ho, hd⟩ := hc.of_plain hs (TcpConnection.plain_setState s.conn)
    exact ⟨ho, hd⟩
  | shutdownPush t =>
    obtain ⟨-, rfl⟩ := hinv
    exact hc.pushed (s.setUser t .idle) hs rfl rfl rfl (List.append_nil _).symm (by simp)
  | sendOwn data payload e =>
    obtain ⟨-, -, -, -, conn, hsend, rfl⟩ := hinv
    obtain ⟨ho, hd⟩ := hc.of_plain hs (TcpConnection.plain_send hsend)
    exact ⟨ho, hd⟩
  | shutdownOwn =>
    obtain ⟨-, rfl⟩ := hinv
    exact hc.of_plain hs (TcpConnection.plain_shutdown s.conn)
  | removeConnectionInPool t =>
    obtain ⟨-, -, -, rfl⟩ := hinv
    exact hc.pushed { s with conn := s.erased } hs rfl rfl rfl rfl (by simp)
  | destroyServer t =>
    obtain ⟨-, ⟨-, rfl⟩ | ⟨-, rfl⟩⟩ := hinv
    · exact hc.pushed { s with conn := s.orphaned.note .destroyRequest } hs rfl rfl rfl rfl
        (by simp)
    · exact ⟨hc.order, fun h => ⟨(hc.deaf h).asks, (hc.deaf h).coming, (hc.deaf h).active⟩⟩
  | destroyServerOwn =>
    obtain ⟨hact, hnil⟩ := hb.scheduled.idle hok
    obtain ⟨-, -, -, ⟨-, rfl⟩ | ⟨-, rfl⟩⟩ := hinv
    · have hlog : (s.orphaned.note .destroyRequest).log =
          s.conn.log ++ [ConnEvent.destroyRequest] := rfl
      have hnoted : Calls { s with conn := s.orphaned.note .destroyRequest } :=
        hc.of_frame hs (.refl _) (.of_poller rfl) rfl rfl hlog (by simp)
      exact hnoted.connectDestroyed hs hact hnil
    · exact ⟨hc.order, fun h => ⟨(hc.deaf h).asks, (hc.deaf h).coming, (hc.deaf h).active⟩⟩

/-- **The user's callbacks come in order.** In every run in which the server is not destroyed in the
middle of a dispatch of the connection's own loop, the connection is reported up at most once, and
whenever a message is delivered it has been reported up and has not been reported down. -/
theorem callbacks_ordered (fd : C → Int) (hfd : Function.Injective fd) (wakeupChannel channel : C)
    (hne : channel ≠ wakeupChannel) (sameLoop writeComplete highWater : Bool)
    (as : List (ConnAction C T)) (s : ConnSystem C T)
    (hok : Transition.Meets step OutsideDispatch
      (new (.new fd wakeupChannel) channel sameLoop writeComplete highWater) as)
    (h : (new (.new fd wakeupChannel) channel sameLoop writeComplete highWater).run as = some s) :
    s.conn.log.count (.connectionCallback true) ≤ 1 ∧
    ∀ pre, pre ++ [.messageCallback] <+: s.conn.log →
      .connectionCallback true ∈ pre ∧ .connectionCallback false ∉ pre := by
  rcases run_born Calls (fun _ => calls_newborn) (fun _ _ _ hb hc hok h => hc.step hb hok h)
    (unborn_new hfd hne sameLoop writeComplete highWater) hok h with hs | ⟨hb, hc⟩
  · have hnone : ∀ e ≠ ConnEvent.destroyRequest, e ∉ s.conn.log := fun e he hmem =>
      he (hs.log e hmem)
    refine ⟨(List.count_eq_zero.2 (hnone _ (by simp))).le.trans (Nat.zero_le 1), fun pre hpre => ?_⟩
    exact absurd (hpre.subset (by simp)) (hnone .messageCallback (by simp))
  · exact ⟨hb.once.le, fun pre hpre => hc.order pre _ hpre rfl⟩

end Calls

/-- A connection is made, gets a message, and is closed by its peer; a send that was under way
registers its channel again. -/
def reporting : List (ConnAction Bool Unit) :=
  [.newConnectionOwn, .loop .enter, .sendTest () 0 [0, 0], .loop .test,
    .loop (.pollReturn [(true, EPOLLIN)]), .loop .dispatch, .handle (answers 0 (.received [7])),
    .loop .startFunctors, .loop .swapFunctors, .loop .endFunctors, .loop .test,
    .loop (.pollReturn [(true, EPOLLIN)]), .loop .dispatch, .handle (answers 0 (.received [])),
    .sendPush (), .loop .startFunctors, .loop .swapFunctors, .runFunctor (answers 0 (.failed 0)),
    .runFunctor (answers 1 (.failed 0)), .destroyServerOwn]

theorem outsideDispatch_reporting :
    Transition.Meets step OutsideDispatch (sampleSystem true) reporting := by
  decide +kernel

theorem ordered_reporting :
    (((sampleSystem true).run reporting).map fun s => s.conn.log.count .messageCallback) = some 1 ∧
    ∀ s, (sampleSystem true).run reporting = some s →
      s.conn.log.count (.connectionCallback true) ≤ 1 ∧
      ∀ pre, pre ++ [.messageCallback] <+: s.conn.log →
        .connectionCallback true ∈ pre ∧ .connectionCallback false ∉ pre :=
  ⟨by decide +kernel, fun s h => callbacks_ordered sampleFd (by decide) false true (by decide)
    true false false reporting s outsideDispatch_reporting h⟩

end ConnSystem

end WebCore
