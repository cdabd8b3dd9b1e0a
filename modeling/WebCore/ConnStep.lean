import WebCore.ConnBooks

/-!
# Every step of a connection's life

**Theorem (`Life.step`).** A step that is `Undisturbed` takes a connection from one stage of its
life to the same or a later one.

`Undisturbed` excludes the three ways in which the code breaks `Life`: the close handler after a
read that has closed the connection in the same dispatch; a queued `sendInLoop` that runs after the
end and has bytes for the buffer; and a server that is destroyed on its own loop while events of
the connection are still to be handled.
-/

namespace WebCore

/-! ## The channel's operations -/

/-- What an operation on the channel does to the stage. -/
inductive Stage.Moves : ChannelOp → Stage → Stage → Prop
  | enableReading : Moves .enableReading .fresh .alive
  | enableWriting : Moves .enableWriting .alive .alive
  | disableWriting : Moves .disableWriting .alive .alive
  | disableAll : Moves .disableAll .alive .closed
  | remove (st : Stage) : Moves .remove st .destroyed

namespace ConnSystem

section Registration

variable {C T : Type*} [DecidableEq C] {st st' : Stage} {c c' : TcpConnection C T}

theorem entry_apply {p : EpollPoller C} {ch : C} {op : ChannelOp} (hs : p.Sound)
    (hmove : Stage.Moves op st st') (he : st.Entry (p.channel ch)) :
    st'.Entry ((p.apply false op ch).channel ch) := by
  cases hmove with
  | enableReading =>
    rw [EpollPoller.channel_apply (by simp)]
    simp only [Stage.Entry, he.1, he.2, EpollPoller.maskAfter]
    decide
  | enableWriting | disableWriting =>
    rw [EpollPoller.channel_apply (by simp)]
    obtain ⟨hi, hev | hev⟩ := he
    all_goals
      simp only [Stage.Entry, hi, hev, EpollPoller.maskAfter]
      decide
  | disableAll =>
    rw [EpollPoller.channel_apply (by simp)]
    simp only [Stage.Entry, he.1, EpollPoller.maskAfter]
    decide
  | remove =>
    rw [EpollPoller.channel_apply_remove (hs.agrees ch)]
    exact rfl

theorem Registered.of_apply (hr : Registered st c) {op : ChannelOp} (hmove : Stage.Moves op st st')
    (hp : c'.poller = c.poller.apply false op c.channel) (hc : c'.channel = c.channel) :
    Registered st' c' :=
  ⟨by rw [hp]; exact hr.sound.apply op c.channel,
    by rw [hp, hc]; exact entry_apply hr.sound hmove hr.entry⟩

/-- No operation on the channel disturbs a dispatch that is under way. -/
theorem Scheduled.of_apply {handling : List Handler} {fs : List LoopFunctor} (op : ChannelOp)
    (hs : Scheduled c handling) (hsound : c.poller.Sound) (hf : c.sys.Frame fs c'.sys)
    (hp : c'.poller = c.poller.apply false op c.channel) (hc : c'.channel = c.channel) :
    Scheduled c' handling :=
  hs.of_frame hf hc (by rw [hp]; exact EpollPoller.revents_apply (hsound.agrees _) false op)

end Registration

end ConnSystem

/-! ## The order of the handlers -/

namespace Handler

/-- The place of a handler in `handleEventWithGuard`. -/
def place : Handler → Nat
  | .error => 0
  | .read => 1
  | .write => 2
  | .close => 3

end Handler

namespace ConnSystem

theorem handlers_pairwise (m : EventMask) :
    (handlers m).Pairwise fun h h' => h.place < h'.place := by
  unfold handlers
  split <;> split <;> split <;> split <;> simp [Handler.place]

theorem close_mem_handlers {m : EventMask} (h : .close ∈ handlers m) :
    m.has EPOLLHUP = true ∧ m.has EPOLLIN = false := by
  unfold handlers at h
  by_contra hne
  have : (m.has EPOLLHUP && !m.has EPOLLIN) ≠ true := by simpa using hne
  rw [if_neg this] at h
  revert h
  split <;> split <;> split <;> simp

/-- The handlers that are to come are those behind the current one. -/
theorem place_lt {m : EventMask} {h h' : Handler} {rest : List Handler}
    (hs : (h :: rest) <:+ handlers m) (hmem : h' ∈ rest) : h.place < h'.place :=
  (List.pairwise_cons.1 ((handlers_pairwise m).sublist hs.sublist)).1 h' hmem

section Steps

variable {C T : Type*} {st : Stage} {created : Bool} {user : T → UserPc}

theorem Scheduled.pop {c : TcpConnection C T} {h : Handler} {rest : List Handler}
    (hs : Scheduled c (h :: rest)) : Scheduled c rest where
  idle hpc := by simpa using (hs.idle hpc).2
  batch := hs.batch
  nodup := hs.nodup
  suffix := (List.suffix_cons h rest).trans hs.suffix
  handled _ := hs.handled (by simp)

theorem Tied.pop {c : TcpConnection C T} {h : Handler} {rest : List Handler}
    (hs : Tied st c (h :: rest)) : Tied st c rest where
  active := hs.active
  closing hmem := hs.closing (hmem.imp (List.mem_cons_of_mem h) (List.mem_cons_of_mem h))
  quiet hq := absurd (hs.quiet hq) (by simp)

/-- A dispatch that concerns the connection no longer goes with every stage. -/
theorem Tied.of_done {c : TcpConnection C T} (hc : c.channel ∉ c.sys.loop.activeChannels) :
    Tied st c [] :=
  ⟨fun h => absurd h hc, by simp, fun _ => rfl⟩

/-- A dispatch that is over stays over. -/
theorem Scheduled.of_done {c c' : TcpConnection C T} {fs : List LoopFunctor}
    (hs : Scheduled c []) (hf : c.sys.Frame fs c'.sys) : Scheduled c' [] where
  idle := by rw [hf.pc, hf.activeChannels]; exact hs.idle
  batch := by rw [hf.pc, hf.functors]; exact hs.batch
  nodup := by rw [hf.activeChannels]; exact hs.nodup
  suffix := List.nil_suffix
  handled h := absurd rfl h

/-! ## Frames -/

/-- A step that leaves the poller and the loop's own part alone. -/
theorem Life.of_frame {fs : List LoopFunctor} {s s' : ConnSystem C T} (hs : Life st s)
    (hf : s.conn.sys.Frame fs s'.conn.sys) (hp : s'.conn.poller = s.conn.poller)
    (hc : s'.conn.channel = s.conn.channel) (hh : s'.handling = s.handling)
    (hb : Booked st s'.created s'.user s'.conn) : Life st s' := by
  refine ⟨hs.registered.of_poller hp hc, ?_, ?_, hb⟩
  · rw [hh]; exact hs.scheduled.of_frame hf hc (by rw [hp])
  · rw [hh]; exact hs.tied.of_frame hf hc

theorem Life.of_quiet {s : ConnSystem C T} {conn : TcpConnection C T} (hs : Life st s)
    (hq : TcpConnection.Quiet s.conn conn) (hp : conn.poller = s.conn.poller)
    (hst : st.State conn.state) : Life st { s with conn } := by
  obtain ⟨fs, -, hf⟩ := hq.frame
  exact hs.of_frame hf hp hq.channel rfl (hs.booked.of_quiet hq hst)

theorem Life.pop {s : ConnSystem C T} {h : Handler} {rest : List Handler} (hs : Life st s)
    (hl : s.handling = h :: rest) : Life st { s with handling := rest } :=
  ⟨hs.registered, (hl ▸ hs.scheduled).pop, (hl ▸ hs.tied).pop, hs.booked⟩

/-! ## The queue -/

variable {s : ConnSystem C T} {f : LoopFunctor} {rest : List LoopFunctor}

theorem Scheduled.took {handling : List Handler}
    (hs : Scheduled s.conn handling) (hpc : s.conn.sys.loop.pc = .run) :
    Scheduled (s.took f rest) handling :=
  ⟨hs.idle, fun hne => absurd hpc hne, hs.nodup, hs.suffix, hs.handled⟩

theorem Life.took (hs : Life st s)
    (hpc : s.conn.sys.loop.pc = .run) (hf : s.conn.sys.loop.functors = f :: rest)
    (hlife : f.isLife = false) : Life st { s with conn := s.took f rest } :=
  ⟨hs.registered.of_poller rfl rfl, hs.scheduled.took hpc,
    ⟨hs.tied.active, hs.tied.closing, hs.tied.quiet⟩, hs.booked.took hf hlife⟩

section Queue

variable [DecidableEq T] {t : T}

/-- A step that queues a functor, beside changes to the log, the server and the threads. -/
theorem Life.pushed (s₁ : ConnSystem C T) (hs : Life st s)
    (hsys : s₁.conn.sys = s.conn.sys) (hc : s₁.conn.channel = s.conn.channel)
    (hh : s₁.handling = s.handling)
    (hb : Booked st s₁.created s₁.user (s₁.pushed t f).conn) : Life st (s₁.pushed t f) := by
  have hf : s.conn.sys.Frame [f] (s₁.pushed t f).conn.sys := by
    rw [← hsys]; exact ⟨rfl, rfl, rfl, rfl, rfl⟩
  refine hs.of_frame hf ?_ hc hh hb
  show s₁.conn.sys.loop.poller = s.conn.sys.loop.poller
  rw [hsys]

/-- A thread queues a use of the connection. -/
theorem Life.pushUse (hs : Life st s) (ht : s.user t ≠ .idle)
    (hlife : f.isLife = false) : Life st ((s.setUser t .idle).pushed t f) := by
  have hborn : st ≠ .fresh := fun hfresh => ht ((hs.booked.unused hfresh).1 t)
  refine hs.pushed (s.setUser t .idle) rfl rfl rfl ?_
  have hb : Booked st s.created s.user ((s.setUser t .idle).pushed t f).conn :=
    hs.booked.of_queue rfl rfl rfl (queue_pushed t f s) fun g hg => by
      obtain rfl := List.mem_singleton.1 hg
      exact ⟨hlife, fun hfresh => absurd hfresh hborn⟩
  exact hb.of_user hborn

end Queue

end Steps

/-! ## The steps -/

section Life

variable {C T : Type*} [DecidableEq C]

/-- The connection has been closed or destroyed. -/
def ended (s : ConnSystem C T) : Prop :=
  .handleClose ∈ s.conn.log ∨ .connectDestroyed ∈ s.conn.log

instance (s : ConnSystem C T) : Decidable s.ended :=
  inferInstanceAs (Decidable (_ ∨ _))

/-- A functor that runs now asks for no write events that are not asked for already. -/
def asksForNothing (s : ConnSystem C T) (r : WriteResult) : LoopFunctor → Prop
  | .sendInLoop _ len _ => s.conn.isWriting = true ∨ s.conn.leavesNothing len r
  | _ => True

/-- The step is none of those that break the connection's life. -/
def Undisturbed (s : ConnSystem C T) : ConnAction C T → Prop
  | .handle e => s.handling.head? = some .read → e.read = .received [] →
      ¬(s.entry.revents.has EPOLLHUP = true ∧ s.entry.revents.has EPOLLIN = false)
  | .runFunctor e => s.ended →
      ∀ f ∈ s.conn.sys.loop.functors.head?, s.asksForNothing e.write f
  | .destroyServerOwn => s.conn.server.inMap = true →
      s.conn.channel ∉ s.conn.sys.loop.activeChannels ∧ s.handling = []
  | _ => True

instance (s : ConnSystem C T) (r : WriteResult) : ∀ f, Decidable (s.asksForNothing r f)
  | .sendInLoop _ len _ =>
    inferInstanceAs (Decidable (s.conn.isWriting = true ∨ s.conn.leavesNothing len r))
  | .shutdownInLoop | .connectEstablished | .connectDestroyed | .writeComplete
  | .highWaterMark _ | .other => inferInstanceAs (Decidable True)

instance (s : ConnSystem C T) : ∀ a, Decidable (s.Undisturbed a)
  | .handle _ => inferInstanceAs (Decidable (_ → _ → ¬(_ ∧ _)))
  | .runFunctor e =>
    inferInstanceAs (Decidable (s.ended →
      ∀ f ∈ s.conn.sys.loop.functors.head?, s.asksForNothing e.write f))
  | .destroyServerOwn => inferInstanceAs (Decidable (_ → _ ∧ _))
  | .loop _ | .newConnection _ | .newConnectionOwn | .sendTest _ _ _ | .sendPush _
  | .shutdownTest _ | .shutdownSet _ | .shutdownPush _ | .sendOwn _ _ _ | .shutdownOwn
  | .removeConnectionInPool _ | .destroyServer _ => inferInstanceAs (Decidable True)

variable {st st' : Stage} {s s' : ConnSystem C T}

/-- A step that operates on the channel, and leaves the loop's own part alone. -/
theorem Life.of_apply {fs : List LoopFunctor} {op : ChannelOp} (hs : Life st s)
    (hf : s.conn.sys.Frame fs s'.conn.sys) (hmove : Stage.Moves op st st')
    (hp : s'.conn.poller = s.conn.poller.apply false op s.conn.channel)
    (hc : s'.conn.channel = s.conn.channel) (hh : s'.handling = s.handling)
    (ht : Tied st' s'.conn s'.handling) (hb : Booked st' s'.created s'.user s'.conn) :
    Life st' s' :=
  ⟨hs.registered.of_apply hmove hp hc,
    hh ▸ hs.scheduled.of_apply op hs.registered.sound hf hp hc, ht, hb⟩

/-! ### Handlers -/

/-- The close handler, when neither a read nor a close is to follow. -/
theorem Life.handleClose (hs : Life .alive s)
    (hact : s.conn.channel ∉ s.conn.sys.loop.activeChannels)
    (hlast : .read ∉ s.handling ∧ .close ∉ s.handling) :
    Life .closed { s with conn := s.conn.handleClose } := by
  have hf := TcpConnection.frame_handleClose s.conn
  have hc : s.conn.handleClose.channel = s.conn.channel := by rw [TcpConnection.handleClose_eq]
  refine hs.of_apply hf .disableAll (TcpConnection.poller_handleClose s.conn) hc rfl ⟨?_, ?_, ?_⟩
    hs.booked.handleClose
  · intro hmem
    rw [hc, hf.activeChannels] at hmem
    exact absurd hmem hact
  · exact fun hmem => absurd hmem (by simpa using hlast)
  · simp

/-- The result of `readFd` is the number of bytes that came. -/
theorem readFd_count {b b' : Buffer} {r : Buffer.ReadResult} {n : Int} {e : Option Int}
    (h : b.readFd r = .ok (b', n, e)) :
    n = match r with | .received bytes => (bytes.length : Int) | .failed _ => -1 := by
  cases r with
  | failed errno =>
    simp only [Buffer.readFd, Except.ok.injEq, Prod.mk.injEq] at h
    exact h.2.1.symm
  | received bytes =>
    simp only [Buffer.readFd] at h
    split at h
    · exact (Prod.mk.inj (Prod.mk.inj (Except.ok.inj h)).2).1.symm
    · revert h
      generalize Buffer.append _ _ = grown
      cases grown with
      | error => exact nofun
      | ok b => exact fun h => (Prod.mk.inj (Prod.mk.inj (Except.ok.inj h)).2).1.symm

/-- What a read does, beside the bytes. -/
theorem handleRead_inv {c c' : TcpConnection C T} {r : Buffer.ReadResult}
    (h : c.handleRead r = .ok c') : ∃ b, c' = { c with inputBuffer := b }.note .messageCallback ∨
      r = .received [] ∧ c' = { c with inputBuffer := b }.handleClose ∨
      c' = { c with inputBuffer := b } := by
  unfold TcpConnection.handleRead at h
  split at h
  · cases h
  · rename_i b n e hread
    obtain rfl := Except.ok.inj h
    refine ⟨b, ?_⟩
    split
    · exact .inl rfl
    · split
      · rename_i hn
        refine .inr (.inl ⟨?_, rfl⟩)
        have hcount := readFd_count hread
        cases r with
        | failed errno => simp only at hcount; omega
        | received bytes =>
          simp only at hcount
          obtain rfl : bytes = [] := List.eq_nil_of_length_eq_zero (by omega)
          rfl
      · exact .inr (.inr rfl)

/-- **A handler keeps the connection's life.** -/
theorem Life.handle {e : Answers} {h : Handler} {rest : List Handler} {conn : TcpConnection C T}
    (hs : Life st s) (hok : s.Undisturbed (.handle e)) (hl : s.handling = h :: rest)
    (hrun : s.conn.runHandler e h = some conn) :
    ∃ st', Life st' { s with conn, handling := rest } := by
  have hpop := hs.pop hl
  have hact : s.conn.channel ∉ s.conn.sys.loop.activeChannels :=
    hs.scheduled.handled (by simp [hl])
  have hsuffix : (h :: rest) <:+ handlers s.entry.revents := hl ▸ hs.scheduled.suffix
  cases h with
  | error =>
    obtain rfl := Option.some.inj hrun
    exact ⟨st, hpop⟩
  | read =>
    obtain rfl : st = .alive := hs.tied.closing (.inl (by simp [hl]))
    obtain ⟨b, hread⟩ := handleRead_inv (toOption_eq_some.1 hrun)
    have hin : Life .alive { s with
        conn := { s.conn with inputBuffer := b }, handling := rest } :=
      hpop.of_quiet (.of_eq rfl rfl rfl rfl) rfl hs.booked.state
    rcases hread with rfl | ⟨hempty, rfl⟩ | rfl
    · exact ⟨.alive, hin.of_quiet (TcpConnection.quiet_note rfl _) rfl hs.booked.state⟩
    · -- The read has closed the connection: the close handler may not follow.
      refine ⟨.closed, hin.handleClose hact ⟨fun hmem => ?_, fun hmem => ?_⟩⟩
      · exact absurd (place_lt hsuffix hmem) (lt_irrefl _)
      · refine hok (by rw [hl]; rfl) hempty (close_mem_handlers ?_)
        exact hsuffix.subset (List.mem_cons_of_mem _ hmem)
    · exact ⟨.alive, hin⟩
  | write =>
    simp only [TcpConnection.runHandler, Option.ite_none_right_eq_some, Option.some.injEq] at hrun
    obtain ⟨-, rfl⟩ := hrun
    have hq := TcpConnection.quiet_handleWrite e.write s.conn
    have hst : st.State (s.conn.handleWrite e.write).state := by
      rw [TcpConnection.state_handleWrite]; exact hs.booked.state
    rcases TcpConnection.poller_handleWrite e.write s.conn with hp | ⟨hw, -, -, hp⟩
    · exact ⟨st, hpop.of_quiet hq hp hst⟩
    · obtain rfl : st = .alive := by
        refine (hs.registered.stage_of_isWriting hw).resolve_right fun hd => ?_
        simpa [hl] using hs.tied.quiet (.inr hd)
      obtain ⟨fs, -, hf⟩ := hq.frame
      refine ⟨.alive, hpop.of_apply hf .disableWriting hp hq.channel rfl ?_
        (hpop.booked.of_quiet hq hst)⟩
      exact hpop.tied.of_frame hf hq.channel
  | close =>
    obtain rfl := Option.some.inj hrun
    obtain rfl : st = .alive := hs.tied.closing (.inr (by simp [hl]))
    refine ⟨.closed, hpop.handleClose hact ⟨fun hmem => ?_, fun hmem => ?_⟩⟩
    · exact absurd (place_lt hsuffix hmem) (by decide)
    · exact absurd (place_lt hsuffix hmem) (by decide)

/-! ### Functors -/

/-- A queued send. -/
theorem Life.sendInLoop {conn : TcpConnection C T} {mem : Memory} {data : Int} {len : Nat}
    {nwrote : Int} {r : WriteResult} (hs : Life st s) (hst : st ≠ .fresh)
    (hok : st ≠ .alive → s.conn.isWriting = true ∨ s.conn.leavesNothing len r)
    (h : s.conn.sendInLoop mem data len nwrote r = .ok conn) :
    Life st { s with conn } := by
  have hsends := TcpConnection.sends_sendInLoop h
  have hstate : st.State conn.state := by rw [hsends.state]; exact hs.booked.state
  have hkeep : conn.poller = s.conn.poller → Life st { s with conn } := fun hp =>
    hs.of_quiet hsends.toQuiet hp hstate
  rcases hsends.rest with ⟨-, hp⟩ | ⟨-, hp⟩
  · exact hkeep hp
  · split at hp
    · exact hkeep hp
    · rename_i hw
      by_cases halive : st = .alive
      · subst halive
        obtain ⟨fs, -, hf⟩ := hsends.frame
        exact hs.of_apply hf .enableWriting hp hsends.channel rfl
          (hs.tied.of_frame hf hsends.channel) (hs.booked.of_quiet hsends.toQuiet hstate)
      · exact hkeep (TcpConnection.sendInLoop_leavesNothing ((hok halive).resolve_left hw) h).1

theorem Registered.connectDestroyed {c : TcpConnection C T} (hr : Registered st c)
    (hst : c.state = .kConnected → st = .alive) : Registered .destroyed c.connectDestroyed := by
  rw [TcpConnection.connectDestroyed_eq]
  by_cases hk : c.state = .kConnected
  · obtain rfl := hst hk
    rw [if_pos hk]
    have hclosed : Registered .closed (c.channelOp .disableAll) := hr.of_apply .disableAll rfl rfl
    exact hclosed.of_apply (.remove _) rfl rfl
  · rw [if_neg hk]
    exact hr.of_apply (.remove st) rfl rfl

/-- The connection is established. -/
theorem Life.establish {c : TcpConnection C T} (hr : Registered .fresh c)
    (hs : Scheduled c s.handling) (hb : Booked .alive true s.user (c.setState .kConnected)) :
    Life .alive { s with conn := c.connectEstablished, created := true } := by
  obtain ⟨fs, -, hf⟩ := (TcpConnection.quiet_connectEstablished c).frame
  have hq : TcpConnection.Quiet (c.setState .kConnected) c.connectEstablished :=
    (TcpConnection.quiet_channelOp .enableReading _).trans
      (TcpConnection.quiet_note (e := .connectionCallback true) rfl _)
  exact ⟨hr.of_apply .enableReading rfl rfl, hs.of_apply .enableReading hr.sound hf rfl rfl,
    ⟨fun _ => rfl, fun _ => rfl, by simp⟩, hb.of_quiet hq (.inl rfl)⟩

/-- The connection is destroyed, when no event of this iteration concerns it any longer. -/
theorem Life.connectDestroyed {c : TcpConnection C T} (hr : Registered st c)
    (hs : Scheduled c []) (hact : c.channel ∉ c.sys.loop.activeChannels)
    (hst : c.state = .kConnected → st = .alive)
    (hb : Booked .destroyed s.created s.user c.connectDestroyed) (hh : s.handling = []) :
    Life .destroyed { s with conn := c.connectDestroyed } := by
  have hf := TcpConnection.frame_connectDestroyed c
  have hc : c.connectDestroyed.channel = c.channel := by rw [TcpConnection.connectDestroyed_eq]
  refine ⟨hr.connectDestroyed hst, ?_, ?_, hb⟩
  · rw [hh]; exact hs.of_done hf
  · rw [hh]; exact .of_done (by rw [hc, hf.activeChannels]; exact hact)

/-- **A functor keeps the connection's life.** -/
theorem Life.runFunctor {e : Answers} {f : LoopFunctor} {rest : List LoopFunctor}
    {conn : TcpConnection C T} (hs : Life st s) (hok : s.Undisturbed (.runFunctor e))
    (hpc : s.conn.sys.loop.pc = .run) (hf : s.conn.sys.loop.functors = f :: rest)
    (hrun : (s.took f rest).callFunctor e f = some conn) : ∃ st', Life st' { s with conn } := by
  obtain ⟨hact, hnil⟩ := hs.scheduled.idle (by simp [hpc])
  have hb := hs.booked
  have hr : Registered st (s.took f rest) := hs.registered.of_poller rfl rfl
  cases f with
  | sendInLoop data len call =>
    have hborn : st ≠ .fresh := fun hfresh => by
      simpa [LoopFunctor.isUse] using (hb.unused hfresh).2 _ (mem_queue hf)
    simp only [TcpConnection.callFunctor, Option.ite_none_right_eq_some, toOption_eq_some] at hrun
    have hnoted := (hs.took hpc hf rfl).of_quiet
      (TcpConnection.quiet_note (e := .sendInLoop call) rfl _) rfl hb.state
    refine ⟨st, hnoted.sendInLoop hborn (fun halive => ?_) hrun.2⟩
    have hended : s.ended := hb.ended_iff.2 (by cases st <;> simp_all)
    exact hok hended (.sendInLoop data len call) (by rw [hf]; rfl)
  | shutdownInLoop =>
    obtain rfl := Option.some.inj hrun
    exact ⟨st, (hs.took hpc hf rfl).of_quiet (TcpConnection.quiet_shutdownInLoop _) rfl hb.state⟩
  | connectEstablished =>
    obtain rfl := Option.some.inj hrun
    obtain ⟨rfl, hcreated, hq⟩ := hb.of_connectEstablished hf
    refine ⟨.alive, hcreated ▸ Life.establish hr (hs.scheduled.took hpc) ?_⟩
    obtain ⟨hclose, -, hdestroy⟩ := hb.counts
    refine hb.establish rfl rfl ?_ fun ha => ?_
    · rw [hdestroy] at hq
      exact hq
    · have hserver := hb.server ha
      rw [hclose, hcreated] at hserver
      exact ⟨hserver.1.trans (by simp), hserver.2⟩
  | connectDestroyed =>
    obtain rfl := Option.some.inj hrun
    obtain ⟨hstage, h1, hq⟩ := hb.of_connectDestroyed hf
    have hframe := TcpConnection.frame_connectDestroyed (s.took .connectDestroyed rest)
    refine ⟨.destroyed, Life.connectDestroyed hr (hnil ▸ hs.scheduled.took hpc) ?_
      hb.alive_of_kConnected ?_ hnil⟩
    · rw [show (s.took .connectDestroyed rest).sys.loop.activeChannels = [] from hact]
      simp
    · refine hb.connectDestroyed hstage h1 ?_ ?_ ?_ ?_
      · simp only [TcpConnection.connectDestroyed_eq]; rfl
      · simp only [TcpConnection.connectDestroyed_eq]; rfl
      · simp only [TcpConnection.connectDestroyed_eq]; rfl
      · rw [queue_frame hframe, List.append_nil]; exact hq
  | writeComplete | highWaterMark | other =>
    obtain rfl := Option.some.inj hrun
    exact ⟨st, hs.took hpc hf rfl⟩

/-! ### The threads -/

section Threads

variable [DecidableEq T]

/-- **An undisturbed step keeps the connection's life.** -/
theorem Life.step {a : ConnAction C T} (hs : Life st s) (hok : s.Undisturbed a)
    (h : s.step a = some s') : ∃ st', Life st' s' := by
  have hb := hs.booked
  have hinv := step_inv h
  cases a with
  | loop a =>
    obtain ⟨hp, sys, hsys, rfl⟩ := hinv
    exact ⟨st, hs.loop hp hsys⟩
  | handle e =>
    obtain ⟨-, -, h, rest, conn, hl, hrun, rfl⟩ := hinv
    exact hs.handle hok hl hrun
  | runFunctor e =>
    obtain ⟨hpc, -, f, rest, conn, hf, hrun, rfl⟩ := hinv
    exact hs.runFunctor hok hpc hf hrun
  | newConnection t =>
    obtain ⟨hc, hl, -, rfl⟩ := hinv
    have hb' : Booked st false s.user s.conn := hc ▸ hb
    obtain ⟨rfl, -⟩ := hb'.unborn rfl
    exact ⟨.fresh, hs.pushed { s with created := true, conn := s.listed } rfl rfl rfl
      (hb'.announce rfl rfl (queue_pushed t _ s) rfl hl)⟩
  | newConnectionOwn =>
    obtain ⟨hc, -, -, rfl⟩ := hinv
    obtain ⟨rfl, h0⟩ := hb.unborn hc
    obtain ⟨hclose, -, hdestroy⟩ := hb.counts
    refine ⟨.alive, Life.establish (c := s.listed) (hs.registered.of_poller rfl rfl) ?_ ?_⟩
    · exact hs.scheduled.of_frame (.refl _) rfl rfl
    · refine hb.establish rfl rfl ?_ fun ha => ?_
      · have hq := hb.queue
        rw [hc, h0] at hq
        rw [h0]
        show s.conn.queue.filter LoopFunctor.isLife = _
        simpa using hq
      · have hremovals := (hb.server ha).2
        rw [hclose] at hremovals
        exact ⟨by simp [h0, listed, TcpConnection.setServer, TcpConnection.setState], hremovals⟩
  | sendTest t data payload =>
    obtain ⟨hst, -, -, rfl⟩ := hinv
    obtain rfl := hb.alive_of_kConnected hst
    have hq := TcpConnection.quiet_note (e := .send ⟨s.calls, payload⟩) rfl s.conn
    obtain ⟨fs, -, hf⟩ := hq.frame
    exact ⟨.alive, hs.of_frame hf rfl rfl rfl ((hb.of_quiet hq hb.state).of_user (by simp))⟩
  | sendPush t =>
    obtain ⟨data, len, call, hu, rfl⟩ := hinv
    exact ⟨st, hs.pushUse (by simp [hu]) rfl⟩
  | shutdownTest t =>
    obtain ⟨hst, -, rfl⟩ := hinv
    obtain rfl := hb.alive_of_kConnected hst
    exact ⟨.alive, hs.of_frame (.refl _) rfl rfl rfl (hb.of_user (by simp))⟩
  | shutdownSet t =>
    obtain ⟨hu, rfl⟩ := hinv
    have hborn : st ≠ .fresh := fun hfresh => by simp [(hb.unused hfresh).1 t] at hu
    have hq := TcpConnection.quiet_setState .kDisconnected s.conn
    exact ⟨st, hs.of_frame (.refl _) rfl rfl rfl
      ((hb.of_quiet hq (Stage.state_kDisconnected hborn)).of_user hborn)⟩
  | shutdownPush t =>
    obtain ⟨hu, rfl⟩ := hinv
    exact ⟨st, hs.pushUse (by simp [hu]) rfl⟩
  | sendOwn data payload e =>
    obtain ⟨-, -, -, -, conn, hsend, rfl⟩ := hinv
    unfold TcpConnection.send at hsend
    split at hsend
    · rename_i hst
      obtain rfl := hb.alive_of_kConnected hst
      have hq := (TcpConnection.quiet_note (e := .send ⟨s.calls, payload⟩) rfl s.conn).trans
        (TcpConnection.quiet_note (e := .sendInLoop ⟨s.calls, payload⟩) rfl _)
      obtain ⟨hr, hsched, ht, hbook⟩ := (hs.of_quiet hq rfl hb.state).sendInLoop (by simp)
        (fun h => absurd rfl h) hsend
      exact ⟨.alive, hr, hsched, ht, hbook⟩
    · obtain rfl := Except.ok.inj hsend
      exact ⟨st, hs.registered, hs.scheduled, hs.tied, hb⟩
  | shutdownOwn =>
    obtain ⟨-, rfl⟩ := hinv
    have hq := TcpConnection.quiet_shutdown s.conn
    by_cases hst : s.conn.state = .kConnected
    · obtain rfl := hb.alive_of_kConnected hst
      refine ⟨.alive, hs.of_quiet hq (by rw [TcpConnection.shutdown, if_pos hst]; rfl) ?_⟩
      rw [TcpConnection.shutdown, if_pos hst]
      exact .inr rfl
    · have : s.conn.shutdown = s.conn := by rw [TcpConnection.shutdown, if_neg hst]
      rw [this]
      exact ⟨st, hs⟩
  | removeConnectionInPool t =>
    obtain ⟨-, ha, hremovals, rfl⟩ := hinv
    obtain ⟨-, hserver⟩ := hb.server ha
    have hborn : st ≠ .fresh := by
      rintro rfl
      have := hb.counts.1
      omega
    have hcloses : s.conn.log.count .handleClose ≤ 1 := hb.closes_le
    refine ⟨st, hs.pushed { s with conn := s.erased } rfl rfl rfl ?_⟩
    refine hb.request (hb.created_of_ne_fresh hborn) (by omega) rfl rfl (queue_pushed t _ s) rfl
      fun _ => ⟨rfl, ?_⟩
    show s.conn.server.removals - 1 + 1 = _
    omega
  | destroyServer t =>
    obtain ⟨ha, ⟨hm, rfl⟩ | ⟨-, rfl⟩⟩ := hinv
    · obtain ⟨hcreated, h0⟩ := (hb.server ha).1.1 hm
      refine ⟨st, hs.pushed { s with conn := s.orphaned.note .destroyRequest } rfl rfl rfl ?_⟩
      exact hb.request hcreated h0 rfl rfl (queue_pushed t _ s) rfl
        fun ha => absurd ha Bool.false_ne_true
    · exact ⟨st, hs.of_frame (.refl _) rfl rfl rfl (hb.orphan rfl rfl rfl rfl)⟩
  | destroyServerOwn =>
    obtain ⟨hl, ha, ho, ⟨hm, rfl⟩ | ⟨-, rfl⟩⟩ := hinv
    · obtain ⟨hcreated, h0⟩ := (hb.server ha).1.1 hm
      obtain ⟨hact, hnil⟩ := hok hm
      have hborn := hb.sameLoop hl hcreated
      have hdestroy : s.conn.log.count .connectDestroyed = 0 := by
        have := hb.requests.1
        omega
      -- To destroy at once is to queue the request and to run it.
      have hasked : Booked st s.created s.user
          ((s.orphaned.note .destroyRequest).queueInLLoop .connectDestroyed) :=
        hb.request hcreated h0 rfl rfl (queue_frame (LoopSystem.frame_queueInLLoop _ _)) rfl
          fun ha => absurd ha Bool.false_ne_true
      refine ⟨.destroyed, Life.connectDestroyed (c := s.orphaned.note .destroyRequest)
        (hs.registered.of_poller rfl rfl) ?_ hact hb.alive_of_kConnected ?_ hnil⟩
      · exact hnil ▸ hs.scheduled.of_frame (.refl _) rfl rfl
      · refine hasked.connectDestroyed ?_ ?_ ?_ ?_ ?_ ?_
        · cases st with
          | fresh => exact absurd rfl hborn
          | alive => exact .inl rfl
          | closed => exact .inr rfl
          | destroyed =>
            have := hb.counts.2.2
            omega
        · show (s.conn.log ++ [ConnEvent.destroyRequest]).count .destroyRequest = 1
          simp [h0]
        · simp only [TcpConnection.connectDestroyed_eq]; rfl
        · simp only [TcpConnection.connectDestroyed_eq]; rfl
        · simp only [TcpConnection.connectDestroyed_eq]; rfl
        · rw [queue_frame (TcpConnection.frame_connectDestroyed _), List.append_nil]
          have hq := hb.queue
          rw [h0, if_neg (fun h => hborn h.1)] at hq
          show s.conn.queue.filter LoopFunctor.isLife = _
          simpa using hq
    · exact ⟨st, hs.of_frame (.refl _) rfl rfl rfl (hb.orphan rfl rfl rfl rfl)⟩

end Threads

/-! ### At the start -/

theorem life_new {fd : C → Int} (hfd : Function.Injective fd) {wakeupChannel channel : C}
    (hne : channel ≠ wakeupChannel) (sameLoop writeComplete highWater : Bool) :
    Life .fresh (new (.new fd wakeupChannel) channel sameLoop writeComplete highWater :
      ConnSystem C T) := by
  refine ⟨⟨(EpollPoller.sound_new hfd).apply .enableReading wakeupChannel, ?_⟩, ?_, ?_, ?_⟩
  · have hrec := (EpollPoller.apply_frame false .enableReading wakeupChannel
      (EpollPoller.new fd)).channel channel hne
    show Stage.fresh.Entry (((EpollPoller.new fd).apply false .enableReading wakeupChannel).channel
      channel)
    rw [hrec]
    exact ⟨rfl, rfl⟩
  · exact ⟨fun _ => ⟨rfl, rfl⟩, fun _ => rfl, List.nodup_nil, List.nil_suffix,
      fun h => absurd rfl h⟩
  · exact .of_done List.not_mem_nil
  · exact {
      state := rfl
      unborn := fun _ => ⟨rfl, rfl⟩
      sameLoop := nofun
      unused := fun _ => ⟨fun _ => rfl, nofun⟩
      counts := ⟨rfl, rfl, rfl⟩
      closeCallbacks := rfl
      requests := ⟨Nat.zero_le _, Nat.zero_le _⟩
      queue := rfl
      server := fun _ => ⟨⟨nofun, nofun⟩, rfl⟩ }

end Life

end ConnSystem

end WebCore
