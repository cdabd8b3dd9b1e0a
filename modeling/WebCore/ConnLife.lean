import WebCore.ConnFrame

/-!
# The life of a connection

A connection is `fresh` until `connectEstablished`, then `alive`, `closed` after `handleClose`, and
`destroyed` after `connectDestroyed`. `Life st s` says what holds at each stage:

* *registration*: the channel is in the kernel's interest set exactly while the connection is
  alive;
* *dispatch*: the connection is among the active channels, or has a read or close handler to come,
  only while it is alive;
* *books*: how often the connection has been closed, reported and removed, and which of
  `connectEstablished` and `connectDestroyed` are still in the io loop's queue.

Three things can break it. `handleEventWithGuard` can call the close handler after a read that has
already closed the connection; a send that runs after the close can register the channel again; and
a server that is destroyed by a callback of its own loop can destroy a connection whose events of
this iteration are still to be handled. `Undisturbed` excludes them, and then every step keeps
`Life` (`Life.step`).
-/

namespace WebCore

inductive Stage
  | fresh
  | alive
  | closed
  | destroyed
deriving DecidableEq, Repr

namespace Stage

/-- The channel's record in the poller. -/
def Entry (st : Stage) (ch : Channel) : Prop :=
  match st with
  | .fresh => ch.index = .kNew ∧ ch.events = kNoneEvent
  | .alive => ch.index = .kAdded ∧
      (ch.events = kReadEvent ∨ ch.events = kReadEvent ||| kWriteEvent)
  | .closed => ch.index = .kDeleted ∧ ch.events = kNoneEvent
  | .destroyed => ch.index = .kNew

def State (st : Stage) (state : ConnState) : Prop :=
  match st with
  | .fresh => state = .kConnecting
  | .alive => state = .kConnected ∨ state = .kDisconnected
  | .closed | .destroyed => state = .kDisconnected

/-- How often the connection was closed, reported down, and destroyed. -/
def Counts (st : Stage) (closes reports destroys : Nat) : Prop :=
  match st with
  | .fresh | .alive => closes = 0 ∧ reports = 0 ∧ destroys = 0
  | .closed => closes = 1 ∧ reports = 1 ∧ destroys = 0
  | .destroyed => closes ≤ 1 ∧ reports ≤ 1 ∧ destroys = 1

theorem state_kDisconnected {st : Stage} (h : st ≠ .fresh) : st.State .kDisconnected := by
  cases st with
  | fresh => exact absurd rfl h
  | alive => exact .inr rfl
  | closed | destroyed => exact rfl

end Stage

/-- The functor begins or ends the connection. -/
def LoopFunctor.isLife : LoopFunctor → Bool
  | .connectEstablished | .connectDestroyed => true
  | _ => false

/-- The functor is a use of the connection by a thread. -/
def LoopFunctor.isUse : LoopFunctor → Bool
  | .sendInLoop _ _ _ | .shutdownInLoop => true
  | _ => false

namespace ConnSystem

variable {C T : Type*}

/-! ## The invariant -/

/-- The registration of the channel. -/
structure Registered (st : Stage) (c : TcpConnection C T) : Prop where
  sound : c.poller.Sound
  entry : st.Entry (c.poller.channel c.channel)

/-- How a dispatch goes on. -/
structure Scheduled (c : TcpConnection C T) (handling : List Handler) : Prop where
  idle : c.sys.loop.pc ≠ .dispatch → c.sys.loop.activeChannels = [] ∧ handling = []
  batch : c.sys.loop.pc ≠ .run → c.sys.loop.functors = []
  nodup : c.sys.loop.activeChannels.Nodup
  suffix : handling <:+ handlers (c.poller.channel c.channel).revents
  handled : handling ≠ [] → c.channel ∉ c.sys.loop.activeChannels

/-- The connection is dispatched to only while it is alive. -/
structure Tied (st : Stage) (c : TcpConnection C T) (handling : List Handler) : Prop where
  active : c.channel ∈ c.sys.loop.activeChannels → st = .alive
  closing : .read ∈ handling ∨ .close ∈ handling → st = .alive
  quiet : st = .fresh ∨ st = .destroyed → handling = []

/-- What has been done about the connection, and what is queued. -/
structure Booked (st : Stage) (created : Bool) (user : T → UserPc) (c : TcpConnection C T) :
    Prop where
  state : st.State c.state
  unborn : created = false → st = .fresh ∧ c.log.count .destroyRequest = 0
  sameLoop : c.server.sameLoop = true → created = true → st ≠ .fresh
  unused : st = .fresh → (∀ t, user t = .idle) ∧ ∀ f ∈ c.queue, f.isUse = false
  counts : st.Counts (c.log.count .handleClose) (c.log.count (.connectionCallback false))
    (c.log.count .connectDestroyed)
  closeCallbacks : c.log.count .closeCallback = c.log.count .handleClose
  requests : c.log.count .connectDestroyed ≤ c.log.count .destroyRequest ∧
    c.log.count .destroyRequest ≤ 1
  queue : (c.queue).filter LoopFunctor.isLife =
    (if st = .fresh ∧ created = true then [.connectEstablished] else []) ++
    List.replicate (c.log.count .destroyRequest - c.log.count .connectDestroyed) .connectDestroyed
  server : c.server.alive = true →
    (c.server.inMap = true ↔ created = true ∧ c.log.count .destroyRequest = 0) ∧
    c.server.removals + c.log.count .destroyRequest = c.log.count .handleClose

structure Life (st : Stage) (s : ConnSystem C T) : Prop where
  registered : Registered st s.conn
  scheduled : Scheduled s.conn s.handling
  tied : Tied st s.conn s.handling
  booked : Booked st s.created s.user s.conn

/-! ## Quiet steps -/

theorem queue_frame {c c' : TcpConnection C T} {fs : List LoopFunctor}
    (h : c.sys.Frame fs c'.sys) : c'.queue = c.queue ++ fs := by
  rw [TcpConnection.queue, h.functors, h.pendingFunctors, ← List.append_assoc]; rfl

/-- Only a connection that is alive is in the interest set. -/
theorem Registered.alive_of_kAdded {st : Stage} {c : TcpConnection C T} (hr : Registered st c)
    (hi : (c.poller.channel c.channel).index = .kAdded) : st = .alive := by
  have he := hr.entry
  cases st with
  | alive => rfl
  | _ => simp [Stage.Entry, hi] at he

/-- Only a connection that was alive at its last event can want to write. -/
theorem Registered.stage_of_isWriting {st : Stage} {c : TcpConnection C T}
    (hr : Registered st c) (hw : c.isWriting = true) :
    st = .alive ∨ st = .destroyed := by
  have he := hr.entry
  have hnone : (c.poller.channel c.channel).events ≠ kNoneEvent := by
    intro hev
    have : Channel.isWriting (c.poller.channel c.channel) = false := by
      rw [Channel.isWriting, hev]; decide
    exact absurd (this.symm.trans hw) (by simp)
  cases st with
  | fresh => exact absurd he.2 hnone
  | alive => exact .inl rfl
  | closed => exact absurd he.2 hnone
  | destroyed => exact .inr rfl

/-- The channel is not in the kernel's interest set. -/
theorem Registered.interest_eq_none {st : Stage} {c : TcpConnection C T} (hr : Registered st c)
    (hst : st ≠ .alive) : c.poller.interest (c.poller.channel c.channel).fd = none := by
  rw [(hr.sound.agrees c.channel).interest_eq, if_neg fun hi => hst (hr.alive_of_kAdded hi)]

/-- The poller's map forgets the channel when the connection is destroyed. -/
theorem Registered.channels_eq_none {st : Stage} {c : TcpConnection C T} (hr : Registered st c)
    (hst : st = .closed ∨ st = .destroyed) :
    c.poller.channels (c.poller.channel c.channel).fd = none ↔ st = .destroyed := by
  rw [(hr.sound.agrees c.channel).channels_eq]
  have he := hr.entry
  rcases hst with rfl | rfl
  · simp [he.1]
  · simp only [Stage.Entry] at he
    simp [he]

theorem Registered.of_poller {st : Stage} {c c' : TcpConnection C T} (hr : Registered st c)
    (hp : c'.poller = c.poller) (hc : c'.channel = c.channel) : Registered st c' := by
  obtain ⟨hs, he⟩ := hr
  exact ⟨by rw [hp]; exact hs, by rw [hp, hc]; exact he⟩

theorem Scheduled.of_frame {c c' : TcpConnection C T} {handling : List Handler}
    {fs : List LoopFunctor} (hs : Scheduled c handling) (hf : c.sys.Frame fs c'.sys)
    (hc : c'.channel = c.channel)
    (hr : (c'.poller.channel c.channel).revents = (c.poller.channel c.channel).revents) :
    Scheduled c' handling where
  idle := by rw [hf.pc, hf.activeChannels]; exact hs.idle
  batch := by rw [hf.pc, hf.functors]; exact hs.batch
  nodup := by rw [hf.activeChannels]; exact hs.nodup
  suffix := by rw [hc, hr]; exact hs.suffix
  handled := by rw [hc, hf.activeChannels]; exact hs.handled

theorem Tied.of_frame {st : Stage} {c c' : TcpConnection C T} {handling : List Handler}
    {fs : List LoopFunctor} (hs : Tied st c handling) (hf : c.sys.Frame fs c'.sys)
    (hc : c'.channel = c.channel) : Tied st c' handling :=
  ⟨by rw [hc, hf.activeChannels]; exact hs.active, hs.closing, hs.quiet⟩

theorem Booked.of_queue {created : Bool} {user : T → UserPc} {c c' : TcpConnection C T}
    {fs : List LoopFunctor} (hb : Booked st created user c) (hlog : c'.log = c.log)
    (hst : c'.state = c.state) (hsrv : c'.server = c.server) (hq : c'.queue = c.queue ++ fs)
    (hfs : ∀ f ∈ fs, f.isLife = false ∧ (st = .fresh → f.isUse = false)) :
    Booked st created user c' where
  state := hst ▸ hb.state
  unborn := hlog ▸ hb.unborn
  sameLoop := hsrv ▸ hb.sameLoop
  unused hfresh := by
    refine ⟨(hb.unused hfresh).1, fun f hmem => ?_⟩
    rw [hq] at hmem
    exact (List.mem_append.1 hmem).elim ((hb.unused hfresh).2 f) fun h => (hfs f h).2 hfresh
  counts := hlog ▸ hb.counts
  closeCallbacks := hlog ▸ hb.closeCallbacks
  requests := hlog ▸ hb.requests
  queue := by
    have hnone : fs.filter LoopFunctor.isLife = [] :=
      List.filter_eq_nil_iff.2 fun f hmem => by simp [(hfs f hmem).1]
    rw [hq, List.filter_append, hnone, List.append_nil, hlog]
    exact hb.queue
  server := by rw [hlog, hsrv]; exact hb.server

/-- The books are the same when nothing happens that belongs to the connection's end. -/
theorem Booked.of_quiet {st : Stage} {created : Bool} {user : T → UserPc} {c c' : TcpConnection C T}
    (hb : Booked st created user c) (hq : TcpConnection.Quiet c c') (hst : st.State c'.state) :
    Booked st created user c' := by
  obtain ⟨fs, hfs, hf⟩ := hq.frame
  have hclose := hq.count_eq (e := .handleClose) rfl
  have hreport := hq.count_eq (e := .connectionCallback false) rfl
  have hdestroy := hq.count_eq (e := .connectDestroyed) rfl
  have hcallback := hq.count_eq (e := .closeCallback) rfl
  have hrequest := hq.count_eq (e := .destroyRequest) rfl
  have hnotice : ∀ f ∈ fs, f.isLife = false ∧ f.isUse = false := by
    intro f hf
    have := hfs f hf
    cases f <;> simp_all [LoopFunctor.isNotice, LoopFunctor.isLife, LoopFunctor.isUse]
  have hqueue : c'.queue = c.queue ++ fs := queue_frame hf
  constructor
  · exact hst
  · rw [hrequest]; exact hb.unborn
  · rw [hq.server]; exact hb.sameLoop
  · intro hfresh
    refine ⟨(hb.unused hfresh).1, fun f hmem => ?_⟩
    rw [hqueue] at hmem
    exact (List.mem_append.1 hmem).elim ((hb.unused hfresh).2 f) fun h => (hnotice f h).2
  · rw [hclose, hreport, hdestroy]; exact hb.counts
  · rw [hcallback, hclose]; exact hb.closeCallbacks
  · rw [hdestroy, hrequest]; exact hb.requests
  · have hnone : fs.filter LoopFunctor.isLife = [] :=
      List.filter_eq_nil_iff.2 fun f hmem => by simp [(hnotice f hmem).1]
    rw [hqueue, List.filter_append, hnone, List.append_nil, hrequest, hdestroy]
    exact hb.queue
  · rw [hq.server, hrequest, hclose]; exact hb.server

/-! ## Steps of the loop -/

section Loop

variable [DecidableEq C] {st : Stage} {s : ConnSystem C T} {a : LoopAction LoopFunctor C T}
  {sys : LoopSystem LoopFunctor C T}

theorem passes_channelOp (hp : s.passes a = true) (op : ChannelOp) :
    a ≠ .channelOp op s.conn.channel := by
  rintro rfl
  simp [passes] at hp

theorem nextHandling_of_ne (ha : a ≠ .dispatch) : s.nextHandling a = s.handling := by
  cases a <;> first | rfl | exact absurd rfl ha

/-- A step that runs no code of the connection queues only functors that are not its own. -/
theorem pushes_other {f : LoopFunctor} (hp : s.passes a = true)
    (hmem : f ∈ LoopSystem.pushes a) : f = .other := by
  cases a with
  | push t g =>
    obtain rfl : f = g := by simpa [LoopSystem.pushes] using hmem
    simp only [passes, decide_eq_true_eq] at hp
    exact hp.1
  | pushOwn g =>
    obtain rfl : f = g := by simpa [LoopSystem.pushes] using hmem
    simpa [passes] using hp
  | _ => simp [LoopSystem.pushes] at hmem

variable [DecidableEq T]

theorem Registered.loop (hs : Registered st s.conn) (hp : s.passes a = true)
    (h : s.conn.sys.step a = some sys) : Registered st (s.conn.setSys sys) := by
  obtain ⟨hsound, revents, hr, -⟩ := LoopSystem.step_channel hs.sound (passes_channelOp hp) h
  refine ⟨hsound, ?_⟩
  have he : (s.conn.setSys sys).poller.channel s.conn.channel =
      { s.conn.poller.channel s.conn.channel with revents } := hr
  show st.Entry ((s.conn.setSys sys).poller.channel s.conn.channel)
  rw [he]
  exact hs.entry

/-- Where the loop thread stands outside of `dispatch`, its steps keep the dispatch as it is. -/
theorem Scheduled.loop (hs : Scheduled s.conn s.handling) (hsound : s.conn.poller.Sound)
    (hp : s.passes a = true) (h : s.conn.sys.step a = some sys) :
    Scheduled (s.conn.setSys sys) (s.nextHandling a) := by
  have hbatch := LoopSystem.step_batch_nil hs.batch h
  obtain ⟨-, revents, hrec, hsame⟩ :=
    LoopSystem.step_channel hsound (passes_channelOp hp) h
  have hrev : (∀ active, a ≠ .pollReturn active) →
      ((s.conn.setSys sys).poller.channel s.conn.channel).revents =
        (s.conn.poller.channel s.conn.channel).revents := fun hne =>
    (congrArg Channel.revents hrec).trans (hsame hne)
  have hinv := LoopSystem.step_inv h
  -- The dispatch is as it was, in a step that leaves the active channels.
  have hkeep : a ≠ .dispatch → (∀ active, a ≠ .pollReturn active) →
      sys.loop.activeChannels = s.conn.sys.loop.activeChannels →
      (sys.loop.pc ≠ .dispatch → s.conn.sys.loop.activeChannels = [] ∧ s.handling = []) →
      Scheduled (s.conn.setSys sys) (s.nextHandling a) := fun hd hpoll hact hidle => by
    rw [nextHandling_of_ne hd]
    exact {
      idle := fun hpc => by
        show sys.loop.activeChannels = [] ∧ _
        rw [hact]; exact hidle hpc
      batch := hbatch
      nodup := by show sys.loop.activeChannels.Nodup; rw [hact]; exact hs.nodup
      suffix := (congrArg handlers (hrev hpoll)).symm ▸ hs.suffix
      handled := fun hne => by
        show s.conn.channel ∉ sys.loop.activeChannels
        rw [hact]; exact hs.handled hne }
  cases a with
  | dispatch =>
    obtain ⟨hpc, -, c, rest, hact, rfl⟩ := hinv
    have hnil : s.handling = [] := by simpa [passes] using hp
    have hnodup := hs.nodup
    rw [hact] at hnodup
    refine ⟨fun hne => absurd hpc hne, hbatch, (List.nodup_cons.1 hnodup).2, ?_, fun hne => ?_⟩
    · rw [nextHandling]
      split
      · exact List.suffix_refl _
      · exact List.nil_suffix
    · have hhead : s.conn.sys.loop.activeChannels.head? = some s.conn.channel := by
        by_contra hhead
        exact hne (by rw [nextHandling, if_neg hhead])
      rw [hact] at hhead
      obtain rfl : c = s.conn.channel := by simpa using hhead
      exact (List.nodup_cons.1 hnodup).1
  | pollReturn active =>
    obtain ⟨hpc, -, -, hnodup, rfl⟩ := hinv
    have hnil : s.handling = [] := (hs.idle (by simp [hpc])).2
    refine ⟨fun hne => absurd rfl hne, hbatch, hnodup, ?_, fun hne => absurd hnil hne⟩
    rw [nextHandling_of_ne (by simp), hnil]
    exact List.nil_suffix
  | enter =>
    obtain ⟨hpc, -, rfl⟩ := hinv
    exact hkeep (by simp) (by simp) rfl fun _ => hs.idle (by simp [hpc])
  | test =>
    obtain ⟨hpc, -, rfl⟩ := hinv
    have hidle := hs.idle (by simp [hpc])
    exact hkeep (by simp) (by simp) (by simp [hidle.1]) fun _ => hidle
  | startFunctors =>
    obtain ⟨-, -, hact, rfl⟩ := hinv
    exact hkeep (by simp) (by simp) rfl fun _ => ⟨hact, by simpa [passes] using hp⟩
  | swapFunctors =>
    obtain ⟨hpc, -, rfl⟩ := hinv
    exact hkeep (by simp) (by simp) rfl fun _ => hs.idle (by simp [hpc])
  | runFunctor => simp [passes] at hp
  | endFunctors =>
    obtain ⟨hpc, -, -, rfl⟩ := hinv
    exact hkeep (by simp) (by simp) rfl fun _ => hs.idle (by simp [hpc])
  | channelOp =>
    obtain ⟨-, -, -, rfl⟩ := hinv
    exact hkeep (by simp) (by simp) rfl hs.idle
  | pushOwn | quitOwn =>
    obtain ⟨-, -, rfl⟩ := hinv
    exact hkeep (by simp) (by simp) rfl hs.idle
  | push | quit | wakeup | wakeupOwn =>
    obtain ⟨-, rfl⟩ := hinv
    exact hkeep (by simp) (by simp) rfl hs.idle

theorem Tied.loop (hs : Tied st s.conn s.handling) (hr : Registered st s.conn)
    (h : s.conn.sys.step a = some sys) : Tied st (s.conn.setSys sys) (s.nextHandling a) := by
  -- A dispatch of the connection is one of a connection that is alive.
  have hnext : s.nextHandling a = s.handling ∨ s.nextHandling a = [] ∨ st = .alive := by
    cases a with
    | dispatch =>
      rw [nextHandling]
      split
      · rename_i hhead
        exact .inr (.inr (hs.active (List.mem_of_mem_head? hhead)))
      · exact .inr (.inl rfl)
    | _ => exact .inl rfl
  refine ⟨fun hmem => ?_, fun hc => ?_, fun hq => ?_⟩
  · rcases LoopSystem.step_active h hmem with ⟨-, hmem⟩ | ⟨_, _, -, -, hrep⟩
    · exact hs.active hmem
    · exact hr.alive_of_kAdded (LoopSystem.kAdded_of_mayReport hr.sound hrep)
  · rcases hnext with he | he | he
    · exact hs.closing (he ▸ hc)
    · simp [he] at hc
    · exact he
  · rcases hnext with he | he | rfl
    · rw [he]; exact hs.quiet hq
    · exact he
    · simp at hq

theorem Booked.loop (hb : Booked st s.created s.user s.conn) (hs : Scheduled s.conn s.handling)
    (hp : s.passes a = true) (h : s.conn.sys.step a = some sys) :
    Booked st s.created s.user (s.conn.setSys sys) := by
  have ha : a ≠ .runFunctor := by rintro rfl; simp [passes] at hp
  refine hb.of_queue rfl rfl rfl (LoopSystem.step_queue hs.batch ha h) fun f hmem => ?_
  rw [pushes_other hp hmem]
  exact ⟨rfl, fun _ => rfl⟩

theorem Life.loop (hs : Life st s) (hp : s.passes a = true) (h : s.conn.sys.step a = some sys) :
    Life st { s with conn := s.conn.setSys sys, handling := s.nextHandling a } :=
  ⟨hs.registered.loop hp h, hs.scheduled.loop hs.registered.sound hp h,
    hs.tied.loop hs.registered h,
    hs.booked.loop hs.scheduled hp h⟩

end Loop

end ConnSystem

end WebCore
