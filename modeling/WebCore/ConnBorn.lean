import WebCore.ConnPlain
import WebCore.ConnStep

/-!
# Established connections

`Life` follows a connection as long as nothing disturbs it. `Born` is the part of it that nothing
disturbs: once `connectEstablished` has run it does not run again, the poller stays sound, a
dispatch goes through the handlers in their order, and every request to destroy the connection is
in the queue or has been served.

**Theorem (`Born.step`).** Every step of every thread keeps `Born`.

`Unborn` is the part of a run before `connectEstablished`; `run_born` is the induction rule that
joins the two.
-/

namespace WebCore

namespace ConnSystem

variable {C T : Type*}

/-! ## The invariants -/

/-- The requests to destroy the connection, and what the server knows of them. -/
structure Ledger (c : TcpConnection C T) : Prop where
  queue : c.queue.count .connectDestroyed + c.log.count .connectDestroyed =
    c.log.count .destroyRequest
  server : c.server.alive = true → (c.server.inMap = true ↔ c.log.count .destroyRequest = 0) ∧
    c.server.removals + c.log.count .destroyRequest = c.log.count .handleClose
  dead : c.server.alive = false → 0 < c.log.count .destroyRequest
  unclosed : c.log.count .handleClose = 0 → c.log.count .destroyRequest ≤ 1

/-- The connection has been established, and its loop goes on in order. -/
structure Settled (s : ConnSystem C T) : Prop where
  created : s.created = true
  begun : .connectEstablished ∉ s.conn.queue
  state : s.conn.state = .kConnected ∨ s.conn.state = .kDisconnected
  once : s.conn.log.count (.connectionCallback true) = 1
  sound : s.conn.poller.Sound
  scheduled : Scheduled s.conn s.handling

/-- What holds of a connection from its establishment on. -/
structure Born (s : ConnSystem C T) : Prop extends Settled s where
  ledger : Ledger s.conn

/-- What holds of a connection up to its establishment. -/
structure Unborn (s : ConnSystem C T) : Prop where
  life : Life .fresh s
  log : ∀ e ∈ s.conn.log, e = .destroyRequest
  dead : s.created = true → s.conn.server.alive = false → 0 < s.conn.log.count .destroyRequest
  output : s.conn.outputBuffer = .initial

/-- A connection that has just been established. -/
structure Newborn (s : ConnSystem C T) : Prop where
  life : Life .alive s
  log : ∀ e ∈ s.conn.log, e = .destroyRequest ∨ e = .connectionCallback true
  once : s.conn.log.count (.connectionCallback true) = 1
  dead : s.conn.server.alive = false → 0 < s.conn.log.count .destroyRequest
  state : s.conn.state = .kConnected
  output : s.conn.outputBuffer = .initial
  quiet : s.conn.isWriting = false
  unused : (∀ t, s.user t = .idle) ∧ ∀ f ∈ s.conn.queue, f.isUse = false

/-! ## The beginning -/

theorem count_eq_filter (fs : List LoopFunctor) :
    fs.count .connectDestroyed = (fs.filter LoopFunctor.isLife).count .connectDestroyed := by
  rw [List.count_filter (by rfl)]

theorem Booked.begun {st : Stage} {created : Bool} {user : T → UserPc} {c : TcpConnection C T}
    (hb : Booked st created user c) (hst : st ≠ .fresh) : .connectEstablished ∉ c.queue := by
  intro hmem
  have hin : LoopFunctor.connectEstablished ∈ c.queue.filter LoopFunctor.isLife :=
    List.mem_filter.2 ⟨hmem, rfl⟩
  rw [hb.queue, if_neg fun h => hst h.1, List.nil_append] at hin
  cases List.eq_of_mem_replicate hin

theorem Booked.ledger {st : Stage} {created : Bool} {user : T → UserPc} {c : TcpConnection C T}
    (hb : Booked st created user c) (hcreated : created = true)
    (hdead : c.server.alive = false → 0 < c.log.count .destroyRequest) : Ledger c where
  queue := by
    have hq : c.queue.count .connectDestroyed =
        c.log.count .destroyRequest - c.log.count .connectDestroyed := by
      rw [count_eq_filter, hb.queue, List.count_append, List.count_replicate_self]
      split <;> simp
    have := hb.requests.1
    omega
  server ha := by
    have h := hb.server ha
    rw [hcreated] at h
    exact ⟨by simpa using h.1, h.2⟩
  dead := hdead
  unclosed _ := hb.requests.2

theorem Newborn.born {s : ConnSystem C T} (h : Newborn s) : Born s where
  created := h.life.booked.created_of_ne_fresh (by simp)
  begun := h.life.booked.begun (by simp)
  state := .inl h.state
  once := h.once
  sound := h.life.registered.sound
  scheduled := h.life.scheduled
  ledger := h.life.booked.ledger (h.life.booked.created_of_ne_fresh (by simp)) h.dead

theorem unborn_new [DecidableEq C] {fd : C → Int} (hfd : Function.Injective fd)
    {wakeupChannel channel : C} (hne : channel ≠ wakeupChannel)
    (sameLoop writeComplete highWater : Bool) :
    Unborn (new (.new fd wakeupChannel) channel sameLoop writeComplete highWater :
      ConnSystem C T) :=
  ⟨life_new hfd hne sameLoop writeComplete highWater, nofun, nofun, rfl⟩

theorem Unborn.not_ended {s : ConnSystem C T} (h : Unborn s) : ¬s.ended := by
  rintro (hmem | hmem) <;> cases h.log _ hmem

section Unborn

variable [DecidableEq C] {s s' : ConnSystem C T}

/-- An established connection, when nothing has happened to it before. -/
theorem Unborn.newborn {c : TcpConnection C T} (h : Unborn s) (hs' : Life .alive s')
    (hconn : s'.conn = c.connectEstablished) (hlog : c.log = s.conn.log)
    (hdead : c.server.alive = false → 0 < s.conn.log.count .destroyRequest)
    (hout : c.outputBuffer = s.conn.outputBuffer) (hp : c.poller = s.conn.poller)
    (hch : c.channel = s.conn.channel) (huser : s'.user = s.user)
    (hq : ∀ f ∈ c.queue, f ∈ s.conn.queue) : Newborn s' := by
  have hlog' : s'.conn.log = s.conn.log ++ [.connectionCallback true] := by
    rw [hconn, ← hlog]; rfl
  have hunused := h.life.booked.unused rfl
  refine ⟨hs', fun e he => ?_, ?_, ?_, ?_, ?_, ?_, ?_⟩
  · rw [hlog'] at he
    rcases List.mem_append.1 he with he | he
    · exact .inl (h.log e he)
    · exact .inr (List.mem_singleton.1 he)
  · rw [hlog', List.count_append, List.count_eq_zero.2 fun he => by cases h.log _ he]
    rfl
  · rw [hlog', hconn, List.count_append]
    exact fun ha => Nat.lt_add_right _ (hdead ha)
  · rw [hconn]; rfl
  · rw [hconn]; exact hout.trans h.output
  · have hev : (c.poller.channel c.channel).events = kNoneEvent := by
      rw [hp, hch]; exact h.life.registered.entry.2
    rw [hconn]
    show Channel.isWriting ((c.poller.apply false .enableReading c.channel).channel c.channel) = _
    rw [EpollPoller.channel_apply (by simp), Channel.isWriting, EpollPoller.maskAfter, hev]
    show EventMask.has (kNoneEvent ||| kReadEvent) kWriteEvent = false
    decide
  · refine ⟨fun t => by rw [huser]; exact hunused.1 t, fun f hf => hunused.2 f (hq f ?_)⟩
    rw [hconn] at hf
    exact hf

variable [DecidableEq T] {a : ConnAction C T}

theorem Unborn.undisturbed (h : Unborn s) (hstep : s.step a = some s') : s.Undisturbed a := by
  have hinv := step_inv hstep
  cases a with
  | handle e =>
    obtain ⟨-, -, k, rest, conn, hl, -⟩ := hinv
    rw [h.life.tied.quiet (.inl rfl)] at hl
    cases hl
  | runFunctor e => exact fun hended => absurd hended h.not_ended
  | destroyServerOwn =>
    obtain ⟨hl, ha, -⟩ := hinv
    intro hm
    exact absurd rfl (h.life.booked.sameLoop hl ((h.life.booked.server ha).1.1 hm).1)
  | _ => trivial

/-- **A step of an unborn connection** leaves it unborn or establishes it. -/
theorem Unborn.step (h : Unborn s) (hstep : s.step a = some s') : Unborn s' ∨ Newborn s' := by
  have hb := h.life.booked
  obtain ⟨st', hs'⟩ := h.life.step (h.undisturbed hstep) hstep
  have hinv := step_inv hstep
  have hstate : s.conn.state = .kConnecting := hb.state
  have hdead := h.dead
  have hstay : s'.conn.state = s.conn.state →
      (∀ e ∈ s'.conn.log, e ∈ s.conn.log ∨ e = .destroyRequest) →
      (s'.created = true → s'.conn.server.alive = false →
        0 < s'.conn.log.count .destroyRequest) →
      s'.conn.outputBuffer = s.conn.outputBuffer → Unborn s' := by
    intro hst hlog hdead hout
    have hfresh : st' = .fresh := by
      have hkind := hs'.booked.state
      rw [hst, hstate] at hkind
      cases st' <;> simp_all [Stage.State]
    exact ⟨hfresh ▸ hs', fun e he => (hlog e he).elim (h.log e) id, hdead, hout.trans h.output⟩
  have hborn : s'.conn.state = .kConnected → Life .alive s' := fun hst =>
    hs'.booked.alive_of_kConnected hst ▸ hs'
  -- A connection that its server no longer lists has been asked to end.
  have requested : s.conn.server.alive = true → s.conn.server.inMap = false →
      s.created = true → 0 < s.conn.log.count .destroyRequest := by
    intro ha hm hc
    by_contra h0
    have := (hb.server ha).1.2 ⟨hc, by omega⟩
    exact absurd (hm.symm.trans this) (by simp)
  cases a with
  | loop a =>
    obtain ⟨-, sys, -, rfl⟩ := hinv
    exact .inl (hstay rfl (fun _ => .inl) hdead rfl)
  | handle e =>
    obtain ⟨-, -, k, rest, conn, hl, -⟩ := hinv
    rw [h.life.tied.quiet (.inl rfl)] at hl
    cases hl
  | runFunctor e =>
    obtain ⟨-, -, f, rest, conn, hf, hrun, rfl⟩ := hinv
    have huse := (hb.unused rfl).2 f (mem_queue hf)
    cases f with
    | sendInLoop | shutdownInLoop => cases huse
    | connectEstablished =>
      obtain rfl := Option.some.inj hrun
      have hcreated : s.created = true := (hb.of_connectEstablished hf).2.1
      refine .inr (h.newborn (hborn rfl) (c := s.took .connectEstablished rest) rfl rfl
        (hdead hcreated) rfl rfl rfl rfl ?_)
      intro f hmem
      rw [queue_took hf]
      exact List.mem_cons_of_mem _ hmem
    | connectDestroyed => exact absurd (hb.of_connectDestroyed hf).1 (by simp)
    | writeComplete | highWaterMark | other =>
      obtain rfl := Option.some.inj hrun
      exact .inl (hstay rfl (fun _ => .inl) hdead rfl)
  | newConnection t =>
    obtain ⟨-, -, ha, rfl⟩ := hinv
    exact .inl (hstay rfl (fun _ => .inl) (fun _ hno => absurd (ha.symm.trans hno) (by simp)) rfl)
  | newConnectionOwn =>
    obtain ⟨-, ha, -, rfl⟩ := hinv
    exact .inr (h.newborn (hborn rfl) (c := s.listed) rfl rfl
      (fun hno => absurd (ha.symm.trans hno) (by simp)) rfl rfl rfl rfl fun _ => id)
  | sendTest => exact absurd (hinv.1.symm.trans hstate) (by simp)
  | sendPush t =>
    obtain ⟨data, len, call, hu, -⟩ := hinv
    rw [(hb.unused rfl).1 t] at hu
    cases hu
  | shutdownTest => exact absurd (hinv.1.symm.trans hstate) (by simp)
  | shutdownSet t | shutdownPush t =>
    have hu := hinv.1
    rw [(hb.unused rfl).1 t] at hu
    cases hu
  | sendOwn data payload e =>
    obtain ⟨-, -, -, -, conn, hsend, rfl⟩ := hinv
    rw [TcpConnection.send, if_neg (by rw [hstate]; simp)] at hsend
    obtain rfl := Except.ok.inj hsend
    exact .inl (hstay rfl (fun _ => .inl) hdead rfl)
  | shutdownOwn =>
    obtain ⟨-, rfl⟩ := hinv
    have hsame : s.conn.shutdown = s.conn := by
      rw [TcpConnection.shutdown, if_neg (by rw [hstate]; simp)]
    refine .inl (hstay (by rw [hsame]) ?_ ?_ (by rw [hsame]))
    · rw [hsame]; exact fun _ => .inl
    · rw [hsame]; exact hdead
  | removeConnectionInPool t =>
    obtain ⟨-, ha, hremovals, -⟩ := hinv
    have hbook := (hb.server ha).2
    rw [hb.counts.1] at hbook
    omega
  | destroyServer t =>
    obtain ⟨ha, ⟨-, rfl⟩ | ⟨hm, rfl⟩⟩ := hinv
    · refine .inl (hstay rfl (fun e he => ?_) (fun _ _ => ?_) rfl)
      · exact (List.mem_append.1 he).imp id List.mem_singleton.1
      · exact List.count_pos_iff.2 (List.mem_append_right _ (List.mem_singleton_self _))
    · exact .inl (hstay rfl (fun _ => .inl) (fun hc _ => requested ha hm hc) rfl)
  | destroyServerOwn =>
    obtain ⟨hl, ha, -, ⟨hm, -⟩ | ⟨hm, rfl⟩⟩ := hinv
    · exact absurd rfl (hb.sameLoop hl ((hb.server ha).1.1 hm).1)
    · exact .inl (hstay rfl (fun _ => .inl) (fun hc _ => requested ha hm hc) rfl)

end Unborn

/-- Outside of the loop over it, the batch is empty. -/
theorem batch_of_life {s : ConnSystem C T} (h : Unborn s ∨ Born s) :
    s.conn.sys.loop.pc ≠ .run → s.conn.sys.loop.functors = [] := by
  rcases h with h | h
  · exact h.life.scheduled.batch
  · exact h.scheduled.batch

/-! ## The ledger -/

theorem Ledger.of_quiet {c c' : TcpConnection C T} (hl : Ledger c)
    (hq : TcpConnection.Quiet c c') : Ledger c' := by
  obtain ⟨fs, hfs, hf⟩ := hq.frame
  have hnone : fs.count .connectDestroyed = 0 :=
    List.count_eq_zero.2 fun hmem => by cases hfs _ hmem
  constructor
  · rw [queue_frame hf, List.count_append, hnone, hq.count_eq rfl, hq.count_eq rfl]
    exact hl.queue
  · rw [hq.server, hq.count_eq rfl, hq.count_eq rfl]
    exact hl.server
  · rw [hq.server, hq.count_eq rfl]
    exact hl.dead
  · rw [hq.count_eq rfl, hq.count_eq rfl]
    exact hl.unclosed

/-- The ledger is not concerned with functors that do not destroy the connection. -/
theorem Ledger.of_queue {c c' : TcpConnection C T} (hl : Ledger c)
    (hq : c'.queue.count .connectDestroyed = c.queue.count .connectDestroyed)
    (hlog : c'.log = c.log) (hsrv : c'.server = c.server) : Ledger c' :=
  ⟨by rw [hq, hlog]; exact hl.queue, by rw [hlog, hsrv]; exact hl.server,
    by rw [hlog, hsrv]; exact hl.dead, by rw [hlog]; exact hl.unclosed⟩

theorem Ledger.handleClose [DecidableEq C] {c : TcpConnection C T} (hl : Ledger c) :
    Ledger c.handleClose := by
  have hqueue : c.handleClose.queue = c.queue ++ c.closeRequest :=
    queue_frame (TcpConnection.frame_handleClose c)
  have hq := hl.queue
  have hs := hl.server
  constructor
  · rw [hqueue, List.count_append, TcpConnection.handleClose_eq, TcpConnection.closeRequest]
    dsimp only
    split <;> simp <;> omega
  · rw [TcpConnection.handleClose_eq]
    dsimp only
    by_cases ha : c.server.alive = true
    · obtain ⟨hmap, hremovals⟩ := hs ha
      by_cases hsame : c.server.sameLoop = true
      · simp [ha, hsame]
        omega
      · simp [ha, hsame, hmap]
        omega
    · simp [ha]
  · rw [TcpConnection.handleClose_eq]
    dsimp only
    by_cases ha : c.server.alive = true
    · by_cases hsame : c.server.sameLoop = true <;> simp [ha, hsame]
    · simpa [ha] using hl.dead
  · intro h0
    rw [TcpConnection.handleClose_eq] at h0
    simp at h0

/-- A request is served. -/
theorem Ledger.served [DecidableEq C] {c c' : TcpConnection C T} (hl : Ledger c)
    (hq : c'.queue.count .connectDestroyed + 1 = c.queue.count .connectDestroyed)
    (hlog : c'.log = c.log) (hsrv : c'.server = c.server) : Ledger c'.connectDestroyed := by
  have hqueue : c'.connectDestroyed.queue = c'.queue := by
    rw [queue_frame (TcpConnection.frame_connectDestroyed c'), List.append_nil]
  have hold := hl.queue
  constructor
  · rw [hqueue, TcpConnection.connectDestroyed_eq, hlog]
    dsimp only
    split <;> simp <;> omega
  · rw [TcpConnection.connectDestroyed_eq, hlog, hsrv]
    dsimp only
    split <;> simpa using hl.server
  · rw [TcpConnection.connectDestroyed_eq, hlog, hsrv]
    dsimp only
    split <;> simpa using hl.dead
  · rw [TcpConnection.connectDestroyed_eq, hlog]
    dsimp only
    split <;> simpa using hl.unclosed

/-- The server asks for the connection's end, which is queued or carried out at once. -/
theorem Ledger.request {c c' : TcpConnection C T} (hl : Ledger c)
    (hq : c'.queue.count .connectDestroyed + c'.log.count .connectDestroyed =
      c.queue.count .connectDestroyed + c.log.count .connectDestroyed + 1)
    (hr : c'.log.count .destroyRequest = c.log.count .destroyRequest + 1)
    (hclose : c'.log.count .handleClose = c.log.count .handleClose)
    (hsrv : c'.server.alive = true → c'.server.inMap = false ∧
      c'.server.removals + c.log.count .destroyRequest + 1 = c.log.count .handleClose)
    (hfirst : c.log.count .handleClose = 0 → c.log.count .destroyRequest = 0) : Ledger c' := by
  have := hl.queue
  refine ⟨by omega, fun ha => ?_, fun _ => by omega, by omega⟩
  obtain ⟨hm, hrem⟩ := hsrv ha
  exact ⟨by simp [hm, hr], by omega⟩

/-! ## What every step keeps -/

theorem Settled.pop {s : ConnSystem C T} {h : Handler} {rest : List Handler} (hb : Settled s)
    (hl : s.handling = h :: rest) : Settled { s with handling := rest } :=
  ⟨hb.created, hb.begun, hb.state, hb.once, hb.sound, (hl ▸ hb.scheduled).pop⟩

theorem Settled.took {s : ConnSystem C T} {f : LoopFunctor} {rest : List LoopFunctor}
    (hb : Settled s) (hpc : s.conn.sys.loop.pc = .run) (hf : s.conn.sys.loop.functors = f :: rest) :
    Settled { s with conn := s.took f rest } := by
  refine ⟨hb.created, fun hmem => hb.begun ?_, hb.state, hb.once, hb.sound,
    hb.scheduled.took hpc⟩
  rw [queue_took hf]
  exact List.mem_cons_of_mem f hmem

/-- The server is destroyed, and the connection is not in its map. -/
theorem Born.orphaned {s : ConnSystem C T} (hb : Born s) (ha : s.conn.server.alive = true)
    (hm : s.conn.server.inMap = false) : Born { s with conn := s.orphaned } := by
  have hreq : 0 < s.conn.log.count .destroyRequest := by
    by_contra h0
    have := (hb.ledger.server ha).1.2 (by omega)
    exact absurd (hm.symm.trans this) (by simp)
  exact ⟨⟨hb.created, hb.begun, hb.state, hb.once, hb.sound,
    hb.scheduled.of_frame (.refl _) rfl rfl⟩, hb.ledger.queue,
    fun ha => absurd ha Bool.false_ne_true, fun _ => hreq, hb.ledger.unclosed⟩

theorem Born.took {s : ConnSystem C T} {f : LoopFunctor} {rest : List LoopFunctor} (hb : Born s)
    (hpc : s.conn.sys.loop.pc = .run) (hf : s.conn.sys.loop.functors = f :: rest)
    (hlife : f.isLife = false) : Born { s with conn := s.took f rest } := by
  refine ⟨hb.toSettled.took hpc hf, hb.ledger.of_queue ?_ rfl rfl⟩
  rw [queue_took hf, List.count_cons_of_ne]
  rintro rfl
  cases hlife

section Born

variable [DecidableEq C] {s s' : ConnSystem C T}

/-- The connection operates on its channel, and does not enable reading. -/
def Operates (c c' : TcpConnection C T) : Prop :=
  ∃ ops : List ChannelOp, .enableReading ∉ ops ∧
    c'.poller = c.poller.runOps (ops.map (·, c.channel))

theorem revents_runOps {p : EpollPoller C} (hs : p.Sound) (ch : C) (ops : List ChannelOp) :
    ((p.runOps (ops.map (·, ch))).channel ch).revents = (p.channel ch).revents := by
  induction ops generalizing p with
  | nil => rfl
  | cons op ops ih =>
    exact (ih (hs.apply op ch)).trans (EpollPoller.revents_apply (hs.agrees ch) false op)

/-- A step that runs code of the connection, or queues a functor. -/
theorem Settled.of_frame {fs : List LoopFunctor} (hb : Settled s)
    (hf : s.conn.sys.Frame fs s'.conn.sys) (hfs : .connectEstablished ∉ fs)
    (hp : Operates s.conn s'.conn) (hc : s'.conn.channel = s.conn.channel)
    (hh : s'.handling = s.handling) (hcreated : s'.created = s.created)
    (hst : s'.conn.state = s.conn.state ∨ s'.conn.state = .kDisconnected)
    (honce : s'.conn.log.count (.connectionCallback true) =
      s.conn.log.count (.connectionCallback true)) : Settled s' := by
  obtain ⟨ops, -, hp⟩ := hp
  refine ⟨hcreated.trans hb.created, ?_, ?_, honce.trans hb.once, ?_, ?_⟩
  · rw [queue_frame hf, List.mem_append]
    exact fun hmem => hmem.elim hb.begun hfs
  · rcases hst with hst | hst
    · rw [hst]; exact hb.state
    · exact .inr hst
  · rw [hp]; exact hb.sound.runOps _
  · rw [hh]
    exact hb.scheduled.of_frame hf hc (by rw [hp]; exact revents_runOps hb.sound _ ops)

theorem Operates.of_poller {c c' : TcpConnection C T} (hp : c'.poller = c.poller) :
    Operates c c' := ⟨[], List.not_mem_nil, hp⟩

theorem operates_plain {c c' : TcpConnection C T} (h : TcpConnection.Plain c c') :
    Operates c c' := by
  rcases h.poller with hp | ⟨op, hop, hp⟩
  · exact .of_poller hp
  · refine ⟨[op], fun hmem => ?_, hp⟩
    rw [← List.mem_singleton.1 hmem] at hop
    simp at hop

theorem operates_handleClose (c : TcpConnection C T) : Operates c c.handleClose :=
  ⟨[.disableAll], by simp, TcpConnection.poller_handleClose c⟩

theorem operates_connectDestroyed (c : TcpConnection C T) : Operates c c.connectDestroyed := by
  rw [TcpConnection.connectDestroyed_eq]
  by_cases hk : c.state = .kConnected
  · exact ⟨[.disableAll, .remove], by simp, by rw [if_pos hk]; rfl⟩
  · exact ⟨[.remove], by simp, by rw [if_neg hk]; rfl⟩

theorem Born.of_quiet {conn : TcpConnection C T} (hb : Born s)
    (hq : TcpConnection.Quiet s.conn conn) (hp : Operates s.conn conn)
    (hst : conn.state = s.conn.state ∨ conn.state = .kDisconnected)
    (honce : conn.log.count (.connectionCallback true) =
      s.conn.log.count (.connectionCallback true)) : Born { s with conn } := by
  obtain ⟨fs, hfs, hf⟩ := hq.frame
  exact ⟨hb.toSettled.of_frame hf (fun hmem => by cases hfs _ hmem) hp hq.channel rfl rfl hst
    honce, hb.ledger.of_quiet hq⟩

/-- A plain step. -/
theorem Born.of_plain {conn : TcpConnection C T} (hb : Born s)
    (h : TcpConnection.Plain s.conn conn) : Born { s with conn } := by
  refine hb.of_quiet h.toQuiet (operates_plain h) h.state ?_
  obtain ⟨es, hes, htraffic⟩ := h.grows
  have hnone : es.count (.connectionCallback true) = 0 :=
    List.count_eq_zero.2 fun hmem => by cases htraffic _ hmem
  rw [hes, List.count_append, hnone, Nat.add_zero]

theorem Born.handleClose (hb : Born s) : Born { s with conn := s.conn.handleClose } := by
  refine ⟨hb.toSettled.of_frame (TcpConnection.frame_handleClose s.conn) ?_
    (operates_handleClose s.conn) (by simp only [TcpConnection.handleClose_eq]) rfl rfl
    (.inr (by simp only [TcpConnection.handleClose_eq])) ?_, hb.ledger.handleClose⟩
  · unfold TcpConnection.closeRequest
    split <;> simp
  · simp only [TcpConnection.handleClose_eq]
    split <;> simp

/-- The connection is destroyed. -/
theorem Settled.connectDestroyed (hb : Settled s) :
    Settled { s with conn := s.conn.connectDestroyed } := by
  refine hb.of_frame (TcpConnection.frame_connectDestroyed s.conn) List.not_mem_nil
    (operates_connectDestroyed s.conn) (by simp only [TcpConnection.connectDestroyed_eq]) rfl rfl
    ?_ ?_
  · simp only [TcpConnection.connectDestroyed_eq]
    split
    · exact .inr rfl
    · exact .inl rfl
  · simp only [TcpConnection.connectDestroyed_eq]
    split <;> simp

/-- **A handler keeps `Born`.** -/
theorem Born.handle {e : Answers} {h : Handler} {rest : List Handler} {conn : TcpConnection C T}
    (hb : Born s) (hl : s.handling = h :: rest) (hrun : s.conn.runHandler e h = some conn) :
    Born { s with conn, handling := rest } := by
  have hpop : Born { s with handling := rest } := ⟨hb.toSettled.pop hl, hb.ledger⟩
  cases h with
  | error =>
    obtain rfl := Option.some.inj hrun
    exact hpop
  | read =>
    obtain ⟨b, hread⟩ := handleRead_inv (toOption_eq_some.1 hrun)
    have hin : Born { s with conn := { s.conn with inputBuffer := b }, handling := rest } :=
      hpop.of_quiet (.of_eq rfl rfl rfl rfl) (.of_poller rfl) (.inl rfl) rfl
    rcases hread with rfl | ⟨-, rfl⟩ | rfl
    · exact hin.of_quiet (TcpConnection.quiet_note rfl _) (.of_poller rfl) (.inl rfl)
        (by simp [TcpConnection.note])
    · exact hin.handleClose
    · exact hin
  | write =>
    simp only [TcpConnection.runHandler, Option.ite_none_right_eq_some, Option.some.injEq] at hrun
    obtain ⟨-, rfl⟩ := hrun
    exact hpop.of_plain (TcpConnection.plain_handleWrite e.write s.conn)
  | close =>
    obtain rfl := Option.some.inj hrun
    exact hpop.handleClose

/-- **A functor keeps `Born`.** -/
theorem Born.runFunctor {e : Answers} {f : LoopFunctor} {rest : List LoopFunctor}
    {conn : TcpConnection C T} (hb : Born s) (hpc : s.conn.sys.loop.pc = .run)
    (hf : s.conn.sys.loop.functors = f :: rest)
    (hrun : (s.took f rest).callFunctor e f = some conn) : Born { s with conn } := by
  cases f with
  | sendInLoop data len call =>
    simp only [TcpConnection.callFunctor, Option.ite_none_right_eq_some, toOption_eq_some] at hrun
    exact (hb.took hpc hf rfl).of_plain ((TcpConnection.plain_note rfl _).trans rfl
      (TcpConnection.plain_sendInLoop hrun.2))
  | shutdownInLoop =>
    obtain rfl := Option.some.inj hrun
    exact (hb.took hpc hf rfl).of_plain (TcpConnection.plain_shutdownInLoop _)
  | connectEstablished => exact absurd (mem_queue hf) hb.begun
  | connectDestroyed =>
    obtain rfl := Option.some.inj hrun
    refine ⟨(hb.toSettled.took hpc hf).connectDestroyed, ?_⟩
    refine hb.ledger.served ?_ rfl rfl
    rw [queue_took hf, List.count_cons_self]
  | writeComplete | highWaterMark | other =>
    obtain rfl := Option.some.inj hrun
    exact hb.took hpc hf rfl

/-! ### The threads -/

variable [DecidableEq T]

theorem Born.loop {a : LoopAction LoopFunctor C T} {sys : LoopSystem LoopFunctor C T}
    (hb : Born s) (hp : s.passes a = true) (h : s.conn.sys.step a = some sys) :
    Born { s with conn := s.conn.setSys sys, handling := s.nextHandling a } := by
  have ha : a ≠ .runFunctor := by rintro rfl; simp [passes] at hp
  have hq : (s.conn.setSys sys).queue = s.conn.queue ++ LoopSystem.pushes a :=
    LoopSystem.step_queue hb.scheduled.batch ha h
  obtain ⟨hsound, -⟩ := LoopSystem.step_channel hb.sound (passes_channelOp hp) h
  have hother : ∀ f ∈ LoopSystem.pushes a, f = .other := fun f => pushes_other hp
  refine ⟨⟨hb.created, ?_, hb.state, hb.once, hsound, hb.scheduled.loop hb.sound hp h⟩,
    hb.ledger.of_queue ?_ rfl rfl⟩
  · rw [hq, List.mem_append]
    exact fun hmem => hmem.elim hb.begun fun hmem => by cases hother _ hmem
  · have hnone : (LoopSystem.pushes a).count .connectDestroyed = 0 :=
      List.count_eq_zero.2 fun hmem => by cases hother _ hmem
    rw [hq, List.count_append, hnone, Nat.add_zero]

/-- A thread queues a functor, beside changes to the log, the server and the threads. -/
theorem Born.pushed {t : T} {f : LoopFunctor} (s₁ : ConnSystem C T) (hb : Born s)
    (hsys : s₁.conn.sys = s.conn.sys) (hc : s₁.conn.channel = s.conn.channel)
    (hh : s₁.handling = s.handling) (hcreated : s₁.created = s.created)
    (hst : s₁.conn.state = s.conn.state)
    (honce : s₁.conn.log.count (.connectionCallback true) =
      s.conn.log.count (.connectionCallback true)) (hf : f ≠ .connectEstablished)
    (hl : Ledger (s₁.pushed t f).conn) : Born (s₁.pushed t f) := by
  have hframe : s.conn.sys.Frame [f] (s₁.pushed t f).conn.sys := by
    rw [← hsys]; exact ⟨rfl, rfl, rfl, rfl, rfl⟩
  refine ⟨hb.toSettled.of_frame hframe (by simpa using hf.symm) (.of_poller ?_) hc hh hcreated
    (.inl hst) honce, hl⟩
  show s₁.conn.sys.loop.poller = s.conn.sys.loop.poller
  rw [hsys]

/-- A thread of the server asks for the connection's end. -/
theorem Born.asked {t : T} (s₁ : ConnSystem C T) (hb : Born s) (hsys : s₁.conn.sys = s.conn.sys)
    (hc : s₁.conn.channel = s.conn.channel) (hh : s₁.handling = s.handling)
    (hcreated : s₁.created = s.created) (hst : s₁.conn.state = s.conn.state)
    (hlog : s₁.conn.log = s.conn.log ++ [.destroyRequest])
    (hsrv : s₁.conn.server.alive = true → s₁.conn.server.inMap = false ∧
      s₁.conn.server.removals + s.conn.log.count .destroyRequest + 1 =
        s.conn.log.count .handleClose)
    (hfirst : s.conn.log.count .handleClose = 0 → s.conn.log.count .destroyRequest = 0) :
    Born (s₁.pushed t .connectDestroyed) := by
  have hlog' : (s₁.pushed t .connectDestroyed).conn.log = s.conn.log ++ [.destroyRequest] := hlog
  have hq : (s₁.pushed t .connectDestroyed).conn.queue = s.conn.queue ++ [.connectDestroyed] := by
    rw [queue_pushed, TcpConnection.queue, hsys]; rfl
  refine hb.pushed s₁ hsys hc hh hcreated hst (by rw [hlog]; simp) (by simp)
    (hb.ledger.request ?_ ?_ ?_ hsrv hfirst)
  · rw [hq, hlog', List.count_append, List.count_append]
    simp
    omega
  · rw [hlog', List.count_append]; rfl
  · rw [hlog', List.count_append]; rfl

/-- **Every step keeps `Born`.** -/
theorem Born.step {a : ConnAction C T} (hb : Born s) (h : s.step a = some s') : Born s' := by
  have hinv := step_inv h
  have hl := hb.ledger
  cases a with
  | loop a =>
    obtain ⟨hp, sys, hsys, rfl⟩ := hinv
    exact hb.loop hp hsys
  | handle e =>
    obtain ⟨-, -, h, rest, conn, hh, hrun, rfl⟩ := hinv
    exact hb.handle hh hrun
  | runFunctor e =>
    obtain ⟨hpc, -, f, rest, conn, hf, hrun, rfl⟩ := hinv
    exact hb.runFunctor hpc hf hrun
  | newConnection | newConnectionOwn => exact absurd (hb.created.symm.trans hinv.1) (by simp)
  | sendTest t data payload =>
    obtain ⟨-, -, -, rfl⟩ := hinv
    have h' := hb.of_plain (TcpConnection.plain_note (e := .send ⟨s.calls, payload⟩) rfl s.conn)
    exact ⟨⟨h'.created, h'.begun, h'.state, h'.once, h'.sound, h'.scheduled⟩, h'.ledger⟩
  | sendPush t =>
    obtain ⟨data, len, call, -, rfl⟩ := hinv
    exact hb.pushed (s.setUser t .idle) rfl rfl rfl rfl rfl rfl (by simp)
      (hl.of_queue (by rw [queue_pushed, List.count_append]; rfl) rfl rfl)
  | shutdownTest t =>
    obtain ⟨-, -, rfl⟩ := hinv
    exact ⟨⟨hb.created, hb.begun, hb.state, hb.once, hb.sound, hb.scheduled⟩, hl⟩
  | shutdownSet t =>
    obtain ⟨-, rfl⟩ := hinv
    have h' := hb.of_plain (TcpConnection.plain_setState s.conn)
    exact ⟨⟨h'.created, h'.begun, h'.state, h'.once, h'.sound, h'.scheduled⟩, h'.ledger⟩
  | shutdownPush t =>
    obtain ⟨-, rfl⟩ := hinv
    exact hb.pushed (s.setUser t .idle) rfl rfl rfl rfl rfl rfl (by simp)
      (hl.of_queue (by rw [queue_pushed, List.count_append]; rfl) rfl rfl)
  | sendOwn data payload e =>
    obtain ⟨-, -, -, -, conn, hsend, rfl⟩ := hinv
    have h' : Born { s with conn } := hb.of_plain (TcpConnection.plain_send hsend)
    exact ⟨⟨h'.created, h'.begun, h'.state, h'.once, h'.sound, h'.scheduled⟩, h'.ledger⟩
  | shutdownOwn =>
    obtain ⟨-, rfl⟩ := hinv
    exact hb.of_plain (TcpConnection.plain_shutdown s.conn)
  | removeConnectionInPool t =>
    obtain ⟨-, ha, hremovals, rfl⟩ := hinv
    have hbook := (hl.server ha).2
    refine hb.asked { s with conn := s.erased } rfl rfl rfl rfl rfl rfl (fun _ => ⟨rfl, ?_⟩)
      (by omega)
    show s.conn.server.removals - 1 + _ + 1 = _
    omega
  | destroyServer t =>
    obtain ⟨ha, ⟨hm, rfl⟩ | ⟨hm, rfl⟩⟩ := hinv
    · have h0 := (hl.server ha).1.1 hm
      exact hb.asked { s with conn := s.orphaned.note .destroyRequest } rfl rfl rfl rfl rfl rfl
        (fun ha => absurd ha Bool.false_ne_true) (fun _ => h0)
    · exact hb.orphaned ha hm
  | destroyServerOwn =>
    obtain ⟨-, ha, -, ⟨hm, rfl⟩ | ⟨hm, rfl⟩⟩ := hinv
    · have h0 := (hl.server ha).1.1 hm
      have honce : (s.orphaned.note .destroyRequest).log.count (.connectionCallback true) = 1 := by
        show (s.conn.log ++ [ConnEvent.destroyRequest]).count _ = 1
        simpa using hb.once
      have hnoted : Settled { s with conn := s.orphaned.note .destroyRequest } :=
        ⟨hb.created, hb.begun, hb.state, honce, hb.sound, hb.scheduled.of_frame (.refl _) rfl rfl⟩
      -- To destroy at once is to queue the request and to serve it.
      have hq : ((s.orphaned.note .destroyRequest).queueInLLoop .connectDestroyed).queue =
          s.conn.queue ++ [.connectDestroyed] :=
        queue_frame (LoopSystem.frame_queueInLLoop _ _)
      have hasked : Ledger ((s.orphaned.note .destroyRequest).queueInLLoop .connectDestroyed) := by
        refine hl.request ?_ ?_ ?_ (fun ha => absurd ha Bool.false_ne_true) fun _ => h0
        · rw [hq, List.count_append]
          show _ + [LoopFunctor.connectDestroyed].count _ +
            (s.conn.log ++ [ConnEvent.destroyRequest]).count _ = _
          simp
          omega
        · show (s.conn.log ++ [ConnEvent.destroyRequest]).count _ = _
          simp
        · show (s.conn.log ++ [ConnEvent.destroyRequest]).count _ = _
          simp
      refine ⟨hnoted.connectDestroyed, hasked.served ?_ rfl rfl⟩
      rw [hq, List.count_append]
      rfl
    · exact hb.orphaned ha hm

/-! ## Runs -/

/-- In every state that a run reaches, the connection is unborn or has been established. -/
theorem unborn_or_born {a : ConnAction C T} (hs : Unborn s ∨ Born s) (h : s.step a = some s') :
    Unborn s' ∨ Born s' := by
  rcases hs with hs | hs
  · exact (hs.step h).imp id Newborn.born
  · exact .inr (hs.step h)

/-- **The induction rule for runs.** What an establishment gives, and every allowed step of an
established connection keeps, holds of every connection that has been established. -/
theorem run_born {ok : ConnSystem C T → ConnAction C T → Prop} (Inv : ConnSystem C T → Prop)
    (hnew : ∀ s, Newborn s → Inv s)
    (hstep : ∀ s a s', Born s → Inv s → ok s a → s.step a = some s' → Inv s')
    {as : List (ConnAction C T)} (h : Unborn s) (hok : Transition.Meets ConnSystem.step ok s as)
    (hrun : s.run as = some s') : Unborn s' ∨ Born s' ∧ Inv s' := by
  refine hok.invariant (fun s => Unborn s ∨ Born s ∧ Inv s) (fun s a s' hs hok h => ?_)
    (.inl h) hrun
  rcases hs with hs | ⟨hb, hi⟩
  · rcases hs.step h with hs | hs
    · exact .inl hs
    · exact .inr ⟨hs.born, hnew _ hs⟩
  · exact .inr ⟨hb.step h, hstep s a s' hb hi hok h⟩

/-- A connection that has been reported up has been established. -/
theorem born_of_up {as : List (ConnAction C T)} (h : Unborn s) (hrun : s.run as = some s')
    (hup : .connectionCallback true ∈ s'.conn.log) : Born s' := by
  rcases run_born (fun _ => True) (fun _ _ => trivial) (fun _ _ _ _ _ _ _ => trivial) h
    (Transition.meets_of_forall (fun _ _ => trivial) s as) hrun with hs | ⟨hb, -⟩
  · cases hs.log _ hup
  · exact hb

end Born

end ConnSystem

end WebCore
