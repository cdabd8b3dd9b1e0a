import WebCore.ConnLife

/-!
# The books of a connection

How the steps that belong to the beginning and the end of a connection change `Booked`: the base
loop announces the connection (`announce`), it is established, it is closed, the server asks for its
end (`request`) or is destroyed itself (`orphan`), and the connection is destroyed.

That each of these happens once is in the queue: `connectEstablished` and `connectDestroyed` are
there exactly as often as they are still to run.
-/

namespace WebCore

namespace ConnSystem

variable {C T : Type*} {st : Stage} {created : Bool} {user : T → UserPc}

/-! ## What the books say -/

theorem Booked.alive_of_kConnected {c : TcpConnection C T} (hb : Booked st created user c)
    (hst : c.state = .kConnected) : st = .alive := by
  have h := hb.state
  cases st with
  | alive => rfl
  | _ => simp [Stage.State, hst] at h

/-- A connection that has ended is not connected. -/
theorem Booked.not_kConnected {c : TcpConnection C T} (hb : Booked st created user c)
    (hend : st = .closed ∨ st = .destroyed) : c.state ≠ .kConnected := by
  intro hst
  rw [hb.alive_of_kConnected hst] at hend
  simp at hend

theorem Booked.created_of_ne_fresh {c : TcpConnection C T} (hb : Booked st created user c)
    (hst : st ≠ .fresh) : created = true := by
  by_contra hne
  exact hst (hb.unborn (by simpa using hne)).1

theorem Booked.closes_le {c : TcpConnection C T} (hb : Booked st created user c) :
    c.log.count .handleClose ≤ 1 := by
  have h := hb.counts
  cases st <;> simp only [Stage.Counts] at h <;> omega

theorem Booked.reports_le {c : TcpConnection C T} (hb : Booked st created user c) :
    c.log.count (.connectionCallback false) ≤ 1 := by
  have h := hb.counts
  cases st <;> simp only [Stage.Counts] at h <;> omega

theorem Booked.destroyed_iff {c : TcpConnection C T} (hb : Booked st created user c) :
    .connectDestroyed ∈ c.log ↔ st = .destroyed := by
  have h := hb.counts
  rw [← List.count_pos_iff]
  cases st with
  | fresh | alive | closed => simp [h.2.2]
  | destroyed => simp [h.2.2]

theorem Booked.ended_iff {c : TcpConnection C T} (hb : Booked st created user c) :
    .handleClose ∈ c.log ∨ .connectDestroyed ∈ c.log ↔ st = .closed ∨ st = .destroyed := by
  have h := hb.counts
  rw [← List.count_pos_iff, ← List.count_pos_iff]
  cases st with
  | fresh | alive => simp [h.1, h.2.2]
  | closed => simp [h.1]
  | destroyed => simp [h.2.2]

theorem Booked.of_user {user' : T → UserPc} {c : TcpConnection C T}
    (hb : Booked st created user c) (hst : st ≠ .fresh) : Booked st created user' c :=
  { hb with unused := fun h => absurd h hst }

/-! ## The beginning -/

/-- The base loop announces the connection to the io loop. -/
theorem Booked.announce {c c' : TcpConnection C T} (hb : Booked st false user c)
    (hlog : c'.log = c.log) (hst : c'.state = c.state)
    (hq : c'.queue = c.queue ++ [.connectEstablished])
    (hsrv : c'.server = { c.server with inMap := true }) (hother : c.server.sameLoop = false) :
    Booked .fresh true user c' := by
  obtain ⟨rfl, h0⟩ := hb.unborn rfl
  constructor
  · rw [hst]; exact hb.state
  · exact nofun
  · rw [hsrv, hother]; exact nofun
  · intro hfresh
    refine ⟨(hb.unused hfresh).1, fun f hmem => ?_⟩
    rw [hq] at hmem
    rcases List.mem_append.1 hmem with hmem | hmem
    · exact (hb.unused hfresh).2 f hmem
    · obtain rfl := List.mem_singleton.1 hmem
      rfl
  · rw [hlog]; exact hb.counts
  · rw [hlog]; exact hb.closeCallbacks
  · rw [hlog]; exact hb.requests
  · have hold := hb.queue
    rw [h0] at hold
    rw [hq, List.filter_append, hold, hlog, h0]
    simp [LoopFunctor.isLife]
  · rw [hlog, hsrv, h0]
    intro ha
    have hremovals := (hb.server ha).2
    rw [h0] at hremovals
    exact ⟨by simp, hremovals⟩

/-- The connection is established. -/
theorem Booked.establish {c c' : TcpConnection C T} (hb : Booked .fresh created user c)
    (hlog : c'.log = c.log) (hst : c'.state = .kConnected)
    (hq : c'.queue.filter LoopFunctor.isLife =
      List.replicate (c.log.count .destroyRequest) .connectDestroyed)
    (hsrv : c'.server.alive = true → (c'.server.inMap = true ↔ c.log.count .destroyRequest = 0) ∧
      c'.server.removals + c.log.count .destroyRequest = 0) :
    Booked .alive true user c' := by
  obtain ⟨hclose, hreport, hdestroy⟩ := hb.counts
  constructor
  · exact .inl hst
  · exact nofun
  · exact fun _ _ => Stage.noConfusion
  · exact nofun
  · rw [hlog]; exact ⟨hclose, hreport, hdestroy⟩
  · rw [hlog]; exact hb.closeCallbacks
  · rw [hlog]; exact hb.requests
  · rw [hq, hlog, hdestroy]
    simp
  · rw [hlog, hclose]
    simpa using hsrv

/-! ## The end -/

/-- The connection is closed. -/
theorem Booked.handleClose [DecidableEq C] {c : TcpConnection C T}
    (hb : Booked .alive created user c) : Booked .closed created user c.handleClose := by
  obtain ⟨hclose, hreport, hdestroy⟩ := hb.counts
  have hcreated : created = true := hb.created_of_ne_fresh (by simp)
  have hcount : ∀ e ≠ ConnEvent.destroyRequest, c.handleClose.log.count e = c.log.count e +
      [ConnEvent.handleClose, .connectionCallback false, .closeCallback].count e := by
    intro e he
    rw [TcpConnection.handleClose_eq]
    dsimp only
    rw [List.append_assoc, List.count_append]
    split
    · simp only [List.cons_append, List.nil_append, List.count_cons, List.count_nil, beq_iff_eq,
        if_neg he.symm]
    · rfl
  have hrequest : c.handleClose.log.count .destroyRequest =
      c.log.count .destroyRequest + c.closeRequest.length := by
    rw [TcpConnection.handleClose_eq, TcpConnection.closeRequest]
    dsimp only
    split <;> simp
  -- A server that asks now has not asked before.
  have hnew : c.log.count .destroyRequest + c.closeRequest.length ≤ 1 := by
    have hold := hb.requests.2
    unfold TcpConnection.closeRequest
    split
    · rename_i hask
      have := (hb.server hask.1).2
      simp only [List.length_cons, List.length_nil]
      omega
    · exact hold
  have hrep : c.closeRequest = List.replicate c.closeRequest.length .connectDestroyed := by
    unfold TcpConnection.closeRequest
    split <;> rfl
  have hqueue : c.handleClose.queue = c.queue ++ c.closeRequest :=
    queue_frame (TcpConnection.frame_handleClose c)
  constructor
  · rw [TcpConnection.handleClose_eq]; exact rfl
  · simp [hcreated]
  · simp
  · simp
  · rw [hcount _ (by simp), hcount _ (by simp), hcount _ (by simp), hclose, hreport, hdestroy]
    exact ⟨rfl, rfl, rfl⟩
  · rw [hcount _ (by simp), hcount _ (by simp), hb.closeCallbacks]
    rfl
  · rw [hcount _ (by simp), hrequest, hdestroy]
    exact ⟨Nat.zero_le _, hnew⟩
  · have hlife := hb.queue
    have hkept : c.closeRequest.filter LoopFunctor.isLife = c.closeRequest := by
      rw [hrep]
      simp [LoopFunctor.isLife]
    rw [hqueue, List.filter_append, hlife, hkept, hcount .connectDestroyed (by simp), hrequest,
      hdestroy]
    nth_rewrite 1 [hrep]
    simp
  · rw [hcount .handleClose (by simp), hrequest, hclose, hcreated]
    by_cases ha : c.server.alive = true
    · obtain ⟨hmap, hremovals⟩ := hb.server ha
      by_cases hl : c.server.sameLoop = true
      · simp [TcpConnection.handleClose_eq, TcpConnection.closeRequest, ha, hl]
        omega
      · simp [TcpConnection.handleClose_eq, TcpConnection.closeRequest, ha, hl, hmap, hcreated]
        omega
    · simp [TcpConnection.handleClose_eq, ha]

/-- The server asks for the connection's end. -/
theorem Booked.request {c c' : TcpConnection C T} (hb : Booked st created user c)
    (hcreated : created = true) (h0 : c.log.count .destroyRequest = 0)
    (hlog : c'.log = c.log ++ [.destroyRequest])
    (hst : c'.state = c.state) (hq : c'.queue = c.queue ++ [.connectDestroyed])
    (hsame : c'.server.sameLoop = c.server.sameLoop)
    (hsrv : c'.server.alive = true → c'.server.inMap = false ∧
      c'.server.removals + 1 = c.log.count .handleClose) :
    Booked st created user c' := by
  subst hcreated
  have hdestroy : c.log.count .connectDestroyed = 0 := by have := hb.requests.1; omega
  have hcount : ∀ e ≠ ConnEvent.destroyRequest, c'.log.count e = c.log.count e := by
    intro e he
    rw [hlog, List.count_append, List.count_cons_of_ne he.symm, List.count_nil, Nat.add_zero]
  have hrequest : c'.log.count .destroyRequest = 1 := by
    rw [hlog, List.count_append, h0]; rfl
  constructor
  · rw [hst]; exact hb.state
  · exact nofun
  · rw [hsame]; exact hb.sameLoop
  · intro hfresh
    refine ⟨(hb.unused hfresh).1, fun f hmem => ?_⟩
    rw [hq] at hmem
    rcases List.mem_append.1 hmem with hmem | hmem
    · exact (hb.unused hfresh).2 f hmem
    · obtain rfl := List.mem_singleton.1 hmem
      rfl
  · rw [hcount _ (by simp), hcount _ (by simp), hcount _ (by simp)]
    exact hb.counts
  · rw [hcount _ (by simp), hcount _ (by simp)]
    exact hb.closeCallbacks
  · rw [hcount _ (by simp), hrequest, hdestroy]
    exact ⟨Nat.zero_le 1, le_rfl⟩
  · have hold := hb.queue
    rw [h0, hdestroy] at hold
    rw [hq, List.filter_append, hold, hcount .connectDestroyed (by simp), hrequest, hdestroy]
    simp [LoopFunctor.isLife]
  · intro ha
    obtain ⟨hm, hr⟩ := hsrv ha
    rw [hrequest, hcount .handleClose (by simp), hm, hr]
    simp

/-- The server is destroyed. -/
theorem Booked.orphan {c c' : TcpConnection C T} (hb : Booked st created user c)
    (hsrv : c'.server = { c.server with alive := false }) (hlog : c'.log = c.log)
    (hst : c'.state = c.state) (hq : c'.queue = c.queue) : Booked st created user c' where
  state := hst ▸ hb.state
  unborn := hlog ▸ hb.unborn
  sameLoop := by rw [hsrv]; exact hb.sameLoop
  unused := by rw [hq]; exact hb.unused
  counts := hlog ▸ hb.counts
  closeCallbacks := hlog ▸ hb.closeCallbacks
  requests := hlog ▸ hb.requests
  queue := by rw [hq, hlog]; exact hb.queue
  server := by rw [hsrv]; exact nofun

/-- The connection is destroyed, when the request has been taken out of the queue. -/
theorem Booked.connectDestroyed [DecidableEq C] {c c' : TcpConnection C T}
    (hb : Booked st created user c) (hst : st = .alive ∨ st = .closed)
    (h1 : c.log.count .destroyRequest = 1) (hlog : c'.log = c.connectDestroyed.log)
    (hstate : c'.state = c.connectDestroyed.state) (hsrv : c'.server = c.server)
    (hq : c'.queue.filter LoopFunctor.isLife = []) : Booked .destroyed created user c' := by
  rw [TcpConnection.connectDestroyed_eq] at hlog hstate
  dsimp only at hlog hstate
  have hcreated : created = true := by
    by_contra hne
    have := (hb.unborn (by simpa using hne)).2
    omega
  have hcount : ∀ e ≠ ConnEvent.connectDestroyed, e ≠ .connectionCallback false →
      c'.log.count e = c.log.count e := by
    intro e he he'
    rw [hlog, List.count_append, List.count_cons_of_ne he.symm]
    split
    · rw [List.count_cons_of_ne he'.symm, List.count_nil, Nat.add_zero]
    · rfl
  have hdestroy : c'.log.count .connectDestroyed = c.log.count .connectDestroyed + 1 := by
    rw [hlog]
    split <;> simp
  have hreport : c'.log.count (.connectionCallback false) =
      c.log.count (.connectionCallback false) + if c.state = .kConnected then 1 else 0 := by
    rw [hlog]
    split <;> simp
  have hcounts := hb.counts
  have hkind := hb.state
  constructor
  · rw [hstate]
    rcases hst with rfl | rfl
    · rcases hkind with h | h <;> simp [h, Stage.State]
    · simp only [Stage.State] at hkind
      simp [hkind, Stage.State]
  · simp [hcreated]
  · simp
  · simp
  · rw [hcount .handleClose (by simp) (by simp), hreport, hdestroy]
    rcases hst with rfl | rfl
    · obtain ⟨hc, hr, hd⟩ := hcounts
      rw [hc, hr, hd]
      exact ⟨Nat.zero_le 1, by split <;> decide, rfl⟩
    · obtain ⟨hc, hr, hd⟩ := hcounts
      have hdown : c.state ≠ .kConnected := by rw [show c.state = .kDisconnected from hkind]; simp
      rw [hc, hr, hd, if_neg hdown]
      exact ⟨le_rfl, le_rfl, rfl⟩
  · rw [hcount .closeCallback (by simp) (by simp), hcount .handleClose (by simp) (by simp)]
    exact hb.closeCallbacks
  · have hzero : c.log.count .connectDestroyed = 0 := by
      rcases hst with rfl | rfl
      · exact hcounts.2.2
      · exact hcounts.2.2
    rw [hdestroy, hcount .destroyRequest (by simp) (by simp), h1, hzero]
    exact ⟨le_rfl, le_rfl⟩
  · rw [hq, hcount .destroyRequest (by simp) (by simp), h1, hdestroy]
    simp
  · rw [hsrv, hcount .destroyRequest (by simp) (by simp), hcount .handleClose (by simp) (by simp)]
    exact hb.server

/-! ## The queue -/

section Queue

variable {s : ConnSystem C T} {f : LoopFunctor} {rest : List LoopFunctor}

theorem queue_pushed [DecidableEq T] (t : T) (f : LoopFunctor) (s : ConnSystem C T) :
    (s.pushed t f).conn.queue = s.conn.queue ++ [f] :=
  (List.append_assoc _ _ _).symm

theorem mem_queue (hf : s.conn.sys.loop.functors = f :: rest) : f ∈ s.conn.queue := by
  simp [TcpConnection.queue, hf]

/-- A functor that is taken out of the batch. -/
theorem queue_took (hf : s.conn.sys.loop.functors = f :: rest) :
    s.conn.queue = f :: (s.took f rest).queue := by
  simp only [TcpConnection.queue, hf]
  rfl

theorem Booked.took (hb : Booked st s.created s.user s.conn)
    (hf : s.conn.sys.loop.functors = f :: rest) (hlife : f.isLife = false) :
    Booked st s.created s.user (s.took f rest) where
  state := hb.state
  unborn := hb.unborn
  sameLoop := hb.sameLoop
  unused hfresh := ⟨(hb.unused hfresh).1, fun g hg =>
    (hb.unused hfresh).2 g (by rw [queue_took hf]; exact List.mem_cons_of_mem f hg)⟩
  counts := hb.counts
  closeCallbacks := hb.closeCallbacks
  requests := hb.requests
  queue := by
    have := hb.queue
    rw [queue_took hf, List.filter_cons, hlife] at this
    exact this
  server := hb.server

/-- `connectEstablished` is queued only before it has run. -/
theorem Booked.of_connectEstablished (hb : Booked st s.created s.user s.conn)
    (hf : s.conn.sys.loop.functors = .connectEstablished :: rest) :
    st = .fresh ∧ s.created = true ∧ (s.took .connectEstablished rest).queue.filter
      LoopFunctor.isLife = List.replicate
        (s.conn.log.count .destroyRequest - s.conn.log.count .connectDestroyed)
        .connectDestroyed := by
  have hq := hb.queue
  rw [queue_took hf, List.filter_cons_of_pos (by rfl)] at hq
  split at hq
  · rename_i hfresh
    exact ⟨hfresh.1, hfresh.2, (List.cons.inj hq).2⟩
  · have hmem : LoopFunctor.connectEstablished ∈ List.replicate
        (s.conn.log.count .destroyRequest - s.conn.log.count .connectDestroyed)
        LoopFunctor.connectDestroyed := by
      rw [List.nil_append] at hq
      rw [← hq]
      exact List.mem_cons_self
    cases List.eq_of_mem_replicate hmem

/-- `connectDestroyed` is queued only between the request and its run. -/
theorem Booked.of_connectDestroyed (hb : Booked st s.created s.user s.conn)
    (hf : s.conn.sys.loop.functors = .connectDestroyed :: rest) :
    (st = .alive ∨ st = .closed) ∧ s.conn.log.count .destroyRequest = 1 ∧
      (s.took .connectDestroyed rest).queue.filter LoopFunctor.isLife = [] := by
  have hq := hb.queue
  have hrequest := hb.requests.2
  rw [queue_took hf, List.filter_cons_of_pos (by rfl)] at hq
  split at hq
  · simp at hq
  · rename_i hnot
    rw [List.nil_append] at hq
    have hlen := congrArg List.length hq
    simp only [List.length_cons, List.length_replicate] at hlen
    have h1 : s.conn.log.count .destroyRequest = 1 := by omega
    have h0 : s.conn.log.count .connectDestroyed = 0 := by omega
    refine ⟨?_, h1, List.eq_nil_of_length_eq_zero (by omega)⟩
    have hcounts := hb.counts
    cases st with
    | fresh =>
      have hc : s.created = false := by simpa using hnot
      have := (hb.unborn hc).2
      omega
    | alive => exact .inl rfl
    | closed => exact .inr rfl
    | destroyed =>
      have := hcounts.2.2
      omega

end Queue

end ConnSystem

end WebCore
