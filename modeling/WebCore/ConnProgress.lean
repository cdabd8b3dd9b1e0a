import WebCore.ConnQueue
import WebCore.Progress
import WebCore.Lib.LeadsTo

/-!
# A closed connection is destroyed

`handleClose` leaves the connection to the server, whose base loop erases it and queues
`connectDestroyed` on the io loop. From there on the io loop comes closer to it with each of its
steps: it calls the handlers of the events that are at hand, swaps the functors, and runs those in
front (`distance`).

**Theorem (`closed_eventually_destroyed`).** A connection that has been closed is destroyed, when
the base loop runs what is queued there and the io loop goes on.
-/

namespace WebCore

open Transition Path

namespace ConnAction

variable {C T : Type*}

/-- The loop thread takes the action in `loop()`, and not in user code. -/
def inThread : ConnAction C T → Bool
  | .loop a => a.inLoop
  | .handle _ | .runFunctor _ => true
  | _ => false

end ConnAction

namespace ConnSystem

variable {C T : Type*}

/-- `connectDestroyed` is queued on the io loop. -/
def Condemned (s : ConnSystem C T) : Prop := .connectDestroyed ∈ s.conn.queue

/-- What the loop thread has before it until it runs `connectDestroyed`. -/
def distance (s : ConnSystem C T) : ℕ ×ₗ ℕ :=
  if .connectDestroyed ∈ s.conn.sys.loop.functors then
    toLex (1, s.conn.sys.loop.functors.idxOf .connectDestroyed)
  else toLex (LoopSystem.swapDistance s.conn.sys.loop.pc,
    5 * s.conn.sys.loop.activeChannels.length + s.handling.length +
      s.conn.sys.loop.functors.length)

theorem distance_batch {s : ConnSystem C T} (h : .connectDestroyed ∈ s.conn.sys.loop.functors) :
    s.distance = toLex (1, s.conn.sys.loop.functors.idxOf .connectDestroyed) :=
  if_pos h

theorem distance_pending {s : ConnSystem C T} (h : .connectDestroyed ∉ s.conn.sys.loop.functors) :
    s.distance = toLex (LoopSystem.swapDistance s.conn.sys.loop.pc,
      5 * s.conn.sys.loop.activeChannels.length + s.handling.length +
        s.conn.sys.loop.functors.length) :=
  if_neg h

theorem length_handlers_le (m : EventMask) : (handlers m).length ≤ 4 := by
  unfold handlers
  simp only [List.length_append]
  have hone : ∀ (b : Bool) (h : Handler), (if b then [h] else []).length ≤ 1 := by
    intro b h
    cases b <;> simp
  have h₁ := hone (m.has EPOLLERR) .error
  have h₂ := hone (m.has (EPOLLIN ||| EPOLLPRI)) .read
  have h₃ := hone (m.has EPOLLOUT) .write
  have h₄ := hone (m.has EPOLLHUP && !m.has EPOLLIN) .close
  omega

/-- The loop thread comes closer to the swap, or to the end of the events at hand. -/
theorem distance_lt_of_closer {s s' : ConnSystem C T}
    (hnot : .connectDestroyed ∉ s.conn.sys.loop.functors)
    (hf : s'.conn.sys.loop.functors = s.conn.sys.loop.functors)
    (h : LoopSystem.swapDistance s'.conn.sys.loop.pc < LoopSystem.swapDistance s.conn.sys.loop.pc ∨
      s'.conn.sys.loop.pc = s.conn.sys.loop.pc ∧
        5 * s'.conn.sys.loop.activeChannels.length + s'.handling.length <
          5 * s.conn.sys.loop.activeChannels.length + s.handling.length) :
    s'.distance < s.distance := by
  rw [distance_pending hnot, distance_pending (by rw [hf]; exact hnot), hf]
  rcases h with h | ⟨hpc, h⟩
  · exact LoopSystem.toLex_lt_of_fst h
  · rw [hpc]
    exact LoopSystem.toLex_lt_of_snd (by omega)

theorem distance_congr {s s' : ConnSystem C T}
    (hf : s'.conn.sys.loop.functors = s.conn.sys.loop.functors)
    (hpc : s'.conn.sys.loop.pc = s.conn.sys.loop.pc)
    (ha : s'.conn.sys.loop.activeChannels = s.conn.sys.loop.activeChannels)
    (hh : s'.handling = s.handling) : s'.distance = s.distance := by
  simp only [distance, hf, hpc, ha, hh]

/-- The step runs `connectDestroyed`, or it keeps it queued and takes the loop no further from
it. -/
def Nears (s s' : ConnSystem C T) (a : ConnAction C T) : Prop :=
  .connectDestroyed ∈ s'.conn.log ∨ s'.Condemned ∧ s'.distance ≤ s.distance ∧
    (a.inThread = true → s'.distance < s.distance)

theorem Nears.of_lt {s s' : ConnSystem C T} {a : ConnAction C T} (hc : s'.Condemned)
    (h : s'.distance < s.distance) : Nears s s' a :=
  .inr ⟨hc, h.le, fun _ => h⟩

/-- A step that leaves the loop thread where it is. -/
theorem Nears.of_frame {s s' : ConnSystem C T} {a : ConnAction C T} {fs : List LoopFunctor}
    (hc : s.Condemned) (hin : a.inThread = false) (hf : s.conn.sys.Frame fs s'.conn.sys)
    (hh : s'.handling = s.handling) : Nears s s' a := by
  refine .inr ⟨?_, (distance_congr hf.functors hf.pc hf.activeChannels hh).le, ?_⟩
  · rw [Condemned, queue_frame hf]
    exact List.mem_append_left fs hc
  · rw [hin]
    exact nofun

variable [DecidableEq C] {s s' : ConnSystem C T}

/-! ## The steps -/

/-- A handler is called. The batch is empty meanwhile. -/
theorem nears_handle {e : Answers} {h : Handler} {rest : List Handler} {conn : TcpConnection C T}
    (hs : Scheduled s.conn s.handling) (hc : s.Condemned) (hpc : s.conn.sys.loop.pc = .dispatch)
    (hh : s.handling = h :: rest) (hrun : s.conn.runHandler e h = some conn) :
    Nears s { s with conn, handling := rest } (.handle e) := by
  obtain ⟨fs, hands⟩ := TcpConnection.handsOver_runHandler hrun
  have hnil : s.conn.sys.loop.functors = [] := hs.batch (by simp [hpc])
  refine .of_lt ?_ (distance_lt_of_closer (by simp [hnil]) hands.frame.functors
    (.inr ⟨hands.frame.pc, ?_⟩))
  · show _ ∈ conn.queue
    rw [queue_frame hands.frame]
    exact List.mem_append_left fs hc
  · show 5 * conn.sys.loop.activeChannels.length + rest.length < _
    rw [hands.frame.activeChannels, hh, List.length_cons]
    omega

/-- A functor is run. It is `connectDestroyed`, or it stood in front of it. -/
theorem nears_runFunctor {e : Answers} {f : LoopFunctor} {rest : List LoopFunctor}
    {conn : TcpConnection C T} (hc : s.Condemned)
    (hf : s.conn.sys.loop.functors = f :: rest)
    (hrun : (s.took f rest).callFunctor e f = some conn) :
    Nears s { s with conn } (.runFunctor e) := by
  by_cases hfd : f = .connectDestroyed
  · subst hfd
    obtain rfl := Option.some.inj hrun
    refine .inl ?_
    show _ ∈ (s.took .connectDestroyed rest).connectDestroyed.log
    rw [TcpConnection.connectDestroyed_eq]
    simp
  · obtain ⟨fs, hands⟩ := TcpConnection.handsOver_callFunctor hrun
    have hrest : conn.sys.loop.functors = rest := hands.frame.functors
    refine .of_lt ?_ ?_
    · have hc : .connectDestroyed ∈ s.conn.queue := hc
      rw [queue_took hf] at hc
      show _ ∈ conn.queue
      rw [queue_frame hands.frame]
      exact List.mem_append_left fs ((List.mem_cons.1 hc).resolve_left (Ne.symm hfd))
    · by_cases hmem : .connectDestroyed ∈ rest
      · have hold : s.distance = toLex (1, rest.idxOf .connectDestroyed + 1) := by
          rw [distance_batch (by rw [hf]; exact List.mem_cons_of_mem f hmem), hf,
            List.idxOf_cons_ne _ hfd]
        rw [hold, distance_batch (by rw [hrest]; exact hmem), hrest]
        exact LoopSystem.toLex_lt_of_snd (Nat.lt_succ_self _)
      · have hold : .connectDestroyed ∉ s.conn.sys.loop.functors := by
          rw [hf]
          simp [hmem, Ne.symm hfd]
        rw [distance_pending hold, hf, distance_pending (by rw [hrest]; exact hmem), hrest,
          hands.frame.pc, hands.frame.activeChannels]
        exact LoopSystem.toLex_lt_of_snd (by rw [List.length_cons]; exact Nat.lt_succ_self _)

variable [DecidableEq T]

/-- A step of the loop in which no code of the connection runs. -/
theorem nears_loop {a : LoopAction LoopFunctor C T} {sys : LoopSystem LoopFunctor C T}
    (hs : Scheduled s.conn s.handling) (hc : s.Condemned) (hp : s.passes a = true)
    (h : s.conn.sys.step a = some sys) :
    Nears s { s with conn := s.conn.setSys sys, handling := s.nextHandling a } (.loop a) := by
  have ha : a ≠ .runFunctor := by rintro rfl; simp [passes] at hp
  have hq : (s.conn.setSys sys).queue = s.conn.queue ++ LoopSystem.pushes a :=
    LoopSystem.step_queue hs.batch ha h
  have hc' : .connectDestroyed ∈ (s.conn.setSys sys).queue := by
    rw [hq]
    exact List.mem_append_left _ hc
  have hbatch : s.conn.sys.loop.pc ≠ .run → .connectDestroyed ∉ s.conn.sys.loop.functors :=
    fun hpc => by simp [hs.batch hpc]
  have hinv := LoopSystem.step_inv h
  cases a with
  | runFunctor => exact absurd rfl ha
  | enter =>
    obtain ⟨hpc, -, rfl⟩ := hinv
    refine .of_lt hc' (distance_lt_of_closer (hbatch (by simp [hpc])) rfl (.inl ?_))
    rw [hpc]
    exact (by decide : LoopSystem.swapDistance .test < LoopSystem.swapDistance .idle)
  | test =>
    obtain ⟨hpc, -, rfl⟩ := hinv
    refine .of_lt hc' (distance_lt_of_closer (hbatch (by simp [hpc])) rfl (.inl ?_))
    rw [hpc]
    show LoopSystem.swapDistance (if s.conn.sys.loop.quit then .left else .poll) < _
    split <;> decide
  | pollReturn active =>
    obtain ⟨hpc, -, -, -, rfl⟩ := hinv
    refine .of_lt hc' (distance_lt_of_closer (hbatch (by simp [hpc])) rfl (.inl ?_))
    rw [hpc]
    exact (by decide : LoopSystem.swapDistance .dispatch < LoopSystem.swapDistance .poll)
  | dispatch =>
    obtain ⟨hpc, -, c, rest, hact, rfl⟩ := hinv
    have hnil : s.handling = [] := by simpa [passes] using hp
    have hle : (s.nextHandling .dispatch).length ≤ 4 := by
      rw [nextHandling]
      split
      · exact length_handlers_le _
      · exact Nat.zero_le 4
    refine .of_lt hc' (distance_lt_of_closer (hbatch (by simp [hpc])) rfl (.inr ⟨rfl, ?_⟩))
    show 5 * rest.length + (s.nextHandling .dispatch).length < _
    rw [hact, hnil, List.length_cons, List.length_nil]
    omega
  | startFunctors =>
    obtain ⟨hpc, -, -, rfl⟩ := hinv
    refine .of_lt hc' (distance_lt_of_closer (hbatch (by simp [hpc])) rfl (.inl ?_))
    rw [hpc]
    exact (by decide : LoopSystem.swapDistance .swap < LoopSystem.swapDistance .dispatch)
  | swapFunctors =>
    -- The swap takes `connectDestroyed` into the batch.
    obtain ⟨hpc, -, rfl⟩ := hinv
    have hmem : .connectDestroyed ∈ s.conn.sys.loop.pendingFunctors :=
      (List.mem_append.1 hc).resolve_left (hbatch (by simp [hpc]))
    refine .of_lt hc' ?_
    rw [distance_pending (hbatch (by simp [hpc])), hpc]
    refine lt_of_eq_of_lt (distance_batch ?_) (LoopSystem.toLex_lt_of_fst (by decide))
    exact hmem
  | endFunctors =>
    obtain ⟨hpc, -, hnil, rfl⟩ := hinv
    refine .of_lt hc' (distance_lt_of_closer (by simp [hnil]) rfl (.inl ?_))
    rw [hpc]
    exact (by decide : LoopSystem.swapDistance .test < LoopSystem.swapDistance .run)
  | push | quit | wakeup | wakeupOwn =>
    obtain ⟨-, rfl⟩ := hinv
    exact .inr ⟨hc', (distance_congr rfl rfl rfl rfl).le, fun hin => by cases hin⟩
  | pushOwn | quitOwn =>
    obtain ⟨-, -, rfl⟩ := hinv
    exact .inr ⟨hc', (distance_congr rfl rfl rfl rfl).le, fun hin => by cases hin⟩
  | channelOp =>
    obtain ⟨-, -, -, rfl⟩ := hinv
    exact .inr ⟨hc', (distance_congr rfl rfl rfl rfl).le, fun hin => by cases hin⟩

omit [DecidableEq C] in
theorem frame_pushed {s₁ : ConnSystem C T} (t : T) (f : LoopFunctor)
    (hsys : s₁.conn.sys = s.conn.sys) : s.conn.sys.Frame [f] (s₁.pushed t f).conn.sys := by
  rw [← hsys]
  exact ⟨rfl, rfl, rfl, rfl, rfl⟩

/-- **Every step of every thread keeps the loop on its way to `connectDestroyed`.** -/
theorem nears_step {a : ConnAction C T} (hs : Scheduled s.conn s.handling) (hc : s.Condemned)
    (h : s.step a = some s') : Nears s s' a := by
  have hinv := step_inv h
  cases a with
  | loop a =>
    obtain ⟨hp, sys, hsys, rfl⟩ := hinv
    exact nears_loop hs hc hp hsys
  | handle e =>
    obtain ⟨hpc, -, h, rest, conn, hh, hrun, rfl⟩ := hinv
    exact nears_handle hs hc hpc hh hrun
  | runFunctor e =>
    obtain ⟨-, -, f, rest, conn, hf, hrun, rfl⟩ := hinv
    exact nears_runFunctor hc hf hrun
  | newConnection t =>
    obtain ⟨-, -, -, rfl⟩ := hinv
    exact .of_frame hc rfl (frame_pushed t _ rfl) rfl
  | newConnectionOwn =>
    obtain ⟨-, -, -, rfl⟩ := hinv
    obtain ⟨fs, hands⟩ :=
      TcpConnection.handsOver_quiet (TcpConnection.quiet_connectEstablished s.listed)
    exact .of_frame hc rfl hands.frame rfl
  | sendTest t data payload =>
    obtain ⟨-, -, -, rfl⟩ := hinv
    exact .of_frame hc rfl (.refl s.conn.sys) rfl
  | sendPush t =>
    obtain ⟨data, len, call, -, rfl⟩ := hinv
    exact .of_frame hc rfl (frame_pushed t _ rfl) rfl
  | shutdownTest t =>
    obtain ⟨-, -, rfl⟩ := hinv
    exact .of_frame hc rfl (.refl s.conn.sys) rfl
  | shutdownSet t =>
    obtain ⟨-, rfl⟩ := hinv
    exact .of_frame hc rfl (.refl s.conn.sys) rfl
  | shutdownPush t =>
    obtain ⟨-, rfl⟩ := hinv
    exact .of_frame hc rfl (frame_pushed t _ rfl) rfl
  | sendOwn data payload e =>
    obtain ⟨-, -, -, -, conn, hsend, rfl⟩ := hinv
    obtain ⟨fs, hands⟩ := TcpConnection.handsOver_quiet (TcpConnection.plain_send hsend).toQuiet
    exact .of_frame hc rfl hands.frame rfl
  | shutdownOwn =>
    obtain ⟨-, rfl⟩ := hinv
    obtain ⟨fs, hands⟩ := TcpConnection.handsOver_quiet (TcpConnection.quiet_shutdown s.conn)
    exact .of_frame hc rfl hands.frame rfl
  | removeConnectionInPool t =>
    obtain ⟨-, -, -, rfl⟩ := hinv
    exact .of_frame hc rfl (frame_pushed t _ rfl) rfl
  | destroyServer t =>
    obtain ⟨-, ⟨-, rfl⟩ | ⟨-, rfl⟩⟩ := hinv
    · exact .of_frame hc rfl (frame_pushed t _ rfl) rfl
    · exact .of_frame hc rfl (.refl s.conn.sys) rfl
  | destroyServerOwn =>
    obtain ⟨-, -, -, ⟨-, rfl⟩ | ⟨-, rfl⟩⟩ := hinv
    · exact .of_frame hc rfl
        (TcpConnection.frame_connectDestroyed (s.orphaned.note .destroyRequest)) rfl
    · exact .of_frame hc rfl (.refl s.conn.sys) rfl

/-! ## The requests -/

omit [DecidableEq C] [DecidableEq T] in
theorem scheduled_of_life (h : Unborn s ∨ Born s) : Scheduled s.conn s.handling := by
  rcases h with h | h
  · exact h.life.scheduled
  · exact h.scheduled

omit [DecidableEq C] [DecidableEq T] in
/-- A request is in the queue, or it has been served. -/
theorem condemned_or_destroyed (h : Unborn s ∨ Born s)
    (hreq : 0 < s.conn.log.count .destroyRequest) :
    s.Condemned ∨ .connectDestroyed ∈ s.conn.log := by
  rcases h with h | h
  · have hb := h.life.booked
    refine .inl (List.mem_of_mem_filter (p := LoopFunctor.isLife) ?_)
    rw [hb.queue, hb.counts.2.2]
    exact List.mem_append_right _ (List.mem_replicate.2 ⟨by omega, rfl⟩)
  · by_contra hno
    obtain ⟨hc, hd⟩ := not_or.1 hno
    have hqueue := h.ledger.queue
    rw [List.count_eq_zero.2 hc, List.count_eq_zero.2 hd] at hqueue
    omega

omit [DecidableEq C] [DecidableEq T] in
theorem born_of_closed (h : Unborn s ∨ Born s) (hclose : .handleClose ∈ s.conn.log) : Born s := by
  rcases h with h | h
  · cases h.log _ hclose
  · exact h

omit [DecidableEq C] [DecidableEq T] in
/-- A closed connection whose server has not asked for its end waits for the base loop. -/
theorem Born.removal (h : Born s) (hclose : .handleClose ∈ s.conn.log)
    (hreq : s.conn.log.count .destroyRequest = 0) :
    s.conn.server.alive = true ∧ 0 < s.conn.server.removals := by
  have ha : s.conn.server.alive = true := by
    by_contra hno
    have := h.ledger.dead (by simpa using hno)
    omega
  have hcount := (h.ledger.server ha).2
  have := List.count_pos_iff.2 hclose
  exact ⟨ha, by omega⟩

/-- **A connection that has been closed is destroyed.** Take any infinite run of a connection in
which the base loop runs the removals that are queued there, unless the server is destroyed, and in
which the io loop goes on. Then a connection that has been closed, or that its server has given up,
is destroyed later on. -/
theorem closed_eventually_destroyed (fd : C → Int) (hfd : Function.Injective fd)
    (wakeupChannel channel : C) (hne : channel ≠ wakeupChannel)
    (sameLoop writeComplete highWater : Bool) (as : List (ConnAction C T))
    (p : Path (step : ConnSystem C T → _))
    (h : (new (.new fd wakeupChannel) channel sameLoop writeComplete highWater).run as =
      some (p.state 0))
    (hbase : ∀ n, (p.state n).conn.server.alive = true → 0 < (p.state n).conn.server.removals →
      ∃ m, n ≤ m ∧ ((∃ t, p.action m = .removeConnectionInPool t) ∨
        (p.state m).conn.server.alive = false))
    (hloop : ∀ n, ∃ m, n ≤ m ∧ (p.action m).inThread = true) :
    p.LeadsTo (fun s => .handleClose ∈ s.conn.log ∨ .destroyRequest ∈ s.conn.log)
      (fun s => .connectDestroyed ∈ s.conn.log) := by
  have hlife : ∀ n, Unborn (p.state n) ∨ Born (p.state n) :=
    p.always (fun s => Unborn s ∨ Born s) (fun _ _ _ hs hstep => unborn_or_born hs hstep)
      (run_invariant (fun s => Unborn s ∨ Born s) (fun _ _ _ hs hstep => unborn_or_born hs hstep)
        (.inl (unborn_new hfd hne sameLoop writeComplete highWater)) h)
  -- The loop runs what is queued.
  have hserved : p.LeadsTo Condemned (fun s => .connectDestroyed ∈ s.conn.log) := by
    have hnear : ∀ n, (p.state n).Condemned → Nears (p.state n) (p.state (n + 1)) (p.action n) :=
      fun n hc => nears_step (scheduled_of_life (hlife n)) hc (p.next n)
    refine .of_often (fun a => a.inThread = true) distance
      (fun n hc => (hnear n hc).imp_right fun h => ⟨h.1, h.2.1⟩)
      (fun n hc hin => (hnear n hc).imp_right fun h => h.2.2 hin) fun n _ => ?_
    obtain ⟨m, hm, hin⟩ := hloop n
    exact ⟨m, hm, .inr hin⟩
  have hrequested : p.LeadsTo (fun s => 0 < s.conn.log.count .destroyRequest)
      (fun s => .connectDestroyed ∈ s.conn.log) := by
    intro n hreq
    rcases condemned_or_destroyed (hlife n) hreq with hc | hd
    · exact hserved n hc
    · exact ⟨n, le_rfl, hd⟩
  intro n hend
  by_cases hreq : (p.state n).conn.log.count .destroyRequest = 0
  · have hclose := hend.resolve_right (List.count_eq_zero.1 hreq)
    have hborn := born_of_closed (hlife n) hclose
    obtain ⟨ha, hremoval⟩ := hborn.removal hclose hreq
    obtain ⟨m, hm, ⟨t, hact⟩ | hdead⟩ := hbase n ha hremoval
    · -- The base loop erases the connection and queues `connectDestroyed`.
      have hnext := p.next m
      rw [hact] at hnext
      obtain ⟨-, -, -, hs'⟩ := step_inv hnext
      obtain ⟨k, hk, hd⟩ := hserved (m + 1) (by
        rw [hs', Condemned, queue_pushed]
        exact List.mem_append_right _ (List.mem_singleton_self _))
      exact ⟨k, by omega, hd⟩
    · have hborn' : Born (p.state m) := by
        obtain ⟨j, rfl⟩ := Nat.exists_eq_add_of_le hm
        exact (p.drop n).always Born (fun _ _ _ hb hstep => hb.step hstep) hborn j
      obtain ⟨k, hk, hd⟩ := hrequested m (hborn'.ledger.dead hdead)
      exact ⟨k, by omega, hd⟩
  · exact hrequested n (Nat.pos_of_ne_zero hreq)

/-! ## A run that goes on for ever -/

/-- The base loop's thread comes first, then the loop thread. No event occurs any more. -/
def nextStep (s : ConnSystem Bool Unit) : ConnAction Bool Unit :=
  if s.conn.sys.caller () ≠ .idle then .loop (.wakeup ())
  else if 0 < s.conn.server.removals then .removeConnectionInPool ()
  else if s.conn.sys.loop.functors ≠ [] then .runFunctor (answers 0 (.failed 0))
  else .loop (LoopSystem.nextStep s.conn.sys)

/-- What is left to do is to remove the connection and to destroy it. -/
structure Winding (s : ConnSystem Bool Unit) : Prop where
  looping : s.conn.sys.Looping
  handled : s.handling = []
  active : s.conn.sys.loop.activeChannels = []
  batch : s.conn.sys.loop.pc ≠ .run → s.conn.sys.loop.functors = []
  queue : ∀ f ∈ s.conn.queue, f = .connectDestroyed
  user : s.user () = .idle
  server : s.conn.server.sameLoop = false ∧ s.conn.server.alive = true

theorem Winding.runFunctor {s : ConnSystem Bool Unit} (h : Winding s) {f : LoopFunctor}
    {rest : List LoopFunctor} (hf : s.conn.sys.loop.functors = f :: rest) :
    ∃ s', s.step (.runFunctor (answers 0 (.failed 0))) = some s' ∧ Winding s' := by
  have hpc : s.conn.sys.loop.pc = .run := by
    by_contra hpc
    rw [h.batch hpc] at hf
    cases hf
  obtain ⟨⟨hown, hquit, hleft⟩, hhand, hact, -, hq, huser, hserver⟩ := h
  rw [queue_took hf] at hq
  obtain rfl := hq f List.mem_cons_self
  have hstep : s.step (.runFunctor (answers 0 (.failed 0))) =
      some { s with conn := (s.took .connectDestroyed rest).connectDestroyed } := by
    simp [step, LoopSystem.step, LoopSystem.isAt, hf, hpc, hown, took, TcpConnection.callFunctor]
  have hframe := TcpConnection.frame_connectDestroyed (s.took .connectDestroyed rest)
  refine ⟨_, hstep, ⟨hframe.own.trans hown, ?_, ?_⟩, hhand, hframe.activeChannels.trans hact,
    fun hno => absurd (hframe.pc.trans hpc) hno, ?_, huser, ?_⟩
  · show (s.took .connectDestroyed rest).connectDestroyed.sys.loop.quit = false
    rw [TcpConnection.connectDestroyed_eq]
    dsimp only
    split <;> exact hquit
  · exact fun hno => hleft (hframe.pc.symm.trans hno)
  · intro g hg
    have hg : g ∈ (s.took .connectDestroyed rest).connectDestroyed.queue := hg
    rw [queue_frame hframe, List.append_nil] at hg
    exact hq g (List.mem_cons_of_mem _ hg)
  · show (s.took .connectDestroyed rest).connectDestroyed.server.sameLoop = false ∧ _
    rw [TcpConnection.connectDestroyed_eq]
    exact hserver

theorem Winding.loop {s : ConnSystem Bool Unit} (h : Winding s)
    (hnil : s.conn.sys.loop.functors = []) :
    ∃ s', s.step (.loop (LoopSystem.nextStep s.conn.sys)) = some s' ∧ Winding s' := by
  obtain ⟨sys, hsys, hloop⟩ := h.looping.next
  obtain ⟨-, hhand, hact, hbatch, hqueue, huser, hserver⟩ := h
  generalize hnext : LoopSystem.nextStep s.conn.sys = a at hsys ⊢
  have hin : a.inLoop = true := hnext ▸ LoopSystem.inLoop_nextStep s.conn.sys
  have hrun : a ≠ .runFunctor := by
    rintro rfl
    obtain ⟨-, -, f, rest, hf, -⟩ := LoopSystem.step_inv hsys
    rw [hnil] at hf
    cases hf
  have hp : s.passes a = true := by
    cases a with
    | runFunctor => exact absurd rfl hrun
    | dispatch | startFunctors => simpa [passes] using hhand
    | enter | test | pollReturn | swapFunctors | endFunctors => rfl
    | push | quit | wakeup | pushOwn | wakeupOwn | quitOwn | channelOp => cases hin
  have hq : (s.conn.setSys sys).queue = s.conn.queue ++ LoopSystem.pushes a :=
    LoopSystem.step_queue hbatch hrun hsys
  have hquiet : LoopSystem.pushes a = [] ∧ s.nextHandling a = [] ∧
      sys.loop.activeChannels = [] ∧ (sys.loop.pc ≠ .run → sys.loop.functors = []) := by
    have hinv := LoopSystem.step_inv hsys
    cases a with
    | runFunctor => exact absurd rfl hrun
    | enter =>
      obtain ⟨-, -, rfl⟩ := hinv
      exact ⟨rfl, hhand, hact, fun _ => hnil⟩
    | test =>
      obtain ⟨-, -, rfl⟩ := hinv
      refine ⟨rfl, hhand, ?_, fun _ => hnil⟩
      show (if s.conn.sys.loop.quit then s.conn.sys.loop.activeChannels else []) = []
      rw [hact, ite_self]
    | pollReturn active =>
      obtain ⟨hpc, -, -, -, rfl⟩ := hinv
      obtain rfl : [] = active := by simpa [LoopSystem.nextStep, hpc] using hnext
      exact ⟨rfl, hhand, rfl, fun _ => hnil⟩
    | dispatch =>
      obtain ⟨-, -, c, rest, hc, -⟩ := hinv
      rw [hact] at hc
      cases hc
    | startFunctors | endFunctors =>
      obtain ⟨-, -, -, rfl⟩ := hinv
      exact ⟨rfl, hhand, hact, fun _ => hnil⟩
    | swapFunctors =>
      obtain ⟨-, -, rfl⟩ := hinv
      exact ⟨rfl, hhand, hact, fun hno => absurd rfl hno⟩
    | push | quit | wakeup | pushOwn | wakeupOwn | quitOwn | channelOp => cases hin
  obtain ⟨hpush, hhand', hact', hbatch'⟩ := hquiet
  rw [hpush, List.append_nil] at hq
  exact ⟨{ s with conn := s.conn.setSys sys, handling := s.nextHandling a },
    by simp [step, hp, hsys], hloop, hhand', hact', hbatch', fun f hf => hqueue f (hq ▸ hf), huser,
    hserver⟩

theorem Winding.next {s : ConnSystem Bool Unit} (h : Winding s) :
    ∃ s', s.step (nextStep s) = some s' ∧ Winding s' := by
  unfold nextStep
  by_cases hcaller : s.conn.sys.caller () = .idle
  · rw [if_neg (not_not.2 hcaller)]
    obtain ⟨⟨hown, hquit, hleft⟩, hhand, hact, hbatch, hqueue, huser, hserver⟩ := h
    by_cases hremoval : 0 < s.conn.server.removals
    · rw [if_pos hremoval]
      refine ⟨{ s with conn := s.erased }.pushed () .connectDestroyed, ?_, ⟨hown, hquit, hleft⟩,
        hhand, hact, hbatch, fun f hf => ?_, huser, hserver⟩
      · have herased : s.erased.sys.caller () = .idle := hcaller
        simp [step, hserver, hremoval, isFree, huser, hcaller, herased, pushBy_eq_some]
      · rw [queue_pushed] at hf
        rcases List.mem_append.1 hf with hf | hf
        · exact hqueue f hf
        · exact List.mem_singleton.1 hf
    · rw [if_neg hremoval]
      by_cases hnil : s.conn.sys.loop.functors = []
      · rw [if_neg (not_not.2 hnil)]
        exact Winding.loop ⟨⟨hown, hquit, hleft⟩, hhand, hact, hbatch, hqueue, huser, hserver⟩ hnil
      · rw [if_pos hnil]
        obtain ⟨f, rest, hf⟩ := List.exists_cons_of_ne_nil hnil
        exact Winding.runFunctor
          ⟨⟨hown, hquit, hleft⟩, hhand, hact, hbatch, hqueue, huser, hserver⟩ hf
  · rw [if_pos hcaller]
    obtain ⟨⟨hown, hquit, hleft⟩, hhand, hact, hbatch, hqueue, huser, hserver⟩ := h
    exact ⟨{ s with conn := s.conn.setSys { s.conn.sys with
        loop := s.conn.sys.loop.wakeup
        caller := Function.update s.conn.sys.caller () .idle } },
      by simp [step, passes, LoopSystem.step, hcaller, nextHandling], ⟨hown, hquit, hleft⟩, hhand,
      hact, hbatch, hqueue, huser, hserver⟩

/-- The run of a loop that winds up. -/
def winding (s : ConnSystem Bool Unit) (h : Winding s) :
    Path (step : ConnSystem Bool Unit → _) :=
  .follow nextStep Winding (fun _ => Winding.next) s h

/-- What is left to the base loop's thread. -/
def baseWork (s : ConnSystem Bool Unit) : ℕ :=
  2 * s.conn.server.removals + if s.conn.sys.caller () = .idle then 0 else 1

theorem baseWork_step {s s' : ConnSystem Bool Unit} (h : s.step (nextStep s) = some s')
    (hin : (nextStep s).inThread ≠ true) : s'.baseWork < s.baseWork := by
  unfold nextStep at h hin
  by_cases hcaller : s.conn.sys.caller () = .idle
  · rw [if_neg (not_not.2 hcaller)] at h hin
    by_cases hremoval : 0 < s.conn.server.removals
    · rw [if_pos hremoval] at h
      obtain ⟨-, -, -, rfl⟩ := step_inv h
      have hpushed : (({ s with conn := s.erased } : ConnSystem Bool Unit).pushed ()
          .connectDestroyed).baseWork = 2 * (s.conn.server.removals - 1) + 1 := by
        simp [baseWork, pushed, erased, TcpConnection.note, TcpConnection.setServer,
          TcpConnection.setSys]
      rw [hpushed, baseWork, if_pos hcaller]
      omega
    · rw [if_neg hremoval] at hin
      refine absurd ?_ hin
      split
      · rfl
      · exact LoopSystem.inLoop_nextStep s.conn.sys
  · rw [if_pos hcaller] at h
    obtain ⟨-, sys, hsys, rfl⟩ := step_inv h
    obtain ⟨-, rfl⟩ := LoopSystem.step_inv hsys
    simp [baseWork, TcpConnection.setSys, hcaller]

theorem often_winding {s : ConnSystem Bool Unit} (h : Winding s) (n : ℕ) :
    ∃ m, n ≤ m ∧ ((winding s h).action m).inThread = true := by
  induction hw : ((winding s h).state n).baseWork using Nat.strong_induction_on generalizing n with
  | _ w ih =>
    by_cases hin : ((winding s h).action n).inThread = true
    · exact ⟨n, le_rfl, hin⟩
    · have hfall := baseWork_step ((winding s h).next n) hin
      obtain ⟨m, hm, hin⟩ := ih _ (hw ▸ hfall) (n + 1) rfl
      exact ⟨m, by omega, hin⟩

theorem removal_winding {s : ConnSystem Bool Unit} (h : Winding s) (n : ℕ)
    (hremoval : 0 < ((winding s h).state n).conn.server.removals) :
    ∃ m, n ≤ m ∧ (winding s h).action m = .removeConnectionInPool () := by
  have hact : ∀ k, (winding s h).action k = nextStep ((winding s h).state k) := fun _ => rfl
  by_cases hcaller : ((winding s h).state n).conn.sys.caller () = .idle
  · refine ⟨n, le_rfl, ?_⟩
    rw [hact, nextStep, if_neg (not_not.2 hcaller), if_pos hremoval]
  · have hnext := (winding s h).next n
    rw [hact, nextStep, if_pos hcaller] at hnext
    obtain ⟨-, sys, hsys, hs'⟩ := step_inv hnext
    obtain ⟨-, rfl⟩ := LoopSystem.step_inv hsys
    refine ⟨n + 1, Nat.le_succ n, ?_⟩
    rw [hact, hs', nextStep, if_neg, if_pos]
    · exact hremoval
    · simp [TcpConnection.setSys]

/-- A connection of a server with io threads is established, and its peer closes it. -/
def closedAfar : List (ConnAction Bool Unit) :=
  [.newConnection (), .loop (.wakeup ()), .loop .enter, .loop .test,
    .loop (.pollReturn [(false, EPOLLIN)]), .loop .dispatch, .loop .startFunctors,
    .loop .swapFunctors, .runFunctor (answers 0 (.failed 0)), .loop .endFunctors, .loop .test,
    .loop (.pollReturn [(true, EPOLLIN ||| EPOLLHUP)]), .loop .dispatch,
    .handle (answers 0 (.received []))]

theorem run_closedAfar :
    ∃ s : ConnSystem Bool Unit, (sampleSystem false).run closedAfar = some s ∧ Winding s ∧
      s.conn.server.removals = 1 ∧
      s.conn.log = [.connectionCallback true, .handleClose, .connectionCallback false,
        .closeCallback] := by
  obtain ⟨s, hs, hloop⟩ := Option.map_eq_some_iff.1
    (show ((sampleSystem false).run closedAfar).map (fun s => (s.conn.sys.own,
        s.conn.sys.loop.quit, s.conn.sys.loop.pc, s.handling, s.conn.sys.loop.activeChannels)) =
      some (.idle, false, .dispatch, [], []) by decide +kernel)
  have hconn : ((sampleSystem false).run closedAfar).map (fun s => (s.conn.queue, s.user (),
      s.conn.server, s.conn.log)) = some ([], .idle, ⟨false, true, true, 1⟩,
        [.connectionCallback true, .handleClose, .connectionCallback false, .closeCallback]) := by
    decide +kernel
  rw [hs] at hconn
  simp only [Prod.mk.injEq] at hloop
  simp only [Option.map_some, Option.some.injEq, Prod.mk.injEq] at hconn
  obtain ⟨hown, hquit, hpc, hhand, hact⟩ := hloop
  obtain ⟨hqueue, huser, hserver, hlog⟩ := hconn
  exact ⟨s, hs, ⟨⟨hown, hquit, by simp [hpc]⟩, hhand, hact,
    fun _ => (List.append_eq_nil_iff.1 hqueue).1, by simp [hqueue], huser, by simp [hserver]⟩,
    by rw [hserver], hlog⟩

theorem destroyed_closedAfar :
    ∃ s : ConnSystem Bool Unit, (sampleSystem false).run closedAfar = some s ∧
      ∃ h : Winding s, ∃ m, .connectDestroyed ∈ ((winding s h).state m).conn.log := by
  obtain ⟨s, hs, h, -, hlog⟩ := run_closedAfar
  have hclosed : .handleClose ∈ ((winding s h).state 0).conn.log := by
    show .handleClose ∈ s.conn.log
    simp [hlog]
  obtain ⟨m, -, hm⟩ := closed_eventually_destroyed sampleFd (by decide) false true (by decide)
    false false false closedAfar (winding s h) hs
    (fun n _ hremoval => by
      obtain ⟨m, hm, hact⟩ := removal_winding h n hremoval
      exact ⟨m, hm, .inl ⟨(), hact⟩⟩)
    (often_winding h) 0 (.inl hclosed)
  exact ⟨s, hs, h, m, hm⟩

end ConnSystem

end WebCore
