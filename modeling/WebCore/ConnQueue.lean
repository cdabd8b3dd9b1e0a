import WebCore.ConnBorn

/-!
# What a step queues

The functors that run code of the connection are of two kinds: those that hold a pointer to it, and
the uses of it that other threads queue, `sendInLoop` and `shutdownInLoop`, which are bound to
`this`. A step of the connection itself queues no use, and gives up the server's last pointer only
to a functor (`HandsOver`).

**Theorem (`step_uses`).** The uses form a queue of their own: a step takes the first one out when
it runs it, and puts one at the end when a thread pushes it.
-/

namespace WebCore

/-- The functor holds a pointer to the connection. The others that run its code are bound to
`this`. -/
def LoopFunctor.holds : LoopFunctor → Bool
  | .connectEstablished | .connectDestroyed | .writeComplete | .highWaterMark _ => true
  | .sendInLoop _ _ _ | .shutdownInLoop | .other => false

/-- The pointers that the server's side holds: the entry in `connections`, and the removals that are
queued on the base loop. -/
def TcpConnection.serverOwners {C T : Type*} (c : TcpConnection C T) : Nat :=
  (if c.server.alive && c.server.inMap then 1 else 0) + c.server.removals

theorem LoopFunctor.isUse_of_isNotice {f : LoopFunctor} (h : f.isNotice = true) :
    f.isUse = false := by
  cases f <;> simp_all [LoopFunctor.isNotice, LoopFunctor.isUse]

namespace TcpConnection

variable {C T : Type*}

/-- A step of the connection that queues no use of it, and gives up the server's last pointer only
to a functor. -/
structure HandsOver (c c' : TcpConnection C T) (fs : List LoopFunctor) : Prop where
  frame : c.sys.Frame fs c'.sys
  unused : ∀ f ∈ fs, f.isUse = false
  owned : c'.serverOwners = 0 → c.serverOwners = 0 ∨ ∃ f ∈ fs, f.holds = true

theorem HandsOver.of_server {c c' : TcpConnection C T} {fs : List LoopFunctor}
    (hf : c.sys.Frame fs c'.sys) (hfs : ∀ f ∈ fs, f.isUse = false)
    (hs : c'.server = c.server) : HandsOver c c' fs :=
  ⟨hf, hfs, fun h => .inl (by rwa [serverOwners, hs] at h)⟩

theorem handsOver_quiet {c c' : TcpConnection C T} (h : Quiet c c') :
    ∃ fs, HandsOver c c' fs := by
  obtain ⟨fs, hfs, hf⟩ := h.frame
  exact ⟨fs, .of_server hf (fun f hmem => LoopFunctor.isUse_of_isNotice (hfs f hmem)) h.server⟩

variable [DecidableEq C]

theorem handsOver_handleClose (c : TcpConnection C T) :
    HandsOver c c.handleClose c.closeRequest := by
  refine ⟨frame_handleClose c, ?_, ?_⟩
  · unfold closeRequest
    split <;> simp [LoopFunctor.isUse]
  · unfold closeRequest
    rw [handleClose_eq]
    by_cases ha : c.server.alive = true <;> by_cases hl : c.server.sameLoop = true <;>
      simp [ha, hl, serverOwners, LoopFunctor.holds]

theorem handsOver_connectDestroyed (c : TcpConnection C T) :
    HandsOver c c.connectDestroyed [] :=
  .of_server (frame_connectDestroyed c) (by simp) (by simp only [connectDestroyed_eq])

theorem handsOver_runHandler {c c' : TcpConnection C T} {e : Answers} {h : Handler}
    (hrun : c.runHandler e h = some c') : ∃ fs, HandsOver c c' fs := by
  cases h with
  | error =>
    obtain rfl := Option.some.inj hrun
    exact handsOver_quiet (.refl c)
  | read =>
    obtain ⟨b, rfl | ⟨-, rfl⟩ | rfl⟩ :=
      ConnSystem.handleRead_inv (toOption_eq_some.1 hrun)
    · have hin : Quiet c { c with inputBuffer := b } := .of_eq rfl rfl rfl rfl
      exact handsOver_quiet (hin.trans (quiet_note (e := .messageCallback) rfl _))
    · have hands := handsOver_handleClose { c with inputBuffer := b }
      exact ⟨_, hands.frame, hands.unused, hands.owned⟩
    · exact handsOver_quiet (.of_eq rfl rfl rfl rfl)
  | write =>
    simp only [runHandler, Option.ite_none_right_eq_some, Option.some.injEq] at hrun
    obtain ⟨-, rfl⟩ := hrun
    exact handsOver_quiet (quiet_handleWrite e.write c)
  | close =>
    obtain rfl := Option.some.inj hrun
    exact ⟨_, handsOver_handleClose c⟩

theorem handsOver_callFunctor {c c' : TcpConnection C T} {e : Answers} {f : LoopFunctor}
    (hrun : c.callFunctor e f = some c') : ∃ fs, HandsOver c c' fs := by
  cases f with
  | sendInLoop data len call =>
    simp only [callFunctor, Option.ite_none_right_eq_some, toOption_eq_some] at hrun
    exact handsOver_quiet ((quiet_note (e := .sendInLoop call) rfl c).trans
      (sends_sendInLoop hrun.2).toQuiet)
  | shutdownInLoop =>
    obtain rfl := Option.some.inj hrun
    exact handsOver_quiet (quiet_shutdownInLoop c)
  | connectEstablished =>
    obtain rfl := Option.some.inj hrun
    exact handsOver_quiet (quiet_connectEstablished c)
  | connectDestroyed =>
    obtain rfl := Option.some.inj hrun
    exact ⟨_, handsOver_connectDestroyed c⟩
  | writeComplete | highWaterMark | other =>
    obtain rfl := Option.some.inj hrun
    exact handsOver_quiet (.refl c)

end TcpConnection

namespace ConnSystem

variable {C T : Type*}

theorem serverOwners_orphaned {s : ConnSystem C T} (hm : s.conn.server.inMap = false) :
    s.orphaned.serverOwners = s.conn.serverOwners := by
  simp [ConnSystem.orphaned, TcpConnection.setServer, TcpConnection.serverOwners, hm]

/-! ## The queue of uses -/

/-- The uses of the connection that the loop is still to run. -/
def uses (s : ConnSystem C T) : List LoopFunctor := s.conn.queue.filter LoopFunctor.isUse

/-- The use that an action runs. -/
def takenUse (s : ConnSystem C T) : ConnAction C T → List LoopFunctor
  | .runFunctor _ => s.conn.sys.loop.functors.head?.toList.filter LoopFunctor.isUse
  | _ => []

/-- The use that an action queues. -/
def pushedUse (s : ConnSystem C T) : ConnAction C T → List LoopFunctor
  | .sendPush t =>
    match s.user t with
    | .sending data len call => [.sendInLoop data len call]
    | _ => []
  | .shutdownPush _ => [.shutdownInLoop]
  | _ => []

/-- Where the threads stand after an action. -/
def nextUser [DecidableEq T] (s : ConnSystem C T) : ConnAction C T → T → UserPc
  | .sendTest t data payload =>
    Function.update s.user t (.sending data payload.length ⟨s.calls, payload⟩)
  | .shutdownTest t => Function.update s.user t .sawConnected
  | .shutdownSet t => Function.update s.user t .stored
  | .sendPush t | .shutdownPush t => Function.update s.user t .idle
  | _ => s.user

theorem uses_frame {s r : ConnSystem C T} {fs : List LoopFunctor}
    (hf : s.conn.sys.Frame fs r.conn.sys) (hfs : ∀ f ∈ fs, f.isUse = false) :
    r.uses = s.uses := by
  have hnone : fs.filter LoopFunctor.isUse = [] :=
    List.filter_eq_nil_iff.2 fun f hmem => by simp [hfs f hmem]
  rw [uses, queue_frame hf, List.filter_append, hnone, List.append_nil]
  rfl

theorem mem_pushedUse {s : ConnSystem C T} {a : ConnAction C T} {data : Int} {len : Nat}
    {call : SendCall} (h : .sendInLoop data len call ∈ s.pushedUse a) :
    ∃ t, a = .sendPush t ∧ s.user t = .sending data len call := by
  cases a with
  | sendPush t =>
    rw [pushedUse] at h
    split at h
    · rename_i data' len' call' hu
      cases List.mem_singleton.1 h
      exact ⟨t, rfl, hu⟩
    · cases h
  | shutdownPush t => simp [pushedUse] at h
  | _ => cases h

section Uses

variable [DecidableEq T]

/-- The outcome of a thread's push. -/
theorem handsOver_pushed {s₁ : ConnSystem C T} {s : ConnSystem C T} (t : T) {f : LoopFunctor}
    (hsys : s₁.conn.sys = s.conn.sys) (huse : f.isUse = false)
    (howned : s₁.conn.serverOwners = 0 → s.conn.serverOwners = 0 ∨ f.holds = true) :
    TcpConnection.HandsOver s.conn (s₁.pushed t f).conn [f] := by
  refine ⟨?_, by simpa using huse, fun h => (howned h).imp id fun hf => ⟨f, by simp, hf⟩⟩
  rw [← hsys]
  exact ⟨rfl, rfl, rfl, rfl, rfl⟩

theorem user_setUser_self (t : T) (pc : UserPc) (s : ConnSystem C T) :
    (s.setUser t pc).user t = pc := Function.update_self ..

theorem uses_pushed (t : T) (f : LoopFunctor) (s : ConnSystem C T) :
    (s.pushed t f).uses = s.uses ++ [f].filter LoopFunctor.isUse := by
  rw [uses, queue_pushed, List.filter_append]
  rfl

variable [DecidableEq C] {s s' : ConnSystem C T}

theorem uses_loop {a : LoopAction LoopFunctor C T} {sys : LoopSystem LoopFunctor C T}
    (hb : s.conn.sys.loop.pc ≠ .run → s.conn.sys.loop.functors = []) (hp : s.passes a = true)
    (h : s.conn.sys.step a = some sys) :
    (s.conn.setSys sys).queue.filter LoopFunctor.isUse = s.uses := by
  have ha : a ≠ .runFunctor := by rintro rfl; simp [passes] at hp
  have hq : (s.conn.setSys sys).queue = s.conn.queue ++ LoopSystem.pushes a :=
    LoopSystem.step_queue hb ha h
  have hnone : (LoopSystem.pushes a).filter LoopFunctor.isUse = [] :=
    List.filter_eq_nil_iff.2 fun f hmem => by simp [pushes_other hp hmem, LoopFunctor.isUse]
  rw [hq, List.filter_append, hnone, List.append_nil]
  rfl

/-- **The queue of uses.** What a step runs comes off its front, and what it queues goes to its
end. -/
theorem step_uses {a : ConnAction C T}
    (hb : s.conn.sys.loop.pc ≠ .run → s.conn.sys.loop.functors = []) (h : s.step a = some s') :
    s.takenUse a ++ s'.uses = s.uses ++ s.pushedUse a := by
  have hinv := step_inv h
  have hsame : s'.uses = s.uses → s'.uses = s.uses ++ [] := fun h => by rw [h, List.append_nil]
  cases a with
  | loop a =>
    obtain ⟨hp, sys, hsys, rfl⟩ := hinv
    exact hsame (uses_loop hb hp hsys)
  | handle e =>
    obtain ⟨-, -, k, rest, conn, -, hrun, rfl⟩ := hinv
    obtain ⟨fs, hands⟩ := TcpConnection.handsOver_runHandler hrun
    exact hsame (uses_frame hands.frame hands.unused)
  | runFunctor e =>
    obtain ⟨-, -, f, rest, conn, hf, hrun, rfl⟩ := hinv
    obtain ⟨fs, hands⟩ := TcpConnection.handsOver_callFunctor hrun
    have hrest : uses { s with conn } = (s.took f rest).queue.filter LoopFunctor.isUse :=
      uses_frame (s := { s with conn := s.took f rest }) hands.frame hands.unused
    show s.takenUse (.runFunctor e) ++ uses { s with conn } = s.uses ++ []
    rw [takenUse, hf, hrest, List.append_nil, uses, queue_took hf, ← List.filter_append]
    rfl
  | newConnection t =>
    obtain ⟨-, -, -, rfl⟩ := hinv
    exact hsame ((uses_pushed t .connectEstablished _).trans (List.append_nil _))
  | newConnectionOwn =>
    obtain ⟨-, -, -, rfl⟩ := hinv
    exact hsame rfl
  | sendTest t data payload =>
    obtain ⟨-, -, -, rfl⟩ := hinv
    exact hsame rfl
  | sendPush t =>
    obtain ⟨data, len, call, hu, rfl⟩ := hinv
    rw [pushedUse, hu]
    exact uses_pushed t _ _
  | shutdownTest t =>
    obtain ⟨-, -, rfl⟩ := hinv
    exact hsame rfl
  | shutdownSet t =>
    obtain ⟨-, rfl⟩ := hinv
    exact hsame rfl
  | shutdownPush t =>
    obtain ⟨-, rfl⟩ := hinv
    exact uses_pushed t _ _
  | sendOwn data payload e =>
    obtain ⟨-, -, -, -, conn, hsend, rfl⟩ := hinv
    obtain ⟨fs, hands⟩ := TcpConnection.handsOver_quiet (TcpConnection.plain_send hsend).toQuiet
    exact hsame (uses_frame hands.frame hands.unused)
  | shutdownOwn =>
    obtain ⟨-, rfl⟩ := hinv
    obtain ⟨fs, hands⟩ := TcpConnection.handsOver_quiet (TcpConnection.quiet_shutdown s.conn)
    exact hsame (uses_frame (r := { s with conn := s.conn.shutdown }) hands.frame hands.unused)
  | removeConnectionInPool t =>
    obtain ⟨-, -, -, rfl⟩ := hinv
    exact hsame ((uses_pushed t .connectDestroyed _).trans (List.append_nil _))
  | destroyServer t =>
    obtain ⟨-, ⟨-, rfl⟩ | ⟨-, rfl⟩⟩ := hinv
    · exact hsame ((uses_pushed t .connectDestroyed _).trans (List.append_nil _))
    · exact hsame rfl
  | destroyServerOwn =>
    obtain ⟨-, -, -, ⟨-, rfl⟩ | ⟨-, rfl⟩⟩ := hinv
    · have hands := TcpConnection.handsOver_connectDestroyed (s.orphaned.note .destroyRequest)
      exact hsame (uses_frame (s := { s with conn := s.orphaned.note .destroyRequest })
        hands.frame hands.unused)
    · exact hsame rfl

/-! ## Outstanding sends -/

theorem mem_uses_of_step {a : ConnAction C T} {f : LoopFunctor}
    (hb : s.conn.sys.loop.pc ≠ .run → s.conn.sys.loop.functors = []) (h : s.step a = some s')
    (hf : f ∈ s'.uses) : f ∈ s.uses ∨ f ∈ s.pushedUse a := by
  have hmem : f ∈ s.takenUse a ++ s'.uses := List.mem_append_right _ hf
  rw [step_uses hb h] at hmem
  exact List.mem_append.1 hmem

/-- **The threads move as the action says.** -/
theorem step_user {a : ConnAction C T} (h : s.step a = some s') : s'.user = s.nextUser a := by
  have hinv := step_inv h
  cases a with
  | loop a =>
    obtain ⟨-, sys, -, rfl⟩ := hinv
    rfl
  | handle e =>
    obtain ⟨-, -, k, rest, conn, -, -, rfl⟩ := hinv
    rfl
  | runFunctor e =>
    obtain ⟨-, -, f, rest, conn, -, -, rfl⟩ := hinv
    rfl
  | newConnection | newConnectionOwn | sendTest | removeConnectionInPool =>
    obtain ⟨-, -, -, rfl⟩ := hinv
    rfl
  | sendPush t =>
    obtain ⟨data, len, call, -, rfl⟩ := hinv
    rfl
  | shutdownTest t =>
    obtain ⟨-, -, rfl⟩ := hinv
    rfl
  | shutdownSet | shutdownPush | shutdownOwn =>
    obtain ⟨-, rfl⟩ := hinv
    rfl
  | sendOwn data payload e =>
    obtain ⟨-, -, -, -, conn, -, rfl⟩ := hinv
    rfl
  | destroyServer t =>
    obtain ⟨-, ⟨-, rfl⟩ | ⟨-, rfl⟩⟩ := hinv
    · rfl
    · rfl
  | destroyServerOwn =>
    obtain ⟨-, -, -, ⟨-, rfl⟩ | ⟨-, rfl⟩⟩ := hinv
    · rfl
    · rfl

/-- A thread that stands in `send` was there before, or has just seen `kConnected`. -/
theorem sending_inv {a : ConnAction C T} {t : T} {data : Int} {len : Nat} {call : SendCall}
    (h : s.step a = some s') (hu : s'.user t = .sending data len call) :
    s.user t = .sending data len call ∨ ∃ payload, a = .sendTest t data payload ∧
      len = payload.length ∧ call = ⟨s.calls, payload⟩ := by
  rw [step_user h] at hu
  cases a with
  | sendTest t' data' payload =>
    rw [nextUser, Function.update_apply] at hu
    split at hu
    · rename_i ht
      obtain ⟨rfl, rfl, rfl⟩ := UserPc.sending.inj hu
      exact .inr ⟨payload, by rw [ht], rfl, rfl⟩
    · exact .inl hu
  | sendPush t' | shutdownTest t' | shutdownSet t' | shutdownPush t' =>
    rw [nextUser, Function.update_apply] at hu
    split at hu
    · cases hu
    · exact .inl hu
  | _ => exact .inl hu

/-- A thread that stands in `send` stays there until it queues its functor. -/
theorem sending_step {a : ConnAction C T} {t : T} {data : Int} {len : Nat} {call : SendCall}
    (h : s.step a = some s') (hu : s.user t = .sending data len call) :
    s'.user t = .sending data len call ∨ a = .sendPush t := by
  have hinv := step_inv h
  -- A thread that moves otherwise stands elsewhere.
  have hkeep : ∀ {t' : T} (pc : UserPc), s.user t' ≠ .sending data len call →
      Function.update s.user t' pc t = .sending data len call := by
    intro t' pc hne
    have ht : t ≠ t' := by
      rintro rfl
      exact hne hu
    rw [Function.update_of_ne ht]
    exact hu
  rw [step_user h]
  cases a with
  | sendPush t' =>
    by_cases ht : t = t'
    · exact .inr (by rw [ht])
    · exact .inl (by rw [nextUser, Function.update_of_ne ht]; exact hu)
  | sendTest t' data' payload =>
    obtain ⟨-, -, hidle, -⟩ := hinv
    exact .inl (hkeep _ (by simp [hidle]))
  | shutdownTest t' =>
    obtain ⟨-, hidle, -⟩ := hinv
    exact .inl (hkeep _ (by simp [hidle]))
  | shutdownSet t' | shutdownPush t' =>
    obtain ⟨hat, -⟩ := hinv
    exact .inl (hkeep _ (by simp [hat]))
  | _ => exact .inl hu

/-- Calls of `send` are numbered one by one. -/
theorem calls_step {a : ConnAction C T} (h : s.step a = some s') :
    s.calls ≤ s'.calls ∧ ∀ t data payload, a = .sendTest t data payload →
      s'.calls = s.calls + 1 := by
  have hinv := step_inv h
  cases a with
  | sendTest t data payload =>
    obtain ⟨-, -, -, rfl⟩ := hinv
    exact ⟨Nat.le_succ _, fun _ _ _ _ => rfl⟩
  | sendOwn data payload e =>
    obtain ⟨-, -, -, -, conn, -, rfl⟩ := hinv
    exact ⟨Nat.le_succ _, by simp⟩
  | loop a =>
    obtain ⟨-, sys, -, rfl⟩ := hinv
    exact ⟨le_rfl, by simp⟩
  | handle e =>
    obtain ⟨-, -, k, rest, conn, -, -, rfl⟩ := hinv
    exact ⟨le_rfl, by simp⟩
  | runFunctor e =>
    obtain ⟨-, -, f, rest, conn, -, -, rfl⟩ := hinv
    exact ⟨le_rfl, by simp⟩
  | newConnection | newConnectionOwn | removeConnectionInPool =>
    obtain ⟨-, -, -, rfl⟩ := hinv
    exact ⟨le_rfl, by simp⟩
  | sendPush t =>
    obtain ⟨data, len, call, -, rfl⟩ := hinv
    exact ⟨le_rfl, by simp⟩
  | shutdownTest t =>
    obtain ⟨-, -, rfl⟩ := hinv
    exact ⟨le_rfl, by simp⟩
  | shutdownSet | shutdownPush | shutdownOwn =>
    obtain ⟨-, rfl⟩ := hinv
    exact ⟨le_rfl, by simp⟩
  | destroyServer t =>
    obtain ⟨-, ⟨-, rfl⟩ | ⟨-, rfl⟩⟩ := hinv
    · exact ⟨le_rfl, by simp⟩
    · exact ⟨le_rfl, by simp⟩
  | destroyServerOwn =>
    obtain ⟨-, -, -, ⟨-, rfl⟩ | ⟨-, rfl⟩⟩ := hinv
    · exact ⟨le_rfl, by simp⟩
    · exact ⟨le_rfl, by simp⟩

/-- A send on another thread has seen `kConnected`, and has not run: it is to be queued, or it is in
the queue. -/
def Outstanding (s : ConnSystem C T) (data : Int) (len : Nat) (call : SendCall) : Prop :=
  (∃ t, s.user t = .sending data len call) ∨ .sendInLoop data len call ∈ s.uses

/-- **A send that is outstanding** was so before, or has just begun. -/
theorem outstanding_inv {a : ConnAction C T} {data : Int} {len : Nat} {call : SendCall}
    (hb : s.conn.sys.loop.pc ≠ .run → s.conn.sys.loop.functors = []) (h : s.step a = some s')
    (ho : s'.Outstanding data len call) :
    s.Outstanding data len call ∨ ∃ t payload, a = .sendTest t data payload ∧
      len = payload.length ∧ call = ⟨s.calls, payload⟩ := by
  rcases ho with ⟨t, hu⟩ | hmem
  · rcases sending_inv h hu with hu | ⟨payload, ha, hlen, hcall⟩
    · exact .inl (.inl ⟨t, hu⟩)
    · exact .inr ⟨t, payload, ha, hlen, hcall⟩
  · rcases mem_uses_of_step hb h hmem with hmem | hmem
    · exact .inl (.inr hmem)
    · obtain ⟨t, -, hu⟩ := mem_pushedUse hmem
      exact .inl (.inl ⟨t, hu⟩)

/-- **A send stays outstanding** until `sendInLoop` begins for it. -/
theorem outstanding_step {a : ConnAction C T} {data : Int} {len : Nat} {call : SendCall}
    (hb : s.conn.sys.loop.pc ≠ .run → s.conn.sys.loop.functors = []) (h : s.step a = some s')
    (ho : s.Outstanding data len call) :
    s'.Outstanding data len call ∨ .sendInLoop call ∈ s'.conn.log := by
  -- What is in the queue, or comes into it, is there afterwards or has been run.
  have hqueued : .sendInLoop data len call ∈ s.uses ++ s.pushedUse a →
      s'.Outstanding data len call ∨ .sendInLoop call ∈ s'.conn.log := by
    intro hmem
    rw [← step_uses hb h] at hmem
    rcases List.mem_append.1 hmem with htaken | hleft
    · cases a with
      | runFunctor e =>
        obtain ⟨-, -, f, rest, conn, hf, hrun, rfl⟩ := step_inv h
        rw [takenUse, hf] at htaken
        obtain rfl := List.mem_singleton.1 (List.mem_filter.1 htaken).1
        simp only [TcpConnection.callFunctor, Option.ite_none_right_eq_some,
          toOption_eq_some] at hrun
        obtain ⟨es, hes, -⟩ := TcpConnection.grows_sendInLoop hrun.2
        refine .inr ?_
        show _ ∈ conn.log
        rw [hes]
        exact List.mem_append_left _ (List.mem_append_right _ (List.mem_singleton_self _))
      | _ => cases htaken
    · exact .inl (.inr hleft)
  rcases ho with ⟨t, hu⟩ | hmem
  · rcases sending_step h hu with hu' | rfl
    · exact .inl (.inl ⟨t, hu'⟩)
    · refine hqueued (List.mem_append_right _ ?_)
      rw [pushedUse, hu]
      exact List.mem_singleton_self _
  · exact hqueued (List.mem_append_left _ hmem)

end Uses

end ConnSystem

end WebCore
