import WebCore.Owners

/-!
# Queued work and the user's pointers

`send` and `shutdown` queue a functor that is bound to `this`, and so does not keep the connection
alive. `PointerSystem` is a connection and its threads with every `TcpConnectionPtr` counted: those
of the server and of the queued functors (`owners` of the connection), those in the functors that
have been called, which the batch holds until it ends, and those of the user, which threads copy and
drop.

**Theorem (`queued_owned`).** In every run in which no thread drops the user's last pointer, and the
server is not destroyed on the connection's own loop while the user holds none, with a use of the
connection queued that no other owner outlives, every functor that is queued or being called has an
owner of its connection.

A use is outlived by the server's side, by a pointer in a later batch, and by a pointer in its own
batch. A pointer in an earlier batch is gone before it runs (`use_after_drop`).
-/

namespace WebCore

structure PointerSystem (C T : Type*) where
  sys : ConnSystem C T
  /-- The threads that hold a pointer of the user, once for each pointer; the loop's is `none`. -/
  holders : List (Option T)
  /-- the functors of the current batch that have been called -/
  called : List LoopFunctor
  /-- the functor that is being called -/
  running : Option LoopFunctor

inductive PointerAction (C T : Type*)
  | copy (t : Option T)
  | drop (t : Option T)
  /-- the functor that is being called returns -/
  | returns
  | act (a : ConnAction C T)

namespace PointerSystem

variable {C T : Type*}

/-! ## The model -/

def functors (s : PointerSystem C T) : List LoopFunctor := s.sys.conn.sys.loop.functors

def pendingFunctors (s : PointerSystem C T) : List LoopFunctor :=
  s.sys.conn.sys.loop.pendingFunctors

/-- The owners of the connection. -/
def owners (s : PointerSystem C T) : Nat :=
  s.sys.owners + s.called.countP LoopFunctor.holds + s.holders.length

/-- The thread is in user code. -/
def free (s : PointerSystem C T) : Option T → Bool
  | some t => s.sys.isFree t
  | none => s.sys.ownFree

/-- The loop thread is not in the middle of a use. -/
def betweenUses (s : PointerSystem C T) : Bool := s.running.all fun f => !f.isUse

def new (sys : ConnSystem C T) : PointerSystem C T := ⟨sys, [], [], none⟩

/-- The functors that have been called when an action has been taken. -/
def nextCalled (s : PointerSystem C T) : ConnAction C T → List LoopFunctor
  | .runFunctor _ => s.called ++ s.functors.head?.toList
  | .loop .endFunctors => []
  | _ => s.called

def nextRunning (s : PointerSystem C T) : ConnAction C T → Option LoopFunctor
  | .runFunctor _ => s.functors.head?
  | _ => s.running

section Step

variable [DecidableEq T]

/-- A thread calls a member function through a pointer that it holds, and user code of the loop
runs in callbacks. -/
def may (s : PointerSystem C T) : ConnAction C T → Bool
  | .sendTest t _ _ | .shutdownTest t => some t ∈ s.holders
  | .sendOwn _ _ _ | .shutdownOwn => 0 < s.owners ∧ s.betweenUses
  | .newConnectionOwn | .destroyServerOwn => s.betweenUses
  | .runFunctor _ | .loop .endFunctors => s.running = none
  | _ => true

variable [DecidableEq C]

def step (s : PointerSystem C T) : PointerAction C T → Option (PointerSystem C T)
  | .copy t =>
    if 0 < s.owners ∧ s.free t then some { s with holders := t :: s.holders } else none
  | .drop t =>
    if t ∈ s.holders ∧ s.free t then some { s with holders := s.holders.erase t } else none
  | .returns => if s.running ≠ none then some { s with running := none } else none
  | .act a =>
    if s.may a then
      (s.sys.step a).map fun sys =>
        { s with sys, called := s.nextCalled a, running := s.nextRunning a }
    else none

def run (s : PointerSystem C T) (as : List (PointerAction C T)) : Option (PointerSystem C T) :=
  Transition.run step s as

end Step

/-! ## Uses that nothing outlives -/

/-- A use of the connection is queued or being called, and no functor that holds a pointer is in
its batch or in a later one. -/
def Bare (s : PointerSystem C T) : Prop :=
  (∀ f ∈ s.pendingFunctors, f.holds = false) ∧
  ((∃ f ∈ s.pendingFunctors, f.isUse = true) ∨
    (∃ f ∈ s.running.toList ++ s.functors, f.isUse = true) ∧
      ∀ f ∈ s.functors ++ s.called, f.holds = false)

/-- No owner of the connection, the user aside, outlives a use of it. -/
def Exposed (s : PointerSystem C T) : Prop := s.sys.conn.serverOwners = 0 ∧ s.Bare

/-- The last pointer of the user is not dropped, and the server is not destroyed on the connection's
loop while the user holds none, when a use of the connection is left that nothing else outlives. -/
def Outlived (s : PointerSystem C T) : PointerAction C T → Prop
  | .drop _ => 1 < s.holders.length ∨ ¬ s.Exposed
  | .act .destroyServerOwn => s.sys.conn.server.inMap = false ∨ s.holders ≠ [] ∨ ¬ s.Bare
  | _ => True

instance (s : PointerSystem C T) : Decidable s.Bare := by unfold Bare; infer_instance

instance (s : PointerSystem C T) : Decidable s.Exposed := by unfold Exposed; infer_instance

instance (s : PointerSystem C T) : ∀ a, Decidable (s.Outlived a)
  | .drop _ => inferInstanceAs (Decidable (_ ∨ _))
  | .act .destroyServerOwn => inferInstanceAs (Decidable (_ ∨ _ ∨ _))
  | .copy _ | .returns | .act (.loop _) | .act (.handle _) | .act (.runFunctor _)
  | .act (.newConnection _) | .act .newConnectionOwn | .act (.sendTest _ _ _)
  | .act (.sendPush _) | .act (.shutdownTest _) | .act (.shutdownSet _)
  | .act (.shutdownPush _) | .act (.sendOwn _ _ _) | .act .shutdownOwn
  | .act (.removeConnectionInPool _) | .act (.destroyServer _) =>
    inferInstanceAs (Decidable True)

/-- The user holds a pointer while it calls a member function on another thread, and whenever a use
is left that nothing else outlives. -/
structure Covered (s : PointerSystem C T) : Prop where
  calling : ∀ t, s.sys.user t ≠ .idle → some t ∈ s.holders
  batch : s.sys.conn.sys.loop.pc ≠ .run → s.called = [] ∧ s.running = none
  running : ∀ f, s.running = some f → f ∈ s.called
  exposed : s.Exposed → s.holders ≠ []

/-- **Where every exposed use is covered, every functor has an owner.** -/
theorem Covered.owned {s : PointerSystem C T} (hc : Covered s) {f : LoopFunctor}
    (hf : f ∈ s.functors ++ s.pendingFunctors ∨ s.running = some f) (hne : f ≠ .other) :
    0 < s.owners := by
  have hqueue : ∀ g ∈ s.functors ++ s.pendingFunctors, g.holds = true → 0 < s.owners := by
    intro g hmem hg
    have : 0 < s.sys.conn.queue.countP LoopFunctor.holds := List.countP_pos_iff.2 ⟨g, hmem, hg⟩
    unfold owners ConnSystem.owners
    omega
  have hcalled : ∀ g ∈ s.called, g.holds = true → 0 < s.owners := by
    intro g hmem hg
    have : 0 < s.called.countP LoopFunctor.holds := List.countP_pos_iff.2 ⟨g, hmem, hg⟩
    unfold owners
    omega
  by_contra h0
  have hpending : ∀ g ∈ s.pendingFunctors, g.holds = false := by
    intro g hmem
    by_contra hg
    exact h0 (hqueue g (List.mem_append_right _ hmem) (by simpa using hg))
  have hbatch : ∀ g ∈ s.functors ++ s.called, g.holds = false := by
    intro g hmem
    by_contra hg
    rcases List.mem_append.1 hmem with hmem | hmem
    · exact h0 (hqueue g (List.mem_append_left _ hmem) (by simpa using hg))
    · exact h0 (hcalled g hmem (by simpa using hg))
  have huse : f.isUse = true := by
    have hholds : f.holds = false := by
      rcases hf with hmem | hrun
      · rcases List.mem_append.1 hmem with hmem | hmem
        · exact hbatch f (List.mem_append_left _ hmem)
        · exact hpending f hmem
      · exact hbatch f (List.mem_append_right _ (hc.running f hrun))
    cases f <;> simp_all [LoopFunctor.holds, LoopFunctor.isUse]
  have hbare : s.Bare := by
    refine ⟨hpending, ?_⟩
    rcases hf with hmem | hrun
    · rcases List.mem_append.1 hmem with hmem | hmem
      · exact .inr ⟨⟨f, List.mem_append_right _ hmem, huse⟩, hbatch⟩
      · exact .inl ⟨f, hmem, huse⟩
    · exact .inr ⟨⟨f, by simp [hrun], huse⟩, hbatch⟩
  have hserver : s.sys.conn.serverOwners = 0 := by
    unfold owners ConnSystem.owners at h0
    omega
  have hheld := List.length_pos_iff.2 (hc.exposed ⟨hserver, hbare⟩)
  unfold owners at h0
  omega

/-! ## Steps -/

/-- Functors that hold no use can only protect. -/
theorem Bare.of_pending {s' : PointerSystem C T} (s : PointerSystem C T) {fs : List LoopFunctor}
    (hb : s'.Bare) (hq : s'.pendingFunctors = s.pendingFunctors ++ fs)
    (hfs : ∀ f ∈ fs, f.isUse = false) (hf : s'.functors = s.functors)
    (hcalled : s'.called = s.called) (hrunning : s'.running = s.running) :
    s.Bare ∧ ∀ f ∈ fs, f.holds = false := by
  obtain ⟨hholds, huse⟩ := hb
  rw [hq] at hholds huse
  rw [hf, hcalled, hrunning] at huse
  refine ⟨⟨fun f hmem => hholds f (List.mem_append_left _ hmem), huse.imp_left ?_⟩,
    fun f hmem => hholds f (List.mem_append_right _ hmem)⟩
  rintro ⟨f, hmem, hf⟩
  refine ⟨f, (List.mem_append.1 hmem).resolve_right fun hmem => ?_, hf⟩
  rw [hfs f hmem] at hf
  cases hf

/-- **A step that hands over.** -/
theorem Covered.of_handsOver {s : PointerSystem C T} {r : ConnSystem C T}
    {l : List LoopFunctor} (hc : Covered s)
    (h : TcpConnection.HandsOver s.sys.conn r.conn l)
    (hu : ∀ t, r.user t ≠ .idle → some t ∈ s.holders) : Covered { s with sys := r } := by
  refine ⟨hu, ?_, hc.running, fun hexp => ?_⟩
  · show r.conn.sys.loop.pc ≠ .run → _
    rw [h.frame.pc]
    exact hc.batch
  · obtain ⟨hserver, hbare⟩ := hexp
    obtain ⟨hbare, hnone⟩ := hbare.of_pending s h.frame.pendingFunctors h.unused
      h.frame.functors rfl rfl
    refine hc.exposed ⟨(h.owned hserver).resolve_right ?_, hbare⟩
    rintro ⟨f, hmem, hf⟩
    rw [hnone f hmem] at hf
    cases hf

theorem covered_new (lsys : LoopSystem LoopFunctor C T) (channel : C)
    (sameLoop writeComplete highWater : Bool) (hidle : lsys.loop.pendingFunctors = [])
    (hnone : lsys.loop.functors = []) :
    Covered (new (.new lsys channel sameLoop writeComplete highWater)) := by
  refine ⟨fun t hne => absurd rfl hne, fun _ => ⟨rfl, rfl⟩, by simp [new], fun hexp => ?_⟩
  rcases hexp.2.2 with ⟨f, hmem, -⟩ | ⟨⟨f, hmem, -⟩, -⟩
  · have hmem : f ∈ lsys.loop.pendingFunctors := hmem
    rw [hidle] at hmem
    cases hmem
  · have hmem : f ∈ lsys.loop.functors := hmem
    rw [hnone] at hmem
    cases hmem

/-- The next functor is taken out of the batch. -/
theorem Covered.took {s : PointerSystem C T} {f : LoopFunctor} {rest : List LoopFunctor}
    (hc : Covered s) (hpc : s.sys.conn.sys.loop.pc = .run) (hf : s.functors = f :: rest)
    (hrunning : s.running = none) :
    Covered { s with sys := { s.sys with conn := s.sys.took f rest }
                     called := s.called ++ [f], running := some f } := by
  refine ⟨hc.calling, fun hne => absurd hpc hne, ?_, fun hexp => ?_⟩
  · intro g hg
    obtain rfl := Option.some.inj hg
    exact List.mem_append_right _ (List.mem_singleton_self _)
  · obtain ⟨hserver, hnone, hbare⟩ := hexp
    refine hc.exposed ⟨hserver, hnone, hbare.imp_right ?_⟩
    rintro ⟨⟨g, hmem, hg⟩, hheld⟩
    refine ⟨⟨g, ?_, hg⟩, fun k hk => hheld k ?_⟩
    · rw [hrunning, hf]
      exact hmem
    · rw [hf] at hk
      show k ∈ rest ++ (s.called ++ [f])
      simp only [List.cons_append, List.mem_cons, List.mem_append, List.not_mem_nil] at hk ⊢
      tauto

section Steps

variable [DecidableEq T]

/-- A pointer is dropped. -/
theorem Covered.drop {s : PointerSystem C T} {t : Option T} (hc : Covered s)
    (hfree : s.free t = true) (hok : 1 < s.holders.length ∨ ¬ s.Exposed) (hmem : t ∈ s.holders) :
    Covered { s with holders := s.holders.erase t } := by
  refine ⟨fun t' hne => ?_, hc.batch, hc.running, fun hexp => ?_⟩
  · have hother : some t' ≠ t := by
      rintro rfl
      have hidle : s.sys.isFree t' = true := hfree
      simp only [ConnSystem.isFree, decide_eq_true_eq] at hidle
      exact hne hidle.1
    exact (List.mem_erase_of_ne hother).2 (hc.calling t' hne)
  · have hmany := hok.resolve_right fun hno => hno hexp
    have hlen := List.length_erase_of_mem hmem
    have hpos : 0 < (s.holders.erase t).length := by omega
    exact List.length_pos_iff.1 hpos

variable [DecidableEq C] {s : PointerSystem C T}

theorem Covered.loop {a : LoopAction LoopFunctor C T} {sys : LoopSystem LoopFunctor C T}
    (hc : Covered s) (hmay : s.may (.loop a) = true) (hp : s.sys.passes a = true)
    (h : s.sys.conn.sys.step a = some sys) :
    Covered { s with
      sys := { s.sys with conn := s.sys.conn.setSys sys, handling := s.sys.nextHandling a }
      called := s.nextCalled (.loop a), running := s.nextRunning (.loop a) } := by
  have hother : ∀ f ∈ LoopSystem.pushes a, f.isUse = false := fun f hmem => by
    rw [ConnSystem.pushes_other hp hmem]; rfl
  -- A step that neither begins nor ends a batch.
  have hkeep : s.nextCalled (.loop a) = s.called → sys.loop.functors = s.functors →
      sys.loop.pendingFunctors = s.pendingFunctors ++ LoopSystem.pushes a →
      (sys.loop.pc ≠ .run → s.sys.conn.sys.loop.pc ≠ .run) →
      Covered { s with
        sys := { s.sys with conn := s.sys.conn.setSys sys, handling := s.sys.nextHandling a }
        called := s.nextCalled (.loop a), running := s.nextRunning (.loop a) } := by
    intro hcalled hf hq hpc
    refine ⟨hc.calling, fun hne => ?_, fun f hf => ?_, fun hexp => ?_⟩
    · rw [hcalled]
      exact hc.batch (hpc hne)
    · rw [hcalled]
      exact hc.running f hf
    · exact hc.exposed ⟨hexp.1, (hexp.2.of_pending s hq hother hf hcalled rfl).1⟩
  have hinv := LoopSystem.step_inv h
  cases a with
  | swapFunctors =>
    obtain ⟨hpc, -, rfl⟩ := hinv
    have hidle := hc.batch (by simp [hpc])
    refine ⟨hc.calling, fun hne => absurd rfl hne, hc.running, fun hexp => ?_⟩
    obtain ⟨hserver, -, hbare⟩ := hexp
    rcases hbare with ⟨f, hmem, -⟩ | ⟨⟨f, hmem, hf⟩, hnone⟩
    · cases hmem
    · refine hc.exposed ⟨hserver, fun g hmem => hnone g (List.mem_append_left _ hmem), .inl ?_⟩
      refine ⟨f, (List.mem_append.1 hmem).resolve_left ?_, hf⟩
      show f ∉ s.running.toList
      simp [hidle.2]
  | endFunctors =>
    obtain ⟨-, -, hnil, rfl⟩ := hinv
    have hrunning : s.running = none := by simpa [may] using hmay
    refine ⟨hc.calling, fun _ => ⟨rfl, hrunning⟩, ?_, fun hexp => ?_⟩
    · intro f hf
      exact absurd (hrunning.symm.trans hf) (by simp)
    · obtain ⟨hserver, hnone, hbare⟩ := hexp
      refine hc.exposed ⟨hserver, hnone, .inl (hbare.resolve_right ?_)⟩
      rintro ⟨⟨f, hmem, -⟩, -⟩
      have hmem : f ∈ s.running.toList ++ s.functors := hmem
      rw [hrunning, functors, hnil] at hmem
      cases hmem
  | runFunctor => simp [ConnSystem.passes] at hp
  | enter =>
    obtain ⟨hpc, -, rfl⟩ := hinv
    exact hkeep rfl rfl (List.append_nil _).symm fun _ => by simp [hpc]
  | test =>
    obtain ⟨hpc, -, rfl⟩ := hinv
    exact hkeep rfl rfl (List.append_nil _).symm fun _ => by simp [hpc]
  | pollReturn active =>
    obtain ⟨hpc, -, -, -, rfl⟩ := hinv
    exact hkeep rfl rfl (List.append_nil _).symm fun _ => by simp [hpc]
  | dispatch =>
    obtain ⟨-, -, c, rest, -, rfl⟩ := hinv
    exact hkeep rfl rfl (List.append_nil _).symm id
  | startFunctors =>
    obtain ⟨hpc, -, -, rfl⟩ := hinv
    exact hkeep rfl rfl (List.append_nil _).symm fun _ => by simp [hpc]
  | channelOp =>
    obtain ⟨-, -, -, rfl⟩ := hinv
    exact hkeep rfl rfl (List.append_nil _).symm id
  | push t f =>
    obtain ⟨-, rfl⟩ := hinv
    exact hkeep rfl rfl rfl id
  | pushOwn f =>
    obtain ⟨-, -, rfl⟩ := hinv
    exact hkeep rfl rfl rfl id
  | quitOwn =>
    obtain ⟨-, -, rfl⟩ := hinv
    exact hkeep rfl rfl (List.append_nil _).symm id
  | quit | wakeup | wakeupOwn =>
    obtain ⟨-, rfl⟩ := hinv
    exact hkeep rfl rfl (List.append_nil _).symm id

/-- A step of the connection and its threads. -/
theorem Covered.act {a : ConnAction C T} {sys : ConnSystem C T} (hc : Covered s)
    (hok : s.Outlived (.act a)) (hmay : s.may a = true) (h : s.sys.step a = some sys) :
    Covered { s with sys, called := s.nextCalled a, running := s.nextRunning a } := by
  have hinv := ConnSystem.step_inv h
  -- What a thread's program counter says when only its own changes.
  have huser : ∀ {r : ConnSystem C T} {t : T} {pc : UserPc}, r.user = s.sys.user →
      (pc ≠ .idle → some t ∈ s.holders) → ∀ t', (r.setUser t pc).user t' ≠ .idle →
        some t' ∈ s.holders := by
    intro r t pc hsame hpc t' hne
    by_cases ht : t' = t
    · rw [ht] at hne ⊢
      exact hpc (by simpa [ConnSystem.setUser] using hne)
    · refine hc.calling t' ?_
      simpa [ConnSystem.setUser, Function.update_of_ne ht, hsame] using hne
  cases a with
  | loop a =>
    obtain ⟨hp, lsys, hsys, rfl⟩ := hinv
    exact hc.loop hmay hp hsys
  | handle e =>
    obtain ⟨-, -, k, rest, conn, -, hrun, rfl⟩ := hinv
    obtain ⟨fs, hands⟩ := TcpConnection.handsOver_runHandler hrun
    exact hc.of_handsOver (r := { s.sys with conn, handling := rest }) hands hc.calling
  | runFunctor e =>
    obtain ⟨hpc, -, f, rest, conn, hf, hrun, rfl⟩ := hinv
    have hhead : s.functors = f :: rest := hf
    have hrunning : s.running = none := by simpa [may] using hmay
    obtain ⟨fs, hands⟩ := TcpConnection.handsOver_callFunctor hrun
    have htook := (hc.took hpc hhead hrunning).of_handsOver (r := { s.sys with conn }) hands
      hc.calling
    simpa only [nextCalled, nextRunning, hhead, List.head?_cons, Option.toList_some] using htook
  | newConnection t =>
    obtain ⟨-, -, -, rfl⟩ := hinv
    exact hc.of_handsOver (ConnSystem.handsOver_pushed t rfl rfl fun _ => .inr rfl) hc.calling
  | newConnectionOwn =>
    obtain ⟨-, ha, -, rfl⟩ := hinv
    have hq := TcpConnection.quiet_connectEstablished s.sys.listed
    obtain ⟨fs, hands⟩ := TcpConnection.handsOver_quiet hq
    have hnot : s.sys.listed.connectEstablished.serverOwners ≠ 0 := by
      rw [TcpConnection.serverOwners, hq.server]
      simp [ConnSystem.listed, TcpConnection.setServer, ha]
    refine hc.of_handsOver (l := fs) ⟨?_, hands.unused, fun h0 => absurd h0 hnot⟩ hc.calling
    exact hands.frame
  | sendTest t data payload =>
    obtain ⟨-, -, -, rfl⟩ := hinv
    have hheld : some t ∈ s.holders := by simpa [may] using hmay
    obtain ⟨fs, hands⟩ := TcpConnection.handsOver_quiet
      (TcpConnection.quiet_note (e := .send ⟨s.sys.calls, payload⟩) rfl s.sys.conn)
    exact hc.of_handsOver hands (huser rfl fun _ => hheld)
  | sendPush t =>
    obtain ⟨data, len, call, hu, rfl⟩ := hinv
    have hheld : some t ∈ s.holders := hc.calling t (by simp [hu])
    refine ⟨huser (r := s.sys) rfl fun _ => hheld, hc.batch, hc.running, fun _ hnil => ?_⟩
    have hheld : some t ∈ ([] : List (Option T)) := hnil ▸ hheld
    cases hheld
  | shutdownTest t =>
    obtain ⟨-, -, rfl⟩ := hinv
    have hheld : some t ∈ s.holders := by simpa [may] using hmay
    obtain ⟨fs, hands⟩ := TcpConnection.handsOver_quiet (.refl s.sys.conn)
    exact hc.of_handsOver hands (huser rfl fun _ => hheld)
  | shutdownSet t =>
    obtain ⟨hu, rfl⟩ := hinv
    have hheld : some t ∈ s.holders := hc.calling t (by simp [hu])
    obtain ⟨fs, hands⟩ := TcpConnection.handsOver_quiet
      (TcpConnection.quiet_setState .kDisconnected s.sys.conn)
    exact hc.of_handsOver hands (huser rfl fun _ => hheld)
  | shutdownPush t =>
    obtain ⟨hu, rfl⟩ := hinv
    have hheld : some t ∈ s.holders := hc.calling t (by simp [hu])
    refine ⟨huser (r := s.sys) rfl fun _ => hheld, hc.batch, hc.running, fun _ hnil => ?_⟩
    have hheld : some t ∈ ([] : List (Option T)) := hnil ▸ hheld
    cases hheld
  | sendOwn data payload e =>
    obtain ⟨-, -, -, -, conn, hsend, rfl⟩ := hinv
    obtain ⟨fs, hands⟩ := TcpConnection.handsOver_quiet (TcpConnection.plain_send hsend).toQuiet
    exact hc.of_handsOver (r := { s.sys with conn, calls := s.sys.calls + 1 }) hands hc.calling
  | shutdownOwn =>
    obtain ⟨-, rfl⟩ := hinv
    obtain ⟨fs, hands⟩ := TcpConnection.handsOver_quiet
      (TcpConnection.quiet_shutdown s.sys.conn)
    exact hc.of_handsOver (r := { s.sys with conn := s.sys.conn.shutdown }) hands hc.calling
  | removeConnectionInPool t =>
    obtain ⟨-, -, -, rfl⟩ := hinv
    exact hc.of_handsOver (ConnSystem.handsOver_pushed t rfl rfl fun _ => .inr rfl) hc.calling
  | destroyServer t =>
    obtain ⟨-, ⟨-, rfl⟩ | ⟨hm, rfl⟩⟩ := hinv
    · exact hc.of_handsOver (ConnSystem.handsOver_pushed t rfl rfl fun _ => .inr rfl) hc.calling
    · exact hc.of_handsOver (r := { s.sys with conn := s.sys.orphaned })
        ⟨.refl _, by simp, fun h0 => .inl (ConnSystem.serverOwners_orphaned hm ▸ h0)⟩ hc.calling
  | destroyServerOwn =>
    obtain ⟨-, -, -, ⟨hm, rfl⟩ | ⟨hm, rfl⟩⟩ := hinv
    · have hf := TcpConnection.frame_connectDestroyed (s.sys.orphaned.note .destroyRequest)
      refine ⟨hc.calling, ?_, hc.running, fun hexp => ?_⟩
      · show (s.sys.orphaned.note .destroyRequest).connectDestroyed.sys.loop.pc ≠ .run → _
        rw [hf.pc]
        exact hc.batch
      · have hbare := (hexp.2.of_pending s hf.pendingFunctors (by simp) hf.functors rfl rfl).1
        rcases hok with hno | hheld | hno
        · exact absurd (hm.symm.trans hno) (by simp)
        · exact hheld
        · exact absurd hbare hno
    · exact hc.of_handsOver (r := { s.sys with conn := s.sys.orphaned })
        ⟨.refl _, by simp, fun h0 => .inl (ConnSystem.serverOwners_orphaned hm ▸ h0)⟩ hc.calling

/-- **Every outlived step keeps the exposed uses covered.** -/
theorem Covered.step {s' : PointerSystem C T} {a : PointerAction C T} (hc : Covered s)
    (hok : s.Outlived a) (h : s.step a = some s') : Covered s' := by
  cases a with
  | copy t =>
    simp only [PointerSystem.step, Option.ite_none_right_eq_some, Option.some.injEq] at h
    obtain ⟨-, rfl⟩ := h
    exact ⟨fun t' hne => List.mem_cons_of_mem t (hc.calling t' hne), hc.batch, hc.running,
      fun _ => List.cons_ne_nil t s.holders⟩
  | drop t =>
    simp only [PointerSystem.step, Option.ite_none_right_eq_some, Option.some.injEq] at h
    obtain ⟨⟨hmem, hfree⟩, rfl⟩ := h
    exact hc.drop hfree hok hmem
  | returns =>
    simp only [PointerSystem.step, Option.ite_none_right_eq_some, Option.some.injEq] at h
    obtain ⟨-, rfl⟩ := h
    refine ⟨hc.calling, fun hpc => ⟨(hc.batch hpc).1, rfl⟩, by simp, fun hexp => hc.exposed ?_⟩
    obtain ⟨hserver, hnone, hbare⟩ := hexp
    refine ⟨hserver, hnone, hbare.imp_right (And.imp_left ?_)⟩
    rintro ⟨f, hmem, hf⟩
    exact ⟨f, List.mem_append_right _ hmem, hf⟩
  | act a =>
    simp only [PointerSystem.step, Option.ite_none_right_eq_some, Option.map_eq_some_iff] at h
    obtain ⟨hmay, sys, hsys, rfl⟩ := h
    exact hc.act hok hmay hsys

/-- **Every functor has an owner of its connection**, in every run in which the user's last pointer
is not dropped, and the server is not destroyed on the connection's loop while the user holds none,
with a use of the connection left that nothing else outlives. -/
theorem queued_owned (fd : C → Int) (wakeupChannel channel : C)
    (sameLoop writeComplete highWater : Bool) (as : List (PointerAction C T))
    (s : PointerSystem C T)
    (hok : Transition.Meets step Outlived
      (new (.new (.new fd wakeupChannel) channel sameLoop writeComplete highWater)) as)
    (h : (new (.new (.new fd wakeupChannel) channel sameLoop writeComplete highWater)).run as =
      some s) :
    ∀ f, f ∈ s.functors ++ s.pendingFunctors ∨ s.running = some f → f ≠ .other → 0 < s.owners := by
  intro f hf hne
  have hc : Covered s := hok.invariant Covered (fun _ _ _ hc hok h => hc.step hok h)
    (covered_new _ channel sameLoop writeComplete highWater rfl rfl) h
  exact hc.owned hf hne

end Steps

/-! ## One connection and one thread -/

/-- The thread gets a pointer and begins a send; the peer closes, the connection is destroyed, and
the thread queues its functor. -/
def lateSend : List (PointerAction Bool Unit) :=
  [.act .newConnectionOwn, .copy (some ()), .act (.loop .enter), .act (.sendTest () 0 [0, 0]),
    .act (.loop .test), .act (.loop (.pollReturn [(true, EPOLLIN)])), .act (.loop .dispatch),
    .act (.handle (ConnSystem.answers 0 (.received []))), .act (.loop .startFunctors),
    .act (.loop .swapFunctors), .act (.runFunctor (ConnSystem.answers 0 (.failed 0))), .returns,
    .act (.sendPush ()), .act (.loop (.wakeup ())), .act (.loop .endFunctors)]

/-- The thread copies its pointer before it drops it. -/
def shared : List (PointerAction Bool Unit) :=
  lateSend ++ [.copy (some ()), .drop (some ())]

theorem outlived_shared :
    Transition.Meets step Outlived (new (ConnSystem.sampleSystem true)) shared := by
  decide +kernel

theorem owned_shared :
    ((run (new (ConnSystem.sampleSystem true)) shared).map fun s => s.pendingFunctors) =
      some [.sendInLoop 0 2 ⟨0, [0, 0]⟩] ∧
    ∀ s, run (new (ConnSystem.sampleSystem true)) shared = some s →
      ∀ f, f ∈ s.functors ++ s.pendingFunctors ∨ s.running = some f → f ≠ .other →
        0 < s.owners :=
  ⟨by decide +kernel, fun s h => queued_owned ConnSystem.sampleFd false true true false false
    shared s outlived_shared h⟩

/-- The thread drops its pointer at once: the functor is left without an owner. -/
theorem use_after_drop :
    (run (new (ConnSystem.sampleSystem true)) (lateSend ++ [.drop (some ())])).map
      (fun s => (s.pendingFunctors, s.owners)) =
    some ([.sendInLoop 0 2 ⟨0, [0, 0]⟩], 0) := by
  decide +kernel

end PointerSystem

end WebCore
