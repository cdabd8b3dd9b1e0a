import WebCore.ConnQueue

/-!
# The bytes of a queued send

On another thread, `send` binds `buf.c_str()` and `buf.size()` into the functor that it queues: the
functor refers to the caller's storage. `SharedSystem` is a connection and its threads with the
storage that they share, in which any thread may store bytes, or free some, at any time. What a
caller does with its string after `send` has returned, to modify it, to free it or to use it again,
is a sequence of such actions.

An address stands for a byte of one allocation. When the allocation is freed, the byte is gone: the
storage may be unmapped, or belong to something else, and whoever reads there reads anything.

**Theorem (`received_iff`).** `sendInLoop` receives the bytes that the string had when `send` was
called, and so sends what a send on the loop's own thread would have sent, iff no byte of the string
is freed in between, and the last store to each of them, where there is one, has stored the byte
that was there.
-/

namespace WebCore

/-- The storage that the threads share. What has been freed has no bytes. -/
abbrev Storage := Int → Option UInt8

namespace Storage

/-- What the program reads. At an address that has been freed it is whatever is there. -/
def read (m : Storage) (junk : Memory) : Memory := fun addr => (m addr).getD (junk addr)

def store (addr : Int) (byte : UInt8) (m : Storage) : Storage := Function.update m addr (some byte)

def free (data : Int) (len : Nat) (m : Storage) : Storage :=
  fun addr => if data ≤ addr ∧ addr < data + len then none else m addr

@[simp] theorem store_self (addr : Int) (byte : UInt8) (m : Storage) :
    m.store addr byte addr = some byte :=
  Function.update_self ..

theorem store_of_ne {addr b : Int} (h : addr ≠ b) (byte : UInt8) (m : Storage) :
    m.store b byte addr = m addr :=
  Function.update_of_ne h ..

theorem free_of_mem {addr data : Int} {len : Nat} (h : data ≤ addr ∧ addr < data + len)
    (m : Storage) : m.free data len addr = none :=
  if_pos h

theorem free_of_notMem {addr data : Int} {len : Nat} (h : ¬(data ≤ addr ∧ addr < data + len))
    (m : Storage) : m.free data len addr = m addr :=
  if_neg h

/-- The bytes at `data` are there, and they are `bytes`. -/
def Holds (m : Storage) (data : Int) (bytes : List UInt8) : Prop :=
  ∀ i < bytes.length, m (data + i) = bytes[i]?

instance (m : Storage) (data : Int) (bytes : List UInt8) : Decidable (m.Holds data bytes) := by
  unfold Holds; infer_instance

theorem readBytes_read {m : Storage} {data : Int} {bytes : List UInt8} (h : m.Holds data bytes)
    (junk : Memory) : readBytes (m.read junk) data bytes.length = bytes := by
  refine List.ext_getElem (length_readBytes ..) fun i _ hi => ?_
  simp [readBytes, read, h i hi, hi]

end Storage

structure SharedSystem (C T : Type*) where
  sys : ConnSystem C T
  storage : Storage

inductive SharedAction (C T : Type*)
  | store (addr : Int) (byte : UInt8)
  /-- the `len` bytes at `data` are given back -/
  | free (data : Int) (len : Nat)
  | act (a : ConnAction C T)

/-- The action frees the byte at `addr`. -/
def SharedAction.frees {C T : Type*} (addr : Int) : SharedAction C T → Bool
  | .free data len => data ≤ addr ∧ addr < data + len
  | _ => false

namespace ConnAction

variable {C T : Type*}

/-- A call of `send` is on a string that is there: `payload`, at `data`. -/
def OnString (m : Storage) : ConnAction C T → Prop
  | .sendTest _ data payload | .sendOwn data payload _ => m.Holds data payload
  | _ => True

instance (m : Storage) : ∀ a : ConnAction C T, Decidable (a.OnString m)
  | .sendTest _ data payload | .sendOwn data payload _ =>
    inferInstanceAs (Decidable (m.Holds data payload))
  | .loop _ | .handle _ | .runFunctor _ | .newConnection _ | .newConnectionOwn | .sendPush _
  | .shutdownTest _ | .shutdownSet _ | .shutdownPush _ | .shutdownOwn | .removeConnectionInPool _
  | .destroyServer _ | .destroyServerOwn => inferInstanceAs (Decidable True)

/-- The action, with what it reads taken from the storage. -/
def reading (m : Storage) : ConnAction C T → ConnAction C T
  | .sendOwn data payload e => .sendOwn data payload { e with mem := m.read e.mem }
  | .handle e => .handle { e with mem := m.read e.mem }
  | .runFunctor e => .runFunctor { e with mem := m.read e.mem }
  | a => a

end ConnAction

/-! ## What a send reads -/

theorem readBytes_eq_iff {mem mem' : Memory} {data : Int} {len : Nat} :
    readBytes mem data len = readBytes mem' data len ↔
      ∀ i < len, mem (data + i) = mem' (data + i) := by
  simp [readBytes]

namespace TcpConnection

variable {C T : Type*} [DecidableEq C] {c : TcpConnection C T}

/-- `sendInLoop` reads its payload only: the direct `write` has not failed, and with output pending
the unassigned `nwrote` is zero. -/
def staysWithin (len : Nat) (nwrote : Int) (r : WriteResult) (c : TcpConnection C T) : Prop :=
  if c.writesDirectly then 0 ≤ r.ret ∧ r.ret ≤ len else nwrote = 0

theorem bufferRest_congr {mem mem' : Memory} {rest : Int} {n : Nat}
    (h : readBytes mem rest n = readBytes mem' rest n) (c : TcpConnection C T) :
    c.bufferRest mem rest n = c.bufferRest mem' rest n := by
  unfold bufferRest
  rw [h]

/-- **A send depends on its payload only.** -/
theorem sendInLoop_congr {mem mem' : Memory} {data : Int} {len : Nat} {nwrote : Int}
    {r : WriteResult} (h : readBytes mem data len = readBytes mem' data len)
    (hw : c.staysWithin len nwrote r) :
    c.sendInLoop mem data len nwrote r = c.sendInLoop mem' data len nwrote r := by
  have hbyte := readBytes_eq_iff.1 h
  unfold staysWithin at hw
  by_cases hd : c.writesDirectly
  · rw [if_pos hd] at hw
    obtain ⟨n, hn⟩ := Int.eq_ofNat_of_zero_le hw.1
    have hrest : readBytes mem (data + r.ret) (toSize (len - r.ret)) =
        readBytes mem' (data + r.ret) (toSize (len - r.ret)) := by
      refine readBytes_eq_iff.2 fun i hi => ?_
      have hle : n + i < len := by
        unfold toSize at hi
        omega
      rw [hn, Int.add_assoc]
      exact_mod_cast hbyte (n + i) hle
    unfold sendInLoop
    rw [if_pos hd, if_pos hd, h]
    simp only [bufferRest_congr hrest, bufferRest_congr h]
  · rw [if_neg hd] at hw
    unfold sendInLoop
    rw [if_neg hd, if_neg hd, hw, Int.add_zero, bufferRest_congr h]

end TcpConnection

namespace ConnSystem

variable {C T : Type*}

/-! ## The number of a send -/

/-- The outstanding sends have the numbers that have been given out. -/
structure Numbered (s : ConnSystem C T) : Prop where
  life : s.Unborn ∨ s.Born
  lt : ∀ data len call, s.Outstanding data len call → call.id < s.calls

/-- The send with the number `k`, where it is outstanding, is of `len` bytes at `data`. -/
structure Bound (k : Nat) (data : Int) (len : Nat) (s : ConnSystem C T) : Prop where
  life : s.Unborn ∨ s.Born
  given : k < s.calls
  eq : ∀ data' len' call, s.Outstanding data' len' call → call.id = k → data' = data ∧ len' = len

variable [DecidableEq C]

theorem numbered_new {fd : C → Int} (hfd : Function.Injective fd) {wakeupChannel channel : C}
    (hne : channel ≠ wakeupChannel) (sameLoop writeComplete highWater : Bool) :
    Numbered (.new (.new fd wakeupChannel) channel sameLoop writeComplete highWater :
      ConnSystem C T) := by
  have hu := unborn_new (T := T) hfd hne sameLoop writeComplete highWater
  refine ⟨.inl hu, fun data len call ho => ?_⟩
  rcases ho with ⟨t, ht⟩ | hmem
  · cases ht
  · cases hmem

variable [DecidableEq T]

theorem Numbered.step {s s' : ConnSystem C T} {a : ConnAction C T} (hn : Numbered s)
    (h : s.step a = some s') : Numbered s' := by
  obtain ⟨hle, hsucc⟩ := calls_step h
  refine ⟨unborn_or_born hn.life h, fun data len call ho => ?_⟩
  rcases outstanding_inv (batch_of_life hn.life) h ho with
    ho | ⟨t, payload, ha, -, rfl⟩
  · exact (hn.lt data len call ho).trans_le hle
  · rw [hsucc t data payload ha]
    exact Nat.lt_succ_self _

theorem Bound.step {s s' : ConnSystem C T} {k : Nat} {data : Int} {len : Nat}
    {a : ConnAction C T} (hb : Bound k data len s) (h : s.step a = some s') :
    Bound k data len s' := by
  obtain ⟨hle, -⟩ := calls_step h
  refine ⟨unborn_or_born hb.life h, hb.given.trans_le hle,
    fun data' len' call ho hid => ?_⟩
  rcases outstanding_inv (batch_of_life hb.life) h ho with
    ho | ⟨t, payload, -, -, rfl⟩
  · exact hb.eq data' len' call ho hid
  · have hid : s.calls = k := hid
    exact absurd hid hb.given.ne'

/-- The send that begins gets a number that no outstanding one has. -/
theorem bound_sendTest {s s' : ConnSystem C T} {t : T} {data : Int} {payload : List UInt8}
    (hn : Numbered s) (h : s.step (.sendTest t data payload) = some s') :
    Bound s.calls data payload.length s' := by
  obtain ⟨-, hsucc⟩ := calls_step h
  refine ⟨unborn_or_born hn.life h, ?_, fun data' len call ho hid => ?_⟩
  · rw [hsucc t data payload rfl]
    exact Nat.lt_succ_self _
  · rcases outstanding_inv (batch_of_life hn.life) h ho with
      ho | ⟨t', payload', ha, rfl, -⟩
    · have := hn.lt data' len call ho
      omega
    · obtain ⟨-, rfl, rfl⟩ := ConnAction.sendTest.inj ha
      exact ⟨rfl, rfl⟩

end ConnSystem

namespace SharedSystem

variable {C T : Type*}

/-- The last byte that a run stores at an address. -/
def lastStore (addr : Int) : List (SharedAction C T) → Option UInt8
  | [] => none
  | .store a byte :: as => (lastStore addr as).or (if a = addr then some byte else none)
  | .free _ _ :: as | .act _ :: as => lastStore addr as

/-- No byte of the payload is freed, and whatever is stored to it is what was there. -/
def Kept (data : Int) (payload : List UInt8) (as : List (SharedAction C T)) : Prop :=
  ∀ i < payload.length, (∀ a ∈ as, a.frees (data + i) = false) ∧
    ∀ byte ∈ lastStore (data + i) as, payload[i]? = some byte

instance (data : Int) (payload : List UInt8) (as : List (SharedAction C T)) :
    Decidable (Kept data payload as) := by
  unfold Kept; infer_instance

variable [DecidableEq C] [DecidableEq T]

/-- Nobody stores to what has been freed, nor calls `send` on it. -/
def step (s : SharedSystem C T) : SharedAction C T → Option (SharedSystem C T)
  | .store addr byte =>
    if (s.storage addr).isSome then some { s with storage := s.storage.store addr byte } else none
  | .free data len => some { s with storage := s.storage.free data len }
  | .act a =>
    if a.OnString s.storage then
      (s.sys.step (a.reading s.storage)).map fun sys => { s with sys }
    else none

def run (s : SharedSystem C T) (as : List (SharedAction C T)) : Option (SharedSystem C T) :=
  Transition.run step s as

theorem step_act_inv {s s' : SharedSystem C T} {a : ConnAction C T}
    (h : s.step (.act a) = some s') :
    a.OnString s.storage ∧ ∃ sys, s.sys.step (a.reading s.storage) = some sys ∧
      s' = { s with sys } := by
  simp only [step, Option.ite_none_right_eq_some, Option.map_eq_some_iff] at h
  obtain ⟨hstring, sys, hsys, rfl⟩ := h
  exact ⟨hstring, sys, hsys, rfl⟩

theorem step_store_inv {s s' : SharedSystem C T} {addr : Int} {byte : UInt8}
    (h : s.step (.store addr byte) = some s') :
    (s.storage addr).isSome = true ∧ s' = { s with storage := s.storage.store addr byte } := by
  simp only [step, Option.ite_none_right_eq_some, Option.some.injEq] at h
  exact ⟨h.1, h.2.symm⟩

/-! ## The storage -/

/-- What has been freed stays so. -/
theorem gone_step {s s' : SharedSystem C T} {a : SharedAction C T} {addr : Int}
    (hgone : s.storage addr = none) (h : s.step a = some s') : s'.storage addr = none := by
  cases a with
  | store b byte =>
    obtain ⟨hsome, rfl⟩ := step_store_inv h
    have hne : addr ≠ b := by
      rintro rfl
      simp [hgone] at hsome
    exact (Storage.store_of_ne hne byte s.storage).trans hgone
  | free data len =>
    obtain rfl := Option.some.inj h
    by_cases hin : data ≤ addr ∧ addr < data + len
    · exact Storage.free_of_mem hin s.storage
    · exact (Storage.free_of_notMem hin s.storage).trans hgone
  | act a =>
    obtain ⟨-, sys, -, rfl⟩ := step_act_inv h
    exact hgone

/-- A run leaves nothing where it frees. -/
theorem storage_freed {s s' : SharedSystem C T} {as : List (SharedAction C T)} {addr : Int}
    (h : s.run as = some s') (hfreed : ∃ a ∈ as, a.frees addr = true) :
    s'.storage addr = none := by
  obtain ⟨a, ha, hfrees⟩ := hfreed
  obtain ⟨before, after, rfl⟩ := List.append_of_mem ha
  obtain ⟨t, -, hrun⟩ := Transition.run_append.1 h
  obtain ⟨u, hu, hrest⟩ := Transition.run_cons.1 hrun
  refine Transition.run_invariant (fun s : SharedSystem C T => s.storage addr = none)
    (fun _ _ _ hs => gone_step hs) ?_ hrest
  cases a with
  | free data len =>
    obtain rfl := Option.some.inj hu
    exact Storage.free_of_mem (of_decide_eq_true hfrees) t.storage
  | store | act => cases hfrees

/-- Elsewhere it leaves the last byte that it stores. -/
theorem storage_run {s s' : SharedSystem C T} {as : List (SharedAction C T)} {addr : Int}
    (h : s.run as = some s') (hfrees : ∀ a ∈ as, a.frees addr = false) :
    s'.storage addr = (lastStore addr as).or (s.storage addr) := by
  induction as generalizing s with
  | nil =>
    obtain rfl := Option.some.inj h
    rfl
  | cons a as ih =>
    obtain ⟨t, ht, hrun⟩ := Transition.run_cons.1 h
    have hrest := ih hrun fun b hb => hfrees b (List.mem_cons_of_mem a hb)
    cases a with
    | store b byte =>
      obtain ⟨-, rfl⟩ := step_store_inv ht
      rw [hrest, lastStore, Option.or_assoc]
      by_cases hb : b = addr
      · simp [hb]
      · simp [hb, Storage.store_of_ne (Ne.symm hb)]
    | free data len =>
      obtain rfl := Option.some.inj ht
      have hout := of_decide_eq_false (hfrees _ List.mem_cons_self)
      rw [hrest, lastStore]
      exact congrArg _ (Storage.free_of_notMem hout s.storage)
    | act a =>
      obtain ⟨-, sys, -, rfl⟩ := step_act_inv ht
      exact hrest

/-- **The payload is still there iff it has been kept.** -/
theorem holds_run {s s' : SharedSystem C T} {as : List (SharedAction C T)} {data : Int}
    {payload : List UInt8} (h₀ : s.storage.Holds data payload) (h : s.run as = some s') :
    s'.storage.Holds data payload ↔ Kept data payload as := by
  refine forall_congr' fun i => forall_congr' fun hi => ?_
  by_cases hfrees : ∀ a ∈ as, a.frees (data + i) = false
  · rw [storage_run h hfrees, h₀ i hi, and_iff_right hfrees]
    cases lastStore (data + i) as with
    | none => simp
    | some byte => simpa using eq_comm
  · have hfreed : ∃ a ∈ as, a.frees (data + i) = true := by simpa using hfrees
    rw [storage_freed h hfreed]
    simp [hfrees, hi]

/-- What the steps of the connection and its threads preserve. -/
theorem sys_run (Inv : ConnSystem C T → Prop)
    (hstep : ∀ s a s', Inv s → s.step a = some s' → Inv s') {s s' : SharedSystem C T}
    {as : List (SharedAction C T)} (h₀ : Inv s.sys) (h : s.run as = some s') : Inv s'.sys := by
  refine Transition.run_invariant (fun s : SharedSystem C T => Inv s.sys)
    (fun s a s' hs hstep' => ?_) h₀ h
  cases a with
  | store addr byte =>
    obtain ⟨-, rfl⟩ := step_store_inv hstep'
    exact hs
  | free data len =>
    obtain rfl := Option.some.inj hstep'
    exact hs
  | act a =>
    obtain ⟨-, sys, hsys, rfl⟩ := step_act_inv hstep'
    exact hstep s.sys _ sys hs hsys

/-! ## The result -/

/-- `sendInLoop` receives in `s` the bytes of the string that `send` was called with in `s₀`, and
sends what it would have sent there, whatever is in storage that has been freed. -/
structure SentAsCalled (s₀ s : SharedSystem C T) (data : Int) (payload : List UInt8) (data' : Int)
    (len : Nat) : Prop where
  length : len = payload.length
  received : s.storage.Holds data' payload
  sent : ∀ (c : TcpConnection C T) (nwrote : Int) (r : WriteResult) (junk₀ junk : Memory),
    c.staysWithin len nwrote r →
      c.sendInLoop (s.storage.read junk) data' len nwrote r =
        c.sendInLoop (s₀.storage.read junk₀) data payload.length nwrote r

/-- **A queued send is the send that was called iff its payload is kept.** In every run in which a
thread's `send` sees `kConnected`, when the loop comes to its functor, `sendInLoop` receives the
bytes that the string had iff none of them has been freed in between, and what has been stored to
them is what was there. -/
theorem received_iff (fd : C → Int) (hfd : Function.Injective fd) (wakeupChannel channel : C)
    (hne : channel ≠ wakeupChannel) (sameLoop writeComplete highWater : Bool) (storage : Storage)
    (before after : List (SharedAction C T)) (t : T) (data : Int) (payload : List UInt8)
    (s₀ s₁ s : SharedSystem C T) (data' : Int) (len : Nat) (call : SendCall)
    (rest : List LoopFunctor)
    (h₀ : run ⟨.new (.new fd wakeupChannel) channel sameLoop writeComplete highWater, storage⟩
      before = some s₀)
    (h₁ : s₀.step (.act (.sendTest t data payload)) = some s₁) (h : s₁.run after = some s)
    (hf : s.sys.conn.sys.loop.functors = .sendInLoop data' len call :: rest)
    (hid : call.id = s₀.sys.calls) :
    SentAsCalled s₀ s data payload data' len ↔ Kept data payload after := by
  obtain ⟨hstring, sys, hsys', rfl⟩ := step_act_inv h₁
  have hholds : s₀.storage.Holds data payload := hstring
  have hsys : s₀.sys.step (.sendTest t data payload) = some sys := hsys'
  have hn : s₀.sys.Numbered := sys_run ConnSystem.Numbered (fun _ _ _ hn h => hn.step h)
    (ConnSystem.numbered_new hfd hne sameLoop writeComplete highWater) h₀
  have hbegun := ConnSystem.bound_sendTest hn hsys
  have hbound : ConnSystem.Bound s₀.sys.calls data payload.length s.sys :=
    sys_run (ConnSystem.Bound s₀.sys.calls data payload.length) (fun _ _ _ hb h => hb.step h)
      hbegun h
  have hout : s.sys.Outstanding data' len call := by
    refine .inr (List.mem_filter.2 ⟨?_, rfl⟩)
    exact ConnSystem.mem_queue hf
  obtain ⟨rfl, rfl⟩ := hbound.eq data' len call hout hid
  have hiff : s.storage.Holds data' payload ↔ Kept data' payload after :=
    holds_run (s := ⟨sys, s₀.storage⟩) hholds h
  refine ⟨fun hsent => hiff.1 hsent.received, fun hkept => ?_⟩
  have hreceived := hiff.2 hkept
  refine ⟨rfl, hreceived, fun c nwrote r junk₀ junk hw => ?_⟩
  refine TcpConnection.sendInLoop_congr ?_ hw
  rw [Storage.readBytes_read hreceived, Storage.readBytes_read hholds]

/-! ## A string that is used again, or freed -/

def established : List (SharedAction Bool Unit) := [.act .newConnectionOwn, .act (.loop .enter)]

/-- The functor is queued, the caller goes on, and the loop comes to the functor. -/
def meanwhile (as : List (SharedAction Bool Unit)) : List (SharedAction Bool Unit) :=
  [.act (.sendPush ()), .act (.loop (.wakeup ()))] ++ as ++ [.act (.loop .test),
    .act (.loop (.pollReturn [(false, EPOLLIN)])), .act (.loop .dispatch),
    .act (.loop .startFunctors), .act (.loop .swapFunctors)]

/-- The second byte of the string is overwritten twice. -/
def reuse (byte : UInt8) : List (SharedAction Bool Unit) := meanwhile [.store 1 7, .store 1 byte]

def sample : SharedSystem Bool Unit := ⟨ConnSystem.sampleSystem true, fun _ => some 0⟩

/-- The states in which the send is called, has begun, and its functor is next. -/
def stages (after : List (SharedAction Bool Unit)) :
    Option (SharedSystem Bool Unit × SharedSystem Bool Unit × SharedSystem Bool Unit) :=
  (run sample established).bind fun s₀ =>
    (s₀.step (.act (.sendTest () 0 [0, 0]))).bind fun s₁ =>
      (s₁.run after).map fun s => (s₀, s₁, s)

theorem reused_ready : (stages (reuse 0)).isSome ∧ (stages (reuse 0)).all (fun (s₀, _, s) => decide
    (s.sys.conn.sys.loop.functors = [.sendInLoop 0 2 ⟨0, [0, 0]⟩] ∧ s₀.sys.calls = 0 ∧
      Kept 0 [0, 0] (reuse 0))) = true := by
  decide +kernel

theorem sent_reused : (stages (reuse 0)).isSome ∧ ∀ s₀ s₁ s, run sample established = some s₀ →
    s₀.step (.act (.sendTest () 0 [0, 0])) = some s₁ → s₁.run (reuse 0) = some s →
    SentAsCalled s₀ s 0 [0, 0] 0 2 := by
  obtain ⟨hsome, hready⟩ := reused_ready
  refine ⟨hsome, fun s₀ s₁ s h₀ h₁ h => ?_⟩
  rw [stages, h₀, Option.bind_some, h₁, Option.bind_some, h] at hready
  obtain ⟨hf, hid, hkept⟩ := of_decide_eq_true hready
  exact (received_iff ConnSystem.sampleFd (by decide) false true (by decide) true false false
    (fun _ => some 0) established (reuse 0) () 0 [0, 0] s₀ s₁ s 0 2 ⟨0, [0, 0]⟩ [] h₀ h₁ h hf
    hid.symm).2 hkept

/-- **The string is used again, or freed, before the functor runs**, and `sendInLoop` receives other
bytes, or none. -/
theorem received_other :
    (stages (reuse 9)).map (fun s => ([s.1.storage 0, s.1.storage 1],
      s.2.2.sys.conn.sys.loop.functors, [s.2.2.storage 0, s.2.2.storage 1])) =
        some ([some 0, some 0], [.sendInLoop 0 2 ⟨0, [0, 0]⟩], [some 0, some 9]) ∧
    (stages (meanwhile [.free 0 2])).map (fun s => ([s.1.storage 0, s.1.storage 1],
      s.2.2.sys.conn.sys.loop.functors, [s.2.2.storage 0, s.2.2.storage 1])) =
        some ([some 0, some 0], [.sendInLoop 0 2 ⟨0, [0, 0]⟩], [none, none]) := by
  decide +kernel

end SharedSystem

end WebCore
