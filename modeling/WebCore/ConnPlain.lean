import WebCore.ConnFrame

/-!
# Plain steps

A send, a half-close and a write event differ in what they do to the stream, but not in what they
may do to the rest of the connection: `Plain` says that they report nothing to the user, that the
state stays or becomes `kDisconnected`, and that of the channel's events only the write interest
changes.
-/

namespace WebCore

/-- The event belongs to the output of the connection. -/
def ConnEvent.isTraffic : ConnEvent → Bool
  | .write _ | .append _ | .shutdownWrite | .send _ | .sendInLoop _ => true
  | _ => false

namespace TcpConnection

variable {C T : Type*}

/-! ## The log -/

/-- The log grows, and by events for which `p` holds. -/
def Grows (p : ConnEvent → Bool) (c c' : TcpConnection C T) : Prop :=
  ∃ es, c'.log = c.log ++ es ∧ ∀ e ∈ es, p e = true

variable {p : ConnEvent → Bool}

theorem Grows.of_log {c c' : TcpConnection C T} (h : c'.log = c.log) : Grows p c c' :=
  ⟨[], by rw [h, List.append_nil], nofun⟩

theorem Grows.trans {c₁ c₂ c₃ : TcpConnection C T} (h : Grows p c₁ c₂) (h' : Grows p c₂ c₃) :
    Grows p c₁ c₃ := by
  obtain ⟨es, hes, hp⟩ := h
  obtain ⟨es', hes', hp'⟩ := h'
  refine ⟨es ++ es', by rw [hes', hes, List.append_assoc], fun e hmem => ?_⟩
  exact (List.mem_append.1 hmem).elim (hp e) (hp' e)

theorem Grows.mono {q : ConnEvent → Bool} (hle : ∀ e, p e = true → q e = true)
    {c c' : TcpConnection C T} (h : Grows p c c') : Grows q c c' := by
  obtain ⟨es, hes, hp⟩ := h
  exact ⟨es, hes, fun e hmem => hle e (hp e hmem)⟩

theorem grows_note {e : ConnEvent} (he : p e = true) (c : TcpConnection C T) :
    Grows p c (c.note e) :=
  ⟨[e], rfl, by simpa using he⟩

theorem isTraffic_of_isOutput (e : ConnEvent) (h : e.isOutput = true) : e.isTraffic = true := by
  cases e <;> simp_all [ConnEvent.isOutput, ConnEvent.isTraffic]

theorem grows_shutdownInLoop (c : TcpConnection C T) :
    Grows ConnEvent.isTraffic c c.shutdownInLoop := by
  by_cases hw : c.isWriting = true
  · exact .of_log (by rw [shutdownInLoop, if_pos hw])
  · exact ⟨[.shutdownWrite], by rw [shutdownInLoop, if_neg hw], by simp [ConnEvent.isTraffic]⟩

variable [DecidableEq C]

theorem grows_bufferRest {c c' : TcpConnection C T} {mem : Memory} {rest : Int} {n : Nat}
    (h : c.bufferRest mem rest n = .ok c') : Grows ConnEvent.isOutput c c' := by
  rcases bufferRest_inv h with ⟨-, rfl⟩ | ⟨b, -, rfl⟩
  · exact .of_log rfl
  · exact ⟨[.append (readBytes mem rest n)], rfl, by simp [ConnEvent.isOutput]⟩

/-- A send writes and appends. -/
theorem grows_sendInLoop {c c' : TcpConnection C T} {mem : Memory} {data : Int} {len : Nat}
    {nwrote : Int} {r : WriteResult} (h : c.sendInLoop mem data len nwrote r = .ok c') :
    Grows ConnEvent.isOutput c c' := by
  have hnote : Grows ConnEvent.isOutput c
      (c.note (.write ((readBytes mem data len).take r.ret.toNat))) :=
    grows_note rfl c
  unfold sendInLoop at h
  split at h
  · dsimp only at h
    split at h
    · refine hnote.trans ?_
      split at h
      · exact grows_bufferRest (c := notifyWriteComplete _) h
      · exact grows_bufferRest h
    · split at h
      · obtain rfl := Except.ok.inj h
        exact hnote
      · exact hnote.trans (grows_bufferRest h)
  · exact grows_bufferRest h

theorem grows_handleWrite (r : WriteResult) (c : TcpConnection C T) :
    Grows ConnEvent.isTraffic c (c.handleWrite r) := by
  have hfinished : ∀ c₁ : TcpConnection C T, Grows ConnEvent.isTraffic c₁ c₁.writeFinished := by
    intro c₁
    unfold writeFinished
    dsimp only
    split
    · exact grows_shutdownInLoop ((c₁.channelOp .disableWriting).notifyWriteComplete)
    · exact .of_log rfl
  unfold handleWrite
  split
  · have hnote : Grows ConnEvent.isTraffic c (c.note (.write ((c.outputBuffer.peek
        c.outputBuffer.readableBytes).take r.ret.toNat))) := grows_note rfl c
    dsimp only
    split
    · split
      · exact hnote.trans (hfinished (setOutput _ _))
      · exact hnote
    · exact hnote
  · exact .of_log rfl

/-! ## Plain steps -/

/-- What a send, a half-close and a write event have in common. -/
structure Plain (c c' : TcpConnection C T) : Prop extends Quiet c c' where
  grows : Grows ConnEvent.isTraffic c c'
  state : c'.state = c.state ∨ c'.state = .kDisconnected
  poller : c'.poller = c.poller ∨ ∃ op ∈ [ChannelOp.enableWriting, .disableWriting],
    c'.poller = c.poller.apply false op c.channel

theorem Plain.refl (c : TcpConnection C T) : Plain c c :=
  ⟨.refl c, .of_log rfl, .inl rfl, .inl rfl⟩

/-- A plain step after one that does not touch the poller. -/
theorem Plain.trans {c₁ c₂ c₃ : TcpConnection C T} (h : Plain c₁ c₂)
    (hp : c₂.poller = c₁.poller) (h' : Plain c₂ c₃) : Plain c₁ c₃ where
  toQuiet := h.toQuiet.trans h'.toQuiet
  grows := h.grows.trans h'.grows
  state := by
    rcases h'.state with hst | hst
    · rw [hst]; exact h.state
    · exact .inr hst
  poller := by
    have := h'.poller
    rwa [hp, h.channel] at this

theorem plain_note {e : ConnEvent} (he : e.isTraffic = true) (c : TcpConnection C T) :
    Plain c (c.note e) :=
  ⟨quiet_note (by cases e <;> simp_all [ConnEvent.isTraffic, ConnEvent.isTeardown]) c,
    grows_note he c, .inl rfl, .inl rfl⟩

/-- `shutdown` stores that the connection is down. -/
theorem plain_setState (c : TcpConnection C T) : Plain c (c.setState .kDisconnected) :=
  ⟨quiet_setState .kDisconnected c, .of_log rfl, .inr rfl, .inl rfl⟩

theorem plain_shutdownInLoop (c : TcpConnection C T) : Plain c c.shutdownInLoop :=
  ⟨quiet_shutdownInLoop c, grows_shutdownInLoop c, .inl rfl, .inl rfl⟩

theorem plain_shutdown (c : TcpConnection C T) : Plain c c.shutdown := by
  unfold shutdown
  split
  · exact (plain_setState c).trans rfl (plain_shutdownInLoop _)
  · exact .refl c

/-- **A send is plain.** -/
theorem plain_sendInLoop {c c' : TcpConnection C T} {mem : Memory} {data : Int} {len : Nat}
    {nwrote : Int} {r : WriteResult} (h : c.sendInLoop mem data len nwrote r = .ok c') :
    Plain c c' := by
  have hs := sends_sendInLoop h
  refine ⟨hs.toQuiet, (grows_sendInLoop h).mono isTraffic_of_isOutput, .inl hs.state, ?_⟩
  rcases hs.rest with ⟨-, hp⟩ | ⟨-, hp⟩
  · exact .inl hp
  · split at hp
    · exact .inl hp
    · exact .inr ⟨.enableWriting, by simp, hp⟩

theorem plain_send {c c' : TcpConnection C T} {mem : Memory} {data : Int} {call : SendCall}
    {nwrote : Int} {r : WriteResult} (h : c.send mem data call nwrote r = .ok c') : Plain c c' := by
  unfold send at h
  split at h
  · have hnotes := (plain_note (e := .send call) rfl c).trans rfl
      (plain_note (e := .sendInLoop call) rfl _)
    exact hnotes.trans rfl (plain_sendInLoop h)
  · obtain rfl := Except.ok.inj h
    exact .refl c

/-- **A write event is plain.** -/
theorem plain_handleWrite (r : WriteResult) (c : TcpConnection C T) :
    Plain c (c.handleWrite r) := by
  refine ⟨quiet_handleWrite r c, grows_handleWrite r c, .inl (state_handleWrite r c), ?_⟩
  rcases poller_handleWrite r c with hp | ⟨-, -, -, hp⟩
  · exact .inl hp
  · exact .inr ⟨.disableWriting, by simp, hp⟩

end TcpConnection

end WebCore
