import Mathlib

/-!
# `Channel` and `EpollPoller`

The channels of one poller, the poller's map from descriptors to channels, and the interest set
that the kernel keeps for its epoll descriptor (`ZChannel/channel.cpp`,
`ZEpollPoller/epollpoller.cpp`). `C` is the type of `Channel*`: the `Channel` objects live in
`EpollPoller.channel`.

`epollCtl` is the system call. It fails for an ADD of a descriptor that is present and for a MOD
or DEL of one that is absent; `nomem` makes it fail for lack of memory. The poller only logs a
failure, and `failed` counts them.
-/

namespace WebCore

/-! ## Event masks -/

/-- A set of epoll events. -/
abbrev EventMask := BitVec 32

def EPOLLIN : EventMask := 0x001#32
def EPOLLPRI : EventMask := 0x002#32
def EPOLLOUT : EventMask := 0x004#32
def EPOLLERR : EventMask := 0x008#32
def EPOLLHUP : EventMask := 0x010#32

def kNoneEvent : EventMask := 0#32
def kReadEvent : EventMask := EPOLLIN ||| EPOLLPRI
def kWriteEvent : EventMask := EPOLLOUT

/-- The test `mask & bits` of the source. -/
def EventMask.has (mask bits : EventMask) : Bool := mask &&& bits != 0#32

/-- epoll reports `mask` for the interest `events`: what was asked for, errors and hang-ups. -/
def EventMask.reportedFor (mask events : EventMask) : Bool :=
  mask != 0#32 && mask &&& ~~~(events ||| EPOLLERR ||| EPOLLHUP) == 0#32

/-! ## Channels -/

/-- The values of `index_`: what a channel knows about its own registration. -/
inductive ChannelIndex
  | kNew
  | kAdded
  | kDeleted
deriving DecidableEq, Repr

structure Channel where
  fd : Int
  events : EventMask
  revents : EventMask
  index : ChannelIndex
deriving DecidableEq, Repr

namespace Channel

def new (fd : Int) : Channel := ⟨fd, 0#32, 0#32, .kNew⟩

def isNoneEvent (ch : Channel) : Bool := ch.events == kNoneEvent

def isWriting (ch : Channel) : Bool := EventMask.has ch.events kWriteEvent

end Channel

/-! ## The kernel -/

/-- The `epoll_event` of a registration: the mask and `data.ptr`. -/
structure EpollEvent (C : Type*) where
  events : EventMask
  ptr : C
deriving DecidableEq, Repr

inductive EpollOp
  | ctlAdd
  | ctlMod
  | ctlDel
deriving DecidableEq, Repr

/-- `epoll_ctl`: the new interest set, or `none` when the call returns -1. -/
def epollCtl {C : Type*} (nomem : Bool) (op : EpollOp) (fd : Int) (ev : EpollEvent C)
    (interest : Int → Option (EpollEvent C)) : Option (Int → Option (EpollEvent C)) :=
  if nomem then none
  else match op, interest fd with
    | .ctlAdd, none => some (Function.update interest fd (some ev))
    | .ctlMod, some _ => some (Function.update interest fd (some ev))
    | .ctlDel, some _ => some (Function.update interest fd none)
    | _, _ => none

/-! ## The poller -/

structure EpollPoller (C : Type*) where
  channel : C → Channel
  channels : Int → Option C
  interest : Int → Option (EpollEvent C)
  failed : Nat

/-- The operations that a channel offers on its registration. -/
inductive ChannelOp
  | enableReading
  | disableReading
  | enableWriting
  | disableWriting
  | disableAll
  | remove
deriving DecidableEq, Repr

namespace EpollPoller

variable {C : Type*}

/-- A poller with nothing registered, over channels on the descriptors `fd`. -/
def new (fd : C → Int) : EpollPoller C :=
  ⟨fun c => .new (fd c), fun _ => none, fun _ => none, 0⟩

def hasChannel [DecidableEq C] (c : C) (p : EpollPoller C) : Bool :=
  p.channels (p.channel c).fd == some c

/-- `update`: one `epoll_ctl` for the channel. A failure is logged and nothing else. -/
def update (nomem : Bool) (op : EpollOp) (c : C) (p : EpollPoller C) : EpollPoller C :=
  match epollCtl nomem op (p.channel c).fd ⟨(p.channel c).events, c⟩ p.interest with
  | some interest => { p with interest }
  | none => { p with failed := p.failed + 1 }

/-- An assignment to `channels_[fd]`, or the erasure of the entry. -/
def setEntry (fd : Int) (entry : Option C) (p : EpollPoller C) : EpollPoller C :=
  { p with channels := Function.update p.channels fd entry }

variable [DecidableEq C]

/-- An assignment to a field of the channel `c`. -/
def modify (c : C) (f : Channel → Channel) (p : EpollPoller C) : EpollPoller C :=
  { p with channel := Function.update p.channel c (f (p.channel c)) }

def setIndex (c : C) (index : ChannelIndex) (p : EpollPoller C) : EpollPoller C :=
  p.modify c ({ · with index })

def setRevents (c : C) (revents : EventMask) (p : EpollPoller C) : EpollPoller C :=
  p.modify c ({ · with revents })

def setEvents (c : C) (events : EventMask) (p : EpollPoller C) : EpollPoller C :=
  p.modify c ({ · with events })

/-- `fillActiveChannels`: store the reported masks. -/
def fillActiveChannels (active : List (C × EventMask)) (p : EpollPoller C) : EpollPoller C :=
  active.foldl (fun p ev => p.setRevents ev.1 ev.2) p

def updateChannel (nomem : Bool) (c : C) (p : EpollPoller C) : EpollPoller C :=
  match (p.channel c).index with
  | .kNew => ((p.setEntry (p.channel c).fd (some c)).setIndex c .kAdded).update nomem .ctlAdd c
  | .kDeleted => (p.setIndex c .kAdded).update nomem .ctlAdd c
  | .kAdded =>
    if (p.channel c).isNoneEvent then (p.update nomem .ctlDel c).setIndex c .kDeleted
    else p.update nomem .ctlMod c

def removeChannel (nomem : Bool) (c : C) (p : EpollPoller C) : EpollPoller C :=
  match p.channels (p.channel c).fd with
  | none => p
  | some _ =>
    if (p.channel c).index = .kAdded then
      ((p.setEntry (p.channel c).fd none).update nomem .ctlDel c).setIndex c .kNew
    else (p.setEntry (p.channel c).fd none).setIndex c .kNew

/-! ## The channel's operations -/

def enableReading (nomem : Bool) (c : C) (p : EpollPoller C) : EpollPoller C :=
  (p.setEvents c ((p.channel c).events ||| kReadEvent)).updateChannel nomem c

def disableReading (nomem : Bool) (c : C) (p : EpollPoller C) : EpollPoller C :=
  (p.setEvents c ((p.channel c).events &&& ~~~kReadEvent)).updateChannel nomem c

def enableWriting (nomem : Bool) (c : C) (p : EpollPoller C) : EpollPoller C :=
  (p.setEvents c ((p.channel c).events ||| kWriteEvent)).updateChannel nomem c

def disableWriting (nomem : Bool) (c : C) (p : EpollPoller C) : EpollPoller C :=
  (p.setEvents c ((p.channel c).events &&& ~~~kWriteEvent)).updateChannel nomem c

def disableAll (nomem : Bool) (c : C) (p : EpollPoller C) : EpollPoller C :=
  (p.setEvents c kNoneEvent).updateChannel nomem c

def remove (nomem : Bool) (c : C) (p : EpollPoller C) : EpollPoller C :=
  p.removeChannel nomem c

/-- An operation on the channel `c`. -/
def apply (nomem : Bool) (op : ChannelOp) (c : C) (p : EpollPoller C) : EpollPoller C :=
  match op with
  | .enableReading => p.enableReading nomem c
  | .disableReading => p.disableReading nomem c
  | .enableWriting => p.enableWriting nomem c
  | .disableWriting => p.disableWriting nomem c
  | .disableAll => p.disableAll nomem c
  | .remove => p.remove nomem c

/-- A sequence of operations, none of which runs out of memory. -/
def runOps : List (ChannelOp × C) → EpollPoller C → EpollPoller C
  | [], p => p
  | (op, c) :: ops, p => runOps ops (p.apply false op c)

end EpollPoller

end WebCore
