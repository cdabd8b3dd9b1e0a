import WebCore.Lib.Transition

/-!
# The table of connections

`newConnection` names a connection after the server, its address and a counter, and enters it in
`connections` under that name. `removeConnectionInPool` erases the name. The latter runs on the base
loop some time after a close on an io loop, once for each close, and in any order.

**Theorem (`table_exact`).** As long as fewer than `2^31 - 1` connections have been accepted, their
names are distinct, and the table holds exactly those whose removal has not run. An accept replaces
no entry, and a removal erases its own connection's entry, where there still is one, and no other.

An address takes 21 characters at most and the counter 10, so `snprintf` never truncates the name.
-/

namespace WebCore

/-! ## Names -/

/-- `%d` and `%u`, for a number that is not negative. -/
def decimal (n : Nat) : List Char := Nat.toDigits 10 n

def decimalInt : Int → List Char
  | .ofNat n => decimal n
  | .negSucc n => '-' :: decimal (n + 1)

theorem decimal_injective {m n : Nat} (h : decimal m = decimal n) : m = n :=
  Nat.repr_injective (congrArg String.ofList h)

theorem length_decimal_le {n e : Nat} (he : 0 < e) (h : n < 10 ^ e) : (decimal n).length ≤ e :=
  Nat.toDigits_length 10 n e he h

/-- What `snprintf` leaves in a buffer of `size` bytes. -/
def snprintf (size : Nat) (text : List Char) : List Char := text.take (size - 1)

/-- An IPv4 address, byte by byte, and a port. -/
structure InetAddress where
  a : UInt8
  b : UInt8
  c : UInt8
  d : UInt8
  port : UInt16

namespace InetAddress

def toIp (addr : InetAddress) : List Char :=
  decimal addr.a.toNat ++ '.' :: decimal addr.b.toNat ++ '.' :: decimal addr.c.toNat ++
    '.' :: decimal addr.d.toNat

def toInPort (addr : InetAddress) : List Char := addr.toIp ++ ':' :: decimal addr.port.toNat

theorem length_toInPort_le (addr : InetAddress) : addr.toInPort.length ≤ 21 := by
  have hbyte : ∀ x : UInt8, (decimal x.toNat).length ≤ 3 := fun x =>
    length_decimal_le (by decide) (by have := x.toNat_lt; omega)
  have hport : (decimal addr.port.toNat).length ≤ 5 :=
    length_decimal_le (by decide) (by have := addr.port.toNat_lt; omega)
  have ha := hbyte addr.a
  have hb := hbyte addr.b
  have hc := hbyte addr.c
  have hd := hbyte addr.d
  simp only [toInPort, toIp, List.length_append, List.length_cons]
  omega

end InetAddress

/-! ## The model -/

/-- The connections are numbered in the order in which they are accepted. -/
structure ServerTable where
  name : List Char
  ipPort : List Char
  /-- an `int` -/
  nextConnId : BitVec 32
  connections : List Char → Option Nat
  /-- the names of all connections that have been accepted -/
  accepted : List (List Char)
  /-- the removals that are queued on the base loop -/
  removals : List Nat
  /-- the connections for which `removeConnectionInPool` has run -/
  removed : List Nat

inductive TableAction
  | newConnection
  /-- a close of the connection, on whichever loop -/
  | removeConnection (conn : Nat)
  | removeConnectionInPool (conn : Nat)
deriving DecidableEq, Repr

namespace ServerTable

def new (name : List Char) (addr : InetAddress) : ServerTable where
  name := name
  ipPort := addr.toInPort
  nextConnId := 1
  connections _ := none
  accepted := []
  removals := []
  removed := []

/-- The name of the next connection. -/
def connName (s : ServerTable) : List Char :=
  s.name ++ snprintf 64 ('-' :: s.ipPort ++ '#' :: decimalInt s.nextConnId.toInt)

def step (s : ServerTable) : TableAction → Option ServerTable
  | .newConnection => some { s with
      nextConnId := s.nextConnId + 1
      connections := Function.update s.connections s.connName (some s.accepted.length)
      accepted := s.accepted ++ [s.connName] }
  | .removeConnection conn =>
    if conn < s.accepted.length then some { s with removals := s.removals ++ [conn] } else none
  | .removeConnectionInPool conn =>
    match s.accepted[conn]? with
    | some name =>
      if conn ∈ s.removals then some { s with
        connections := Function.update s.connections name none
        removals := s.removals.erase conn
        removed := conn :: s.removed }
      else none
    | none => none

def run (s : ServerTable) (as : List TableAction) : Option ServerTable := Transition.run step s as

/-! ## The invariant -/

/-- The name of the connection `i`. -/
def fullName (name : List Char) (addr : InetAddress) (i : Nat) : List Char :=
  name ++ '-' :: addr.toInPort ++ '#' :: decimal (i + 1)

theorem fullName_injective {name : List Char} {addr : InetAddress} {i j : Nat}
    (h : fullName name addr i = fullName name addr j) : i = j := by
  have htail := List.append_cancel_left h
  have := decimal_injective (List.cons.inj htail).2
  omega

/-- The table, the counter and the names after any number of accepts and removals. -/
structure Exact (name : List Char) (addr : InetAddress) (s : ServerTable) : Prop where
  name_eq : s.name = name
  ipPort_eq : s.ipPort = addr.toInPort
  next : s.nextConnId = BitVec.ofNat 32 (s.accepted.length + 1)
  names : ∀ i n, s.accepted[i]? = some n → n = fullName name addr i
  old : ∀ i ∈ s.removed, i < s.accepted.length
  entries : ∀ n i, s.connections n = some i ↔ s.accepted[i]? = some n ∧ i ∉ s.removed

variable {name : List Char} {addr : InetAddress} {s s' : ServerTable}

/-- **The name is not truncated.** -/
theorem Exact.connName_eq (h : Exact name addr s) (hfew : s.accepted.length < 2 ^ 31 - 1) :
    s.connName = fullName name addr s.accepted.length := by
  have hid : s.nextConnId.toInt = ((s.accepted.length + 1 : Nat) : Int) := by
    rw [h.next, BitVec.toInt_eq_toNat_of_lt]
    · rw [BitVec.toNat_ofNat, Nat.mod_eq_of_lt (by omega)]
    · rw [BitVec.toNat_ofNat]
      omega
  have hdigits : (decimal (s.accepted.length + 1)).length ≤ 10 :=
    length_decimal_le (by decide) (by omega)
  have haddr := addr.length_toInPort_le
  rw [connName, hid, h.name_eq, h.ipPort_eq, snprintf, List.take_of_length_le]
  · simp [fullName, decimalInt]
  · show ('-' :: addr.toInPort ++ '#' :: decimal (s.accepted.length + 1)).length ≤ 63
    simp only [List.length_append, List.length_cons]
    omega

/-- Connections of one name are one. -/
theorem Exact.eq_of_name (h : Exact name addr s) {i j : Nat} {n : List Char}
    (hi : s.accepted[i]? = some n) (hj : s.accepted[j]? = some n) : i = j :=
  fullName_injective ((h.names i n hi).symm.trans (h.names j n hj))

theorem Exact.nodup (h : Exact name addr s) : s.accepted.Nodup := by
  refine List.nodup_iff_injective_get.2 fun i j hij => Fin.ext ?_
  refine h.eq_of_name (List.getElem?_eq_getElem i.isLt) ?_
  rw [List.getElem?_eq_getElem j.isLt]
  exact congrArg some hij.symm

/-- The next name is not in use. -/
theorem Exact.connName_new (h : Exact name addr s) (hfew : s.accepted.length < 2 ^ 31 - 1)
    {i : Nat} : s.accepted[i]? ≠ some s.connName := by
  intro hi
  have hname := h.names i _ hi
  rw [h.connName_eq hfew] at hname
  have hlt := (List.getElem?_eq_some_iff.1 hi).1
  exact absurd (fullName_injective hname) hlt.ne'

theorem exact_new (name : List Char) (addr : InetAddress) : Exact name addr (new name addr) :=
  ⟨rfl, rfl, rfl, by simp [new], by simp [new], by simp [new]⟩

theorem Exact.newConnection (h : Exact name addr s) (hfew : s.accepted.length < 2 ^ 31 - 1)
    (hstep : s.step .newConnection = some s') : Exact name addr s' := by
  obtain rfl := Option.some.inj hstep
  have hnew : ∀ i, (s.accepted ++ [s.connName])[i]? =
      if i = s.accepted.length then some s.connName else s.accepted[i]? := by
    intro i
    by_cases hi : i = s.accepted.length
    · simp [hi]
    · rcases Nat.lt_or_gt_of_ne hi with hlt | hgt
      · rw [if_neg hi, List.getElem?_append_left hlt]
      · rw [if_neg hi, List.getElem?_eq_none (by simp; omega), List.getElem?_eq_none (by omega)]
  refine ⟨h.name_eq, h.ipPort_eq, ?_, fun i n hi => ?_, fun i hi => ?_, fun n i => ?_⟩
  · show s.nextConnId + 1 = BitVec.ofNat 32 ((s.accepted ++ [s.connName]).length + 1)
    rw [h.next, List.length_append, List.length_singleton,
      BitVec.ofNat_add (s.accepted.length + 1) 1]
    rfl
  · have hi : (s.accepted ++ [s.connName])[i]? = some n := hi
    rw [hnew] at hi
    split at hi
    · rename_i hlast
      rw [← Option.some.inj hi, hlast]
      exact h.connName_eq hfew
    · exact h.names i n hi
  · show i < (s.accepted ++ [s.connName]).length
    rw [List.length_append]
    exact Nat.lt_add_right _ (h.old i hi)
  · show Function.update s.connections s.connName (some s.accepted.length) n = some i ↔
      (s.accepted ++ [s.connName])[i]? = some n ∧ i ∉ s.removed
    rw [hnew]
    by_cases hn : n = s.connName
    · rw [hn, Function.update_self]
      constructor
      · rintro hi
        obtain rfl := Option.some.inj hi
        exact ⟨if_pos rfl, fun hmem => absurd (h.old _ hmem) (lt_irrefl _)⟩
      · rintro ⟨hi, -⟩
        split at hi
        · rename_i hlast
          rw [hlast]
        · exact absurd hi (h.connName_new hfew)
    · rw [Function.update_of_ne hn, h.entries]
      by_cases hi : i = s.accepted.length
      · simp [hi, Ne.symm hn]
      · rw [if_neg hi]

theorem Exact.removeConnectionInPool (h : Exact name addr s) {conn : Nat}
    (hstep : s.step (.removeConnectionInPool conn) = some s') : Exact name addr s' := by
  simp only [step] at hstep
  split at hstep
  · rename_i own hown
    simp only [Option.ite_none_right_eq_some, Option.some.injEq] at hstep
    obtain ⟨-, rfl⟩ := hstep
    refine ⟨h.name_eq, h.ipPort_eq, h.next, h.names, fun i hi => ?_, fun n i => ?_⟩
    · rcases List.mem_cons.1 hi with rfl | hi
      · exact (List.getElem?_eq_some_iff.1 hown).1
      · exact h.old i hi
    · show Function.update s.connections own none n = some i ↔
        s.accepted[i]? = some n ∧ i ∉ conn :: s.removed
      by_cases hn : n = own
      · rw [hn, Function.update_self]
        refine iff_of_false (by simp) ?_
        rintro ⟨hi, hnot⟩
        exact hnot (by rw [h.eq_of_name hi hown]; exact List.mem_cons_self)
      · rw [Function.update_of_ne hn, h.entries, List.mem_cons, not_or]
        refine and_congr_right fun hi => ?_
        refine ⟨fun hnot => ⟨?_, hnot⟩, And.right⟩
        rintro rfl
        exact hn (Option.some.inj (hi.symm.trans hown))
  · cases hstep

theorem length_accepted_le {a : TableAction} (hstep : s.step a = some s') :
    s.accepted.length ≤ s'.accepted.length := by
  cases a with
  | newConnection =>
    obtain rfl := Option.some.inj hstep
    show s.accepted.length ≤ (s.accepted ++ [s.connName]).length
    rw [List.length_append]
    exact Nat.le_add_right _ _
  | removeConnection conn =>
    simp only [step, Option.ite_none_right_eq_some, Option.some.injEq] at hstep
    obtain ⟨-, rfl⟩ := hstep
    exact le_rfl
  | removeConnectionInPool conn =>
    simp only [step] at hstep
    split at hstep
    · simp only [Option.ite_none_right_eq_some, Option.some.injEq] at hstep
      obtain ⟨-, rfl⟩ := hstep
      exact le_rfl
    · cases hstep

/-- **Every step keeps the table exact.** -/
theorem Exact.step {a : TableAction} (h : Exact name addr s)
    (hfew : s'.accepted.length < 2 ^ 31 - 1) (hstep : s.step a = some s') :
    Exact name addr s' := by
  cases a with
  | newConnection => exact h.newConnection ((length_accepted_le hstep).trans_lt hfew) hstep
  | removeConnection conn =>
    simp only [ServerTable.step, Option.ite_none_right_eq_some, Option.some.injEq] at hstep
    obtain ⟨-, rfl⟩ := hstep
    exact ⟨h.name_eq, h.ipPort_eq, h.next, h.names, h.old, h.entries⟩
  | removeConnectionInPool conn => exact h.removeConnectionInPool hstep

/-! ## The result -/

/-- What a step does to the table: an accept uses a new name, and a removal erases its own
connection's entry, if it is still there. -/
def Touches (s s' : ServerTable) : TableAction → Prop
  | .newConnection => s.connections s.connName = none
  | .removeConnection _ => s'.connections = s.connections
  | .removeConnectionInPool conn =>
    (conn ∈ s.removed → s'.connections = s.connections) ∧
    ∃ own, s.accepted[conn]? = some own ∧ (conn ∉ s.removed → s.connections own = some conn) ∧
      s'.connections own = none ∧ ∀ n ≠ own, s'.connections n = s.connections n

theorem Exact.touches {a : TableAction} (h : Exact name addr s)
    (hfew : s.accepted.length < 2 ^ 31 - 1) (hstep : s.step a = some s') : s.Touches s' a := by
  cases a with
  | newConnection =>
    refine Option.eq_none_iff_forall_ne_some.2 fun i hi => ?_
    exact h.connName_new hfew ((h.entries _ i).1 hi).1
  | removeConnection conn =>
    simp only [ServerTable.step, Option.ite_none_right_eq_some, Option.some.injEq] at hstep
    obtain ⟨-, rfl⟩ := hstep
    exact rfl
  | removeConnectionInPool conn =>
    simp only [ServerTable.step] at hstep
    split at hstep
    · rename_i own hown
      simp only [Option.ite_none_right_eq_some, Option.some.injEq] at hstep
      obtain ⟨-, rfl⟩ := hstep
      refine ⟨fun hold => ?_, own, hown, fun hnot => (h.entries own conn).2 ⟨hown, hnot⟩,
        Function.update_self .., fun n hn => Function.update_of_ne hn ..⟩
      -- The entry is gone already.
      have hnone : s.connections own = none := by
        refine Option.eq_none_iff_forall_ne_some.2 fun i hi => ?_
        obtain ⟨hi, hnot⟩ := (h.entries own i).1 hi
        exact hnot (h.eq_of_name hi hown ▸ hold)
      exact Function.update_eq_self_iff.2 hnone.symm
    · cases hstep

/-- **The table of connections is exact.** Over any accepts, closes and removals, as long as fewer
than `2^31 - 1` connections have been accepted: their names are whole and distinct, the table holds
exactly the connections that have not been removed, and every step touches its own entry only. -/
theorem table_exact (name : List Char) (addr : InetAddress) (as : List TableAction)
    (s : ServerTable) (h : (new name addr).run as = some s)
    (hfew : s.accepted.length < 2 ^ 31 - 1) :
    (∀ i n, s.accepted[i]? = some n → n = fullName name addr i) ∧ s.accepted.Nodup ∧
    (∀ n i, s.connections n = some i ↔ s.accepted[i]? = some n ∧ i ∉ s.removed) ∧
    ∀ a s', s.step a = some s' → s.Touches s' a := by
  have hexact : Exact name addr s := Transition.run_invariant
    (fun s : ServerTable => s.accepted.length < 2 ^ 31 - 1 → Exact name addr s)
    (fun _ _ _ hs hstep hfew => (hs ((length_accepted_le hstep).trans_lt hfew)).step hfew hstep)
    (fun _ => exact_new name addr) h hfew
  exact ⟨hexact.names, hexact.nodup, hexact.entries, fun a s' hstep => hexact.touches hfew hstep⟩

def localhost : InetAddress := ⟨127, 0, 0, 1, 8000⟩

/-- The first connection is closed twice and removed twice, with an accept in between. -/
def closes : List TableAction :=
  [.newConnection, .newConnection, .removeConnection 0, .removeConnection 0,
    .removeConnectionInPool 0, .newConnection, .removeConnection 1, .removeConnectionInPool 0]

theorem closes_few : ((new ['e', 'c', 'h', 'o'] localhost).run closes).all
    (fun s => decide (s.accepted.length < 2 ^ 31 - 1)) = true := by
  decide +kernel

theorem exact_closes :
    ((new ['e', 'c', 'h', 'o'] localhost).run closes).map (fun s =>
      s.accepted.map (fun n => (String.ofList n, s.connections n))) =
    some [("echo-127.0.0.1:8000#1", none), ("echo-127.0.0.1:8000#2", some 1),
      ("echo-127.0.0.1:8000#3", some 2)] ∧
    ∀ s, (new ['e', 'c', 'h', 'o'] localhost).run closes = some s →
      (∀ i n, s.accepted[i]? = some n → n = fullName ['e', 'c', 'h', 'o'] localhost i) ∧
      s.accepted.Nodup ∧
      (∀ n i, s.connections n = some i ↔ s.accepted[i]? = some n ∧ i ∉ s.removed) ∧
      ∀ a s', s.step a = some s' → s.Touches s' a := by
  refine ⟨by decide +kernel, fun s h => ?_⟩
  have hfew := closes_few
  rw [h] at hfew
  exact table_exact ['e', 'c', 'h', 'o'] localhost closes s h (of_decide_eq_true hfew)

end ServerTable

end WebCore
