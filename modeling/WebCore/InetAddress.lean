import WebCore.ServerTable

/-!
# Addresses as text

An `InetAddress` is made from a port and a text, which `inet_addr` reads, and `toIp` and `toInPort`
print it (`ZInetAddress/inet_address.cpp`). `inet_addr` takes up to four numbers, each of them
decimal, octal or hexadecimal, and the last one fills the bytes that are left. It returns
`INADDR_NONE` for what it cannot read, and the constructor takes that for an address.

**Theorem (`text_round_trip`).** What is printed reads as the same address. A text is printed as the
address that it reads as, or as `255.255.255.255`, and no two addresses with their ports are printed
alike.
-/

namespace WebCore

namespace InetAddress

/-! ## Reading -/

/-- The value of a digit, up to those of base 16. -/
def digitValue (c : Char) : Nat :=
  if c.isDigit then c.toNat - 48
  else if 'a' ≤ c ∧ c ≤ 'f' then c.toNat - 87
  else if 'A' ≤ c ∧ c ≤ 'F' then c.toNat - 55
  else 16

/-- The base that the prefix of a number stands for, and the number without `0x`. -/
def radix : List Char → Nat × List Char
  | '0' :: x :: c :: cs =>
    if (x = 'x' ∨ x = 'X') ∧ digitValue c < 16 then (16, c :: cs) else (8, '0' :: x :: c :: cs)
  | '0' :: cs => (8, '0' :: cs)
  | cs => (10, cs)

/-- The value of a row of digits. -/
def value (base : Nat) (ds : List Char) : Nat := ds.foldl (fun v c => base * v + digitValue c) 0

/-- `strtoul`, on a text that begins with a digit: the number and the rest of the text. -/
def number (text : List Char) : Option (Nat × List Char) :=
  if text.head?.any Char.isDigit then
    let (base, ds) := radix text
    some (value base (ds.takeWhile fun c => digitValue c < base),
      ds.dropWhile fun c => digitValue c < base)
  else none

/-- `isspace` -/
def isSpace (c : Char) : Bool := c = ' ' || 9 ≤ c.toNat && c.toNat ≤ 13

/-- Nothing follows, or a blank, after which anything may follow. -/
def atEnd (text : List Char) : Bool := text.head?.all isSpace

/-- The last bytes of an address from the last numbers of a text. -/
def inetBytes : Nat → List Char → Option Nat
  | 0, _ => none
  | bytes + 1, text =>
    match number text with
    | some (v, '.' :: rest) =>
      if v < 256 then (inetBytes bytes rest).map fun n => v * 256 ^ bytes + n else none
    | some (v, rest) => if v < 256 ^ (bytes + 1) ∧ atEnd rest then some v else none
    | none => none

/-- `inet_addr(ip.c_str())`, in host order. -/
def inetAddr (ip : List Char) : Option Nat := inetBytes 4 (ip.takeWhile fun c => c.toNat ≠ 0)

def INADDR_NONE : Nat := 2 ^ 32 - 1

/-- The bytes of `s_addr`. -/
def ofNat (port : UInt16) (n : Nat) : InetAddress where
  a := .ofNat (n / 256 ^ 3)
  b := .ofNat (n / 256 ^ 2)
  c := .ofNat (n / 256)
  d := .ofNat n
  port := port

/-- The constructor. -/
def ofText (port : UInt16) (ip : List Char) : InetAddress :=
  ofNat port ((inetAddr ip).getD INADDR_NONE)

def toNat (addr : InetAddress) : Nat :=
  addr.a.toNat * 256 ^ 3 + (addr.b.toNat * 256 ^ 2 + (addr.c.toNat * 256 + addr.d.toNat))

/-! ## Numbers -/

theorem digitValue_digitChar {n : Nat} (hn : n < 10) : digitValue n.digitChar = n := by
  revert n
  decide

theorem isDigit_decimal {n : Nat} {c : Char} (hc : c ∈ decimal n) : c.isDigit = true :=
  Nat.isDigit_of_mem_toDigits (by decide) (by decide) hc

theorem value_decimal (n : Nat) : value 10 (decimal n) = n := by
  induction n using Nat.strong_induction_on with
  | _ n ih =>
    rw [decimal, Nat.toDigits_eq_if (by decide)]
    split
    · rename_i hlt
      simp [value, digitValue_digitChar hlt]
    · rename_i hge
      have hprev := ih (n / 10) (by omega)
      rw [decimal, value] at hprev
      rw [value, List.foldl_append, hprev, List.foldl_cons, List.foldl_nil,
        digitValue_digitChar (Nat.mod_lt n (by decide))]
      omega

/-- A number that is not zero is printed without a leading zero. -/
theorem head_decimal {n : Nat} (hn : 0 < n) : (decimal n).head? ≠ some '0' := by
  induction n using Nat.strong_induction_on with
  | _ n ih =>
    rw [decimal, Nat.toDigits_eq_if (by decide)]
    split
    · rename_i hlt
      have hall : ∀ m < 10, 0 < m → [Nat.digitChar m].head? ≠ some '0' := by decide
      exact hall n hlt hn
    · rename_i hge
      have hprev := ih (n / 10) (by omega) (by omega)
      rw [decimal] at hprev
      rw [List.head?_append_of_ne_nil _ Nat.toDigits_ne_nil]
      exact hprev

theorem digitValue_lt_of_isDigit {c : Char} (hc : c.isDigit = true) : digitValue c < 10 := by
  have hle : c.toNat ≤ 57 := by
    simp only [Char.isDigit, Bool.and_eq_true, decide_eq_true_eq] at hc
    exact hc.2
  rw [digitValue, if_pos hc]
  omega

/-- What follows a number in an address that is printed. -/
def Ends (rest : List Char) : Prop := rest = [] ∨ ∃ text, rest = '.' :: text

theorem takeWhile_ends {rest : List Char} (h : Ends rest) {base : Nat} (hb : base ≤ 16) :
    (rest.takeWhile fun c => digitValue c < base) = [] ∧
      (rest.dropWhile fun c => digitValue c < base) = rest := by
  rcases h with rfl | ⟨text, rfl⟩
  · exact ⟨rfl, rfl⟩
  · have hdot : ¬ digitValue '.' < base := by
      rw [show digitValue '.' = 16 by decide]
      omega
    simp [hdot]

theorem radix_decimal {n : Nat} {rest : List Char} (h : Ends rest) :
    radix (decimal n ++ rest) = (if n = 0 then 8 else 10, decimal n ++ rest) := by
  by_cases hn : n = 0
  · rw [if_pos hn, hn, show decimal 0 = ['0'] by decide]
    rcases h with rfl | ⟨text, rfl⟩
    · rfl
    · cases text with
      | nil => rfl
      | cons c cs => rfl
  · rw [if_neg hn]
    have hhead := head_decimal (Nat.pos_of_ne_zero hn)
    obtain ⟨d, ds, hd⟩ := List.exists_cons_of_ne_nil (Nat.toDigits_ne_nil (n := n) (b := 10))
    rw [decimal, hd] at hhead ⊢
    have hne : d ≠ '0' := by simpa using hhead
    rw [List.cons_append, radix.eq_def]
    split
    · rename_i heq
      exact absurd (List.cons.inj heq).1 hne
    · rename_i heq
      exact absurd (List.cons.inj heq).1 hne
    · rfl

/-- **A printed number is read.** -/
theorem number_decimal (n : Nat) {rest : List Char} (h : Ends rest) :
    number (decimal n ++ rest) = some (n, rest) := by
  have hdigits : ∀ c ∈ decimal n, digitValue c < if n = 0 then 8 else 10 := by
    intro c hc
    by_cases hn : n = 0
    · rw [hn, show decimal 0 = ['0'] by decide] at hc
      rw [if_pos hn, List.mem_singleton.1 hc]
      decide
    · rw [if_neg hn]
      exact digitValue_lt_of_isDigit (isDigit_decimal hc)
  have hvalue : value (if n = 0 then 8 else 10) (decimal n) = n := by
    by_cases hn : n = 0
    · rw [if_pos hn, hn]
      decide
    · rw [if_neg hn, value_decimal]
  have hfirst : (decimal n ++ rest).head?.any Char.isDigit = true := by
    obtain ⟨d, ds, hd⟩ := List.exists_cons_of_ne_nil (Nat.toDigits_ne_nil (n := n) (b := 10))
    have hmem : d ∈ decimal n := by
      rw [decimal, hd]
      exact List.mem_cons_self
    rw [decimal, hd]
    exact isDigit_decimal hmem
  have hbase : (if n = 0 then 8 else 10) ≤ 16 := by split <;> decide
  obtain ⟨htake, hdrop⟩ := takeWhile_ends h hbase
  rw [number, if_pos hfirst, radix_decimal h]
  dsimp only
  rw [List.takeWhile_append_of_pos (by simpa using hdigits),
    List.dropWhile_append_of_pos (by simpa using hdigits), htake, hdrop, List.append_nil, hvalue]

/-! ## Addresses -/

theorem inetBytes_dot {bytes v : Nat} (hv : v < 256) (rest : List Char) :
    inetBytes (bytes + 1) (decimal v ++ '.' :: rest) =
      (inetBytes bytes rest).map fun n => v * 256 ^ bytes + n := by
  rw [inetBytes, number_decimal v (.inr ⟨rest, rfl⟩)]
  exact if_pos hv

theorem inetBytes_last {bytes v : Nat} (hv : v < 256 ^ (bytes + 1)) :
    inetBytes (bytes + 1) (decimal v) = some v := by
  have hnumber : number (decimal v ++ []) = some (v, []) := number_decimal v (.inl rfl)
  rw [List.append_nil] at hnumber
  rw [inetBytes, hnumber]
  exact if_pos ⟨hv, rfl⟩

theorem toIp_eq (addr : InetAddress) : addr.toIp = decimal addr.a.toNat ++ '.' ::
    (decimal addr.b.toNat ++ '.' :: (decimal addr.c.toNat ++ '.' :: decimal addr.d.toNat)) := by
  simp only [toIp, List.append_assoc, List.cons_append]

theorem mem_toIp {addr : InetAddress} {c : Char} (hc : c ∈ addr.toIp) :
    c.isDigit = true ∨ c = '.' := by
  simp only [toIp_eq, List.mem_append, List.mem_cons] at hc
  rcases hc with h | h | h | h | h | h | h
  all_goals first
    | exact .inl (isDigit_decimal h)
    | exact .inr h

/-- **A printed address is read.** -/
theorem inetAddr_toIp (addr : InetAddress) : inetAddr addr.toIp = some addr.toNat := by
  have hkept : addr.toIp.takeWhile (fun c => c.toNat ≠ 0) = addr.toIp := by
    refine List.takeWhile_eq_self_iff.2 fun c hc => ?_
    rcases mem_toIp hc with hdigit | rfl
    · simp only [Char.isDigit, Bool.and_eq_true, decide_eq_true_eq] at hdigit
      have hge : 48 ≤ c.toNat := hdigit.1
      simpa using show c.toNat ≠ 0 by omega
    · rfl
  rw [inetAddr, hkept, toIp_eq, inetBytes_dot addr.a.toNat_lt, inetBytes_dot addr.b.toNat_lt,
    inetBytes_dot addr.c.toNat_lt, inetBytes_last (by simpa using addr.d.toNat_lt)]
  simp [toNat]

theorem ofNat_toNat (addr : InetAddress) (port : UInt16) :
    ofNat port addr.toNat = { addr with port } := by
  have ha := addr.a.toNat_lt
  have hb := addr.b.toNat_lt
  have hc := addr.c.toNat_lt
  have hd := addr.d.toNat_lt
  have hbyte : ∀ {x : UInt8} {n : Nat}, n % 256 = x.toNat → UInt8.ofNat n = x := by
    intro x n h
    apply UInt8.toNat_inj.1
    rw [UInt8.toNat_ofNat', h]
  simp only [ofNat, toNat, mk.injEq, and_true]
  exact ⟨hbyte (by omega), hbyte (by omega), hbyte (by omega), hbyte (by omega)⟩

theorem toNat_ofNat {n : Nat} (hn : n < 2 ^ 32) (port : UInt16) : (ofNat port n).toNat = n := by
  simp only [ofNat, toNat, UInt8.toNat_ofNat']
  omega

/-- **What is read fits into the bytes that are left.** -/
theorem inetBytes_lt {bytes n : Nat} {text : List Char} (h : inetBytes bytes text = some n) :
    n < 256 ^ bytes := by
  induction bytes generalizing text n with
  | zero => cases h
  | succ bytes ih =>
    rw [inetBytes] at h
    split at h
    · rename_i v rest _
      simp only [Option.ite_none_right_eq_some, Option.map_eq_some_iff] at h
      obtain ⟨hv, m, hm, rfl⟩ := h
      calc v * 256 ^ bytes + m < v * 256 ^ bytes + 256 ^ bytes := Nat.add_lt_add_left (ih hm) _
        _ = (v + 1) * 256 ^ bytes := (Nat.succ_mul _ _).symm
        _ ≤ 256 * 256 ^ bytes := Nat.mul_le_mul_right _ hv
        _ = 256 ^ (bytes + 1) := (Nat.pow_succ').symm
    · simp only [Option.ite_none_right_eq_some, Option.some.injEq] at h
      obtain ⟨⟨hv, -⟩, rfl⟩ := h
      exact hv
    · cases h

/-- Addresses are printed alike only if they and their ports are the same. -/
theorem toInPort_injective {addr addr' : InetAddress} (h : addr.toInPort = addr'.toInPort) :
    addr = addr' := by
  -- the address ends at the first colon
  have hsplit : ∀ x : InetAddress, x.toInPort.takeWhile (· ≠ ':') = x.toIp := by
    intro x
    have hkept : ∀ c ∈ x.toIp, decide (c ≠ ':') = true := by
      intro c hc
      rcases mem_toIp hc with hdigit | rfl
      · refine decide_eq_true ?_
        rintro rfl
        exact absurd hdigit (by decide)
      · rfl
    rw [toInPort, List.takeWhile_append_of_pos hkept]
    simp
  have hip : addr.toIp = addr'.toIp := by rw [← hsplit addr, h, hsplit]
  have hnat : addr.toNat = addr'.toNat := by
    have hread := inetAddr_toIp addr
    rw [hip, inetAddr_toIp] at hread
    exact (Option.some.inj hread).symm
  rw [toInPort, toInPort, hip] at h
  have hport : addr.port = addr'.port :=
    UInt16.toNat_inj.1 (decimal_injective (List.cons.inj (List.append_cancel_left h)).2)
  calc addr = ofNat addr.port addr.toNat := (ofNat_toNat addr addr.port).symm
    _ = ofNat addr'.port addr'.toNat := by rw [hnat, hport]
    _ = addr' := ofNat_toNat addr' addr'.port

/-- **Addresses survive being printed.** What `toIp` prints reads as the same address, with
whichever port. Whatever the text, the address made from it is printed as one that reads as the
text does, or as `INADDR_NONE` when the text cannot be read. And no two addresses with their ports
are printed alike. -/
theorem text_round_trip :
    (∀ (port : UInt16) (addr : InetAddress), ofText port addr.toIp = { addr with port }) ∧
    (∀ (port : UInt16) (ip : List Char),
      inetAddr (ofText port ip).toIp = some ((inetAddr ip).getD INADDR_NONE)) ∧
    ∀ addr addr' : InetAddress, addr.toInPort = addr'.toInPort → addr = addr' := by
  refine ⟨fun port addr => ?_, fun port ip => ?_, fun _ _ => toInPort_injective⟩
  · rw [ofText, inetAddr_toIp, Option.getD_some, ofNat_toNat]
  · have hlt : (inetAddr ip).getD INADDR_NONE < 2 ^ 32 := by
      cases h : inetAddr ip with
      | none => decide
      | some n => exact (inetBytes_lt h).trans_eq (by norm_num)
    rw [inetAddr_toIp, ofText, toNat_ofNat hlt]

/-- A hexadecimal number, an octal one, and two numbers where there is room for four. -/
example : (ofText 80 "0x7f.010.1".toList).toInPort = "127.8.0.1:80".toList ∧
    (ofText 80 "localhost".toList).toIp = "255.255.255.255".toList := by
  decide +kernel

end InetAddress

end WebCore
