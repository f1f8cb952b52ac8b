import Mathlib.Data.List.TakeWhile
import Mathlib.Data.Nat.Digits.Lemmas
import TestRpc.LibcCalls

/-!
# Where the stubs connect to

The server takes its port from `RPC_PORT` when it starts.  The stubs take host
and port from `RPC_HOST` and `RPC_PORT` at the first `connect_to_server` and
keep them in static variables; since the port 0 stands for "not read yet", they
read them again at every connect as long as the port comes out as 0.  A program
may change its environment between two calls, but not the characters of a
string in place: `host_string` points to the string that `getenv` has returned,
and is no copy of it.
-/

namespace TestRpc

/-! ## `atoi` -/

def isSpace (c : UInt8) : Bool :=
  c == 0x20 || (decide (0x09 ≤ c) && decide (c ≤ 0x0d))

def isDigit (c : UInt8) : Bool :=
  decide (0x30 ≤ c) && decide (c ≤ 0x39)

/-- The number that the digits at the front stand for. -/
def digitsValue (chars : List UInt8) : ℕ :=
  (chars.takeWhile isDigit).foldl
    (fun value c => 10 * value + (c.toNat - 0x30)) 0

def signedValue : List UInt8 → ℤ
  | [] => 0
  | c :: rest =>
      if c = 0x2d then -digitsValue rest
      else if c = 0x2b then digitsValue rest
      else digitsValue (c :: rest)

/-- `strtol(string, NULL, 10)`, which keeps to the range of `long`. -/
def strtol (string : CString) : ℤ :=
  max (-2 ^ 63) (min (2 ^ 63 - 1)
    (signedValue (string.chars.dropWhile isSpace)))

/-- `atoi` of the GNU C library is `(int) strtol(string, NULL, 10)`. -/
def atoi (string : CString) : CInt :=
  BitVec.ofInt 32 (strtol string)

/-- `(unsigned short) atoi(port_string)` -/
def portOf (string : CString) : BitVec 16 :=
  (atoi string).setWidth 16

/-! ## Configurations -/

/-- What `getenv` returns for `RPC_HOST` and `RPC_PORT`. -/
structure Environment where
  rpcHost : Option CString
  rpcPort : Option CString
  deriving DecidableEq

/-- `"127.0.0.1"` -/
def HOSTNAME : CString :=
  ⟨[0x31, 0x32, 0x37, 0x2e, 0x30, 0x2e, 0x30, 0x2e, 0x31], by decide⟩

/-- `"5000"` -/
def PORT_NUMBER : CString :=
  ⟨[0x35, 0x30, 0x30, 0x30], by decide⟩

/-- The static variables `host_string` and `port_number`. -/
structure Configuration where
  hostString : Option CString
  portNumber : BitVec 16

def Configuration.initial : Configuration :=
  ⟨none, 0⟩

/-- The beginning of `connect_to_server`. -/
def Configuration.read (environment : Environment)
    (configuration : Configuration) : Configuration :=
  if configuration.hostString = none ∨ configuration.portNumber = 0 then
    ⟨some (environment.rpcHost.getD HOSTNAME),
      portOf (environment.rpcPort.getD PORT_NUMBER)⟩
  else
    configuration

def htons (port : BitVec 16) : BitVec 16 :=
  port.extractLsb' 0 8 ++ port.extractLsb' 8 8

structure SockaddrIn where
  sinPort : BitVec 16
  sAddr : BitVec 32

/-- The address that `connect_to_server` connects to. -/
def Configuration.connection (inetAddr : CString → BitVec 32)
    (configuration : Configuration) : Option SockaddrIn :=
  configuration.hostString.map fun host =>
    ⟨htons configuration.portNumber, inetAddr host⟩

/-- The addresses of successive connects, each with the environment of its
time. -/
def connections (inetAddr : CString → BitVec 32) :
    Configuration → List Environment → List (Option SockaddrIn)
  | _, [] => []
  | configuration, environment :: rest =>
      let configuration := configuration.read environment
      configuration.connection inetAddr ::
        connections inetAddr configuration rest

/-- The port that the server's `main` gives to `bind`. -/
def serverPort (environment : Environment) : BitVec 16 :=
  match environment.rpcPort with
  | some string => portOf string
  | none => 5000

/-- The port that a socket is bound to: `bind` replaces 0 by a free port that
the kernel chooses. -/
def boundPort (chosen sinPort : BitVec 16) : BitVec 16 :=
  if sinPort = 0 then chosen else sinPort

def Environment.clientPort (environment : Environment) : BitVec 16 :=
  portOf (environment.rpcPort.getD PORT_NUMBER)

def Environment.clientHost (environment : Environment) : CString :=
  environment.rpcHost.getD HOSTNAME

/-! ## Decimal numerals -/

/-- The character of a digit. -/
def digitChar (digit : ℕ) : UInt8 :=
  UInt8.ofNat (0x30 + digit)

/-- A number as `printf` writes it with `"%lu"`. -/
def numeral (n : ℕ) : List UInt8 :=
  if n = 0 then [0x30] else ((Nat.digits 10 n).map digitChar).reverse

theorem digitChar_toNat {digit : ℕ} (hdigit : digit < 10) :
    (digitChar digit).toNat = 0x30 + digit := by
  rw [digitChar, UInt8.toNat_ofNat']
  omega

theorem isDigit_digitChar {digit : ℕ} (hdigit : digit < 10) :
    isDigit (digitChar digit) = true := by
  rw [isDigit, Bool.and_eq_true, decide_eq_true_eq, decide_eq_true_eq,
    UInt8.le_iff_toNat_le, UInt8.le_iff_toNat_le, digitChar_toNat hdigit]
  constructor
  · exact Nat.le_add_right _ _
  · change 0x30 + digit ≤ 0x39
    omega

theorem isDigit_of_mem_numeral {n : ℕ} {c : UInt8} (hmem : c ∈ numeral n) :
    isDigit c = true := by
  rw [numeral] at hmem
  split at hmem
  · rw [List.mem_singleton.mp hmem]
    decide
  · rw [List.mem_reverse, List.mem_map] at hmem
    obtain ⟨digit, hdigit, rfl⟩ := hmem
    exact isDigit_digitChar (Nat.digits_lt_base (by decide) hdigit)

theorem foldr_digitChar {digits : List ℕ} (hdigits : ∀ d ∈ digits, d < 10) :
    (digits.map digitChar).foldr
        (fun c value => 10 * value + (c.toNat - 0x30)) 0 =
      Nat.ofDigits 10 digits := by
  induction digits with
  | nil => rfl
  | cons digit rest ih =>
      rw [List.map_cons, List.foldr_cons,
        ih fun d hd => hdigits d (List.mem_cons_of_mem _ hd),
        digitChar_toNat (hdigits digit List.mem_cons_self),
        Nat.ofDigits_cons, Nat.add_sub_cancel_left, Nat.add_comm]

theorem digitsValue_numeral (n : ℕ) : digitsValue (numeral n) = n := by
  have hall : (numeral n).takeWhile isDigit = numeral n :=
    List.takeWhile_eq_self_iff.mpr fun _ => isDigit_of_mem_numeral
  rw [digitsValue, hall, numeral]
  split
  · next hzero =>
    subst hzero
    decide
  · rw [List.foldl_reverse, foldr_digitChar fun _ hd =>
      Nat.digits_lt_base (by decide) hd]
    exact Nat.ofDigits_digits 10 n

theorem numeral_ne_nil (n : ℕ) : numeral n ≠ [] := by
  rw [numeral]
  split
  · simp
  · next hne => simpa [Nat.digits_ne_nil_iff_ne_zero] using hne

theorem isSpace_of_isDigit {c : UInt8} (hdigit : isDigit c = true) :
    isSpace c = false := by
  rw [isDigit, Bool.and_eq_true, decide_eq_true_eq,
    UInt8.le_iff_toNat_le] at hdigit
  have hlow : 0x30 ≤ c.toNat := hdigit.1
  have hblank : c ≠ 0x20 := by
    rintro rfl
    revert hlow
    decide
  have hcontrol : ¬ c ≤ 0x0d := by
    rw [UInt8.le_iff_toNat_le]
    intro hle
    have hhigh : c.toNat ≤ 0x0d := hle
    omega
  simp [isSpace, hblank, hcontrol]

theorem signedValue_numeral (n : ℕ) :
    signedValue ((numeral n).dropWhile isSpace) = n := by
  cases hnumeral : numeral n with
  | nil => exact absurd hnumeral (numeral_ne_nil n)
  | cons c rest =>
      have hmem : c ∈ numeral n := by
        rw [hnumeral]
        exact List.mem_cons_self
      have hdigit := isDigit_of_mem_numeral hmem
      have hspace : isSpace c = false := isSpace_of_isDigit hdigit
      have hminus : c ≠ 0x2d := by
        rintro rfl
        cases hdigit
      have hplus : c ≠ 0x2b := by
        rintro rfl
        cases hdigit
      rw [List.dropWhile_cons_of_neg (by simp [hspace]), signedValue,
        if_neg hminus, if_neg hplus, ← hnumeral, digitsValue_numeral]

theorem portOf_numeral {string : CString} {n : ℕ}
    (hstring : string.chars = numeral n) (hsmall : n < 2 ^ 63) :
    portOf string = BitVec.ofNat 16 n := by
  have hstrtol : strtol string = n := by
    rw [strtol, hstring, signedValue_numeral]
    omega
  rw [portOf, atoi, hstrtol]
  apply BitVec.eq_of_toNat_eq
  rw [BitVec.ofInt_natCast, BitVec.toNat_setWidth, BitVec.toNat_ofNat,
    BitVec.toNat_ofNat]
  omega

/-! ## Successive connects -/

def Environment.hasPort (environment : Environment) : Bool :=
  environment.clientPort != 0

/-- The environment that decides where the connect with this number goes: the
first one that gives a port other than 0, or else the current one. -/
def decidingEnvironment (environments : List Environment) (index : ℕ)
    (current : Environment) : Environment :=
  ((environments.take (index + 1)).find? Environment.hasPort).getD current

def Environment.connection (inetAddr : CString → BitVec 32)
    (environment : Environment) : SockaddrIn :=
  ⟨htons environment.clientPort, inetAddr environment.clientHost⟩

theorem connections_of_set (inetAddr : CString → BitVec 32) {host : CString}
    {port : BitVec 16} (hport : port ≠ 0) {environments : List Environment}
    {i : ℕ} (hi : i < environments.length) :
    (connections inetAddr ⟨some host, port⟩ environments)[i]? =
      some (some ⟨htons port, inetAddr host⟩) := by
  induction environments generalizing i with
  | nil => cases hi
  | cons environment rest ih =>
      have hread : Configuration.read environment ⟨some host, port⟩ =
          ⟨some host, port⟩ := by
        apply if_neg
        rintro (hhost | hzero)
        · cases hhost
        · exact hport hzero
      rw [connections, hread]
      cases i with
      | zero => rfl
      | succ i =>
          rw [List.getElem?_cons_succ]
          exact ih (Nat.lt_of_succ_lt_succ hi)

theorem connections_of_unset (inetAddr : CString → BitVec 32)
    {configuration : Configuration}
    (hunset : configuration.hostString = none ∨ configuration.portNumber = 0)
    {environments : List Environment} {i : ℕ} {current : Environment}
    (hcurrent : environments[i]? = some current) :
    (connections inetAddr configuration environments)[i]? =
      some (some ((decidingEnvironment environments i current).connection
        inetAddr)) := by
  induction environments generalizing i configuration with
  | nil => cases hcurrent
  | cons environment rest ih =>
      have hread : configuration.read environment =
          ⟨some environment.clientHost, environment.clientPort⟩ :=
        if_pos hunset
      rw [connections, hread, decidingEnvironment, List.take_succ_cons,
        List.find?_cons]
      by_cases hport : environment.clientPort = 0
      · have htest : environment.hasPort = false := by
          simp [Environment.hasPort, hport]
        rw [htest]
        cases i with
        | zero =>
            cases hcurrent
            rfl
        | succ i => exact ih (.inr hport) hcurrent
      · have htest : environment.hasPort = true := bne_iff_ne.mpr hport
        rw [htest]
        cases i with
        | zero => rfl
        | succ i =>
            have hi := (List.getElem?_eq_some_iff.mp hcurrent).1
            exact connections_of_set inetAddr hport
              (Nat.lt_of_succ_lt_succ hi)

theorem serverPort_eq (environment : Environment) :
    serverPort environment = environment.clientPort := by
  rw [serverPort, Environment.clientPort]
  cases environment.rpcPort with
  | some string => rfl
  | none => decide

theorem htons_htons (port : BitVec 16) : htons (htons port) = port := by
  apply BitVec.eq_of_getLsbD_eq
  intro i hi
  simp only [htons, BitVec.getLsbD_append, BitVec.getLsbD_extractLsb']
  by_cases hlow : i < 8
  · simp [hlow]
  · have hhigh : i - 8 < 8 := by omega
    have hsum : 8 + (i - 8) = i := by omega
    simp [hlow, hhigh, hsum]

theorem htons_eq_zero_iff (port : BitVec 16) : htons port = 0 ↔ port = 0 := by
  constructor
  · intro hzero
    have hport := congrArg htons hzero
    rw [htons_htons] at hport
    exact hport
  · rintro rfl
    decide

theorem boundPort_htons_iff {chosen : BitVec 16} (hchosen : chosen ≠ 0)
    (port : BitVec 16) :
    boundPort chosen (htons port) = htons port ↔ port ≠ 0 := by
  rw [boundPort]
  split
  · next hzero =>
    rw [hzero]
    have hport := (htons_eq_zero_iff port).mp hzero
    exact iff_of_false hchosen (not_not_intro hport)
  · next hne =>
    exact iff_of_true rfl fun hport => hne ((htons_eq_zero_iff port).mpr hport)

/-- Where the connects of a client process go, whatever its environment is at
each of them; a server whose `RPC_PORT` is that of the environment that
decides gives this very port to `bind`, and listens on it exactly when it is
not 0; and a numeral gives its number, reduced to 16 bits. -/
theorem connections_agree (inetAddr : CString → BitVec 32)
    {environments : List Environment} {i : ℕ} {current : Environment}
    (hcurrent : environments[i]? = some current) :
    (connections inetAddr .initial environments)[i]? =
        some (some ((decidingEnvironment environments i current).connection
          inetAddr)) ∧
      (∀ server : Environment, server.rpcPort =
          (decidingEnvironment environments i current).rpcPort →
        htons (serverPort server) =
          ((decidingEnvironment environments i current).connection
            inetAddr).sinPort ∧
        ∀ chosen : BitVec 16, chosen ≠ 0 →
          (boundPort chosen (htons (serverPort server)) =
            ((decidingEnvironment environments i current).connection
              inetAddr).sinPort ↔ serverPort server ≠ 0)) ∧
      ∀ string n, (decidingEnvironment environments i current).rpcPort =
          some string → string.chars = numeral n → n < 2 ^ 63 →
        ((decidingEnvironment environments i current).connection
          inetAddr).sinPort = htons (BitVec.ofNat 16 n) := by
  refine ⟨connections_of_unset inetAddr (.inl rfl) hcurrent, ?_, ?_⟩
  · intro server hsame
    have hport : htons (serverPort server) =
        ((decidingEnvironment environments i current).connection
          inetAddr).sinPort := by
      rw [serverPort_eq, Environment.connection, Environment.clientPort,
        hsame, ← Environment.clientPort]
    refine ⟨hport, fun chosen hchosen => ?_⟩
    rw [← hport]
    exact boundPort_htons_iff hchosen (serverPort server)
  · intro string n hstring hnumeral hsmall
    rw [Environment.connection, Environment.clientPort, hstring,
      Option.getD_some, portOf_numeral hnumeral hsmall]

/-- `"65536"` -/
def tooLarge : CString :=
  ⟨[0x36, 0x35, 0x35, 0x33, 0x36], by decide⟩

/-- `"70000"` -/
def reduced : CString :=
  ⟨[0x37, 0x30, 0x30, 0x30, 0x30], by decide⟩

/-- `RPC_PORT` is `65536` first, which gives the port 0, then `70000`, and
then not set. -/
def changingEnvironments : List Environment :=
  [⟨none, some tooLarge⟩, ⟨none, some reduced⟩, ⟨none, none⟩]

/-- The third connect goes to the port that `70000` gives. -/
theorem connections_agree_reread :
    changingEnvironments[2]? = some ⟨none, none⟩ ∧
      (connections (fun _ => 0x0100007f) .initial
          changingEnvironments)[2]? =
        some (some ⟨htons 4464, 0x0100007f⟩) := by
  have hcurrent : changingEnvironments[2]? = some ⟨none, none⟩ := rfl
  have hdeciding : decidingEnvironment changingEnvironments 2 ⟨none, none⟩ =
      ⟨none, some reduced⟩ := by decide
  obtain ⟨hconnection, -, hnumeral⟩ :=
    connections_agree (fun _ => 0x0100007f) hcurrent
  rw [hdeciding] at hconnection hnumeral
  have hport := hnumeral reduced 70000 rfl (by decide) (by decide)
  refine ⟨hcurrent, hconnection.trans ?_⟩
  exact congrArg (fun port => some (some (SockaddrIn.mk port 0x0100007f)))
    hport

end TestRpc
