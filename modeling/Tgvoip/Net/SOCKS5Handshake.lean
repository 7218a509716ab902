import Tgvoip.Net.NetworkSocketSOCKS5Proxy
import Tgvoip.Lib.Fallible

/-!
# SOCKS5Handshake — how a proxy connection is made

Runs of `NetworkSocketSOCKS5Proxy` over its two callbacks, against whatever
the proxy sends. `Path` is the handshake as it is meant: what has been sent
and received when a state is reached. A run differs from a path in refused
replies only: they fail the socket, and the state machine goes on from where
it was.
-/

namespace Tgvoip

open ByteReader Fallible

/-- What passes between the client and the proxy. -/
inductive ProxyAction where
  | sent (message : Bytes)
  | received (buf : Bytes)
  deriving DecidableEq, Repr

namespace NetworkSocketSOCKS5Proxy

/-! ## The handshake as it is meant -/

/-- The address of an association: four bytes, a domain that is known, or
sixteen bytes. -/
inductive Host (resolve : Bytes → NetworkAddress) : Bytes → Prop
  | ipv4 {addr : Bytes} (h : addr.length = 4) : Host resolve (1 :: addr)
  | domain {len : UInt8} {name : Bytes} (h : name.length = len.toNat)
      (hknown : (resolve (cString name)).isEmpty = false) : Host resolve (3 :: len :: name)
  | ipv6 {addr : Bytes} (h : addr.length = 16) : Host resolve (4 :: addr)

/-- The reply to the command: success, for UDP with an address and a port. -/
def Granted (resolve : Bytes → NetworkAddress) (protocol : NetworkProtocol) (reply : Bytes) : Prop :=
  match protocol with
  | .tcp => [5, 0] <+: reply
  | .udp => ∃ rsv host port rest, reply = [5, 0, rsv] ++ (host ++ (port ++ rest)) ∧
      Host resolve host ∧ port.length = 2

section
variable (resolve : Bytes → NetworkAddress) (p : NetworkSocketSOCKS5Proxy)

/-- The ways to be let in: without authentication, or with the password that
was offered. -/
inductive Login : List ProxyAction → Prop
  | noAuth {reply : Bytes} (h : [5, 0] <+: reply) : Login [.sent p.greeting, .received reply]
  | password {reply auth : Bytes} (hname : p.username ≠ []) (h : [5, 2] <+: reply)
      (hauth : [1, 0] <+: auth) :
      Login [.sent p.greeting, .received reply, .sent p.credentials, .received auth]

/-- What leads to a state. -/
inductive Path : ConnectionState → List ProxyAction → Prop
  | initial : Path .initial []
  | greeted : Path .waitingForAuthMethod [.sent p.greeting]
  | asked {reply : Bytes} (hname : p.username ≠ []) (h : [5, 2] <+: reply) :
      Path .waitingForAuthResult [.sent p.greeting, .received reply, .sent p.credentials]
  | commanded {way : List ProxyAction} (h : Login p way) :
      Path .waitingForCommandResult (way ++ [.sent p.command])
  | connected {way : List ProxyAction} {reply : Bytes} (h : Login p way)
      (hreply : Granted resolve p.protocol reply) :
      Path .connected (way ++ [.sent p.command] ++ [.received reply])

end

/-- The messages that were sent. -/
def messages (trace : List ProxyAction) : List Bytes :=
  trace.filterMap fun
    | .sent message => some message
    | .received _ => none

theorem messages_append (t u : List ProxyAction) : messages (t ++ u) = messages t ++ messages u :=
  List.filterMap_append

@[simp] theorem messages_sent (ms : List Bytes) : messages (ms.map .sent) = ms := by
  simp [messages, List.filterMap_map]

/-! ## The steps of the code -/

/-- The states in which `OnReadyToReceive` reads a reply. -/
def Waiting (p : NetworkSocketSOCKS5Proxy) : Prop :=
  p.state = .waitingForAuthMethod ∨ p.state = .waitingForAuthResult ∨
    p.state = .waitingForCommandResult

instance (p : NetworkSocketSOCKS5Proxy) : Decidable p.Waiting := inferInstanceAs (Decidable (_ ∨ _))

/-- What the messages are made of. The UDP command names no address. -/
structure SameScript (p q : NetworkSocketSOCKS5Proxy) : Prop where
  protocol : q.protocol = p.protocol
  username : q.username = p.username
  password : q.password = p.password
  address : p.protocol = .tcp →
    q.connectedAddress = p.connectedAddress ∧ q.connectedPort = p.connectedPort

variable {resolve : Bytes → NetworkAddress} {p q r : NetworkSocketSOCKS5Proxy} {buf : Bytes}

theorem SameScript.refl (p : NetworkSocketSOCKS5Proxy) : SameScript p p :=
  ⟨rfl, rfl, rfl, fun _ => ⟨rfl, rfl⟩⟩

theorem SameScript.trans (h : SameScript p q) (h' : SameScript q r) : SameScript p r where
  protocol := h'.protocol.trans h.protocol
  username := h'.username.trans h.username
  password := h'.password.trans h.password
  address := fun htcp =>
    have hq := h'.address (h.protocol.trans htcp)
    ⟨hq.1.trans (h.address htcp).1, hq.2.trans (h.address htcp).2⟩

theorem SameScript.greeting (h : SameScript p q) : q.greeting = p.greeting := by
  unfold NetworkSocketSOCKS5Proxy.greeting
  rw [h.username]

theorem SameScript.credentials (h : SameScript p q) : q.credentials = p.credentials := by
  unfold NetworkSocketSOCKS5Proxy.credentials
  rw [h.username, h.password]

theorem SameScript.command (h : SameScript p q) : q.command = p.command := by
  unfold NetworkSocketSOCKS5Proxy.command
  rw [h.protocol]
  cases hprotocol : p.protocol with
  | tcp =>
    dsimp only
    rw [(h.address hprotocol).1, (h.address hprotocol).2]
  | udp => rfl

/-- What `OnReadyToReceive` can do with a reply. -/
inductive Outcome (resolve : Bytes → NetworkAddress) (p : NetworkSocketSOCKS5Proxy) (buf : Bytes) :
    ProxyStep → Prop
  | refused {s : ProxyStep} (hsent : s.sent = []) (hstate : s.proxy.state = p.state)
      (hfailed : s.proxy.failed = true) (hscript : SameScript p s.proxy) : Outcome resolve p buf s
  | noAuth (hstate : p.state = .waitingForAuthMethod) (h : [5, 0] <+: buf) :
      Outcome resolve p buf p.sendConnectionCommand
  | asked {s : ProxyStep} (hstate : p.state = .waitingForAuthMethod) (hname : p.username ≠ [])
      (h : [5, 2] <+: buf) (hsent : s.sent = [p.credentials])
      (hnext : s.proxy = { p with state := .waitingForAuthResult }) : Outcome resolve p buf s
  | admitted (hstate : p.state = .waitingForAuthResult) (h : [1, 0] <+: buf) :
      Outcome resolve p buf p.sendConnectionCommand
  | connected {s : ProxyStep} (hstate : p.state = .waitingForCommandResult)
      (h : Granted resolve p.protocol buf) (hsent : s.sent = [])
      (hnext : s.proxy.state = .connected) (hscript : SameScript p s.proxy) :
      Outcome resolve p buf s

theorem outcome_refuse : Outcome resolve p buf p.refuse :=
  .refused rfl rfl rfl ⟨rfl, rfl, rfl, fun _ => ⟨rfl, rfl⟩⟩

/-- Two bytes are there to be read. -/
theorem exists_two (h : ¬ buf.length < 2) : ∃ a b rest, buf = a :: b :: rest := by
  match buf, h with
  | a :: b :: rest, _ => exact ⟨a, b, rest, rfl⟩
  | [_], h => exact absurd (Nat.lt_succ_self 1) h
  | [], h => exact absurd Nat.two_pos h

theorem prefix_two (x y : UInt8) (rest : Bytes) : [x, y] <+: x :: y :: rest := ⟨rest, rfl⟩

theorem onAuthMethod_run (ver chosenMethod : UInt8) (rest : Bytes) :
    p.onAuthMethod.run (ver :: chosenMethod :: rest) = some
      (if ver ≠ 5 then p.refuse
        else if chosenMethod = 0 then p.sendConnectionCommand
        else if chosenMethod = 2 && p.username ≠ [] then
          { sent := [p.credentials], proxy := { p with state := .waitingForAuthResult } }
        else p.refuse, rest) := by
  show (ite _ _ _ : Reader ProxyStep).run rest = _
  split_ifs <;> rfl

theorem onAuthResult_run (ver status : UInt8) (rest : Bytes) :
    p.onAuthResult.run (ver :: status :: rest) = some
      (if ver ≠ 1 then p.refuse
        else if status ≠ 0 then p.refuse else p.sendConnectionCommand, rest) := by
  show (ite _ _ _ : Reader ProxyStep).run rest = _
  split_ifs <;> rfl

theorem onConnected_run (ver rep : UInt8) (rest : Bytes) :
    ∃ left, p.onConnected.run (ver :: rep :: rest) = some
      (if ver ≠ 5 then p.refuse
        else if rep ≠ 0 then p.refuse
        else { proxy := { p with state := .connected, readyToSend := true }, answer := none },
        left) := by
  show ∃ left, (ite _ _ _ : Reader ProxyStep).run (rep :: rest) = _
  split_ifs with hver hrep
  · exact ⟨rep :: rest, rfl⟩
  · refine ⟨rest, ?_⟩
    show (ite _ _ _ : Reader ProxyStep).run rest = _
    rw [if_pos hrep]
    rfl
  · refine ⟨rest, ?_⟩
    show (ite _ _ _ : Reader ProxyStep).run rest = _
    rw [if_neg hrep]
    rfl

theorem outcome_authMethod (hstate : p.state = .waitingForAuthMethod) (hlen : ¬ buf.length < 2) :
    ∃ s, uncaught (p.onAuthMethod.run buf) = .ok s ∧ Outcome resolve p buf s := by
  obtain ⟨ver, chosenMethod, rest, rfl⟩ := exists_two hlen
  rw [onAuthMethod_run]
  refine ⟨_, rfl, ?_⟩
  split_ifs with hver hnone hpassword
  · exact outcome_refuse
  · rw [not_not.mp hver, hnone]
    exact .noAuth hstate (prefix_two 5 0 rest)
  · rw [Bool.and_eq_true, decide_eq_true_eq, decide_eq_true_eq] at hpassword
    rw [not_not.mp hver, hpassword.1]
    exact .asked hstate hpassword.2 (prefix_two 5 2 rest) rfl rfl
  · exact outcome_refuse

theorem outcome_authResult (hstate : p.state = .waitingForAuthResult) (hlen : ¬ buf.length < 2) :
    ∃ s, uncaught (p.onAuthResult.run buf) = .ok s ∧ Outcome resolve p buf s := by
  obtain ⟨ver, status, rest, rfl⟩ := exists_two hlen
  rw [onAuthResult_run]
  refine ⟨_, rfl, ?_⟩
  split_ifs with hver hstatus
  · exact outcome_refuse
  · exact outcome_refuse
  · rw [not_not.mp hver, not_not.mp hstatus]
    exact .admitted hstate (prefix_two 1 0 rest)

theorem outcome_connected (hstate : p.state = .waitingForCommandResult)
    (hprotocol : p.protocol = .tcp) (hlen : ¬ buf.length < 2) :
    ∃ s, uncaught (p.onConnected.run buf) = .ok s ∧ Outcome resolve p buf s := by
  obtain ⟨ver, rep, rest, rfl⟩ := exists_two hlen
  obtain ⟨left, hrun⟩ := onConnected_run (p := p) ver rep rest
  rw [hrun]
  refine ⟨_, rfl, ?_⟩
  split_ifs with hver hrep
  · exact outcome_refuse
  · exact outcome_refuse
  · rw [not_not.mp hver, not_not.mp hrep]
    refine .connected hstate ?_ rfl rfl ⟨rfl, rfl, rfl, fun _ => ⟨rfl, rfl⟩⟩
    rw [hprotocol]
    exact prefix_two 5 0 rest

/-- What was read as an address: a host, but for a domain that is not known. -/
theorem host_of_readAddress {rest rest' : Bytes} {address : NetworkAddress} {domain : Bool}
    (h : (readAddress resolve).run rest = some (some (address, domain), rest'))
    (hknown : (domain && address.isEmpty) = false) :
    ∃ rsv host, rest = rsv :: (host ++ rest') ∧ Host resolve host := by
  obtain ⟨rsv, r₁, hrsv, h⟩ := run_bind_eq_some.mp h
  obtain ⟨atyp, r₂, hatyp, h⟩ := run_bind_eq_some.mp h
  rw [of_run_u8 hrsv, of_run_u8 hatyp]
  refine ⟨rsv, ?_⟩
  split_ifs at h with h1 h3 h4
  · obtain ⟨addr, r₃, haddr, h⟩ := run_bind_eq_some.mp h
    cases h
    obtain ⟨front, hfront, rfl⟩ := of_run_u32 haddr
    exact ⟨atyp :: front, rfl, h1 ▸ .ipv4 hfront⟩
  · obtain ⟨len, r₃, hlen, h⟩ := run_bind_eq_some.mp h
    obtain ⟨name, r₄, hname, h⟩ := run_bind_eq_some.mp h
    cases h
    obtain ⟨hlength, rfl⟩ := of_run_bytes hname
    rw [of_run_u8 hlen]
    exact ⟨atyp :: len :: name, rfl, h3 ▸ .domain hlength hknown⟩
  · obtain ⟨addr, r₃, haddr, h⟩ := run_bind_eq_some.mp h
    cases h
    rw [ExtraIpv6Endpoint.of_run_parseAddress haddr]
    exact ⟨atyp :: addr.val, rfl, h4 ▸ .ipv6 addr.property⟩
  · cases h

theorem outcome_parseFailed : Outcome resolve p buf p.parseFailed :=
  .refused rfl rfl rfl ⟨rfl, rfl, rfl, fun _ => ⟨rfl, rfl⟩⟩

/-- A caught exception, or a port. -/
theorem associate_cases (p : NetworkSocketSOCKS5Proxy) (rest : Bytes) :
    p.associate rest = p.parseFailed ∨ ∃ port left bytes, bytes.length = 2 ∧ rest = bytes ++ left ∧
      p.associate rest =
        { proxy := { p with connectedPort := port, state := .connected, readyToSend := true }
          answer := none } := by
  unfold associate
  cases hport : u16.run rest with
  | none => exact .inl rfl
  | some result =>
    obtain ⟨bytes, hlength, hrest⟩ := of_run_u16 hport
    exact .inr ⟨htons result.1, result.2, bytes, hlength, hrest, rfl⟩

theorem outcome_associated (hstate : p.state = .waitingForCommandResult)
    (hprotocol : p.protocol = .udp) (hlen : ¬ buf.length < 2) :
    Outcome resolve p buf (p.onAssociated resolve buf) := by
  obtain ⟨ver, rep, rest, rfl⟩ := exists_two hlen
  have hnottcp : p.protocol ≠ .tcp := by rw [hprotocol]; decide
  rw [onAssociated_cons]
  split_ifs with hver hrep
  · exact outcome_refuse
  · exact outcome_refuse
  rw [not_not.mp hver, not_not.mp hrep]
  cases hread : (readAddress resolve).run rest with
  | none => exact outcome_parseFailed
  | some result =>
    obtain ⟨_ | ⟨address, domain⟩, rest'⟩ := result
    · exact outcome_refuse
    dsimp only
    split_ifs with hunknown
    · exact .refused rfl rfl rfl ⟨rfl, rfl, rfl, fun htcp => absurd htcp hnottcp⟩
    obtain ⟨rsv, host, rfl, hhost⟩ := host_of_readAddress hread (Bool.not_eq_true _ ▸ hunknown)
    rcases associate_cases { p with connectedAddress := address } rest' with
      hfailed | ⟨port, left, bytes, hlength, rfl, hassociated⟩
    · rw [hfailed]
      exact .refused rfl rfl rfl ⟨rfl, rfl, rfl, fun htcp => absurd htcp hnottcp⟩
    · rw [hassociated]
      refine .connected hstate ?_ rfl rfl ⟨rfl, rfl, rfl, fun htcp => absurd htcp hnottcp⟩
      rw [hprotocol]
      exact ⟨rsv, host, bytes, left, rfl, hhost, hlength⟩

variable (resolve) in
/-- **Every reply** is refused, or leads one step on; none throws. -/
theorem onReadyToReceive_outcome (hwait : p.Waiting) (received : Bytes) (tcpFailed : Bool) :
    ∃ s, p.onReadyToReceive resolve received tcpFailed = .ok s ∧
      Outcome resolve p (received.take 1024) s := by
  unfold onReadyToReceive
  generalize received.take 1024 = buf
  by_cases hshort : (decide (buf.length < 2) || tcpFailed) = true
  · refine ⟨p.refuse, ?_, outcome_refuse⟩
    rcases hwait with hstate | hstate | hstate
    · rw [hstate]
      exact if_pos hshort
    · rw [hstate]
      exact if_pos hshort
    · rw [hstate]
      exact if_pos hshort
  · have hlen : ¬ buf.length < 2 := fun h => hshort (by simp [h])
    rcases hwait with hstate | hstate | hstate
    · rw [hstate]
      dsimp only
      rw [if_neg hshort]
      exact outcome_authMethod hstate hlen
    · rw [hstate]
      dsimp only
      rw [if_neg hshort]
      exact outcome_authResult hstate hlen
    · rw [hstate]
      dsimp only
      rw [if_neg hshort]
      cases hprotocol : p.protocol with
      | tcp => exact outcome_connected hstate hprotocol hlen
      | udp => exact ⟨_, rfl, outcome_associated hstate hprotocol hlen⟩

theorem onReadyToReceive_idle (hidle : ¬ p.Waiting) (received : Bytes) (tcpFailed : Bool) :
    p.onReadyToReceive resolve received tcpFailed = .ok { proxy := p, answer := none } := by
  unfold Waiting at hidle
  unfold onReadyToReceive
  cases hstate : p.state with
  | initial => rfl
  | connected => rfl
  | waitingForAuthMethod => exact absurd (.inl hstate) hidle
  | waitingForAuthResult => exact absurd (.inr (.inl hstate)) hidle
  | waitingForCommandResult => exact absurd (.inr (.inr hstate)) hidle

/-! ## Replies that are refused -/

/-- The reply leads on from the state. -/
def Accepted (resolve : Bytes → NetworkAddress) (p : NetworkSocketSOCKS5Proxy) (buf : Bytes) : Prop :=
  match p.state with
  | .waitingForAuthMethod => [5, 0] <+: buf ∨ [5, 2] <+: buf ∧ p.username ≠ []
  | .waitingForAuthResult => [1, 0] <+: buf
  | .waitingForCommandResult => Granted resolve p.protocol buf
  | _ => True

theorem Granted.success {protocol : NetworkProtocol} (h : Granted resolve protocol buf) :
    [5, 0] <+: buf := by
  cases protocol with
  | tcp => exact h
  | udp =>
    obtain ⟨rsv, host, port, rest, rfl, -⟩ := h
    exact prefix_two 5 0 (rsv :: (host ++ (port ++ rest)))

theorem not_accepted_of_short (hwait : p.Waiting) (h : buf.length < 2) :
    ¬ Accepted resolve p buf := by
  have hfew : ∀ {x y : UInt8}, ¬ [x, y] <+: buf := fun hfront => by
    have := hfront.length_le
    simp only [List.length_cons, List.length_nil] at this
    omega
  rcases hwait with hstate | hstate | hstate
  · rw [Accepted, hstate]
    exact fun h => h.elim hfew fun h => hfew h.1
  · rw [Accepted, hstate]
    exact hfew
  · rw [Accepted, hstate]
    exact fun h => hfew h.success

theorem Outcome.refused_of_not_accepted {s : ProxyStep} (h : Outcome resolve p buf s)
    (hnot : ¬ Accepted resolve p buf) :
    s.proxy.failed = true ∧ s.proxy.state = p.state ∧ s.sent = [] := by
  unfold Accepted at hnot
  cases h with
  | refused hsent hstate hfailed hscript => exact ⟨hfailed, hstate, hsent⟩
  | noAuth hstate h => rw [hstate] at hnot; exact absurd (.inl h) hnot
  | asked hstate hname h => rw [hstate] at hnot; exact absurd (.inr ⟨h, hname⟩) hnot
  | admitted hstate h => rw [hstate] at hnot; exact absurd h hnot
  | connected hstate h => rw [hstate] at hnot; exact absurd h hnot

/-! ## Messages -/

theorem credentials_ne_greeting (p : NetworkSocketSOCKS5Proxy) : p.credentials ≠ p.greeting := by
  intro h
  have hfirst := congrArg List.head? h
  rw [greeting] at hfirst
  split at hfirst <;> cases hfirst

theorem command_head (p : NetworkSocketSOCKS5Proxy) : p.command.head? = some 5 := by
  unfold command
  cases p.protocol <;> rfl

theorem credentials_ne_command (p : NetworkSocketSOCKS5Proxy) : p.credentials ≠ p.command := by
  intro h
  have hfirst := congrArg List.head? h
  rw [command_head] at hfirst
  cases hfirst

theorem command_ne_greeting (p : NetworkSocketSOCKS5Proxy) : p.command ≠ p.greeting := by
  intro h
  have hgreeting : p.greeting.length ≤ 4 := by
    rw [greeting]
    split <;> decide
  have hcommand : 8 ≤ p.command.length := by
    unfold command
    cases p.protocol with
    | tcp =>
      simp only [List.length_append, length_le16, List.length_cons, List.length_nil]
      have hfield : 3 ≤ p.connectedAddress.field.length := by
        cases p.connectedAddress with
        | ipv4 addr => simp [NetworkAddress.field]
        | ipv6 addr => simp [NetworkAddress.field, addr.property]
      omega
    | udp => exact (by decide : 8 ≤ 10)
  rw [h] at hcommand
  omega

end NetworkSocketSOCKS5Proxy

/-! ## Runs -/

open NetworkSocketSOCKS5Proxy

/-- A connection and what has passed on it. -/
structure ProxyRun where
  proxy : NetworkSocketSOCKS5Proxy
  trace : List ProxyAction := []

inductive ProxyEvent where
  | onReadyToSend
  | onReadyToReceive (received : Bytes) (tcpFailed : Bool)

namespace ProxyRun

def record (r : ProxyRun) (read : List ProxyAction) (s : ProxyStep) : ProxyRun :=
  { proxy := s.proxy, trace := r.trace ++ (read ++ s.sent.map .sent) }

def step (resolve : Bytes → NetworkAddress) (r : ProxyRun) : ProxyEvent → Except ReadFailure ProxyRun
  | .onReadyToSend => .ok (r.record [] r.proxy.onReadyToSend)
  | .onReadyToReceive received tcpFailed => do
    let s ← r.proxy.onReadyToReceive resolve received tcpFailed
    pure (r.record (if r.proxy.Waiting then [.received (received.take 1024)] else []) s)

/-- **What a run owes the handshake** of the proxy it began with. -/
structure HandshakeSound (resolve : Bytes → NetworkAddress) (p : NetworkSocketSOCKS5Proxy)
    (r : ProxyRun) : Prop where
  connected : r.proxy.state = .connected → ∃ way reply, Login p way ∧
    Granted resolve p.protocol reply ∧ (way ++ [ProxyAction.sent p.command, .received reply]).Sublist r.trace
  command : p.command ∈ messages r.trace →
    ∃ way, Login p way ∧ (way ++ [ProxyAction.sent p.command]).Sublist r.trace
  credentials : p.credentials ∈ messages r.trace → p.username ≠ [] ∧ ∃ reply, [5, 2] <+: reply ∧
    [ProxyAction.sent p.greeting, .received reply, .sent p.credentials].Sublist r.trace
  once : (messages r.trace).Nodup

/-- What a step owes a reply that does not lead on, above all one that is too
short: the socket fails, and nothing else happens. -/
structure RefusedFails (resolve : Bytes → NetworkAddress) (r : ProxyRun) (e : ProxyEvent) : Prop where
  refused : ∀ received tcpFailed r', e = .onReadyToReceive received tcpFailed →
    ¬ Accepted resolve r.proxy (received.take 1024) → r.step resolve e = .ok r' →
      r'.proxy.failed = true ∧ r'.proxy.state = r.proxy.state ∧ messages r'.trace = messages r.trace
  short : ∀ received tcpFailed r', e = .onReadyToReceive received tcpFailed → r.proxy.Waiting →
    received.length < 2 → r.step resolve e = .ok r' → r'.proxy.failed = true

variable {resolve : Bytes → NetworkAddress} {p : NetworkSocketSOCKS5Proxy} {r r' : ProxyRun}

/-- The invariant: the run is on a path, but for replies that were refused. -/
structure Follows (resolve : Bytes → NetworkAddress) (p : NetworkSocketSOCKS5Proxy) (r : ProxyRun) :
    Prop where
  script : SameScript p r.proxy
  path : ∃ way, Path resolve p r.proxy.state way ∧ way.Sublist r.trace ∧
    messages r.trace = messages way

theorem Follows.record (h : Follows resolve p r) {read : List ProxyAction} {s : ProxyStep}
    (hscript : SameScript r.proxy s.proxy)
    (hpath : ∀ way, Path resolve p r.proxy.state way →
      Path resolve p s.proxy.state (way ++ (read ++ s.sent.map .sent))) :
    Follows resolve p (r.record read s) := by
  obtain ⟨way, hway, hsub, hmessages⟩ := h.path
  refine ⟨h.script.trans hscript, _, hpath way hway, hsub.append (List.Sublist.refl _), ?_⟩
  show messages (r.trace ++ _) = _
  rw [messages_append, hmessages]
  exact (messages_append way _).symm

/-- Nothing is sent and the state is as before: the path is not left. -/
theorem Follows.stay (h : Follows resolve p r) {read : List ProxyAction} {s : ProxyStep}
    (hscript : SameScript r.proxy s.proxy) (hstate : s.proxy.state = r.proxy.state)
    (hsent : s.sent = []) (hread : messages read = []) : Follows resolve p (r.record read s) := by
  obtain ⟨way, hway, hsub, hmessages⟩ := h.path
  refine ⟨h.script.trans hscript, way, ?_, ?_, ?_⟩
  · show Path resolve p s.proxy.state way
    rwa [hstate]
  · exact hsub.trans (List.sublist_append_left _ _)
  · show messages (r.trace ++ (read ++ s.sent.map .sent)) = _
    rw [hsent, messages_append, messages_append, hread, hmessages]
    exact List.append_nil _

theorem Follows.onReadyToSend (h : Follows resolve p r) :
    Follows resolve p (r.record [] r.proxy.onReadyToSend) := by
  by_cases hstate : r.proxy.state = .initial
  · have hstep : r.proxy.onReadyToSend =
        { sent := [r.proxy.greeting], proxy := { r.proxy with state := .waitingForAuthMethod } } := by
      unfold NetworkSocketSOCKS5Proxy.onReadyToSend
      rw [hstate]
    rw [hstep]
    refine h.record ⟨rfl, rfl, rfl, fun _ => ⟨rfl, rfl⟩⟩ fun way hway => ?_
    rw [hstate] at hway
    cases hway
    show Path resolve p .waitingForAuthMethod [.sent r.proxy.greeting]
    rw [h.script.greeting]
    exact .greeted
  · have hstep : r.proxy.onReadyToSend = { proxy := r.proxy, answer := none } := by
      unfold NetworkSocketSOCKS5Proxy.onReadyToSend
      cases hcase : r.proxy.state with
      | initial => exact absurd hcase hstate
      | waitingForAuthMethod => rfl
      | waitingForAuthResult => rfl
      | waitingForCommandResult => rfl
      | connected => rfl
    rw [hstep]
    exact h.stay (.refl r.proxy) rfl rfl rfl

theorem Follows.outcome (h : Follows resolve p r) {buf : Bytes} {s : ProxyStep}
    (hs : Outcome resolve r.proxy buf s) : Follows resolve p (r.record [.received buf] s) := by
  cases hs with
  | refused hsent hstate hfailed hscript => exact h.stay hscript hstate hsent rfl
  | noAuth hstate hreply =>
    refine h.record ⟨rfl, rfl, rfl, fun _ => ⟨rfl, rfl⟩⟩ fun way hway => ?_
    rw [hstate] at hway
    cases hway
    show Path resolve p .waitingForCommandResult
      ([.sent p.greeting, .received buf] ++ [.sent r.proxy.command])
    rw [h.script.command]
    exact .commanded (.noAuth hreply)
  | asked hstate hname hreply hsent hnext =>
    rw [h.script.username] at hname
    refine h.record (hnext ▸ ⟨rfl, rfl, rfl, fun _ => ⟨rfl, rfl⟩⟩) fun way hway => ?_
    rw [hstate] at hway
    cases hway
    rw [hnext, hsent, h.script.credentials]
    exact .asked hname hreply
  | admitted hstate hauth =>
    refine h.record ⟨rfl, rfl, rfl, fun _ => ⟨rfl, rfl⟩⟩ fun way hway => ?_
    rw [hstate] at hway
    cases hway with
    | @asked reply hname hreply =>
      show Path resolve p .waitingForCommandResult ([.sent p.greeting, .received reply,
        .sent p.credentials, .received buf] ++ [.sent r.proxy.command])
      rw [h.script.command]
      exact .commanded (.password hname hreply hauth)
  | connected hstate hreply hsent hnext hscript =>
    rw [h.script.protocol] at hreply
    refine h.record hscript fun way hway => ?_
    rw [hstate] at hway
    cases hway with
    | commanded hlogin =>
      rw [hnext, hsent]
      exact .connected hlogin hreply

variable (resolve) in
/-- A reply is read, and one of its outcomes follows. -/
theorem step_waiting (hwait : r.proxy.Waiting) (received : Bytes) (tcpFailed : Bool) :
    ∃ s, Outcome resolve r.proxy (received.take 1024) s ∧
      r.step resolve (.onReadyToReceive received tcpFailed)
        = .ok (r.record [.received (received.take 1024)] s) := by
  obtain ⟨s, hs, houtcome⟩ := onReadyToReceive_outcome resolve hwait received tcpFailed
  refine ⟨s, houtcome, ?_⟩
  show (r.proxy.onReadyToReceive resolve received tcpFailed >>= _) = _
  rw [hs, if_pos hwait]
  rfl

theorem step_idle (hidle : ¬ r.proxy.Waiting) (received : Bytes) (tcpFailed : Bool) :
    r.step resolve (.onReadyToReceive received tcpFailed)
      = .ok (r.record [] { proxy := r.proxy, answer := none }) := by
  show (r.proxy.onReadyToReceive resolve received tcpFailed >>= _) = _
  rw [onReadyToReceive_idle hidle, if_neg hidle]
  rfl

variable (resolve) in
theorem step_ok (r : ProxyRun) (e : ProxyEvent) : ∃ r', r.step resolve e = .ok r' := by
  cases e with
  | onReadyToSend => exact ⟨_, rfl⟩
  | onReadyToReceive received tcpFailed =>
    by_cases hwait : r.proxy.Waiting
    · obtain ⟨s, -, hs⟩ := step_waiting resolve hwait received tcpFailed
      exact ⟨_, hs⟩
    · exact ⟨_, step_idle hwait received tcpFailed⟩

theorem Follows.step (h : Follows resolve p r) {e : ProxyEvent} (hstep : r.step resolve e = .ok r') :
    Follows resolve p r' := by
  cases e with
  | onReadyToSend =>
    cases hstep
    exact h.onReadyToSend
  | onReadyToReceive received tcpFailed =>
    by_cases hwait : r.proxy.Waiting
    · obtain ⟨s, houtcome, hs⟩ := step_waiting resolve hwait received tcpFailed
      cases hs.symm.trans hstep
      exact h.outcome houtcome
    · cases (step_idle hwait received tcpFailed).symm.trans hstep
      exact h.stay (.refl r.proxy) rfl rfl rfl

theorem refusedFails (r : ProxyRun) (e : ProxyEvent) : RefusedFails resolve r e := by
  have hrefused : ∀ received tcpFailed r', e = .onReadyToReceive received tcpFailed →
      ¬ Accepted resolve r.proxy (received.take 1024) → r.step resolve e = .ok r' →
      r'.proxy.failed = true ∧ r'.proxy.state = r.proxy.state ∧
        messages r'.trace = messages r.trace := by
    rintro received tcpFailed r' rfl hnot hstep
    have hwait : r.proxy.Waiting := by
      unfold Accepted at hnot
      unfold Waiting
      cases hstate : r.proxy.state with
      | initial => rw [hstate] at hnot; exact absurd trivial hnot
      | waitingForAuthMethod => exact .inl rfl
      | waitingForAuthResult => exact .inr (.inl rfl)
      | waitingForCommandResult => exact .inr (.inr rfl)
      | connected => rw [hstate] at hnot; exact absurd trivial hnot
    obtain ⟨s, houtcome, hs⟩ := step_waiting resolve hwait received tcpFailed
    cases hs.symm.trans hstep
    obtain ⟨hfailed, hstate, hsent⟩ := houtcome.refused_of_not_accepted hnot
    refine ⟨hfailed, hstate, ?_⟩
    show messages (r.trace ++ ([.received _] ++ s.sent.map .sent)) = _
    rw [hsent, messages_append]
    exact List.append_nil _
  refine ⟨hrefused, fun received tcpFailed r' he hwait hshort hstep => ?_⟩
  have hbuf : (received.take 1024).length < 2 :=
    Nat.lt_of_le_of_lt (List.length_take_le' _ _) hshort
  exact (hrefused received tcpFailed r' he (not_accepted_of_short hwait hbuf) hstep).1

/-! ## Soundness -/

theorem messages_login {way : List ProxyAction} (h : Login p way) :
    messages way = [p.greeting] ∨ messages way = [p.greeting, p.credentials] ∧ p.username ≠ [] ∧
      ∃ reply, [5, 2] <+: reply ∧
        [ProxyAction.sent p.greeting, .received reply, .sent p.credentials].Sublist way := by
  cases h with
  | noAuth h => exact .inl rfl
  | @password reply auth hname h hauth =>
    exact .inr ⟨rfl, hname, reply, h, List.sublist_append_left _ [ProxyAction.received auth]⟩

theorem messages_path {state : ConnectionState} {way : List ProxyAction}
    (h : Path resolve p state way) :
    (∃ l, Login p l ∧ (l ++ [ProxyAction.sent p.command]).Sublist way ∧
      messages way = messages l ++ [p.command]) ∨
    messages way = [] ∨ messages way = [p.greeting] ∨
      messages way = [p.greeting, p.credentials] ∧ p.username ≠ [] ∧ ∃ reply, [5, 2] <+: reply ∧
        [ProxyAction.sent p.greeting, .received reply, .sent p.credentials].Sublist way := by
  cases h with
  | initial => exact .inr (.inl rfl)
  | greeted => exact .inr (.inr (.inl rfl))
  | @asked reply hname h => exact .inr (.inr (.inr ⟨rfl, hname, reply, h, .refl _⟩))
  | @commanded way h => exact .inl ⟨way, h, .refl _, messages_append _ _⟩
  | @connected way reply h hreply =>
    refine .inl ⟨way, h, List.sublist_append_left _ _, ?_⟩
    rw [messages_append, messages_append]
    exact List.append_nil _

theorem Follows.sound (h : Follows resolve p r) : HandshakeSound resolve p r := by
  obtain ⟨way, hway, hsub, hmessages⟩ := h.path
  have hag := credentials_ne_greeting p
  have hac := credentials_ne_command p
  have hcg := command_ne_greeting p
  refine ⟨fun hstate => ?_, fun hcommand => ?_, fun hcredentials => ?_, ?_⟩
  · rw [hstate] at hway
    cases hway with
    | @connected way reply hlogin hreply =>
      rw [List.append_assoc] at hsub
      exact ⟨way, reply, hlogin, hreply, hsub⟩
  · rw [hmessages] at hcommand
    rcases messages_path hway with ⟨l, hl, hfront, -⟩ | hm | hm | ⟨hm, -⟩
    · exact ⟨l, hl, hfront.trans hsub⟩
    · rw [hm] at hcommand
      cases hcommand
    · rw [hm, List.mem_singleton] at hcommand
      exact absurd hcommand hcg
    · rw [hm] at hcommand
      simp [hcg, hac.symm] at hcommand
  · rw [hmessages] at hcredentials
    rcases messages_path hway with ⟨l, hl, hfront, hm⟩ | hm | hm | ⟨-, hname, reply, hreply, hl⟩
    · rcases messages_login hl with hlm | ⟨-, hname, reply, hreply, hlsub⟩
      · rw [hm, hlm] at hcredentials
        simp [hag, hac] at hcredentials
      · exact ⟨hname, reply, hreply,
          (hlsub.trans (List.sublist_append_left _ _)).trans (hfront.trans hsub)⟩
    · rw [hm] at hcredentials
      cases hcredentials
    · rw [hm, List.mem_singleton] at hcredentials
      exact absurd hcredentials hag
    · exact ⟨hname, reply, hreply, hl.trans hsub⟩
  · rw [hmessages]
    rcases messages_path hway with ⟨l, hl, -, hm⟩ | hm | hm | ⟨hm, -⟩
    · rcases messages_login hl with hlm | ⟨hlm, -⟩
      · rw [hm, hlm]
        simp [hcg.symm]
      · rw [hm, hlm]
        simp [hag.symm, hcg.symm, hac]
    · rw [hm]
      exact List.nodup_nil
    · rw [hm]
      exact List.nodup_singleton _
    · rw [hm]
      simp [hag.symm]

/-- **The handshake is sound**: whatever the proxy sends, no read leaves what
was received, and the socket is connected only by the handshake. -/
theorem socks5_handshake_sound (resolve : Bytes → NetworkAddress) (protocol : NetworkProtocol)
    (username password : Bytes) (address : NetworkAddress) (port : UInt16)
    (events : List ProxyEvent) :
    let p : NetworkSocketSOCKS5Proxy :=
      { protocol := protocol, username := username, password := password,
        connectedAddress := address, connectedPort := port }
    ∃ r, events.foldlM (step resolve) { proxy := p } = .ok r ∧ HandshakeSound resolve p r ∧
      AlongOk (step resolve) (RefusedFails resolve) { proxy := p } events := by
  intro p
  have hstart : Follows resolve p { proxy := p } := ⟨.refl p, [], .initial, .refl _, rfl⟩
  have hrun : ∀ (events : List ProxyEvent) (r : ProxyRun), Follows resolve p r →
      ∃ r', events.foldlM (step resolve) r = .ok r' ∧ Follows resolve p r' := by
    intro events
    induction events with
    | nil => exact fun r h => ⟨r, rfl, h⟩
    | cons e events ih =>
      intro r h
      obtain ⟨r', hr'⟩ := step_ok resolve r e
      rw [List.foldlM_cons, hr']
      exact ih r' (h.step hr')
  obtain ⟨r, hr, hfollows⟩ := hrun events { proxy := p } hstart
  exact ⟨r, hr, hfollows.sound, alongOk_of_forall fun e _ r => refusedFails r e⟩

example :
    ([ProxyEvent.onReadyToSend, .onReadyToReceive [5, 0] false,
        .onReadyToReceive [5, 0, 0, 1, 127, 0, 0, 1, 4, 56] false].foldlM
      (step fun _ => .empty) { proxy := { udpProxy with state := .initial } }).map
        (fun r => (r.proxy.state, r.proxy.connectedAddress, r.proxy.connectedPort))
      = .ok (.connected, .ipv4 0x0100007F, 1080) := by decide

end ProxyRun

end Tgvoip
