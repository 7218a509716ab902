import Mathlib.Data.List.TakeWhile
import Tgvoip.Lib.Runs
import Tgvoip.Net.NetworkSocketSOCKS5Proxy
import Tgvoip.Tools.Json11Accepted

/-!
# PersistentState — what a call tells the next one about the proxy

`controller/controller/PublicAPI.cpp` (`SetProxy`, `SetPersistentState`,
`GetPersistentState`), `controller/protocol/NetworkAPI.cpp` (`InitUDPProxy`)
and the part of `EvaluateUdpPingResults` (`controller/protocol/Tick.cpp`) that
is about the proxy. How the waits of `InitUDPProxy` end is an input;
`Net/SOCKS5Handshake` models what happens on the sockets meanwhile.

The text that is saved is read back as it was meant
(`setPersistentState_getPersistentState`). Over chains of calls, each of which
begins with what an earlier one saved, the library does without a proxy
exactly when a test failed since, of this proxy or of ANY other, and the
proxy is the one the earlier call had when it was saved (`remembers_along`).
-/

namespace Tgvoip

open ByteReader (Bytes)
open TextParser Runs
open NetworkSocketSOCKS5Proxy (cString)

inductive ProxyProtocol where
  | none
  | socks5
  deriving DecidableEq, Repr

/-- The part of the controller that a proxy concerns. -/
structure ProxyControl where
  proxyProtocol : ProxyProtocol := .none
  proxyAddress : Bytes := []
  proxyPort : UInt16 := 0
  proxySupportsUDP : Bool := true
  proxySupportsTCP : Bool := true
  lastTestedProxyServer : Bytes := []
  /-- `udpSocket` is not `realUdpSocket`. -/
  udpThroughProxy : Bool := false
  deriving DecidableEq, Repr

/-- How the waits of `InitUDPProxy` for the proxy end. -/
inductive ProxyAttempt where
  | canceled
  | failed
  | initialized
  deriving DecidableEq, Repr

namespace StateKey

/-- `"ver"`. -/
def ver : Bytes := [0x76, 0x65, 0x72]

/-- `"proxy"`. -/
def proxy : Bytes := [0x70, 0x72, 0x6F, 0x78, 0x79]

/-- `"server"`. -/
def server : Bytes := [0x73, 0x65, 0x72, 0x76, 0x65, 0x72]

/-- `"udp"`. -/
def udp : Bytes := [0x75, 0x64, 0x70]

/-- `"tcp"`. -/
def tcp : Bytes := [0x74, 0x63, 0x70]

end StateKey

namespace JsonObject

variable {δ : Type}

/-- `Json::object{…}`, for entries with different keys. -/
def ofEntries (entries : List (Bytes × Json δ)) : List (Bytes × Json δ) :=
  entries.foldl (fun data e => insert data e.1 e.2) []

/-- `operator[]`: what is not there is null. -/
def entry (data : List (Bytes × Json δ)) (key : Bytes) : Json δ := (find? data key).getD .null

end JsonObject

namespace ProxyControl

variable {δ : Type} (d : DoubleOps δ) (c : ProxyControl)

def setProxy (protocol : ProxyProtocol) (address : Bytes) (port : UInt16) : ProxyControl :=
  { c with proxyProtocol := protocol, proxyAddress := address, proxyPort := port }

/-- `snprintf` of `"%s:%u"` into 128 characters. -/
def hostPort : Bytes := (cString c.proxyAddress ++ [0x3A] ++ decimal c.proxyPort.toNat).take 127

/-- What is said of the proxy. -/
def proxyObject : Json δ :=
  .object (JsonObject.ofEntries
    [(StateKey.server, .string c.hostPort), (StateKey.udp, .bool c.proxySupportsUDP),
      (StateKey.tcp, .bool c.proxySupportsTCP)])

def stateObject : Json δ :=
  let obj := JsonObject.ofEntries [(StateKey.ver, .int 1)]
  .object (if c.proxyProtocol = .socks5 then JsonObject.insert obj StateKey.proxy c.proxyObject
    else obj)

/-- `GetPersistentState`, up to `strlen`. -/
def getPersistentState : Bytes := cString (c.stateObject.dump d)

/-- `SetPersistentState`. A text that is refused is only logged. -/
def setPersistentState (state : Bytes) : ProxyControl :=
  if state = [] then c
  else
    match Json.parse d .standard state with
    | .error _ => c
    | .ok obj =>
      match JsonObject.find? obj.objectItems StateKey.proxy with
      | none => c
      | some proxy =>
        let proxy := proxy.objectItems
        { c with
          lastTestedProxyServer := (JsonObject.entry proxy StateKey.server).stringValue
          proxySupportsUDP := (JsonObject.entry proxy StateKey.udp).boolValue
          proxySupportsTCP := (JsonObject.entry proxy StateKey.tcp).boolValue }

/-- `InitUDPProxy` does without the proxy. -/
def skipsProxy : Bool := c.hostPort == c.lastTestedProxyServer && !c.proxySupportsUDP

def initUDPProxy (attempt : ProxyAttempt) : ProxyControl :=
  let c := { c with udpThroughProxy := false }
  if c.skipsProxy then c
  else
    match attempt with
    | .canceled => c
    | .failed => { c with proxySupportsUDP := false }
    | .initialized => { c with udpThroughProxy := true }

/-- The proxy lets no UDP through, as `EvaluateUdpPingResults` sees it. -/
def givesUpProxy (avgPongs : ℚ) : Bool :=
  avgPongs = 0 && c.proxyProtocol = .socks5 && c.udpThroughProxy

def evaluateUdpPingResults (avgPongs : ℚ) : ProxyControl :=
  if c.givesUpProxy avgPongs then { c with udpThroughProxy := false, proxySupportsUDP := false }
  else c

/-! ## What is saved is what is restored -/

variable {d c}

theorem hostPort_ne_nil : c.hostPort ≠ [] := by
  simp [hostPort]

theorem stateObject_fits : c.stateObject.Fits (δ := δ) Json.NotDouble (JsonParser.maxDepth + 1) := by
  by_cases h : c.proxyProtocol = .socks5
  · simp [stateObject, h, proxyObject, JsonObject.ofEntries, JsonObject.insert, JsonObject.keyLt,
      StateKey.ver, StateKey.proxy, StateKey.server, StateKey.udp, StateKey.tcp, Json.Fits,
      Json.Sorted, Json.NotDouble, JsonParser.maxDepth]
  · simp [stateObject, h, JsonObject.ofEntries, JsonObject.insert, StateKey.ver, Json.Fits,
      Json.Sorted, Json.NotDouble, JsonParser.maxDepth]

theorem reread_stateObject : (c.stateObject : Json δ).reread d = c.stateObject := by
  have hver : (Json.dumpInt 1).length ≤ 9 := by decide
  by_cases h : c.proxyProtocol = .socks5
  · simp [stateObject, h, proxyObject, JsonObject.ofEntries, JsonObject.insert, JsonObject.keyLt,
      StateKey.ver, StateKey.proxy, StateKey.server, StateKey.udp, StateKey.tcp, Json.reread,
      Json.rereadEntries, hver]
  · simp [stateObject, h, JsonObject.ofEntries, JsonObject.insert, Json.reread,
      Json.rereadEntries, hver]

theorem getPersistentState_eq : c.getPersistentState d = c.stateObject.dump d := by
  have hnul : 0 ∉ c.stateObject.dump d := Json.zero_notMem_dump _ stateObject_fits
  rw [getPersistentState, cString, List.takeWhile_eq_self_iff]
  intro byte hbyte
  exact decide_eq_true fun h => hnul (h ▸ hbyte)

theorem getPersistentState_ne_nil : c.getPersistentState d ≠ [] := by
  rw [getPersistentState_eq, stateObject, Json.dump]
  simp

theorem parse_getPersistentState (hd : d.ReadsInts) :
    Json.parse d .standard (c.getPersistentState d) = .ok c.stateObject := by
  rw [getPersistentState_eq, Json.parse_dump_eq hd stateObject_fits, reread_stateObject]

theorem find?_stateObject : JsonObject.find? (c.stateObject : Json δ).objectItems StateKey.proxy =
    if c.proxyProtocol = .socks5 then some c.proxyObject else none := by
  by_cases h : c.proxyProtocol = .socks5
  · simp [stateObject, h, JsonObject.ofEntries, JsonObject.insert, JsonObject.keyLt, StateKey.ver,
      StateKey.proxy, Json.objectItems, JsonObject.find?]
  · simp [stateObject, h, JsonObject.ofEntries, JsonObject.insert, StateKey.ver, StateKey.proxy,
      Json.objectItems, JsonObject.find?]

theorem entry_proxyObject :
    JsonObject.entry (c.proxyObject : Json δ).objectItems StateKey.server = .string c.hostPort ∧
      JsonObject.entry (c.proxyObject : Json δ).objectItems StateKey.udp = .bool c.proxySupportsUDP ∧
      JsonObject.entry (c.proxyObject : Json δ).objectItems StateKey.tcp =
        .bool c.proxySupportsTCP := by
  simp [proxyObject, JsonObject.ofEntries, JsonObject.insert, JsonObject.keyLt, StateKey.server,
    StateKey.udp, StateKey.tcp, Json.objectItems, JsonObject.entry, JsonObject.find?]

/-- **What is saved is restored**: the proxy of the one that saved it and what it knows of
proxies, if it has a proxy, or nothing. -/
theorem setPersistentState_getPersistentState (hd : d.ReadsInts) (c' : ProxyControl) :
    c'.setPersistentState d (c.getPersistentState d) =
      if c.proxyProtocol = .socks5 then
        { c' with
          lastTestedProxyServer := c.hostPort
          proxySupportsUDP := c.proxySupportsUDP
          proxySupportsTCP := c.proxySupportsTCP }
      else c' := by
  obtain ⟨hserver, hudp, htcp⟩ := entry_proxyObject (δ := δ) (c := c)
  rw [setPersistentState, if_neg getPersistentState_ne_nil, parse_getPersistentState hd]
  simp only [find?_stateObject]
  by_cases h : c.proxyProtocol = .socks5
  · simp [h, hserver, hudp, htcp, Json.stringValue, Json.boolValue]
  · simp [h]

/-! ## What is known after a test -/

theorem initUDPProxy_knows (attempt : ProxyAttempt) :
    (c.initUDPProxy attempt).proxySupportsUDP =
        (c.proxySupportsUDP && !(!c.skipsProxy && attempt = .failed)) ∧
      (c.initUDPProxy attempt).proxySupportsTCP = c.proxySupportsTCP ∧
      (c.initUDPProxy attempt).lastTestedProxyServer = c.lastTestedProxyServer := by
  have hskip : ({ c with udpThroughProxy := false } : ProxyControl).skipsProxy = c.skipsProxy := rfl
  unfold initUDPProxy
  simp only [hskip]
  cases c.skipsProxy <;> cases attempt <;> simp

theorem evaluateUdpPingResults_knows (avgPongs : ℚ) :
    (c.evaluateUdpPingResults avgPongs).proxySupportsUDP =
        (c.proxySupportsUDP && !c.givesUpProxy avgPongs) ∧
      (c.evaluateUdpPingResults avgPongs).proxySupportsTCP = c.proxySupportsTCP ∧
      (c.evaluateUdpPingResults avgPongs).lastTestedProxyServer = c.lastTestedProxyServer := by
  unfold evaluateUdpPingResults
  cases c.givesUpProxy avgPongs <;> simp

end ProxyControl

/-! ## Chains of calls -/

/-- What is remembered of the calls before. -/
structure ProxyMemory where
  /-- A test of a proxy failed. -/
  failed : Bool := false
  /-- The proxy of the call that was saved. -/
  server : Option Bytes := none
  deriving DecidableEq, Repr

/-- A call, and what was saved last. -/
structure ProxyCalls where
  control : ProxyControl := {}
  saved : Bytes := []
  /-- History: what this call knows. -/
  known : ProxyMemory := {}
  /-- History: what the saved text tells. -/
  kept : ProxyMemory := {}
  deriving DecidableEq, Repr

inductive ProxyCallEvent where
  | setProxy (protocol : ProxyProtocol) (address : Bytes) (port : UInt16)
  | initUDPProxy (attempt : ProxyAttempt)
  | evaluateUdpPingResults (avgPongs : ℚ)
  | save
  /-- A new call, with the text that was saved last. -/
  | restart
  deriving DecidableEq, Repr

namespace ProxyCalls

variable {δ : Type} (d : DoubleOps δ) (s : ProxyCalls)

/-- A test fails: the proxy is asked in vain, or lets no UDP through. -/
def fails : ProxyCallEvent → Bool
  | .initUDPProxy attempt =>
    s.control.proxyProtocol = .socks5 && !s.control.skipsProxy && attempt = .failed
  | .evaluateUdpPingResults avgPongs => s.control.givesUpProxy avgPongs
  | _ => false

/-- What the controller does, apart from the history. -/
def act : ProxyCallEvent → ProxyControl
  | .setProxy protocol address port => s.control.setProxy protocol address port
  | .initUDPProxy attempt =>
    if s.control.proxyProtocol = .socks5 then s.control.initUDPProxy attempt else s.control
  | .evaluateUdpPingResults avgPongs => s.control.evaluateUdpPingResults avgPongs
  | .save => s.control
  | .restart => ({} : ProxyControl).setPersistentState d s.saved

def step (event : ProxyCallEvent) : ProxyCalls :=
  let s' := { s with control := s.act d event }
  match event with
  | .save =>
    { s' with
      saved := s.control.getPersistentState d
      kept :=
        if s.control.proxyProtocol = .socks5 then
          { failed := s.known.failed, server := some s.control.hostPort }
        else {} }
  | .restart => { s' with known := s.kept }
  | event => { s' with known := { s.known with failed := s.known.failed || s.fails event } }

/-- The controller knows what is remembered. -/
structure Tells (control : ProxyControl) (memory : ProxyMemory) : Prop where
  udp : control.proxySupportsUDP = !memory.failed
  tcp : control.proxySupportsTCP = true
  server : control.lastTestedProxyServer = memory.server.getD []

/-- A new controller would know what was kept. -/
structure Remembers : Prop where
  known : Tells s.control s.known
  kept : Tells (({} : ProxyControl).setPersistentState d s.saved) s.kept

variable {d s} {memory : ProxyMemory} {control : ProxyControl}

theorem Tells.skips_iff (h : Tells control memory) : control.skipsProxy = true ↔
    memory.failed = true ∧ memory.server = some control.hostPort := by
  have hne : control.hostPort ≠ [] := ProxyControl.hostPort_ne_nil
  rw [ProxyControl.skipsProxy, h.udp, h.server, Bool.and_eq_true, beq_iff_eq, Bool.not_not]
  cases memory.server with
  | none => exact ⟨fun hskips => absurd hskips.1 hne, fun hskips => nomatch hskips.2⟩
  | some server =>
      rw [Option.getD_some, Option.some_inj, eq_comm]
      exact and_comm

/-- What an operation says of a test is remembered. -/
theorem Tells.learn {control' : ProxyControl} {failure : Bool} (h : Tells control memory)
    (hknows : control'.proxySupportsUDP = (control.proxySupportsUDP && !failure) ∧
      control'.proxySupportsTCP = control.proxySupportsTCP ∧
      control'.lastTestedProxyServer = control.lastTestedProxyServer) :
    Tells control' { memory with failed := memory.failed || failure } where
  udp := by rw [hknows.1, h.udp, Bool.not_or]
  tcp := hknows.2.1.trans h.tcp
  server := hknows.2.2.trans h.server

/-- A test that fails is remembered; everything else leaves alone what is known. -/
theorem act_knows (event : ProxyCallEvent) (hrestart : event ≠ .restart) :
    (s.act d event).proxySupportsUDP = (s.control.proxySupportsUDP && !s.fails event) ∧
      (s.act d event).proxySupportsTCP = s.control.proxySupportsTCP ∧
      (s.act d event).lastTestedProxyServer = s.control.lastTestedProxyServer := by
  cases event with
  | setProxy protocol address port => exact ⟨(Bool.and_true _).symm, rfl, rfl⟩
  | initUDPProxy attempt =>
      by_cases hsocks : s.control.proxyProtocol = .socks5
      · simpa [act, fails, hsocks] using ProxyControl.initUDPProxy_knows attempt
      · simp [act, fails, hsocks]
  | evaluateUdpPingResults avgPongs => exact ProxyControl.evaluateUdpPingResults_knows avgPongs
  | save => exact ⟨(Bool.and_true _).symm, rfl, rfl⟩
  | restart => exact absurd rfl hrestart

/-- What is saved tells a new controller what the old one knows, if that has a proxy. -/
theorem tells_saved (hd : d.ReadsInts) (h : Tells s.control s.known) :
    Tells (({} : ProxyControl).setPersistentState d (s.control.getPersistentState d))
      (if s.control.proxyProtocol = .socks5 then
        { failed := s.known.failed, server := some s.control.hostPort } else {}) := by
  rw [ProxyControl.setPersistentState_getPersistentState hd]
  split_ifs
  · exact ⟨h.udp, h.tcp, rfl⟩
  · exact ⟨rfl, rfl, rfl⟩

theorem Remembers.step (hd : d.ReadsInts) (event : ProxyCallEvent) (h : s.Remembers d) :
    (s.step d event).Remembers d := by
  cases event with
  | save => exact ⟨h.known, tells_saved hd h.known⟩
  | restart => exact ⟨h.kept, h.kept⟩
  | setProxy => exact ⟨h.known.learn (act_knows _ (by nofun)), h.kept⟩
  | initUDPProxy => exact ⟨h.known.learn (act_knows _ (by nofun)), h.kept⟩
  | evaluateUdpPingResults => exact ⟨h.known.learn (act_knows _ (by nofun)), h.kept⟩

theorem remembers_start : ({} : ProxyCalls).Remembers d := by
  have h : Tells {} {} := ⟨rfl, rfl, rfl⟩
  exact ⟨h, h⟩

/-- **What a chain of calls makes of its proxies.** `proxySupportsUDP` is false exactly when
a test failed in this call or in the calls it descends from through saved texts of calls
with a proxy, whichever proxy it was that failed; and `InitUDPProxy` does without the proxy
exactly when this is so, and the call this one descends from was saved with that proxy. -/
theorem remembers_along (hd : d.ReadsInts) (events : List ProxyCallEvent) :
    Along (step d) (fun s _ => Tells s.control s.known ∧
      (s.control.skipsProxy = true ↔
        s.known.failed = true ∧ s.known.server = some s.control.hostPort)) {} events := by
  have hrun : Along (step d) (fun _ _ => True) {} events :=
    along_of_forall fun _ _ _ => trivial
  exact hrun.strengthen (fun s event h _ => h.step hd event)
    (fun s _ h _ => ⟨h.known, h.known.skips_iff⟩) remembers_start

/-- A proxy fails, and the next call has another one, which works. The call after that does
without it. -/
def blamed : List ProxyCallEvent :=
  [.setProxy .socks5 [0x61] 1080, .initUDPProxy .failed, .save, .restart,
    .setProxy .socks5 [0x62] 1080, .initUDPProxy .initialized, .save, .restart,
    .setProxy .socks5 [0x62] 1080, .initUDPProxy .initialized]

theorem remembers_along_blamed : Along (step Json.wholeDoubles) (fun s _ => Tells s.control s.known ∧
    (s.control.skipsProxy = true ↔
      s.known.failed = true ∧ s.known.server = some s.control.hostPort)) {} blamed ∧
    (exec (step Json.wholeDoubles) {} blamed).control.udpThroughProxy = false :=
  ⟨remembers_along Json.wholeDoubles_readsInts blamed, rfl⟩

end ProxyCalls

end Tgvoip
