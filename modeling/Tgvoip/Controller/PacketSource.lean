import Tgvoip.Net.NetworkAddress
import Tgvoip.Net.NetworkSocketPosix
import Tgvoip.Controller.CleanIds

/-!
# PacketSource — which endpoint a packet is attributed to

`NetworkPacketReceived` of `Loop.cpp`. An IPv4 packet is looked up by the
IPv4 addresses of the endpoints, then by the first octets of the P2P
endpoint; an IPv6 packet by the addresses of the IPv6-only endpoints, whose
text constructor makes them IPv4 addresses to every comparison. `texts` are
the addresses that the endpoints were given, by id; the entries go back to
them as in `RelayHistory`.
-/

namespace Tgvoip

open ByteReader Fallible

/-- `CHECK_ENDPOINT_PROTOCOL`. -/
def checkEndpointProtocol (type : EndpointType) (protocol : NetworkProtocol) : Bool :=
  (type != .tcpRelay && protocol == .udp) || (type == .tcpRelay && protocol == .tcp)

/-- How an endpoint is reached. -/
def EndpointType.transport : EndpointType → NetworkProtocol
  | .tcpRelay => .tcp
  | _ => .udp

theorem checkEndpointProtocol_iff (type : EndpointType) (protocol : NetworkProtocol) :
    checkEndpointProtocol type protocol = true ↔ type.transport = protocol := by
  cases type <;> cases protocol <;> decide

namespace Controller

variable (c : Controller) (p : NetworkPacket)

/-- `GetEndpointByType`; none where it throws. -/
def endpointByType (type : EndpointType) : Option Endpoint :=
  if type = .udpRelay && c.preferredRelay ≠ 0 then c.endpoints.at? c.preferredRelay
  else (c.endpoints.find? (·.2.type == type)).map (·.2)

/-- The id of the first entry that `test` accepts, 0 if there is none. -/
def firstID (test : Endpoint → Bool) : Int64 :=
  ((c.endpoints.find? fun x => test x.2).map (·.2.id)).getD 0

def matchesIPv4 (e : Endpoint) : Bool :=
  e.address == p.address && e.port == p.port && checkEndpointProtocol e.type p.protocol

def matchesIPv6 (e : Endpoint) : Bool :=
  e.v6address == p.address && e.port == p.port && e.isIPv6Only &&
    checkEndpointProtocol e.type p.protocol

/-- The id of the P2P endpoint, if it is unmeasured and its address matches partially. -/
def partialMatch : Int64 :=
  match c.endpointByType .udpP2PInet with
  | some p2p =>
      if p2p.rtts.get 0 = 0 && p2p.address.prefixMatches 24 p.address then p2p.id else 0
  | none => 0

/-- `srcEndpointID` behind the two branches. -/
def srcEndpointID : Int64 :=
  if p.address.isIPv6 then c.firstID (matchesIPv6 p)
  else
    let id := c.firstID (matchesIPv4 p)
    if id = 0 && p.protocol = .udp then c.partialMatch p else id

/-- `NetworkPacketReceived`: the endpoint that `ProcessIncomingPacket` gets. -/
def networkPacketReceived : Except Fault (Option Endpoint) :=
  if c.srcEndpointID p = 0 then pure none else some <$> c.endpointAt (c.srcEndpointID p)

end Controller

namespace EndpointFacts

/-- `v` comes from the constructor, with addresses in text. -/
def Built (o : ByteOrder) (texts : AddressTexts) (v : EndpointFacts) : Prop :=
  ∃ port type peerTag forceTcp, (Endpoint.ofTexts o v.id port texts type peerTag forceTcp).facts = v

/-- The entry was given under its id, with the addresses that belong to it. -/
def Given (o : ByteOrder) (texts : Int64 → AddressTexts) (key : Int64) (v : EndpointFacts) : Prop :=
  v.id = key ∧ v.Built o (texts v.id)

end EndpointFacts

namespace RelayHistory

variable {o : ByteOrder} {texts : Int64 → AddressTexts} {h : RelayHistory} {p : NetworkPacket}

/-- The addresses that an entry goes back to. -/
def textsOf (texts : Int64 → AddressTexts) (h : RelayHistory) (key : Int64) : AddressTexts :=
  texts (((h.origin key).map (·.id)).getD key)

/-- The address of an endpoint as the network knows it: that of `GetAddress()`, whose octets
are an IPv6 address if the endpoint is IPv6-only. -/
def host (texts : Int64 → AddressTexts) (h : RelayHistory) (key : Int64) (e : Endpoint) :
    NetworkAddress :=
  if e.isIPv6Only then .ipv6 (h.textsOf texts key).v6 else e.getAddress

/-- **The packet comes from the endpoint.** A TCP socket names the address it was connected to. -/
structure IsFrom (texts : Int64 → AddressTexts) (h : RelayHistory) (p : NetworkPacket)
    (key : Int64) (e : Endpoint) : Prop where
  entry : h.c.endpoints.at? key = some e
  port : e.port = p.port
  transport : e.type.transport = p.protocol
  address : h.host texts key e = p.address ∨ p.protocol = .tcp ∧ e.getAddress = p.address

/-- No two entries have address, port and transport in common. -/
def Distinct (texts : Int64 → AddressTexts) (h : RelayHistory) : Prop :=
  ∀ key e key' e', h.c.endpoints.at? key = some e → h.c.endpoints.at? key' = some e' →
    h.host texts key e = h.host texts key' e' → e.port = e'.port →
    e.type.transport = e'.type.transport → key = key'

/-- Both addresses are IPv4 addresses to every comparison, and the entry stands under its id. -/
structure FromText (h : RelayHistory) : Prop where
  ordered : h.c.endpoints.Ordered
  named : ∀ key e, h.c.endpoints.at? key = some e → e.id = key
  address : ∀ key e, h.c.endpoints.at? key = some e → e.address.isIPv6 = false
  v6address : ∀ key e, h.c.endpoints.at? key = some e → e.v6address.isIPv6 = false

theorem built_addresses {v : EndpointFacts} {t : AddressTexts} (hv : v.Built o t) :
    v.address.isIPv6 = false ∧ v.v6address.isIPv6 = false := by
  obtain ⟨port, type, peerTag, forceTcp, hv⟩ := hv
  exact ⟨(congrArg (·.address.isIPv6) hv).symm, (congrArg (·.v6address.isIPv6) hv).symm⟩

theorem derived_addresses {v f : EndpointFacts} (hf : v.DerivedFrom f)
    (hv : v.address.isIPv6 = false ∧ v.v6address.isIPv6 = false) :
    f.address.isIPv6 = false ∧ f.v6address.isIPv6 = false := by
  cases hf with
  | tcp hudp => exact hv
  | ipv6 hdual => exact ⟨rfl, hv.2⟩
  | both hudp hdual => exact ⟨rfl, hv.2⟩

/-- What a run from given endpoints leaves. -/
theorem Holds.fromText (hh : h.Holds (EndpointFacts.Given o texts)) : h.FromText := by
  have hentry : ∀ key e, h.c.endpoints.at? key = some e → e.id = key ∧
      e.facts.address.isIPv6 = false ∧ e.facts.v6address.isIPv6 = false := by
    intro key e he
    cases ho : h.origin key with
    | none =>
        obtain ⟨hid, hbuilt⟩ := hh.own key e he ho
        exact ⟨hid, built_addresses hbuilt⟩
    | some v =>
        obtain ⟨hid, ⟨_, _, hbuilt⟩, hvariant⟩ := hh.variant key e v he ho
        exact ⟨hid, derived_addresses hvariant (built_addresses hbuilt)⟩
  exact ⟨hh.ordered, fun key e he => (hentry key e he).1, fun key e he => (hentry key e he).2.1,
    fun key e he => (hentry key e he).2.2⟩

/-! ## Looking up the source -/

section
variable {c : Controller} {test : Endpoint → Bool} {key : Int64} {e : Endpoint}

theorem exists_of_firstID_ne (hord : c.endpoints.Ordered) (hne : c.firstID test ≠ 0) :
    ∃ key e, c.endpoints.at? key = some e ∧ test e = true ∧ e.id = c.firstID test := by
  unfold Controller.firstID at hne ⊢
  cases hfind : c.endpoints.find? fun x => test x.2 with
  | none =>
      rw [hfind] at hne
      exact absurd rfl hne
  | some x =>
      have hmem := List.mem_of_find?_eq_some hfind
      exact ⟨x.1, x.2, hord.at?_of_mem hmem, by simpa using List.find?_some hfind, rfl⟩

theorem firstID_of_unique (hord : c.endpoints.Ordered) (he : c.endpoints.at? key = some e)
    (htest : test e = true)
    (hunique : ∀ key' e', c.endpoints.at? key' = some e' → test e' = true → key' = key) :
    c.firstID test = e.id := by
  unfold Controller.firstID
  cases hfind : c.endpoints.find? fun x => test x.2 with
  | none =>
      have hmem := Endpoints.mem_of_at?_eq_some he
      exact absurd htest (by simpa using List.find?_eq_none.mp hfind _ hmem)
  | some x =>
      have hx := hord.at?_of_mem (List.mem_of_find?_eq_some hfind)
      have hkey := hunique x.1 x.2 hx (by simpa using List.find?_some hfind)
      rw [hkey, he] at hx
      exact congrArg Endpoint.id (Option.some.inj hx).symm

theorem firstID_eq_zero (hord : c.endpoints.Ordered)
    (hnone : ∀ key e, c.endpoints.at? key = some e → test e = false) : c.firstID test = 0 := by
  by_contra hne
  obtain ⟨key, e, he, htest, -⟩ := exists_of_firstID_ne hord hne
  rw [hnone key e he] at htest
  cases htest

theorem endpointByType_mem (hord : c.endpoints.Ordered)
    (h : c.endpointByType .udpP2PInet = some e) : ∃ key, c.endpoints.at? key = some e := by
  unfold Controller.endpointByType at h
  rw [if_neg (by simp)] at h
  obtain ⟨x, hfind, rfl⟩ := Option.map_eq_some_iff.mp h
  exact ⟨x.1, hord.at?_of_mem (List.mem_of_find?_eq_some hfind)⟩

theorem received_iff : c.networkPacketReceived p = .ok (some e) ↔
    c.srcEndpointID p ≠ 0 ∧ c.endpoints.at? (c.srcEndpointID p) = some e := by
  unfold Controller.networkPacketReceived Controller.endpointAt
  by_cases hsrc : c.srcEndpointID p = 0
  · rw [if_pos hsrc]
    exact ⟨fun h => (nomatch h), fun h => absurd hsrc h.1⟩
  · rw [if_neg hsrc]
    cases c.endpoints.at? (c.srcEndpointID p) with
    | none => exact ⟨fun h => (nomatch h), fun h => (nomatch h.2)⟩
    | some e' =>
        constructor
        · intro h
          exact ⟨hsrc, Except.ok.inj h⟩
        · intro h
          exact congrArg Except.ok h.2

end

section
variable {key : Int64} {e : Endpoint}

/-- No IPv6 packet is found: the addresses that it is compared with are not IPv6 addresses. -/
theorem FromText.srcEndpointID_ipv6 (ht : h.FromText) (hp : p.address.isIPv6 = true) :
    h.c.srcEndpointID p = 0 := by
  unfold Controller.srcEndpointID
  rw [if_pos hp]
  apply firstID_eq_zero ht.ordered
  intro key e he
  have hne : e.v6address ≠ p.address := fun heq => by
    have hv6 := ht.v6address key e he
    rw [heq, hp] at hv6
    cases hv6
  simp [Controller.matchesIPv6, hne]

/-- What the IPv4 branch accepts is where the packet comes from. -/
theorem isFrom_of_matches (texts : Int64 → AddressTexts) (hp : p.address.isEmpty = false)
    (he : h.c.endpoints.at? key = some e) (hm : Controller.matchesIPv4 p e = true) :
    e.isIPv6Only = false ∧ h.host texts key e = p.address ∧ h.IsFrom texts p key e := by
  simp only [Controller.matchesIPv4, Bool.and_eq_true, beq_iff_eq, checkEndpointProtocol_iff] at hm
  obtain ⟨⟨haddress, hport⟩, htransport⟩ := hm
  have hv4 : e.isIPv6Only = false := by
    rw [Endpoint.isIPv6Only, haddress, hp, Bool.false_and]
  have hhost : h.host texts key e = p.address := by
    rw [host, hv4, if_neg Bool.false_ne_true, Endpoint.getAddress, hv4, if_neg Bool.false_ne_true,
      haddress]
  exact ⟨hv4, hhost, he, hport, htransport, .inl hhost⟩

theorem IsFrom.matches (hfrom : h.IsFrom texts p key e) (hv4 : e.isIPv6Only = false) :
    e.address = p.address ∧ Controller.matchesIPv4 p e = true := by
  have hget : e.getAddress = e.address := by
    rw [Endpoint.getAddress, hv4, if_neg Bool.false_ne_true]
  have haddress : e.address = p.address := by
    rcases hfrom.address with haddress | ⟨-, haddress⟩
    · rwa [host, hv4, if_neg Bool.false_ne_true, hget] at haddress
    · rwa [hget] at haddress
  refine ⟨haddress, ?_⟩
  simp only [Controller.matchesIPv4, Bool.and_eq_true, beq_iff_eq, checkEndpointProtocol_iff]
  exact ⟨⟨haddress, hfrom.port⟩, hfrom.transport⟩

/-- **A packet from an endpoint** is passed on with it, unless the endpoint is IPv6-only or
has the id that stands for none. -/
theorem FromText.received_of_isFrom (ht : h.FromText) (hd : h.Distinct texts)
    (hp : p.address.isEmpty = false) (hfrom : h.IsFrom texts p key e) :
    h.c.networkPacketReceived p = .ok (some e) ↔ e.isIPv6Only = false ∧ e.id ≠ 0 := by
  have hid : e.id = key := ht.named key e hfrom.entry
  rw [received_iff]
  constructor
  · rintro ⟨hsrc, hfound⟩
    have hsame : e.id = h.c.srcEndpointID p := ht.named _ e hfound
    refine ⟨?_, hsame ▸ hsrc⟩
    by_contra hv6
    rw [Bool.not_eq_false] at hv6
    rcases hfrom.address with haddress | ⟨htcp, haddress⟩
    · rw [host, hv6, if_pos rfl] at haddress
      exact hsrc (ht.srcEndpointID_ipv6 (haddress ▸ rfl))
    · -- the first octets are looked up among the IPv4 addresses
      have hflag : p.address.isIPv6 = false := by
        rw [← haddress, Endpoint.getAddress, hv6, if_pos rfl]
        exact ht.v6address key e hfrom.entry
      have hfirst : h.c.srcEndpointID p = h.c.firstID (Controller.matchesIPv4 p) := by
        simp [Controller.srcEndpointID, hflag, htcp]
      rw [hfirst] at hsrc hfound
      obtain ⟨key', e', he', hm, hid'⟩ := exists_of_firstID_ne ht.ordered hsrc
      rw [← hid', ht.named key' e' he', he'] at hfound
      cases Option.some.inj hfound
      rw [(isFrom_of_matches texts hp he' hm).1] at hv6
      cases hv6
  · rintro ⟨hv4, hne⟩
    obtain ⟨haddress, hm⟩ := hfrom.matches hv4
    have hflag : p.address.isIPv6 = false := haddress ▸ ht.address key e hfrom.entry
    have hhost := (isFrom_of_matches texts hp hfrom.entry hm).2.1
    have hfirst : h.c.firstID (Controller.matchesIPv4 p) = e.id := by
      apply firstID_of_unique ht.ordered hfrom.entry hm
      intro key' e' he' hm'
      obtain ⟨-, hhost', hfrom'⟩ := isFrom_of_matches texts hp he' hm'
      exact hd key' e' key e he' hfrom.entry (hhost'.trans hhost.symm)
        (hfrom'.port.trans hfrom.port.symm) (hfrom'.transport.trans hfrom.transport.symm)
    have hsrc : h.c.srcEndpointID p = e.id := by
      simp [Controller.srcEndpointID, hflag, hfirst, hne]
    rw [hsrc]
    exact ⟨hne, hid ▸ hfrom.entry⟩

/-- A UDP packet can match the P2P endpoint partially. -/
structure MatchesP2p (c : Controller) (p : NetworkPacket) (e : Endpoint) : Prop where
  p2p : c.endpointByType .udpP2PInet = some e
  known : e.id ≠ 0
  unmeasured : e.rtts.get 0 = 0
  udp : p.protocol = .udp

theorem partialMatch_eq {c : Controller} (hp2p : c.endpointByType .udpP2PInet = some e) :
    c.partialMatch p =
      if e.rtts.get 0 = 0 ∧ e.address.prefixMatches 24 p.address = true then e.id else 0 := by
  simp [Controller.partialMatch, hp2p]

/-- **A packet from no endpoint** is passed on by a partial match or not at all. -/
theorem FromText.received_of_stranger (ht : h.FromText) (hp : p.address.isEmpty = false)
    (hnone : ∀ key e, ¬ h.IsFrom texts p key e) :
    h.c.networkPacketReceived p = .ok (some e) ↔
      MatchesP2p h.c p e ∧ e.address.prefixMatches 24 p.address = true := by
  have hzero : h.c.firstID (Controller.matchesIPv4 p) = 0 := by
    apply firstID_eq_zero ht.ordered
    intro key e he
    by_contra hm
    rw [Bool.not_eq_false] at hm
    exact hnone key e (isFrom_of_matches texts hp he hm).2.2
  have hself : ∀ e, h.c.endpointByType .udpP2PInet = some e → h.c.endpoints.at? e.id = some e := by
    intro e hp2p
    obtain ⟨key, he⟩ := endpointByType_mem ht.ordered hp2p
    rw [ht.named key e he]
    exact he
  rw [received_iff]
  constructor
  · rintro ⟨hsrc, hfound⟩
    have hflag : p.address.isIPv6 = false := by
      by_contra hv6
      exact hsrc (ht.srcEndpointID_ipv6 (Bool.not_eq_false _ ▸ hv6))
    have hudp : p.protocol = .udp := by
      by_contra htcp
      exact hsrc (by simp [Controller.srcEndpointID, hflag, hzero, htcp])
    have heq : h.c.srcEndpointID p = h.c.partialMatch p := by
      simp [Controller.srcEndpointID, hflag, hzero, hudp]
    rw [heq] at hsrc hfound
    cases hp2p : h.c.endpointByType .udpP2PInet with
    | none => exact absurd (by simp [Controller.partialMatch, hp2p]) hsrc
    | some p2p =>
        rw [partialMatch_eq hp2p] at hsrc hfound
        by_cases hmatch : p2p.rtts.get 0 = 0 ∧ p2p.address.prefixMatches 24 p.address = true
        · rw [if_pos hmatch] at hsrc hfound
          rw [hself p2p hp2p] at hfound
          cases Option.some.inj hfound
          exact ⟨⟨hp2p, hsrc, hmatch.1, hudp⟩, hmatch.2⟩
        · exact absurd (if_neg hmatch) hsrc
  · rintro ⟨⟨hp2p, hknown, hunmeasured, hudp⟩, hmatch⟩
    have hflag : p.address.isIPv6 = false := by
      cases haddress : p.address with
      | ipv4 addr => rfl
      | ipv6 addr => simp [NetworkAddress.prefixMatches, haddress] at hmatch
    have hsrc : h.c.srcEndpointID p = e.id := by
      have hpartial := partialMatch_eq (p := p) hp2p
      rw [if_pos ⟨hunmeasured, hmatch⟩] at hpartial
      simp [Controller.srcEndpointID, hflag, hzero, hudp, hpartial]
    rw [hsrc]
    exact ⟨hknown, hself e hp2p⟩

end

/-! ## Attribution -/

/-- Two IPv4 addresses agree in the octets that `agree` compares. -/
def OctetsAgree (o : ByteOrder) (agree : Octets → Octets → Prop) (x y : NetworkAddress) : Prop :=
  ∃ a b, x.octets o = some a ∧ y.octets o = some b ∧ agree a b

/-- The first three octets. -/
def SameStart (a b : Octets) : Prop := a.a = b.a ∧ a.b = b.b ∧ a.c = b.c

/-- The last three octets. -/
def SameEnd (a b : Octets) : Prop := a.b = b.b ∧ a.c = b.c ∧ a.d = b.d

/-- **A packet is attributed to the endpoint it came from**, and one that came from none to
the P2P endpoint only, if the first three octets are the same. -/
structure Attributed (o : ByteOrder) (texts : Int64 → AddressTexts) (h : RelayHistory)
    (p : NetworkPacket) : Prop where
  source : ∀ key e, h.IsFrom texts p key e → h.c.networkPacketReceived p = .ok (some e)
  stranger : (∀ key e, ¬ h.IsFrom texts p key e) → ∀ e,
    h.c.networkPacketReceived p = .ok (some e) →
      h.c.endpointByType .udpP2PInet = some e ∧ OctetsAgree o SameStart e.address p.address

/-- No endpoint that the packet comes from is IPv6-only or without an id; and on a little-endian
host the last three octets of a stranger are not those of the P2P endpoint without the first. -/
structure CanAttribute (o : ByteOrder) (texts : Int64 → AddressTexts) (h : RelayHistory)
    (p : NetworkPacket) : Prop where
  source : ∀ key e, h.IsFrom texts p key e → e.isIPv6Only = false ∧ e.id ≠ 0
  stranger : (∀ key e, ¬ h.IsFrom texts p key e) → o = .little → ∀ e, MatchesP2p h.c p e →
    OctetsAgree o SameEnd e.address p.address → OctetsAgree o SameStart e.address p.address

theorem prefixMatches_octets {x y : NetworkAddress} : x.prefixMatches 24 y = true ↔
    OctetsAgree o (match o with | .little => SameEnd | .big => SameStart) x y := by
  cases x with
  | ipv6 bs => exact ⟨fun h => (nomatch h), fun ⟨_, _, h, _⟩ => (nomatch h)⟩
  | ipv4 x =>
      cases y with
      | ipv6 bs => exact ⟨fun h => (nomatch h), fun ⟨_, _, _, h, _⟩ => (nomatch h)⟩
      | ipv4 y =>
          rw [NetworkAddress.prefixMatches_24 o]
          simp only [OctetsAgree, NetworkAddress.octets, Option.some.injEq, exists_and_left,
            exists_eq_left']
          cases o with
          | little => simp [SameEnd]
          | big =>
              simp only [SameStart]
              tauto

/-- **When packets are attributed rightly**: in every table of endpoints given in text, as the
relays are added, exactly under `CanAttribute`. -/
theorem attributed_iff (o : ByteOrder) (texts : Int64 → AddressTexts) (c : Controller)
    (hord : c.endpoints.Ordered)
    (hgiven : ∀ key e, c.endpoints.at? key = some e → EndpointFacts.Given o texts key e.facts)
    (calls : List RelayCall) (hcalls : ∀ call ∈ calls, Gives (EndpointFacts.Given o texts) call)
    (hrun : calls.foldlM step { c := c } = .ok h) (hd : h.Distinct texts)
    (hp : p.address.isEmpty = false) : h.Attributed o texts p ↔ h.CanAttribute o texts p := by
  have ht : h.FromText := (holds_run hord hgiven hcalls hrun).fromText
  constructor
  · rintro ⟨hsource, hstranger⟩
    refine ⟨fun key e hfrom => (ht.received_of_isFrom hd hp hfrom).mp (hsource key e hfrom), ?_⟩
    rintro hnone rfl e hm hend
    have hprefix : e.address.prefixMatches 24 p.address = true :=
      (prefixMatches_octets (o := .little)).mpr hend
    exact (hstranger hnone e ((ht.received_of_stranger hp hnone).mpr ⟨hm, hprefix⟩)).2
  · rintro ⟨hsource, hstranger⟩
    refine ⟨fun key e hfrom => (ht.received_of_isFrom hd hp hfrom).mpr (hsource key e hfrom), ?_⟩
    intro hnone e hreceived
    obtain ⟨hm, hprefix⟩ := (ht.received_of_stranger hp hnone).mp hreceived
    refine ⟨hm.p2p, ?_⟩
    rw [prefixMatches_octets (o := o)] at hprefix
    cases o with
    | little => exact hstranger hnone rfl e hm hprefix
    | big => exact hprefix

/-- 10.1.2.3 and no IPv6 address; no IPv4 address and 2001:db8::1. -/
def sampleTexts (id : Int64) : AddressTexts :=
  if id = 1 then { v4 := ⟨10, 1, 2, 3⟩, v6 := ⟨List.replicate 16 0, rfl⟩ }
  else { v4 := ⟨0, 0, 0, 0⟩, v6 := ⟨[0x20, 0x01, 0x0D, 0xB8] ++ List.replicate 11 0 ++ [1], rfl⟩ }

/-- A table of one endpoint, with the addresses of its id. -/
def only (id : Int64) (type : EndpointType) : Controller :=
  { noEndpoints with
    endpoints := [(id, Endpoint.ofTexts .little id 1000 (sampleTexts id) type [] false)] }

theorem only_ordered (id : Int64) (type : EndpointType) : (only id type).endpoints.Ordered :=
  List.pairwise_singleton _ _

theorem only_given (id : Int64) (type : EndpointType) (key : Int64) (e : Endpoint)
    (he : (only id type).endpoints.at? key = some e) :
    EndpointFacts.Given .little sampleTexts key e.facts := by
  have hmem := Endpoints.mem_of_at?_eq_some he
  rw [only, List.mem_singleton, Prod.mk.injEq] at hmem
  obtain ⟨rfl, rfl⟩ := hmem
  exact ⟨rfl, 1000, type, [], false, rfl⟩

def packetOf (address : NetworkAddress) (port : UInt16) : NetworkPacket :=
  { data := [0], address, port, protocol := .udp }

/-- A packet of a relay that has a TCP variant is attributed to the relay. -/
theorem attributed_iff_tcp :
    ∃ h, [RelayCall.addTCPRelays].foldlM step { c := only 1 .udpRelay } = .ok h ∧
      h.Attributed .little sampleTexts (packetOf (.ofIPv4Text .little ⟨10, 1, 2, 3⟩) 1000) := by
  have hentries : ∀ h, [RelayCall.addTCPRelays].foldlM step { c := only 1 .udpRelay } = .ok h →
      ∀ key e, h.c.endpoints.at? key = some e →
        e.isIPv6Only = false ∧ e.id ≠ 0 ∧ (key, e.type.transport) ∈
          [((1 : Int64), NetworkProtocol.udp), (1 ^^^ EndpointID.tcp, NetworkProtocol.tcp)] := by
    intro h hrun key e he
    cases hrun
    have hmem := Endpoints.mem_of_at?_eq_some he
    change (key, e) ∈ [(1, _), (1 ^^^ EndpointID.tcp, _)] at hmem
    simp only [List.mem_cons, Prod.mk.injEq, List.not_mem_nil, or_false] at hmem
    rcases hmem with ⟨rfl, rfl⟩ | ⟨rfl, rfl⟩
    · exact ⟨rfl, by decide, by decide⟩
    · exact ⟨rfl, by decide, by decide⟩
  refine ⟨_, rfl, (attributed_iff .little sampleTexts (only 1 .udpRelay) (only_ordered _ _)
    (only_given _ _) [.addTCPRelays] (fun call hcall => List.mem_singleton.mp hcall ▸ trivial) rfl
    ?_ (by decide)).mpr ⟨?_, ?_⟩⟩
  · intro key e key' e' he he' _ _ htransport
    have hkey := (hentries _ rfl key e he).2.2
    have hkey' := (hentries _ rfl key' e' he').2.2
    simp only [List.mem_cons, Prod.mk.injEq, List.not_mem_nil, or_false] at hkey hkey'
    rcases hkey with ⟨rfl, h⟩ | ⟨rfl, h⟩ <;> rcases hkey' with ⟨rfl, h'⟩ | ⟨rfl, h'⟩
    · rfl
    · cases h.symm.trans (htransport.trans h')
    · cases h.symm.trans (htransport.trans h')
    · rfl
  · intro key e hfrom
    have he := hentries _ rfl key e hfrom.entry
    exact ⟨he.1, he.2.1⟩
  · intro hnone
    exact absurd ⟨rfl, rfl, rfl, .inl rfl⟩ (hnone 1 _)

/-- The relay 2001:db8::1 is not found when it answers. -/
theorem attributed_fails :
    ¬ ∀ (o : ByteOrder) (texts : Int64 → AddressTexts) (c : Controller) (calls : List RelayCall)
      (h : RelayHistory) (p : NetworkPacket), c.endpoints.Ordered →
      (∀ key e, c.endpoints.at? key = some e → EndpointFacts.Given o texts key e.facts) →
      (∀ call ∈ calls, Gives (EndpointFacts.Given o texts) call) →
      calls.foldlM step { c := c } = .ok h → h.Distinct texts → p.address.isEmpty = false →
      h.Attributed o texts p := by
  intro hall
  have hself : ∀ key e, (only 2 .udpRelay).endpoints.at? key = some e → key = 2 := by
    intro key e he
    have hmem := Endpoints.mem_of_at?_eq_some he
    rw [only, List.mem_singleton, Prod.mk.injEq] at hmem
    exact hmem.1
  have hclaim := hall .little sampleTexts (only 2 .udpRelay) [] { c := only 2 .udpRelay }
    (packetOf (.ipv6 (sampleTexts 2).v6) 1000) (only_ordered _ _) (only_given _ _)
    (fun _ h => nomatch h) rfl
    (fun key e key' e' he he' _ _ _ => (hself key e he).trans (hself key' e' he').symm) (by decide)
  have hreceived := hclaim.source 2 _ ⟨rfl, rfl, rfl, .inl rfl⟩
  cases hreceived

-- a packet from 11.1.2.3 is taken for one of the P2P endpoint 10.1.2.3
example : ((only 1 .udpP2PInet).networkPacketReceived
    (packetOf (.ofIPv4Text .little ⟨11, 1, 2, 3⟩) 1000)).toOption.join.map (·.id) = some 1 := by
  decide

end RelayHistory

end Tgvoip
