import Tgvoip.Controller.RelayVariants

/-!
# CleanIds — the id a derived relay goes back to

`AddTCPRelays` and `AddIPv6Relays` mark the id of what they derive, and
`CleanID` takes the marks off again, judging by the type and the addresses.
`RelayHistory` runs the two functions and remembers for each entry which
given endpoint it was derived from, if any. The mark of TCP that `CleanID`
takes off ends in a space, the one that `AddTCPRelays` puts on in a zero,
so no TCP relay gets its id back (`cleanID_iff`).
-/

namespace Tgvoip

open ByteReader Fallible

/-- What `CleanID` takes for the mark of a TCP relay. -/
def EndpointID.cleanTcp : Int64 := fourCC 0x54 0x43 0x50 0x20

/-- `Endpoint::CleanID`. -/
def Endpoint.cleanID (e : Endpoint) : Int64 :=
  let id := if e.type = .tcpRelay then e.id ^^^ EndpointID.cleanTcp else e.id
  if e.isIPv6Only then id ^^^ EndpointID.ipv6 else id

namespace EndpointFacts

variable {v f : EndpointFacts}

/-- `v` is a UDP relay with an IPv4 address. -/
def IsUdpRelay4 (v : EndpointFacts) : Prop := v.IsUdpRelay ∧ v.address.isEmpty = false

/-- What can be derived from `v`: the TCP variant, the IPv6-only variant, or both in one. -/
inductive DerivedFrom (v : EndpointFacts) : EndpointFacts → Prop where
  | tcp (hudp : v.IsUdpRelay) : DerivedFrom v v.tcp
  | ipv6 (hdual : v.IsDual) : DerivedFrom v v.ipv6
  | both (hudp : v.IsUdpRelay) (hdual : v.IsDual) : DerivedFrom v v.tcp.ipv6

theorem not_isDual_ipv6 : ¬ v.ipv6.IsDual := fun h => Bool.noConfusion h.2.2

theorem not_isUdpRelay_tcp : ¬ v.tcp.IsUdpRelay := fun h => EndpointType.noConfusion h

theorem DerivedFrom.tcp_of (h : DerivedFrom v f) (hf : f.IsUdpRelay) : DerivedFrom v f.tcp := by
  cases h with
  | tcp hudp => exact absurd hf not_isUdpRelay_tcp
  | ipv6 hdual =>
      rw [tcp_ipv6]
      exact .both hf hdual
  | both hudp hdual => exact absurd hf (not_isUdpRelay_tcp (v := v))

theorem DerivedFrom.ipv6_of (h : DerivedFrom v f) (hf : f.IsDual) : DerivedFrom v f.ipv6 := by
  cases h with
  | tcp hudp => exact .both hudp ((v.isDual_tcp hudp).mp hf)
  | ipv6 hdual => exact absurd hf not_isDual_ipv6
  | both hudp hdual => exact absurd hf not_isDual_ipv6

end EndpointFacts

/-- What `CleanID` takes off the id of a TCP relay, of an IPv6-only endpoint, of both. -/
def EndpointID.cleanMark (isTcp isIPv6Only : Bool) : Int64 :=
  (if isTcp then EndpointID.cleanTcp else 0) ^^^ if isIPv6Only then EndpointID.ipv6 else 0

namespace Endpoint

variable {e : Endpoint} {v : EndpointFacts}

/-- Taking a mark off leaves an id alone only if there is nothing to take off. -/
theorem xor_eq_self (x a : Int64) : x ^^^ a = x ↔ a = 0 := by
  rw [← Int64.xor_right_inj x, ← Int64.xor_assoc, Int64.xor_self, Int64.zero_xor]

theorem cleanID_eq (e : Endpoint) :
    e.cleanID = e.id ^^^ EndpointID.cleanMark (e.type == .tcpRelay) e.isIPv6Only := by
  unfold cleanID EndpointID.cleanMark
  by_cases htcp : e.type = .tcpRelay <;> cases e.isIPv6Only <;> simp [htcp, Int64.xor_assoc]

/-- **CleanID of an endpoint that was given** is its id unless it looks derived. -/
theorem cleanID_eq_id : e.cleanID = e.id ↔ e.type ≠ .tcpRelay ∧ e.isIPv6Only = false := by
  have hmark : ∀ isTcp isIPv6Only, EndpointID.cleanMark isTcp isIPv6Only = 0 ↔
      isTcp = false ∧ isIPv6Only = false := by decide
  rw [cleanID_eq, xor_eq_self, hmark, beq_eq_false_iff_ne]

/-- **CleanID of a variant** of a UDP relay is the relay's id unless it is a TCP relay. -/
theorem cleanID_of_derived (h : v.DerivedFrom e.facts) (hv : v.IsUdpRelay4) :
    e.cleanID = v.id ↔ e.type ≠ .tcpRelay := by
  obtain ⟨hudp, hv4⟩ := hv
  have hid : e.id = e.facts.id := rfl
  have htype : e.type = e.facts.type := rfl
  have hv6only : e.isIPv6Only = (e.facts.address.isEmpty && !e.facts.v6address.isEmpty) := rfl
  rw [cleanID_eq, hid, htype, hv6only]
  generalize e.facts = f at h
  cases h with
  | tcp _ =>
      simp only [EndpointFacts.tcp, hv4, Bool.false_and, Int64.xor_assoc, xor_eq_self]
      decide
  | ipv6 hdual =>
      have hudp : v.type = .udpRelay := hudp
      simp only [EndpointFacts.ipv6, hudp, hdual.2.1, Bool.not_false, Bool.and_true,
        Int64.xor_assoc, xor_eq_self]
      decide
  | both _ hdual =>
      simp only [EndpointFacts.tcp, EndpointFacts.ipv6, hdual.2.1, Bool.not_false, Bool.and_true,
        Int64.xor_assoc, xor_eq_self]
      decide

end Endpoint

/-! ## The table with what its entries come from -/

/-- For each key, the given endpoint that the entry was derived from. -/
abbrev Origins := Int64 → Option EndpointFacts

/-- The origins once these relays stand in the table, each with the endpoint it goes back to. -/
def Origins.note (o : Origins) (derived : List (EndpointFacts × Endpoint)) : Origins :=
  derived.foldl (fun o d key => if d.2.id = key then some d.1 else o key) o

/-- The controller, and where the entries of its table come from. -/
structure RelayHistory where
  c : Controller
  origin : Origins := fun _ => none

inductive RelayCall where
  | setRemoteEndpoints (endpoints : List Endpoint) (allowP2p : Bool) (connectionMaxLayer : Int)
  | addTCPRelays
  | addIPv6Relays
  /-- What else runs leaves the table alone. -/
  | meanwhile (c : Controller)

namespace RelayHistory

variable {h h' : RelayHistory} {m : Endpoints} {o : Origins} {G : Int64 → EndpointFacts → Prop}

/-- The endpoint that an entry goes back to: the entry itself, if it was given. -/
def given (o : Origins) (x : Int64 × Endpoint) : EndpointFacts := (o x.1).getD x.2.facts

/-- What `mk` makes of the entries that `sel` selects, with what they go back to. -/
def variants (m : Endpoints) (o : Origins) (sel : Endpoint → Bool) (mk : Endpoint → Endpoint) :
    List (EndpointFacts × Endpoint) :=
  (m.filter fun x => sel x.2).map fun x => (given o x, mk x.2)

def addTCPRelays (h : RelayHistory) : Except Fault RelayHistory := do
  let c ← h.c.addTCPRelays
  pure {
    c := c
    origin := if h.c.didAddTcpRelays then h.origin
      else h.origin.note (variants h.c.endpoints h.origin (·.type == .udpRelay) Endpoint.tcpRelay) }

def addIPv6Relays (h : RelayHistory) : RelayHistory :=
  { c := h.c.addIPv6Relays
    origin := if !h.c.myIPv6.isEmpty && !h.c.didAddIPv6Relays then
      h.origin.note (variants h.c.endpoints h.origin
        (fun e => e.isReflector && !e.v6address.isEmpty && !e.address.isEmpty) Endpoint.ipv6Relay)
      else h.origin }

/-- `SetRemoteEndpoints` up to its call of `AddIPv6Relays`. -/
def refilled (c : Controller) (endpoints : List Endpoint) (allowP2p : Bool)
    (connectionMaxLayer : Int) : Controller :=
  let c := endpoints.foldl Controller.addRemoteEndpoint { c with
    preferredRelay := 0, endpoints := [], didAddTcpRelays := false, useTCP := true }
  { c with
    preferredRelay := c.currentEndpoint
    allowP2p := allowP2p
    ver := { c.ver with connectionMaxLayer }
    useMTProto2 := c.useMTProto2 || connectionMaxLayer ≥ 74 }

def step (h : RelayHistory) : RelayCall → Except Fault RelayHistory
  | .setRemoteEndpoints endpoints allowP2p layer =>
      pure (addIPv6Relays { c := refilled h.c endpoints allowP2p layer })
  | .addTCPRelays => h.addTCPRelays
  | .addIPv6Relays => pure h.addIPv6Relays
  | .meanwhile c => pure { h with c := { c with endpoints := h.c.endpoints } }

/-- The history changes nothing of what the calls do. -/
theorem step_c (hstep : h.step call = .ok h') : match call with
    | .setRemoteEndpoints endpoints allowP2p layer =>
        h'.c = h.c.setRemoteEndpoints endpoints allowP2p layer
    | .addTCPRelays => h.c.addTCPRelays = .ok h'.c
    | .addIPv6Relays => h'.c = h.c.addIPv6Relays
    | .meanwhile c => h'.c = { c with endpoints := h.c.endpoints } := by
  cases call with
  | setRemoteEndpoints endpoints allowP2p layer => exact pure_eq_ok.mp hstep ▸ rfl
  | addTCPRelays =>
      obtain ⟨c, hc, hstep⟩ := bind_eq_ok.mp hstep
      exact pure_eq_ok.mp hstep ▸ hc
  | addIPv6Relays => exact pure_eq_ok.mp hstep ▸ rfl
  | meanwhile c => exact pure_eq_ok.mp hstep ▸ rfl

/-- **Every entry is a variant of its origin**, and all that was given has `G`. -/
structure Traced (G : Int64 → EndpointFacts → Prop) (m : Endpoints) (o : Origins) : Prop where
  ordered : m.Ordered
  own : ∀ key e, m.at? key = some e → o key = none → G key e.facts
  variant : ∀ key e v, m.at? key = some e → o key = some v →
    e.id = key ∧ (∃ key, G key v) ∧ v.DerivedFrom e.facts

theorem traced_none (hord : m.Ordered) (hG : ∀ key e, m.at? key = some e → G key e.facts) :
    Traced G m fun _ => none :=
  ⟨hord, fun key e he _ => hG key e he, fun _ _ _ _ h => nomatch h⟩

theorem Traced.map {f : Endpoint → Endpoint} (ht : Traced G m o)
    (hf : ∀ e, (f e).facts = e.facts) : Traced G (m.map fun x => (x.1, f x.2)) o := by
  refine ⟨ht.ordered.map fun x => f x.2, ?_, ?_⟩
  · intro key e he hv
    rw [Endpoints.at?_map] at he
    obtain ⟨e₀, he₀, rfl⟩ := Option.map_eq_some_iff.mp he
    rw [hf]
    exact ht.own key e₀ he₀ hv
  · intro key e v he hv
    rw [Endpoints.at?_map] at he
    obtain ⟨e₀, he₀, rfl⟩ := Option.map_eq_some_iff.mp he
    have hid : (f e₀).id = e₀.id := congrArg EndpointFacts.id (hf e₀)
    rw [hf, hid]
    exact ht.variant key e₀ v he₀ hv

theorem Traced.set {d : EndpointFacts × Endpoint} (ht : Traced G m o)
    (hd : (∃ key, G key d.1) ∧ d.1.DerivedFrom d.2.facts) :
    Traced G (m.set d.2.id d.2) fun key => if d.2.id = key then some d.1 else o key := by
  refine ⟨ht.ordered.set _ _, ?_, ?_⟩
  · intro key e he hv
    by_cases hkey : d.2.id = key
    · rw [if_pos hkey] at hv
      cases hv
    · rw [Endpoints.at?_set, if_neg hkey] at he
      rw [if_neg hkey] at hv
      exact ht.own key e he hv
  · intro key e v he hv
    rw [Endpoints.at?_set] at he
    by_cases hkey : d.2.id = key
    · rw [if_pos hkey, Option.some.injEq] at he hv
      subst he hv
      exact ⟨hkey, hd⟩
    · rw [if_neg hkey] at he hv
      exact ht.variant key e v he hv

/-- Insertions keep it, if each relay is noted with what it is a variant of. -/
theorem Traced.insertAll {ds : List (EndpointFacts × Endpoint)} (ht : Traced G m o)
    (hds : ∀ d ∈ ds, (∃ key, G key d.1) ∧ d.1.DerivedFrom d.2.facts) :
    Traced G (m.insertAll (ds.map (·.2))) (o.note ds) := by
  induction ds generalizing m o with
  | nil => exact ht
  | cons d ds ih =>
      exact ih (ht.set (hds d List.mem_cons_self)) fun d' hd' => hds d' (List.mem_cons_of_mem d hd')

/-- What is derived from an entry is a variant of what the entry goes back to. -/
theorem Traced.of_variants (ht : Traced G m o) {sel : Endpoint → Bool} (mk : Endpoint → Endpoint)
    (hself : ∀ e, sel e = true → e.facts.DerivedFrom (mk e).facts)
    (hagain : ∀ e (v : EndpointFacts), sel e = true → v.DerivedFrom e.facts →
      v.DerivedFrom (mk e).facts) :
    ∀ d ∈ variants m o sel mk, (∃ key, G key d.1) ∧ d.1.DerivedFrom d.2.facts := by
  intro d hd
  obtain ⟨x, hx, rfl⟩ := List.mem_map.mp hd
  obtain ⟨hx, hsel⟩ := List.mem_filter.mp hx
  have hfound := ht.ordered.at?_of_mem hx
  show (∃ key, G key (given o x)) ∧ (given o x).DerivedFrom (mk x.2).facts
  unfold given
  cases ho : o x.1 with
  | none => exact ⟨⟨x.1, ht.own x.1 x.2 hfound ho⟩, hself x.2 hsel⟩
  | some v =>
      obtain ⟨-, hG, hvariant⟩ := ht.variant x.1 x.2 v hfound ho
      exact ⟨hG, hagain x.2 v hsel hvariant⟩

theorem map_variants (m : Endpoints) (o : Origins) (sel : Endpoint → Bool)
    (mk : Endpoint → Endpoint) :
    (variants m o sel mk).map (·.2) = (m.filter fun x => sel x.2).map fun x => mk x.2 := by
  rw [variants, List.map_map]
  rfl

def Holds (G : Int64 → EndpointFacts → Prop) (h : RelayHistory) : Prop := Traced G h.c.endpoints h.origin

theorem Holds.addIPv6Relays (hh : h.Holds G) : h.addIPv6Relays.Holds G := by
  unfold Holds RelayHistory.addIPv6Relays Controller.addIPv6Relays
  split
  · have hds := Traced.of_variants hh Endpoint.ipv6Relay
      (fun e he => .ipv6 ((Controller.isDual_iff e).mp he))
      (fun e v he hv => hv.ipv6_of ((Controller.isDual_iff e).mp he))
    have hins := Traced.insertAll hh hds
    rwa [map_variants] at hins
  · exact hh

theorem Holds.addTCPRelays (hh : h.Holds G) (hstep : h.addTCPRelays = .ok h') : h'.Holds G := by
  obtain ⟨c, hc, hstep⟩ := bind_eq_ok.mp hstep
  rw [← pure_eq_ok.mp hstep]
  unfold Controller.addTCPRelays at hc
  split at hc
  · rename_i hdid
    rw [← pure_eq_ok.mp hc]
    simpa only [Holds, hdid, if_true] using hh
  · rename_i hdid
    obtain ⟨c₁, hloop, hc⟩ := bind_eq_ok.mp hc
    have hsame : Controller.SameTable h.c.beforeLoop c₁ := Controller.pointToTCP_sameTable hloop
    have hds := Traced.of_variants hh Endpoint.tcpRelay
      (fun e he => .tcp ((Controller.isUdpRelay_iff e).mp he))
      (fun e v he hv => hv.tcp_of ((Controller.isUdpRelay_iff e).mp he))
    have hbefore : Traced G h.c.beforeLoop.endpoints h.origin := by
      unfold Controller.beforeLoop
      split
      · exact Traced.map hh Controller.facts_resetUdpRelay
      · exact hh
    have hins := hbefore.insertAll hds
    rw [map_variants, ← hsame.endpoints] at hins
    rw [← pure_eq_ok.mp hc]
    simpa only [Holds, hdid, Bool.false_eq_true, if_false] using hins

/-- The table that `SetRemoteEndpoints` fills holds what is given. -/
theorem refilled_traced (c : Controller) {endpoints : List Endpoint} (allowP2p : Bool) (layer : Int)
    (hG : ∀ e ∈ endpoints, G e.id e.facts) :
    Traced G (refilled c endpoints allowP2p layer).endpoints fun _ => none := by
  have hfold : ∀ (es : List Endpoint) (c : Controller), (∀ e ∈ es, G e.id e.facts) →
      Traced G c.endpoints (fun _ => none) →
      Traced G (es.foldl Controller.addRemoteEndpoint c).endpoints fun _ => none := by
    intro es
    induction es with
    | nil => exact fun c _ hc => hc
    | cons e es ih =>
        intro c hes hc
        apply ih _ fun e' he' => hes e' (List.mem_cons_of_mem e he')
        apply traced_none (hc.ordered.set e.id e)
        intro key e' he'
        rw [Endpoints.at?_set] at he'
        split at he'
        · rename_i hid
          cases he'
          subst hid
          exact hes e List.mem_cons_self
        · exact hc.own key e' he' rfl
  exact hfold endpoints _ hG (traced_none List.Pairwise.nil fun _ _ h => nomatch h)

/-- What the call gives has `G`. -/
def Gives (G : Int64 → EndpointFacts → Prop) : RelayCall → Prop
  | .setRemoteEndpoints endpoints _ _ => ∀ e ∈ endpoints, G e.id e.facts
  | _ => True

theorem gives_true (call : RelayCall) : Gives (fun _ _ => True) call := by
  cases call with
  | setRemoteEndpoints => exact fun _ _ => trivial
  | _ => trivial

theorem Holds.step (hh : h.Holds G) (hcall : Gives G call) (hstep : h.step call = .ok h') :
    h'.Holds G := by
  cases call with
  | setRemoteEndpoints endpoints allowP2p layer =>
      rw [← pure_eq_ok.mp hstep]
      have hstart : Holds G { c := refilled h.c endpoints allowP2p layer } :=
        refilled_traced h.c allowP2p layer hcall
      exact Holds.addIPv6Relays hstart
  | addTCPRelays => exact hh.addTCPRelays hstep
  | addIPv6Relays => exact pure_eq_ok.mp hstep ▸ hh.addIPv6Relays
  | meanwhile c => exact pure_eq_ok.mp hstep ▸ hh

/-- **The run lemma**: from given endpoints on, every table is traced. -/
theorem holds_run {c : Controller} (hord : c.endpoints.Ordered)
    (hG : ∀ key e, c.endpoints.at? key = some e → G key e.facts) {calls : List RelayCall}
    (hcalls : ∀ call ∈ calls, Gives G call) (hrun : calls.foldlM step { c := c } = .ok h) :
    h.Holds G := by
  have hstart : Holds G { c := c } := traced_none hord hG
  exact foldlM_invariant (fun _ call hcall _ hs hstep => hs.step (hcalls call hcall) hstep) hstart hrun

/-! ## Back to the origin -/

/-- `CleanID` of the entry under `key` leads back: a variant of a UDP relay with an IPv4
address to that relay's id, and an endpoint that was given to its own. -/
def LeadsBack (h : RelayHistory) (key : Int64) (e : Endpoint) : Prop :=
  match h.origin key with
  | some v => v.IsUdpRelay4 → e.cleanID = v.id
  | none => e.cleanID = e.id

/-- It is no TCP relay, and no IPv6-only endpoint that was given as one. -/
def KeepsMarks (h : RelayHistory) (key : Int64) (e : Endpoint) : Prop :=
  match h.origin key with
  | some v => v.IsUdpRelay4 → e.type ≠ .tcpRelay
  | none => e.type ≠ .tcpRelay ∧ e.isIPv6Only = false

/-- **When CleanID leads back**: in every state reached from a table of given endpoints,
of exactly those entries that are no TCP relays and, if they were given, not IPv6-only. -/
theorem cleanID_iff (c : Controller) (hord : c.endpoints.Ordered) (calls : List RelayCall)
    (hrun : calls.foldlM step { c := c } = .ok h) (key : Int64) (e : Endpoint)
    (he : h.c.endpoints.at? key = some e) : h.LeadsBack key e ↔ h.KeepsMarks key e := by
  have hh : h.Holds fun _ _ => True :=
    holds_run hord (fun _ _ _ => trivial) (fun call _ => gives_true call) hrun
  unfold LeadsBack KeepsMarks
  cases ho : h.origin key with
  | none => exact Endpoint.cleanID_eq_id
  | some v => exact imp_congr_right (Endpoint.cleanID_of_derived (hh.variant key e v he ho).2.2)

/-- A UDP relay with addresses of both kinds. -/
def dualRelay : Endpoint :=
  { id := 1, address := .ipv4 10, v6address := Controller.sampleV6 1, type := .udpRelay }

/-- A controller that knows its own IPv6 address and no endpoints. -/
def noEndpoints : Controller :=
  { (MessageThread.unconnected Controller.samplePlatform).c with myIPv6 := Controller.sampleV6 9 }

/-- The relay is given, and the TCP relays are added. -/
def dualCalls : List RelayCall := [.setRemoteEndpoints [dualRelay] true 110, .addTCPRelays]

/-- The IPv6-only variant leads back. -/
theorem cleanID_iff_ipv6 : ∃ h e, dualCalls.foldlM step { c := noEndpoints } = .ok h ∧
    h.c.endpoints.at? (1 ^^^ EndpointID.ipv6) = some e ∧
    h.LeadsBack (1 ^^^ EndpointID.ipv6) e := by
  refine ⟨_, _, rfl, rfl, (cleanID_iff noEndpoints .nil dualCalls rfl _ _ rfl).mpr ?_⟩
  intro _ htcp
  cases htcp

/-- The TCP variant of relay 1 is taken for one of another relay. -/
theorem cleanID_leads_back_fails :
    ¬ ∀ (c : Controller) (calls : List RelayCall) (h : RelayHistory) (key : Int64) (e : Endpoint),
      c.endpoints.Ordered → calls.foldlM step { c := c } = .ok h →
      h.c.endpoints.at? key = some e → h.LeadsBack key e := by
  intro hall
  have hback := hall noEndpoints dualCalls _ (1 ^^^ EndpointID.tcp) _ .nil rfl rfl
  have hrelay : dualRelay.facts.IsUdpRelay4 := ⟨rfl, rfl⟩
  exact absurd (hback hrelay) (by decide)

end RelayHistory

end Tgvoip
