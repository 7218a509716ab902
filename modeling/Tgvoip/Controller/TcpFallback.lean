import Tgvoip.Controller.EndpointTable

/-!
# TcpFallback — when UDP is given up, and what is used instead

`EvaluateUdpPingResults` turns UDP off where no pings are answered, and asks
`AddTCPRelays` by a flag to point to a TCP relay. `AddTCPRelays` does
nothing once it has run, or where a TCP relay was given from the start, and
looks at the flag only beside a UDP relay. The current endpoint then stays
what it was, and each packet for it is dropped.
-/

namespace Tgvoip

open Fallible

namespace Endpoints

variable {m : Endpoints} {es : List Endpoint} {key : Int64}

/-- A TCP relay stays one where TCP relays are inserted. -/
theorem typeAt_insertAll (hes : ∀ e ∈ es, e.type = .tcpRelay) (h : m.typeAt key = some .tcpRelay) :
    (m.insertAll es).typeAt key = some .tcpRelay := by
  induction es generalizing m with
  | nil => exact h
  | cons e es ih =>
      apply ih (m := m.set e.id e) fun x hx => hes x (List.mem_cons_of_mem e hx)
      rw [typeAt_set]
      split_ifs
      · rw [hes e List.mem_cons_self]
      · exact h

theorem typeAt_insertAll_of_mem (hes : ∀ e ∈ es, e.type = .tcpRelay) {r : Endpoint} (hr : r ∈ es) :
    (m.insertAll es).typeAt r.id = some .tcpRelay := by
  induction es generalizing m with
  | nil => cases hr
  | cons e es ih =>
      have hrest : ∀ x ∈ es, x.type = .tcpRelay := fun x hx => hes x (List.mem_cons_of_mem e hx)
      rcases List.mem_cons.mp hr with rfl | hr
      · apply typeAt_insertAll (m := m.set r.id r) hrest
        rw [typeAt_set, if_pos rfl, hes r List.mem_cons_self]
      · exact ih (m := m.set e.id e) hrest hr

end Endpoints

namespace Controller

variable {c c' : Controller} {relays : List Endpoint}

def OnTcpRelay (c : Controller) : Prop := c.endpoints.typeAt c.currentEndpoint = some .tcpRelay

instance (c : Controller) : Decidable c.OnTcpRelay :=
  inferInstanceAs (Decidable (_ = some EndpointType.tcpRelay))

/-- An evaluation now sets `useUDP` to false. -/
def givesUpUdp (c : Controller) : Bool :=
  !(c.averagePongs = 0 && c.udpThroughProxy) && c.config.mayUseTCP &&
    (c.averagePongs = 0 || (c.udpConnectivityState = .bad && c.averagePongs < 7)) &&
      c.averagePongs ≤ 1

/-- **The evaluation selects a transport that is used.** -/
def SelectsTcp (c : Controller) : Prop :=
  ∃ c', c.evaluateUdpPingResults = .ok c' ∧ c'.useUDP = false ∧ c'.useTCP = true ∧ c'.OnTcpRelay

/-- The current endpoint is a TCP relay already, or `AddTCPRelays` makes the first one. -/
def CanSelectTcp (c : Controller) : Prop :=
  c.OnTcpRelay ∨ (c.endpoints.typeAt c.currentEndpoint).isSome ∧ c.didAddTcpRelays = false ∧
    ∃ x ∈ c.endpoints, x.2.type = .udpRelay

instance (c : Controller) : Decidable c.CanSelectTcp :=
  inferInstanceAs (Decidable (_ ∨ _))

/-! ## AddTCPRelays -/

theorem typeAt_eq_some {id : Int64} {type : EndpointType} :
    c.endpoints.typeAt id = some type ↔ ∃ e, c.endpointAt id = .ok e ∧ e.type = type := by
  unfold Endpoints.typeAt endpointAt
  cases c.endpoints.at? id <;> simp

/-- On a TCP relay the loop changes nothing. -/
theorem pointToTCP_of_onTcp (relays : List Endpoint) (h : c.OnTcpRelay) :
    relays.foldlM pointToTCP c = .ok c := by
  obtain ⟨current, hcurrent, htype⟩ := typeAt_eq_some.mp h
  induction relays with
  | nil => rfl
  | cons r relays ih =>
      have hround : c.pointToTCP r = .ok c := by
        unfold pointToTCP
        split
        · exact bind_eq_ok.mpr
            ⟨current, hcurrent, pure_eq_ok.mpr (if_neg (not_not_intro htype))⟩
        · rfl
      rw [List.foldlM_cons, hround]
      exact ih

/-- Nothing is pointed to without the flag. -/
theorem pointToTCP_of_unset (h : c.setCurrentEndpointToTCP = false) :
    relays.foldlM pointToTCP c = .ok c := by
  induction relays with
  | nil => rfl
  | cons r relays ih =>
      have hround : c.pointToTCP r = .ok c := by
        unfold pointToTCP
        rw [if_neg (by simp [h])]
        rfl
      rw [List.foldlM_cons, hround]
      exact ih

/-- **The first relay** becomes the current endpoint. -/
theorem pointToTCP_of_set (r : Endpoint) (relays : List Endpoint)
    (hset : c.setCurrentEndpointToTCP = true)
    (hcurrent : (c.endpoints.typeAt c.currentEndpoint).isSome) (hudp : ¬ c.OnTcpRelay) :
    (r :: relays).foldlM pointToTCP c = .ok { c with
      setCurrentEndpointToTCP := false, currentEndpoint := r.id, preferredRelay := r.id } := by
  obtain ⟨type, htype⟩ := Option.isSome_iff_exists.mp hcurrent
  obtain ⟨current, hfound, hsame⟩ := typeAt_eq_some.mp htype
  have hround : c.pointToTCP r = .ok { c with
      setCurrentEndpointToTCP := false, currentEndpoint := r.id, preferredRelay := r.id } := by
    have hnot : current.type ≠ .tcpRelay := fun htcp =>
      hudp (typeAt_eq_some.mpr ⟨current, hfound, htcp⟩)
    unfold pointToTCP
    rw [if_pos hset]
    exact bind_eq_ok.mpr ⟨current, hfound, pure_eq_ok.mpr (if_pos hnot)⟩
  rw [List.foldlM_cons, hround]
  exact pointToTCP_of_unset rfl

/-- What `AddTCPRelays` has to do. -/
def newRelays (c : Controller) : List Endpoint :=
  (c.endpoints.filter (·.2.type == .udpRelay)).map (·.2.tcpRelay)

/-- The UDP relays as they are in the loop. -/
def beforeLoop (c : Controller) : Controller :=
  if c.setCurrentEndpointToTCP && !c.useUDP then
    { c with endpoints := c.endpoints.map fun e => (e.1, resetUdpRelay e.2) } else c

theorem typeAt_beforeLoop (key : Int64) :
    c.beforeLoop.endpoints.typeAt key = c.endpoints.typeAt key := by
  have htype : ∀ e, (resetUdpRelay e).type = e.type := fun e => by
    unfold resetUdpRelay
    split <;> rfl
  unfold beforeLoop
  split
  · unfold Endpoints.typeAt
    rw [Endpoints.at?_map, Option.map_map]
    exact congrArg (Option.map · _) (funext htype)
  · rfl

/-- **AddTCPRelays** where it has not run: the transports stay, and the current
endpoint is what the loop made it. -/
theorem addTCPRelays_eq_ok (hadd : c.didAddTcpRelays = false)
    (h : c.newRelays.foldlM pointToTCP c.beforeLoop = .ok c') :
    c.addTCPRelays = .ok { c' with
      endpoints := c'.endpoints.insertAll c.newRelays, didAddTcpRelays := true } := by
  unfold addTCPRelays
  rw [if_neg (by simp [hadd])]
  exact bind_eq_ok.mpr ⟨c', h, rfl⟩

theorem newRelays_type : ∀ e ∈ c.newRelays, e.type = .tcpRelay := by
  intro e he
  obtain ⟨x, -, rfl⟩ := List.mem_map.mp he
  rfl

theorem newRelays_eq_nil : c.newRelays = [] ↔ ∀ x ∈ c.endpoints, x.2.type ≠ .udpRelay := by
  simp [newRelays]

theorem beforeLoop_onTcp : c.beforeLoop.OnTcpRelay ↔ c.OnTcpRelay := by
  have hcurrent : c.beforeLoop.currentEndpoint = c.currentEndpoint := by
    unfold beforeLoop
    split <;> rfl
  unfold OnTcpRelay
  rw [hcurrent, typeAt_beforeLoop]

theorem beforeLoop_same : c.beforeLoop.currentEndpoint = c.currentEndpoint ∧
    c.beforeLoop.setCurrentEndpointToTCP = c.setCurrentEndpointToTCP ∧
      c.beforeLoop.useUDP = c.useUDP ∧ c.beforeLoop.useTCP = c.useTCP := by
  unfold beforeLoop
  split <;> exact ⟨rfl, rfl, rfl, rfl⟩

/-- The controller is on a TCP relay after `AddTCPRelays`, with the transports it had. -/
def LeadsToTcp (c : Controller) : Prop :=
  ∃ c', c.addTCPRelays = .ok c' ∧ c'.useUDP = c.useUDP ∧ c'.useTCP = c.useTCP ∧ c'.OnTcpRelay

theorem leadsToTcp_of_onTcp (h : c.OnTcpRelay) : LeadsToTcp c := by
  cases hadd : c.didAddTcpRelays with
  | true =>
    refine ⟨c, ?_, rfl, rfl, h⟩
    unfold addTCPRelays
    rw [if_pos hadd]
    rfl
  | false =>
    have hloop := pointToTCP_of_onTcp c.newRelays (beforeLoop_onTcp.mpr h)
    obtain ⟨-, -, hudp, htcp⟩ := c.beforeLoop_same
    refine ⟨_, addTCPRelays_eq_ok hadd hloop, hudp, htcp, ?_⟩
    exact Endpoints.typeAt_insertAll newRelays_type (beforeLoop_onTcp.mpr h)

/-- With the flag set, `AddTCPRelays` goes to the first relay it makes. -/
theorem leadsToTcp_of_first (hset : c.setCurrentEndpointToTCP = true)
    (hcurrent : (c.endpoints.typeAt c.currentEndpoint).isSome) (hadd : c.didAddTcpRelays = false)
    (hrelay : ∃ x ∈ c.endpoints, x.2.type = .udpRelay) : LeadsToTcp c := by
  by_cases htcp : c.OnTcpRelay
  · exact leadsToTcp_of_onTcp htcp
  · obtain ⟨hsame, hflag, hudp, htcp'⟩ := c.beforeLoop_same
    cases hrelays : c.newRelays with
    | nil =>
      obtain ⟨x, hx, htype⟩ := hrelay
      exact absurd htype (newRelays_eq_nil.mp hrelays x hx)
    | cons r relays =>
      have hloop := pointToTCP_of_set r relays (hflag.trans hset)
        (by rw [hsame, typeAt_beforeLoop]; exact hcurrent) (mt beforeLoop_onTcp.mp htcp)
      rw [← hrelays] at hloop
      refine ⟨_, addTCPRelays_eq_ok hadd hloop, hudp, htcp', ?_⟩
      exact Endpoints.typeAt_insertAll_of_mem newRelays_type
        (by rw [hrelays]; exact List.mem_cons_self)

/-- **AddTCPRelays does nothing** where it has run, or has nothing to add. -/
theorem addTCPRelays_stays (hnone : c.didAddTcpRelays = true ∨ c.newRelays = [])
    (h : c.addTCPRelays = .ok c') : c'.OnTcpRelay ↔ c.OnTcpRelay := by
  cases hadd : c.didAddTcpRelays with
  | true =>
    unfold addTCPRelays at h
    rw [if_pos hadd] at h
    rw [pure_eq_ok.mp h]
  | false =>
    have hnil : c.newRelays = [] := hnone.resolve_left (by simp [hadd])
    have hloop : c.newRelays.foldlM pointToTCP c.beforeLoop = .ok c.beforeLoop := by
      rw [hnil]
      rfl
    rw [addTCPRelays_eq_ok hadd hloop, hnil] at h
    rw [← Except.ok.inj h]
    exact beforeLoop_onTcp

/-- What has to be so for it to lead to a TCP relay. -/
theorem canSelectTcp_of_addTCPRelays (hcurrent : (c.endpoints.typeAt c.currentEndpoint).isSome)
    (h : c.addTCPRelays = .ok c') (htcp : c'.OnTcpRelay) : CanSelectTcp c := by
  by_contra hnot
  obtain ⟨hudp, hfirst⟩ := not_or.mp hnot
  refine hudp ((addTCPRelays_stays ?_ h).mp htcp)
  cases hadd : c.didAddTcpRelays with
  | true => exact .inl rfl
  | false =>
    refine .inr (newRelays_eq_nil.mpr fun x hx htype => ?_)
    exact hfirst ⟨hcurrent, hadd, x, hx, htype⟩

theorem CanSelectTcp.leadsToTcp (h : CanSelectTcp c)
    (hset : ¬ c.OnTcpRelay → c.setCurrentEndpointToTCP = true) : LeadsToTcp c := by
  by_cases htcp : c.OnTcpRelay
  · exact leadsToTcp_of_onTcp htcp
  · obtain ⟨hcurrent, hadd, hrelay⟩ := h.resolve_left htcp
    exact leadsToTcp_of_first (hset htcp) hcurrent hadd hrelay

/-! ## EvaluateUdpPingResults -/

/-- The controller with which an evaluation that gives up UDP calls `AddTCPRelays`. -/
def givingUpUdp (c : Controller) : Controller :=
  { c with
    needRate := c.needRate || c.wantsRate NeedRateFlag.udpNA
    udpConnectivityState := .notAvailable, useTCP := true, useUDP := false
    setCurrentEndpointToTCP := c.setCurrentEndpointToTCP || !decide c.OnTcpRelay }

theorem evaluate_givingUp (hgives : c.givesUpUdp) :
    c.evaluateUdpPingResults = c.endpointAt c.currentEndpoint >>= fun _ =>
      c.givingUpUdp.addTCPRelays >>= fun c => pure { c with waitingForRelayPeerInfo := false } := by
  unfold givesUpUdp at hgives
  simp only [Bool.and_eq_true, Bool.not_eq_true', decide_eq_true_eq] at hgives
  obtain ⟨⟨⟨hproxy, hmay⟩, hbranch⟩, hfew⟩ := hgives
  have hudp : decide (c.averagePongs > 1) = false := decide_eq_false (not_lt.mpr hfew)
  unfold evaluateUdpPingResults
  dsimp only
  rw [if_neg (by rw [hproxy]; exact Bool.false_ne_true), if_neg (by simp [hmay]), if_pos hbranch,
    hudp]
  show (c.endpointAt c.currentEndpoint >>= _) = _
  cases hfound : c.endpointAt c.currentEndpoint with
  | error fault => rfl
  | ok current =>
    have honTcp : c.OnTcpRelay ↔ current.type = .tcpRelay := by
      unfold OnTcpRelay
      rw [typeAt_eq_some, hfound]
      exact ⟨fun ⟨e, he, htype⟩ => Except.ok.inj he ▸ htype, fun htype => ⟨current, rfl, htype⟩⟩
    show (addTCPRelays _ >>= _) = (addTCPRelays _ >>= _)
    congr 2
    unfold givingUpUdp
    by_cases htcp : current.type = .tcpRelay
    · rw [if_neg (not_not_intro htcp), decide_eq_true (honTcp.mpr htcp)]
      simp
    · rw [if_pos htcp, decide_eq_false (mt honTcp.mp htcp)]
      simp

/-- **An evaluation that gives up UDP** selects a TCP relay exactly where it is
one already, or where the first TCP relays are made. -/
theorem selectsTcp_iff (hgives : c.givesUpUdp) : SelectsTcp c ↔ CanSelectTcp c := by
  have hsame : CanSelectTcp c.givingUpUdp ↔ CanSelectTcp c := Iff.rfl
  unfold SelectsTcp
  rw [evaluate_givingUp hgives]
  constructor
  · rintro ⟨c', h, -, -, htcp⟩
    obtain ⟨current, hfound, h⟩ := bind_eq_ok.mp h
    obtain ⟨c₁, hadd, h⟩ := bind_eq_ok.mp h
    have hcurrent : (c.endpoints.typeAt c.currentEndpoint).isSome :=
      Option.isSome_iff_exists.mpr ⟨_, typeAt_eq_some.mpr ⟨current, hfound, rfl⟩⟩
    rw [← pure_eq_ok.mp h] at htcp
    exact hsame.mp (canSelectTcp_of_addTCPRelays hcurrent hadd htcp)
  · intro hcan
    have hset : ¬ c.givingUpUdp.OnTcpRelay → c.givingUpUdp.setCurrentEndpointToTCP = true := by
      intro hnot
      have hnot : ¬ c.OnTcpRelay := hnot
      simp [givingUpUdp, hnot]
    have hcurrent : (c.endpoints.typeAt c.currentEndpoint).isSome := by
      rcases hcan with htcp | ⟨hcurrent, -⟩
      · exact Option.isSome_iff_exists.mpr ⟨_, htcp⟩
      · exact hcurrent
    obtain ⟨type, htype⟩ := Option.isSome_iff_exists.mp hcurrent
    obtain ⟨current, hfound, -⟩ := typeAt_eq_some.mp htype
    obtain ⟨c', hadd, hudp, htcp, hon⟩ := CanSelectTcp.leadsToTcp (hsame.mpr hcan) hset
    exact ⟨{ c' with waitingForRelayPeerInfo := false },
      bind_eq_ok.mpr ⟨current, hfound, bind_eq_ok.mpr ⟨c', hadd, rfl⟩⟩, hudp, htcp, hon⟩

/-! ## Where it does not -/

/-- **Packets for the current endpoint are dropped**: neither sent nor put into a queue. -/
theorem sendOrEnqueuePacket_drops (hudp : c.useUDP = false) (hready : c.udpSocketReady = true)
    {type : EndpointType} (htype : c.endpoints.typeAt c.currentEndpoint = some type)
    (hnot : type ≠ .tcpRelay) {now : Time} {pkt : PendingOutgoingPacket} (hpkt : pkt.endpoint = 0)
    (enqueue : Bool) : c.sendOrEnqueuePacket now pkt enqueue = .ok c := by
  obtain ⟨e, hfound, rfl⟩ := Option.map_eq_some_iff.mp htype
  have hkey : c.endpointKey pkt.endpoint = c.currentEndpoint := by
    unfold endpointKey
    rw [if_neg (not_not_intro hpkt)]
  have hlookup : c.endpointForPacket pkt.endpoint = .ok e := by
    unfold endpointForPacket
    rw [hkey, hfound]
  have hsame : c.connectIfNeeded (c.endpointKey pkt.endpoint) e = c := by
    unfold connectIfNeeded
    simp [hnot]
  have hcan : c.canSend e = true := by simp [canSend, hnot, hready]
  have huses : c.usesTransport e = false := by simp [usesTransport, hnot, hudp]
  refine bind_eq_ok.mpr ⟨e, hlookup, ?_⟩
  dsimp only
  rw [hsame, if_pos hcan, huses]
  rfl

end Controller

namespace MessageThread

open Controller

variable {env : Platform} {t : MessageThread}

/-- An evaluation that gives up UDP leaves the controller on a TCP relay. -/
def SelectsTransport (t : MessageThread) (e : Time × ThreadEvent) : Prop :=
  match e.2 with
  | .evaluateUdpPingResults => t.c.givesUpUdp → t.c.SelectsTcp
  | _ => True

/-- It comes when the controller is on a TCP relay, or has UDP relays and has made no
TCP relays of them. -/
def CanSelectTransport (t : MessageThread) (e : Time × ThreadEvent) : Prop :=
  match e.2 with
  | .evaluateUdpPingResults => t.c.givesUpUdp → t.c.CanSelectTcp
  | _ => True

instance (t : MessageThread) (e : Time × ThreadEvent) : Decidable (CanSelectTransport t e) := by
  unfold CanSelectTransport
  split <;> infer_instance

theorem selectsTransport_iff (t : MessageThread) (e : Time × ThreadEvent) :
    SelectsTransport t e ↔ CanSelectTransport t e := by
  unfold SelectsTransport CanSelectTransport
  split
  · exact imp_congr_right selectsTcp_iff
  · exact Iff.rfl

/-- **A usable transport is selected** in every run from `SetRemoteEndpoints` on in which
the evaluations that give up UDP can select one, and in no other. -/
theorem transport_selected_iff (env : Platform) (t : MessageThread) (endpoints : List Endpoint)
    (allowP2p : Bool) (layer : Int) (events : List (Time × ThreadEvent)) :
    AlongOk (step env) SelectsTransport
        { t with c := t.c.setRemoteEndpoints endpoints allowP2p layer } events ↔
      AlongOk (step env) CanSelectTransport
        { t with c := t.c.setRemoteEndpoints endpoints allowP2p layer } events := by
  have hsame : SelectsTransport = CanSelectTransport := by
    funext t e
    exact propext (selectsTransport_iff t e)
  rw [hsame]

-- with UDP relays only the first evaluation succeeds, and one that comes after the peer's
-- init by a UDP relay does not
example : ∃ c, c = (unconnected samplePlatform).c.setRemoteEndpoints twoRelays true 110 ∧
    AlongOk (step samplePlatform) CanSelectTransport { unconnected samplePlatform with c := c }
      [(1, .evaluateUdpPingResults), (2, .resetUdpAvailability)] ∧
    ¬ AlongOk (step samplePlatform) CanSelectTransport { unconnected samplePlatform with c := c }
      [(1, .evaluateUdpPingResults), (2, .resetUdpAvailability), fromRelay 1 3 (sampleInit []),
        (4, .evaluateUdpPingResults)] :=
  ⟨_, rfl, by decide +kernel, by decide +kernel⟩

/-- Relays of both kinds. -/
def bothKinds : List Endpoint := [{ id := 1, type := .udpRelay }, { id := 2, type := .tcpRelay }]

/-- No ping is answered. -/
theorem transport_selected_fails :
    ¬ ∀ (env : Platform) (t : MessageThread) (endpoints : List Endpoint) (allowP2p : Bool)
      (layer : Int) (events : List (Time × ThreadEvent)), (∃ e ∈ endpoints, e.isReflector) →
      (endpoints.map (·.id)).Nodup → (∀ e ∈ endpoints, e.id ≠ 0) → t.c.currentEndpoint = 0 →
      AlongOk (step env) SelectsTransport
        { t with c := t.c.setRemoteEndpoints endpoints allowP2p layer } events := by
  intro h
  have hrun := h samplePlatform (unconnected samplePlatform) bothKinds true 110
    [(1, .evaluateUdpPingResults)] (by decide) (by decide) (by decide) rfl
  have hgives : ((unconnected samplePlatform).c.setRemoteEndpoints bothKinds true 110).givesUpUdp := by
    decide +kernel
  have hcan := (selectsTcp_iff hgives).mp ((alongOk_cons.mp hrun).1 hgives)
  exact absurd hcan (by decide +kernel)

end MessageThread

end Tgvoip
