import Mathlib.Tactic.NormNum
import Tgvoip.Controller.PacketFrame
import Tgvoip.Controller.Relays
import Tgvoip.Lib.Extremum

/-!
# PathChoice — SendRelayPings does not flap

`SendRelayPings` (`controller/protocol/NetworkAPI.cpp`; the model is in
`Controller/Relays`) prefers a relay whose ping beats that of the present one
by a factor, goes over to the peer's own endpoint when that beats the relay by
a factor, and back by another. What it reads of the controller is a
`PathView`, and what it decides is `PathView.decide`
(`sendRelayPings_pathView`). While the round trip times stay as they are, it
has decided after two calls (`path_settles`).
-/

namespace Tgvoip

open Fallible

/-- What is read of an endpoint. -/
structure EndpointMeasure where
  id : Int64
  type : EndpointType
  averageRTT : Time
  deriving DecidableEq

def Endpoint.measure (e : Endpoint) : EndpointMeasure := ⟨e.id, e.type, e.averageRTT⟩

/-- What `SendRelayPings` decides on. -/
structure PathView where
  table : List (Int64 × EndpointMeasure)
  config : Config
  useUDP : Bool
  useTCP : Bool
  state : CallState
  preferred : Int64
  current : Int64

namespace PathView

variable (v : PathView)

def at? (key : Int64) : Option EndpointMeasure := (v.table.find? (·.1 == key)).map (·.2)

/-- A ping, or none where it stands for `DBL_MAX`, and whose it is. -/
abbrev Ping := Option Time × Int64

/-- One ping beats another by a factor. -/
def Beats (factor : Time) (x y : Ping) : Prop :=
  x.1.any (fun ping => 0 < ping && Controller.fasterThan ping y.1 factor) = true

instance (factor : Time) : DecidableRel (Beats factor) :=
  fun _ _ => inferInstanceAs (Decidable (_ = true))

/-- What the loop makes of an entry: the ping of a relay that can be used. -/
def candidate (key : Int64) : Option Ping :=
  (v.at? key).bind fun m =>
    if ((v.useUDP && m.type == .udpRelay) || (v.useTCP && m.type == .tcpRelay)) &&
        m.averageRTT > 0 then
      some (some (m.averageRTT * if m.type = .udpRelay then 1 else 2), key)
    else none

def candidates : List Ping := (v.table.map (·.1)).filterMap v.candidate

/-- The ping of the preferred relay, where the loop starts. -/
def start : Ping :=
  let ping := (v.at? v.preferred).map fun m => m.averageRTT * if m.type = .tcpRelay then 2 else 1
  (ping.filter (· ≠ 0), v.preferred)

/-- The relay that is preferred after the loop. -/
def best : Ping := Extremum.scan (Beats v.config.relaySwitchThreshold) v.start v.candidates

/-- The endpoint beats the relay. -/
def winsOver (minPing : Option Time) (m : EndpointMeasure) : Bool :=
  m.averageRTT > 0 &&
    Controller.fasterThan m.averageRTT minPing v.config.relayToP2pSwitchThreshold

/-- The peer's own endpoint, if it beats the relay. -/
def p2p (minPing : Option Time) : Option Int64 :=
  match v.at? EndpointID.p2pv4 with
  | none => none
  | some inet =>
    if (v.at? EndpointID.lanv4).any (v.winsOver minPing) then some EndpointID.lanv4
    else if v.winsOver minPing inet then some EndpointID.p2pv4
    else none

/-- Where one goes from an endpoint. -/
def next (minPing : Option Time) (key : Int64) : Int64 :=
  match v.at? key with
  | none => key
  | some m =>
    if m.type = .udpRelay && v.useUDP then (v.p2p minPing).getD key
    else if minPing.any fun ping =>
        ping > 0 && ping < m.averageRTT * v.config.p2pToRelaySwitchThreshold then v.preferred
    else key

/-- Both endpoints are there, and a call that goes on over more than one. -/
def active : Bool :=
  (v.state = .established || v.state = .reconnecting) && v.table.length > 1 &&
    (v.at? v.preferred).isSome && (v.at? v.current).isSome

/-- The endpoint the current one is chosen from. -/
def base : Int64 :=
  if v.best.2 ≠ v.preferred &&
      (v.at? v.current).any (fun m => m.type == .udpRelay || m.type == .tcpRelay) then v.best.2
  else v.current

/-- **The decision.** -/
def decide : PathView :=
  if v.active then
    { v with
      preferred := v.best.2
      current := { v with preferred := v.best.2 }.next v.best.1 v.base }
  else v

/-! ## The decision settles -/

/-- The factors damp: what was left is not worth going back to. -/
structure Damped (config : Config) : Prop where
  relay_le : config.relaySwitchThreshold ≤ 1
  there_and_back : config.relayToP2pSwitchThreshold * config.p2pToRelaySwitchThreshold ≤ 1

variable {v} {x y : Ping} {factor : Time} {minPing : Option Time} {key : Int64}

theorem fasterThan_iff {rtt : Time} : Controller.fasterThan rtt minPing factor = true ↔
    (minPing = none → 0 < factor) ∧ ∀ ping, minPing = some ping → rtt < ping * factor := by
  cases minPing <;> simp [Controller.fasterThan]

theorem beats_iff : Beats factor x y ↔ ∃ ping, x.1 = some ping ∧ 0 < ping ∧
    (y.1 = none → 0 < factor) ∧ ∀ other, y.1 = some other → ping < other * factor := by
  unfold Beats
  cases x.1 with
  | none => simp
  | some ping => simp [fasterThan_iff]

theorem beats_strictOrder (hfactor : factor ≤ 1) : IsStrictOrder Ping (Beats factor) where
  irrefl := by
    intro x hx
    obtain ⟨ping, hping, hpos, -, hlt⟩ := beats_iff.mp hx
    have hless := hlt ping hping
    exact absurd hless (not_lt.mpr (mul_le_of_le_one_right hpos.le hfactor))
  trans := by
    intro x y z hxy hyz
    obtain ⟨ping, hping, hpos, -, hlt⟩ := beats_iff.mp hxy
    obtain ⟨other, hother, hother_pos, hother_none, hother_lt⟩ := beats_iff.mp hyz
    refine beats_iff.mpr ⟨ping, hping, hpos, hother_none, fun third hthird => ?_⟩
    calc ping < other * factor := hlt other hother
      _ ≤ other := mul_le_of_le_one_right hother_pos.le hfactor
      _ < third * factor := hother_lt third hthird

theorem candidate_eq_some {c : Ping} (h : v.candidate key = some c) :
    ∃ m, v.at? key = some m ∧ 0 < m.averageRTT ∧ c.2 = key ∧
      c.1 = some (m.averageRTT * if m.type = .tcpRelay then 2 else 1) := by
  obtain ⟨m, hm, h⟩ := Option.bind_eq_some_iff.mp h
  split at h
  · rename_i huse
    simp only [Bool.and_eq_true, Bool.or_eq_true, beq_iff_eq, decide_eq_true_eq] at huse
    obtain ⟨htype, hpos⟩ := huse
    obtain rfl := Option.some.inj h
    refine ⟨m, hm, hpos, rfl, ?_⟩
    obtain ⟨-, htype⟩ | ⟨-, htype⟩ := htype
    · rw [if_pos htype, htype, if_neg (by decide)]
    · rw [htype, if_neg (by decide), if_pos rfl]
  · cases h

/-- What is found is the relay that was preferred, or a candidate. -/
theorem best_found : v.best = v.start ∨ v.best ∈ v.candidates :=
  List.mem_cons.mp (Extremum.scan_mem v.candidates v.start)

/-- The relay that is preferred after the loop has the ping that was found. -/
theorem start_best (current : Int64) :
    { v with preferred := v.best.2, current := current }.start = v.best := by
  rcases v.best_found with h | h
  · rw [h]
    rfl
  · obtain ⟨key, -, hkey⟩ := List.mem_filterMap.mp h
    obtain ⟨m, hm, hpos, hsnd, hfst⟩ := candidate_eq_some hkey
    change v.best.2 = key at hsnd
    change v.best.1 = _ at hfst
    have hping : m.averageRTT * (if m.type = .tcpRelay then 2 else 1) ≠ 0 := by
      split
      · exact mul_ne_zero hpos.ne' (by norm_num)
      · rw [mul_one]
        exact hpos.ne'
    refine Prod.ext ?_ rfl
    rw [hfst]
    show Option.filter _ ((v.at? v.best.2).map _) = _
    rw [hsnd, hm, Option.map_some, Option.filter_some, if_pos (decide_eq_true hping)]

/-- **A second loop prefers the same relay.** -/
theorem best_best (hconfig : Damped v.config) (current : Int64) :
    { v with preferred := v.best.2, current := current }.best = v.best := by
  have horder := beats_strictOrder hconfig.relay_le
  rw [best, start_best]
  exact Extremum.scan_scan v.candidates v.start

theorem next_mem (h : (v.at? key).isSome) (hpreferred : (v.at? v.preferred).isSome) :
    (v.at? (v.next minPing key)).isSome := by
  unfold next p2p
  cases hkey : v.at? key with
  | none => rw [hkey] at h; cases h
  | some m =>
      dsimp only
      split
      · cases hinet : v.at? EndpointID.p2pv4 with
        | none => exact hkey ▸ h
        | some inet =>
            dsimp only
            split
            · rename_i hlan
              obtain ⟨lan, hlan, -⟩ := (Option.any_eq_true ..).mp hlan
              simp [hlan]
            · split
              · simp [hinet]
              · simp [hkey]
      · split
        · exact hpreferred
        · simp [hkey]

theorem winsOver_iff {m : EndpointMeasure} : v.winsOver minPing m = true ↔ 0 < m.averageRTT ∧
    (minPing = none → 0 < v.config.relayToP2pSwitchThreshold) ∧
    ∀ ping, minPing = some ping → m.averageRTT < ping * v.config.relayToP2pSwitchThreshold := by
  rw [winsOver, Bool.and_eq_true, fasterThan_iff, decide_eq_true_eq]

theorem winsOver_of_p2p (h : v.p2p minPing = some key) :
    ∃ m, v.at? key = some m ∧ v.winsOver minPing m = true := by
  unfold p2p at h
  split at h
  · cases h
  · rename_i inet hinet
    split at h
    · rename_i hlan
      obtain ⟨lan, hlan, hwins⟩ := (Option.any_eq_true ..).mp hlan
      obtain rfl := Option.some.inj h
      exact ⟨lan, hlan, hwins⟩
    · split at h
      · rename_i hwins
        obtain rfl := Option.some.inj h
        exact ⟨inet, hinet, hwins⟩
      · cases h

/-- What beats the relay is not given up for it. -/
theorem next_p2p (hconfig : Damped v.config) (h : v.p2p minPing = some key) :
    v.next minPing key = key := by
  obtain ⟨m, hm, hwins⟩ := winsOver_of_p2p h
  obtain ⟨hpos, -, hlt⟩ := winsOver_iff.mp hwins
  unfold next
  rw [hm]
  dsimp only
  split
  · rw [h, Option.getD_some]
  · rw [if_neg]
    -- going back would mean that there and back is a gain
    intro hback
    obtain ⟨ping, hminPing, hback⟩ := (Option.any_eq_true ..).mp hback
    rw [Bool.and_eq_true, decide_eq_true_eq, decide_eq_true_eq] at hback
    obtain ⟨hping, hback⟩ := hback
    have hthere := hlt ping hminPing
    have hfactor : 0 < v.config.relayToP2pSwitchThreshold :=
      (mul_pos_iff_of_pos_left hping).mp (hpos.trans hthere)
    have hless : m.averageRTT < m.averageRTT := by
      calc m.averageRTT < ping * v.config.relayToP2pSwitchThreshold := hthere
        _ ≤ m.averageRTT * v.config.p2pToRelaySwitchThreshold *
            v.config.relayToP2pSwitchThreshold := mul_le_mul_of_nonneg_right hback.le hfactor.le
        _ = m.averageRTT *
            (v.config.relayToP2pSwitchThreshold * v.config.p2pToRelaySwitchThreshold) := by
          rw [mul_assoc, mul_comm v.config.p2pToRelaySwitchThreshold]
        _ ≤ m.averageRTT := mul_le_of_le_one_right hpos.le hconfig.there_and_back
    exact lt_irrefl _ hless

/-- An endpoint one stays at, or the peer's own that beats the relay. -/
theorem next_relay (hconfig : Damped v.config) {m : EndpointMeasure} (hm : v.at? key = some m)
    (hrelay : (m.type = .udpRelay && v.useUDP) = true) :
    v.next minPing (v.next minPing key) = v.next minPing key := by
  have hnext : v.next minPing key = (v.p2p minPing).getD key := by
    unfold next
    rw [hm]
    exact if_pos hrelay
  rw [hnext]
  cases hp2p : v.p2p minPing with
  | none => rw [Option.getD_none, hnext, hp2p, Option.getD_none]
  | some p2p => exact next_p2p hconfig hp2p

/-- **Two steps lead to an endpoint one stays at**: back to the relay, and on from there. -/
theorem next_next (hconfig : Damped v.config) (minPing : Option Time) (key : Int64) :
    v.next minPing (v.next minPing (v.next minPing key)) = v.next minPing (v.next minPing key) := by
  cases hkey : v.at? key with
  | none =>
      have hstay : v.next minPing key = key := by simp only [next, hkey]
      rw [hstay, hstay, hstay]
  | some m =>
      by_cases hrelay : (m.type = .udpRelay && v.useUDP) = true
      · have hstay : v.next minPing (v.next minPing key) = v.next minPing key :=
          next_relay hconfig hkey hrelay
        rw [hstay, hstay]
      · have hnext : v.next minPing key = v.preferred ∨ v.next minPing key = key := by
          unfold next
          rw [hkey]
          dsimp only
          rw [if_neg hrelay]
          split
          · exact .inl rfl
          · exact .inr rfl
        rcases hnext with hnext | hnext
        · rw [hnext]
          cases hpreferred : v.at? v.preferred with
          | none =>
              have hstay : v.next minPing v.preferred = v.preferred := by
                simp only [next, hpreferred]
              rw [hstay, hstay]
          | some relay =>
              by_cases hudp : (relay.type = .udpRelay && v.useUDP) = true
              · exact next_relay hconfig hpreferred hudp
              · have hstay : v.next minPing v.preferred = v.preferred := by
                  unfold next
                  rw [hpreferred]
                  dsimp only
                  rw [if_neg hudp, ite_self]
                rw [hstay, hstay]
        · rw [hnext, hnext, hnext]

theorem best_mem (h : (v.at? v.preferred).isSome) : (v.at? v.best.2).isSome := by
  rcases v.best_found with hbest | hbest
  · rw [hbest]
    exact h
  · obtain ⟨key, -, hkey⟩ := List.mem_filterMap.mp hbest
    obtain ⟨m, hm, -, hsnd, -⟩ := candidate_eq_some hkey
    change v.best.2 = key at hsnd
    rw [hsnd, hm]
    rfl

theorem base_mem (h : v.active = true) : (v.at? v.base).isSome := by
  simp only [active, Bool.and_eq_true] at h
  unfold base
  split
  · exact best_mem h.1.2
  · exact h.2

/-- What is decided can be decided on. -/
theorem decide_active (h : v.active = true) : v.decide.active = true := by
  have hbase := base_mem h
  simp only [active, Bool.and_eq_true] at h
  have hnext : (v.at? ({ v with preferred := v.best.2 }.next v.best.1 v.base)).isSome :=
    next_mem hbase (best_mem h.1.2)
  simp only [decide, active, h, Bool.and_self, if_true, Bool.and_eq_true]
  exact ⟨⟨trivial, best_mem h.1.2⟩, hnext⟩

/-- A decision after the first one: the relay stays, and one step is taken. -/
theorem decide_again (hconfig : Damped v.config) {key : Int64}
    (hactive : { v with preferred := v.best.2, current := key }.active = true) :
    { v with preferred := v.best.2, current := key }.decide =
      { v with
        preferred := v.best.2
        current := { v with preferred := v.best.2 }.next v.best.1 key } := by
  have hbest := best_best hconfig key
  have hbase : { v with preferred := v.best.2, current := key }.base = key := by
    unfold base
    rw [hbest]
    simp
  rw [decide, if_pos hactive, hbest, hbase]
  rfl

/-- **The decision settles**: the third one is the second one. -/
theorem decide_settles (hconfig : Damped v.config) : v.decide.decide.decide = v.decide.decide := by
  by_cases hactive : v.active = true
  · have hfirst : v.decide = { v with
        preferred := v.best.2
        current := { v with preferred := v.best.2 }.next v.best.1 v.base } := by
      rw [decide, if_pos hactive]
    have hsecond := decide_active hactive
    have hthird := decide_active hsecond
    rw [hfirst] at hsecond hthird ⊢
    rw [decide_again hconfig hsecond] at hthird ⊢
    rw [decide_again hconfig hthird]
    have hnext := next_next (v := { v with preferred := v.best.2 }) hconfig v.best.1 v.base
    rw [hnext]
  · have hstay : v.decide = v := by rw [decide, if_neg hactive]
    rw [hstay, hstay, hstay]

end PathView

/-! ## What the calls do -/

namespace Endpoints

variable {m : Endpoints} {key : Int64} {e e' : Endpoint}

/-- What is read of the table. -/
def measures (m : Endpoints) : List (Int64 × EndpointMeasure) := m.map fun x => (x.1, x.2.measure)

theorem measures_set (hord : m.Ordered) (he : m.at? key = some e)
    (hsame : e'.measure = e.measure) : (m.set key e').measures = m.measures := by
  induction m with
  | nil => cases he
  | cons x m ih =>
      obtain ⟨k, old⟩ := x
      obtain ⟨hk, hm⟩ := List.pairwise_cons.mp hord
      rw [at?_cons] at he
      by_cases h : k = key
      · rw [if_pos h] at he
        obtain rfl := Option.some.inj he
        rw [Endpoints.set, if_pos h.symm, measures, measures, List.map_cons, List.map_cons,
          hsame, h]
      · rw [if_neg h] at he
        have hlt : k < key := hk _ (mem_of_at?_eq_some he)
        rw [Endpoints.set, if_neg (Ne.symm h), if_neg (Int64.lt_asymm hlt), measures, List.map_cons]
        exact congrArg _ (ih hm he)

end Endpoints

namespace Controller

open PathView (Beats)

variable {env : Platform} {c c' c'' : Controller} {now : Time}

def pathView (c : Controller) : PathView where
  table := c.endpoints.measures
  config := c.config
  useUDP := c.useUDP
  useTCP := c.useTCP
  state := c.state
  preferred := c.preferredRelay
  current := c.currentEndpoint

theorem at?_pathView (key : Int64) :
    c.pathView.at? key = (c.endpoints.at? key).map Endpoint.measure := by
  unfold PathView.at? pathView Endpoints.measures Endpoints.at?
  simp only [List.find?_map, Option.map_map]
  rfl

/-- Nothing that `SendRelayPings` reads changes. -/
def PathKept (c c' : Controller) : Prop :=
  c.endpoints.Ordered → c'.pathView = c.pathView ∧ c'.endpoints.Ordered

theorem PathKept.of_eq (hview : c'.pathView = c.pathView) (htable : c'.endpoints = c.endpoints) :
    PathKept c c' := fun hord => ⟨hview, htable ▸ hord⟩

theorem PathKept.trans (h : PathKept c c') (h' : PathKept c' c'') : PathKept c c'' := by
  intro hord
  obtain ⟨hview, hord'⟩ := h hord
  obtain ⟨hview', hord''⟩ := h' hord'
  exact ⟨hview'.trans hview, hord''⟩

theorem PathKept.set {key : Int64} {e e' : Endpoint} (he : c.endpoints.at? key = some e)
    (hsame : e'.measure = e.measure) :
    PathKept c { c with endpoints := c.endpoints.set key e' } := by
  intro hord
  refine ⟨?_, hord.set key e'⟩
  unfold pathView
  rw [Endpoints.measures_set hord he hsame]

theorem pathKept_rule : SendRule PathKept where
  refl := fun _ => .of_eq rfl rfl
  trans := .trans
  connect := by
    intro c key e he
    unfold connectIfNeeded
    split
    · exact .set he rfl
    · exact .of_eq rfl rfl
  transmit := by
    intro c c' now pkt e h
    obtain ⟨s, pm, -, -, -, rfl⟩ := transmit_ok h
    exact .of_eq rfl rfl
  enqueue := fun _ _ => .of_eq rfl rfl
  reliably := by
    intro c pkt retryInterval timeout tries
    unfold sendPacketReliably
    dsimp only
    split
    · exact .of_eq rfl rfl
    · exact .of_eq rfl rfl
  noteSealing := fun _ _ => .of_eq rfl rfl
  prepareNew := fun _ => .of_eq rfl rfl
  prepareLegacy := fun _ _ => .of_eq rfl rfl

theorem sendExtra_kept (extra : WrappedExtra) (endpointId : Int64) :
    PathKept c (c.sendExtra extra endpointId) := by
  unfold sendExtra
  split
  · exact .of_eq rfl rfl
  · exact .of_eq rfl rfl

theorem pingIfDue_kept {key : Int64} {e : Endpoint} (h : c.pingIfDue env now key e = .ok c') :
    PathKept c c' := by
  unfold pingIfDue at h
  split at h
  · obtain ⟨c₁, hsent, h⟩ := bind_eq_ok.mp h
    obtain ⟨e₁, he, h⟩ := bind_eq_ok.mp h
    rw [endpointAt_eq_ok] at he
    rw [← pure_eq_ok.mp h]
    have hsend : PathKept c c₁ :=
      PathKept.trans (sendExtra_kept _ _) (pathKept_rule.sendPacket hsent)
    have hpinged : PathKept c₁
        { c₁ with endpoints := c₁.endpoints.set key { e₁ with lastPingTime := now } } := .set he rfl
    exact PathKept.trans (PathKept.trans hsend hpinged) (.of_eq rfl rfl)
  · rw [← pure_eq_ok.mp h]
    exact .of_eq rfl rfl

/-- One round of the loop. -/
theorem pingRound_view {r r' : PingRound} {key : Int64} (hord : r.c.endpoints.Ordered)
    (h : pingRound env now r key = .ok r') :
    r'.c.pathView = r.c.pathView ∧ r'.c.endpoints.Ordered ∧ (r'.minPing, r'.minPingRelay) =
      Extremum.scan (Beats r.c.config.relaySwitchThreshold) (r.minPing, r.minPingRelay)
        (r.c.pathView.candidate key).toList := by
  unfold pingRound at h
  obtain ⟨e, he, h⟩ := bind_eq_ok.mp h
  rw [endpointAt_eq_ok] at he
  have hcandidate : r.c.pathView.candidate key =
      if ((r.c.useUDP && e.type == .udpRelay) || (r.c.useTCP && e.type == .tcpRelay)) &&
          e.averageRTT > 0 then
        some (some (e.averageRTT * if e.type = .udpRelay then 1 else 2), key)
      else none := by
    rw [PathView.candidate, at?_pathView, he]
    rfl
  split at h
  -- the `continue`s: a relay of a transport that is not used is no candidate
  · rename_i hunused
    rw [← pure_eq_ok.mp h]
    refine ⟨rfl, hord, ?_⟩
    rw [hcandidate, if_neg]
    · rfl
    · cases htype : e.type <;> simp [htype] at hunused ⊢ <;> simp [hunused]
  · obtain ⟨c₁, hping, h⟩ := bind_eq_ok.mp h
    obtain ⟨hview, hord₁⟩ := pingIfDue_kept hping hord
    have huse : c₁.useUDP = r.c.useUDP ∧ c₁.useTCP = r.c.useTCP ∧ c₁.config = r.c.config :=
      ⟨congrArg PathView.useUDP hview, congrArg PathView.useTCP hview,
        congrArg PathView.config hview⟩
    dsimp only at h
    rw [huse.1, huse.2.1, huse.2.2] at h
    have hpos : e.averageRTT > 0 → 0 < e.averageRTT * if e.type = .udpRelay then 1 else 2 :=
      fun hrtt => mul_pos hrtt (by split <;> norm_num)
    rw [hcandidate]
    -- `pingRound` and `candidate` write the factor of the transport alike
    generalize e.averageRTT * _ = ping at h hpos ⊢
    by_cases husable : (((r.c.useUDP && e.type == .udpRelay) ||
        (r.c.useTCP && e.type == .tcpRelay)) && e.averageRTT > 0) = true
    · have hping_pos := hpos (of_decide_eq_true (Bool.and_eq_true_iff.mp husable).2)
      have hbeats : Beats r.c.config.relaySwitchThreshold (some ping, key)
          (r.minPing, r.minPingRelay) ↔
            fasterThan ping r.minPing r.c.config.relaySwitchThreshold = true := by
        simp [Beats, hping_pos]
      rw [husable, Bool.true_and] at h
      rw [if_pos husable, Option.toList_some, Extremum.scan_cons, Extremum.scan_nil]
      split at h
      · rename_i hfaster
        rw [← pure_eq_ok.mp h, if_pos (hbeats.mpr hfaster)]
        exact ⟨hview, hord₁, rfl⟩
      · rename_i hslower
        rw [← pure_eq_ok.mp h, if_neg fun hb => hslower (hbeats.mp hb)]
        exact ⟨hview, hord₁, rfl⟩
    · rw [Bool.eq_false_of_not_eq_true husable, Bool.false_and, if_neg Bool.false_ne_true] at h
      rw [if_neg husable, ← pure_eq_ok.mp h]
      exact ⟨hview, hord₁, rfl⟩

/-- **The loop** prefers the relay that the scan of the candidates keeps. -/
theorem pingRounds_view {keys : List Int64} {r r' : PingRound} (hord : r.c.endpoints.Ordered)
    (h : keys.foldlM (pingRound env now) r = .ok r') :
    r'.c.pathView = r.c.pathView ∧ r'.c.endpoints.Ordered ∧ (r'.minPing, r'.minPingRelay) =
      Extremum.scan (Beats r.c.config.relaySwitchThreshold) (r.minPing, r.minPingRelay)
        (keys.filterMap r.c.pathView.candidate) := by
  induction keys generalizing r with
  | nil =>
      rw [← pure_eq_ok.mp h]
      exact ⟨rfl, hord, rfl⟩
  | cons key keys ih =>
      rw [List.foldlM_cons] at h
      obtain ⟨r₁, hround, hrest⟩ := bind_eq_ok.mp h
      obtain ⟨hview₁, hord₁, hkept₁⟩ := pingRound_view hord hround
      obtain ⟨hview, hord', hkept⟩ := ih hord₁ hrest
      have hconfig : r₁.c.config = r.c.config := congrArg PathView.config hview₁
      refine ⟨hview.trans hview₁, hord', ?_⟩
      rw [hkept, hkept₁, hview₁, hconfig, List.filterMap_cons]
      cases r.c.pathView.candidate key with
      | none => rfl
      | some candidate => rfl

/-- What is made of the pings, where `key` is what the current endpoint stands under. -/
theorem chooseEndpoint_view {key : Int64} {current : Endpoint} {minPing : Option Time}
    (hcurrent : c.pathView.at? key = some current.measure) (hkey : c.currentEndpoint = key) :
    (c.chooseEndpoint current minPing).pathView =
      { c.pathView with current := c.pathView.next minPing key } := by
  have hlan : (c.pathView.at? EndpointID.lanv4).any (c.pathView.winsOver minPing) =
      (c.endpoints.at? EndpointID.lanv4).any fun lan => lan.averageRTT > 0 &&
        fasterThan lan.averageRTT minPing c.config.relayToP2pSwitchThreshold := by
    rw [at?_pathView]
    cases c.endpoints.at? EndpointID.lanv4 <;> rfl
  have hnext : c.pathView.next minPing key =
      if (current.type = .udpRelay && c.useUDP) = true then
        (c.pathView.p2p minPing).getD key
      else if (minPing.any fun ping =>
          ping > 0 && ping < current.averageRTT * c.config.p2pToRelaySwitchThreshold) = true then
        c.preferredRelay
      else key := by
    rw [PathView.next, hcurrent]
    rfl
  rw [hnext]
  unfold chooseEndpoint
  split
  · rw [PathView.p2p, hlan, at?_pathView]
    cases c.endpoints.at? EndpointID.p2pv4 with
    | none => rw [← hkey]; rfl
    | some p2p =>
        dsimp only [Option.map_some]
        have hp2p : c.pathView.winsOver minPing p2p.measure = (decide (p2p.averageRTT > 0) &&
            fasterThan p2p.averageRTT minPing c.config.relayToP2pSwitchThreshold) := rfl
        rw [hp2p]
        split
        · rfl
        · split
          · rfl
          · rw [← hkey]; rfl
  · split
    · rfl
    · rw [← hkey]; rfl

/-- The loop starts with the ping of the preferred relay. -/
theorem start_view {preferred : Endpoint}
    (h : c.pathView.at? c.preferredRelay = some preferred.measure) : c.pathView.start =
      (if preferred.averageRTT * (if preferred.type = .tcpRelay then 2 else 1) = 0 then none
        else some (preferred.averageRTT * if preferred.type = .tcpRelay then 2 else 1),
        c.preferredRelay) := by
  show (Option.filter _ ((c.pathView.at? c.preferredRelay).map _), _) = _
  rw [h, Option.map_some, Option.filter_some]
  simp only [decide_not, Bool.not_eq_true', decide_eq_false_iff_not, ite_not]
  rfl

/-- What `SendRelayPings` asks for before anything else is what its view can be decided on. -/
theorem active_view {preferred current : Endpoint}
    (hup : ((c.state = .established || c.state = .reconnecting) && c.endpoints.length > 1) = true)
    (hpreferred : c.pathView.at? c.preferredRelay = some preferred.measure)
    (hcurrent : c.pathView.at? c.currentEndpoint = some current.measure) :
    c.pathView.active = true := by
  have hlength : c.pathView.table.length = c.endpoints.length := by
    simp [pathView, Endpoints.measures]
  rw [Bool.and_eq_true] at hup
  have hstate : (decide (c.pathView.state = .established) ||
      decide (c.pathView.state = .reconnecting)) = true := hup.1
  rw [PathView.active, hlength, hstate, hup.2]
  show ((c.pathView.at? c.preferredRelay).isSome && (c.pathView.at? c.currentEndpoint).isSome) =
    true
  rw [hpreferred, hcurrent]
  rfl

/-- **`SendRelayPings` decides** on its view. -/
theorem sendRelayPings_view (hord : c.endpoints.Ordered) (hnamed : c.endpoints.Named)
    (h : c.sendRelayPings env now = .ok c') :
    c'.pathView = c.pathView.decide := by
  unfold sendRelayPings at h
  split at h
  · rename_i hup
    obtain ⟨preferred, hpreferred, h⟩ := bind_eq_ok.mp h
    obtain ⟨current, hcurrent, h⟩ := bind_eq_ok.mp h
    obtain ⟨r, hloop, h⟩ := bind_eq_ok.mp h
    obtain ⟨relay, hrelay, h⟩ := bind_eq_ok.mp h
    rw [endpointAt_eq_ok] at hpreferred hcurrent hrelay
    have hpreferred' : c.pathView.at? c.preferredRelay = some preferred.measure := by
      rw [at?_pathView, hpreferred, Option.map_some]
    have hcurrent' : c.pathView.at? c.currentEndpoint = some current.measure := by
      rw [at?_pathView, hcurrent, Option.map_some]
    obtain ⟨hview, -, hkept⟩ := pingRounds_view hord hloop
    have hkeys : c.endpoints.map (·.1) = c.pathView.table.map (·.1) := by
      simp [pathView, Endpoints.measures]
    have hbest : c.pathView.best = (r.minPing, r.minPingRelay) := by
      rw [hkept, PathView.best, PathView.candidates, start_view hpreferred', hkeys]
      rfl
    have hrelay' : c.pathView.at? r.minPingRelay = some relay.measure := by
      rw [← hview, at?_pathView, hrelay, Option.map_some]
    have hid : relay.id = r.minPingRelay := by
      rw [at?_pathView] at hrelay'
      obtain ⟨e, he, hsame⟩ := Option.map_eq_some_iff.mp hrelay'
      exact (congrArg EndpointMeasure.id hsame).symm.trans (hnamed.id_eq he)
    have hactive : c.pathView.active = true := active_view hup hpreferred' hcurrent'
    -- no ping moves what the call prefers or where it is, so the loop's end is compared with
    -- what stood there at its start
    have hold : r.c.preferredRelay = c.preferredRelay := congrArg PathView.preferred hview
    have hthere : r.c.currentEndpoint = c.currentEndpoint := congrArg PathView.current hview
    have hbase : c.pathView.base =
        if decide (r.minPingRelay ≠ c.preferredRelay) && current.isReflector then r.minPingRelay
        else c.currentEndpoint := by
      have hat : c.pathView.at? c.pathView.current = some current.measure := hcurrent'
      rw [PathView.base, hbest, hat, Option.any_some]
      rfl
    have hdecide : c.pathView.decide = { c.pathView with
        preferred := r.minPingRelay
        current :=
          { c.pathView with preferred := r.minPingRelay }.next r.minPing c.pathView.base } := by
      rw [PathView.decide, if_pos hactive, hbest]
    have hchoose : ∀ (c₂ : Controller) (key : Int64) (e : Endpoint),
        c₂.pathView = { c.pathView with preferred := r.minPingRelay, current := key } →
        c.pathView.at? key = some e.measure →
        (c₂.chooseEndpoint e r.minPing).pathView = { c.pathView with
          preferred := r.minPingRelay
          current := { c.pathView with preferred := r.minPingRelay }.next r.minPing key } := by
      intro c₂ key e hview₂ he
      have he₂ : c₂.pathView.at? key = some e.measure := by rw [hview₂, ← he]; rfl
      rw [chooseEndpoint_view he₂ (congrArg PathView.current hview₂), hview₂]
      rfl
    rw [hdecide, hbase]
    split at h
    · rename_i hswitch
      rw [hid, hold] at hswitch
      rw [← pure_eq_ok.mp h, decide_eq_true hswitch, Bool.true_and]
      split
      · refine hchoose _ r.minPingRelay relay ?_ hrelay'
        rw [← hview, ← hid]
        rfl
      · refine hchoose _ c.currentEndpoint current ?_ hcurrent'
        rw [← hview, ← hid, ← hthere]
        rfl
    · rename_i hstay
      rw [not_not, hid, hold] at hstay
      rw [← pure_eq_ok.mp h, if_neg (by simp [hstay])]
      refine hchoose _ c.currentEndpoint current ?_ hcurrent'
      rw [hview, hstay]
      rfl
  · rename_i hdown
    have hinactive : ¬ c.pathView.active = true := by
      intro hactive
      simp only [PathView.active, pathView, Endpoints.measures, List.length_map, Bool.and_eq_true]
        at hactive hdown
      exact hdown hactive.1.1
    rw [← pure_eq_ok.mp h, PathView.decide, if_neg hinactive]

/-! ## Runs -/

theorem ordered_of_measures {m m' : Endpoints} (h : m'.measures = m.measures) (hord : m.Ordered) :
    m'.Ordered := by
  have hiff : ∀ m : Endpoints, m.Ordered ↔ m.measures.Pairwise fun x y => x.1 < y.1 := by
    intro m
    rw [Endpoints.measures, List.pairwise_map]
    rfl
  rw [hiff, h]
  exact (hiff m).mp hord

theorem named_of_measures {m m' : Endpoints} (h : m'.measures = m.measures) (hnamed : m.Named) :
    m'.Named := by
  have hiff : ∀ m : Endpoints, m.Named ↔ ∀ x ∈ m.measures, x.2.id = x.1 := by
    intro m
    simp only [Endpoints.measures, List.forall_mem_map]
    rfl
  rw [hiff, h]
  exact (hiff m).mp hnamed

/-- Calls of `SendRelayPings`, at any times, and between them whatever leaves alone what it
reads: no round trip time is added, and the table and the flags stay. -/
inductive PathRun (env : Platform) : ℕ → Controller → Controller → Prop
  | refl (c : Controller) : PathRun env 0 c c
  | sendRelayPings {n : ℕ} {c c' c'' : Controller} {now : Time} (run : PathRun env n c c')
      (h : c'.sendRelayPings env now = .ok c'') : PathRun env (n + 1) c c''
  | other {n : ℕ} {c c' c'' : Controller} (run : PathRun env n c c')
      (h : c''.pathView = c'.pathView) : PathRun env n c c''

theorem decide_table (v : PathView) : v.decide.table = v.table := by
  rw [PathView.decide]
  split <;> rfl

/-- A run decides as often as `SendRelayPings` is called. -/
theorem PathRun.view {n : ℕ} (hrun : PathRun env n c c') (hord : c.endpoints.Ordered)
    (hnamed : c.endpoints.Named) : c'.pathView = PathView.decide^[n] c.pathView ∧
      c'.endpoints.measures = c.endpoints.measures := by
  induction hrun with
  | refl c => exact ⟨rfl, rfl⟩
  | sendRelayPings run h ih =>
      obtain ⟨hview, htable⟩ := ih hord hnamed
      have hcalled := sendRelayPings_view (ordered_of_measures htable hord)
        (named_of_measures htable hnamed) h
      refine ⟨?_, ?_⟩
      · rw [hcalled, hview, Function.iterate_succ_apply']
      · exact (congrArg PathView.table hcalled).trans ((decide_table _).trans htable)
  | other run h ih =>
      obtain ⟨hview, htable⟩ := ih hord hnamed
      exact ⟨h.trans hview, (congrArg PathView.table h).trans htable⟩

/-- **The path settles.** While the round trip times and the table stay as they are, the
preferred relay and the current endpoint are the same from the second call on, however often
and whenever `SendRelayPings` is called. -/
theorem path_settles {n k : ℕ} {c₂ c₃ : Controller} (hord : c.endpoints.Ordered)
    (hnamed : c.endpoints.Named) (hconfig : PathView.Damped c.config) (hcalls : 2 ≤ n)
    (hrun : PathRun env n c c₂) (hrest : PathRun env k c₂ c₃) :
    c₃.preferredRelay = c₂.preferredRelay ∧ c₃.currentEndpoint = c₂.currentEndpoint := by
  obtain ⟨hview, htable⟩ := hrun.view hord hnamed
  obtain ⟨hlater, -⟩ := hrest.view (ordered_of_measures htable hord)
    (named_of_measures htable hnamed)
  have hsettled : ∀ m, PathView.decide^[m] (PathView.decide^[2] c.pathView) =
      PathView.decide^[2] c.pathView :=
    Function.iterate_fixed (PathView.decide_settles hconfig)
  obtain ⟨m, rfl⟩ := Nat.exists_eq_add_of_le' hcalls
  rw [Function.iterate_add_apply, hsettled] at hview
  rw [hview, hsettled, ← hview] at hlater
  exact ⟨congrArg PathView.preferred hlater, congrArg PathView.current hlater⟩

/-- Two relays, a slow way over the local network, and a fast one over the internet. -/
def fourEndpoints : Endpoints :=
  [(1, { id := 1, type := .udpRelay, averageRTT := 1 / 10 }),
    (2, { id := 2, type := .udpRelay, averageRTT := 1 / 20 }),
    (EndpointID.lanv4, { id := EndpointID.lanv4, type := .udpP2PLan, averageRTT := 1 }),
    (EndpointID.p2pv4, { id := EndpointID.p2pv4, type := .udpP2PInet, averageRTT := 1 / 100 })]

/-- An established call over the slow way, with the slower relay. -/
def overLan : Controller :=
  { sampleCall {} with
    state := .established, preferredRelay := 1, currentEndpoint := EndpointID.lanv4
    endpoints := fourEndpoints }

/-- It has gone back to the faster relay, and from there to the peer. -/
def overRelay : Controller := { overLan with preferredRelay := 2, currentEndpoint := 2 }

def overP2p : Controller := { overRelay with currentEndpoint := EndpointID.p2pv4 }

theorem path_settles_overP2p :
    { overP2p with udpSocketReady := false }.preferredRelay = overP2p.preferredRelay ∧
      { overP2p with udpSocketReady := false }.currentEndpoint = overP2p.currentEndpoint := by
  have hback : overLan.sendRelayPings samplePlatform 0 = .ok overRelay := by
    with_unfolding_all rfl
  have hover : overRelay.sendRelayPings samplePlatform 5 = .ok overP2p := by
    with_unfolding_all rfl
  have hagain : overP2p.sendRelayPings samplePlatform 7 = .ok overP2p := by
    with_unfolding_all rfl
  have hord : overLan.endpoints.Ordered := by
    simp [overLan, fourEndpoints, Endpoints.Ordered]
    decide
  have hnamed : overLan.endpoints.Named := by
    simp [overLan, fourEndpoints, Endpoints.Named]
  have hconfig : PathView.Damped overLan.config := ⟨by decide +kernel, by decide +kernel⟩
  exact path_settles hord hnamed hconfig le_rfl
    ((PathRun.refl overLan).sendRelayPings hback |>.sendRelayPings hover)
    ((PathRun.refl overP2p).sendRelayPings hagain |>.other rfl)

end Controller

end Tgvoip
