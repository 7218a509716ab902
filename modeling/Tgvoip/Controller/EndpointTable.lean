import Tgvoip.Controller.ThreadMoves

/-!
# EndpointTable — the table of endpoints, and what points into it

Every entry is to stand under its id, and the current endpoint and the
preferred relay are to be in the table. Three handlers do not see to it: the
switch to a relay writes through a reference to the old current entry, and
the peer info of a relay and the handover to another network erase the LAN
endpoint whatever still points to it.
-/

namespace Tgvoip

open ByteReader Fallible

namespace Bearings

structure Consistent (b : Bearings) : Prop where
  named : b.endpoints.Named
  current : b.endpoints.Has b.currentEndpoint
  preferred : b.endpoints.Has b.preferredRelay

/-- Consistent, and a map: what the steps keep. -/
structure Sound (b : Bearings) : Prop extends Consistent b where
  ordered : b.endpoints.Ordered

end Bearings

namespace Move

variable {late wild : Prop} {b b' : Bearings}

theorem ordered (h : Move late wild b b') (hb : b.endpoints.Ordered) : b'.endpoints.Ordered := by
  cases h with
  | touch he hid => exact hb.set _ _
  | sweep f hid => exact hb.map f
  | insert e => exact hb.set _ _
  | overwrite key e hwild => exact hb.set _ _
  | erase key hkey => exact hb.erase key
  | _ => exact hb

theorem consistent (h : Move late False b b') (hb : b.Consistent) : b'.Consistent := by
  obtain ⟨hnamed, hcurrent, hpreferred⟩ := hb
  cases h with
  | state s hs => exact ⟨hnamed, hcurrent, hpreferred⟩
  | touch he hid =>
      refine ⟨Endpoints.named_set hnamed (hid.trans (hnamed.id_eq he)), ?_, ?_⟩
      · exact (Endpoints.has_set ..).mpr (.inr hcurrent)
      · exact (Endpoints.has_set ..).mpr (.inr hpreferred)
  | sweep f hid =>
      refine ⟨Endpoints.named_map hnamed f hid, ?_, ?_⟩
      · exact (Endpoints.has_map ..).mpr hcurrent
      · exact (Endpoints.has_map ..).mpr hpreferred
  | insert e =>
      refine ⟨Endpoints.named_set hnamed rfl, ?_, ?_⟩
      · exact (Endpoints.has_set ..).mpr (.inr hcurrent)
      · exact (Endpoints.has_set ..).mpr (.inr hpreferred)
  | adopt he =>
      -- by its name, the entry is the one under that key
      refine ⟨hnamed, ?_, hpreferred⟩
      exact ⟨_, (hnamed.id_eq he).symm ▸ he⟩
  | point he => exact ⟨hnamed, ⟨_, he⟩, hpreferred⟩
  | prefer he =>
      refine ⟨hnamed, hcurrent, ?_⟩
      exact ⟨_, (hnamed.id_eq he).symm ▸ he⟩
  | toPreferred => exact ⟨hnamed, hpreferred, hpreferred⟩
  | overwrite key e hwild => exact hwild.elim
  | erase key hkey =>
      obtain ⟨hcurrent', hpreferred'⟩ := hkey.resolve_left id
      refine ⟨Endpoints.named_erase hnamed key, ?_, ?_⟩
      · exact (Endpoints.has_erase ..).mpr ⟨hcurrent'.symm, hcurrent⟩
      · exact (Endpoints.has_erase ..).mpr ⟨hpreferred'.symm, hpreferred⟩

theorem sound (h : Move late False b b') (hb : b.Sound) : b'.Sound :=
  ⟨h.consistent hb.toConsistent, h.ordered hb.ordered⟩

end Move

theorem Moves.sound {late : Prop} {b b' : Bearings} (h : Moves late False b b') (hb : b.Sound) :
    b'.Sound :=
  h.invariant (fun _ _ hmove => hmove.sound) hb

namespace Controller

variable {c c' : Controller} {key : Int64}

/-! ## Another network -/

/-- The handover erases the LAN endpoint under the preferred relay, or under the
current endpoint when it finds no relay to go to. -/
def handoverLoses (c : Controller) : Bool :=
  let preferred := c.endpoints.typeAt c.preferredRelay
  (c.currentEndpoint != 0 && c.endpoints.typeAt c.currentEndpoint != some .udpRelay) &&
    (c.preferredRelay == EndpointID.lanv4 ||
      ((c.currentEndpoint == EndpointID.lanv4 && preferred != some .udpRelay) &&
        !((preferred == some .tcpRelay && c.useTCP) &&
          (c.endpoints.erase EndpointID.lanv4).any (·.2.type == .udpRelay))))

/-- In the loop of the handover, with these endpoints still to come: while the
current endpoint is erased, a UDP relay is among them. -/
structure Leaving (key : Int64) (xs : Endpoints) (c : Controller) : Prop where
  names : xs.Named
  types : ∀ x ∈ xs, c.endpoints.typeAt x.1 = some x.2.type
  named : c.endpoints.Named
  preferred : c.endpoints.Has c.preferredRelay
  current : c.endpoints.Has c.currentEndpoint ∨
    (c.useTCP = true ∧ c.endpoints.typeAt key = some .tcpRelay) ∧ ∃ x ∈ xs, x.2.type = .udpRelay

/-- What a round does to an endpoint keeps the types. -/
theorem typeAt_reset {m : Endpoints} {x : Int64 × Endpoint} (hx : m.typeAt x.1 = some x.2.type)
    (key : Int64) : (m.set x.1 x.2.resetPingStats).typeAt key = m.typeAt key := by
  rw [Endpoints.typeAt_set]
  split
  · rename_i h
    rw [← h, hx]
    rfl
  · rfl

/-- A round goes over to the endpoint, or stays: because it is no UDP relay that
TCP is left for, or because the preferred relay is not reached by TCP. -/
theorem leaveEndpoint_ok {x : Int64 × Endpoint} (h : c.leaveEndpoint key x = .ok c') :
    c'.endpoints = c.endpoints.set x.1 x.2.resetPingStats ∧
      ((c'.currentEndpoint = x.2.id ∧ c'.preferredRelay = x.2.id) ∨
        ((c'.currentEndpoint = c.currentEndpoint ∧ c'.preferredRelay = c.preferredRelay) ∧
          (c'.endpoints.typeAt key = some .tcpRelay → c'.useTCP = c.useTCP ∧
            ¬ (x.2.type = .udpRelay ∧ c.useTCP = true)))) := by
  unfold leaveEndpoint at h
  dsimp only at h
  split at h
  · obtain ⟨relay, hrelay, h⟩ := bind_eq_ok.mp h
    rw [endpointAt_eq_ok] at hrelay
    rw [← pure_eq_ok.mp h]
    split
    · exact ⟨rfl, .inl ⟨rfl, rfl⟩⟩
    · rename_i hno
      refine ⟨rfl, .inr ⟨⟨rfl, rfl⟩, ?_⟩⟩
      intro htcp
      rw [Endpoints.typeAt, hrelay] at htcp
      exact absurd (Option.some.inj htcp) hno
  · rename_i hstay
    rw [← pure_eq_ok.mp h]
    exact ⟨rfl, .inr ⟨⟨rfl, rfl⟩, fun _ => ⟨rfl, by simpa using hstay⟩⟩⟩

theorem Leaving.round {x : Int64 × Endpoint} {xs : Endpoints} (h : Leaving key (x :: xs) c)
    (hround : c.leaveEndpoint key x = .ok c') : Leaving key xs c' := by
  have hx := h.types x List.mem_cons_self
  have hid := h.names x List.mem_cons_self
  obtain ⟨hendpoints, hnext⟩ := leaveEndpoint_ok hround
  have hhas : ∀ key', c'.endpoints.Has key' ↔ x.1 = key' ∨ c.endpoints.Has key' := by
    intro key'
    rw [hendpoints, Endpoints.has_set]
  have htype : ∀ key', c'.endpoints.typeAt key' = c.endpoints.typeAt key' := by
    intro key'
    rw [hendpoints, typeAt_reset hx]
  have hpointed : c'.endpoints.Has c'.preferredRelay ∧
      (c'.endpoints.Has c'.currentEndpoint ∨
        (c'.useTCP = true ∧ c'.endpoints.typeAt key = some .tcpRelay) ∧
          ∃ y ∈ xs, y.2.type = .udpRelay) := by
    rcases hnext with ⟨hcurrent, hpreferred⟩ | ⟨⟨hcurrent, hpreferred⟩, hstay⟩
    · rw [hcurrent, hpreferred, hid]
      exact ⟨(hhas x.1).mpr (.inl rfl), .inl ((hhas x.1).mpr (.inl rfl))⟩
    · rw [hcurrent, hpreferred]
      refine ⟨(hhas _).mpr (.inr h.preferred), ?_⟩
      rcases h.current with hthere | ⟨⟨htcp, hkey⟩, y, hy, hudp⟩
      · exact .inl ((hhas _).mpr (.inr hthere))
      · -- still to be left, and `x` is not the UDP relay that ends this
        obtain ⟨hsame, hno⟩ := hstay ((htype key).trans hkey)
        rcases List.mem_cons.mp hy with rfl | hy
        · exact absurd ⟨hudp, htcp⟩ hno
        · exact .inr ⟨⟨hsame.trans htcp, (htype key).trans hkey⟩, y, hy, hudp⟩
  exact {
    names := fun y hy => h.names y (List.mem_cons_of_mem x hy)
    types := fun y hy => (htype y.1).trans (h.types y (List.mem_cons_of_mem x hy))
    named := hendpoints ▸ Endpoints.named_set h.named hid
    preferred := hpointed.1
    current := hpointed.2 }

theorem Leaving.loop {xs : Endpoints} (h : Leaving key xs c)
    (hloop : xs.foldlM (leaveEndpoint · key) c = .ok c') : c'.bearings.Consistent := by
  have hend : Leaving key [] c' :=
    foldlM_invariant_rest (I := Leaving key) (fun _ _ _ _ h hround => h.round hround) h hloop
  refine ⟨hend.named, ?_, hend.preferred⟩
  rcases hend.current with hthere | ⟨-, y, hy, -⟩
  · exact hthere
  · cases hy

/-- The loop starts with a table that lacks the LAN endpoint. -/
theorem leaveNetwork_consistent (hordered : c.endpoints.Ordered) (hc : c.bearings.Consistent)
    (hzero : c.currentEndpoint ≠ 0) (hkeeps : c.handoverLoses = false)
    (h : c.leaveNetwork = .ok c') : c'.bearings.Consistent := by
  unfold leaveNetwork at h
  obtain ⟨current, hcurrent, h⟩ := bind_eq_ok.mp h
  obtain ⟨preferred, hpreferred, h⟩ := bind_eq_ok.mp h
  rw [endpointAt_eq_ok] at hcurrent hpreferred
  split at h
  · exact pure_eq_ok.mp h ▸ hc
  · rename_i hleaves
    have hsafe : c.preferredRelay ≠ EndpointID.lanv4 ∧
        (c.currentEndpoint = EndpointID.lanv4 → preferred.type ≠ .udpRelay →
          ((preferred.type = .tcpRelay ∧ c.useTCP = true) ∧
            ∃ x ∈ c.endpoints.erase EndpointID.lanv4, x.2.type = .udpRelay)) := by
      simpa [handoverLoses, Endpoints.typeAt, hcurrent, hpreferred, hleaves, hzero] using hkeeps
    obtain ⟨hpreferredKey, hcurrentKey⟩ := hsafe
    have htypes : ∀ x ∈ c.endpoints.erase EndpointID.lanv4,
        (c.endpoints.erase EndpointID.lanv4).typeAt x.1 = some x.2.type := by
      intro x hx
      exact congrArg (Option.map (·.type)) ((hordered.erase EndpointID.lanv4).at?_of_mem hx)
    have hstays : (c.endpoints.erase EndpointID.lanv4).Has c.preferredRelay :=
      (Endpoints.has_erase ..).mpr ⟨hpreferredKey.symm, hc.preferred⟩
    have hnames : (c.endpoints.erase EndpointID.lanv4).Named := Endpoints.named_erase hc.named _
    -- by now the current endpoint may be erased, if the loop will leave it for a UDP relay
    refine Leaving.loop ?_ h
    dsimp only
    split
    · exact ⟨hnames, htypes, hnames, hstays, .inl hstays⟩
    · rename_i hrelay
      refine ⟨hnames, htypes, hnames, hstays, ?_⟩
      by_cases hlan : c.currentEndpoint = EndpointID.lanv4
      · obtain ⟨⟨htcp, huse⟩, hudp⟩ := hcurrentKey hlan hrelay
        refine .inr ⟨⟨huse, ?_⟩, hudp⟩
        rw [Endpoints.typeAt, Endpoints.at?_erase, if_neg hpreferredKey.symm, hpreferred]
        exact congrArg some htcp
      · exact .inl ((Endpoints.has_erase ..).mpr ⟨Ne.symm hlan, hc.current⟩)

theorem leaveNetwork_ordered (hordered : c.endpoints.Ordered) (h : c.leaveNetwork = .ok c') :
    c'.endpoints.Ordered := by
  unfold leaveNetwork at h
  obtain ⟨current, -, h⟩ := bind_eq_ok.mp h
  obtain ⟨preferred, -, h⟩ := bind_eq_ok.mp h
  split at h
  · exact pure_eq_ok.mp h ▸ hordered
  · refine foldlM_invariant (I := fun c : Controller => c.endpoints.Ordered) ?_ ?_ h
    · intro c₁ x _ c₂ hc₁ hround
      rw [(leaveEndpoint_ok hround).1]
      exact hc₁.set _ _
    · dsimp only
      split
      · exact hordered.erase _
      · exact hordered.erase _

theorem leaveNetwork_sound (hc : c.bearings.Sound) (hzero : c.currentEndpoint ≠ 0)
    (hkeeps : c.handoverLoses = false) (h : c.leaveNetwork = .ok c') : c'.bearings.Sound :=
  ⟨leaveNetwork_consistent hc.ordered hc.toConsistent hzero hkeeps h,
    leaveNetwork_ordered hc.ordered h⟩

theorem networkHandover_sound (hc : c.bearings.Sound) (hkeeps : c.handoverLoses = false)
    (h : c.networkHandover = .ok c') : c'.bearings.Sound := by
  obtain ⟨c₁, hleft, hmoves⟩ := networkHandover_ok True False h
  refine hmoves.sound ?_
  rcases hleft with ⟨-, hsame⟩ | ⟨hcurrent, hleave⟩
  · exact hsame ▸ hc
  · exact leaveNetwork_sound (c := { c with wasNetworkHandover := true }) hc hcurrent hkeeps hleave

/-! ## SetRemoteEndpoints -/

/-- In the loop of `SetRemoteEndpoints`, with these endpoints still to come. -/
structure Filling (xs : List Endpoint) (c : Controller) : Prop where
  ordered : c.endpoints.Ordered
  named : c.endpoints.Named
  current : c.endpoints.Has c.currentEndpoint ∨ (c.currentEndpoint = 0 ∧ xs ≠ []) ∨
    ∃ e ∈ xs, e.id = c.currentEndpoint

theorem Filling.round {x : Endpoint} {xs : List Endpoint} (h : Filling (x :: xs) c) :
    Filling xs (c.addRemoteEndpoint x) := by
  refine ⟨h.ordered.set _ _, Endpoints.named_set h.named rfl, ?_⟩
  show (c.endpoints.set x.id x).Has (if c.currentEndpoint = 0 then x.id else c.currentEndpoint) ∨ _
  split
  · exact .inl ((Endpoints.has_set ..).mpr (.inl rfl))
  · rename_i hzero
    rcases h.current with hthere | ⟨hnone, -⟩ | ⟨e, he, hid⟩
    · exact .inl ((Endpoints.has_set ..).mpr (.inr hthere))
    · exact absurd hnone hzero
    · rcases List.mem_cons.mp he with rfl | he
      · exact .inl ((Endpoints.has_set ..).mpr (.inl hid))
      · exact .inr (.inr ⟨e, he, hid.trans (if_neg hzero).symm⟩)

theorem Filling.loop {xs : List Endpoint} (h : Filling xs c) :
    Filling [] (xs.foldl addRemoteEndpoint c) := by
  induction xs generalizing c with
  | nil => exact h
  | cons x xs ih => exact ih h.round

theorem setRemoteEndpoints_sound {endpoints : List Endpoint} (hne : endpoints ≠ [])
    (hcurrent : c.currentEndpoint = 0 ∨ ∃ e ∈ endpoints, e.id = c.currentEndpoint)
    (allowP2p : Bool) (layer : Int) :
    (c.setRemoteEndpoints endpoints allowP2p layer).bearings.Sound := by
  let c₁ : Controller := { c with
    preferredRelay := 0, endpoints := [], didAddTcpRelays := false, useTCP := true }
  have hempty : Filling endpoints c₁ :=
    ⟨List.Pairwise.nil, fun _ hx => (nomatch hx), .inr (hcurrent.imp_left fun h => ⟨h, hne⟩)⟩
  obtain ⟨hordered, hnamed, hthere | ⟨-, hmore⟩ | ⟨e, he, -⟩⟩ := hempty.loop
  · have hadds : Moves True False _ (c.setRemoteEndpoints endpoints allowP2p layer).bearings :=
      addIPv6Relays_moves
    exact hadds.sound ⟨⟨hnamed, hthere, hthere⟩, hordered⟩
  · exact absurd rfl hmore
  · cases he

end Controller

namespace MessageThread

open Controller

variable {env : Platform} {t t' : MessageThread} {e : Time × ThreadEvent}

/-- A handover runs that loses an endpoint. -/
def losesEndpoint (t : MessageThread) (e : Time × ThreadEvent) : Bool :=
  t.due e.1 e.2 == some .networkHandover && t.c.handoverLoses

/-- No packet makes the controller switch to a relay, and no endpoint is erased
that is pointed to. -/
def Undisturbed (env : Platform) (t : MessageThread) (e : Time × ThreadEvent) : Prop :=
  t.disturbs env e = false ∧ t.losesEndpoint e = false

instance (t : MessageThread) (e : Time × ThreadEvent) : Decidable (Undisturbed env t e) := by
  unfold Undisturbed
  infer_instance

theorem step_sound (ht : t.c.bearings.Sound) (hcalm : Undisturbed env t e)
    (h : t.step env e = .ok t') : t'.c.bearings.Sound := by
  obtain ⟨hdisturbs, hloses⟩ := hcalm
  have hrun := step_c h
  by_cases hdue : t.due e.1 e.2 = some .networkHandover
  · have hkeeps : t.c.handoverLoses = false := by simpa [losesEndpoint, hdue] using hloses
    rw [handle_due hdue] at hrun
    exact networkHandover_sound ht hkeeps hrun
  · have hmoves : Moves True False t.c.bearings t'.c.bearings :=
      handle_moves (.inl trivial) (.inr hdisturbs) hdue hrun
    exact hmoves.sound ht

/-- **Every state of the run has a consistent table.** -/
def TableConsistent (env : Platform) (t : MessageThread) (events : List (Time × ThreadEvent)) :
    Prop :=
  ∀ before after t', events = before ++ after → before.foldlM (step env) t = .ok t' →
    t'.c.bearings.Consistent

/-- **The table stays consistent** from `SetRemoteEndpoints` on, in every run that
is not disturbed. -/
theorem table_consistent {endpoints : List Endpoint} {events : List (Time × ThreadEvent)}
    {allowP2p : Bool} {layer : Int} (hne : endpoints ≠ [])
    (hcurrent : t.c.currentEndpoint = 0 ∨ ∃ e ∈ endpoints, e.id = t.c.currentEndpoint)
    (hcalm : AlongOk (step env) (Undisturbed env)
      { t with c := t.c.setRemoteEndpoints endpoints allowP2p layer } events) :
    TableConsistent env { t with c := t.c.setRemoteEndpoints endpoints allowP2p layer } events := by
  intro before after t' hsplit hrun
  rw [hsplit] at hcalm
  have hsound : t'.c.bearings.Sound :=
    (alongOk_append.mp hcalm).1.invariant (I := fun t => t.c.bearings.Sound)
      (fun _ _ _ hs hcalm hstep => step_sound hs hcalm hstep)
      (setRemoteEndpoints_sound hne hcurrent allowP2p layer) hrun
  exact hsound.toConsistent

/-! ## On fixed inputs -/

def twoRelays : List Endpoint := [{ id := 1, type := .udpRelay }, { id := 2, type := .udpRelay }]

/-- The call is established, goes over to TCP when no ping is answered, and comes
back in another network. -/
def toTcpAndBack : List (Time × ThreadEvent) :=
  [(0, .handler .sendInit), fromRelay 1 1 (sampleInit []),
    fromRelay 1 2 { seq := 2, extraSignaling := [audioAck,
      { d := .lanEndpoint { address := 1, port := 1 } }, { d := .networkChanged {} }] },
    (4, .posted 4), (5, .sendUdpPings), (6, .evaluateUdpPingResults),
    (7, .setNetworkType true "wlan" .empty), (8, .sendRelayPings), (9, .posted 6)]

theorem table_consistent_toTcpAndBack :
    TableConsistent samplePlatform { unconnected samplePlatform with
      c := (unconnected samplePlatform).c.setRemoteEndpoints twoRelays true 110 } toTcpAndBack :=
  table_consistent (by decide) (.inl rfl) (by decide +kernel)

/-- Of 33 packets none is acknowledged when the first packet arrives, by the other
relay: its endpoint is written over the one of the first. -/
theorem table_consistent_fails :
    ¬ ∀ (env : Platform) (t : MessageThread) (endpoints : List Endpoint) (allowP2p : Bool)
      (layer : Int) (events : List (Time × ThreadEvent)), endpoints ≠ [] →
      (endpoints.map (·.id)).Nodup → (∀ e ∈ endpoints, e.id ≠ 0) → t.c.currentEndpoint = 0 →
      TableConsistent env { t with c := t.c.setRemoteEndpoints endpoints allowP2p layer } events := by
  intro h
  let events := List.replicate 33 (0, .handler (.sendNopPacket 0)) ++ [fromRelay 2 1 { seq := 1 }]
  have hrun := h samplePlatform (unconnected samplePlatform) twoRelays true 110 events
    (by decide) (by decide) (by decide) rfl
  have heval : (events.foldlM (step samplePlatform) { unconnected samplePlatform with
      c := (unconnected samplePlatform).c.setRemoteEndpoints twoRelays true 110 }).map (fun t =>
      t.c.endpoints.map fun x => (x.1, x.2.id)) = .ok [(1, 2), (2, 2)] := by decide +kernel
  obtain ⟨t, ht, hendpoints⟩ := exists_of_map_eq_ok heval
  obtain ⟨x, hx, hpair⟩ := List.mem_map.mp (hendpoints ▸ List.mem_cons_self)
  have hnamed : x.2.id = x.1 := (hrun events [] t (List.append_nil _).symm ht).named x hx
  obtain ⟨hkey, hid⟩ := Prod.mk.inj hpair
  rw [hkey, hid] at hnamed
  exact absurd hnamed (by decide)

end MessageThread

end Tgvoip
