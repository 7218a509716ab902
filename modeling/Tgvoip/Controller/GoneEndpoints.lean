import Tgvoip.Controller.ThreadRoutes

/-!
# GoneEndpoints — packets for endpoints that were erased

`SendPacket` and `SendOrEnqueuePacket` use what `GetEndpointForPacket` finds
without looking at it; of the callers only `TrySendOutgoingPackets` checks
for null. A reliable packet keeps the id of its endpoint until it is
acknowledged or given up, and the LAN endpoint is erased without regard to
such packets.
-/

namespace Tgvoip

open ByteReader Fallible Routes

namespace Routes

instance (r : Routes) (id : Int64) : Decidable (r.Leads id) :=
  decidable_of_iff (id = 0 ∨ (r.endpoints.at? id).isSome) (or_congr_right Option.isSome_iff_exists)

/-- The LAN endpoint may go where nothing else names it. -/
theorem Complete.dropLan {r : Routes} (h : r.Complete) (hwaiting : EndpointID.lanv4 ∉ r.waiting)
    (hentries : ∀ x ∈ r.endpoints, x.1 ≠ EndpointID.lanv4 → x.2.id ≠ EndpointID.lanv4) :
    r.dropLan.Complete where
  named := by
    intro x hx
    obtain ⟨hx, hkey⟩ := List.mem_filter.mp hx
    have hid := hentries x hx (by simpa using hkey)
    exact (Endpoints.has_erase ..).mpr ⟨hid.symm, h.named x hx⟩
  waiting := by
    intro id hid
    refine (h.waiting id hid).imp_right fun hhas => ?_
    exact (Endpoints.has_erase ..).mpr ⟨fun heq => hwaiting (heq ▸ hid), hhas⟩

end Routes

namespace Controller

variable {c : Controller} {A : Prop}

/-- What `SetRemoteEndpoints` makes of the table stands in order, under the ids. -/
theorem setRemoteEndpoints_complete (endpoints : List Endpoint) (allowP2p : Bool) (layer : Int)
    (hpackets : c.reliablePackets = []) :
    (c.setRemoteEndpoints endpoints allowP2p layer).endpoints.Ordered ∧
      (c.setRemoteEndpoints endpoints allowP2p layer).routes.Complete := by
  have hloop : ∀ (xs : List Endpoint) (c : Controller), c.endpoints.Ordered → c.endpoints.Named →
      c.waiting = [] → (xs.foldl addRemoteEndpoint c).endpoints.Ordered ∧
        (xs.foldl addRemoteEndpoint c).endpoints.Named ∧ (xs.foldl addRemoteEndpoint c).waiting = [] := by
    intro xs
    induction xs with
    | nil => exact fun c hordered hnamed hwaiting => ⟨hordered, hnamed, hwaiting⟩
    | cons x xs ih =>
        intro c hordered hnamed hwaiting
        exact ih _ (hordered.set _ _) (Endpoints.named_set hnamed rfl) hwaiting
  obtain ⟨hordered, hnamed, hwaiting⟩ := hloop endpoints { c with
      preferredRelay := 0, endpoints := [], didAddTcpRelays := false, useTCP := true }
    List.Pairwise.nil (fun _ hx => nomatch hx) (by rw [waiting, hpackets]; rfl)
  have hadds : Reach True _ (c.setRemoteEndpoints endpoints allowP2p layer).routes :=
    addIPv6Relays_reach
  refine ⟨hadds.table.ordered hordered, hadds.complete trivial ⟨?_, ?_⟩⟩
  · intro x hx
    rw [hnamed x hx]
    exact Endpoints.has_iff_mem.mpr (List.mem_map.mpr ⟨x, hx, rfl⟩)
  · intro id hid
    rw [show Routes.waiting _ = [] from hwaiting] at hid
    cases hid

end Controller

namespace MessageThread

open Controller

variable {env : Platform} {t t' : MessageThread} {e : Time × ThreadEvent}

/-- **No null pointer is dereferenced** in the step. -/
def FindsEndpoints (env : Platform) (t : MessageThread) (e : Time × ThreadEvent) : Prop :=
  t.step env e ≠ .error .nullEndpoint

/-- The event's own packet goes to the current endpoint or to one of the table, and
the LAN endpoint is erased only while no reliable packet waits for it and no
other entry has its id. -/
structure SparesNamed (t : MessageThread) (e : Time × ThreadEvent) : Prop where
  own : ∀ id ∈ addressed e.2, t.c.routes.Leads id
  waiting : t.erasesLan e = true → EndpointID.lanv4 ∉ t.c.waiting
  entries : t.erasesLan e = true →
    ∀ x ∈ t.c.endpoints, x.1 ≠ EndpointID.lanv4 → x.2.id ≠ EndpointID.lanv4

instance (t : MessageThread) (e : Time × ThreadEvent) : Decidable (SparesNamed t e) :=
  decidable_of_iff (((addressed e.2).all fun id => decide (t.c.routes.Leads id)) = true ∧
      (t.erasesLan e = true → EndpointID.lanv4 ∉ t.c.waiting) ∧
      (t.erasesLan e = true →
        ∀ x ∈ t.c.endpoints, x.1 ≠ EndpointID.lanv4 → x.2.id ≠ EndpointID.lanv4)) (by
    rw [Option.all_eq_true]
    constructor
    · rintro ⟨hown, hwaiting, hentries⟩
      exact ⟨fun id hid => of_decide_eq_true (hown id hid), hwaiting, hentries⟩
    · rintro ⟨hown, hwaiting, hentries⟩
      exact ⟨fun id hid => decide_eq_true (hown id hid), hwaiting, hentries⟩)

/-- The event finds a complete state, also where it erases. -/
theorem SparesNamed.found (h : SparesNamed t e) (hcomplete : t.c.routes.Complete) :
    (t.found e).Complete := by
  unfold MessageThread.found
  split
  · rename_i herases
    exact hcomplete.dropLan (h.waiting herases) (h.entries herases)
  · exact hcomplete

theorem SparesNamed.walk (h : SparesNamed t e) (hordered : t.c.endpoints.Ordered) :
    Walk True (t.found e) routes (t.handle env e.1 e.2) :=
  handle_walk hordered fun _ => h.own

theorem step_complete (hordered : t.c.endpoints.Ordered) (hcomplete : t.c.routes.Complete)
    (he : SparesNamed t e) (h : t.step env e = .ok t') :
    t'.c.endpoints.Ordered ∧ t'.c.routes.Complete := by
  have hreach := (he.walk hordered).ok _ (step_c h)
  refine ⟨hreach.table.ordered (found_ordered hordered), ?_⟩
  exact hreach.complete trivial (he.found hcomplete)

theorem step_finds (hordered : t.c.endpoints.Ordered) (hcomplete : t.c.routes.Complete)
    (he : SparesNamed t e) : FindsEndpoints env t e := by
  have hfound : t.handle env e.1 e.2 ≠ .error .nullEndpoint :=
    (he.walk hordered).avoids ⟨trivial, he.found hcomplete⟩
  intro h
  unfold step at h
  cases hrun : t.handle env e.1 e.2 with
  | error fault =>
      rw [hrun] at h
      exact hfound (hrun.trans (congrArg Except.error (Except.error.inj h)))
  | ok c =>
      rw [hrun] at h
      cases h

/-- **Packets go to endpoints that are there**, in every run from
`SetRemoteEndpoints` on that erases no endpoint a packet waits for. -/
theorem endpoints_found {endpoints : List Endpoint} {allowP2p : Bool} {layer : Int}
    {events : List (Time × ThreadEvent)} (hpackets : t.c.reliablePackets = [])
    (hspares : AlongOk (step env) SparesNamed
      { t with c := t.c.setRemoteEndpoints endpoints allowP2p layer } events) :
    AlongOk (step env) (FindsEndpoints env)
      { t with c := t.c.setRemoteEndpoints endpoints allowP2p layer } events := by
  refine hspares.strengthen (I := fun t => t.c.endpoints.Ordered ∧ t.c.routes.Complete) ?_ ?_ ?_
  · exact fun _ _ _ ht he h => step_complete ht.1 ht.2 he h
  · exact fun _ _ ht he => step_finds ht.1 ht.2 he
  · exact setRemoteEndpoints_complete endpoints allowP2p layer hpackets

/-! ## On fixed inputs -/

/-- A call in the legacy format, which has no endpoint yet. -/
def legacyCall : MessageThread :=
  { c := Controller.new samplePlatform {} (Vector.replicate 16 0) 92 }

/-- A peer of the last version with that format. -/
def legacyPeer (legacySeq : UInt32) (x : Extra) : Packet :=
  { legacy := true, legacySeq, extraSignaling := [{ d := x }] }

/-- The answer of a relay that tells of the peer's address. -/
def peerInfoAnswer : Bytes :=
  List.replicate 12 0xFF ++ le32 RelayAnswer.tlidPeerInfo ++ List.replicate 16 0

/-- The call learns of the peer's address in its own network, and is established. -/
def lanLearned : List (Time × ThreadEvent) :=
  [(0, .handler .sendInit),
    fromRelay 1 1 (legacyPeer 1 (.init { peerVersion := 9, minVersion := 3 })),
    fromRelay 1 2 (legacyPeer 2 (.initAck
      { peerVersion := 9, minVersion := 3, streams := [{ streamId := StreamId.audio }] })),
    fromRelay 1 3 (legacyPeer 3 (.lanEndpoint { address := 1, port := 1 })), (4, .posted 8)]

/-- The relay's answer erases the address, at a time. -/
def lanErased (now : Time) : Time × ThreadEvent := (now, .relayPacket 1 peerInfoAnswer ⟨1, 1⟩)

theorem endpoints_found_lanErased :
    AlongOk (step samplePlatform) (FindsEndpoints samplePlatform)
      { legacyCall with c := legacyCall.c.setRemoteEndpoints twoRelays true 92 }
      (lanLearned ++ [lanErased 5, (15, .sendRelayPings), (16, .handler .updateReliablePackets)]) :=
  endpoints_found rfl (by decide +kernel)

/-- The pings take the extras along that are not acknowledged yet, which makes
packets to the LAN endpoint reliable; they are sent again when it is gone. -/
theorem endpoints_found_fails :
    ¬ ∀ (env : Platform) (t : MessageThread) (endpoints : List Endpoint) (allowP2p : Bool)
      (layer : Int) (events : List (Time × ThreadEvent)), t.c.reliablePackets = [] →
      (∀ e ∈ events, addressed e.2 = none) →
      AlongOk (step env) (FindsEndpoints env)
        { t with c := t.c.setRemoteEndpoints endpoints allowP2p layer } events := by
  intro h
  let before := lanLearned ++ [(15, .sendRelayPings), (15, .handler .updateReliablePackets),
    lanErased 16]
  let again : Time × ThreadEvent := (17, .handler .updateReliablePackets)
  have hrun := h samplePlatform legacyCall twoRelays true 92 (before ++ [again]) rfl (by decide)
  have hvalue : (before.foldlM (step samplePlatform)
      { legacyCall with c := legacyCall.c.setRemoteEndpoints twoRelays true 92 }).map (fun t =>
        match t.step samplePlatform again with
        | .error fault => some fault
        | .ok _ => none) = .ok (some .nullEndpoint) := by
    decide +kernel
  obtain ⟨t, ht, hfault⟩ := exists_of_map_eq_ok hvalue
  have hfinds : FindsEndpoints samplePlatform t again := hrun.last ht
  unfold FindsEndpoints at hfinds
  split at hfault
  · rename_i fault hstep
    exact hfinds (hstep.trans (congrArg Except.error (Option.some.inj hfault)))
  · cases hfault

end MessageThread

end Tgvoip
