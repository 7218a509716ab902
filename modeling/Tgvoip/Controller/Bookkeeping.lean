import Tgvoip.Controller.StreamTable

/-!
# Bookkeeping — what an acknowledgement erases

`HandleReliablePackets` compares bare sequence numbers: those of the
packets in `reliablePackets`, of whatever stream, and those each pending
extra remembers, of whatever streams it rode on, with the acknowledgements
of one stream. `Bookkept` is what does hold: the numbers an extra remembers
are numbers of packets that carry its current value.

`Delivery` adds to the controller the packets the peer accepted; a loss is
a packet it never accepts.
-/

namespace Tgvoip

open ByteReader Fallible

/-- A number the extra remembers is that of a prepared packet with its current
value; and only prepared packets are on their way. -/
structure Transport.Bookkept (t : Transport) : Prop where
  remembered : ∀ x ∈ t.currentExtras, ∀ seq ∈ x.seqs.slots, seq ≠ 0 →
    ∃ q ∈ t.preparedPackets, q.seq = seq ∧ x.data ∈ q.extraSignaling
  raw : ∀ r ∈ t.rawSendQueue, r.pkt.carried ∈ t.preparedPackets
  queue : ∀ pkt ∈ t.sendQueue, pkt.carried ∈ t.preparedPackets
  reliable : ∀ q ∈ t.reliablePackets, q.pkt.carried ∈ t.preparedPackets

namespace Controller

variable {env : Platform} {c c' c₁ : Controller} {now : Time} {src : Int64} {p : Packet}

/-! ## Sending -/

theorem transmit_bookkept {pkt : PendingOutgoingPacket} {e : Endpoint} (hc : c.Bookkept)
    (hpkt : pkt.carried ∈ c.preparedPackets) (h : c.transmit now pkt e = .ok c') :
    c'.Bookkept ∧ c'.preparedPackets = c.preparedPackets := by
  obtain ⟨s, pm, -, -, -, rfl⟩ := transmit_ok h
  refine ⟨{ hc with raw := fun r hr => ?_ }, rfl⟩
  rcases List.mem_append.mp hr with hr | hr
  · exact hc.raw r hr
  · obtain rfl := List.mem_singleton.mp hr
    exact hpkt

theorem sendOrEnqueuePacket_bookkept {pkt : PendingOutgoingPacket} {enqueue : Bool}
    (hc : c.Bookkept) (hpkt : pkt.carried ∈ c.preparedPackets)
    (h : c.sendOrEnqueuePacket now pkt enqueue = .ok c') :
    c'.Bookkept ∧ c'.preparedPackets = c.preparedPackets := by
  obtain ⟨e, -, hcases⟩ := sendOrEnqueuePacket_ok h
  have htransport := c.connectIfNeeded_toTransport (c.endpointKey pkt.endpoint) e
  have hconn : (c.connectIfNeeded (c.endpointKey pkt.endpoint) e).Bookkept := htransport ▸ hc
  have hprepared := congrArg Transport.preparedPackets htransport
  obtain ⟨-, -, h⟩ | ⟨-, rfl | rfl⟩ := hcases
  · have := transmit_bookkept hconn (hprepared ▸ hpkt) h
    exact ⟨this.1, this.2.trans hprepared⟩
  · exact ⟨hconn, hprepared⟩
  · refine ⟨{ hconn with queue := fun q hq => ?_ }, hprepared⟩
    rcases List.mem_append.mp hq with hq | hq
    · exact hconn.queue q hq
    · obtain rfl := List.mem_singleton.mp hq
      exact hprepared ▸ hpkt

theorem sendPacketReliably_bookkept {pkt : PendingOutgoingPacket} {retryInterval timeout : Time}
    {tries : UInt8} (hc : c.Bookkept) (hpkt : pkt.carried ∈ c.preparedPackets) :
    (c.sendPacketReliably pkt retryInterval timeout tries).Bookkept := by
  have hreliable : ∀ entry : ReliableOutgoingPacket, entry.pkt = pkt →
      { c with reliablePackets := c.reliablePackets ++ [entry] }.Bookkept := by
    rintro entry rfl
    refine { hc with reliable := fun q hq => ?_ }
    rcases List.mem_append.mp hq with hq | hq
    · exact hc.reliable q hq
    · obtain rfl := List.mem_singleton.mp hq
      exact hpkt
  unfold sendPacketReliably
  dsimp only
  split <;> exact hreliable _ rfl

/-- Preparing a packet: the extras it takes along remember its number. -/
theorem prepareNew_bookkept (hc : c.Bookkept) (p : Packet) (endpointId : Int64)
    (stream : OutgoingStream) :
    (c.prepareNew p endpointId stream).2.Bookkept ∧
      (c.prepareNew p endpointId stream).1 ∈
        (c.prepareNew p endpointId stream).2.preparedPackets := by
  have hold : ∀ q ∈ c.preparedPackets, q ∈ (c.prepareNew p endpointId stream).2.preparedPackets :=
    fun q hq => List.mem_append_left _ hq
  have hnew : (c.prepareNew p endpointId stream).1 ∈
      (c.prepareNew p endpointId stream).2.preparedPackets :=
    List.mem_append_right _ List.mem_cons_self
  refine ⟨⟨fun x hx seq hseq hne => ?_, fun r hr => hold _ (hc.raw r hr),
    fun q hq => hold _ (hc.queue q hq), fun q hq => hold _ (hc.reliable q hq)⟩, hnew⟩
  obtain ⟨y, hy, rfl⟩ := List.mem_map.mp hx
  have hbefore : ∀ seq ∈ y.seqs.slots, seq ≠ 0 →
      ∃ q ∈ (c.prepareNew p endpointId stream).2.preparedPackets,
        q.seq = seq ∧ y.data ∈ q.extraSignaling := fun seq hseq hne =>
    let ⟨q, hq, h⟩ := hc.remembered y hy seq hseq hne
    ⟨q, hold q hq, h⟩
  split at hseq
  · rename_i hrides
    rw [if_pos hrides]
    rcases HistoricBuffer.mem_slots_add hseq with rfl | hseq
    · exact ⟨_, hnew, rfl, List.mem_map.mpr ⟨y, List.mem_filter.mpr ⟨hy, hrides⟩, rfl⟩⟩
    · exact hbefore seq hseq hne
  · rename_i hstays
    rw [if_neg hstays]
    exact hbefore seq hseq hne

theorem sendPacket_bookkept {pkt : OutgoingPacket} {retryInterval timeout : Time} {tries : UInt8}
    (hc : c.Bookkept) (hnew : c.ver.isNew = true)
    (h : c.sendPacket env now pkt retryInterval timeout tries = .ok c') : c'.Bookkept := by
  unfold sendPacket at h
  obtain ⟨endpoint, -, h⟩ := bind_eq_ok.mp h
  obtain ⟨stream, -, h⟩ := bind_eq_ok.mp h
  rw [if_pos hnew] at h
  obtain ⟨hprepared, hmem⟩ := prepareNew_bookkept hc pkt.packet endpoint.id stream
  have hsealed : ((c.prepareNew pkt.packet endpoint.id stream).2.noteSealing endpoint).Bookkept :=
    { hprepared with }
  unfold sendNewPacket at h
  dsimp only at h
  split at h
  · rw [← pure_eq_ok.mp h]
    exact sendPacketReliably_bookkept hsealed hmem
  · exact (sendOrEnqueuePacket_bookkept hsealed hmem h).1

theorem sendNopPacket_bookkept {endpointId : Int64} (hc : c.Bookkept) (hnew : c.ver.isNew = true)
    (h : c.sendNopPacket env now endpointId = .ok c') : c'.Bookkept := by
  unfold sendNopPacket at h
  exact sendPacket_bookkept hc hnew h

/-- A new value is not remembered anywhere yet. -/
theorem sendExtra_bookkept (hc : c.Bookkept) (extra : WrappedExtra) (endpointId : Int64) :
    (c.sendExtra extra endpointId).Bookkept := by
  unfold sendExtra
  split
  · refine { hc with remembered := fun x hx seq hseq hne => ?_ }
    rcases ListEntry.mem_modify hx with hx | ⟨y, -, rfl⟩
    · exact hc.remembered x hx seq hseq hne
    · exact absurd (HistoricBuffer.mem_slots_reset (b := y.seqs) hseq) hne
  · refine { hc with remembered := fun x hx seq hseq hne => ?_ }
    rcases List.mem_append.mp hx with hx | hx
    · exact hc.remembered x hx seq hseq hne
    · obtain rfl := List.mem_singleton.mp hx
      exact absurd (HistoricBuffer.mem_slots_new hseq) hne

theorem answer_bookkept {reply : Extra} (hc : c.Bookkept) (hnew : c.ver.isNew = true)
    (h : c.answer env now reply = .ok c') : c'.Bookkept :=
  sendNopPacket_bookkept (sendExtra_bookkept hc _ _)
    ((congrArg VersionInfo.isNew (sendExtra_frame ..).ver).trans hnew) h

theorem sendInit_bookkept (hc : c.Bookkept) (hnew : c.ver.isNew = true)
    (h : c.sendInit env now = .ok c') : c'.Bookkept := by
  unfold sendInit at h
  obtain ⟨signaling, -, h⟩ := bind_eq_ok.mp h
  obtain ⟨c₁, h₁, h⟩ := bind_eq_ok.mp h
  have hloop : c₁.Bookkept ∧ c₁.ver.isNew = true := by
    refine foldlM_invariant (I := fun c : Controller => c.Bookkept ∧ c.ver.isNew = true) ?_ ?_ h₁
    · rintro c e - c' ⟨hc, hnew⟩ h
      unfold sendInitTo at h
      split at h
      · rw [← pure_eq_ok.mp h]
        exact ⟨hc, hnew⟩
      · exact ⟨sendPacket_bookkept hc hnew h, (sendPacket_frame h).ver ▸ hnew⟩
    · exact ⟨{ sendExtra_bookkept hc _ _ with },
        (congrArg VersionInfo.isNew (sendExtra_frame ..).ver).trans hnew⟩
  rw [← pure_eq_ok.mp h]
  split <;> exact hloop.1

/-! ## The queues -/

theorem update_pkt {q q' : ReliableOutgoingPacket} {due : Bool}
    (h : q.update now = some (q', due)) : q'.pkt = q.pkt := by
  unfold ReliableOutgoingPacket.update at h
  split at h
  · cases h
  · split at h
    · cases h
    · split at h <;> cases h <;> rfl

theorem updateReliablePackets_bookkept (hc : c.Bookkept)
    (h : c.updateReliablePackets now = .ok c') : c'.Bookkept := by
  have hupdated : ∀ x ∈ c.reliablePackets.filterMap (·.update now),
      x.1.pkt.carried ∈ c.preparedPackets := by
    rintro ⟨q', due⟩ hx
    obtain ⟨q, hq, hupdate⟩ := List.mem_filterMap.mp hx
    exact update_pkt hupdate ▸ hc.reliable q hq
  unfold updateReliablePackets at h
  dsimp only at h
  refine (foldlM_invariant (I := fun c₁ : Controller => c₁.Bookkept ∧
    c₁.preparedPackets = c.preparedPackets) ?_ ?_ h).1
  · rintro c₁ q hq c₂ ⟨hc₁, hprepared⟩ h
    obtain ⟨x, hx, rfl⟩ := List.mem_map.mp hq
    have hmem := hupdated x (List.mem_of_mem_filter hx)
    have := sendOrEnqueuePacket_bookkept hc₁ (hprepared ▸ hmem) h
    exact ⟨this.1, this.2.trans hprepared⟩
  · refine ⟨{ hc with reliable := fun q hq => ?_ }, rfl⟩
    obtain ⟨x, hx, rfl⟩ := List.mem_map.mp hq
    exact hupdated x hx

theorem trySendQueued_bookkept {queue kept : List PendingOutgoingPacket} (hc : c.Bookkept)
    (hqueue : ∀ pkt ∈ queue, pkt.carried ∈ c.preparedPackets)
    (h : trySendQueued now c queue = .ok (c', kept)) :
    c'.Bookkept ∧ c'.preparedPackets = c.preparedPackets ∧ kept ⊆ queue := by
  induction queue generalizing c kept with
  | nil =>
      have := pure_eq_ok.mp h
      cases this
      exact ⟨hc, rfl, fun _ h => h⟩
  | cons pkt queue ih =>
      have hpkt := hqueue pkt List.mem_cons_self
      have hrest := fun q hq => hqueue q (List.mem_cons_of_mem pkt hq)
      rw [trySendQueued] at h
      split at h
      · split at h
        · obtain ⟨hc', hprepared, hkept⟩ := ih hc hrest h
          exact ⟨hc', hprepared, fun _ hq => List.mem_cons_of_mem _ (hkept hq)⟩
        · cases h
      · split at h
        · obtain ⟨c₁, h₁, h⟩ := bind_eq_ok.mp h
          obtain ⟨hc₁, hprepared₁⟩ := sendOrEnqueuePacket_bookkept hc hpkt h₁
          obtain ⟨hc', hprepared, hkept⟩ := ih hc₁ (hprepared₁ ▸ hrest) h
          exact ⟨hc', hprepared.trans hprepared₁, fun _ hq => List.mem_cons_of_mem _ (hkept hq)⟩
        · obtain ⟨⟨c₁, rest⟩, h₁, h⟩ := bind_eq_ok.mp h
          have := pure_eq_ok.mp h
          cases this
          obtain ⟨hc', hprepared, hkept⟩ := ih hc hrest h₁
          exact ⟨hc', hprepared, List.cons_subset_cons _ hkept⟩

theorem trySendOutgoingPackets_bookkept (hc : c.Bookkept)
    (h : c.trySendOutgoingPackets now = .ok c') : c'.Bookkept := by
  obtain ⟨⟨c₁, rest⟩, h₁, h⟩ := bind_eq_ok.mp h
  obtain ⟨hc₁, hprepared, hkept⟩ := trySendQueued_bookkept hc hc.queue h₁
  rw [← pure_eq_ok.mp h]
  exact { hc₁ with queue := fun pkt hpkt => hprepared ▸ hc.queue pkt (hkept hpkt) }

/-! ## Receiving -/

theorem Prepared.bookkept {x : Extra} (h : Prepared env x c c₁) (hc : c.Bookkept) :
    c₁.Bookkept := by
  rcases h.streams with h | ⟨d, -, -, -, h⟩
  · exact h ▸ hc
  · rw [h]
    exact { hc with }

theorem dispatchExtra_bookkept {x : Extra} {rest : List Extra} (hc : c.Bookkept)
    (hnew : StaysNew c.ver (x :: rest)) (h : c.dispatchExtra env now x src = .ok c') :
    c'.Bookkept := by
  rcases dispatchExtra_ok h with ⟨-, hquiet⟩ | ⟨-, c₁, c₂, h₁, h₂, h₃⟩
  · exact hquiet.transport ▸ hc
  · exact h₃.transport ▸ answer_bookkept (h₁.bookkept hc) (hnew.cons h₁.ver).isNew h₂

theorem processExtras_bookkept {xs : List WrappedExtra} (hc : c.Bookkept)
    (hnew : StaysNew c.ver (c.freshExtras env xs)) (h : c.processExtras env now src xs = .ok c') :
    c'.Bookkept ∧ c'.ver.isNew = true := by
  have hrun : c'.Bookkept ∧ StaysNew c'.ver [] :=
    processExtras_rule (I := fun c rest => c.Bookkept ∧ StaysNew c.ver rest) (fun _ _ _ h => h)
      (fun _ _ _ _ h hx => ⟨dispatchExtra_bookkept h.1 h.2 hx,
        h.2.cons (dispatchExtra_frame hx).ver⟩) ⟨hc, hnew⟩ h
  exact ⟨hrun.1, hrun.2.isNew⟩

/-- Erasing keeps the books. -/
theorem AckStage.bookkept {pm : PacketManager} (hc : c.Bookkept) (h : AckStage now p pm c c') :
    c'.Bookkept := by
  obtain ⟨-, rfl⟩ | ⟨-, c₀, htransport, -, rfl⟩ := h
  · exact hc
  · have hc₀ : c₀.Bookkept := htransport ▸ hc
    exact { hc₀ with
      remembered := fun x hx => hc₀.remembered x (List.mem_of_mem_filter hx)
      reliable := fun q hq => hc₀.reliable q (List.mem_of_mem_filter hq) }

theorem countUnacknowledged_bookkept (hc : c.Bookkept) (hnew : c.ver.isNew = true)
    (h : c.countUnacknowledged env now = .ok c') : c'.Bookkept := by
  have hcounted : { c with unacknowledgedIncomingPacketCount :=
      c.unacknowledgedIncomingPacketCount + 1 }.Bookkept := { hc with }
  unfold countUnacknowledged at h
  dsimp only at h
  split at h
  · exact sendNopPacket_bookkept hcounted hnew h
  · obtain rfl := pure_eq_ok.mp h
    exact hcounted

theorem processIncomingPacket_bookkept (hc : c.Bookkept)
    (hnew : StaysNew c.ver (c.freshExtras env p.extraSignaling))
    (h : c.processIncomingPacket env now p src = .ok c') : c'.Bookkept := by
  obtain ⟨s, hs, ⟨-, rfl⟩ | ⟨-, h⟩⟩ := processIncomingPacket_ok h
  · exact hc
  · obtain ⟨c₁, c₂, c₃, c₄, t, hstages⟩ := processFreshPacket_ok h
    obtain ⟨hc₁, hnew₁⟩ := processExtras_bookkept (c := c.arrived s p) { hc with }
      (by rw [freshExtras_arrived]; exact hnew) hstages.extras
    have hc₃ : c₃.Bookkept := hstages.endpoint.1 ▸ hstages.acks.bookkept hc₁
    have hnew₃ : c₃.ver.isNew = true := by
      rw [hstages.endpoint.2.ver, (hstages.acks.frame hstages.stream).ver]
      exact hnew₁
    exact hstages.notes.transport ▸ countUnacknowledged_bookkept hc₃ hnew₃ hstages.counts

/-! ## Runs -/

/-- The format is the new one, and stays it through the event. -/
def NewFormat (env : Platform) (c : Controller) (e : Time × Event) : Prop :=
  c.ver.isNew = true ∧ ∀ p src, e.2 = .packet p src →
    StaysNew c.ver (c.freshExtras env p.extraSignaling)

/-- **The books are kept** by every step in the new format. -/
theorem step_bookkept {e : Time × Event} (hc : c.Bookkept) (hnew : NewFormat env c e)
    (h : c.step env e = .ok c') : c'.Bookkept := by
  obtain ⟨now, e⟩ := e
  cases e with
  | packet p src => exact processIncomingPacket_bookkept hc (hnew.2 p src rfl) h
  | sendPacket pkt retryInterval timeout tries => exact sendPacket_bookkept hc hnew.1 h
  | sendNopPacket endpointId => exact sendNopPacket_bookkept hc hnew.1 h
  | sendExtra x endpointId =>
      obtain rfl := pure_eq_ok.mp h
      exact sendExtra_bookkept hc _ _
  | sendInit => exact sendInit_bookkept hc hnew.1 h
  | updateReliablePackets => exact updateReliablePackets_bookkept hc h
  | trySendOutgoingPackets => exact trySendOutgoingPackets_bookkept hc h
  | udpSocket ready =>
      obtain rfl := pure_eq_ok.mp h
      exact hc
  | tcpSocket key ready =>
      obtain rfl := pure_eq_ok.mp h
      exact hc

/-- The call of `HandleReliablePackets` a packet causes, if any: the controller
it is called on, and the packet manager it is called with. -/
def ackCall (env : Platform) (c : Controller) (now : Time) (p : Packet) (src : Int64) :
    Option (Controller × PacketManager) := do
  let s ← c.outgoingStreams[p.managerIndex.toNat]?
  guard ((s.packetManager.ackRemotePacket p).1 = true)
  let c₁ ← ((c.arrived s p).processExtras env now src p.extraSignaling).toOption
  let s₁ ← c₁.outgoingStreams[p.managerIndex.toNat]?
  guard (s₁.packetManager.takesAck p.ackSeq = true)
  pure (c₁, acknowledged s₁.packetManager now p)

theorem ackCall_eq_some {pm : PacketManager} (h : ackCall env c now p src = some (c₁, pm)) :
    ∃ s, (c.arrived s p).processExtras env now src p.extraSignaling = .ok c₁ := by
  obtain ⟨s, -, h⟩ := Option.bind_eq_some_iff.mp h
  obtain ⟨-, -, h⟩ := Option.bind_eq_some_iff.mp h
  obtain ⟨c₂, hextras, h⟩ := Option.bind_eq_some_iff.mp h
  obtain ⟨s₁, -, h⟩ := Option.bind_eq_some_iff.mp h
  obtain ⟨-, -, h⟩ := Option.bind_eq_some_iff.mp h
  cases h
  refine ⟨s, ?_⟩
  cases hres : (c.arrived s p).processExtras env now src p.extraSignaling with
  | error x => simp [hres, Except.toOption] at hextras
  | ok c₂ =>
      rw [hres] at hextras
      exact congrArg Except.ok (Option.some.inj hextras)

/-- A packet erases at that call, and nowhere else. -/
theorem Stages.erases {c₂ c₃ c₄ : Controller} {s t : OutgoingStream}
    (hs : c.outgoingStreams[p.managerIndex.toNat]? = some s) (haccepts : c.accepts p = true)
    (h : Stages env now p src (c.arrived s p) c₁ c₂ c₃ c₄ c' t) :
    (ackCall env c now p src = none ∧ c₂ = c₁) ∨
      ∃ pm, ackCall env c now p src = some (c₁, pm) ∧
        c₂.reliablePackets = (c₁.handleReliablePackets pm).reliablePackets ∧
        c₂.currentExtras = (c₁.handleReliablePackets pm).currentExtras := by
  have hnew : (s.packetManager.ackRemotePacket p).1 = true := by
    simpa [accepts, hs] using haccepts
  have hcall : ackCall env c now p src = (do
      guard (t.packetManager.takesAck p.ackSeq = true)
      pure (c₁, acknowledged t.packetManager now p)) := by
    simp [ackCall, hs, hnew, h.extras, h.stream, Except.toOption]
  obtain ⟨htakes, hc₂⟩ | ⟨htakes, c₀, htransport, -, rfl⟩ := h.acks
  · exact .inl ⟨by simp [hcall, htakes], hc₂⟩
  · refine .inr ⟨acknowledged t.packetManager now p, by simp [hcall, htakes], ?_, ?_⟩
    · show c₀.reliablePackets.filter _ = _
      rw [htransport]
      rfl
    · show c₀.currentExtras.filter _ = _
      rw [htransport]
      rfl

end Controller

/-! ## Deliveries -/

/-- A controller, and the packets the peer accepted. -/
structure Delivery where
  c : Controller
  accepted : List Packet := []

inductive DeliveryEvent where
  | own (e : Time × Event)
  /-- The peer accepts a packet that was sent. -/
  | peerAccepts (i : ℕ)

namespace Delivery

open Controller

variable {env : Platform} {d d' : Delivery} {e : DeliveryEvent}

def step (env : Platform) (d : Delivery) : DeliveryEvent → Except Fault Delivery
  | .own e => do
    let c' ← d.c.step env e
    pure { d with c := c' }
  | .peerAccepts i => pure { d with
      accepted := d.accepted ++ (d.c.rawSendQueue[i]?.map (·.pkt.carried)).toList }

/-- The call of `HandleReliablePackets` an event causes. -/
def call (env : Platform) (d : Delivery) : DeliveryEvent → Option (Controller × PacketManager)
  | .own (now, .packet p src) => ackCall env d.c now p src
  | _ => none

/-- The format is the new one, and a packet manager takes a packet for
acknowledged only if the peer accepted it on this very stream. -/
structure Honest (env : Platform) (d : Delivery) (e : DeliveryEvent) : Prop where
  newFormat : ∀ own, e = .own own → NewFormat env d.c own
  acks : ∀ c pm, d.call env e = some (c, pm) → ∀ seq, pm.wasLocalAcked seq = true →
    ∃ a ∈ d.accepted, a.streamId = pm.transportId ∧ a.seq = seq

/-- The numbers an acknowledgement is compared with are of its own stream:
those of the reliable packets, and those the extras remember; and no number
was given to packets with different extras. -/
structure Unmixed (env : Platform) (d : Delivery) (e : DeliveryEvent) : Prop where
  packets : ∀ c pm, d.call env e = some (c, pm) → ∀ q ∈ c.reliablePackets,
    pm.wasLocalAcked q.pkt.pktInfo.seq = true → q.pkt.pktInfo.streamId = pm.transportId
  extras : ∀ c pm, d.call env e = some (c, pm) → ∀ x ∈ c.currentExtras, ∀ seq ∈ x.seqs.slots,
    seq ≠ 0 → pm.wasLocalAcked seq = true → ∀ q ∈ c.preparedPackets, q.seq = seq →
      x.data ∈ q.extraSignaling → q.streamId = pm.transportId ∧
        ∀ a ∈ c.preparedPackets, a.streamId = q.streamId → a.seq = q.seq →
          a.extraSignaling = q.extraSignaling

/-- The peer accepted the packet of every entry of `reliablePackets` erased. -/
def ErasesReceivedPackets (env : Platform) (d : Delivery) (e : DeliveryEvent) : Prop :=
  ∀ c pm, d.call env e = some (c, pm) → ∀ q ∈ c.erasedPackets pm,
    ∃ a ∈ d.accepted, a.streamId = q.pkt.pktInfo.streamId ∧ a.seq = q.pkt.pktInfo.seq

/-- The peer accepted a packet with the current value of every extra erased. -/
def ErasesReceivedExtras (env : Platform) (d : Delivery) (e : DeliveryEvent) : Prop :=
  ∀ c pm, d.call env e = some (c, pm) → ∀ x ∈ c.erasedExtras pm,
    ∃ a ∈ d.accepted, x.data ∈ a.extraSignaling

/-- **Only what was received is erased.** -/
def ErasesReceived (env : Platform) (d : Delivery) (e : DeliveryEvent) : Prop :=
  ErasesReceivedPackets env d e ∧ ErasesReceivedExtras env d e

/-- The books are kept, and the peer accepts only what was sent. -/
structure Sound (d : Delivery) : Prop where
  books : d.c.Bookkept
  accepted : ∀ a ∈ d.accepted, ∃ r ∈ d.c.rawSendQueue, r.pkt.carried = a

theorem Sound.step (hd : d.Sound) (he : Honest env d e) (h : d.step env e = .ok d') : d'.Sound := by
  cases e with
  | own e =>
      obtain ⟨c', hstep, h⟩ := bind_eq_ok.mp h
      obtain rfl := pure_eq_ok.mp h
      refine ⟨step_bookkept hd.books (he.newFormat e rfl) hstep, fun a ha => ?_⟩
      obtain ⟨r, hr, hcarried⟩ := hd.accepted a ha
      exact ⟨r, (step_rawSendQueue hstep).subset hr, hcarried⟩
  | peerAccepts i =>
      obtain rfl := pure_eq_ok.mp h
      refine ⟨hd.books, fun a ha => ?_⟩
      rcases List.mem_append.mp ha with ha | ha
      · exact hd.accepted a ha
      · obtain ⟨r, hr, hcarried⟩ := Option.map_eq_some_iff.mp (Option.mem_toList.mp ha)
        exact ⟨r, List.mem_of_getElem? hr, hcarried⟩

/-- At the call, too, the books are kept, and what was accepted was prepared. -/
theorem Sound.call {c : Controller} {pm : PacketManager} (hd : d.Sound) (he : Honest env d e)
    (h : d.call env e = some (c, pm)) :
    c.Bookkept ∧ ∀ a ∈ d.accepted, a ∈ c.preparedPackets := by
  match e, he, h with
  | .own (now, .packet p src), he, h =>
    obtain ⟨s, hextras⟩ := ackCall_eq_some h
    obtain ⟨hc, -⟩ := processExtras_bookkept (c := d.c.arrived s p) { hd.books with }
      (by rw [freshExtras_arrived]; exact (he.newFormat _ rfl).2 p src rfl) hextras
    refine ⟨hc, fun a ha => ?_⟩
    obtain ⟨r, hr, rfl⟩ := hd.accepted a ha
    exact hc.raw r ((processExtras_frame hextras).rawSendQueue.subset hr)

theorem Sound.erasesReceived (hd : d.Sound) (he : Honest env d e) (hunmixed : Unmixed env d e) :
    ErasesReceived env d e := by
  refine ⟨fun c pm hcall q hq => ?_, fun c pm hcall x hx => ?_⟩
  · obtain ⟨hmem, hacked⟩ := List.mem_filter.mp hq
    rw [hunmixed.packets c pm hcall q hmem hacked]
    exact he.acks c pm hcall _ hacked
  · obtain ⟨hmem, hacked⟩ := List.mem_filter.mp hx
    obtain ⟨seq, hseq, hcond⟩ := List.any_eq_true.mp hacked
    simp only [Bool.and_eq_true, bne_iff_ne] at hcond
    obtain ⟨hbooks, hprepared⟩ := hd.call he hcall
    -- the packet the extra rode on when it remembered the number
    obtain ⟨q, hq, hqseq, hcarries⟩ := hbooks.remembered x hmem seq hseq hcond.1
    obtain ⟨hstream, hone⟩ :=
      hunmixed.extras c pm hcall x hmem seq hseq hcond.1 hcond.2 q hq hqseq hcarries
    -- the packet the peer accepted under this number
    obtain ⟨a, ha, hastream, haseq⟩ := he.acks c pm hcall seq hcond.2
    refine ⟨a, ha, ?_⟩
    rw [hone a (hprepared a ha) (hastream.trans hstream.symm) (haseq.trans hqseq.symm)]
    exact hcarries

/-- A call in which nothing was sent yet. -/
structure Idle (d : Delivery) : Prop where
  extras : d.c.currentExtras = []
  reliable : d.c.reliablePackets = []
  queue : d.c.sendQueue = []
  raw : d.c.rawSendQueue = []
  accepted : d.accepted = []

theorem Idle.sound (h : d.Idle) : d.Sound where
  books := by
    refine ⟨?_, ?_, ?_, ?_⟩
    · simp [h.extras]
    · simp [h.raw]
    · simp [h.queue]
    · simp [h.reliable]
  accepted := by simp [h.accepted]

/-- **Nothing is erased that the peer has not received**, along every run in
which the numbers an acknowledgement is compared with are of its own stream. -/
theorem erases_received {events : List DeliveryEvent} (hd : d.Idle)
    (hhonest : AlongOk (step env) (Honest env) d events)
    (hunmixed : AlongOk (step env) (Unmixed env) d events) :
    AlongOk (step env) (ErasesReceived env) d events :=
  (alongOk_and.mpr ⟨hhonest, hunmixed⟩).strengthen (I := Sound)
    (fun _ _ _ hd h hstep => hd.step h.1 hstep) (fun _ _ hd h => hd.erasesReceived h.1 h.2) hd.sound

/-! ## On fixed inputs -/

/-- A call in which nothing was sent yet, over one UDP relay. -/
def sampleDelivery : Delivery := { c := sampleCall {} }

theorem sampleDelivery_idle : sampleDelivery.Idle := ⟨rfl, rfl, rfl, rfl, rfl⟩

/-- A reliable packet with a pending extra, on one of the streams. -/
def sendReliably (streamId : UInt8) : List DeliveryEvent :=
  [.own (0, .sendExtra (.networkChanged {}) 0),
    .own (0, .sendPacket { packet := { streamId } } (1 / 2) 5 1)]

/-- The peer acknowledges packet 1 of the Signaling stream. -/
def signalingAck : DeliveryEvent := .own (1, .packet { seq := 1, ackSeq := 1 } 1)

/-- A NOP on the Signaling stream is accepted, a packet on the Audio stream
gets the same number and is lost. -/
def mixed : List DeliveryEvent :=
  [.own (0, .sendNopPacket 0), .peerAccepts 0] ++ sendReliably 1

/-- The same packet on the Signaling stream, sent and accepted. -/
def unmixed : List DeliveryEvent :=
  sendReliably 0 ++ [.own (1, .updateReliablePackets), .peerAccepts 0]

theorem wasLocalAcked_of_mask_eq_zero {pm : PacketManager} {seq : UInt32}
    (hmask : pm.lastAckedSeqsMask = 0) (h : pm.wasLocalAcked seq = true) : seq = pm.lastAckedSeq := by
  unfold PacketManager.wasLocalAcked at h
  split at h
  · assumption
  · simp [hmask] at h

theorem step_layer (h : d.step env e = .ok d') :
    d'.c.ver.connectionMaxLayer = d.c.ver.connectionMaxLayer := by
  cases e with
  | own e =>
      obtain ⟨c', hstep, h⟩ := bind_eq_ok.mp h
      obtain rfl := pure_eq_ok.mp h
      exact step_connectionMaxLayer hstep
  | peerAccepts i =>
      obtain rfl := pure_eq_ok.mp h
      rfl

/-- No packet arrives. -/
def Sending (e : DeliveryEvent) : Prop := ∀ now p src, e ≠ .own (now, .packet p src)

theorem Sending.call (he : Sending e) : d.call env e = none := by
  unfold Delivery.call
  split
  · exact absurd rfl (he _ _ _)
  · rfl

/-- A run of a connection of the new layer in which no packet arrives. -/
theorem honest_sending {events : List DeliveryEvent} (hlayer : 110 ≤ d.c.ver.connectionMaxLayer)
    (hsending : ∀ e ∈ events, Sending e) : AlongOk (step env) (Honest env) d events := by
  refine (alongOk_of_forall (P := fun _ e => Sending e) fun e he _ => hsending e he).strengthen
    (I := fun d => 110 ≤ d.c.ver.connectionMaxLayer)
    (fun d e d' hlayer _ h => (step_layer h).symm ▸ hlayer) (fun d e hlayer he => ⟨?_, ?_⟩) hlayer
  · rintro ⟨now, e⟩ rfl
    refine ⟨by simp [VersionInfo.isNew, hlayer], ?_⟩
    rintro p src rfl
    exact absurd rfl (he now p src)
  · intro c pm hcall
    rw [he.call] at hcall
    cases hcall

theorem unmixed_sending {events : List DeliveryEvent} (hsending : ∀ e ∈ events, Sending e) :
    AlongOk (step env) (Unmixed env) d events :=
  alongOk_of_forall fun e he d => by
    have hnone : ∀ c pm, d.call env e ≠ some (c, pm) := fun c pm => by
      rw [(hsending e he).call]
      exact nofun
    exact ⟨fun c pm h => absurd h (hnone c pm), fun c pm h => absurd h (hnone c pm)⟩

/-- An acknowledgement of the one packet the peer accepted. -/
theorem honest_signalingAck (hlayer : 110 ≤ d.c.ver.connectionMaxLayer)
    (haccepted : d.accepted.map (fun a => (a.streamId, a.seq)) = [(0, 1)])
    (hcall : (d.call env signalingAck).map (fun x =>
      (x.2.transportId, x.2.lastAckedSeq, x.2.lastAckedSeqsMask)) = some (0, 1, 0)) :
    Honest env d signalingAck where
  newFormat := fun own hown => ⟨by simp [VersionInfo.isNew, hlayer], fun _ _ _ => .inl hlayer⟩
  acks := fun c pm hc seq hacked => by
    rw [hc] at hcall
    have hpm := Option.some.inj hcall
    simp only [Prod.mk.injEq] at hpm
    have hmem : ((0, 1) : UInt8 × UInt32) ∈ d.accepted.map fun a => (a.streamId, a.seq) := by
      rw [haccepted]
      exact List.mem_cons_self
    obtain ⟨a, ha, heq⟩ := List.mem_map.mp hmem
    refine ⟨a, ha, ?_, ?_⟩
    · rw [hpm.1]
      exact congrArg Prod.fst heq
    · rw [wasLocalAcked_of_mask_eq_zero hpm.2.2 hacked, hpm.2.1]
      exact congrArg Prod.snd heq

/-- Packets and extras are sent, packet 1 of the Signaling stream is accepted,
and acknowledged. -/
theorem honest_acknowledged {events : List DeliveryEvent} (hsending : ∀ e ∈ events, Sending e)
    (heval : (events.foldlM (step samplePlatform) sampleDelivery).map (fun d =>
      (d.accepted.map fun a => (a.streamId, a.seq), (d.call samplePlatform signalingAck).map fun x =>
        (x.2.transportId, x.2.lastAckedSeq, x.2.lastAckedSeqsMask))) =
      .ok ([(0, 1)], some (0, 1, 0))) :
    AlongOk (step samplePlatform) (Honest samplePlatform) sampleDelivery
      (events ++ [signalingAck]) := by
  refine .snoc (honest_sending (by decide) hsending) fun d hd => ?_
  have hlayer : 110 ≤ d.c.ver.connectionMaxLayer :=
    foldlM_invariant (I := fun d : Delivery => 110 ≤ d.c.ver.connectionMaxLayer)
      (fun d _ _ d' hlayer h => (step_layer h).symm ▸ hlayer) (by decide) hd
  have hend := eq_of_map_eq_ok _ hd heval
  exact honest_signalingAck hlayer (congrArg Prod.fst hend) (congrArg Prod.snd hend)

theorem sending_unmixed : ∀ e ∈ unmixed, Sending e := by simp [unmixed, sendReliably, Sending]

theorem sending_mixed : ∀ e ∈ mixed, Sending e := by simp [mixed, sendReliably, Sending]

/-- A packet and its extra, sent on the Signaling stream, accepted and
acknowledged. -/
theorem erases_received_signaling :
    AlongOk (step samplePlatform) (ErasesReceived samplePlatform) sampleDelivery
      (unmixed ++ [signalingAck]) := by
  refine erases_received sampleDelivery_idle
    (honest_acknowledged sending_unmixed (by decide +kernel))
    (.snoc (unmixed_sending sending_unmixed) fun d hd => ?_)
  have hcall := eq_of_map_eq_ok (a := some (0, [⟨1, 0⟩], [0]))
    (fun d => (d.call samplePlatform signalingAck).map fun x =>
      (x.2.transportId, x.1.reliablePackets.map (·.pkt.pktInfo),
        x.1.preparedPackets.map (·.streamId))) hd (by decide +kernel)
  have hone : ∀ c pm, d.call samplePlatform signalingAck = some (c, pm) →
      pm.transportId = 0 ∧ (∃ q, c.reliablePackets = [q] ∧ q.pkt.pktInfo = ⟨1, 0⟩) ∧
        ∃ q, c.preparedPackets = [q] ∧ q.streamId = 0 := by
    intro c pm h
    rw [h] at hcall
    have heq := Option.some.inj hcall
    simp only [Prod.mk.injEq, List.map_eq_singleton_iff] at heq
    exact heq
  constructor
  · intro c pm h q hq _
    obtain ⟨hpm, ⟨r, hr, hinfo⟩, -⟩ := hone c pm h
    rw [hr] at hq
    rw [List.mem_singleton.mp hq, hinfo, hpm]
  · intro c pm h x _ seq _ _ _ q hq _ _
    obtain ⟨hpm, -, r, hr, hstream⟩ := hone c pm h
    rw [hr] at hq ⊢
    obtain rfl := List.mem_singleton.mp hq
    exact ⟨hstream.trans hpm.symm, fun a ha _ _ => by rw [List.mem_singleton.mp ha]⟩

/-- The acknowledgement of the NOP erases the lost packet of the Audio stream,
and the extra it carried. -/
theorem erases_received_fails :
    (¬ ∀ (env : Platform) (d : Delivery) (events : List DeliveryEvent), d.Idle →
      AlongOk (step env) (Honest env) d events →
      AlongOk (step env) (ErasesReceivedPackets env) d events) ∧
    (¬ ∀ (env : Platform) (d : Delivery) (events : List DeliveryEvent), d.Idle →
      AlongOk (step env) (Honest env) d events →
      AlongOk (step env) (ErasesReceivedExtras env) d events) := by
  have hhonest := honest_acknowledged sending_mixed (by decide +kernel)
  have heval : ∃ d c pm, mixed.foldlM (step samplePlatform) sampleDelivery = .ok d ∧
      d.call samplePlatform signalingAck = some (c, pm) ∧
      d.accepted.map (fun a => (a.streamId, a.extraSignaling)) = [(0, [])] ∧
      (c.erasedPackets pm).map (·.pkt.pktInfo) = [⟨1, 1⟩] ∧
      (c.erasedExtras pm).map (·.data) = [{ d := .networkChanged {} }] :=
    ⟨_, _, _, rfl, rfl, rfl, rfl, rfl⟩
  obtain ⟨d, c, pm, hd, hcall, haccepted, hpackets, hextras⟩ := heval
  simp only [List.map_eq_singleton_iff] at haccepted hpackets hextras
  obtain ⟨a, ha, hav⟩ := haccepted
  obtain ⟨hzero, hnone⟩ := Prod.mk.inj hav
  constructor
  · intro h
    obtain ⟨q, hq, hinfo⟩ := hpackets
    obtain ⟨a', ha', hstream, -⟩ := (h _ _ _ sampleDelivery_idle hhonest).last hd c pm hcall q
      (hq ▸ List.mem_cons_self)
    rw [ha] at ha'
    rw [List.mem_singleton.mp ha', hinfo, hzero] at hstream
    exact absurd hstream (by decide)
  · intro h
    obtain ⟨x, hx, hdata⟩ := hextras
    obtain ⟨a', ha', hcarries⟩ := (h _ _ _ sampleDelivery_idle hhonest).last hd c pm hcall x
      (hx ▸ List.mem_cons_self)
    rw [ha] at ha'
    rw [List.mem_singleton.mp ha', hnone] at hcarries
    exact absurd hcarries List.not_mem_nil

end Delivery

end Tgvoip
