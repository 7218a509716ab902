import Tgvoip.Controller.Receive
import Tgvoip.Lib.Fallible

/-!
# SendRule — what all sending is made of

A relation between controllers that holds across each elementary act of
sending (a socket is connected, a packet is prepared, sealed, handed to the
send thread, or put into one of the queues) holds across every function of
`Send`. Whatever is to be known of those functions is a relation for which
the acts are checked once.
-/

namespace Tgvoip

open ByteReader Fallible

namespace Controller

variable {env : Platform} {c c' : Controller} {now : Time}

/-! ## Lookups -/

theorem outgoingStream_eq_ok {i : ℕ} {s : OutgoingStream} :
    c.outgoingStream i = .ok s ↔ c.outgoingStreams[i]? = some s := by
  unfold outgoingStream
  cases c.outgoingStreams[i]? with
  | none => simp
  | some t => simp

theorem endpointAt_eq_ok {id : Int64} {e : Endpoint} :
    c.endpointAt id = .ok e ↔ c.endpoints.at? id = some e := by
  unfold endpointAt
  cases c.endpoints.at? id with
  | none => simp
  | some t => simp

theorem endpointForPacket_eq_ok {id : Int64} {e : Endpoint} :
    c.endpointForPacket id = .ok e ↔ c.endpoints.at? (c.endpointKey id) = some e := by
  unfold endpointForPacket
  cases c.endpoints.at? (c.endpointKey id) with
  | none => simp
  | some t => simp

/-- The three outcomes of `SendOrEnqueuePacket`. -/
theorem sendOrEnqueuePacket_ok {pkt : PendingOutgoingPacket} {enqueue : Bool}
    (h : c.sendOrEnqueuePacket now pkt enqueue = .ok c') :
    ∃ e, c.endpoints.at? (c.endpointKey pkt.endpoint) = some e ∧
      let c₁ := c.connectIfNeeded (c.endpointKey pkt.endpoint) e
      (c₁.canSend e = true ∧ (c₁.usesTransport e && !c₁.stopping) = true ∧
          c₁.transmit now pkt e = .ok c') ∨
        ((c₁.canSend e && (c₁.usesTransport e && !c₁.stopping)) = false ∧
          (c' = c₁ ∨ c' = { c₁ with sendQueue := c₁.sendQueue ++ [pkt] })) := by
  unfold sendOrEnqueuePacket at h
  obtain ⟨e, he, h⟩ := bind_eq_ok.mp h
  refine ⟨e, endpointForPacket_eq_ok.mp he, ?_⟩
  dsimp only at h ⊢
  split at h
  · rename_i hcan
    split at h
    · rename_i hsend
      exact .inl ⟨hcan, hsend, h⟩
    · rename_i hsend
      exact .inr ⟨by simp [Bool.not_eq_true _ ▸ hsend], .inl (pure_eq_ok.mp h).symm⟩
  · rename_i hcan
    refine .inr ⟨by simp [Bool.not_eq_true _ ▸ hcan], ?_⟩
    have h := (pure_eq_ok.mp h).symm
    cases enqueue with
    | true => exact .inr h
    | false => exact .inl h

/-! ## Preparing a legacy packet -/

/-- The packet `sendLegacyPacket` makes, with the Signaling manager behind it. -/
def legacyPacket (c : Controller) (p : Packet) (endpoint : Endpoint) (stream signaling : OutgoingStream) :
    Packet × PacketManager :=
  let prepared := p.prepare stream.packetManager
  let numbered := prepareLegacySeq prepared.1 prepared.2 signaling.packetManager
  ({ numbered.1 with extraSignaling := ridingExtras c.currentExtras endpoint.id }, numbered.2)

/-- The controller `sendLegacyPacket` sends the packet from: `localSeq` is what
the serialization leaves of the legacy numbers. -/
def preparedLegacy (c : Controller) (p : Packet) (endpoint : Endpoint)
    (stream signaling : OutgoingStream) (localSeq : UInt32) : Controller :=
  let packet := (c.legacyPacket p endpoint stream signaling).1
  let c₁ := (c.setManager p.streamId.toNat (p.prepare stream.packetManager).2).setManager
    StreamId.signaling.toNat ((c.legacyPacket p endpoint stream signaling).2.setLocalSeq localSeq)
  { c₁ with
    currentExtras := rememberLegacySeqs endpoint.id packet.seq c.ver.peerVersion packet.legacySeq
      c.currentExtras
    preparedPackets := c.preparedPackets ++ [packet]
    preparedOccurrences := c.preparedOccurrences ++ [ridingOccurrences c.currentExtras endpoint.id]
    preparedUnder := c.preparedUnder ++ [(c.ver, c.state)] }

/-! ## The rule -/

/-- A relation that every act of sending obeys. -/
structure SendRule (R : Controller → Controller → Prop) : Prop where
  refl : ∀ c, R c c
  trans : ∀ {c c' c''}, R c c' → R c' c'' → R c c''
  connect : ∀ {c : Controller} {key e}, c.endpoints.at? key = some e → R c (c.connectIfNeeded key e)
  transmit : ∀ {c c' : Controller} {now pkt e}, c.transmit now pkt e = .ok c' → R c c'
  enqueue : ∀ (c : Controller) queue, R c { c with sendQueue := queue }
  reliably : ∀ (c : Controller) pkt retryInterval timeout tries,
    R c (c.sendPacketReliably pkt retryInterval timeout tries)
  noteSealing : ∀ (c : Controller) endpoint, R c (c.noteSealing endpoint)
  prepareNew : ∀ {c : Controller} {p : Packet} {endpointId stream},
    c.outgoingStreams[p.streamId.toNat]? = some stream → R c (c.prepareNew p endpointId stream).2
  prepareLegacy : ∀ {c : Controller} {p : Packet} {endpoint stream signaling localSeq},
    c.outgoingStreams[p.streamId.toNat]? = some stream →
    (c.setManager p.streamId.toNat (p.prepare stream.packetManager).2).outgoingStreams[
      StreamId.signaling.toNat]? = some signaling →
    R c (c.preparedLegacy p endpoint stream signaling localSeq)

namespace SendRule

variable {R : Controller → Controller → Prop}

/-- A relation that is implied by one that every act obeys. -/
theorem imp {S : Controller → Controller → Prop} (hR : SendRule R) (hS : ∀ {c c'}, R c c' → S c c')
    (htrans : ∀ {c c' c''}, S c c' → S c' c'' → S c c'') : SendRule S where
  refl := fun c => hS (hR.refl c)
  trans := htrans
  connect := fun he => hS (hR.connect he)
  transmit := fun h => hS (hR.transmit h)
  enqueue := fun c queue => hS (hR.enqueue c queue)
  reliably := fun c pkt retryInterval timeout tries =>
    hS (hR.reliably c pkt retryInterval timeout tries)
  noteSealing := fun c endpoint => hS (hR.noteSealing c endpoint)
  prepareNew := fun hs => hS (hR.prepareNew hs)
  prepareLegacy := fun hs hsig => hS (hR.prepareLegacy hs hsig)

theorem foldlM (hR : SendRule R) {α : Type} {f : Controller → α → Except Fault Controller}
    {as : List α} (hf : ∀ c, ∀ a ∈ as, ∀ c', f c a = .ok c' → R c c')
    (h : as.foldlM f c = .ok c') : R c c' :=
  foldlM_invariant (I := R c) (fun c₁ a ha c₂ h₁ h₂ => hR.trans h₁ (hf c₁ a ha c₂ h₂))
    (hR.refl c) h

theorem sendOrEnqueuePacket (hR : SendRule R) {pkt : PendingOutgoingPacket} {enqueue : Bool}
    (h : c.sendOrEnqueuePacket now pkt enqueue = .ok c') : R c c' := by
  obtain ⟨e, he, ⟨-, -, hsend⟩ | ⟨-, rfl | rfl⟩⟩ := sendOrEnqueuePacket_ok h
  · exact hR.trans (hR.connect he) (hR.transmit hsend)
  · exact hR.connect he
  · exact hR.trans (hR.connect he) (hR.enqueue ..)

/-- A sealed packet goes out at once, or reliably. -/
theorem send (hR : SendRule R) {p : Prop} [Decidable p] {endpoint : Endpoint}
    {pkt : PendingOutgoingPacket} {retryInterval timeout : Time} {tries : UInt8}
    (h : (if p then
        pure ((c.noteSealing endpoint).sendPacketReliably pkt retryInterval timeout tries)
      else (c.noteSealing endpoint).sendOrEnqueuePacket now pkt true) = .ok c') : R c c' := by
  apply hR.trans (hR.noteSealing c endpoint)
  split at h
  · rw [← pure_eq_ok.mp h]
    exact hR.reliably ..
  · exact hR.sendOrEnqueuePacket h

theorem sendPacket (hR : SendRule R) {pkt : OutgoingPacket} {retryInterval timeout : Time}
    {tries : UInt8} (h : c.sendPacket env now pkt retryInterval timeout tries = .ok c') :
    R c c' := by
  unfold Controller.sendPacket at h
  obtain ⟨endpoint, -, h⟩ := bind_eq_ok.mp h
  obtain ⟨stream, hs, h⟩ := bind_eq_ok.mp h
  rw [outgoingStream_eq_ok] at hs
  split at h
  · exact hR.trans (hR.prepareNew hs) (hR.send h)
  · unfold sendLegacyPacket at h
    obtain ⟨signaling, hsig, h⟩ := bind_eq_ok.mp h
    rw [outgoingStream_eq_ok] at hsig
    apply hR.trans (hR.prepareLegacy hs hsig)
    apply hR.foldlM ?_ h
    intro c₁ t _ c₂ h
    exact hR.send h

theorem trySendQueued (hR : SendRule R) {queue kept : List PendingOutgoingPacket}
    (h : trySendQueued now c queue = .ok (c', kept)) : R c c' := by
  induction queue generalizing c kept with
  | nil =>
      cases pure_eq_ok.mp h
      exact hR.refl _
  | cons pkt queue ih =>
      rw [Controller.trySendQueued] at h
      split at h
      · split at h
        · exact ih h
        · cases h
      · split at h
        · obtain ⟨c₁, h₁, h⟩ := bind_eq_ok.mp h
          exact hR.trans (hR.sendOrEnqueuePacket h₁) (ih h)
        · obtain ⟨⟨c₁, rest⟩, h₁, h⟩ := bind_eq_ok.mp h
          cases pure_eq_ok.mp h
          exact ih h₁

theorem trySendOutgoingPackets (hR : SendRule R)
    (h : c.trySendOutgoingPackets now = .ok c') : R c c' := by
  obtain ⟨⟨c₁, rest⟩, h₁, h⟩ := bind_eq_ok.mp h
  rw [← pure_eq_ok.mp h]
  exact hR.trans (hR.trySendQueued h₁) (hR.enqueue ..)

/-- The loop of `UpdateReliablePackets`, behind the update of the queue itself. -/
theorem updateReliablePackets (hR : SendRule R)
    (hqueue : ∀ packets (due : List ReliableOutgoingPacket), R c { c with
      reliablePackets := packets
      posted := c.posted ++ due.map fun q => (.updateReliablePackets, q.retryInterval) })
    (h : c.updateReliablePackets now = .ok c') : R c c' := by
  unfold Controller.updateReliablePackets at h
  apply hR.trans (hqueue _ _)
  apply hR.foldlM ?_ h
  intro c₁ q _ c₂ h
  exact hR.sendOrEnqueuePacket h

theorem answer (hR : SendRule R) {reply : Extra} (hextra : R c (c.sendExtra { d := reply } 0))
    (h : c.answer env now reply = .ok c') : R c c' := by
  unfold Controller.answer sendNopPacket at h
  exact hR.trans hextra (hR.sendPacket h)

theorem countUnacknowledged (hR : SendRule R)
    (hcount : ∀ n, R c { c with unacknowledgedIncomingPacketCount := n })
    (h : c.countUnacknowledged env now = .ok c') : R c c' := by
  unfold Controller.countUnacknowledged sendNopPacket at h
  dsimp only at h
  split at h
  · exact hR.trans (hcount _) (hR.sendPacket h)
  · rw [← pure_eq_ok.mp h]
    exact hcount _

theorem sendInit (hR : SendRule R)
    (hextra : R c (c.sendExtra { d := .init (c.initExtra env) } 0))
    (hdraw : ∀ {c : Controller} {s : OutgoingStream},
      c.outgoingStreams[StreamId.signaling.toNat]? = some s →
      R c (c.setManager StreamId.signaling.toNat s.packetManager.nextLocalSeq.2))
    (hstate : ∀ c : Controller, c.state = .waitInit → R c (c.setState .waitInitAck))
    (h : c.sendInit env now = .ok c') : R c c' := by
  unfold Controller.sendInit at h
  obtain ⟨signaling, hsig, h⟩ := bind_eq_ok.mp h
  rw [outgoingStream_eq_ok] at hsig
  obtain ⟨c₁, h₁, h⟩ := bind_eq_ok.mp h
  have hloop : R c c₁ := by
    apply hR.trans (hR.trans hextra (hdraw hsig))
    apply hR.foldlM ?_ h₁
    intro c₂ e _ c₃ h
    unfold sendInitTo at h
    split at h
    · rw [← pure_eq_ok.mp h]
      exact hR.refl c₂
    · exact hR.sendPacket h
  rw [← pure_eq_ok.mp h]
  split
  · rename_i hwait
    exact hR.trans hloop (hstate c₁ hwait)
  · exact hloop

end SendRule

end Controller

end Tgvoip
