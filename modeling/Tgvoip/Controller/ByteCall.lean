import Tgvoip.Controller.Sounding

/-!
# ByteCall — the two ends of a call, and the bytes between them

Two message threads with one key, and a network that loses, repeats and
reorders their datagrams and adds its own. Along every run in which the
datagrams of the other end fit the format and meet an end that expects
their header, a datagram is an answer of a relay, or it is handled as a
packet the other end prepared, or it is dropped: no packet is handled that
the other end did not prepare.
-/

namespace Tgvoip

open ByteReader Fallible

/-- The event brings no packet in, and tells no version. -/
def ThreadEvent.Own : ThreadEvent → Prop
  | .handler (.packet ..) => False
  | .handler (.sendExtra x _) => x.saidVersion = none
  | .datagram .. => False
  | _ => True

namespace MessageThread

open Controller

variable {env : Platform} {layer : Int} {callID : Vector UInt8 16} {t : MessageThread}
  {c' : Controller} {now : Time}

/-- **The thread speaks soundly** whatever it does of its own. -/
theorem handle_sounding {e : ThreadEvent} (hc : t.c.Sounding env layer callID) (he : e.Own)
    (h : t.handle env now e = .ok c') : c'.Sounding env layer callID := by
  cases e with
  | handler e =>
      refine hc.handle ⟨?_, ?_⟩ h
      · rintro p src rfl
        exact he.elim
      · rintro x endpointId rfl
        exact .of_silent he
  | datagram src address port packets => exact he.elim
  | relayPacket src bs here => exact parseRelayPacket_sounding hc h
  | posted i =>
      cases hdue : t.due now (.posted i) with
      | none =>
          simp only [handle, hdue] at h
          exact pure_eq_ok.mp h ▸ hc
      | some task =>
          simp only [handle, hdue] at h
          exact run_sounding hc h
  | initTimeout => exact pure_eq_ok.mp h ▸ hc.mute (ite_voice rfl)
  | updateAudioBitrate audioWorks =>
      by_cases hest : t.c.wasEstablished = true
      · simp only [handle, if_pos hest] at h
        exact updateAudioBitrate_sounding hc h
      · simp only [handle, if_neg hest] at h
        exact pure_eq_ok.mp h ▸ hc
  | sendRelayPings => exact sendRelayPings_sounding hc h
  | sendUdpPings => exact pure_eq_ok.mp h ▸ hc.mute rfl
  | evaluateUdpPingResults => exact hc.mute (evaluateUdpPingResults_voice h)
  | resetUdpAvailability => exact pure_eq_ok.mp h ▸ hc.mute rfl
  | addTCPRelays => exact hc.mute (addTCPRelays_voice h)
  | addIPv6Relays => exact pure_eq_ok.mp h ▸ hc.mute addIPv6Relays_voice
  | setNetworkType mobile itfName myIPv6 =>
      exact pure_eq_ok.mp h ▸ hc.mute (setNetworkType_voice mobile itfName myIPv6)
  | setMicMute mute inputWorks =>
      exact pure_eq_ok.mp h ▸ hc.mute (setMicMute_voice mute inputWorks)
  | deviceFails err => exact pure_eq_ok.mp h ▸ hc.mute rfl
  | closeSocket key => exact pure_eq_ok.mp h ▸ hc.mute rfl

/-- A datagram, at the time of the message thread's clock. -/
def arrive (env : Platform) (keys : CallKeys) (fresh : ℕ → Bytes) (t : MessageThread) (now : Time)
    (npacket : NetworkPacket) (src : Int64) (here : LocalInterface) :
    Except DatagramFault MessageThread := do
  let c ← t.c.processDatagram env keys fresh now npacket src here
  let posted := c.posted.drop t.c.posted.length
  pure { c := c, queue := t.queue ++ posted.map fun p => (p.1, now + p.2) }

end MessageThread

/-! ## The call -/

/-- The two ends. -/
abbrev ByteCall := Bool → MessageThread

inductive ByteEvent where
  | own (e : ThreadEvent)
  | arrives (npacket : NetworkPacket) (src : Int64) (here : LocalInterface)

structure ByteCallEvent where
  side : Bool
  now : Time
  event : ByteEvent

/-- What the ends are given: the platforms, and the key. -/
structure CallSetting where
  env : Bool → Platform
  keys : Bool → CallKeys
  fresh : ℕ → Bytes

/-- One key, and platforms that seal with it. -/
structure CallSetting.Shared (w : CallSetting) : Prop where
  lawful : ∀ side, (w.keys side).fns.Lawful
  keepsLength : ∀ side, (w.keys side).fns.KeepsLength
  mate : ∀ side, w.keys side = (w.keys !side).mate
  seals : ∀ side, (w.env side).SealsWith (w.keys side)

namespace ByteCall

open Controller

variable {w : CallSetting} {call call' : ByteCall} {e : ByteCallEvent} {layer : Int}
  {callID : Vector UInt8 16}

/-- An event at one end. -/
def stepEnd (w : CallSetting) (side : Bool) (t : MessageThread) (now : Time) :
    ByteEvent → Except DatagramFault MessageThread
  | .own e => onThread (t.step (w.env side) (now, e))
  | .arrives npacket src here =>
    t.arrive (w.env side) (w.keys side) w.fresh now npacket src here

def step (w : CallSetting) (call : ByteCall) (e : ByteCallEvent) : Except DatagramFault ByteCall := do
  let t ← stepEnd w e.side (call e.side) e.now e.event
  pure (Function.update call e.side t)

/-- Both ends speak soundly. -/
def Sounding (w : CallSetting) (layer : Int) (callID : Vector UInt8 16) (call : ByteCall) : Prop :=
  ∀ side, (call side).c.Sounding (w.env side) layer callID

/-! ## What arrives -/

/-- What was sealed for an endpoint comes from such a one: relays put the receiver's tag
in the place of the sender's, and without them the ends know the same of each other. -/
structure Meets (s : VersionInfo × Endpoint) (r : Controller) (ep : Endpoint) : Prop where
  relayed : s.2.isReflector = ep.isReflector
  tags : s.2.isReflector = true → s.2.peerTag.length = 16 ∧ ep.peerTag.length = 16
  views : s.2.isReflector = true ∨ (s.1.peerVersion = 0 ↔ r.ver.peerVersion = 0)

/-- A packet of the other end that can arrive: it fits the format, and meets whatever it
was sealed for. -/
structure Conveyed (env : Platform) (sender r : Controller) (ep : Endpoint)
    (pkt : PendingOutgoingPacket) : Prop where
  sendable : pkt.carried.Sendable r.ver
  whole : pkt.carried.eFlags &&& Packet.EFlags.fragmented = 0
  meets : ∀ s ∈ sender.sealings, SealHistory.SealedAs env sender.callID s pkt → Meets s r ep

/-- The datagram is one of the other end's. -/
def FromMate (sender : Controller) (ep : Endpoint) (npacket : NetworkPacket)
    (pkt : PendingOutgoingPacket) : Prop :=
  (∃ raw ∈ sender.rawSendQueue, raw.pkt = pkt) ∧ npacket.data = ep.forward pkt.packet

/-- What stands behind the peer tag is an answer of the relay. -/
def RelaysOwn (r : Controller) (ep : Endpoint) (npacket : NetworkPacket) (rest : Bytes) : Prop :=
  r.readPeerTag npacket.data ep = some rest ∧ 16 ≤ rest.length ∧ isRelayAnswer ep rest = true

/-- **The network**: the datagrams of the other end arrive where their packet fits and
their header is expected, any number of times and in any order; whatever else arrives is
not authentic, or a relay's. No version is told but by the handshake. -/
def Faithful (w : CallSetting) (call : ByteCall) (e : ByteCallEvent) : Prop :=
  match e.event with
  | .own own => own.Own
  | .arrives npacket src _ =>
    let r := (call e.side).c
    let sender := (call !e.side).c
    ∀ ep, r.endpoints.at? src = some ep →
      (∀ pkt, FromMate sender ep npacket pkt → Conveyed (w.env !e.side) sender r ep pkt) ∧
        ((∀ pkt, ¬ FromMate sender ep npacket pkt) → ∀ rest, r.readPeerTag npacket.data ep = some rest →
          RelaysOwn r ep npacket rest ∨ ¬ r.Authentic (w.keys e.side) rest)

/-- **What is made of a datagram**: it is an answer of the relay, or the packet the other
end prepared, or dropped, if it is nothing the other end sent, or too long. -/
def Understood (w : CallSetting) (call : ByteCall) (e : ByteCallEvent) : Prop :=
  ∀ npacket src here ep, e.event = .arrives npacket src here →
    let r := (call e.side).c
    let sender := (call !e.side).c
    let result := r.processDatagram (w.env e.side) (w.keys e.side) w.fresh e.now npacket src here
    r.endpoints.at? src = some ep →
      (∃ rest, RelaysOwn r ep npacket rest ∧ result = onThread (r.parseRelayPacket rest here src)) ∨
      (∃ pkt, FromMate sender ep npacket pkt ∧ pkt.carried ∈ sender.preparedPackets ∧
        result = onThread (r.receive (w.env e.side) e.now src npacket.address npacket.port
          [(pkt.carried.afterWire r.ver).toPacket])) ∨
      (result = .ok r ∧ ∀ pkt, FromMate sender ep npacket pkt →
        ∃ s ∈ sender.sealings, SealHistory.SealedAs (w.env !e.side) sender.callID s pkt ∧
          1500 < CallKeys.innerLength s.1 (pkt.carried.serialize s.1))

variable {env env' : Platform} {keys : CallKeys} {sender r : Controller} {ep : Endpoint}
  {pkt : PendingOutgoingPacket} {npacket : NetworkPacket} {s : VersionInfo × Endpoint}

theorem Meets.faces (h : Meets s r ep) (hnew : 110 ≤ layer) (hs : s.1.Known layer)
    (hr : r.ver.Known layer) : Faces s.1 s.2 r ep where
  layer := hs.1.trans hr.1.symm
  isNew := by
    simp only [VersionInfo.isNew, hs.1, hr.1]
    simp [hnew]
  format := by
    have hsame : r.ver.expects s.2 = r.ver.expects ep := by
      simp only [VersionInfo.expects, h.relayed]
    rw [← hsame]
    refine (hs.writes_eq_expects_iff hr s.2).mpr ?_
    rcases h.views with hrelay | hviews
    · exact .inr ⟨by omega, hrelay⟩
    · exact .inl hviews
  relayed := h.relayed
  tags := h.tags

/-- **A packet of the other end arrives**: it is taken for what it is, but for its length
and for what a relay's answers look like. -/
theorem Conveyed.delivered (fresh : ℕ → Bytes) (now : Time) {src : Int64} (here : LocalInterface)
    (hfns : keys.fns.Lawful) (hseals : env.SealsWith keys) (hnew : 110 ≤ layer)
    (hsender : sender.Sounding env layer callID) (hr : r.Sounding env' layer callID)
    (hfrom : FromMate sender ep npacket pkt) (hpkt : Conveyed env sender r ep pkt)
    (he : r.endpoints.at? src = some ep) :
    pkt.carried ∈ sender.preparedPackets ∧
      ∃ s ∈ sender.sealings, SealHistory.SealedAs env sender.callID s pkt ∧
      ∃ rest, r.readPeerTag npacket.data ep = some rest ∧ 16 ≤ rest.length ∧
        r.processDatagram env' keys.mate fresh now npacket src here =
          if isRelayAnswer ep rest then onThread (r.parseRelayPacket rest here src)
          else if CallKeys.innerLength s.1 (pkt.carried.serialize s.1) ≤ 1500 then
            onThread (r.receive env' now src npacket.address npacket.port
              [(pkt.carried.afterWire r.ver).toPacket])
          else .ok r := by
  obtain ⟨⟨raw, hraw, rfl⟩, hdata⟩ := hfrom
  obtain ⟨hcarried, s, hs, hsealed⟩ := hsender.sealing.raw raw hraw
  have hfaces := (hpkt.meets s hs hsealed).faces hnew (hsender.handshaking.speaks.sealings s hs)
    hr.handshaking.ver
  have hcall : r.callID = sender.callID := hr.sealing.callID.trans hsender.sealing.callID.symm
  obtain ⟨padding, hbytes⟩ := hseals s.1 (raw.pkt.carried.serialize s.1)
  have htag : r.readPeerTag npacket.data ep =
      some (keys.encrypt padding s.1 (raw.pkt.carried.serialize s.1)) := by
    rw [hdata, hsealed, ← hbytes]
    refine readPeerTag_forward hfaces ?_ _
    rw [hcall]
    rfl
  have hlen := CallKeys.le_length_encrypt keys padding s.1 (raw.pkt.carried.serialize s.1) hfns
  refine ⟨hcarried, s, hs, hsealed, _, htag, by omega, ?_⟩
  exact processDatagram_sealed hfns hr.sealing.useMTProto2 hfaces.isNew.1 hfaces.isNew.2
    hfaces.layer hfaces.isLegacyLegacy hpkt.sendable hpkt.whole he htag

theorem extras_afterWire {ver : VersionInfo} {p : Packet}
    (hp : ∀ x ∈ p.extraSignaling, x.d.TellsOwn) :
    ∀ x ∈ (p.afterWire ver).toPacket.extraSignaling, x.d.TellsOwn := by
  intro x hx
  obtain ⟨y, hy, rfl⟩ := List.mem_map.mp hx
  exact hp y hy

/-- **One datagram.** -/
theorem Sounding.understood (hw : w.Shared) (hnew : 110 ≤ layer)
    (hcall : Sounding w layer callID call) (he : Faithful w call e) : Understood w call e := by
  intro npacket src here ep hevent r sender result hat
  rw [Faithful, hevent] at he
  obtain ⟨hconveyed, hstray⟩ := he ep hat
  by_cases hrelay : ∃ rest, RelaysOwn r ep npacket rest
  · obtain ⟨rest, htag, hlen, hanswer⟩ := hrelay
    refine .inl ⟨rest, ⟨htag, hlen, hanswer⟩, ?_⟩
    show r.processDatagram _ _ _ _ _ _ _ = _
    rw [processDatagram_at hat, htag]
    simp only [hanswer, decide_eq_true (show rest.length ≥ 16 from hlen), Bool.and_self, if_true]
  by_cases hhandled : ∃ pkt, FromMate sender ep npacket pkt ∧ pkt.carried ∈ sender.preparedPackets ∧
      result = onThread (r.receive (w.env e.side) e.now src npacket.address npacket.port
        [(pkt.carried.afterWire r.ver).toPacket])
  · exact .inr (.inl hhandled)
  -- what is left was too long, or is not the other end's
  have htoolong : ∀ pkt, FromMate sender ep npacket pkt → result = .ok r ∧
      ∃ s ∈ sender.sealings, SealHistory.SealedAs (w.env !e.side) sender.callID s pkt ∧
        1500 < CallKeys.innerLength s.1 (pkt.carried.serialize s.1) := by
    intro pkt hfrom
    obtain ⟨hcarried, s, hs, hsealed, rest, htag, hlen, hresult⟩ :=
      (hconveyed pkt hfrom).delivered w.fresh e.now here
        (hw.lawful !e.side) (hw.seals !e.side) hnew (hcall !e.side) (hcall e.side) hfrom hat
    rw [← hw.mate e.side, if_neg fun hanswer => hrelay ⟨rest, htag, hlen, hanswer⟩] at hresult
    by_cases hfit : CallKeys.innerLength s.1 (pkt.carried.serialize s.1) ≤ 1500
    · rw [if_pos hfit] at hresult
      exact absurd ⟨pkt, hfrom, hcarried, hresult⟩ hhandled
    · rw [if_neg hfit] at hresult
      exact ⟨hresult, s, hs, hsealed, Nat.not_le.mp hfit⟩
  refine .inr (.inr ⟨?_, fun pkt hfrom => (htoolong pkt hfrom).2⟩)
  by_cases hfrom : ∃ pkt, FromMate sender ep npacket pkt
  · obtain ⟨pkt, hfrom⟩ := hfrom
    exact (htoolong pkt hfrom).1
  · refine processDatagram_unsealed (hw.keepsLength e.side) hat ?_
    intro rest htag
    have hother : ¬ RelaysOwn r ep npacket rest := fun h => hrelay ⟨rest, h⟩
    refine ⟨fun h => hother ⟨htag, h⟩, ?_⟩
    exact ((hstray fun pkt h => hfrom ⟨pkt, h⟩) rest htag).resolve_left hother

/-! ## Runs -/

theorem onThread_ok {α : Type} {x : Except Fault α} {a : α} : onThread x = .ok a ↔ x = .ok a := by
  cases x with
  | error fault => exact ⟨nofun, nofun⟩
  | ok b => exact ⟨fun h => congrArg _ (Except.ok.inj h), fun h => congrArg _ (Except.ok.inj h)⟩

theorem Sounding.update {t : MessageThread} {side : Bool} (hcall : Sounding w layer callID call)
    (ht : t.c.Sounding (w.env side) layer callID) :
    Sounding w layer callID (Function.update call side t) := by
  intro other
  by_cases hside : other = side
  · rw [hside, Function.update_self]
    exact ht
  · rw [Function.update_of_ne hside]
    exact hcall other

/-- **One step** keeps that both ends speak soundly. -/
theorem Sounding.step (hw : w.Shared) (hnew : 110 ≤ layer) (hcall : Sounding w layer callID call)
    (he : Faithful w call e) (h : step w call e = .ok call') : Sounding w layer callID call' := by
  have hunderstood := hcall.understood hw hnew he
  obtain ⟨side, now, event⟩ := e
  obtain ⟨t, ht, h⟩ := bind_eq_ok.mp h
  rw [← pure_eq_ok.mp h]
  apply hcall.update
  cases event with
  | own own =>
      obtain ⟨c, hc, ht⟩ := bind_eq_ok.mp (onThread_ok.mp ht)
      rw [← pure_eq_ok.mp ht]
      exact MessageThread.handle_sounding (hcall side) he hc
  | arrives npacket src here =>
      obtain ⟨c, hc, ht⟩ := bind_eq_ok.mp ht
      rw [← pure_eq_ok.mp ht]
      obtain ⟨ep, hat⟩ : ∃ ep, (call side).c.endpoints.at? src = some ep := by
        obtain ⟨ep, hep, -⟩ := bind_eq_ok.mp hc
        exact ⟨ep, endpointAt_eq_ok.mp (onThread_ok.mp hep)⟩
      have hcases := hunderstood npacket src here ep rfl hat
      dsimp only at hcases
      rw [hc] at hcases
      obtain ⟨rest, -, hrelay⟩ | ⟨pkt, -, hcarried, hreceived⟩ | ⟨hdropped, -⟩ := hcases
      · exact parseRelayPacket_sounding (hcall side) (onThread_ok.mp hrelay.symm)
      · have hextras := (hcall !side).handshaking.speaks.prepared pkt.carried hcarried
        refine receive_sounding ?_ (hcall side) (onThread_ok.mp hreceived.symm)
        intro p hp
        obtain rfl := List.mem_singleton.mp hp
        exact extras_afterWire hextras
      · exact Except.ok.inj hdropped ▸ hcall side

/-- Both ends before the call: in the new format, with one call id. -/
structure Started (layer : Int) (callID : Vector UInt8 16) (call : ByteCall) : Prop where
  isNew : 110 ≤ layer
  ver : ∀ side, (call side).c.ver = { peerVersion := 0, connectionMaxLayer := layer }
  callID : ∀ side, (call side).c.callID = callID
  useMTProto2 : ∀ side, (call side).c.useMTProto2 = true
  extras : ∀ side, (call side).c.currentExtras = []
  prepared : ∀ side, (call side).c.preparedPackets = []
  sealings : ∀ side, (call side).c.sealings = []
  reliable : ∀ side, (call side).c.reliablePackets = []
  queue : ∀ side, (call side).c.sendQueue = []
  raw : ∀ side, (call side).c.rawSendQueue = []

/-- An audio frame is sent. -/
def sendFrame : ByteCallEvent where
  side := false
  now := 0
  event := .own (.handler (.sendPacket
    { packet := { streamId := StreamId.audio, data := some [1, 2, 3] } } 0 0 0))

end ByteCall

end Tgvoip
