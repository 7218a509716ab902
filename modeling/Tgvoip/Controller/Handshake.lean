import Tgvoip.Controller.Crypto
import Tgvoip.Controller.PacketFrame
import Tgvoip.Packets.Cascade

/-!
# Handshake — the formats two controllers use while they learn of each other

How a packet is sealed (`encryptPacket`, `PreparePacket`) and how it is
expected (`decryptPacket`, `ProcessIncomingPacket`) follow from `ver`, that
is from the layer and from the peer's protocol version, which is zero until
an init or an init ack arrives. `Speaks` says that whatever a controller
prepares tells this program's own version; so each side knows of the other
nothing or the right version, and the formats agree exactly when both know
or neither does, but for relayed packets from layer 92 on.
-/

namespace Tgvoip

open ByteReader Fallible

/-! ## The formats -/

/-- What a controller's view of its peer decides about a datagram: whether the
short format is used for what is encrypted, and whether the call id stands in
front. -/
structure WireFormat where
  short : Bool
  callID : Bool
  deriving DecidableEq, Repr

namespace VersionInfo

/-- The choices of `encryptPacket` and `PreparePacket`. -/
def writes (ver : VersionInfo) (ep : Endpoint) : WireFormat where
  short := !ver.isLegacyLegacy
  callID := !ep.isReflector && ver.peerVersion < 9

/-- The choices of `decryptPacket` and `ProcessIncomingPacket`. -/
def expects (ver : VersionInfo) (srcEndpoint : Endpoint) : WireFormat where
  short := !ver.isLegacyLegacy
  callID := (ver.peerVersion < 9 || srcEndpoint.isReflector) && !srcEndpoint.isReflector

end VersionInfo

theorem CryptoState.shortFormat_eq_writes (s : CryptoState) (ep : Endpoint) :
    s.shortFormat = (s.ver.writes ep).short := rfl

theorem CryptoState.shortFormat_eq_expects (s : CryptoState) (srcEndpoint : Endpoint) :
    s.shortFormat = (s.ver.expects srcEndpoint).short := rfl

namespace Controller

/-- The peer tag at the start of a datagram (`ProcessIncomingPacket`): what is
behind it, unless the datagram is refused. -/
def readPeerTag (c : Controller) (buffer : Bytes) (srcEndpoint : Endpoint) : Option Bytes :=
  if c.ver.peerVersion < 9 || srcEndpoint.isReflector then
    if buffer.length < 16 then none
    else if buffer.take 16 ≠
        if srcEndpoint.isReflector then srcEndpoint.peerTag else c.callID.toList then none
    else some (buffer.drop 16)
  else some buffer

theorem preparePacket_eq_writes (env : Platform) (c : Controller) (data : Bytes) (ep : Endpoint)
    (pktInfo : CongestionControlPacket) (carried : Packet) :
    (c.preparePacket env data ep pktInfo carried).packet =
      (if ep.isReflector then ep.peerTag
        else if (c.ver.writes ep).callID then c.callID.toList else []) ++
      if data.isEmpty then [] else env.encryptPacket c.ver data := by
  unfold preparePacket VersionInfo.writes
  cases ep.isReflector with
  | true => rfl
  | false => simp

theorem readPeerTag_eq_expects (c : Controller) (buffer : Bytes) (srcEndpoint : Endpoint)
    (hsrc : srcEndpoint.isReflector = false) :
    c.readPeerTag buffer srcEndpoint =
      if (c.ver.expects srcEndpoint).callID then
        if buffer.length < 16 then none
        else if buffer.take 16 ≠ c.callID.toList then none
        else some (buffer.drop 16)
      else some buffer := by
  simp [readPeerTag, VersionInfo.expects, hsrc]

end Controller

/-! ## What is known, and what is told -/

/-- Whatever version the extra tells is this program's. -/
def Extra.TellsOwn (x : Extra) : Prop := ∀ v ∈ x.saidVersion, v = protocolVersion

/-- The layer, and the peer's version as far as it is known. -/
def VersionInfo.Known (layer : Int) (ver : VersionInfo) : Prop :=
  ver.connectionMaxLayer = layer ∧ (ver.peerVersion = 0 ∨ ver.peerVersion = 10)

theorem VersionInfo.Known.learn {layer : Int} {ver : VersionInfo} {x : Extra} {v : UInt32}
    (h : ver.Known layer) (hx : x.TellsOwn) (hv : v ∈ x.saidVersion) :
    ({ ver with peerVersion := v.toInt32.toInt } : VersionInfo).Known layer := by
  refine ⟨h.1, .inr ?_⟩
  rw [hx v hv]
  rfl

/-- Two views of the same layer lead to the same format where both know the
peer or neither does, and for relayed packets from layer 92 on. -/
theorem VersionInfo.Known.writes_eq_expects_iff {layer : Int} {v w : VersionInfo}
    (hv : v.Known layer) (hw : w.Known layer) (ep : Endpoint) :
    v.writes ep = w.expects ep ↔
      (v.peerVersion = 0 ↔ w.peerVersion = 0) ∨ (92 ≤ layer ∧ ep.isReflector = true) := by
  obtain ⟨pv, lv⟩ := v
  obtain ⟨pw, lw⟩ := w
  obtain ⟨rfl, hpv⟩ := hv
  obtain ⟨rfl, hpw⟩ := hw
  dsimp only at hpv hpw
  simp only [VersionInfo.writes, VersionInfo.expects, VersionInfo.isLegacyLegacy,
    WireFormat.mk.injEq]
  rcases hpv with rfl | rfl <;> rcases hpw with rfl | rfl <;> cases ep.isReflector <;> simp

/-- What is prepared tells this program's version, and is sealed under what is
known of the peer. -/
structure Transport.Speaks (layer : Int) (t : Transport) : Prop where
  extras : ∀ x ∈ t.currentExtras, x.data.d.TellsOwn
  prepared : ∀ p ∈ t.preparedPackets, ∀ x ∈ p.extraSignaling, x.d.TellsOwn
  sealings : ∀ s ∈ t.sealings, s.1.Known layer

namespace Controller

variable {env : Platform} {c c' c₁ : Controller} {now : Time} {src : Int64} {p : Packet}
  {layer : Int}

/-- The version is known as far as it can be, and told as it is. -/
structure Handshaking (layer : Int) (c : Controller) : Prop where
  ver : c.ver.Known layer
  speaks : c.Speaks layer

/-! ## Sending -/

/-- The queues are not looked at. -/
theorem Handshaking.same (h : c.Handshaking layer) (hver : c'.ver = c.ver)
    (hextras : c'.currentExtras = c.currentExtras)
    (hprepared : c'.preparedPackets = c.preparedPackets) (hsealings : c'.sealings = c.sealings) :
    c'.Handshaking layer where
  ver := hver ▸ h.ver
  speaks := by
    refine ⟨?_, ?_, ?_⟩
    · rw [hextras]
      exact h.speaks.extras
    · rw [hprepared]
      exact h.speaks.prepared
    · rw [hsealings]
      exact h.speaks.sealings

theorem connectIfNeeded_handshaking (hc : c.Handshaking layer) (key : Int64) (e : Endpoint) :
    (c.connectIfNeeded key e).Handshaking layer := by
  unfold connectIfNeeded
  split
  · exact hc.same rfl rfl rfl rfl
  · exact hc

theorem sendPacketReliably_handshaking {pkt : PendingOutgoingPacket}
    {retryInterval timeout : Time} {tries : UInt8} (hc : c.Handshaking layer) :
    (c.sendPacketReliably pkt retryInterval timeout tries).Handshaking layer := by
  unfold sendPacketReliably
  dsimp only
  split
  · exact hc.same rfl rfl rfl rfl
  · exact hc.same rfl rfl rfl rfl

theorem noteSealing_handshaking (hc : c.Handshaking layer) (ep : Endpoint) :
    (c.noteSealing ep).Handshaking layer := by
  refine ⟨hc.ver, hc.speaks.extras, hc.speaks.prepared, ?_⟩
  intro s hs
  rcases List.mem_append.mp hs with hs | hs
  · exact hc.speaks.sealings s hs
  · obtain rfl := List.mem_singleton.mp hs
    exact hc.ver

/-- What a packet takes along is pending. -/
theorem mem_ridingExtras {xs : List UnacknowledgedExtraData} {endpointId : Int64} {x : WrappedExtra}
    (h : x ∈ ridingExtras xs endpointId) : ∃ y ∈ xs, y.data = x := by
  obtain ⟨y, hy, rfl⟩ := List.mem_map.mp h
  exact ⟨y, List.mem_of_mem_filter hy, rfl⟩

theorem mem_rememberSeq {xs : List UnacknowledgedExtraData} {endpointId : Int64} {seq : UInt32}
    {x : UnacknowledgedExtraData} (h : x ∈ rememberSeq endpointId seq xs) :
    ∃ y ∈ xs, y.data = x.data := by
  obtain ⟨y, hy, rfl⟩ := List.mem_map.mp h
  refine ⟨y, hy, ?_⟩
  split <;> rfl

theorem mem_rememberLegacySeqs {xs : List UnacknowledgedExtraData} {endpointId : Int64}
    {seq legacySeq : UInt32} {peerVersion : Int} {x : UnacknowledgedExtraData}
    (h : x ∈ rememberLegacySeqs endpointId seq peerVersion legacySeq xs) :
    ∃ y ∈ xs, y.data = x.data := by
  induction xs generalizing legacySeq with
  | nil => cases h
  | cons y ys ih =>
      have hrest : ∀ legacySeq, x ∈ rememberLegacySeqs endpointId seq peerVersion legacySeq ys →
          ∃ z ∈ y :: ys, z.data = x.data := by
        intro legacySeq h
        obtain ⟨z, hz, hdata⟩ := ih h
        exact ⟨z, List.mem_cons_of_mem y hz, hdata⟩
      rw [rememberLegacySeqs] at h
      have hhead : ∀ legacySeq z, z.data = y.data →
          x ∈ z :: rememberLegacySeqs endpointId seq peerVersion legacySeq ys →
          ∃ z ∈ y :: ys, z.data = x.data := by
        intro legacySeq z hz h
        rcases List.mem_cons.mp h with heq | h
        · exact ⟨y, List.mem_cons_self, heq ▸ hz.symm⟩
        · exact hrest legacySeq h
      split_ifs at h
      · exact hhead legacySeq (y.remember seq) rfl h
      · exact hhead (legacySeq + 1) (y.remember legacySeq) rfl h
      · exact hhead legacySeq y rfl h

/-- A packet is prepared: what it takes along is noted, and remembers it. -/
theorem Handshaking.prepare (hc : c.Handshaking layer) {p : Packet} {endpointId : Int64}
    (hver : c'.ver = c.ver)
    (hextras : ∀ x ∈ c'.currentExtras, ∃ y ∈ c.currentExtras, y.data = x.data)
    (hp : p.extraSignaling = ridingExtras c.currentExtras endpointId)
    (hprepared : c'.preparedPackets = c.preparedPackets ++ [p])
    (hsealings : c'.sealings = c.sealings) : c'.Handshaking layer where
  ver := hver ▸ hc.ver
  speaks := by
    refine ⟨?_, ?_, hsealings ▸ hc.speaks.sealings⟩
    · intro x hx
      obtain ⟨y, hy, hdata⟩ := hextras x hx
      exact hdata ▸ hc.speaks.extras y hy
    · intro q hq x hx
      rw [hprepared] at hq
      rcases List.mem_append.mp hq with hq | hq
      · exact hc.speaks.prepared q hq x hx
      · obtain rfl := List.mem_singleton.mp hq
        rw [hp] at hx
        obtain ⟨y, hy, rfl⟩ := mem_ridingExtras hx
        exact hc.speaks.extras y hy

theorem handshaking_rule (layer : Int) :
    SendRule fun c c' => c.Handshaking layer → c'.Handshaking layer where
  refl := fun _ hc => hc
  trans := fun h h' hc => h' (h hc)
  connect := fun _ hc => connectIfNeeded_handshaking hc ..
  transmit := by
    intro c c' now pkt e h hc
    obtain ⟨s, pm, -, -, -, rfl⟩ := transmit_ok h
    exact hc.same rfl rfl rfl rfl
  enqueue := fun _ _ hc => hc.same rfl rfl rfl rfl
  reliably := fun _ _ _ _ _ => sendPacketReliably_handshaking
  noteSealing := fun _ endpoint hc => noteSealing_handshaking hc endpoint
  prepareNew := fun _ hc => hc.prepare rfl (fun _ => mem_rememberSeq) rfl rfl rfl
  prepareLegacy := fun _ _ hc => hc.prepare rfl (fun _ => mem_rememberLegacySeqs) rfl rfl rfl

theorem sendExtra_handshaking (hc : c.Handshaking layer) {x : Extra} (hx : x.TellsOwn)
    (endpointId : Int64) : (c.sendExtra { d := x } endpointId).Handshaking layer := by
  have hextras : ∀ y ∈ (c.sendExtra { d := x } endpointId).currentExtras, y.data.d.TellsOwn := by
    intro y hy
    unfold sendExtra at hy
    split at hy
    · rcases ListEntry.mem_modify hy with hy | ⟨z, -, rfl⟩
      · exact hc.speaks.extras y hy
      · exact hx
    · rcases List.mem_append.mp hy with hy | hy
      · exact hc.speaks.extras y hy
      · obtain rfl := List.mem_singleton.mp hy
        exact hx
  have hsame : (c.sendExtra { d := x } endpointId).ver = c.ver ∧
      (c.sendExtra { d := x } endpointId).preparedPackets = c.preparedPackets ∧
      (c.sendExtra { d := x } endpointId).sealings = c.sealings := by
    unfold sendExtra
    split <;> exact ⟨rfl, rfl, rfl⟩
  obtain ⟨hver, hprepared, hsealings⟩ := hsame
  refine ⟨hver ▸ hc.ver, hextras, ?_, ?_⟩
  · rw [hprepared]
    exact hc.speaks.prepared
  · rw [hsealings]
    exact hc.speaks.sealings

theorem initExtra_tellsOwn (env : Platform) (c : Controller) :
    (Extra.init (c.initExtra env)).TellsOwn := by
  intro v hv
  obtain rfl := Option.mem_some_iff.mp hv
  rfl

theorem sendInit_handshaking (hc : c.Handshaking layer) (h : c.sendInit env now = .ok c') :
    c'.Handshaking layer := by
  apply (handshaking_rule layer).sendInit ?_ ?_ ?_ h hc
  · intro hc
    exact sendExtra_handshaking hc (initExtra_tellsOwn env c) 0
  · intro c s _ hc
    exact hc.same rfl rfl rfl rfl
  · intro c _ hc
    exact hc.same rfl rfl rfl rfl

/-! ## Receiving -/

/-- The version of the peer is learned from extras that tell this program's. -/
theorem Handshaking.learn (hc : c.Handshaking layer) {x : Extra} (hx : x.TellsOwn)
    (hver : c'.ver = c.ver ∨
      ∃ v ∈ x.saidVersion, c'.ver = { c.ver with peerVersion := v.toInt32.toInt })
    (hspeaks : c'.Speaks layer) : c'.Handshaking layer where
  ver := by
    rcases hver with hver | ⟨v, hv, hver⟩
    · exact hver ▸ hc.ver
    · exact hver ▸ hc.ver.learn hx hv
  speaks := hspeaks

theorem Prepared.handshaking {x : Extra} (h : Prepared env x c c₁) (hx : x.TellsOwn)
    (hc : c.Handshaking layer) : c₁.Handshaking layer := by
  refine hc.learn hx h.ver ?_
  rcases h.streams with h | ⟨d, -, -, -, h⟩
  · exact h ▸ hc.speaks
  · rw [h]
    exact { hc.speaks with }

/-- The replies tell this program's version, or none. -/
theorem reply_tellsOwn (c : Controller) (x : Extra) : (c.reply x).TellsOwn := by
  intro v hv
  cases x with
  | init d =>
      obtain rfl := Option.mem_some_iff.mp hv
      rfl
  | _ => cases hv

theorem dispatchExtra_handshaking {x : Extra} (hx : x.TellsOwn) (hc : c.Handshaking layer)
    (h : c.dispatchExtra env now x src = .ok c') : c'.Handshaking layer := by
  rcases dispatchExtra_ok h with ⟨-, hquiet⟩ | ⟨-, c₁, c₂, h₁, h₂, h₃⟩
  · exact hc.learn hx hquiet.ver (hquiet.transport ▸ hc.speaks)
  · have hanswered := (handshaking_rule layer).answer
      (fun hc₁ => sendExtra_handshaking hc₁ (reply_tellsOwn c₁ x) 0) h₂ (h₁.handshaking hx hc)
    have hsame := congrArg Transport.currentExtras h₃.transport
    exact hanswered.same h₃.ver hsame (congrArg Transport.preparedPackets h₃.transport)
      (congrArg Transport.sealings h₃.transport)

theorem mem_freshExtras {xs : List WrappedExtra} {x : Extra} (h : x ∈ c.freshExtras env xs) :
    ∃ y ∈ xs, y.d = x := by
  induction xs generalizing c with
  | nil => cases h
  | cons y ys ih =>
      rw [freshExtras] at h
      split at h
      · obtain ⟨z, hz, rfl⟩ := ih h
        exact ⟨z, List.mem_cons_of_mem y hz, rfl⟩
      · rcases List.mem_cons.mp h with rfl | h
        · exact ⟨y, List.mem_cons_self, rfl⟩
        · obtain ⟨z, hz, rfl⟩ := ih h
          exact ⟨z, List.mem_cons_of_mem y hz, rfl⟩

theorem processExtras_handshaking {xs : List WrappedExtra} (hxs : ∀ x ∈ xs, x.d.TellsOwn)
    (hc : c.Handshaking layer) (h : c.processExtras env now src xs = .ok c') :
    c'.Handshaking layer := by
  refine (processExtras_rule (I := fun c rest => c.Handshaking layer ∧ ∀ x ∈ rest, x.TellsOwn)
    ?_ ?_ ⟨hc, ?_⟩ h).1
  · intro c x rest hc
    exact ⟨hc.1.same rfl rfl rfl rfl, hc.2⟩
  · intro c x rest c' hc hx
    exact ⟨dispatchExtra_handshaking (hc.2 x List.mem_cons_self) hc.1 hx,
      fun y hy => hc.2 y (List.mem_cons_of_mem x hy)⟩
  · intro x hx
    obtain ⟨y, hy, rfl⟩ := mem_freshExtras hx
    exact hxs y hy

theorem AckStage.handshaking (hc : c.Handshaking layer)
    {s : OutgoingStream} (hs : c.outgoingStreams[p.managerIndex.toNat]? = some s)
    (h : AckStage now p s.packetManager c c') : c'.Handshaking layer := by
  have hver := (h.frame hs).ver
  obtain ⟨-, rfl⟩ | ⟨-, c₀, htransport, -, rfl⟩ := h
  · exact hc
  · refine ⟨hver ▸ hc.ver, ?_, ?_, ?_⟩
    · intro x hx
      have hx := List.mem_of_mem_filter hx
      rw [show (c₀.setManager _ _).currentExtras = c₀.currentExtras from rfl, htransport] at hx
      exact hc.speaks.extras x hx
    · show ∀ q ∈ c₀.preparedPackets, _
      rw [htransport]
      exact hc.speaks.prepared
    · show ∀ q ∈ c₀.sealings, _
      rw [htransport]
      exact hc.speaks.sealings

theorem processIncomingPacket_handshaking (hp : ∀ x ∈ p.extraSignaling, x.d.TellsOwn)
    (hc : c.Handshaking layer) (h : c.processIncomingPacket env now p src = .ok c') :
    c'.Handshaking layer := by
  obtain ⟨s, hs, ⟨-, rfl⟩ | ⟨-, h⟩⟩ := processIncomingPacket_ok h
  · exact hc
  · obtain ⟨c₁, c₂, c₃, c₄, t, hstages⟩ := processFreshPacket_ok h
    have harrived : (c.arrived s p).Handshaking layer := hc.same rfl rfl rfl rfl
    have hc₂ := AckStage.handshaking (processExtras_handshaking hp harrived hstages.extras)
      hstages.stream hstages.acks
    have hc₃ : c₃.Handshaking layer :=
      ⟨hstages.endpoint.2.ver ▸ hc₂.ver, hstages.endpoint.1 ▸ hc₂.speaks⟩
    have hc₄ := (handshaking_rule layer).countUnacknowledged
      (fun _ hc => hc.same rfl rfl rfl rfl) hstages.counts hc₃
    exact ⟨hstages.notes.frame.ver ▸ hc₄.ver, hstages.notes.transport ▸ hc₄.speaks⟩

/-- Whatever the event brings in tells this program's version, or none. -/
structure TellsOwn (e : Event) : Prop where
  packet : ∀ p src, e = .packet p src → ∀ x ∈ p.extraSignaling, x.d.TellsOwn
  extra : ∀ x endpointId, e = .sendExtra x endpointId → x.TellsOwn

theorem step_handshaking {e : Time × Event} (hc : c.Handshaking layer) (he : TellsOwn e.2)
    (h : c.step env e = .ok c') : c'.Handshaking layer := by
  obtain ⟨now, e⟩ := e
  cases e with
  | packet p src => exact processIncomingPacket_handshaking (he.packet p src rfl) hc h
  | sendPacket pkt retryInterval timeout tries => exact (handshaking_rule layer).sendPacket h hc
  | sendNopPacket endpointId => exact (handshaking_rule layer).sendPacket h hc
  | sendExtra x endpointId =>
      rw [← pure_eq_ok.mp h]
      exact sendExtra_handshaking hc (he.extra x endpointId rfl) endpointId
  | sendInit => exact sendInit_handshaking hc h
  | updateReliablePackets =>
      exact (handshaking_rule layer).updateReliablePackets
        (fun _ _ hc => hc.same rfl rfl rfl rfl) h hc
  | trySendOutgoingPackets => exact (handshaking_rule layer).trySendOutgoingPackets h hc
  | udpSocket ready =>
      rw [← pure_eq_ok.mp h]
      exact hc.same rfl rfl rfl rfl
  | tcpSocket key ready =>
      rw [← pure_eq_ok.mp h]
      exact hc.same rfl rfl rfl rfl

/-- Only what packets are sealed for is added to the history. -/
def newSealings (c c' : Controller) : List (VersionInfo × Endpoint) :=
  c'.sealings.drop c.sealings.length

end Controller

/-! ## The two ends of a call -/

/-- The two controllers of a call. -/
abbrev Call := Bool → Controller

/-- An event at one of the two ends. -/
structure CallEvent where
  side : Bool
  now : Time
  event : Event

namespace Call

open Controller

variable {env : Bool → Platform} {call call' : Call} {e : CallEvent} {layer : Int}

def step (env : Bool → Platform) (call : Call) (e : CallEvent) : Except Fault Call := do
  let c ← (call e.side).step (env e.side) (e.now, e.event)
  pure (Function.update call e.side c)

/-- Both ends before the call. -/
structure Started (layer : Int) (call : Call) : Prop where
  ver : ∀ side, (call side).ver = { peerVersion := 0, connectionMaxLayer := layer }
  extras : ∀ side, (call side).currentExtras = []
  prepared : ∀ side, (call side).preparedPackets = []
  sealings : ∀ side, (call side).sealings = []

/-- A version arrives only if a packet the other end prepared tells it, and
init messages are sent by `SendInit` and the handlers only. -/
structure Honest (call : Call) (e : CallEvent) : Prop where
  packet : ∀ p src, e.event = .packet p src → ∀ x ∈ p.extraSignaling, ∀ v ∈ x.d.saidVersion,
    ∃ q ∈ (call !e.side).preparedPackets, ∃ y ∈ q.extraSignaling, v ∈ y.d.saidVersion
  extra : ∀ x endpointId, e.event = .sendExtra x endpointId → x.saidVersion = none

/-- **Every packet is sealed in the format the other end expects** of such an
endpoint at that moment. -/
def FormatsAgree (env : Bool → Platform) (call : Call) (e : CallEvent) : Prop :=
  ∀ call', call.step env e = .ok call' →
    ∀ s ∈ (call e.side).newSealings (call' e.side),
      s.1.writes s.2 = (call !e.side).ver.expects s.2

/-- Where a packet is sealed, both ends know the other's version or neither
does; or the layer is 92 at least, and a relay is between them. -/
def ViewsAgree (env : Bool → Platform) (layer : Int) (call : Call) (e : CallEvent) : Prop :=
  ∀ call', call.step env e = .ok call' →
    ∀ s ∈ (call e.side).newSealings (call' e.side),
      (s.1.peerVersion = 0 ↔ (call !e.side).ver.peerVersion = 0) ∨
        (92 ≤ layer ∧ s.2.isReflector = true)

def Handshaking (layer : Int) (call : Call) : Prop := ∀ side, (call side).Handshaking layer

theorem Started.handshaking (h : Started layer call) : Handshaking layer call := by
  intro side
  refine ⟨⟨by rw [h.ver], .inl (by rw [h.ver])⟩, ?_, ?_, ?_⟩
  · simp [h.extras side]
  · simp [h.prepared side]
  · simp [h.sealings side]

theorem step_ok (h : call.step env e = .ok call') :
    ∃ c, (call e.side).step (env e.side) (e.now, e.event) = .ok c ∧
      call' = Function.update call e.side c := by
  obtain ⟨c, hc, h⟩ := bind_eq_ok.mp h
  exact ⟨c, hc, (pure_eq_ok.mp h).symm⟩

/-- What arrives was told by the other end, that is this program's version. -/
theorem Honest.tellsOwn (hcall : Handshaking layer call) (he : Honest call e) :
    TellsOwn e.event where
  packet := by
    intro p src hp x hx v hv
    obtain ⟨q, hq, y, hy, hv⟩ := he.packet p src hp x hx v hv
    exact (hcall !e.side).speaks.prepared q hq y hy v hv
  extra := by
    intro x endpointId hx v hv
    rw [he.extra x endpointId hx] at hv
    cases hv

theorem Handshaking.step (hcall : Handshaking layer call) (he : Honest call e)
    (h : call.step env e = .ok call') : Handshaking layer call' := by
  obtain ⟨c, hstep, rfl⟩ := step_ok h
  have hc := step_handshaking (hcall e.side) (he.tellsOwn hcall) hstep
  intro side
  by_cases hside : side = e.side
  · rw [hside, Function.update_self]
    exact hc
  · rw [Function.update_of_ne hside]
    exact hcall side

/-- At each step the formats agree exactly where the views do. -/
theorem Handshaking.formatsAgree_iff (hcall : Handshaking layer call) (he : Honest call e) :
    FormatsAgree env call e ↔ ViewsAgree env layer call e := by
  unfold FormatsAgree ViewsAgree
  refine forall_congr' fun call' => forall_congr' fun h => forall_congr' fun s =>
    forall_congr' fun hs => ?_
  have hknown := ((hcall.step he h) e.side).speaks.sealings s (List.mem_of_mem_drop hs)
  exact hknown.writes_eq_expects_iff (hcall !e.side).ver s.2

/-- **Sent and expected formats agree in a run** exactly if every packet of it
is sealed while both ends know the other's version, or neither does, but for
relayed packets from layer 92 on. -/
theorem formats_agree_iff {events : List CallEvent} (hstart : Started layer call)
    (hhonest : AlongOk (step env) Honest call events) :
    AlongOk (step env) (FormatsAgree env) call events ↔
      AlongOk (step env) (ViewsAgree env layer) call events :=
  hhonest.congr (I := Handshaking layer) (fun _ _ hcall he => hcall.formatsAgree_iff he)
    (fun _ _ _ hcall he hstep => hcall.step he hstep) hstart.handshaking

/-! ## On fixed inputs -/

/-- The two ends of a call over one UDP relay. -/
def sample (layer : Int) : Call := fun _ =>
  { Controller.new samplePlatform {} (Vector.replicate 16 0) layer with
    endpoints := [(1, { id := 1, type := .udpRelay })], currentEndpoint := 1, useMTProto2 := true }

theorem sample_started (layer : Int) : (sample layer).Started layer where
  ver := fun _ => rfl
  extras := fun _ => rfl
  prepared := fun _ => rfl
  sealings := fun _ => rfl

theorem honest_sendInit (side : Bool) (now : Time) : Honest call ⟨side, now, .sendInit⟩ :=
  ⟨nofun, nofun⟩

/-- Both ends send their init, and know nothing of each other. -/
def bothInit : List CallEvent := [⟨false, 0, .sendInit⟩, ⟨true, 0, .sendInit⟩]

theorem formats_agree_bothInit :
    AlongOk (step fun _ => samplePlatform) (FormatsAgree fun _ => samplePlatform) (sample 74)
      bothInit := by
  have hhonest : AlongOk (step fun _ => samplePlatform) Honest (sample 74) bothInit :=
    alongOk_cons.mpr ⟨honest_sendInit .., fun _ _ => alongOk_cons.mpr
      ⟨honest_sendInit .., fun _ _ => trivial⟩⟩
  refine (formats_agree_iff (sample_started 74) hhonest).mpr ?_
  obtain ⟨call₁, call₂, h₁, h₂, hviews₁, hviews₂, hver₁, hver₂⟩ : ∃ call₁ call₂,
      step (fun _ => samplePlatform) (sample 74) ⟨false, 0, .sendInit⟩ = .ok call₁ ∧
      step (fun _ => samplePlatform) call₁ ⟨true, 0, .sendInit⟩ = .ok call₂ ∧
      ((sample 74 false).newSealings (call₁ false)).map (·.1.peerVersion) = [0] ∧
      ((call₁ true).newSealings (call₂ true)).map (·.1.peerVersion) = [0] ∧
      (sample 74 true).ver.peerVersion = 0 ∧ (call₁ false).ver.peerVersion = 0 :=
    ⟨_, _, rfl, rfl, rfl, rfl, rfl, rfl⟩
  have hviews : ∀ {call call' : Call} {e : CallEvent},
      step (fun _ => samplePlatform) call e = .ok call' →
      ((call e.side).newSealings (call' e.side)).map (·.1.peerVersion) = [0] →
      (call !e.side).ver.peerVersion = 0 → ViewsAgree (fun _ => samplePlatform) 74 call e := by
    intro call call' e h hseals hver call'' h' s hs
    obtain rfl := Except.ok.inj (h.symm.trans h')
    have hmem := List.mem_map_of_mem (f := (·.1.peerVersion)) hs
    rw [hseals] at hmem
    exact .inl ⟨fun _ => hver, fun _ => List.mem_singleton.mp hmem⟩
  refine alongOk_cons.mpr ⟨hviews h₁ hviews₁ hver₁, fun call' h => ?_⟩
  obtain rfl := Except.ok.inj (h₁.symm.trans h)
  exact alongOk_cons.mpr ⟨hviews h₂ hviews₂ hver₂, fun _ _ => trivial⟩

/-- The payloads of the datagrams that a controller has prepared. -/
def payloads (env : Platform) (c : Controller) : List Bytes :=
  (c.preparedPackets.zip c.preparedUnder).flatMap fun q =>
    if q.2.1.isNew then [q.1.serialize q.2.1]
    else
      ((q.1.serializeLegacy { callID := c.callID, state := q.2.2, random := env.random }
        q.2.1).1).map Prod.fst

/-- What arrives was parsed from such a payload of the other end. -/
def Carried (env : Bool → Platform) (call : Call) (e : CallEvent) : Prop :=
  ∀ p src, e.event = .packet p src →
    ∃ payload ∈ payloads (env !e.side) (call !e.side), ∃ fresh packet,
      IncomingPacket.parseCascade fresh (call e.side).ver payload = .ok packet ∧
        p ∈ packet.toPacket :: packet.otherPackets

/-- The two ends of a call in the new format, with a relay and a path from one to the other. -/
def pathSample : Call := fun _ =>
  { Controller.new samplePlatform {} (Vector.replicate 16 0) 110 with
    endpoints := [(1, { id := 1, type := .udpRelay }),
      (EndpointID.p2pv4, { id := EndpointID.p2pv4, type := .udpP2PInet })]
    currentEndpoint := 1, useMTProto2 := true }

theorem pathSample_started : pathSample.Started 110 where
  ver := fun _ => rfl
  extras := fun _ => rfl
  prepared := fun _ => rfl
  sealings := fun _ => rfl

/-- What an init says in the new format. -/
def toldInit : Extra :=
  .init { peerVersion := protocolVersion, minVersion := minProtocolVersion
          audioCodecs := [Codec.opus] }

/-- The init as it arrives. -/
def arrivedInit : Packet where
  seq := 1
  extraSignaling :=
    [{ d := toldInit, hashed := some (WrappedExtra.content ⟨0, 110⟩ toldInit) }]

/-- The init of one end arrives over the relay, and the other end sends its own after that. -/
def initOvertaken : List CallEvent :=
  [⟨false, 0, .sendInit⟩, ⟨true, 1, .packet arrivedInit 1⟩, ⟨true, 2, .sendInit⟩]

/-- The second init is sent without the call id, which the first end expects on the path as long
as it does not know the other's version. -/
theorem formats_differ :
    ¬ ∀ (env : Bool → Platform) (layer : Int) (call : Call) (events : List CallEvent),
      74 ≤ layer → Started layer call →
      AlongOk (step env) (fun call e => Honest call e ∧ Carried env call e) call events →
      AlongOk (step env) (FormatsAgree env) call events := by
  intro h
  obtain ⟨call₁, payload, call₂, call₃, h₁, hpayload, hparse, htold, h₂, h₃, hsealed, hexpects⟩ :
      ∃ call₁ payload call₂ call₃,
      step (fun _ => samplePlatform) pathSample ⟨false, 0, .sendInit⟩ = .ok call₁ ∧
      (payloads samplePlatform (call₁ false)).head? = some payload ∧
      IncomingPacket.parseCascade (fun n => List.replicate n 0) (call₁ true).ver payload =
        .ok { toPacket := arrivedInit } ∧
      (call₁ false).preparedPackets.map (·.extraSignaling.map (·.d)) = [[toldInit], [toldInit]] ∧
      step (fun _ => samplePlatform) call₁ ⟨true, 1, .packet arrivedInit 1⟩ = .ok call₂ ∧
      step (fun _ => samplePlatform) call₂ ⟨true, 2, .sendInit⟩ = .ok call₃ ∧
      (({ peerVersion := 10, connectionMaxLayer := 110 } : VersionInfo),
        ({ id := EndpointID.p2pv4, type := .udpP2PInet } : Endpoint)) ∈
          (call₂ true).newSealings (call₃ true) ∧
      ((call₂ false).ver.expects { id := EndpointID.p2pv4, type := .udpP2PInet }).callID = true := by
    refine ⟨_, _, _, _, rfl, rfl, rfl, rfl, rfl, rfl, ?_, rfl⟩
    exact List.mem_cons_of_mem _ List.mem_cons_self
  have hrun : AlongOk (step fun _ => samplePlatform)
      (fun call e => Honest call e ∧ Carried (fun _ => samplePlatform) call e) pathSample
        initOvertaken := by
    refine alongOk_cons.mpr ⟨⟨honest_sendInit .., nofun⟩, fun call' hcall' => ?_⟩
    obtain rfl := Except.ok.inj (h₁.symm.trans hcall')
    refine alongOk_cons.mpr ⟨⟨⟨?_, nofun⟩, ?_⟩, fun _ _ =>
      alongOk_cons.mpr ⟨⟨honest_sendInit .., nofun⟩, fun _ _ => trivial⟩⟩
    · intro p src hp x hx v hv
      cases hp
      obtain rfl := List.mem_singleton.mp hx
      have hmem : [toldInit] ∈
          (call₁ false).preparedPackets.map (·.extraSignaling.map (·.d)) := by
        rw [htold]
        exact List.mem_cons_self
      obtain ⟨q, hq, hsaid⟩ := List.mem_map.mp hmem
      obtain ⟨y, hy, hd⟩ := List.map_eq_singleton_iff.mp hsaid
      exact ⟨q, hq, y, hy ▸ List.mem_singleton_self y, hd ▸ hv⟩
    · intro p src hp
      cases hp
      exact ⟨payload, List.mem_of_head? hpayload, _, _, hparse, List.mem_cons_self⟩
  have hagree := h _ 110 _ _ (by decide) pathSample_started hrun
  have hlast := (alongOk_cons.mp ((alongOk_cons.mp ((alongOk_cons.mp hagree).2 call₁ h₁)).2
    call₂ h₂)).1 call₃ h₃ _ hsealed
  have hcallID := congrArg WireFormat.callID hlast
  rw [show (call₂ !true) = call₂ false from rfl, hexpects] at hcallID
  exact absurd hcallID (by decide)

end Call

end Tgvoip
