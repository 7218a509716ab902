import Tgvoip.Controller.PacketFrame
import Tgvoip.Controller.StreamTable

/-!
# AckProgress — when every stream is acknowledged in time

A packet acknowledges the stream it is sent on, and only that one, while
one counter, reset by every packet sent, decides when a NOP must go out;
and a NOP is always sent on the Signaling stream. So the other streams are
acknowledged only as long as something else is sent on them.

`Ledger` adds to the controller how many packets of each stream were
accepted since a packet of that stream was last sent.
-/

namespace Tgvoip

open ByteReader Fallible

namespace Controller

variable {env : Platform} {c c' c₀ c₁ : Controller} {now : Time} {src : Int64} {p : Packet}
  {f : StreamFace}

/-! ## A NOP on a ready controller -/

/-- Whatever endpoint is chosen, a packet for it can be sent at once. -/
structure Ready (c : Controller) : Prop where
  running : c.stopping = false
  udpSocket : c.udpSocketReady = true
  udp : c.useUDP = true
  tcp : c.endpoints.TcpReady c.useTCP

theorem Ready.of_settings (h : c.Ready) (hsettings : c'.settings = c.settings)
    (htcp : ∀ b, c.endpoints.TcpReady b → c'.endpoints.TcpReady b) : c'.Ready where
  running := (congrArg Settings.stopping hsettings).trans h.running
  udpSocket := (congrArg Settings.udpSocketReady hsettings).trans h.udpSocket
  udp := (congrArg Settings.useUDP hsettings).trans h.udp
  tcp := by
    rw [show c'.useTCP = c.useTCP from congrArg Settings.useTCP hsettings]
    exact htcp _ h.tcp

theorem Ready.frame (h : c.Ready) (hframe : Frame c c') : c'.Ready :=
  h.of_settings hframe.settings hframe.tcpReady

theorem Ready.sends (h : c.Ready) {key : Int64} {e : Endpoint}
    (he : c.endpoints.at? key = some e) :
    c.connectIfNeeded key e = c ∧ c.canSend e = true ∧ (c.usesTransport e && !c.stopping) = true := by
  unfold connectIfNeeded canSend usesTransport
  by_cases ht : e.type = .tcpRelay
  · obtain ⟨hsocket, htcp⟩ := h.tcp.at? he ht
    simp [ht, hsocket, htcp, h.running]
  · simp [ht, h.udpSocket, h.udp, h.running]

theorem Ready.transmits (h : c.Ready) {pkt : PendingOutgoingPacket} {enqueue : Bool}
    (hsend : c.sendOrEnqueuePacket now pkt enqueue = .ok c') :
    ∃ e, c.transmit now pkt e = .ok c' := by
  obtain ⟨e, he, hcases⟩ := sendOrEnqueuePacket_ok hsend
  obtain ⟨hconn, hcan, huse⟩ := h.sends he
  dsimp only at hcases
  rw [hconn] at hcases
  obtain ⟨-, -, hsent⟩ | ⟨hnot, -⟩ := hcases
  · exact ⟨e, hsent⟩
  · rw [hcan, huse] at hnot
    cases hnot

/-- The packet acknowledges the stream as its window stands. -/
def Acknowledges (raw : RawPendingOutgoingPacket) (f : StreamFace) : Prop :=
  raw.pkt.carried.streamId = f.transportId ∧ raw.pkt.carried.ackSeq = f.lastRemoteSeq ∧
    raw.pkt.carried.ackMask = f.lastRemoteSeqsMask

/-- **A NOP acknowledges the Signaling stream**, and no other. -/
theorem sendNopPacket_sends {endpointId : Int64} (hready : c.Ready) (hnew : c.ver.isNew = true)
    (hf : c.faces[0]? = some f) (h : c.sendNopPacket env now endpointId = .ok c') :
    ∃ raw, c'.rawSendQueue = c.rawSendQueue ++ [raw] ∧ Acknowledges raw f := by
  unfold sendNopPacket sendPacket at h
  obtain ⟨e, -, h⟩ := bind_eq_ok.mp h
  obtain ⟨s, hs, h⟩ := bind_eq_ok.mp h
  rw [outgoingStream_eq_ok] at hs
  rw [if_pos hnew] at h
  have hface : s.face = f := by
    rw [faces, List.getElem?_map, show c.outgoingStreams[0]? = some s from hs] at hf
    exact Option.some.inj hf
  obtain ⟨_, hsent⟩ :=
    (hready.frame ((prepareNew_frame hs).trans (noteSealing_frame _ e)).toFrame).transmits h
  obtain ⟨_, _, -, -, -, rfl⟩ := transmit_ok hsent
  exact ⟨_, rfl, hface ▸ ⟨rfl, rfl, rfl⟩⟩

/-! ## The extras of a packet -/

/-- What decides whether an extra is answered stays as it is. -/
theorem answers_of_keeps {x : Extra} (hp : c.allowP2p = c₀.allowP2p)
    (hkeeps : c₀.allowP2p = false → c₀.endpoints.Keeps c.endpoints)
    (hsrc : x = .ping → ∃ e, c.endpoints.at? src = some e) (h : c₀.answers src x = true) :
    c.answers src x = true := by
  cases x with
  | ping =>
      obtain ⟨e, he⟩ := hsrc rfl
      obtain ⟨e₀, he₀, hans⟩ := (Option.any_eq_true _ _).mp h
      rw [answers, he, Option.any_some]
      unfold answersPing at hans ⊢
      cases hallow : c₀.allowP2p with
      | true => simp [hp, hallow]
      | false =>
          obtain ⟨e', he', ht⟩ := hkeeps hallow src e₀ he₀
          rw [he] at he'
          cases he'
          unfold Endpoint.isReflector at hans ⊢
          rw [hp, ht]
          exact hans
  | _ => exact h

/-- While the extras of a packet are handled: a packet that acknowledges the
Signaling stream went out, or it is still to come, as the answer to one of
the extras `rest` or because the counter is above the threshold. -/
structure Owes (c₀ : Controller) (src : Int64) (n₀ : ℕ) (f : StreamFace) (c : Controller)
    (rest : List Extra) : Prop where
  ready : c.Ready
  staysNew : StaysNew c.ver rest
  signaling : c.faces[0]? = some f
  settings : c.settings = c₀.settings
  endpoints : c₀.allowP2p = false → c₀.endpoints.Keeps c.endpoints
  sent : n₀ ≤ c.rawSendQueue.length
  acks : (∃ raw ∈ c.rawSendQueue.drop n₀, Acknowledges raw f) ∨
    (c.unacknowledgedIncomingPacketCount = c₀.unacknowledgedIncomingPacketCount ∧
      (c₀.unacknowledgedIncomingPacketCount > c₀.config.unackNopThreshold ∨
        ∃ x ∈ rest, c₀.answers src x = true))

theorem getElem?_of_isPrefix {α : Type} {l l' : List α} {i : ℕ} {a : α} (h : l <+: l')
    (ha : l[i]? = some a) : l'[i]? = some a := by
  obtain ⟨t, rfl⟩ := h
  rw [List.getElem?_append_left (List.getElem?_eq_some_iff.mp ha).1, ha]

theorem mem_drop_of_isPrefix {α : Type} {l l' : List α} {n : ℕ} {a : α} (h : l <+: l')
    (ha : a ∈ l.drop n) : a ∈ l'.drop n := (h.drop n).subset ha

theorem dispatchExtra_ping (h : c.dispatchExtra env now .ping src = .ok c') :
    ∃ e, c.endpoints.at? src = some e := by
  obtain ⟨e, he, -⟩ := bind_eq_ok.mp h
  exact ⟨e, endpointAt_eq_ok.mp he⟩

/-- An answer acknowledges the Signaling stream. -/
theorem Answered.sends {x : Extra} {rest : List Extra} (hready : c.Ready)
    (hnew : StaysNew c.ver (x :: rest)) (hf : c.faces[0]? = some f)
    (h : Answered env now x c c') :
    ∃ q raw, c.rawSendQueue <+: q ∧ c'.rawSendQueue = q ++ [raw] ∧ Acknowledges raw f := by
  obtain ⟨c₁, c₂, h₁, h₂, h₃⟩ := h
  have hextra : SendFrame c₁ (c₁.sendExtra { d := c₁.reply x } 0) := sendExtra_frame ..
  have hready₁ : (c₁.sendExtra { d := c₁.reply x } 0).Ready :=
    (hready.of_settings h₁.settings h₁.tcpReady).frame hextra.toFrame
  obtain ⟨raw, hraw, hacks⟩ := sendNopPacket_sends hready₁
    (hextra.ver ▸ (hnew.cons h₁.ver).isNew)
    (hextra.faces ▸ getElem?_of_isPrefix h₁.faces hf) h₂
  refine ⟨_, raw, ?_, by rw [h₃.transport, hraw], hacks⟩
  rw [← h₁.rawSendQueue]
  exact hextra.rawSendQueue

theorem Owes.dispatchExtra {n₀ : ℕ} {x : Extra} {rest : List Extra}
    (ho : Owes c₀ src n₀ f c (x :: rest)) (h : c.dispatchExtra env now x src = .ok c') :
    Owes c₀ src n₀ f c' rest := by
  have hframe := dispatchExtra_frame h
  have hallow : c.allowP2p = c₀.allowP2p := congrArg Settings.allowP2p ho.settings
  refine ⟨ho.ready.of_settings hframe.settings hframe.tcpReady, ho.staysNew.cons hframe.ver,
    getElem?_of_isPrefix hframe.faces ho.signaling, hframe.settings.trans ho.settings,
    fun hp => (ho.endpoints hp).trans (hframe.endpoints (hallow.trans hp)),
    ho.sent.trans hframe.rawSendQueue.length_le, ?_⟩
  obtain ⟨raw, hraw, hacks⟩ | ⟨hcount, howes⟩ := ho.acks
  · exact .inl ⟨raw, mem_drop_of_isPrefix hframe.rawSendQueue hraw, hacks⟩
  · rcases dispatchExtra_ok h with ⟨hans, hquiet⟩ | ⟨-, hanswered⟩
    · refine .inr ⟨by rw [hquiet.transport, hcount], howes.imp_right ?_⟩
      rintro ⟨y, hy, hans₀⟩
      rcases List.mem_cons.mp hy with rfl | hy
      · have := answers_of_keeps hallow ho.endpoints (fun hx => dispatchExtra_ping (hx ▸ h)) hans₀
        rw [hans] at this
        cases this
      · exact ⟨y, hy, hans₀⟩
    · obtain ⟨q, raw, hq, hraw, hacks⟩ := hanswered.sends ho.ready ho.staysNew ho.signaling
      refine .inl ⟨raw, ?_, hacks⟩
      rw [hraw, List.drop_append_of_le_length (ho.sent.trans hq.length_le)]
      exact List.mem_append_right _ List.mem_cons_self

/-! ## The whole packet -/

theorem AckStage.transport {pm : PacketManager} (h : AckStage now p pm c c') :
    c'.rawSendQueue = c.rawSendQueue ∧
      c'.unacknowledgedIncomingPacketCount = c.unacknowledgedIncomingPacketCount := by
  obtain ⟨-, rfl⟩ | ⟨-, c₀, htransport, -, rfl⟩ := h
  · exact ⟨rfl, rfl⟩
  · show c₀.rawSendQueue = _ ∧ c₀.unacknowledgedIncomingPacketCount = _
    rw [htransport]
    exact ⟨rfl, rfl⟩

/-- The counter of a controller that still owes an acknowledgement sends it. -/
theorem Owes.counts {n₀ : ℕ} (ho : Owes c₀ src n₀ f c []) (hframe : Frame c c₁)
    (hraw : c₁.rawSendQueue = c.rawSendQueue)
    (hcount : c₁.unacknowledgedIncomingPacketCount = c.unacknowledgedIncomingPacketCount)
    (h : c₁.countUnacknowledged env now = .ok c') :
    ∃ raw ∈ c'.rawSendQueue.drop n₀, Acknowledges raw f := by
  obtain ⟨raw, hmem, hacks⟩ | ⟨howed, howes⟩ := ho.acks
  · rw [← hraw] at hmem
    exact ⟨raw, mem_drop_of_isPrefix (countUnacknowledged_frame h).rawSendQueue hmem, hacks⟩
  · have hover : c₁.unacknowledgedIncomingPacketCount > c₁.config.unackNopThreshold := by
      rw [hcount, howed, show c₁.config = c₀.config from
        congrArg Settings.config (hframe.settings.trans ho.settings)]
      exact howes.resolve_right fun ⟨x, hx, _⟩ => nomatch hx
    unfold countUnacknowledged at h
    dsimp only at h
    rw [if_pos hover] at h
    have hready : { c₁ with unacknowledgedIncomingPacketCount :=
        c₁.unacknowledgedIncomingPacketCount + 1 }.Ready :=
      (ho.ready.frame hframe).of_settings rfl fun _ ht => ht
    obtain ⟨raw, hsent, hacks⟩ := sendNopPacket_sends hready (hframe.ver ▸ ho.staysNew.isNew)
      (hframe.faces ▸ ho.signaling) h
    refine ⟨raw, ?_, hacks⟩
    rw [hsent, List.drop_append_of_le_length (show n₀ ≤ c₁.rawSendQueue.length by
      rw [hraw]; exact ho.sent)]
    exact List.mem_append_right _ List.mem_cons_self

/-- A packet on the Signaling stream makes a NOP due: the counter is above the
threshold, or one of its extras is answered. -/
def NopDue (env : Platform) (c : Controller) (p : Packet) (src : Int64) : Prop :=
  p.managerIndex = StreamId.signaling ∧
    (c.unacknowledgedIncomingPacketCount > c.config.unackNopThreshold ∨
      ∃ x ∈ c.freshExtras env p.extraSignaling, c.answers src x = true)

theorem faces_arrived {s : OutgoingStream} (hs : c.outgoingStreams[p.managerIndex.toNat]? = some s) :
    (c.arrived s p).faces[p.managerIndex.toNat]? =
      some ({ s with packetManager := (s.packetManager.ackRemotePacket p).2 } :
        OutgoingStream).face := by
  simp [faces, arrived, setManager, hs]

/-- **A packet that makes a NOP due** is acknowledged at once. -/
theorem processIncomingPacket_acknowledges (hready : c.Ready)
    (hnew : StaysNew c.ver (c.freshExtras env p.extraSignaling)) (hack : NopDue env c p src)
    (haccepts : c.accepts p = true) (h : c.processIncomingPacket env now p src = .ok c') :
    ∃ raw ∈ c'.rawSendQueue.drop c.rawSendQueue.length, ∃ f,
      c'.faces[p.managerIndex.toNat]? = some f ∧ Acknowledges raw f := by
  obtain ⟨s, hs, ⟨hdup, -⟩ | ⟨-, h⟩⟩ := processIncomingPacket_ok h
  · rw [haccepts] at hdup
    cases hdup
  · obtain ⟨c₁, c₂, c₃, c₄, t, hstages⟩ := processFreshPacket_ok h
    obtain ⟨f, hf⟩ : ∃ f, (c.arrived s p).faces[p.managerIndex.toNat]? = some f :=
      ⟨_, faces_arrived hs⟩
    rw [hack.1] at hf
    have hstart : Owes c src c.rawSendQueue.length f (c.arrived s p)
        ((c.arrived s p).freshExtras env p.extraSignaling) := by
      rw [freshExtras_arrived]
      exact ⟨hready.of_settings rfl fun _ ht => ht, hnew, hf, rfl, fun _ => .refl _, le_refl _,
        .inr ⟨rfl, hack.2⟩⟩
    have howes : Owes c src c.rawSendQueue.length f c₁ [] :=
      processExtras_rule (I := Owes c src c.rawSendQueue.length f)
        (fun c x rest h => { h with ready := h.ready.of_settings rfl fun _ ht => ht })
        (fun c x rest c' h hx => h.dispatchExtra hx) hstart hstages.extras
    have hacked := hstages.acks.transport
    have hframe : Frame c₁ c₃ := (hstages.acks.frame hstages.stream).toFrame.trans hstages.endpoint.2
    obtain ⟨raw, hraw, hacks⟩ := howes.counts hframe (by rw [hstages.endpoint.1, hacked.1])
      (by rw [hstages.endpoint.1, hacked.2]) hstages.counts
    refine ⟨raw, by rw [hstages.notes.transport]; exact hraw, _, ?_, hacks⟩
    rw [hack.1, hstages.frame.faces]
    exact howes.signaling

/-! ## Runs -/

/-- A controller, and for each stream the number of packets accepted since a
packet of the stream was last sent. -/
structure Ledger where
  c : Controller
  unacked : UInt8 → ℕ

namespace Ledger

/-- What a step put into the raw queue. -/
def newlySent (c c' : Controller) : List RawPendingOutgoingPacket :=
  c'.rawSendQueue.drop c.rawSendQueue.length

/-- The packet the event brings, if it is accepted. -/
def acceptedPacket (c : Controller) (e : Time × Event) : Option (Packet × Int64) :=
  match e.2 with
  | .packet p src => if c.accepts p then some (p, src) else none
  | _ => none

/-- The counts behind a step: a packet sent on a stream takes its count back. -/
def count (w : Ledger) (e : Time × Event) (c' : Controller) (s : UInt8) : ℕ :=
  if (newlySent w.c c').any (·.pkt.carried.streamId == s) then 0
  else w.unacked s + if (acceptedPacket w.c e).any (·.1.managerIndex == s) then 1 else 0

def step (env : Platform) (w : Ledger) (e : Time × Event) : Except Fault Ledger := do
  let c' ← w.c.step env e
  pure { c := c', unacked := w.count e c' }

variable {w w' : Ledger} {e : Time × Event}

/-- Sockets are ready, and the format is and stays the new one. -/
def NewAndReady (env : Platform) (w : Ledger) (e : Time × Event) : Prop :=
  w.c.Ready ∧ ∀ p src, e.2 = .packet p src →
    StaysNew w.c.ver (w.c.freshExtras env p.extraSignaling)

/-- The packet that makes its stream due makes a NOP due, too. -/
def DueGetsNop (env : Platform) (w : Ledger) (e : Time × Event) : Prop :=
  ∀ p src, acceptedPacket w.c e = some (p, src) →
    w.c.config.unackNopThreshold.toNat + 2 ≤ w.unacked p.managerIndex + 1 →
    NopDue env w.c p src

/-- **Acknowledged in time**: the packet that makes its stream due has a
packet of this stream sent that carries the window of the stream; so no
count gets beyond the threshold by more than one. -/
def InTime (env : Platform) (w : Ledger) (e : Time × Event) : Prop :=
  ∀ w', w.step env e = .ok w' →
    (∀ p src, acceptedPacket w.c e = some (p, src) →
      w.c.config.unackNopThreshold.toNat + 2 ≤ w.unacked p.managerIndex + 1 →
      ∃ raw ∈ newlySent w.c w'.c, ∃ f, w'.c.faces[p.managerIndex.toNat]? = some f ∧
        raw.pkt.carried.streamId = p.managerIndex ∧ raw.pkt.carried.ackSeq = f.lastRemoteSeq ∧
          raw.pkt.carried.ackMask = f.lastRemoteSeqsMask) ∧
    ∀ s, w'.unacked s ≤ w'.c.config.unackNopThreshold.toNat + 1

/-- The Signaling stream stands first, and no count is beyond its bound. -/
structure Bounded (w : Ledger) : Prop where
  signaling : ∃ x, w.c.ids[0]? = some x ∧ x.2 = StreamId.signaling
  unacked : ∀ s, w.unacked s ≤ w.c.config.unackNopThreshold.toNat + 1

theorem step_ok (h : w.step env e = .ok w') :
    w.c.step env e = .ok w'.c ∧ w'.unacked = w.count e w'.c := by
  obtain ⟨c', hstep, h⟩ := bind_eq_ok.mp h
  obtain rfl := pure_eq_ok.mp h
  exact ⟨hstep, rfl⟩

theorem acceptedPacket_eq_some {p : Packet} (h : acceptedPacket c e = some (p, src)) :
    e.2 = .packet p src ∧ c.accepts p = true := by
  unfold acceptedPacket at h
  split at h
  · rename_i q src' he
    split at h
    · rename_i haccepts
      cases h
      exact ⟨he, haccepts⟩
    · cases h
  · cases h

theorem Bounded.signaling_step (hw : w.Bounded) (h : w.c.step env e = .ok c') :
    ∃ x, c'.ids[0]? = some x ∧ x.2 = StreamId.signaling := by
  obtain ⟨x, hx, hsig⟩ := hw.signaling
  exact ⟨x, getElem?_of_isPrefix (step_ids h) hx, hsig⟩

/-- A due packet is acknowledged on its stream. -/
theorem Bounded.acknowledges (hw : w.Bounded) (hnew : NewAndReady env w e)
    (hdue : DueGetsNop env w e) (h : w.c.step env e = .ok c')
    (hp : acceptedPacket w.c e = some (p, src))
    (hunacked : w.c.config.unackNopThreshold.toNat + 2 ≤ w.unacked p.managerIndex + 1) :
    ∃ raw ∈ newlySent w.c c', ∃ f, c'.faces[p.managerIndex.toNat]? = some f ∧
      raw.pkt.carried.streamId = p.managerIndex ∧ raw.pkt.carried.ackSeq = f.lastRemoteSeq ∧
        raw.pkt.carried.ackMask = f.lastRemoteSeqsMask := by
  have hack := hdue p src hp hunacked
  obtain ⟨he, haccepts⟩ := acceptedPacket_eq_some hp
  obtain ⟨x, hx, hsig⟩ := hw.signaling_step h
  obtain ⟨now, e⟩ := e
  obtain rfl : e = .packet p src := he
  obtain ⟨raw, hraw, f, hf, hid, hseq, hmask⟩ :=
    processIncomingPacket_acknowledges hnew.1 (hnew.2 p src rfl) hack haccepts h
  refine ⟨raw, hraw, f, hf, ?_, hseq, hmask⟩
  rw [hack.1] at hf ⊢
  rw [ids_eq, List.getElem?_map, show c'.faces[0]? = some f from hf] at hx
  cases hx
  exact hid.trans hsig

theorem Bounded.inTime (hw : w.Bounded) (hnew : NewAndReady env w e)
    (hdue : DueGetsNop env w e) : InTime env w e := by
  intro w' h
  obtain ⟨hstep, hcount⟩ := step_ok h
  refine ⟨fun p src hp hunacked => hw.acknowledges hnew hdue hstep hp hunacked, fun s => ?_⟩
  rw [hcount, step_config hstep, count]
  split
  · exact Nat.zero_le _
  · rename_i hnone
    split
    · rename_i hs
      obtain ⟨⟨p, src⟩, hp, hps⟩ := (Option.any_eq_true _ _).mp hs
      obtain rfl : p.managerIndex = s := by simpa using hps
      by_contra hover
      obtain ⟨raw, hraw, f, -, hid, -⟩ := hw.acknowledges hnew hdue hstep hp (by omega)
      exact hnone (List.any_eq_true.mpr ⟨raw, hraw, by simp [hid]⟩)
    · exact hw.unacked s

/-- **Every stream is acknowledged in time** along every run whose due packets
come on the Signaling stream, with the shared counter above the threshold or
an extra that is answered. -/
theorem acknowledged_in_time {events : List (Time × Event)} (hc : w.c.Constructed)
    (hunacked : ∀ s, w.unacked s = 0) (hnew : AlongOk (step env) (NewAndReady env) w events)
    (hdue : AlongOk (step env) (DueGetsNop env) w events) :
    AlongOk (step env) (InTime env) w events := by
  refine (alongOk_and.mpr ⟨hnew, hdue⟩).strengthen (I := Bounded) ?_ ?_ ?_
  · rintro w e w' hw ⟨hnew, hdue⟩ h
    exact ⟨hw.signaling_step (step_ok h).1, (hw.inTime hnew hdue w' h).2⟩
  · rintro w e hw ⟨hnew, hdue⟩
    exact hw.inTime hnew hdue
  · refine ⟨⟨(0, 0), ?_, rfl⟩, fun s => by rw [hunacked]; exact Nat.zero_le _⟩
    obtain ⟨mask, hstreams⟩ := hc.streams
    rw [ids, hstreams]
    rfl

/-! ## On fixed inputs -/

/-- A packet with nothing but its number, on each of the streams. -/
def bare (streamId : UInt8) (seq : UInt32) : Time × Event := (0, .packet { seq, streamId } 1)

/-- A call in which nothing was received yet. -/
def sampleLedger (config : Config) : Ledger := { c := sampleCall config, unacked := fun _ => 0 }

theorem newAndReady_packets {events : List (Time × Event)} (hready : w.c.Ready)
    (hlayer : 110 ≤ w.c.ver.connectionMaxLayer)
    (hpackets : ∀ e ∈ events, ∃ p src, e.2 = .packet p src) :
    AlongOk (step env) (NewAndReady env) w events := by
  refine (alongOk_of_forall (P := fun _ e => ∃ p src, e.2 = .packet p src)
    fun e he _ => hpackets e he).strengthen
    (I := fun w => w.c.Ready ∧ 110 ≤ w.c.ver.connectionMaxLayer) ?_ ?_ ⟨hready, hlayer⟩
  · rintro w ⟨now, e⟩ w' ⟨hready, hlayer⟩ ⟨p, src, he⟩ h
    obtain rfl : e = .packet p src := he
    have hframe : PacketFrame w.c w'.c := processIncomingPacket_frame (step_ok h).1
    refine ⟨hready.of_settings hframe.settings hframe.tcpReady, ?_⟩
    rw [show w'.c.ver.connectionMaxLayer = w.c.ver.connectionMaxLayer from
      congrArg Settings.connectionMaxLayer hframe.settings]
    exact hlayer
  · rintro w e ⟨hready, hlayer⟩ -
    exact ⟨hready, fun _ _ _ => .inl hlayer⟩

theorem sampleCall_ready (config : Config) : (sampleCall config).Ready := ⟨rfl, rfl, rfl, fun x hx ht => by
  rw [List.mem_singleton.mp hx] at ht
  cases ht⟩

/-- Eleven packets on the Audio stream. -/
def audio : List (Time × Event) := (List.range 11).map fun i => bare 1 (UInt32.ofNat (i + 1))

theorem packets_audio : ∀ e ∈ audio ++ [bare 1 12], ∃ p src, e.2 = .packet p src := by
  simp only [audio, List.mem_append, List.mem_map, List.mem_singleton]
  rintro e (⟨i, -, rfl⟩ | rfl) <;> exact ⟨_, _, rfl⟩

/-- The second packet on the Signaling stream is due under a threshold of 0,
and the NOP it causes acknowledges it. -/
theorem acknowledged_in_time_signaling :
    AlongOk (step samplePlatform) (InTime samplePlatform) (sampleLedger { unackNopThreshold := 0 })
      [bare 0 1, bare 0 2] := by
  refine acknowledged_in_time (sampleCall_constructed _) (fun _ => rfl)
    (newAndReady_packets (sampleCall_ready _) (by decide) ?_)
    (alongOk_cons.mpr ⟨fun _ _ _ hdue => ?_, fun w hw => alongOk_cons.mpr ⟨?_, fun _ _ => trivial⟩⟩)
  · simp only [List.mem_cons, List.not_mem_nil, or_false]
    rintro e (rfl | rfl) <;> exact ⟨_, _, rfl⟩
  · exact absurd hdue (Nat.not_succ_le_self 1)
  · have hcount := Except.ok.inj (congrArg (Except.map fun w => (w.c.config.unackNopThreshold,
      w.c.unacknowledgedIncomingPacketCount)) hw)
    rintro p src hp -
    obtain ⟨he, -⟩ := acceptedPacket_eq_some hp
    cases he
    refine ⟨rfl, .inl ?_⟩
    simp only [Prod.mk.injEq] at hcount
    rw [← hcount.1, ← hcount.2]
    decide

/-- Twelve packets on the Audio stream make it due; the NOP goes out on the
Signaling stream. -/
theorem acknowledged_in_time_fails :
    ¬ ∀ (env : Platform) (w : Ledger) (events : List (Time × Event)), w.c.Constructed →
      (∀ s, w.unacked s = 0) → AlongOk (step env) (NewAndReady env) w events →
      AlongOk (step env) (InTime env) w events := by
  intro h
  have hrun := h samplePlatform (sampleLedger {}) (audio ++ [bare 1 12]) (sampleCall_constructed _)
    (fun _ => rfl) (newAndReady_packets (sampleCall_ready _) (by decide) packets_audio)
  have heval : ∃ w w', audio.foldlM (step samplePlatform) (sampleLedger {}) = .ok w ∧
      w.step samplePlatform (bare 1 12) = .ok w' ∧
      acceptedPacket w.c (bare 1 12) = some ({ seq := 12, streamId := 1 }, 1) ∧
      w.c.config.unackNopThreshold.toNat + 2 ≤ w.unacked 1 + 1 ∧
      (newlySent w.c w'.c).map (·.pkt.carried.streamId) = [0] :=
    ⟨_, _, rfl, rfl, rfl, by decide, rfl⟩
  obtain ⟨w, w', hw, hw', haccepted, hunacked, hsent⟩ := heval
  obtain ⟨raw, hraw, f, -, hid, -⟩ := (hrun.last hw w' hw').1 _ _ haccepted hunacked
  have hmem := List.mem_map_of_mem (f := fun r => r.pkt.carried.streamId) hraw
  rw [hsent, hid] at hmem
  exact absurd hmem (by decide)

end Ledger

end Controller

end Tgvoip
