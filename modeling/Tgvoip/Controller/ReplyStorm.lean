import Mathlib.Data.List.Perm.Basic
import Tgvoip.Controller.AskingExtras
import Tgvoip.Controller.MessageThread
import Tgvoip.Protocol.ExtraRoundTrip

/-!
# ReplyStorm — why automatic replies come to an end

Two controllers answer each other's packets, and nothing else is sent. A
packet is answered by a NOP for each init or ping of it that is not a
repetition, and by one when the counter is above its threshold; and each
NOP takes along what its sender has pending.

What ends this is the table of hashes. All pings are alike, and so are the
copies of the one init that is pending at a side: a copy passes the
duplicate check only if something else of its type passed before, and the
packets that were on their way at the start are the only ones to bring
anything else. `potential` is the measure.
-/

namespace Tgvoip

open ByteReader Fallible

/-! ## The copies of an extra -/

/-- In the new format an extra is written alike under all versions of a layer. -/
theorem WrappedExtra.content_of_isNew {v w : VersionInfo} (hv : v.isNew = true)
    (hw : w.isNew = true) (hlayer : v.connectionMaxLayer = w.connectionMaxLayer) (e : Extra) :
    content v e = content w e := by
  have hcodec : Codec.serialize v = Codec.serialize w := by
    funext codec
    simp [Codec.serialize, hv, hw]
  have hinfo : ExtraStreamInfo.serialize v = ExtraStreamInfo.serialize w := by
    funext s
    simp [ExtraStreamInfo.serialize, hcodec]
  unfold content
  congr 1
  cases e with
  | init d => simp [Extra.serialize, ExtraInit.serialize, hv, hw, hlayer, hcodec]
  | initAck d => simp [Extra.serialize, ExtraInitAck.serialize, hinfo]
  | streamFlags d => simp [Extra.serialize, ExtraStreamFlags.serialize, hv, hw]
  | lanEndpoint d => simp [Extra.serialize, ExtraLanEndpoint.serialize, hv, hw]
  | networkChanged d => simp [Extra.serialize, ExtraNetworkChanged.serialize, hv, hw]
  | _ => rfl

namespace Controller

variable {env : Platform} {c c' : Controller} {now : Time} {src : Int64} {x : WrappedExtra}
  {h : UInt8 → UInt64}

/-- The copies that have another hash than `h` expects of their type. -/
def oddCopies (env : Platform) (h : UInt8 → UInt64) (xs : List WrappedExtra) : ℕ :=
  xs.countP fun x => x.d.asks && env.hash x != h x.d.getID

/-- The types of which something else than `h` expects was handled last. -/
def staleTypes (h : UInt8 → UInt64) (c : Controller) : ℕ :=
  Extra.askingTypes.countP fun id => c.lastReceivedExtrasByType id != h id

theorem staleTypes_congr (hlast : c'.lastReceivedExtrasByType = c.lastReceivedExtrasByType) :
    c'.staleTypes h = c.staleTypes h := by
  unfold staleTypes
  rw [hlast]

theorem staleTypes_eq (h : UInt8 → UInt64) (c : Controller) :
    c.staleTypes h =
      (if c.lastReceivedExtrasByType ExtraKind.ping.id = h ExtraKind.ping.id then 0 else 1) +
        if c.lastReceivedExtrasByType ExtraKind.init.id = h ExtraKind.init.id then 0 else 1 := by
  unfold staleTypes Extra.askingTypes
  simp [List.countP_cons]

/-- An extra that is no repetition makes its type stale, unless it is what was
expected, and then the type was stale. -/
theorem staleTypes_note (hpos : ∀ id, h id ≠ 0) (hfresh : c.repeatsLast env x = false) :
    (if x.d.asks then 1 else 0) + (c.noteReceived env x).staleTypes h ≤
      2 * oddCopies env h [x] + c.staleTypes h := by
  have hother : ∀ id, id ≠ x.d.getID →
      (c.noteReceived env x).lastReceivedExtrasByType id = c.lastReceivedExtrasByType id :=
    fun id hid => Function.update_of_ne hid ..
  have hself : (c.noteReceived env x).lastReceivedExtrasByType x.d.getID = env.hash x :=
    Function.update_self ..
  have hodd : oddCopies env h [x] =
      if x.d.asks = true ∧ env.hash x ≠ h x.d.getID then 1 else 0 := by
    simp [oddCopies, List.countP_cons]
  have hexpected : env.hash x = h x.d.getID →
      c.lastReceivedExtrasByType x.d.getID ≠ h x.d.getID := by
    intro heq hlast
    rw [repeatsLast, heq, hlast] at hfresh
    simp [hpos] at hfresh
  have hmem := Extra.asks_iff_mem x.d
  have le_of_expected : ∀ {last expected : UInt64}, x.d.asks = true →
      (env.hash x = expected → last ≠ expected) →
      (if x.d.asks = true then 1 else 0) + (if env.hash x = expected then 0 else 1) ≤
        2 * (if x.d.asks = true ∧ env.hash x ≠ expected then 1 else 0) +
          (if last = expected then 0 else 1) := by
    intro last expected hasks hexpected
    by_cases heq : env.hash x = expected
    · rw [if_pos heq, if_neg (hexpected heq), if_pos hasks]
      exact Nat.le_add_left _ _
    · rw [if_neg heq, if_pos hasks, if_pos ⟨hasks, heq⟩]
      exact Nat.le_add_right _ _
  rw [hodd]
  by_cases hasks : x.d.asks = true
  · have hid : x.d.getID = ExtraKind.init.id ∨ x.d.getID = ExtraKind.ping.id := by
      simpa [Extra.askingTypes] using hmem.mp hasks
    rcases hid with hid | hid
    · rw [hid] at hself hexpected ⊢
      rw [staleTypes_eq, staleTypes_eq, hself, hother ExtraKind.ping.id (by rw [hid]; decide)]
      have hle := le_of_expected hasks hexpected
      omega
    · rw [hid] at hself hexpected ⊢
      rw [staleTypes_eq, staleTypes_eq, hself, hother ExtraKind.init.id (by rw [hid]; decide)]
      have hle := le_of_expected hasks hexpected
      omega
  · have hnone : x.d.getID ≠ ExtraKind.init.id ∧ x.d.getID ≠ ExtraKind.ping.id := by
      simpa [Extra.askingTypes, hasks] using hmem
    rw [staleTypes_eq, staleTypes_eq, hother _ hnone.1.symm, hother _ hnone.2.symm]
    simp [hasks]

/-- **Copies that pass are odd, or follow an odd one.** -/
theorem processExtras_passes {xs : List WrappedExtra} (hpos : ∀ id, h id ≠ 0)
    (hrun : c.processExtras env now src xs = .ok c') :
    c.passes env xs + c'.staleTypes h ≤ 2 * oddCopies env h xs + c.staleTypes h := by
  induction xs generalizing c with
  | nil =>
      rw [← pure_eq_ok.mp hrun]
      exact Nat.le_refl _
  | cons x xs ih =>
      rw [processExtras, List.foldlM_cons] at hrun
      obtain ⟨c₁, hfirst, hrun⟩ := bind_eq_ok.mp hrun
      have hrest := ih hrun
      have hcons : oddCopies env h (x :: xs) = oddCopies env h [x] + oddCopies env h xs := by
        unfold oddCopies
        rw [← List.singleton_append, List.countP_append]
      unfold processExtraData at hfirst
      unfold passes at hrest ⊢
      rw [freshExtras, hcons]
      split at hfirst
      · rename_i hrep
        obtain rfl := pure_eq_ok.mp hfirst
        rw [if_pos hrep]
        omega
      · rename_i hrep
        have hlast := (dispatchExtra_frame hfirst).lastReceived
        rw [freshExtras_congr hlast, staleTypes_congr hlast] at hrest
        have hnote := staleTypes_note (x := x) hpos (Bool.not_eq_true _ ▸ hrep)
        rw [if_neg hrep, List.countP_cons]
        omega

theorem afterExtras_passes {p : Packet} (hpos : ∀ id, h id ≠ 0) (haccepts : c.accepts p = true)
    (hrun : c.afterExtras env now p src = .ok c') :
    c.passes env p.extraSignaling + c'.staleTypes h ≤
      2 * oddCopies env h p.extraSignaling + c.staleTypes h := by
  obtain ⟨s, -, hrun⟩ := bind_eq_ok.mp hrun
  rw [if_pos haccepts] at hrun
  have hpasses : (c.arrived s p).passes env p.extraSignaling = c.passes env p.extraSignaling := by
    unfold passes
    rw [freshExtras_arrived]
  have hstale : (c.arrived s p).staleTypes h = c.staleTypes h := staleTypes_congr rfl
  rw [← hpasses, ← hstale]
  exact processExtras_passes hpos hrun

/-! ## A delivered packet -/

theorem noteDatagram_quiet {e : Extra} {address : NetworkAddress} {port : UInt16}
    (h : c.noteDatagram now src address port = .ok c') : Quiet e c c' := by
  let c₀ : Controller := { c with lastRecvPacketTime := now }
  let c₁ : Controller := if c₀.state = .reconnecting then c₀.establish else c₀
  have hheard : Quiet e c c₁ := by
    show Quiet e c (ite _ _ _)
    split
    · exact .same rfl rfl
    · exact .same rfl rfl
  apply hheard.trans
  change c₁.moveP2pEndpoint src address port = .ok c' at h
  unfold moveP2pEndpoint at h
  obtain ⟨srcEndpoint, hsrc, h⟩ := bind_eq_ok.mp h
  rw [endpointAt_eq_ok] at hsrc
  cases address with
  | ipv6 bs => exact pure_eq_ok.mp h ▸ .refl ..
  | ipv4 word =>
      rw [← pure_eq_ok.mp h]
      refine ite_quiet (.of_frame rfl (.setEndpoints ?_ ?_))
      · exact Endpoints.keeps_set hsrc rfl
      · exact fun _ ht => ht.set (ht.at? (e := srcEndpoint) hsrc)

end Controller

/-- One of the two ends. -/
structure AnsweringEnd where
  c : Controller
  /-- The packets on their way here. -/
  flight : List Packet
  /-- History: how many were delivered. -/
  delivered : ℕ := 0
  /-- History: how many of their extras passed the duplicate check and may be answered. -/
  passed : ℕ := 0
  /-- History: how many packets were sent while extras were handled. -/
  replies : ℕ := 0
  /-- History: how many others were sent. -/
  acks : ℕ := 0

/-- The packet `i` of those on their way to a side is delivered. -/
structure AnsweringEvent where
  side : Bool
  i : ℕ
  now : Time
  src : Int64
  address : NetworkAddress
  port : UInt16

namespace AnsweringEnd

variable (env : Platform) (x : AnsweringEnd)

/-- The packet was handled: `c` is the controller when its datagram was heard,
`c₁` after its extras and `c'` in the end. -/
def handled (e : AnsweringEvent) (p : Packet) (c c₁ c' : Controller) : AnsweringEnd where
  c := c'
  flight := x.flight.eraseIdx e.i
  delivered := x.delivered + 1
  passed := x.passed + if c.accepts p then c.passes env p.extraSignaling else 0
  replies := x.replies + (c₁.rawSendQueue.length - c.rawSendQueue.length)
  acks := x.acks + (c'.rawSendQueue.length - c₁.rawSendQueue.length)

/-- The controller receives the packet. -/
def deliver (e : AnsweringEvent) (p : Packet) : Except Fault AnsweringEnd := do
  let c ← x.c.noteDatagram e.now e.src e.address e.port
  let c₁ ← c.afterExtras env e.now p e.src
  let c' ← x.c.receive env e.now e.src e.address e.port [p]
  pure (x.handled env e p c c₁ c')

/-- A packet that was sent, as it is received. The versions of the packets a
step sends may differ, which the new format does not show. -/
def arriving (ver : VersionInfo) (raw : RawPendingOutgoingPacket) : Packet :=
  { raw.pkt.carried with
    extraSignaling := raw.pkt.carried.extraSignaling.map fun y => .received ver y.d }

/-- What is sent on the way from `x` to `x'`. -/
def outgoing (x x' : AnsweringEnd) : List Packet :=
  (x'.c.rawSendQueue.drop x.c.rawSendQueue.length).map (arriving x'.c.ver)

/-- More packets are on their way. -/
def awaits (packets : List Packet) : AnsweringEnd := { x with flight := x.flight ++ packets }

/-- The threshold of the counter. -/
def threshold : ℕ := x.c.config.unackNopThreshold.toNat

/-- What a delivered packet does: `passes` of its extras pass, `replies` NOPs
answer them, and `acks` NOPs the count. -/
structure Delivered (x x' : AnsweringEnd) (p : Packet) (e : AnsweringEvent)
    (passes replies acks : ℕ) : Prop where
  flight : x'.flight = x.flight.eraseIdx e.i
  history : x'.delivered = x.delivered + 1 ∧ x'.passed = x.passed + passes ∧
    x'.replies = x.replies + replies ∧ x'.acks = x.acks + acks
  config : x'.c.config = x.c.config
  layer : x'.c.ver.connectionMaxLayer = x.c.ver.connectionMaxLayer
  isNew : x'.c.ver.isNew = true
  asking : x'.c.asking ⊆ x.c.asking
  sent : ∃ sent, x'.c.rawSendQueue = x.c.rawSendQueue ++ sent ∧ sent.length = replies + acks ∧
    ∀ raw ∈ sent, x.c.IsNop raw
  replies : replies ≤ passes
  count : (acks = 0 ∧ x'.c.unacknowledgedIncomingPacketCount.toNat ≤
      x.c.unacknowledgedIncomingPacketCount.toNat + 1) ∨
    (acks = 1 ∧ x.threshold < x.c.unacknowledgedIncomingPacketCount.toNat ∧
      x'.c.unacknowledgedIncomingPacketCount.toNat = 0)
  table : ∀ h : UInt8 → UInt64, (∀ id, h id ≠ 0) →
    passes + x'.c.staleTypes h ≤ 2 * Controller.oddCopies env h p.extraSignaling + x.c.staleTypes h

variable {env} {x} {x' : AnsweringEnd} {p : Packet} {e : AnsweringEvent}

/-- A counted packet, in numbers. -/
theorem counted_acks {c c' : Controller} (h : Controller.Counted c c') :
    ∃ sent, c'.rawSendQueue = c.rawSendQueue ++ sent ∧ (∀ raw ∈ sent, c.IsNop raw) ∧
      ((sent.length = 0 ∧ c'.unacknowledgedIncomingPacketCount.toNat ≤
          c.unacknowledgedIncomingPacketCount.toNat + 1) ∨
        (sent.length = 1 ∧
          c.config.unackNopThreshold.toNat < c.unacknowledgedIncomingPacketCount.toNat ∧
            c'.unacknowledgedIncomingPacketCount.toNat = 0)) := by
  rcases h.outcome with ⟨hraw, hcount⟩ | ⟨hover, raw, hnop, hraw, hreset⟩
  · refine ⟨[], by rw [hraw, List.append_nil], fun _ h => absurd h List.not_mem_nil, .inl ⟨rfl, ?_⟩⟩
    rw [hcount, UInt32.toNat_add]
    exact Nat.mod_le _ _
  · refine ⟨[raw], hraw, fun r hr => List.mem_singleton.mp hr ▸ hnop, .inr ⟨rfl, ?_, ?_⟩⟩
    · exact UInt32.lt_iff_toNat_lt.mp hover
    · rw [hreset]
      rfl

/-- What holds of the packet whatever becomes of it. -/
structure Received (env : Platform) (x : AnsweringEnd) (e : AnsweringEvent) (p : Packet)
    (c c₁ c' : Controller) : Prop where
  heard : Controller.Quiet .ping x.c c
  extras : c.afterExtras env e.now p e.src = .ok c₁
  packet : c.processIncomingPacket env e.now p e.src = .ok c'

theorem deliver_received (h : x.deliver env e p = .ok x') :
    ∃ c c₁ c', Received env x e p c c₁ c' ∧ x.handled env e p c c₁ c' = x' := by
  obtain ⟨c, hnote, h⟩ := bind_eq_ok.mp h
  obtain ⟨c₁, hextras, h⟩ := bind_eq_ok.mp h
  obtain ⟨c', hreceive, h⟩ := bind_eq_ok.mp h
  have hpacket : c.processIncomingPacket env e.now p e.src = .ok c' := by
    unfold Controller.receive at hreceive
    rw [hnote] at hreceive
    obtain ⟨c₂, hpacket, hend⟩ := bind_eq_ok.mp
      (show (c.processIncomingPacket env e.now p e.src >>= fun c => pure c) = .ok c' from hreceive)
    rw [← pure_eq_ok.mp hend]
    exact hpacket
  exact ⟨c, c₁, c', ⟨Controller.noteDatagram_quiet hnote, hextras, hpacket⟩, pure_eq_ok.mp h⟩

namespace Received

variable {c c₁ c' : Controller}

theorem settings (h : Received env x e p c c₁ c') : c'.settings = x.c.settings :=
  (Controller.processIncomingPacket_frame h.packet).settings.trans h.heard.frame.settings

theorem config (h : Received env x e p c c₁ c') : c'.config = x.c.config :=
  congrArg Settings.config h.settings

theorem layer (h : Received env x e p c c₁ c') :
    c'.ver.connectionMaxLayer = x.c.ver.connectionMaxLayer :=
  congrArg Settings.connectionMaxLayer h.settings

theorem asking_heard (h : Received env x e p c c₁ c') : c.asking = x.c.asking := by
  rw [h.heard.transport]

theorem raw_heard (h : Received env x e p c c₁ c') : c.rawSendQueue = x.c.rawSendQueue := by
  rw [h.heard.transport]

theorem count_heard (h : Received env x e p c c₁ c') :
    c.unacknowledgedIncomingPacketCount = x.c.unacknowledgedIncomingPacketCount := by
  rw [h.heard.transport]

theorem asking (h : Received env x e p c c₁ c') : c'.asking ⊆ x.c.asking := by
  rw [← h.asking_heard]
  exact Controller.processIncomingPacket_asking h.packet

theorem isNop (h : Received env x e p c c₁ c') {raw : RawPendingOutgoingPacket}
    (hnop : c.IsNop raw) : x.c.IsNop raw :=
  hnop.mono (by rw [h.asking_heard]; exact List.Subset.refl _)

theorem staleTypes_heard (h : Received env x e p c c₁ c') (g : UInt8 → UInt64) :
    c.staleTypes g = x.c.staleTypes g :=
  Controller.staleTypes_congr h.heard.frame.lastReceived

theorem staysNew (h : Received env x e p c c₁ c')
    (hnew : Controller.StaysNew x.c.ver (x.c.freshExtras env p.extraSignaling)) :
    Controller.StaysNew c.ver (c.freshExtras env p.extraSignaling) := by
  rwa [Controller.freshExtras_congr h.heard.frame.lastReceived, h.heard.frame.ver]

/-- A counter that extras left alone or reset, after the packet is counted. -/
theorem count (h : Received env x e p c c₁ c') {acks : ℕ}
    (hafter : c₁.unacknowledgedIncomingPacketCount = c.unacknowledgedIncomingPacketCount ∨
      c₁.unacknowledgedIncomingPacketCount = 0) (hconfig : c₁.config = c.config)
    (hcounted : (acks = 0 ∧ c'.unacknowledgedIncomingPacketCount.toNat ≤
        c₁.unacknowledgedIncomingPacketCount.toNat + 1) ∨
      (acks = 1 ∧ c₁.config.unackNopThreshold.toNat < c₁.unacknowledgedIncomingPacketCount.toNat ∧
        c'.unacknowledgedIncomingPacketCount.toNat = 0)) :
    (acks = 0 ∧ c'.unacknowledgedIncomingPacketCount.toNat ≤
        x.c.unacknowledgedIncomingPacketCount.toNat + 1) ∨
      (acks = 1 ∧ x.threshold < x.c.unacknowledgedIncomingPacketCount.toNat ∧
        c'.unacknowledgedIncomingPacketCount.toNat = 0) := by
  have hconfig₀ : c₁.config = x.c.config :=
    hconfig.trans (congrArg Settings.config h.heard.frame.settings)
  rw [h.count_heard] at hafter
  rw [hconfig₀] at hcounted
  unfold threshold
  have hzero : (0 : UInt32).toNat = 0 := rfl
  rcases hafter with hafter | hafter
  · rw [hafter] at hcounted
    exact hcounted
  · rw [hafter, hzero] at hcounted
    omega

/-- A repetition leaves everything as it was. -/
theorem delivered_duplicate (h : Received env x e p c c c) (hdup : c.accepts p = false)
    (hnew : c.ver.isNew = true) :
    Delivered env x (x.handled env e p c c c) p e 0 0 0 := by
  constructor
  case flight => rfl
  case history => simp [handled, hdup]
  case config => exact h.config
  case layer => exact h.layer
  case isNew => exact hnew
  case asking => exact h.asking
  case sent =>
    refine ⟨[], ?_, rfl, fun _ hraw => absurd hraw List.not_mem_nil⟩
    rw [List.append_nil]
    exact h.raw_heard
  case replies => exact Nat.le_refl 0
  case count =>
    left
    rw [handled, h.count_heard]
    exact ⟨rfl, Nat.le_succ _⟩
  case table =>
    intro g _
    rw [handled, h.staleTypes_heard, Nat.zero_add]
    exact Nat.le_add_left _ _

/-- A fresh packet is answered for its extras, and then counted. -/
theorem delivered_fresh (h : Received env x e p c c₁ c') (haccepts : c.accepts p = true)
    (hnew : c'.ver.isNew = true)
    (hlast : c'.lastReceivedExtrasByType = c₁.lastReceivedExtrasByType)
    (hconfig : c₁.config = c.config)
    (hnops : Controller.Nops (c.passes env p.extraSignaling) c c₁)
    (hcounted : Controller.Counted c₁ c') :
    ∃ replies acks, Delivered env x (x.handled env e p c c₁ c') p e
      (c.passes env p.extraSignaling) replies acks := by
  obtain ⟨sent₁, hsent₁, hle, hall₁⟩ := hnops.sent
  obtain ⟨sent₂, hsent₂, hall₂, hacks⟩ := counted_acks hcounted
  refine ⟨sent₁.length, sent₂.length, ?_⟩
  constructor
  case flight => rfl
  case history =>
    refine ⟨rfl, by rw [handled, if_pos haccepts], ?_, ?_⟩
    · rw [handled, hsent₁, List.length_append, Nat.add_sub_cancel_left]
    · rw [handled, hsent₂, List.length_append, Nat.add_sub_cancel_left]
  case config => exact h.config
  case layer => exact h.layer
  case isNew => exact hnew
  case asking => exact h.asking
  case sent =>
    refine ⟨sent₁ ++ sent₂, ?_, List.length_append, ?_⟩
    · rw [handled, hsent₂, hsent₁, h.raw_heard, List.append_assoc]
    · intro raw hmem
      rcases List.mem_append.mp hmem with hmem | hmem
      · exact h.isNop (hall₁ raw hmem)
      · exact h.isNop ((hall₂ raw hmem).mono hnops.asking)
  case replies => exact hle
  case count => exact h.count hnops.count hconfig hacks
  case table =>
    intro g hpos
    rw [handled, Controller.staleTypes_congr hlast, ← h.staleTypes_heard]
    exact Controller.afterExtras_passes hpos haccepts h.extras

end Received

/-- **A delivered packet**, in the new format. -/
theorem deliver_ok
    (hnew : Controller.StaysNew x.c.ver (x.c.freshExtras env p.extraSignaling))
    (h : x.deliver env e p = .ok x') :
    ∃ passes replies acks, Delivered env x x' p e passes replies acks := by
  obtain ⟨c, c₁, c', hreceived, rfl⟩ := deliver_received h
  obtain ⟨hisNew, c₁', hextras, hcases⟩ :=
    Controller.processIncomingPacket_nops (hreceived.staysNew hnew) hreceived.packet
  obtain rfl : c₁ = c₁' := Except.ok.inj (hreceived.extras.symm.trans hextras)
  rcases hcases with ⟨hdup, rfl, rfl⟩ | ⟨haccepts, hlast, hconfig, hnops, hcounted⟩
  · exact ⟨0, 0, 0, hreceived.delivered_duplicate hdup hisNew⟩
  · exact ⟨_, hreceived.delivered_fresh haccepts hisNew hlast hconfig hnops hcounted⟩

/-! ## The measure -/

variable {h : UInt8 → UInt64} {passes replies acks : ℕ}

/-- The counter, as far as it matters. -/
def backlog (x : AnsweringEnd) : ℕ :=
  min x.c.unacknowledgedIncomingPacketCount.toNat (x.threshold + 1)

/-- The odd copies on their way. -/
def oddOnTheWay (env : Platform) (h : UInt8 → UInt64) (x : AnsweringEnd) : ℕ :=
  (x.flight.map fun p => Controller.oddCopies env h p.extraSignaling).sum

/-- Two for a packet on its way, and two for a NOP that may still be made: each
odd copy makes two, each stale type one, and the counter half of one. -/
def potential (env : Platform) (h : UInt8 → UInt64) (x : AnsweringEnd) : ℕ :=
  2 * x.flight.length + x.backlog + 2 * (2 * x.oddOnTheWay env h + x.c.staleTypes h)

theorem Delivered.threshold_eq (hd : Delivered env x x' p e passes replies acks) :
    x'.threshold = x.threshold := by
  unfold threshold
  rw [hd.config]

theorem Delivered.backlog_lt (hd : Delivered env x x' p e passes replies acks) :
    x'.backlog + 2 * acks < 2 + x.backlog := by
  unfold backlog
  rw [hd.threshold_eq]
  rcases hd.count with ⟨hnone, hcount⟩ | ⟨hone, hover, hreset⟩
  · omega
  · omega

/-- The packet that is delivered leaves. -/
theorem flight_perm (hp : x.flight[e.i]? = some p) :
    (p :: x.flight.eraseIdx e.i).Perm x.flight := by
  obtain ⟨hlt, rfl⟩ := List.getElem?_eq_some_iff.mp hp
  exact List.getElem_cons_eraseIdx_perm hlt

/-- **A delivery pays for its answers.** -/
theorem Delivered.potential_lt (hd : Delivered env x x' p e passes replies acks)
    (hp : x.flight[e.i]? = some p) (hpos : ∀ id, h id ≠ 0) :
    x'.potential env h + 2 * (replies + acks) < x.potential env h := by
  have hlength := (flight_perm hp).length_eq
  have hodd := ((flight_perm hp).map fun p => Controller.oddCopies env h p.extraSignaling).sum_nat
  rw [List.length_cons] at hlength
  rw [List.map_cons, List.sum_cons] at hodd
  have hbacklog := hd.backlog_lt
  have hreplies := hd.replies
  have htable := hd.table h hpos
  unfold potential oddOnTheWay
  rw [hd.flight]
  omega

/-- What arrives at the other side, if what is pending there is expected. -/
theorem Delivered.outgoing_usual {peer : Platform} {g : UInt8 → UInt64}
    (hd : Delivered env x x' p e passes replies acks)
    (husual : ∀ d ∈ x.c.asking.map Prod.fst, ∀ ver : VersionInfo, ver.isNew = true →
      ver.connectionMaxLayer = x.c.ver.connectionMaxLayer →
        peer.hash (.received ver d) = g d.getID) (y : AnsweringEnd) :
    (y.awaits (x.outgoing x')).potential peer g =
      y.potential peer g + 2 * (replies + acks) := by
  obtain ⟨sent, hsent, hlength, hnops⟩ := hd.sent
  have hout : x.outgoing x' = sent.map (arriving x'.c.ver) := by
    unfold outgoing
    rw [hsent, List.drop_left]
  have hnone : ((sent.map (arriving x'.c.ver)).map fun p =>
      Controller.oddCopies peer g p.extraSignaling).sum = 0 := by
    rw [List.sum_eq_zero_iff_forall_eq_nat]
    intro n hn
    rw [List.map_map] at hn
    obtain ⟨raw, hraw, rfl⟩ := List.mem_map.mp hn
    show Controller.oddCopies peer g (raw.pkt.carried.extraSignaling.map fun y =>
      .received x'.c.ver y.d) = 0
    unfold Controller.oddCopies
    rw [List.countP_eq_zero]
    intro z hz
    obtain ⟨y, hy, rfl⟩ := List.mem_map.mp hz
    rw [Bool.and_eq_true, not_and]
    intro hasks
    have hexpected : peer.hash (.received x'.c.ver y.d) = g y.d.getID :=
      husual y.d ((hnops raw hraw).asking y hy hasks) x'.c.ver hd.isNew hd.layer
    exact (bne_eq_false_iff_eq.mpr hexpected).symm ▸ Bool.false_ne_true
  unfold awaits potential oddOnTheWay backlog threshold
  dsimp only
  rw [hout, List.length_append, List.length_map, hlength, List.map_append, List.sum_append, hnone]
  omega

/-! ## What a side answers with -/

/-- What the history says of the answers so far. -/
structure Counts (x₀ x : AnsweringEnd) : Prop where
  threshold : x.threshold = x₀.threshold
  replies : x.replies ≤ x.passed
  acks : x.acks = 0 ∨ (x.acks - 1) * (x.threshold + 2) +
    x.c.unacknowledgedIncomingPacketCount.toNat ≤ x.delivered
  sent : ∃ sent, x.c.rawSendQueue = x₀.c.rawSendQueue ++ sent ∧
    sent.length = x.replies + x.acks ∧ ∀ raw ∈ sent, raw.pkt.carried.data = none

theorem Delivered.counts {x₀ : AnsweringEnd} (hx : Counts x₀ x)
    (hd : Delivered env x x' p e passes replies acks) : Counts x₀ x' := by
  obtain ⟨hdelivered, hpassed, hreplies, hacks⟩ := hd.history
  refine ⟨hd.threshold_eq.trans hx.threshold, ?_, ?_, ?_⟩
  · rw [hreplies, hpassed]
    exact Nat.add_le_add hx.replies hd.replies
  · rw [hdelivered, hacks, hd.threshold_eq]
    rcases hd.count with ⟨rfl, hcount⟩ | ⟨rfl, hover, hreset⟩
    · refine hx.acks.imp (fun h => h) fun h => ?_
      rw [Nat.add_zero]
      omega
    · right
      rw [hreset, Nat.add_sub_cancel]
      cases hn : x.acks with
      | zero => omega
      | succ n =>
          have hsome := hx.acks.resolve_left (by omega)
          rw [hn, Nat.add_sub_cancel] at hsome
          rw [Nat.succ_mul]
          omega
  · obtain ⟨sent, hsent, hlength, hnops⟩ := hx.sent
    obtain ⟨sent', hsent', hlength', hnops'⟩ := hd.sent
    refine ⟨sent ++ sent', by rw [hsent', hsent, List.append_assoc], ?_, ?_⟩
    · rw [List.length_append, hlength, hlength', hreplies, hacks]
      omega
    · intro raw hraw
      rcases List.mem_append.mp hraw with hraw | hraw
      · exact hnops raw hraw
      · exact (hnops' raw hraw).data

/-- **What a side answers with**, from `x` to `x'`: at most one NOP for the
packets that were there, one for every further `threshold + 2`, and one for
each copy of an init or a ping that passes the duplicate check. -/
structure Answers (x x' : AnsweringEnd) : Prop where
  acks : x'.acks ≤ 1 + x'.delivered / (x.threshold + 2)
  replies : x'.replies ≤ x'.passed
  sent : ∃ sent, x'.c.rawSendQueue = x.c.rawSendQueue ++ sent ∧
    sent.length = x'.replies + x'.acks ∧ ∀ raw ∈ sent, raw.pkt.carried.data = none

theorem Counts.answers {x₀ : AnsweringEnd} (hx : Counts x₀ x) : Answers x₀ x where
  acks := by
    rw [← hx.threshold]
    rcases hx.acks with hnone | hsome
    · rw [hnone]
      exact Nat.zero_le _
    · have hle : (x.acks - 1) * (x.threshold + 2) ≤ x.delivered := Nat.le_of_add_right_le hsome
      have hdiv := (Nat.le_div_iff_mul_le (by omega : 0 < x.threshold + 2)).mpr hle
      omega
  replies := hx.replies
  sent := hx.sent

/-- Nothing was delivered yet, and one extra of a type is pending. -/
structure Started (x : AnsweringEnd) : Prop where
  pending : x.c.OnePending
  delivered : x.delivered = 0
  passed : x.passed = 0
  replies : x.replies = 0
  acks : x.acks = 0

theorem Started.counts (hx : x.Started) : Counts x x where
  threshold := rfl
  replies := Nat.le_of_eq (hx.replies.trans hx.passed.symm)
  acks := .inl hx.acks
  sent := ⟨[], (List.append_nil _).symm, by rw [hx.replies, hx.acks]; rfl,
    fun _ h => absurd h List.not_mem_nil⟩

end AnsweringEnd

/-! ## Runs -/

/-- The two ends of a call. -/
abbrev AnsweringCall := Bool → AnsweringEnd

namespace AnsweringCall

/-- What the packet is answered with is on its way to the other side. -/
def step (env : Bool → Platform) (call : AnsweringCall) (e : AnsweringEvent) :
    Except Fault AnsweringCall :=
  match (call e.side).flight[e.i]? with
  | none => pure call
  | some p => do
    let x ← (call e.side).deliver (env e.side) e p
    pure fun side =>
      if side = e.side then x else (call side).awaits ((call e.side).outgoing x)

/-- There is such a packet, and the format is and stays the new one. -/
def Delivers (env : Bool → Platform) (call : AnsweringCall) (e : AnsweringEvent) : Prop :=
  ∃ p, (call e.side).flight[e.i]? = some p ∧ Controller.StaysNew (call e.side).c.ver
    ((call e.side).c.freshExtras (env e.side) p.extraSignaling)

variable {env : Bool → Platform} {call call' : AnsweringCall} {e : AnsweringEvent}
  {h : Bool → UInt8 → UInt64}

/-- The inits and pings a side has pending are what the other side expects. -/
def Usual (env : Bool → Platform) (h : Bool → UInt8 → UInt64) (call : AnsweringCall) : Prop :=
  ∀ side, ∀ d ∈ (call side).c.asking.map Prod.fst, ∀ ver : VersionInfo, ver.isNew = true →
    ver.connectionMaxLayer = (call side).c.ver.connectionMaxLayer →
      (env !side).hash (.received ver d) = h (!side) d.getID

/-- The measure of a call. -/
def potential (env : Bool → Platform) (h : Bool → UInt8 → UInt64) (call : AnsweringCall) : ℕ :=
  (call false).potential (env false) (h false) + (call true).potential (env true) (h true)

theorem potential_eq (side : Bool) : call.potential env h =
    (call side).potential (env side) (h side) +
      (call !side).potential (env !side) (h !side) := by
  cases side with
  | false => rfl
  | true => exact Nat.add_comm _ _

theorem step_ok (hdelivers : call.Delivers env e) (hstep : call.step env e = .ok call') :
    ∃ p passes replies acks, (call e.side).flight[e.i]? = some p ∧
      AnsweringEnd.Delivered (env e.side) (call e.side) (call' e.side) p e passes replies acks ∧
      call' (!e.side) = (call !e.side).awaits ((call e.side).outgoing (call' e.side)) := by
  obtain ⟨p, hp, hnew⟩ := hdelivers
  unfold step at hstep
  rw [hp] at hstep
  obtain ⟨x, hx, hstep⟩ := bind_eq_ok.mp hstep
  obtain ⟨passes, replies, acks, hd⟩ := AnsweringEnd.deliver_ok hnew hx
  obtain rfl := pure_eq_ok.mp hstep
  dsimp only
  rw [if_pos rfl, if_neg (Bool.not_ne_self _)]
  exact ⟨p, passes, replies, acks, hp, hd, rfl⟩

theorem Usual.step (husual : call.Usual env h) (hdelivers : call.Delivers env e)
    (hstep : call.step env e = .ok call') : call'.Usual env h := by
  obtain ⟨p, passes, replies, acks, -, hd, hpeer⟩ := step_ok hdelivers hstep
  intro side
  by_cases hside : side = e.side
  · subst hside
    intro d hd' ver hver hlayer
    exact husual e.side d (List.map_subset _ hd.asking hd') ver hver (hlayer.trans hd.layer)
  · obtain rfl : side = !e.side := Bool.eq_not_of_ne hside
    rw [hpeer]
    exact husual _

/-- **Each delivery takes from the measure.** -/
theorem potential_lt (hpos : ∀ side id, h side id ≠ 0) (husual : call.Usual env h)
    (hdelivers : call.Delivers env e) (hstep : call.step env e = .ok call') :
    call'.potential env h < call.potential env h := by
  obtain ⟨p, passes, replies, acks, hp, hd, hpeer⟩ := step_ok hdelivers hstep
  rw [potential_eq e.side, potential_eq e.side, hpeer, hd.outgoing_usual (husual e.side)]
  have hlt := hd.potential_lt hp (hpos e.side)
  omega

theorem counts_step {call₀ : AnsweringCall}
    (hcounts : ∀ side, AnsweringEnd.Counts (call₀ side) (call side))
    (hdelivers : call.Delivers env e) (hstep : call.step env e = .ok call') (side : Bool) :
    AnsweringEnd.Counts (call₀ side) (call' side) := by
  obtain ⟨p, passes, replies, acks, -, hd, hpeer⟩ := step_ok hdelivers hstep
  by_cases hside : side = e.side
  · subst hside
    exact hd.counts (hcounts _)
  · obtain rfl : side = !e.side := Bool.eq_not_of_ne hside
    rw [hpeer]
    have hcounts := hcounts !e.side
    exact ⟨hcounts.threshold, hcounts.replies, hcounts.acks, hcounts.sent⟩

/-! ### What is expected at the start -/

/-- The hash of what the other side has pending of a type. -/
def expected (env : Bool → Platform) (call : AnsweringCall) (side : Bool) (id : UInt8) : UInt64 :=
  let ver : VersionInfo := ⟨protocolReliable, (call !side).c.ver.connectionMaxLayer⟩
  match (call !side).c.asking.find? (·.1.getID == id) with
  | some a => (env side).hash (.received ver a.1)
  | none => (env side).hash (.received ver .ping)

theorem expected_ne_zero
    (hhash : ∀ side ver x, (env side).sha1 (WrappedExtra.content ver x) ≠ 0) (side : Bool)
    (id : UInt8) : call.expected env side id ≠ 0 := by
  unfold expected
  dsimp only
  split
  · exact hhash side _ _
  · exact hhash side _ _

theorem usual_expected (hpending : ∀ side, (call side).c.OnePending) :
    call.Usual env (call.expected env) := by
  intro side d hd ver hver hlayer
  obtain ⟨a, ha, rfl⟩ := List.mem_map.mp hd
  let canonical : VersionInfo := ⟨protocolReliable, (call side).c.ver.connectionMaxLayer⟩
  have hcanonical : (env !side).hash (.received ver a.1) =
      (env !side).hash (.received canonical a.1) := by
    have hnew : canonical.isNew = true := by simp [canonical, VersionInfo.isNew]
    unfold WrappedExtra.received
    rw [WrappedExtra.content_of_isNew hver hnew hlayer]
  rw [hcanonical]
  unfold expected
  rw [Bool.not_not]
  cases hfind : (call side).c.asking.find? (·.1.getID == a.1.getID) with
  | none =>
      have hmiss := List.find?_eq_none.mp hfind a ha
      simp at hmiss
  | some b =>
      have hid : b.1.getID = a.1.getID := by simpa using List.find?_some hfind
      have hsame := (hpending side).eq_of_getID (List.mem_of_find?_eq_some hfind) ha hid
      show _ = (env !side).hash (.received canonical b.1)
      rw [hsame]

/-- **Replies cannot storm**: what is delivered in a call to which nothing is
added is bounded from the start, in whatever order it comes. -/
theorem replies_end {env : Bool → Platform} {call : AnsweringCall}
    (hstart : ∀ side, (call side).Started)
    (hhash : ∀ side ver x, (env side).sha1 (WrappedExtra.content ver x) ≠ 0) :
    ∃ bound, ∀ events call', AlongOk (step env) (Delivers env) call events →
      events.foldlM (step env) call = .ok call' →
        events.length ≤ bound ∧ ∀ side, AnsweringEnd.Answers (call side) (call' side) := by
  have husual : call.Usual env (call.expected env) :=
    usual_expected fun side => (hstart side).pending
  refine ⟨call.potential env (call.expected env), ?_⟩
  intro events call' hrun hend
  constructor
  · refine hrun.length_le (I := Usual env (call.expected env)) ?_ husual hend
    intro c e c' husual he hstep
    exact ⟨husual.step he hstep, potential_lt (expected_ne_zero hhash) husual he hstep⟩
  · have hcounts : ∀ side, AnsweringEnd.Counts (call side) (call' side) := by
      refine hrun.invariant (I := fun call' => ∀ side, AnsweringEnd.Counts (call side) (call' side))
        ?_ (fun side => (hstart side).counts) hend
      intro c e c' hcounts he hstep
      exact counts_step hcounts he hstep
    exact fun side => (hcounts side).answers

/-! ## On fixed inputs -/

instance (ver : VersionInfo) (xs : List Extra) : Decidable (Controller.StaysNew ver xs) :=
  inferInstanceAs (Decidable (_ ∨ _ ∧ _))

instance (env : Bool → Platform) (call : AnsweringCall) (e : AnsweringEvent) :
    Decidable (call.Delivers env e) :=
  decidable_of_iff ((call e.side).flight[e.i]?.any fun p => Controller.StaysNew (call e.side).c.ver
    ((call e.side).c.freshExtras (env e.side) p.extraSignaling)) (by
      simp [Delivers, Option.any_eq_true])

/-- The sample platform, with the SHA-1 of a ping and a pong. -/
def pingPlatform : Platform :=
  { Controller.samplePlatform with sha1 := fun bs =>
      if bs = [10] then 0x1b4993e7193bc8ad
        else if bs = [11, 0, 0, 0, 0] then 0x65e5d45b275d8bbe else 1 }

/-- Both sides have sent a ping. -/
def pinged : AnsweringCall := fun _ =>
  { c := (Controller.sampleCall {}).sendExtra { d := .ping } 1
    flight := [{ seq := 5, extraSignaling := [.received ⟨0, 110⟩ .ping] }] }

/-- The first packet on its way is delivered. -/
def arrives (side : Bool) : AnsweringEvent :=
  { side, i := 0, now := 1, src := 1, address := .ipv4 0, port := 0 }

/-- The two pings are delivered, and then what answers them. -/
def pingedRun : List AnsweringEvent := [arrives true, arrives false, arrives true, arrives false]

theorem pinged_started (side : Bool) : (pinged side).Started where
  pending := {
    keys := List.nodup_singleton _
    init := by cases side <;> decide }
  delivered := rfl
  passed := rfl
  replies := rfl
  acks := rfl

theorem replies_end_pinged :
    ∃ bound call', AlongOk (step fun _ => pingPlatform) (Delivers fun _ => pingPlatform) pinged
        pingedRun ∧ pingedRun.foldlM (step fun _ => pingPlatform) pinged = .ok call' ∧
      pingedRun.length ≤ bound ∧ ∀ side, AnsweringEnd.Answers (pinged side) (call' side) := by
  have hhash : ∀ (side : Bool) ver x,
      ((fun _ => pingPlatform) side : Platform).sha1 (WrappedExtra.content ver x) ≠ 0 := by
    intro side ver x
    simp only [pingPlatform]
    split
    · decide
    · split
      · decide
      · decide
  obtain ⟨bound, hbound⟩ := replies_end pinged_started hhash
  have hrun : AlongOk (step fun _ => pingPlatform) (Delivers fun _ => pingPlatform) pinged
      pingedRun := by decide +kernel
  have hok : (pingedRun.foldlM (step fun _ => pingPlatform) pinged).isOk = true := by
    decide +kernel
  cases hend : pingedRun.foldlM (step fun _ => pingPlatform) pinged with
  | error e => rw [hend] at hok; cases hok
  | ok call' =>
      obtain ⟨hlength, hanswers⟩ := hbound pingedRun call' hrun hend
      exact ⟨bound, call', hrun, rfl, hlength, hanswers⟩

example : ((pingedRun.foldlM (step fun _ => pingPlatform) pinged).map fun call =>
      ((call true).replies, (call true).acks, (call true).flight.length,
        (call false).replies, (call false).flight.length)).toOption = some (1, 0, 0, 1, 0) := by
  decide +kernel

end AnsweringCall

end Tgvoip
