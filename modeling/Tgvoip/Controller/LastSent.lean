import Mathlib.Order.Interval.Finset.Nat
import Tgvoip.Controller.Bearings

/-!
# LastSent — what `lastSentSeq` tells

`addRecentOutgoingPacket` takes the seq of whatever is sent for the last
one sent: of a new packet, of one that waited for its socket, and of a
reliable packet that is sent again. `Tracks` is what holds of it in every
run. It is the newest seq as long as the seqs of a stream are handed to
the send thread in order; `UpdateCongestion`, which counts packets by it,
also needs that none is left out.
-/

namespace Tgvoip

open ByteReader Fallible

/-! ## The seqs sent on a stream -/

namespace Transport

/-- The seqs sent on a stream so far, in the order they were handed to the send
thread in. -/
def sentSeqs (t : Transport) (i : ℕ) : List UInt32 :=
  (t.rawSendQueue.filter fun r => r.pkt.pktInfo.streamId.toNat == i).map (·.pkt.pktInfo.seq)

/-- `lastSentSeq` of a stream, 0 where there is none yet. -/
def lastSentSeq (t : Transport) (i : ℕ) : UInt32 :=
  (t.outgoingStreams[i]?).elim 0 (·.packetManager.lastSentSeq)

/-- Each stream's `lastSentSeq` is the seq sent last on it, and nothing was sent
on streams that do not exist. -/
structure Tracks (t : Transport) : Prop where
  last : ∀ i, t.lastSentSeq i = (t.sentSeqs i).getLast?.getD 0
  streams : ∀ i, t.outgoingStreams.length ≤ i → t.sentSeqs i = []

theorem sentSeqs_prefix {t t' : Transport} (h : t.rawSendQueue <+: t'.rawSendQueue) (i : ℕ) :
    t.sentSeqs i <+: t'.sentSeqs i := (h.filter _).map _

end Transport

namespace Controller

variable {env : Platform} {c c' c₁ : Controller} {now : Time} {src : Int64} {p : Packet}

/-! ## Sending -/

theorem lastSentSeq_setManager {i : ℕ} {s : OutgoingStream} {pm : PacketManager}
    (hs : c.outgoingStreams[i]? = some s) (j : ℕ) :
    (c.setManager i pm).lastSentSeq j = if i = j then pm.lastSentSeq else c.lastSentSeq j := by
  unfold Transport.lastSentSeq
  rw [getElem?_setManager hs]
  split
  · rfl
  · rfl

/-- A packet manager that has sent the same. -/
theorem Tracks.setManager {i : ℕ} {s : OutgoingStream} {pm : PacketManager} (hc : c.Tracks)
    (hs : c.outgoingStreams[i]? = some s) (hpm : pm.lastSentSeq = s.packetManager.lastSentSeq) :
    (c.setManager i pm).Tracks where
  last := by
    intro j
    rw [lastSentSeq_setManager hs]
    by_cases hij : i = j
    · subst hij
      have hlast := hc.last i
      rw [Transport.lastSentSeq, hs] at hlast
      rw [if_pos rfl, hpm]
      exact hlast
    · rw [if_neg hij]
      exact hc.last j
  streams := by
    intro j hj
    apply hc.streams j
    simpa [Controller.setManager] using hj

theorem transmit_tracks {pkt : PendingOutgoingPacket} {e : Endpoint} (hc : c.Tracks)
    (h : c.transmit now pkt e = .ok c') : c'.Tracks := by
  unfold transmit at h
  obtain ⟨s, hs, h⟩ := bind_eq_ok.mp h
  rw [outgoingStream_eq_ok] at hs
  cases pure_eq_ok.mp h
  have hsent : ∀ i, Transport.sentSeqs { c.toTransport with
      rawSendQueue := c.rawSendQueue ++
        [{ pkt, address := e.getAddress, port := e.port, tcp := e.type == .tcpRelay }] } i =
      c.sentSeqs i ++ if pkt.pktInfo.streamId.toNat = i then [pkt.pktInfo.seq] else [] := by
    intro i
    unfold Transport.sentSeqs
    rw [List.filter_append, List.map_append]
    by_cases hi : pkt.pktInfo.streamId.toNat = i
    · simp [hi]
    · simp [hi]
  refine ⟨?_, ?_⟩
  · intro i
    refine Eq.trans (lastSentSeq_setManager hs i) ?_
    refine Eq.trans ?_ (congrArg (fun l => l.getLast?.getD 0) (hsent i)).symm
    by_cases hi : pkt.pktInfo.streamId.toNat = i
    · simp [hi, PacketManager.addRecentOutgoingPacket]
    · simp only [hi, if_false, List.append_nil]
      exact hc.last i
  · intro i hi
    have hlen : c.outgoingStreams.length ≤ i := by simpa [setManager] using hi
    have hstream : pkt.pktInfo.streamId.toNat < c.outgoingStreams.length :=
      (List.getElem?_eq_some_iff.mp hs).1
    refine (hsent i).trans ?_
    rw [hc.streams i hlen, if_neg (by omega), List.append_nil]

theorem prepare_lastSentSeq (p : Packet) (pm : PacketManager) :
    (p.prepare pm).2.lastSentSeq = pm.lastSentSeq := by
  unfold Packet.prepare
  split <;> rfl

theorem prepareLegacySeq_lastSentSeq (p : Packet) (pm legacyPm : PacketManager) :
    (prepareLegacySeq p pm legacyPm).2.lastSentSeq = legacyPm.lastSentSeq := by
  unfold prepareLegacySeq
  split
  · split <;> rfl
  · rfl

/-- **Sending tracks the seqs**, in every format. -/
theorem tracks_rule : SendRule fun c c' => c.Tracks → c'.Tracks where
  refl := fun _ hc => hc
  trans := fun h h' hc => h' (h hc)
  connect := fun _ hc => by rwa [connectIfNeeded_toTransport]
  transmit := fun h hc => transmit_tracks hc h
  enqueue := fun _ _ hc => ⟨hc.last, hc.streams⟩
  reliably := by
    intro c pkt retryInterval timeout tries hc
    unfold sendPacketReliably
    dsimp only
    split <;> exact ⟨hc.last, hc.streams⟩
  noteSealing := fun _ _ hc => ⟨hc.last, hc.streams⟩
  prepareNew := by
    intro c p endpointId stream hs hc
    have hset := Tracks.setManager hc hs (prepare_lastSentSeq p stream.packetManager)
    exact ⟨hset.last, hset.streams⟩
  prepareLegacy := by
    intro c p endpoint stream signaling localSeq hs hsig hc
    have hset := Tracks.setManager hc hs (prepare_lastSentSeq p stream.packetManager)
    have hlegacy : ((prepareLegacySeq (p.prepare stream.packetManager).1
        (p.prepare stream.packetManager).2 signaling.packetManager).2.setLocalSeq
        localSeq).lastSentSeq = signaling.packetManager.lastSentSeq :=
      prepareLegacySeq_lastSentSeq ..
    have hset' := Tracks.setManager hset hsig hlegacy
    exact ⟨hset'.last, hset'.streams⟩

theorem sendExtra_tracks (hc : c.Tracks) (extra : WrappedExtra) (endpointId : Int64) :
    (c.sendExtra extra endpointId).Tracks := by
  unfold sendExtra
  split <;> exact ⟨hc.last, hc.streams⟩

/-! ## Receiving -/

theorem dispatchExtra_tracks {x : Extra} (hc : c.Tracks)
    (h : c.dispatchExtra env now x src = .ok c') : c'.Tracks := by
  rcases dispatchExtra_ok h with ⟨-, hquiet⟩ | ⟨-, c₁, c₂, h₁, h₂, h₃⟩
  · exact hquiet.transport ▸ hc
  · have hprepared : c₁.Tracks := by
      rcases h₁.streams with hsame | ⟨d, -, -, -, hadded⟩
      · exact hsame ▸ hc
      · rw [hadded]
        -- a new video stream has sent nothing yet
        have hlen : ∀ i, c.outgoingStreams.length ≤ i → c.lastSentSeq i = 0 := by
          intro i hi
          rw [Transport.lastSentSeq, List.getElem?_eq_none hi]
          rfl
        refine ⟨?_, ?_⟩
        · intro i
          refine Eq.trans ?_ (hc.last i)
          unfold Transport.lastSentSeq
          dsimp only
          rcases Nat.lt_or_ge i c.outgoingStreams.length with hi | hi
          · rw [List.getElem?_append_left hi]
          · rw [List.getElem?_append_right hi, List.getElem?_eq_none hi]
            cases hv : (videoStreams env c.peerVideoDecoders d.decoders)[i - c.outgoingStreams.length]? with
            | none => rfl
            | some s =>
                obtain ⟨codec, rfl⟩ := mem_videoStreams (List.mem_of_getElem? hv)
                rfl
        · intro i hi
          apply hc.streams i
          rw [List.length_append] at hi
          omega
    have hextra := sendExtra_tracks hprepared { d := c₁.reply x } 0
    unfold answer sendNopPacket at h₂
    exact h₃.transport ▸ tracks_rule.sendPacket h₂ hextra

theorem processExtras_tracks {xs : List WrappedExtra} (hc : c.Tracks)
    (h : c.processExtras env now src xs = .ok c') : c'.Tracks :=
  processExtras_rule (I := fun c₁ _ => c₁.Tracks) (fun _ _ _ h => h)
    (fun _ _ _ _ h hx => dispatchExtra_tracks h hx) hc h

theorem AckStage.tracks {s : OutgoingStream} (hc : c.Tracks)
    (hs : c.outgoingStreams[p.managerIndex.toNat]? = some s)
    (h : AckStage now p s.packetManager c c') : c'.Tracks := by
  obtain ⟨-, rfl⟩ | ⟨-, c₀, htransport, -, rfl⟩ := h
  · exact hc
  · have hc₀ : c₀.Tracks := htransport ▸ hc
    have hs₀ : c₀.outgoingStreams[p.managerIndex.toNat]? = some s := by rw [htransport, hs]
    have hlast : (acknowledged s.packetManager now p).lastSentSeq = s.packetManager.lastSentSeq :=
      rfl
    have hset := Tracks.setManager hc₀ hs₀ hlast
    exact ⟨hset.last, hset.streams⟩

theorem arrived_tracks {s : OutgoingStream} (hc : c.Tracks)
    (hs : c.outgoingStreams[p.managerIndex.toNat]? = some s) : (c.arrived s p).Tracks := by
  apply Tracks.setManager hc hs
  unfold PacketManager.ackRemotePacket
  split
  · split
    · obtain ⟨head, mask, h⟩ := PacketManager.ackRemoteSeq_window s.packetManager p.legacySeq
      rw [h]
    · rfl
  · obtain ⟨head, mask, h⟩ := PacketManager.ackRemoteSeq_window s.packetManager p.seq
    rw [h]

theorem processIncomingPacket_tracks (hc : c.Tracks)
    (h : c.processIncomingPacket env now p src = .ok c') : c'.Tracks := by
  obtain ⟨s, hs, ⟨-, rfl⟩ | ⟨-, h⟩⟩ := processIncomingPacket_ok h
  · exact hc
  · obtain ⟨c₁, c₂, c₃, c₄, t, hstages⟩ := processFreshPacket_ok h
    have hc₁ := processExtras_tracks (arrived_tracks hc hs) hstages.extras
    have hc₂ := AckStage.tracks hc₁ hstages.stream hstages.acks
    have hc₃ : c₃.Tracks := hstages.endpoint.1 ▸ hc₂
    have hc₄ : c₄.Tracks := tracks_rule.countUnacknowledged
      (fun _ hc => ⟨hc.last, hc.streams⟩) hstages.counts hc₃
    exact hstages.notes.transport ▸ hc₄

/-- Up to the switch to a relay, and at the test for it. -/
theorem beforeSwitch_tracks {pm : PacketManager} (hc : c.Tracks)
    (h : c.beforeSwitch env now p src = .ok (c₁, pm)) :
    c₁.Tracks ∧ c₁.lastSentSeq p.managerIndex.toNat = pm.lastSentSeq := by
  unfold beforeSwitch at h
  obtain ⟨c₂, hextras, h⟩ := bind_eq_ok.mp h
  obtain ⟨s, hs, h⟩ := bind_eq_ok.mp h
  obtain ⟨sender, -, h⟩ := bind_eq_ok.mp h
  rw [outgoingStream_eq_ok] at hs
  have hc₂ := processExtras_tracks hc hextras
  have hend : ∀ c₃ : Controller, c₃.Tracks → (do
      let stream ← c₃.outgoingStream p.managerIndex.toNat
      pure (c₃, stream.packetManager)) = (.ok (c₁, pm) : Except Fault _) →
      c₁.Tracks ∧ c₁.lastSentSeq p.managerIndex.toNat = pm.lastSentSeq := by
    intro c₃ hc₃ h
    obtain ⟨t, ht, h⟩ := bind_eq_ok.mp h
    rw [outgoingStream_eq_ok] at ht
    cases pure_eq_ok.mp h
    refine ⟨hc₃, ?_⟩
    rw [Transport.lastSentSeq, ht]
    rfl
  dsimp only at h
  split at h
  · rename_i htakes
    obtain ⟨c₃, hack, h⟩ := bind_eq_ok.mp h
    exact hend c₃ (AckStage.tracks hc₂ hs (.inr ⟨htakes, processAck_ok hack⟩)) h
  · exact hend c₂ hc₂ h

/-- What is sent before the switch stays sent. -/
theorem beforeSwitch_rawSendQueue {pm : PacketManager}
    (h : c.beforeSwitch env now p src = .ok (c₁, pm))
    (hrun : c.processFreshPacket env now p src = .ok c') : c₁.rawSendQueue <+: c'.rawSendQueue := by
  rw [processFreshPacket_eq] at hrun
  obtain ⟨r, hbefore, hrun⟩ := bind_eq_ok.mp hrun
  cases h.symm.trans hbefore
  obtain ⟨c₂, hrelay, hrun⟩ := bind_eq_ok.mp hrun
  obtain ⟨c₃, hcount, hrun⟩ := bind_eq_ok.mp hrun
  have hsame : c₂.rawSendQueue = c₁.rawSendQueue :=
    congrArg Transport.rawSendQueue (switchToRelay_ok hrelay).1
  have hsame' : c'.rawSendQueue = c₃.rawSendQueue :=
    congrArg Transport.rawSendQueue (noteStreamPacket_quiet (x := .ping) hrun).transport
  rw [← hsame, hsame']
  exact (countUnacknowledged_frame hcount).rawSendQueue

/-- **Every step tracks the seqs.** -/
theorem step_tracks {e : Time × Event} (hc : c.Tracks) (h : c.step env e = .ok c') : c'.Tracks := by
  obtain ⟨now, e⟩ := e
  cases e with
  | packet p src => exact processIncomingPacket_tracks hc h
  | sendPacket pkt retryInterval timeout tries => exact tracks_rule.sendPacket h hc
  | sendNopPacket endpointId => exact tracks_rule.sendPacket h hc
  | sendExtra x endpointId => exact pure_eq_ok.mp h ▸ sendExtra_tracks hc _ _
  | sendInit =>
      refine tracks_rule.sendInit (fun hc => sendExtra_tracks hc _ _) ?_ ?_ h hc
      · intro c s hs hc
        exact Tracks.setManager hc hs rfl
      · intro c _ hc
        exact ⟨hc.last, hc.streams⟩
  | updateReliablePackets =>
      exact tracks_rule.updateReliablePackets (fun _ _ hc => ⟨hc.last, hc.streams⟩) h hc
  | trySendOutgoingPackets => exact tracks_rule.trySendOutgoingPackets h hc
  | udpSocket ready => exact pure_eq_ok.mp h ▸ ⟨hc.last, hc.streams⟩
  | tcpSocket key ready => exact pure_eq_ok.mp h ▸ ⟨hc.last, hc.streams⟩

/-! ## The order of the seqs -/

/-- What a step hands to the send thread, in order. -/
def handedOver (env : Platform) (c : Controller) (e : Time × Event) : List CongestionControlPacket :=
  match c.step env e with
  | .ok c' => (c'.rawSendQueue.drop c.rawSendQueue.length).map (·.pkt.pktInfo)
  | .error _ => []

/-- The seqs a step hands over are, stream by stream, not below what was sent
before, and in order. -/
def HandsOverInOrder (env : Platform) (c : Controller) (e : Time × Event) : Prop :=
  (∀ pkt ∈ handedOver env c e, c.lastSentSeq pkt.streamId.toNat ≤ pkt.seq) ∧
    (handedOver env c e).Pairwise fun a b => a.streamId = b.streamId → a.seq ≤ b.seq

instance (e : Time × Event) : Decidable (HandsOverInOrder env c e) :=
  inferInstanceAs (Decidable (_ ∧ _))

theorem step_sentSeqs {e : Time × Event} (h : c.step env e = .ok c') (i : ℕ) :
    c'.sentSeqs i = c.sentSeqs i ++
      ((handedOver env c e).filter fun pkt => pkt.streamId.toNat == i).map (·.seq) := by
  obtain ⟨added, hadded⟩ := step_rawSendQueue h
  unfold handedOver Transport.sentSeqs
  rw [h, ← hadded, List.filter_append, List.map_append]
  dsimp only
  rw [← hadded, List.drop_left, List.filter_map, List.map_map]
  rfl

/-- The seqs of every stream were sent in order. -/
def Ascending (c : Controller) : Prop := ∀ i, (c.sentSeqs i).Pairwise (· ≤ ·)

end Controller

/-- The greatest of the seqs sent so far, if any were sent. -/
structure Greatest (sent : List UInt32) (last : UInt32) : Prop where
  upper : ∀ seq ∈ sent, seq ≤ last
  mem : sent ≠ [] → last ∈ sent

/-- The last of an ascending list is its greatest. -/
theorem greatest_of_pairwise {sent : List UInt32} (h : sent.Pairwise (· ≤ ·)) :
    Greatest sent (sent.getLast?.getD 0) := by
  induction sent using List.reverseRecOn with
  | nil => exact ⟨nofun, fun hne => absurd rfl hne⟩
  | append_singleton sent last _ =>
      obtain ⟨-, -, hlast⟩ := List.pairwise_append.mp h
      rw [List.getLast?_append, List.getLast?_singleton, Option.some_or, Option.getD_some]
      refine ⟨?_, fun _ => by simp⟩
      intro seq hseq
      rcases List.mem_append.mp hseq with hseq | hseq
      · exact hlast seq hseq last (by simp)
      · exact List.mem_singleton.mp hseq ▸ UInt32.le_refl _

theorem Transport.Tracks.greatest {t : Transport} (ht : t.Tracks) {i : ℕ}
    (h : (t.sentSeqs i).Pairwise (· ≤ ·)) : Greatest (t.sentSeqs i) (t.lastSentSeq i) := by
  rw [ht.last i]
  exact greatest_of_pairwise h

namespace Controller

variable {env : Platform} {c c' c₁ : Controller} {now : Time} {src : Int64} {p : Packet}

theorem Ascending.step {e : Time × Event} (hasc : c.Ascending) (hc : c.Tracks)
    (horder : HandsOverInOrder env c e) (h : c.step env e = .ok c') : c'.Ascending := by
  intro i
  rw [step_sentSeqs h]
  refine List.pairwise_append.mpr ⟨hasc i, ?_, ?_⟩
  · rw [List.pairwise_map, List.pairwise_filter]
    refine horder.2.imp ?_
    intro a b hab ha hb
    have hia : a.streamId.toNat = i := by simpa using ha
    have hib : b.streamId.toNat = i := by simpa using hb
    exact hab (UInt8.toNat_inj.mp (hia.trans hib.symm))
  · intro old hold new hnew
    obtain ⟨pkt, hpkt, rfl⟩ := List.mem_map.mp hnew
    obtain ⟨hmem, hi⟩ := List.mem_filter.mp hpkt
    have hi : pkt.streamId.toNat = i := by simpa using hi
    have hlast := hi ▸ horder.1 pkt hmem
    exact UInt32.le_trans ((hc.greatest (hasc i)).upper old hold) hlast

/-- More is sent, in order: the last seq does not go back. -/
theorem lastSentSeq_le (hc : c.Tracks) (hc' : c'.Tracks) {i : ℕ}
    (hsent : c.sentSeqs i <+: c'.sentSeqs i) (hasc : (c'.sentSeqs i).Pairwise (· ≤ ·)) :
    c.lastSentSeq i ≤ c'.lastSentSeq i := by
  have hbefore := hc.greatest (hasc.sublist hsent.sublist)
  by_cases hnone : c.sentSeqs i = []
  · rw [hc.last i, hnone]
    exact UInt32.le_iff_toNat_le.mpr (Nat.zero_le _)
  · exact (hc'.greatest hasc).upper _ (hsent.subset (hbefore.mem hnone))

/-- The stream of `getBestPacketManager`. -/
def bestStream (c : Controller) : ℕ :=
  (if c.ver.isNew then StreamId.audio else StreamId.signaling).toNat

end Controller

/-! ## UpdateCongestion -/

/-- A controller, and what `UpdateCongestion` remembers of its packet counts. -/
structure CongestionWatch where
  c : Controller
  prevSeq : UInt32 := 1
  packetCountHistory : HistoricBuffer UInt32 10 := .new
  /-- History: the controller at the previous call. -/
  previous : Option Controller := none

inductive WatchEvent where
  | controller (e : Time × Event)
  | updateCongestion

namespace CongestionWatch

open Controller

variable {env : Platform} {t t' : CongestionWatch} {e : WatchEvent}

/-- `UpdateCongestion`, as far as it counts packets. -/
def updateCongestion (t : CongestionWatch) : Except Fault CongestionWatch := do
  let stream ← t.c.outgoingStream t.c.bestStream
  let lastSentSeq := stream.packetManager.lastSentSeq
  pure { t with
    packetCountHistory := t.packetCountHistory.add (lastSentSeq - t.prevSeq)
    prevSeq := lastSentSeq
    previous := some t.c }

def step (env : Platform) (t : CongestionWatch) : WatchEvent → Except Fault CongestionWatch
  | .controller e => do
    let c ← t.c.step env e
    pure { t with c }
  | .updateCongestion => t.updateCongestion

/-- What a step of the controller owes: no last seq goes back, each is the
greatest sent so far, also where `ProcessIncomingPacket` compares it with the
last acknowledged one. -/
structure Monotone (env : Platform) (c : Controller) (e : Time × Event) : Prop where
  mono : ∀ c', c.step env e = .ok c' → ∀ i, c.lastSentSeq i ≤ c'.lastSentSeq i
  greatest : ∀ c', c.step env e = .ok c' → ∀ i, Greatest (c'.sentSeqs i) (c'.lastSentSeq i)
  compared : ∀ c' p src s c₁ pm, c.step env e = .ok c' → e.2 = .packet p src →
    c.outgoingStreams[p.managerIndex.toNat]? = some s → c.accepts p = true →
    (c.arrived s p).beforeSwitch env e.1 p src = .ok (c₁, pm) →
    Greatest (c₁.sentSeqs p.managerIndex.toNat) pm.lastSentSeq

/-- What a call of `UpdateCongestion` owes: the number it adds is no difference
that wrapped around, and is the number of seqs sent since the previous call that
were not sent before. -/
structure Counts (t : CongestionWatch) : Prop where
  unwrapped : t.prevSeq ≤ t.c.lastSentSeq t.c.bestStream
  new : ∀ c₀ ∈ t.previous, (t.c.lastSentSeq t.c.bestStream - t.prevSeq).toNat =
    ((t.c.sentSeqs t.c.bestStream).toFinset \ (c₀.sentSeqs t.c.bestStream).toFinset).card

/-- **The last sent seq is monotone**, and counts the packets. -/
def LastSentKept (env : Platform) (t : CongestionWatch) : WatchEvent → Prop
  | .controller e => Monotone env t.c e
  | .updateCongestion => t.Counts

/-- The previous call read the same stream, and no number was left out since; for
the first call, something was sent. -/
def NoneLeftOut (t : CongestionWatch) : Prop :=
  match t.previous with
  | none => t.c.lastSentSeq t.c.bestStream ≠ 0
  | some c₀ => c₀.bestStream = t.c.bestStream ∧
      (∀ n ∈ Finset.Ioc t.prevSeq.toNat (t.c.lastSentSeq t.c.bestStream).toNat,
        ∃ seq ∈ t.c.sentSeqs t.c.bestStream, seq.toNat = n) ∧
      (0 ∈ t.c.sentSeqs t.c.bestStream → 0 ∈ c₀.sentSeqs t.c.bestStream)

/-- Seqs are sent in order; and none is left out between two calls of
`UpdateCongestion`. -/
def InOrder (env : Platform) (t : CongestionWatch) : WatchEvent → Prop
  | .controller e => HandsOverInOrder env t.c e
  | .updateCongestion => t.NoneLeftOut

instance : Decidable t.NoneLeftOut := by
  unfold NoneLeftOut
  split <;> infer_instance

instance : Decidable (t.InOrder env e) := by
  unfold InOrder
  cases e <;> infer_instance

/-- Before the first packet is sent. -/
structure Unsent (t : CongestionWatch) : Prop where
  last : ∀ s ∈ t.c.outgoingStreams, s.packetManager.lastSentSeq = 0
  raw : t.c.rawSendQueue = []
  prevSeq : t.prevSeq = 1
  previous : t.previous = none

/-- The invariant of a run in order. -/
structure Inv (t : CongestionWatch) : Prop where
  tracks : t.c.Tracks
  ascending : t.c.Ascending
  first : t.previous = none → t.prevSeq = 1
  since : ∀ c₀ ∈ t.previous, c₀.Tracks ∧ t.prevSeq = c₀.lastSentSeq c₀.bestStream ∧
    ∀ i, c₀.sentSeqs i <+: t.c.sentSeqs i

theorem Unsent.inv (h : t.Unsent) : t.Inv := by
  have hsent : ∀ i, t.c.sentSeqs i = [] := by
    intro i
    rw [Transport.sentSeqs, h.raw]
    rfl
  refine ⟨⟨?_, fun i _ => hsent i⟩, ?_, fun _ => h.prevSeq, ?_⟩
  · intro i
    rw [hsent, Transport.lastSentSeq]
    cases hs : t.c.outgoingStreams[i]? with
    | none => rfl
    | some s => exact h.last s (List.mem_of_getElem? hs)
  · intro i
    rw [hsent]
    exact List.Pairwise.nil
  · intro c₀ hc₀
    rw [h.previous] at hc₀
    cases hc₀

theorem Inv.step (ht : t.Inv) (horder : t.InOrder env e) (h : t.step env e = .ok t') : t'.Inv := by
  cases e with
  | controller e =>
      obtain ⟨c', hstep, h⟩ := bind_eq_ok.mp h
      cases pure_eq_ok.mp h
      refine ⟨step_tracks ht.tracks hstep, ht.ascending.step ht.tracks horder hstep, ht.first, ?_⟩
      intro c₀ hc₀
      obtain ⟨htracks, hprev, hsent⟩ := ht.since c₀ hc₀
      refine ⟨htracks, hprev, fun i => (hsent i).trans ?_⟩
      exact Transport.sentSeqs_prefix (step_rawSendQueue hstep) i
  | updateCongestion =>
      obtain ⟨s, hs, h⟩ := bind_eq_ok.mp h
      rw [outgoingStream_eq_ok] at hs
      cases pure_eq_ok.mp h
      refine ⟨ht.tracks, ht.ascending, nofun, ?_⟩
      intro c₀ hc₀
      cases hc₀
      refine ⟨ht.tracks, ?_, fun i => List.prefix_refl _⟩
      rw [Transport.lastSentSeq, hs]
      rfl

/-- The test for the switch to a relay reads the newest seq. -/
theorem Inv.compared {c' : Controller} {e : Time × Event} {p : Packet} {src : Int64}
    {s : OutgoingStream} {c₁ : Controller} {pm : PacketManager} (ht : t.Inv)
    (horder : HandsOverInOrder env t.c e) (hstep : t.c.step env e = .ok c') (he : e.2 = .packet p src)
    (hs : t.c.outgoingStreams[p.managerIndex.toNat]? = some s) (hacc : t.c.accepts p = true)
    (h : (t.c.arrived s p).beforeSwitch env e.1 p src = .ok (c₁, pm)) :
    Greatest (c₁.sentSeqs p.managerIndex.toNat) pm.lastSentSeq := by
  obtain ⟨now, e⟩ := e
  cases he
  have hfresh : (t.c.arrived s p).processFreshPacket env now p src = .ok c' := by
    obtain ⟨s', hs', ⟨hold, -⟩ | ⟨-, hrun⟩⟩ := processIncomingPacket_ok hstep
    · exact nomatch hold.symm.trans hacc
    · cases hs.symm.trans hs'
      exact hrun
  obtain ⟨htracks, hlast⟩ := beforeSwitch_tracks (arrived_tracks ht.tracks hs) h
  have hsent := Transport.sentSeqs_prefix (beforeSwitch_rawSendQueue h hfresh) p.managerIndex.toNat
  have hascending := ht.ascending.step ht.tracks horder hstep p.managerIndex.toNat
  rw [← hlast]
  exact htracks.greatest (hascending.sublist hsent.sublist)

theorem Inv.monotone {e : Time × Event} (ht : t.Inv) (horder : HandsOverInOrder env t.c e) :
    Monotone env t.c e where
  mono := by
    intro c' hstep i
    exact lastSentSeq_le ht.tracks (step_tracks ht.tracks hstep)
      (Transport.sentSeqs_prefix (step_rawSendQueue hstep) i)
      (ht.ascending.step ht.tracks horder hstep i)
  greatest := by
    intro c' hstep i
    exact (step_tracks ht.tracks hstep).greatest (ht.ascending.step ht.tracks horder hstep i)
  compared := fun _ _ _ _ _ _ hstep he hs hacc h => ht.compared horder hstep he hs hacc h

/-- The seqs between the two calls, as numbers. -/
theorem Inv.new_eq_Ioc {c₀ : Controller} (ht : t.Inv) (hprevious : t.previous = some c₀)
    (hnone : t.NoneLeftOut) :
    ((t.c.sentSeqs t.c.bestStream).toFinset \ (c₀.sentSeqs t.c.bestStream).toFinset).image
        UInt32.toNat =
      Finset.Ioc t.prevSeq.toNat (t.c.lastSentSeq t.c.bestStream).toNat := by
  unfold NoneLeftOut at hnone
  rw [hprevious] at hnone
  obtain ⟨hsame, hall, hzero⟩ := hnone
  obtain ⟨htracks, hprev, hsent⟩ := ht.since c₀ hprevious
  have hsent := hsent t.c.bestStream
  have hascending := ht.ascending t.c.bestStream
  rw [hsame] at hprev
  have hbefore := htracks.greatest (hascending.sublist hsent.sublist)
  have hnow := ht.tracks.greatest hascending
  rw [← hprev] at hbefore
  ext n
  simp only [Finset.mem_image, Finset.mem_sdiff, List.mem_toFinset, Finset.mem_Ioc]
  constructor
  · rintro ⟨seq, ⟨hseq, hnew⟩, rfl⟩
    refine ⟨?_, UInt32.le_iff_toNat_le.mp (hnow.upper seq hseq)⟩
    -- a seq that is sent later is not below the last one then
    obtain ⟨later, hlater⟩ := hsent
    rw [← hlater] at hseq hascending
    have hseq := (List.mem_append.mp hseq).resolve_left hnew
    by_cases hempty : c₀.sentSeqs t.c.bestStream = []
    · have hprev : t.prevSeq = 0 := by
        rw [hprev, htracks.last, hempty]
        rfl
      have hne : seq ≠ 0 := by
        rintro rfl
        exact hnew (hzero (by rw [← hlater]; exact List.mem_append_right _ hseq))
      rw [hprev]
      exact Nat.pos_of_ne_zero fun h0 => hne (UInt32.toNat_inj.mp h0)
    · have hmem := hbefore.mem hempty
      have hle := UInt32.le_iff_toNat_le.mp ((List.pairwise_append.mp hascending).2.2 _ hmem seq hseq)
      have hne : t.prevSeq.toNat ≠ seq.toNat := fun heq => hnew (UInt32.toNat_inj.mp heq ▸ hmem)
      omega
  · rintro ⟨hlow, hhigh⟩
    obtain ⟨seq, hseq, rfl⟩ := hall n (Finset.mem_Ioc.mpr ⟨hlow, hhigh⟩)
    refine ⟨seq, ⟨hseq, fun hold => ?_⟩, rfl⟩
    have hle := UInt32.le_iff_toNat_le.mp (hbefore.upper seq hold)
    omega

theorem Inv.unwrapped (ht : t.Inv) (hnone : t.NoneLeftOut) :
    t.prevSeq ≤ t.c.lastSentSeq t.c.bestStream := by
  unfold NoneLeftOut at hnone
  cases hprevious : t.previous with
  | none =>
      rw [hprevious] at hnone
      rw [ht.first hprevious, UInt32.le_iff_toNat_le, UInt32.toNat_one]
      exact Nat.pos_of_ne_zero fun h0 => hnone (UInt32.toNat_inj.mp h0)
  | some c₀ =>
      rw [hprevious] at hnone
      obtain ⟨htracks, hprev, hsent⟩ := ht.since c₀ hprevious
      rw [hprev, hnone.1]
      exact lastSentSeq_le htracks ht.tracks (hsent _) (ht.ascending _)

theorem Inv.counts (ht : t.Inv) (hnone : t.NoneLeftOut) : t.Counts where
  unwrapped := ht.unwrapped hnone
  new := by
    intro c₀ hprevious
    have himage := congrArg Finset.card (ht.new_eq_Ioc hprevious hnone)
    have hinj : Function.Injective UInt32.toNat := fun a b h => UInt32.toNat_inj.mp h
    rw [Finset.card_image_of_injective _ hinj, Nat.card_Ioc] at himage
    rw [himage, PacketManager.toNat_sub_of_le (UInt32.le_iff_toNat_le.mp (ht.unwrapped hnone))]

/-- **The last sent seq is monotone and counts the packets**, in every run that
hands the seqs of each stream over in order and leaves none out between two
calls of `UpdateCongestion`. -/
theorem last_sent_kept {events : List WatchEvent} (hstart : t.Unsent)
    (horder : AlongOk (step env) (InOrder env) t events) :
    AlongOk (step env) (LastSentKept env) t events := by
  refine horder.strengthen (I := Inv) (fun _ _ _ ht horder hstep => ht.step horder hstep) ?_
    hstart.inv
  intro t e ht horder
  cases e with
  | controller e => exact ht.monotone horder
  | updateCongestion => exact ht.counts horder

/-! ## On fixed inputs -/

/-- A packet of the Audio stream. -/
def audioPacket (tries : UInt8) : Event :=
  .sendPacket { packet := { streamId := StreamId.audio } } 0 0 tries

def sample : CongestionWatch := { c := sampleCall {} }

theorem sample_unsent : sample.Unsent := ⟨by simp [sample, sampleCall, Controller.new, initialStreams,
  OutgoingStream.new, PacketManager.new], rfl, rfl, rfl⟩

/-- Three packets, the second sent reliably, and two calls of `UpdateCongestion`. -/
theorem last_sent_kept_three :
    AlongOk (step samplePlatform) (LastSentKept samplePlatform) sample
      [.controller (0, audioPacket 0), .updateCongestion, .controller (1, audioPacket 1),
        .controller (1, .updateReliablePackets), .controller (2, audioPacket 0), .updateCongestion] :=
  last_sent_kept sample_unsent (by decide +kernel)

/-- A packet waits for the socket, and is sent behind the next one. -/
theorem last_sent_kept_fails :
    ¬ ∀ (env : Platform) (t : CongestionWatch) (events : List WatchEvent), t.Unsent →
      AlongOk (step env) (LastSentKept env) t events := by
  intro h
  let before : List WatchEvent :=
    [.controller (0, .udpSocket false), .controller (0, audioPacket 0),
      .controller (1, .udpSocket true), .controller (1, audioPacket 0)]
  have hrun := h samplePlatform sample (before ++ [.controller (2, .trySendOutgoingPackets)])
    sample_unsent
  have hvalues : (before.foldlM (step samplePlatform) sample).map (fun t => (t.c.lastSentSeq 1,
      (t.c.step samplePlatform (2, .trySendOutgoingPackets)).map (·.lastSentSeq 1)))
      = .ok (2, .ok 1) := by decide +kernel
  obtain ⟨t, hbefore, hvalue⟩ := exists_of_map_eq_ok hvalues
  obtain ⟨hlast, hnext⟩ := Prod.mk.inj hvalue
  obtain ⟨c', hstep, hlast'⟩ := exists_of_map_eq_ok hnext
  have hmono := (hrun.last hbefore).mono c' hstep 1
  rw [hlast, hlast'] at hmono
  exact absurd hmono (by decide)

end CongestionWatch

end Tgvoip
