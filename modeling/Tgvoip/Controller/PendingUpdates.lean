import Tgvoip.Controller.PendingFlags
import Tgvoip.Controller.LegacySeqs

/-!
# PendingUpdates — whether the state of a stream can get lost

The flags of a stream are to stay in `currentExtras` until the peer has
acknowledged a packet they went out with. Two things discard them before:
the flags of another stream, since `SendExtra` looks for an entry of the
same type and endpoint and not of the same stream; and an acknowledgement of
a packet without them, since the seqs an entry remembers are compared with
those of any stream.
-/

namespace Tgvoip

open ByteReader Fallible Controller

/-! ## The packets an extra went out with -/

namespace Packet

variable {u : VersionInfo × CallState} {q : Packet} {x : WrappedExtra} {ctx : HeaderContext}

/-- `Packet.Contains`, for a packet prepared under this version in this state. -/
def partHas (u : VersionInfo × CallState) (q : Packet) (x : WrappedExtra) (part : LegacyPart) :
    Bool :=
  part == .extra x.d || (headersCarryExtras u.1 u.2 && (q.allowedExtras u.1).contains x)

/-- The stream and the number of each packet with the extra, of those the packet is
sent as. -/
def numbersWith (u : VersionInfo × CallState) (q : Packet) (x : WrappedExtra) :
    List CongestionControlPacket :=
  if u.1.isNew then [⟨q.seq, q.streamId⟩]
  else ((q.legacyParts u.1).zipIdx.filter fun t => q.partHas u x t.1).map fun t =>
    ⟨q.legacySeq + UInt32.ofNat t.2, StreamId.signaling⟩

end Packet

namespace Transport

/-- The calls of `SendExtra` whose extras went out with a packet of the stream with
such a number. -/
def callsOn (t : Transport) (streamId : UInt8) (has : UInt32 → Bool) : List ℕ :=
  (t.preparedPackets.zip (t.preparedOccurrences.zip t.preparedUnder)).flatMap fun r =>
    (r.2.1.filter fun x => (r.1.numbersWith r.2.2 x.2).any fun info =>
      info.streamId == streamId && has info.seq).map (·.1)

theorem callsOn_mono {t : Transport} {streamId : UInt8} {has has' : UInt32 → Bool} {k : ℕ}
    (himp : ∀ seq, has seq = true → has' seq = true) (h : k ∈ t.callsOn streamId has) :
    k ∈ t.callsOn streamId has' := by
  obtain ⟨r, hr, hk⟩ := List.mem_flatMap.mp h
  obtain ⟨x, hx, rfl⟩ := List.mem_map.mp hk
  obtain ⟨hx, hany⟩ := List.mem_filter.mp hx
  obtain ⟨info, hinfo, hcond⟩ := List.any_eq_true.mp hany
  obtain ⟨hstream, hseq⟩ := Bool.and_eq_true_iff.mp hcond
  refine List.mem_flatMap.mpr ⟨r, hr, List.mem_map.mpr ⟨x, List.mem_filter.mpr ⟨hx, ?_⟩, rfl⟩⟩
  exact List.any_eq_true.mpr ⟨info, hinfo, Bool.and_eq_true_iff.mpr ⟨hstream, himp _ hseq⟩⟩

end Transport

/-- The stream the extra tells the flags of. -/
def WrappedExtra.flagsOf (x : WrappedExtra) : Option UInt8 :=
  match x.d with
  | .streamFlags d => some d.streamId
  | _ => none

theorem WrappedExtra.isFlags_of_flagsOf {x : WrappedExtra} {id : UInt8}
    (h : x.flagsOf = some id) : x.isFlags = true := by
  unfold flagsOf at h
  split at h
  · rename_i d hd
    exact isFlags_eq_true.mpr ⟨d, hd⟩
  · cases h

/-! ## The run -/

/-- A controller that tells the flags of its streams. -/
structure FlagsTeller where
  c : Controller
  /-- History: for each stream, the call of `SendExtra` that told its flags last. -/
  last : UInt8 → Option ℕ := fun _ => none
  /-- History: the calls whose extras were on a packet the peer acknowledged. -/
  acked : List ℕ := []

inductive TellerEvent where
  /-- `SendStreamFlags`, for the stream as it is now. -/
  | sendStreamFlags (s : OutgoingStream)
  | own (e : Time × Event)

namespace FlagsTeller

variable {env : Platform} {t t' : FlagsTeller} {e : TellerEvent} {id : UInt8} {k : ℕ}

/-- The call of `HandleReliablePackets` an event causes. -/
def ackCall (env : Platform) (t : FlagsTeller) : TellerEvent → Option (Controller × PacketManager)
  | .own (now, .packet p src) => Controller.ackCall env t.c now p src
  | _ => none

/-- The calls whose extras were on the packets a manager takes for acknowledged. -/
def callsAcked (a : Controller × PacketManager) : List ℕ :=
  a.1.callsOn a.2.transportId a.2.wasLocalAcked

def step (env : Platform) (t : FlagsTeller) : TellerEvent → Except Fault FlagsTeller
  | .sendStreamFlags s => pure { t with
      c := t.c.sendStreamFlags s
      last := Function.update t.last s.id (some t.c.issuedExtras) }
  | .own e => do
    let c ← t.c.step env e
    pure { t with c, acked := t.acked ++ ((t.ackCall env (.own e)).map callsAcked).getD [] }

/-- Stream flags are sent by `SendStreamFlags` only. -/
def BySendStreamFlags (_ : FlagsTeller) : TellerEvent → Prop
  | .sendStreamFlags _ => True
  | .own e => e.2.issuesFlags = false

/-- The flags of the call are pending, for every packet. -/
def Holds (t : FlagsTeller) (id : UInt8) (k : ℕ) : Prop :=
  ∃ x ∈ t.c.currentExtras, x.occurrence = k ∧ x.data.flagsOf = some id ∧
    ∀ endpointId, x.rides endpointId = true

/-- The flags told last of each stream are pending, or were acknowledged. -/
def NothingLost (t : FlagsTeller) : Prop :=
  ∀ id k, t.last id = some k → t.Holds id k ∨ k ∈ t.acked

/-- The packets prepared meanwhile took along the flags that are pending all the
time. -/
def PickedUp (t t' : FlagsTeller) : Prop :=
  ∀ id k, t.Holds id k → t'.Holds id k →
    ∀ xs ∈ t'.c.preparedOccurrences.drop t.c.preparedOccurrences.length, k ∈ xs.map (·.1)

/-- **No update is lost** by the event. -/
def UpdateKept (env : Platform) (t : FlagsTeller) (e : TellerEvent) : Prop :=
  ∀ t', t.step env e = .ok t' → t'.NothingLost ∧ t.PickedUp t'

/-- The numbers the entry remembers and the manager takes for acknowledged are those
of packets of the manager's stream, with the extra of the entry. -/
def OwnNumbers (a : Controller × PacketManager) (x : UnacknowledgedExtraData) : Prop :=
  ∀ seq ∈ x.seqs.slots, seq ≠ 0 → a.2.wasLocalAcked seq = true →
    x.occurrence ∈ a.1.callsOn a.2.transportId (· == seq)

/-- New flags find no flags of another stream that were not acknowledged, and pending
flags are acknowledged by numbers of their own. -/
def Undisturbed (env : Platform) (t : FlagsTeller) : TellerEvent → Prop
  | .sendStreamFlags s => ∀ x ∈ t.c.currentExtras, x.data.isFlags = true →
      x.data.flagsOf = some s.id ∨ x.occurrence ∈ t.acked
  | .own e => ∀ a ∈ t.ackCall env (.own e), ∀ x ∈ a.1.currentExtras, x.data.isFlags = true →
      OwnNumbers a x

/-! ## What is held -/

theorem holds_iff : t.Holds id k ↔ ∃ x ∈ t.c.pendingFlags, x.occurrence = k ∧
    x.data.flagsOf = some id ∧ ∀ endpointId, x.rides endpointId = true := by
  constructor
  · rintro ⟨x, hx, hk, hid, hrides⟩
    exact ⟨x.forget, Transport.mem_pendingFlags.mpr ⟨x, hx, x.data.isFlags_of_flagsOf hid, rfl⟩,
      hk, hid, hrides⟩
  · rintro ⟨y, hy, hk, hid, hrides⟩
    obtain ⟨x, hx, -, rfl⟩ := Transport.mem_pendingFlags.mp hy
    exact ⟨x, hx, hk, hid, hrides⟩

/-- Flags that are held are on every packet that takes the pending flags along. -/
theorem Holds.rides (h : t.Holds id k) {endpointId : Int64} {xs : List (ℕ × WrappedExtra)}
    (hxs : xs.filter (·.2.isFlags) = t.c.ridingFlags endpointId) : k ∈ xs.map (·.1) := by
  obtain ⟨x, hx, rfl, -, hrides⟩ := holds_iff.mp h
  have hmem : x.ridden ∈ xs.filter (·.2.isFlags) := by
    rw [hxs]
    exact List.mem_map_of_mem (List.mem_filter.mpr ⟨hx, hrides endpointId⟩)
  exact List.mem_map_of_mem (List.mem_of_mem_filter hmem)

theorem pickedUp_of_flagsStep (h : FlagsStep t.c t'.c) : t.PickedUp t' := by
  obtain ⟨new, hnew, hrides⟩ := h.prepared
  intro id k hbefore hafter xs hxs
  rw [hnew, List.drop_left] at hxs
  obtain ⟨endpointId, heq | heq⟩ := hrides xs hxs
  · exact hbefore.rides heq
  · exact hafter.rides heq

/-! ## Steps -/

/-- One entry of flags at most, and nothing lost. -/
structure Sound (t : FlagsTeller) : Prop where
  entry : t.c.OneEntry
  kept : t.NothingLost

theorem Sound.sendStreamFlags {s : OutgoingStream} (ht : t.Sound)
    (hquiet : t.Undisturbed env (.sendStreamFlags s)) (h : t.step env (.sendStreamFlags s) = .ok t') :
    t'.Sound ∧ t.PickedUp t' := by
  rw [← pure_eq_ok.mp h]
  have hpending := sendStreamFlags_pendingFlags ht.entry s
  refine ⟨⟨ht.entry.sendStreamFlags s, ?_⟩, ?_⟩
  · intro id k hk
    by_cases hid : id = s.id
    · -- the flags just told
      subst hid
      have hk : some t.c.issuedExtras = some k := (Function.update_self s.id _ t.last).symm.trans hk
      cases hk
      refine .inl (holds_iff.mpr ⟨t.c.flagsEntry s, ?_, rfl, rfl, fun _ => rfl⟩)
      show t.c.flagsEntry s ∈ (t.c.sendStreamFlags s).pendingFlags
      rw [hpending]
      exact List.mem_singleton_self _
    · have hk : t.last id = some k := (Function.update_of_ne hid _ t.last).symm.trans hk
      rcases ht.kept id k hk with ⟨x, hx, rfl, hx_id, -⟩ | hacked
      · rcases hquiet x hx (x.data.isFlags_of_flagsOf hx_id) with hsame | hacked
        · exact absurd (Option.some.inj (hx_id.symm.trans hsame)) hid
        · exact .inr hacked
      · exact .inr hacked
  · intro id k _ _ xs hxs
    have hnone : (t.c.sendStreamFlags s).preparedOccurrences.drop t.c.preparedOccurrences.length =
        [] := by rw [sendStreamFlags_preparedOccurrences, List.drop_length]
    rw [hnone] at hxs
    cases hxs

/-- Flags an acknowledgement erases were on a packet it acknowledges. -/
theorem mem_callsAcked {c : Controller} {pm : PacketManager} {x : UnacknowledgedExtraData}
    (hown : OwnNumbers (c, pm) x) (hacked : x.wasAcked pm = true) :
    x.occurrence ∈ callsAcked (c, pm) := by
  obtain ⟨seq, hseq, hcond⟩ := List.any_eq_true.mp hacked
  obtain ⟨hne, hlocal⟩ := Bool.and_eq_true_iff.mp hcond
  refine Transport.callsOn_mono ?_ (hown seq hseq (bne_iff_ne.mp hne) hlocal)
  intro seq' heq
  rw [beq_iff_eq.mp heq]
  exact hlocal

theorem Sound.own {e : Time × Event} (ht : t.Sound) (hby : t.BySendStreamFlags (.own e))
    (hquiet : t.Undisturbed env (.own e)) (h : t.step env (.own e) = .ok t') :
    t'.Sound ∧ t.PickedUp t' := by
  obtain ⟨c, hstep, h⟩ := bind_eq_ok.mp h
  rw [← pure_eq_ok.mp h]
  have hflags := step_flagsStep hby hstep
  refine ⟨⟨ht.entry.of_sublist hflags.pending, ?_⟩, pickedUp_of_flagsStep hflags⟩
  intro id k hk
  rcases ht.kept id k hk with hheld | hacked
  · obtain ⟨x, hx, rfl, hid, hrides⟩ := holds_iff.mp hheld
    rcases step_flags hby hstep with hkeeps | ⟨p, src, c₁, c₂, pm, he, hcall, h₁, herases, h₂⟩
    · exact .inl (holds_iff.mpr ⟨x, hkeeps.pending.symm ▸ hx, rfl, hid, hrides⟩)
    · -- the entry as the acknowledgement finds it
      rw [← h₁.pending] at hx
      obtain ⟨y, hy, hyflags, rfl⟩ := Transport.mem_pendingFlags.mp hx
      have hcall : t.ackCall env (.own e) = some (c₁, pm) := by
        obtain ⟨now, e⟩ := e
        cases he
        exact hcall
      by_cases hwas : y.wasAcked pm = true
      · refine .inr (List.mem_append_right _ ?_)
        rw [hcall]
        exact mem_callsAcked (x := y) (hquiet _ hcall y hy hyflags) hwas
      · have hstays := herases.stays hy hyflags (Bool.not_eq_true _ ▸ hwas)
        exact .inl (holds_iff.mpr ⟨y.forget, h₂.pending.symm ▸ hstays, rfl, hid, hrides⟩)
  · exact .inr (List.mem_append_left _ hacked)

theorem Sound.step (ht : t.Sound) (hby : t.BySendStreamFlags e) (hquiet : t.Undisturbed env e)
    (h : t.step env e = .ok t') : t'.Sound ∧ t.PickedUp t' := by
  cases e with
  | sendStreamFlags s => exact ht.sendStreamFlags hquiet h
  | own e => exact ht.own hby hquiet h

/-- No flags were told yet. -/
structure Started (t : FlagsTeller) : Prop where
  pending : t.c.pendingFlags = []
  last : t.last = fun _ => none

theorem Started.sound (h : t.Started) : t.Sound where
  entry := ⟨by rw [h.pending]; exact Nat.zero_le 1, fun x hx => by rw [h.pending] at hx; cases hx⟩
  kept := fun id k hk => by rw [h.last] at hk; cases hk

/-- **No pending update is lost** along every run in which flags are told only while
those of other streams are not waiting, and acknowledgements are compared with
numbers of their own stream. -/
theorem no_update_lost {events : List TellerEvent} (ht : t.Started)
    (hby : AlongOk (step env) BySendStreamFlags t events)
    (hquiet : AlongOk (step env) (Undisturbed env) t events) :
    AlongOk (step env) (UpdateKept env) t events :=
  (alongOk_and.mpr ⟨hby, hquiet⟩).strengthen (I := Sound)
    (fun _ _ _ ht he hstep => (ht.step he.1 he.2 hstep).1)
    (fun _ _ ht he _ hstep => ⟨(ht.step he.1 he.2 hstep).1.kept, (ht.step he.1 he.2 hstep).2⟩) ht.sound

/-! ## On fixed inputs -/

instance (t : FlagsTeller) (e : TellerEvent) : Decidable (t.BySendStreamFlags e) := by
  unfold BySendStreamFlags
  cases e <;> infer_instance

-- by the list, not by trying all numbers
instance (a : Controller × PacketManager) (x : UnacknowledgedExtraData) :
    Decidable (OwnNumbers a x) :=
  List.decidableBAll _ x.seqs.slots

instance (env : Platform) (t : FlagsTeller) (e : TellerEvent) : Decidable (t.Undisturbed env e) := by
  unfold Undisturbed
  cases e <;> infer_instance

/-- A call over one UDP relay. -/
def sampleTeller : FlagsTeller := { c := sampleCall {} }

theorem sampleTeller_started : sampleTeller.Started := ⟨rfl, rfl⟩

def stream (id : UInt8) : OutgoingStream := OutgoingStream.new id StreamType.audio 0

/-- The peer acknowledges packet 1 of the Signaling stream. -/
def signalingAck : TellerEvent := .own (1, .packet { seq := 1, ackSeq := 1 } 1)

/-- The flags of one stream are acknowledged before those of the next are told. -/
theorem no_update_lost_acknowledged :
    AlongOk (step samplePlatform) (UpdateKept samplePlatform) sampleTeller
      [.sendStreamFlags (stream 1), .own (0, .sendNopPacket 0), signalingAck,
        .sendStreamFlags (stream 2), .own (2, .sendNopPacket 0)] :=
  no_update_lost sampleTeller_started (by decide +kernel) (by decide +kernel)

/-- What is seen of a stream: the call that told its flags last, the streams whose
flags are pending, and the calls that were acknowledged. -/
def view (id : UInt8) (t : FlagsTeller) : Option ℕ × List (Option UInt8) × List ℕ :=
  (t.last id, t.c.currentExtras.map (·.data.flagsOf), t.acked)

theorem not_nothingLost {pending : List (Option UInt8)} (hview : t.view id = (some k, pending, []))
    (hpending : some id ∉ pending) : ¬ t.NothingLost := by
  intro h
  obtain ⟨hlast, hview⟩ := Prod.mk.inj hview
  obtain ⟨hextras, hacked⟩ := Prod.mk.inj hview
  rcases h id k hlast with ⟨x, hx, -, hid, -⟩ | hmem
  · apply hpending
    rw [← hextras, ← hid]
    exact List.mem_map_of_mem hx
  · rw [hacked] at hmem
    cases hmem

/-- An update that a run is seen to lose at its end. -/
theorem lost_at_end {events : List TellerEvent} {pending : List (Option UInt8)}
    (hviews : (events.foldlM (step env) t).map (fun t => (t.step env e).map (view id)) =
      .ok (.ok (some k, pending, []))) (hpending : some id ∉ pending) :
    ¬ AlongOk (step env) (UpdateKept env) t (events ++ [e]) := by
  intro h
  obtain ⟨t₁, ht₁, hview⟩ := exists_of_map_eq_ok hviews
  obtain ⟨t₂, ht₂, hview⟩ := exists_of_map_eq_ok hview
  exact not_nothingLost hview hpending (h.last ht₁ t₂ ht₂).1

/-- Flags of another stream take the place of the pending ones; and those of one
stream are erased by the acknowledgement of a NOP on the Signaling stream, when the
packet of the Audio stream that had the same number was lost. -/
theorem no_update_lost_fails :
    (¬ ∀ (env : Platform) (t : FlagsTeller) (events : List TellerEvent), t.Started →
      AlongOk (step env) BySendStreamFlags t events →
      (∀ e ∈ events, ∃ s, e = .sendStreamFlags s) →
      AlongOk (step env) (UpdateKept env) t events) ∧
    (¬ ∀ (env : Platform) (t : FlagsTeller) (events : List TellerEvent), t.Started →
      AlongOk (step env) BySendStreamFlags t events →
      (∀ s, .sendStreamFlags s ∈ events → s.id = 1) →
      AlongOk (step env) (UpdateKept env) t events) := by
  constructor
  · intro h
    have hviews : ([.sendStreamFlags (stream 1)].foldlM (step samplePlatform) sampleTeller).map
        (fun t => (t.step samplePlatform (.sendStreamFlags (stream 2))).map (view 1)) =
        .ok (.ok (some 0, [some 2], [])) := by decide +kernel
    exact lost_at_end hviews (by decide) (h _ _ _ sampleTeller_started (by decide +kernel) (by simp))
  · intro h
    have hviews : ([.own (0, .sendNopPacket 0), .sendStreamFlags (stream 1),
        .own (0, .sendPacket { packet := { streamId := 1 } } 0 0 0)].foldlM
          (step samplePlatform) sampleTeller).map
        (fun t => (t.step samplePlatform signalingAck).map (view 1)) =
        .ok (.ok (some 0, [], [])) := by decide +kernel
    exact lost_at_end hviews (by decide) (h _ _ _ sampleTeller_started (by decide +kernel)
      (by simp [signalingAck, stream, OutgoingStream.new]))

end FlagsTeller

end Tgvoip
