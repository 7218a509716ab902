import Tgvoip.Audio.AudioPacketSender
import Tgvoip.Controller.HandlerRule

/-!
# IncomingLookup — the incoming stream of an id

`GetStreamByID` answers with the stream at the position that the id names.
The streams stand in the order of the peer's init ack, without those that
are skipped, and in the older formats behind one that the ack does not
name. So the answers are right for the acks that count their streams up
from the first position on, and for no others.
-/

namespace Tgvoip

open ByteReader Fallible

namespace Controller

variable {env : Platform} {c c' c'' : Controller} {now : Time} {src : Int64} {p : Packet}

/-- `GetStreamByID<IncomingStream>`. -/
def getStreamByID (c : Controller) (id : UInt8) : Option IncomingStream :=
  c.incomingStreams[id.toNat]?

/-- `GetStreamByID<IncomingAudioStream>`: null where the cast fails. -/
def getAudioStreamByID (c : Controller) (id : UInt8) : Option IncomingStream :=
  (c.getStreamByID id).filter (·.type == StreamType.audio)

/-- The end of `ProcessIncomingPacket`: whose jitter buffer gets what. -/
def handleMedia (c : Controller) (p : Packet) : Option (IncomingStream × List JitterInput) :=
  match c.getStreamByID p.streamId with
  | none => none
  | some stm => if stm.type = StreamType.audio then some (stm, p.jitterInputs) else none

/-! ## Right answers -/

/-- The stream found has the id, and if none is found there is none. -/
def FindsById (c : Controller) (id : UInt8) : Prop :=
  match c.getStreamByID id with
  | some stm => stm.id = id
  | none => ∀ stm ∈ c.incomingStreams, stm.id ≠ id

/-- `OnAudioOutputReady` finds an audio stream. -/
def FindsAudio (c : Controller) : Prop := (c.getAudioStreamByID StreamId.audio).isSome

/-! ## The streams of an ack -/

/-- The version behind the first ack. -/
def ackedVersion (c : Controller) (d : ExtraInitAck) : VersionInfo :=
  { c.ver with peerVersion := d.peerVersion.toInt32.toInt }

end Controller

namespace ExtraInitAck

/-- The versions overlap, as the ack handler sees it. -/
def compatible (d : ExtraInitAck) : Bool :=
  !(d.minVersion > protocolVersion || d.peerVersion < minProtocolVersion)

/-- Whether an incoming stream is made of the entry. -/
def takes (ver : VersionInfo) (s : ExtraStreamInfo) : Bool :=
  (s.type == StreamType.video && ver.peerVersion ≥ 9) || s.type == StreamType.audio ||
    s.type == StreamType.signaling

/-- Id and type of the incoming streams that the ack makes, in order. -/
def kinds (ver : VersionInfo) (d : ExtraInitAck) : List (UInt8 × UInt8) :=
  (if ver.isNew then [] else [(StreamId.signaling, StreamType.signaling)]) ++
    (d.streams.filter (takes ver)).map fun s => (s.streamId, s.type)

/-- The streams count up from the first position on, and the second is an audio
stream. -/
structure CountsUp (ver : VersionInfo) (d : ExtraInitAck) : Prop where
  compatible : d.compatible = true
  ids : ∀ i (x : UInt8 × UInt8), (d.kinds ver)[i]? = some x → x.1.toNat = i
  audio : ∃ x : UInt8 × UInt8, (d.kinds ver)[1]? = some x ∧ x.2 = StreamType.audio

end ExtraInitAck

namespace Controller

variable {env : Platform} {c c' c'' : Controller} {now : Time} {src : Int64} {p : Packet}

/-- Id and type of the incoming streams. -/
def incomingKinds (c : Controller) : List (UInt8 × UInt8) :=
  c.incomingStreams.map fun s => (s.id, s.type)

theorem incomingKinds_filterMap (streams : List ExtraStreamInfo) :
    (streams.filterMap c.incomingStreamOf).map (fun s : IncomingStream => (s.id, s.type)) =
      (streams.filter (ExtraInitAck.takes c.ver)).map fun s => (s.streamId, s.type) := by
  induction streams with
  | nil => rfl
  | cons s streams ih =>
      have hstream : (c.incomingStreamOf s).map (fun s : IncomingStream => (s.id, s.type)) =
          if ExtraInitAck.takes c.ver s then some (s.streamId, s.type) else none := by
        unfold incomingStreamOf ExtraInitAck.takes
        by_cases hvideo : s.type = StreamType.video
        · by_cases hold : c.ver.peerVersion < 9
          · simp [hvideo, hold, StreamType.video, StreamType.audio, StreamType.signaling]
          · simp [hvideo, hold]
        · by_cases haudio : s.type = StreamType.audio
          · simp [haudio, StreamType.video, StreamType.audio]
          · by_cases hsignaling : s.type = StreamType.signaling
            · simp [hsignaling, StreamType.video, StreamType.audio, StreamType.signaling]
            · simp [hvideo, haudio, hsignaling]
      cases hof : c.incomingStreamOf s with
      | none =>
          rw [hof] at hstream
          have htakes : ¬ ExtraInitAck.takes c.ver s = true := by
            intro h
            rw [if_pos h] at hstream
            cases hstream
          rw [List.filterMap_cons_none hof, List.filter_cons_of_neg htakes, ih]
      | some stm =>
          rw [hof] at hstream
          have htakes : ExtraInitAck.takes c.ver s = true := by
            by_contra h
            rw [if_neg h] at hstream
            cases hstream
          rw [if_pos htakes, Option.map_some, Option.some_inj] at hstream
          rw [List.filterMap_cons_some hof, List.filter_cons_of_pos htakes, List.map_cons,
            List.map_cons, ih, hstream]

/-- Whether the handler of an extra calls `StartAudio`. -/
def callsStartAudio (c : Controller) : Extra → Bool
  | .init d => compatibleInit d && !c.audioStarted && c.receivedInitAck
  | .initAck d => !c.receivedInitAck && d.compatible && d.streams.any (·.type == StreamType.audio) &&
      (!c.audioStarted && c.receivedInit)
  | _ => false

/-- What the relation of the later steps is about. -/
structure Incoming where
  streams : List IncomingStream
  receivedInitAck : Bool
  audioStarted : Bool

def incoming (c : Controller) : Incoming where
  streams := c.incomingStreams
  receivedInitAck := c.receivedInitAck
  audioStarted := c.audioStarted

theorem startAudio_incoming (c : Controller) :
    (c.startAudio env).incoming = { c.incoming with audioStarted := true } := by
  unfold startAudio
  dsimp only
  split
  · rfl
  · rfl

theorem sendPublicEndpointsRequest_incoming (c : Controller) :
    c.sendPublicEndpointsRequest.incoming = c.incoming := by
  unfold sendPublicEndpointsRequest
  dsimp only
  split
  · rfl
  · split <;> split <;> rfl

/-- The handler of the first ack, once there is an audio stream. -/
def finishInitAck (env : Platform) (c : Controller) : Controller :=
  let c := { c with useMTProto2 := c.useMTProto2 || c.ver.peerVersion ≥ 5 }
  let c := if !c.audioStarted && c.receivedInit then c.startAudio env else c
  let c := c.post .setEstablishedIfWaiting c.config.establishedDelayIfNoStreamData
  if c.allowP2p then c.sendPublicEndpointsRequest else c

theorem finishInitAck_incoming (env : Platform) (c : Controller) :
    (c.finishInitAck env).incoming =
      { c.incoming with
        audioStarted := c.audioStarted || (!c.audioStarted && c.receivedInit) } := by
  let c₁ : Controller := { c with useMTProto2 := c.useMTProto2 || c.ver.peerVersion ≥ 5 }
  let c₂ := if !c₁.audioStarted && c₁.receivedInit then c₁.startAudio env else c₁
  let c₃ := c₂.post .setEstablishedIfWaiting c₂.config.establishedDelayIfNoStreamData
  have hstart : c₂.incoming =
      { c.incoming with audioStarted := c.audioStarted || (!c.audioStarted && c.receivedInit) } := by
    show (if (!c.audioStarted && c.receivedInit) = true then c₁.startAudio env else c₁).incoming = _
    cases !c.audioStarted && c.receivedInit with
    | true =>
        rw [if_pos rfl, startAudio_incoming, Bool.or_true]
        rfl
    | false =>
        rw [if_neg Bool.false_ne_true, Bool.or_false]
        rfl
  rw [← hstart]
  show (if c₃.allowP2p = true then c₃.sendPublicEndpointsRequest else c₃).incoming = c₃.incoming
  split
  · exact sendPublicEndpointsRequest_incoming c₃
  · rfl

/-- The controller behind the streams of the first ack. -/
def withStreamsOf (c : Controller) (d : ExtraInitAck) : Controller :=
  let c := { c with receivedInitAck := true, initTimeoutPosted := false, ver := c.ackedVersion d }
  { c with
    incomingStreams := c.incomingStreams ++
      (if c.ver.isNew then [] else [{ id := StreamId.signaling, type := StreamType.signaling }]) ++
      d.streams.filterMap c.incomingStreamOf }

/-- The handler of the first ack, in its three outcomes. -/
theorem processInitAck_first (hfirst : c.receivedInitAck = false) (d : ExtraInitAck) :
    c.processInitAck env d =
      if d.compatible then
        if d.streams.any (·.type == StreamType.audio) then (c.withStreamsOf d).finishInitAck env
        else c.withStreamsOf d
      else { c with
        receivedInitAck := true, initTimeoutPosted := false, ver := c.ackedVersion d
        lastError := .incompatible, state := .failed } := by
  unfold processInitAck ExtraInitAck.compatible
  rw [if_neg (by simp [hfirst])]
  dsimp only
  cases decide (d.minVersion > protocolVersion) || decide (d.peerVersion < minProtocolVersion) with
  | true => rfl
  | false =>
      cases d.streams.any (·.type == StreamType.audio) with
      | true => rfl
      | false => rfl

/-- **What the first ack leaves behind.** -/
theorem processInitAck_incoming (env : Platform) (hfirst : c.receivedInitAck = false)
    (hnone : c.incomingStreams = []) (d : ExtraInitAck) :
    (c.processInitAck env d).receivedInitAck = true ∧
      (c.processInitAck env d).incomingKinds =
        if d.compatible then d.kinds (c.ackedVersion d) else [] := by
  have hkinds : (c.withStreamsOf d).incomingKinds = d.kinds (c.ackedVersion d) := by
    unfold incomingKinds withStreamsOf ExtraInitAck.kinds
    dsimp only
    rw [hnone, List.nil_append, List.map_append, incomingKinds_filterMap]
    split
    · rfl
    · rfl
  rw [processInitAck_first hfirst]
  cases d.compatible with
  | false => exact ⟨rfl, congrArg (List.map _) hnone⟩
  | true =>
      cases d.streams.any (·.type == StreamType.audio) with
      | false => exact ⟨rfl, hkinds⟩
      | true =>
          have hrest := finishInitAck_incoming env (c.withStreamsOf d)
          refine ⟨congrArg Incoming.receivedInitAck hrest, ?_⟩
          exact (congrArg (fun r => List.map _ (Incoming.streams r)) hrest).trans hkinds

/-! ## When the audio is started -/

theorem incoming_sends : SendRule fun c c' => c'.incoming = c.incoming where
  refl := fun _ => rfl
  trans := fun h h' => h'.trans h
  connect := by
    intro c key e _
    unfold connectIfNeeded
    split
    · rfl
    · rfl
  transmit := by
    intro c c' now pkt e h
    obtain ⟨s, pm, -, -, -, rfl⟩ := transmit_ok h
    rfl
  enqueue := fun _ _ => rfl
  reliably := by
    intro c pkt retryInterval timeout tries
    unfold sendPacketReliably
    dsimp only
    split
    · rfl
    · rfl
  noteSealing := fun _ _ => rfl
  prepareNew := fun _ => rfl
  prepareLegacy := fun _ _ => rfl

theorem sendExtra_incoming (c : Controller) (x : WrappedExtra) (endpointId : Int64) :
    (c.sendExtra x endpointId).incoming = c.incoming := by
  unfold sendExtra
  split
  · rfl
  · rfl

theorem processInitAck_audioStarted (env : Platform) (c : Controller) (d : ExtraInitAck) :
    (c.processInitAck env d).audioStarted =
      (c.audioStarted || c.callsStartAudio (.initAck d)) := by
  show _ = (c.audioStarted || (!c.receivedInitAck && d.compatible &&
    d.streams.any (·.type == StreamType.audio) && (!c.audioStarted && c.receivedInit)))
  cases hfirst : c.receivedInitAck with
  | true =>
      unfold processInitAck
      rw [if_pos hfirst]
      exact (Bool.or_false _).symm
  | false =>
      rw [processInitAck_first hfirst]
      cases d.compatible with
      | false => exact (Bool.or_false _).symm
      | true =>
          cases d.streams.any (·.type == StreamType.audio) with
          | false => exact (Bool.or_false _).symm
          | true => exact congrArg Incoming.audioStarted (finishInitAck_incoming env (c.withStreamsOf d))

/-! ## Behind the ack -/

/-- Before the first ack there are no incoming streams, and no audio. -/
def Unacked (c : Controller) : Prop :=
  c.receivedInitAck = false → c.incomingStreams = [] ∧ c.audioStarted = false

/-- Streams come with the first ack, and from then on stay the same ones. -/
structure KeepsStreams (c c' : Controller) : Prop where
  settled : c.receivedInitAck = true → c'.receivedInitAck = true ∧ c'.incomingKinds = c.incomingKinds
  unacked : c.Unacked → c'.Unacked

theorem KeepsStreams.refl (c : Controller) : KeepsStreams c c := ⟨fun h => ⟨h, rfl⟩, id⟩

theorem KeepsStreams.trans (h : KeepsStreams c c') (h' : KeepsStreams c' c'') :
    KeepsStreams c c'' where
  settled := by
    intro hc
    obtain ⟨hack, hkinds⟩ := h.settled hc
    obtain ⟨hack', hkinds'⟩ := h'.settled hack
    exact ⟨hack', hkinds'.trans hkinds⟩
  unacked := fun hc => h'.unacked (h.unacked hc)

theorem KeepsStreams.same (h : c'.incoming = c.incoming) : KeepsStreams c c' := by
  have hstreams : c'.incomingStreams = c.incomingStreams := congrArg Incoming.streams h
  have hack : c'.receivedInitAck = c.receivedInitAck := congrArg Incoming.receivedInitAck h
  have haudio : c'.audioStarted = c.audioStarted := congrArg Incoming.audioStarted h
  refine ⟨fun hc => ⟨hack.trans hc, congrArg (List.map _) hstreams⟩, fun hc hfirst => ?_⟩
  rw [hstreams, haudio]
  exact hc (hack ▸ hfirst)

/-- Behind the first ack. -/
theorem KeepsStreams.acked (hack : c.receivedInitAck = true → c'.incomingKinds = c.incomingKinds)
    (hack' : c'.receivedInitAck = true) : KeepsStreams c c' :=
  ⟨fun hc => ⟨hack', hack hc⟩, fun _ hfirst => by rw [hack'] at hfirst; cases hfirst⟩

/-- A change to the streams themselves. -/
theorem KeepsStreams.modify {i : ℕ} {f : IncomingStream → IncomingStream}
    (hf : ∀ s, ((f s).id, (f s).type) = (s.id, s.type)) :
    KeepsStreams c { c with incomingStreams := c.incomingStreams.modify i f } where
  settled := fun hack => ⟨hack, ListEntry.map_modify fun s _ => hf s⟩
  unacked := by
    intro hc hfirst
    obtain ⟨hnone, haudio⟩ := hc hfirst
    exact ⟨by show c.incomingStreams.modify i f = []; rw [hnone, List.modify_nil], haudio⟩

theorem keepsStreams_sends : SendRule KeepsStreams where
  refl := .refl
  trans := .trans
  connect := fun he => .same (incoming_sends.connect he)
  transmit := fun h => .same (incoming_sends.transmit h)
  enqueue := fun _ _ => .same rfl
  reliably := fun _ _ _ _ _ => .same (incoming_sends.reliably ..)
  noteSealing := fun _ _ => .same rfl
  prepareNew := fun _ => .same rfl
  prepareLegacy := fun _ _ => .same rfl

theorem keepsStreams_handlers (env : Platform) : HandlerRule env KeepsStreams where
  toSendRule := keepsStreams_sends
  aside := by
    intro c c' h
    have hstreams : c'.incomingStreams = c.incomingStreams := congrArg Core.incomingStreams h
    have hack : c'.receivedInitAck = c.receivedInitAck := congrArg Core.receivedInitAck h
    have haudio : c'.audioStarted = c.audioStarted := congrArg Core.audioStarted h
    apply KeepsStreams.same
    unfold incoming
    rw [hstreams, hack, haudio]
  extra := fun _ _ _ => .same (sendExtra_incoming ..)
  count := fun _ _ => .same rfl
  draw := fun _ => .same rfl
  retry := fun _ _ _ => .same rfl
  initSent := fun _ _ => .same rfl
  fail := fun _ _ => .same rfl
  ackInit := by
    intro c ver streams hfirst
    refine .acked (fun hack => ?_) rfl
    rw [hfirst] at hack
    cases hack
  audio := fun _ hack => .acked (fun _ => rfl) hack
  post := fun _ _ _ _ => .same rfl
  video := fun _ _ => .same rfl
  csd := by
    intro c d
    apply KeepsStreams.modify
    intro s
    split
    · rfl
    · rfl

theorem processStreamFlags_keepsStreams (c : Controller) (d : ExtraStreamFlags) :
    KeepsStreams c (c.processStreamFlags d) := by
  unfold processStreamFlags
  split
  · exact .refl c
  · exact .modify fun _ => rfl

theorem processAck_keepsStreams {pm : PacketManager} {hasSender : Bool}
    (h : c.processAck now p pm hasSender = .ok c') : KeepsStreams c c' := by
  unfold processAck at h
  dsimp only at h
  split at h
  · cases h
  · rw [← pure_eq_ok.mp h]
    split
    · exact .same rfl
    · exact .same rfl

theorem step_keepsStreams {e : Time × Event} (h : c.step env e = .ok c') : KeepsStreams c c' :=
  (keepsStreams_handlers env).step processStreamFlags_keepsStreams processAck_keepsStreams
    (fun _ _ _ => .same rfl) h

/-- **Every call starts without incoming streams**, and has none before the first
ack. -/
theorem unacked_of_run {events : List (Time × Event)} (hc : c.Unacked)
    (h : events.foldlM (step env) c = .ok c') : c'.Unacked :=
  foldlM_invariant (fun _ _ _ _ h₁ h₂ => (step_keepsStreams h₂).unacked h₁) hc h

/-- What is left of a packet behind its extras. -/
def finishPacket (env : Platform) (c : Controller) (now : Time) (p : Packet) (src : Int64) :
    Except Fault Controller :=
  c.processFreshPacket env now { p with extraSignaling := [] } src

/-- How a controller goes on behind an extra of a packet: with more extras, with
the rest of the packet, and with any events. -/
inductive Later (env : Platform) (c : Controller) : Controller → Prop where
  | now : Later env c c
  | extra {c₁ c₂ : Controller} {now : Time} {src : Int64} {x : WrappedExtra} :
      Later env c c₁ → c₁.processExtraData env now src x = .ok c₂ → Later env c c₂
  | rest {c₁ c₂ : Controller} {now : Time} {src : Int64} {p : Packet} :
      Later env c c₁ → c₁.finishPacket env now p src = .ok c₂ → Later env c c₂
  | event {c₁ c₂ : Controller} {e : Time × Event} :
      Later env c c₁ → c₁.step env e = .ok c₂ → Later env c c₂

theorem Later.keepsStreams (h : Later env c c') : KeepsStreams c c' := by
  induction h with
  | now => exact .refl c
  | extra _ hx ih =>
      exact ih.trans ((keepsStreams_handlers env).processExtraData processStreamFlags_keepsStreams hx)
  | rest _ hrest ih =>
      exact ih.trans ((keepsStreams_handlers env).freshPacket processStreamFlags_keepsStreams
        processAck_keepsStreams hrest)
  | event _ hstep ih => exact ih.trans (step_keepsStreams hstep)

/-! ## The lookups -/

/-- **Every lookup is right**: by any id and at any time behind the ack, data
goes to the stream it names, and a call of `StartAudio` finds an audio
stream. -/
structure LooksUpIncoming (env : Platform) (c : Controller) (d : ExtraInitAck) : Prop where
  finds : ∀ c', Later env (c.processInitAck env d) c' → ∀ id, c'.FindsById id
  media : ∀ c', Later env (c.processInitAck env d) c' → ∀ (p : Packet) stm,
    stm ∈ c'.incomingStreams → stm.id = p.streamId → stm.type = StreamType.audio →
    c'.handleMedia p = some (stm, p.jitterInputs)
  startsNow : c.callsStartAudio (.initAck d) = true → (c.processInitAck env d).FindsAudio
  startsLater : ∀ c', Later env (c.processInitAck env d) c' → ∀ x, c'.callsStartAudio x = true →
    c'.FindsAudio

/-- The kinds of the streams decide every lookup. -/
theorem findsById_iff (c : Controller) (id : UInt8) : c.FindsById id ↔
    match c.incomingKinds[id.toNat]? with
    | some x => x.1 = id
    | none => ∀ x ∈ c.incomingKinds, x.1 ≠ id := by
  unfold FindsById getStreamByID incomingKinds
  rw [List.getElem?_map]
  cases c.incomingStreams[id.toNat]? with
  | some stm => rfl
  | none => simp

theorem findsAudio_iff (c : Controller) : c.FindsAudio ↔
    ∃ x, c.incomingKinds[1]? = some x ∧ x.2 = StreamType.audio := by
  unfold FindsAudio getAudioStreamByID getStreamByID incomingKinds
  rw [List.getElem?_map]
  show ((c.incomingStreams[1]?).filter _).isSome = true ↔ _
  cases c.incomingStreams[1]? with
  | none => simp
  | some stm => simp

theorem length_kinds_le (ver : VersionInfo) {d : ExtraInitAck} (hcount : d.streams.length ≤ 255) :
    (d.kinds ver).length ≤ 256 := by
  have hkept := List.length_filter_le (ExtraInitAck.takes ver) d.streams
  unfold ExtraInitAck.kinds
  rw [List.length_append, List.length_map]
  split
  · rw [List.length_nil]
    omega
  · rw [List.length_singleton]
    omega

/-- An ack whose streams count up is looked up right, from then on. -/
theorem looksUpIncoming_of_countsUp {d : ExtraInitAck} (h : d.CountsUp (c.ackedVersion d))
    (hfirst : c.receivedInitAck = false) (hnone : c.incomingStreams = []) :
    c.LooksUpIncoming env d := by
  obtain ⟨hack, hkinds⟩ := processInitAck_incoming env hfirst hnone d
  rw [if_pos h.compatible] at hkinds
  have hlater : ∀ c', Later env (c.processInitAck env d) c' →
      c'.incomingKinds = d.kinds (c.ackedVersion d) :=
    fun c' hc' => (hc'.keepsStreams.settled hack).2.trans hkinds
  refine {
    finds := fun c' hc' id => ?_
    media := fun c' hc' p stm hmem hid htype => ?_
    startsNow := fun _ => (findsAudio_iff _).mpr (hkinds ▸ h.audio)
    startsLater := fun c' hc' x _ => (findsAudio_iff _).mpr (hlater c' hc' ▸ h.audio) }
  · rw [findsById_iff, hlater c' hc']
    split
    · rename_i x hx
      exact UInt8.toNat_inj.mp (h.ids _ x hx)
    · rename_i hx
      intro x hmem hid
      obtain ⟨i, hi⟩ := List.mem_iff_getElem?.mp hmem
      rw [← h.ids i x hi, hid] at hi
      rw [hx] at hi
      cases hi
  · obtain ⟨i, hi⟩ := List.mem_iff_getElem?.mp hmem
    have hkind : c'.incomingKinds[i]? = some (stm.id, stm.type) := by
      rw [incomingKinds, List.getElem?_map, hi, Option.map_some]
    rw [hlater c' hc'] at hkind
    have hat : c'.getStreamByID p.streamId = some stm := by
      rw [getStreamByID, ← hid, h.ids i _ hkind, hi]
    unfold handleMedia
    rw [hat]
    exact if_pos htype

/-- **The lookups are right exactly for the acks whose streams count up**, each
standing at the position its id names, with an audio stream at the second. -/
theorem incoming_lookup_iff (env : Platform) (c : Controller) (d : ExtraInitAck)
    (hfirst : c.receivedInitAck = false) (hc : c.Unacked) (hcount : d.streams.length ≤ 255) :
    c.LooksUpIncoming env d ↔ d.CountsUp (c.ackedVersion d) := by
  obtain ⟨hnone, hsilent⟩ := hc hfirst
  obtain ⟨hack, hkinds⟩ := processInitAck_incoming env hfirst hnone d
  have hstarted := processInitAck_audioStarted env c d
  rw [hsilent, Bool.false_or] at hstarted
  constructor
  · intro h
    have haudio : (c.processInitAck env d).FindsAudio := by
      cases hnow : c.callsStartAudio (.initAck d) with
      | true => exact h.startsNow hnow
      | false =>
          -- the next init would start the audio
          let x : Extra := .init
            { peerVersion := protocolVersion, minVersion := protocolVersion, flags := 0 }
          apply h.startsLater _ .now x
          unfold callsStartAudio
          rw [hack, hstarted, hnow]
          rfl
    obtain ⟨x, hx, htype⟩ := (findsAudio_iff _).mp haudio
    have hcompatible : d.compatible = true := by
      by_contra hbad
      rw [hkinds, if_neg hbad] at hx
      cases hx
    rw [if_pos hcompatible] at hkinds
    rw [hkinds] at hx
    refine ⟨hcompatible, fun i y hy => ?_, x, hx, htype⟩
    have hi := (List.getElem?_eq_some_iff.mp hy).1
    have hlt : i < 256 := Nat.lt_of_lt_of_le hi (length_kinds_le _ hcount)
    have hid : (UInt8.ofNat i).toNat = i := by
      rw [UInt8.toNat_ofNat']
      exact Nat.mod_eq_of_lt hlt
    have hfinds := (findsById_iff _ _).mp (h.finds _ .now (UInt8.ofNat i))
    rw [hkinds, hid, hy] at hfinds
    rw [show y.1 = UInt8.ofNat i from hfinds, hid]
  · intro h
    exact looksUpIncoming_of_countsUp h hfirst hnone

/-- The ack of a peer that speaks the new version. -/
def sampleAck (streams : List ExtraStreamInfo) : ExtraInitAck :=
  { peerVersion := protocolVersion, minVersion := minProtocolVersion, streams }

/-- Its Signaling and its Audio stream, in this order, and a video stream. -/
theorem incoming_lookup_sample :
    (sampleCall {}).LooksUpIncoming samplePlatform (sampleAck [
      { streamId := StreamId.signaling, type := StreamType.signaling, enabled := true },
      { streamId := StreamId.audio, type := StreamType.audio, enabled := true },
      { streamId := 2, type := StreamType.video, enabled := true }]) := by
  refine (incoming_lookup_iff samplePlatform (sampleCall {}) _ rfl (fun _ => ⟨rfl, rfl⟩)
    (by decide)).mpr ⟨by decide, fun i x hx => ?_, ⟨_, rfl, rfl⟩⟩
  match i, hx with
  | 0, rfl => rfl
  | 1, rfl => rfl
  | 2, rfl => rfl

/-- The same streams the other way around: the data of the Audio stream goes to
the Signaling stream. -/
theorem incoming_lookup_fails :
    (sampleCall {}).receivedInitAck = false ∧ (sampleCall {}).Unacked ∧
      ¬ (sampleCall {}).LooksUpIncoming samplePlatform (sampleAck [
        { streamId := StreamId.audio, type := StreamType.audio, enabled := true },
        { streamId := StreamId.signaling, type := StreamType.signaling, enabled := true }]) := by
  refine ⟨rfl, fun _ => ⟨rfl, rfl⟩, fun h => ?_⟩
  have hfinds : StreamId.signaling = StreamId.audio := h.finds _ .now StreamId.audio
  cases hfinds

end Controller

end Tgvoip
