import Tgvoip.Controller.SendFrame

/-!
# ExtraFrame — what the extras of a packet change

Two kinds of extras matter to the transport. Most handlers leave it alone
(`Quiet`). A ping that is allowed and a compatible init are answered
(`answers`): the reply becomes a pending extra, and a NOP carries it out
at once (`dispatchExtra_ok`); the init may set up video streams before.
-/

namespace Tgvoip

open ByteReader Fallible

namespace Extra

/-- The peer's version, where the extra tells it. -/
def saidVersion : Extra → Option UInt32
  | .init d => some d.peerVersion
  | .initAck d => some d.peerVersion
  | _ => none

def isInit : Extra → Bool
  | .init _ => true
  | _ => false

end Extra

namespace Controller

variable {env : Platform} {c c' c'' c₁ : Controller} {now : Time} {x : Extra} {src : Int64}

/-- What an extra that is not answered changes: nothing sending works on. -/
structure Quiet (x : Extra) (c c' : Controller) : Prop where
  transport : c'.toTransport = c.toTransport
  settings : c'.settings = c.settings
  ver : c'.ver = c.ver ∨ ∃ v ∈ x.saidVersion, c'.ver = { c.ver with peerVersion := v.toInt32.toInt }
  receivedInit : c'.receivedInit = c.receivedInit
  decoders : c'.peerVideoDecoders = c.peerVideoDecoders
  lastReceived : c'.lastReceivedExtrasByType = c.lastReceivedExtrasByType
  endpoints : c.allowP2p = false → c.endpoints.Keeps c'.endpoints
  tcpReady : ∀ b, c.endpoints.TcpReady b → c'.endpoints.TcpReady b

namespace Quiet

/-- A sending step that leaves the whole transport alone. -/
theorem of_frame (ht : c'.toTransport = c.toTransport) (h : SendFrame c c') : Quiet x c c' :=
  { h with
    transport := ht
    ver := .inl h.ver
    endpoints := fun _ => h.endpoints }

theorem same (ht : c'.toTransport = c.toTransport) (h : c'.outlook = c.outlook) : Quiet x c c' :=
  .of_frame ht (.same (by rw [faces, ht, faces]) (by rw [ht]) h)

theorem refl (x : Extra) (c : Controller) : Quiet x c c := .same rfl rfl

theorem setVersion {v : UInt32} (hv : v ∈ x.saidVersion) :
    Quiet x c { c with ver := { c.ver with peerVersion := v.toInt32.toInt } } where
  transport := rfl
  settings := rfl
  ver := .inr ⟨v, hv, rfl⟩
  receivedInit := rfl
  decoders := rfl
  lastReceived := rfl
  endpoints := fun _ => .refl _
  tcpReady := fun _ h => h

theorem allowP2p (h : Quiet x c c') : c'.allowP2p = c.allowP2p :=
  congrArg Settings.allowP2p h.settings

theorem trans (h : Quiet x c c') (h' : Quiet x c' c'') : Quiet x c c'' where
  transport := h'.transport.trans h.transport
  settings := h'.settings.trans h.settings
  ver := by
    rcases h'.ver with h₂ | ⟨v, hv, h₂⟩
    · rw [h₂]
      exact h.ver
    · refine .inr ⟨v, hv, ?_⟩
      rcases h.ver with h₁ | ⟨_, _, h₁⟩ <;> rw [h₂, h₁]
  receivedInit := h'.receivedInit.trans h.receivedInit
  decoders := h'.decoders.trans h.decoders
  lastReceived := h'.lastReceived.trans h.lastReceived
  endpoints := fun hp => (h.endpoints hp).trans (h'.endpoints (h.allowP2p.trans hp))
  tcpReady := fun b ht => h'.tcpReady b (h.tcpReady b ht)

/-- What no extra is the cause of. -/
theorem frame (h : Quiet .ping c c') : Frame c c' where
  faces := by rw [faces, h.transport, faces]
  settings := h.settings
  ver := h.ver.resolve_right fun ⟨_, hv, _⟩ => nomatch hv
  receivedInit := h.receivedInit
  decoders := h.decoders
  lastReceived := h.lastReceived
  tcpReady := h.tcpReady
  rawSendQueue := h.transport ▸ List.prefix_refl _

end Quiet

/-! ## The handlers that do not answer -/

theorem sendPublicEndpointsRequest_quiet : Quiet x c c.sendPublicEndpointsRequest := by
  unfold sendPublicEndpointsRequest
  split
  · exact .refl ..
  · dsimp only
    split <;> split <;> exact .same rfl rfl

theorem startAudio_quiet : Quiet x c (c.startAudio env) := by
  unfold startAudio
  dsimp only
  split <;> exact .same rfl rfl

theorem post_quiet (task : Task) (delay : Time) : Quiet x c (c.post task delay) := .same rfl rfl

theorem ite_quiet {p : Prop} [Decidable p] (h : Quiet x c c') :
    Quiet x c (if p then c' else c) := by
  split
  · exact h
  · exact .refl ..

theorem processInitAck_quiet (d : ExtraInitAck) :
    Quiet (.initAck d) c (c.processInitAck env d) := by
  unfold processInitAck
  split
  · exact .refl ..
  · dsimp only
    have hver : Quiet (.initAck d) c { c with
        receivedInitAck := true, initTimeoutPosted := false
        ver := { c.ver with peerVersion := d.peerVersion.toInt32.toInt } } :=
      (Quiet.setVersion rfl).trans (.same rfl rfl)
    split
    · exact hver.trans (.same rfl rfl)
    · split
      · exact hver.trans (.same rfl rfl)
      · refine .trans ?_ (ite_quiet sendPublicEndpointsRequest_quiet)
        refine .trans ?_ (post_quiet ..)
        refine .trans ?_ (ite_quiet startAudio_quiet)
        exact hver.trans (.same rfl rfl)

theorem processStreamFlags_quiet (d : ExtraStreamFlags) : Quiet x c (c.processStreamFlags d) := by
  unfold processStreamFlags
  split <;> exact .same rfl rfl

theorem processStreamCsd_quiet (d : ExtraStreamCsd) : Quiet x c (c.processStreamCsd d) := .same rfl rfl

/-- Endpoints of the peer's own are taken with P2P only, and are UDP. -/
theorem setEndpoint_quiet {id : Int64} {e : Endpoint} (hp : c.allowP2p = true)
    (he : e.type ≠ .tcpRelay) : Quiet x c { c with endpoints := c.endpoints.set id e } :=
  { Quiet.refl x c with
    endpoints := fun h => absurd hp (by simp [h])
    tcpReady := fun _ ht => ht.set fun h => absurd h he }

theorem processLanEndpoint_quiet (d : ExtraLanEndpoint) : Quiet x c (c.processLanEndpoint d) := by
  unfold processLanEndpoint
  split
  · exact .refl ..
  · rename_i hp
    simp only [Bool.not_eq_true', Bool.not_eq_false] at hp
    dsimp only
    have hcurrent : Quiet x c (if c.currentEndpoint = EndpointID.lanv4 then
        { c with currentEndpoint := c.preferredRelay } else c) := ite_quiet (.same rfl rfl)
    refine hcurrent.trans (setEndpoint_quiet ?_ (by simp))
    exact hcurrent.allowP2p.trans hp

theorem processIpv6Endpoint_quiet (d : ExtraIpv6Endpoint) :
    Quiet x c (c.processIpv6Endpoint d) := by
  unfold processIpv6Endpoint
  split
  · exact .refl ..
  · rename_i hp
    simp only [Bool.not_eq_true', Bool.not_eq_false] at hp
    let ep : Endpoint :=
      { id := EndpointID.p2pv6, port := d.port, v6address := .ipv6 d.address, type := .udpP2PInet }
    have hset : Quiet x c { c with endpoints := c.endpoints.set EndpointID.p2pv6 ep } :=
      setEndpoint_quiet hp (by simp [ep])
    dsimp only
    split <;> exact hset.trans (.same rfl rfl)

theorem resetPingStats_quiet :
    Quiet x c { c with endpoints := c.endpoints.map fun e => (e.1, e.2.resetPingStats) } := by
  refine .of_frame rfl (.setEndpoints (Endpoints.keeps_map fun _ => rfl) fun b h y hy => ?_)
  obtain ⟨z, hz, rfl⟩ := List.mem_map.mp hy
  exact h z hz

/-- What a new version of the peer makes of its flags. -/
theorem networkFlags_ok {d : ExtraNetworkChanged}
    (h : (if c.ver.peerVersion < 2 then pure c
      else
        let c := { c with
          dataSavingRequestedByPeer := d.flags &&& ExtraInit.dataSavingEnabled != 0 }
        let c := c.updateDataSavingState
        pure { c with endpoints := c.endpoints.map fun e => (e.1, e.2.resetPingStats) }) =
      (.ok c' : Except Fault Controller)) :
    c' = c ∨ ∃ requested saving, c' = { c with
      dataSavingRequestedByPeer := requested, dataSavingMode := saving
      endpoints := c.endpoints.map fun e => (e.1, e.2.resetPingStats) } := by
  split at h
  · exact .inl (pure_eq_ok.mp h).symm
  · exact .inr ⟨_, _, (pure_eq_ok.mp h).symm⟩

/-- The current endpoint is left if it is not a relay, the peer's own endpoints
are asked for, and the flags are taken over. -/
theorem processNetworkChanged_ok {d : ExtraNetworkChanged}
    (h : c.processNetworkChanged d = .ok c') :
    ∃ c₁ c₂ : Controller, (c₁ = { c with wasNetworkHandover := true } ∨
        c₁ = { c with wasNetworkHandover := true, currentEndpoint := c.preferredRelay }) ∧
      c₂ = (if c₁.allowP2p then c₁.sendPublicEndpointsRequest else c₁) ∧
      (c' = c₂ ∨ ∃ requested saving, c' = { c₂ with
        dataSavingRequestedByPeer := requested, dataSavingMode := saving
        endpoints := c₂.endpoints.map fun e => (e.1, e.2.resetPingStats) }) := by
  unfold processNetworkChanged at h
  obtain ⟨current, -, h⟩ := bind_eq_ok.mp h
  refine ⟨_, _, ?_, rfl, networkFlags_ok h⟩
  split
  · exact .inl rfl
  · exact .inr rfl

theorem processNetworkChanged_quiet {d : ExtraNetworkChanged}
    (h : c.processNetworkChanged d = .ok c') : Quiet x c c' := by
  obtain ⟨c₁, c₂, hcurrent, hasks, hflags⟩ := processNetworkChanged_ok h
  have hleft : Quiet x c c₁ := by
    rcases hcurrent with rfl | rfl
    · exact .same rfl rfl
    · exact .same rfl rfl
  have hasked : Quiet x c₁ c₂ := by
    rw [hasks]
    exact ite_quiet sendPublicEndpointsRequest_quiet
  apply (hleft.trans hasked).trans
  rcases hflags with rfl | ⟨requested, saving, rfl⟩
  · exact .refl ..
  · exact resetPingStats_quiet.trans (.same rfl rfl)

theorem processGroupCallKey_quiet : Quiet x c c.processGroupCallKey := by
  unfold processGroupCallKey
  split <;> exact .same rfl rfl

theorem processPong_quiet {d : ExtraPong} (h : c.processPong now d src = .ok c') :
    Quiet x c c' := by
  unfold processPong at h
  obtain ⟨e, he, h⟩ := bind_eq_ok.mp h
  rw [endpointAt_eq_ok] at he
  split at h
  · rw [← pure_eq_ok.mp h]
    refine .of_frame rfl (.trans (.setEndpoints ?_ ?_) (.same rfl rfl rfl))
    · exact Endpoints.keeps_set he rfl
    · exact fun _ ht => ht.set (ht.at? (e := e) he)
  · rw [← pure_eq_ok.mp h]
    exact .refl ..

/-! ## Video streams -/

/-- The streams the loop over the peer's decoders adds, one for each round
that finds a common codec. -/
def videoStreams (env : Platform) (known : List UInt32) : List UInt32 → List OutgoingStream
  | [] => []
  | d :: ds =>
    ((env.commonCodec (known ++ [d])).map env.videoStream).toList ++
      videoStreams env (known ++ [d]) ds

theorem setupOutgoingVideoStream_eq :
    c.setupOutgoingVideoStream env = { c with
      outgoingStreams := c.outgoingStreams ++
        ((env.commonCodec c.peerVideoDecoders).map env.videoStream).toList } := by
  unfold setupOutgoingVideoStream
  cases env.commonCodec c.peerVideoDecoders with
  | none => simp
  | some codec => rfl

theorem addPeerDecoder_foldl (ds : List UInt32) :
    ds.foldl (·.addPeerDecoder env) c = { c with
      outgoingStreams := c.outgoingStreams ++ videoStreams env c.peerVideoDecoders ds
      peerVideoDecoders := c.peerVideoDecoders ++ ds } := by
  induction ds generalizing c with
  | nil => simp [videoStreams]
  | cons d ds ih =>
      rw [List.foldl_cons, ih, addPeerDecoder, setupOutgoingVideoStream_eq]
      simp [videoStreams]

theorem mem_videoStreams {known ds : List UInt32} {s : OutgoingStream}
    (h : s ∈ videoStreams env known ds) : ∃ codec, s = env.videoStream codec := by
  induction ds generalizing known with
  | nil => cases h
  | cons d ds ih =>
      rcases List.mem_append.mp h with h | h
      · obtain ⟨codec, -, rfl⟩ := Option.map_eq_some_iff.mp (Option.mem_toList.mp h)
        exact ⟨codec, rfl⟩
      · exact ih h

/-! ## The answers -/

/-- The extra, if it is not a repetition, is answered at once. -/
def answers (c : Controller) (src : Int64) : Extra → Bool
  | .init d => compatibleInit d
  | .ping => (c.endpoints.at? src).any c.answersPing
  | _ => false

/-- The reply to an extra. -/
def reply (c : Controller) : Extra → Extra
  | .init _ => .initAck c.initAck
  | _ => .pong {}

theorem videoNegotiated_eq {d : ExtraInit} (h : c'.settings = c.settings) :
    c'.videoNegotiated d = c.videoNegotiated d := by
  have : c'.config = c.config := congrArg Settings.config h
  rw [videoNegotiated, videoNegotiated, this]

/-- What is done before the reply is sent: nothing, or what the first init
asks for. -/
structure Prepared (env : Platform) (x : Extra) (c c₁ : Controller) : Prop where
  streams : c₁.toTransport = c.toTransport ∨
    ∃ d, x = .init d ∧ c.receivedInit = false ∧ c.videoNegotiated d = true ∧
      c₁.toTransport = { c.toTransport with
        outgoingStreams := c.outgoingStreams ++ videoStreams env c.peerVideoDecoders d.decoders }
  settings : c₁.settings = c.settings
  ver : c₁.ver = c.ver ∨ ∃ v ∈ x.saidVersion, c₁.ver = { c.ver with peerVersion := v.toInt32.toInt }
  receivedInit : c₁.receivedInit = c.receivedInit
  decoders : x.isInit = false → c₁.peerVideoDecoders = c.peerVideoDecoders
  lastReceived : c₁.lastReceivedExtrasByType = c.lastReceivedExtrasByType
  endpoints : c.allowP2p = false → c.endpoints.Keeps c₁.endpoints
  tcpReady : ∀ b, c.endpoints.TcpReady b → c₁.endpoints.TcpReady b

theorem Quiet.prepared (h : Quiet x c c₁) : Prepared env x c c₁ :=
  { h with
    streams := .inl h.transport
    decoders := fun _ => h.decoders }

theorem learnCapabilities_quiet (d : ExtraInit) : Quiet x c (c.learnCapabilities d) := by
  unfold learnCapabilities
  dsimp only
  split <;> exact .same rfl rfl

/-- The streams of the first init. -/
theorem learnDecoders_prepared {d : ExtraInit} (hfirst : c.receivedInit = false)
    (h : Quiet (.init d) c c₁) : Prepared env (.init d) c (c₁.learnDecoders env d) := by
  unfold learnDecoders
  split
  · rename_i hvideo
    rw [addPeerDecoder_foldl]
    have hstreams : { c₁.toTransport with
        outgoingStreams := c₁.outgoingStreams ++ videoStreams env c₁.peerVideoDecoders d.decoders } =
      { c.toTransport with
        outgoingStreams := c.outgoingStreams ++ videoStreams env c.peerVideoDecoders d.decoders } := by
      rw [h.transport, h.decoders]
    exact { h with
      streams := .inr ⟨d, rfl, hfirst, videoNegotiated_eq h.settings ▸ hvideo, hstreams⟩
      decoders := fun hinit => nomatch hinit }
  · exact h.prepared

/-- What is done behind the reply. -/
structure Settled (x : Extra) (c c' : Controller) : Prop where
  transport : c'.toTransport = c.toTransport
  outlook : c'.outlook = { c.outlook with receivedInit := x.isInit || c.receivedInit }

namespace Settled

variable (h : Settled x c c')
include h

theorem settings : c'.settings = c.settings := congrArg Outlook.settings h.outlook

theorem ver : c'.ver = c.ver := congrArg Outlook.ver h.outlook

theorem receivedInit : c'.receivedInit = (x.isInit || c.receivedInit) :=
  congrArg Outlook.receivedInit h.outlook

theorem decoders : c'.peerVideoDecoders = c.peerVideoDecoders := congrArg Outlook.decoders h.outlook

theorem lastReceived : c'.lastReceivedExtrasByType = c.lastReceivedExtrasByType :=
  congrArg Outlook.lastReceived h.outlook

theorem endpoints : c'.endpoints = c.endpoints := congrArg Outlook.endpoints h.outlook

end Settled

/-- **An extra is answered**: a reply, on the Signaling stream. -/
def Answered (env : Platform) (now : Time) (x : Extra) (c c' : Controller) : Prop :=
  ∃ c₁ c₂, Prepared env x c c₁ ∧ c₁.answer env now (c₁.reply x) = .ok c₂ ∧ Settled x c₂ c'

theorem adoptEndpoint_settled (d : ExtraInit) (src : Endpoint) :
    Settled (.init d) c (c.adoptEndpoint src) := by
  unfold adoptEndpoint
  dsimp only
  split <;> exact ⟨rfl, rfl⟩

theorem startAudio_settled {p : Prop} [Decidable p] (h : Settled x c c') :
    Settled x c (if p then c'.startAudio env else c') := by
  split
  · unfold startAudio
    dsimp only
    split <;> exact ⟨h.transport, h.outlook⟩
  · exact h

theorem answer_frame {reply : Extra} (h : c.answer env now reply = .ok c') : SendFrame c c' :=
  (sendExtra_frame ..).trans (sendNopPacket_frame h)

theorem processInit_ok {d : ExtraInit} (h : c.processInit env now d src = .ok c') :
    (compatibleInit d = false ∧ Quiet (.init d) c c') ∨
      (compatibleInit d = true ∧ Answered env now (.init d) c c') := by
  unfold processInit at h
  have hver : Quiet (.init d) c (if !c.receivedInit then
      { c with ver := { c.ver with peerVersion := d.peerVersion.toInt32.toInt } } else c) :=
    ite_quiet (.setVersion rfl)
  dsimp only at h
  split at h
  · rename_i hincompatible
    refine .inl ⟨by simpa using hincompatible, ?_⟩
    rw [← pure_eq_ok.mp h]
    exact hver.trans (.same rfl rfl)
  · rename_i hcompatible
    refine .inr ⟨by simpa using hcompatible, ?_⟩
    obtain ⟨c₂, hanswer, h⟩ := bind_eq_ok.mp h
    obtain ⟨e, -, h⟩ := bind_eq_ok.mp h
    cases hfirst : c.receivedInit with
    | false =>
        simp only [hfirst, Bool.not_false, if_true] at h hanswer hver
        refine ⟨_, c₂, learnDecoders_prepared hfirst (hver.trans (learnCapabilities_quiet d)),
          hanswer, ?_⟩
        rw [← pure_eq_ok.mp h]
        exact startAudio_settled (adoptEndpoint_settled d e)
    | true =>
        simp only [hfirst, Bool.not_true, Bool.false_eq_true, if_false] at h hanswer
        refine ⟨_, c₂, (Quiet.refl _ c).prepared, hanswer, ?_⟩
        rw [← pure_eq_ok.mp h]
        have : c₂.receivedInit = true := (answer_frame hanswer).receivedInit.trans hfirst
        exact startAudio_settled ⟨rfl, congrArg (fun b => { c₂.outlook with receivedInit := b }) this⟩

theorem processPing_ok (h : c.processPing env now src = .ok c') :
    (c.answers src .ping = false ∧ Quiet .ping c c') ∨
      (c.answers src .ping = true ∧ Answered env now .ping c c') := by
  unfold processPing at h
  obtain ⟨e, he, h⟩ := bind_eq_ok.mp h
  rw [endpointAt_eq_ok] at he
  have hanswers : c.answers src .ping = c.answersPing e := by simp [answers, he]
  rw [hanswers]
  split at h
  · rename_i hans
    exact .inr ⟨hans, c, c', (Quiet.refl _ c).prepared, h, rfl, rfl⟩
  · rename_i hans
    refine .inl ⟨Bool.not_eq_true _ ▸ hans, ?_⟩
    rw [← pure_eq_ok.mp h]
    exact .refl ..

/-- **What an extra does**: an answer, or nothing the transport sees. -/
theorem dispatchExtra_ok (h : c.dispatchExtra env now x src = .ok c') :
    (c.answers src x = false ∧ Quiet x c c') ∨
      (c.answers src x = true ∧ Answered env now x c c') := by
  cases x with
  | init d => exact processInit_ok h
  | ping => exact processPing_ok h
  | initAck d => exact .inl ⟨rfl, pure_eq_ok.mp h ▸ processInitAck_quiet d⟩
  | streamFlags d => exact .inl ⟨rfl, pure_eq_ok.mp h ▸ processStreamFlags_quiet d⟩
  | streamCsd d => exact .inl ⟨rfl, pure_eq_ok.mp h ▸ processStreamCsd_quiet d⟩
  | lanEndpoint d => exact .inl ⟨rfl, pure_eq_ok.mp h ▸ processLanEndpoint_quiet d⟩
  | networkChanged d => exact .inl ⟨rfl, processNetworkChanged_quiet h⟩
  | groupCallKey d => exact .inl ⟨rfl, pure_eq_ok.mp h ▸ processGroupCallKey_quiet⟩
  | groupCallUpgrade => exact .inl ⟨rfl, pure_eq_ok.mp h ▸ .same rfl rfl⟩
  | ipv6Endpoint d => exact .inl ⟨rfl, pure_eq_ok.mp h ▸ processIpv6Endpoint_quiet d⟩
  | pong d => exact .inl ⟨rfl, processPong_quiet h⟩

/-! ## What every extra leaves alone -/

/-- What an extra leaves alone, answered or not. -/
structure ExtraFrame (x : Extra) (c c' : Controller) : Prop where
  faces : c.faces <+: c'.faces
  settings : c'.settings = c.settings
  ver : c'.ver = c.ver ∨ ∃ v ∈ x.saidVersion, c'.ver = { c.ver with peerVersion := v.toInt32.toInt }
  lastReceived : c'.lastReceivedExtrasByType = c.lastReceivedExtrasByType
  endpoints : c.allowP2p = false → c.endpoints.Keeps c'.endpoints
  tcpReady : ∀ b, c.endpoints.TcpReady b → c'.endpoints.TcpReady b
  rawSendQueue : c.rawSendQueue <+: c'.rawSendQueue

theorem Quiet.extraFrame (h : Quiet x c c') : ExtraFrame x c c' :=
  { h with
    faces := by rw [faces, faces, h.transport]
    rawSendQueue := h.transport ▸ List.prefix_refl _ }

theorem Prepared.faces (h : Prepared env x c c₁) : c.faces <+: c₁.faces := by
  rcases h.streams with h | ⟨d, -, -, -, h⟩
  · rw [Controller.faces, Controller.faces, h]
  · rw [Controller.faces, Controller.faces, h, List.map_append]
    exact List.prefix_append _ _

theorem Prepared.rawSendQueue (h : Prepared env x c c₁) : c₁.rawSendQueue = c.rawSendQueue := by
  rcases h.streams with h | ⟨d, -, -, -, h⟩ <;> rw [h]

theorem Answered.extraFrame (h : Answered env now x c c') : ExtraFrame x c c' := by
  obtain ⟨c₁, c₂, h₁, h₂, h₃⟩ := h
  have hframe := answer_frame h₂
  have hp : c₁.allowP2p = c.allowP2p := congrArg Settings.allowP2p h₁.settings
  exact {
    faces := by
      have : c'.faces = c₁.faces := by rw [faces, h₃.transport, ← faces, hframe.faces]
      exact this ▸ h₁.faces
    settings := h₃.settings.trans (hframe.settings.trans h₁.settings)
    ver := by rw [h₃.ver, hframe.ver]; exact h₁.ver
    lastReceived := h₃.lastReceived.trans (hframe.lastReceived.trans h₁.lastReceived)
    endpoints := fun h => h₃.endpoints ▸ (h₁.endpoints h).trans hframe.endpoints
    tcpReady := fun b h => h₃.endpoints ▸ hframe.tcpReady b (h₁.tcpReady b h)
    rawSendQueue := by
      rw [h₃.transport, ← h₁.rawSendQueue]
      exact hframe.rawSendQueue }

theorem dispatchExtra_frame (h : c.dispatchExtra env now x src = .ok c') : ExtraFrame x c c' := by
  rcases dispatchExtra_ok h with ⟨-, h⟩ | ⟨-, h⟩
  · exact h.extraFrame
  · exact h.extraFrame

/-! ## The new format, through the handshake -/

/-- The format is the new one, and stays it whatever versions the extras tell. -/
def StaysNew (ver : VersionInfo) (xs : List Extra) : Prop :=
  110 ≤ ver.connectionMaxLayer ∨
    (protocolReliable ≤ ver.peerVersion ∧
      ∀ x ∈ xs, ∀ v ∈ x.saidVersion, protocolReliable ≤ v.toInt32.toInt)

theorem StaysNew.isNew {ver : VersionInfo} {xs : List Extra} (h : StaysNew ver xs) :
    ver.isNew = true := by
  unfold VersionInfo.isNew
  rcases h with h | ⟨h, -⟩ <;> simp [h]

theorem StaysNew.cons {ver ver' : VersionInfo} {x : Extra} {xs : List Extra}
    (h : StaysNew ver (x :: xs)) (hver : ver' = ver ∨
      ∃ v ∈ x.saidVersion, ver' = { ver with peerVersion := v.toInt32.toInt }) :
    StaysNew ver' xs := by
  rcases hver with rfl | ⟨v, hv, rfl⟩
  · exact h.imp_right fun h => ⟨h.1, fun y hy => h.2 y (List.mem_cons_of_mem x hy)⟩
  · exact h.imp_right fun h => ⟨h.2 x List.mem_cons_self v hv,
      fun y hy => h.2 y (List.mem_cons_of_mem x hy)⟩

end Controller

end Tgvoip
