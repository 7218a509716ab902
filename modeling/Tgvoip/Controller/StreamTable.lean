import Tgvoip.Controller.PacketFrame
import Tgvoip.Packets.Cascade

/-!
# StreamTable — streams stored by position, named by id

`ProcessIncomingPacket` uses the stream id of a packet as an index into
`outgoingStreams`. `Aligned` is what makes this right: every stream stands
at the position its id names. The constructor's two streams are aligned,
and one more, the video stream, fits behind them; `Table` is the invariant
that carries this along the runs in which the first init adds one video
stream at most.
-/

namespace Tgvoip

open ByteReader Fallible

namespace Controller

variable {env : Platform} {c c' : Controller} {now : Time} {src : Int64} {p : Packet}

/-- Every stream stands where its id says, and so does its packet manager. -/
def Aligned (c : Controller) : Prop :=
  ∀ i (s : OutgoingStream), c.outgoingStreams[i]? = some s →
    s.id.toNat = i ∧ s.packetManager.transportId.toNat = i

/-- The three streams there can be. -/
def callIds : List (UInt8 × UInt8) := [(0, 0), (1, 1), (2, 2)]

theorem callIds_getElem? {i : ℕ} {x : UInt8 × UInt8} (h : callIds[i]? = some x) :
    x.1.toNat = i ∧ x.2.toNat = i := by
  match i, h with
  | 0, h => exact Option.some.inj h ▸ ⟨rfl, rfl⟩
  | 1, h => exact Option.some.inj h ▸ ⟨rfl, rfl⟩
  | 2, h => exact Option.some.inj h ▸ ⟨rfl, rfl⟩

theorem aligned_of_ids (h : c.ids <+: callIds) : c.Aligned := by
  intro i s hs
  obtain ⟨rest, hrest⟩ := h
  have hids : c.ids[i]? = some (s.id, s.packetManager.transportId) := by
    rw [ids, List.getElem?_map, hs, Option.map_some]
  obtain ⟨hi, -⟩ := List.getElem?_eq_some_iff.mp hids
  exact callIds_getElem? (by rw [← hrest, List.getElem?_append_left hi, hids])

/-- The streams there can be: two, and the third only behind the first init. -/
structure Table (c : Controller) : Prop where
  ids : c.ids <+: callIds
  length : 2 ≤ c.ids.length
  first : c.receivedInit = false → c.ids.length = 2 ∧ c.peerVideoDecoders = []

theorem Table.of_eq (h : c.Table) (hids : c'.ids = c.ids)
    (hinit : c'.receivedInit = c.receivedInit)
    (hdecoders : c'.peerVideoDecoders = c.peerVideoDecoders) : c'.Table where
  ids := hids ▸ h.ids
  length := hids ▸ h.length
  first := by rw [hinit, hids, hdecoders]; exact h.first

theorem Table.frame (h : c.Table) (hframe : Frame c c') : c'.Table :=
  h.of_eq (ids_of_faces hframe.faces) hframe.receivedInit hframe.decoders

/-! ## The streams of an init -/

theorem commonCodec_of_append {known ds : List UInt32}
    (h : env.commonCodec (known ++ ds) = none) : env.commonCodec known = none := by
  simp only [Platform.commonCodec, List.find?_eq_none, Bool.and_eq_true, not_and,
    List.contains_iff_mem, List.mem_append] at h ⊢
  exact fun codec hcodec henc hknown => h codec hcodec henc (.inl hknown)

/-- One decoder at most adds a stream if the others are not common. -/
theorem videoStreams_length {known ds : List UInt32}
    (h : env.commonCodec (known ++ ds.dropLast) = none) :
    (videoStreams env known ds).length ≤ 1 := by
  induction ds generalizing known with
  | nil => exact Nat.zero_le 1
  | cons d ds ih =>
      rw [videoStreams, List.length_append]
      cases ds with
      | nil =>
          have : ((env.commonCodec (known ++ [d])).map env.videoStream).toList.length ≤ 1 := by
            cases (env.commonCodec (known ++ [d])).map env.videoStream <;> simp
          exact this
      | cons d' ds =>
          have hrest : env.commonCodec ((known ++ [d]) ++ (d' :: ds).dropLast) = none := by
            simpa using h
          rw [commonCodec_of_append hrest, Option.map_none, Option.toList_none, List.length_nil,
            Nat.zero_add]
          exact ih hrest

/-- The first init of the extras that the handler does not refuse. -/
def firstInit (xs : List Extra) : Option ExtraInit :=
  xs.findSome? fun
    | .init d => if compatibleInit d then some d else none
    | _ => none

/-- If the first init is still to come and is among the extras, it adds one
video stream at most: no decoder but the last is common. -/
def OneStream (env : Platform) (c : Controller) (xs : List Extra) : Prop :=
  c.receivedInit = false → ∀ d, firstInit xs = some d → c.videoNegotiated d = true →
    env.commonCodec d.decoders.dropLast = none

theorem Prepared.ids {x : Extra} {c₁ : Controller} (h : Prepared env x c c₁) :
    c₁.ids = c.ids ∨ ∃ d, x = .init d ∧ c.receivedInit = false ∧ c.videoNegotiated d = true ∧
      c₁.ids = c.ids ++
        List.replicate (videoStreams env c.peerVideoDecoders d.decoders).length (2, 2) := by
  rcases h.streams with h | ⟨d, hx, hinit, hvideo, h⟩
  · exact .inl (by rw [Controller.ids, h]; rfl)
  · refine .inr ⟨d, hx, hinit, hvideo, ?_⟩
    rw [Controller.ids, h, List.map_append]
    refine congrArg (_ ++ ·) (List.eq_replicate_iff.mpr ⟨List.length_map .., fun x hx => ?_⟩)
    obtain ⟨s, hs, rfl⟩ := List.mem_map.mp hx
    obtain ⟨codec, rfl⟩ := mem_videoStreams hs
    rfl

/-- **The video stream comes third.** -/
theorem Prepared.table {d : ExtraInit} {c₁ : Controller} (hc : c.Table)
    (hd : c.receivedInit = false → c.videoNegotiated d = true →
      env.commonCodec d.decoders.dropLast = none)
    (h : Prepared env (.init d) c c₁) : c₁.ids <+: callIds ∧ 2 ≤ c₁.ids.length := by
  rcases h.ids with h | ⟨_, hx, hinit, hvideo, h⟩
  · rw [h]
    exact ⟨hc.ids, hc.length⟩
  · cases hx
    obtain ⟨hlen, hdecoders⟩ := hc.first hinit
    have hone : (videoStreams env c.peerVideoDecoders d.decoders).length ≤ 1 :=
      videoStreams_length (by simpa [hdecoders] using hd hinit hvideo)
    have htwo : c.ids = [(0, 0), (1, 1)] := by
      rw [List.prefix_iff_eq_take.mp hc.ids, hlen]
      rfl
    rw [h, htwo]
    rcases Nat.le_one_iff_eq_zero_or_eq_one.mp hone with h | h <;> rw [h] <;> decide

theorem firstInit_cons {x : Extra} {rest : List Extra}
    (h : ∀ d, x = .init d → compatibleInit d = false) : firstInit (x :: rest) = firstInit rest := by
  cases x with
  | init d => simp [firstInit, h d rfl]
  | _ => rfl

theorem OneStream.of_cons {x : Extra} {rest : List Extra} (h : OneStream env c (x :: rest))
    (hx : ∀ d, x = .init d → compatibleInit d = false) (hsettings : c'.settings = c.settings)
    (hinit : c'.receivedInit = c.receivedInit) : OneStream env c' rest := by
  intro hfirst d hd hvideo
  rw [hinit] at hfirst
  rw [videoNegotiated_eq hsettings] at hvideo
  exact h hfirst d (by rw [firstInit_cons hx, hd]) hvideo

theorem Table.dispatchExtra {x : Extra} {rest : List Extra} (hc : c.Table)
    (hone : OneStream env c (x :: rest)) (h : c.dispatchExtra env now x src = .ok c') :
    c'.Table ∧ OneStream env c' rest := by
  rcases dispatchExtra_ok h with ⟨hans, hquiet⟩ | ⟨hans, c₁, c₂, h₁, h₂, h₃⟩
  · refine ⟨hc.of_eq (by rw [Controller.ids, hquiet.transport, Controller.ids]) hquiet.receivedInit hquiet.decoders,
      hone.of_cons ?_ hquiet.settings hquiet.receivedInit⟩
    rintro d rfl
    exact hans
  · have hids : c'.ids = c₁.ids := by
      rw [Controller.ids, h₃.transport]
      exact ids_of_faces (answer_frame h₂).faces
    cases x with
    | init d =>
        have hinit : c'.receivedInit = true := h₃.receivedInit
        obtain ⟨hcall, hlen⟩ := h₁.table hc fun hfirst hvideo =>
          hone hfirst d (by simp [firstInit, show compatibleInit d = true from hans]) hvideo
        exact ⟨⟨hids ▸ hcall, hids ▸ hlen, by simp [hinit]⟩, by simp [OneStream, hinit]⟩
    | ping =>
        have hframe := (answer_frame h₂)
        have hinit : c'.receivedInit = c.receivedInit :=
          h₃.receivedInit.trans (hframe.receivedInit.trans h₁.receivedInit)
        have hids₁ : c₁.ids = c.ids := h₁.ids.resolve_right fun ⟨_, hx, _⟩ => nomatch hx
        refine ⟨hc.of_eq (hids.trans hids₁) hinit
          (h₃.decoders.trans (hframe.decoders.trans (h₁.decoders rfl))), hone.of_cons nofun
          (h₃.settings.trans (hframe.settings.trans h₁.settings)) hinit⟩
    | _ => cases hans

/-! ## Runs -/

theorem Table.arrived {s : OutgoingStream} (hc : c.Table)
    (hs : c.outgoingStreams[p.managerIndex.toNat]? = some s) : (c.arrived s p).Table :=
  hc.of_eq (ids_setManager hs (PacketManager.ackRemotePacket_transportId ..)) rfl rfl

/-- The packet names a stream of this side, and if it brings the first init,
that init adds one video stream at most. -/
def PacketFits (env : Platform) (c : Controller) (p : Packet) : Prop :=
  (p.legacy = true ∨ ∃ s ∈ c.outgoingStreams, s.id = p.streamId) ∧
    (c.accepts p = true → OneStream env c (c.freshExtras env p.extraSignaling))

/-- Every packet fits. -/
def EventFits (env : Platform) (c : Controller) (e : Time × Event) : Prop :=
  ∀ p src, e.2 = .packet p src → PacketFits env c p

theorem Table.packet (hc : c.Table) (hp : PacketFits env c p)
    (h : c.processIncomingPacket env now p src = .ok c') : c'.Table := by
  obtain ⟨s, hs, ⟨-, rfl⟩ | ⟨haccepts, h⟩⟩ := processIncomingPacket_ok h
  · exact hc
  · obtain ⟨c₁, c₂, c₃, c₄, t, hstages⟩ := processFreshPacket_ok h
    have hone : OneStream env (c.arrived s p) ((c.arrived s p).freshExtras env p.extraSignaling) := by
      rw [freshExtras_arrived]
      exact hp.2 haccepts
    have hextras : c₁.Table ∧ OneStream env c₁ [] :=
      processExtras_rule (I := fun c rest => c.Table ∧ OneStream env c rest)
        (fun c x rest h => ⟨h.1.of_eq rfl rfl rfl, h.2⟩)
        (fun c x rest c' h hx => h.1.dispatchExtra h.2 hx)
        ⟨hc.arrived hs, hone⟩ hstages.extras
    exact hextras.1.frame hstages.frame

theorem Table.step {e : Time × Event} (hc : c.Table) (he : EventFits env c e)
    (h : c.step env e = .ok c') : c'.Table := by
  rcases step_cases h with ⟨p, src, hp, h⟩ | ⟨-, h⟩
  · exact hc.packet (he p src hp) h
  · exact hc.of_eq (ids_of_faces h.faces) h.receivedInit h.decoders

/-- A controller as the constructor leaves it, but for its settings. -/
structure Constructed (c : Controller) : Prop where
  streams : ∃ mask, c.outgoingStreams = initialStreams mask
  receivedInit : c.receivedInit = false
  decoders : c.peerVideoDecoders = []

theorem Constructed.table (h : c.Constructed) : c.Table := by
  obtain ⟨mask, hstreams⟩ := h.streams
  have hids : c.ids = [(0, 0), (1, 1)] := by
    rw [ids, hstreams]
    rfl
  exact ⟨hids ▸ by decide, hids ▸ by decide, fun _ => ⟨hids ▸ rfl, h.decoders⟩⟩

/-- The lookups of a step are right: the index of a packet is one of the
table, and the table is aligned before and after. -/
def LooksUpRight (env : Platform) (c : Controller) (e : Time × Event) : Prop :=
  (∀ p src, e.2 = .packet p src → p.managerIndex.toNat < c.outgoingStreams.length) ∧
    c.Aligned ∧ ∀ c', c.step env e = .ok c' → c'.Aligned

theorem Table.managerIndex_lt (hc : c.Table) (hp : PacketFits env c p) :
    p.managerIndex.toNat < c.outgoingStreams.length := by
  have hlen : c.ids.length = c.outgoingStreams.length := List.length_map ..
  have htwo := hc.length
  unfold Packet.managerIndex
  split
  · show 0 < _
    omega
  · rename_i hnew
    obtain ⟨s, hs, hid⟩ := hp.1.resolve_left hnew
    obtain ⟨i, hi, rfl⟩ := List.mem_iff_getElem.mp hs
    have hat := (aligned_of_ids hc.ids i _ (List.getElem?_eq_getElem hi)).1
    rw [← hid, hat]
    exact hi

/-- **Streams are looked up right** along every run whose packets fit. -/
theorem stream_lookup_right {events : List (Time × Event)} (hc : c.Constructed)
    (h : AlongOk (step env) (EventFits env) c events) :
    AlongOk (step env) (LooksUpRight env) c events :=
  h.strengthen (I := Table) (fun _ _ _ hc he hstep => hc.step he hstep)
    (fun _ _ hc he => ⟨fun p src hp => hc.managerIndex_lt (he p src hp), aligned_of_ids hc.ids,
      fun _ hstep => aligned_of_ids (hc.step he hstep).ids⟩)
    hc.table

theorem sampleCall_constructed (config : Config) : (sampleCall config).Constructed := ⟨⟨0, rfl⟩, rfl, rfl⟩

/-- This side may send video. -/
def videoConfig : Config := { enableVideoSend := true }

/-- An init that adds the video stream, and a packet on that stream. -/
theorem stream_lookup_video :
    AlongOk (step samplePlatform) (LooksUpRight samplePlatform) (sampleCall videoConfig)
      [(0, .packet (sampleInit [Codec.avc]) 1), (0, .packet { seq := 1, streamId := 2 } 1)] := by
  refine stream_lookup_right (sampleCall_constructed _)
    (alongOk_cons.mpr ⟨?_, fun c hc => alongOk_cons.mpr ⟨?_, fun _ _ => trivial⟩⟩)
  · rintro _ _ ⟨⟩
    refine ⟨.inr ⟨_, List.mem_cons_self, rfl⟩, fun _ _ d hd _ => ?_⟩
    cases hd
    decide
  · have hids : c.ids = callIds := by
      have := congrArg (Except.map ids) hc
      exact (Except.ok.inj this).symm
    rintro _ _ ⟨⟩
    obtain ⟨s, hs, hid⟩ := List.mem_map.mp (hids ▸ show ((2, 2) : UInt8 × UInt8) ∈ callIds by decide)
    exact ⟨.inr ⟨s, hs, congrArg Prod.fst hid⟩, fun _ _ d hd => nomatch hd⟩

/-- A parsed packet can name any stream, and an init with two common decoders
adds two streams of id 2. -/
theorem stream_lookup_fails :
    (¬ ∀ (c : Controller) (fresh : ℕ → Bytes) (payload : Bytes) (packet : IncomingPacket),
      c.Constructed → IncomingPacket.parseCascade fresh c.ver payload = .ok packet →
      packet.managerIndex.toNat < c.outgoingStreams.length) ∧
    (¬ ∀ (env : Platform) (c c' : Controller) (e : Time × Event),
      c.Constructed → c.step env e = .ok c' → c'.Aligned) := by
  constructor
  · intro h
    -- the long form of the stream id: 200 in a byte of its own
    have := h (sampleCall videoConfig) (fun _ => []) [67, 1, 0, 0, 0, 0, 0, 0, 0, 0, 0, 0, 0, 200, 0] _
      (sampleCall_constructed _) rfl
    exact absurd this (by decide)
  · intro h
    have hstep : ∃ c', (sampleCall videoConfig).step samplePlatform
        (0, .packet (sampleInit [Codec.avc, Codec.hevc]) 1) = .ok c' := ⟨_, rfl⟩
    obtain ⟨c', hc'⟩ := hstep
    have hids : c'.ids = [(0, 0), (1, 1), (2, 2), (2, 2)] := by
      have := congrArg (Except.map ids) hc'
      exact (Except.ok.inj this).symm
    have hlast : c'.ids[3]? = some (2, 2) := by rw [hids]; rfl
    obtain ⟨s, hs, hid⟩ := Option.map_eq_some_iff.mp ((List.getElem?_map ..).symm.trans hlast)
    have hat := (h _ _ _ _ (sampleCall_constructed _) hc' 3 s hs).1
    rw [show s.id = 2 from congrArg Prod.fst hid] at hat
    exact absurd hat (by decide)

end Controller

end Tgvoip
