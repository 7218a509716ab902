import Tgvoip.Controller.PendingFlags
import Tgvoip.Controller.HandlerRule
import Tgvoip.Controller.ExtraDedup

/-!
# ShownStreams — what a receiver shows of the peer's streams

`incomingStreams` is searched by id, and what `ExtraStreamFlags` sets of a
stream is here its `ShownState`. Streams are only added behind the others,
and but for stream flags nothing changes what is shown of them
(`dispatchExtra_shows`, `step_shows`). Of a packet with one extra of flags,
the hash of the flags handled before decides whether they are told to the
stream, as it is when the controller comes to them
(`processIncomingPacket_flagged`).
-/

namespace Tgvoip

open ByteReader Fallible

/-- What stream flags change of a stream, with its type. -/
structure ShownState where
  type : UInt8
  enabled : Bool
  paused : Bool
  extraECEnabled : Bool
  deriving DecidableEq, Repr

namespace ShownState

/-- `applyStreamFlags`, on the state. -/
def told (v : ShownState) (d : ExtraStreamFlags) : ShownState :=
  { v with
    enabled := d.flags &&& ExtraStreamFlags.enabled != 0
    paused := d.flags &&& ExtraStreamFlags.paused != 0
    extraECEnabled := if v.type = StreamType.audio then d.flags &&& ExtraStreamFlags.extraEC != 0
      else v.extraECEnabled }

end ShownState

def IncomingStream.shown (s : IncomingStream) : ShownState where
  type := s.type
  enabled := s.enabled
  paused := s.paused
  extraECEnabled := s.extraECEnabled

/-- The stream flags of a packet. -/
def Packet.streamFlags (p : Packet) : List WrappedExtra := p.extraSignaling.filter (·.isFlags)

namespace Controller

variable {env : Platform} {c c' c'' : Controller} {now : Time} {src : Int64} {p : Packet}
  {id : UInt8}

/-- What is shown, stream by stream. -/
def screens (c : Controller) : List (UInt8 × ShownState) :=
  c.incomingStreams.map fun s => (s.id, s.shown)

/-- What is shown of the stream. -/
def shown (c : Controller) (id : UInt8) : Option ShownState :=
  (c.incomingStreams.find? (·.id == id)).map (·.shown)

theorem shown_eq (c : Controller) (id : UInt8) :
    c.shown id = (c.screens.find? (·.1 == id)).map (·.2) := by
  unfold shown screens
  rw [List.find?_map, Option.map_map]
  rfl

/-- Nothing that is shown changes; streams may be added. -/
def Shows (c c' : Controller) : Prop := c.screens <+: c'.screens

namespace Shows

theorem of_eq (h : c'.screens = c.screens) : Shows c c' := by
  unfold Shows
  rw [h]

theorem same (h : c'.incomingStreams = c.incomingStreams) : Shows c c' :=
  .of_eq (by rw [screens, h, screens])

theorem refl (c : Controller) : Shows c c := List.prefix_refl _

theorem trans (h : Shows c c') (h' : Shows c' c'') : Shows c c'' := List.IsPrefix.trans h h'

theorem ite {p : Prop} [Decidable p] (h : Shows c c') : Shows c (if p then c' else c) := by
  split
  · exact h
  · exact .refl c

theorem shown {v : ShownState} (h : Shows c c') (hv : c.shown id = some v) :
    c'.shown id = some v := by
  rw [shown_eq] at hv ⊢
  obtain ⟨x, hx, rfl⟩ := Option.map_eq_some_iff.mp hv
  obtain ⟨more, hmore⟩ := h
  rw [← hmore, List.find?_append, hx]
  rfl

end Shows

/-! ## Sending -/

theorem shows_rule : SendRule Shows where
  refl := .refl
  trans := .trans
  connect := by
    intro c key e _
    unfold connectIfNeeded
    exact .ite (.same rfl)
  transmit := by
    intro c c' now pkt e h
    obtain ⟨s, pm, -, -, -, rfl⟩ := transmit_ok h
    exact .same rfl
  enqueue := fun _ _ => .same rfl
  reliably := by
    intro c pkt retryInterval timeout tries
    unfold sendPacketReliably
    dsimp only
    split
    · exact .same rfl
    · exact .same rfl
  noteSealing := fun _ _ => .same rfl
  prepareNew := fun _ => .same rfl
  prepareLegacy := fun _ _ => .same rfl

theorem sendExtra_shows (extra : WrappedExtra) (endpointId : Int64) :
    Shows c (c.sendExtra extra endpointId) := by
  unfold sendExtra
  split
  · exact .same rfl
  · exact .same rfl

/-! ## The handlers -/

theorem processStreamCsd_shows (d : ExtraStreamCsd) : Shows c (c.processStreamCsd d) := by
  apply Shows.of_eq
  unfold processStreamCsd screens
  apply ListEntry.map_modify
  intro s _
  split
  · rfl
  · rfl

theorem shows_handlers (env : Platform) : HandlerRule env Shows where
  toSendRule := shows_rule
  aside := fun h => .same (congrArg Core.incomingStreams h)
  extra := fun _ => sendExtra_shows
  count := fun _ _ => .same rfl
  draw := fun _ => .same rfl
  retry := fun _ _ _ => .same rfl
  initSent := fun _ _ => .same rfl
  fail := fun _ _ => .same rfl
  audio := fun _ _ => .same rfl
  post := fun _ _ _ _ => .same rfl
  video := fun _ _ => .same rfl
  ackInit := by
    intro c ver streams _
    unfold Shows screens
    rw [List.map_append]
    exact List.prefix_append _ _
  csd := fun _ => processStreamCsd_shows

/-- **Only stream flags change what is shown.** -/
theorem dispatchExtra_shows {x : Extra} (hother : WrappedExtra.isFlags { d := x } = false)
    (h : c.dispatchExtra env now x src = .ok c') : Shows c c' := by
  refine (shows_handlers env).dispatchExtra ?_ h
  rintro d rfl
  cases hother

/-- Stream flags are told to the first stream of their id. -/
theorem processStreamFlags_shown (d : ExtraStreamFlags) :
    (c.processStreamFlags d).shown d.streamId = (c.shown d.streamId).map (·.told d) := by
  unfold processStreamFlags
  split
  · rename_i hnone
    have hfind : c.incomingStreams.find? (·.id == d.streamId) = none :=
      List.find?_eq_none.mpr fun s hs => by simp [List.findIdx?_eq_none_iff.mp hnone s hs]
    rw [shown, hfind]
    rfl
  · rename_i i hi
    show ((c.incomingStreams.modify i (applyStreamFlags d)).find? _).map _ = _
    rw [ListEntry.find?_modify (f := applyStreamFlags d) hi (fun _ => rfl), shown, Option.map_map,
      Option.map_map]
    rfl

/-! ## The extras of a packet -/

/-- The hash of the stream flags handled last. -/
def lastFlags (c : Controller) : UInt64 := c.lastReceivedExtrasByType ExtraKind.streamFlags.id

/-- What extras other than stream flags leave as it is. -/
structure Unflagged (c c' : Controller) : Prop where
  shows : Shows c c'
  lastFlags : c'.lastFlags = c.lastFlags

theorem Unflagged.refl (c : Controller) : Unflagged c c := ⟨.refl c, rfl⟩

theorem Unflagged.trans (h : Unflagged c c') (h' : Unflagged c' c'') : Unflagged c c'' :=
  ⟨h.shows.trans h'.shows, h'.lastFlags.trans h.lastFlags⟩

/-- Whether flags repeat the last ones is a matter of their hash alone. -/
theorem repeatsLast_flags {y : WrappedExtra} (hy : y.isFlags = true) :
    c.repeatsLast env y = (env.hash y != 0 && c.lastFlags == env.hash y) := by
  unfold repeatsLast lastFlags
  rw [beq_iff_eq.mp hy]

theorem processExtraData_unflagged {x : WrappedExtra} (hx : x.isFlags = false)
    (h : c.processExtraData env now src x = .ok c') : Unflagged c c' := by
  unfold processExtraData at h
  split at h
  · rw [← pure_eq_ok.mp h]
    exact .refl c
  · have hnoted : Shows c (c.noteReceived env x) := .same rfl
    have hother : WrappedExtra.isFlags { d := x.d } = false := hx
    refine ⟨hnoted.trans (dispatchExtra_shows hother h), ?_⟩
    unfold lastFlags
    rw [(dispatchExtra_frame h).lastReceived]
    -- the hash was noted under another type
    apply Function.update_of_ne
    intro htype
    exact Bool.noConfusion (hx.symm.trans (beq_iff_eq.mpr htype.symm))

theorem processExtras_unflagged {xs : List WrappedExtra} (hxs : xs.filter (·.isFlags) = [])
    (h : c.processExtras env now src xs = .ok c') : Unflagged c c' := by
  rw [List.filter_eq_nil_iff] at hxs
  refine foldlM_invariant (I := Unflagged c) ?_ (.refl c) h
  intro c₁ x hx c₂ h₁ h₂
  exact h₁.trans (processExtraData_unflagged (Bool.not_eq_true _ ▸ hxs x hx) h₂)

/-- Flags that repeat the last ones are passed over, others are told. -/
theorem processExtraData_flagged {y : WrappedExtra} {d : ExtraStreamFlags}
    (hy : y.d = .streamFlags d) (h : c.processExtraData env now src y = .ok c') :
    (c.repeatsLast env y = true ∧ c' = c) ∨ (c.repeatsLast env y = false ∧
      c'.shown d.streamId = (c.shown d.streamId).map (·.told d) ∧ c'.lastFlags = env.hash y) := by
  unfold processExtraData at h
  split at h
  · rename_i hrep
    exact .inl ⟨hrep, (pure_eq_ok.mp h).symm⟩
  · rename_i hrep
    have hkey : y.d.getID = ExtraKind.streamFlags.id := by rw [hy]; rfl
    rw [hy] at h
    have hrun : (c.noteReceived env y).processStreamFlags d = c' := pure_eq_ok.mp h
    refine .inr ⟨Bool.eq_false_iff.mpr hrep, ?_, ?_⟩
    · rw [← hrun, processStreamFlags_shown]
      rfl
    · have hlast : c'.lastFlags = (c.noteReceived env y).lastFlags := by
        rw [← hrun]
        unfold processStreamFlags lastFlags
        split <;> rfl
      rw [hlast]
      show Function.update c.lastReceivedExtrasByType y.d.getID (env.hash y)
        ExtraKind.streamFlags.id = env.hash y
      rw [hkey, Function.update_self]

/-- The flags stand between extras of other types. -/
theorem processExtras_flagged {xs : List WrappedExtra} {y : WrappedExtra}
    (hxs : xs.filter (·.isFlags) = [y]) (h : c.processExtras env now src xs = .ok c') :
    ∃ c₁ c₂, c.processExtras env now src (xs.takeWhile (!·.isFlags)) = .ok c₁ ∧ Unflagged c c₁ ∧
      c₁.processExtraData env now src y = .ok c₂ ∧ Unflagged c₂ c' := by
  obtain ⟨before, rest, rfl, hbefore, hflags, hrest⟩ := List.filter_eq_cons_iff.mp hxs
  have htake : (before ++ y :: rest).takeWhile (!·.isFlags) = before := by
    rw [List.takeWhile_append_of_pos (by simpa using hbefore),
      List.takeWhile_cons_of_neg (by simp [hflags]), List.append_nil]
  have hbefore : before.filter (·.isFlags) = [] := List.filter_eq_nil_iff.mpr hbefore
  rw [htake]
  unfold processExtras at h ⊢
  rw [List.foldlM_append] at h
  obtain ⟨c₁, h₁, h⟩ := bind_eq_ok.mp h
  rw [List.foldlM_cons] at h
  obtain ⟨c₂, h₂, h₃⟩ := bind_eq_ok.mp h
  exact ⟨c₁, c₂, h₁, processExtras_unflagged hbefore h₁, h₂, processExtras_unflagged hrest h₃⟩

/-! ## The packet -/

theorem processAck_shows {pm : PacketManager} {hasSender : Bool}
    (h : c.processAck now p pm hasSender = .ok c') : Shows c c' := by
  unfold processAck at h
  dsimp only at h
  split at h
  · cases h
  · rw [← pure_eq_ok.mp h]
    split
    · exact .same rfl
    · exact .same rfl

/-- Behind its extras, a packet changes nothing that is shown. -/
theorem processFreshPacket_shows (h : c.processFreshPacket env now p src = .ok c') :
    ∃ c₁, c.processExtras env now src p.extraSignaling = .ok c₁ ∧ Unflagged c₁ c' := by
  obtain ⟨c₁, _, _, _, _, hstages⟩ := processFreshPacket_ok h
  obtain ⟨c₀, c₂, s, hextras, -, hack, hrest⟩ := (shows_handlers env).processFreshPacket h
  obtain rfl : c₀ = c₁ := Except.ok.inj (hextras.symm.trans hstages.extras)
  refine ⟨c₀, hextras, ?_, ?_⟩
  · rcases hack with ⟨-, rfl⟩ | ⟨-, hasSender, hack⟩
    · exact hrest
    · exact (processAck_shows hack).trans hrest
  · unfold lastFlags
    rw [hstages.frame.lastReceived]

theorem processIncomingPacket_unflagged (hp : p.streamFlags = [])
    (h : c.processIncomingPacket env now p src = .ok c') : Unflagged c c' := by
  obtain ⟨s, -, ⟨-, rfl⟩ | ⟨-, h⟩⟩ := processIncomingPacket_ok h
  · exact .refl c'
  · have harrived : Unflagged c (c.arrived s p) := ⟨.same rfl, rfl⟩
    obtain ⟨c₁, hextras, hrest⟩ := processFreshPacket_shows h
    exact (harrived.trans (processExtras_unflagged hp hextras)).trans hrest

/-- The controller when it comes to the flags of a packet. -/
def beforeFlags (env : Platform) (c : Controller) (now : Time) (p : Packet) (src : Int64) :
    Except Fault Controller := do
  let stream ← c.outgoingStream p.managerIndex.toNat
  (c.arrived stream p).processExtras env now src (p.extraSignaling.takeWhile (!·.isFlags))

/-- **A packet with stream flags** that is accepted: they are passed over if they repeat the flags
handled last, and told to the stream otherwise. -/
theorem processIncomingPacket_flagged {y : WrappedExtra} {d : ExtraStreamFlags}
    (hp : p.streamFlags = [y]) (hy : y.d = .streamFlags d) (hnew : c.accepts p = true)
    (h : c.processIncomingPacket env now p src = .ok c') :
    (c.repeatsLast env y = true ∧ Unflagged c c') ∨ (c.repeatsLast env y = false ∧
      c'.lastFlags = env.hash y ∧ ∃ c₁, c.beforeFlags env now p src = .ok c₁ ∧
        ∀ v, c₁.shown d.streamId = some v → c'.shown d.streamId = some (v.told d)) := by
  obtain ⟨s, hs, ⟨hold, -⟩ | ⟨-, h⟩⟩ := processIncomingPacket_ok h
  · exact Bool.noConfusion (hold.symm.trans hnew)
  · obtain ⟨c₀, hextras, hrest⟩ := processFreshPacket_shows h
    obtain ⟨c₁, c₂, h₁, hbefore, h₂, hafter⟩ := processExtras_flagged hp hextras
    have hbegin : c.beforeFlags env now p src = .ok c₁ := by
      unfold beforeFlags
      rw [outgoingStream_eq_ok.mpr hs]
      exact h₁
    have hflags : y.isFlags = true := by
      have hmem : y ∈ p.streamFlags := hp ▸ List.mem_singleton_self y
      exact (List.mem_filter.mp hmem).2
    have harrived : Unflagged c (c.arrived s p) := ⟨.same rfl, rfl⟩
    have hfirst := harrived.trans hbefore
    have hrepeats : c₁.repeatsLast env y = c.repeatsLast env y := by
      rw [repeatsLast_flags hflags, repeatsLast_flags hflags, hfirst.lastFlags]
    have hend := hafter.trans hrest
    rcases processExtraData_flagged hy h₂ with ⟨hrep, rfl⟩ | ⟨hnot, hshown, hlast⟩
    · exact .inl ⟨hrepeats ▸ hrep, hfirst.trans hend⟩
    · refine .inr ⟨hrepeats ▸ hnot, hend.lastFlags.trans hlast, c₁, hbegin, fun v hv => ?_⟩
      refine hend.shows.shown ?_
      rw [hshown, hv]
      rfl

/-- Only packets bring stream flags. -/
theorem step_shows {e : Time × Event} (he : e.2.isPacket = false) (h : c.step env e = .ok c') :
    Unflagged c c' := by
  have hlast : c'.lastFlags = c.lastFlags := by
    unfold lastFlags
    rw [step_lastReceived (fun p src hp => by rw [hp] at he; cases he) h]
  refine ⟨(shows_handlers env).handle ?_ h, hlast⟩
  intro p src hp
  rw [hp] at he
  cases he

end Controller

end Tgvoip
