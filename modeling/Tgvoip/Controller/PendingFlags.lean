import Tgvoip.Controller.Bookkeeping
import Tgvoip.Controller.MessageThread

/-!
# PendingFlags — the stream flags that wait for an acknowledgement

`SendExtra` keeps one pending entry for each type of extra and endpoint. Of
stream flags, which are all sent to endpoint 0, there is therefore one entry
at most, for whatever stream. Sending takes it along and leaves it in place
(`KeepsFlags`), an acknowledgement may erase it, and nothing else touches it
(`step_flags`).
-/

namespace Tgvoip

open ByteReader Fallible

namespace WrappedExtra

/-- The extra is an `ExtraStreamFlags`. -/
def isFlags (x : WrappedExtra) : Bool := x.d.getID == ExtraKind.streamFlags.id

theorem isFlags_eq_true {x : WrappedExtra} : x.isFlags = true ↔ ∃ d, x.d = .streamFlags d := by
  obtain ⟨d, hashed⟩ := x
  cases d <;> simp [isFlags, Extra.getID, Extra.kind, ExtraKind.id]

end WrappedExtra

/-- An entry of `currentExtras` without the seqs it remembers. -/
structure PendingEntry where
  data : WrappedExtra
  endpointId : Int64
  occurrence : ℕ

namespace PendingEntry

/-- Whether the extra goes along on a packet to the endpoint. -/
def rides (x : PendingEntry) (endpointId : Int64) : Bool :=
  x.endpointId == 0 || x.endpointId == endpointId

/-- What goes along on a packet. -/
def ridden (x : PendingEntry) : ℕ × WrappedExtra := (x.occurrence, x.data)

end PendingEntry

namespace UnacknowledgedExtraData

def forget (x : UnacknowledgedExtraData) : PendingEntry where
  data := x.data
  endpointId := x.endpointId
  occurrence := x.occurrence

@[simp] theorem forget_remember (x : UnacknowledgedExtraData) (seq : UInt32) :
    (x.remember seq).forget = x.forget := rfl

end UnacknowledgedExtraData

namespace Transport

/-- The pending stream flags. -/
def pendingFlags (t : Transport) : List PendingEntry :=
  (t.currentExtras.map (·.forget)).filter (·.data.isFlags)

/-- Those a packet to the endpoint takes along. -/
def ridingFlags (t : Transport) (endpointId : Int64) : List (ℕ × WrappedExtra) :=
  (t.pendingFlags.filter (·.rides endpointId)).map (·.ridden)

theorem mem_pendingFlags {t : Transport} {y : PendingEntry} :
    y ∈ t.pendingFlags ↔ ∃ x ∈ t.currentExtras, x.data.isFlags = true ∧ x.forget = y := by
  unfold pendingFlags
  rw [List.mem_filter, List.mem_map]
  constructor
  · rintro ⟨⟨x, hx, rfl⟩, hflags⟩
    exact ⟨x, hx, hflags, rfl⟩
  · rintro ⟨x, hx, hflags, rfl⟩
    exact ⟨⟨x, hx, rfl⟩, hflags⟩

theorem ridingOccurrences_flags (t : Transport) (endpointId : Int64) :
    (ridingOccurrences t.currentExtras endpointId).filter (·.2.isFlags) =
      t.ridingFlags endpointId := by
  unfold ridingOccurrences ridingFlags pendingFlags
  rw [List.filter_map, List.filter_map, List.filter_map, List.map_map, List.filter_filter,
    List.filter_filter]
  congr 1
  apply List.filter_congr
  intro x _
  exact Bool.and_comm ..

end Transport

theorem rememberLegacySeqs_forget (endpointId : Int64) (seq : UInt32) (peerVersion : Int)
    (legacySeq : UInt32) (xs : List UnacknowledgedExtraData) :
    (rememberLegacySeqs endpointId seq peerVersion legacySeq xs).map (·.forget) =
      xs.map (·.forget) := by
  induction xs generalizing legacySeq with
  | nil => rfl
  | cons x xs ih =>
      rw [rememberLegacySeqs]
      split
      · split
        · rw [List.map_cons, List.map_cons, ih, UnacknowledgedExtraData.forget_remember]
        · rw [List.map_cons, List.map_cons, ih, UnacknowledgedExtraData.forget_remember]
      · rw [List.map_cons, List.map_cons, ih]

theorem rememberSeq_forget (endpointId : Int64) (seq : UInt32) (xs : List UnacknowledgedExtraData) :
    (rememberSeq endpointId seq xs).map (·.forget) = xs.map (·.forget) := by
  unfold rememberSeq
  rw [List.map_map]
  apply List.map_congr_left
  intro x _
  show (if x.rides endpointId then x.remember seq else x).forget = x.forget
  split
  · exact x.forget_remember seq
  · rfl

namespace Controller

variable {env : Platform} {c c' c'' c₁ : Controller} {now : Time} {src : Int64} {p : Packet}

/-! ## What sending leaves in place -/

/-- The pending flags stay, and every packet prepared takes along those that ride. -/
structure KeepsFlags (c c' : Controller) : Prop where
  pending : c'.pendingFlags = c.pendingFlags
  issued : c.issuedExtras ≤ c'.issuedExtras
  prepared : ∃ new, c'.preparedOccurrences = c.preparedOccurrences ++ new ∧
    ∀ xs ∈ new, ∃ endpointId, xs.filter (·.2.isFlags) = c.ridingFlags endpointId

namespace KeepsFlags

theorem same (hextras : c'.currentExtras = c.currentExtras)
    (hissued : c'.issuedExtras = c.issuedExtras)
    (hprepared : c'.preparedOccurrences = c.preparedOccurrences) : KeepsFlags c c' where
  pending := by rw [Transport.pendingFlags, hextras, Transport.pendingFlags]
  issued := Nat.le_of_eq hissued.symm
  prepared := ⟨[], by rw [hprepared, List.append_nil], fun _ h => absurd h List.not_mem_nil⟩

theorem of_transport (h : c'.toTransport = c.toTransport) : KeepsFlags c c' :=
  same (congrArg Transport.currentExtras h) (congrArg Transport.issuedExtras h)
    (congrArg Transport.preparedOccurrences h)

theorem refl (c : Controller) : KeepsFlags c c := of_transport rfl

theorem ridingFlags (h : KeepsFlags c c') (endpointId : Int64) :
    c'.ridingFlags endpointId = c.ridingFlags endpointId := by
  rw [Transport.ridingFlags, h.pending, Transport.ridingFlags]

theorem trans (h : KeepsFlags c c') (h' : KeepsFlags c' c'') : KeepsFlags c c'' where
  pending := h'.pending.trans h.pending
  issued := Nat.le_trans h.issued h'.issued
  prepared := by
    obtain ⟨new, hnew, hrides⟩ := h.prepared
    obtain ⟨new', hnew', hrides'⟩ := h'.prepared
    refine ⟨new ++ new', by rw [hnew', hnew, List.append_assoc], ?_⟩
    intro xs hxs
    rcases List.mem_append.mp hxs with hxs | hxs
    · exact hrides xs hxs
    · obtain ⟨endpointId, heq⟩ := hrides' xs hxs
      exact ⟨endpointId, heq.trans (h.ridingFlags endpointId)⟩

end KeepsFlags

theorem preparedFlags {endpointId : Int64}
    (hextras : c'.currentExtras.map (·.forget) = c.currentExtras.map (·.forget))
    (hissued : c'.issuedExtras = c.issuedExtras)
    (hprepared : c'.preparedOccurrences =
      c.preparedOccurrences ++ [ridingOccurrences c.currentExtras endpointId]) :
    KeepsFlags c c' where
  pending := by rw [Transport.pendingFlags, hextras, Transport.pendingFlags]
  issued := Nat.le_of_eq hissued.symm
  prepared := by
    refine ⟨_, hprepared, ?_⟩
    intro ys hys
    rw [List.mem_singleton.mp hys]
    exact ⟨endpointId, c.ridingOccurrences_flags endpointId⟩

theorem keepsFlags_rule : SendRule KeepsFlags where
  refl := .refl
  trans := .trans
  connect := fun {c key e} _ => .of_transport (c.connectIfNeeded_toTransport key e)
  transmit := by
    intro c c' now pkt e h
    obtain ⟨s, pm, -, -, -, rfl⟩ := transmit_ok h
    exact .same rfl rfl rfl
  enqueue := fun _ _ => .same rfl rfl rfl
  reliably := by
    intro c pkt retryInterval timeout tries
    unfold sendPacketReliably
    dsimp only
    split
    · exact .same rfl rfl rfl
    · exact .same rfl rfl rfl
  noteSealing := fun _ _ => .same rfl rfl rfl
  prepareNew := fun _ => preparedFlags (rememberSeq_forget ..) rfl rfl
  prepareLegacy := fun _ _ => preparedFlags (rememberLegacySeqs_forget ..) rfl rfl

/-! ## SendExtra -/

/-- An extra of another type does not touch the flags. -/
theorem sendExtra_keepsFlags {extra : WrappedExtra} (hother : extra.isFlags = false)
    (endpointId : Int64) : KeepsFlags c (c.sendExtra extra endpointId) := by
  have hprepared : ∀ {xs : List (List (ℕ × WrappedExtra))}, ∃ new, xs = xs ++ new ∧
      ∀ ys ∈ new, ∃ endpointId, ys.filter (·.2.isFlags) = c.ridingFlags endpointId :=
    ⟨[], (List.append_nil _).symm, fun _ h => absurd h List.not_mem_nil⟩
  unfold sendExtra
  split
  · rename_i i hi
    refine ⟨?_, Nat.le_succ _, hprepared⟩
    unfold Transport.pendingFlags
    rw [List.filter_map, List.filter_map]
    congr 1
    apply ListEntry.filter_modify_of_not
    intro a ha
    -- the entry replaced is of the type of the new one
    have hmatch := List.of_findIdx?_eq_some hi
    rw [ha] at hmatch
    have htype : a.data.d.getID = extra.d.getID :=
      beq_iff_eq.mp (Bool.and_eq_true_iff.mp hmatch).1
    refine ⟨?_, hother⟩
    show (a.data.d.getID == ExtraKind.streamFlags.id) = false
    rw [htype]
    exact hother
  · refine ⟨?_, Nat.le_succ _, hprepared⟩
    unfold Transport.pendingFlags
    rw [List.map_append, List.filter_append, List.map_singleton]
    have hnone : [UnacknowledgedExtraData.forget
        { data := extra, endpointId, occurrence := c.issuedExtras }].filter (·.data.isFlags) = [] :=
      List.filter_cons_of_neg (by simp [UnacknowledgedExtraData.forget, hother])
    rw [hnone, List.append_nil]

/-- What `SendStreamFlags` puts into the list. -/
def flagsEntry (c : Controller) (s : OutgoingStream) : PendingEntry :=
  { data := { d := .streamFlags s.streamFlags }, endpointId := 0, occurrence := c.issuedExtras }

/-- At most one entry, for endpoint 0. -/
structure OneEntry (c : Controller) : Prop where
  length : c.pendingFlags.length ≤ 1
  endpoint : ∀ x ∈ c.pendingFlags, x.endpointId = 0

theorem OneEntry.of_sublist (h : c.OneEntry) (hsub : c'.pendingFlags.Sublist c.pendingFlags) :
    c'.OneEntry :=
  ⟨hsub.length_le.trans h.length, fun x hx => h.endpoint x (hsub.subset hx)⟩

/-- **New flags take the place of those that were pending**, of whatever stream. -/
theorem sendStreamFlags_pendingFlags (h : c.OneEntry) (s : OutgoingStream) :
    (c.sendStreamFlags s).pendingFlags = [c.flagsEntry s] := by
  have hone := h.length
  unfold Transport.pendingFlags at hone
  rw [List.filter_map, List.length_map] at hone
  unfold sendStreamFlags sendExtra
  split
  · rename_i i hi
    unfold Transport.pendingFlags
    rw [List.filter_map]
    have hmatch := List.of_findIdx?_eq_some hi
    cases ha : c.currentExtras[i]? with
    | none =>
        rw [ha] at hmatch
        cases hmatch
    | some a =>
        rw [ha] at hmatch
        obtain ⟨htype, hendpoint⟩ := Bool.and_eq_true_iff.mp hmatch
        dsimp only
        rw [ListEntry.filter_modify_of_single ha htype rfl hone, List.map_singleton]
        unfold flagsEntry UnacknowledgedExtraData.forget
        rw [beq_iff_eq.mp hendpoint]
  · rename_i hnone
    -- an entry for the flags would have been found
    have hempty : c.pendingFlags = [] := by
      rw [List.eq_nil_iff_forall_not_mem]
      intro y hy
      obtain ⟨x, hx, hflags, rfl⟩ := Transport.mem_pendingFlags.mp hy
      have hmiss := List.findIdx?_eq_none_iff.mp hnone x hx
      have hendpoint : x.endpointId = 0 := h.endpoint x.forget hy
      rw [hendpoint, Bool.and_eq_false_iff] at hmiss
      rcases hmiss with hmiss | hmiss
      · exact Bool.noConfusion (hflags.symm.trans hmiss)
      · cases hmiss
    unfold Transport.pendingFlags at hempty ⊢
    rw [List.map_append, List.filter_append, hempty]
    rfl

theorem sendStreamFlags_issuedExtras (s : OutgoingStream) :
    (c.sendStreamFlags s).issuedExtras = c.issuedExtras + 1 := by
  unfold sendStreamFlags sendExtra
  split <;> rfl

theorem sendStreamFlags_preparedOccurrences (s : OutgoingStream) :
    (c.sendStreamFlags s).preparedOccurrences = c.preparedOccurrences := by
  unfold sendStreamFlags sendExtra
  split <;> rfl

theorem OneEntry.sendStreamFlags (h : c.OneEntry) (s : OutgoingStream) :
    (c.sendStreamFlags s).OneEntry := by
  have hpending := sendStreamFlags_pendingFlags h s
  refine ⟨by rw [hpending]; exact Nat.le_refl 1, ?_⟩
  intro x hx
  rw [hpending] at hx
  rw [List.mem_singleton.mp hx]
  rfl

/-! ## The handlers -/

theorem sendInit_keepsFlags (h : c.sendInit env now = .ok c') : KeepsFlags c c' :=
  keepsFlags_rule.sendInit (sendExtra_keepsFlags rfl 0) (fun _ => .same rfl rfl rfl)
    (fun _ _ => .same rfl rfl rfl) h

theorem answer_keepsFlags {reply : Extra} (hother : WrappedExtra.isFlags { d := reply } = false)
    (h : c.answer env now reply = .ok c') : KeepsFlags c c' :=
  keepsFlags_rule.answer (sendExtra_keepsFlags hother 0) h

theorem Prepared.keepsFlags {x : Extra} (h : Prepared env x c c₁) : KeepsFlags c c₁ := by
  rcases h.streams with h | ⟨d, -, -, -, h⟩
  · exact .of_transport h
  · have hextras := congrArg Transport.currentExtras h
    have hissued := congrArg Transport.issuedExtras h
    have hprepared := congrArg Transport.preparedOccurrences h
    exact .same hextras hissued hprepared

/-- Flags are not what an extra is answered with. -/
theorem reply_isFlags (c : Controller) (x : Extra) :
    WrappedExtra.isFlags { d := c.reply x } = false := by
  cases x <;> rfl

theorem dispatchExtra_keepsFlags {x : Extra} (h : c.dispatchExtra env now x src = .ok c') :
    KeepsFlags c c' := by
  rcases dispatchExtra_ok h with ⟨-, hquiet⟩ | ⟨-, c₁, c₂, h₁, h₂, h₃⟩
  · exact .of_transport hquiet.transport
  · exact (h₁.keepsFlags.trans (answer_keepsFlags (reply_isFlags c₁ x) h₂)).trans
      (.of_transport h₃.transport)

theorem processExtras_keepsFlags {xs : List WrappedExtra}
    (h : c.processExtras env now src xs = .ok c') : KeepsFlags c c' :=
  processExtras_rule (I := fun c₁ _ => KeepsFlags c c₁) (fun _ _ _ h => h.trans (.same rfl rfl rfl))
    (fun _ _ _ _ h hx => h.trans (dispatchExtra_keepsFlags hx)) (.refl c) h

theorem countUnacknowledged_keepsFlags (h : c.countUnacknowledged env now = .ok c') :
    KeepsFlags c c' :=
  keepsFlags_rule.countUnacknowledged (fun _ => .same rfl rfl rfl) h

/-! ## Steps -/

/-- What the acknowledgements `pm` has do to the pending extras. -/
structure ErasesExtras (pm : PacketManager) (c c' : Controller) : Prop where
  extras : c'.currentExtras = c.currentExtras.filter fun x => !x.wasAcked pm
  issued : c'.issuedExtras = c.issuedExtras
  prepared : c'.preparedOccurrences = c.preparedOccurrences

theorem ErasesExtras.sublist {pm : PacketManager} (h : ErasesExtras pm c c') :
    c'.pendingFlags.Sublist c.pendingFlags := by
  unfold Transport.pendingFlags
  rw [h.extras]
  exact (List.filter_sublist.map _).filter _

/-- Flags that are not erased stay pending. -/
theorem ErasesExtras.stays {pm : PacketManager} (h : ErasesExtras pm c c')
    {x : UnacknowledgedExtraData} (hx : x ∈ c.currentExtras) (hflags : x.data.isFlags = true)
    (hacked : x.wasAcked pm = false) : x.forget ∈ c'.pendingFlags := by
  rw [Transport.mem_pendingFlags]
  refine ⟨x, ?_, hflags, rfl⟩
  rw [h.extras]
  exact List.mem_filter.mpr ⟨hx, by rw [hacked]; rfl⟩

theorem AckStage.erasesExtras {pm : PacketManager} (h : AckStage now p pm c c') :
    c' = c ∨ ErasesExtras (acknowledged pm now p) c c' := by
  obtain ⟨-, rfl⟩ | ⟨-, c₀, htransport, -, rfl⟩ := h
  · exact .inl rfl
  · have hextras : c₀.currentExtras = c.currentExtras := congrArg Transport.currentExtras htransport
    have hissued : c₀.issuedExtras = c.issuedExtras := congrArg Transport.issuedExtras htransport
    have hprepared : c₀.preparedOccurrences = c.preparedOccurrences :=
      congrArg Transport.preparedOccurrences htransport
    refine .inr ⟨?_, hissued, hprepared⟩
    show c₀.currentExtras.filter _ = _
    rw [hextras]

/-- **What a packet does to the pending flags**: sending leaves them in place, and
the one call of `HandleReliablePackets` may erase them. -/
theorem processIncomingPacket_flags (h : c.processIncomingPacket env now p src = .ok c') :
    KeepsFlags c c' ∨ ∃ c₁ c₂ pm, ackCall env c now p src = some (c₁, pm) ∧
      KeepsFlags c c₁ ∧ ErasesExtras pm c₁ c₂ ∧ KeepsFlags c₂ c' := by
  obtain ⟨s, hs, ⟨-, rfl⟩ | ⟨haccepts, h⟩⟩ := processIncomingPacket_ok h
  · exact .inl (.refl c')
  · obtain ⟨c₁, c₂, c₃, c₄, t, hstages⟩ := processFreshPacket_ok h
    have harrived : KeepsFlags c (c.arrived s p) := .same rfl rfl rfl
    have hextras := harrived.trans (processExtras_keepsFlags hstages.extras)
    have hrest : KeepsFlags c₂ c' :=
      (KeepsFlags.of_transport hstages.endpoint.1).trans
        ((countUnacknowledged_keepsFlags hstages.counts).trans
          (.of_transport hstages.notes.transport))
    rcases hstages.acks.erasesExtras with rfl | herases
    · exact .inl (hextras.trans hrest)
    · obtain ⟨-, rfl⟩ | ⟨pm, hcall, -, herased⟩ := hstages.erases hs haccepts
      · exact .inl (hextras.trans hrest)
      · exact .inr ⟨c₁, c₂, pm, hcall, hextras, ⟨herased, herases.issued, herases.prepared⟩, hrest⟩

end Controller

/-- The event is a call of `SendExtra` with stream flags; the source makes it in
`SendStreamFlags` only. -/
def Event.issuesFlags : Event → Bool
  | .sendExtra x _ => WrappedExtra.isFlags { d := x }
  | _ => false

namespace Controller

variable {env : Platform} {c c' c'' c₁ : Controller} {now : Time} {src : Int64} {p : Packet}

/-- What a step does to the pending flags. -/
theorem step_flags {e : Time × Event} (hown : e.2.issuesFlags = false)
    (h : c.step env e = .ok c') :
    KeepsFlags c c' ∨ ∃ p src c₁ c₂ pm, e.2 = .packet p src ∧
      ackCall env c e.1 p src = some (c₁, pm) ∧
      KeepsFlags c c₁ ∧ ErasesExtras pm c₁ c₂ ∧ KeepsFlags c₂ c' := by
  obtain ⟨now, e⟩ := e
  cases e with
  | packet p src =>
      rcases processIncomingPacket_flags h with h | ⟨c₁, c₂, pm, h⟩
      · exact .inl h
      · exact .inr ⟨p, src, c₁, c₂, pm, rfl, h⟩
  | sendPacket pkt retryInterval timeout tries => exact .inl (keepsFlags_rule.sendPacket h)
  | sendNopPacket endpointId => exact .inl (keepsFlags_rule.sendPacket h)
  | sendExtra x endpointId => exact .inl (pure_eq_ok.mp h ▸ sendExtra_keepsFlags hown endpointId)
  | sendInit => exact .inl (sendInit_keepsFlags h)
  | updateReliablePackets =>
      exact .inl (keepsFlags_rule.updateReliablePackets (fun _ _ => .same rfl rfl rfl) h)
  | trySendOutgoingPackets => exact .inl (keepsFlags_rule.trySendOutgoingPackets h)
  | udpSocket ready => exact .inl (pure_eq_ok.mp h ▸ .same rfl rfl rfl)
  | tcpSocket key ready => exact .inl (pure_eq_ok.mp h ▸ .same rfl rfl rfl)

/-- The same from outside: flags go, but none come, and the packets prepared take
along those that were pending before or are pending still. -/
structure FlagsStep (c c' : Controller) : Prop where
  pending : c'.pendingFlags.Sublist c.pendingFlags
  issued : c.issuedExtras ≤ c'.issuedExtras
  prepared : ∃ new, c'.preparedOccurrences = c.preparedOccurrences ++ new ∧
    ∀ xs ∈ new, ∃ endpointId, xs.filter (·.2.isFlags) = c.ridingFlags endpointId ∨
      xs.filter (·.2.isFlags) = c'.ridingFlags endpointId

theorem KeepsFlags.flagsStep (h : KeepsFlags c c') : FlagsStep c c' where
  pending := by
    rw [h.pending]
  issued := h.issued
  prepared := by
    obtain ⟨new, hnew, hrides⟩ := h.prepared
    refine ⟨new, hnew, ?_⟩
    intro xs hxs
    obtain ⟨endpointId, heq⟩ := hrides xs hxs
    exact ⟨endpointId, .inl heq⟩

theorem step_flagsStep {e : Time × Event} (hown : e.2.issuesFlags = false)
    (h : c.step env e = .ok c') : FlagsStep c c' := by
  rcases step_flags hown h with h | ⟨p, src, c₁, c₂, pm, -, -, h₁, herases, h₂⟩
  · exact h.flagsStep
  · refine ⟨?_, ?_, ?_⟩
    · rw [h₂.pending, ← h₁.pending]
      exact herases.sublist
    · have hissued := h₂.issued
      rw [herases.issued] at hissued
      exact Nat.le_trans h₁.issued hissued
    · obtain ⟨new₁, hnew₁, hrides₁⟩ := h₁.prepared
      obtain ⟨new₂, hnew₂, hrides₂⟩ := h₂.prepared
      refine ⟨new₁ ++ new₂, ?_, ?_⟩
      · rw [hnew₂, herases.prepared, hnew₁, List.append_assoc]
      · intro xs hxs
        rcases List.mem_append.mp hxs with hxs | hxs
        · obtain ⟨endpointId, heq⟩ := hrides₁ xs hxs
          exact ⟨endpointId, .inl heq⟩
        · obtain ⟨endpointId, heq⟩ := hrides₂ xs hxs
          exact ⟨endpointId, .inr (heq.trans (h₂.ridingFlags endpointId).symm)⟩

end Controller

end Tgvoip
