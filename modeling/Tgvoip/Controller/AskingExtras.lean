import Tgvoip.Controller.PendingFlags
import Tgvoip.Controller.HandlerRule
import Tgvoip.Controller.AckProgress

/-!
# AskingExtras — the extras that are answered

An init and a ping are answered by a NOP, and a NOP takes along every
extra that is pending, an init or a ping of its own among them. While
packets are only received no such extra becomes pending: the replies are
of other types (`Nops`). `SendExtra` keeps one pending extra of a type for
an endpoint, and `SendInit` is the only one to issue an init, for all
endpoints; so at most one init is pending (`OnePending`).
-/

namespace Tgvoip

open ByteReader Fallible

namespace Extra

/-- The extra may be answered. -/
def asks : Extra → Bool
  | .init _ => true
  | .ping => true
  | _ => false

/-- The types of these extras. -/
def askingTypes : List UInt8 := [ExtraKind.init.id, ExtraKind.ping.id]

theorem asks_iff_mem (x : Extra) : x.asks = true ↔ x.getID ∈ askingTypes := by
  cases x <;> simp [asks, getID, kind, ExtraKind.id, askingTypes]

end Extra

namespace Transport

/-- The pending extras that may be answered, with their endpoints. -/
def asking (t : Transport) : List (Extra × Int64) :=
  (t.currentExtras.map fun x => (x.data.d, x.endpointId)).filter (·.1.asks)

theorem mem_asking {t : Transport} {a : Extra × Int64} :
    a ∈ t.asking ↔ ∃ x ∈ t.currentExtras, x.data.d.asks = true ∧ (x.data.d, x.endpointId) = a := by
  unfold asking
  rw [List.mem_filter, List.mem_map]
  constructor
  · rintro ⟨⟨x, hx, rfl⟩, hasks⟩
    exact ⟨x, hx, hasks, rfl⟩
  · rintro ⟨x, hx, hasks, rfl⟩
    exact ⟨⟨x, hx, rfl⟩, hasks⟩

/-- What `SendExtra` looks an entry up by. -/
def extraKeys (t : Transport) : List (UInt8 × Int64) :=
  t.currentExtras.map fun x => (x.data.d.getID, x.endpointId)

/-- Which seqs an extra remembers does not matter. -/
theorem map_eq_of_forget {α : Type} (f : WrappedExtra → Int64 → α)
    {xs ys : List UnacknowledgedExtraData} (h : xs.map (·.forget) = ys.map (·.forget)) :
    (xs.map fun x => f x.data x.endpointId) = ys.map fun x => f x.data x.endpointId := by
  have hmap := congrArg (List.map fun y => f y.data y.endpointId) h
  rw [List.map_map, List.map_map] at hmap
  exact hmap

theorem asking_of_forget {t t' : Transport}
    (h : t'.currentExtras.map (·.forget) = t.currentExtras.map (·.forget)) :
    t'.asking = t.asking :=
  congrArg (List.filter _) (map_eq_of_forget (fun x endpointId => (x.d, endpointId)) h)

theorem extraKeys_of_forget {t t' : Transport}
    (h : t'.currentExtras.map (·.forget) = t.currentExtras.map (·.forget)) :
    t'.extraKeys = t.extraKeys :=
  map_eq_of_forget (fun x endpointId => (x.d.getID, endpointId)) h

end Transport

namespace Controller

variable {env : Platform} {c c' c'' c₁ : Controller} {now : Time} {src : Int64} {p : Packet}

/-! ## Sending -/

theorem asking_rule : SendRule fun c c' => c'.asking = c.asking where
  refl := fun _ => rfl
  trans := fun h h' => h'.trans h
  connect := fun {c key e} _ => by rw [c.connectIfNeeded_toTransport key e]
  transmit := by
    intro c c' now pkt e h
    obtain ⟨s, pm, -, -, -, rfl⟩ := transmit_ok h
    rfl
  enqueue := fun _ _ => rfl
  reliably := by
    intro c pkt retryInterval timeout tries
    unfold sendPacketReliably
    dsimp only
    split
    · rfl
    · rfl
  noteSealing := fun _ _ => rfl
  prepareNew := fun _ => Transport.asking_of_forget (rememberSeq_forget ..)
  prepareLegacy := fun _ _ => Transport.asking_of_forget (rememberLegacySeqs_forget ..)

/-- What `SendExtra` adds to what asks. -/
theorem sendExtra_asking {extra : WrappedExtra} {endpointId : Int64} {a : Extra × Int64}
    (ha : a ∈ (c.sendExtra extra endpointId).asking) :
    a ∈ c.asking ∨ (a = (extra.d, endpointId) ∧ extra.d.asks = true) := by
  obtain ⟨x, hx, hasks, rfl⟩ := Transport.mem_asking.mp ha
  unfold sendExtra at hx
  split at hx
  · rename_i i hi
    have hmatch := List.of_findIdx?_eq_some hi
    rw [List.mem_iff_getElem?] at hx
    obtain ⟨j, hj⟩ := hx
    cases hy : c.currentExtras[i]? with
    | none =>
        rw [hy] at hmatch
        cases hmatch
    | some y =>
        rw [hy] at hmatch
        have hendpoint : y.endpointId = endpointId :=
          beq_iff_eq.mp (Bool.and_eq_true_iff.mp hmatch).2
        dsimp only at hj
        rw [ListEntry.getElem?_modify hy] at hj
        split at hj
        · cases hj
          exact .inr ⟨by rw [hendpoint], hasks⟩
        · exact .inl (Transport.mem_asking.mpr ⟨x, List.mem_of_getElem? hj, hasks, rfl⟩)
  · rcases List.mem_append.mp hx with hx | hx
    · exact .inl (Transport.mem_asking.mpr ⟨x, hx, hasks, rfl⟩)
    · rw [List.mem_singleton.mp hx] at hasks ⊢
      exact .inr ⟨rfl, hasks⟩

/-- A reply does not ask. -/
theorem reply_asks (c : Controller) (x : Extra) : (c.reply x).asks = false := by
  cases x <;> rfl

theorem sendExtra_reply_asking (x : Extra) :
    (c.sendExtra { d := c₁.reply x } 0).asking ⊆ c.asking := by
  intro a ha
  rcases sendExtra_asking ha with ha | ⟨-, hasks⟩
  · exact ha
  · rw [show ({ d := c₁.reply x } : WrappedExtra).d.asks = false from c₁.reply_asks x] at hasks
    cases hasks

/-! ## NOPs -/

/-- A NOP: no data, and of the extras that may be answered only pending ones. -/
structure IsNop (c : Controller) (raw : RawPendingOutgoingPacket) : Prop where
  data : raw.pkt.carried.data = none
  asking : ∀ x ∈ raw.pkt.carried.extraSignaling, x.d.asks = true → x.d ∈ c.asking.map Prod.fst

/-- A NOP goes out, and takes back the counter, or none does. -/
def NopOrNone (c c' : Controller) : Prop :=
  (c'.rawSendQueue = c.rawSendQueue ∧
      c'.unacknowledgedIncomingPacketCount = c.unacknowledgedIncomingPacketCount) ∨
    ∃ raw, c.IsNop raw ∧ c'.rawSendQueue = c.rawSendQueue ++ [raw] ∧
      c'.unacknowledgedIncomingPacketCount = 0

theorem mem_ridingExtras_asking {endpointId : Int64} {x : WrappedExtra}
    (hx : x ∈ ridingExtras c.currentExtras endpointId) (hasks : x.d.asks = true) :
    x.d ∈ c.asking.map Prod.fst := by
  obtain ⟨y, hy, rfl⟩ := List.mem_map.mp hx
  exact List.mem_map.mpr ⟨(y.data.d, y.endpointId),
    Transport.mem_asking.mpr ⟨y, (List.mem_filter.mp hy).1, hasks, rfl⟩, rfl⟩

theorem sendNopPacket_nop {endpointId : Int64} (hnew : c.ver.isNew = true)
    (h : c.sendNopPacket env now endpointId = .ok c') :
    c'.asking = c.asking ∧ NopOrNone c c' := by
  refine ⟨asking_rule.sendPacket h, ?_⟩
  unfold sendNopPacket sendPacket at h
  obtain ⟨endpoint, -, h⟩ := bind_eq_ok.mp h
  obtain ⟨stream, -, h⟩ := bind_eq_ok.mp h
  rw [if_pos hnew] at h
  obtain ⟨e, -, ⟨-, -, hsent⟩ | ⟨-, rfl | rfl⟩⟩ := sendOrEnqueuePacket_ok h
  · obtain ⟨s, pm, -, -, -, rfl⟩ := transmit_ok hsent
    rw [NopOrNone, connectIfNeeded_toTransport]
    exact .inr ⟨_, ⟨rfl, fun x hx => mem_ridingExtras_asking hx⟩, rfl, rfl⟩
  · rw [NopOrNone, connectIfNeeded_toTransport]
    exact .inl ⟨rfl, rfl⟩
  · rw [NopOrNone, connectIfNeeded_toTransport]
    exact .inl ⟨rfl, rfl⟩

/-- At most `n` NOPs go out, and no extra that may be answered becomes pending. -/
structure Nops (n : ℕ) (c c' : Controller) : Prop where
  asking : c'.asking ⊆ c.asking
  sent : ∃ sent, c'.rawSendQueue = c.rawSendQueue ++ sent ∧ sent.length ≤ n ∧
    ∀ raw ∈ sent, c.IsNop raw
  count : c'.unacknowledgedIncomingPacketCount = c.unacknowledgedIncomingPacketCount ∨
    c'.unacknowledgedIncomingPacketCount = 0

theorem IsNop.mono {raw : RawPendingOutgoingPacket} (h : c'.IsNop raw)
    (hasking : c'.asking ⊆ c.asking) : c.IsNop raw where
  data := h.data
  asking := fun x hx hasks => List.map_subset _ hasking (h.asking x hx hasks)

namespace Nops

variable {m n : ℕ}

theorem of_counts (hasking : c'.asking ⊆ c.asking) (hraw : c'.rawSendQueue = c.rawSendQueue)
    (hcount : c'.unacknowledgedIncomingPacketCount = c.unacknowledgedIncomingPacketCount) :
    Nops 0 c c' where
  asking := hasking
  sent := ⟨[], by rw [hraw, List.append_nil], Nat.le_refl 0, fun _ h => absurd h List.not_mem_nil⟩
  count := .inl hcount

theorem of_transport (h : c'.toTransport = c.toTransport) : Nops 0 c c' :=
  of_counts (by rw [h]; exact List.Subset.refl _) (by rw [h]) (by rw [h])

theorem of_nopOrNone (hasking : c'.asking = c.asking) (h : NopOrNone c c') : Nops 1 c c' where
  asking := by rw [hasking]; exact List.Subset.refl _
  sent := by
    rcases h with ⟨hraw, -⟩ | ⟨raw, hnop, hraw, -⟩
    · exact ⟨[], by rw [hraw, List.append_nil], Nat.zero_le 1, fun _ h => absurd h List.not_mem_nil⟩
    · exact ⟨[raw], hraw, Nat.le_refl 1, fun r hr => List.mem_singleton.mp hr ▸ hnop⟩
  count := by
    rcases h with ⟨-, hcount⟩ | ⟨raw, -, -, hcount⟩
    · exact .inl hcount
    · exact .inr hcount

theorem trans (h : Nops m c c') (h' : Nops n c' c'') : Nops (m + n) c c'' where
  asking := List.Subset.trans h'.asking h.asking
  sent := by
    obtain ⟨sent, hsent, hlength, hnops⟩ := h.sent
    obtain ⟨sent', hsent', hlength', hnops'⟩ := h'.sent
    refine ⟨sent ++ sent', by rw [hsent', hsent, List.append_assoc], ?_, ?_⟩
    · rw [List.length_append]
      exact Nat.add_le_add hlength hlength'
    · intro raw hraw
      rcases List.mem_append.mp hraw with hraw | hraw
      · exact hnops raw hraw
      · exact (hnops' raw hraw).mono h.asking
  count := by
    rcases h'.count with hcount | hcount
    · rw [hcount]
      exact h.count
    · exact .inr hcount

end Nops

/-! ## The extras of a packet -/

/-- An extra that is answered is an init or a ping. -/
theorem asks_of_answers {x : Extra} (h : c.answers src x = true) : x.asks = true := by
  cases x with
  | init d => rfl
  | ping => rfl
  | _ => cases h

theorem Prepared.asking {x : Extra} (h : Prepared env x c c₁) : c₁.asking = c.asking := by
  rcases h.streams with h | ⟨d, -, -, -, h⟩
  · rw [h]
  · have hextras := congrArg Transport.currentExtras h
    exact Transport.asking_of_forget (by rw [hextras])

/-- **One NOP for an extra that may be answered**, and none for any other. -/
theorem dispatchExtra_nops {x : Extra} {rest : List Extra} (hnew : StaysNew c.ver (x :: rest))
    (h : c.dispatchExtra env now x src = .ok c') : Nops (if x.asks then 1 else 0) c c' := by
  rcases dispatchExtra_ok h with ⟨-, hquiet⟩ | ⟨hans, c₁, c₂, h₁, h₂, h₃⟩
  · have hnone : Nops 0 c c' := .of_transport hquiet.transport
    split
    · exact hnone.trans (.of_nopOrNone rfl (.inl ⟨rfl, rfl⟩))
    · exact hnone
  · have hprepared : Nops 0 c c₁ := by
      refine .of_counts (by rw [h₁.asking]; exact List.Subset.refl _) h₁.rawSendQueue ?_
      rcases h₁.streams with htransport | ⟨d, -, -, -, htransport⟩
      · rw [htransport]
      · rw [htransport]
    have hframe : SendFrame c₁ (c₁.sendExtra { d := c₁.reply x } 0) := sendExtra_frame ..
    have hextra : Nops 0 c₁ (c₁.sendExtra { d := c₁.reply x } 0) := by
      refine .of_counts (sendExtra_reply_asking x) ?_ ?_
      · unfold sendExtra
        split <;> rfl
      · unfold sendExtra
        split <;> rfl
    obtain ⟨hasking, hnop⟩ := sendNopPacket_nop (hframe.ver ▸ (hnew.cons h₁.ver).isNew) h₂
    have hall := ((hprepared.trans hextra).trans (.of_nopOrNone hasking hnop)).trans
      (.of_transport h₃.transport)
    rw [if_pos (asks_of_answers hans)]
    exact hall

/-- The extras of a packet that pass the duplicate check and may be answered. -/
def passes (env : Platform) (c : Controller) (xs : List WrappedExtra) : ℕ :=
  (c.freshExtras env xs).countP (·.asks)

theorem processExtras_nops {xs : List WrappedExtra}
    (hnew : StaysNew c.ver (c.freshExtras env xs))
    (h : c.processExtras env now src xs = .ok c') :
    Nops (c.passes env xs) c c' ∧ c'.ver.isNew = true := by
  -- the NOPs so far, and one for each of the extras to come that may be answered
  have hend : StaysNew c'.ver [] ∧ ∃ n, Nops n c c' ∧
      n + ([] : List Extra).countP (·.asks) ≤ c.passes env xs := by
    refine processExtras_rule (I := fun c₁ rest => StaysNew c₁.ver rest ∧ ∃ n, Nops n c c₁ ∧
      n + rest.countP (·.asks) ≤ c.passes env xs) ?_ ?_ ⟨hnew, 0, .of_transport rfl, ?_⟩ h
    · intro c₁ x rest hc₁
      obtain ⟨hnew₁, n, hnops, hle⟩ := hc₁
      exact ⟨hnew₁, n, hnops.trans (n := 0) (.of_transport rfl), hle⟩
    · intro c₁ x rest c₂ hc₁ hx
      obtain ⟨hnew₁, n, hnops, hle⟩ := hc₁
      have hone := dispatchExtra_nops hnew₁ hx
      refine ⟨hnew₁.cons (dispatchExtra_frame hx).ver, _, hnops.trans hone, ?_⟩
      rw [List.countP_cons] at hle
      omega
    · exact Nat.le_of_eq (Nat.zero_add _)
  obtain ⟨hnew', n, hnops, hle⟩ := hend
  rw [List.countP_nil] at hle
  refine ⟨{ hnops with sent := ?_ }, hnew'.isNew⟩
  obtain ⟨sent, hsent, hlength, hall⟩ := hnops.sent
  exact ⟨sent, hsent, Nat.le_trans hlength hle, hall⟩

/-! ## The whole packet -/

/-- The controller when the extras of a packet are handled. -/
def afterExtras (env : Platform) (c : Controller) (now : Time) (p : Packet) (src : Int64) :
    Except Fault Controller := do
  let stream ← c.outgoingStream p.managerIndex.toNat
  if c.accepts p then (c.arrived stream p).processExtras env now src p.extraSignaling else pure c

/-- The packet is counted: a NOP goes out for the count, or none does. -/
structure Counted (c c' : Controller) : Prop where
  asking : c'.asking ⊆ c.asking
  outcome : (c'.rawSendQueue = c.rawSendQueue ∧
      c'.unacknowledgedIncomingPacketCount = c.unacknowledgedIncomingPacketCount + 1) ∨
    (c.unacknowledgedIncomingPacketCount > c.config.unackNopThreshold ∧
      ∃ raw, c.IsNop raw ∧ c'.rawSendQueue = c.rawSendQueue ++ [raw] ∧
        c'.unacknowledgedIncomingPacketCount = 0)

theorem countUnacknowledged_counted (hnew : c.ver.isNew = true)
    (h : c.countUnacknowledged env now = .ok c') : Counted c c' := by
  let c₁ : Controller :=
    { c with unacknowledgedIncomingPacketCount := c.unacknowledgedIncomingPacketCount + 1 }
  have hasking₁ : c₁.asking ⊆ c.asking := List.Subset.refl _
  unfold countUnacknowledged at h
  dsimp only at h
  split at h
  · rename_i hover
    obtain ⟨hasking, hnop⟩ := sendNopPacket_nop (c := c₁) hnew h
    refine ⟨by rw [hasking]; exact hasking₁, ?_⟩
    rcases hnop with ⟨hraw, hcount⟩ | ⟨raw, hnop, hraw, hcount⟩
    · exact .inl ⟨hraw, hcount⟩
    · exact .inr ⟨hover, raw, hnop.mono hasking₁, hraw, hcount⟩
  · rw [← pure_eq_ok.mp h]
    exact ⟨hasking₁, .inl ⟨rfl, rfl⟩⟩

/-- What happens before and behind the count sends nothing. -/
theorem Counted.congr (h : Counted c c') (hbefore : Nops 0 c₁ c)
    (hconfig : c.config = c₁.config)
    (hcount : c.unacknowledgedIncomingPacketCount = c₁.unacknowledgedIncomingPacketCount)
    (hbehind : c''.toTransport = c'.toTransport) : Counted c₁ c'' where
  asking := by
    have hasking := List.Subset.trans h.asking hbefore.asking
    intro a ha
    rw [hbehind] at ha
    exact hasking ha
  outcome := by
    obtain ⟨sent, hsent, hlength, -⟩ := hbefore.sent
    rw [List.eq_nil_of_length_eq_zero (Nat.le_zero.mp hlength), List.append_nil] at hsent
    rw [hbehind, ← hcount, ← hconfig, ← hsent]
    refine h.outcome.imp_right ?_
    rintro ⟨hover, raw, hnop, hraw, hreset⟩
    exact ⟨hover, raw, hnop.mono hbefore.asking, hraw, hreset⟩

theorem AckStage.nops {pm : PacketManager} (h : AckStage now p pm c c') :
    Nops 0 c c' ∧
      c'.unacknowledgedIncomingPacketCount = c.unacknowledgedIncomingPacketCount := by
  have hasking : c'.asking ⊆ c.asking := by
    intro a ha
    rcases h.erasesExtras with rfl | herases
    · exact ha
    · obtain ⟨x, hx, hasks, rfl⟩ := Transport.mem_asking.mp ha
      rw [herases.extras] at hx
      exact Transport.mem_asking.mpr ⟨x, (List.mem_filter.mp hx).1, hasks, rfl⟩
  obtain ⟨hraw, hcount⟩ := h.transport
  exact ⟨.of_counts hasking hraw hcount, hcount⟩

/-- **What a packet that passes the duplicate check is answered with**: a NOP
for each of its extras that passes the check of its own and may be answered,
and one for the count. -/
theorem processIncomingPacket_nops (hnew : StaysNew c.ver (c.freshExtras env p.extraSignaling))
    (h : c.processIncomingPacket env now p src = .ok c') :
    c'.ver.isNew = true ∧ ∃ c₁, c.afterExtras env now p src = .ok c₁ ∧
      ((c.accepts p = false ∧ c₁ = c ∧ c' = c) ∨ (c.accepts p = true ∧
        c'.lastReceivedExtrasByType = c₁.lastReceivedExtrasByType ∧ c₁.config = c.config ∧
          Nops (c.passes env p.extraSignaling) c c₁ ∧ Counted c₁ c')) := by
  obtain ⟨s, hs, ⟨hold, rfl⟩ | ⟨haccepts, hfresh⟩⟩ := processIncomingPacket_ok h
  · refine ⟨hnew.isNew, c', ?_, .inl ⟨hold, rfl, rfl⟩⟩
    unfold afterExtras
    rw [outgoingStream_eq_ok.mpr hs, hold]
    rfl
  · obtain ⟨c₁, c₂, c₃, c₄, t, hstages⟩ := processFreshPacket_ok hfresh
    have harrived : Nops 0 c (c.arrived s p) := .of_counts (List.Subset.refl _) rfl rfl
    have hpasses : (c.arrived s p).passes env p.extraSignaling = c.passes env p.extraSignaling := by
      unfold passes
      rw [freshExtras_arrived]
    rw [← freshExtras_arrived s] at hnew
    obtain ⟨hextras, hnew₁⟩ := processExtras_nops hnew hstages.extras
    obtain ⟨hacks, hcount⟩ := hstages.acks.nops
    have hbefore := hacks.trans (.of_transport hstages.endpoint.1)
    have hframe : Frame c₁ c₃ :=
      (hstages.acks.frame hstages.stream).toFrame.trans hstages.endpoint.2
    have hconfig : c₁.config = c.config :=
      congrArg Settings.config (processExtras_frame hstages.extras).settings
    refine ⟨hstages.frame.ver ▸ hnew₁, c₁, ?_,
      .inr ⟨haccepts, hstages.frame.lastReceived, hconfig, ?_, ?_⟩⟩
    · unfold afterExtras
      rw [outgoingStream_eq_ok.mpr hs, haccepts]
      exact hstages.extras
    · have hall := harrived.trans hextras
      rw [Nat.zero_add, hpasses] at hall
      exact hall
    · have hcounted := countUnacknowledged_counted (hframe.ver ▸ hnew₁) hstages.counts
      exact hcounted.congr hbefore (congrArg Settings.config hframe.settings)
        (by rw [hstages.endpoint.1, hcount]) hstages.notes.transport

/-! ## One pending extra of a type -/

/-- One extra of a type is pending for an endpoint, and an init for all of them. -/
structure OnePending (c : Controller) : Prop where
  keys : c.extraKeys.Nodup
  init : ∀ a ∈ c.asking, a.1.isInit = true → a.2 = 0

/-- The pending inits are one. -/
theorem OnePending.init_unique (h : c.OnePending) {a b : Extra × Int64} (ha : a ∈ c.asking)
    (hb : b ∈ c.asking) (hia : a.1.isInit = true) (hib : b.1.isInit = true) : a = b := by
  have hendpoint : a.2 = b.2 := (h.init a ha hia).trans (h.init b hb hib).symm
  obtain ⟨x, hx, -, rfl⟩ := Transport.mem_asking.mp ha
  obtain ⟨y, hy, -, rfl⟩ := Transport.mem_asking.mp hb
  have hid : ∀ {d : Extra}, d.isInit = true → d.getID = ExtraKind.init.id := by
    intro d hd
    cases d with
    | init d => rfl
    | _ => cases hd
  have hkey : (x.data.d.getID, x.endpointId) = (y.data.d.getID, y.endpointId) :=
    Prod.ext ((hid hia).trans (hid hib).symm) hendpoint
  rw [List.inj_on_of_nodup_map h.keys hx hy hkey]

/-- What is pending of a type that may be answered is one extra. -/
theorem OnePending.eq_of_getID (h : c.OnePending) {a b : Extra × Int64} (ha : a ∈ c.asking)
    (hb : b ∈ c.asking) (hid : a.1.getID = b.1.getID) : a.1 = b.1 := by
  obtain ⟨a, endpointId⟩ := a
  obtain ⟨b, endpointId'⟩ := b
  have hasks : a.asks = true := (List.mem_filter.mp ha).2
  cases a with
  | init d =>
      cases b with
      | init d' => exact congrArg Prod.fst (h.init_unique ha hb rfl rfl)
      | _ => cases hid
  | ping =>
      cases b with
      | ping => rfl
      | _ => cases hid
  | _ => cases hasks

theorem sendExtra_keys (h : c.extraKeys.Nodup) (x : WrappedExtra) (endpointId : Int64) :
    (c.sendExtra x endpointId).extraKeys.Nodup := by
  unfold sendExtra
  split
  · rename_i i hi
    have hmatch := List.of_findIdx?_eq_some hi
    unfold Transport.extraKeys
    dsimp only
    rw [ListEntry.map_modify]
    · exact h
    · intro a ha
      rw [ha] at hmatch
      exact Prod.ext (beq_iff_eq.mp (Bool.and_eq_true_iff.mp hmatch).1).symm rfl
  · rename_i hnone
    unfold Transport.extraKeys
    dsimp only
    rw [List.map_append, List.map_singleton, List.nodup_append]
    refine ⟨h, List.nodup_singleton _, ?_⟩
    intro a ha b hb heq
    obtain ⟨y, hy, rfl⟩ := List.mem_map.mp ha
    rw [List.mem_singleton.mp hb] at heq
    have hmiss := List.findIdx?_eq_none_iff.mp hnone y hy
    obtain ⟨htype, hendpoint⟩ := Prod.ext_iff.mp heq
    rw [show y.data.d.getID = x.d.getID from htype, show y.endpointId = endpointId from hendpoint]
      at hmiss
    simp at hmiss

theorem keys_handlers (env : Platform) :
    HandlerRule env fun c c' => c.extraKeys.Nodup → c'.extraKeys.Nodup where
  refl := fun _ h => h
  trans := fun h h' hc => h' (h hc)
  connect := fun {c key e} _ h => by rwa [c.connectIfNeeded_toTransport key e]
  transmit := by
    intro c c' now pkt e h hc
    obtain ⟨s, pm, -, -, -, rfl⟩ := transmit_ok h
    exact hc
  enqueue := fun _ _ h => h
  reliably := by
    intro c pkt retryInterval timeout tries hc
    unfold sendPacketReliably
    dsimp only
    split
    · exact hc
    · exact hc
  noteSealing := fun _ _ h => h
  prepareNew := fun _ hc => by
    rw [Transport.extraKeys_of_forget (rememberSeq_forget ..)]
    exact hc
  prepareLegacy := fun _ _ hc => by
    rw [Transport.extraKeys_of_forget (rememberLegacySeqs_forget ..)]
    exact hc
  aside := fun {c c'} h hc => by
    rwa [show c'.toTransport = c.toTransport from congrArg Core.transport h]
  extra := fun _ x endpointId hc => sendExtra_keys hc x endpointId
  count := fun _ _ h => h
  draw := fun _ h => h
  retry := fun _ _ _ h => h
  initSent := fun _ _ h => h
  fail := fun _ _ h => h
  ackInit := fun _ _ _ _ h => h
  audio := fun _ _ h => h
  post := fun _ _ _ _ h => h
  video := fun _ _ h => h
  csd := fun _ _ h => h

theorem step_keys {e : Time × Event} (hkeys : c.extraKeys.Nodup) (h : c.step env e = .ok c') :
    c'.extraKeys.Nodup := by
  refine (keys_handlers env).step ?_ ?_ (fun _ _ _ hc => hc) h hkeys
  · intro c d hc
    rwa [(processStreamFlags_quiet (x := .ping) d).transport]
  · intro c c' now p pm hasSender h hc
    obtain ⟨c₀, htransport, -, rfl⟩ := processAck_ok h
    rw [← htransport] at hc
    exact hc.sublist (List.filter_sublist.map _)

/-- While packets are received, no extra that may be answered becomes pending. -/
theorem dispatchExtra_asking {x : Extra} (h : c.dispatchExtra env now x src = .ok c') :
    c'.asking ⊆ c.asking := by
  rcases dispatchExtra_ok h with ⟨-, hquiet⟩ | ⟨-, c₁, c₂, h₁, h₂, h₃⟩
  · rw [hquiet.transport]
    exact List.Subset.refl _
  · have hnop : c₂.asking = (c₁.sendExtra { d := c₁.reply x } 0).asking := asking_rule.sendPacket h₂
    rw [h₃.transport, hnop, ← h₁.asking]
    exact sendExtra_reply_asking x

theorem processIncomingPacket_asking (h : c.processIncomingPacket env now p src = .ok c') :
    c'.asking ⊆ c.asking := by
  obtain ⟨s, hs, ⟨-, rfl⟩ | ⟨-, h⟩⟩ := processIncomingPacket_ok h
  · exact List.Subset.refl _
  · obtain ⟨c₁, c₂, c₃, c₄, t, hstages⟩ := processFreshPacket_ok h
    have harrived : (c.arrived s p).asking ⊆ c.asking := List.Subset.refl _
    have hextras : c₁.asking ⊆ c.asking :=
      processExtras_rule (I := fun c₁ _ => c₁.asking ⊆ c.asking) (fun _ _ _ h => h)
        (fun _ _ _ _ h hx => List.Subset.trans (dispatchExtra_asking hx) h) harrived hstages.extras
    have hcount : c₄.asking = c₃.asking :=
      asking_rule.countUnacknowledged (fun _ => rfl) hstages.counts
    rw [hstages.notes.transport, hcount, hstages.endpoint.1]
    exact List.Subset.trans hstages.acks.nops.1.asking hextras

end Controller

/-- The event is a call of `SendExtra` with an init; the source makes it in
`SendInit` only. -/
def Event.issuesInit : Event → Bool
  | .sendExtra x _ => x.isInit
  | _ => false

namespace Controller

variable {env : Platform} {c c' : Controller} {e : Time × Event}

/-- Every init that is pending is for all endpoints. -/
def InitsForAll (c : Controller) : Prop := ∀ a ∈ c.asking, a.1.isInit = true → a.2 = 0

theorem initsForAll_rule : SendRule fun c c' => c.InitsForAll → c'.InitsForAll :=
  asking_rule.imp (fun h hc => by rw [InitsForAll, h]; exact hc) (fun h h' hc => h' (h hc))

theorem sendExtra_initsForAll {x : Extra} {endpointId : Int64}
    (hx : x.isInit = true → endpointId = 0) (hc : c.InitsForAll) :
    (c.sendExtra { d := x } endpointId).InitsForAll := by
  intro a ha hinit
  rcases sendExtra_asking ha with ha | ⟨rfl, -⟩
  · exact hc a ha hinit
  · exact hx hinit

theorem step_initsForAll (hown : e.2.issuesInit = false) (hc : c.InitsForAll)
    (h : c.step env e = .ok c') : c'.InitsForAll := by
  obtain ⟨now, e⟩ := e
  cases e with
  | packet p src => exact fun a ha => hc a (processIncomingPacket_asking h ha)
  | sendPacket pkt retryInterval timeout tries => exact initsForAll_rule.sendPacket h hc
  | sendNopPacket endpointId => exact initsForAll_rule.sendPacket h hc
  | sendExtra x endpointId =>
      rw [← pure_eq_ok.mp h]
      exact sendExtra_initsForAll (fun hx => Bool.noConfusion (hown.symm.trans hx)) hc
  | sendInit =>
      exact initsForAll_rule.sendInit (sendExtra_initsForAll fun _ => rfl) (fun _ hc => hc)
        (fun _ _ hc => hc) h hc
  | updateReliablePackets => exact initsForAll_rule.updateReliablePackets (fun _ _ hc => hc) h hc
  | trySendOutgoingPackets => exact initsForAll_rule.trySendOutgoingPackets h hc
  | udpSocket ready => exact pure_eq_ok.mp h ▸ hc
  | tcpSocket key ready => exact pure_eq_ok.mp h ▸ hc

/-- **One extra of a type stays pending** in every run of the source's events. -/
theorem run_onePending {events : List (Time × Event)} (hc : c.OnePending)
    (hown : ∀ e ∈ events, e.2.issuesInit = false) (h : events.foldlM (step env) c = .ok c') :
    c'.OnePending :=
  foldlM_invariant (fun _ e he _ hc h =>
    ⟨step_keys hc.keys h, step_initsForAll (hown e he) hc.init h⟩) hc h

theorem onePending_new (env : Platform) (config : Config) (callID : Vector UInt8 16)
    (connectionMaxLayer : Int) :
    (Controller.new env config callID connectionMaxLayer).OnePending where
  keys := List.nodup_nil
  init := fun _ ha => absurd ha List.not_mem_nil

end Controller

end Tgvoip
