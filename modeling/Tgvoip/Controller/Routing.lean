import Tgvoip.Controller.PacketFrame
import Tgvoip.Controller.MessageThread
import Mathlib.Logic.Relation

/-!
# Routing — the table of endpoints, and the packets that wait for its entries

A packet that waits in one of the queues names its endpoint by an id, which
is looked up when the packet is sent. `Complete` says that no such lookup
fails. Every handler is a `Walk`: what it does to the table is made of a few
steps, none of which removes an entry, and where it starts from a complete
state it stays in one and dereferences no null pointer. The two handlers
that erase an endpoint are taken up to there.
-/

namespace Tgvoip

open ByteReader Fallible

/-- No round trip was measured at the endpoint, and no answer can be one. -/
structure Endpoint.Unmeasured (e : Endpoint) : Prop where
  seq : e.lastPingSeq = 0
  samples : e.samples = []

/-- What a handler does to the table at once. -/
inductive TableStep : Endpoints → Endpoints → Prop where
  | touch (m : Endpoints) {key : Int64} {e e' : Endpoint} (he : m.at? key = some e)
      (hid : e'.id = e.id) (hping : e.Unmeasured → e'.Unmeasured) : TableStep m (m.set key e')
  | sweep (m : Endpoints) (f : Int64 × Endpoint → Endpoint) (hid : ∀ x, (f x).id = x.2.id)
      (hping : ∀ x, x.2.Unmeasured → (f x).Unmeasured) : TableStep m (m.map fun x => (x.1, f x))
  | insert (m : Endpoints) (e : Endpoint) (hping : e.Unmeasured) : TableStep m (m.set e.id e)
  /-- An entry is written over by a copy of another one. -/
  | overwrite (m : Endpoints) {key src : Int64} {e : Endpoint} (hkey : m.Has key)
      (he : m.at? src = some e) : TableStep m (m.set key e)

/-- What several steps lead to. -/
def TableSteps : Endpoints → Endpoints → Prop := Relation.ReflTransGen TableStep

namespace TableSteps

variable {m m' m'' : Endpoints}

theorem refl (m : Endpoints) : TableSteps m m := Relation.ReflTransGen.refl

theorem single (h : TableStep m m') : TableSteps m m' := Relation.ReflTransGen.single h

theorem trans (h : TableSteps m m') (h' : TableSteps m' m'') : TableSteps m m'' :=
  Relation.ReflTransGen.trans h h'

/-- What every step keeps. -/
theorem invariant {I : Endpoints → Prop} (keep : ∀ m m', TableStep m m' → I m → I m')
    (h : TableSteps m m') (hm : I m) : I m' := by
  induction h with
  | refl => exact hm
  | tail _ hstep ih => exact keep _ _ hstep ih

theorem insertAll (m : Endpoints) {es : List Endpoint} (hes : ∀ e ∈ es, e.Unmeasured) :
    TableSteps m (m.insertAll es) := by
  induction es generalizing m with
  | nil => exact refl m
  | cons e es ih =>
      have hfirst : TableSteps m (m.set e.id e) :=
        .single (.insert m e (hes e List.mem_cons_self))
      exact hfirst.trans (ih _ fun e' he' => hes e' (List.mem_cons_of_mem e he'))

/-! ## What the steps keep -/

/-- **Entries are never removed.** -/
theorem has {key : Int64} (h : TableSteps m m') (hkey : m.Has key) : m'.Has key := by
  refine h.invariant (I := fun m : Endpoints => m.Has key) ?_ hkey
  intro m m' hstep hkey
  cases hstep with
  | touch he hid hping => exact (Endpoints.has_set ..).mpr (.inr hkey)
  | sweep f hid hping => exact (Endpoints.has_map ..).mpr hkey
  | insert e hping => exact (Endpoints.has_set ..).mpr (.inr hkey)
  | overwrite hkey' he => exact (Endpoints.has_set ..).mpr (.inr hkey)

theorem ordered (h : TableSteps m m') (hm : m.Ordered) : m'.Ordered := by
  refine h.invariant (I := Endpoints.Ordered) ?_ hm
  intro m m' hstep hm
  cases hstep with
  | sweep f hid hping => exact hm.map f
  | _ => exact hm.set _ _

/-- **Every id in the table stays one of its keys.** -/
theorem named (h : TableSteps m m') (hnamed : ∀ x ∈ m, m.Has x.2.id) :
    ∀ x ∈ m', m'.Has x.2.id := by
  refine h.invariant (I := fun m : Endpoints => ∀ x ∈ m, m.Has x.2.id) ?_ hnamed
  intro m m' hstep hnamed x hx
  have hkept : ∀ {key}, m.Has key → m'.Has key := (TableSteps.single hstep).has
  cases hstep with
  | touch he hid hping =>
      rcases Endpoints.mem_set hx with rfl | hx
      · have hold := hnamed _ (Endpoints.mem_of_at?_eq_some he)
        exact hkept (hid ▸ hold)
      · exact hkept (hnamed x hx)
  | sweep f hid hping =>
      obtain ⟨y, hy, rfl⟩ := List.mem_map.mp hx
      exact hkept (hid y ▸ hnamed y hy)
  | insert e hping =>
      rcases Endpoints.mem_set hx with rfl | hx
      · exact (Endpoints.has_set ..).mpr (.inl rfl)
      · exact hkept (hnamed x hx)
  | overwrite hkey he =>
      rcases Endpoints.mem_set hx with rfl | hx
      · have hold := hnamed _ (Endpoints.mem_of_at?_eq_some he)
        exact hkept hold
      · exact hkept (hnamed x hx)

/-- **Where nothing was measured, nothing is.** -/
theorem unmeasured (h : TableSteps m m') (hm : ∀ x ∈ m, x.2.Unmeasured) :
    ∀ x ∈ m', x.2.Unmeasured := by
  refine h.invariant (I := fun m : Endpoints => ∀ x ∈ m, x.2.Unmeasured) ?_ hm
  intro m m' hstep hm x hx
  cases hstep with
  | touch he hid hping =>
      rcases Endpoints.mem_set hx with rfl | hx
      · exact hping (hm _ (Endpoints.mem_of_at?_eq_some he))
      · exact hm x hx
  | sweep f hid hping =>
      obtain ⟨y, hy, rfl⟩ := List.mem_map.mp hx
      exact hping y (hm y hy)
  | insert e hping =>
      rcases Endpoints.mem_set hx with rfl | hx
      · exact hping
      · exact hm x hx
  | overwrite hkey he =>
      rcases Endpoints.mem_set hx with rfl | hx
      · have hold := hm _ (Endpoints.mem_of_at?_eq_some he)
        exact hold
      · exact hm x hx

end TableSteps

/-! ## Packets that wait -/

/-- The table, and the ids of the endpoints that packets wait for. -/
structure Routes where
  endpoints : Endpoints
  waiting : List Int64

namespace Routes

variable {A B : Prop} {r r' r'' : Routes}

/-- The id is zero, for the current endpoint, or a key of the table. -/
def Leads (r : Routes) (id : Int64) : Prop := id = 0 ∨ r.endpoints.Has id

/-- Whatever names an endpoint names a key of the table. -/
structure Complete (r : Routes) : Prop where
  named : ∀ x ∈ r.endpoints, r.endpoints.Has x.2.id
  waiting : ∀ id ∈ r.waiting, r.Leads id

theorem Complete.leads (h : r.Complete) {key : Int64} {e : Endpoint}
    (he : r.endpoints.at? key = some e) : r.Leads e.id :=
  .inr (h.named _ (Endpoints.mem_of_at?_eq_some he))

/-- The LAN endpoint is erased. -/
def dropLan (r : Routes) : Routes := { r with endpoints := r.endpoints.erase EndpointID.lanv4 }

/-- `r'` is reached from `r` by steps of the table; under `A` it is complete if
`r` is. -/
structure Reach (A : Prop) (r r' : Routes) : Prop where
  table : TableSteps r.endpoints r'.endpoints
  complete : A → r.Complete → r'.Complete

namespace Reach

theorem refl (r : Routes) : Reach A r r := ⟨.refl _, fun _ h => h⟩

theorem of_eq (h : r' = r) : Reach A r r' := by
  rw [h]
  exact refl r

theorem trans (h : Reach A r r') (h' : Reach A r' r'') : Reach A r r'' where
  table := h.table.trans h'.table
  complete := fun hA hr => h'.complete hA (h.complete hA hr)

theorem leads (h : Reach A r r') {id : Int64} (hid : r.Leads id) : r'.Leads id :=
  hid.imp_right h.table.has

theorem mono (h : Reach B r r') (hA : A → r.Complete → B) : Reach A r r' where
  table := h.table
  complete := fun ha hr => h.complete (hA ha hr) hr

/-- Only the table changes. -/
theorem of_table (h : TableSteps r.endpoints r'.endpoints) (hw : r'.waiting = r.waiting) :
    Reach A r r' where
  table := h
  complete := by
    intro _ hr
    refine ⟨h.named hr.named, ?_⟩
    intro id hid
    exact (hr.waiting id (hw ▸ hid)).imp_right h.has

/-- Only the packets change, and those that are new lead to an entry. -/
theorem of_waiting (h : r'.endpoints = r.endpoints)
    (hw : A → r.Complete → ∀ id ∈ r'.waiting, id ∈ r.waiting ∨ r.Leads id) : Reach A r r' where
  table := by
    rw [h]
    exact .refl _
  complete := by
    intro hA hr
    refine ⟨by rw [h]; exact hr.named, ?_⟩
    intro id hid
    unfold Leads
    rw [h]
    exact (hw hA hr id hid).elim (hr.waiting id) fun hled => hled

end Reach

end Routes

open Routes

/-- The result of `x` is reached from `r`; under `A`, no null pointer is
dereferenced on the way from a complete `r`. -/
def Walk {σ : Type} (A : Prop) (r : Routes) (view : σ → Routes) (x : Except Fault σ) : Prop :=
  Yields .nullEndpoint (A ∧ r.Complete) (fun s => Reach A r (view s)) x

namespace Walk

variable {σ τ α : Type} {A B : Prop} {r r' : Routes} {view : σ → Routes} {view' : τ → Routes}
  {x : Except Fault σ} {f : σ → Except Fault τ}

theorem pure {s : σ} (h : Reach A r (view s)) : Walk A r view (Pure.pure s) := Yields.pure h

theorem bind (hx : Walk A r view x) (hf : ∀ s, x = .ok s → Walk A (view s) view' (f s)) :
    Walk A r view' (x >>= f) := by
  refine Yields.bind hx fun s hs hreach => (hf s hs).mono ?_ ?_
  · exact fun ⟨hA, hr⟩ => ⟨hA, hreach.complete hA hr⟩
  · exact fun _ h => hreach.trans h

theorem after (h : Reach A r r') (hx : Walk A r' view x) : Walk A r view x :=
  Yields.mono hx (fun ⟨hA, hr⟩ => ⟨hA, h.complete hA hr⟩) fun _ h' => h.trans h'

theorem mono (h : Walk B r view x) (hA : A → r.Complete → B) : Walk A r view x :=
  Yields.mono h (fun ⟨ha, hr⟩ => ⟨hA ha hr, hr⟩) fun _ h' => h'.mono hA

/-- A lookup that fails in another way, if it does. -/
theorem lookup {y : Except Fault α} {f : α → Except Fault σ} (hy : y ≠ .error .nullEndpoint)
    (hf : ∀ a, y = .ok a → Walk A r view (f a)) : Walk A r view (y >>= f) :=
  Yields.bind (P := fun _ => True) ⟨fun _ _ => trivial, fun _ => hy⟩ fun a ha _ => hf a ha

/-- The loop rule. -/
theorem foldlM {as : List α} {f : σ → α → Except Fault σ} {s : σ}
    (hf : ∀ s', ∀ a ∈ as, Reach A (view s) (view s') → Walk A (view s') view (f s' a)) :
    Walk A (view s) view (as.foldlM f s) := by
  refine Yields.foldlM ?_ (Reach.refl _)
  intro s' a ha hs'
  exact (hf s' a ha hs').after hs'

end Walk

namespace Controller

variable {env : Platform} {c c' c₁ : Controller} {now : Time} {src : Int64} {p : Packet} {A : Prop}

/-- The endpoints of the packets that are sent again. `sendQueue` is not counted:
`TrySendOutgoingPackets` looks before it sends. -/
def waiting (c : Controller) : List Int64 :=
  c.reliablePackets.map fun q : ReliableOutgoingPacket => q.pkt.endpoint

def routes (c : Controller) : Routes := ⟨c.endpoints, c.waiting⟩

theorem ite_routes {p : Prop} [Decidable p] (h : c'.routes = c.routes) :
    (if p then c' else c).routes = c.routes := by
  split
  · exact h
  · rfl

/-- One handler after another. -/
theorem then_walk {r : Routes} {x : Except Fault Controller}
    {f : Controller → Except Fault Controller} (hx : Walk A r routes x)
    (hf : ∀ c, x = .ok c → Walk A c.routes routes (f c)) : Walk A r routes (x >>= f) :=
  Walk.bind hx hf

theorem outgoingStream_ne_null (i : ℕ) : c.outgoingStream i ≠ .error .nullEndpoint := by
  unfold outgoingStream
  split <;> exact nofun

theorem endpointAt_ne_null (id : Int64) : c.endpointAt id ≠ .error .nullEndpoint := by
  unfold endpointAt
  split <;> exact nofun

/-! ## Sending -/

/-- The lookup of a packet's endpoint, where its id leads to an entry. -/
theorem find_walk {σ : Type} {view : σ → Routes} {f : Endpoint → Except Fault σ} {id : Int64}
    (hid : A → c.routes.Complete → c.routes.Leads id)
    (hf : ∀ e, c.endpoints.at? (c.endpointKey id) = some e → Walk A c.routes view (f e)) :
    Walk A c.routes view (c.endpointForPacket id >>= f) := by
  refine Yields.bind (P := fun _ => True) ⟨fun _ _ => trivial, ?_⟩ ?_
  · rintro ⟨hA, hc⟩ hnull
    unfold endpointForPacket at hnull
    split at hnull
    · cases hnull
    · rename_i hnone
      split at hnull
      · -- an id that is not zero is looked up as it is
        rename_i hne
        rcases hid hA hc with rfl | ⟨e, he⟩
        · exact hne rfl
        · rw [endpointKey, if_pos hne] at hnone
          exact nomatch hnone.symm.trans he
      · cases hnull
  · intro e he _
    exact hf e (endpointForPacket_eq_ok.mp he)

/-- What was found leads to an entry. -/
theorem leads_of_found {id : Int64} {e : Endpoint}
    (he : c.endpoints.at? (c.endpointKey id) = some e) : c.routes.Leads id := by
  by_cases hid : id = 0
  · exact .inl hid
  · rw [endpointKey, if_pos hid] at he
    exact .inr ⟨e, he⟩

theorem connectIfNeeded_reach {key : Int64} {e : Endpoint} (he : c.endpoints.at? key = some e) :
    Reach A c.routes (c.connectIfNeeded key e).routes := by
  unfold connectIfNeeded
  split
  · exact .of_table (.single (.touch c.endpoints he rfl fun h => ⟨h.seq, h.samples⟩)) rfl
  · exact .refl _

theorem transmit_walk (pkt : PendingOutgoingPacket) (e : Endpoint) :
    Walk A c.routes routes (c.transmit now pkt e) :=
  .lookup (outgoingStream_ne_null _) fun _ _ => .pure (.of_eq rfl)

theorem sendOrEnqueuePacket_walk {pkt : PendingOutgoingPacket} {enqueue : Bool}
    (hpkt : A → c.routes.Complete → c.routes.Leads pkt.endpoint) :
    Walk A c.routes routes (c.sendOrEnqueuePacket now pkt enqueue) := by
  refine find_walk hpkt ?_
  intro e he
  have hconnect : Reach A c.routes (c.connectIfNeeded (c.endpointKey pkt.endpoint) e).routes :=
    connectIfNeeded_reach he
  refine Walk.after hconnect ?_
  dsimp only
  split
  · split
    · exact transmit_walk pkt e
    · exact .pure (.refl _)
  · cases enqueue with
    | true => exact .pure (.of_eq rfl)
    | false => exact .pure (.refl _)

theorem sendPacketReliably_reach {pkt : PendingOutgoingPacket} {retryInterval timeout : Time}
    {tries : UInt8} (hpkt : A → c.routes.Complete → c.routes.Leads pkt.endpoint) :
    Reach A c.routes (c.sendPacketReliably pkt retryInterval timeout tries).routes := by
  refine .of_waiting ?_ ?_
  · unfold sendPacketReliably
    dsimp only
    split <;> rfl
  · intro hA hc id hid
    have hwaiting : (c.sendPacketReliably pkt retryInterval timeout tries).routes.waiting =
        c.waiting ++ [pkt.endpoint] := by
      unfold sendPacketReliably
      dsimp only
      split <;> simp [routes, waiting, post]
    rw [hwaiting] at hid
    rcases List.mem_append.mp hid with hid | hid
    · exact .inl hid
    · rw [List.mem_singleton.mp hid]
      exact .inr (hpkt hA hc)

/-- A sealed packet to an entry goes out at once, or reliably. -/
theorem send_walk {p : Prop} [Decidable p] {endpoint : Endpoint} {pkt : PendingOutgoingPacket}
    {retryInterval timeout : Time} {tries : UInt8}
    (hpkt : A → c.routes.Complete → c.routes.Leads pkt.endpoint) :
    Walk A c.routes routes (if p then
        pure ((c.noteSealing endpoint).sendPacketReliably pkt retryInterval timeout tries)
      else (c.noteSealing endpoint).sendOrEnqueuePacket now pkt true) := by
  have hsealed : Reach A c.routes (c.noteSealing endpoint).routes := .of_eq rfl
  refine Walk.after hsealed ?_
  split
  · exact .pure (sendPacketReliably_reach hpkt)
  · exact sendOrEnqueuePacket_walk hpkt

theorem sendPacket_walk {pkt : OutgoingPacket} {retryInterval timeout : Time} {tries : UInt8}
    (hpkt : A → c.routes.Complete → c.routes.Leads pkt.endpoint) :
    Walk A c.routes routes (c.sendPacket env now pkt retryInterval timeout tries) := by
  refine find_walk hpkt ?_
  intro endpoint he
  refine Walk.lookup (outgoingStream_ne_null _) ?_
  intro stream _
  split
  · have hprepared : Reach A c.routes (c.prepareNew pkt.packet endpoint.id stream).2.routes :=
      .of_eq rfl
    exact Walk.after hprepared (send_walk fun _ hc => hc.leads he)
  · refine Walk.lookup (outgoingStream_ne_null _) ?_
    intro signaling _
    have hprepared : ∀ localSeq, Reach (c.routes.Leads endpoint.id) c.routes
        (c.preparedLegacy pkt.packet endpoint stream signaling localSeq).routes :=
      fun _ => .of_eq rfl
    -- each of the packets made of it goes to the same entry
    refine Walk.mono (B := c.routes.Leads endpoint.id) ?_ fun _ hc => hc.leads he
    refine Walk.after (hprepared _) (Walk.foldlM ?_)
    intro c₁ t _ hreach
    exact send_walk fun hled _ => hreach.leads ((hprepared _).leads hled)

theorem sendExtra_routes (extra : WrappedExtra) (endpointId : Int64) :
    (c.sendExtra extra endpointId).routes = c.routes := by
  unfold sendExtra
  split <;> rfl

/-- A packet to the current endpoint. -/
theorem sendNopPacket_walk : Walk A c.routes routes (c.sendNopPacket env now 0) :=
  sendPacket_walk fun _ _ => .inl rfl

theorem answer_walk (reply : Extra) : Walk A c.routes routes (c.answer env now reply) :=
  Walk.after (.of_eq (sendExtra_routes ..)) sendNopPacket_walk

/-- The ids of the entries stay keys while the init packets are sent. -/
theorem sendInits_walk (seq ackSeq ackMask : UInt32) :
    Walk A c.routes routes ((c.endpoints.map (·.2)).foldlM
      (fun c e => c.sendInitTo env now seq ackSeq ackMask e) c) := by
  refine Walk.mono (B := ∀ x ∈ c.endpoints, c.endpoints.Has x.2.id) ?_ fun _ hc => hc.named
  refine Walk.foldlM ?_
  intro c₁ e he hreach
  obtain ⟨x, hx, rfl⟩ := List.mem_map.mp he
  unfold sendInitTo
  split
  · exact .pure (.refl _)
  · exact sendPacket_walk fun hnamed _ => .inr (hreach.table.has (hnamed x hx))

theorem sendInit_walk : Walk A c.routes routes (c.sendInit env now) := by
  have hextra : Reach A c.routes (c.sendExtra { d := .init (c.initExtra env) } 0).routes :=
    .of_eq (sendExtra_routes ..)
  refine Walk.after hextra ?_
  refine Walk.lookup (outgoingStream_ne_null _) ?_
  intro signaling _
  have hdraw : Reach A (c.sendExtra { d := .init (c.initExtra env) } 0).routes
      ((c.sendExtra { d := .init (c.initExtra env) } 0).setManager StreamId.signaling.toNat
        signaling.packetManager.nextLocalSeq.2).routes := .of_eq rfl
  refine Walk.after hdraw (then_walk (sendInits_walk ..) ?_)
  intro c₁ _
  refine .pure (.of_eq ?_)
  split <;> rfl

theorem updateReliablePackets_walk : Walk A c.routes routes (c.updateReliablePackets now) := by
  have hkept : ∀ q ∈ c.reliablePackets.filterMap (·.update now),
      ∃ q₀ ∈ c.reliablePackets, q.1.pkt = q₀.pkt := by
    intro q hq
    obtain ⟨q₀, hq₀, hupdate⟩ := List.mem_filterMap.mp hq
    refine ⟨q₀, hq₀, ?_⟩
    unfold ReliableOutgoingPacket.update at hupdate
    split_ifs at hupdate <;> cases hupdate <;> rfl
  let updated := c.reliablePackets.filterMap (·.update now)
  let due := (updated.filter (·.2)).map (·.1)
  let c₁ : Controller := { c with
    reliablePackets := updated.map (·.1)
    posted := c.posted ++ due.map fun q => (.updateReliablePackets, q.retryInterval) }
  have hupdated : Reach A c.routes c₁.routes := by
    refine .of_waiting rfl ?_
    intro _ _ id hid
    obtain ⟨q', hq', rfl⟩ := List.mem_map.mp hid
    obtain ⟨q, hq, rfl⟩ := List.mem_map.mp hq'
    obtain ⟨q₀, hq₀, hpkt⟩ := hkept q hq
    exact .inl (List.mem_map.mpr ⟨q₀, hq₀, by rw [hpkt]⟩)
  refine Walk.after hupdated ?_
  show Walk A c₁.routes routes (due.foldlM (fun c q => c.sendOrEnqueuePacket now q.pkt true) c₁)
  -- what is due leads to entries, from the first round on
  refine Walk.mono (B := ∀ q ∈ due, c₁.routes.Leads q.pkt.endpoint) ?_ ?_
  · refine Walk.foldlM ?_
    intro c₂ q hq hreach
    exact sendOrEnqueuePacket_walk fun hled _ => hreach.leads (hled q hq)
  · intro _ hc q' hq'
    obtain ⟨q, hq, rfl⟩ := List.mem_map.mp hq'
    exact hc.waiting _
      (List.mem_map.mpr ⟨_, List.mem_map.mpr ⟨q, List.mem_of_mem_filter hq, rfl⟩, rfl⟩)

/-- The loop looks a packet's endpoint up itself before it sends the packet. -/
theorem trySendQueued_walk {queue : List PendingOutgoingPacket} :
    Walk A c.routes (fun r : Controller × List PendingOutgoingPacket => r.1.routes)
      (trySendQueued now c queue) := by
  induction queue generalizing c with
  | nil => exact .pure (.refl _)
  | cons pkt queue ih =>
      rw [trySendQueued]
      cases he : c.endpoints.at? (c.endpointKey pkt.endpoint) with
      | none =>
          by_cases hid : pkt.endpoint ≠ 0
          · simp only [if_pos hid]
            exact ih
          · simp only [if_neg hid]
            exact Yields.error fun _ => Fault.noConfusion
      | some e =>
          by_cases hcan : c.canSend e = true
          · simp only [if_pos hcan]
            refine Walk.bind (sendOrEnqueuePacket_walk fun _ _ => leads_of_found he) ?_
            intro c₁ _
            exact ih
          · simp only [if_neg hcan]
            refine Walk.bind ih ?_
            intro r _
            exact .pure (.refl _)

theorem trySendOutgoingPackets_walk : Walk A c.routes routes (c.trySendOutgoingPackets now) := by
  refine Walk.bind trySendQueued_walk ?_
  intro r _
  exact .pure (.of_eq rfl)

end Controller

end Tgvoip
