import Tgvoip.Controller.Bookkeeping

/-!
# Retries — how a reliable packet leaves the queue

`Reliable.cpp`. `UpdateReliablePackets` takes a try from every queued
packet on every call, but sends only those whose retry interval is over;
the calls of one packet so use up the tries of another. `Spent` is the
account of a packet: its transmissions and the tries it has left are the
tries it was queued with. It is kept by every call that finds each packet
due.
-/

namespace Tgvoip

open ByteReader Fallible

namespace ReliableOutgoingPacket

variable {q q' : ReliableOutgoingPacket} {now : Time}

/-- Its own timeout is over. -/
def timedOut (q : ReliableOutgoingPacket) (now : Time) : Bool :=
  q.timeout > 0 && q.firstSentTime > 0 && now - q.firstSentTime ≥ q.timeout

/-- Its retry interval is over. -/
def due (q : ReliableOutgoingPacket) (now : Time) : Bool := now - q.lastSentTime ≥ q.retryInterval

/-- As `SendPacketReliably` queues it. -/
structure Fresh (q : ReliableOutgoingPacket) : Prop where
  budget : q.budget = q.tries
  transmissions : q.transmissions = 0

/-- Every try that is gone was a transmission. -/
def Spent (q : ReliableOutgoingPacket) : Prop :=
  q.transmissions + q.tries.toNat = q.budget.toNat

theorem Fresh.spent (h : q.Fresh) : q.Spent := by
  rw [Spent, h.budget, h.transmissions, Nat.zero_add]

/-- A packet is erased for its timeout, or for lack of tries. -/
theorem update_eq_none_iff : q.update now = none ↔ q.timedOut now = true ∨ q.tries = 0 := by
  unfold update timedOut
  by_cases htimeout : (q.timeout > 0 && q.firstSentTime > 0 && now - q.firstSentTime ≥ q.timeout)
  · simp [htimeout]
  · by_cases htries : q.tries = 0
    · simp [htries]
    · rw [if_neg htimeout, if_neg htries]
      split <;> simp [htimeout, htries]

/-- A packet that stays has a try less; it was sent if it was due. -/
theorem update_eq_some {sent : Bool} (h : q.update now = some (q', sent)) :
    q.tries ≠ 0 ∧ q.timedOut now = false ∧ q'.tries = q.tries - 1 ∧ q'.budget = q.budget ∧
      sent = q.due now ∧ q'.transmissions = q.transmissions + if q.due now then 1 else 0 := by
  unfold update at h
  split at h
  · cases h
  · rename_i htimeout
    split at h
    · cases h
    · rename_i htries
      refine ⟨htries, by simpa [timedOut] using htimeout, ?_⟩
      by_cases hdue : now - q.lastSentTime ≥ q.retryInterval
      · rw [if_pos hdue] at h
        cases h
        exact ⟨rfl, rfl, by simp [due, hdue], by simp [due, hdue]⟩
      · rw [if_neg hdue] at h
        cases h
        exact ⟨rfl, rfl, by simp [due, hdue], by simp [due, hdue]⟩

theorem toNat_tries_sub_one {tries : UInt8} (h : tries ≠ 0) :
    (tries - 1).toNat + 1 = tries.toNat := by
  have hpos : tries.toNat ≠ 0 := fun h0 => h (UInt8.toNat_inj.mp h0)
  have hlt := tries.toNat_lt
  rw [UInt8.toNat_sub]
  simp
  omega

/-- The account of a packet is kept exactly if it is due. -/
theorem Spent.update_iff {sent : Bool} (hq : q.Spent) (h : q.update now = some (q', sent)) :
    q'.Spent ↔ q.due now = true := by
  obtain ⟨htries, -, htries', hbudget, -, hsent⟩ := update_eq_some h
  have hone := toNat_tries_sub_one htries
  unfold Spent at hq ⊢
  rw [htries', hbudget, hsent]
  cases q.due now with
  | true =>
      simp only [if_true, iff_true]
      omega
  | false =>
      simp only [Bool.false_eq_true, if_false, iff_false]
      omega

end ReliableOutgoingPacket

/-- The event is a call of `UpdateReliablePackets`. -/
def Event.updates : Event → Bool
  | .updateReliablePackets => true
  | _ => false

namespace Controller

variable {env : Platform} {c c' c'' c₁ : Controller} {now : Time} {src : Int64} {p : Packet}

/-! ## What is queued -/

/-- Nothing leaves `reliablePackets`, and what is added is fresh. -/
def Queues (c c' : Controller) : Prop :=
  ∃ added, (∀ q ∈ added, q.Fresh) ∧ c'.reliablePackets = c.reliablePackets ++ added

theorem Queues.same (h : c'.reliablePackets = c.reliablePackets) : Queues c c' :=
  ⟨[], List.forall_mem_nil _, by rw [h, List.append_nil]⟩

theorem Queues.trans (h : Queues c c') (h' : Queues c' c'') : Queues c c'' := by
  obtain ⟨added, hfresh, hc'⟩ := h
  obtain ⟨added', hfresh', hc''⟩ := h'
  refine ⟨added ++ added', ?_, by rw [hc'', hc', List.append_assoc]⟩
  intro q hq
  rcases List.mem_append.mp hq with hq | hq
  · exact hfresh q hq
  · exact hfresh' q hq

theorem sendOrEnqueuePacket_reliablePackets {pkt : PendingOutgoingPacket} {enqueue : Bool}
    (h : c.sendOrEnqueuePacket now pkt enqueue = .ok c') :
    c'.reliablePackets = c.reliablePackets := by
  obtain ⟨e, -, hcases⟩ := sendOrEnqueuePacket_ok h
  have hconn := congrArg Transport.reliablePackets
    (c.connectIfNeeded_toTransport (c.endpointKey pkt.endpoint) e)
  obtain ⟨-, -, h⟩ | ⟨-, rfl | rfl⟩ := hcases
  · obtain ⟨s, pm, -, -, -, rfl⟩ := transmit_ok h
    exact hconn
  · exact hconn
  · exact hconn

theorem sendPacketReliably_queues (pkt : PendingOutgoingPacket) (retryInterval timeout : Time)
    (tries : UInt8) : Queues c (c.sendPacketReliably pkt retryInterval timeout tries) := by
  have hentry : ∀ q ∈ [({ pkt, retryInterval, timeout, tries } : ReliableOutgoingPacket)],
      q.Fresh := by
    intro q hq
    obtain rfl := List.mem_singleton.mp hq
    exact ⟨rfl, rfl⟩
  unfold sendPacketReliably
  dsimp only
  split
  · exact ⟨_, hentry, rfl⟩
  · exact ⟨_, hentry, rfl⟩

theorem queues_rule : SendRule Queues where
  refl := fun _ => .same rfl
  trans := .trans
  connect := fun _ => .same (congrArg Transport.reliablePackets (connectIfNeeded_toTransport ..))
  transmit := by
    intro c c' now pkt e h
    obtain ⟨s, pm, -, -, -, rfl⟩ := transmit_ok h
    exact .same rfl
  enqueue := fun _ _ => .same rfl
  reliably := fun _ => sendPacketReliably_queues
  noteSealing := fun _ _ => .same rfl
  prepareNew := fun _ => .same rfl
  prepareLegacy := fun _ _ => .same rfl

theorem sendExtra_queues (extra : WrappedExtra) (endpointId : Int64) :
    Queues c (c.sendExtra extra endpointId) := by
  unfold sendExtra
  split
  · exact .same rfl
  · exact .same rfl

theorem sendInit_queues (h : c.sendInit env now = .ok c') : Queues c c' :=
  queues_rule.sendInit (sendExtra_queues ..) (fun _ => .same rfl) (fun _ _ => .same rfl) h

theorem dispatchExtra_queues {x : Extra} (h : c.dispatchExtra env now x src = .ok c') :
    Queues c c' := by
  rcases dispatchExtra_ok h with ⟨-, hquiet⟩ | ⟨-, c₁, c₂, h₁, h₂, h₃⟩
  · exact .same (congrArg Transport.reliablePackets hquiet.transport)
  · have hprepared : Queues c c₁ := by
      rcases h₁.streams with h | ⟨d, -, -, -, h⟩
      · exact .same (congrArg Transport.reliablePackets h)
      · exact .same (by rw [h])
    exact (hprepared.trans (queues_rule.answer (sendExtra_queues ..) h₂)).trans
      (.same (congrArg Transport.reliablePackets h₃.transport))

theorem processExtras_queues {xs : List WrappedExtra}
    (h : c.processExtras env now src xs = .ok c') : Queues c c' :=
  processExtras_rule (I := fun c₁ _ => Queues c c₁) (fun _ _ _ h => h.trans (.same rfl))
    (fun _ _ _ _ h hx => h.trans (dispatchExtra_queues hx)) (.same rfl) h

/-! ## What leaves -/

/-- What becomes of a queued packet: `none` where it is erased. -/
def remains (env : Platform) (c : Controller) (e : Time × Event) (q : ReliableOutgoingPacket) :
    Option ReliableOutgoingPacket :=
  match e.2 with
  | .updateReliablePackets => (q.update e.1).map (·.1)
  | .packet p src =>
    if (ackCall env c e.1 p src).any fun call => call.2.wasLocalAcked q.pkt.pktInfo.seq then none
    else some q
  | _ => some q

theorem ackCall_eq_none (h : c.accepts p = false) : ackCall env c now p src = none := by
  unfold ackCall
  unfold accepts at h
  cases hs : c.outgoingStreams[p.managerIndex.toNat]? with
  | none => rfl
  | some s =>
      rw [hs, Option.any_some] at h
      simp [h]

theorem remains_of_ackCall_eq_none (h : ackCall env c now p src = none) :
    remains env c (now, .packet p src) = some := by
  funext q
  simp [remains, h]

theorem remains_of_ackCall {pm : PacketManager} (h : ackCall env c now p src = some (c₁, pm))
    (qs : List ReliableOutgoingPacket) :
    qs.filterMap (remains env c (now, .packet p src)) =
      qs.filter fun q => !pm.wasLocalAcked q.pkt.pktInfo.seq := by
  rw [← List.filterMap_eq_filter]
  refine List.filterMap_congr fun q _ => ?_
  cases hacked : pm.wasLocalAcked q.pkt.pktInfo.seq with
  | true => simp [remains, h, hacked, Option.guard]
  | false => simp [remains, h, hacked, Option.guard]

theorem updateReliablePackets_queue (h : c.updateReliablePackets now = .ok c') :
    c'.reliablePackets = c.reliablePackets.filterMap fun q => (q.update now).map (·.1) := by
  unfold updateReliablePackets at h
  refine (foldlM_invariant (I := fun c₁ : Controller => c₁.reliablePackets =
    (c.reliablePackets.filterMap (·.update now)).map (·.1)) ?_ rfl h).trans ?_
  · intro c₁ q _ c₂ hc₁ h
    exact (sendOrEnqueuePacket_reliablePackets h).trans hc₁
  · exact List.map_filterMap

theorem processIncomingPacket_queue (h : c.processIncomingPacket env now p src = .ok c') :
    ∃ added, (∀ q ∈ added, q.Fresh) ∧
      c'.reliablePackets = c.reliablePackets.filterMap (remains env c (now, .packet p src)) ++
        added := by
  obtain ⟨s, hs, ⟨hold, rfl⟩ | ⟨hnew, h⟩⟩ := processIncomingPacket_ok h
  · exact ⟨[], List.forall_mem_nil _, by
      rw [remains_of_ackCall_eq_none (ackCall_eq_none hold), List.filterMap_some, List.append_nil]⟩
  · obtain ⟨c₁, c₂, c₃, c₄, t, hstages⟩ := processFreshPacket_ok h
    obtain ⟨early, hearly, hc₁⟩ := processExtras_queues hstages.extras
    have hlate : Queues c₂ c' := by
      have hendpoint : Queues c₂ c₃ := .same (congrArg Transport.reliablePackets hstages.endpoint.1)
      have hnotes : Queues c₄ c' := .same (congrArg Transport.reliablePackets hstages.notes.transport)
      have hcounts : Queues c₃ c₄ :=
        queues_rule.countUnacknowledged (fun _ => .same rfl) hstages.counts
      exact (hendpoint.trans hcounts).trans hnotes
    obtain ⟨late, hlate, hc'⟩ := hlate
    rcases hstages.erases hs hnew with ⟨hnone, hc₂⟩ | ⟨pm, hcall, hc₂, -⟩
    · refine ⟨early ++ late, ?_, ?_⟩
      · intro q hq
        exact (List.mem_append.mp hq).elim (hearly q) (hlate q)
      · rw [hc', hc₂, hc₁, remains_of_ackCall_eq_none hnone, List.filterMap_some, List.append_assoc]
        rfl
    · refine ⟨early.filter (fun q => !pm.wasLocalAcked q.pkt.pktInfo.seq) ++ late, ?_, ?_⟩
      · intro q hq
        exact (List.mem_append.mp hq).elim (fun hq => hearly q (List.mem_of_mem_filter hq))
          (hlate q)
      · rw [hc', hc₂, remains_of_ackCall hcall, handleReliablePackets]
        dsimp only
        rw [hc₁, List.filter_append, List.append_assoc]
        rfl

/-- A step erases those that do not remain, and adds fresh packets behind. -/
theorem step_reliablePackets {e : Time × Event} (h : c.step env e = .ok c') :
    ∃ added, (∀ q ∈ added, q.Fresh) ∧
      c'.reliablePackets = c.reliablePackets.filterMap (remains env c e) ++ added := by
  obtain ⟨now, e⟩ := e
  have hgrows : (∀ q, remains env c (now, e) q = some q) → Queues c c' →
      ∃ added, (∀ q ∈ added, q.Fresh) ∧
        c'.reliablePackets = c.reliablePackets.filterMap (remains env c (now, e)) ++ added := by
    intro hall hqueues
    obtain ⟨added, hfresh, hc'⟩ := hqueues
    refine ⟨added, hfresh, ?_⟩
    rw [funext hall, List.filterMap_some, hc']
  cases e with
  | packet p src => exact processIncomingPacket_queue h
  | updateReliablePackets =>
      exact ⟨[], List.forall_mem_nil _, by
        rw [updateReliablePackets_queue h, List.append_nil]; rfl⟩
  | sendPacket pkt retryInterval timeout tries => exact hgrows (fun _ => rfl) (queues_rule.sendPacket h)
  | sendNopPacket endpointId => exact hgrows (fun _ => rfl) (queues_rule.sendPacket h)
  | sendExtra x endpointId =>
      rw [← pure_eq_ok.mp h] at hgrows ⊢
      exact hgrows (fun _ => rfl) (sendExtra_queues ..)
  | sendInit => exact hgrows (fun _ => rfl) (sendInit_queues h)
  | trySendOutgoingPackets => exact hgrows (fun _ => rfl) (queues_rule.trySendOutgoingPackets h)
  | udpSocket ready =>
      rw [← pure_eq_ok.mp h] at hgrows ⊢
      exact hgrows (fun _ => rfl) (.same rfl)
  | tcpSocket key ready =>
      rw [← pure_eq_ok.mp h] at hgrows ⊢
      exact hgrows (fun _ => rfl) (.same rfl)

/-! ## Runs -/

/-- A call of `UpdateReliablePackets` finds every packet due that it could send. -/
def AllDue (c : Controller) (e : Time × Event) : Prop :=
  e.2.updates = true → ∀ q ∈ c.reliablePackets,
    q.timedOut e.1 = true ∨ q.tries = 0 ∨ q.due e.1 = true

instance (c : Controller) (e : Time × Event) : Decidable (AllDue c e) := by
  unfold AllDue
  infer_instance

/-- An arriving packet acknowledges the number of the packet. -/
def Acked (env : Platform) (c : Controller) (e : Time × Event) (q : ReliableOutgoingPacket) :
    Prop :=
  ∃ p src c₁ pm, e.2 = .packet p src ∧ ackCall env c e.1 p src = some (c₁, pm) ∧
    pm.wasLocalAcked q.pkt.pktInfo.seq = true

/-- **A packet leaves only when it is acknowledged, when its own timeout is
over, or when it was sent as often as it was queued to be.** -/
structure LeavesInTime (env : Platform) (c : Controller) (e : Time × Event) : Prop where
  others : ∀ c', c.step env e = .ok c' → ∃ added, (∀ q ∈ added, q.Fresh) ∧
    c'.reliablePackets = c.reliablePackets.filterMap (remains env c e) ++ added
  reason : ∀ q ∈ c.reliablePackets, remains env c e q = none → Acked env c e q ∨
    (e.2.updates = true ∧ (q.timedOut e.1 = true ∨
      (q.tries = 0 ∧ q.transmissions = q.budget.toNat)))

/-- The accounts of all queued packets. -/
def AllSpent (c : Controller) : Prop := ∀ q ∈ c.reliablePackets, q.Spent

theorem remains_spent {e : Time × Event} {q q' : ReliableOutgoingPacket} (hq : q.Spent)
    (hdue : e.2.updates = true → q.timedOut e.1 = true ∨ q.tries = 0 ∨ q.due e.1 = true)
    (h : remains env c e q = some q') : q'.Spent := by
  obtain ⟨now, e⟩ := e
  cases e with
  | updateReliablePackets =>
      obtain ⟨⟨q₁, sent⟩, hupdate, rfl⟩ := Option.map_eq_some_iff.mp h
      obtain ⟨htries, htimeout, -⟩ := ReliableOutgoingPacket.update_eq_some hupdate
      refine (hq.update_iff hupdate).mpr ?_
      rcases hdue rfl with hout | hnone | hdue
      · exact absurd (hout.symm.trans htimeout) (by decide)
      · exact absurd hnone htries
      · exact hdue
  | packet p src =>
      simp only [remains] at h
      split at h
      · cases h
      · exact Option.some.inj h ▸ hq
  | _ => exact Option.some.inj h ▸ hq

theorem AllSpent.step {e : Time × Event} (hc : c.AllSpent) (hdue : AllDue c e)
    (h : c.step env e = .ok c') : c'.AllSpent := by
  obtain ⟨added, hfresh, hc'⟩ := step_reliablePackets h
  intro q hq
  rw [hc'] at hq
  rcases List.mem_append.mp hq with hq | hq
  · obtain ⟨q₀, hq₀, hremains⟩ := List.mem_filterMap.mp hq
    exact remains_spent (hc q₀ hq₀) (fun hupdates => hdue hupdates q₀ hq₀) hremains
  · exact (hfresh q hq).spent

theorem AllSpent.leavesInTime {e : Time × Event} (hc : c.AllSpent) : LeavesInTime env c e where
  others := fun _ h => step_reliablePackets h
  reason := by
    obtain ⟨now, e⟩ := e
    intro q hq h
    cases e with
    | updateReliablePackets =>
        rw [remains, Option.map_eq_none_iff, ReliableOutgoingPacket.update_eq_none_iff] at h
        refine .inr ⟨rfl, h.imp_right fun htries => ⟨htries, ?_⟩⟩
        have hspent := hc q hq
        rw [ReliableOutgoingPacket.Spent, htries] at hspent
        exact hspent
    | packet p src =>
        simp only [remains, ite_eq_left_iff, reduceCtorEq, imp_false, not_not] at h
        cases hcall : ackCall env c now p src with
        | none => simp [hcall] at h
        | some call => exact .inl ⟨p, src, call.1, call.2, rfl, hcall, by simpa [hcall] using h⟩
    | _ => cases h

/-- **A reliable packet gets all its tries** in every run in which each call of
`UpdateReliablePackets` finds the queued packets due. -/
theorem leaves_in_time {events : List (Time × Event)} (hc : c.reliablePackets = [])
    (hdue : AlongOk (step env) AllDue c events) :
    AlongOk (step env) (LeavesInTime env) c events :=
  hdue.strengthen (I := AllSpent) (fun _ _ _ hc h hstep => hc.step h hstep)
    (fun _ _ hc _ => hc.leavesInTime) (by rw [AllSpent, hc]; exact List.forall_mem_nil _)

end Controller

/-! ## The calls that are posted -/

/-- A controller, and when the calls of `UpdateReliablePackets` are due that it
posted and that were not made yet. -/
structure Posting where
  c : Controller
  calls : List Time := []

namespace Posting

def step (env : Platform) (d : Posting) (e : Time × Event) : Except Fault Posting := do
  let c' ← d.c.step env e
  let posted := (c'.posted.drop d.c.posted.length).filter (·.1 == .updateReliablePackets)
  let calls := if e.2.updates then d.calls.eraseP (· ≤ e.1) else d.calls
  pure { c := c', calls := calls ++ posted.map (e.1 + ·.2) }

/-- Only calls that were posted are made, and none too early. -/
def Scheduled (d : Posting) (e : Time × Event) : Prop :=
  e.2.updates = true → ∃ t ∈ d.calls, t ≤ e.1

instance (d : Posting) (e : Time × Event) : Decidable (Scheduled d e) := by
  unfold Scheduled
  infer_instance

end Posting

/-! ## On fixed inputs -/

namespace Controller

/-- A packet with two tries. -/
def sendTwice (now : Time) : Time × Event := (now, .sendPacket { packet := {} } (1 / 2) 5 2)

theorem leaves_in_time_one : AlongOk (step samplePlatform) (LeavesInTime samplePlatform)
    (sampleCall {})
    [sendTwice 100, (100, .updateReliablePackets), (101, .updateReliablePackets),
      (102, .updateReliablePackets)] :=
  leaves_in_time rfl (by decide +kernel)

/-- Two packets are queued. The call posted for the second finds that both were
just sent, and takes their last try. -/
theorem leaves_in_time_fails :
    ¬ ∀ (env : Platform) (c : Controller) (events : List (Time × Event)),
      c.reliablePackets = [] → AlongOk (Posting.step env) Posting.Scheduled { c } events →
      AlongOk (step env) (LeavesInTime env) c events := by
  intro h
  let events := [sendTwice 100, sendTwice 100, (100, .updateReliablePackets),
    (100, .updateReliablePackets)]
  have hrun := h samplePlatform (sampleCall {}) (events ++ [(100 + 1 / 2, .updateReliablePackets)])
    rfl (by decide +kernel)
  have heval : (events.foldlM (step samplePlatform) (sampleCall {})).map (fun c =>
      c.reliablePackets.map fun q => (q.tries, q.timedOut (100 + 1 / 2), q.budget, q.transmissions)) =
      .ok [(0, false, 2, 1), (0, false, 2, 1)] := by decide +kernel
  obtain ⟨c, hc, hqueue⟩ := exists_of_map_eq_ok heval
  have hlast := hrun.last hc
  obtain ⟨q, hq, hvalues⟩ := List.mem_map.mp (hqueue ▸ List.mem_cons_self)
  simp only [Prod.mk.injEq] at hvalues
  obtain ⟨htries, htimeout, hbudget, hsent⟩ := hvalues
  have hleaves : remains samplePlatform c (100 + 1 / 2, .updateReliablePackets) q = none := by
    rw [remains, Option.map_eq_none_iff, ReliableOutgoingPacket.update_eq_none_iff]
    exact .inr htries
  rcases hlast.reason q hq hleaves with ⟨p, src, c₁, pm, he, -⟩ | ⟨-, hout | ⟨-, hall⟩⟩
  · cases he
  · exact absurd (hout.symm.trans htimeout) (by decide)
  · rw [hbudget, hsent] at hall
    exact absurd hall (by decide)

end Controller

end Tgvoip
