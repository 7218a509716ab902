import Tgvoip.Controller.Bookkeeping
import Tgvoip.Lib.LastSeen

/-!
# ExtraDedup — which copies of an extra the receiver acts on

An extra rides on every packet until it is acknowledged; the receiver must
act on it once. `ProcessExtraData` compares the hash of what arrives with
the hash of the extra of the same type it handled last. It so takes an
extra issued again with the same content for a copy, and a copy that comes
behind another extra of its type for a new one.

`ExtraLink` is a sender and a receiver, with packets that arrive in order
or not at all.
-/

namespace Tgvoip

open ByteReader Fallible LastSeen

/-- The event is the arrival of a packet. -/
def Event.isPacket : Event → Bool
  | .packet _ _ => true
  | _ => false

/-- A copy of an extra that arrives, and the call of `SendExtra` it is of. -/
structure Arrival where
  occurrence : ℕ
  extra : WrappedExtra
  deriving DecidableEq

namespace Arrival

/-- The type, and the hash. -/
def tag (env : Platform) (a : Arrival) : UInt8 × UInt64 := (a.extra.d.getID, env.hash a.extra)

end Arrival

namespace Controller

variable {env : Platform} {c c' : Controller} {now : Time} {src : Int64} {p : Packet}
  {before : List Arrival} {a : Arrival}

/-- What `processExtraData` does to the table of hashes. -/
def meet (env : Platform) (c : Controller) (a : Arrival) : Controller :=
  if c.repeatsLast env a.extra then c else c.noteReceived env a.extra

/-- **Each extra is acted on exactly once**: of the copies that arrive, those
are ignored, and only those, whose occurrence arrived before. -/
def ActsOnce (env : Platform) (c : Controller) (before : List Arrival) : List Arrival → Prop
  | [] => True
  | a :: rest =>
    (c.repeatsLast env a.extra = true ↔ a.occurrence ∈ before.map (·.occurrence)) ∧
      ActsOnce env (c.meet env a) (before ++ [a]) rest

/-- The hash of what arrived last of its type tells a copy from a new
occurrence: an occurrence that arrived before has that hash, and a new one has
another, or none. -/
def ToldApart (env : Platform) (before : List Arrival) : List Arrival → Prop
  | [] => True
  | a :: rest =>
    (env.hash a.extra ≠ 0 ∧
        lastTag (before.map (·.tag env)) a.extra.d.getID = some (env.hash a.extra) ↔
      a.occurrence ∈ before.map (·.occurrence)) ∧ ToldApart env (before ++ [a]) rest

instance ActsOnce.decidable (env : Platform) :
    ∀ (c : Controller) (before as : List Arrival), Decidable (c.ActsOnce env before as)
  | _, _, [] => .isTrue trivial
  | c, before, a :: rest =>
      have := ActsOnce.decidable env (c.meet env a) (before ++ [a]) rest
      inferInstanceAs (Decidable (_ ∧ _))

instance ToldApart.decidable (env : Platform) :
    ∀ before as : List Arrival, Decidable (ToldApart env before as)
  | _, [] => .isTrue trivial
  | before, a :: rest =>
      have := ToldApart.decidable env (before ++ [a]) rest
      inferInstanceAs (Decidable (_ ∧ _))

/-! ## The table of hashes -/

/-- The table has the hash of what arrived last of each type. -/
def Remembers (env : Platform) (c : Controller) (arrivals : List Arrival) : Prop :=
  Holds 0 c.lastReceivedExtrasByType (arrivals.map (·.tag env))

theorem repeatsLast_eq_true (x : WrappedExtra) : c.repeatsLast env x = true ↔
    env.hash x ≠ 0 ∧ c.lastReceivedExtrasByType x.d.getID = env.hash x := by
  unfold repeatsLast
  simp only [Bool.and_eq_true, bne_iff_ne, ne_eq, beq_iff_eq]

theorem Remembers.meet (h : c.Remembers env before) (a : Arrival) :
    (c.meet env a).Remembers env (before ++ [a]) := by
  unfold Remembers Controller.meet
  rw [List.map_append, List.map_singleton]
  by_cases hrep : c.repeatsLast env a.extra = true
  · rw [if_pos hrep]
    exact h.skip ((repeatsLast_eq_true a.extra).mp hrep).2
  · rw [if_neg hrep]
    exact h.note _ _

theorem Remembers.repeatsLast_iff (h : c.Remembers env before) (x : WrappedExtra) :
    c.repeatsLast env x = true ↔ env.hash x ≠ 0 ∧
      lastTag (before.map (·.tag env)) x.d.getID = some (env.hash x) := by
  rw [repeatsLast_eq_true]
  exact and_congr_right fun hhash => h.eq_iff hhash

/-- The receiver acts once exactly on what its table tells apart. -/
theorem Remembers.actsOnce_iff (h : c.Remembers env before) (as : List Arrival) :
    c.ActsOnce env before as ↔ ToldApart env before as := by
  induction as generalizing c before with
  | nil => exact Iff.rfl
  | cons a rest ih =>
      rw [ActsOnce, ToldApart, h.repeatsLast_iff, ih (h.meet a)]

/-- The table behind the loop over the extras. -/
theorem processExtras_remembers {as : List Arrival} (h : c.Remembers env before)
    (hrun : c.processExtras env now src (as.map (·.extra)) = .ok c') :
    c'.Remembers env (before ++ as) := by
  induction as generalizing c before with
  | nil =>
      rw [← pure_eq_ok.mp hrun, List.append_nil]
      exact h
  | cons a rest ih =>
      rw [processExtras, List.map_cons, List.foldlM_cons] at hrun
      obtain ⟨c₁, hfirst, hrun⟩ := bind_eq_ok.mp hrun
      have hc₁ : c₁.Remembers env (before ++ [a]) := by
        have hmeet := h.meet a
        unfold Controller.meet at hmeet
        unfold processExtraData at hfirst
        split at hfirst
        · rename_i hrep
          rw [if_pos hrep] at hmeet
          exact pure_eq_ok.mp hfirst ▸ hmeet
        · rename_i hrep
          rw [if_neg hrep] at hmeet
          unfold Remembers at hmeet ⊢
          rw [(dispatchExtra_frame hfirst).lastReceived]
          exact hmeet
      have hrest := ih hc₁ hrun
      rwa [List.append_assoc, List.singleton_append] at hrest

theorem processIncomingPacket_remembers {as : List Arrival} (h : c.Remembers env before)
    (hp : p.extraSignaling = as.map (·.extra))
    (hrun : c.processIncomingPacket env now p src = .ok c') :
    c'.Remembers env (if c.accepts p then before ++ as else before) := by
  obtain ⟨s, hs, ⟨hold, rfl⟩ | ⟨hnew, hrun⟩⟩ := processIncomingPacket_ok hrun
  · rw [hold]
    exact h
  · rw [if_pos hnew]
    obtain ⟨c₁, c₂, c₃, c₄, t, hstages⟩ := processFreshPacket_ok hrun
    have harrived : (c.arrived s p).Remembers env before := h
    have hextras := hstages.extras
    rw [hp] at hextras
    have hc₁ := processExtras_remembers harrived hextras
    unfold Remembers at hc₁ ⊢
    rw [hstages.frame.lastReceived]
    exact hc₁

/-- Only packets change the table. -/
theorem step_lastReceived {e : Time × Event} (he : ∀ p src, e.2 ≠ .packet p src)
    (h : c.step env e = .ok c') :
    c'.lastReceivedExtrasByType = c.lastReceivedExtrasByType := by
  obtain ⟨now, e⟩ := e
  cases e with
  | packet p src => exact absurd rfl (he p src)
  | sendPacket pkt retryInterval timeout tries => exact (sendPacket_frame h).lastReceived
  | sendNopPacket endpointId => exact (sendNopPacket_frame h).lastReceived
  | sendExtra x endpointId =>
      rw [← pure_eq_ok.mp h]
      exact (sendExtra_frame ..).lastReceived
  | sendInit => exact (sendInit_frame h).lastReceived
  | updateReliablePackets => exact (updateReliablePackets_frame h).lastReceived
  | trySendOutgoingPackets => exact (trySendOutgoingPackets_frame h).lastReceived
  | udpSocket ready => rw [← pure_eq_ok.mp h]
  | tcpSocket key ready => rw [← pure_eq_ok.mp h]

end Controller

/-! ## The link -/

/-- A sender and a receiver, how many of the prepared packets are over, and the
copies that arrived. -/
structure ExtraLink where
  sender : Controller
  receiver : Controller
  next : ℕ := 0
  arrivals : List Arrival := []

inductive LinkEvent where
  | sender (e : Time × Event)
  | receiver (e : Time × Event)
  /-- The `i`-th prepared packet arrives; it was serialized under `ver`. -/
  | deliver (now : Time) (i : ℕ) (ver : VersionInfo) (src : Int64)

namespace ExtraLink

open Controller

variable {env : Platform} {l l' : ExtraLink} {e : LinkEvent}

/-- A copy of an extra, as the receiver parses it. -/
def received (ver : VersionInfo) (x : ℕ × WrappedExtra) : Arrival where
  occurrence := x.1
  extra := { d := x.2.d, hashed := some (WrappedExtra.content ver x.2.d) }

/-- The `i`-th prepared packet, as the receiver parses it, and its extras. -/
def delivery (l : ExtraLink) (i : ℕ) (ver : VersionInfo) : Option (Packet × List Arrival) := do
  let p ← l.sender.preparedPackets[i]?
  let xs ← l.sender.preparedOccurrences[i]?
  let arrivals := xs.map (received ver)
  pure ({ p with extraSignaling := arrivals.map (·.extra) }, arrivals)

def deliver (env : Platform) (l : ExtraLink) (now : Time) (i : ℕ) (ver : VersionInfo)
    (src : Int64) : Except Fault ExtraLink :=
  match l.delivery i ver with
  | none => pure l
  | some (p, arrivals) => do
    let receiver ← l.receiver.processIncomingPacket env now p src
    pure { l with
      receiver, next := i + 1
      arrivals := if l.receiver.accepts p then l.arrivals ++ arrivals else l.arrivals }

/-- The two ends are on platforms of their own. -/
def step (envs env : Platform) (l : ExtraLink) : LinkEvent → Except Fault ExtraLink
  | .sender e => do
    let sender ← l.sender.step envs e
    pure { l with sender }
  | .receiver e => do
    let receiver ← l.receiver.step env e
    pure { l with receiver }
  | .deliver now i ver src => l.deliver env now i ver src

/-- Packets reach the receiver in the order they were prepared in, with any
loss, in the new format; and no other way. -/
def InOrder (l : ExtraLink) : LinkEvent → Prop
  | .sender _ => True
  | .receiver e => e.2.isPacket = false
  | .deliver _ i ver _ => l.next ≤ i ∧ ver.isNew = true

/-- Of the extras of a packet that is no duplicate. -/
def ExactlyOnce (env : Platform) (l : ExtraLink) : LinkEvent → Prop
  | .deliver _ i ver _ => ∀ x ∈ l.delivery i ver, l.receiver.accepts x.1 = true →
      l.receiver.ActsOnce env l.arrivals x.2
  | _ => True

/-- The hashes tell the extras of the packet apart. -/
def Distinct (env : Platform) (l : ExtraLink) : LinkEvent → Prop
  | .deliver _ i ver _ => ∀ x ∈ l.delivery i ver, l.receiver.accepts x.1 = true →
      ToldApart env l.arrivals x.2
  | _ => True

instance (l : ExtraLink) (e : LinkEvent) : Decidable (l.InOrder e) := by
  unfold InOrder
  cases e <;> infer_instance

instance (env : Platform) (l : ExtraLink) (e : LinkEvent) : Decidable (l.ExactlyOnce env e) := by
  unfold ExactlyOnce
  cases e <;> infer_instance

instance (env : Platform) (l : ExtraLink) (e : LinkEvent) : Decidable (l.Distinct env e) := by
  unfold Distinct
  cases e <;> infer_instance

/-- A receiver that has not handled any extra yet. -/
structure Started (l : ExtraLink) : Prop where
  table : l.receiver.lastReceivedExtrasByType = fun _ => 0
  arrivals : l.arrivals = []

def Remembers (env : Platform) (l : ExtraLink) : Prop := l.receiver.Remembers env l.arrivals

theorem Started.remembers (h : l.Started) : l.Remembers env := by
  unfold Remembers Controller.Remembers
  rw [h.table, h.arrivals]
  exact Holds.nil

theorem mem_delivery {i : ℕ} {ver : VersionInfo} {p : Packet} {as : List Arrival}
    (h : l.delivery i ver = some (p, as)) : p.extraSignaling = as.map (·.extra) := by
  obtain ⟨q, -, h⟩ := Option.bind_eq_some_iff.mp h
  obtain ⟨xs, -, h⟩ := Option.bind_eq_some_iff.mp h
  cases h
  rfl

theorem Remembers.step {envs : Platform} (hl : l.Remembers env) (he : l.InOrder e)
    (h : l.step envs env e = .ok l') : l'.Remembers env := by
  cases e with
  | sender e =>
      obtain ⟨c, -, h⟩ := bind_eq_ok.mp h
      rw [← pure_eq_ok.mp h]
      exact hl
  | receiver e =>
      obtain ⟨c, hstep, h⟩ := bind_eq_ok.mp h
      rw [← pure_eq_ok.mp h]
      have hown : ∀ p src, e.2 ≠ .packet p src := by
        intro p src hp
        rw [InOrder, hp] at he
        cases he
      unfold Remembers Controller.Remembers
      rw [step_lastReceived hown hstep]
      exact hl
  | deliver now i ver src =>
      change l.deliver env now i ver src = .ok l' at h
      unfold deliver at h
      split at h
      · rw [← pure_eq_ok.mp h]
        exact hl
      · rename_i p as hdelivery
        obtain ⟨c, hrun, h⟩ := bind_eq_ok.mp h
        rw [← pure_eq_ok.mp h]
        exact processIncomingPacket_remembers hl (mem_delivery hdelivery) hrun

theorem Remembers.exactlyOnce_iff (hl : l.Remembers env) : l.ExactlyOnce env e ↔ l.Distinct env e := by
  cases e with
  | deliver now i ver src =>
      unfold ExactlyOnce Distinct
      exact forall_congr' fun x => forall_congr' fun _ => forall_congr' fun _ =>
        Controller.Remembers.actsOnce_iff hl x.2
  | _ => exact Iff.rfl

/-- **Each extra that arrives is acted on exactly once** in a run exactly if the
hash of what arrived last of its type tells each copy from a new occurrence. -/
theorem exactly_once_iff {envs : Platform} {events : List LinkEvent} (hl : l.Started)
    (horder : AlongOk (step envs env) InOrder l events) :
    AlongOk (step envs env) (ExactlyOnce env) l events ↔
      AlongOk (step envs env) (Distinct env) l events := by
  constructor
  · intro h
    exact (alongOk_and.mpr ⟨horder, h⟩).strengthen (I := Remembers env)
      (fun l e l' hl he hstep => hl.step he.1 hstep)
      (fun l e hl he => hl.exactlyOnce_iff.mp he.2) hl.remembers
  · intro h
    exact (alongOk_and.mpr ⟨horder, h⟩).strengthen (I := Remembers env)
      (fun l e l' hl he hstep => hl.step he.1 hstep)
      (fun l e hl he => hl.exactlyOnce_iff.mpr he.2) hl.remembers

/-! ## On fixed inputs -/

/-- The sample platform, with the SHA-1 of the extras sent below. -/
def hashingPlatform : Platform :=
  { samplePlatform with sha1 := fun bs =>
      if bs = [10] then 0x1b4993e7193bc8ad else if bs = [4, 0] then 0xdaddf7346543224e
      else if bs = [4, 1] then 0xa2532fc005b95859 else 1 }

/-- Both ends over one UDP relay, before the first packet. -/
def sample : ExtraLink := { sender := sampleCall {}, receiver := sampleCall {} }

theorem sample_started : sample.Started := ⟨rfl, rfl⟩

/-- The extra is issued, and a NOP carries it. -/
def issue (x : Extra) (endpointId : Int64) : List LinkEvent :=
  [.sender (0, .sendExtra x endpointId), .sender (0, .sendNopPacket endpointId)]

def arrives (i : ℕ) : LinkEvent := .deliver 1 i ⟨0, 110⟩ 1

/-- Another NOP carries the same extra, which is then issued with other flags. -/
theorem exactly_once_changed :
    AlongOk (step hashingPlatform hashingPlatform) (ExactlyOnce hashingPlatform) sample
      (issue (.networkChanged {}) 0 ++ [.sender (0, .sendNopPacket 0), arrives 0, arrives 1] ++
        issue (.networkChanged { flags := 1 }) 0 ++ [arrives 2]) :=
  (exactly_once_iff sample_started (by decide +kernel)).mpr (by decide +kernel)

/-- The second ping of a relay, issued after the first was acknowledged, is
taken for a copy of it. -/
theorem exactly_once_fails :
    ¬ ∀ (envs env : Platform) (l : ExtraLink) (events : List LinkEvent), l.Started →
      AlongOk (step envs env) InOrder l events →
      AlongOk (step envs env) (ExactlyOnce env) l events := by
  intro h
  have hrun := h hashingPlatform hashingPlatform sample
    (issue .ping 1 ++ [arrives 0, .sender (2, .packet { seq := 1, ackSeq := 1 } 1)] ++
      issue .ping 1 ++ [arrives 1]) sample_started (by decide +kernel)
  revert hrun
  decide +kernel

end ExtraLink

end Tgvoip
