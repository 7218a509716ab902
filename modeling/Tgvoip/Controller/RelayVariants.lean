import Tgvoip.Lib.Derived
import Tgvoip.Controller.TcpFallback

/-!
# RelayVariants — TCP relays and IPv6 relays in either order

`AddTCPRelays` derives a TCP relay from each UDP relay of the table,
`AddIPv6Relays` an IPv6-only endpoint from each relay that has both
addresses; each also derives from what the other has added. `facts` is
what the table says of an endpoint apart from its measurements, `entries`
the table as a set of keys and facts. On that level both functions are a
`Derived.grow` (`entries_addTCPRelays`, `entries_addIPv6Relays`), as long
as no derived id meets a key or an id that is there (`FreeOf`), and the
two derivations commute.
-/

namespace Tgvoip

open ByteReader Fallible Derived

/-- What the table says of an endpoint, apart from what was measured. -/
structure EndpointFacts where
  id : Int64
  port : UInt16
  address : NetworkAddress
  v6address : NetworkAddress
  type : EndpointType
  peerTag : Bytes
  deriving DecidableEq

namespace EndpointFacts

variable (v : EndpointFacts)

def tcp : EndpointFacts := { v with type := .tcpRelay, id := v.id ^^^ EndpointID.tcp }

def ipv6 : EndpointFacts := { v with address := .empty, id := v.id ^^^ EndpointID.ipv6 }

def IsUdpRelay : Prop := v.type = .udpRelay

/-- A relay with addresses of both kinds. -/
def IsDual : Prop :=
  (v.type = .udpRelay ∨ v.type = .tcpRelay) ∧ v.v6address.isEmpty = false ∧
    v.address.isEmpty = false

theorem tcp_ipv6 : v.ipv6.tcp = v.tcp.ipv6 := by
  simp only [tcp, ipv6, mk.injEq, and_self, and_true]
  rw [Int64.xor_assoc, Int64.xor_comm EndpointID.ipv6, Int64.xor_assoc]

theorem isUdpRelay_ipv6 : v.ipv6.IsUdpRelay ↔ v.IsUdpRelay := Iff.rfl

theorem isDual_tcp (h : v.IsUdpRelay) : v.tcp.IsDual ↔ v.IsDual := by
  unfold IsUdpRelay at h
  simp [IsDual, tcp, h]

end EndpointFacts

namespace Endpoint

def facts (e : Endpoint) : EndpointFacts :=
  { id := e.id, port := e.port, address := e.address, v6address := e.v6address, type := e.type
    peerTag := e.peerTag }

theorem facts_tcpRelay (e : Endpoint) : e.tcpRelay.facts = e.facts.tcp := rfl

theorem facts_ipv6Relay (e : Endpoint) : e.ipv6Relay.facts = e.facts.ipv6 := rfl

end Endpoint

/-- What stands in the table: an id and what is known of the endpoint. -/
abbrev Entry := Int64 × EndpointFacts

namespace Endpoints

variable {m : Endpoints} {rs : List Endpoint}

def entries (m : Endpoints) : Set Entry :=
  {p | (m.at? p.1).map Endpoint.facts = some p.2}

theorem mem_entries {p : Entry} :
    p ∈ m.entries ↔ ∃ e, m.at? p.1 = some e ∧ e.facts = p.2 := Option.map_eq_some_iff

/-- Two tables say the same of every id. -/
def SameFacts (m m' : Endpoints) : Prop :=
  ∀ key, (m.at? key).map Endpoint.facts = (m'.at? key).map Endpoint.facts

theorem sameFacts_of_entries {m' : Endpoints} (h : m.entries = m'.entries) : m.SameFacts m' := by
  intro key
  apply Option.ext
  intro v
  exact Set.ext_iff.mp h (key, v)

theorem entries_map {f : Endpoint → Endpoint} (hf : ∀ e, (f e).facts = e.facts) :
    entries (m.map fun x => (x.1, f x.2)) = m.entries := by
  ext p
  have hcomp : Endpoint.facts ∘ f = Endpoint.facts := funext hf
  rw [entries, entries, Set.mem_ofPred_eq, Set.mem_ofPred_eq, at?_map, Option.map_map, hcomp]

/-- In order, the entries are those of the list. -/
theorem Ordered.mem_entries (h : m.Ordered) {p : Entry} :
    p ∈ m.entries ↔ ∃ x ∈ m, x.1 = p.1 ∧ x.2.facts = p.2 := by
  rw [Endpoints.mem_entries]
  constructor
  · rintro ⟨e, he, hfacts⟩
    exact ⟨(p.1, e), mem_of_at?_eq_some he, rfl, hfacts⟩
  · rintro ⟨x, hx, hkey, hfacts⟩
    exact ⟨x.2, hkey ▸ h.at?_of_mem hx, hfacts⟩

theorem Ordered.insertAll (h : m.Ordered) (rs : List Endpoint) : (m.insertAll rs).Ordered := by
  induction rs generalizing m with
  | nil => exact h
  | cons r rs ih => exact ih (h.set r.id r)

theorem Has.insertAll {key : Int64} (h : m.Has key) (rs : List Endpoint) :
    (m.insertAll rs).Has key := by
  induction rs generalizing m with
  | nil => exact h
  | cons r rs ih => exact ih ((has_set r.id r key).mpr (.inr h))

/-- Insertions under new ids only add. -/
theorem entries_insertAll (hnew : ∀ r ∈ rs, m.at? r.id = none)
    (hdist : rs.Pairwise fun r s => r.id ≠ s.id) :
    (m.insertAll rs).entries = m.entries ∪ {p | ∃ r ∈ rs, (r.id, r.facts) = p} := by
  induction rs generalizing m with
  | nil => simp [insertAll]
  | cons r rs ih =>
      obtain ⟨hr, hrs⟩ := List.pairwise_cons.mp hdist
      have hstill : ∀ s ∈ rs, (m.set r.id r).at? s.id = none := fun s hs => by
        rw [at?_set, if_neg (hr s hs)]
        exact hnew s (List.mem_cons_of_mem r hs)
      have hfresh := hnew r List.mem_cons_self
      have hset : (m.set r.id r).entries = m.entries ∪ {(r.id, r.facts)} := by
        ext p
        rw [Set.mem_union, mem_entries, mem_entries, at?_set, Set.mem_singleton_iff]
        by_cases hid : r.id = p.1
        · rw [← hid, hfresh]
          simp [hid, Prod.ext_iff, eq_comm]
        · simp [hid, Prod.ext_iff, Ne.symm hid]
      have hunfold : m.insertAll (r :: rs) = (m.set r.id r).insertAll rs := rfl
      rw [hunfold, ih hstill hrs, hset, Set.union_assoc]
      congr 1
      ext p
      simp [eq_comm]

end Endpoints

/-! ## Ids that stay distinct -/

/-- No id under XOR with `a` is a key, and the ids are distinct. -/
structure FreeOf (a : Int64) (S : Set Entry) : Prop where
  keys : ∀ p ∈ S, ∀ q ∈ S, q.2.id ^^^ a ≠ p.1
  ids : ∀ p ∈ S, ∀ q ∈ S, p.2.id = q.2.id → p = q

/-- **Ids that stay distinct** under XOR with `a`, with `b` and with both. -/
structure Spread (a b : Int64) (S : Set Entry) : Prop where
  keys : ∀ c ∈ [a, b, a ^^^ b], ∀ p ∈ S, ∀ q ∈ S, q.2.id ^^^ c ≠ p.1
  marks : ∀ c ∈ [a, b, a ^^^ b], ∀ p ∈ S, ∀ q ∈ S, q.2.id ^^^ c ≠ p.2.id
  ids : ∀ p ∈ S, ∀ q ∈ S, p.2.id = q.2.id → p = q

/-- The entry that is derived from another: it stands under its own id. -/
def derive (f : EndpointFacts → EndpointFacts) (p : Entry) : Entry := ((f p.2).id, f p.2)

/-- The entries with what `f` derives from those with `P`. -/
def growFacts (P : EndpointFacts → Prop) (f : EndpointFacts → EndpointFacts) (S : Set Entry) :
    Set Entry :=
  grow (fun p => P p.2) (derive f) S

section
variable {a b : Int64} {S : Set Entry} {P : EndpointFacts → Prop}
  {f : EndpointFacts → EndpointFacts}

theorem Spread.symm (h : Spread a b S) : Spread b a S := by
  have hmem : ∀ c, c ∈ [b, a, b ^^^ a] → c ∈ [a, b, a ^^^ b] := fun c hc => by
    rw [Int64.xor_comm b a] at hc
    simp only [List.mem_cons, List.not_mem_nil, or_false] at hc ⊢
    tauto
  exact ⟨fun c hc => h.keys c (hmem c hc), fun c hc => h.marks c (hmem c hc), h.ids⟩

theorem Spread.freeOf (h : Spread a b S) : FreeOf a S := ⟨h.keys a (by simp), h.ids⟩

theorem xor_xor_cancel (x y a b : Int64) : x ^^^ b = y ^^^ a ↔ x ^^^ (a ^^^ b) = y := by
  rw [← Int64.xor_left_inj a]
  simp only [Int64.xor_assoc, Int64.xor_self, Int64.xor_zero, Int64.xor_comm a b]

/-- Deriving under one mark leaves the ids free of the other. -/
theorem Spread.grow (h : Spread a b S) (hf : ∀ v, (f v).id = v.id ^^^ a) :
    FreeOf b (growFacts P f S) := by
  have ha : a ∈ [a, b, a ^^^ b] := by simp
  have hb : b ∈ [a, b, a ^^^ b] := by simp
  have hab : a ^^^ b ∈ [a, b, a ^^^ b] := by simp
  constructor
  · intro p hp q hq
    rcases mem_grow.mp hp with hp | ⟨p₁, hp₁, -, rfl⟩ <;>
      rcases mem_grow.mp hq with hq | ⟨q₁, hq₁, -, rfl⟩
    · exact h.keys b hb p hp q hq
    · simp only [derive, hf, Int64.xor_assoc]
      exact h.keys _ hab p hp q₁ hq₁
    · simp only [derive, hf, ne_eq, xor_xor_cancel]
      exact h.marks _ hab p₁ hp₁ q hq
    · have hmark := h.marks b hb p₁ hp₁ q₁ hq₁
      simp only [derive, hf, Int64.xor_assoc, Int64.xor_comm a b]
      rwa [← Int64.xor_assoc, Ne, Int64.xor_left_inj]
  · intro p hp q hq hid
    rcases mem_grow.mp hp with hp | ⟨p₁, hp₁, -, rfl⟩ <;>
      rcases mem_grow.mp hq with hq | ⟨q₁, hq₁, -, rfl⟩
    · exact h.ids p hp q hq hid
    · simp only [derive, hf] at hid
      exact absurd hid.symm (h.marks a ha p hp q₁ hq₁)
    · simp only [derive, hf] at hid
      exact absurd hid (h.marks a ha q hq p₁ hp₁)
    · simp only [derive, hf, Int64.xor_left_inj] at hid
      rw [h.ids p₁ hp₁ q₁ hq₁ hid]

end

namespace Endpoints

variable {m m' : Endpoints} {sel : Endpoint → Bool} {mk : Endpoint → Endpoint}
  {P : EndpointFacts → Prop} {f : EndpointFacts → EndpointFacts} {a : Int64}

/-- **What is derived from a table** and inserted into one of the same entries. -/
theorem entries_derived (hsame : m'.entries = m.entries) (hord : m.Ordered) (hfree : FreeOf a m.entries)
    (hsel : ∀ e, sel e = true ↔ P e.facts) (hmk : ∀ e, (mk e).facts = f e.facts)
    (hid : ∀ v, (f v).id = v.id ^^^ a) :
    (m'.insertAll ((m.filter fun x => sel x.2).map fun x => mk x.2)).entries =
      growFacts P f m.entries := by
  have hmem : ∀ x ∈ m, ((x.1, x.2.facts) : Entry) ∈ m.entries := fun x hx =>
    hord.mem_entries.mpr ⟨x, hx, rfl, rfl⟩
  have hmkid : ∀ e, (mk e).id = e.facts.id ^^^ a := fun e =>
    (congrArg EndpointFacts.id (hmk e)).trans (hid e.facts)
  have hnew : ∀ r ∈ (m.filter fun x => sel x.2).map fun x => mk x.2, m'.at? r.id = none := by
    intro r hr
    obtain ⟨x, hx, rfl⟩ := List.mem_map.mp hr
    rw [Option.eq_none_iff_forall_ne_some]
    intro e he
    have hkey : ((mk x.2).id, e.facts) ∈ m.entries := hsame ▸ mem_entries.mpr ⟨e, he, rfl⟩
    exact hfree.keys _ hkey _ (hmem x (List.mem_of_mem_filter hx)) (hmkid x.2).symm
  have hdist : ((m.filter fun x => sel x.2).map fun x => mk x.2).Pairwise
      fun r s => r.id ≠ s.id := by
    rw [List.pairwise_map]
    refine (List.Pairwise.filter _ hord).imp_of_mem ?_
    intro x y hx hy hlt heq
    rw [hmkid, hmkid, Int64.xor_left_inj] at heq
    have hsame := hfree.ids _ (hmem x (List.mem_of_mem_filter hx)) _
      (hmem y (List.mem_of_mem_filter hy)) heq
    rw [Prod.mk.injEq] at hsame
    exact Int64.lt_irrefl (hsame.1 ▸ hlt)
  rw [entries_insertAll hnew hdist, hsame]
  ext p
  rw [growFacts, mem_grow, Set.mem_union, Set.mem_ofPred_eq]
  refine or_congr_right ⟨?_, ?_⟩
  · rintro ⟨r, hr, rfl⟩
    obtain ⟨x, hx, rfl⟩ := List.mem_map.mp hr
    obtain ⟨hx, hs⟩ := List.mem_filter.mp hx
    refine ⟨_, hmem x hx, (hsel x.2).mp hs, ?_⟩
    rw [derive, ← hmk]
    rfl
  · rintro ⟨q, hq, hP, rfl⟩
    obtain ⟨x, hx, hkey, hfacts⟩ := hord.mem_entries.mp hq
    refine ⟨mk x.2, List.mem_map.mpr ⟨x, List.mem_filter.mpr ⟨hx, ?_⟩, rfl⟩, ?_⟩
    · rw [hsel, hfacts]
      exact hP
    · rw [derive, ← hfacts, ← hmk]
      rfl

/-- **Ids that stay distinct** under XOR with the markers of TCP and IPv6. -/
def StaysDistinct (m : Endpoints) : Prop := Spread EndpointID.tcp EndpointID.ipv6 m.entries

/-- In a table by id, keys that are not one another's marked ids are enough. -/
theorem staysDistinct_of_named (hord : m.Ordered) (hname : m.Named)
    (h : ∀ c ∈ [EndpointID.tcp, EndpointID.ipv6, EndpointID.tcp ^^^ EndpointID.ipv6],
      ∀ x ∈ m, ∀ y ∈ m, y.1 ^^^ c ≠ x.1) : m.StaysDistinct := by
  have hid : ∀ p ∈ m.entries, p.2.id = p.1 ∧ ∃ x ∈ m, x.1 = p.1 := fun p hp => by
    obtain ⟨x, hx, hkey, hfacts⟩ := hord.mem_entries.mp hp
    refine ⟨?_, x, hx, hkey⟩
    rw [← hfacts, ← hkey]
    exact hname x hx
  have hkeys : ∀ c ∈ [EndpointID.tcp, EndpointID.ipv6, EndpointID.tcp ^^^ EndpointID.ipv6],
      ∀ p ∈ m.entries, ∀ q ∈ m.entries, q.2.id ^^^ c ≠ p.1 := fun c hc p hp q hq => by
    obtain ⟨-, x, hx, hpx⟩ := hid p hp
    obtain ⟨hqid, y, hy, hqy⟩ := hid q hq
    rw [hqid, ← hpx, ← hqy]
    exact h c hc x hx y hy
  refine ⟨hkeys, fun c hc p hp q hq => ?_, fun p hp q hq heq => ?_⟩
  · rw [(hid p hp).1]
    exact hkeys c hc p hp q hq
  · have hkey : p.1 = q.1 := by rw [← (hid p hp).1, ← (hid q hq).1, heq]
    rw [entries, Set.mem_ofPred_eq] at hp hq
    rw [← hkey, hp] at hq
    exact Prod.ext hkey (Option.some.inj hq)

end Endpoints

/-! ## The two functions -/

namespace Controller

variable {c c' : Controller}

/-- The relays that `AddIPv6Relays` has to add. -/
def newIPv6Relays (c : Controller) : List Endpoint :=
  (c.endpoints.filter fun e =>
    e.2.isReflector && !e.2.v6address.isEmpty && !e.2.address.isEmpty).map (·.2.ipv6Relay)

/-- Any set of entries as `AddTCPRelays` leaves it. -/
def growTcp (S : Set Entry) : Set Entry := growFacts EndpointFacts.IsUdpRelay EndpointFacts.tcp S

/-- Any set of entries as `AddIPv6Relays` leaves it. -/
def growIPv6 (S : Set Entry) : Set Entry := growFacts EndpointFacts.IsDual EndpointFacts.ipv6 S

theorem grow_tcp_ipv6 (S : Set Entry) : growTcp (growIPv6 S) = growIPv6 (growTcp S) := by
  apply grow_comm
  · intro p _ _
    simp only [derive, EndpointFacts.tcp_ipv6]
  · exact fun p _ => p.2.isUdpRelay_ipv6
  · exact fun p hp => p.2.isDual_tcp hp

theorem isUdpRelay_iff (e : Endpoint) : (e.type == .udpRelay) = true ↔ e.facts.IsUdpRelay :=
  beq_iff_eq

theorem isDual_iff (e : Endpoint) :
    (e.isReflector && !e.v6address.isEmpty && !e.address.isEmpty) = true ↔ e.facts.IsDual := by
  simp [Endpoint.isReflector, EndpointFacts.IsDual, Endpoint.facts, and_assoc]

theorem entries_addIPv6Relays (hv6 : c.myIPv6.isEmpty = false) (hord : c.endpoints.Ordered)
    (hfree : FreeOf EndpointID.ipv6 c.endpoints.entries) :
    c.addIPv6Relays.endpoints.entries =
      if c.didAddIPv6Relays then c.endpoints.entries else growIPv6 c.endpoints.entries := by
  unfold addIPv6Relays
  cases hdid : c.didAddIPv6Relays with
  | true => simp
  | false =>
      simp only [hv6, Bool.not_false, Bool.and_self, if_true, Bool.false_eq_true, if_false]
      exact Endpoints.entries_derived rfl hord hfree isDual_iff Endpoint.facts_ipv6Relay
        fun _ => rfl

theorem addIPv6Relays_ordered (hord : c.endpoints.Ordered) :
    c.addIPv6Relays.endpoints.Ordered := by
  unfold addIPv6Relays
  split
  · exact hord.insertAll _
  · exact hord

theorem facts_resetUdpRelay (e : Endpoint) : (resetUdpRelay e).facts = e.facts := by
  unfold resetUdpRelay
  split <;> rfl

theorem entries_beforeLoop : c.beforeLoop.endpoints.entries = c.endpoints.entries := by
  unfold beforeLoop
  split
  · exact Endpoints.entries_map facts_resetUdpRelay
  · rfl

theorem beforeLoop_ordered (hord : c.endpoints.Ordered) : c.beforeLoop.endpoints.Ordered := by
  unfold beforeLoop
  split
  · exact hord.map fun x => resetUdpRelay x.2
  · exact hord

/-- The loop leaves the table and the flags of the relays alone. -/
structure SameTable (c c' : Controller) : Prop where
  endpoints : c'.endpoints = c.endpoints
  myIPv6 : c'.myIPv6 = c.myIPv6
  didAddIPv6Relays : c'.didAddIPv6Relays = c.didAddIPv6Relays

theorem pointToTCP_sameTable {relays : List Endpoint} (h : relays.foldlM pointToTCP c = .ok c') :
    SameTable c c' := by
  refine foldlM_invariant (I := SameTable c) ?_ ⟨rfl, rfl, rfl⟩ h
  intro c₁ r _ c₂ hc₁ h
  unfold pointToTCP at h
  split at h
  · obtain ⟨current, -, h⟩ := bind_eq_ok.mp h
    rw [← pure_eq_ok.mp h]
    split
    · exact ⟨hc₁.endpoints, hc₁.myIPv6, hc₁.didAddIPv6Relays⟩
    · exact hc₁
  · rw [← pure_eq_ok.mp h]
    exact hc₁

theorem beforeLoop_flags : c.beforeLoop.myIPv6 = c.myIPv6 ∧
    c.beforeLoop.didAddIPv6Relays = c.didAddIPv6Relays := by
  unfold beforeLoop
  split <;> exact ⟨rfl, rfl⟩

/-- **What AddTCPRelays leaves.** -/
structure TcpAdded (c c' : Controller) : Prop where
  myIPv6 : c'.myIPv6 = c.myIPv6
  didAddIPv6Relays : c'.didAddIPv6Relays = c.didAddIPv6Relays
  didAddTcpRelays : c'.didAddTcpRelays = true
  ordered : c.endpoints.Ordered → c'.endpoints.Ordered
  entries : c.endpoints.Ordered → FreeOf EndpointID.tcp c.endpoints.entries →
    c'.endpoints.entries =
      if c.didAddTcpRelays then c.endpoints.entries else growTcp c.endpoints.entries

theorem addTCPRelays_added (h : c.addTCPRelays = .ok c') : TcpAdded c c' := by
  unfold addTCPRelays at h
  split at h
  · rename_i hdid
    rw [← pure_eq_ok.mp h]
    exact ⟨rfl, rfl, hdid, id, fun _ _ => by rw [if_pos hdid]⟩
  · rename_i hdid
    obtain ⟨c₁, hloop, h⟩ := bind_eq_ok.mp h
    have hsame : SameTable c.beforeLoop c₁ := pointToTCP_sameTable hloop
    obtain ⟨hv6, hflag⟩ := c.beforeLoop_flags
    rw [← pure_eq_ok.mp h]
    refine ⟨hsame.myIPv6.trans hv6, hsame.didAddIPv6Relays.trans hflag, rfl, ?_, ?_⟩
    · intro hord
      simp only [hsame.endpoints]
      exact (beforeLoop_ordered hord).insertAll _
    · intro hord hfree
      rw [if_neg hdid]
      simp only [hsame.endpoints]
      exact Endpoints.entries_derived entries_beforeLoop hord hfree
        isUdpRelay_iff Endpoint.facts_tcpRelay fun _ => rfl

/-- `AddTCPRelays` does not throw where the current endpoint is known. -/
theorem addTCPRelays_returns
    (h : c.setCurrentEndpointToTCP = true → c.endpoints.Has c.currentEndpoint) :
    ∃ c', c.addTCPRelays = .ok c' := by
  cases hadd : c.didAddTcpRelays with
  | true => exact ⟨c, by simp [addTCPRelays, hadd]; rfl⟩
  | false =>
      obtain ⟨hcurrent, hset, -, -⟩ := c.beforeLoop_same
      have hloop : ∃ c₁, c.newRelays.foldlM pointToTCP c.beforeLoop = .ok c₁ := by
        by_cases htcp : c.beforeLoop.OnTcpRelay
        · exact ⟨_, pointToTCP_of_onTcp _ htcp⟩
        · cases hflag : c.setCurrentEndpointToTCP with
          | false => exact ⟨_, pointToTCP_of_unset (hset.trans hflag)⟩
          | true =>
              cases c.newRelays with
              | nil => exact ⟨_, rfl⟩
              | cons r relays =>
                  obtain ⟨e, he⟩ := h hflag
                  refine ⟨_, pointToTCP_of_set r relays (hset.trans hflag) ?_ htcp⟩
                  rw [hcurrent, typeAt_beforeLoop, Endpoints.typeAt, he]
                  rfl
      obtain ⟨c₁, hloop⟩ := hloop
      exact ⟨_, addTCPRelays_eq_ok hadd hloop⟩

/-! ## Both orders -/

def tcpThenIPv6 (c : Controller) : Except Fault Controller := do
  let c ← c.addTCPRelays
  pure c.addIPv6Relays

def ipv6ThenTcp (c : Controller) : Except Fault Controller := c.addIPv6Relays.addTCPRelays

/-- Calling either function again changes nothing. -/
def Saturated (c : Controller) : Prop := c.addTCPRelays = .ok c ∧ c.addIPv6Relays = c

theorem addTCPRelays_of_did (h : c.didAddTcpRelays = true) : c.addTCPRelays = .ok c := by
  unfold addTCPRelays
  rw [if_pos h]
  rfl

theorem newIPv6Relays_eq_nil (hord : c.endpoints.Ordered) :
    c.newIPv6Relays = [] ↔ ∀ p ∈ c.endpoints.entries, ¬ p.2.IsDual := by
  rw [newIPv6Relays, List.map_eq_nil_iff, List.filter_eq_nil_iff]
  constructor
  · intro h p hp
    obtain ⟨x, hx, -, hfacts⟩ := hord.mem_entries.mp hp
    rw [← hfacts, ← isDual_iff]
    exact h x hx
  · intro h x hx
    rw [isDual_iff]
    exact h (x.1, x.2.facts) (hord.mem_entries.mpr ⟨x, hx, rfl, rfl⟩)

/-- **AddIPv6Relays does nothing** where it has added relays, or has none to add. -/
theorem addIPv6Relays_eq_self (h : c.didAddIPv6Relays = true ∨ c.newIPv6Relays = []) :
    c.addIPv6Relays = c := by
  cases hdid : c.didAddIPv6Relays with
  | true => simp [addIPv6Relays, hdid]
  | false =>
      have hnil : c.newIPv6Relays = [] := h.resolve_left (by simp [hdid])
      unfold newIPv6Relays at hnil
      unfold addIPv6Relays
      split
      · simp only [hnil, List.isEmpty_nil, Bool.not_true]
        rw [← hdid]
        rfl
      · rfl

/-- What it leaves as it was, and what it remembers. -/
theorem addIPv6Relays_flags (hv6 : c.myIPv6.isEmpty = false) :
    c.addIPv6Relays.didAddIPv6Relays = (c.didAddIPv6Relays || !c.newIPv6Relays.isEmpty) ∧
      c.addIPv6Relays.didAddTcpRelays = c.didAddTcpRelays ∧
      c.addIPv6Relays.setCurrentEndpointToTCP = c.setCurrentEndpointToTCP ∧
      c.addIPv6Relays.currentEndpoint = c.currentEndpoint := by
  unfold addIPv6Relays
  cases hdid : c.didAddIPv6Relays with
  | true => simp [hdid]
  | false => simp [hv6, newIPv6Relays]

theorem addIPv6Relays_again (hv6 : c.myIPv6.isEmpty = false) :
    c.addIPv6Relays.addIPv6Relays = c.addIPv6Relays := by
  by_cases h : c.didAddIPv6Relays = true ∨ c.newIPv6Relays = []
  · rw [addIPv6Relays_eq_self h, addIPv6Relays_eq_self h]
  · apply addIPv6Relays_eq_self
    left
    obtain ⟨-, hsome⟩ := not_or.mp h
    rw [(addIPv6Relays_flags hv6).1]
    simp [hsome]

theorem addIPv6Relays_has {key : Int64} (h : c.endpoints.Has key) :
    c.addIPv6Relays.endpoints.Has key := by
  unfold addIPv6Relays
  split
  · exact h.insertAll _
  · exact h

section
variable {c₁ c₂ : Controller}

theorem entries_tcpThenIPv6 (hord : c.endpoints.Ordered) (hd : c.endpoints.StaysDistinct)
    (hv6 : c.myIPv6.isEmpty = false) (h : c.tcpThenIPv6 = .ok c₁) :
    c₁.Saturated ∧ c₁.endpoints.entries =
      (if c.didAddIPv6Relays then id else growIPv6)
        ((if c.didAddTcpRelays then id else growTcp) c.endpoints.entries) := by
  obtain ⟨x, hx, h⟩ := bind_eq_ok.mp h
  rw [← pure_eq_ok.mp h]
  have hadd := addTCPRelays_added hx
  have hxv6 : x.myIPv6.isEmpty = false := by rw [hadd.myIPv6, hv6]
  have hentries := hadd.entries hord hd.freeOf
  have hfree : FreeOf EndpointID.ipv6 x.endpoints.entries := by
    rw [hentries]
    split
    · exact hd.symm.freeOf
    · exact hd.grow fun _ => rfl
  refine ⟨⟨addTCPRelays_of_did ?_, addIPv6Relays_again hxv6⟩, ?_⟩
  · rw [(addIPv6Relays_flags hxv6).2.1, hadd.didAddTcpRelays]
  · rw [entries_addIPv6Relays hxv6 (hadd.ordered hord) hfree, hadd.didAddIPv6Relays, hentries]
    split <;> split <;> rfl

theorem entries_ipv6ThenTcp (hord : c.endpoints.Ordered) (hd : c.endpoints.StaysDistinct)
    (hv6 : c.myIPv6.isEmpty = false) (h : c.ipv6ThenTcp = .ok c₂) :
    c₂.Saturated ∧ c₂.endpoints.entries =
      (if c.didAddTcpRelays then id else growTcp)
        ((if c.didAddIPv6Relays then id else growIPv6) c.endpoints.entries) := by
  have hadd := addTCPRelays_added h
  have hentries := entries_addIPv6Relays hv6 hord hd.symm.freeOf
  have hyord := addIPv6Relays_ordered (c := c) hord
  obtain ⟨hdid, hdidTcp, -, -⟩ := addIPv6Relays_flags hv6
  have hfree : FreeOf EndpointID.tcp c.addIPv6Relays.endpoints.entries := by
    rw [hentries]
    split
    · exact hd.freeOf
    · exact hd.symm.grow fun _ => rfl
  have hresult := hadd.entries hyord hfree
  refine ⟨⟨addTCPRelays_of_did hadd.didAddTcpRelays, addIPv6Relays_eq_self ?_⟩, ?_⟩
  · rw [hadd.didAddIPv6Relays]
    by_cases hnone : c.didAddIPv6Relays = true ∨ c.newIPv6Relays = []
    · cases hflag : c.didAddIPv6Relays with
      | true => exact .inl (by rw [hdid, hflag, Bool.true_or])
      | false =>
          -- no relay had both addresses, and a TCP relay has those of its UDP relay
          have hnil : c.newIPv6Relays = [] := hnone.resolve_left (by simp [hflag])
          have hnodual := (newIPv6Relays_eq_nil hord).mp hnil
          right
          rw [newIPv6Relays_eq_nil (hadd.ordered hyord), hresult, addIPv6Relays_eq_self hnone]
          intro p hp hdual
          have hex : ∃ p ∈ c.endpoints.entries, p.2.IsDual := by
            split at hp
            · exact ⟨p, hp, hdual⟩
            · exact (exists_mem_grow (Q := fun p : Entry => p.2.IsDual)
                fun q hq => q.2.isDual_tcp hq).mp ⟨p, hp, hdual⟩
          obtain ⟨q, hq, hdual⟩ := hex
          exact hnodual q hq hdual
    · obtain ⟨-, hsome⟩ := not_or.mp hnone
      exact .inl (by rw [hdid]; simp [hsome])
  · rw [hresult, hdidTcp, hentries]
    split <;> split <;> rfl

end

/-- **The order of adding relay variants does not matter.** In a table whose
ids stay distinct, and with a known local IPv6 address, both orders give
the same table, and neither function changes it any more; neither order
throws where the current endpoint is known or not to be replaced. -/
theorem relay_variants_commute (hord : c.endpoints.Ordered) (hd : c.endpoints.StaysDistinct)
    (hv6 : c.myIPv6.isEmpty = false) :
    (∀ c₁ c₂, c.tcpThenIPv6 = .ok c₁ → c.ipv6ThenTcp = .ok c₂ →
      c₁.endpoints.SameFacts c₂.endpoints ∧ c₁.Saturated ∧ c₂.Saturated) ∧
    ((c.setCurrentEndpointToTCP = true → c.endpoints.Has c.currentEndpoint) →
      (∃ c₁, c.tcpThenIPv6 = .ok c₁) ∧ ∃ c₂, c.ipv6ThenTcp = .ok c₂) := by
  refine ⟨fun c₁ c₂ h₁ h₂ => ?_, fun hcurrent => ⟨?_, ?_⟩⟩
  · obtain ⟨hsat₁, hentries₁⟩ := entries_tcpThenIPv6 hord hd hv6 h₁
    obtain ⟨hsat₂, hentries₂⟩ := entries_ipv6ThenTcp hord hd hv6 h₂
    refine ⟨Endpoints.sameFacts_of_entries ?_, hsat₁, hsat₂⟩
    rw [hentries₁, hentries₂]
    cases c.didAddIPv6Relays <;> cases c.didAddTcpRelays
    · exact (grow_tcp_ipv6 _).symm
    · rfl
    · rfl
    · rfl
  · obtain ⟨x, hx⟩ := addTCPRelays_returns hcurrent
    exact ⟨_, bind_eq_ok.mpr ⟨x, hx, rfl⟩⟩
  · obtain ⟨-, -, hset, hcur⟩ := addIPv6Relays_flags (c := c) hv6
    refine addTCPRelays_returns fun h => ?_
    rw [hcur]
    exact addIPv6Relays_has (hcurrent (hset.symm.trans h))

/-- A network address of the second kind. -/
def sampleV6 (last : UInt8) : NetworkAddress := .ipv6 ⟨List.replicate 15 0 ++ [last], rfl⟩

/-- Relays of both kinds, with and without an IPv6 address, and the peer itself. -/
def mixedTable : Endpoints :=
  [(1, { id := 1, address := .ipv4 10, v6address := sampleV6 1, type := .udpRelay }),
    (2, { id := 2, address := .ipv4 20, v6address := sampleV6 2, type := .tcpRelay }),
    (3, { id := 3, address := .ipv4 30, type := .udpRelay }),
    (EndpointID.p2pv4, { id := EndpointID.p2pv4, address := .ipv4 40, type := .udpP2PInet })]

/-- A controller with these that is to go to TCP. -/
def withMixedTable : Controller :=
  { (MessageThread.unconnected samplePlatform).c with
    endpoints := mixedTable, currentEndpoint := 1, myIPv6 := sampleV6 9
    setCurrentEndpointToTCP := true }

theorem relay_variants_commute_mixed :
    ∃ c₁ c₂, withMixedTable.tcpThenIPv6 = .ok c₁ ∧ withMixedTable.ipv6ThenTcp = .ok c₂ ∧
      c₁.endpoints.SameFacts c₂.endpoints ∧ c₁.Saturated ∧ c₂.Saturated := by
  have hord : mixedTable.Ordered := by
    simp only [Endpoints.Ordered, mixedTable]
    decide
  have hd : mixedTable.StaysDistinct := by
    refine Endpoints.staysDistinct_of_named hord ?_ ?_
    · simp only [Endpoints.Named, mixedTable, List.forall_mem_cons, List.not_mem_nil,
        IsEmpty.forall_iff, implies_true, and_true]
    · have hall : ([EndpointID.tcp, EndpointID.ipv6, EndpointID.tcp ^^^ EndpointID.ipv6].all
          fun c => mixedTable.all fun x => mixedTable.all fun y => y.1 ^^^ c != x.1) = true := by
        decide
      simpa only [List.all_eq_true, bne_iff_ne] using hall
  obtain ⟨hsame, hreturns⟩ := relay_variants_commute (c := withMixedTable) hord hd rfl
  obtain ⟨⟨c₁, h₁⟩, c₂, h₂⟩ := hreturns fun _ => ⟨_, rfl⟩
  exact ⟨c₁, c₂, h₁, h₂, hsame c₁ c₂ h₁ h₂⟩

end Controller
end Tgvoip
