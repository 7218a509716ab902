import Tgvoip.Packets.PacketManager
import Tgvoip.Tools.HistoricBuffer
import Tgvoip.Lib.ByteReader

/-!
# Endpoint — where packets are sent to, and the table of endpoints

`controller/net/Endpoint.{h,cpp}`, with the addresses of `NetworkSocket.h`.
The controller keeps its endpoints in a `std::map` by id. The key of an
entry and the `id` field of its endpoint are two things: assigning one
endpoint to another (`_currentEndpoint = srcEndpoint`) changes the field
under the same key.
-/

namespace Tgvoip

open ByteReader

inductive NetworkAddress where
  | ipv4 (addr : UInt32)
  | ipv6 (addr : { bs : Bytes // bs.length = 16 })
  deriving DecidableEq, Repr

namespace NetworkAddress

/-- `NetworkAddress::Empty`. -/
def empty : NetworkAddress := ipv4 0

def isEmpty : NetworkAddress → Bool
  | ipv4 addr => addr == 0
  | ipv6 addr => addr.val.all (· == 0)

end NetworkAddress

inductive EndpointType where
  | udpP2PInet
  | udpP2PLan
  | udpRelay
  | tcpRelay
  deriving DecidableEq, Repr

namespace EndpointID

/-- `FOURCC(a, b, c, d) << 32` for the four ids an endpoint can be known by. -/
def fourCC (a b c d : UInt8) : Int64 :=
  ((a.toUInt64 <<< 24 ||| b.toUInt64 <<< 16 ||| c.toUInt64 <<< 8 ||| d.toUInt64) <<< 32).toInt64

def p2pv4 : Int64 := fourCC 0x50 0x32 0x50 0x34
def lanv4 : Int64 := fourCC 0x4C 0x41 0x4E 0x34
def p2pv6 : Int64 := fourCC 0x50 0x32 0x50 0x36

end EndpointID

/-- The round trip times of an endpoint that was never pinged. -/
def noRtts : HistoricBuffer Time 6 := .new

structure Endpoint where
  id : Int64
  port : UInt16 := 0
  address : NetworkAddress := .empty
  v6address : NetworkAddress := .empty
  type : EndpointType
  peerTag : Bytes := List.replicate 16 0
  lastPingTime : Time := 0
  lastPingSeq : UInt32 := 0
  rtts : HistoricBuffer Time 6 := noRtts
  averageRTT : Time := 0
  /-- The TCP socket, if there is one, and whether it is ready to send. -/
  socket : Option Bool := none
  /-- The replies to UDP pings. -/
  udpPongCount : ℕ := 0
  /-- History: all that was ever added to `rtts`. -/
  samples : List Time := []

namespace Endpoint

def isIPv6Only (e : Endpoint) : Bool := e.address.isEmpty && !e.v6address.isEmpty

def getAddress (e : Endpoint) : NetworkAddress := if e.isIPv6Only then e.v6address else e.address

def isP2P (e : Endpoint) : Bool := e.type == .udpP2PInet || e.type == .udpP2PLan

def isReflector (e : Endpoint) : Bool := e.type == .udpRelay || e.type == .tcpRelay

/-- One entry of `ResetEndpointPingStats`. -/
def resetPingStats (e : Endpoint) : Endpoint := { e with averageRTT := 0, rtts := e.rtts.reset }

end Endpoint

/-- `std::map<int64_t, Endpoint>`: the entries in the order of their keys. -/
abbrev Endpoints := List (Int64 × Endpoint)

namespace Endpoints

def at? (m : Endpoints) (id : Int64) : Option Endpoint := (m.find? (·.1 == id)).map (·.2)

/-- `endpoints[id] = e`. -/
def set (m : Endpoints) (id : Int64) (e : Endpoint) : Endpoints :=
  match m with
  | [] => [(id, e)]
  | (key, old) :: m =>
    if id = key then (id, e) :: m
    else if id < key then (id, e) :: (key, old) :: m
    else (key, old) :: set m id e

/-- `endpoints.erase(id)`. -/
def erase (m : Endpoints) (id : Int64) : Endpoints := m.filter (·.1 != id)

/-- Every entry is an old one or the one just set. -/
theorem mem_set {m : Endpoints} {id : Int64} {e : Endpoint} {x : Int64 × Endpoint}
    (h : x ∈ m.set id e) : x = (id, e) ∨ x ∈ m := by
  induction m with
  | nil => exact .inl (List.mem_singleton.mp h)
  | cons y m ih =>
      rw [set] at h
      split at h
      · exact (List.mem_cons.mp h).imp_right (List.mem_cons_of_mem _)
      · split at h
        · exact List.mem_cons.mp h
        · rcases List.mem_cons.mp h with h | h
          · exact .inr (h ▸ List.mem_cons_self)
          · exact (ih h).imp_right (List.mem_cons_of_mem _)

theorem mem_of_at?_eq_some {m : Endpoints} {id : Int64} {e : Endpoint} (h : m.at? id = some e) :
    (id, e) ∈ m := by
  obtain ⟨⟨key, e'⟩, hfind, rfl⟩ := Option.map_eq_some_iff.mp h
  have hkey : key = id := by simpa using List.find?_some hfind
  exact hkey ▸ List.mem_of_find?_eq_some hfind

theorem mem_of_at? {m : Endpoints} {id : Int64} {e : Endpoint} (h : m.at? id = some e) :
    ∃ key, (key, e) ∈ m := ⟨id, mem_of_at?_eq_some h⟩

theorem at?_cons (key : Int64) (old : Endpoint) (m : Endpoints) (id : Int64) :
    at? ((key, old) :: m) id = if key = id then some old else m.at? id := by
  unfold at?
  by_cases h : key = id
  · simp [h]
  · simp [h]

theorem at?_set (m : Endpoints) (id : Int64) (e : Endpoint) (id' : Int64) :
    (m.set id e).at? id' = if id = id' then some e else m.at? id' := by
  induction m with
  | nil => exact at?_cons id e [] id'
  | cons x m ih =>
      obtain ⟨key, old⟩ := x
      rw [set]
      split
      · rename_i h
        subst h
        rw [at?_cons, at?_cons]
        split <;> rfl
      · rename_i h
        split
        · rw [at?_cons]
        · rw [at?_cons, at?_cons, ih]
          by_cases hid : id = id'
          · subst hid
            simp only [if_true, ite_eq_right_iff]
            exact fun h' => absurd h'.symm h
          · simp [hid]

theorem at?_map (m : Endpoints) (f : Endpoint → Endpoint) (id : Int64) :
    at? (m.map fun x => (x.1, f x.2)) id = (m.at? id).map f := by
  induction m with
  | nil => rfl
  | cons x m ih =>
      obtain ⟨key, e⟩ := x
      rw [List.map_cons, at?_cons, at?_cons, ih]
      split <;> rfl

theorem at?_erase (m : Endpoints) (id id' : Int64) :
    (m.erase id).at? id' = if id = id' then none else m.at? id' := by
  induction m with
  | nil => simp [erase, at?]
  | cons x m ih =>
      obtain ⟨key, e⟩ := x
      unfold erase at ih ⊢
      rw [List.filter_cons, at?_cons]
      by_cases hkey : key = id
      · subst hkey
        rw [if_neg (by simp), ih]
        split
        · rfl
        · rfl
      · rw [if_pos (by simpa using hkey), at?_cons, ih]
        by_cases hid : id = id'
        · have hne : key ≠ id' := fun h => hkey (h.trans hid.symm)
          simp only [if_pos hid, if_neg hne]
        · simp only [if_neg hid]

/-! ## A table in order, and its keys -/

variable {m : Endpoints} {id key : Int64} {e : Endpoint}

/-- The entries stand in the order of their keys, each key once. -/
def Ordered (m : Endpoints) : Prop := m.Pairwise fun x y => x.1 < y.1

/-- Every entry stands under its id. -/
def Named (m : Endpoints) : Prop := ∀ x ∈ m, x.2.id = x.1

/-- `endpoints.at(key)` does not throw. -/
def Has (m : Endpoints) (key : Int64) : Prop := ∃ e, m.at? key = some e

/-- The type of the entry under a key. -/
def typeAt (m : Endpoints) (key : Int64) : Option EndpointType := (m.at? key).map (·.type)

theorem Ordered.set (h : m.Ordered) (id : Int64) (e : Endpoint) : (m.set id e).Ordered := by
  induction m with
  | nil => exact List.pairwise_singleton _ _
  | cons x m ih =>
      obtain ⟨key, old⟩ := x
      obtain ⟨hkey, hm⟩ := List.pairwise_cons.mp h
      rw [Endpoints.set]
      split
      · rename_i heq
        exact List.pairwise_cons.mpr ⟨fun y hy => heq ▸ hkey y hy, hm⟩
      · rename_i hne
        split
        · rename_i hlt
          refine List.pairwise_cons.mpr ⟨?_, h⟩
          intro y hy
          rcases List.mem_cons.mp hy with rfl | hy
          · exact hlt
          · exact Int64.lt_trans hlt (hkey y hy)
        · rename_i hge
          refine List.pairwise_cons.mpr ⟨?_, ih hm⟩
          intro y hy
          rcases mem_set hy with rfl | hy
          · exact (Int64.lt_or_lt_of_ne hne).resolve_left hge
          · exact hkey y hy

theorem Ordered.erase (h : m.Ordered) (id : Int64) : (m.erase id).Ordered := List.Pairwise.filter _ h

theorem Ordered.map (h : m.Ordered) (f : Int64 × Endpoint → Endpoint) :
    Ordered (m.map fun x => (x.1, f x)) := List.pairwise_map.mpr h

/-- In order, an entry is the one that is found under its key. -/
theorem Ordered.at?_of_mem (h : m.Ordered) {x : Int64 × Endpoint} (hx : x ∈ m) :
    m.at? x.1 = some x.2 := by
  induction m with
  | nil => cases hx
  | cons y m ih =>
      obtain ⟨hy, hm⟩ := List.pairwise_cons.mp h
      rw [at?_cons]
      rcases List.mem_cons.mp hx with rfl | hx
      · exact if_pos rfl
      · have hlt := hy x hx
        have hne : y.1 ≠ x.1 := fun heq => Int64.lt_irrefl (heq ▸ hlt)
        rw [if_neg hne, ih hm hx]

theorem named_set (h : m.Named) (hid : e.id = id) : (m.set id e).Named := by
  intro x hx
  rcases mem_set hx with rfl | hx
  · exact hid
  · exact h x hx

theorem named_erase (h : m.Named) (id : Int64) : (m.erase id).Named :=
  fun x hx => h x (List.mem_of_mem_filter hx)

theorem named_map (h : m.Named) (f : Int64 × Endpoint → Endpoint) (hf : ∀ x, (f x).id = x.2.id) :
    Named (m.map fun x => (x.1, f x)) := by
  intro y hy
  obtain ⟨x, hx, rfl⟩ := List.mem_map.mp hy
  exact (hf x).trans (h x hx)

theorem Named.id_eq (h : m.Named) (he : m.at? key = some e) : e.id = key :=
  h (key, e) (mem_of_at?_eq_some he)

@[simp] theorem has_set (id : Int64) (e : Endpoint) (key : Int64) :
    (m.set id e).Has key ↔ id = key ∨ m.Has key := by
  unfold Has
  rw [at?_set]
  by_cases h : id = key
  · simp [h]
  · simp [h]

@[simp] theorem has_erase (id key : Int64) : (m.erase id).Has key ↔ id ≠ key ∧ m.Has key := by
  unfold Has
  rw [at?_erase]
  by_cases h : id = key
  · simp [h]
  · simp [h]

theorem has_iff_mem : m.Has key ↔ key ∈ m.map (·.1) := by
  induction m with
  | nil => simp [Has, at?]
  | cons x m ih =>
      unfold Has at ih ⊢
      rw [at?_cons, List.map_cons, List.mem_cons, ← ih]
      by_cases h : x.1 = key
      · simp [h]
      · simp [h, Ne.symm h]

@[simp] theorem has_map (f : Int64 × Endpoint → Endpoint) (key : Int64) :
    Has (m.map fun x => (x.1, f x)) key ↔ m.Has key := by
  rw [has_iff_mem, has_iff_mem, List.map_map]
  rfl

@[simp] theorem typeAt_set (m : Endpoints) (id : Int64) (e : Endpoint) (key : Int64) :
    (m.set id e).typeAt key = if id = key then some e.type else m.typeAt key := by
  unfold typeAt
  rw [at?_set]
  split <;> rfl

end Endpoints

end Tgvoip
