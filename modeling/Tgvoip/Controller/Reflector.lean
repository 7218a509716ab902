import Tgvoip.Controller.PacketFrame
import Tgvoip.Controller.Relays
import Tgvoip.Tools.BufferInputStream

/-!
# Reflector — the answers of a relay, read from the stream

`Reflector.cpp` and the start of `ProcessIncomingPacket`. The reads throw,
one `Seek` is to an absolute offset, and the state of the call and of the
endpoint changes between them: a `ReflectorCall` carries the stream and both,
and keeps them when it throws.

Nothing throws behind a peer tag with 16 bytes after it: the first reads
take 12 of them, the type the other four, and the fields of an answer are
read only where they are there (`relay_messages_safe`).
`Controller.parseRelayPacket`, on the bytes, is what is left of the call
when the stream is taken away (`parseRelayPacket_refines`).
-/

namespace Tgvoip

open ByteReader (Bytes)
open Fallible

namespace BufferInputStream

/-- `Remaining`. -/
def remaining (s : BufferInputStream) : UInt64 := s.length - s.offset

def ipv6Of (b : ℕ → UInt8) : { bs : Bytes // bs.length = 16 } :=
  ⟨(List.range 16).map b, (List.length_map _).trans List.length_range⟩

/-- `ReadBytes` into an array of 16. -/
def readIPv6 : Call { bs : Bytes // bs.length = 16 } := reading 16 ipv6Of

end BufferInputStream

/-- The fields of an endpoint that only the pings of a reflector use. -/
structure RelayPings where
  udpPingTimes : List (Int64 × Time) := []
  totalUdpPingReplies : ℕ := 0
  selfRtts : HistoricBuffer Time 4 := .new

/-- The reply to a ping, which is known by its time if it was sent. -/
def RelayPings.reply (p : RelayPings) (now : Time) (queryID : Int64) : RelayPings :=
  let p := { p with totalUdpPingReplies := p.totalUdpPingReplies + 1 }
  match p.udpPingTimes.lookup queryID with
  | some sendTime => { p with
      udpPingTimes := p.udpPingTimes.filter (·.1 != queryID)
      selfRtts := p.selfRtts.add (now - sendTime) }
  | none => p

/-- The stream, and what a call can change behind it: the controller with
its endpoints, and the ping fields of each. -/
structure RelayState where
  input : BufferInputStream
  c : Controller
  pings : Int64 → RelayPings

inductive RelayFault where
  | read (fault : ReadFault)
  | thread (fault : Fault)
  deriving DecidableEq

abbrev ReflectorCall (α : Type) := EStateM RelayFault RelayState α

namespace RelayState

open BufferInputStream RelayAnswer

variable {α : Type}

def onStream (call : BufferInputStream.Call α) : ReflectorCall α := fun s =>
  match call s.input with
  | .ok a input => .ok a { s with input }
  | .error fault input => .error (.read fault) { s with input }

def onThread (f : Controller → Except Fault Controller) : ReflectorCall Unit := fun s =>
  match f s.c with
  | .ok c => .ok () { s with c }
  | .error fault => .error (.thread fault) s

/-- `srcEndpoint`, a reference into the table. -/
def sourceAt (src : Int64) : ReflectorCall Endpoint := fun s =>
  match s.c.endpointAt src with
  | .ok e => .ok e s
  | .error fault => .error (.thread fault) s

variable (src : Int64) (now : Time) (here : LocalInterface)

/-- The twelve bytes in front of an answer; the second read is made only
where the first has found its eight. -/
def isRelayPacket : ReflectorCall Bool := do
  let first ← onStream readUInt64
  if first = 0xFFFFFFFFFFFFFFFF then do
    let second ← onStream readUInt32
    pure (second == 0xFFFFFFFF)
  else pure false

def processSelfInfo : ReflectorCall Unit := do
  let _date ← onStream readInt32
  let queryID ← onStream readInt64
  let myIP ← onStream readIPv6
  let _myPort ← onStream readInt32
  modify fun s => { s with pings := Function.update s.pings src ((s.pings src).reply now queryID) }
  onThread fun c => c.processSelfInfo myIP here src

def processPeerInfo : ReflectorCall Unit := do
  let myAddr ← onStream readUInt32
  let _myPort ← onStream readUInt32
  let peerAddr ← onStream readUInt32
  let peerPort ← onStream readUInt32
  onThread fun c => pure (c.processPeerInfo myAddr peerAddr peerPort here)

/-- What an answer of each type does. -/
def processAnswer (tlid : UInt32) : ReflectorCall Unit := do
  let srcEndpoint ← sourceAt src
  let left := (← get).input.remaining
  if tlid = tlidSelfInfo then
    if srcEndpoint.type = .udpRelay ∧ left ≥ 32 then processSelfInfo src now here else pure ()
  else if tlid = tlidPeerInfo then
    if left ≥ 16 then processPeerInfo here else pure ()
  else pure ()

def parseRelayPacket : ReflectorCall Bool := do
  let offset := (← get).input.offset
  if ← isRelayPacket then
    onStream (seek (16 + 12))
    let tlid ← onStream readUInt32
    processAnswer src now here tlid
    pure true
  else
    onStream (seek offset)
    pure false

/-- The peer tag was looked at: is the datagram an answer of the relay? -/
def parseFromReflector (srcEndpoint : Endpoint) : ReflectorCall Bool := do
  if (← get).input.remaining ≥ 16 ∧ srcEndpoint.isReflector then parseRelayPacket src now here
  else pure false

/-- The start of `ProcessIncomingPacket`: whether it is done with the datagram. -/
def startIncomingPacket : ReflectorCall Bool := do
  let srcEndpoint ← sourceAt src
  let s ← get
  if s.c.ver.peerVersion < 9 || srcEndpoint.isReflector then
    if s.input.remaining < 16 then pure true
    else if s.input.buffer.take 16 ≠
        if srcEndpoint.isReflector then srcEndpoint.peerTag else s.c.callID.toList then pure true
    else do
      onStream (seek 16)
      parseFromReflector src now here srcEndpoint
  else parseFromReflector src now here srcEndpoint

end RelayState

/-! ## Twelve bytes 255 -/

namespace BufferInputStream

theorem unsigned64_eq (x : UInt8) : unsigned64 x = x.toUInt64 := by
  apply UInt64.toNat_inj.mp
  rw [unsigned64, UInt64.toNat_and]
  show x.toNat &&& (2 ^ 8 - 1) = x.toNat
  rw [Nat.and_two_pow_sub_one_eq_mod]
  exact Nat.mod_eq_of_lt x.toNat_lt

/-- `a` is of the first `n` bytes, and all ones only if each of them is. -/
def OnesBelow (b : ℕ → UInt8) (n a : ℕ) : Prop :=
  a < 2 ^ (8 * n) ∧ (a = 2 ^ (8 * n) - 1 ↔ ∀ i < n, b i = 0xFF)

theorem onesBelow_one (b : ℕ → UInt8) : OnesBelow b 1 (b 0).toNat := by
  refine ⟨(b 0).toNat_lt, ?_⟩
  show (b 0).toNat = (0xFF : UInt8).toNat ↔ _
  rw [UInt8.toNat_inj]
  exact ⟨fun h i hi => by rwa [Nat.lt_one_iff.mp hi], fun h => h 0 Nat.one_pos⟩

/-- One more byte, shifted above those that are there. -/
theorem OnesBelow.next {b : ℕ → UInt8} {n a w : ℕ} (h : OnesBelow b n a) (hw : 8 * (n + 1) ≤ w) :
    OnesBelow b (n + 1) (a ||| ((b n).toNat <<< (8 * n) % 2 ^ w)) := by
  obtain ⟨hlt, hones⟩ := h
  have hx := (b n).toNat_lt
  have hpow : 2 ^ (8 * (n + 1)) = 256 * 2 ^ (8 * n) := by
    rw [Nat.mul_succ, Nat.pow_add, Nat.mul_comm]
  have hle : 2 ^ (8 * (n + 1)) ≤ 2 ^ w := Nat.pow_le_pow_right (by decide) hw
  have hmul : (b n).toNat * 2 ^ (8 * n) ≤ 255 * 2 ^ (8 * n) := Nat.mul_le_mul_right _ (by omega)
  have hfits : (b n).toNat <<< (8 * n) < 2 ^ w := by
    rw [Nat.shiftLeft_eq]
    omega
  rw [Nat.mod_eq_of_lt hfits, ByteReader.or_shiftLeft_of_lt _ hlt]
  refine ⟨by omega, ?_⟩
  rw [Nat.forall_lt_succ_right, ← hones, ← UInt8.toNat_inj, hpow]
  show _ ↔ _ ∧ (b n).toNat = 255
  constructor
  · intro h
    have hall : (b n).toNat = 255 := by
      by_contra hne
      have : (b n).toNat * 2 ^ (8 * n) ≤ 254 * 2 ^ (8 * n) := Nat.mul_le_mul_right _ (by omega)
      omega
    rw [hall] at h
    exact ⟨by omega, hall⟩
  · rintro ⟨rfl, hall⟩
    rw [hall]
    omega

theorem uint32Of_ones_iff (b : ℕ → UInt8) :
    uint32Of b = 0xFFFFFFFF ↔ ∀ i < 4, b i = 0xFF := by
  have h : OnesBelow b 4 (uint32Of b).toNat := by
    simp only [uint32Of, unsigned32_eq]
    have h2 := (onesBelow_one b).next (by decide : 8 * 2 ≤ 32)
    exact (h2.next (by decide : 8 * 3 ≤ 32)).next (by decide : 8 * 4 ≤ 32)
  rw [← UInt32.toNat_inj]
  exact h.2

theorem uint64Of_ones_iff (b : ℕ → UInt8) :
    uint64Of b = 0xFFFFFFFFFFFFFFFF ↔ ∀ i < 8, b i = 0xFF := by
  have h : OnesBelow b 8 (uint64Of b).toNat := by
    simp only [uint64Of, unsigned64_eq]
    have h2 := (onesBelow_one b).next (by decide : 8 * 2 ≤ 64)
    have h4 := (h2.next (by decide : 8 * 3 ≤ 64)).next (by decide : 8 * 4 ≤ 64)
    have h6 := (h4.next (by decide : 8 * 5 ≤ 64)).next (by decide : 8 * 6 ≤ 64)
    exact (h6.next (by decide : 8 * 7 ≤ 64)).next (by decide : 8 * 8 ≤ 64)
  rw [← UInt64.toNat_inj]
  exact h.2

/-! ## The bytes from an offset on -/

section
variable {α : Type} {p : ByteReader.Reader α} {value : (ℕ → UInt8) → α}

theorem getD_drop (bs : Bytes) (n i : ℕ) : (bs.drop n).getD i 0 = bs.getD (n + i) 0 := by
  rw [List.getD_eq_getElem?_getD, List.getElem?_drop, ← List.getD_eq_getElem?_getD]

theorem byteAt_eq (s : BufferInputStream) : s.byteAt = fun i => s.rest.getD i 0 := by
  funext i
  rw [byteAt, rest, getD_drop]

/-- A value of `n` bytes, read several times. -/
theorem LooksAt.run_times {n : ℕ} (hp : LooksAt p n value) {count : ℕ} {bs : Bytes}
    (h : count * n ≤ bs.length) :
    (ByteReader.times p count).run bs =
      some ((List.range count).map fun j => value fun i => bs.getD (j * n + i) 0,
        bs.drop (count * n)) := by
  induction count generalizing bs with
  | zero =>
      rw [Nat.zero_mul]
      rfl
  | succ count ih =>
      rw [Nat.succ_mul] at h
      have hfirst : p.run bs = some (value fun i => bs.getD i 0, bs.drop n) := by
        rw [hp, if_neg (by omega)]
      have hrest := @ih (bs.drop n) (by rw [List.length_drop]; omega)
      apply ByteReader.run_bind_eq_some.mpr
      refine ⟨_, _, hfirst, ?_⟩
      apply ByteReader.run_bind_eq_some.mpr
      refine ⟨_, _, hrest, ?_⟩
      have hplace : ∀ j i, n + (j * n + i) = (j + 1) * n + i := fun j i => by
        rw [Nat.succ_mul]
        omega
      simp only [getD_drop, List.drop_drop, List.range_succ_eq_map, List.map_cons, List.map_map,
        Function.comp_def, hplace, Nat.succ_mul, Nat.zero_mul, Nat.zero_add, Nat.add_comm n]
      rfl

end

/-! ## Room for more reads -/

section
variable {s : BufferInputStream} {n k m : UInt64}

theorem Room.bounded_here (h : s.Room n) : s.Bounded := by
  rw [bounded_iff]
  exact Nat.le_of_add_right_le h

theorem Room.mono (h : s.Room n) (hk : k.toNat ≤ n.toNat) : s.Room k :=
  Nat.le_trans (Nat.add_le_add_left hk _) h

theorem Room.behind (h : s.Room n) (hk : k.toNat + m.toNat ≤ n.toNat) : (s.advance k).Room m := by
  have hto := (h.mono (Nat.le_of_add_right_le hk)).toNat_advance
  unfold Room at h ⊢
  rw [hto]
  show s.offset.toNat + k.toNat + m.toNat ≤ s.buffer.length
  omega

theorem Room.byteAt_advance (h : s.Room n) (i : ℕ) :
    (s.advance n).byteAt i = s.byteAt (n.toNat + i) := by
  rw [byteAt, byteAt, h.toNat_advance, Nat.add_assoc]
  rfl

theorem le_remaining_iff (hs : s.Bounded) : n ≤ s.remaining ↔ s.Room n := by
  rw [← not_iff_not, UInt64.not_le]
  exact remaining_lt_iff hs

end

end BufferInputStream

namespace RelayState

open BufferInputStream RelayAnswer

variable {α : Type} {s : RelayState} {n : UInt64} {value : (ℕ → UInt8) → α}

/-- The stream stands at another offset. -/
def moved (s : RelayState) (offset : UInt64) : RelayState :=
  { s with input := { s.input with offset } }

/-- The stream stands `n` bytes further on. -/
def skip (s : RelayState) (n : UInt64) : RelayState := s.moved (s.input.offset + n)

theorem onStream_ok {call : BufferInputStream.Call α} {a : α} {input : BufferInputStream}
    (h : call s.input = .ok a input) : onStream call s = .ok a { s with input } := by
  rw [onStream, h]

/-- A read where there is room for it, what room it leaves and what it has
behind it. -/
theorem returns_reading {room : UInt64} (left : UInt64) {Q : α → RelayState → Prop}
    (hroom : s.input.Room room) (hleft : n.toNat + left.toNat = room.toNat)
    (h : (s.skip n).input.Room left →
      (s.skip n).input.byteAt = (fun i => s.input.byteAt (n.toNat + i)) →
      Q (value s.input.byteAt) (s.skip n)) :
    Returns (onStream (reading n value)) s Q := by
  have hn : s.input.Room n := hroom.mono (Nat.le_of_add_right_le (Nat.le_of_eq hleft))
  have hread := onStream_ok (reading_ok value hn.bounded_here hn)
  exact ⟨_, _, hread, h (hroom.behind (Nat.le_of_eq hleft)) (funext hn.byteAt_advance)⟩

theorem onStream_seek {offset : UInt64} (h : offset ≤ s.input.length) :
    onStream (seek offset) s = .ok () (s.moved offset) :=
  onStream_ok (if_neg (UInt64.not_lt.mpr h))

/-- **What is recognised**, and that nothing but the offset changes. -/
theorem returns_isRelayPacket (hroom : s.input.Room 12) :
    Returns isRelayPacket s fun answered s' =>
      (answered = true ↔ ∀ i < 12, s.input.byteAt i = 0xFF) ∧ ∃ offset, s' = s.moved offset := by
  unfold isRelayPacket
  rw [readUInt64_eq, readUInt32_eq]
  apply Returns.bind
  refine returns_reading 4 hroom (by decide) fun hroom4 hbyte => ?_
  by_cases hfirst : uint64Of s.input.byteAt = 0xFFFFFFFFFFFFFFFF
  · rw [if_pos hfirst]
    apply Returns.bind
    refine returns_reading 0 hroom4 (by decide) fun _ _ => ?_
    apply Returns.pure
    refine ⟨?_, _, rfl⟩
    rw [beq_iff_eq, uint32Of_ones_iff, hbyte]
    refine ⟨fun h i hi => ?_, fun h i hi => h (8 + i) (by omega)⟩
    rcases Nat.lt_or_ge i 8 with hlt | hge
    · exact (uint64Of_ones_iff _).mp hfirst i hlt
    · have hsecond : s.input.byteAt (8 + (i - 8)) = 0xFF := h (i - 8) (by omega)
      rwa [Nat.add_sub_cancel' hge] at hsecond
  · rw [if_neg hfirst]
    apply Returns.pure
    refine ⟨iff_of_false Bool.false_ne_true fun h => ?_, _, rfl⟩
    exact hfirst ((uint64Of_ones_iff _).mpr fun i hi => h i (by omega))

/-! ## The answers -/

section
variable {src : Int64} {now : Time} {here : LocalInterface} {e : Endpoint}

theorem onThread_ok {f : Controller → Except Fault Controller} {c : Controller}
    (h : f s.c = .ok c) : onThread f s = .ok () { s with c } := by
  rw [onThread, h]

theorem sourceAt_ok (h : s.c.endpoints.at? src = some e) : sourceAt src s = .ok e s := by
  rw [sourceAt, Controller.endpointAt, h]

/-- The table has the endpoint, so its counters can be moved. -/
theorem exists_processSelfInfo {c : Controller} (h : c.endpoints.at? src = some e)
    (myIP : { bs : Bytes // bs.length = 16 }) :
    ∃ c', c.processSelfInfo myIP here src = .ok c' := by
  rw [Controller.processSelfInfo, Controller.endpointAt, h]
  simp only [bind, Except.bind, pure, Except.pure]
  split
  · exact ⟨_, rfl⟩
  · split
    · exact ⟨_, rfl⟩
    · exact ⟨_, rfl⟩

theorem returns_processSelfInfo (hsrc : s.c.endpoints.at? src = some e)
    (hroom : s.input.Room 32) :
    Returns (processSelfInfo src now here) s fun _ s' =>
      s.c.processSelfInfo (ipv6Of fun i => s.input.byteAt (12 + i)) here src = .ok s'.c := by
  have hprocess : ∃ c', s.c.processSelfInfo (ipv6Of fun i => s.input.byteAt (12 + i)) here src
      = .ok c' := exists_processSelfInfo hsrc _
  obtain ⟨c', hc'⟩ := hprocess
  unfold processSelfInfo
  apply Returns.bind
  refine returns_reading 28 hroom (by decide) fun hroom28 hbyte4 => ?_
  apply Returns.bind
  refine returns_reading 20 hroom28 (by decide) fun hroom20 hbyte12 => ?_
  apply Returns.bind
  refine returns_reading 4 hroom20 (by decide) fun hroom4 _ => ?_
  apply Returns.bind
  refine returns_reading 0 hroom4 (by decide) fun _ _ => ?_
  apply Returns.bind_ok rfl
  refine ⟨_, _, onThread_ok ?_, hc'⟩
  rw [hbyte12, hbyte4]
  simp only [← Nat.add_assoc]
  exact hc'

/-- The fields of a `PEER_INFO`. -/
theorem returns_processPeerInfo (hroom : s.input.Room 16) :
    Returns (processPeerInfo here) s fun _ s' =>
      s'.c = s.c.processPeerInfo (uint32Of s.input.byteAt)
        (uint32Of fun i => s.input.byteAt (8 + i)) (uint32Of fun i => s.input.byteAt (12 + i))
        here := by
  unfold processPeerInfo
  rw [readUInt32_eq]
  apply Returns.bind
  refine returns_reading 12 hroom (by decide) fun hroom12 hbyte4 => ?_
  apply Returns.bind
  refine returns_reading 8 hroom12 (by decide) fun hroom8 hbyte8 => ?_
  apply Returns.bind
  refine returns_reading 4 hroom8 (by decide) fun hroom4 hbyte12 => ?_
  apply Returns.bind
  refine returns_reading 0 hroom4 (by decide) fun _ _ => ?_
  refine ⟨(), _, onThread_ok rfl, ?_⟩
  rw [hbyte12, hbyte8, hbyte4]
  simp only [← Nat.add_assoc]
  rfl

/-! ## The same on the bytes -/

/-- What `Controller.parseRelayPacket` does with an answer. -/
def answered (c : Controller) (here : LocalInterface) (src : Int64) :
    RelayAnswer → Except Fault Controller
  | .selfInfo myIP => c.processSelfInfo myIP here src
  | .peerInfo myAddr _ peerAddr peerPort => pure (c.processPeerInfo myAddr peerAddr peerPort here)
  | .unknown => pure c

theorem parseBody_selfInfo {body : Bytes} (h : 32 ≤ body.length) :
    parseBody tlidSelfInfo body = .selfInfo (ipv6Of fun i => body.getD (12 + i) 0) := by
  have hlen : 16 ≤ (body.drop 12).length := by
    rw [List.length_drop]
    omega
  have hip : (body.drop 12).take 16 = (List.range 16).map fun i => body.getD (12 + i) 0 := by
    rw [take_eq_map_range hlen]
    simp only [getD_drop]
  rw [parseBody, if_pos rfl, dif_pos h]
  congr 1
  exact Subtype.ext hip

theorem parseBody_peerInfo {body : Bytes} (h : 16 ≤ body.length) :
    parseBody tlidPeerInfo body = .peerInfo (uint32Of fun i => body.getD i 0)
      (uint32Of fun i => body.getD (4 + i) 0) (uint32Of fun i => body.getD (8 + i) 0)
      (uint32Of fun i => body.getD (12 + i) 0) := by
  have hrun := @LooksAt.run_times _ _ _ 4 looksAt_u32 4 body h
  simp only [List.range_succ_eq_map, List.range_zero, List.map_cons, List.map_nil, Nat.zero_mul,
    Nat.zero_add] at hrun
  rw [parseBody, if_neg (by decide), if_pos rfl, hrun]

/-- An answer of a known type, with less behind it than its fields. -/
def CutShort (tlid : UInt32) (left : ℕ) : Prop :=
  (tlid = tlidSelfInfo ∧ left < 32) ∨ (tlid = tlidPeerInfo ∧ left < 16)

theorem parseBody_cutShort {tlid : UInt32} {body : Bytes} (h : CutShort tlid body.length) :
    parseBody tlid body = .unknown := by
  rcases h with ⟨rfl, hlt⟩ | ⟨rfl, hlt⟩
  · rw [parseBody, if_pos rfl, dif_neg (Nat.not_le.mpr hlt)]
  · rw [parseBody, if_neg (by decide), if_pos rfl]
    split
    · rename_i hrun
      have htakes := ByteReader.takes_times ByteReader.takes_u32 4 _ _ _ hrun
      simp only [List.map_cons, List.map_nil, List.sum_cons, List.sum_nil] at htakes
      omega
    · rfl

theorem le_remaining_iff_rest (hs : s.input.Bounded) :
    n ≤ s.input.remaining ↔ n.toNat ≤ s.input.rest.length :=
  (le_remaining_iff hs).trans ((room_iff hs).trans Nat.not_lt)

/-- What a step owes the same answer on the bytes: it does that, or the
answer is too short and nothing is done. -/
def Answers (s : RelayState) (here : LocalInterface) (src : Int64) (tlid : UInt32)
    (s' : RelayState) : Prop :=
  answered s.c here src (parseBody tlid s.input.rest) = .ok s'.c ∧
    (CutShort tlid s.input.rest.length → s' = s)

theorem answers_cutShort {tlid : UInt32} (h : CutShort tlid s.input.rest.length) :
    s.Answers here src tlid s := by
  refine ⟨?_, fun _ => rfl⟩
  rw [parseBody_cutShort h]
  rfl

theorem returns_selfInfo (hsrc : s.c.endpoints.at? src = some e) (hs : s.input.Bounded) :
    Returns (if e.type = .udpRelay ∧ s.input.remaining ≥ 32 then processSelfInfo src now here
      else pure ()) s fun _ s' => s.Answers here src tlidSelfInfo s' := by
  by_cases hlong : 32 ≤ s.input.rest.length
  · have hremaining := (le_remaining_iff_rest (n := 32) hs).mpr hlong
    have hcut : CutShort tlidSelfInfo s.input.rest.length → False := by
      rintro (⟨-, hlt⟩ | ⟨htlid, -⟩)
      · omega
      · cases htlid
    unfold Answers
    rw [parseBody_selfInfo hlong]
    by_cases htype : e.type = .udpRelay
    · rw [if_pos ⟨htype, hremaining⟩]
      apply (returns_processSelfInfo hsrc ((le_remaining_iff hs).mp hremaining)).mono
      intro _ s' hc
      rw [byteAt_eq] at hc
      exact ⟨hc, fun h => (hcut h).elim⟩
    · rw [if_neg fun h => htype h.1]
      apply Returns.pure
      refine ⟨?_, fun _ => rfl⟩
      simp only [answered, Controller.processSelfInfo, Controller.endpointAt, hsrc]
      exact if_pos htype
  · have hremaining : ¬ s.input.remaining ≥ 32 :=
      fun h => hlong ((le_remaining_iff_rest (n := 32) hs).mp h)
    rw [if_neg fun h => hremaining h.2]
    exact Returns.pure (answers_cutShort (.inl ⟨rfl, Nat.not_le.mp hlong⟩))

theorem returns_peerInfo (hs : s.input.Bounded) :
    Returns (if s.input.remaining ≥ 16 then processPeerInfo here else pure ()) s
      fun _ s' => s.Answers here src tlidPeerInfo s' := by
  by_cases hlong : 16 ≤ s.input.rest.length
  · have hremaining := (le_remaining_iff_rest (n := 16) hs).mpr hlong
    rw [if_pos hremaining]
    apply (returns_processPeerInfo ((le_remaining_iff hs).mp hremaining)).mono
    intro _ s' hc
    refine ⟨?_, ?_⟩
    · rw [parseBody_peerInfo hlong, hc, byteAt_eq]
      rfl
    · rintro (⟨htlid, -⟩ | ⟨-, hlt⟩)
      · cases htlid
      · omega
  · have hremaining : ¬ s.input.remaining ≥ 16 :=
      fun h => hlong ((le_remaining_iff_rest (n := 16) hs).mp h)
    rw [if_neg hremaining]
    exact Returns.pure (answers_cutShort (.inr ⟨rfl, Nat.not_le.mp hlong⟩))

/-- **An answer is carried out, or is too short and changes nothing.** -/
theorem returns_processAnswer (hsrc : s.c.endpoints.at? src = some e) (hs : s.input.Bounded)
    (tlid : UInt32) :
    Returns (processAnswer src now here tlid) s fun _ s' => s.Answers here src tlid s' := by
  unfold processAnswer
  apply Returns.bind_ok (sourceAt_ok hsrc)
  apply Returns.bind_ok (m := get) rfl
  dsimp only
  by_cases hself : tlid = tlidSelfInfo
  · subst hself
    exact returns_selfInfo hsrc hs
  · rw [if_neg hself]
    by_cases hpeer : tlid = tlidPeerInfo
    · subst hpeer
      exact returns_peerInfo hs
    · rw [if_neg hpeer]
      apply Returns.pure
      refine ⟨?_, fun _ => rfl⟩
      rw [parseBody, if_neg hself, if_neg hpeer]
      rfl

/-! ## A whole datagram -/

/-- The type of an answer and its body, behind the peer tag and the twelve
bytes. -/
def answerIn (buffer : Bytes) : Option (UInt32 × Bytes) := ByteReader.u32.run (buffer.drop 28)

theorem answerIn_eq (hlong : 32 ≤ s.input.buffer.length) :
    answerIn s.input.buffer = some (uint32Of (s.moved 28).input.byteAt, (s.moved 32).input.rest) := by
  have hlen : ¬ (s.input.buffer.drop 28).length < 4 := by
    rw [List.length_drop]
    omega
  have hdrop : (s.input.buffer.drop 28).drop 4 = s.input.buffer.drop 32 := List.drop_drop
  rw [answerIn, looksAt_u32, if_neg hlen, hdrop, byteAt_eq]
  rfl

theorem moved_bounded {offset : UInt64} (h : offset.toNat ≤ s.input.buffer.length) :
    (s.moved offset).input.Bounded :=
  bounded_iff.mpr h

/-- **Recognised or left alone**: the answer is carried out on what is
behind its type. -/
theorem returns_parseRelayPacket (now : Time) (here : LocalInterface)
    (hsrc : s.c.endpoints.at? src = some e) (hat : s.input.offset = 16)
    (hlong : 32 ≤ s.input.buffer.length) :
    Returns (parseRelayPacket src now here) s fun done s' =>
      (done = true ↔ ∀ i < 12, s.input.byteAt i = 0xFF) ∧ (done = false → s' = s) ∧
        (done = true → ∃ tlid body, answerIn s.input.buffer = some (tlid, body) ∧
          body = (s.moved 32).input.rest ∧ (s.moved 32).Answers here src tlid s') := by
  have hroom : s.input.Room 12 := by
    rw [Room, hat]
    exact Nat.le_trans (by decide) hlong
  unfold parseRelayPacket
  apply Returns.bind_ok (m := get) rfl
  dsimp only
  apply Returns.bind
  apply (returns_isRelayPacket hroom).mono
  rintro done _ ⟨hdone, offset, rfl⟩
  cases done with
  | false =>
      rw [if_neg Bool.false_ne_true]
      have hseek : s.input.offset ≤ (s.moved offset).input.length := by
        rw [UInt64.le_iff_toNat_le, toNat_length, hat]
        exact Nat.le_trans (by decide) hlong
      apply Returns.bind_ok (onStream_seek hseek)
      exact Returns.pure ⟨hdone, fun _ => rfl, fun h => absurd h Bool.false_ne_true⟩
  | true =>
      rw [if_pos rfl, readUInt32_eq]
      have hseek : 16 + 12 ≤ (s.moved offset).input.length := by
        rw [UInt64.le_iff_toNat_le, toNat_length]
        exact Nat.le_trans (by decide) hlong
      have hroom4 : (s.moved 28).input.Room 4 := hlong
      apply Returns.bind_ok (onStream_seek hseek)
      apply Returns.bind
      refine returns_reading 0 hroom4 (by decide) fun _ _ => ?_
      apply Returns.bind
      apply (returns_processAnswer (s := s.moved 32) hsrc (moved_bounded hlong) _).mono
      intro _ s' hanswers
      exact Returns.pure ⟨hdone, fun h => absurd h.symm Bool.false_ne_true,
        fun _ => ⟨_, _, answerIn_eq hlong, rfl, hanswers⟩⟩

/-- A datagram that is accepted from a reflector: its peer tag in front, and
16 bytes behind it. Nothing of it is read yet. -/
structure Accepted (s : RelayState) (src : Int64) (e : Endpoint) : Prop where
  source : s.c.endpoints.at? src = some e
  reflector : e.isReflector = true
  unread : s.input.offset = 0
  tag : s.input.buffer.take 16 = e.peerTag
  long : 32 ≤ s.input.buffer.length

/-- Twelve bytes 255 behind the peer tag. -/
def Tagged (buffer : Bytes) : Prop := (buffer.drop 16).take 12 = List.replicate 12 0xFF

/-- The answer is too short for its fields. -/
def TooShort (buffer : Bytes) : Prop :=
  ∃ tlid body, answerIn buffer = some (tlid, body) ∧ CutShort tlid body.length

theorem tagged_iff (hlong : 32 ≤ s.input.buffer.length) :
    Tagged s.input.buffer ↔ ∀ i < 12, (s.moved 16).input.byteAt i = 0xFF := by
  have hlen : 12 ≤ (s.input.buffer.drop 16).length := by
    rw [List.length_drop]
    omega
  have hrest : (s.moved 16).input.rest = s.input.buffer.drop 16 := rfl
  rw [Tagged, take_eq_map_range hlen, byteAt_eq, hrest]
  have hmap := @List.map_eq_replicate_iff _ _ (List.range 12)
    (fun i => (s.input.buffer.drop 16).getD i 0) 0xFF
  rw [List.length_range] at hmap
  simp only [hmap, List.mem_range]

/-- The start of `ProcessIncomingPacket` hands the datagram over behind its
peer tag. -/
theorem Accepted.start (h : s.Accepted src e) :
    startIncomingPacket src now here s = parseRelayPacket src now here (s.moved 16) := by
  have hlong := h.long
  have hremaining : ∀ offset : UInt64, offset.toNat + 16 ≤ s.input.buffer.length →
      16 ≤ (s.moved offset).input.remaining := fun _ hroom =>
    (le_remaining_iff (moved_bounded (Nat.le_of_add_right_le hroom))).mpr hroom
  have hfirst : ¬ s.input.remaining < 16 := by
    have hmoved : s.moved 0 = s := by rw [moved, ← h.unread]
    rw [UInt64.not_lt, ← hmoved]
    exact hremaining 0 (Nat.le_trans (by decide) hlong)
  have hseek : 16 ≤ s.input.length := by
    rw [UInt64.le_iff_toNat_le, toNat_length]
    exact Nat.le_trans (by decide) hlong
  unfold startIncomingPacket parseFromReflector
  rw [bind_ok (sourceAt_ok h.source), bind_ok (m := get) rfl]
  simp only [h.reflector, Bool.or_true, if_true]
  rw [if_neg hfirst, if_neg (not_not.mpr h.tag), bind_ok (onStream_seek hseek),
    bind_ok (m := get) rfl]
  rw [if_pos (And.intro (hremaining 16 hlong) trivial)]

/-- **The answers of a reflector are recognised safely.** For every accepted
datagram: reading it does not throw; it is taken exactly if the twelve bytes
are 255; one that is not taken leaves the stream and all state as they were;
an answer that is too short changes no state. -/
theorem relay_messages_safe (h : s.Accepted src e) (now : Time) (here : LocalInterface) :
    startIncomingPacket src now here s = parseRelayPacket src now here (s.moved 16) ∧
      ∃ done s', parseRelayPacket src now here (s.moved 16) = .ok done s' ∧
        (done = true ↔ Tagged s.input.buffer) ∧
        (done = false → s' = s.moved 16) ∧
        (TooShort s.input.buffer → s'.c = s.c ∧ s'.pings = s.pings) := by
  obtain ⟨done, s', hparse, hdone, hleft, hanswer⟩ :=
    returns_parseRelayPacket (s := s.moved 16) now here h.source rfl h.long
  refine ⟨h.start, done, s', hparse, hdone.trans (tagged_iff h.long).symm, hleft, ?_⟩
  rintro ⟨tlid, body, hin, hcut⟩
  cases done with
  | false =>
      rw [hleft rfl]
      exact ⟨rfl, rfl⟩
  | true =>
      obtain ⟨tlid', body', hin', hbody, hanswers⟩ := hanswer rfl
      obtain ⟨rfl, rfl⟩ := Prod.mk.inj (Option.some.inj (hin.symm.trans hin'))
      rw [hbody] at hcut
      rw [hanswers.2 hcut]
      exact ⟨rfl, rfl⟩

/-- **The call on the bytes alone** leaves the same controller. -/
theorem parseRelayPacket_refines (h : s.Accepted src e) {done : Bool} {s' : RelayState}
    (hparse : parseRelayPacket src now here (s.moved 16) = .ok done s') :
    s.c.parseRelayPacket (s.input.buffer.drop 16) here src = .ok s'.c := by
  obtain ⟨done', t, hrun, hdone, hleft, hanswer⟩ :=
    returns_parseRelayPacket (s := s.moved 16) now here h.source rfl h.long
  cases hrun.symm.trans hparse
  have htagged : _ ↔ (s.input.buffer.drop 16).take 12 = List.replicate 12 0xFF :=
    hdone.trans (tagged_iff h.long).symm
  rw [Controller.parseRelayPacket, RelayAnswer.parse, List.drop_drop]
  cases done with
  | false =>
      rw [if_neg fun ht => Bool.false_ne_true (htagged.mpr ht), hleft rfl]
      rfl
  | true =>
      obtain ⟨tlid, body, hin, hbody, hanswers⟩ := hanswer rfl
      have hrun' : ByteReader.u32.run (s.input.buffer.drop (16 + 12)) = some (tlid, body) := hin
      rw [if_pos (htagged.mp rfl), hrun', ← hanswers.1, ← hbody]
      dsimp only [Option.map_some]
      cases parseBody tlid body <;> rfl

end

/-- A call with one relay, and a `PEER_INFO` that ends behind three bytes. -/
def cutPeerInfo : RelayState where
  input := ⟨List.replicate 16 0 ++ List.replicate 12 0xFF ++
    ByteReader.le32 tlidPeerInfo ++ [1, 2, 3], by decide, 0⟩
  c := { Controller.new Controller.samplePlatform {} (Vector.replicate 16 0) 92 with
    endpoints := [(1, { id := 1, type := .udpRelay })] }
  pings := fun _ => {}

/-- It is recognised, and changes nothing. -/
theorem relay_messages_cut :
    ∃ s', parseRelayPacket 1 0 ⟨1, 1⟩ (cutPeerInfo.moved 16) = .ok true s' ∧
      s'.c = cutPeerInfo.c ∧ s'.pings = cutPeerInfo.pings := by
  obtain ⟨-, done, s', hparse, hdone, -, hcut⟩ := @relay_messages_safe cutPeerInfo 1
    { id := 1, type := .udpRelay } ⟨rfl, rfl, rfl, rfl, by decide⟩ 0 ⟨1, 1⟩
  have htrue : done = true := hdone.mpr (by unfold Tagged; decide)
  subst htrue
  exact ⟨s', hparse, hcut ⟨tlidPeerInfo, [1, 2, 3], rfl, .inr ⟨rfl, by decide⟩⟩⟩

end RelayState

end Tgvoip
