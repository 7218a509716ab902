import Tgvoip.Lib.ByteStream
import Tgvoip.Lib.XorBytes

/-!
# TCPObfuscated — packets over an obfuscated TCP stream

`NetworkSocketTCPObfuscated` of `controller/net/NetworkSocket.cpp`. A packet
is sent as its length in words (one byte, or `0x7F` and three bytes) and its
data, all of it under a keystream. The receiver asks the TCP socket for one
byte, for three more where the length is long, and then for the data until
it has them all.

`mem pos i` is what uninitialised memory holds: byte `i` of a buffer that is
allocated when `pos` bytes of the stream were read.
-/

namespace Tgvoip.TCPObfuscated

open ByteReader (Bytes)
open ByteStream XorBytes

/-- The length in front of the data. -/
def header (length : ℕ) : Bytes :=
  let len := length / 4
  if len < 0x7F then [len.toUInt8]
  else [0x7F, (len &&& 0xFF).toUInt8, ((len >>> 8) &&& 0xFF).toUInt8, ((len >>> 16) &&& 0xFF).toUInt8]

/-- `Send`, with the position of the send keystream. -/
def send (ks : ℕ → UInt8) (sendPos : ℕ) (data : Bytes) : Bytes × ℕ :=
  let os := header data.length ++ data
  (crypt ks sendPos os, sendPos + os.length)

/-- The receiving end: the TCP socket, and the position of the receive
keystream. -/
structure Receiver where
  wrapped : Stream
  recvPos : ℕ := 0
  deriving DecidableEq

section

variable (ks : ℕ → UInt8) (seg : Segmentation) (mem : ℕ → ℕ → UInt8)

def uninitialized (pos n : ℕ) : Bytes := (List.range n).map (mem pos)

/-- The loop of `Receive`: every piece is written to the start of the buffer. -/
def readBody (packetLen : ℕ) (buf : Bytes) (offset : ℕ) (wrapped : Stream) :
    Option Bytes × Stream :=
  if offset < packetLen then
    let received := wrapped.receive seg (packetLen - offset)
    if received.1.length = 0 then (none, received.2)
    else readBody packetLen (overwrite buf received.1) (offset + received.1.length) received.2
  else (some buf, wrapped)
termination_by packetLen - offset
decreasing_by
  rename_i hnonempty
  have hread : (wrapped.receive seg (packetLen - offset)).1.length ≠ 0 := hnonempty
  omega

/-- `Receive` behind the length. -/
def receiveData (r : Receiver) (packetLen : ℕ) : Option Bytes × Receiver :=
  if packetLen > 1500 then (none, r)
  else
    match readBody seg packetLen (uninitialized mem r.wrapped.pos packetLen) 0 r.wrapped with
    | (none, wrapped) => (none, { r with wrapped })
    | (some buf, wrapped) =>
        (some (crypt ks r.recvPos buf), { wrapped, recvPos := r.recvPos + packetLen })

def length24 (len2 : Bytes) : ℕ :=
  (len2.getD 0 0).toNat ||| (len2.getD 1 0).toNat <<< 8 ||| (len2.getD 2 0).toNat <<< 16

/-- `Receive` behind the first byte of a long length. -/
def receiveLong (r : Receiver) : Option Bytes × Receiver :=
  let len2 := uninitialized mem r.wrapped.pos 3
  let received := r.wrapped.receive seg 3
  if received.1.length = 0 then (none, { r with wrapped := received.2 })
  else
    receiveData ks seg mem { wrapped := received.2, recvPos := r.recvPos + 3 }
      (length24 (crypt ks r.recvPos (overwrite len2 received.1)) * 4)

/-- `Receive`; `none` is `NetworkPacket::Empty`. -/
def receive (r : Receiver) : Option Bytes × Receiver :=
  match r.wrapped.receive seg 1 with
  | ([], wrapped) => (none, { r with wrapped })
  | (byte :: _, wrapped) =>
      let len1 := byte ^^^ ks r.recvPos
      if len1 < 0x7F then
        receiveData ks seg mem { wrapped, recvPos := r.recvPos + 1 } (len1.toNat * 4)
      else receiveLong ks seg mem { wrapped, recvPos := r.recvPos + 1 }

/-- The bytes of several packets sent one after the other. -/
def sendAll (sendPos : ℕ) : List Bytes → Bytes
  | [] => []
  | data :: rest => (send ks sendPos data).1 ++ sendAll (send ks sendPos data).2 rest

/-- The results of successive calls of `Receive`. -/
def receiveAll : ℕ → Receiver → List (Option Bytes)
  | 0, _ => []
  | n + 1, r => (receive ks seg mem r).1 :: receiveAll n (receive ks seg mem r).2

end

/-! ## The length -/

/-- The lengths the connection is used for. -/
def Sendable (length : ℕ) : Prop := 0 < length ∧ 4 ∣ length ∧ length ≤ 1500

theorem header_short {n : ℕ} (h : n / 4 < 0x7F) : header n = [(n / 4).toUInt8] := if_pos h

/-- The three bytes of a long length. -/
def bytes24 (len : ℕ) : Bytes :=
  [(len &&& 0xFF).toUInt8, ((len >>> 8) &&& 0xFF).toUInt8, ((len >>> 16) &&& 0xFF).toUInt8]

theorem header_long {n : ℕ} (h : ¬ n / 4 < 0x7F) : header n = 0x7F :: bytes24 (n / 4) := if_neg h

theorem length24_bytes24 {len : ℕ} (h : len < 2 ^ 24) : length24 (bytes24 len) = len := by
  show _ ||| _ ||| _ = len
  simp only [bytes24, List.getD_cons_zero, List.getD_cons_succ]
  have hbyte : ∀ x : ℕ, (x &&& 0xFF).toUInt8.toNat = x % 2 ^ 8 := by
    intro x
    rw [Nat.toUInt8, UInt8.toNat_ofNat', Nat.and_two_pow_sub_one_eq_mod x 8, Nat.mod_mod]
  simp only [hbyte]
  apply Nat.eq_of_testBit_eq
  intro i
  simp only [Nat.testBit_or, Nat.testBit_mod_two_pow, Nat.testBit_shiftLeft,
    Nat.testBit_shiftRight]
  have hhigh : 24 ≤ i → len.testBit i = false := fun hi =>
    Nat.testBit_lt_two_pow (Nat.lt_of_lt_of_le h (Nat.pow_le_pow_right (by decide) hi))
  have h8 : 8 ≤ i → 8 + (i - 8) = i := fun h => by omega
  have h16 : 16 ≤ i → 16 + (i - 16) = i := fun h => by omega
  grind

/-! ## The data -/

variable {ks : ℕ → UInt8} {seg : Segmentation} {mem : ℕ → ℕ → UInt8}

@[simp] theorem length_uninitialized (pos n : ℕ) : (uninitialized mem pos n).length = n := by
  simp [uninitialized]

/-- A body that arrives in one piece. -/
theorem readBody_whole {w : Stream} {buf body rest : Bytes} (hw : w.rest = body ++ rest)
    (hbody : body.length = buf.length) (hpos : 0 < body.length)
    (hwhole : seg.cut w.pos body.length = body.length) :
    readBody seg body.length buf 0 w = (some body, { rest, pos := w.pos + body.length }) := by
  have hread := receive_append body hw hwhole
  rw [readBody, if_pos hpos]
  simp only [Nat.sub_zero, hread]
  rw [if_neg (by omega), readBody, if_neg (by omega), overwrite_whole hbody]

/-- Once something was read, the last byte of the buffer is out of reach. -/
theorem readBody_last {packetLen : ℕ} {buf : Bytes} {offset : ℕ} {w : Stream}
    (hoffset : 0 < offset) {buf' : Bytes} {w' : Stream}
    (h : readBody seg packetLen buf offset w = (some buf', w')) :
    buf'[packetLen - 1]? = buf[packetLen - 1]? := by
  induction buf, offset, w using readBody.induct seg packetLen with
  | case1 buf offset w hmore received hnone =>
      rw [readBody, if_pos hmore] at h
      simp only [received] at hnone
      simp [hnone] at h
  | case2 buf offset w hmore received hsome ih =>
      rw [readBody, if_pos hmore] at h
      simp only [received] at hsome ih
      simp only [if_neg hsome] at h
      rw [ih (by omega) h]
      -- the piece is shorter than the packet
      have hle := (length_receive_le seg w (packetLen - offset)).trans (seg.cut_le _ _)
      exact getElem?_overwrite (by omega)
  | case3 buf offset w hdone =>
      rw [readBody, if_neg hdone] at h
      cases h
      rfl

/-- A receiver whose stream goes on with `bs`, under the keystream. -/
def Receiver.Holds (ks : ℕ → UInt8) (r : Receiver) (bs rest : Bytes) : Prop :=
  r.wrapped.rest = crypt ks r.recvPos bs ++ rest

/-- The receiver that has read `n` bytes and has `rest` to read. -/
def Receiver.behind (r : Receiver) (n : ℕ) (rest : Bytes) : Receiver :=
  { wrapped := { rest, pos := r.wrapped.pos + n }, recvPos := r.recvPos + n }

variable {r : Receiver} {data rest : Bytes}

theorem holds_behind (ks : ℕ → UInt8) (r : Receiver) (n : ℕ) (bs rest : Bytes) :
    (r.behind n (crypt ks (r.recvPos + n) bs ++ rest)).Holds ks bs rest := rfl

theorem receiveData_whole (hr : r.Holds ks data rest) (hdata : Sendable data.length)
    (hwhole : seg.cut r.wrapped.pos data.length = data.length) :
    receiveData ks seg mem r data.length = (some data, r.behind data.length rest) := by
  have hbody := readBody_whole hr
    (by simp : _ = (uninitialized mem r.wrapped.pos data.length).length) (by simpa using hdata.1) (by simpa using hwhole)
  rw [length_crypt] at hbody
  rw [receiveData, if_neg (Nat.not_lt.mpr hdata.2.2), hbody]
  simp only [crypt_crypt]
  rfl

/-- A body that is cut ends with a byte that was never written. -/
theorem receiveData_cut (mem : ℕ → ℕ → UInt8) (hr : r.Holds ks data rest) (hdata : Sendable data.length)
    (hcut : seg.cut r.wrapped.pos data.length ≠ data.length)
    (h : (receiveData ks seg mem r data.length).1 = some data) :
    data[data.length - 1]?
      = some (mem r.wrapped.pos (data.length - 1) ^^^ ks (r.recvPos + (data.length - 1))) := by
  obtain ⟨hpos, -, hle⟩ := hdata
  rw [receiveData, if_neg (Nat.not_lt.mpr hle)] at h
  split at h
  · cases h
  · rename_i buf w hbody
    have hrest : r.wrapped.rest ≠ [] := by
      rw [hr]
      apply List.ne_nil_of_length_pos
      rw [List.length_append, length_crypt]
      omega
    have hread := length_receive_pos seg hpos hrest
    have hshort := length_receive_le seg r.wrapped data.length
    have hle := seg.cut_le r.wrapped.pos data.length
    rw [readBody, if_pos hpos, if_neg (by rw [Nat.sub_zero]; omega), Nat.sub_zero] at hbody
    have hlast := readBody_last (by omega) hbody
    rw [getElem?_overwrite (by omega)] at hlast
    have hbyte : (crypt ks r.recvPos buf)[data.length - 1]? = data[data.length - 1]? := by
      rw [Option.some.inj h]
    rw [← hbyte, getElem?_crypt, hlast, uninitialized, List.getElem?_map,
      List.getElem?_range (by omega)]
    rfl

theorem receive_short (hr : r.Holds ks (header data.length ++ data) rest)
    (hdata : Sendable data.length) (hshort : data.length / 4 < 0x7F) :
    receive ks seg mem r
      = receiveData ks seg mem (r.behind 1 (crypt ks (r.recvPos + 1) data ++ rest)) data.length := by
  rw [Receiver.Holds, header_short hshort] at hr
  have hlen : (data.length / 4).toUInt8.toNat = data.length / 4 := by
    rw [Nat.toUInt8, UInt8.toNat_ofNat', Nat.mod_eq_of_lt (by omega)]
  have hlt : (data.length / 4).toUInt8 < 0x7F := by
    rw [UInt8.lt_iff_toNat_lt, hlen]
    exact hshort
  obtain ⟨-, hfour, -⟩ := hdata
  rw [receive, receive_one hr]
  simp only [UInt8.xor_assoc, UInt8.xor_self, UInt8.xor_zero, if_pos hlt, hlen,
    Nat.div_mul_cancel hfour]
  rfl

theorem receive_first (hr : r.Holds ks (0x7F :: data) rest) :
    receive ks seg mem r
      = receiveLong ks seg mem (r.behind 1 (crypt ks (r.recvPos + 1) data ++ rest)) := by
  rw [receive, receive_one hr]
  simp only [UInt8.xor_assoc, UInt8.xor_self, UInt8.xor_zero]
  rfl

theorem receiveLong_whole {len : ℕ} (hr : r.Holds ks (bytes24 len ++ data) rest)
    (hlen : len < 2 ^ 24) (hwhole : seg.cut r.wrapped.pos 3 = 3) :
    receiveLong ks seg mem r
      = receiveData ks seg mem (r.behind 3 (crypt ks (r.recvPos + 3) data ++ rest)) (len * 4) := by
  have hthree : r.wrapped.receive seg 3 = (crypt ks r.recvPos (bytes24 len),
      { rest := crypt ks (r.recvPos + 3) data ++ rest, pos := r.wrapped.pos + 3 }) := by
    refine receive_append (crypt ks r.recvPos (bytes24 len)) ?_ hwhole
    rw [hr, crypt_append, List.append_assoc]
    rfl
  have hfill : overwrite (uninitialized mem r.wrapped.pos 3) (crypt ks r.recvPos (bytes24 len))
      = crypt ks r.recvPos (bytes24 len) := overwrite_whole (by simp [bytes24])
  rw [receiveLong, hthree]
  simp only [hfill, crypt_crypt, length24_bytes24 hlen]
  rfl

/-- A long length that is cut ends with a byte that was never written: it can
be too long. -/
theorem receiveLong_cut (hcut : seg.cut r.wrapped.pos 3 ≠ 3)
    (hmem : mem r.wrapped.pos 2 ^^^ ks (r.recvPos + 2) = 0xFF) :
    (receiveLong ks seg mem r).1 = none := by
  have hshort := length_receive_le seg r.wrapped 3
  have hle := seg.cut_le r.wrapped.pos 3
  rw [receiveLong]
  split
  · rfl
  · generalize (r.wrapped.receive seg 3).1 = piece at hshort ⊢
    have hlast : (crypt ks r.recvPos (overwrite (uninitialized mem r.wrapped.pos 3) piece))[2]?
        = some 0xFF := by
      rw [getElem?_crypt, getElem?_overwrite (by omega), ← hmem]
      rfl
    have hbig : 0xFF <<< 16 ≤ length24
        (crypt ks r.recvPos (overwrite (uninitialized mem r.wrapped.pos 3) piece)) := by
      rw [length24, List.getD_eq_getElem?_getD (i := 2), hlast]
      exact Nat.right_le_or
    rw [receiveData, if_pos (by omega)]

theorem receive_long (hr : r.Holds ks (header data.length ++ data) rest)
    (hdata : Sendable data.length) (hlong : ¬ data.length / 4 < 0x7F)
    (hwhole : seg.cut (r.wrapped.pos + 1) 3 = 3) :
    receive ks seg mem r
      = receiveData ks seg mem (r.behind 4 (crypt ks (r.recvPos + 4) data ++ rest)) data.length := by
  obtain ⟨-, hfour, hle⟩ := hdata
  rw [header_long hlong, List.cons_append] at hr
  rw [receive_first hr, receiveLong_whole (holds_behind ..) (by omega) hwhole,
    Nat.div_mul_cancel hfour]
  rfl

theorem receive_long_cut (hr : r.Holds ks (header data.length ++ data) rest)
    (hlong : ¬ data.length / 4 < 0x7F) (hcut : seg.cut (r.wrapped.pos + 1) 3 ≠ 3)
    (hmem : mem (r.wrapped.pos + 1) 2 ^^^ ks (r.recvPos + 3) = 0xFF) :
    (receive ks seg mem r).1 = none := by
  rw [header_long hlong, List.cons_append] at hr
  rw [receive_first hr]
  exact receiveLong_cut hcut hmem

/-! ## One packet -/

/-- The pieces a packet of `n` bytes is read in, from position `pos` on: its
length and its data are not cut. -/
def WholeReads (seg : Segmentation) (pos n : ℕ) : Prop :=
  (0x7F ≤ n / 4 → seg.cut (pos + 1) 3 = 3) ∧ seg.cut (pos + (header n).length) n = n

theorem length_header (n : ℕ) : (header n).length = if n / 4 < 0x7F then 1 else 4 := by
  by_cases h : n / 4 < 0x7F
  · rw [if_pos h, header_short h]
    rfl
  · rw [if_neg h, header_long h]
    rfl

/-- Behind a length that is not cut, the data is asked for. -/
theorem receive_header (hr : r.Holds ks (header data.length ++ data) rest)
    (hdata : Sendable data.length)
    (hwhole : 0x7F ≤ data.length / 4 → seg.cut (r.wrapped.pos + 1) 3 = 3) :
    receive ks seg mem r = receiveData ks seg mem
      (r.behind (header data.length).length
        (crypt ks (r.recvPos + (header data.length).length) data ++ rest)) data.length := by
  rw [length_header]
  by_cases hshort : data.length / 4 < 0x7F
  · rw [if_pos hshort, receive_short hr hdata hshort]
  · rw [if_neg hshort, receive_long hr hdata hshort (hwhole (Nat.not_lt.mp hshort))]

theorem receive_whole (hr : r.Holds ks (header data.length ++ data) rest)
    (hdata : Sendable data.length) (hwhole : WholeReads seg r.wrapped.pos data.length) :
    receive ks seg mem r
      = (some data, r.behind ((header data.length).length + data.length) rest) := by
  rw [receive_header hr hdata hwhole.1, receiveData_whole (holds_behind ..) hdata hwhole.2]
  simp only [Receiver.behind, Nat.add_assoc]

theorem wholeReads_of_receive (hr : r.Holds ks (header data.length ++ data) rest)
    (hdata : Sendable data.length) (h : ∀ mem, (receive ks seg mem r).1 = some data) :
    WholeReads seg r.wrapped.pos data.length := by
  have hlength : 0x7F ≤ data.length / 4 → seg.cut (r.wrapped.pos + 1) 3 = 3 := by
    intro hlong
    by_contra hcut
    have hmem : 0xFF ^^^ ks (r.recvPos + 3) ^^^ ks (r.recvPos + 3) = 0xFF :=
      XorBytes.xor_xor_self _ _
    have hnone : (receive ks seg (fun _ _ => 0xFF ^^^ ks (r.recvPos + 3)) r).1 = none :=
      receive_long_cut hr (Nat.not_lt.mpr hlong) hcut hmem
    rw [h] at hnone
    cases hnone
  refine ⟨hlength, ?_⟩
  by_contra hcut
  -- two contents of the memory give two last bytes
  have hbyte : ∀ m : UInt8, data[data.length - 1]? = some (m ^^^ _) := fun m =>
    receiveData_cut (fun _ _ => m) (holds_behind ks r ..) hdata hcut
      (receive_header hr hdata hlength ▸ h fun _ _ => m)
  have htwo := (hbyte 0).symm.trans (hbyte 1)
  rw [Option.some.injEq, UInt8.xor_left_inj] at htwo
  exact absurd htwo (by decide)

/-! ## Many packets -/

/-- Every packet is read in whole pieces. -/
def AllWhole (seg : Segmentation) : ℕ → List ℕ → Prop
  | _, [] => True
  | pos, n :: ns => WholeReads seg pos n ∧ AllWhole seg (pos + ((header n).length + n)) ns

theorem receiveAll_iff {payloads : List Bytes} (hpayloads : ∀ p ∈ payloads, Sendable p.length)
    (hr : r.wrapped.rest = sendAll ks r.recvPos payloads) :
    (∀ mem, receiveAll ks seg mem payloads.length r = payloads.map some)
      ↔ AllWhole seg r.wrapped.pos (payloads.map List.length) := by
  induction payloads generalizing r with
  | nil => exact ⟨fun _ => trivial, fun _ _ => rfl⟩
  | cons data rest ih =>
      obtain ⟨hdata, hpayloads⟩ := List.forall_mem_cons.mp hpayloads
      have hholds : r.Holds ks (header data.length ++ data)
          (sendAll ks (send ks r.recvPos data).2 rest) := hr
      have hbehind := ih (r := r.behind ((header data.length).length + data.length)
        (sendAll ks (send ks r.recvPos data).2 rest)) hpayloads
        (by simp [send, Receiver.behind])
      constructor
      · intro h
        have hwhole := wholeReads_of_receive hholds hdata fun mem => (List.cons.inj (h mem)).1
        refine ⟨hwhole, hbehind.mp fun mem => ?_⟩
        have htail := (List.cons.inj (h mem)).2
        rwa [receive_whole hholds hdata hwhole] at htail
      · intro ⟨hwhole, hrest⟩ mem
        have htail := hbehind.mpr hrest mem
        rw [List.length_cons, receiveAll, receive_whole hholds hdata hwhole, htail]
        rfl

/-- **Framing, exactly**: the payloads come back in order, whatever
uninitialised memory holds, if and only if no three bytes of a length and no
payload is cut. -/
theorem receiveAll_sendAll_iff (ks : ℕ → UInt8) (seg : Segmentation) (payloads : List Bytes)
    (hpayloads : ∀ p ∈ payloads, Sendable p.length) :
    (∀ mem, receiveAll ks seg mem payloads.length { wrapped := { rest := sendAll ks 0 payloads } }
        = payloads.map some)
      ↔ AllWhole seg 0 (payloads.map List.length) :=
  receiveAll_iff hpayloads rfl

/-- Everything that is asked for arrives at once. -/
def unsegmented : Segmentation where
  cut _ n := n
  cut_pos _ _ h := h
  cut_le _ n := Nat.le_refl n

theorem receiveAll_sendAll_unsegmented :
    receiveAll (fun _ => 7) unsegmented (fun _ _ => 0) 2
        { wrapped := { rest := sendAll (fun _ => 7) 0 [[1, 2, 3, 4], [5, 6, 7, 8]] } }
      = [some [1, 2, 3, 4], some [5, 6, 7, 8]] :=
  (receiveAll_sendAll_iff (fun _ => 7) unsegmented [[1, 2, 3, 4], [5, 6, 7, 8]]
    (by simp [Sendable])).mpr (by simp [AllWhole, WholeReads, unsegmented]) fun _ _ => 0

/-- One byte at a time. -/
def byteByByte : Segmentation where
  cut _ n := min 1 n
  cut_pos _ n h := by omega
  cut_le _ n := Nat.min_le_right 1 n

/-- Every byte of a body is written to the first byte of the buffer. -/
theorem framing_fails :
    ¬ ∀ (ks : ℕ → UInt8) (seg : Segmentation) (mem : ℕ → ℕ → UInt8) (payloads : List Bytes),
      (∀ p ∈ payloads, Sendable p.length) →
      receiveAll ks seg mem payloads.length { wrapped := { rest := sendAll ks 0 payloads } }
        = payloads.map some := by
  intro h
  have hsendable : ∀ p ∈ [[1, 2, 3, 4]], Sendable (p : Bytes).length := by simp [Sendable]
  have hright := fun mem => h (fun _ => 7) byteByByte mem [[1, 2, 3, 4]] hsendable
  have hwhole := (receiveAll_iff hsendable rfl).mp hright
  simp [AllWhole, WholeReads, byteByByte] at hwhole

end Tgvoip.TCPObfuscated
