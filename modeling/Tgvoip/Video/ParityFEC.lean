import Tgvoip.Lib.XorBytes

/-!
# ParityFEC — one parity packet over a group of video packets

`encode` XORs all packets of a group, and their lengths into two bytes
behind the longest of them. `decode` is given the packets that arrived
(an empty one for each that did not) and takes them out again; it looks
for the two length bytes behind the longest packet IT HAS.

`decode` shortens its copy of the parity packet with `Resize`. To the length
zero that is `realloc(data, 0)`, which frees the block and returns a null
pointer (in glibc, bionic and MSVC), and `Resize` throws `bad_alloc`.
-/

namespace Tgvoip.ParityFEC

open ByteReader (Bytes decodes_u16 le16)
open XorBytes

/-- Line by line `std::max` over the lengths. -/
def maxSize (packets : List Bytes) : ℕ := packets.foldl (fun size pkt => max size pkt.length) 0

/-- One round of the loop over the packets. -/
def addPacket (maxSize : ℕ) (result pkt : Bytes) : Bytes :=
  let result := xorInto result pkt
  let len := pkt.length.toUInt16
  let result := xorAt result maxSize len.toUInt8
  xorAt result (maxSize + 1) (len >>> 8).toUInt8

def encode (packets : List Bytes) : Bytes :=
  packets.foldl (addPacket (maxSize packets)) (List.replicate (maxSize packets + 2) 0)

/-- The 16-bit number in two bytes of a buffer. -/
def lengthAt (result : Bytes) (i : ℕ) : UInt16 :=
  (result.getD i 0).toUInt16 ||| ((result.getD (i + 1) 0).toUInt16 <<< 8)

/-- `Resize` to a length that is not more than the present one. -/
def resize (result : Bytes) (len : ℕ) : Option Bytes :=
  if len = 0 then none else some (result.take len)

/-- The empty buffer stands for every error, `none` for `bad_alloc`. -/
def decode (dataPackets : List Bytes) (fecPacket : Bytes) : Option Bytes :=
  let size := maxSize dataPackets
  if fecPacket.length < size + 2 then some []
  else
    let (result, emptyCount) := dataPackets.foldl (fun (r : Bytes × UInt32) pkt =>
      if pkt.length = 0 then (r.1, r.2 + 1) else (addPacket size r.1 pkt, r.2)) (fecPacket, 0)
    if emptyCount ≠ 1 then some []
    else
      let len := lengthAt result size
      if len.toNat > size then some [] else resize result len.toNat

/-! ## The longest packet -/

theorem foldl_max_le {packets : List Bytes} {m n : ℕ} :
    packets.foldl (fun size pkt => max size pkt.length) m ≤ n
      ↔ m ≤ n ∧ ∀ p ∈ packets, p.length ≤ n := by
  induction packets generalizing m with
  | nil => simp
  | cons p ps ih => rw [List.foldl_cons, ih, Nat.max_le, List.forall_mem_cons, and_assoc]

theorem maxSize_le {packets : List Bytes} {n : ℕ} :
    maxSize packets ≤ n ↔ ∀ p ∈ packets, p.length ≤ n := by
  simp [maxSize, foldl_max_le]

theorem le_maxSize {packets : List Bytes} {p : Bytes} (h : p ∈ packets) :
    p.length ≤ maxSize packets :=
  maxSize_le.mp (Nat.le_refl _) p h

theorem maxSize_set_le (packets : List Bytes) (i : ℕ) :
    maxSize (packets.set i []) ≤ maxSize packets := by
  rw [maxSize_le]
  intro p hp
  rcases List.mem_or_eq_of_mem_set hp with hp | rfl
  · exact le_maxSize hp
  · exact Nat.zero_le _

/-! ## A group as blocks of one size -/

/-- A packet, filled up to `size` bytes, with its length behind it. -/
def block (size : ℕ) (pkt : Bytes) : Bytes :=
  pkt ++ List.replicate (size - pkt.length) 0 ++ le16 pkt.length.toUInt16

theorem length_block {size : ℕ} {pkt : Bytes} (h : pkt.length ≤ size) :
    (block size pkt).length = size + 2 := by
  simp [block]
  omega

theorem block_nil (size : ℕ) : block size [] = List.replicate (size + 2) 0 := by
  rw [List.replicate_add]
  rfl

/-- A round of the loop takes in the packet's block. -/
theorem addPacket_eq_xorInto {size : ℕ} {result pkt : Bytes} (h : pkt.length ≤ size) :
    addPacket size result pkt = xorInto result (block size pkt) := by
  have hzeros : List.replicate pkt.length (0 : UInt8) ++ List.replicate (size - pkt.length) 0
      = List.replicate size 0 := by
    rw [← List.replicate_add, Nat.add_sub_cancel' h]
  simp only [addPacket, block, xorAt_eq_xorInto]
  rw [List.append_assoc, xorInto_append _ pkt, ← List.append_assoc, hzeros]
  show _ = xorInto _ (_ ++ ([_] ++ [_]))
  rw [← List.append_assoc, xorInto_append _ (_ ++ [_])]
  simp

theorem foldl_addPacket_eq_total {size : ℕ} {result : Bytes} {packets : List Bytes}
    (h : maxSize packets ≤ size) :
    packets.foldl (addPacket size) result = total result (packets.map (block size)) := by
  rw [maxSize_le] at h
  induction packets generalizing result with
  | nil => rfl
  | cons p ps ih =>
      obtain ⟨hp, hps⟩ := List.forall_mem_cons.mp h
      rw [List.foldl_cons, ih hps, addPacket_eq_xorInto hp]
      rfl

/-- An empty packet is as good as none. -/
theorem addPacket_nil (size : ℕ) (result : Bytes) : addPacket size result [] = result := by
  rw [addPacket_eq_xorInto (Nat.zero_le _), block_nil, xorInto_zeros]

/-- The decoder's loop is the encoder's, and counts the empty packets. -/
theorem foldl_decode_eq (size : ℕ) (packets : List Bytes) (r : Bytes) (n : UInt32) :
    packets.foldl (fun (r : Bytes × UInt32) pkt =>
        if pkt.length = 0 then (r.1, r.2 + 1) else (addPacket size r.1 pkt, r.2)) (r, n)
      = (packets.foldl (addPacket size) r, n + (packets.count []).toUInt32) := by
  induction packets generalizing r n with
  | nil => simp
  | cons p ps ih =>
      by_cases hp : p = []
      · subst hp
        simp only [List.foldl_cons, List.length_nil, if_pos, ih, addPacket_nil,
          List.count_cons_self]
        have hcount : (ps.count [] + 1).toUInt32 = (ps.count []).toUInt32 + 1 :=
          UInt32.ofNat_add _ 1
        rw [hcount, UInt32.add_assoc, UInt32.add_comm 1]
      · have : p.length ≠ 0 := by simpa using hp
        simp only [List.foldl_cons, if_neg this, ih]
        rw [List.count_cons_of_ne hp]

/-- What the two length bytes give, with the packets that arrived taken out. -/
def recoveredLength (packets : List Bytes) (fec : Bytes) : ℕ :=
  (lengthAt (packets.foldl (addPacket (maxSize packets)) fec) (maxSize packets)).toNat

/-- The parity packet is long enough, and one packet is missing. -/
structure OneLost (packets : List Bytes) (fec : Bytes) : Prop where
  long : maxSize packets + 2 ≤ fec.length
  single : (packets.count []).toUInt32 = 1

/-- **When anything is decoded**: the length bytes give the packet that is missing a length that
fits. -/
structure Recovers (packets : List Bytes) (fec : Bytes) : Prop extends OneLost packets fec where
  length : 0 < recoveredLength packets fec ∧ recoveredLength packets fec ≤ maxSize packets

/-- **When the decoder throws**: they give it no length. -/
structure Blank (packets : List Bytes) (fec : Bytes) : Prop extends OneLost packets fec where
  length : recoveredLength packets fec = 0

instance (packets : List Bytes) (fec : Bytes) : Decidable (OneLost packets fec) :=
  decidable_of_iff (_ ∧ _) ⟨fun h => ⟨h.1, h.2⟩, fun h => ⟨h.long, h.single⟩⟩

instance (packets : List Bytes) (fec : Bytes) : Decidable (Recovers packets fec) :=
  decidable_of_iff (_ ∧ _) ⟨fun h => ⟨h.1, h.2⟩, fun h => ⟨h.toOneLost, h.length⟩⟩

instance (packets : List Bytes) (fec : Bytes) : Decidable (Blank packets fec) :=
  decidable_of_iff (_ ∧ _) ⟨fun h => ⟨h.1, h.2⟩, fun h => ⟨h.toOneLost, h.length⟩⟩

theorem length_addPacket (size : ℕ) (result pkt : Bytes) :
    (addPacket size result pkt).length = result.length := by
  simp [addPacket, xorAt_eq_xorInto]

theorem length_foldl_addPacket (size : ℕ) (packets : List Bytes) (result : Bytes) :
    (packets.foldl (addPacket size) result).length = result.length := by
  induction packets generalizing result with
  | nil => rfl
  | cons p ps ih => rw [List.foldl_cons, ih, length_addPacket]

/-- The decoder, with its loop as the encoder's. -/
theorem decode_eq (packets : List Bytes) (fec : Bytes) :
    decode packets fec =
      if OneLost packets fec then
        if recoveredLength packets fec > maxSize packets then some []
        else resize (packets.foldl (addPacket (maxSize packets)) fec) (recoveredLength packets fec)
      else some [] := by
  rw [decode]
  by_cases hlong : fec.length < maxSize packets + 2
  · rw [if_pos hlong, if_neg fun h => absurd h.long (Nat.not_le.mpr hlong)]
  simp only [if_neg hlong, foldl_decode_eq, UInt32.zero_add]
  by_cases hsingle : (packets.count []).toUInt32 = 1
  · have hlost : OneLost packets fec := ⟨Nat.not_lt.mp hlong, hsingle⟩
    rw [if_pos hlost, if_neg (not_not.mpr hsingle)]
    rfl
  · rw [if_pos hsingle, if_neg fun h => hsingle h.single]

/-- Nothing is decoded that is longer than the longest packet at hand. -/
theorem length_decode_le {packets : List Bytes} {fec recovered : Bytes}
    (h : decode packets fec = some recovered) : recovered.length ≤ maxSize packets := by
  rw [decode_eq] at h
  split_ifs at h with hlost hlong
  · cases h
    exact Nat.zero_le _
  · unfold resize at h
    split_ifs at h
    cases h
    rw [List.length_take]
    omega
  · cases h
    exact Nat.zero_le _

theorem decode_eq_none_iff {packets : List Bytes} {fec : Bytes} :
    decode packets fec = none ↔ Blank packets fec := by
  rw [decode_eq]
  constructor
  · intro h
    split_ifs at h with hlost hlong
    unfold resize at h
    split_ifs at h with hzero
    exact ⟨hlost, hzero⟩
  · intro h
    rw [if_pos h.toOneLost, h.length, if_neg (Nat.not_lt_zero _)]
    rfl

theorem decode_ne_nil_iff {packets : List Bytes} {fec : Bytes} :
    (∃ recovered, decode packets fec = some recovered ∧ recovered ≠ []) ↔ Recovers packets fec := by
  rw [decode_eq]
  constructor
  · rintro ⟨recovered, h, hsome⟩
    split_ifs at h with hlost hlong
    · exact absurd (Option.some.inj h).symm hsome
    · unfold resize at h
      split_ifs at h with hzero
      exact ⟨hlost, Nat.pos_of_ne_zero hzero, Nat.not_lt.mp hlong⟩
    · exact absurd (Option.some.inj h).symm hsome
  · intro h
    have hpos := h.length.1
    refine ⟨(packets.foldl (addPacket (maxSize packets)) fec).take (recoveredLength packets fec),
      ?_, ?_⟩
    · rw [if_pos h.toOneLost, if_neg (Nat.not_lt.mpr h.length.2), resize, if_neg hpos.ne']
    · rw [ne_eq, List.take_eq_nil_iff, not_or]
      refine ⟨hpos.ne', fun hnil => ?_⟩
      have hlength := length_foldl_addPacket (maxSize packets) packets fec
      rw [hnil] at hlength
      have hlong := h.long
      rw [← hlength] at hlong
      exact absurd hlong (by simp)

/-- **Recovery**: taking the rest of the group out of the parity packet
leaves the block of the packet that is missing. -/
theorem foldl_addPacket_encode {packets : List Bytes} {i : ℕ} (hi : i < packets.length) :
    (packets.set i []).foldl (addPacket (maxSize packets)) (encode packets)
      = block (maxSize packets) packets[i] := by
  have hlen := length_block (le_maxSize (List.getElem_mem hi))
  rw [encode, foldl_addPacket_eq_total (maxSize_set_le _ _), foldl_addPacket_eq_total (Nat.le_refl _),
    List.map_set, block_nil, total_set_total _ (by simpa using hi), List.getElem_map, ← hlen,
    zeros_xorInto]

theorem lengthAt_block {size : ℕ} {pkt : Bytes} (h : pkt.length ≤ size) :
    lengthAt (block size pkt) size = pkt.length.toUInt16 := by
  have hdata : (pkt ++ List.replicate (size - pkt.length) (0 : UInt8)).length = size := by
    simp [h]
  have hread := decodes_u16 pkt.length.toUInt16 []
  rw [lengthAt, block, List.getD_append_right _ _ _ _ hdata.le,
    List.getD_append_right _ _ _ _ (by omega), hdata, Nat.sub_self, Nat.add_sub_cancel_left]
  exact congrArg Prod.fst (Option.some.inj hread)

/-! ## What the decoder gives back -/

/-- With an empty packet in place of the lost one, one is missing. -/
theorem count_nil_set {packets : List Bytes} (hpackets : ∀ p ∈ packets, p ≠ []) {i : ℕ}
    (hi : i < packets.length) : (packets.set i []).count [] = 1 := by
  have hnone : packets.count [] = 0 :=
    List.count_eq_zero.mpr fun h => hpackets [] h rfl
  rw [List.count_set hi, hnone]
  have hlost : packets[i] ≠ [] := hpackets _ (List.getElem_mem hi)
  simp [hlost]

theorem mem_set_of_ne {packets : List Bytes} {i j : ℕ} (hj : j < packets.length) (h : j ≠ i) :
    packets[j] ∈ packets.set i [] := by
  rw [← List.getElem_set_ne (Ne.symm h) (by simpa using hj)]
  exact List.getElem_mem _

/-- The decoder looks for the length where the encoder put it as soon as
a packet that arrived is as long as the lost one. -/
theorem maxSize_set {packets : List Bytes} {i j : ℕ} (hi : i < packets.length)
    (hj : j < packets.length) (hne : j ≠ i) (h : packets[i].length ≤ packets[j].length) :
    maxSize (packets.set i []) = maxSize packets := by
  apply Nat.le_antisymm (maxSize_set_le packets i)
  rw [maxSize_le]
  intro p hp
  obtain ⟨k, hk, rfl⟩ := List.getElem_of_mem hp
  by_cases hki : k = i
  · subst hki
    exact h.trans (le_maxSize (mem_set_of_ne hj hne))
  · exact le_maxSize (mem_set_of_ne hk hki)

/-- Where both look in one place, the lost packet comes back. -/
theorem decode_encode {packets : List Bytes} (hpackets : ∀ p ∈ packets, p ≠ [] ∧ p.length < 65536)
    {i : ℕ} (hi : i < packets.length)
    (hsize : maxSize (packets.set i []) = maxSize packets) :
    decode (packets.set i []) (encode packets) = some packets[i] := by
  obtain ⟨hne, hshort⟩ := hpackets _ (List.getElem_mem hi)
  have hle := le_maxSize (List.getElem_mem hi)
  have hfec : (encode packets).length = maxSize packets + 2 := by
    rw [encode, foldl_addPacket_eq_total (Nat.le_refl _), length_total, List.length_replicate]
  have hlen : packets[i].length.toUInt16.toNat = packets[i].length := by
    rw [Nat.toUInt16, UInt16.toNat_ofNat', Nat.mod_eq_of_lt hshort]
  have hlost : OneLost (packets.set i []) (encode packets) := by
    refine ⟨by rw [hsize, hfec], ?_⟩
    rw [count_nil_set (fun p hp => (hpackets p hp).1) hi]
    rfl
  have hrecovered : recoveredLength (packets.set i []) (encode packets) = packets[i].length := by
    rw [recoveredLength, hsize, foldl_addPacket_encode hi, lengthAt_block hle, hlen]
  rw [decode_eq, if_pos hlost, hrecovered, hsize, if_neg (Nat.not_lt.mpr hle), resize,
    if_neg (List.length_pos_iff.mpr hne).ne', foldl_addPacket_encode hi, block, List.append_assoc,
    List.take_left]

/-! ## Packets in another order -/

theorem maxSize_perm {packets packets' : List Bytes} (h : packets.Perm packets') :
    maxSize packets = maxSize packets' := by
  apply Nat.le_antisymm
  · rw [maxSize_le]
    exact fun p hp => le_maxSize (h.mem_iff.mp hp)
  · rw [maxSize_le]
    exact fun p hp => le_maxSize (h.mem_iff.mpr hp)

theorem decode_perm {packets packets' : List Bytes} (h : packets.Perm packets') (fec : Bytes) :
    decode packets fec = decode packets' fec := by
  have hsize := maxSize_perm h
  rw [decode, decode, foldl_decode_eq, foldl_decode_eq, hsize,
    foldl_addPacket_eq_total (Nat.le_of_eq hsize), foldl_addPacket_eq_total (Nat.le_refl _),
    total_perm (h.map _), h.count_eq]

/-- A lost packet comes back exactly if another one is at least as long. -/
theorem decode_encode_iff (packets : List Bytes)
    (hpackets : ∀ p ∈ packets, p ≠ [] ∧ p.length < 65536) (i : ℕ) (hi : i < packets.length) :
    decode (packets.set i []) (encode packets) = some packets[i]
      ↔ ∃ j, ∃ hj : j < packets.length, j ≠ i ∧ packets[i].length ≤ packets[j].length := by
  constructor
  · intro h
    by_contra! hshorter
    have hpos : 0 < packets[i].length :=
      List.length_pos_iff.mpr (hpackets _ (List.getElem_mem hi)).1
    -- all that arrived is shorter, and so is all that can be decoded
    have hsize : maxSize (packets.set i []) ≤ packets[i].length - 1 := by
      rw [maxSize_le]
      intro p hp
      obtain ⟨k, hk, rfl⟩ := List.getElem_of_mem hp
      have hk' : k < packets.length := by simpa using hk
      by_cases hki : k = i
      · subst hki
        simp
      · rw [List.getElem_set_ne (Ne.symm hki)]
        have := hshorter k hk' hki
        omega
    have hlength := length_decode_le h
    omega
  · rintro ⟨j, hj, hne, hle⟩
    exact decode_encode hpackets hi (maxSize_set hi hj hne hle)

theorem decode_encode_iff_pair :
    decode ([[1, 2], [3]].set 1 []) (encode [[1, 2], [3]]) = some [3] :=
  (decode_encode_iff [[1, 2], [3]] (by decide) 1 (by decide)).mpr
    ⟨0, by decide, by decide, by decide⟩

/-- The longest of two packets is lost: the decoder takes the length from
where only the second packet ends. -/
theorem single_loss_fails :
    ¬ ∀ packets : List Bytes, (∀ p ∈ packets, p ≠ [] ∧ p.length < 65536) →
      ∀ (i : ℕ) (hi : i < packets.length),
        decode (packets.set i []) (encode packets) = some packets[i] := by
  intro h
  exact absurd (h [[1, 2], [3]] (by decide) 0 (by decide)) (by decide)

end Tgvoip.ParityFEC
