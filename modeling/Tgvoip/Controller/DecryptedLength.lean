import Tgvoip.Controller.Crypto

/-!
# DecryptedLength — the length that decryptPacket returns

The packet parser is to find what the plaintext announces: `n` bytes left in
the stream when `n` is returned. Both forms of MTProto2 leave it so. With
MTProto1 the announced length is clamped for the hash, but returned as it
was read, and the stream keeps the padding.
-/

namespace Tgvoip

open ByteReader

/-- The bytes that are decrypted go to a buffer as long as they are. -/
def CryptoFunctions.KeepsLength (fns : CryptoFunctions) : Prop :=
  ∀ key iv bs, (fns.aesIgeDecrypt key iv bs).length = bs.length

namespace CryptoState

variable {fns : CryptoFunctions} {s : CryptoState}

/-! ## Authenticated plaintexts -/

/-- The plaintext behind a hash, with MTProto1, and whether the hash is its. -/
def plaintext1 (fns : CryptoFunctions) (s : CryptoState) (rest : Bytes) : Bytes × Bool :=
  let msgHash := slice rest 8 16
  let aes := s.kdf fns msgHash (if s.isOutgoing then 8 else 0)
  let plain := fns.aesIgeDecrypt aes.1 aes.2 (rest.drop 24)
  let announced := ((u32.run plain).map fun r => r.1.toNat).getD 0
  (plain, msgHash ==
    slice (fns.sha1 (plain.take (min announced (plain.length - 4) + 4))).toList 4 16)

/-- The plaintext behind a msgKey, with MTProto2, and whether the key is its. -/
def plaintext2 (fns : CryptoFunctions) (s : CryptoState) (rest : Bytes) : Bytes × Bool :=
  let header := if s.shortFormat then 0 else 8
  let msgKey := slice rest header 16
  let x := if s.isOutgoing then 8 else 0
  let aes := s.kdf2 fns msgKey x
  let plain := fns.aesIgeDecrypt aes.1 aes.2 (rest.drop (header + 16))
  (plain, (s.shortFormat || rest.take 8 == s.keyFingerprint fns) && msgKey == s.msgKey fns plain x)

/-- The payload a plaintext announces: the bytes behind its length. -/
def Announces (length : Option (ℕ × Bytes)) (payload : Bytes) : Prop :=
  ∃ n content, length = some (n, content) ∧ n ≤ content.length ∧ payload = content.take n

/-- **What a return of `r` is to mean** for the bytes behind the peer tag. -/
structure Postcondition (fns : CryptoFunctions) (s : CryptoState) (rest : Bytes) (r : Decrypted) :
    Prop where
  remaining : 0 < r.len → r.stream.length = r.len
  payload : 0 < r.len →
    if s.useMTProto2 = false ∧ (s.plaintext1 fns rest).2 = true then
      r.len ≤ (s.plaintext1 fns rest).1.length ∧
        Announces (readLength false (s.plaintext1 fns rest).1) r.stream
    else
      (s.plaintext2 fns rest).2 = true ∧ r.len ≤ (s.plaintext2 fns rest).1.length ∧
        Announces (readLength s.shortFormat (s.plaintext2 fns rest).1) r.stream
  upgrade : r.useMTProto2 = true → s.useMTProto2 = false → (s.plaintext2 fns rest).2 = true

/-! ## Reading the length -/

theorem u32_run_ok {plain : Bytes} (h : 4 ≤ plain.length) :
    ∃ len content, u32.run plain = some (len, content) ∧ content.length + 4 = plain.length := by
  match plain, h with
  | a :: b :: c :: d :: bs, _ => exact ⟨_, bs, rfl, rfl⟩

theorem readLength_ok (short : Bool) {plain : Bytes} (h : 4 ≤ plain.length) :
    ∃ n content, readLength short plain = some (n, content) ∧
      content.length + (if short then 2 else 4) = plain.length := by
  match plain, h with
  | a :: b :: c :: d :: bs, _ =>
    cases short with
    | true => exact ⟨_, c :: d :: bs, rfl, by simp⟩
    | false => exact ⟨_, bs, rfl, by simp⟩

theorem run_bytes {n : ℕ} {bs : Bytes} (h : n ≤ bs.length) :
    (bytes n).run bs = some (bs.take n, bs.drop n) := if_neg (Nat.not_lt.mpr h)

/-! ## MTProto2 -/

/-- What MTProto2 leaves when it does not fail. -/
def Opened2 (fns : CryptoFunctions) (s : CryptoState) (rest : Bytes) (r : Decrypted) : Prop :=
  (s.plaintext2 fns rest).2 = true ∧ ∃ n content,
    readLength s.shortFormat (s.plaintext2 fns rest).1 = some (n, content) ∧
    n ≤ content.length ∧ n ≤ (s.plaintext2 fns rest).1.length ∧
    r = { len := n, stream := content.take n, useMTProto2 := true }

theorem open2_ok (hfns : fns.KeepsLength) {rest tail : Bytes} {header : ℕ}
    (hheader : header = if s.shortFormat then 0 else 8) (htail : tail = rest.drop header)
    (hlen : 32 ≤ tail.length) (hprint : (s.shortFormat || rest.take 8 == s.keyFingerprint fns) = true) :
    ∃ r, s.open2 fns tail = some r ∧ (r = s.failed ∨ s.Opened2 fns rest r) := by
  have hplain : s.plaintext2 fns rest =
      (fns.aesIgeDecrypt (s.kdf2 fns (tail.take 16) (if s.isOutgoing then 8 else 0)).1
          (s.kdf2 fns (tail.take 16) (if s.isOutgoing then 8 else 0)).2 (tail.drop 16),
        tail.take 16 == s.msgKey fns (fns.aesIgeDecrypt
          (s.kdf2 fns (tail.take 16) (if s.isOutgoing then 8 else 0)).1
          (s.kdf2 fns (tail.take 16) (if s.isOutgoing then 8 else 0)).2 (tail.drop 16))
          (if s.isOutgoing then 8 else 0)) := by
    unfold plaintext2 slice
    rw [hprint, htail, ← hheader, List.drop_drop]
    rfl
  have hbody : (tail.drop 16).length = tail.length - 16 := List.length_drop
  have hdecrypted := hfns (s.kdf2 fns (tail.take 16) (if s.isOutgoing then 8 else 0)).1
    (s.kdf2 fns (tail.take 16) (if s.isOutgoing then 8 else 0)).2 (tail.drop 16)
  unfold open2 Opened2
  rw [run_bytes (by omega), hplain]
  simp only [Option.bind_eq_bind, Option.bind_some, Option.pure_def]
  generalize fns.aesIgeDecrypt _ _ _ = plain at hdecrypted ⊢
  have hfour : 4 ≤ plain.length := by omega
  obtain ⟨n, content, hread, hcontent⟩ := readLength_ok s.shortFormat hfour
  rw [hread]
  by_cases hlong : (tail.drop 16).length > 1500
  · exact ⟨_, if_pos hlong, .inl rfl⟩
  by_cases hblocks : (tail.drop 16).length % 16 ≠ 0
  · exact ⟨_, (if_neg hlong).trans (if_pos hblocks), .inl rfl⟩
  rw [if_neg hlong, if_neg hblocks]
  by_cases hkey : tail.take 16 = s.msgKey fns plain (if s.isOutgoing then 8 else 0)
  · rw [if_neg (not_not.mpr hkey)]
    simp only [Option.bind_some]
    by_cases hinner : n > (tail.drop 16).length - s.sizeSize
    · exact ⟨_, if_pos hinner, .inl rfl⟩
    by_cases hpadding : (tail.drop 16).length - n < if s.shortFormat = true then 16 else 12
    · exact ⟨_, (if_neg hinner).trans (if_pos hpadding), .inl rfl⟩
    refine ⟨_, (if_neg hinner).trans (if_neg hpadding), .inr ⟨beq_iff_eq.mpr hkey, n, content, rfl, ?_⟩⟩
    -- the padding is longer than the length field
    have hfield : (if s.shortFormat = true then 2 else 4) ≤
        if s.shortFormat = true then 16 else 12 := by
      split
      · decide
      · decide
    have hfits : n ≤ content.length ∧ n ≤ plain.length := by omega
    exact ⟨hfits.1, hfits.2, rfl⟩
  · exact ⟨_, if_pos hkey, .inl rfl⟩

theorem decrypt2_ok (hfns : fns.KeepsLength) {rest : Bytes} (hlen : 40 ≤ rest.length) :
    ∃ r, s.decrypt2 fns rest = some r ∧ (r = s.failed ∨ s.Opened2 fns rest r) := by
  unfold decrypt2
  by_cases hshort : s.shortFormat = true
  · rw [if_pos hshort]
    have hheader : 0 = if s.shortFormat then 0 else 8 := by rw [if_pos hshort]
    exact open2_ok hfns hheader rfl (by omega) (by rw [hshort]; rfl)
  · rw [if_neg hshort, run_bytes (by omega)]
    simp only [Option.bind_eq_bind, Option.bind_some, Option.pure_def]
    by_cases hprint : rest.take 8 = s.keyFingerprint fns
    · rw [if_neg (not_not.mpr hprint)]
      have hrest : 32 ≤ (rest.drop 8).length := by
        rw [List.length_drop]
        omega
      exact open2_ok hfns (by rw [if_neg hshort]) rfl hrest (by simp [hprint])
    · exact ⟨_, if_pos hprint, .inl rfl⟩

/-- MTProto2 leaves what its plaintext announces. -/
theorem Opened2.postcondition {rest : Bytes} {r : Decrypted} (h : s.Opened2 fns rest r)
    (hpath : ¬ (s.useMTProto2 = false ∧ (s.plaintext1 fns rest).2 = true)) :
    Postcondition fns s rest r := by
  obtain ⟨hkey, n, content, hread, hfits, hplain, rfl⟩ := h
  refine ⟨fun _ => List.length_take_of_le hfits, fun _ => ?_, fun _ _ => hkey⟩
  rw [if_neg hpath]
  exact ⟨hkey, hplain, n, content, hread, hfits, rfl⟩

theorem failed_postcondition (rest : Bytes) : Postcondition fns s rest s.failed where
  remaining := fun h => absurd h (Nat.lt_irrefl 0)
  payload := fun h => absurd h (Nat.lt_irrefl 0)
  upgrade := by
    intro hset hunset
    have hset : s.useMTProto2 = true := hset
    rw [hunset] at hset
    cases hset

/-! ## MTProto1 -/

/-- What MTProto1 leaves of a plaintext that announces `len` bytes in front of
`content`. -/
def opened1 (len : UInt32) (content : Bytes) : Decrypted :=
  { len := len.toInt32.toInt64.toUInt64.toNat, stream := content, useMTProto2 := false }

/-- MTProto1, by what is behind the hash. -/
theorem decryptPacket_mtproto1 (hfns : fns.KeepsLength) (hold : s.useMTProto2 = false)
    {buffer : Bytes} {offset : ℕ} (hlen : 40 ≤ (buffer.drop offset).length) :
    ∃ len content, u32.run (s.plaintext1 fns (buffer.drop offset)).1 = some (len, content) ∧
      content.length + 4 = (s.plaintext1 fns (buffer.drop offset)).1.length ∧
      s.decryptPacket fns buffer offset =
        if (s.plaintext1 fns (buffer.drop offset)).2 = true then
          some (opened1 len content)
        else if s.state = .waitInit || s.state = .waitInitAck then
          s.decrypt2 fns (buffer.drop offset)
        else some s.failed := by
  unfold decryptPacket
  generalize buffer.drop offset = rest at hlen ⊢
  have hhash : slice (rest.take 24) 8 16 = slice rest 8 16 := by
    rw [slice, slice, List.drop_take, List.take_take]
    rfl
  have hbody : (rest.drop 24).length = rest.length - 24 := List.length_drop
  have hplain := hfns (s.kdf fns (slice rest 8 16) (if s.isOutgoing then 8 else 0)).1
    (s.kdf fns (slice rest 8 16) (if s.isOutgoing then 8 else 0)).2 (rest.drop 24)
  have hpath : ¬ s.useMTProto2 = true := by simp [hold]
  have htail : 4 ≤ (s.plaintext1 fns rest).1.length := by
    show 4 ≤ (fns.aesIgeDecrypt _ _ _).length
    rw [hplain]
    omega
  obtain ⟨len, content, hread, hcontent⟩ := u32_run_ok htail
  have hmatch : (s.plaintext1 fns rest).2 = (slice rest 8 16 == slice (fns.sha1
      ((s.plaintext1 fns rest).1.take (min len.toNat content.length + 4))).toList 4 16) := by
    have hclamped : (s.plaintext1 fns rest).1.length - 4 = content.length := by omega
    rw [← hclamped]
    show (slice rest 8 16 == slice (fns.sha1 ((s.plaintext1 fns rest).1.take
      (min (((u32.run (s.plaintext1 fns rest).1).map fun r => r.1.toNat).getD 0) _ + 4))).toList 4 16)
      = _
    rw [hread]
    rfl
  refine ⟨len, content, hread, hcontent, ?_⟩
  rw [if_neg hpath, run_bytes (by omega), hmatch]
  simp only [Option.bind_eq_bind, Option.bind_some, hhash]
  show (u32.run (s.plaintext1 fns rest).1).bind _ = _
  rw [hread, Option.bind_some]
  by_cases hsame : slice rest 8 16 = slice (fns.sha1
      ((s.plaintext1 fns rest).1.take (min len.toNat content.length + 4))).toList 4 16
  · rw [if_pos (beq_iff_eq.mpr hsame)]
    exact if_neg (not_not.mpr hsame)
  · have hdiffer : ¬ (slice rest 8 16 == slice (fns.sha1 ((s.plaintext1 fns rest).1.take
        (min len.toNat content.length + 4))).toList 4 16) = true := by rwa [beq_iff_eq]
    exact (if_pos hsame).trans (if_neg hdiffer).symm

/-- The announced length fills the stream (and is not negative), or it is zero. -/
def FillsStream (fns : CryptoFunctions) (s : CryptoState) (rest : Bytes) : Prop :=
  ∀ n content, readLength false (s.plaintext1 fns rest).1 = some (n, content) →
    n = 0 ∨ n = content.length ∧ n < 2 ^ 31

/-- A `size_t` that was an `int32_t`. -/
theorem toNat_signExtended (len : UInt32) :
    len.toInt32.toInt64.toUInt64.toNat =
      if len.toNat < 2 ^ 31 then len.toNat else len.toNat + (2 ^ 64 - 2 ^ 32) := by
  show (BitVec.signExtend 64 len.toBitVec).toNat = _
  have hlt := len.toNat_lt
  have hwiden : (BitVec.setWidth 64 len.toBitVec).toNat = len.toNat := by
    rw [BitVec.toNat_setWidth]
    exact Nat.mod_eq_of_lt (by show len.toNat < _; omega)
  rw [BitVec.toNat_signExtend, hwiden, BitVec.msb_eq_decide]
  show len.toNat + (if decide (2 ^ 31 ≤ len.toNat) = true then _ else 0) = _
  simp only [decide_eq_true_eq]
  split
  · rw [if_neg (by omega)]
  · rw [if_pos (by omega), Nat.add_zero]

section
variable {rest content : Bytes} {len : UInt32}

theorem readLength_of_run {plain : Bytes} (hread : u32.run plain = some (len, content)) :
    readLength false plain = some (len.toNat, content) := by
  show (u32.run plain).map _ = _
  rw [hread]
  rfl

/-- The stream is all of the plaintext, so it has to be what is announced. -/
theorem fillsStream_of_postcondition
    (hpath : s.useMTProto2 = false ∧ (s.plaintext1 fns rest).2 = true)
    (hread : u32.run (s.plaintext1 fns rest).1 = some (len, content))
    (h : Postcondition fns s rest (opened1 len content)) : s.FillsStream fns rest := by
  intro n content' hn
  rw [readLength_of_run hread] at hn
  cases hn
  by_cases hzero : len.toNat = 0
  · exact .inl hzero
  have hlen : (opened1 len content).len =
      if len.toNat < 2 ^ 31 then len.toNat else len.toNat + (2 ^ 64 - 2 ^ 32) :=
    toNat_signExtended len
  have hpos : 0 < (opened1 len content).len := by
    rw [hlen]
    split
    · exact Nat.pos_of_ne_zero hzero
    · omega
  have hpayload := h.payload hpos
  rw [if_pos hpath] at hpayload
  obtain ⟨-, n, content', hn, hfits, htake⟩ := hpayload
  rw [readLength_of_run hread] at hn
  cases hn
  have hlength : content.length = (content.take len.toNat).length := congrArg List.length htake
  rw [List.length_take_of_le hfits] at hlength
  -- a negative length would be returned sign-extended
  have hleft : content.length = (opened1 len content).len := h.remaining hpos
  rw [hlen] at hleft
  refine .inr ⟨hlength.symm, ?_⟩
  split at hleft
  · assumption
  · omega

theorem FillsStream.postcondition (h : s.FillsStream fns rest)
    (hpath : s.useMTProto2 = false ∧ (s.plaintext1 fns rest).2 = true)
    (hread : u32.run (s.plaintext1 fns rest).1 = some (len, content))
    (hcontent : content.length + 4 = (s.plaintext1 fns rest).1.length) :
    Postcondition fns s rest (opened1 len content) := by
  have hlen : (opened1 len content).len =
      if len.toNat < 2 ^ 31 then len.toNat else len.toNat + (2 ^ 64 - 2 ^ 32) :=
    toNat_signExtended len
  have hfills := h _ _ (readLength_of_run hread)
  have hsmall : len.toNat < 2 ^ 31 := by omega
  rw [if_pos hsmall] at hlen
  have hfull : 0 < (opened1 len content).len → len.toNat = content.length := by
    intro hpos
    rw [hlen] at hpos
    omega
  refine ⟨fun hpos => ?_, fun hpos => ?_, fun hset _ => by cases hset⟩
  · rw [hlen]
    exact (hfull hpos).symm
  · rw [if_pos hpath]
    refine ⟨by rw [hlen, hfull hpos]; omega, _, _, readLength_of_run hread, (hfull hpos).le, ?_⟩
    rw [hfull hpos, List.take_length]
    rfl

end

/-- **The postcondition of decryptPacket**: it holds, unless a plaintext of
MTProto1 announces a length other than its own. -/
theorem decryptPacket_postcondition_iff (fns : CryptoFunctions) (s : CryptoState) (buffer : Bytes)
    (offset : ℕ) (hfns : fns.KeepsLength) (hlen : offset + 40 ≤ buffer.length) :
    ∃ r, s.decryptPacket fns buffer offset = some r ∧
      (Postcondition fns s (buffer.drop offset) r ↔
        (s.useMTProto2 = false ∧ (s.plaintext1 fns (buffer.drop offset)).2 = true →
          s.FillsStream fns (buffer.drop offset))) := by
  have hrest : 40 ≤ (buffer.drop offset).length := by
    rw [List.length_drop]
    omega
  generalize hrestdef : buffer.drop offset = rest at hrest
  obtain ⟨r₂, hr₂, hleft⟩ := decrypt2_ok (s := s) hfns hrest
  have hsecond : ¬ (s.useMTProto2 = false ∧ (s.plaintext1 fns rest).2 = true) →
      Postcondition fns s rest r₂ := by
    intro hpath
    rcases hleft with rfl | hopened
    · exact failed_postcondition rest
    · exact hopened.postcondition hpath
  by_cases hnew : s.useMTProto2 = true
  · have hpath : ¬ (s.useMTProto2 = false ∧ (s.plaintext1 fns rest).2 = true) := by simp [hnew]
    refine ⟨r₂, ?_, fun _ h => absurd h hpath, fun _ => hsecond hpath⟩
    unfold decryptPacket
    rw [if_pos hnew, hrestdef, hr₂]
  · have hold : s.useMTProto2 = false := Bool.not_eq_true _ ▸ hnew
    obtain ⟨len, content, hread, hcontent, hrun⟩ :=
      decryptPacket_mtproto1 hfns hold (hrestdef ▸ hrest)
    rw [hrestdef] at hread hcontent hrun
    by_cases hhash : (s.plaintext1 fns rest).2 = true
    · rw [if_pos hhash] at hrun
      refine ⟨_, hrun, fun h _ => ?_, fun h => ?_⟩
      · exact fillsStream_of_postcondition ⟨hold, hhash⟩ hread h
      · exact (h ⟨hold, hhash⟩).postcondition ⟨hold, hhash⟩ hread hcontent
    · have hpath : ¬ (s.useMTProto2 = false ∧ (s.plaintext1 fns rest).2 = true) :=
        fun h => hhash h.2
      rw [if_neg hhash] at hrun
      split at hrun
      · exact ⟨r₂, hrun.trans hr₂, fun _ h => absurd h hpath, fun _ => hsecond hpath⟩
      · exact ⟨_, hrun, fun _ h => absurd h hpath, fun _ => failed_postcondition rest⟩

/-- A sealed packet of one byte, behind its peer tag. -/
def oneDatagram : Bytes :=
  List.replicate 16 9 ++ (oneEnd true).encryptPacket onePacket (fun n => .replicate n 0) [1]

theorem decryptPacket_postcondition_one :
    ∃ r, (oneEnd false).decryptPacket onePacket oneDatagram 16 = some r ∧
      Postcondition onePacket (oneEnd false) (oneDatagram.drop 16) r := by
  have hlen : 16 + 40 ≤ oneDatagram.length := by decide +kernel
  obtain ⟨r, hr, hiff⟩ := decryptPacket_postcondition_iff onePacket (oneEnd false) oneDatagram 16
    length_oneAesIge hlen
  exact ⟨r, hr, hiff.mpr fun h => absurd h.1 (by decide)⟩

/-! ## A padded packet of MTProto1 -/

/-- SHA-1 on what a packet of one byte hashes, under the key of 256 sevens. -/
def paddedSha1 (bs : Bytes) : Vector UInt8 20 :=
  let msgHash : Bytes := [0xFF, 0xA3, 0x8C, 0x8B, 0x45, 0x2A, 0xF7, 0x55, 0xBE, 0x4D, 0x90, 0xA2,
    0x75, 0x6E, 0xBC, 0xD7]
  if bs = [1, 0, 0, 0, 1] then
    #v[0x97, 0xEB, 0xDE, 0x74, 0xFF, 0xA3, 0x8C, 0x8B, 0x45, 0x2A, 0xF7, 0x55, 0xBE, 0x4D, 0x90,
      0xA2, 0x75, 0x6E, 0xBC, 0xD7]
  else if bs = msgHash ++ List.replicate 32 7 then
    #v[0x76, 0x52, 0x1E, 0xCC, 0x1F, 0x3C, 0x47, 0x41, 0x2D, 0xBD, 0xD2, 0xB3, 0x80, 0x46, 0x69,
      0xD8, 0x10, 0x46, 0x60, 0xCB]
  else if bs = List.replicate 16 7 ++ msgHash ++ List.replicate 16 7 then
    #v[0x17, 0x07, 0x1E, 0x1F, 0x78, 0x76, 0x79, 0x0D, 0xFF, 0x13, 0x3A, 0x69, 0x48, 0x2A, 0x37,
      0x94, 0x63, 0x48, 0x57, 0x5C]
  else
    #v[0x59, 0x9E, 0x58, 0xEF, 0x3A, 0xB7, 0xD3, 0x68, 0xAC, 0x3D, 0x01, 0x16, 0x68, 0xA7, 0x75,
      0x9F, 0x1D, 0xC0, 0xA1, 0x96]

/-- What is encrypted: the length, the byte and the padding. -/
def paddedPlain : Bytes := [1, 0, 0, 0, 1] ++ List.replicate 11 0

/-- AES-IGE on the same packet: the ciphertext in place of `paddedPlain`, and back. -/
def paddedAesIge (key iv bs : Bytes) : Bytes :=
  let cipher : Bytes := [0x67, 0x3C, 0x35, 0x78, 0x25, 0xB6, 0x17, 0x4C, 0x8B, 0x35, 0xA8, 0x74,
    0x87, 0x58, 0x2F, 0xBD]
  if key = [0x76, 0x52, 0x1E, 0xCC, 0x1F, 0x3C, 0x47, 0x41, 0xFF, 0x13, 0x3A, 0x69, 0x48, 0x2A,
      0x37, 0x94, 0x63, 0x48, 0x57, 0x5C, 0x3A, 0xB7, 0xD3, 0x68, 0xAC, 0x3D, 0x01, 0x16, 0x68,
      0xA7, 0x75, 0x9F]
      ∧ iv = [0x2D, 0xBD, 0xD2, 0xB3, 0x80, 0x46, 0x69, 0xD8, 0x10, 0x46, 0x60, 0xCB, 0x17, 0x07,
        0x1E, 0x1F, 0x78, 0x76, 0x79, 0x0D, 0x1D, 0xC0, 0xA1, 0x96, 0x76, 0x52, 0x1E, 0xCC, 0x1F,
        0x3C, 0x47, 0x41] then
    Equiv.swap paddedPlain cipher bs
  else bs

/-- Clients with MTProto1 do not hash with SHA-256. -/
def paddedPacket : CryptoFunctions where
  sha1 := paddedSha1
  sha256 _ := .replicate 32 0
  aesIgeEncrypt := paddedAesIge
  aesIgeDecrypt := paddedAesIge

theorem paddedPacket_keepsLength : paddedPacket.KeepsLength := by
  intro key iv bs
  show (paddedAesIge key iv bs).length = bs.length
  rw [paddedAesIge]
  split
  · exact length_swap (by rfl) bs
  · rfl

/-- One byte that an old client sends, behind the peer tag of a relay. -/
def paddedDatagram : Bytes :=
  List.replicate 16 9 ++ ({ oneEnd true with useMTProto2 := false } : CryptoState).encryptPacket
    paddedPacket (fun n => .replicate n 0) [1]

/-- Eleven bytes of padding stay in the stream, and one byte is announced. -/
theorem decryptPacket_postcondition_fails :
    ¬ ∀ (fns : CryptoFunctions) (s : CryptoState) (buffer : Bytes) (offset : ℕ),
      fns.KeepsLength → offset + 40 ≤ buffer.length →
      ∃ r, s.decryptPacket fns buffer offset = some r ∧
        Postcondition fns s (buffer.drop offset) r := by
  intro hall
  obtain ⟨r, hr, h⟩ := hall paddedPacket { oneEnd false with useMTProto2 := false } paddedDatagram
    16 paddedPacket_keepsLength (by decide +kernel)
  have hopened : ({ oneEnd false with useMTProto2 := false } : CryptoState).decryptPacket
      paddedPacket paddedDatagram 16 =
        some { len := 1, stream := 1 :: List.replicate 11 0, useMTProto2 := false } := by
    decide +kernel
  rw [hopened] at hr
  cases hr
  exact absurd (h.remaining Nat.one_pos) (by decide)

end CryptoState

end Tgvoip
