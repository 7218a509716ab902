import Tgvoip.Packets.Legacy

/-!
# Crypto — sealing and opening a packet

`controller/controller/Crypto.cpp`. With MTProto2 a packet is its length,
its data and random padding, encrypted under a key that is derived from a
hash of these and from a part of the call's key; the two ends of a call use
different parts. The hash (`msgKey`) is sent in front. Clients that may be
old also send the fingerprint of the key, and a longer length field.

SHA-1, SHA-256 and AES-IGE are parameters (`CryptoFunctions`), and so are
the random bytes.
-/

namespace Tgvoip

open ByteReader

/-- `memcpy` of `n` bytes from `offset` on. -/
def slice (bs : Bytes) (offset n : ℕ) : Bytes := (bs.drop offset).take n

/-- `CryptoFunctions` (`VoIPController.h`), those used here. -/
structure CryptoFunctions where
  sha1 : Bytes → Vector UInt8 20
  sha256 : Bytes → Vector UInt8 32
  aesIgeEncrypt (key iv : Bytes) : Bytes → Bytes
  aesIgeDecrypt (key iv : Bytes) : Bytes → Bytes

/-- AES-IGE on whole blocks: as many bytes as before, and decryption undoes
encryption under the same key and vector. -/
structure CryptoFunctions.Lawful (fns : CryptoFunctions) : Prop where
  length_encrypt : ∀ key iv bs, key.length = 32 → iv.length = 32 → 16 ∣ bs.length →
    (fns.aesIgeEncrypt key iv bs).length = bs.length
  decrypt_encrypt : ∀ key iv bs, key.length = 32 → iv.length = 32 → 16 ∣ bs.length →
    fns.aesIgeDecrypt key iv (fns.aesIgeEncrypt key iv bs) = bs

/-- What sealing and opening read of the controller. -/
structure CryptoState where
  encryptionKey : { bs : Bytes // bs.length = 256 }
  isOutgoing : Bool
  useMTProto2 : Bool
  ver : VersionInfo
  state : CallState := .waitInit

/-- What `decryptPacket` leaves: the length it returns (zero for every
failure), what is left to read, and whether MTProto2 is used from now on. -/
structure Decrypted where
  len : ℕ
  stream : Bytes
  useMTProto2 : Bool
  deriving DecidableEq, Repr

namespace CryptoState

variable (fns : CryptoFunctions) (s : CryptoState)

/-- `SetEncryptionKey`. -/
def keyFingerprint : Bytes := slice (fns.sha1 s.encryptionKey).toList 12 8

/-- `KDF`: the AES key and vector. -/
def kdf (msgKey : Bytes) (x : ℕ) : Bytes × Bytes :=
  let sA := (fns.sha1 (msgKey ++ slice s.encryptionKey x 32)).toList
  let sB := (fns.sha1 (slice s.encryptionKey (32 + x) 16 ++ msgKey ++
    slice s.encryptionKey (48 + x) 16)).toList
  let sC := (fns.sha1 (slice s.encryptionKey (64 + x) 32 ++ msgKey)).toList
  let sD := (fns.sha1 (msgKey ++ slice s.encryptionKey (96 + x) 32)).toList
  (slice sA 0 8 ++ slice sB 8 12 ++ slice sC 4 12,
    slice sA 8 12 ++ slice sB 0 8 ++ slice sC 16 4 ++ slice sD 0 8)

/-- `KDF2`: the AES key and vector. -/
def kdf2 (msgKey : Bytes) (x : ℕ) : Bytes × Bytes :=
  let sA := (fns.sha256 (msgKey ++ slice s.encryptionKey x 36)).toList
  let sB := (fns.sha256 (slice s.encryptionKey (40 + x) 36 ++ msgKey)).toList
  (slice sA 0 8 ++ slice sB 8 16 ++ slice sA 24 8, slice sB 0 8 ++ slice sA 8 16 ++ slice sB 24 8)

/-- The short format: no fingerprint, a length of two bytes. -/
def shortFormat : Bool := !s.ver.isLegacyLegacy

/-- How many bytes of the length are not hashed. -/
def sizeSize : ℕ := if s.shortFormat then 0 else 4

/-! ## Sealing -/

/-- At least 16 bytes, up to a whole number of blocks. -/
def padLen (length : ℕ) : ℕ :=
  let padLen := 16 - length % 16
  if padLen < 16 then padLen + 16 else padLen

/-- The length in front of the data. -/
def lengthField (short : Bool) (len : ℕ) : Bytes :=
  if short then le16 len.toUInt16 else le32 len.toUInt32

/-- What is encrypted with MTProto2. -/
def inner (padding : (n : ℕ) → Vector UInt8 n) (data : Bytes) : Bytes :=
  let inner := lengthField s.shortFormat data.length ++ data
  inner ++ (padding (padLen inner.length)).toList

/-- The hash of what is encrypted, with the part of the key that starts at `x`. -/
def msgKey (inner : Bytes) (x : ℕ) : Bytes :=
  slice (fns.sha256 (slice s.encryptionKey (88 + x) 32 ++ inner.drop s.sizeSize)).toList 8 16

/-- The branch of `encryptPacket` for MTProto2. -/
def encrypt2 (padding : (n : ℕ) → Vector UInt8 n) (data : Bytes) : Bytes :=
  let x := if s.isOutgoing then 0 else 8
  let inner := s.inner padding data
  let msgKey := s.msgKey fns inner x
  let aes := s.kdf2 fns msgKey x
  (if s.shortFormat then [] else s.keyFingerprint fns) ++ msgKey ++
    fns.aesIgeEncrypt aes.1 aes.2 inner

/-- The branch of `encryptPacket` for MTProto1. -/
def encrypt1 (padding : (n : ℕ) → Vector UInt8 n) (data : Bytes) : Bytes :=
  let unpadded := le32 data.length.toUInt32 ++ data
  let inner := if unpadded.length % 16 ≠ 0 then
    unpadded ++ (padding (16 - unpadded.length % 16)).toList else unpadded
  let msgHash := slice (fns.sha1 (inner.take (data.length + 4))).toList 4 16
  let aes := s.kdf fns msgHash (if s.isOutgoing then 0 else 8)
  s.keyFingerprint fns ++ msgHash ++ fns.aesIgeEncrypt aes.1 aes.2 inner

def encryptPacket (padding : (n : ℕ) → Vector UInt8 n) (data : Bytes) : Bytes :=
  if s.useMTProto2 then s.encrypt2 fns padding data else s.encrypt1 fns padding data

/-! ## Opening -/

/-- `return 0`. -/
def failed : Decrypted := { len := 0, stream := [], useMTProto2 := s.useMTProto2 }

/-- The length, and what follows it. A 16-bit length is sign-extended on its
way to `uint32_t`. -/
def readLength (short : Bool) (decrypted : Bytes) : Option (ℕ × Bytes) :=
  if short then (u16.run decrypted).map fun r => (r.1.toInt16.toInt32.toUInt32.toNat, r.2)
  else (u32.run decrypted).map fun r => (r.1.toNat, r.2)

/-- The MTProto2 part of `decryptPacket`, from the msgKey on. -/
def open2 (rest : Bytes) : Option Decrypted := do
  let (msgKey, body) ← (bytes 16).run rest
  if body.length > 1500 then pure s.failed
  else if body.length % 16 ≠ 0 then pure s.failed
  else
    let x := if s.isOutgoing then 8 else 0
    let aes := s.kdf2 fns msgKey x
    let decrypted := fns.aesIgeDecrypt aes.1 aes.2 body
    if msgKey ≠ s.msgKey fns decrypted x then pure s.failed
    else
      let (innerLen, content) ← readLength s.shortFormat decrypted
      if innerLen > body.length - s.sizeSize then pure s.failed
      else if body.length - innerLen < if s.shortFormat then 16 else 12 then pure s.failed
      else pure { len := innerLen, stream := content.take innerLen, useMTProto2 := true }

/-- The MTProto2 part of `decryptPacket`. -/
def decrypt2 (rest : Bytes) : Option Decrypted :=
  if s.shortFormat then s.open2 fns rest
  else do
    let (fingerprint, rest) ← (bytes 8).run rest
    if fingerprint ≠ s.keyFingerprint fns then pure s.failed else s.open2 fns rest

/-- `decryptPacket` on a buffer whose first `offset` bytes were read; `none` is
an exception (`std::out_of_range`). The stack buffer of MTProto1 is as long as
the packet. -/
def decryptPacket (buffer : Bytes) (offset : ℕ) : Option Decrypted :=
  let rest := buffer.drop offset
  if s.useMTProto2 then s.decrypt2 fns rest
  else do
    let (header, body) ← (bytes 24).run rest
    let msgHash := slice header 8 16
    let aes := s.kdf fns msgHash (if s.isOutgoing then 8 else 0)
    let aesOut := fns.aesIgeDecrypt aes.1 aes.2 body
    let (len, content) ← u32.run aesOut
    let hashed := min len.toNat content.length
    if msgHash ≠ slice (fns.sha1 (aesOut.take (hashed + 4))).toList 4 16 then
      if s.state = .waitInit || s.state = .waitInitAck then s.decrypt2 fns rest
      else pure s.failed
    else
      pure { len := len.toInt32.toInt64.toUInt64.toNat, stream := content, useMTProto2 := false }

/-! ## Lengths -/

theorem length_slice {bs : Bytes} {offset n : ℕ} (h : offset + n ≤ bs.length) :
    (slice bs offset n).length = n := by
  rw [slice, List.length_take, List.length_drop]
  omega

variable {fns : CryptoFunctions} {s r : CryptoState}

theorem length_msgKey (inner : Bytes) (x : ℕ) : (s.msgKey fns inner x).length = 16 :=
  length_slice (by simp)

theorem length_keyFingerprint : (s.keyFingerprint fns).length = 8 := length_slice (by simp)

theorem length_kdf2 (msgKey : Bytes) (x : ℕ) :
    (s.kdf2 fns msgKey x).1.length = 32 ∧ (s.kdf2 fns msgKey x).2.length = 32 := by
  have hslice : ∀ (v : Vector UInt8 32) offset n, offset + n ≤ 32 →
      (slice v.toList offset n).length = n := fun v offset n h => length_slice (by simpa using h)
  simp [kdf2, hslice]

/-! ## The inner packet -/

/-- The padding fills the last block, and is a block long at least. -/
theorem dvd_add_padLen (length : ℕ) : 16 ∣ length + padLen length ∧ 16 ≤ padLen length := by
  rw [padLen]
  split
  · omega
  · omega

theorem dvd_length_inner (padding : (n : ℕ) → Vector UInt8 n) (data : Bytes) :
    16 ∣ (s.inner padding data).length := by
  rw [inner, List.length_append, Vector.length_toList]
  exact (dvd_add_padLen _).1

/-- A length below `2^15` is not changed by its way through signed numbers. -/
theorem toNat_signed {n : ℕ} (h : n < 2 ^ 15) :
    n.toUInt16.toInt16.toInt32.toUInt32.toNat = n := by
  show (BitVec.signExtend 32 (BitVec.ofNat 16 n)).toNat = n
  rw [BitVec.signExtend_eq_setWidth_of_msb_false]
  · simp
    omega
  · rw [BitVec.msb_eq_decide]
    simp
    omega

/-! ## The two ends -/

/-- The two ends of a call that expect the same format. -/
structure Peers (s r : CryptoState) : Prop where
  key : r.encryptionKey = s.encryptionKey
  role : r.isOutgoing = !s.isOutgoing
  format : r.ver.isLegacyLegacy = s.ver.isLegacyLegacy

namespace Peers

theorem shortFormat (h : Peers s r) : r.shortFormat = s.shortFormat := by
  rw [CryptoState.shortFormat, CryptoState.shortFormat, h.format]

theorem sizeSize (h : Peers s r) : r.sizeSize = s.sizeSize := by
  rw [CryptoState.sizeSize, CryptoState.sizeSize, h.shortFormat]

theorem keyFingerprint (h : Peers s r) : r.keyFingerprint fns = s.keyFingerprint fns := by
  rw [CryptoState.keyFingerprint, CryptoState.keyFingerprint, h.key]

theorem msgKey (h : Peers s r) (inner : Bytes) (x : ℕ) :
    r.msgKey fns inner x = s.msgKey fns inner x := by
  rw [CryptoState.msgKey, CryptoState.msgKey, h.key, h.sizeSize]

theorem kdf2 (h : Peers s r) (msgKey : Bytes) (x : ℕ) :
    r.kdf2 fns msgKey x = s.kdf2 fns msgKey x := by
  rw [CryptoState.kdf2, CryptoState.kdf2, h.key]

/-- The receiver opens with the part of the key the sender sealed with. -/
theorem offset (h : Peers s r) :
    (if r.isOutgoing then 8 else 0) = if s.isOutgoing then 0 else 8 := by
  rw [h.role]
  cases s.isOutgoing <;> rfl

end Peers

/-! ## Round trip -/

theorem readLength_lengthField (short : Bool) {n : ℕ} (h : n < 2 ^ 15) (rest : Bytes) :
    readLength short (lengthField short n ++ rest) = some (n, rest) := by
  cases short with
  | false =>
      have hread := decodes_u32 n.toUInt32 rest
      have hn : n.toUInt32.toNat = n := by
        rw [Nat.toUInt32, UInt32.toNat_ofNat', Nat.mod_eq_of_lt (by omega)]
      simp [readLength, lengthField, hread, hn]
  | true =>
      have hread := decodes_u16 n.toUInt16 rest
      simp only [readLength, lengthField, if_true, hread, Option.map_some, toNat_signed h]

theorem length_lengthField (short : Bool) (n : ℕ) :
    (lengthField short n).length = if short then 2 else 4 := by
  cases short <;> rfl

theorem open2_seal (hfns : fns.Lawful) (h : Peers s r) (padding : (n : ℕ) → Vector UInt8 n)
    {data : Bytes} (hfit : (s.inner padding data).length ≤ 1500) {x : ℕ}
    (hx : x = if s.isOutgoing then 0 else 8) :
    r.open2 fns (s.msgKey fns (s.inner padding data) x ++
        fns.aesIgeEncrypt (s.kdf2 fns (s.msgKey fns (s.inner padding data) x) x).1
          (s.kdf2 fns (s.msgKey fns (s.inner padding data) x) x).2 (s.inner padding data))
      = some { len := data.length, stream := data, useMTProto2 := true } := by
  have hdvd := dvd_length_inner (s := s) padding data
  obtain ⟨pad, hpad, hinner⟩ : ∃ pad : Bytes, 16 ≤ pad.length ∧
      s.inner padding data = lengthField s.shortFormat data.length ++ (data ++ pad) :=
    ⟨(padding _).toList, by rw [Vector.length_toList]; exact (dvd_add_padLen _).2,
      List.append_assoc ..⟩
  generalize s.inner padding data = inner at hfit hdvd hinner ⊢
  have hlen : inner.length = (if s.shortFormat then 2 else 4) + data.length + pad.length := by
    rw [hinner, List.length_append, List.length_append, length_lengthField, Nat.add_assoc]
  have hkdf : (s.kdf2 fns (s.msgKey fns inner x) x).1.length = 32 ∧
      (s.kdf2 fns (s.msgKey fns inner x) x).2.length = 32 := length_kdf2 _ x
  obtain ⟨hkey, hiv⟩ := hkdf
  have hbody := hfns.length_encrypt _ _ inner hkey hiv hdvd
  have hread := decodes_bytes (s.msgKey fns inner x)
  rw [length_msgKey] at hread
  rw [open2, hread]
  simp only [Option.bind_eq_bind, Option.bind_some, h.offset, ← hx, h.kdf2, h.msgKey, h.shortFormat,
    h.sizeSize, hbody, hfns.decrypt_encrypt _ _ inner hkey hiv hdvd]
  have hcontent : readLength s.shortFormat inner = some (data.length, data ++ pad) := by
    rw [hinner]
    exact readLength_lengthField _ (by omega) _
  rw [if_neg (by omega), if_neg (by omega), if_neg (by simp), hcontent]
  simp only [Option.bind_some, sizeSize]
  rw [if_neg, if_neg, List.take_left]
  · rfl
  · -- the padding is a block at least, with the bytes of the length on top
    rw [hlen]
    split <;> omega
  · rw [hlen]
    split <;> omega

theorem decryptPacket_encryptPacket (fns : CryptoFunctions) (hfns : fns.Lawful) (s r : CryptoState)
    (hpeers : Peers s r) (hs : s.useMTProto2 = true) (hr : r.useMTProto2 = true)
    (padding : (n : ℕ) → Vector UInt8 n) (tag data : Bytes)
    (hfit : (s.inner padding data).length ≤ 1500) :
    r.decryptPacket fns (tag ++ s.encryptPacket fns padding data) tag.length
      = some { len := data.length, stream := data, useMTProto2 := true } := by
  rw [decryptPacket, if_pos hr, encryptPacket, if_pos hs, List.drop_left, decrypt2, encrypt2,
    hpeers.shortFormat]
  by_cases hshort : s.shortFormat = true
  · rw [if_pos hshort, if_pos hshort, List.nil_append]
    exact open2_seal hfns hpeers padding hfit rfl
  · have hread := decodes_bytes (s.keyFingerprint fns)
    rw [length_keyFingerprint] at hread
    rw [if_neg hshort, if_neg hshort, List.append_assoc, hread]
    simp only [Option.bind_eq_bind, Option.bind_some, hpeers.keyFingerprint]
    rw [if_neg (by simp)]
    exact open2_seal hfns hpeers padding hfit rfl

/-! ## One packet -/

/-- A packet of one byte, padded. -/
def onePlain : Bytes := [1, 0, 1] ++ List.replicate 29 0

/-- SHA-256 on what a packet under the key of 256 sevens hashes. -/
def oneSha256 (bs : Bytes) : Vector UInt8 32 :=
  if bs = List.replicate 32 7 ++ onePlain then
    #v[0x5C, 0xEF, 0x08, 0x83, 0xF1, 0x5A, 0xEC, 0x36, 0xAC, 0x79, 0xDB, 0x81,
      0xE1, 0x04, 0xDB, 0x98, 0x98, 0x1B, 0x61, 0x3F, 0x81, 0xD3, 0x27, 0x9B,
      0x53, 0x69, 0x75, 0x0D, 0x85, 0xE1, 0x48, 0xE3]
  else if bs = [0xAC, 0x79, 0xDB, 0x81, 0xE1, 0x04, 0xDB, 0x98, 0x98, 0x1B, 0x61, 0x3F,
        0x81, 0xD3, 0x27, 0x9B]
      ++ List.replicate 36 7 then
    #v[0x8B, 0x8E, 0xCE, 0x0B, 0x6D, 0xF2, 0xE0, 0x8C, 0x3A, 0x58, 0x64, 0x30,
      0xB9, 0x62, 0x2C, 0x3F, 0xDD, 0x83, 0x53, 0xD9, 0xA9, 0xDC, 0xD0, 0x1C,
      0x99, 0x3A, 0xD1, 0x07, 0x74, 0x05, 0x33, 0xA3]
  else
    #v[0x8F, 0x72, 0xB7, 0x4A, 0x18, 0xE7, 0x11, 0xA4, 0x64, 0xA0, 0x23, 0xC7,
      0xC0, 0xF0, 0xCF, 0xED, 0x10, 0x1A, 0xA0, 0x33, 0x33, 0x2B, 0x3E, 0x50,
      0x05, 0x7E, 0x2C, 0x9F, 0x5B, 0xAF, 0xAD, 0x6A]

/-- AES-IGE on the same packet: the ciphertext in place of `onePlain`, and back. -/
def oneAesIge (key iv bs : Bytes) : Bytes :=
  let cipher : Bytes := [0x80, 0x80, 0xA5, 0x1B, 0xD2, 0x64, 0x2D, 0xDD, 0x8A, 0x9D, 0x06, 0xE8,
      0x1D, 0x6D, 0x8D, 0xA6, 0xDB, 0x90, 0x39, 0x8E, 0xAA, 0x36, 0xE5, 0x64,
      0xFB, 0x10, 0x89, 0x6B, 0xCA, 0x5C, 0x9C, 0x51]
  if key = [0x8B, 0x8E, 0xCE, 0x0B, 0x6D, 0xF2, 0xE0, 0x8C, 0x64, 0xA0, 0x23, 0xC7,
      0xC0, 0xF0, 0xCF, 0xED, 0x10, 0x1A, 0xA0, 0x33, 0x33, 0x2B, 0x3E, 0x50,
      0x99, 0x3A, 0xD1, 0x07, 0x74, 0x05, 0x33, 0xA3]
      ∧ iv = [0x8F, 0x72, 0xB7, 0x4A, 0x18, 0xE7, 0x11, 0xA4, 0x3A, 0x58, 0x64, 0x30,
        0xB9, 0x62, 0x2C, 0x3F, 0xDD, 0x83, 0x53, 0xD9, 0xA9, 0xDC, 0xD0, 0x1C,
        0x05, 0x7E, 0x2C, 0x9F, 0x5B, 0xAF, 0xAD, 0x6A] then
    Equiv.swap onePlain cipher bs
  else bs

def onePacket : CryptoFunctions where
  sha1 _ := .replicate 20 0
  sha256 := oneSha256
  aesIgeEncrypt := oneAesIge
  aesIgeDecrypt := oneAesIge

/-- Two texts that are exchanged have one length, so every text keeps its. -/
theorem length_swap {plain cipher : Bytes} (h : plain.length = cipher.length) (bs : Bytes) :
    (Equiv.swap plain cipher bs).length = bs.length := by
  rw [Equiv.swap_apply_def]
  split_ifs with hplain hcipher
  · rw [hplain, h]
  · rw [hcipher, h]
  · rfl

theorem length_oneAesIge (key iv bs : Bytes) : (oneAesIge key iv bs).length = bs.length := by
  rw [oneAesIge]
  split
  · exact length_swap (by rfl) bs
  · rfl

theorem onePacket_lawful : onePacket.Lawful where
  length_encrypt key iv bs _ _ _ := length_oneAesIge key iv bs
  decrypt_encrypt key iv bs _ _ _ := by
    simp only [onePacket, oneAesIge]
    split
    · exact Equiv.swap_apply_self _ _ _
    · rfl

def oneEnd (isOutgoing : Bool) : CryptoState where
  encryptionKey := ⟨List.replicate 256 7, List.length_replicate⟩
  isOutgoing := isOutgoing
  useMTProto2 := true
  ver := { peerVersion := 10, connectionMaxLayer := 92 }

theorem decryptPacket_encryptPacket_one :
    (oneEnd false).decryptPacket onePacket (List.replicate 16 9 ++
        (oneEnd true).encryptPacket onePacket (fun n => .replicate n 0) [1]) 16
      = some { len := 1, stream := [1], useMTProto2 := true } :=
  decryptPacket_encryptPacket onePacket onePacket_lawful (oneEnd true) (oneEnd false)
    ⟨rfl, rfl, rfl⟩ rfl rfl (fun n => .replicate n 0) (List.replicate 16 9) [1] (by decide)

example : (oneEnd true).encryptPacket onePacket (fun n => .replicate n 0) [1]
    = [0xAC, 0x79, 0xDB, 0x81, 0xE1, 0x04, 0xDB, 0x98, 0x98, 0x1B, 0x61, 0x3F,
        0x81, 0xD3, 0x27, 0x9B]
      ++ [0x80, 0x80, 0xA5, 0x1B, 0xD2, 0x64, 0x2D, 0xDD, 0x8A, 0x9D, 0x06, 0xE8,
          0x1D, 0x6D, 0x8D, 0xA6, 0xDB, 0x90, 0x39, 0x8E, 0xAA, 0x36, 0xE5, 0x64,
          0xFB, 0x10, 0x89, 0x6B, 0xCA, 0x5C, 0x9C, 0x51] := by
  decide +kernel

end CryptoState

end Tgvoip
