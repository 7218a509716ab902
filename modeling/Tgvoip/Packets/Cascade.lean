import Tgvoip.Packets.Legacy

/-!
# Cascade — the version fallbacks, and what crashes them

`VoIPController::ProcessIncomingPacket(NetworkPacket&, Endpoint&)` parses a
decrypted payload as a packet of the current version and, when that fails,
as one of the versions (10, 110), (9, 92) and (7, 91), rewinding and
clearing the packet in between.

Only the header of the oldest format throws (`needs_parseLegacyLegacy`);
`headerSize` counts the bytes it asks for. The cascade survives a payload
exactly if no such header is cut short at an attempt that is made.
-/

namespace Tgvoip

open ByteReader ObjectParser

/-! ## The cascade -/

namespace IncomingPacket

/-- The attempts, from the version `ver` on: the packet, or `reject` if the
payload is dropped. -/
def parseFrom (fresh : ℕ → Bytes) (payload : Bytes) :
    VersionInfo → List VersionInfo → IncomingPacket → Except Failure IncomingPacket
  | ver, vers, packet =>
    match parse fresh ver (packet, payload) with
    | .ok _ (packet, _) => .ok packet
    | .error .crash _ => .error .crash
    | .error .reject (packet, _) =>
      match vers with
      | [] => .error .reject
      | ver :: vers => parseFrom fresh payload ver vers packet.clear

def fallbackVersions : List VersionInfo := [⟨10, 110⟩, ⟨9, 92⟩, ⟨7, 91⟩]

/-- The parsing part of `ProcessIncomingPacket`. -/
def parseCascade (fresh : ℕ → Bytes) (ver : VersionInfo) (payload : Bytes) :
    Except Failure IncomingPacket := parseFrom fresh payload ver fallbackVersions {}

end IncomingPacket

/-! ## The oldest header, measured -/

/-- The bytes of a TL length. -/
def lengthSize (bs : Bytes) : ℕ := if peek u8 bs < 254 then 1 else 4

/-- The bytes of a TL byte string: its length, its contents and the padding. -/
def stringSize (bs : Bytes) : ℕ :=
  let len := (peek tlLength bs).toNat
  lengthSize bs + (len + pad4 len)

namespace LegacyHeader

def dataSize (flags : UInt32) (bs : Bytes) : ℕ :=
  if flags &&& LegacyPflag.hasData != 0 then lengthSize bs else 0

def extraSize (flags : UInt32) (bs : Bytes) : ℕ :=
  if flags &&& LegacyPflag.hasExtra != 0 then
    stringSize bs + dataSize flags (bs.drop (stringSize bs))
  else dataSize flags bs

def protoSize (flags : UInt32) (bs : Bytes) : ℕ :=
  if flags &&& LegacyPflag.hasProto != 0 then
    4 + if peek u32 bs != protocolName then 0 else extraSize flags (bs.drop 4)
  else extraSize flags bs

/-- From the flags on. -/
def flagsSize (bs : Bytes) : ℕ :=
  let flags := peek u32 bs
  4 + if !(flags &&& LegacyPflag.hasSeq != 0 && flags &&& LegacyPflag.hasRecentRecv != 0) then 0
    else 12 + protoSize flags (bs.drop 16)

def decryptedSize (bs : Bytes) : ℕ :=
  let rand := stringSize (bs.drop 8)
  8 + (rand + flagsSize (bs.drop (8 + rand)))

def simpleSize (peerVersion : Int) (bs : Bytes) : ℕ :=
  let rand := stringSize (bs.drop 8)
  8 + (rand + (lengthSize (bs.drop (8 + rand)) + (13 + if peerVersion ≥ 6 then 1 else 0)))

end LegacyHeader

open LegacyHeader in
/-- **How many bytes the oldest header asks for**, going by what the bytes
themselves announce. -/
def headerSize (peerVersion : Int) (bs : Bytes) : ℕ :=
  4 + if peek u32 bs = tlidDecryptedAudioBlock then decryptedSize (bs.drop 4)
    else if peek u32 bs = tlidSimpleAudioBlock then simpleSize peerVersion (bs.drop 4) else 0

theorem measured_tlLength : Measured tlLength lengthSize := by
  have hpeek : ∀ l (bs : Bytes), peek u8 (l :: bs) = l := fun _ _ => rfl
  have hrun : ∀ l (bs : Bytes), tlLength.run (l :: bs) =
      (if l < 254 then some (l.toUInt32, bs)
      else (do
        let a ← u8
        let b ← u8
        let c ← u8
        pure (a.toUInt32 ||| (b.toUInt32 <<< 8) ||| (c.toUInt32 <<< 16)) : Reader UInt32).run bs) := by
    intro l bs
    by_cases hl : l < 254
    · rw [if_pos hl]
      show (if l < 254 then pure l.toUInt32 else _ : Reader UInt32).run bs = _
      rw [if_pos hl]
      rfl
    · rw [if_neg hl]
      show (if l < 254 then pure l.toUInt32 else _ : Reader UInt32).run bs = _
      rw [if_neg hl]
  refine Measured.of_run (fun bs h => ?_) fun bs h => ?_
  · cases bs with
    | nil => exact absurd h (by decide)
    | cons l bs =>
        rw [hrun]
        simp only [lengthSize, hpeek] at h ⊢
        split at h
        · rename_i hl
          exact ⟨l.toUInt32, by simp [hl]⟩
        · rename_i hl
          match bs, h with
          | a :: b :: c :: bs, _ => exact ⟨_, by rw [if_neg hl, if_neg hl]; rfl⟩
  · cases bs with
    | nil => rfl
    | cons l bs =>
        rw [hrun]
        simp only [lengthSize, hpeek, List.length_cons] at h
        split at h
        · omega
        · rename_i hl
          rw [if_neg hl]
          match bs, h with
          | [], _ => rfl
          | [_], _ => rfl
          | [_, _], _ => rfl
          | _ :: _ :: _ :: bs, h => simp only [List.length_cons] at h; omega

variable {σ α : Type}

theorem needs_skipString_bind {f : Unit → Parse σ α} {need : Bytes → ℕ} (h : Needs (f ()) need) :
    Needs (skipString >>= f) fun bs => stringSize bs + need (bs.drop (stringSize bs)) := by
  refine (Needs.assoc (Needs.read_bind measured_tlLength fun len =>
    Needs.assoc (Needs.read_bind (measured_bytes _) fun _ => h))).of_eq fun bs => ?_
  simp only [stringSize, List.drop_drop, Nat.add_assoc]

/-- The three words of an acknowledgement. -/
theorem needs_ack_bind {f : UInt32 → UInt32 → UInt32 → Parse σ α} {need : Bytes → ℕ}
    (h : ∀ ackId pseq acks, Needs (f ackId pseq acks) need) :
    Needs (do
      let ackId ← read u32
      let pseq ← read u32
      let acks ← read u32
      f ackId pseq acks) fun bs => 12 + need (bs.drop 12) := by
  refine (Needs.read_bind measured_u32 fun _ => Needs.read_bind measured_u32 fun _ =>
    Needs.read_bind measured_u32 fun _ => h _ _ _).of_eq fun bs => ?_
  simp only [List.drop_drop, ← Nat.add_assoc]

open LegacyHeader

theorem needs_parseSimpleAudioBlock (peerVersion : Int) :
    Needs (parseSimpleAudioBlock peerVersion : Parse σ LegacyHeader) (simpleSize peerVersion) := by
  have hflags : Measured (if peerVersion ≥ 6 then u8 else pure 0)
      fun _ => if peerVersion ≥ 6 then 1 else 0 := by
    split
    · exact measured_u8
    · exact fun bs => rfl
  unfold parseSimpleAudioBlock
  refine (Needs.read_bind (measured_bytes 8) fun _ => needs_skipString_bind
    (Needs.read_bind measured_tlLength fun _ => Needs.read_bind measured_u8 fun _ =>
      needs_ack_bind fun _ _ _ => Needs.read_bind hflags fun _ =>
        (closed_safe.pure _).needs)).of_eq fun bs => ?_
  simp only [simpleSize, List.drop_drop]
  omega

theorem needs_data (flags : UInt32) (h : LegacyHeader) :
    Needs (σ := σ) (do
      onlyIf (flags &&& LegacyPflag.hasData != 0) do
        let _ ← read tlLength
        pure ()
      pure h) (dataSize flags) :=
  Needs.onlyIf_bind (Needs.assoc (Needs.read_bind measured_tlLength fun _ =>
    (closed_safe.pure h).needs)) (closed_safe.pure h).needs

theorem needs_extra (flags : UInt32) (h : LegacyHeader) :
    Needs (σ := σ) (do
      onlyIf (flags &&& LegacyPflag.hasExtra != 0) skipString
      onlyIf (flags &&& LegacyPflag.hasData != 0) do
        let _ ← read tlLength
        pure ()
      pure h) (extraSize flags) :=
  Needs.onlyIf_bind (needs_skipString_bind (needs_data flags h)) (needs_data flags h)

theorem needs_proto (flags : UInt32) (h : LegacyHeader) :
    Needs (σ := σ) (do
      onlyIf (flags &&& LegacyPflag.hasProto != 0) do
        let proto ← read u32
        refuseIf (proto != protocolName)
      onlyIf (flags &&& LegacyPflag.hasExtra != 0) skipString
      onlyIf (flags &&& LegacyPflag.hasData != 0) do
        let _ ← read tlLength
        pure ()
      pure h) (protoSize flags) :=
  Needs.onlyIf_bind (Needs.assoc (Needs.read_bind measured_u32 fun _ =>
    Needs.refuseIf_bind (needs_extra flags h))) (needs_extra flags h)

/-- From the flags to the end of the header. -/
theorem needs_flags : Needs (σ := σ) (α := LegacyHeader) (do
      let flags ← read u32
      refuseIf (!(flags &&& LegacyPflag.hasSeq != 0 && flags &&& LegacyPflag.hasRecentRecv != 0))
      let ackId ← read u32
      let pseq ← read u32
      let acks ← read u32
      onlyIf (flags &&& LegacyPflag.hasProto != 0) do
        let proto ← read u32
        refuseIf (proto != protocolName)
      onlyIf (flags &&& LegacyPflag.hasExtra != 0) skipString
      onlyIf (flags &&& LegacyPflag.hasData != 0) do
        let _ ← read tlLength
        pure ()
      pure { type := (flags >>> 24).toUInt8, ackId, pseq, acks, pflags := 0 }) flagsSize := by
  refine (Needs.read_bind measured_u32 fun flags => Needs.refuseIf_bind
    (needs_ack_bind fun _ _ _ => needs_proto flags _)).of_eq fun bs => ?_
  simp only [flagsSize, List.drop_drop, Nat.reduceAdd]

theorem needs_parseDecryptedAudioBlock :
    Needs (parseDecryptedAudioBlock : Parse σ LegacyHeader) decryptedSize := by
  refine (Needs.read_bind (measured_bytes 8) fun _ => needs_skipString_bind needs_flags).of_eq
    fun bs => ?_
  simp only [decryptedSize, List.drop_drop]

/-- **The oldest header** crashes exactly where it is cut short. -/
theorem needs_parseLegacyLegacy (peerVersion : Int) :
    Needs (parseLegacyLegacy peerVersion : Parse σ LegacyHeader) (headerSize peerVersion) :=
  Needs.read_bind measured_u32 fun _ => Needs.ite needs_parseDecryptedAudioBlock
    (Needs.ite (needs_parseSimpleAudioBlock peerVersion) closed_safe.reject.needs)

theorem uniform_skipString : Uniform (skipString : Parse σ Unit) :=
  (uniform_read _).bind fun _ => (uniform_read _).bind fun _ => closed_uniform.pure ()

theorem uniform_parseDecryptedAudioBlock :
    Uniform (parseDecryptedAudioBlock : Parse σ LegacyHeader) :=
  (uniform_read _).bind fun _ => uniform_skipString.bind fun _ => (uniform_read _).bind fun _ =>
    (closed_uniform.refuseIf _).bind fun _ => (uniform_read _).bind fun _ =>
      (uniform_read _).bind fun _ => (uniform_read _).bind fun _ =>
        (closed_uniform.onlyIf _ ((uniform_read _).bind fun _ =>
          closed_uniform.refuseIf _)).bind fun _ =>
            (closed_uniform.onlyIf _ uniform_skipString).bind fun _ =>
              (closed_uniform.onlyIf _ ((uniform_read _).bind fun _ =>
                closed_uniform.pure ())).bind fun _ => closed_uniform.pure _

theorem uniform_parseSimpleAudioBlock (peerVersion : Int) :
    Uniform (parseSimpleAudioBlock peerVersion : Parse σ LegacyHeader) :=
  (uniform_read _).bind fun _ => uniform_skipString.bind fun _ => (uniform_read _).bind fun _ =>
    (uniform_read _).bind fun _ => (uniform_read _).bind fun _ => (uniform_read _).bind fun _ =>
      (uniform_read _).bind fun _ => (uniform_read _).bind fun _ => closed_uniform.pure _

theorem uniform_parseLegacyLegacy (peerVersion : Int) :
    Uniform (parseLegacyLegacy peerVersion : Parse σ LegacyHeader) := by
  refine (uniform_read _).bind fun _ => ?_
  split
  · exact uniform_parseDecryptedAudioBlock
  · split
    · exact uniform_parseSimpleAudioBlock peerVersion
    · exact closed_uniform.reject

/-! ## The rest of the parsers is checked -/

namespace IncomingPacket

section
variable {P : ∀ {α : Type}, Parse IncomingPacket α → Prop} {fresh : ℕ → Bytes} {ver : VersionInfo}

theorem closed_readData (h : Closed P) (n : ℕ) (set : Bytes → IncomingPacket → IncomingPacket) :
    P (readData fresh n set) :=
  h.bind (h.edit _) fun _ => h.field _ _

theorem closed_legacyEntries (h : Closed P) (set : Fin 8 → Bytes → IncomingPacket → IncomingPacket)
    (count : UInt8) : P (legacyEntries set count) :=
  h.bind (h.forM _ fun _ => h.field _ _) fun _ => h.bind (h.tryRead _) fun _ => h.pure ()

theorem closed_parseFrame (h : Closed P)
    (on : (Packet → Packet) → IncomingPacket → IncomingPacket) : P (parseFrame fresh on) :=
  h.bind (h.tryRead _) fun _ => h.bind (h.tryRead _) fun _ => h.bind (h.field _ _) fun _ =>
    h.bind (h.edit _) fun _ =>
      h.bind (h.onlyIf _ (h.bind (h.edit _) fun _ => h.bind (h.field _ _) fun _ =>
        h.field _ _)) fun _ =>
        h.bind (h.onlyIf _ (h.edit _)) fun _ => h.bind (closed_readData h _ _) fun _ =>
          h.onlyIf _ (h.bind (h.tryRead _) fun _ => closed_legacyEntries h _ _)

theorem closed_parseFrames (h : Closed P) : ∀ n, P (parseFrames fresh n)
  | 0 => h.pure ()
  | 1 => closed_parseFrame h _
  | n + 2 => h.bind (h.edit _) fun _ => h.bind (closed_parseFrame h _) fun _ =>
      closed_parseFrames h (n + 1)

theorem closed_parseStreamEC (h : Closed P) : P parseStreamEC :=
  h.bind (h.field _ _) fun _ => h.bind (h.field _ _) fun _ => h.bind (h.tryRead _) fun _ =>
    h.bind (h.edit _) fun _ => closed_legacyEntries h _ _

theorem closed_parseLegacyBody (h : Closed P) (type : UInt8) : P (parseLegacyBody fresh ver type) := by
  unfold parseLegacyBody
  split
  · exact h.field _ _
  · split
    · exact h.onlyIf _ (closed_parseStreamEC h)
    · split
      · exact closed_parseFrames h 1
      · split
        · exact closed_parseFrames h 2
        · split
          · exact closed_parseFrames h 3
          · exact h.reject

theorem closed_parseNew (h : Closed P) : P (parseNew fresh ver) :=
  h.bind (h.tryRead _) fun _ => h.bind (h.field _ _) fun _ => h.bind (h.field _ _) fun _ =>
    h.bind (h.field _ _) fun _ => h.bind (h.edit _) fun _ => h.bind (h.refuseIf _) fun _ =>
      h.bind (h.onlyIf _ (h.field _ _)) fun _ => h.bind (h.tryRead _) fun _ =>
        h.bind (h.edit _) fun _ =>
          h.bind (h.onlyIf _ (h.bind (h.field _ _) fun _ => h.field _ _)) fun _ =>
            h.bind (h.onlyIf _ (closed_readData h _ _)) fun _ =>
              h.bind (h.onlyIf _ (h.field _ _)) fun _ => h.bind (h.onlyIf _ (h.field _ _)) fun _ =>
                h.onlyIf _ (h.field _ _)

/-- What follows the header of a legacy packet. -/
theorem closed_afterHeader (h : Closed P) (hd : LegacyHeader) : P (do
    edit fun p => { p with legacySeq := hd.pseq, ackSeq := hd.ackId, ackMask := hd.acks }
    onlyIf (hd.pflags &&& Xpflag.hasExtra != 0)
      (field (parseArray (WrappedExtra.parse ver)) fun xs p =>
        { p with extraSignaling := p.extraSignaling ++ xs })
    onlyIf (hd.pflags &&& Xpflag.hasRecvTS != 0) (field u32 fun x p => { p with recvTS := x })
    parseLegacyBody fresh ver hd.type) :=
  h.bind (h.edit _) fun _ => h.bind (h.onlyIf _ (h.field _ _)) fun _ =>
    h.bind (h.onlyIf _ (h.field _ _)) fun _ => closed_parseLegacyBody h _

end

variable {fresh : ℕ → Bytes} {ver : VersionInfo}

theorem uniform_parse (fresh : ℕ → Bytes) (ver : VersionInfo) : Uniform (parse fresh ver) := by
  unfold parse
  split
  · exact closed_parseNew closed_uniform
  · refine (closed_uniform.edit _).bind fun _ => Uniform.bind ?_ fun hd =>
      closed_afterHeader closed_uniform hd
    unfold parseLegacyHeader
    split
    · exact closed_uniform.tryRead _
    · exact uniform_parseLegacyLegacy _

/-- The format whose header throws. -/
def Throwing (ver : VersionInfo) : Prop := ver.isNew = false ∧ ver.isLegacyLegacy = true

instance (ver : VersionInfo) : Decidable (Throwing ver) := inferInstanceAs (Decidable (_ ∧ _))

/-- **A parse crashes** exactly if the header of the oldest format is cut short. -/
theorem needs_parse (fresh : ℕ → Bytes) (ver : VersionInfo) :
    Needs (parse fresh ver) fun bs => if Throwing ver then headerSize ver.peerVersion bs else 0 := by
  unfold parse
  cases hnew : ver.isNew with
  | true =>
      have hno : ¬ Throwing ver := fun h => by simp [h.1] at hnew
      simpa only [hno, if_false, if_true] using (closed_parseNew closed_safe).needs
  | false =>
      refine Needs.edit_bind (Needs.bind_safe ?_ fun hd => closed_afterHeader closed_safe hd)
      have hleg := VersionInfo.isLegacy_eq hnew
      unfold parseLegacyHeader
      cases hll : ver.isLegacyLegacy with
      | true =>
          have hyes : Throwing ver := ⟨hnew, hll⟩
          simpa only [hyes, if_true, hleg, hll, Bool.not_true, Bool.false_eq_true, if_false] using needs_parseLegacyLegacy ver.peerVersion
      | false =>
          have hno : ¬ Throwing ver := fun h => by simp [h.2] at hll
          simpa only [hno, if_false, hleg, hll, Bool.not_false, if_true] using (closed_safe.tryRead _).needs

/-! ## The cascade -/

/-- `Packet::parse` takes the payload for a packet. -/
def Accepts (fresh : ℕ → Bytes) (ver : VersionInfo) (payload : Bytes) : Prop :=
  ∃ packet, parse fresh ver ({}, payload) = .ok () packet

/-- The header is there, if it is one that throws. -/
def HeaderThere (ver : VersionInfo) (payload : Bytes) : Prop :=
  Throwing ver → headerSize ver.peerVersion payload ≤ payload.length

/-- The condition of an attempt, and of the attempts after it. -/
def Survives (fresh : ℕ → Bytes) (payload : Bytes) : VersionInfo → List VersionInfo → Prop
  | ver, [] => HeaderThere ver payload
  | ver, next :: vers =>
    HeaderThere ver payload ∧ (Accepts fresh ver payload ∨ Survives fresh payload next vers)

theorem headerThere_iff {payload : Bytes} (o : IncomingPacket) :
    HeaderThere ver payload ↔ ¬ ∃ s, parse fresh ver (o, payload) = .error .crash s := by
  rw [needs_parse fresh ver o payload, HeaderThere]
  by_cases h : Throwing ver <;> simp [h]

theorem parseFrom_ne_crash_iff {payload : Bytes} (vers : List VersionInfo) (ver : VersionInfo)
    (o : IncomingPacket) :
    parseFrom fresh payload ver vers o ≠ .error .crash ↔ Survives fresh payload ver vers := by
  induction vers generalizing ver o with
  | nil =>
      rw [Survives, headerThere_iff o, parseFrom]
      rcases hr : parse fresh ver (o, payload) with _ | ⟨_ | _, _⟩ <;> simp
  | cons next vers ih =>
      have hacc : Accepts fresh ver payload ↔ ∃ s, parse fresh ver (o, payload) = .ok () s :=
        (uniform_parse fresh ver).ok_iff {} o payload ()
      rw [Survives, headerThere_iff o, hacc, parseFrom]
      rcases hr : parse fresh ver (o, payload) with _ | ⟨_ | _, t⟩
      · simp
      · simp [ih]
      · simp

/-- **The cascade, exactly**: a payload crashes the receiver unless the header
that throws is there at each attempt before one accepts. -/
theorem parseCascade_ne_crash_iff (fresh : ℕ → Bytes) (ver : VersionInfo) (payload : Bytes) :
    parseCascade fresh ver payload ≠ .error .crash ↔
      HeaderThere ver payload ∧ (Accepts fresh ver payload ∨ Accepts fresh ⟨10, 110⟩ payload ∨
        Accepts fresh ⟨9, 92⟩ payload ∨ headerSize 7 payload ≤ payload.length) := by
  have hnew : HeaderThere ⟨10, 110⟩ payload := fun h => absurd h (by decide)
  have hleg : HeaderThere ⟨9, 92⟩ payload := fun h => absurd h (by decide)
  have hold : HeaderThere ⟨7, 91⟩ payload ↔ headerSize 7 payload ≤ payload.length :=
    forall_prop_of_true (by decide)
  rw [parseCascade, parseFrom_ne_crash_iff, fallbackVersions, Survives, Survives, Survives,
    Survives, hold]
  simp only [hnew, hleg, true_and]

/-- One byte is enough. -/
theorem parseCascade_fails :
    ¬ ∀ (fresh : ℕ → Bytes) (ver : VersionInfo) (payload : Bytes), 1 ≤ payload.length →
      parseCascade fresh ver payload ≠ .error .crash :=
  fun h => h (fun n => List.replicate n 0) ⟨9, 92⟩ [0] (by decide) rfl

end IncomingPacket

end Tgvoip
