import Tgvoip.Packets.Cascade

/-!
# Residue — what failed attempts leave in the packet

Between two attempts of the cascade `clear` resets the packet, but not all
of it: the legacy seq, the extended flags, the fragment fields and the
packets that came along stay as the failed attempt left them. The attempt
that is accepted writes some of these fields, and keeps the others.

`Residue.onto` is the packet that comes of it, by what the accepted attempt
makes of a fresh object.
-/

namespace Tgvoip

open ByteReader ObjectParser Packet

/-- The fields that `clear` leaves as they are. -/
structure Residue where
  legacySeq : UInt32 := 0
  eFlags : UInt8 := 0
  fragmentIndex : UInt8 := 0
  fragmentCount : UInt8 := 1
  otherPackets : List Packet := []
  deriving DecidableEq

def IncomingPacket.residue (p : IncomingPacket) : Residue where
  legacySeq := p.legacySeq
  eFlags := p.eFlags
  fragmentIndex := p.fragmentIndex
  fragmentCount := p.fragmentCount
  otherPackets := p.otherPackets

def isFragmented (eFlags : UInt8) : Bool := eFlags &&& EFlags.fragmented != 0

namespace Residue

variable (r : Residue) (new : Bool) (o p : IncomingPacket)

/-- The object as it would be with the residue in it, nothing of it overwritten. -/
def stale : IncomingPacket :=
  { o with
    legacySeq := r.legacySeq
    eFlags := r.eFlags
    fragmentIndex := r.fragmentIndex
    fragmentCount := r.fragmentCount
    otherPackets := r.otherPackets ++ o.otherPackets }

/-- **The packet that is accepted** instead of `o`, as a new or a legacy one. -/
def onto : IncomingPacket :=
  { o with
    legacySeq := if new then r.legacySeq else o.legacySeq
    eFlags := if new then o.eFlags else r.eFlags ||| o.eFlags
    fragmentIndex := if isFragmented o.eFlags then o.fragmentIndex else r.fragmentIndex
    fragmentCount := if isFragmented o.eFlags then o.fragmentCount else r.fragmentCount
    otherPackets := r.otherPackets ++ o.otherPackets }

theorem clear_eq (p : IncomingPacket) : p.clear = p.residue.stale {} := by
  simp [IncomingPacket.clear, stale, IncomingPacket.residue]

/-! ## The new format -/

variable {r} {fresh : ℕ → Bytes} {ver : VersionInfo}

theorem coupled_readData {g : IncomingPacket → IncomingPacket} (n : ℕ)
    {set : Bytes → IncomingPacket → IncomingPacket} (h : ∀ d o, set d (g o) = g (set d o)) :
    Coupled (Paired g) (Paired g) (readData fresh n set) :=
  (Coupled.edit_paired (h (fresh n))).bind fun _ => .field_paired h

/-- The fragment fields, behind the flags that announce them. -/
theorem coupled_fragmentFields (r : Residue) (e : UInt8) :
    Coupled (fun o p => o.eFlags = e ∧ p = { r.stale o with eFlags := o.eFlags })
      (Paired (r.onto true)) (onlyIf (e &&& EFlags.fragmented != 0) do
        field u8 fun x p => { p with fragmentCount := x }
        field u8 fun x p => { p with fragmentIndex := x }) := by
  refine Coupled.onlyIf (fun hfragmented => ?_) fun hnot => ?_
  · have hcount : Coupled (fun o p => o.eFlags = e ∧ p = { r.stale o with eFlags := o.eFlags })
        (fun o p => o.eFlags = e ∧
          p = { r.stale o with eFlags := o.eFlags, fragmentCount := o.fragmentCount })
        (field u8 fun x (p : IncomingPacket) => { p with fragmentCount := x }) := by
      refine Coupled.field ?_
      rintro x o _ ⟨he, rfl⟩
      exact ⟨he, rfl⟩
    refine hcount.bind fun _ => Coupled.field ?_
    rintro x o _ ⟨rfl, rfl⟩
    simp [Paired, onto, stale, isFragmented, hfragmented]
  · rintro o _ ⟨rfl, rfl⟩
    simp [Paired, onto, stale, isFragmented, hnot]

theorem coupled_parseNew :
    Coupled (Paired r.stale) (Paired (r.onto true)) (IncomingPacket.parseNew fresh ver) := by
  unfold IncomingPacket.parseNew
  refine (Coupled.tryRead _).bind fun first => ?_
  refine (Coupled.field_paired (by intros; rfl)).bind fun _ => ?_
  refine (Coupled.field_paired (by intros; rfl)).bind fun _ => ?_
  refine (Coupled.field_paired (by intros; rfl)).bind fun _ => ?_
  refine (Coupled.edit_paired (by intros; rfl)).bind fun _ => (Coupled.refuseIf _).bind fun _ => ?_
  refine (Coupled.onlyIf_same _ (.field_paired (by intros; rfl))).bind fun _ => ?_
  refine (Coupled.tryRead _).bind fun lengthField => ?_
  refine (Coupled.edit ?_).bind fun _ => (coupled_fragmentFields r _).bind fun _ => ?_
  · rintro o _ rfl
    exact ⟨rfl, rfl⟩
  refine (Coupled.onlyIf_same _ (coupled_readData _ (by intros; rfl))).bind fun _ => ?_
  refine (Coupled.onlyIf_same _ (.field_paired (by intros; rfl))).bind fun _ => ?_
  refine (Coupled.onlyIf_same _ (.field_paired (by intros; rfl))).bind fun _ => ?_
  exact Coupled.onlyIf_same _ (.field_paired (by intros; rfl))

/-! ## The legacy formats -/

section
variable {R : IncomingPacket → IncomingPacket → Prop}

theorem coupled_skipString : Coupled R R (skipString : Parse IncomingPacket Unit) :=
  (Coupled.read _).bind fun _ => (Coupled.read _).bind fun _ => .pure ()

theorem coupled_parseDecryptedAudioBlock :
    Coupled R R (parseDecryptedAudioBlock : Parse IncomingPacket LegacyHeader) :=
  (Coupled.read _).bind fun _ => coupled_skipString.bind fun _ => (Coupled.read _).bind fun _ =>
    (Coupled.refuseIf _).bind fun _ => (Coupled.read _).bind fun _ => (Coupled.read _).bind fun _ =>
      (Coupled.read _).bind fun _ =>
        (Coupled.onlyIf_same _ ((Coupled.read _).bind fun _ => .refuseIf _)).bind fun _ =>
          (Coupled.onlyIf_same _ coupled_skipString).bind fun _ =>
            (Coupled.onlyIf_same _ ((Coupled.read _).bind fun _ => .pure ())).bind fun _ => .pure _

theorem coupled_parseSimpleAudioBlock (peerVersion : Int) :
    Coupled R R (parseSimpleAudioBlock peerVersion : Parse IncomingPacket LegacyHeader) :=
  (Coupled.read _).bind fun _ => coupled_skipString.bind fun _ => (Coupled.read _).bind fun _ =>
    (Coupled.read _).bind fun _ => (Coupled.read _).bind fun _ => (Coupled.read _).bind fun _ =>
      (Coupled.read _).bind fun _ => (Coupled.read _).bind fun _ => .pure _

/-- The headers leave the packet alone. -/
theorem coupled_parseLegacyHeader : Coupled R R (IncomingPacket.parseLegacyHeader ver) := by
  unfold IncomingPacket.parseLegacyHeader
  split
  · exact .tryRead _
  · refine (Coupled.read _).bind fun tlid => ?_
    split
    · exact coupled_parseDecryptedAudioBlock
    · split
      · exact coupled_parseSimpleAudioBlock _
      · exact .reject

theorem coupled_legacyEntries {g : IncomingPacket → IncomingPacket}
    {set : Fin 8 → Bytes → IncomingPacket → IncomingPacket} (count : UInt8)
    (h : ∀ i b o, set i b (g o) = g (set i b o)) :
    Coupled (Paired g) (Paired g) (legacyEntries set count) :=
  (Coupled.forM _ fun i => .field_paired (h i)).bind fun _ => (Coupled.tryRead _).bind fun _ =>
    .pure ()

end

theorem isFragmented_or_fragmented (e : UInt8) : isFragmented (e ||| EFlags.fragmented) = true := by
  have hbit : (e ||| EFlags.fragmented) &&& EFlags.fragmented = (e &&& EFlags.fragmented) ||| 1 := by
    rw [← UInt8.toBitVec_inj]
    simp [BitVec.and_or_distrib_right, EFlags.fragmented]
  simp [isFragmented, hbit]

theorem isFragmented_or_keyframe (e : UInt8) :
    isFragmented (e ||| EFlags.keyframe) = isFragmented e := by
  have hbit : (e ||| EFlags.keyframe) &&& EFlags.fragmented = e &&& EFlags.fragmented := by
    rw [← UInt8.toBitVec_inj]
    simp [BitVec.and_or_distrib_right, EFlags.keyframe, EFlags.fragmented]
  rw [isFragmented, hbit, isFragmented]

/-- The fragment fields of a frame, with the flag that announces them. -/
theorem coupled_legacyFragment :
    Coupled (Paired (r.onto false)) (Paired (r.onto false)) (do
      edit (IncomingPacket.onThis fun p => { p with eFlags := p.eFlags ||| EFlags.fragmented })
      field u8 fun x => IncomingPacket.onThis fun p => { p with fragmentIndex := x }
      field u8 fun x => IncomingPacket.onThis fun p => { p with fragmentCount := x }) := by
  have hflag : Coupled (Paired (r.onto false)) (fun o p => isFragmented o.eFlags = true ∧
        ∃ i c, p = { r.onto false o with fragmentIndex := i, fragmentCount := c })
      (edit (IncomingPacket.onThis fun p => { p with eFlags := p.eFlags ||| EFlags.fragmented })) := by
    refine Coupled.edit ?_
    rintro o _ rfl
    refine ⟨isFragmented_or_fragmented _, (r.onto false o).fragmentIndex,
      (r.onto false o).fragmentCount, ?_⟩
    simp [IncomingPacket.onThis, onto, UInt8.or_assoc]
  have hindex : Coupled (fun o p => isFragmented o.eFlags = true ∧
        ∃ i c, p = { r.onto false o with fragmentIndex := i, fragmentCount := c })
      (fun o p => isFragmented o.eFlags = true ∧ ∃ c, p = { r.onto false o with fragmentCount := c })
      (field u8 fun x => IncomingPacket.onThis fun p => { p with fragmentIndex := x }) := by
    refine Coupled.field ?_
    rintro x o _ ⟨hfragmented, i, c, rfl⟩
    refine ⟨hfragmented, c, ?_⟩
    simp [IncomingPacket.onThis, onto, hfragmented]
  refine hflag.bind fun _ => hindex.bind fun _ => Coupled.field ?_
  rintro x o _ ⟨hfragmented, c, rfl⟩
  simp [Paired, IncomingPacket.onThis, onto, hfragmented]

/-- One frame of the packet itself. -/
theorem coupled_parseFrame_this :
    Coupled (Paired (r.onto false)) (Paired (r.onto false))
      (IncomingPacket.parseFrame fresh IncomingPacket.onThis) := by
  unfold IncomingPacket.parseFrame
  refine (Coupled.tryRead _).bind fun flags => (Coupled.tryRead _).bind fun len => ?_
  refine (Coupled.field_paired (by intros; rfl)).bind fun _ => ?_
  refine (Coupled.edit_paired (by intros; rfl)).bind fun _ => ?_
  refine (Coupled.onlyIf_same _ coupled_legacyFragment).bind fun _ => ?_
  refine (Coupled.onlyIf_same _ (.edit_paired ?_)).bind fun _ => ?_
  · intro o
    simp [IncomingPacket.onThis, onto, isFragmented_or_keyframe, UInt8.or_assoc]
  refine (coupled_readData _ (by intros; rfl)).bind fun _ => ?_
  refine Coupled.onlyIf_same _ ((Coupled.tryRead _).bind fun count => ?_)
  exact coupled_legacyEntries count (by intros; rfl)

theorem modify_append_last {l l' : List Packet} (f : Packet → Packet) (h : l' ≠ []) :
    (l ++ l').modify ((l ++ l').length - 1) f = l ++ l'.modify (l'.length - 1) f := by
  induction l with
  | nil => rfl
  | cons a l ih =>
      have hpos : 0 < (l ++ l').length := List.length_pos_of_ne_nil (by simp [h])
      have hlast : (a :: l ++ l').length - 1 = (l ++ l').length - 1 + 1 := by
        rw [List.cons_append, List.length_cons]
        omega
      rw [hlast, List.cons_append, List.modify_succ_cons, ih, List.cons_append]

/-- What is done to the newest packet does not touch those of the residue. -/
theorem onLast_onto (f : Packet → Packet) {o : IncomingPacket} (ho : o.otherPackets ≠ []) :
    (r.onto false o).onLast f = r.onto false (o.onLast f) := by
  simp only [IncomingPacket.onLast, onto, modify_append_last f ho]
  rfl

/-- The newest packet is one that this attempt has added. -/
def Added (r : Residue) (o p : IncomingPacket) : Prop := o.otherPackets ≠ [] ∧ p = r.onto false o

theorem coupled_edit_last (f : Packet → Packet) :
    Coupled (Added r) (Added r) (edit (IncomingPacket.onLast f)) := by
  refine Coupled.edit ?_
  rintro o _ ⟨ho, rfl⟩
  refine ⟨?_, onLast_onto f ho⟩
  simpa [IncomingPacket.onLast] using ho

theorem coupled_field_last {α : Type} (p : Reader α) (f : α → Packet → Packet) :
    Coupled (Added r) (Added r) (field p fun x => IncomingPacket.onLast (f x)) :=
  (Coupled.tryRead p).bind fun x => coupled_edit_last (f x)

/-- One frame of a packet that came along. -/
theorem coupled_parseFrame_last :
    Coupled (Added r) (Added r) (IncomingPacket.parseFrame fresh IncomingPacket.onLast) := by
  unfold IncomingPacket.parseFrame
  refine (Coupled.tryRead _).bind fun flags => (Coupled.tryRead _).bind fun len => ?_
  refine (coupled_field_last _ _).bind fun _ => (coupled_edit_last _).bind fun _ => ?_
  refine (Coupled.onlyIf_same _ ?_).bind fun _ => ?_
  · exact (coupled_edit_last _).bind fun _ => (coupled_field_last _ _).bind fun _ =>
      coupled_field_last _ _
  refine (Coupled.onlyIf_same _ (coupled_edit_last _)).bind fun _ => ?_
  refine ((coupled_edit_last _).bind fun _ => coupled_field_last _ _).bind fun _ => ?_
  refine Coupled.onlyIf_same _ ((Coupled.tryRead _).bind fun count => ?_)
  exact (Coupled.forM _ fun i => coupled_field_last _ _).bind fun _ =>
    (Coupled.tryRead _).bind fun _ => .pure ()

theorem coupled_parseFrames : ∀ n, Coupled (Paired (r.onto false)) (Paired (r.onto false))
    (IncomingPacket.parseFrames fresh n)
  | 0 => .pure ()
  | 1 => coupled_parseFrame_this
  | n + 2 => by
    have hadd : Coupled (Paired (r.onto false)) (Added r) (edit fun p : IncomingPacket =>
        { p with otherPackets := p.otherPackets ++ [{ legacy := true }] }) := by
      refine Coupled.edit ?_
      rintro o _ rfl
      refine ⟨by simp, ?_⟩
      simp [onto]
    refine hadd.bind fun _ => (coupled_parseFrame_last.mono ?_).bind fun _ =>
      coupled_parseFrames (n + 1)
    exact fun o p h => h.2

theorem coupled_parseLegacyBody (type : UInt8) :
    Coupled (Paired (r.onto false)) (Paired (r.onto false))
      (IncomingPacket.parseLegacyBody fresh ver type) := by
  unfold IncomingPacket.parseLegacyBody
  split
  · exact .field_paired (by intros; rfl)
  · split
    · refine Coupled.onlyIf_same _ ?_
      refine (Coupled.field_paired (by intros; rfl)).bind fun _ => ?_
      refine (Coupled.field_paired (by intros; rfl)).bind fun _ => (Coupled.tryRead _).bind fun _ => ?_
      exact (Coupled.edit_paired (by intros; rfl)).bind fun _ => coupled_legacyEntries _ (by intros; rfl)
    · split
      · exact coupled_parseFrames 1
      · split
        · exact coupled_parseFrames 2
        · split
          · exact coupled_parseFrames 3
          · exact .reject

/-- **A legacy parse** on an object with a residue. -/
theorem coupled_parseLegacy :
    Coupled (fun o p => o.eFlags = 0 ∧ p = r.stale o) (Paired (r.onto false))
      (IncomingPacket.parseLegacy fresh ver) := by
  have hlegacy : Coupled (fun o p => o.eFlags = 0 ∧ p = r.stale o)
      (fun o p => o.eFlags = 0 ∧ p = r.stale o)
      (edit fun p : IncomingPacket => { p with legacy := true }) := by
    refine Coupled.edit ?_
    rintro o _ ⟨he, rfl⟩
    exact ⟨he, rfl⟩
  have hheader : ∀ h : LegacyHeader, Coupled (fun o p => o.eFlags = 0 ∧ p = r.stale o)
      (Paired (r.onto false)) (edit fun p : IncomingPacket =>
        { p with legacySeq := h.pseq, ackSeq := h.ackId, ackMask := h.acks }) := by
    intro h
    refine Coupled.edit ?_
    rintro o _ ⟨he, rfl⟩
    simp [Paired, stale, onto, he, isFragmented]
  unfold IncomingPacket.parseLegacy
  refine hlegacy.bind fun _ => coupled_parseLegacyHeader.bind fun h => (hheader h).bind fun _ => ?_
  refine (Coupled.onlyIf_same _ (.field_paired (by intros; rfl))).bind fun _ => ?_
  refine (Coupled.onlyIf_same _ (.field_paired (by intros; rfl))).bind fun _ => ?_
  exact coupled_parseLegacyBody _

/-- **A parse on an object with a residue** accepts what it accepts on a fresh one. -/
theorem parse_over_iff (r : Residue) {payload rest : Bytes} {p : IncomingPacket} :
    IncomingPacket.parse fresh ver (r.stale {}, payload) = .ok () (p, rest) ↔
      ∃ q, IncomingPacket.parse fresh ver ({}, payload) = .ok () (q, rest) ∧
        p = r.onto ver.isNew q := by
  have hforward : ∀ q rest, IncomingPacket.parse fresh ver ({}, payload) = .ok () (q, rest) →
      IncomingPacket.parse fresh ver (r.stale {}, payload) = .ok () (r.onto ver.isNew q, rest) := by
    intro q rest h
    unfold IncomingPacket.parse at h ⊢
    cases hnew : ver.isNew with
    | true =>
      rw [hnew] at h
      obtain ⟨p, hp, rfl⟩ := coupled_parseNew {} (r.stale {}) payload () q rest rfl h
      exact hp
    | false =>
      rw [hnew] at h
      obtain ⟨p, hp, rfl⟩ := coupled_parseLegacy {} (r.stale {}) payload () q rest ⟨rfl, rfl⟩ h
      exact hp
  constructor
  · intro h
    obtain ⟨⟨q, rest'⟩, hq⟩ :=
      ((IncomingPacket.uniform_parse fresh ver).ok_iff (r.stale {}) {} payload ()).mp ⟨_, h⟩
    have hover := hforward q rest' hq
    rw [h] at hover
    injection hover with _ hpair
    obtain ⟨rfl, rfl⟩ := Prod.mk.inj hpair
    exact ⟨q, hq, rfl⟩
  · rintro ⟨q, hq, rfl⟩
    exact hforward q rest hq

/-! ## The cascade -/

/-- The version that accepts in a cascade of attempts, and the residue it finds. -/
def acceptance (fresh : ℕ → Bytes) (payload : Bytes) :
    Residue → List VersionInfo → Option (VersionInfo × Residue)
  | _, [] => none
  | r, ver :: vers =>
    match IncomingPacket.parse fresh ver (r.stale {}, payload) with
    | .ok _ _ => some (ver, r)
    | .error .crash _ => none
    | .error .reject (p, _) => acceptance fresh payload p.residue vers

/-- The acceptance of `ProcessIncomingPacket`. -/
def accepted (fresh : ℕ → Bytes) (ver : VersionInfo) (payload : Bytes) :
    Option (VersionInfo × Residue) :=
  acceptance fresh payload {} (ver :: IncomingPacket.fallbackVersions)

/-- **No residue is left** in the packet: it is what the version that accepts it
makes of a fresh object. -/
def FallsBackCleanly (fresh : ℕ → Bytes) (ver : VersionInfo) (payload : Bytes) : Prop :=
  ∀ p v r, IncomingPacket.parseCascade fresh ver payload = .ok p →
    accepted fresh ver payload = some (v, r) →
      ∃ rest, IncomingPacket.parse fresh v ({}, payload) = .ok () (p, rest)

/-- The version writes over what the residue has, or there is nothing. Of the packet
only the extended flags matter, as the version reads them. -/
structure Harmless (r : Residue) (new : Bool) (own : UInt8) : Prop where
  legacySeq : new = true → r.legacySeq = 0
  eFlags : new = false → r.eFlags ||| own = own
  fragment : isFragmented own = false → r.fragmentIndex = 0 ∧ r.fragmentCount = 1
  otherPackets : r.otherPackets = []

/-- The residue that the accepting version finds is harmless. -/
def FindsHarmless (fresh : ℕ → Bytes) (ver : VersionInfo) (payload : Bytes) : Prop :=
  ∀ v r q rest, accepted fresh ver payload = some (v, r) →
    IncomingPacket.parse fresh v ({}, payload) = .ok () (q, rest) → Harmless r v.isNew q.eFlags

/-- The attempt that accepts. -/
theorem accepts_iff {payload rest : Bytes} {p p' : IncomingPacket}
    (h : IncomingPacket.parse fresh ver (r.stale {}, payload) = .ok () (p', rest)) :
    (Except.ok p' : Except Failure IncomingPacket) = .ok p ↔
      ∃ v r' q rest, some (ver, r) = some (v, r') ∧
        IncomingPacket.parse fresh v ({}, payload) = .ok () (q, rest) ∧ p = r'.onto v.isNew q := by
  constructor
  · rintro ⟨⟩
    obtain ⟨q, hq, hp⟩ := (parse_over_iff r).mp h
    exact ⟨ver, r, q, rest, rfl, hq, hp⟩
  · rintro ⟨v, r', q, rest', hsame, hq, rfl⟩
    obtain ⟨rfl, rfl⟩ := Prod.mk.inj (Option.some.inj hsame)
    have hover := (parse_over_iff r).mpr ⟨q, hq, rfl⟩
    rw [h] at hover
    injection hover with _ hpair
    rw [(Prod.mk.inj hpair).1]

/-- **The attempts of the cascade** start on what the ones before have left. -/
theorem parseFrom_eq_ok (r : Residue) {payload : Bytes} {p : IncomingPacket}
    {vers : List VersionInfo} :
    IncomingPacket.parseFrom fresh payload ver vers (r.stale {}) = .ok p ↔
      ∃ v r' q rest, acceptance fresh payload r (ver :: vers) = some (v, r') ∧
        IncomingPacket.parse fresh v ({}, payload) = .ok () (q, rest) ∧ p = r'.onto v.isNew q := by
  induction vers generalizing ver r with
  | nil =>
    unfold IncomingPacket.parseFrom acceptance
    rcases hr : IncomingPacket.parse fresh ver (r.stale {}, payload) with ⟨_, p', rest⟩ | ⟨_ | _, _⟩
    · exact accepts_iff hr
    · simp [acceptance]
    · simp
  | cons next vers ih =>
    unfold IncomingPacket.parseFrom acceptance
    rcases hr : IncomingPacket.parse fresh ver (r.stale {}, payload) with
      ⟨_, p', rest⟩ | ⟨_ | _, p', _⟩
    · exact accepts_iff hr
    · dsimp only
      rw [clear_eq]
      exact ih p'.residue
    · simp

/-- Without a residue the packet is that of a fresh object. -/
theorem onto_empty {q : IncomingPacket} {rest payload : Bytes}
    (h : IncomingPacket.parse fresh ver ({}, payload) = .ok () (q, rest)) :
    ({} : Residue).onto ver.isNew q = q := by
  have hover := (parse_over_iff {}).mpr ⟨q, h, rfl⟩
  rw [show ({} : Residue).stale {} = {} from rfl, h] at hover
  injection hover with _ hpair
  exact (Prod.mk.inj hpair).1.symm

theorem onto_eq_iff {q : IncomingPacket} {rest payload : Bytes}
    (h : IncomingPacket.parse fresh ver ({}, payload) = .ok () (q, rest)) :
    r.onto ver.isNew q = q ↔ Harmless r ver.isNew q.eFlags := by
  have hempty := onto_empty h
  generalize ver.isNew = new at hempty ⊢
  constructor
  · intro heq
    have hsame : r.onto new q = ({} : Residue).onto new q := heq.trans hempty.symm
    have hseq := congrArg (·.legacySeq) hsame
    have hflags := congrArg (·.eFlags) heq
    have hindex := congrArg (·.fragmentIndex) hsame
    have hcount := congrArg (·.fragmentCount) hsame
    have hothers := congrArg (·.otherPackets) heq
    refine ⟨?_, ?_, ?_, ?_⟩
    · rintro rfl
      simpa [onto] using hseq
    · rintro rfl
      simpa [onto] using hflags
    · intro hnot
      simp only [onto, hnot] at hindex hcount
      exact ⟨hindex, hcount⟩
    · simpa [onto] using hothers
  · rintro ⟨hseq, hflags, hfragment, hothers⟩
    refine Eq.trans ?_ hempty
    have hindex : (if isFragmented q.eFlags then q.fragmentIndex else r.fragmentIndex) =
        if isFragmented q.eFlags then q.fragmentIndex else 0 := by
      cases hown : isFragmented q.eFlags with
      | true => rfl
      | false => exact (hfragment hown).1
    have hcount : (if isFragmented q.eFlags then q.fragmentCount else r.fragmentCount) =
        if isFragmented q.eFlags then q.fragmentCount else 1 := by
      cases hown : isFragmented q.eFlags with
      | true => rfl
      | false => exact (hfragment hown).2
    unfold onto
    rw [hindex, hcount, hothers]
    cases new with
    | true => rw [hseq rfl]; rfl
    | false => rw [hflags rfl]; simp

/-- **A fallback leaves no residue** exactly where the residue it finds is harmless. -/
theorem fallsBackCleanly_iff (fresh : ℕ → Bytes) (ver : VersionInfo) (payload : Bytes) :
    FallsBackCleanly fresh ver payload ↔ FindsHarmless fresh ver payload := by
  have hcascade : ∀ p, IncomingPacket.parseCascade fresh ver payload = .ok p ↔
      ∃ v r q rest, accepted fresh ver payload = some (v, r) ∧
        IncomingPacket.parse fresh v ({}, payload) = .ok () (q, rest) ∧ p = r.onto v.isNew q :=
    fun p => parseFrom_eq_ok {}
  constructor
  · intro hclean v r q rest haccepted hparse
    obtain ⟨rest', hfresh⟩ := hclean _ v r ((hcascade _).mpr ⟨v, r, q, rest, haccepted, hparse, rfl⟩)
      haccepted
    rw [hparse] at hfresh
    injection hfresh with _ hpair
    exact (onto_eq_iff hparse).mp (Prod.mk.inj hpair).1.symm
  · intro hharmless p v r hp haccepted
    obtain ⟨v', r', q, rest, haccepted', hparse, rfl⟩ := (hcascade p).mp hp
    obtain ⟨rfl, rfl⟩ := Prod.mk.inj (Option.some.inj (haccepted.symm.trans haccepted'))
    rw [(onto_eq_iff hparse).mpr (hharmless v r q rest haccepted hparse)]
    exact ⟨rest, hparse⟩

/-- A new packet that acknowledges one, from a peer that is taken for one with the
legacy format: the legacy parse has read its acknowledgement as a legacy seq. -/
def takenForLegacy : Bytes := [0x40, 1, 0, 0, 0, 1, 0, 0, 0, 0, 0, 0, 0, 0]

theorem fallsBackCleanly_fails :
    ¬ ∀ (fresh : ℕ → Bytes) (ver : VersionInfo) (payload : Bytes),
      FallsBackCleanly fresh ver payload := by
  intro h
  have hclean := h (fun n => List.replicate n 0) ⟨9, 92⟩ takenForLegacy
  obtain ⟨rest, hfresh⟩ := hclean { seq := 1, ackSeq := 1, legacySeq := 1 } ⟨10, 110⟩
    { legacySeq := 1 } (by decide +kernel) (by decide +kernel)
  have hparsed : IncomingPacket.parse (fun n => List.replicate n 0) ⟨10, 110⟩ ({}, takenForLegacy) =
      .ok () ({ seq := 1, ackSeq := 1 }, []) := by rfl
  rw [hparsed] at hfresh
  injection hfresh with _ hpair
  exact absurd (Prod.mk.inj hpair).1 (by decide +kernel)

-- a block of the oldest format that announces two frames and is cut short is accepted as a
-- new packet, with the frame that was begun as a packet that came along
example : (IncomingPacket.parseCascade (fun n => List.replicate n 0) ⟨7, 91⟩
    ([0xC1, 0x48, 0xF9, 0xDB] ++ List.replicate 8 0 ++ [0, 0, 0, 0] ++ [0x30, 0, 0, 8] ++
      List.replicate 12 0 ++ [1, 0])).toOption.map (·.otherPackets.length) = some 1 := by
  decide +kernel

end Residue

end Tgvoip
