import Tgvoip.Controller.ShownStreams

/-!
# StreamStates — whether the newest state of a stream is shown

`ProcessExtraData` takes stream flags over as they come: a packet that was
overtaken brings an old state back, unless its flags have the hash of those
handled last. And what the flags say is not what was to be said: `ExtraEC`
is 3, so that it shares a bit with `Enabled`, and both are read as set if
one of them is.

`FlagsLink` is a sender that tells the states of one stream, and a receiver
its packets reach in any order. Its history is the flags that were accepted,
with their hashes: it says which of them were `handled` last and which are
the `newest`, and the newest state is shown as long as the bits of the former
say the latter.
-/

namespace Tgvoip

open ByteReader Fallible Controller

/-- The seq the packet is numbered by. -/
def Packet.number (p : Packet) : UInt32 := if p.legacy then p.legacySeq else p.seq

namespace OutgoingStream

/-- An audio stream with extra error correction. -/
def sendsEC (s : OutgoingStream) : Bool := s.type = StreamType.audio && s.extraECEnabled

/-! ## The bits of the flags -/

def flagBits (enabled extraEC paused : Bool) : UInt8 :=
  (if enabled then ExtraStreamFlags.enabled else 0) |||
    (if extraEC then ExtraStreamFlags.extraEC else 0) |||
    (if paused then ExtraStreamFlags.paused else 0)

theorem streamFlags_flags (s : OutgoingStream) :
    s.streamFlags.flags = flagBits s.enabled s.sendsEC s.paused := rfl

theorem enabled_bit : ∀ enabled extraEC paused,
    (flagBits enabled extraEC paused &&& ExtraStreamFlags.enabled != 0) = (enabled || extraEC) := by
  decide

/-- `ExtraEC` is 3. -/
theorem extraEC_bits : ∀ enabled extraEC paused,
    (flagBits enabled extraEC paused &&& ExtraStreamFlags.extraEC != 0) = (enabled || extraEC) := by
  decide

theorem paused_bit : ∀ enabled extraEC paused,
    (flagBits enabled extraEC paused &&& ExtraStreamFlags.paused != 0) = paused := by
  decide

end OutgoingStream

/-! ## What the flags say -/

namespace ShownState

/-- The stream is shown in the sender's state. Only audio streams have
`extraECEnabled`. -/
def Agrees (v : ShownState) (s : OutgoingStream) : Prop :=
  v.enabled = s.enabled ∧ v.paused = s.paused ∧
    (v.type = StreamType.audio → v.extraECEnabled = s.sendsEC)

/-- The flags of the state `s` say `s'`, to a receiver that has the stream with this
type: the bit of `Enabled` is also one of `ExtraEC`. -/
def SayTo (type : UInt8) (s s' : OutgoingStream) : Prop :=
  (s.enabled || s.sendsEC) = s'.enabled ∧ s.paused = s'.paused ∧
    (type = StreamType.audio → (s.enabled || s.sendsEC) = s'.sendsEC)

instance (v : ShownState) (s : OutgoingStream) : Decidable (v.Agrees s) :=
  inferInstanceAs (Decidable (_ ∧ _))

instance (type : UInt8) (s s' : OutgoingStream) : Decidable (SayTo type s s') :=
  inferInstanceAs (Decidable (_ ∧ _))

/-- How the flags come out. -/
theorem told_streamFlags (v : ShownState) (s : OutgoingStream) :
    v.told s.streamFlags = { v with
      enabled := s.enabled || s.sendsEC
      paused := s.paused
      extraECEnabled := if v.type = StreamType.audio then s.enabled || s.sendsEC
        else v.extraECEnabled } := by
  unfold told
  rw [s.streamFlags_flags, OutgoingStream.enabled_bit, OutgoingStream.paused_bit,
    OutgoingStream.extraEC_bits]

/-- **The flags of `s` make the receiver show `s'`** exactly if they say it. -/
theorem agrees_told_iff {v : ShownState} {s s' : OutgoingStream} :
    (v.told s.streamFlags).Agrees s' ↔ SayTo v.type s s' := by
  rw [told_streamFlags]
  unfold Agrees SayTo
  refine and_congr Iff.rfl (and_congr Iff.rfl (forall_congr' fun htype => ?_))
  show (if v.type = StreamType.audio then s.enabled || s.sendsEC else v.extraECEnabled) = _ ↔ _
  rw [if_pos htype]

end ShownState

/-! ## The flags that were accepted -/

/-- Flags of an accepted packet: its number, the state they were made of, and their hash. -/
structure FlagsArrival where
  number : UInt32
  state : OutgoingStream
  hash : UInt64

namespace FlagsArrival

/-- Flags with the hash of those handled last are passed over. -/
def pickHandled (last : Option FlagsArrival) (a : FlagsArrival) : Option FlagsArrival :=
  if a.hash != 0 && last.any (·.hash == a.hash) then last else some a

def pickNewer (newest : Option FlagsArrival) (a : FlagsArrival) : Option FlagsArrival :=
  if newest.all (·.number < a.number) then some a else newest

/-- The flags handled last. -/
def handled (arrived : List FlagsArrival) : Option FlagsArrival := arrived.foldl pickHandled none

/-- The flags of the highest number. -/
def newest (arrived : List FlagsArrival) : Option FlagsArrival := arrived.foldl pickNewer none

/-- **The flags handled last say the newest state.** -/
def SaysNewest (type : UInt8) (arrived : List FlagsArrival) : Prop :=
  ∀ h ∈ handled arrived, ∀ m ∈ newest arrived, ShownState.SayTo type h.state m.state

instance (type : UInt8) (arrived : List FlagsArrival) : Decidable (SaysNewest type arrived) :=
  inferInstanceAs (Decidable (∀ h ∈ handled arrived, ∀ m ∈ newest arrived, _))

theorem handled_append (arrived : List FlagsArrival) (a : FlagsArrival) :
    handled (arrived ++ [a]) = pickHandled (handled arrived) a := List.foldl_append ..

/-- Where flags were accepted, some were handled. -/
theorem exists_handled {arrived : List FlagsArrival} (h : arrived ≠ []) :
    ∃ a, handled arrived = some a := by
  rcases List.eq_nil_or_concat arrived with rfl | ⟨before, a, rfl⟩
  · exact absurd rfl h
  · rw [List.concat_eq_append, handled_append]
    unfold pickHandled
    split
    · rename_i hrepeats
      obtain ⟨last, hlast, -⟩ := (Option.any_eq_true _ _).mp (Bool.and_eq_true_iff.mp hrepeats).2
      exact ⟨last, hlast⟩
    · exact ⟨a, rfl⟩

theorem ne_nil_of_newest {arrived : List FlagsArrival} {m : FlagsArrival}
    (h : newest arrived = some m) : arrived ≠ [] := by
  rintro rfl
  cases h

end FlagsArrival

/-! ## The link -/

/-- A sender that tells the states of a stream, and a receiver. -/
structure FlagsLink where
  sender : Controller
  receiver : Controller
  /-- History: which calls of `SendExtra` were made by `SendStreamFlags`, and the
  stream as it was. -/
  calls : ℕ → Option OutgoingStream := fun _ => none
  /-- History: the flags of the accepted packets, in the order they came in. -/
  arrived : List FlagsArrival := []

inductive FlagsEvent where
  /-- `SendStreamFlags`, for the stream as it is now. -/
  | sendStreamFlags (s : OutgoingStream)
  | sender (e : Time × Event)
  | receiver (e : Time × Event)
  /-- A packet arrives: the `i`-th that was prepared, or one of those it was sent as. -/
  | deliver (now : Time) (i : ℕ) (p : Packet) (src : Int64)

namespace FlagsLink

open FlagsArrival

variable {envs env : Platform} {l l' : FlagsLink} {e : FlagsEvent} {id type : UInt8} {i : ℕ}
  {p : Packet}

/-- The state that arrives with the packet. -/
def carried (l : FlagsLink) (i : ℕ) (p : Packet) : Option OutgoingStream :=
  if p.streamFlags.isEmpty then none
  else do
    let xs ← l.sender.preparedOccurrences[i]?
    let x ← xs.find? (·.2.isFlags)
    l.calls x.1

/-- The state that is accepted with the packet. -/
def accepted (l : FlagsLink) (i : ℕ) (p : Packet) : Option OutgoingStream :=
  if l.receiver.accepts p then l.carried i p else none

/-- The flags of a packet, if they are accepted. -/
def arrival (env : Platform) (l : FlagsLink) (i : ℕ) (p : Packet) : Option FlagsArrival :=
  (l.accepted i p).map fun state =>
    { number := p.number, state, hash := (p.streamFlags.map env.hash).headD 0 }

def deliver (env : Platform) (l : FlagsLink) (now : Time) (i : ℕ) (p : Packet) (src : Int64) :
    Except Fault FlagsLink := do
  let receiver ← l.receiver.processIncomingPacket env now p src
  pure { l with receiver, arrived := l.arrived ++ (l.arrival env i p).toList }

/-- The two ends are on platforms of their own. -/
def step (envs env : Platform) (l : FlagsLink) : FlagsEvent → Except Fault FlagsLink
  | .sendStreamFlags s => pure { l with
      sender := l.sender.sendStreamFlags s
      calls := Function.update l.calls l.sender.issuedExtras (some s) }
  | .sender e => do
    let sender ← l.sender.step envs e
    pure { l with sender }
  | .receiver e => do
    let receiver ← l.receiver.step env e
    pure { l with receiver }
  | .deliver now i p src => l.deliver env now i p src

/-- The packet has the number and the flags of the `i`-th that was prepared. In the
legacy formats that one may be sent as several, with numbers of their own, of
which not all have the flags. -/
def copies (l : FlagsLink) (i : ℕ) (p : Packet) : Bool :=
  (l.sender.preparedPackets[i]?.any fun q => p.legacy || p.seq == q.seq) &&
    l.sender.preparedOccurrences[i]?.any fun xs => p.streamFlags.isEmpty ||
      p.streamFlags.map (·.d) == (xs.filter (·.2.isFlags)).map (·.2.d)

/-- The states of one stream are told, by `SendStreamFlags` only, and the receiver
is reached by the sender's packets only. -/
def OneStream (id : UInt8) (l : FlagsLink) : FlagsEvent → Prop
  | .sendStreamFlags s => s.id = id
  | .sender e => e.2.issuesFlags = false
  | .receiver e => e.2.isPacket = false
  | .deliver _ i p _ => l.copies i p = true

/-- The receiver has the stream, of this type, when it comes to flags of a packet it accepts. -/
def HasStream (env : Platform) (id type : UInt8) (l : FlagsLink) : FlagsEvent → Prop
  | .deliver now i p src => (l.accepted i p).isSome → ∀ c,
      l.receiver.beforeFlags env now p src = .ok c → ∃ v ∈ c.shown id, v.type = type
  | _ => True

/-- The stream is known, and shown in the newest state that was accepted. -/
def ShowsNewest (id : UInt8) (l : FlagsLink) : Prop :=
  ∀ m ∈ newest l.arrived, ∃ v ∈ l.receiver.shown id, v.Agrees m.state

/-- **The newest state is shown** behind the event. -/
def NewestShown (envs env : Platform) (id : UInt8) (l : FlagsLink) (e : FlagsEvent) : Prop :=
  ∀ l', l.step envs env e = .ok l' → l'.ShowsNewest id

/-- Behind the event the flags handled last say the newest state. -/
def HandledNewest (envs env : Platform) (type : UInt8) (l : FlagsLink) (e : FlagsEvent) : Prop :=
  ∀ l', l.step envs env e = .ok l' → SaysNewest type l'.arrived

instance (id : UInt8) (l : FlagsLink) (e : FlagsEvent) : Decidable (l.OneStream id e) := by
  unfold OneStream
  cases e <;> infer_instance

/-- What is asked of a run's state behind an event. -/
def decidableBehind (envs env : Platform) (l : FlagsLink) (e : FlagsEvent) (P : FlagsLink → Prop)
    [DecidablePred P] : Decidable (∀ l', l.step envs env e = .ok l' → P l') :=
  match l.step envs env e with
  | .error _ => .isTrue fun _ hok => nomatch hok
  | .ok l' => decidable_of_iff (P l')
      ⟨fun hP _ hok => Except.ok.inj hok ▸ hP, fun hall => hall l' rfl⟩

instance (envs env : Platform) (type : UInt8) (l : FlagsLink) (e : FlagsEvent) :
    Decidable (l.HandledNewest envs env type e) := decidableBehind envs env l e _

/-! ## What the sender's packets carry -/

/-- The flags are those of a call of `SendStreamFlags`. -/
def Known (id : UInt8) (l : FlagsLink) (x : ℕ × WrappedExtra) : Prop :=
  x.1 < l.sender.issuedExtras ∧
    ∃ s, l.calls x.1 = some s ∧ s.id = id ∧ x.2.d = .streamFlags s.streamFlags

/-- Flags of one call, or none. -/
def OneCall (id : UInt8) (l : FlagsLink) (xs : List (ℕ × WrappedExtra)) : Prop :=
  xs.length ≤ 1 ∧ ∀ x ∈ xs, l.Known id x

/-- The flags that are pending, and those each packet took along, are those of one
call. -/
structure Told (id : UInt8) (l : FlagsLink) : Prop where
  entry : l.sender.OneEntry
  pending : ∀ x ∈ l.sender.pendingFlags, l.Known id x.ridden
  prepared : ∀ xs ∈ l.sender.preparedOccurrences, l.OneCall id (xs.filter (·.2.isFlags))

/-- What rides to an endpoint is pending. -/
theorem oneCall_riding {c : Controller} (hentry : c.OneEntry)
    (hpending : ∀ x ∈ c.pendingFlags, l.Known id x.ridden) (endpointId : Int64) :
    l.OneCall id (c.ridingFlags endpointId) := by
  unfold Transport.ridingFlags
  refine ⟨?_, ?_⟩
  · rw [List.length_map]
    exact (List.length_filter_le ..).trans hentry.length
  · intro x hx
    obtain ⟨y, hy, rfl⟩ := List.mem_map.mp hx
    exact hpending y (List.mem_of_mem_filter hy)

theorem Known.of_issued {x : ℕ × WrappedExtra} (hx : l.Known id x) (hcalls : l'.calls = l.calls)
    (hissued : l.sender.issuedExtras ≤ l'.sender.issuedExtras) : l'.Known id x := by
  obtain ⟨hlt, hcall⟩ := hx
  refine ⟨Nat.lt_of_lt_of_le hlt hissued, ?_⟩
  rw [hcalls]
  exact hcall

/-- Whatever else the sender does, it takes the pending flags along. -/
theorem Told.sender {c : Controller} (hl : l.Told id) (h : FlagsStep l.sender c) :
    Told id { l with sender := c } := by
  have hknown : ∀ x, l.Known id x → Known id { l with sender := c } x :=
    fun x hx => hx.of_issued rfl h.issued
  have hpending : ∀ x ∈ c.pendingFlags, Known id { l with sender := c } x.ridden :=
    fun x hx => hknown _ (hl.pending x (h.pending.subset hx))
  have hentry : c.OneEntry := hl.entry.of_sublist h.pending
  refine ⟨hentry, hpending, ?_⟩
  obtain ⟨new, hnew, hrides⟩ := h.prepared
  intro xs hxs
  have hold : ∀ ys, l.OneCall id ys → OneCall id { l with sender := c } ys :=
    fun ys hys => ⟨hys.1, fun x hx => hknown x (hys.2 x hx)⟩
  have hxs : xs ∈ l.sender.preparedOccurrences ++ new := hnew ▸ hxs
  rcases List.mem_append.mp hxs with hxs | hxs
  · exact hold _ (hl.prepared xs hxs)
  · obtain ⟨endpointId, hriding | hriding⟩ := hrides xs hxs
    · rw [hriding]
      exact hold _ (oneCall_riding hl.entry hl.pending endpointId)
    · rw [hriding]
      exact oneCall_riding hentry hpending endpointId

/-- The call gets a number of its own. -/
theorem Told.sendStreamFlags {s : OutgoingStream} (hl : l.Told id) (hs : s.id = id) :
    Told id { l with
      sender := l.sender.sendStreamFlags s
      calls := Function.update l.calls l.sender.issuedExtras (some s) } := by
  have hissued := sendStreamFlags_issuedExtras (c := l.sender) s
  refine ⟨hl.entry.sendStreamFlags s, ?_, ?_⟩
  · intro x hx
    have hx : x ∈ (l.sender.sendStreamFlags s).pendingFlags := hx
    rw [sendStreamFlags_pendingFlags hl.entry] at hx
    obtain rfl := List.mem_singleton.mp hx
    refine ⟨?_, s, Function.update_self .., hs, rfl⟩
    show l.sender.issuedExtras < (l.sender.sendStreamFlags s).issuedExtras
    rw [hissued]
    exact Nat.lt_succ_self _
  · intro xs hxs
    have hxs : xs ∈ (l.sender.sendStreamFlags s).preparedOccurrences := hxs
    rw [sendStreamFlags_preparedOccurrences] at hxs
    obtain ⟨hone, hknown⟩ := hl.prepared xs hxs
    refine ⟨hone, ?_⟩
    intro x hx
    obtain ⟨hlt, t, ht, hid, hdata⟩ := hknown x hx
    refine ⟨?_, t, ?_, hid, hdata⟩
    · show x.1 < (l.sender.sendStreamFlags s).issuedExtras
      rw [hissued]
      exact Nat.lt_succ_of_lt hlt
    · exact (Function.update_of_ne (Nat.ne_of_lt hlt) ..).trans ht

/-- **What arrives with a packet**: no flags, or those of the call whose state it
carries. -/
theorem Told.carried (hl : l.Told id) (hp : l.copies i p = true) :
    (p.streamFlags = [] ∧ l.carried i p = none) ∨ ∃ y s, p.streamFlags = [y] ∧
      y.d = .streamFlags s.streamFlags ∧ s.id = id ∧ l.carried i p = some s := by
  obtain ⟨xs, hxs, hflags⟩ := (Option.any_eq_true _ _).mp (Bool.and_eq_true_iff.mp hp).2
  have hnone : p.streamFlags = [] → p.streamFlags = [] ∧ l.carried i p = none := by
    intro hempty
    refine ⟨hempty, ?_⟩
    unfold FlagsLink.carried
    rw [hempty]
    rfl
  rcases Bool.or_eq_true_iff.mp hflags with hempty | heq
  · exact .inl (hnone (List.isEmpty_iff.mp hempty))
  · obtain ⟨hone, hknown⟩ := hl.prepared xs (List.mem_of_getElem? hxs)
    have heq := beq_iff_eq.mp heq
    match hfs : xs.filter (·.2.isFlags) with
    | [] =>
        rw [hfs, List.map_nil, List.map_eq_nil_iff] at heq
        exact .inl (hnone heq)
    | [x] =>
        rw [hfs] at heq
        obtain ⟨y, hy, hdata⟩ := List.map_eq_singleton_iff.mp heq
        obtain ⟨-, s, hcall, hid, hextra⟩ := hknown x (hfs ▸ List.mem_singleton_self x)
        refine .inr ⟨y, s, hy, hdata.trans hextra, hid, ?_⟩
        unfold FlagsLink.carried
        have hfind : xs.find? (·.2.isFlags) = some x := by
          rw [← List.head?_filter, hfs]
          rfl
        rw [hy, hxs]
        show (xs.find? (·.2.isFlags)).bind (fun x => l.calls x.1) = some s
        rw [hfind]
        exact hcall
    | x :: x' :: rest =>
        rw [hfs] at hone
        exact absurd hone (by simp)

/-! ## What the receiver shows -/

/-- **The invariant**: the hash that was noted is that of the flags handled last, and the stream
is shown as they say. -/
structure Follows (id type : UInt8) (l : FlagsLink) : Prop where
  told : l.Told id
  noted : l.receiver.lastFlags = ((handled l.arrived).map (·.hash)).getD 0
  shown : ∀ h ∈ handled l.arrived, ∃ v ∈ l.receiver.shown id,
    v.type = type ∧ v.told h.state.streamFlags = v

theorem told_idempotent (v : ShownState) (d : ExtraStreamFlags) : (v.told d).told d = v.told d := by
  unfold ShownState.told
  split_ifs <;> rfl

/-- **What is shown is what the flags handled last say.** -/
theorem Follows.showsNewest_iff (hl : l.Follows id type) :
    l.ShowsNewest id ↔ SaysNewest type l.arrived := by
  constructor
  · intro hshows h hh m hm
    obtain ⟨v, hv, htype, hsaid⟩ := hl.shown h hh
    obtain ⟨v', hv', hagrees⟩ := hshows m hm
    obtain rfl : v = v' := Option.some.inj (hv.symm.trans hv')
    rw [← hsaid, ShownState.agrees_told_iff, htype] at hagrees
    exact hagrees
  · intro hsays m hm
    obtain ⟨h, hh⟩ := exists_handled (ne_nil_of_newest hm)
    obtain ⟨v, hv, htype, hsaid⟩ := hl.shown h hh
    refine ⟨v, hv, ?_⟩
    rw [← hsaid, ShownState.agrees_told_iff, htype]
    exact hsays h hh m hm

/-- The receiver does something else, or flags are passed over. -/
theorem Follows.unflagged {c : Controller} {arrived : List FlagsArrival} (hl : l.Follows id type)
    (h : Unflagged l.receiver c) (hhandled : handled arrived = handled l.arrived) :
    Follows id type { l with receiver := c, arrived } where
  told := { hl.told with }
  noted := by
    rw [h.lastFlags, hhandled]
    exact hl.noted
  shown := by
    rw [hhandled]
    intro a ha
    obtain ⟨v, hv, hsaid⟩ := hl.shown a ha
    exact ⟨v, h.shows.shown hv, hsaid⟩

/-- Whether flags are passed over is a matter of the history. -/
theorem Follows.repeatsLast_iff (hl : l.Follows id type) {y : WrappedExtra}
    (hy : y.isFlags = true) (n : UInt32) (s : OutgoingStream) :
    pickHandled (handled l.arrived) ⟨n, s, env.hash y⟩ =
      if l.receiver.repeatsLast env y then handled l.arrived else some ⟨n, s, env.hash y⟩ := by
  rw [repeatsLast_flags hy, hl.noted]
  unfold pickHandled
  cases handled l.arrived with
  | none =>
      by_cases hzero : env.hash y = 0
      · simp [hzero]
      · simp [Ne.symm hzero]
  | some h => rfl

theorem Follows.deliver {now : Time} {src : Int64} (hl : l.Follows id type)
    (hp : l.copies i p = true) (hhas : l.HasStream env id type (.deliver now i p src))
    (h : l.deliver env now i p src = .ok l') : l'.Follows id type := by
  obtain ⟨c, hrun, h⟩ := bind_eq_ok.mp h
  rw [← pure_eq_ok.mp h]
  unfold arrival
  have hhas : (l.accepted i p).isSome → ∀ c, l.receiver.beforeFlags env now p src = .ok c →
    ∃ v ∈ c.shown id, v.type = type := hhas
  cases haccepted : l.accepted i p with
  | none =>
      -- a duplicate, or a packet without flags
      show Follows id type { l with receiver := c, arrived := l.arrived ++ [] }
      refine hl.unflagged ?_ (congrArg handled (List.append_nil _))
      unfold accepted at haccepted
      split at haccepted
      · rcases hl.told.carried hp with ⟨hnone, -⟩ | ⟨y, s, -, -, -, hcarried⟩
        · exact processIncomingPacket_unflagged hnone hrun
        · rw [hcarried] at haccepted
          cases haccepted
      · rename_i hdup
        obtain ⟨-, -, ⟨-, rfl⟩ | ⟨hnew, -⟩⟩ := processIncomingPacket_ok hrun
        · exact .refl _
        · exact absurd hnew hdup
  | some s =>
      rw [haccepted] at hhas
      unfold accepted at haccepted
      split at haccepted
      · rename_i hnew
        rcases hl.told.carried hp with ⟨-, hcarried⟩ | ⟨y, t, hy, hdata, hid, hcarried⟩
        · rw [hcarried] at haccepted
          cases haccepted
        · obtain rfl : t = s := Option.some.inj (hcarried.symm.trans haccepted)
          have hid : t.streamFlags.streamId = id := hid
          have hflags : y.isFlags = true := by
            have hmem : y ∈ p.streamFlags := hy ▸ List.mem_singleton_self y
            exact (List.mem_filter.mp hmem).2
          have hhandled : handled (l.arrived ++ [⟨p.number, t, env.hash y⟩]) =
              if l.receiver.repeatsLast env y then handled l.arrived
              else some ⟨p.number, t, env.hash y⟩ := by
            rw [handled_append]
            exact hl.repeatsLast_iff hflags p.number t
          rw [hy]
          show Follows id type { l with
            receiver := c, arrived := l.arrived ++ [⟨p.number, t, env.hash y⟩] }
          rcases processIncomingPacket_flagged hy hdata hnew hrun with
            ⟨hrep, hunflagged⟩ | ⟨hnot, hlast, c₁, hbefore, htold⟩
          · rw [hrep, if_pos rfl] at hhandled
            exact hl.unflagged hunflagged hhandled
          · rw [hnot, if_neg Bool.false_ne_true] at hhandled
            obtain ⟨v, hv, htype⟩ := hhas rfl c₁ hbefore
            refine ⟨{ hl.told with }, ?_, ?_⟩
            · rw [hhandled]
              exact hlast
            · rw [hhandled]
              intro a ha
              obtain rfl := Option.some.inj ha
              rw [hid] at htold
              exact ⟨_, htold v hv, htype, told_idempotent v _⟩
      · cases haccepted

/-- **One step**: the sender's packets carry the states it told, and the receiver follows the
flags it handles. -/
theorem Follows.step (hl : l.Follows id type) (hone : l.OneStream id e)
    (hhas : l.HasStream env id type e) (h : l.step envs env e = .ok l') : l'.Follows id type := by
  cases e with
  | sendStreamFlags s =>
      rw [← pure_eq_ok.mp h]
      exact { hl with told := hl.told.sendStreamFlags hone }
  | sender e =>
      obtain ⟨c, hstep, h⟩ := bind_eq_ok.mp h
      rw [← pure_eq_ok.mp h]
      exact { hl with told := hl.told.sender (step_flagsStep hone hstep) }
  | receiver e =>
      obtain ⟨c, hstep, h⟩ := bind_eq_ok.mp h
      rw [← pure_eq_ok.mp h]
      exact hl.unflagged (step_shows hone hstep) rfl
  | deliver now i p src => exact hl.deliver hone hhas h

/-- A sender that has not told any state yet, and a receiver that has seen no flags. -/
structure Started (l : FlagsLink) : Prop where
  pending : l.sender.pendingFlags = []
  prepared : ∀ xs ∈ l.sender.preparedOccurrences, xs.filter (·.2.isFlags) = []
  unseen : l.receiver.lastFlags = 0
  arrived : l.arrived = []

theorem Started.follows (h : l.Started) : l.Follows id type where
  told :=
    { entry := ⟨by rw [h.pending]; exact Nat.zero_le 1,
        fun x hx => by rw [h.pending] at hx; cases hx⟩
      pending := fun x hx => by rw [h.pending] at hx; cases hx
      prepared := fun xs hxs => by
        rw [h.prepared xs hxs]
        exact ⟨Nat.zero_le 1, fun x hx => absurd hx List.not_mem_nil⟩ }
  noted := by
    rw [h.arrived]
    exact h.unseen
  shown := fun a ha => by
    rw [h.arrived] at ha
    cases ha

/-- **When the newest state is shown.** In every run in which the receiver has the stream when it
comes to flags, exactly as long as the flags it handled last say the newest state. -/
theorem newest_state_shown_iff {events : List FlagsEvent} (hl : l.Started)
    (hone : AlongOk (step envs env) (OneStream id) l events)
    (hhas : AlongOk (step envs env) (HasStream env id type) l events) :
    AlongOk (step envs env) (NewestShown envs env id) l events ↔
      AlongOk (step envs env) (HandledNewest envs env type) l events := by
  refine (alongOk_and.mpr ⟨hone, hhas⟩).congr (I := Follows id type) ?_
    (fun _ _ _ hl he hstep => hl.step he.1 he.2 hstep) hl.follows
  intro l e hl he
  unfold NewestShown HandledNewest
  exact forall_congr' fun l' => forall_congr' fun hstep =>
    (hl.step he.1 he.2 hstep).showsNewest_iff

/-! ## On fixed inputs -/

instance (id : UInt8) : DecidablePred (ShowsNewest id) := fun l =>
  inferInstanceAs (Decidable (∀ m ∈ newest l.arrived, ∃ v ∈ l.receiver.shown id, v.Agrees m.state))

instance (envs env : Platform) (id : UInt8) (l : FlagsLink) (e : FlagsEvent) :
    Decidable (l.NewestShown envs env id e) := decidableBehind envs env l e _

instance (env : Platform) (id type : UInt8) (l : FlagsLink) :
    ∀ e, Decidable (l.HasStream env id type e)
  | .deliver now _ p src =>
    have (c : Controller) : Decidable (∃ v ∈ c.shown id, v.type = type) :=
      inferInstanceAs (Decidable (∃ v ∈ c.shown id, _))
    have : Decidable (∀ c, l.receiver.beforeFlags env now p src = .ok c →
        ∃ v ∈ c.shown id, v.type = type) :=
      match l.receiver.beforeFlags env now p src with
      | .error _ => .isTrue fun _ hok => nomatch hok
      | .ok c => decidable_of_iff (∃ v ∈ c.shown id, v.type = type)
          ⟨fun hv _ hok => Except.ok.inj hok ▸ hv, fun hall => hall c rfl⟩
    inferInstanceAs (Decidable (_ → _))
  | .sendStreamFlags _ | .sender _ | .receiver _ => .isTrue trivial

/-- The sample platform, with the SHA-1 of the flags told below. -/
def flagsPlatform : Platform :=
  { samplePlatform with sha1 := fun bs =>
      if bs = [1, 1, 0] then 0xdc336436988dec47 else if bs = [1, 1, 1] then 0xd226bfb3566cd828
      else if bs = [1, 1, 4] then 0x09c81b28d1825809 else 1 }

/-- Both ends over one UDP relay; the receiver knows the audio stream. -/
def sampleLink : FlagsLink where
  sender := sampleCall {}
  receiver := { sampleCall {} with
    incomingStreams := [{ id := StreamId.audio, type := StreamType.audio }] }

theorem sampleLink_started : sampleLink.Started :=
  ⟨rfl, fun _ h => absurd h List.not_mem_nil, rfl, rfl⟩

/-- The audio stream in a state without extra error correction. -/
def audioState (enabled paused : Bool) : OutgoingStream :=
  { OutgoingStream.new StreamId.audio StreamType.audio 0 with enabled, paused }

/-- The state is told, and a NOP carries it. -/
def tell (s : OutgoingStream) : List FlagsEvent :=
  [.sendStreamFlags s, .sender (0, .sendNopPacket 0)]

/-- The packet with the given index arrives, with these flags. -/
def arrives (i : ℕ) (flags : UInt8) : FlagsEvent :=
  .deliver 1 i
    { seq := UInt32.ofNat (i + 1)
      extraSignaling := [{ d := .streamFlags { streamId := StreamId.audio, flags }
                           hashed := some [1, 1, flags] }] } 1

/-- A stream that is not enabled is paused. The packet that says so first is overtaken by another
one that takes the same flags along. -/
def pausedTwice : List FlagsEvent :=
  tell (audioState false false) ++ tell (audioState false true) ++
    [.sender (0, .sendNopPacket 0), arrives 0 0, arrives 2 4, arrives 1 4]

theorem newest_state_shown_paused :
    AlongOk (step flagsPlatform flagsPlatform)
      (NewestShown flagsPlatform flagsPlatform StreamId.audio) sampleLink pausedTwice :=
  (newest_state_shown_iff sampleLink_started (by decide +kernel)
    (show AlongOk _ (HasStream _ _ StreamType.audio) _ _ by decide +kernel)).mpr (by decide +kernel)

/-- The packets are numbered in the order they were prepared in. -/
def Increasing (l : FlagsLink) (_ : FlagsEvent) : Prop :=
  (l.sender.preparedPackets.map (·.seq)).Pairwise (· < ·)

instance (l : FlagsLink) (e : FlagsEvent) : Decidable (l.Increasing e) :=
  inferInstanceAs (Decidable (List.Pairwise _ _))

/-- Only states that the flags can say are told. -/
def Sayable (_ : FlagsLink) : FlagsEvent → Prop
  | .sendStreamFlags s => ShownState.SayTo StreamType.audio s s
  | _ => True

/-- Packets arrive in order. -/
def InOrder (l : FlagsLink) : FlagsEvent → Prop
  | .deliver _ _ p _ => ∀ m ∈ newest l.arrived, m.number < p.number
  | _ => True

instance (l : FlagsLink) (e : FlagsEvent) : Decidable (l.Sayable e) := by
  unfold Sayable
  cases e <;> infer_instance

instance (l : FlagsLink) (e : FlagsEvent) : Decidable (l.InOrder e) := by
  unfold InOrder
  cases e <;> infer_instance

/-- The packet that was overtaken brings the old state back; and an enabled stream is
shown with extra error correction, though all arrives in order. -/
theorem newest_state_shown_fails :
    (¬ ∀ (envs env : Platform) (id type : UInt8) (l : FlagsLink) (events : List FlagsEvent),
      l.Started → AlongOk (step envs env) (OneStream id) l events →
      AlongOk (step envs env) (HasStream env id type) l events →
      AlongOk (step envs env) Increasing l events → AlongOk (step envs env) Sayable l events →
      AlongOk (step envs env) (NewestShown envs env id) l events) ∧
    (¬ ∀ (envs env : Platform) (id type : UInt8) (l : FlagsLink) (events : List FlagsEvent),
      l.Started → AlongOk (step envs env) (OneStream id) l events →
      AlongOk (step envs env) (HasStream env id type) l events →
      AlongOk (step envs env) Increasing l events → AlongOk (step envs env) InOrder l events →
      AlongOk (step envs env) (NewestShown envs env id) l events) := by
  constructor
  · intro h
    have hrun := h flagsPlatform flagsPlatform StreamId.audio StreamType.audio sampleLink
      ((tell (audioState false false) ++ tell (audioState false true) ++ [arrives 1 4]) ++
        [arrives 0 0]) sampleLink_started (by decide +kernel) (by decide +kernel)
      (by decide +kernel) (by decide +kernel)
    revert hrun
    decide +kernel
  · intro h
    have hrun := h flagsPlatform flagsPlatform StreamId.audio StreamType.audio sampleLink
      (tell (audioState true false) ++ [arrives 0 1]) sampleLink_started (by decide +kernel)
      (by decide +kernel) (by decide +kernel) (by decide +kernel)
    revert hrun
    decide +kernel

end FlagsLink

end Tgvoip
