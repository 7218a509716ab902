import Tgvoip.Lib.Runs
import Tgvoip.Controller.State

/-!
# AudioBitrate — the bitrate of the audio encoder

What the constructor reads of the server configuration, the limits
`UpdateAudioBitrateLimit` chooses among (`Bandwidth.cpp`), and the steps
`UpdateAudioBitrate` takes up and down on the word of the congestion
control (`Tick.cpp`). Bitrates are unsigned 32-bit numbers, and the
arithmetic on them wraps.

A step down stops at the minimum. A step up is taken whenever the bitrate
is below the limit, however little below, and the starting bitrate of a
fast network is not the configured one; the last section says which steps
leave the range.
-/

namespace Tgvoip

open Runs

/-- `NET_TYPE_*`. -/
inductive NetworkType where
  | unknown
  | gprs
  | edge
  | threeG
  | hspa
  | lte
  | wifi
  | ethernet
  | otherHighSpeed
  | otherLowSpeed
  | dialup
  | otherMobile
  deriving DecidableEq, Repr

/-- `IS_MOBILE_NETWORK`. -/
def NetworkType.isMobile : NetworkType → Bool
  | gprs | edge | threeG | hspa | lte | otherMobile => true
  | _ => false

/-- `CongestionControl::Action`. -/
inductive BandwidthAction where
  | none
  | increase
  | decrease
  | min
  deriving DecidableEq, Repr

/-- The bitrates and steps of the configuration. -/
structure AudioBitrates where
  maxAudioBitrate : UInt32
  maxAudioBitrateGPRS : UInt32
  maxAudioBitrateEDGE : UInt32
  maxAudioBitrateSaving : UInt32
  initAudioBitrate : UInt32
  initAudioBitrateGPRS : UInt32
  initAudioBitrateEDGE : UInt32
  initAudioBitrateSaving : UInt32
  audioBitrateStepIncr : UInt32
  audioBitrateStepDecr : UInt32
  minAudioBitrate : UInt32
  deriving DecidableEq

namespace AudioBitrates

/-- What the server configuration says. -/
def read (getUInt : String → UInt32 → UInt32) : AudioBitrates where
  maxAudioBitrate := getUInt "audio_max_bitrate" 20000
  maxAudioBitrateGPRS := getUInt "audio_max_bitrate_gprs" 8000
  maxAudioBitrateEDGE := getUInt "audio_max_bitrate_edge" 16000
  maxAudioBitrateSaving := getUInt "audio_max_bitrate_saving" 8000
  initAudioBitrate := getUInt "audio_init_bitrate" 16000
  initAudioBitrateGPRS := getUInt "audio_init_bitrate_gprs" 8000
  initAudioBitrateEDGE := getUInt "audio_init_bitrate_edge" 8000
  initAudioBitrateSaving := getUInt "audio_init_bitrate_saving" 8000
  audioBitrateStepIncr := getUInt "audio_bitrate_step_incr" 1000
  audioBitrateStepDecr := getUInt "audio_bitrate_step_decr" 1000
  minAudioBitrate := getUInt "audio_min_bitrate" 8000

/-- What the constructor makes of it: one bitrate is replaced. -/
def construct (getUInt : String → UInt32 → UInt32) : AudioBitrates :=
  { read getUInt with initAudioBitrate := 20000 }

/-- **A configuration in order**: each initial bitrate lies between the
minimum and its maximum, and the steps are positive. -/
structure InOrder (b : AudioBitrates) : Prop where
  normal : b.minAudioBitrate ≤ b.initAudioBitrate ∧ b.initAudioBitrate ≤ b.maxAudioBitrate
  gprs : b.minAudioBitrate ≤ b.initAudioBitrateGPRS ∧
    b.initAudioBitrateGPRS ≤ b.maxAudioBitrateGPRS
  edge : b.minAudioBitrate ≤ b.initAudioBitrateEDGE ∧
    b.initAudioBitrateEDGE ≤ b.maxAudioBitrateEDGE
  saving : b.minAudioBitrate ≤ b.initAudioBitrateSaving ∧
    b.initAudioBitrateSaving ≤ b.maxAudioBitrateSaving
  stepIncr : 0 < b.audioBitrateStepIncr
  stepDecr : 0 < b.audioBitrateStepDecr

end AudioBitrates

/-- The part of the controller that the bitrate depends on. -/
structure BitrateControl where
  bitrates : AudioBitrates
  dataSaving : DataSaving := .never
  dataSavingMode : Bool := false
  dataSavingRequestedByPeer : Bool := false
  networkType : NetworkType := .unknown
  /-- Not initialised before the first `UpdateAudioBitrateLimit`. -/
  maxBitrate : UInt32
  /-- `requestedBitrate` of the encoder, if there is one. -/
  encoder : Option UInt32 := none

inductive BitrateEvent where
  /-- Whether the audio output could be initialised. -/
  | initializeAudio (outputWorks : Bool)
  /-- Whether nothing was received for so long that a relay is taken. -/
  | updateAudioBitrate (act : BandwidthAction) (timedOut : Bool)
  | setNetworkType (type : NetworkType)
  | setConfig (dataSaving : DataSaving)
  /-- The peer's init, or its word of another network. -/
  | requestedByPeer (dataSaving : Bool)
  deriving DecidableEq

namespace BitrateControl

def updateDataSavingState (s : BitrateControl) : BitrateControl :=
  { s with dataSavingMode := match s.dataSaving with
    | .always => true
    | .mobile => s.networkType.isMobile
    | .never => false }

/-- The maximum that comes into force, and the bitrate to start with. -/
def limits (s : BitrateControl) : UInt32 × UInt32 :=
  if s.dataSavingMode || s.dataSavingRequestedByPeer then
    (s.bitrates.maxAudioBitrateSaving, s.bitrates.initAudioBitrateSaving)
  else if s.networkType = .gprs then
    (s.bitrates.maxAudioBitrateGPRS, s.bitrates.initAudioBitrateGPRS)
  else if s.networkType = .edge then
    (s.bitrates.maxAudioBitrateEDGE, s.bitrates.initAudioBitrateEDGE)
  else (s.bitrates.maxAudioBitrate, s.bitrates.initAudioBitrate)

def updateAudioBitrateLimit (s : BitrateControl) : BitrateControl :=
  match s.encoder with
  | none => s
  | some _ => { s with maxBitrate := s.limits.1, encoder := some s.limits.2 }

/-- What an action makes of a bitrate. -/
def act (s : BitrateControl) (bitrate : UInt32) : BandwidthAction → UInt32
  | .decrease =>
      if bitrate > 8000 then
        if bitrate < s.bitrates.minAudioBitrate + s.bitrates.audioBitrateStepDecr then
          s.bitrates.minAudioBitrate
        else bitrate - s.bitrates.audioBitrateStepDecr
      else bitrate
  | .increase =>
      if bitrate < s.maxBitrate then bitrate + s.bitrates.audioBitrateStepIncr else bitrate
  | _ => bitrate

def updateAudioBitrate (s : BitrateControl) (act : BandwidthAction) (timedOut : Bool) :
    BitrateControl :=
  match s.encoder with
  | none => s
  | some bitrate =>
      let s := { s with encoder := some (s.act bitrate act) }
      if timedOut then s.updateDataSavingState.updateAudioBitrateLimit else s

/-- A new encoder starts with 20000. -/
def initializeAudio (s : BitrateControl) (outputWorks : Bool) : BitrateControl :=
  let s := { s with encoder := some 20000 }
  if outputWorks then s.updateAudioBitrateLimit else s

def step (s : BitrateControl) : BitrateEvent → BitrateControl
  | .initializeAudio outputWorks => s.initializeAudio outputWorks
  | .updateAudioBitrate act timedOut => s.updateAudioBitrate act timedOut
  | .setNetworkType type =>
      { s with networkType := type }.updateDataSavingState.updateAudioBitrateLimit
  | .setConfig dataSaving =>
      { s with dataSaving := dataSaving }.updateDataSavingState.updateAudioBitrateLimit
  | .requestedByPeer dataSaving =>
      updateAudioBitrateLimit
        { s with dataSavingRequestedByPeer := dataSaving }.updateDataSavingState

/-- The controller before the call. -/
def new (getUInt : String → UInt32 → UInt32) (maxBitrate : UInt32) : BitrateControl :=
  { bitrates := .construct getUInt, maxBitrate }

/-! ## The range -/

/-- The bitrate lies between the minimum and the limit in force. -/
def InRange (s : BitrateControl) : Prop :=
  ∀ bitrate, s.encoder = some bitrate →
    s.bitrates.minAudioBitrate ≤ bitrate ∧ bitrate ≤ s.maxBitrate

/-- The sums and the difference an action computes are those of numbers. -/
def Exact (s : BitrateControl) (bitrate : UInt32) : BandwidthAction → Prop
  | .decrease => bitrate > 8000 →
      s.bitrates.minAudioBitrate.toNat + s.bitrates.audioBitrateStepDecr.toNat < 2 ^ 32 ∧
        (¬ bitrate < s.bitrates.minAudioBitrate + s.bitrates.audioBitrateStepDecr →
          s.bitrates.audioBitrateStepDecr ≤ bitrate)
  | .increase => bitrate < s.maxBitrate →
      bitrate.toNat + s.bitrates.audioBitrateStepIncr.toNat < 2 ^ 32
  | _ => True

def NoWrap (s : BitrateControl) : BitrateEvent → Prop
  | .updateAudioBitrate act _ => ∀ bitrate, s.encoder = some bitrate → s.Exact bitrate act
  | _ => True

/-- After the step the bitrate is in its range, and nothing wrapped. -/
def Kept (s : BitrateControl) (e : BitrateEvent) : Prop := (s.step e).InRange ∧ s.NoWrap e

/-- **The actions that keep the range**: a step up that the limit has room
for, a step down whose sum with the minimum is a 32-bit number. -/
def ActFits (s : BitrateControl) (bitrate : UInt32) : BandwidthAction → Prop
  | .decrease => bitrate > 8000 →
      s.bitrates.minAudioBitrate.toNat + s.bitrates.audioBitrateStepDecr.toNat < 2 ^ 32
  | .increase => bitrate < s.maxBitrate →
      bitrate.toNat + s.bitrates.audioBitrateStepIncr.toNat ≤ s.maxBitrate.toNat
  | _ => True

/-- A network with limits of its own, or none to save data on. -/
def IsSlow (s : BitrateControl) : Prop :=
  (s.dataSavingMode || s.dataSavingRequestedByPeer) = true ∨ s.networkType = .gprs ∨
    s.networkType = .edge

instance (s : BitrateControl) : Decidable s.IsSlow := inferInstanceAs (Decidable (_ ∨ _ ∨ _))

/-- **The limits that keep the range**: those of a slow network, or of one for which the
fixed initial bitrate lies between the minimum and the maximum. -/
def LimitFits (s : BitrateControl) : Prop :=
  s.encoder.isSome → s.IsSlow ∨ s.bitrates.minAudioBitrate ≤ s.bitrates.initAudioBitrate ∧
    s.bitrates.initAudioBitrate ≤ s.bitrates.maxAudioBitrate

def Fits (s : BitrateControl) : BitrateEvent → Prop
  | .initializeAudio true => LimitFits { s with encoder := some 20000 }
  | .initializeAudio false => s.bitrates.minAudioBitrate ≤ 20000 ∧ 20000 ≤ s.maxBitrate
  | .updateAudioBitrate act false => ∀ bitrate, s.encoder = some bitrate → s.ActFits bitrate act
  | .updateAudioBitrate act true =>
      (∀ bitrate, s.encoder = some bitrate → s.Exact bitrate act) ∧
        s.updateDataSavingState.LimitFits
  | .setNetworkType type => LimitFits { s with networkType := type }.updateDataSavingState
  | .setConfig dataSaving => LimitFits { s with dataSaving := dataSaving }.updateDataSavingState
  | .requestedByPeer dataSaving =>
      LimitFits { s with dataSavingRequestedByPeer := dataSaving }.updateDataSavingState

variable {s : BitrateControl} {e : BitrateEvent} {getUInt : String → UInt32 → UInt32}

/-- The constructor's bitrates, from a configuration in order. -/
def Configured (s : BitrateControl) : Prop :=
  ∃ getUInt, s.bitrates = .construct getUInt ∧ (AudioBitrates.read getUInt).InOrder

theorem updateAudioBitrateLimit_bitrates : s.updateAudioBitrateLimit.bitrates = s.bitrates := by
  unfold updateAudioBitrateLimit
  split <;> rfl

theorem step_bitrates (s : BitrateControl) (e : BitrateEvent) :
    (s.step e).bitrates = s.bitrates := by
  cases e with
  | initializeAudio outputWorks =>
      cases outputWorks with
      | false => rfl
      | true => exact updateAudioBitrateLimit_bitrates (s := { s with encoder := some 20000 })
  | updateAudioBitrate act timedOut =>
      simp only [step, updateAudioBitrate]
      split
      · rfl
      · split
        · exact updateAudioBitrateLimit_bitrates
        · rfl
  | setNetworkType type => exact updateAudioBitrateLimit_bitrates
  | setConfig dataSaving => exact updateAudioBitrateLimit_bitrates
  | requestedByPeer dataSaving => exact updateAudioBitrateLimit_bitrates

/-- **A new limit** comes with a bitrate in its range exactly if it fits. -/
theorem limit_inRange_iff (hs : s.Configured) :
    s.updateAudioBitrateLimit.InRange ↔ s.LimitFits := by
  obtain ⟨getUInt, hb, hin⟩ := hs
  unfold updateAudioBitrateLimit LimitFits
  cases henc : s.encoder with
  | none => simp [InRange, henc]
  | some bitrate =>
      simp only [InRange, Option.some.injEq, forall_eq', Option.isSome_some, forall_const, limits,
        IsSlow]
      split
      · rename_i hsaving
        rw [hb]
        exact iff_of_true hin.saving (.inl (.inl hsaving))
      · rename_i hsaving
        split
        · rename_i hgprs
          rw [hb]
          exact iff_of_true hin.gprs (.inl (.inr (.inl hgprs)))
        · rename_i hgprs
          split
          · rename_i hedge
            rw [hb]
            exact iff_of_true hin.edge (.inl (.inr (.inr hedge)))
          · rename_i hedge
            simp [hsaving, hgprs, hedge]

/-- **An action** keeps the range, exactly if it fits. -/
theorem act_inRange_iff {bitrate : UInt32} (hlow : s.bitrates.minAudioBitrate ≤ bitrate)
    (hhigh : bitrate ≤ s.maxBitrate) (act : BandwidthAction) :
    ((s.bitrates.minAudioBitrate ≤ s.act bitrate act ∧ s.act bitrate act ≤ s.maxBitrate) ∧
      s.Exact bitrate act) ↔ s.ActFits bitrate act := by
  rw [UInt32.le_iff_toNat_le] at hlow hhigh
  have hmax := s.maxBitrate.toNat_lt
  cases act with
  | none => simp [BitrateControl.act, Exact, ActFits, UInt32.le_iff_toNat_le, hlow, hhigh]
  | min => simp [BitrateControl.act, Exact, ActFits, UInt32.le_iff_toNat_le, hlow, hhigh]
  | increase =>
      simp only [BitrateControl.act, Exact, ActFits]
      by_cases hroom : bitrate < s.maxBitrate
      · simp only [hroom, if_true, forall_const, UInt32.le_iff_toNat_le, UInt32.toNat_add]
        omega
      · simp [hroom, UInt32.le_iff_toNat_le, hlow, hhigh]
  | decrease =>
      simp only [BitrateControl.act, Exact, ActFits]
      by_cases habove : bitrate > 8000
      · simp only [habove, if_true, forall_const]
        constructor
        · exact fun h => h.2.1
        · intro hsum
          have hadd : (s.bitrates.minAudioBitrate + s.bitrates.audioBitrateStepDecr).toNat =
              s.bitrates.minAudioBitrate.toNat + s.bitrates.audioBitrateStepDecr.toNat := by
            rw [UInt32.toNat_add, Nat.mod_eq_of_lt hsum]
          simp only [UInt32.lt_iff_toNat_lt, hadd, UInt32.le_iff_toNat_le]
          split
          · exact ⟨⟨Nat.le_refl _, by omega⟩, hsum, by omega⟩
          · have hsub : (bitrate - s.bitrates.audioBitrateStepDecr).toNat =
                bitrate.toNat - s.bitrates.audioBitrateStepDecr.toNat :=
              UInt32.toNat_sub_of_le _ _ (UInt32.le_iff_toNat_le.mpr (by omega))
            rw [hsub]
            omega
      · simp [habove, UInt32.le_iff_toNat_le, hlow, hhigh]

/-- **The step lemma**: from a bitrate in range, exactly the steps that fit keep it there. -/
theorem kept_iff (hs : s.Configured) (hin : s.InRange) : s.Kept e ↔ s.Fits e := by
  obtain ⟨getUInt, hb, hord⟩ := hs
  have hlimit : ∀ t : BitrateControl, t.bitrates = s.bitrates →
      (t.updateAudioBitrateLimit.InRange ↔ t.LimitFits) := fun t ht =>
    limit_inRange_iff ⟨getUInt, ht.trans hb, hord⟩
  cases e with
  | initializeAudio outputWorks =>
      cases outputWorks with
      | false => simp [Kept, NoWrap, step, initializeAudio, InRange, Fits]
      | true => exact (and_iff_left trivial).trans (hlimit { s with encoder := some 20000 } rfl)
  | updateAudioBitrate act timedOut =>
      cases henc : s.encoder with
      | none =>
          cases timedOut <;>
            simp [Kept, NoWrap, step, updateAudioBitrate, henc, Fits, InRange, LimitFits,
              updateDataSavingState]
      | some bitrate =>
          cases timedOut with
          | false =>
              obtain ⟨hlow, hhigh⟩ := hin bitrate henc
              simp only [Kept, NoWrap, step, updateAudioBitrate, henc, Fits, InRange,
                Option.some.injEq, forall_eq', Bool.false_eq_true, if_false]
              exact act_inRange_iff hlow hhigh act
          | true =>
              simp only [Kept, NoWrap, step, updateAudioBitrate, henc, Fits, Option.some.injEq,
                forall_eq', if_true, and_comm]
              refine and_congr_right fun _ => ?_
              refine (hlimit (updateDataSavingState { s with
                encoder := some (s.act bitrate act) }) rfl).trans ?_
              simp [LimitFits, updateDataSavingState, henc, IsSlow]
  | setNetworkType type => exact (and_iff_left trivial).trans (hlimit _ rfl)
  | setConfig dataSaving => exact (and_iff_left trivial).trans (hlimit _ rfl)
  | requestedByPeer dataSaving => exact (and_iff_left trivial).trans (hlimit _ rfl)

theorem along_kept_iff (es : List BitrateEvent) (hs : s.Configured) (hin : s.InRange) :
    Along step Kept s es ↔ Along step Fits s es := by
  refine along_congr (I := fun s => s.Configured ∧ s.InRange) (A := fun _ _ => True) ?_ ?_
    ⟨hs, hin⟩ (along_of_forall fun _ _ _ => trivial)
  · exact fun s e h _ => kept_iff h.1 h.2
  · intro s e h _ hfits
    obtain ⟨getUInt, hb, hord⟩ := h.1
    exact ⟨⟨getUInt, (step_bitrates s e).trans hb, hord⟩, ((kept_iff h.1 h.2).mpr hfits).1⟩

/-- **The bitrate stays in its range, exactly**: for every configuration in
order, and every run of audio start, actions, and changes of network and
data saving, the bitrate lies between the minimum and the limit in force
after each step, and no sum wraps, if and only if every step fits. -/
theorem bitrate_kept_iff (getUInt : String → UInt32 → UInt32)
    (hin : (AudioBitrates.read getUInt).InOrder) (maxBitrate : UInt32) (es : List BitrateEvent) :
    Along step Kept (new getUInt maxBitrate) es ↔ Along step Fits (new getUInt maxBitrate) es :=
  along_kept_iff es ⟨getUInt, rfl, hin⟩ fun _ h => by cases h

/-- A configuration by its entries. -/
def entries (config : List (String × UInt32)) (name : String) (fallback : UInt32) : UInt32 :=
  (config.lookup name).getD fallback

/-- The defaults, on EDGE and then on a fast network. -/
theorem bitrate_kept_defaults :
    Along step Kept (new (entries []) 0) [.initializeAudio true, .setNetworkType .edge,
        .updateAudioBitrate .increase false, .updateAudioBitrate .decrease false,
        .setNetworkType .wifi, .updateAudioBitrate .decrease false] := by
  refine (bitrate_kept_iff (entries []) ?_ 0 _).mpr ⟨?_, ?_, ?_, ?_, ?_, ?_, trivial⟩
  · exact ⟨by decide, by decide, by decide, by decide, by decide, by decide⟩
  · exact fun _ => .inr (by decide)
  · exact fun _ => .inl (by decide)
  · exact fun _ h => Option.some.inj h ▸ fun _ => by decide
  · exact fun _ h => Option.some.inj h ▸ fun _ => by decide
  · exact fun _ => .inr (by decide)
  · exact fun _ h => Option.some.inj h ▸ fun _ => by decide

/-- Steps of 3000 on EDGE: the third leads from 14000 to 17000, above the 16000 in force. -/
theorem bitrate_kept_fails :
    (AudioBitrates.read (entries [("audio_bitrate_step_incr", 3000)])).InOrder ∧
      ¬ Along step Kept (new (entries [("audio_bitrate_step_incr", 3000)]) 0)
        [.initializeAudio true, .setNetworkType .edge, .updateAudioBitrate .increase false,
          .updateAudioBitrate .increase false, .updateAudioBitrate .increase false] := by
  refine ⟨⟨by decide, by decide, by decide, by decide, by decide, by decide⟩, fun h => ?_⟩
  obtain ⟨-, -, -, -, hlast, -⟩ := h
  exact absurd (hlast.1 17000 (by decide)).2 (by decide)

end BitrateControl
end Tgvoip
