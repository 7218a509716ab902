import Mathlib.Data.Int.Basic

/-!
# VersionInfo — which wire format two peers speak

`controller/protocol/VersionInfo.h`. Three formats share the code: the
new one, the legacy one (peer version 8 and 9) and the oldest one. Which
one applies is decided by the peer's protocol version, and before that
is known (`peerVersion = 0`) by the maximum layer of the connection.
-/

namespace Tgvoip

def protocolReliable : Int := 10

/-- `PROTOCOL_VERSION`. -/
def protocolVersion : UInt32 := 10

/-- `MIN_PROTOCOL_VERSION`. -/
def minProtocolVersion : UInt32 := 3

/-- The state of a call. -/
inductive CallState where
  | waitInit
  | waitInitAck
  | established
  | failed
  | reconnecting
  deriving DecidableEq, Repr

structure VersionInfo where
  peerVersion : Int
  connectionMaxLayer : Int
  deriving DecidableEq, Repr

namespace VersionInfo

def isNew (ver : VersionInfo) : Bool :=
  ver.peerVersion ≥ protocolReliable || ver.connectionMaxLayer ≥ 110

def isLegacy (ver : VersionInfo) : Bool :=
  !ver.isNew && (ver.peerVersion ≥ 8 || (ver.peerVersion = 0 && ver.connectionMaxLayer ≥ 92))

def isLegacyLegacy (ver : VersionInfo) : Bool :=
  !(ver.peerVersion ≥ 8 || (ver.peerVersion = 0 && ver.connectionMaxLayer ≥ 92))

/-- A format that is not new is one of the other two. -/
theorem isLegacy_eq {ver : VersionInfo} (h : ver.isNew = false) :
    ver.isLegacy = !ver.isLegacyLegacy := by
  simp [isLegacy, isLegacyLegacy, h]

theorem isNew_eq_false_of_isLegacy {ver : VersionInfo} (h : ver.isLegacy = true) :
    ver.isNew = false := by
  simp only [isLegacy, Bool.and_eq_true, Bool.not_eq_true'] at h
  exact h.1

end VersionInfo

end Tgvoip
