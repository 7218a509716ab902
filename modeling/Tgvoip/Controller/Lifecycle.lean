import Tgvoip.Controller.ThreadMoves

/-!
# Lifecycle — whether a failed call stays failed

Of the functions that set the state, all look at it first, but for the one
that is posted with the first stream packet: half a second later it makes
the call an established one, failed or not. Every other event leaves a
failed call failed.
-/

namespace Tgvoip

open ByteReader Fallible

theorem Move.failed {wild : Prop} {b b' : Bearings} (h : Move False wild b b')
    (hb : b.state = .failed) : b'.state = .failed := by
  cases h with
  | state s h => exact (h.resolve_left id).resolve_left fun hne => hne hb
  | _ => exact hb

namespace MessageThread

open Controller

variable {env : Platform} {t t' : MessageThread} {e : Time × ThreadEvent}

end MessageThread

end Tgvoip
