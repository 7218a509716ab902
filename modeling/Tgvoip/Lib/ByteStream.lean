import Tgvoip.Lib.ByteReader

/-!
# ByteStream — bytes handed out in pieces

A stream socket returns, for each request, some of the next bytes: at least
one and at most as many as were asked for. Where it cuts is a function of
the position it reads from, which covers every way to cut, since no two
requests are answered at one position. What a request puts into a buffer
goes to the buffer's front.
-/

namespace ByteStream

open ByteReader (Bytes)

/-- How many bytes a request for `n` at position `pos` gets. -/
structure Segmentation where
  cut : ℕ → ℕ → ℕ
  cut_pos : ∀ pos n, 0 < n → 0 < cut pos n
  cut_le : ∀ pos n, cut pos n ≤ n

/-- The bytes that were not read yet, behind `pos` that were. -/
structure Stream where
  rest : Bytes
  pos : ℕ := 0
  deriving DecidableEq

namespace Stream

variable (seg : Segmentation)

def receive (s : Stream) (n : ℕ) : Bytes × Stream :=
  let data := s.rest.take (seg.cut s.pos n)
  (data, { rest := s.rest.drop (seg.cut s.pos n), pos := s.pos + data.length })

end Stream

/-- `memcpy` to the front of a buffer. -/
def overwrite (buf data : Bytes) : Bytes := data ++ buf.drop data.length

variable {seg : Segmentation}

theorem receive_append {s : Stream} (bs : Bytes) {rest : Bytes} (hs : s.rest = bs ++ rest)
    (hwhole : seg.cut s.pos bs.length = bs.length) :
    s.receive seg bs.length = (bs, { rest, pos := s.pos + bs.length }) := by
  simp [Stream.receive, hs, hwhole]

/-- A single byte cannot be cut. -/
theorem receive_one {s : Stream} {b : UInt8} {bs : Bytes} (hs : s.rest = b :: bs) :
    s.receive seg 1 = ([b], { rest := bs, pos := s.pos + 1 }) := by
  have hwhole : seg.cut s.pos 1 = 1 :=
    Nat.le_antisymm (seg.cut_le s.pos 1) (seg.cut_pos s.pos 1 Nat.one_pos)
  exact receive_append [b] hs hwhole

theorem length_receive_le (seg : Segmentation) (s : Stream) (n : ℕ) : (s.receive seg n).1.length ≤ seg.cut s.pos n := by
  rw [Stream.receive, List.length_take]
  exact Nat.min_le_left _ _

theorem length_receive_pos (seg : Segmentation) {s : Stream} {n : ℕ} (hn : 0 < n) (hs : s.rest ≠ []) :
    0 < (s.receive seg n).1.length := by
  have := seg.cut_pos s.pos n hn
  have := List.length_pos_iff.mpr hs
  simp only [Stream.receive, List.length_take]
  omega

@[simp] theorem length_overwrite {buf data : Bytes} (h : data.length ≤ buf.length) :
    (overwrite buf data).length = buf.length := by
  simp only [overwrite, List.length_append, List.length_drop]
  omega

/-- A buffer that is filled whole. -/
theorem overwrite_whole {buf data : Bytes} (h : data.length = buf.length) :
    overwrite buf data = data := by
  rw [overwrite, h, List.drop_length, List.append_nil]

/-- Behind the data the buffer stays. -/
theorem getElem?_overwrite {buf data : Bytes} {i : ℕ} (h : data.length ≤ i) :
    (overwrite buf data)[i]? = buf[i]? := by
  rw [overwrite, List.getElem?_append_right h, List.getElem?_drop, Nat.add_sub_cancel' h]

end ByteStream
