import Tgvoip.Net.Endpoint
import Tgvoip.Lib.Runs

/-!
# NetworkSocketPosix — packets on a TCP socket

`Send` and `OnReadyToSend` of `os/posix/NetworkSocketPosix.cpp` on a TCP
socket, with the packets of `controller/net/NetworkSocket.h`. A packet that
the kernel did not take (all of) is kept, and goes out again when the socket
is ready; there is one place to keep a packet.

What the system call `send` answers is an input. The kernel never takes more
than `0x7FFFF000` bytes at once, so the cast of its answer to `int` is left
out.
-/

namespace Tgvoip

open ByteReader

inductive NetworkProtocol where
  | udp
  | tcp
  deriving DecidableEq, Repr

structure NetworkPacket where
  data : Bytes
  address : NetworkAddress
  port : UInt16
  protocol : NetworkProtocol
  deriving DecidableEq, Repr

namespace NetworkPacket

/-- `NetworkPacket::Empty`. -/
def empty : NetworkPacket := { data := [], address := .empty, port := 0, protocol := .udp }

def isEmpty (p : NetworkPacket) : Bool :=
  p.data.isEmpty || (p.protocol == .udp && (p.port == 0 || p.address.isEmpty))

@[simp] theorem isEmpty_empty : empty.isEmpty = true := rfl

theorem isEmpty_of_data {p : NetworkPacket} (h : p.data = []) : p.isEmpty = true := by
  rw [isEmpty, h]
  rfl

end NetworkPacket

/-- The answer of the system call: `EAGAIN` (or `EWOULDBLOCK`), another error,
or a number of bytes. -/
inductive SendResult where
  | again
  | error
  | accepted (n : ℕ)
  deriving DecidableEq, Repr

/-- `NetworkSocketPosix`, what a TCP socket has to send with. -/
structure NetworkSocketPosix where
  pendingOutgoingPacket : NetworkPacket := .empty
  readyToSend : Bool := false
  failed : Bool := false
  deriving DecidableEq, Repr

namespace NetworkSocketPosix

variable (s : NetworkSocketPosix)

/-- The two places of `Send` that keep a packet. -/
def keep (packet : NetworkPacket) : NetworkSocketPosix :=
  if !s.pendingOutgoingPacket.isEmpty then { s with failed := true }
  else { s with pendingOutgoingPacket := packet, readyToSend := false }

/-- `Send`, with the bytes that the kernel takes. -/
def send (packet : NetworkPacket) (res : SendResult) : Bytes × NetworkSocketPosix :=
  if packet.isEmpty then ([], s)
  else
    match res with
    | .again => ([], s.keep packet)
    | .error => ([], s)
    | .accepted n =>
      (packet.data.take n,
        if n ≠ packet.data.length && packet.protocol == .tcp then s.keep packet else s)

/-- `OnReadyToSend`, with the bytes that the kernel takes. `Send` gets a
reference to the pending packet itself: it is still there while it is sent. -/
def onReadyToSend (res : SendResult) : Bytes × NetworkSocketPosix × Bool :=
  if !s.pendingOutgoingPacket.isEmpty then
    let sent := s.send s.pendingOutgoingPacket res
    (sent.1, { sent.2 with pendingOutgoingPacket := .empty }, false)
  else ([], { s with readyToSend := true }, true)

/-! ## Branches -/

variable {s} {packet : NetworkPacket}

theorem keep_busy (h : s.pendingOutgoingPacket.isEmpty = false) :
    s.keep packet = { s with failed := true } := if_pos (by rw [h]; rfl)

theorem keep_free (h : s.pendingOutgoingPacket.isEmpty = true) :
    s.keep packet = { s with pendingOutgoingPacket := packet, readyToSend := false } :=
  if_neg (by rw [h]; simp)

theorem keep_failed (h : s.failed = true) : (s.keep packet).failed = true := by
  rw [keep]
  split
  · rfl
  · exact h

theorem send_null (h : packet.isEmpty = true) (res : SendResult) : s.send packet res = ([], s) :=
  if_pos h

theorem send_eq (h : packet.isEmpty = false) (res : SendResult) :
    s.send packet res =
      match res with
      | .again => ([], s.keep packet)
      | .error => ([], s)
      | .accepted n => (packet.data.take n,
          if n ≠ packet.data.length && packet.protocol == .tcp then s.keep packet else s) :=
  if_neg (by rw [h]; decide)

theorem send_again (h : packet.isEmpty = false) :
    s.send packet .again = ([], s.keep packet) := send_eq h .again

theorem send_whole (h : packet.isEmpty = false) :
    s.send packet (.accepted packet.data.length) = (packet.data, s) := by
  rw [send_eq h]
  simp

theorem send_partial (h : packet.isEmpty = false) {n : ℕ} (hn : n ≠ packet.data.length)
    (htcp : packet.protocol = .tcp) :
    s.send packet (.accepted n) = (packet.data.take n, s.keep packet) := by
  rw [send_eq h]
  simp [hn, htcp]

theorem send_failed (h : s.failed = true) (res : SendResult) :
    (s.send packet res).2.failed = true := by
  cases hnull : packet.isEmpty with
  | true => rw [send_null hnull]; exact h
  | false =>
    rw [send_eq hnull]
    cases res with
    | again => exact keep_failed h
    | error => exact h
    | accepted n =>
      show (if _ then s.keep packet else s).failed = true
      split
      · exact keep_failed h
      · exact h

theorem onReadyToSend_idle (h : s.pendingOutgoingPacket.isEmpty = true) (res : SendResult) :
    s.onReadyToSend res = ([], { s with readyToSend := true }, true) := if_neg (by rw [h]; simp)

theorem onReadyToSend_busy (h : s.pendingOutgoingPacket.isEmpty = false) (res : SendResult) :
    s.onReadyToSend res = ((s.send s.pendingOutgoingPacket res).1,
      { (s.send s.pendingOutgoingPacket res).2 with pendingOutgoingPacket := .empty }, false) :=
  if_pos (by rw [h]; rfl)

end NetworkSocketPosix

/-! ## Runs -/

/-- A socket and, as history, the packets passed to `Send` and the bytes the
kernel took. -/
structure TcpRun where
  socket : NetworkSocketPosix := {}
  passed : List NetworkPacket := []
  accepted : Bytes := []
  deriving DecidableEq, Repr

inductive TcpEvent where
  | send (packet : NetworkPacket) (res : SendResult)
  | onReadyToSend (res : SendResult)

namespace TcpRun

def step (r : TcpRun) : TcpEvent → TcpRun
  | .send packet res =>
    { socket := (r.socket.send packet res).2
      passed := r.passed ++ [packet]
      accepted := r.accepted ++ (r.socket.send packet res).1 }
  | .onReadyToSend res =>
    { r with
      socket := (r.socket.onReadyToSend res).2.1
      accepted := r.accepted ++ (r.socket.onReadyToSend res).1 }

/-- Everything that is to be on the stream. -/
def stream (r : TcpRun) : Bytes := r.passed.flatMap (·.data)

/-- What `OnReadyToSend` offers to the kernel, if anything. -/
def kept (r : TcpRun) : Option Bytes :=
  if r.socket.pendingOutgoingPacket.isEmpty then none
  else some r.socket.pendingOutgoingPacket.data

/-- The answers of the kernel: it takes nothing for now, or at least one byte
of what it is offered. -/
def Answers (offered : Bytes) : SendResult → Prop
  | .again => True
  | .error => False
  | .accepted n => 1 ≤ n ∧ n ≤ offered.length

instance (offered : Bytes) : ∀ res, Decidable (Answers offered res)
  | .again => .isTrue trivial
  | .error => .isFalse id
  | .accepted n => inferInstanceAs (Decidable (1 ≤ n ∧ n ≤ offered.length))

def Admissible (r : TcpRun) : TcpEvent → Prop
  | .send packet res => packet.isEmpty = false → Answers packet.data res
  | .onReadyToSend res => ∀ rest ∈ r.kept, Answers rest res

instance (r : TcpRun) : ∀ e, Decidable (Admissible r e)
  | .send packet res => inferInstanceAs (Decidable (packet.isEmpty = false → Answers packet.data res))
  | .onReadyToSend res => inferInstanceAs (Decidable (∀ rest ∈ r.kept, Answers rest res))

/-- Nothing is lost and nothing is sent twice: the kernel has the first bytes
of the stream, and the packet that is kept is the rest of it. -/
def Delivered (r : TcpRun) : Prop :=
  r.socket.failed = false →
    r.accepted <+: r.stream ∧ ∀ rest ∈ r.kept, r.accepted ++ rest = r.stream

/-- What a step owes the stream: it stays delivered, and what is kept stays
until the socket is ready. -/
structure StepOk (r : TcpRun) (e : TcpEvent) : Prop where
  delivered : Delivered (r.step e)
  waits : ∀ rest ∈ r.kept, ∀ packet res, e = .send packet res → rest ∈ (r.step e).kept

/-- The kernel takes a packet whole or not at all, and nothing new while
another packet is kept (but for a part of it, which the socket fails for). -/
def Whole (r : TcpRun) : TcpEvent → Prop
  | .send packet res =>
    r.socket.failed = true ∨ packet.data = [] ∨ packet.isEmpty = false ∧
      if r.socket.pendingOutgoingPacket.isEmpty then
        res = .again ∨ res = .accepted packet.data.length
      else res = .again ∨ res ≠ .accepted packet.data.length ∧ packet.protocol = .tcp
  | .onReadyToSend res =>
    r.socket.failed = true ∨ ∀ rest ∈ r.kept,
      res = .again ∨ res = .accepted rest.length ∨
        r.socket.pendingOutgoingPacket.protocol = .tcp

instance (r : TcpRun) : ∀ e, Decidable (Whole r e)
  | .send packet res =>
    inferInstanceAs (Decidable (r.socket.failed = true ∨ packet.data = [] ∨
      packet.isEmpty = false ∧
        if r.socket.pendingOutgoingPacket.isEmpty then
          res = .again ∨ res = .accepted packet.data.length
        else res = .again ∨ res ≠ .accepted packet.data.length ∧ packet.protocol = .tcp))
  | .onReadyToSend res =>
    inferInstanceAs (Decidable (r.socket.failed = true ∨ ∀ rest ∈ r.kept,
      res = .again ∨ res = .accepted rest.length ∨
        r.socket.pendingOutgoingPacket.protocol = .tcp))

/-! ## The invariant -/

/-- What is kept is exactly what the kernel has not taken. -/
structure Lossless (r : TcpRun) : Prop where
  rest : r.socket.failed = false → r.accepted ++ r.socket.pendingOutgoingPacket.data = r.stream
  nothing : r.socket.pendingOutgoingPacket.isEmpty = true →
    r.socket.pendingOutgoingPacket.data = []

theorem lossless_init : Lossless {} where
  rest _ := rfl
  nothing _ := rfl

variable {r : TcpRun} {packet : NetworkPacket} {res : SendResult}

theorem Lossless.delivered (h : Lossless r) : Delivered r := by
  intro hfailed
  refine ⟨⟨_, h.rest hfailed⟩, fun rest hrest => ?_⟩
  rw [Option.mem_def, kept] at hrest
  split at hrest
  · cases hrest
  · rw [← Option.some.inj hrest]
    exact h.rest hfailed

theorem kept_of_pending (h : r.socket.pendingOutgoingPacket.isEmpty = false) :
    r.kept = some r.socket.pendingOutgoingPacket.data := if_neg (by rw [h]; decide)

theorem stream_passed (socket : NetworkSocketPosix) (accepted : Bytes) :
    stream { socket := socket, passed := r.passed ++ [packet], accepted := accepted }
      = r.stream ++ packet.data := by
  simp [stream]

/-- A step that fails the socket owes nothing more. -/
theorem lossless_failed (hfailed : r.socket.failed = true)
    (hnothing : r.socket.pendingOutgoingPacket.isEmpty = true →
      r.socket.pendingOutgoingPacket.data = []) : Lossless r where
  rest h := by
    rw [h] at hfailed
    cases hfailed
  nothing := hnothing

/-- Sending keeps the packet that is kept, or another one where there is none. -/
theorem pending_send (s : NetworkSocketPosix) (packet : NetworkPacket) (res : SendResult) :
    (s.send packet res).2.pendingOutgoingPacket = s.pendingOutgoingPacket ∨
      packet.isEmpty = false ∧ s.pendingOutgoingPacket.isEmpty = true ∧
        (s.send packet res).2.pendingOutgoingPacket = packet := by
  have hkeep : packet.isEmpty = false → (s.keep packet).pendingOutgoingPacket =
      s.pendingOutgoingPacket ∨ packet.isEmpty = false ∧ s.pendingOutgoingPacket.isEmpty = true ∧
        (s.keep packet).pendingOutgoingPacket = packet := by
    intro hnull
    cases hpending : s.pendingOutgoingPacket.isEmpty with
    | true => rw [NetworkSocketPosix.keep_free hpending]; exact .inr ⟨hnull, rfl, rfl⟩
    | false => rw [NetworkSocketPosix.keep_busy hpending]; exact .inl rfl
  cases hnull : packet.isEmpty with
  | true => rw [NetworkSocketPosix.send_null hnull]; exact .inl rfl
  | false =>
    rw [NetworkSocketPosix.send_eq hnull]
    rw [hnull] at hkeep
    cases res with
    | again => exact hkeep rfl
    | error => exact .inl rfl
    | accepted n =>
      dsimp only
      split
      · exact hkeep rfl
      · exact .inl rfl

theorem Lossless.nothing_send (h : Lossless r) (packet : NetworkPacket) (res : SendResult) :
    (r.socket.send packet res).2.pendingOutgoingPacket.isEmpty = true →
      (r.socket.send packet res).2.pendingOutgoingPacket.data = [] := by
  rcases pending_send r.socket packet res with hsame | ⟨hnull, -, hnew⟩
  · rw [hsame]
    exact h.nothing
  · rw [hnew, hnull]
    exact fun h => by cases h

theorem Lossless.send (h : Lossless r) (hadm : Admissible r (.send packet res))
    (hwhole : Whole r (.send packet res)) : Lossless (r.step (.send packet res)) := by
  have hnothing := h.nothing_send packet res
  rcases hwhole with hfailed | hnil | ⟨hnull, hwhole⟩
  · exact lossless_failed (NetworkSocketPosix.send_failed hfailed res) hnothing
  · refine ⟨fun hfailed => ?_, hnothing⟩
    rw [step, NetworkSocketPosix.send_null (NetworkPacket.isEmpty_of_data hnil)] at hfailed ⊢
    rw [stream_passed, hnil, List.append_nil, List.append_nil]
    exact h.rest hfailed
  have hadm := hadm hnull
  cases hpending : r.socket.pendingOutgoingPacket.isEmpty with
  | true =>
    rw [hpending] at hwhole
    refine ⟨fun hfailed => ?_, hnothing⟩
    have hall : r.socket.failed = false → r.accepted = r.stream := by
      intro hfailed
      rw [← h.rest hfailed, h.nothing hpending, List.append_nil]
    rcases hwhole with rfl | rfl
    · rw [step, NetworkSocketPosix.send_again hnull, NetworkSocketPosix.keep_free hpending]
        at hfailed ⊢
      show (r.accepted ++ []) ++ packet.data = _
      rw [stream_passed, hall hfailed, List.append_nil]
    · rw [step, NetworkSocketPosix.send_whole hnull] at hfailed ⊢
      show (r.accepted ++ packet.data) ++ r.socket.pendingOutgoingPacket.data = _
      rw [stream_passed, hall hfailed, h.nothing hpending, List.append_nil]
  | false =>
    -- another packet is kept, so the socket fails
    rw [hpending] at hwhole
    refine lossless_failed ?_ hnothing
    show (r.socket.send packet res).2.failed = true
    rcases hwhole with rfl | ⟨hpart, htcp⟩
    · rw [NetworkSocketPosix.send_again hnull, NetworkSocketPosix.keep_busy hpending]
    cases res with
    | again => rw [NetworkSocketPosix.send_again hnull, NetworkSocketPosix.keep_busy hpending]
    | error => cases hadm
    | accepted n =>
      have hn : n ≠ packet.data.length := fun heq => hpart (heq ▸ rfl)
      rw [NetworkSocketPosix.send_partial hnull hn htcp, NetworkSocketPosix.keep_busy hpending]

theorem Lossless.onReadyToSend (h : Lossless r) (hadm : Admissible r (.onReadyToSend res))
    (hwhole : Whole r (.onReadyToSend res)) : Lossless (r.step (.onReadyToSend res)) := by
  cases hpending : r.socket.pendingOutgoingPacket.isEmpty with
  | true =>
    rw [step, NetworkSocketPosix.onReadyToSend_idle hpending]
    refine ⟨fun hfailed => ?_, h.nothing⟩
    show (r.accepted ++ []) ++ r.socket.pendingOutgoingPacket.data = r.stream
    rw [List.append_nil]
    exact h.rest hfailed
  | false =>
    rw [step, NetworkSocketPosix.onReadyToSend_busy hpending]
    rcases hwhole with hfailed | hwhole
    · exact lossless_failed (NetworkSocketPosix.send_failed hfailed res) fun _ => rfl
    have hkept := kept_of_pending hpending
    -- the packet is still kept while it is sent, so it cannot be kept again
    have hagain : res = .again → Lossless { r with
        socket := { (r.socket.send r.socket.pendingOutgoingPacket res).2 with
          pendingOutgoingPacket := .empty }
        accepted := r.accepted ++ (r.socket.send r.socket.pendingOutgoingPacket res).1 } := by
      rintro rfl
      rw [NetworkSocketPosix.send_again hpending, NetworkSocketPosix.keep_busy hpending]
      exact lossless_failed rfl fun _ => rfl
    have hall : res = .accepted r.socket.pendingOutgoingPacket.data.length → Lossless { r with
        socket := { (r.socket.send r.socket.pendingOutgoingPacket res).2 with
          pendingOutgoingPacket := .empty }
        accepted := r.accepted ++ (r.socket.send r.socket.pendingOutgoingPacket res).1 } := by
      rintro rfl
      rw [NetworkSocketPosix.send_whole hpending]
      refine ⟨fun hfailed => ?_, fun _ => rfl⟩
      show (r.accepted ++ r.socket.pendingOutgoingPacket.data) ++ [] = r.stream
      rw [List.append_nil]
      exact h.rest hfailed
    rcases hwhole _ hkept with hres | hres | htcp
    · exact hagain hres
    · exact hall hres
    have hanswers := hadm _ hkept
    cases res with
    | again => exact hagain rfl
    | error => cases hanswers
    | accepted n =>
      by_cases hn : n = r.socket.pendingOutgoingPacket.data.length
      · exact hall (congrArg SendResult.accepted hn)
      · rw [NetworkSocketPosix.send_partial hpending hn htcp, NetworkSocketPosix.keep_busy hpending]
        exact lossless_failed rfl fun _ => rfl

theorem Lossless.step (h : Lossless r) {e : TcpEvent} (hadm : Admissible r e) (hwhole : Whole r e) :
    Lossless (r.step e) := by
  cases e with
  | send packet res => exact h.send hadm hwhole
  | onReadyToSend res => exact h.onReadyToSend hadm hwhole

theorem kept_send {rest : Bytes} (h : rest ∈ r.kept) :
    rest ∈ (r.step (.send packet res)).kept := by
  have hpending : r.socket.pendingOutgoingPacket.isEmpty = false := by
    rw [Option.mem_def, kept] at h
    split at h
    · cases h
    · exact Bool.not_eq_true _ ▸ ‹_›
  rcases pending_send r.socket packet res with hsame | ⟨-, hidle, -⟩
  · have hkept : (r.step (.send packet res)).kept = r.kept := by
      rw [kept, kept, TcpRun.step, hsame]
    rwa [hkept]
  · rw [hpending] at hidle
    cases hidle

/-- **Partial sends**: as long as the kernel takes packets whole, and none
while another one is kept, the stream is delivered in order and what is kept
is exactly its rest. -/
theorem tcp_stream_delivered (events : List TcpEvent)
    (hrun : Runs.Along step (fun r e => Admissible r e ∧ Whole r e) {} events) :
    Runs.Along step StepOk {} events := by
  refine hrun.strengthen (fun r e h hok => h.step hok.1 hok.2) (fun r e h hok => ?_) lossless_init
  refine ⟨(h.step hok.1 hok.2).delivered, ?_⟩
  rintro rest hkept packet res rfl
  exact kept_send hkept

/-! ## A packet that is taken in part -/

def relayPacket (data : Bytes) : NetworkPacket :=
  { data := data, address := .ipv4 1, port := 443, protocol := .tcp }

/-- The second packet waits for the socket. -/
def waitingRun : List TcpEvent :=
  [.send (relayPacket [1, 2, 3]) (.accepted 3), .send (relayPacket [4, 5]) .again,
    .onReadyToSend (.accepted 2)]

theorem tcp_stream_delivered_waiting :
    Runs.Along step (fun r e => Admissible r e ∧ Whole r e) {} waitingRun ∧
      Runs.Along step StepOk {} waitingRun := by
  have hrun : Runs.Along step (fun r e => Admissible r e ∧ Whole r e) {} waitingRun := by
    decide
  exact ⟨hrun, tcp_stream_delivered waitingRun hrun⟩

/-- The kernel takes one byte, and then the whole packet. -/
theorem tcp_stream_delivered_fails :
    ¬ ∀ events, Runs.Along step Admissible {} events → Runs.Along step StepOk {} events := by
  intro hall
  have hrun := hall [.send (relayPacket [1, 2, 3]) (.accepted 1), .onReadyToSend (.accepted 3)]
    (by decide)
  have hstream := (hrun.2.1.delivered (by decide)).1
  revert hstream
  show ¬ [1, 1, 2, 3] <+: [1, 2, 3]
  decide

end TcpRun

end Tgvoip
