import Tgvoip.Tools.BlockingQueue
import Tgvoip.Tools.BufferPool

/-!
# OpusDecoder — decoded chunks, and the permits to decode them

`controller/audio/OpusDecoder.cpp`: `RunThread` decodes frames and cuts them
into chunks, `HandleCallback` plays one chunk each time it is called. The
decoder acquires a permit for each chunk, and the callback releases it when
the chunk is played. The chunks are in buffers of a pool (`tools/Buffers.h`)
that the callback gives back.

Each operation on a semaphore, on the queue and on the pool is a step. The
decoder is started and not stopped, and each callback asks for one chunk
(`len` is `PACKET_SIZE`); what the chunks contain is not modelled.
-/

namespace Tgvoip

/-! ## The threads -/

/-- 20 ms of sound, in a buffer of the pool. -/
structure Chunk where
  /-- History: how many chunks were decoded before. -/
  number : ℕ
  slot : ℕ
  deriving DecidableEq, Repr

/-- Where `RunThread` is, with the chunks of the frame that are left. -/
inductive DecoderPhase where
  | decoding
  /-- At `semaphore->Acquire()`. -/
  | acquiring (left : ℕ)
  /-- At `bufferPool.Get()`. -/
  | filling (left : ℕ)
  /-- At `decodedQueue->Put`. -/
  | queueing (left : ℕ) (chunk : Chunk)
  deriving DecidableEq, Repr

/-- Where `HandleCallback` is. -/
inductive CallbackPhase where
  | idle
  /-- In the first `semaphore->Release(packetsNeeded)`. -/
  | releasing (left : ℕ)
  /-- At the semaphore of `decodedQueue->GetBlocking()`, and behind it. -/
  | getting
  | popping
  /-- Before `semaphore->Release()`. -/
  | playing (chunk : Chunk)
  /-- Behind it, where `lastDecoded` is destroyed. -/
  | freeing (chunk : Chunk)
  deriving DecidableEq, Repr

/-- `PACKET_SIZE`. -/
def packetSize : ℕ := 960 * 2

def packetsNeeded (len : ℕ) : ℕ := (if len > packetSize then len / packetSize else 1) * 2

structure OpusDecoder where
  /-- The value of `semaphore`. -/
  permits : ℕ := 0
  decodedQueue : BlockingQueue Chunk := { capacity := 33 }
  bufferPool : BufferPool 32 := {}
  outputBufferSize : ℕ := 0
  decoder : DecoderPhase := .decoding
  callback : CallbackPhase := .idle
  /-- `Put` called `abort`, or an item was taken from an empty queue. -/
  aborted : Bool := false
  underflow : Bool := false
  /-- The permits that were lost with `bad_alloc`. -/
  lostPermits : ℕ := 0
  /-- History: how many chunks were decoded. -/
  decoded : ℕ := 0
  /-- History: the chunks that reached the callback. -/
  reached : List ℕ := []
  deriving DecidableEq

inductive PlaybackEvent where
  /-- `DecodeNextFrame` returns. -/
  | decodeNextFrame (playbackDuration : ℕ)
  | acquire
  | get
  | put
  /-- `HandleCallback` is called. -/
  | handleCallback
  | releaseFirst
  | acquireChunk
  | getInternal
  | release
  | free
  deriving DecidableEq, Repr

namespace OpusDecoder

variable (t : OpusDecoder)

/-- The loop over the chunks of a frame. -/
def nextChunk (left : ℕ) : DecoderPhase := if left = 0 then .decoding else .acquiring left

def step (t : OpusDecoder) : PlaybackEvent → OpusDecoder
  | .decodeNextFrame playbackDuration =>
    match t.decoder with
    | .decoding => { t with decoder := nextChunk (playbackDuration / 20) }
    | _ => t
  | .acquire =>
    match t.decoder with
    | .acquiring left =>
      if t.permits = 0 then t else { t with permits := t.permits - 1, decoder := .filling left }
    | _ => t
  | .get =>
    match t.decoder with
    | .filling left =>
      match t.bufferPool.get with
      | none =>
        -- the handler of `bad_alloc` only logs: the permit is not given back
        { t with
          decoder := nextChunk (left - 1), lostPermits := t.lostPermits + 1
          decoded := t.decoded + 1 }
      | some (slot, bufferPool) =>
        { t with
          bufferPool, decoder := .queueing left { number := t.decoded, slot }
          decoded := t.decoded + 1 }
    | _ => t
  | .put =>
    match t.decoder with
    | .queueing left chunk =>
      match t.decodedQueue.put chunk with
      | none => { t with aborted := true }
      | some decodedQueue => { t with decodedQueue, decoder := nextChunk (left - 1) }
    | _ => t
  | .handleCallback =>
    match t.callback with
    | .idle =>
      if t.outputBufferSize = 0 then
        { t with outputBufferSize := packetSize, callback := .releasing (packetsNeeded packetSize) }
      else { t with callback := .getting }
    | _ => t
  | .releaseFirst =>
    match t.callback with
    | .releasing left =>
      if left = 0 then { t with callback := .getting }
      else { t with permits := t.permits + 1, callback := .releasing (left - 1) }
    | _ => t
  | .acquireChunk =>
    match t.callback with
    | .getting =>
      match t.decodedQueue.acquire with
      | none => t
      | some decodedQueue => { t with decodedQueue, callback := .popping }
    | _ => t
  | .getInternal =>
    match t.callback with
    | .popping =>
      match t.decodedQueue.getInternal with
      | none => { t with underflow := true }
      | some (chunk, decodedQueue) =>
        { t with
          decodedQueue, callback := .playing chunk, reached := t.reached ++ [chunk.number] }
    | _ => t
  | .release =>
    match t.callback with
    | .playing chunk => { t with permits := t.permits + 1, callback := .freeing chunk }
    | _ => t
  | .free =>
    match t.callback with
    | .freeing chunk => { t with bufferPool := t.bufferPool.free chunk.slot, callback := .idle }
    | _ => t

/-! ## What is under way -/

end OpusDecoder

/-- The decoder has acquired a permit and not queued the chunk. -/
def DecoderPhase.holding : DecoderPhase → ℕ
  | .filling _ | .queueing _ _ => 1
  | .decoding | .acquiring _ => 0

/-- The chunk that is to be queued. -/
def DecoderPhase.filled : DecoderPhase → List ℕ
  | .queueing _ chunk => [chunk.number]
  | .decoding | .acquiring _ | .filling _ => []

/-- The permits that the callback is to release. -/
def CallbackPhase.owing : CallbackPhase → ℕ
  | .releasing left => left
  | .playing _ => 1
  | .idle | .getting | .popping | .freeing _ => 0

/-- The chunk whose buffer the callback has. -/
def CallbackPhase.chunk : CallbackPhase → Option Chunk
  | .playing chunk | .freeing chunk => some chunk
  | .idle | .releasing _ | .getting | .popping => none

/-- The callback has acquired, and not yet popped. -/
def CallbackPhase.acquired : CallbackPhase → ℕ
  | .popping => 1
  | .idle | .releasing _ | .getting | .playing _ | .freeing _ => 0

namespace OpusDecoder

variable (t : OpusDecoder)

/-- The first callback has released its permits. -/
def Primed : Prop := t.outputBufferSize ≠ 0 ∧ ∀ left, t.callback ≠ .releasing left

/-- **The pipeline is sound.** -/
structure Sound : Prop where
  /-- Each permit is free, with the decoder, with a chunk in the queue, or with one that
  is played. -/
  conserved : Primed t →
    t.permits + t.decoder.holding + t.decodedQueue.queue.length + t.callback.owing = 2
  short : t.decodedQueue.queue.length ≤ 2
  neverFull : t.aborted = false
  neverEmpty : t.underflow = false
  neverLost : t.lostPermits = 0
  /-- Chunks reach the callback in the order they were decoded in, each once. -/
  order : t.reached = List.range t.reached.length
  /-- The two threads do not wait for each other. -/
  awake : t.callback = .getting → t.decodedQueue.semaphore = 0 →
    ∀ left, t.decoder = .acquiring left → t.permits ≠ 0

/-- The first chunk whose buffer is in use, if any is. -/
def firstUsed : ℕ := t.reached.length - t.callback.chunk.toList.length

/-- What makes it so. -/
structure Inv (t : OpusDecoder) : Prop where
  permits : t.permits + t.decoder.holding + t.decodedQueue.queue.length + t.callback.owing =
    if t.outputBufferSize = 0 then 0 else 2
  count : t.decodedQueue.semaphore + t.callback.acquired = t.decodedQueue.queue.length
  capacity : t.decodedQueue.capacity = 33
  started : t.callback ≠ .idle → t.outputBufferSize ≠ 0
  order : t.reached ++ t.decodedQueue.queue.map (·.number) ++ t.decoder.filled =
    List.range t.decoded
  playing : ∀ chunk ∈ t.callback.chunk, t.reached.length = chunk.number + 1
  slots : ∀ chunk ∈ t.decodedQueue.queue ++ t.callback.chunk.toList,
    chunk.slot = chunk.number % 32
  filling : ∀ left chunk, t.decoder = .queueing left chunk → chunk.slot = chunk.number % 32
  offset : t.bufferPool.offset = t.decoded % 32
  used : ∀ slot, slot ∈ t.bufferPool.used ↔
    ∃ n, t.firstUsed ≤ n ∧ n < t.decoded ∧ n % 32 = slot
  neverFull : t.aborted = false
  neverEmpty : t.underflow = false
  neverLost : t.lostPermits = 0

variable {t}

theorem inv_init : Inv {} where
  permits := rfl
  count := rfl
  capacity := rfl
  started h := absurd rfl h
  order := rfl
  playing _ h := by cases h
  slots _ h := by cases h
  filling _ _ h := by cases h
  offset := rfl
  used slot := by simp
  neverFull := rfl
  neverEmpty := rfl
  neverLost := rfl

/-- How many chunks were decoded. -/
theorem Inv.decoded_eq (h : Inv t) :
    t.decoded = t.reached.length + t.decodedQueue.queue.length + t.decoder.filled.length := by
  have hlength := congrArg List.length h.order
  simp only [List.length_append, List.length_map, List.length_range] at hlength
  exact hlength.symm

theorem DecoderPhase.filled_le (p : DecoderPhase) : p.filled.length ≤ p.holding := by
  cases p <;> simp [DecoderPhase.filled, DecoderPhase.holding]

theorem Inv.bounded (h : Inv t) :
    t.permits + t.decoder.holding + t.decodedQueue.queue.length + t.callback.owing ≤ 2 := by
  rw [h.permits]
  split_ifs <;> omega

/-- **At most three buffers are in use**: those of the last chunks. -/
theorem Inv.recent (h : Inv t) : t.decoded ≤ t.firstUsed + 3 := by
  have hdecoded := h.decoded_eq
  have hbounded := h.bounded
  have hfilled := DecoderPhase.filled_le t.decoder
  have hone : t.callback.chunk.toList.length ≤ 1 := by cases t.callback.chunk <;> simp
  unfold firstUsed
  omega

theorem Inv.sound (h : Inv t) : Sound t where
  conserved := by
    intro hprimed
    have hpermits := h.permits
    rwa [if_neg hprimed.1] at hpermits
  short := by
    have hbounded := h.bounded
    omega
  neverFull := h.neverFull
  neverEmpty := h.neverEmpty
  neverLost := h.neverLost
  order := by
    have hprefix : t.reached <+: List.range t.decoded := by
      rw [← h.order, List.append_assoc]
      exact List.prefix_append _ _
    have htake := List.prefix_iff_eq_take.mp hprefix
    rw [List.take_range] at htake
    have hle : t.reached.length ≤ t.decoded := by
      have hdecoded := h.decoded_eq
      omega
    rwa [Nat.min_eq_left hle] at htake
  awake := by
    intro hgetting hzero left hacquiring hnone
    have hpermits := h.permits
    have hcount := h.count
    have hstarted := h.started (by rw [hgetting]; exact CallbackPhase.noConfusion)
    rw [hgetting, hzero] at hcount
    rw [hgetting, hacquiring, hnone, ← hcount, if_neg hstarted] at hpermits
    cases hpermits

/-! ## The decoder's steps -/

theorem nextChunk_cases (left : ℕ) :
    nextChunk left = .decoding ∨ ∃ left', nextChunk left = .acquiring left' := by
  unfold nextChunk
  split
  · exact .inl rfl
  · exact .inr ⟨left, rfl⟩

theorem nextChunk_holding (left : ℕ) : (nextChunk left).holding = 0 := by
  rcases nextChunk_cases left with h | ⟨left', h⟩ <;> rw [h] <;> rfl

theorem nextChunk_filled (left : ℕ) : (nextChunk left).filled = [] := by
  rcases nextChunk_cases left with h | ⟨left', h⟩ <;> rw [h] <;> rfl

theorem nextChunk_ne (left : ℕ) (left' : ℕ) (chunk : Chunk) :
    nextChunk left ≠ .queueing left' chunk := by
  rcases nextChunk_cases left with h | ⟨left', h⟩ <;> rw [h] <;> exact DecoderPhase.noConfusion

theorem Inv.decodeNextFrame (h : Inv t) (playbackDuration : ℕ) :
    Inv (t.step (.decodeNextFrame playbackDuration)) := by
  unfold step
  dsimp only
  split
  · rename_i hdecoder
    have hpermits := h.permits
    have horder := h.order
    rw [hdecoder] at hpermits horder
    refine { h with permits := ?_, order := ?_, filling := ?_ }
    · dsimp only
      rw [nextChunk_holding]
      exact hpermits
    · dsimp only
      rw [nextChunk_filled]
      exact horder
    · exact fun left chunk heq => absurd heq (nextChunk_ne _ left chunk)
  · exact h

theorem Inv.acquire (h : Inv t) : Inv (t.step .acquire) := by
  unfold step
  dsimp only
  split
  · rename_i left hdecoder
    split_ifs with hzero
    · exact h
    · have hpermits := h.permits
      have horder := h.order
      rw [hdecoder] at hpermits horder
      refine { h with permits := ?_, order := horder, filling := ?_ }
      · rw [← hpermits]
        show t.permits - 1 + 1 + t.decodedQueue.queue.length + t.callback.owing =
          t.permits + 0 + t.decodedQueue.queue.length + t.callback.owing
        omega
      · intro left' chunk heq
        cases heq
  · exact h

/-- The next buffer of the pool is free. -/
theorem Inv.offset_free (h : Inv t) : t.bufferPool.offset ∉ t.bufferPool.used := by
  intro hmem
  obtain ⟨n, hfirst, hlt, hslot⟩ := (h.used _).mp hmem
  have hrecent := h.recent
  have hoffset := h.offset
  omega

/-- **The pool always has a buffer.** -/
theorem Inv.get (h : Inv t) : Inv (t.step .get) := by
  unfold step
  dsimp only
  split
  · rename_i left hdecoder
    rw [BufferPool.get_eq_some (by decide) h.offset_free]
    have hpermits := h.permits
    have horder := h.order
    rw [hdecoder] at hpermits horder
    refine { h with permits := hpermits, order := ?_, filling := ?_, offset := ?_, used := ?_ }
    · show t.reached ++ t.decodedQueue.queue.map (·.number) ++ [t.decoded] = _
      rw [List.range_succ, ← horder]
      simp [DecoderPhase.filled]
    · intro left' chunk heq
      cases heq
      exact h.offset
    · show (t.bufferPool.offset + 1) % 32 = (t.decoded + 1) % 32
      rw [h.offset]
      omega
    · intro slot
      show slot ∈ insert t.bufferPool.offset t.bufferPool.used ↔
        ∃ n, t.firstUsed ≤ n ∧ n < t.decoded + 1 ∧ n % 32 = slot
      rw [Finset.mem_insert, h.used, h.offset]
      have hdecoded := h.decoded_eq
      have hfirst : t.firstUsed ≤ t.decoded := by
        unfold firstUsed
        omega
      constructor
      -- the window of the buffers in use grows by the new chunk
      · rintro (rfl | ⟨n, hle, hlt, rfl⟩)
        · exact ⟨t.decoded, hfirst, by omega, rfl⟩
        · exact ⟨n, hle, by omega, rfl⟩
      · rintro ⟨n, hle, hlt, rfl⟩
        rcases Nat.lt_succ_iff_lt_or_eq.mp hlt with hlt | rfl
        · exact .inr ⟨n, hle, hlt, rfl⟩
        · exact .inl rfl
  · exact h

theorem Inv.put (h : Inv t) : Inv (t.step .put) := by
  unfold step
  dsimp only
  split
  · rename_i left chunk hdecoder
    have hbounded := h.bounded
    have hroom : t.decodedQueue.queue.length < t.decodedQueue.capacity := by
      rw [h.capacity]
      omega
    rw [BlockingQueue.put_eq_some hroom]
    have hpermits := h.permits
    have horder := h.order
    have hcount := h.count
    rw [hdecoder] at hpermits horder
    refine { h with permits := ?_, count := ?_, order := ?_, slots := ?_, filling := ?_ }
    · dsimp only
      rw [nextChunk_holding, ← hpermits, List.length_append, List.length_singleton]
      show t.permits + 0 + _ + _ = t.permits + 1 + _ + _
      omega
    · dsimp only
      rw [List.length_append, List.length_singleton, ← hcount]
      omega
    · dsimp only
      rw [nextChunk_filled, List.append_nil, List.map_append, ← List.append_assoc]
      exact horder
    · intro chunk' hmem
      simp only [List.append_assoc, List.mem_append, List.mem_singleton] at hmem
      rcases hmem with hmem | rfl | hmem
      · exact h.slots chunk' (List.mem_append_left _ hmem)
      · exact h.filling _ _ hdecoder
      · exact h.slots chunk' (List.mem_append_right _ hmem)
    · exact fun left chunk heq => absurd heq (nextChunk_ne _ left chunk)
  · exact h

/-! ## The callback's steps -/

/-- The callback goes on with the same chunk, or without one. -/
theorem Inv.proceed (h : Inv t) {callback : CallbackPhase} {permits semaphore outputBufferSize : ℕ}
    (hchunk : callback.chunk = t.callback.chunk) (hsize : outputBufferSize ≠ 0)
    (hpermits : permits + t.decoder.holding + t.decodedQueue.queue.length + callback.owing = 2)
    (hcount : semaphore + callback.acquired = t.decodedQueue.queue.length) :
    Inv { t with
      callback, permits, outputBufferSize, decodedQueue := { t.decodedQueue with semaphore } } where
  permits := by rw [if_neg hsize]; exact hpermits
  count := hcount
  capacity := h.capacity
  started _ := hsize
  order := h.order
  playing := by
    dsimp only
    rw [hchunk]
    exact h.playing
  slots := by
    dsimp only
    rw [hchunk]
    exact h.slots
  filling := h.filling
  offset := h.offset
  used := by
    have hused := h.used
    unfold firstUsed at hused ⊢
    dsimp only
    rw [hchunk]
    exact hused
  neverFull := h.neverFull
  neverEmpty := h.neverEmpty
  neverLost := h.neverLost

theorem Inv.handleCallback (h : Inv t) : Inv (t.step .handleCallback) := by
  unfold step
  dsimp only
  split
  · rename_i hcallback
    have hpermits := h.permits
    have hcount := h.count
    have hchunk : t.callback.chunk = none := by
      rw [hcallback]
      rfl
    rw [hcallback] at hpermits hcount
    split_ifs at hpermits ⊢ with hzero
    · refine h.proceed hchunk.symm ?_ (congrArg (· + 2) hpermits) hcount
      exact Nat.succ_ne_zero _
    · exact h.proceed hchunk.symm hzero hpermits hcount
  · exact h

theorem Inv.releaseFirst (h : Inv t) : Inv (t.step .releaseFirst) := by
  unfold step
  dsimp only
  split
  · rename_i left hcallback
    have hpermits := h.permits
    have hcount := h.count
    have hstarted := h.started (by rw [hcallback]; exact CallbackPhase.noConfusion)
    have hchunk : t.callback.chunk = none := by
      rw [hcallback]
      rfl
    rw [hcallback, if_neg hstarted] at hpermits
    rw [hcallback] at hcount
    split_ifs with hzero
    · subst hzero
      exact h.proceed hchunk.symm hstarted hpermits hcount
    · refine h.proceed hchunk.symm hstarted ?_ hcount
      rw [← hpermits]
      show t.permits + 1 + t.decoder.holding + t.decodedQueue.queue.length + (left - 1) =
        t.permits + t.decoder.holding + t.decodedQueue.queue.length + left
      omega
  · exact h

theorem Inv.acquireChunk (h : Inv t) : Inv (t.step .acquireChunk) := by
  unfold step
  dsimp only
  split
  · rename_i hcallback
    have hpermits := h.permits
    have hcount := h.count
    have hstarted := h.started (by rw [hcallback]; exact CallbackPhase.noConfusion)
    have hchunk : t.callback.chunk = none := by
      rw [hcallback]
      rfl
    rw [hcallback, if_neg hstarted] at hpermits
    rw [hcallback] at hcount
    rcases Nat.eq_zero_or_pos t.decodedQueue.semaphore with hzero | hpos
    · rw [BlockingQueue.acquire_eq_none hzero]
      exact h
    · rw [BlockingQueue.acquire_eq_some hpos]
      refine h.proceed hchunk.symm hstarted hpermits ?_
      rw [← hcount]
      show t.decodedQueue.semaphore - 1 + 1 = t.decodedQueue.semaphore + 0
      omega
  · exact h

/-- The first chunk of the queue is the one after those that reached the callback. -/
theorem Inv.front_number (h : Inv t) {chunk : Chunk} {queue : List Chunk}
    (hqueue : t.decodedQueue.queue = chunk :: queue) : chunk.number = t.reached.length := by
  have horder := h.order
  rw [hqueue, List.map_cons, List.append_assoc, List.cons_append] at horder
  have hget := congrArg (·[t.reached.length]?) horder
  simp only [List.getElem?_append_right (Nat.le_refl _), Nat.sub_self,
    List.getElem?_cons_zero] at hget
  obtain ⟨hlt, heq⟩ := List.getElem?_eq_some_iff.mp hget.symm
  rw [List.getElem_range] at heq
  exact heq.symm

/-- **A thread that acquired finds a chunk.** -/
theorem Inv.getInternal (h : Inv t) : Inv (t.step .getInternal) := by
  unfold step
  dsimp only
  split
  · rename_i hcallback
    have hpermits := h.permits
    have hcount := h.count
    have hslots := h.slots
    have hused := h.used
    have horder := h.order
    have hstarted := h.started (by rw [hcallback]; exact CallbackPhase.noConfusion)
    unfold firstUsed at hused
    rw [hcallback] at hpermits hcount hslots hused
    cases hqueue : t.decodedQueue.queue with
    | nil =>
      -- the semaphore had counted a chunk
      rw [hqueue] at hcount
      cases hcount
    | cons chunk queue =>
      have hnumber := h.front_number hqueue
      have hget : t.decodedQueue.getInternal =
          some (chunk, { t.decodedQueue with queue }) := by
        unfold BlockingQueue.getInternal
        rw [hqueue]
      rw [hget]
      rw [hqueue] at hpermits hcount hslots horder
      refine { h with
        permits := ?_, count := ?_, started := fun _ => hstarted, order := ?_, playing := ?_
        slots := ?_, used := ?_ }
      · rw [← hpermits]
        show t.permits + t.decoder.holding + queue.length + 1 =
          t.permits + t.decoder.holding + (queue.length + 1) + 0
        omega
      · exact Nat.succ.inj hcount
      · rw [← horder]
        simp only [List.map_cons, List.append_assoc, List.singleton_append]
      · intro chunk' hchunk
        cases hchunk
        show (t.reached ++ [chunk.number]).length = chunk.number + 1
        rw [List.length_append, hnumber, List.length_singleton]
      · intro chunk' hmem
        refine hslots chunk' ?_
        simp only [CallbackPhase.chunk, Option.toList_some, List.mem_append,
          List.mem_singleton] at hmem
        rcases hmem with hmem | rfl
        · exact List.mem_append_left _ (List.mem_cons_of_mem _ hmem)
        · exact List.mem_append_left _ List.mem_cons_self
      · intro slot
        have hfirst : (t.reached ++ [chunk.number]).length - 1 = t.reached.length - 0 := by
          rw [List.length_append, List.length_singleton]
          omega
        show slot ∈ t.bufferPool.used ↔
          ∃ n, (t.reached ++ [chunk.number]).length - 1 ≤ n ∧ n < t.decoded ∧ n % 32 = slot
        rw [hfirst]
        exact hused slot
  · exact h

theorem Inv.release (h : Inv t) : Inv (t.step .release) := by
  unfold step
  dsimp only
  split
  · rename_i chunk hcallback
    have hpermits := h.permits
    have hcount := h.count
    have hstarted := h.started (by rw [hcallback]; exact CallbackPhase.noConfusion)
    have hchunk : t.callback.chunk = some chunk := by
      rw [hcallback]
      rfl
    rw [hcallback, if_neg hstarted] at hpermits
    rw [hcallback] at hcount
    refine h.proceed hchunk.symm hstarted ?_ hcount
    rw [← hpermits]
    show t.permits + 1 + t.decoder.holding + t.decodedQueue.queue.length + 0 =
      t.permits + t.decoder.holding + t.decodedQueue.queue.length + 1
    omega
  · exact h

/-- The buffer that is given back is that of the first chunk in use. -/
theorem Inv.free (h : Inv t) : Inv (t.step .free) := by
  unfold step
  dsimp only
  split
  · rename_i chunk hcallback
    have hpermits := h.permits
    have hcount := h.count
    have hslots := h.slots
    have hused := h.used
    have hplaying := h.playing chunk (by rw [hcallback]; rfl)
    have hrecent := h.recent
    unfold firstUsed at hused hrecent
    rw [hcallback] at hpermits hcount hslots hused hrecent
    have hslot : chunk.slot = chunk.number % 32 :=
      hslots chunk (List.mem_append_right _ (List.mem_singleton_self _))
    refine { h with
      permits := hpermits, count := hcount, started := ?_, playing := ?_, slots := ?_
      used := ?_ }
    · exact fun hidle => absurd rfl hidle
    · intro _ hchunk
      cases hchunk
    · intro chunk' hmem
      refine hslots chunk' (List.mem_append_left _ ?_)
      simpa [CallbackPhase.chunk] using hmem
    · -- the window of the buffers in use loses its first chunk
      intro slot
      show slot ∈ t.bufferPool.used.erase chunk.slot ↔
        ∃ n, t.reached.length - 0 ≤ n ∧ n < t.decoded ∧ n % 32 = slot
      change t.decoded ≤ t.reached.length - 1 + 3 at hrecent
      rw [Finset.mem_erase, hused, hslot, hplaying]
      constructor
      · rintro ⟨hne, n, hle, hlt, rfl⟩
        refine ⟨n, ?_, hlt, rfl⟩
        rcases Nat.lt_or_ge chunk.number n with hlater | hearlier
        · omega
        · have heq : n = chunk.number := Nat.le_antisymm hearlier hle
          exact absurd (congrArg (· % 32) heq) hne
      · rintro ⟨n, hle, hlt, rfl⟩
        refine ⟨?_, n, Nat.le_of_succ_le hle, hlt, rfl⟩
        -- the chunks whose buffers are in use are too near to share one
        omega
  · exact h

/-! ## Runs -/

theorem Inv.step (h : Inv t) : ∀ e, Inv (t.step e)
  | .decodeNextFrame playbackDuration => h.decodeNextFrame playbackDuration
  | .acquire => h.acquire
  | .get => h.get
  | .put => h.put
  | .handleCallback => h.handleCallback
  | .releaseFirst => h.releaseFirst
  | .acquireChunk => h.acquireChunk
  | .getInternal => h.getInternal
  | .release => h.release
  | .free => h.free

/-- **In every interleaving of the decoder and the callback** no permit is lost, the queue
and the pool have room, and one of the two threads can go on. -/
theorem pipeline_sound (events : List PlaybackEvent) : Sound (Runs.exec step {} events) :=
  (Runs.exec_invariant (fun _ e h => h.step e) inv_init).sound

/-- One chunk is played and another is queued. -/
example : (Runs.exec step {}
    [.decodeNextFrame 40, .acquire, .handleCallback, .releaseFirst, .acquire, .get, .releaseFirst,
      .releaseFirst, .put, .acquireChunk, .acquire, .get, .getInternal, .put, .release,
      .free]).reached = [0] := by decide

end OpusDecoder

end Tgvoip
