import Mathlib.Data.Finset.Basic
import Tgvoip.Lib.Runs

/-!
# BufferPool — buffers from one allocation, with a bitmap of the used ones

`tools/Buffers.h`: `Get` takes the buffer at a rotating offset and marks its
slot; the buffer's own `freeFn` clears the mark, whenever the buffer is
destroyed. Both hold the mutex, so each is one step.

The loop of `Get` looks at the same slot in every round. `PoolUse` is a pool
with the buffers that are outstanding.
-/

namespace Tgvoip

structure BufferPool (bufCount : ℕ) where
  /-- `usedBuffers`. -/
  used : Finset ℕ := ∅
  offset : ℕ := 0
  deriving DecidableEq

namespace BufferPool

variable {bufCount : ℕ} (p : BufferPool bufCount)

/-- The loop of `Get`, with so many rounds to go: each looks at the same buffer. -/
def getLoop : ℕ → Option (ℕ × BufferPool bufCount)
  | 0 => none
  | i + 1 =>
    if p.offset ∉ p.used then
      some (p.offset, { used := insert p.offset p.used, offset := (p.offset + 1) % bufCount })
    else getLoop i

/-- `Get`; `none` stands for `bad_alloc`. -/
def get : Option (ℕ × BufferPool bufCount) := p.getLoop bufCount

/-- What a buffer of the pool does when it is destroyed. -/
def free (slot : ℕ) : BufferPool bufCount := { p with used := p.used.erase slot }

variable {p}

theorem get_eq_some (hcount : 0 < bufCount) (hfree : p.offset ∉ p.used) :
    p.get = some (p.offset, { used := insert p.offset p.used
                              offset := (p.offset + 1) % bufCount }) := by
  unfold get
  cases bufCount with
  | zero => cases hcount
  | succ i => exact if_pos hfree

variable {p' : BufferPool bufCount} {slot : ℕ}

/-- `Get` gives the buffer it looks at, and marks it. -/
theorem of_getLoop_eq_some {i : ℕ} (h : p.getLoop i = some (slot, p')) :
    slot = p.offset ∧ p.offset ∉ p.used ∧
      p' = { used := insert p.offset p.used, offset := (p.offset + 1) % bufCount } := by
  induction i with
  | zero => cases h
  | succ i ih =>
      rw [getLoop] at h
      split at h
      · rename_i hfree
        cases h
        exact ⟨rfl, hfree, rfl⟩
      · exact ih h

theorem get_eq_none (hused : p.offset ∈ p.used) : p.get = none := by
  unfold get
  have hloop : ∀ i, p.getLoop i = none := by
    intro i
    induction i with
    | zero => rfl
    | succ i ih => rw [getLoop, if_neg (not_not_intro hused), ih]
  exact hloop bufCount

end BufferPool

/-! ## Outstanding buffers -/

/-- A buffer of the pool: the slot its `freeFn` clears, and its memory,
counted from `bufferStart`. -/
structure PoolBuffer where
  slot : ℕ
  data : ℕ
  length : ℕ
  deriving DecidableEq, Repr

namespace PoolBuffer

def wrap (bufSize slot : ℕ) : PoolBuffer := { slot, data := bufSize * slot, length := bufSize }

/-- No byte belongs to both. -/
def Disjoint (b c : PoolBuffer) : Prop :=
  ∀ i, ¬ ((b.data ≤ i ∧ i < b.data + b.length) ∧ c.data ≤ i ∧ i < c.data + c.length)

theorem disjoint_wrap {bufSize m n : ℕ} (h : m ≠ n) :
    Disjoint (wrap bufSize m) (wrap bufSize n) := by
  have hlt : ∀ {m n : ℕ}, m < n → bufSize * m + bufSize ≤ bufSize * n := by
    intro m n h
    calc bufSize * m + bufSize = bufSize * (m + 1) := (Nat.mul_succ bufSize m).symm
      _ ≤ bufSize * n := Nat.mul_le_mul_left bufSize h
  rintro i ⟨⟨hm, hm'⟩, hn, hn'⟩
  simp only [wrap] at hm hm' hn hn'
  rcases Nat.lt_or_gt_of_ne h with hmn | hmn
  · have := hlt hmn
    omega
  · have := hlt hmn
    omega

end PoolBuffer

structure PoolUse (bufCount : ℕ) where
  pool : BufferPool bufCount := {}
  outstanding : List PoolBuffer := []
  deriving DecidableEq

inductive PoolCall where
  | get
  /-- An outstanding buffer is destroyed. -/
  | release (b : PoolBuffer)
  deriving DecidableEq, Repr

namespace PoolUse

variable {bufSize bufCount : ℕ} {u : PoolUse bufCount}

def step (bufSize : ℕ) (u : PoolUse bufCount) : PoolCall → PoolUse bufCount
  | .get =>
      match u.pool.get with
      | some (slot, pool) => { pool, outstanding := .wrap bufSize slot :: u.outstanding }
      | none => u
  | .release b =>
      if b ∈ u.outstanding then
        { pool := u.pool.free b.slot, outstanding := u.outstanding.erase b }
      else u

/-- The slot has an outstanding buffer. -/
def Taken (u : PoolUse bufCount) (slot : ℕ) : Prop := ∃ b ∈ u.outstanding, b.slot = slot

/-- What `Get` is for: a buffer of the pool that shares neither slot nor
memory with an outstanding one, and `bad_alloc` only when there is none. -/
def HandsOut (bufSize : ℕ) (u : PoolUse bufCount) : PoolCall → Prop
  | .get =>
      match u.pool.get with
      | some (slot, _) => slot < bufCount ∧ ∀ b ∈ u.outstanding,
          b.slot ≠ slot ∧ b.Disjoint (.wrap bufSize slot)
      | none => ∀ slot < bufCount, u.Taken slot
  | .release _ => True

/-- The slot at the offset is free, or none is. -/
def AtFree (u : PoolUse bufCount) : PoolCall → Prop
  | .get => ¬ u.Taken u.pool.offset ∨ ∀ slot < bufCount, u.Taken slot
  | .release _ => True

/-- The bitmap is the slots of the outstanding buffers, each of which has
its own. -/
structure Inv (bufSize : ℕ) (u : PoolUse bufCount) : Prop where
  used : ∀ slot, slot ∈ u.pool.used ↔ u.Taken slot
  slots : (u.outstanding.map (·.slot)).Nodup
  wrapped : ∀ b ∈ u.outstanding, b = .wrap bufSize b.slot
  offset : 0 < bufCount → u.pool.offset < bufCount

theorem inv_new : Inv bufSize ({} : PoolUse bufCount) where
  used := by simp [Taken]
  slots := List.nodup_nil
  wrapped := nofun
  offset := fun h => h

/-- Nobody has the slot that is handed out. -/
theorem Inv.get (h : Inv bufSize u) {slot : ℕ} {pool : BufferPool bufCount}
    (hget : u.pool.get = some (slot, pool)) :
    Inv bufSize { pool, outstanding := .wrap bufSize slot :: u.outstanding } := by
  obtain ⟨rfl, hfree, rfl⟩ := BufferPool.of_getLoop_eq_some hget
  refine ⟨fun slot => ?_, ?_, ?_, fun hpos => Nat.mod_lt _ hpos⟩
  · simp only [Finset.mem_insert, h.used, Taken, List.mem_cons, exists_eq_or_imp, eq_comm,
      PoolBuffer.wrap]
  · rw [List.map_cons, List.nodup_cons]
    refine ⟨fun hmem => hfree ((h.used _).mpr ?_), h.slots⟩
    exact List.mem_map.mp hmem
  · intro b hb
    rcases List.mem_cons.mp hb with rfl | hb
    · rfl
    · exact h.wrapped b hb

theorem Inv.release (h : Inv bufSize u) {b : PoolBuffer} (hb : b ∈ u.outstanding) :
    Inv bufSize { pool := u.pool.free b.slot, outstanding := u.outstanding.erase b } := by
  have hnodup : u.outstanding.Nodup := h.slots.of_map _
  -- another buffer has another slot
  have hother : ∀ c ∈ u.outstanding, c ≠ b ↔ c.slot ≠ b.slot := fun c hc =>
    not_congr ⟨fun hcb => hcb ▸ rfl, List.inj_on_of_nodup_map h.slots hc hb⟩
  refine ⟨fun slot => ?_, ?_, fun c hc => h.wrapped c (List.mem_of_mem_erase hc), h.offset⟩
  · rw [BufferPool.free, Finset.mem_erase, h.used]
    constructor
    · rintro ⟨hne, c, hc, rfl⟩
      exact ⟨c, (hnodup.mem_erase_iff).mpr ⟨(hother c hc).mpr hne, hc⟩, rfl⟩
    · rintro ⟨c, hc, rfl⟩
      obtain ⟨hcb, hc⟩ := (hnodup.mem_erase_iff).mp hc
      exact ⟨(hother c hc).mp hcb, c, hc, rfl⟩
  · exact h.slots.sublist (List.erase_sublist.map _)

theorem Inv.step (h : Inv bufSize u) (call : PoolCall) : Inv bufSize (u.step bufSize call) := by
  cases call with
  | get =>
      rw [PoolUse.step]
      cases hget : u.pool.get with
      | none => exact h
      | some r => exact h.get hget
  | release b =>
      rw [PoolUse.step]
      by_cases hb : b ∈ u.outstanding
      · rw [if_pos hb]
        exact h.release hb
      · rw [if_neg hb]
        exact h

/-- What `Get` does is decided by the slot at the offset. -/
theorem Inv.handsOut_call_iff (h : Inv bufSize u) (call : PoolCall) :
    HandsOut bufSize u call ↔ AtFree u call := by
  cases call with
  | release b => exact Iff.rfl
  | get =>
      rw [HandsOut, AtFree, ← h.used]
      by_cases hused : u.pool.offset ∈ u.pool.used
      · rw [BufferPool.get_eq_none hused]
        exact ⟨.inr, fun h => h.resolve_left (not_not_intro hused)⟩
      · obtain rfl | hpos := Nat.eq_zero_or_pos bufCount
        · exact iff_of_true (fun slot hslot => absurd hslot (Nat.not_lt_zero slot)) (.inl hused)
        · rw [BufferPool.get_eq_some hpos hused]
          refine iff_of_true ⟨h.offset hpos, fun b hb => ?_⟩ (.inl hused)
          have hne : b.slot ≠ u.pool.offset := fun heq => hused ((h.used _).mpr ⟨b, hb, heq⟩)
          exact ⟨hne, h.wrapped b hb ▸ PoolBuffer.disjoint_wrap hne⟩

/-- **The pool.** In every run, each `Get` hands out a free buffer or finds
all of them outstanding, exactly if at each `Get` the slot at the offset is
free or all slots are taken. -/
theorem handsOut_iff (bufSize bufCount : ℕ) (calls : List PoolCall) :
    Runs.Along (step bufSize) (HandsOut bufSize) ({} : PoolUse bufCount) calls ↔
      Runs.Along (step bufSize) AtFree ({} : PoolUse bufCount) calls :=
  Runs.along_congr (A := fun _ _ => True) (fun _ call h _ => h.handsOut_call_iff call)
    (fun _ call h _ _ => h.step call) inv_new (Runs.along_of_forall fun _ _ _ => trivial)

/-- Two buffers, both outstanding, and the second is released: the offset is
at the first. -/
theorem handsOut_fails :
    ¬ ∀ (bufSize bufCount : ℕ) (calls : List PoolCall),
      Runs.Along (step bufSize) (HandsOut bufSize) ({} : PoolUse bufCount) calls := by
  intro h
  have hlast := (h 1 2 [.get, .get, .release (.wrap 1 1), .get]).2.2.2.1
  obtain ⟨b, hb, hslot⟩ := hlast 1 (by decide)
  have hout : b = .wrap 1 0 := List.mem_singleton.mp hb
  rw [hout] at hslot
  exact absurd hslot (by decide)

end PoolUse

end Tgvoip
