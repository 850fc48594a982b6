import CrashInvestigator.MemoryPool.Proofs.TilingProofs

/-!
# Sizes that wrap

A request whose end wraps and passes the test gets a block that claims more than the buffer has. Every
other request is answered within the buffer.
-/

namespace CrashInvestigator.MemoryPool

open Library Library.Arena

section Requests

variable {p : Pool} {s : Session} {op : Op} {ptr count : ℕ}

/-- A sum that wraps and passes the test. -/
theorem Pool.not_noWrap_iff :
    ¬ p.NoWrap ptr count ↔ 2 ^ 64 ≤ ptr + count ∧ sizeT (ptr + count) < p.cunBufferSize := by
  unfold Pool.NoWrap
  rw [not_or, Nat.not_lt, Nat.not_le]

/-- `Alloc` answers with its next block, and only if the sum passes the test. -/
theorem alloc_answer {p' : Pool} {q : ℕ} (h : p.alloc count = .ok (p', some q)) :
    q = p.nextPtr ∧ sizeT (p.nextPtr + count) < p.cunBufferSize := by
  rcases alloc_ok h with ⟨-, -, hnone⟩ | ⟨hroom, hsome, -⟩
  · cases hnone
  · rw [sizeT_overall] at hroom
    cases hsome
    exact ⟨rfl, hroom⟩

/-- `Alloc` answers within the buffer exactly when the end does not wrap. -/
theorem Sound.allocInBounds_iff (h : Sound s) :
    AllocInBounds s.pool count ↔ s.pool.NoWrap s.pool.nextPtr count := by
  obtain ⟨cs, hrep, -⟩ := h.arena
  have hsize := hrep.size
  constructor
  · intro hin
    by_contra hno
    obtain ⟨hwrap, hroom⟩ := Pool.not_noWrap_iff.mp hno
    obtain ⟨p', hp'⟩ := hrep.alloc_some hroom
    have hlt : s.pool.nextPtr + count < s.pool.cunBufferSize := hin p' _ hp'
    omega
  · intro hfit p' q hq
    obtain ⟨-, hroom⟩ := alloc_answer hq
    rwa [sizeT_of_lt (hfit.resolve_right (Nat.not_le.mpr hroom))] at hroom

/-- A block in use is in the buffer, behind a header. -/
theorem Sound.in_buffer (h : Sound s) {n : ℕ} (hheld : s.held ptr = some n) :
    ptr < s.pool.cunBufferSize ∧ sizeofItem ≤ ptr ∧ ptr + n < s.pool.cunBufferSize := by
  obtain ⟨cs, hrep, hacc⟩ := h.arena
  obtain ⟨b, rfl, hb⟩ := (hacc ptr n).mp hheld
  have hend := hrep.in_buffer hb
  exact ⟨by omega, Nat.le_add_left .., hend⟩

/-- `Realloc` to the size that the block has answers with the block. -/
theorem Sound.realloc_same (h : Sound s) (hheld : s.held ptr = some count) (hzero : count ≠ 0) :
    s.pool.realloc (some ptr) count = .ok (s.pool, true, some ptr) := by
  obtain ⟨hin, hlow, -⟩ := h.in_buffer hheld
  obtain ⟨cs, hrep, hacc⟩ := h.arena
  obtain ⟨b, rfl, hb⟩ := (hacc ptr count).mp hheld
  obtain ⟨prev, next, hitem⟩ := hrep.linked.find hb
  simp only [Pool.realloc, if_pos hin, if_pos hlow, if_neg hzero, Pool.reallocInBuffer,
    Nat.add_sub_cancel, hitem, if_true]

/-- `Realloc` to another size answers with the place of the block when the sum passes the test. -/
theorem Sound.realloc_answer (h : Sound s) {n : ℕ} (hheld : s.held ptr = some n)
    (hzero : count ≠ 0) (hne : count ≠ n) :
    ∃ p', s.pool.realloc (some ptr) count = .ok (p', true,
      if sizeT (s.pool.reallocPtr ptr + count) < s.pool.cunBufferSize then
        some (s.pool.reallocPtr ptr) else none) := by
  obtain ⟨hin, hlow, -⟩ := h.in_buffer hheld
  obtain ⟨cs, hrep, hacc⟩ := h.arena
  obtain ⟨b, rfl, hb⟩ := (hacc ptr n).mp hheld
  simp only [Pool.realloc, if_pos hin, if_pos hlow, if_neg hzero]
  unfold Pool.reallocPtr
  rw [Nat.add_sub_cancel, hrep.last]
  by_cases htop : topOf cs = some b
  · rw [if_pos htop]
    cases cs with
    | nil => cases htop
    | cons c cs =>
      cases htop
      have hn : n = c.count := hb.unique sizeofItem_pos (Or.inl ⟨rfl, rfl, hrep.settled c rfl⟩)
      have hother : count ≠ c.count := by rwa [← hn]
      rw [hrep.reallocInBuffer_top hother]
      split_ifs
      · exact ⟨_, rfl⟩
      · exact ⟨_, rfl⟩
  · rw [if_neg htop]
    obtain ⟨p₁, -, hrep₁, hsize₁, hoff₁, hbody⟩ := hrep.reallocInBuffer_below hb hne htop
    have hnext : p₁.nextPtr = s.pool.nextPtr := congrArg (· + sizeofItem) hoff₁
    rw [hbody]
    by_cases hroom : sizeT (s.pool.nextPtr + count) < s.pool.cunBufferSize
    · obtain ⟨p', hp'⟩ := hrep₁.alloc_some (n := count) (by rwa [hnext, hsize₁])
      rw [hp', if_pos hroom, hnext]
      exact ⟨p', rfl⟩
    · rw [alloc_null (by rwa [hnext, hsize₁, ← Nat.not_lt]), if_neg hroom]
      exact ⟨p₁, rfl⟩

/-- `Realloc` answers with bytes of the buffer exactly when the end does not wrap. -/
theorem Sound.reallocInBounds_iff (h : Sound s) (hheld : (s.held ptr).isSome) :
    ReallocInBounds s.pool ptr count ↔ SizeFits s (.realloc (some ptr) count) := by
  obtain ⟨n, hn⟩ := Option.isSome_iff_exists.mp hheld
  have hsize : s.pool.cunBufferSize < 2 ^ 64 := by
    obtain ⟨cs, hrep, -⟩ := h.arena
    exact hrep.size
  by_cases hzero : count = 0
  · refine iff_of_true (fun p' known q hq => ?_) (Or.inl hzero)
    subst hzero
    obtain ⟨hin, hlow, -⟩ := h.in_buffer hn
    simp only [Pool.realloc, if_pos hin, if_pos hlow, if_true] at hq
    cases hfree : s.pool.deallocCheckedMemory ptr with
    | error f =>
      rw [hfree] at hq
      cases hq
    | ok p₁ =>
      rw [hfree] at hq
      cases hq
  by_cases hsame : count = n
  · subst hsame
    refine iff_of_true (fun p' known q hq => ?_) (Or.inr (Or.inl hn))
    rw [h.realloc_same hn hzero] at hq
    cases hq
    exact Nat.le_of_lt (h.in_buffer hn).2.2
  obtain ⟨p', hp'⟩ := h.realloc_answer hn hzero hsame
  constructor
  · intro hin
    by_contra hno
    have hplace : ¬ s.pool.NoWrap (s.pool.reallocPtr ptr) count := fun hfit =>
      hno (Or.inr (Or.inr hfit))
    obtain ⟨hwrap, hroom⟩ := Pool.not_noWrap_iff.mp hplace
    rw [if_pos hroom] at hp'
    have hle := hin _ _ _ hp'
    omega
  · intro hfit p'' known q hq
    rw [hp'] at hq
    split_ifs at hq with hroom
    · cases hq
      have hplace : s.pool.NoWrap (s.pool.reallocPtr ptr) count := by
        refine (hfit.resolve_left hzero).resolve_left fun heq => hsame ?_
        exact (Option.some.inj (hn.symm.trans heq)).symm
      rw [sizeT_of_lt (hplace.resolve_right (Nat.not_le.mpr hroom))] at hroom
      exact Nat.le_of_lt hroom
    · cases hq

/-- A step is within the bounds exactly when its size does not wrap. -/
theorem Sound.inBounds_iff (h : Sound s) (hv : PassesInUse s op) :
    InBounds s op ↔ SizeFits s op := by
  constructor
  · intro hin
    cases op with
    | alloc count => exact h.allocInBounds_iff.mp (hin.alloc count (Or.inl rfl))
    | calloc nmemb size => exact h.allocInBounds_iff.mp (hin.calloc nmemb size rfl)
    | realloc ptr count =>
      cases ptr with
      | none => exact h.allocInBounds_iff.mp (hin.alloc count (Or.inr rfl))
      | some ptr => exact (h.reallocInBounds_iff hv).mp (hin.realloc ptr count rfl)
    | dealloc ptr => trivial
    | store offset value => trivial
  · intro hfit
    refine ⟨?_, ?_, ?_, fun ptr count hheld => ((h.advance hv hfit).le_offset hheld).2⟩
    · rintro count (rfl | rfl)
      · exact h.allocInBounds_iff.mpr hfit
      · exact h.allocInBounds_iff.mpr hfit
    · rintro nmemb size rfl
      exact h.allocInBounds_iff.mpr hfit
    · rintro ptr count rfl
      exact (h.reallocInBounds_iff hv).mpr hfit

end Requests

/-- In a run of a client that passes blocks in use and any sizes, every answer lies in the buffer and
the end of the pool stays above the blocks in use exactly when every request is one whose end does not
wrap, or wraps to something that is refused. -/
theorem sizes_in_bounds_iff {size : ℕ} (hpos : 0 < size) (hsize : size < 2 ^ 64)
    (bytes : ℕ → UInt8) {ops : List Op}
    (hV : Runs.Along advance (fun s op => op.IsSizeT ∧ PassesInUse s op) (.init size bytes) ops) :
    Runs.Along advance InBounds (.init size bytes) ops ↔
      Runs.Along advance SizeFits (.init size bytes) ops :=
  Runs.along_iff_along (I := Sound) (fun _ _ h hv hfit => h.advance hv.2 hfit)
    (fun _ _ h hv => h.inBounds_iff hv.2) (Sound.init hpos hsize bytes) hV

/-- A refused request of almost `2 ^ 64` bytes, a block that grows in its place, and one that moves. -/
theorem sizes_in_bounds_refused :
    Runs.Along advance InBounds (.init 256 fun _ => 0)
      [.alloc 8, .alloc (2 ^ 63), .realloc (some 32) 16, .alloc 24, .realloc (some 32) 40] := by
  refine (sizes_in_bounds_iff (by decide) (by decide) _ ?_).mpr (by decide)
  refine ⟨?_, ?_, ?_, ?_, ?_, trivial⟩
  · exact ⟨by decide, trivial⟩
  · exact ⟨by decide, trivial⟩
  · exact ⟨by decide, rfl⟩
  · exact ⟨by decide, trivial⟩
  · exact ⟨by decide, rfl⟩

/-- `Alloc(2^64-1)` gets 31 bytes, header included. `Realloc` of a block of 8 bytes to `2^64-16` bytes
succeeds and puts the end of the pool before the end of the block's header. -/
theorem sizes_wrap :
    ¬ AllocInBounds (Pool.init 256 fun _ => 0) (2 ^ 64 - 1) ∧
      ¬ ReallocInBounds (Runs.final advance (.init 256 fun _ => 0) [.alloc 8]).pool 32
        (2 ^ 64 - 16) ∧
      (Runs.final advance (.init 256 fun _ => 0)
        [.alloc 8, .realloc (some 32) (2 ^ 64 - 16)]).held 32 = some (2 ^ 64 - 16) ∧
      (Runs.final advance (.init 256 fun _ => 0)
        [.alloc 8, .realloc (some 32) (2 ^ 64 - 16)]).pool.unOffset = 16 := by
  refine ⟨fun h => ?_, fun h => ?_, by decide, by decide⟩
  · exact absurd (h _ _ rfl) (by decide)
  · exact absurd (h _ _ _ rfl) (by decide)

end CrashInvestigator.MemoryPool
