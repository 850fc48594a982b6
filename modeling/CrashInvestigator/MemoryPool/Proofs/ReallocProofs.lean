import CrashInvestigator.MemoryPool.Proofs.TenancyProofs

/-!
# What `Realloc` keeps

`Realloc` writes to headers only. The contents of a block that is moved stay behind, therefore, and the
header of the block that was given up for it says so even when there was no room for another one.
-/

namespace CrashInvestigator.MemoryPool

open Library Library.Arena Library.Memory

/-! ## The bytes that are written -/

/-- The block at `b` is given up below the last one. -/
def MemoryPoolBase.released (r : MemoryPoolBase) (b : ℕ) : MemoryPoolBase :=
  r.setWord (r.pBuffer + b) offsetofIsInUse 0

/-- `Alloc` of a size that does not wrap. -/
theorem MemoryPoolBase.alloc_of_fits {r : MemoryPoolBase} {n : ℕ}
    (hfit : r.unOffset + sizeofItem + n < 2 ^ 64) :
    r.alloc n =
      if r.unOffset + sizeofItem + n < r.cunBufferSize then
        ((r.link (r.pBuffer + r.unOffset)).append (r.pBuffer + r.unOffset) n
          (r.unOffset + sizeofItem + n), r.pBuffer + r.unOffset + sizeofItem)
      else (r, 0) := by
  have hoverall : sizeT (n + sizeofItem) = n + sizeofItem := sizeT_of_lt (by omega)
  have hstop : r.unOffset + (n + sizeofItem) = r.unOffset + sizeofItem + n := by omega
  rw [MemoryPoolBase.alloc_eq, sizeT_overall, hoverall, hstop, sizeT_of_lt hfit]

/-- `Alloc` writes to the last header and to its own. -/
theorem MemoryPoolBase.alloc_memory {r : MemoryPoolBase} {n x : ℕ}
    (hfit : r.unOffset + sizeofItem + n < 2 ^ 64)
    (hlast : r.pLast = 0 ∨ x < r.pLast ∨ r.pLast + sizeofItem ≤ x)
    (hnew : x < r.pBuffer + r.unOffset ∨ r.pBuffer + r.unOffset + sizeofItem ≤ x) :
    (r.alloc n).1.memory x = r.memory x := by
  rw [MemoryPoolBase.alloc_of_fits hfit]
  split_ifs
  · have hlink : (r.link (r.pBuffer + r.unOffset)).memory x = r.memory x := by
      unfold MemoryPoolBase.link
      split_ifs with hnull
      · exact store_member (by decide) (hlast.resolve_left hnull)
      · rfl
    unfold MemoryPoolBase.append
    simp only
    rw [store_member (by decide) hnew, store_member (by decide) hnew, store_member (by decide) hnew,
      store_member (by decide) hnew]
    exact hlink
  · rfl

section Realloc

variable {r r' : MemoryPoolBase} {p : Pool} {cs : List Cell} {b m n q x : ℕ} {known : Bool}

/-- What `Realloc` of a block in use to a positive size does to the bytes. -/
theorem InMemory.realloc_eq (h : InMemory r p) (hrep : Represents p cs)
    (hb : Holds sizeofItem cs b m) (hn : 0 < n) (hfit : p.unOffset + sizeofItem + n < 2 ^ 64) :
    r.realloc (r.pBuffer + (b + sizeofItem)) n =
      if n = m then .ok (r, true, r.pBuffer + (b + sizeofItem))
      else if topOf cs = some b then
        if b + sizeofItem + n < r.cunBufferSize then
          .ok ({ r with unOffset := b + sizeofItem + n }.setWord (r.pBuffer + b) 0 n, true,
            r.pBuffer + (b + sizeofItem))
        else .ok (r, true, 0)
      else .ok (((r.released b).alloc n).1, true, ((r.released b).alloc n).2) := by
  obtain ⟨prev, next, hitem⟩ := hrep.linked.find hb
  have hend := hrep.in_buffer hb
  have hle := hb.le_height
  rw [← hrep.offset] at hle
  have hpos := h.buffer_pos
  have hbuffer := h.buffer_fits
  have hsize := h.size
  have hne : r.pBuffer + (b + sizeofItem) ≠ 0 := by omega
  have hoffset : r.offsetOf (r.pBuffer + (b + sizeofItem)) = b + sizeofItem :=
    h.offsetOf_eq (by omega)
  have hin : b + sizeofItem < r.cunBufferSize := by omega
  have hraw : r.pBuffer + (b + sizeofItem) - sizeofItem = r.pBuffer + b := by omega
  have hback : b + sizeofItem - sizeofItem = b := Nat.add_sub_cancel ..
  have hword : r.word (r.pBuffer + b) 0 = m := (h.headers.header b _ hitem).count
  have hsum : sizeT (b + sizeofItem + m) = b + sizeofItem + m := sizeT_of_lt (by omega)
  unfold MemoryPoolBase.realloc
  simp only [hoffset, hraw, hword, hsum, h.offset]
  rw [if_pos hne, if_pos hin, if_pos (Nat.le_add_left ..), if_neg (Nat.pos_iff_ne_zero.mp hn)]
  by_cases hsame : n = m
  · rw [if_pos hsame, if_pos hsame]
  rw [if_neg hsame, if_neg hsame]
  by_cases htop : topOf cs = some b
  · have hstop := (hrep.last_iff hb).mpr htop
    have hnew : sizeT (b + sizeofItem + m + n + (2 ^ 64 - m)) = b + sizeofItem + n := by
      have hwrap : b + sizeofItem + m + n + (2 ^ 64 - m) = b + sizeofItem + n + 2 ^ 64 := by omega
      unfold sizeT
      rw [hwrap, Nat.add_mod_right]
      exact Nat.mod_eq_of_lt (by omega)
    rw [if_pos hstop, if_pos htop, hnew]
  · have hlt := hrep.below_last hb htop
    have hstop : b + sizeofItem + m ≠ p.unOffset := Nat.ne_of_lt hlt
    have hdealloc : r.deallocCheckedMemory (b + sizeofItem) = .ok (r.released b) := by
      unfold MemoryPoolBase.deallocCheckedMemory
      simp only [hback, hword, hsum, h.offset]
      rw [if_neg hstop, if_pos hlt]
      rfl
    rw [if_neg hstop, if_neg htop, if_pos hlt, hdealloc]

/-- The address is in no header, neither of a block of the pool nor of the next one. -/
structure OffHeaders (base : ℕ) (cs : List Cell) (x : ℕ) : Prop where
  headers : ∀ o, Starts sizeofItem cs o → x < base + o ∨ base + o + sizeofItem ≤ x
  next : x < base + height sizeofItem cs ∨ base + height sizeofItem cs + sizeofItem ≤ x

/-- The bytes of a block in use are in no header. -/
theorem offHeaders_payload (hb : Holds sizeofItem cs b m) (base : ℕ) {i : ℕ} (hi : i < m) :
    OffHeaders base cs (base + (b + sizeofItem) + i) := by
  refine ⟨fun o ho => ?_, ?_⟩
  · have := hb.apart ho
    omega
  · have := hb.le_height
    omega

/-- The bytes behind the next header are in no header. -/
theorem offHeaders_next (base i : ℕ) :
    OffHeaders base cs (base + height sizeofItem cs + sizeofItem + i) := by
  refine ⟨fun o ho => ?_, Or.inr (Nat.le_add_right ..)⟩
  have := ho.le_height
  omega

theorem starts_of_topOf (htop : topOf cs = some b) : Starts sizeofItem cs b := by
  cases cs with
  | nil => cases htop
  | cons c cs =>
    cases htop
    exact Or.inl rfl

/-- `Realloc` writes to headers only. -/
theorem InMemory.realloc_memory (h : InMemory r p) (hrep : Represents p cs)
    (hb : Holds sizeofItem cs b m) (hn : 0 < n) (hfit : p.unOffset + sizeofItem + n < 2 ^ 64)
    (hok : r.realloc (r.pBuffer + (b + sizeofItem)) n = .ok (r', known, q))
    (hx : OffHeaders r.pBuffer cs x) : r'.memory x = r.memory x := by
  have hhead := hx.headers b hb.starts
  rw [h.realloc_eq hrep hb hn hfit] at hok
  split_ifs at hok with hsame htop hroom
  · cases hok
    rfl
  · cases hok
    exact store_member (by decide) hhead
  · cases hok
    rfl
  · cases hok
    have hreleased : (r.released b).memory x = r.memory x := store_member (by decide) hhead
    have hoff : (r.released b).unOffset = height sizeofItem cs := h.offset.trans hrep.offset
    rw [MemoryPoolBase.alloc_memory (by rw [hoff, ← hrep.offset]; exact hfit) ?_ ?_]
    · exact hreleased
    · show r.pLast = 0 ∨ x < r.pLast ∨ r.pLast + sizeofItem ≤ x
      rw [h.last, hrep.last]
      cases hlast : topOf cs with
      | none => exact Or.inl rfl
      | some o => exact Or.inr (hx.headers o (starts_of_topOf hlast))
    · rw [hoff]
      exact hx.next

/-- `Realloc` below the last block answers with the place behind the next header, if there is room. -/
theorem InMemory.realloc_moved (h : InMemory r p) (hrep : Represents p cs)
    (hb : Holds sizeofItem cs b m) (hn : 0 < n) (hfit : p.unOffset + sizeofItem + n < 2 ^ 64)
    (hsame : n ≠ m) (htop : topOf cs ≠ some b) :
    ∃ r', r.realloc (r.pBuffer + (b + sizeofItem)) n =
      .ok (r', true, if p.unOffset + sizeofItem + n < p.cunBufferSize then
        r.pBuffer + p.unOffset + sizeofItem else 0) ∧
      (¬ p.unOffset + sizeofItem + n < p.cunBufferSize → r' = r.released b) := by
  have hfit' : (r.released b).unOffset + sizeofItem + n < 2 ^ 64 := by
    show r.unOffset + sizeofItem + n < 2 ^ 64
    rw [h.offset]
    exact hfit
  have halloc := MemoryPoolBase.alloc_of_fits hfit'
  have hoff : (r.released b).unOffset = p.unOffset := h.offset
  have hsize : (r.released b).cunBufferSize = p.cunBufferSize := h.size
  rw [hoff, hsize] at halloc
  rw [h.realloc_eq hrep hb hn hfit, if_neg hsame, if_neg htop, halloc]
  split_ifs with hroom
  · exact ⟨_, rfl, fun hno => absurd hroom hno⟩
  · exact ⟨_, rfl, fun _ => rfl⟩

/-- A block that is given up is not in use any more. -/
theorem InMemory.released_ne (h : InMemory r p) (hrep : Represents p cs)
    (hb : Holds sizeofItem cs b m) : r.released b ≠ r := by
  obtain ⟨prev, next, hitem⟩ := hrep.linked.find hb
  have hused : r.word (r.pBuffer + b) offsetofIsInUse = 1 := (h.headers.header b _ hitem).isInUse
  have hfree : (r.released b).word (r.pBuffer + b) offsetofIsInUse = 0 := load_store_same (by decide)
  intro heq
  rw [heq, hused] at hfree
  cases hfree

end Realloc

/-! ## Contents -/

section Contents

variable {w : Tenancy} {s : Session} {ptr count n : ℕ}

/-- A block the client holds, in the arena. -/
theorem Simulates.block (h : Simulates w s) {cs : List Cell} (hacc : Account s.held cs)
    (hheld : w.held ptr = some count) :
    ∃ b, ptr = w.pool.pBuffer + (b + sizeofItem) ∧ Holds sizeofItem cs b count := by
  obtain ⟨o, rfl, ho⟩ := h.held.block hheld
  obtain ⟨b, rfl, hb⟩ := (hacc o count).mp ho
  exact ⟨b, rfl, hb⟩

theorem Simulates.isLast_iff (h : Simulates w s) {cs : List Cell} (hrep : Represents s.pool cs)
    (b : ℕ) : w.IsLast (w.pool.pBuffer + (b + sizeofItem)) ↔ topOf cs = some b := by
  have hraw : w.pool.pBuffer + (b + sizeofItem) - sizeofItem = w.pool.pBuffer + b := by omega
  unfold Tenancy.IsLast
  rw [h.pool.last, hraw, hrep.last, eq_comm]
  exact addressOf_inj h.pool.buffer_pos

theorem Simulates.hasRoom_iff (h : Simulates w s) :
    w.HasRoom n ↔ s.pool.unOffset + sizeofItem + n < s.pool.cunBufferSize := by
  unfold Tenancy.HasRoom
  rw [h.pool.offset, h.pool.size]

/-- `Realloc` leaves the bytes alone that the client wrote to its blocks. -/
theorem Simulates.realloc_held (h : Simulates w s) {cs : List Cell} (hrep : Represents s.pool cs)
    (hacc : Account s.held cs) (hheld : w.held ptr = some count) (hn : 0 < n) (hfit : w.Fits n)
    {r' : MemoryPoolBase} {known : Bool} {q : ℕ} (hok : w.pool.realloc ptr n = .ok (r', known, q))
    {other k : ℕ} (hother : w.held other = some k) :
    ∀ i < k, r'.memory (other + i) = w.pool.memory (other + i) := by
  intro i hi
  obtain ⟨b, rfl, hb⟩ := h.block hacc hheld
  obtain ⟨b', rfl, hb'⟩ := h.block hacc hother
  exact h.pool.realloc_memory hrep hb hn (h.fits hfit) hok (offHeaders_payload hb' _ hi)

/-- A block that is not moved keeps its contents. -/
theorem Simulates.keepsContents_of_stays (h : Simulates w s) {cs : List Cell}
    (hrep : Represents s.pool cs) (hacc : Account s.held cs) (hheld : w.held ptr = some count)
    (hn : 0 < n) (hfit : w.Fits n)
    (hstays : ∀ r' known q, w.pool.realloc ptr n = .ok (r', known, q) → q = ptr ∨ q = 0) :
    w.KeepsContents ptr count n := by
  intro r' known q hok hq
  have hbytes : ∀ {other k : ℕ}, w.held other = some k →
      ∀ i < k, r'.memory (other + i) = w.pool.memory (other + i) :=
    h.realloc_held hrep hacc hheld hn hfit hok
  have hptr : q = ptr := (hstays _ _ _ hok).resolve_right hq
  refine ⟨fun i hi => ?_, fun other k _ hother => hbytes hother⟩
  rw [hptr]
  exact hbytes hheld i (Nat.lt_of_lt_of_le hi (Nat.min_le_left ..))

/-- A block keeps its contents where it stays, and where the next block would have them anyway. -/
theorem Tenancy.Sound.keepsContents_iff (hw : w.Sound) (hheld : w.held ptr = some count)
    (hn : 0 < n) (hfit : w.Fits n) :
    w.KeepsContents ptr count n ↔
      n = count ∨ w.IsLast ptr ∨ ¬ w.HasRoom n ∨ w.SameBytesAbove ptr (min count n) := by
  obtain ⟨s, hs, h⟩ := hw
  obtain ⟨cs, hrep, hacc⟩ := hs.arena
  have hstays := h.keepsContents_of_stays hrep hacc hheld hn hfit
  have hothers : ∀ r' known q, w.pool.realloc ptr n = .ok (r', known, q) →
      ∀ other k, w.held other = some k →
      ∀ i < k, r'.memory (other + i) = w.pool.memory (other + i) :=
    fun _ _ _ hok _ _ hother => h.realloc_held hrep hacc hheld hn hfit hok hother
  obtain ⟨b, rfl, hb⟩ := h.block hacc hheld
  have hfit' : s.pool.unOffset + sizeofItem + n < 2 ^ 64 := h.fits hfit
  have heq := h.pool.realloc_eq hrep hb hn hfit'
  rw [h.isLast_iff hrep, h.hasRoom_iff]
  by_cases hsame : n = count
  · refine iff_of_true (hstays fun r' known q hok => ?_) (Or.inl hsame)
    rw [if_pos hsame, hok] at heq
    cases heq
    exact Or.inl rfl
  by_cases htop : topOf cs = some b
  · refine iff_of_true (hstays fun r' known q hok => ?_) (Or.inr (Or.inl htop))
    rw [if_neg hsame, if_pos htop, hok] at heq
    split_ifs at heq
    · cases heq
      exact Or.inl rfl
    · cases heq
      exact Or.inr rfl
  obtain ⟨r', hok, -⟩ := h.pool.realloc_moved hrep hb hn hfit' hsame htop
  by_cases hroom : s.pool.unOffset + sizeofItem + n < s.pool.cunBufferSize
  · rw [if_pos hroom] at hok
    -- nothing was copied to the new place
    have hmoved : ∀ i, r'.memory (w.pool.pBuffer + s.pool.unOffset + sizeofItem + i) =
        w.pool.memory (w.pool.pBuffer + s.pool.unOffset + sizeofItem + i) := by
      intro i
      rw [hrep.offset] at hok ⊢
      exact h.pool.realloc_memory hrep hb hn hfit' hok (offHeaders_next _ i)
    unfold Tenancy.SameBytesAbove
    rw [h.pool.offset]
    constructor
    · intro hkeeps
      have hpos := h.pool.buffer_pos
      have hcontents := (hkeeps _ _ _ hok (by omega)).1
      exact Or.inr (Or.inr (Or.inr fun i hi => (hmoved i).symm.trans (hcontents i hi)))
    · intro hcase r₂ known q hok₂ hq
      have hbytes := ((hcase.resolve_left hsame).resolve_left htop).resolve_left
        (not_not_intro hroom)
      refine ⟨fun i hi => ?_, fun other k _ hother => hothers _ _ _ hok₂ other k hother⟩
      rw [hok] at hok₂
      cases hok₂
      exact (hmoved i).trans (hbytes i hi)
  · rw [if_neg hroom] at hok
    refine iff_of_true (hstays fun r₂ known q hok₂ => ?_) (Or.inr (Or.inr (Or.inl hroom)))
    rw [hok] at hok₂
    cases hok₂
    exact Or.inr rfl

/-- A `Realloc` that fails has changed nothing if it did not have to move the block. -/
theorem Tenancy.Sound.failsCleanly_iff (hw : w.Sound) (hheld : w.held ptr = some count)
    (hn : 0 < n) (hfit : w.Fits n) :
    w.FailsCleanly ptr n ↔ n = count ∨ w.IsLast ptr ∨ w.HasRoom n := by
  obtain ⟨s, hs, h⟩ := hw
  obtain ⟨cs, hrep, hacc⟩ := hs.arena
  obtain ⟨b, rfl, hb⟩ := h.block hacc hheld
  have hfit' : s.pool.unOffset + sizeofItem + n < 2 ^ 64 := h.fits hfit
  have heq := h.pool.realloc_eq hrep hb hn hfit'
  rw [h.isLast_iff hrep, h.hasRoom_iff]
  by_cases hsame : n = count
  · refine iff_of_true (fun r' known hok => ?_) (Or.inl hsame)
    rw [if_pos hsame, hok] at heq
    cases heq
  by_cases htop : topOf cs = some b
  · refine iff_of_true (fun r' known hok => ?_) (Or.inr (Or.inl htop))
    rw [if_neg hsame, if_pos htop, hok] at heq
    split_ifs at heq
    · cases heq
    · cases heq
      rfl
  obtain ⟨r', hok, hreleased⟩ := h.pool.realloc_moved hrep hb hn hfit' hsame htop
  by_cases hroom : s.pool.unOffset + sizeofItem + n < s.pool.cunBufferSize
  · refine iff_of_true (fun r₂ known hok₂ => ?_) (Or.inr (Or.inr hroom))
    rw [hok, if_pos hroom] at hok₂
    cases hok₂
  · rw [if_neg hroom] at hok
    refine iff_of_false (fun hclean => ?_) ?_
    · have hback : r' = w.pool := hclean _ _ hok
      rw [hreleased hroom] at hback
      exact h.pool.released_ne hrep hb hback
    · rintro (hcase | hcase | hcase)
      · exact hsame hcase
      · exact htop hcase
      · exact hroom hcase

end Contents

/-! ## Main results -/

/-- In every state that a correct client reaches, whatever the memory held before, `Realloc` to a
positive size keeps the contents of a block exactly if it need not move it, or has no room to, or the
bytes at the new place are those of the block by chance: it copies nothing. -/
theorem realloc_keepsContents_iff {base size : ℕ} (hbase : 0 < base) (hpos : 0 < size)
    (hfits : base + size ≤ 2 ^ 64) (memory : Memory) {ops : List Op}
    (h : Runs.Along Tenancy.step Tenancy.Valid (.init base size memory) ops) {ptr count n : ℕ}
    (hheld : (Runs.final Tenancy.step (.init base size memory) ops).held ptr = some count)
    (hn : 0 < n) (hfit : (Runs.final Tenancy.step (.init base size memory) ops).Fits n) :
    (Runs.final Tenancy.step (.init base size memory) ops).KeepsContents ptr count n ↔
      n = count ∨ (Runs.final Tenancy.step (.init base size memory) ops).IsLast ptr ∨
        ¬ (Runs.final Tenancy.step (.init base size memory) ops).HasRoom n ∨
        (Runs.final Tenancy.step (.init base size memory) ops).SameBytesAbove ptr
          (min count n) :=
  (Tenancy.sound hbase hpos hfits memory h).keepsContents_iff hheld hn hfit

/-- Two blocks, and a byte in the first one. -/
def twoBlocksRun : List Op := [.alloc 8, .alloc 8, .store 4128 7]

/-- The state after it. -/
def twoBlocks : Tenancy := Runs.final Tenancy.step (.init 4096 256 fun _ => 0) twoBlocksRun

theorem twoBlocks_along :
    Runs.Along Tenancy.step Tenancy.Valid (.init 4096 256 fun _ => 0) twoBlocksRun := by
  refine ⟨?_, ?_, ⟨4128, 8, rfl, by omega, by omega⟩, trivial⟩
  · show 0 + 32 + 8 < 2 ^ 64
    omega
  · show 40 + 32 + 8 < 2 ^ 64
    omega

theorem twoBlocks_fits {n : ℕ} (h : 112 + n < 2 ^ 64) : twoBlocks.Fits n := by
  show 80 + 32 + n < 2 ^ 64
  exact h

theorem realloc_keepsContents_twoBlocks :
    twoBlocks.KeepsContents 4128 8 16 ↔ 16 = 8 ∨ twoBlocks.IsLast 4128 ∨ ¬ twoBlocks.HasRoom 16 ∨
      twoBlocks.SameBytesAbove 4128 (min 8 16) :=
  realloc_keepsContents_iff (by omega) (by omega) (by omega) _ twoBlocks_along rfl (by omega)
    (twoBlocks_fits (by omega))

/-- The byte is lost when the first block becomes larger. -/
theorem realloc_loses_contents :
    Runs.Along Tenancy.step Tenancy.Valid (.init 4096 256 fun _ => 0) twoBlocksRun ∧
      twoBlocks.held 4128 = some 8 ∧ twoBlocks.Fits 16 ∧ ¬ twoBlocks.KeepsContents 4128 8 16 := by
  refine ⟨twoBlocks_along, rfl, twoBlocks_fits (by omega), fun h => ?_⟩
  have hbyte := (h _ _ _ rfl (by decide)).1 0 (by omega)
  revert hbyte
  decide

/-- In every state that a correct client reaches, a `Realloc` to a positive size that answers with null
has changed nothing exactly if it need not move the block, or had room to and did not fail: it gives
the block up before it asks for another one. -/
theorem realloc_failsCleanly_iff {base size : ℕ} (hbase : 0 < base) (hpos : 0 < size)
    (hfits : base + size ≤ 2 ^ 64) (memory : Memory) {ops : List Op}
    (h : Runs.Along Tenancy.step Tenancy.Valid (.init base size memory) ops) {ptr count n : ℕ}
    (hheld : (Runs.final Tenancy.step (.init base size memory) ops).held ptr = some count)
    (hn : 0 < n) (hfit : (Runs.final Tenancy.step (.init base size memory) ops).Fits n) :
    (Runs.final Tenancy.step (.init base size memory) ops).FailsCleanly ptr n ↔
      n = count ∨ (Runs.final Tenancy.step (.init base size memory) ops).IsLast ptr ∨
        (Runs.final Tenancy.step (.init base size memory) ops).HasRoom n :=
  (Tenancy.sound hbase hpos hfits memory h).failsCleanly_iff hheld hn hfit

theorem realloc_failsCleanly_twoBlocks :
    twoBlocks.FailsCleanly 4128 200 ↔ 200 = 8 ∨ twoBlocks.IsLast 4128 ∨ twoBlocks.HasRoom 200 :=
  realloc_failsCleanly_iff (by omega) (by omega) (by omega) _ twoBlocks_along rfl (by omega)
    (twoBlocks_fits (by omega))

/-- There is no room for the first block, and it is not in use any more. -/
theorem realloc_gives_up_block :
    Runs.Along Tenancy.step Tenancy.Valid (.init 4096 256 fun _ => 0) twoBlocksRun ∧
      twoBlocks.held 4128 = some 8 ∧ twoBlocks.Fits 200 ∧ ¬ twoBlocks.FailsCleanly 4128 200 := by
  refine ⟨twoBlocks_along, rfl, twoBlocks_fits (by omega), fun h => ?_⟩
  have hword := congrArg (fun p => p.word 4096 offsetofIsInUse) (h _ _ rfl)
  revert hword
  decide

end CrashInvestigator.MemoryPool
