import CrashInvestigator.MemoryPool.Proofs.BytesProofs

/-!
# The runs on the bytes

A run of the pool in the memory is one of the abstract pool, whose pointers are offsets into the
buffer. What is known of the abstract pool is so known of the bytes.
-/

namespace CrashInvestigator.MemoryPool

open Library Library.Arena

/-- The operation with offsets into the buffer for addresses. -/
def Op.offsets (base : ℕ) : Op → Op
  | .realloc ptr count => .realloc (ptr.map (· - base)) count
  | .dealloc ptr => .dealloc (ptr - base)
  | .store address value => .store (address - base) value
  | op => op

/-! ## What the client holds -/

/-- The client holds at the addresses of the buffer what it holds at the offsets. -/
structure Shifted (base : ℕ) (held held' : ℕ → Option ℕ) : Prop where
  offset : ∀ o, held (base + o) = held' o
  below : ∀ ptr, (held ptr).isSome → base ≤ ptr

section Holdings

variable {base o count : ℕ} {held held' : ℕ → Option ℕ}

theorem Shifted.update (h : Shifted base held held') (o : ℕ) (v : Option ℕ) :
    Shifted base (Function.update held (base + o) v) (Function.update held' o v) := by
  refine ⟨fun o' => ?_, fun ptr hptr => ?_⟩
  · by_cases heq : o' = o
    · rw [heq, Function.update_self, Function.update_self]
    · have hne : base + o' ≠ base + o := fun he => heq (Nat.add_left_cancel he)
      rw [Function.update_of_ne heq, Function.update_of_ne hne]
      exact h.offset o'
  · by_cases heq : ptr = base + o
    · omega
    · rw [Function.update_of_ne heq] at hptr
      exact h.below ptr hptr

theorem Shifted.receive (h : Shifted base held held') (answer : Option ℕ) (count : ℕ) :
    Shifted base (receive held (answer.map (base + ·)) count) (receive held' answer count) := by
  cases answer with
  | none => exact h
  | some o => exact h.update o (some count)

theorem Shifted.block (h : Shifted base held held') {ptr : ℕ} (hptr : held ptr = some count) :
    ∃ o, ptr = base + o ∧ held' o = some count := by
  have hle := h.below ptr (by rw [hptr]; rfl)
  obtain ⟨o, rfl⟩ := Nat.exists_eq_add_of_le hle
  exact ⟨o, rfl, (h.offset o).symm.trans hptr⟩

theorem nonNull_addressOf (hpos : 0 < base) (answer : Option ℕ) :
    MemoryPoolBase.nonNull (addressOf base answer) = answer.map (base + ·) := by
  cases answer with
  | none => rfl
  | some o =>
    have hne : base + o ≠ 0 := by omega
    exact if_neg hne

end Holdings

/-! ## The simulation -/

/-- The pool of the client in the memory is that of the session. -/
structure Simulates (w : Tenancy) (s : Session) : Prop where
  pool : InMemory w.pool s.pool
  held : Shifted w.pool.pBuffer w.held s.held
  fault : w.fault = s.fault

section Simulation

variable {w : Tenancy} {s : Session} {op : Op}

theorem Simulates.init {base size : ℕ} (hbase : 0 < base) (hfits : base + size ≤ 2 ^ 64)
    (memory : Memory) (bytes : ℕ → UInt8) :
    Simulates (.init base size memory) (.init size bytes) where
  pool := InMemory.init hbase hfits memory bytes
  held := ⟨fun _ => rfl, fun _ h => by cases h⟩
  fault := rfl

theorem Simulates.fits (h : Simulates w s) {count : ℕ} (hv : w.Fits count) : Fits s count := by
  unfold Tenancy.Fits at hv
  rw [h.pool.offset] at hv
  exact hv

/-- A correct client of the bytes is one of the items. -/
theorem Simulates.valid (h : Simulates w s) (hv : w.Valid op) :
    Valid s (op.offsets w.pool.pBuffer) := by
  have hheld : ∀ ptr, (w.held ptr).isSome → (s.held (ptr - w.pool.pBuffer)).isSome := by
    intro ptr hptr
    obtain ⟨count, hcount⟩ := Option.isSome_iff_exists.mp hptr
    obtain ⟨o, rfl, ho⟩ := h.held.block hcount
    rw [Nat.add_sub_cancel_left, ho]
    rfl
  cases op with
  | alloc count => exact h.fits hv
  | calloc nmemb size => exact h.fits hv
  | realloc ptr count =>
    cases ptr with
    | none => exact h.fits hv
    | some ptr => exact ⟨h.fits hv.1, hheld ptr hv.2⟩
  | dealloc ptr => exact hheld ptr hv
  | store address value =>
    obtain ⟨ptr, count, hptr, hlo, hhi⟩ := hv
    obtain ⟨o, rfl, ho⟩ := h.held.block hptr
    exact ⟨o, count, ho, by omega, by omega⟩

/-- A block the client holds lies in the buffer, behind its header. -/
theorem Simulates.offset (h : Simulates w s) (hs : Sound s) {ptr : ℕ} (hptr : (w.held ptr).isSome) :
    ∃ o, ptr = w.pool.pBuffer + o ∧ sizeofItem ≤ o ∧ o < s.pool.cunBufferSize := by
  obtain ⟨count, hcount⟩ := Option.isSome_iff_exists.mp hptr
  obtain ⟨o, rfl, ho⟩ := h.held.block hcount
  have hle := hs.le_offset ho
  have hbelow := hs.tiled.below
  exact ⟨o, rfl, hle.1, by omega⟩

/-- An operation of a correct client does to the bytes what it does to the items. -/
theorem Simulates.perform (h : Simulates w s) (hs : Sound s) (hv : w.Valid op) {p : Pool}
    {answer : Option ℕ} (hok : perform s.pool (op.offsets w.pool.pBuffer) = .ok (p, answer)) :
    ∃ r, w.pool.perform op = .ok (r, answer.map (w.pool.pBuffer + ·)) ∧ InMemory r p ∧
      r.pBuffer = w.pool.pBuffer := by
  have hoff := hs.tiled.below
  have hpos := h.pool.buffer_pos
  have hsmall : ∀ count, w.Fits count → count < 2 ^ 64 := by
    intro count hfits
    unfold Tenancy.Fits at hfits
    omega
  have hnull : ∀ {ptr : ℕ} {answer : Option ℕ}, ptr = addressOf w.pool.pBuffer answer →
      MemoryPoolBase.nonNull ptr = answer.map (w.pool.pBuffer + ·) := by
    rintro ptr answer rfl
    exact nonNull_addressOf hpos answer
  cases op with
  | alloc count =>
    obtain ⟨hin, hret, hbase⟩ := h.pool.alloc hoff (hsmall count hv) hok
    refine ⟨_, ?_, hin, hbase⟩
    rw [← hnull hret]
    rfl
  | calloc nmemb size =>
    obtain ⟨hin, hret, hbase⟩ := h.pool.calloc hoff hok
    refine ⟨_, ?_, hin, hbase⟩
    rw [← hnull hret]
    rfl
  | realloc ptr count =>
    cases ptr with
    | none =>
      obtain ⟨known, hrealloc⟩ := perform_realloc_ok hok
      obtain ⟨hin, hret, hbase⟩ :=
        h.pool.alloc hoff (hsmall count hv) (reallocNull_ok hrealloc).2
      refine ⟨_, ?_, hin, hbase⟩
      rw [← hnull hret]
      rfl
    | some ptr =>
      obtain ⟨o, rfl, -, ho⟩ := h.offset hs hv.2
      obtain ⟨known, hrealloc⟩ := perform_realloc_ok hok
      rw [Option.map_some, Nat.add_sub_cancel_left] at hrealloc
      obtain ⟨r, hr, hin, hbase⟩ := h.pool.realloc hoff (hsmall count hv.1) ho hrealloc
      have hperform : w.pool.perform (.realloc (some (w.pool.pBuffer + o)) count) =
          (w.pool.realloc (w.pool.pBuffer + o) count).map
            fun r => (r.1, MemoryPoolBase.nonNull r.2.2) := rfl
      refine ⟨r, ?_, hin, hbase⟩
      rw [hperform, hr, ← hnull rfl]
      rfl
  | dealloc ptr =>
    obtain ⟨o, rfl, -, ho⟩ := h.offset hs hv
    obtain ⟨rfl, known, hdealloc⟩ := perform_dealloc_ok hok
    rw [Nat.add_sub_cancel_left] at hdealloc
    obtain ⟨r, hr, hin, hbase⟩ := h.pool.dealloc ho hdealloc
    have hperform : w.pool.perform (.dealloc (w.pool.pBuffer + o)) =
        (w.pool.dealloc (w.pool.pBuffer + o)).map fun r => (r.1, none) := rfl
    refine ⟨r, ?_, hin, hbase⟩
    rw [hperform, hr]
    rfl
  | store address value =>
    cases hok
    obtain ⟨ptr, count, hptr, hlo, -⟩ := hv
    obtain ⟨o, rfl, -⟩ := h.held.block hptr
    obtain ⟨k, rfl⟩ := Nat.exists_eq_add_of_le hlo
    have hin := h.pool.store (o + k) value
    rw [← Nat.add_assoc] at hin
    refine ⟨_, rfl, ?_, rfl⟩
    rw [Nat.add_assoc, Nat.add_sub_cancel_left, ← Nat.add_assoc]
    exact hin

/-- The client holds the same blocks afterwards. -/
theorem Simulates.heldAfter (h : Simulates w s) (hs : Sound s) (hv : w.Valid op)
    (answer : Option ℕ) :
    Shifted w.pool.pBuffer (w.heldAfter op (answer.map (w.pool.pBuffer + ·)))
      (heldAfter s (op.offsets w.pool.pBuffer) answer) := by
  cases op with
  | alloc count => exact h.held.receive answer count
  | calloc nmemb size => exact h.held.receive answer (nmemb * size)
  | realloc ptr count =>
    cases ptr with
    | none => exact h.held.receive answer count
    | some ptr =>
      obtain ⟨o, rfl, hle, -⟩ := h.offset hs hv.2
      have hlast : w.pool.pLast = w.pool.pBuffer + o - sizeofItem ↔
          s.pool.pLast = some (o - sizeofItem) := by
        rw [h.pool.last, Nat.add_sub_assoc hle, eq_comm]
        exact addressOf_inj h.pool.buffer_pos
      simp only [Tenancy.heldAfter, Op.offsets, Option.map_some, Nat.add_sub_cancel_left,
        MemoryPool.heldAfter, Option.map_eq_none_iff, hlast]
      split_ifs
      · exact h.held
      · exact (h.held.update o none).receive answer count
  | dealloc ptr =>
    obtain ⟨o, rfl, -, -⟩ := h.offset hs hv
    simp only [Tenancy.heldAfter, Op.offsets, Nat.add_sub_cancel_left, MemoryPool.heldAfter]
    exact h.held.update o none
  | store address value => exact h.held

/-- Every operation of a correct client keeps the simulation. -/
theorem Simulates.step (h : Simulates w s) (hs : Sound s) (hv : w.Valid op) :
    Simulates (w.step op) (step s (op.offsets w.pool.pBuffer)) := by
  have hno := (hs.step (h.valid hv)).noFault
  unfold MemoryPool.step Tenancy.step at *
  cases hok : MemoryPool.perform s.pool (op.offsets w.pool.pBuffer) with
  | error f =>
    rw [hok] at hno
    cases hno
  | ok res =>
    obtain ⟨p, answer⟩ := res
    obtain ⟨r, hr, hin, hbase⟩ := h.perform hs hv hok
    rw [hr]
    have hheld := h.heldAfter hs hv answer
    rw [← hbase] at hheld ⊢
    exact ⟨hin, hheld, h.fault⟩

/-- The pool in the memory is a sound one. -/
def Tenancy.Sound (w : Tenancy) : Prop := ∃ s, MemoryPool.Sound s ∧ Simulates w s

theorem Tenancy.Sound.step (h : w.Sound) (hv : w.Valid op) : (w.step op).Sound := by
  obtain ⟨s, hs, hsim⟩ := h
  exact ⟨_, hs.step (hsim.valid hv), hsim.step hs hv⟩

/-- A run of a correct client stays sound. -/
theorem Tenancy.sound {base size : ℕ} (hbase : 0 < base) (hpos : 0 < size)
    (hfits : base + size ≤ 2 ^ 64) (memory : Memory) {ops : List Op}
    (h : Runs.Along Tenancy.step Tenancy.Valid (.init base size memory) ops) :
    (Runs.final Tenancy.step (.init base size memory) ops).Sound := by
  have hsize : size < 2 ^ 64 := by omega
  have hinit : (Tenancy.init base size memory).Sound :=
    ⟨.init size fun _ => 0, Sound.init hpos hsize _, Simulates.init hbase hfits memory _⟩
  exact (Runs.always_of_invariant (fun _ _ hw hv => Tenancy.Sound.step hw hv) hinit h).final

end Simulation

end CrashInvestigator.MemoryPool
