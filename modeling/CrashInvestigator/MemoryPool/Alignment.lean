import CrashInvestigator.MemoryPool.Pool
import CrashInvestigator.Library.Runs

/-!
# Where the pool puts its items

Runs of a pool whose buffer starts at a multiple of `alignof(Item)`, with the size of the request that
set the end of the pool as a note beside it. The client may pass any pointer.
-/

namespace CrashInvestigator.MemoryPool

/-- `alignof(Item)`. -/
def alignofItem : ℕ := 8

/-- The size that an operation asks for; a release asks for nothing. -/
def Op.size : Op → ℕ
  | .alloc count => count
  | .calloc nmemb size => nmemb * size
  | .realloc _ count => count
  | .dealloc _ => 0
  | .store _ _ => 0

/-- The sizes that are passed are values of `size_t`. -/
def Op.IsSizeT : Op → Prop
  | .alloc count => count < 2 ^ 64
  | .realloc _ count => count < 2 ^ 64
  | _ => True

instance : DecidablePred Op.IsSizeT
  | .alloc count => inferInstanceAs (Decidable (count < 2 ^ 64))
  | .realloc _ count => inferInstanceAs (Decidable (count < 2 ^ 64))
  | .calloc _ _ | .dealloc _ | .store _ _ => inferInstanceAs (Decidable True)

/-- A pool, the size in the request that set its end, which is `0` after a release, and what went
wrong. -/
structure Trail where
  pool : Pool
  endSize : ℕ
  fault : Option Fault

def Trail.init (unBufferSize : ℕ) (bytes : ℕ → UInt8) : Trail := ⟨.init unBufferSize bytes, 0, none⟩

def Trail.step (t : Trail) (op : Op) : Trail :=
  match perform t.pool op with
  | .ok (pool, _) =>
    ⟨pool, if pool.unOffset = t.pool.unOffset then t.endSize else op.size, t.fault⟩
  | .error f => { t with fault := some f }

/-- The test of `Alloc`. -/
def Pool.HasRoom (p : Pool) (count : ℕ) : Prop :=
  sizeT (sizeT (count + sizeofItem) + p.unOffset) < p.cunBufferSize

instance (p : Pool) (count : ℕ) : Decidable (p.HasRoom count) := by
  unfold Pool.HasRoom
  infer_instance

/-- The last item of the pool, if there is one, is in its place. -/
def Pool.LastInPlace (p : Pool) : Prop := ∀ last ∈ p.pLast, (p.items last).isSome

instance (p : Pool) : Decidable p.LastInPlace := by
  unfold Pool.LastInPlace
  infer_instance

/-- The block at `ptr` is below the end of the pool and has another size than `count`, so that it has to
be moved. -/
def Pool.MustMove (p : Pool) (ptr count : ℕ) : Prop :=
  ptr < p.cunBufferSize ∧ sizeofItem ≤ ptr ∧ count ≠ 0 ∧ ∃ item ∈ p.items (ptr - sizeofItem),
    count ≠ item.count ∧ sizeT (ptr + item.count) < p.unOffset

instance (p : Pool) (ptr count : ℕ) : Decidable (p.MustMove ptr count) := by
  unfold Pool.MustMove
  infer_instance

/-- The operation asks for a new block, and there is room for it. -/
def AsksForBlock (p : Pool) : Op → Prop
  | .alloc count => p.HasRoom count
  | .calloc nmemb size => p.HasRoom (sizeT (nmemb * size))
  | .realloc none count => p.HasRoom count
  | .realloc (some ptr) count => p.MustMove ptr count ∧ p.HasRoom count
  | _ => False

instance (p : Pool) : DecidablePred (AsksForBlock p)
  | .alloc count => inferInstanceAs (Decidable (p.HasRoom count))
  | .calloc nmemb size => inferInstanceAs (Decidable (p.HasRoom (sizeT (nmemb * size))))
  | .realloc none count => inferInstanceAs (Decidable (p.HasRoom count))
  | .realloc (some ptr) count =>
    inferInstanceAs (Decidable (p.MustMove ptr count ∧ p.HasRoom count))
  | .dealloc _ | .store _ _ => inferInstanceAs (Decidable False)

/-- The operation appends a block. -/
def Appends (p : Pool) (op : Op) : Prop := p.LastInPlace ∧ AsksForBlock p op

/-- Every header of the pool is aligned; `base` is the address of the buffer. -/
def Trail.ItemsAligned (base : ℕ) (t : Trail) : Prop :=
  ∀ o, (t.pool.items o).isSome → alignofItem ∣ base + o

/-- The pointer that an operation answers with is aligned. -/
def AnswerAligned (base : ℕ) (t : Trail) (op : Op) : Prop :=
  ∀ pool ptr, perform t.pool op = .ok (pool, some ptr) → alignofItem ∣ base + ptr

/-- A block is put behind a request whose size is a multiple of the alignment. -/
def AppendsAligned (t : Trail) (op : Op) : Prop := Appends t.pool op → alignofItem ∣ t.endSize

instance (t : Trail) : DecidablePred (AppendsAligned t) := fun op =>
  inferInstanceAs (Decidable (t.pool.LastInPlace ∧ AsksForBlock t.pool op → alignofItem ∣ t.endSize))

end CrashInvestigator.MemoryPool
