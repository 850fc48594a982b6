import CrashInvestigator.MemoryPool.Alignment
import CrashInvestigator.MemoryPool.Layout

/-!
# The sizes that the pool is asked for

`Alloc` and `Realloc` compare the end of the new block with the size of the buffer after the sum was
reduced to a `size_t`. The client passes every size there is.
-/

namespace CrashInvestigator.MemoryPool

/-- The end of `count` bytes at `ptr` does not wrap, or what it wraps to is refused. -/
def Pool.NoWrap (p : Pool) (ptr count : ℕ) : Prop :=
  ptr + count < 2 ^ 64 ∨ p.cunBufferSize ≤ sizeT (ptr + count)

instance (p : Pool) (ptr count : ℕ) : Decidable (p.NoWrap ptr count) := by
  unfold Pool.NoWrap
  infer_instance

/-- Where `Alloc` puts its next block. -/
def Pool.nextPtr (p : Pool) : ℕ := p.unOffset + sizeofItem

/-- Where `Realloc` puts the block at `ptr` when it changes its size: the last one stays. -/
def Pool.reallocPtr (p : Pool) (ptr : ℕ) : ℕ :=
  if p.pLast = some (ptr - sizeofItem) then ptr else p.nextPtr

/-- The blocks in use after an operation, with the counts that their headers have: `Calloc` counts the
product that it asks for. -/
def inUseAfter (s : Session) : Op → Option ℕ → ℕ → Option ℕ
  | .calloc nmemb size, answer => receive s.held answer (sizeT (nmemb * size))
  | op, answer => heldAfter s op answer

def advance (s : Session) (op : Op) : Session :=
  match perform s.pool op with
  | .ok (pool, answer) => { s with pool := pool, held := inUseAfter s op answer }
  | .error f => { s with fault := some f }

/-- The client passes null or blocks in use, and writes to their payloads only. -/
def PassesInUse (s : Session) : Op → Prop
  | .realloc (some ptr) _ => (s.held ptr).isSome
  | .dealloc ptr => (s.held ptr).isSome
  | .store offset _ => ∃ ptr count, s.held ptr = some count ∧ ptr ≤ offset ∧ offset < ptr + count
  | _ => True

/-- The size that is asked for does not wrap where the block would be. -/
def SizeFits (s : Session) : Op → Prop
  | .alloc count => s.pool.NoWrap s.pool.nextPtr count
  | .calloc nmemb size => s.pool.NoWrap s.pool.nextPtr (sizeT (nmemb * size))
  | .realloc none count => s.pool.NoWrap s.pool.nextPtr count
  | .realloc (some ptr) count =>
    count = 0 ∨ s.held ptr = some count ∨ s.pool.NoWrap (s.pool.reallocPtr ptr) count
  | _ => True

instance (s : Session) : DecidablePred (SizeFits s)
  | .alloc count => inferInstanceAs (Decidable (s.pool.NoWrap s.pool.nextPtr count))
  | .calloc nmemb size =>
    inferInstanceAs (Decidable (s.pool.NoWrap s.pool.nextPtr (sizeT (nmemb * size))))
  | .realloc none count => inferInstanceAs (Decidable (s.pool.NoWrap s.pool.nextPtr count))
  | .realloc (some ptr) count => inferInstanceAs (Decidable
      (count = 0 ∨ s.held ptr = some count ∨ s.pool.NoWrap (s.pool.reallocPtr ptr) count))
  | .dealloc _ | .store _ _ => inferInstanceAs (Decidable True)

/-- `Alloc(count)` answers with a block only if the header and the block lie below the end of the
buffer. -/
def AllocInBounds (p : Pool) (count : ℕ) : Prop :=
  ∀ p' ptr, p.alloc count = .ok (p', some ptr) →
    p.unOffset + sizeofItem + count < p.cunBufferSize

/-- `Realloc(ptr,count)` answers with `count` bytes in the buffer only. -/
def ReallocInBounds (p : Pool) (ptr count : ℕ) : Prop :=
  ∀ p' known q, p.realloc (some ptr) count = .ok (p', known, some q) → q + count ≤ p.cunBufferSize

/-- An operation answers with bytes in the buffer, and the end of the pool is not below that of a block
in use. -/
structure InBounds (s : Session) (op : Op) : Prop where
  alloc : ∀ count, op = .alloc count ∨ op = .realloc none count → AllocInBounds s.pool count
  calloc : ∀ nmemb size, op = .calloc nmemb size → AllocInBounds s.pool (sizeT (nmemb * size))
  realloc : ∀ ptr count, op = .realloc (some ptr) count → ReallocInBounds s.pool ptr count
  keeps : ∀ ptr count, (advance s op).held ptr = some count →
    ptr + count ≤ (advance s op).pool.unOffset

end CrashInvestigator.MemoryPool
