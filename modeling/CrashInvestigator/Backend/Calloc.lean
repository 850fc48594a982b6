import CrashInvestigator.MemoryPool.Alignment
import CrashInvestigator.Tracker.Operations

/-!
# The backends of `TestOperatorCalloc`

`callocn` hands out a block of the static pool while `InitFunction` runs, of libc afterwards, and of
the process heap on Windows. Libc and the heap are outside the program; they come with what their
documentation says of a block that they hand out.
-/

namespace CrashInvestigator.Backend

open MemoryPool (Pool sizeT sizeofItem)
open Tracker (Addr)

/-- A block that a backend hands out: where it is, how many bytes belong to it, and what they are. -/
structure Chunk where
  address : Addr
  size : ℕ
  bytes : ℕ → UInt8

/-- `calloc` of libc. -/
structure Libc where
  calloc : ℕ → ℕ → Option Chunk
  correct : ∀ nmemb size, ∀ c ∈ calloc nmemb size,
    c.address ≠ 0 ∧ nmemb * size ≤ c.size ∧ ∀ i < nmemb * size, c.bytes i = 0

/-- A libc that has room for everything, and refuses a product that is no `size_t`. -/
def roomyLibc : Libc where
  calloc := fun nmemb size =>
    if nmemb * size < 2 ^ 64 then some ⟨1, nmemb * size, fun _ => 0⟩ else none
  correct := by
    intro nmemb size c hc
    split_ifs at hc
    · cases hc
      exact ⟨Nat.one_ne_zero, Nat.le_refl _, fun _ _ => rfl⟩
    · cases hc

/-- `HeapAlloc(GetProcessHeap(),HEAP_ZERO_MEMORY,_)`. -/
structure ProcessHeap where
  heapAlloc : ℕ → Option Chunk
  exact : ∀ count, ∀ c ∈ heapAlloc count,
    c.address ≠ 0 ∧ c.size = count ∧ ∀ i < count, c.bytes i = 0

/-- The block at `ptr`: the bytes that its header counts, as far as they lie in the buffer. -/
def poolChunk (base : Addr) (p : Pool) (ptr : ℕ) : Option Chunk :=
  (p.items (ptr - sizeofItem)).map fun item =>
    ⟨base + ptr, min item.count (p.cunBufferSize - ptr), fun i => p.bytes (ptr + i)⟩

/-- `s_memPool.Calloc`; a null answer and a fault are no block. -/
def poolCalloc (base : Addr) (p : Pool) (nmemb size : ℕ) : Option Chunk :=
  match p.calloc nmemb size with
  | .ok (p', some ptr) => poolChunk base p' ptr
  | _ => none

/-- Who serves `callocn`. -/
inductive CallocBackend where
  /-- On Unix during `InitFunction`: the pool, whose size is a `size_t`, and the address of its
  buffer. -/
  | pool (base : Addr) (p : Pool) (isSizeT : p.cunBufferSize < 2 ^ 64)
  /-- On Unix after `InitFunction`. -/
  | libc (libc : Libc)
  | windows (heap : ProcessHeap)

/-- `callocn`. -/
def CallocBackend.callocn (b : CallocBackend) (nmemb size : ℕ) : Option Chunk :=
  match b with
  | .pool base p _ => poolCalloc base p nmemb size
  | .libc l => l.calloc nmemb size
  | .windows heap => heap.heapAlloc (sizeT (nmemb * size))

/-- The pointer that `callocn` returns. -/
def CallocBackend.answer (b : CallocBackend) (nmemb size : ℕ) : Addr :=
  match b.callocn nmemb size with
  | none => 0
  | some c => c.address

/-- When the backend serves a positive product, it is large enough: the pool and the heap compute the
product as a `size_t`, and the pool adds the header and its offset to it. -/
def CallocBackend.Fits (b : CallocBackend) (nmemb size : ℕ) : Prop :=
  match b with
  | .pool _ p _ =>
    nmemb * size = 0 ∨ ¬ p.LastInPlace ∨ ¬ p.HasRoom (sizeT (nmemb * size)) ∨
      p.unOffset + sizeofItem + nmemb * size < 2 ^ 64
  | .libc _ => True
  | .windows heap => heap.heapAlloc (sizeT (nmemb * size)) = none ∨ nmemb * size < 2 ^ 64

/-- The block that `TestOperatorCalloc` returns has all the bytes, and they are zero. -/
def LargeEnough (b : CallocBackend) (nmemb size : ℕ) (r : Tracker.Res) : Prop :=
  ∀ q, r.out = .returns q → q ≠ 0 →
    ∃ c ∈ b.callocn nmemb size, c.address = q ∧ nmemb * size ≤ c.size ∧
      ∀ i < nmemb * size, c.bytes i = 0

end CrashInvestigator.Backend
