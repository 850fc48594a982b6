import CrashInvestigator.MemoryPool.Pool
import CrashInvestigator.Library.Runs
import Mathlib.Order.Interval.Finset.Nat

/-!
# The layout of the pool

What holds of the buffer after every operation of a correct client, and the account of the blocks
that the client holds, which is kept from the answers of the pool.
-/

namespace CrashInvestigator.MemoryPool

open Library

/-- A header in the buffer, with what it says about the payload behind it. -/
structure Block where
  offset : ℕ
  count : ℕ
  isInUse : Bool
  deriving DecidableEq, Repr

namespace Block

/-- The pointer to the payload. -/
def payload (b : Block) : ℕ := b.offset + sizeofItem

/-- The end of the payload. -/
def stop (b : Block) : ℕ := b.offset + sizeofItem + b.count

def headerBytes (b : Block) : Finset ℕ := Finset.Ico b.offset (b.offset + sizeofItem)

def payloadBytes (b : Block) : Finset ℕ := Finset.Ico (b.offset + sizeofItem) b.stop

end Block

/-- The items reached from `ptr` by `next` are those of the blocks, and `prev` leads back. -/
def Walk (items : ℕ → Option Item) : Option ℕ → Option ℕ → List Block → Prop
  | _, ptr, [] => ptr = none
  | prev, ptr, b :: bs => ptr = some b.offset ∧ ∃ next,
      items b.offset = some ⟨b.count, b.isInUse, prev, next⟩ ∧ Walk items (some b.offset) next bs

/-- The blocks follow each other without gaps from `start` to `stop`. -/
def Covers : ℕ → List Block → ℕ → Prop
  | start, [], stop => start = stop
  | start, b :: bs, stop => b.offset = start ∧ Covers b.stop bs stop

/-- A pool with its client: `held ptr` is the size of the payload at `ptr`, if the client holds it,
and `fault` what went wrong. -/
structure Session where
  pool : Pool
  held : ℕ → Option ℕ
  fault : Option Fault

def Session.init (unBufferSize : ℕ) (bytes : ℕ → UInt8) : Session :=
  ⟨.init unBufferSize bytes, fun _ => none, none⟩

/-- The client gets the block that an operation answers with, if it answers with one. -/
def receive (held : ℕ → Option ℕ) (answer : Option ℕ) (count : ℕ) : ℕ → Option ℕ :=
  match answer with
  | none => held
  | some ptr => Function.update held ptr (some count)

/-- The blocks the client holds after an operation. The failing realloc of a block that is not the
last one counts as its release. -/
def heldAfter (s : Session) : Op → Option ℕ → ℕ → Option ℕ
  | .alloc count, answer => receive s.held answer count
  | .calloc nmemb size, answer => receive s.held answer (nmemb * size)
  | .realloc none count, answer => receive s.held answer count
  | .realloc (some ptr) count, answer =>
    if count ≠ 0 ∧ answer = none ∧ s.pool.pLast = some (ptr - sizeofItem) then s.held
    else receive (Function.update s.held ptr none) answer count
  | .dealloc ptr, _ => Function.update s.held ptr none
  | .store _ _, _ => s.held

def step (s : Session) (op : Op) : Session :=
  match perform s.pool op with
  | .ok (pool, answer) => { s with pool := pool, held := heldAfter s op answer }
  | .error f => { s with fault := some f }

/-- A request of `count` bytes does not wrap. -/
def Fits (s : Session) (count : ℕ) : Prop := s.pool.unOffset + sizeofItem + count < 2 ^ 64

/-- What a correct client does: its sizes do not wrap, it passes null or blocks it holds, and it
writes to the payloads of these blocks only. -/
def Valid (s : Session) : Op → Prop
  | .alloc count => Fits s count
  | .calloc nmemb size => Fits s (nmemb * size)
  | .realloc none count => Fits s count
  | .realloc (some ptr) count => Fits s count ∧ (s.held ptr).isSome
  | .dealloc ptr => (s.held ptr).isSome
  | .store offset _ => ∃ ptr count, s.held ptr = some count ∧ ptr ≤ offset ∧ offset < ptr + count

/-- The blocks of the pool, in the order of their addresses. -/
structure LaidOut (s : Session) (blocks : List Block) : Prop where
  walk : Walk s.pool.items none s.pool.pFirst blocks
  covers : Covers 0 blocks s.pool.unOffset
  last : s.pool.pLast = blocks.getLast?.map Block.offset
  /-- The end of the pool is that of a block that is in use. -/
  top : ∀ b ∈ blocks.getLast?, b.isInUse = true ∧ b.stop = s.pool.unOffset
  held : ∀ ptr count, s.held ptr = some count ↔
    ∃ b ∈ blocks, b.isInUse = true ∧ b.payload = ptr ∧ b.count = count
  payloads : ∀ b ∈ blocks, ∀ b' ∈ blocks, b ≠ b' → Disjoint b.payloadBytes b'.payloadBytes
  headers : ∀ b ∈ blocks, ∀ b' ∈ blocks, Disjoint b.payloadBytes b'.headerBytes

/-- The invariant of the pool. -/
structure Tiled (s : Session) : Prop where
  noFault : s.fault = none
  below : s.pool.unOffset < s.pool.cunBufferSize
  blocks : ∃ blocks, LaidOut s blocks
  first : s.pool.pFirst = none ↔ s.pool.unOffset = 0
  last : s.pool.pLast = none ↔ s.pool.unOffset = 0

/-- The pool is as good as new: it is empty, and a block of any size that fits into the buffer can be
allocated. -/
structure Reclaimed (s : Session) : Prop where
  noFault : s.fault = none
  offset : s.pool.unOffset = 0
  first : s.pool.pFirst = none
  last : s.pool.pLast = none
  capacity : ∀ count, sizeofItem + count < s.pool.cunBufferSize →
    ∃ p, s.pool.alloc count = .ok (p, some sizeofItem)

end CrashInvestigator.MemoryPool
