import CrashInvestigator.Library.Words
import CrashInvestigator.MemoryPool.Layout

/-!
# The pool in the memory of the machine

`MemoryPoolBase` of `cpputilsm_memorypool.cpp` down to its bytes: a pointer is an address, `0` is null,
and an `Item` is four words of eight bytes in the buffer, which nobody checks when it is read. What the
operations leave in the payloads can be seen here only.
-/

namespace CrashInvestigator.MemoryPool

open Library

/-! ## The code -/

/-- `offsetof(Item,isInUse)`; `count` comes first. -/
def offsetofIsInUse : ℕ := 8

/-- `offsetof(Item,prev)`. -/
def offsetofPrev : ℕ := 16

/-- `offsetof(Item,next)`. -/
def offsetofNext : ℕ := 24

/-- The members of `MemoryPoolBase`, and the memory. -/
structure MemoryPoolBase where
  pBuffer : ℕ
  cunBufferSize : ℕ
  unOffset : ℕ
  pFirst : ℕ
  pLast : ℕ
  memory : Memory

namespace MemoryPoolBase

/-- `Init`. -/
def init (pBuffer unBufferSize : ℕ) (memory : Memory) : MemoryPoolBase where
  pBuffer := pBuffer
  cunBufferSize := unBufferSize
  unOffset := 0
  pFirst := 0
  pLast := 0
  memory := memory

/-- A member of the item at `pItem`. -/
def word (p : MemoryPoolBase) (pItem member : ℕ) : ℕ := p.memory.load (pItem + member) 8

def setWord (p : MemoryPoolBase) (pItem member value : ℕ) : MemoryPoolBase :=
  { p with memory := p.memory.store (pItem + member) 8 value }

/-- `static_cast<uint8_t*>(ptr)-m_pBuffer`, as a `size_t`. -/
def offsetOf (p : MemoryPoolBase) (ptr : ℕ) : ℕ := sizeT (ptr + (2 ^ 64 - p.pBuffer))

/-- `Alloc`; `0` when the block does not fit. -/
def alloc (p : MemoryPoolBase) (count : ℕ) : MemoryPoolBase × ℕ :=
  let cunOverallSize := sizeT (count + sizeofItem)
  if sizeT (cunOverallSize + p.unOffset) < p.cunBufferSize then
    let pItem := p.pBuffer + p.unOffset
    let p₁ := if p.pLast ≠ 0 then p.setWord p.pLast offsetofNext pItem else { p with pFirst := pItem }
    let p₂ := p₁.setWord pItem offsetofNext 0
    let p₃ := p₂.setWord pItem offsetofPrev p₂.pLast
    let p₄ := { p₃ with pLast := pItem }
    let p₅ := p₄.setWord pItem 0 count
    let p₆ := p₅.setWord pItem offsetofIsInUse 1
    ({ p₆ with unOffset := sizeT (p₆.unOffset + cunOverallSize) }, pItem + sizeofItem)
  else (p, 0)

/-- `Calloc`. -/
def calloc (p : MemoryPoolBase) (nmemb size : ℕ) : MemoryPoolBase × ℕ :=
  let cunCount := sizeT (nmemb * size)
  let r := p.alloc cunCount
  if r.2 ≠ 0 then ({ r.1 with memory := r.1.memory.fill r.2 cunCount 0 }, r.2) else r

/-- The pool is empty again. -/
def clear (p : MemoryPoolBase) : MemoryPoolBase := { p with unOffset := 0, pFirst := 0, pLast := 0 }

/-- The scan of `DeallocCheckedMemory` for pending deallocations, down from `pItem`. -/
def scan (p : MemoryPoolBase) : ℕ → ℕ → ℕ → Except Fault MemoryPoolBase
  | 0, _, _ => .error .scanDoesNotEnd
  | fuel + 1, pItem, unRealPtrOffset =>
    if pItem = 0 then .ok { p with unOffset := unRealPtrOffset }
    else if p.word pItem offsetofIsInUse ≠ 0 then
      .ok { p.setWord pItem offsetofNext 0 with pLast := pItem, unOffset := unRealPtrOffset }
    else if pItem = p.pFirst then .ok p.clear
    else p.scan fuel (p.word pItem offsetofPrev) (p.offsetOf pItem)

/-- `DeallocCheckedMemory`. -/
def deallocCheckedMemory (p : MemoryPoolBase) (ptrOffset : ℕ) : Except Fault MemoryPoolBase :=
  let unRealPtrOffset := ptrOffset - sizeofItem
  let pItem := p.pBuffer + unRealPtrOffset
  let ofsetAfterAlloc := sizeT (ptrOffset + p.word pItem 0)
  if ofsetAfterAlloc = p.unOffset then
    if pItem = p.pFirst then .ok p.clear
    else p.scan p.cunBufferSize (p.word pItem offsetofPrev) unRealPtrOffset
  else if ofsetAfterAlloc < p.unOffset then .ok (p.setWord pItem offsetofIsInUse 0)
  else .error .assertionFailed

/-- `Dealloc`. -/
def dealloc (p : MemoryPoolBase) (ptr : ℕ) : Except Fault (MemoryPoolBase × Bool) :=
  let ptrOffset := p.offsetOf ptr
  if ptrOffset < p.cunBufferSize then
    if sizeofItem ≤ ptrOffset then
      match p.deallocCheckedMemory ptrOffset with
      | .error f => .error f
      | .ok p₁ => .ok (p₁, true)
    else .error .assertionFailed
  else .ok (p, false)

/-- `Realloc`: the returned truth value, and what is stored through `a_ppRet`. -/
def realloc (p : MemoryPoolBase) (ptr count : ℕ) : Except Fault (MemoryPoolBase × Bool × ℕ) :=
  if ptr ≠ 0 then
    let ptrOffset := p.offsetOf ptr
    if ptrOffset < p.cunBufferSize then
      if sizeofItem ≤ ptrOffset then
        if count = 0 then
          match p.deallocCheckedMemory ptrOffset with
          | .error f => .error f
          | .ok p₁ => .ok (p₁, true, 0)
        else
          let pReturnRaw := ptr - sizeofItem
          if count = p.word pReturnRaw 0 then .ok (p, true, ptr)
          else
            let ofsetAfterAlloc := sizeT (ptrOffset + p.word pReturnRaw 0)
            if ofsetAfterAlloc = p.unOffset then
              let cunNewOffset := sizeT (ofsetAfterAlloc + count + (2 ^ 64 - p.word pReturnRaw 0))
              if cunNewOffset < p.cunBufferSize then
                .ok ({ p with unOffset := cunNewOffset }.setWord pReturnRaw 0 count, true, ptr)
              else .ok (p, true, 0)
            else if ofsetAfterAlloc < p.unOffset then
              match p.deallocCheckedMemory ptrOffset with
              | .error f => .error f
              | .ok p₁ => .ok ((p₁.alloc count).1, true, (p₁.alloc count).2)
            else .error .assertionFailed
      else .error .assertionFailed
    else .ok (p, false, 0)
  else .ok ((p.alloc count).1, true, (p.alloc count).2)

/-- The program writes a byte. -/
def store (p : MemoryPoolBase) (address : ℕ) (value : UInt8) : MemoryPoolBase :=
  { p with memory := Function.update p.memory address value }

/-- A pointer that is not null. -/
def nonNull (ptr : ℕ) : Option ℕ := if ptr = 0 then none else some ptr

/-- The pool after an operation, whose pointers are addresses, and the pointer it answers with. -/
def perform (p : MemoryPoolBase) : Op → Except Fault (MemoryPoolBase × Option ℕ)
  | .alloc count => .ok ((p.alloc count).1, nonNull (p.alloc count).2)
  | .calloc nmemb size => .ok ((p.calloc nmemb size).1, nonNull (p.calloc nmemb size).2)
  | .realloc ptr count => (p.realloc (ptr.getD 0) count).map fun r => (r.1, nonNull r.2.2)
  | .dealloc ptr => (p.dealloc ptr).map fun r => (r.1, none)
  | .store address value => .ok (p.store address value, none)

end MemoryPoolBase

/-! ## Its client -/

/-- A pool with its client: `held ptr` is the size of the payload at the address `ptr`, if the client
holds it. -/
structure Tenancy where
  pool : MemoryPoolBase
  held : ℕ → Option ℕ
  fault : Option Fault

def Tenancy.init (pBuffer unBufferSize : ℕ) (memory : Memory) : Tenancy :=
  ⟨.init pBuffer unBufferSize memory, fun _ => none, none⟩

/-- The blocks the client holds after an operation. The failing realloc of a block that is not the
last one counts as its release. -/
def Tenancy.heldAfter (w : Tenancy) : Op → Option ℕ → ℕ → Option ℕ
  | .alloc count, answer => receive w.held answer count
  | .calloc nmemb size, answer => receive w.held answer (nmemb * size)
  | .realloc none count, answer => receive w.held answer count
  | .realloc (some ptr) count, answer =>
    if count ≠ 0 ∧ answer = none ∧ w.pool.pLast = ptr - sizeofItem then w.held
    else receive (Function.update w.held ptr none) answer count
  | .dealloc ptr, _ => Function.update w.held ptr none
  | .store _ _, _ => w.held

def Tenancy.step (w : Tenancy) (op : Op) : Tenancy :=
  match w.pool.perform op with
  | .ok (pool, answer) => { w with pool := pool, held := w.heldAfter op answer }
  | .error f => { w with fault := some f }

/-- A request of `count` bytes does not wrap. -/
def Tenancy.Fits (w : Tenancy) (count : ℕ) : Prop := w.pool.unOffset + sizeofItem + count < 2 ^ 64

/-- What a correct client does: its sizes do not wrap, it passes null or blocks it holds, and it
writes to the payloads of these blocks only. -/
def Tenancy.Valid (w : Tenancy) : Op → Prop
  | .alloc count => w.Fits count
  | .calloc nmemb size => w.Fits (nmemb * size)
  | .realloc none count => w.Fits count
  | .realloc (some ptr) count => w.Fits count ∧ (w.held ptr).isSome
  | .dealloc ptr => (w.held ptr).isSome
  | .store address _ => ∃ ptr count, w.held ptr = some count ∧ ptr ≤ address ∧ address < ptr + count

/-! ## What `Realloc` should keep -/

/-- `Realloc(ptr,n)` of a block of `count` bytes moves its contents with it, and leaves the other blocks
alone. -/
def Tenancy.KeepsContents (w : Tenancy) (ptr count n : ℕ) : Prop :=
  ∀ p' known q, w.pool.realloc ptr n = .ok (p', known, q) → q ≠ 0 →
    (∀ i < min count n, p'.memory (q + i) = w.pool.memory (ptr + i)) ∧
    ∀ other k, other ≠ ptr → w.held other = some k →
      ∀ i < k, p'.memory (other + i) = w.pool.memory (other + i)

/-- A failing `Realloc(ptr,n)` changes nothing. -/
def Tenancy.FailsCleanly (w : Tenancy) (ptr n : ℕ) : Prop :=
  ∀ p' known, w.pool.realloc ptr n = .ok (p', known, 0) → p' = w.pool

/-- The block is the last one of the pool. -/
def Tenancy.IsLast (w : Tenancy) (ptr : ℕ) : Prop := w.pool.pLast = ptr - sizeofItem

/-- There is room for `n` more bytes. -/
def Tenancy.HasRoom (w : Tenancy) (n : ℕ) : Prop :=
  w.pool.unOffset + sizeofItem + n < w.pool.cunBufferSize

/-- Behind the place of the next header lie the bytes of the block, as it happens. -/
def Tenancy.SameBytesAbove (w : Tenancy) (ptr n : ℕ) : Prop :=
  ∀ i < n, w.pool.memory (w.pool.pBuffer + w.pool.unOffset + sizeofItem + i) = w.pool.memory (ptr + i)

end CrashInvestigator.MemoryPool
