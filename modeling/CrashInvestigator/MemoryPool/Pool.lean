import Mathlib.Algebra.Group.Nat.Defs
import Mathlib.Data.Nat.Basic
import Mathlib.Logic.Function.Basic

/-!
# The early memory pool

`MemoryPoolBase` of `cpputilsm_memorypool.cpp`. Addresses are offsets into the buffer, `Item*` is an
offset or null, and `size_t` is computed modulo `2 ^ 64`. An `Item` is where it was written until
something else is written over it; reading one that is not there is a fault, and so are a failed
assertion and a scan that does not end.
-/

namespace CrashInvestigator.MemoryPool

/-- `sizeof(Item)`: two counts and two pointers. -/
def sizeofItem : ℕ := 32

/-- A value of `size_t`. -/
def sizeT (n : ℕ) : ℕ := n % 2 ^ 64

/-- `MemoryPoolBase::Item`. -/
structure Item where
  count : ℕ
  isInUse : Bool
  prev : Option ℕ
  next : Option ℕ
  deriving DecidableEq, Repr

/-- The members of `MemoryPoolBase` and the contents of its buffer: the items by their offsets, and
the bytes that the program and `memset` wrote. -/
structure Pool where
  cunBufferSize : ℕ
  unOffset : ℕ
  pFirst : Option ℕ
  pLast : Option ℕ
  items : ℕ → Option Item
  bytes : ℕ → UInt8

/-- What must not happen. -/
inductive Fault where
  | assertionFailed
  | noItem
  | scanDoesNotEnd
  deriving DecidableEq, Repr

/-- `Init`. The buffer holds arbitrary bytes and no item. -/
def Pool.init (unBufferSize : ℕ) (bytes : ℕ → UInt8) : Pool where
  cunBufferSize := unBufferSize
  unOffset := 0
  pFirst := none
  pLast := none
  items := fun _ => none
  bytes := bytes

/-- The items after the bytes from `start` to `stop` were written by someone else. -/
def overwrite (items : ℕ → Option Item) (start stop : ℕ) : ℕ → Option Item :=
  fun o => if o < stop ∧ start < o + sizeofItem then none else items o

namespace Pool

/-- `pItem` is linked behind `m_pLast`, or is the first one. -/
def linkLast (p : Pool) (pItem : ℕ) : Except Fault Pool :=
  match p.pLast with
  | none => .ok { p with pFirst := some pItem }
  | some last =>
    match p.items last with
    | none => .error .noItem
    | some item =>
      .ok { p with items := Function.update p.items last (some { item with next := some pItem }) }

/-- `Alloc`. -/
def alloc (p : Pool) (count : ℕ) : Except Fault (Pool × Option ℕ) :=
  let cunOverallSize := sizeT (count + sizeofItem)
  if sizeT (cunOverallSize + p.unOffset) < p.cunBufferSize then
    let pItem := p.unOffset
    match p.linkLast pItem with
    | .error f => .error f
    | .ok p₁ =>
      let item : Item := { count := count, isInUse := true, prev := p.pLast, next := none }
      let items := overwrite p₁.items pItem (pItem + sizeofItem + count)
      .ok ({ p₁ with
          items := Function.update items pItem (some item),
          pLast := some pItem,
          unOffset := sizeT (p.unOffset + cunOverallSize) }, some (pItem + sizeofItem))
  else .ok (p, none)

/-- `memset(ptr,0,count)`. -/
def memset (p : Pool) (ptr count : ℕ) : Pool :=
  { p with bytes := fun x => if ptr ≤ x ∧ x < ptr + count then 0 else p.bytes x }

/-- `Calloc`. -/
def calloc (p : Pool) (nmemb size : ℕ) : Except Fault (Pool × Option ℕ) :=
  let cunCount := sizeT (nmemb * size)
  match p.alloc cunCount with
  | .error f => .error f
  | .ok (p₁, none) => .ok (p₁, none)
  | .ok (p₁, some ptr) => .ok (p₁.memset ptr cunCount, some ptr)

/-- The pool is empty again. -/
def clear (p : Pool) : Pool := { p with unOffset := 0, pFirst := none, pLast := none }

/-- The scan of `DeallocCheckedMemory` for pending deallocations, down from `pItem`. -/
def scan (p : Pool) : ℕ → Option ℕ → ℕ → Except Fault Pool
  | 0, _, _ => .error .scanDoesNotEnd
  | _ + 1, none, unRealPtrOffset => .ok { p with unOffset := unRealPtrOffset }
  | fuel + 1, some pItem, unRealPtrOffset =>
    match p.items pItem with
    | none => .error .noItem
    | some item =>
      if item.isInUse then
        .ok { p with
          items := Function.update p.items pItem (some { item with next := none }),
          pLast := some pItem,
          unOffset := unRealPtrOffset }
      else if p.pFirst = some pItem then .ok p.clear
      else p.scan fuel item.prev pItem

/-- `DeallocCheckedMemory`. -/
def deallocCheckedMemory (p : Pool) (ptrOffset : ℕ) : Except Fault Pool :=
  let pItem := ptrOffset - sizeofItem
  match p.items pItem with
  | none => .error .noItem
  | some item =>
    let ofsetAfterAlloc := sizeT (ptrOffset + item.count)
    if ofsetAfterAlloc = p.unOffset then
      if p.pFirst = some pItem then .ok p.clear
      else p.scan p.cunBufferSize item.prev pItem
    else if ofsetAfterAlloc < p.unOffset then
      .ok { p with items := Function.update p.items pItem (some { item with isInUse := false }) }
    else .error .assertionFailed

/-- `Dealloc`. -/
def dealloc (p : Pool) (ptrOffset : ℕ) : Except Fault (Pool × Bool) :=
  if ptrOffset < p.cunBufferSize then
    if sizeofItem ≤ ptrOffset then
      match p.deallocCheckedMemory ptrOffset with
      | .error f => .error f
      | .ok p₁ => .ok (p₁, true)
    else .error .assertionFailed
  else .ok (p, false)

/-- The rest of `Realloc` for a pointer into the buffer and a positive size. -/
def reallocInBuffer (p : Pool) (ptrOffset count : ℕ) : Except Fault (Pool × Option ℕ) :=
  let pItem := ptrOffset - sizeofItem
  match p.items pItem with
  | none => .error .noItem
  | some item =>
    if count = item.count then .ok (p, some ptrOffset)
    else
      let ofsetAfterAlloc := sizeT (ptrOffset + item.count)
      if ofsetAfterAlloc = p.unOffset then
        let cunNewOffset := sizeT (ofsetAfterAlloc + count + (2 ^ 64 - item.count))
        if cunNewOffset < p.cunBufferSize then
          let items := overwrite p.items ptrOffset (ptrOffset + count)
          .ok ({ p with
              unOffset := cunNewOffset,
              items := Function.update items pItem (some { item with count := count }) },
            some ptrOffset)
        else .ok (p, none)
      else if ofsetAfterAlloc < p.unOffset then
        match p.deallocCheckedMemory ptrOffset with
        | .error f => .error f
        | .ok p₁ => p₁.alloc count
      else .error .assertionFailed

/-- `Realloc`: the returned truth value, and what is stored through `a_ppRet`. -/
def realloc (p : Pool) (ptr : Option ℕ) (count : ℕ) : Except Fault (Pool × Bool × Option ℕ) :=
  match ptr with
  | some ptrOffset =>
    if ptrOffset < p.cunBufferSize then
      if sizeofItem ≤ ptrOffset then
        if count = 0 then
          match p.deallocCheckedMemory ptrOffset with
          | .error f => .error f
          | .ok p₁ => .ok (p₁, true, none)
        else
          match p.reallocInBuffer ptrOffset count with
          | .error f => .error f
          | .ok (p₁, ret) => .ok (p₁, true, ret)
      else .error .assertionFailed
    else .ok (p, false, none)
  | none =>
    match p.alloc count with
    | .error f => .error f
    | .ok (p₁, ret) => .ok (p₁, true, ret)

/-- The program writes a byte. -/
def store (p : Pool) (offset : ℕ) (value : UInt8) : Pool :=
  { p with
    bytes := Function.update p.bytes offset value,
    items := overwrite p.items offset (offset + 1) }

end Pool

/-- The operations on a pool, and the writes of the program to its buffer. -/
inductive Op where
  | alloc (count : ℕ)
  | calloc (nmemb size : ℕ)
  | realloc (ptr : Option ℕ) (count : ℕ)
  | dealloc (ptr : ℕ)
  | store (offset : ℕ) (value : UInt8)
  deriving DecidableEq

/-- The pool after an operation and the pointer it answers with. -/
def perform (p : Pool) : Op → Except Fault (Pool × Option ℕ)
  | .alloc count => p.alloc count
  | .calloc nmemb size => p.calloc nmemb size
  | .realloc ptr count => (p.realloc ptr count).map fun r => (r.1, r.2.2)
  | .dealloc ptr => (p.dealloc ptr).map fun r => (r.1, none)
  | .store offset value => .ok (p.store offset value, none)

end CrashInvestigator.MemoryPool
