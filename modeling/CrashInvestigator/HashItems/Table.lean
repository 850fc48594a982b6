import Mathlib.Data.Nat.Basic
import Mathlib.Logic.Function.Basic

/-!
# The hash table of intrusively linked items

`HashItemsByPtr` of `hashitemsbyptr.hpp`. `Item*` is an address or null, and the memory holds the
`Item`s that are allocated and not freed; reading or writing one at another address is a fault. The
hash and the equality are those of the key type, and an iterator is its `m_pItem`.
-/

namespace CrashInvestigator.HashItems

/-- `CPPUTILSM_HASH_SIZE`. -/
def cpputilsmHashSize : ℕ := 4096

/-- `HashItemsByPtr::Item`. -/
structure Item (κ ν : Type*) where
  first : κ
  second : ν
  unIndex : ℕ
  prev : Option ℕ
  next : Option ℕ
  prevInTheList : Option ℕ
  nextInTheList : Option ℕ
  deriving DecidableEq

/-- The members of `HashItemsByPtr` and the items in memory. -/
structure Table (κ ν : Type*) where
  items : ℕ → Option (Item κ ν)
  ppItems : ℕ → Option ℕ
  pFirstItem : Option ℕ

/-- What must not happen. -/
inductive Fault where
  | useAfterFree
  | outOfTable
  | walkDoesNotEnd
  deriving DecidableEq, Repr

/-- The bucket of a key. -/
def unSize {κ : Type*} [Hashable κ] (a_key : κ) : ℕ := (hash a_key).toNat % cpputilsmHashSize

namespace Table

variable {κ ν : Type*}

/-- The constructor. -/
def init : Table κ ν where
  items := fun _ => none
  ppItems := fun _ => none
  pFirstItem := none

/-- What a pointer to an item points to. -/
def read (t : Table κ ν) (ptr : ℕ) : Except Fault (Item κ ν) :=
  match t.items ptr with
  | none => .error .useAfterFree
  | some item => .ok item

/-- `if(ptr){ptr->field = value;}`. -/
def assign (t : Table κ ν) (ptr : Option ℕ) (field : Item κ ν → Item κ ν) :
    Except Fault (Table κ ν) :=
  match ptr with
  | none => .ok t
  | some a =>
    match t.items a with
    | none => .error .useAfterFree
    | some item => .ok { t with items := Function.update t.items a (some (field item)) }

/-- The first list of `AddEntryWithKnownHash`, the chain of the bucket. -/
def linkIntoBucket (t : Table κ ν) (pItem a_hash : ℕ) : Except Fault (Table κ ν) := do
  let t₁ ← t.assign (t.ppItems a_hash) fun i => { i with prev := some pItem }
  .ok { t₁ with ppItems := Function.update t₁.ppItems a_hash (some pItem) }

/-- The second one, the list of all items. The source writes `prev` here, not `prevInTheList`. -/
def linkIntoTheList (t : Table κ ν) (pItem : ℕ) : Except Fault (Table κ ν) := do
  let t₁ ← t.assign t.pFirstItem fun i => { i with prev := some pItem }
  .ok { t₁ with pFirstItem := some pItem }

/-- What `AddEntryWithKnownHash` writes to the new item itself. -/
def newItem (t : Table κ ν) (a_key : κ) (a_hash : ℕ) (a_data : ν) : Item κ ν where
  first := a_key
  second := a_data
  unIndex := a_hash
  prev := none
  next := t.ppItems a_hash
  prevInTheList := none
  nextInTheList := t.pFirstItem

/-- `AddEntryWithKnownHash`, where `pItem` is what `allocFn` returns. Null throws `bad_alloc`;
otherwise the answer is the new item. Its members do not depend on the writes to other items in
between, so they are written first. -/
def addEntryWithKnownHash (t : Table κ ν) (a_key : κ) (a_hash : ℕ) (a_data : ν) :
    Option ℕ → Except Fault (Table κ ν × Option ℕ)
  | none => .ok (t, none)
  | some pItem =>
    if a_hash < cpputilsmHashSize then do
      let item := t.newItem a_key a_hash a_data
      let t₁ : Table κ ν := { t with items := Function.update t.items pItem (some item) }
      let t₂ ← t₁.linkIntoBucket pItem a_hash
      let t₃ ← t₂.linkIntoTheList pItem
      .ok (t₃, some pItem)
    else .error .outOfTable

/-- The first three patches of `RemoveEntry`. The item is read again for each of them. -/
def unlinkFromBucket (t : Table κ ν) (pItem : ℕ) : Except Fault (Table κ ν) := do
  let i ← t.read pItem
  let t₁ ← t.assign i.next fun j => { j with prev := i.prev }
  let i ← t₁.read pItem
  let t₂ ← t₁.assign i.prev fun j => { j with next := i.next }
  let i ← t₂.read pItem
  if t₂.ppItems i.unIndex = some pItem then
    .ok { t₂ with ppItems := Function.update t₂.ppItems i.unIndex i.next }
  else .ok t₂

/-- The next three. -/
def unlinkFromTheList (t : Table κ ν) (pItem : ℕ) : Except Fault (Table κ ν) := do
  let i ← t.read pItem
  let t₁ ← t.assign i.nextInTheList fun j => { j with prevInTheList := i.prevInTheList }
  let i ← t₁.read pItem
  let t₂ ← t₁.assign i.prevInTheList fun j => { j with nextInTheList := i.nextInTheList }
  let i ← t₂.read pItem
  if t₂.pFirstItem = some pItem then .ok { t₂ with pFirstItem := i.nextInTheList }
  else .ok t₂

/-- `RemoveEntry`. -/
def removeEntry (t : Table κ ν) : Option ℕ → Except Fault (Table κ ν)
  | none => .ok t
  | some pItem => do
    let t₁ ← t.unlinkFromBucket pItem
    let t₂ ← t₁.unlinkFromTheList pItem
    .ok { t₂ with items := Function.update t₂.items pItem none }

/-- `begin`. -/
def begin (t : Table κ ν) : Option ℕ := t.pFirstItem

/-- `iterator::operator++`. -/
def increment (t : Table κ ν) (pItem : ℕ) : Except Fault (Option ℕ) :=
  (t.read pItem).map Item.nextInTheList

/-- The items that a loop from an iterator to `s_endIter` visits, in its order. -/
def iterate (t : Table κ ν) : ℕ → Option ℕ → Except Fault (List ℕ)
  | 0, _ => .error .walkDoesNotEnd
  | _ + 1, none => .ok []
  | fuel + 1, some pItem => do
    let next ← t.increment pItem
    let visited ← t.iterate fuel next
    .ok (pItem :: visited)

/-- The loop of the destructor from `pItem`: what it leaves, and the items it frees in its order. -/
def destroy (t : Table κ ν) : ℕ → Option ℕ → Except Fault (Table κ ν × List ℕ)
  | 0, _ => .error .walkDoesNotEnd
  | _ + 1, none => .ok (t, [])
  | fuel + 1, some pItem => do
    let i ← t.read pItem
    let r ← destroy { t with items := Function.update t.items pItem none } fuel i.nextInTheList
    .ok (r.1, pItem :: r.2)

section Find

variable [BEq κ] [Hashable κ]

/-- The loop of `FindEntryRaw` from `pItem`. -/
def walk (t : Table κ ν) (a_key : κ) : ℕ → Option ℕ → Except Fault (Option ℕ)
  | 0, _ => .error .walkDoesNotEnd
  | _ + 1, none => .ok none
  | fuel + 1, some pItem =>
    match t.items pItem with
    | none => .error .useAfterFree
    | some item => if item.first == a_key then .ok (some pItem) else t.walk a_key fuel item.next

/-- `FindEntryRaw`: the item, and what is stored through `a_punSize`. -/
def findEntryRaw (t : Table κ ν) (fuel : ℕ) (a_key : κ) : Except Fault (Option ℕ × ℕ) :=
  match t.walk a_key fuel (t.ppItems (unSize a_key)) with
  | .error f => .error f
  | .ok pItem => .ok (pItem, unSize a_key)

/-- `FindEntry`. -/
def findEntry (t : Table κ ν) (fuel : ℕ) (a_key : κ) : Except Fault (Option ℕ × ℕ) :=
  t.findEntryRaw fuel a_key

end Find

end Table

end CrashInvestigator.HashItems
