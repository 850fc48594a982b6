import CrashInvestigator.HashItems.Table
import CrashInvestigator.Library.LinkedList
import CrashInvestigator.Library.Runs

/-!
# The entries of the hash table

A session of a correct client with the table, with the account of what was added and not removed
since. The account is kept from the client's calls, and the table is compared with it.
-/

namespace CrashInvestigator.HashItems

open Library

/-- What the client added: the item it got for it, the key and the current value. -/
structure Entry (κ ν : Type*) where
  iterator : ℕ
  key : κ
  value : ν

/-- A table with its client: the entries, the newest one first, and what went wrong. -/
structure Session (κ ν : Type*) where
  table : Table κ ν
  entries : List (Entry κ ν)
  fault : Option Fault

/-- The operations on a table, and the writes of its client through an iterator. -/
inductive Op (κ ν : Type*) where
  | findEntry (a_key : κ)
  | addEntryWithKnownHash (a_key : κ) (a_hash : ℕ) (a_data : ν) (pItem : Option ℕ)
  | removeEntry (a_iter : Option ℕ)
  | setSecond (a_iter : ℕ) (a_data : ν)

variable {κ ν : Type*}

def Session.init : Session κ ν := ⟨.init, [], none⟩

/-- The entry that the key denotes. -/
def Session.lookup [BEq κ] (s : Session κ ν) (a_key : κ) : Option (Entry κ ν) :=
  s.entries.find? fun e => e.key == a_key

/-- The entries after the value behind an iterator was overwritten. -/
def overwrite (a_iter : ℕ) (a_data : ν) (entries : List (Entry κ ν)) : List (Entry κ ν) :=
  entries.map fun e => if e.iterator = a_iter then { e with value := a_data } else e

/-- No loop visits more items than there are, unless it visits one of them again. -/
def step [BEq κ] [Hashable κ] (s : Session κ ν) : Op κ ν → Session κ ν
  | .findEntry a_key =>
    match s.table.findEntry (s.entries.length + 1) a_key with
    | .error f => { s with fault := some f }
    | .ok _ => s
  | .addEntryWithKnownHash a_key a_hash a_data pItem =>
    match s.table.addEntryWithKnownHash a_key a_hash a_data pItem with
    | .error f => { s with fault := some f }
    | .ok (t, none) => { s with table := t }
    | .ok (t, some pItem) => { s with table := t, entries := ⟨pItem, a_key, a_data⟩ :: s.entries }
  | .removeEntry a_iter =>
    match s.table.removeEntry a_iter with
    | .error f => { s with fault := some f }
    | .ok t =>
      { s with table := t, entries := s.entries.filter fun e => some e.iterator ≠ a_iter }
  | .setSecond a_iter a_data =>
    match s.table.assign (some a_iter) fun i => { i with second := a_data } with
    | .error f => { s with fault := some f }
    | .ok t => { s with table := t, entries := overwrite a_iter a_data s.entries }

/-- What a correct client does: it adds absent keys with their hash, and the iterators it uses are
null or those of entries. The allocator does not return the address of an item that is not freed,
but may return that of a freed one. -/
def Valid [BEq κ] [Hashable κ] (s : Session κ ν) : Op κ ν → Prop
  | .findEntry _ => True
  | .addEntryWithKnownHash a_key a_hash _ pItem =>
    a_hash = unSize a_key ∧ (∀ e ∈ s.entries, (e.key == a_key) = false) ∧
      ∀ a ∈ pItem, s.table.items a = none
  | .removeEntry a_iter => ∀ a ∈ a_iter, ∃ e ∈ s.entries, e.iterator = a
  | .setSecond a_iter _ => ∃ e ∈ s.entries, e.iterator = a_iter

instance [BEq κ] [Hashable κ] (s : Session κ ν) (op : Op κ ν) : Decidable (Valid s op) :=
  match op with
  | .findEntry _ => inferInstanceAs (Decidable True)
  | .addEntryWithKnownHash a_key a_hash _ pItem =>
    have : Decidable (∀ a ∈ pItem, s.table.items a = none) :=
      decidable_of_iff (∀ a ∈ pItem, (s.table.items a).isNone = true) (by simp)
    inferInstanceAs (Decidable (a_hash = unSize a_key ∧
      (∀ e ∈ s.entries, (e.key == a_key) = false) ∧ ∀ a ∈ pItem, s.table.items a = none))
  | .removeEntry a_iter =>
    inferInstanceAs (Decidable (∀ a ∈ a_iter, ∃ e ∈ s.entries, e.iterator = a))
  | .setSecond a_iter _ => inferInstanceAs (Decidable (∃ e ∈ s.entries, e.iterator = a_iter))

/-- The table is the map of its entries: every search ends, whatever the key, and finds the entry
that the key denotes, if there is one, and its item has the key and the value of the entry. -/
structure RefinesMap [BEq κ] [Hashable κ] (s : Session κ ν) : Prop where
  noFault : s.fault = none
  finds : ∀ a_key fuel, s.entries.length < fuel →
    s.table.findEntry fuel a_key = .ok ((s.lookup a_key).map Entry.iterator, unSize a_key)
  items : ∀ e ∈ s.entries, ∃ item,
    s.table.items e.iterator = some item ∧ item.first = e.key ∧ item.second = e.value

/-- Iteration and destruction visit the items of the entries, each of them once, and nothing else. -/
structure CoversEntries (s : Session κ ν) : Prop where
  noFault : s.fault = none
  iterates : ∃ visited : List ℕ, visited.Nodup ∧ visited.Perm (s.entries.map Entry.iterator) ∧
    ∀ fuel, s.entries.length < fuel → s.table.iterate fuel s.table.begin = .ok visited
  destroys : ∃ (t : Table κ ν) (freed : List ℕ), freed.Nodup ∧
    freed.Perm (s.entries.map Entry.iterator) ∧
    ∀ fuel, s.entries.length < fuel → s.table.destroy fuel s.table.pFirstItem = .ok (t, freed)
  items : ∀ e ∈ s.entries, ∃ item,
    s.table.items e.iterator = some item ∧ item.first = e.key ∧ item.second = e.value

/-- A removal takes the first item of all, and this item has no `prev`. -/
def RemovesFirst (s : Session κ ν) : Op κ ν → Prop
  | .removeEntry (some a) => s.table.pFirstItem = some a ∧ ∀ item ∈ s.table.items a, item.prev = none
  | _ => True

instance (s : Session κ ν) (op : Op κ ν) : Decidable (RemovesFirst s op) :=
  match op with
  | .findEntry _ => inferInstanceAs (Decidable True)
  | .addEntryWithKnownHash _ _ _ _ => inferInstanceAs (Decidable True)
  | .removeEntry none => inferInstanceAs (Decidable True)
  | .removeEntry (some a) =>
    inferInstanceAs (Decidable (s.table.pFirstItem = some a ∧
      ∀ item ∈ s.table.items a, item.prev = none))
  | .setSecond _ _ => inferInstanceAs (Decidable True)

/-- No item is linked into the chain of a bucket that is not its own. -/
def WithinBuckets (s : Session κ ν) : Prop :=
  ∀ a item b item', s.table.items a = some item → item.next = some b →
    s.table.items b = some item' → item'.unIndex = item.unIndex

/-- A removal patches nothing that it should not patch: the `nextInTheList` and the `prev` of the
removed item are null or point to items that are not freed, and the `next` of the item that `prev`
points to leads to the removed one, or is the same as the `next` of the removed one. -/
def PatchesNeighbours (s : Session κ ν) : Op κ ν → Prop
  | .removeEntry (some a) => ∀ item ∈ s.table.items a,
    (∀ b ∈ item.nextInTheList, (s.table.items b).isSome) ∧
      ∀ p ∈ item.prev, ∃ i ∈ s.table.items p, i.next = some a ∨ i.next = item.next
  | _ => True

instance (s : Session κ ν) (op : Op κ ν) : Decidable (PatchesNeighbours s op) :=
  match op with
  | .findEntry _ => inferInstanceAs (Decidable True)
  | .addEntryWithKnownHash _ _ _ _ => inferInstanceAs (Decidable True)
  | .removeEntry none => inferInstanceAs (Decidable True)
  | .removeEntry (some a) => inferInstanceAs (Decidable (∀ item ∈ s.table.items a,
    (∀ b ∈ item.nextInTheList, (s.table.items b).isSome) ∧
      ∀ p ∈ item.prev, ∃ i ∈ s.table.items p, i.next = some a ∨ i.next = item.next))
  | .setSecond _ _ => inferInstanceAs (Decidable True)

/-- `RemoveEntry` on the item at `a` comes to no freed item. -/
def RemovesAlive (s : Session κ ν) (a : ℕ) : Prop :=
  ∀ item ∈ s.table.items a, (∀ b ∈ item.prev, (s.table.items b).isSome) ∧
    ∀ b ∈ item.nextInTheList, (s.table.items b).isSome

instance (s : Session κ ν) (a : ℕ) : Decidable (RemovesAlive s a) :=
  inferInstanceAs (Decidable (∀ item ∈ s.table.items a,
    (∀ b ∈ item.prev, (s.table.items b).isSome) ∧
      ∀ b ∈ item.nextInTheList, (s.table.items b).isSome))

end CrashInvestigator.HashItems
