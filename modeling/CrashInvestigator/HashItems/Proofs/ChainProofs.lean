import CrashInvestigator.HashItems.Proofs.PatchProofs

/-!
# The chains of the hash table

The chain of a bucket is the list of the entries that hash to it, the newest one first, and the list
of all items that of all entries. `Sound` says how the links agree with these lists: the chains are
linked both ways, but the `prev` of the first item of a chain may be anything that is not older, and
the links of the list of all items go one way and are not kept up to date.
-/

namespace CrashInvestigator.HashItems

open Library Library.LinkedList

variable {κ ν : Type*}

/-- The items of entries. -/
def addresses (entries : List (Entry κ ν)) : List ℕ := entries.map Entry.iterator

/-- The items of the entries in bucket `i`. -/
def chainOf [Hashable κ] (entries : List (Entry κ ν)) (i : ℕ) : List ℕ :=
  addresses (entries.filter fun e => unSize e.key = i)

/-- The invariant of the table. -/
structure Sound [BEq κ] [Hashable κ] (s : Session κ ν) : Prop where
  noFault : s.fault = none
  nodup : (addresses s.entries).Nodup
  distinct : s.entries.Pairwise fun e e' => (e.key == e'.key) = false
  holds : ∀ e ∈ s.entries, ∃ item, s.table.items e.iterator = some item ∧ item.first = e.key ∧
    item.second = e.value ∧ item.unIndex = unSize e.key
  live : ∀ a, (s.table.items a).isSome → a ∈ addresses s.entries
  noBack : ∀ a item, s.table.items a = some item → item.prevInTheList = none
  heads : ∀ i, s.table.ppItems i = (chainOf s.entries i).head?
  forward : ∀ i, Forward s.table.next (chainOf s.entries i)
  backward : ∀ i, Backward s.table.prev (chainOf s.entries i)
  first : s.table.pFirstItem = (addresses s.entries).head?
  trailing : Trailing s.table.nextInTheList (addresses s.entries)
  upward : Upward s.table.prev (addresses s.entries)

/-! ## The lists -/

section Lists

variable {entries : List (Entry κ ν)} {e : Entry κ ν} {a i : ℕ} {a_data : ν}

theorem mem_addresses : a ∈ addresses entries ↔ ∃ e ∈ entries, e.iterator = a := by
  simp [addresses]

/-- The null iterator erases nothing. -/
theorem erase_none : (entries.filter fun e => some e.iterator ≠ none) = entries :=
  List.filter_eq_self.mpr fun e _ => by simp

theorem addresses_erase :
    addresses (entries.filter fun e => some e.iterator ≠ some a) =
      (addresses entries).filter (· ≠ a) := by
  simp only [addresses, List.filter_map]
  congr 1
  refine List.filter_congr fun e _ => ?_
  simp

theorem addresses_overwrite : addresses (overwrite a a_data entries) = addresses entries := by
  simp only [addresses, overwrite, List.map_map]
  refine List.map_congr_left fun e _ => ?_
  by_cases h : e.iterator = a <;> simp [h]

theorem mem_overwrite : e ∈ overwrite a a_data entries ↔
    ∃ e' ∈ entries, e = if e'.iterator = a then { e' with value := a_data } else e' := by
  simp only [overwrite, List.mem_map, eq_comm]

variable [Hashable κ]

theorem mem_chainOf : a ∈ chainOf entries i ↔ ∃ e ∈ entries, e.iterator = a ∧ unSize e.key = i := by
  simp only [chainOf, mem_addresses, List.mem_filter, decide_eq_true_eq]
  constructor
  · rintro ⟨e, ⟨he, hi⟩, ha⟩
    exact ⟨e, he, ha, hi⟩
  · rintro ⟨e, he, ha, hi⟩
    exact ⟨e, ⟨he, hi⟩, ha⟩

theorem chainOf_sublist : (chainOf entries i).Sublist (addresses entries) :=
  (List.filter_sublist).map _

theorem chainOf_cons_self : chainOf (e :: entries) (unSize e.key) =
    e.iterator :: chainOf entries (unSize e.key) := by
  simp [chainOf, addresses]

theorem chainOf_cons_of_ne (h : i ≠ unSize e.key) :
    chainOf (e :: entries) i = chainOf entries i := by
  simp [chainOf, Ne.symm h]

theorem chainOf_erase :
    chainOf (entries.filter fun e => some e.iterator ≠ some a) i =
      (chainOf entries i).filter (· ≠ a) := by
  rw [chainOf, List.filter_filter, chainOf, ← addresses_erase, List.filter_filter]
  congr 1
  refine List.filter_congr fun e _ => ?_
  rw [Bool.and_comm]

theorem chainOf_overwrite : chainOf (overwrite a a_data entries) i = chainOf entries i := by
  have hcomm : (overwrite a a_data entries).filter (fun e => unSize e.key = i) =
      overwrite a a_data (entries.filter fun e => unSize e.key = i) := by
    unfold overwrite
    rw [List.filter_map]
    congr 1
    refine List.filter_congr fun e _ => ?_
    by_cases h : e.iterator = a <;> simp [h]
  rw [chainOf, hcomm, addresses_overwrite, chainOf]

end Lists

/-! ## What the invariant says about an item -/

section Items

variable [BEq κ] [Hashable κ] {s : Session κ ν} {a b i : ℕ} {item : Item κ ν}

theorem Sound.init : Sound (.init : Session κ ν) where
  noFault := rfl
  nodup := List.nodup_nil
  distinct := List.Pairwise.nil
  holds := fun _ he => by cases he
  live := fun _ ha => by cases ha
  noBack := fun _ _ ha => by cases ha
  heads := fun _ => rfl
  forward := fun _ => trivial
  backward := fun _ => trivial
  first := rfl
  trailing := trivial
  upward := fun _ _ hab => by cases hab

/-- An item belongs to an entry. -/
theorem Sound.entry (h : Sound s) (ha : s.table.items a = some item) :
    ∃ e ∈ s.entries, e.iterator = a ∧ item.first = e.key ∧ item.unIndex = unSize e.key := by
  obtain ⟨e, he, rfl⟩ := mem_addresses.mp (h.live a (by simp [ha]))
  obtain ⟨item', ha', hfirst, -, hindex⟩ := h.holds e he
  have hitem : item' = item := Option.some.inj (ha'.symm.trans ha)
  subst hitem
  exact ⟨e, he, rfl, hfirst, hindex⟩

theorem Sound.isSome_iff (h : Sound s) : (s.table.items a).isSome ↔ a ∈ addresses s.entries := by
  refine ⟨h.live a, fun ha => ?_⟩
  obtain ⟨e, he, rfl⟩ := mem_addresses.mp ha
  obtain ⟨_, hitem, -⟩ := h.holds e he
  simp [hitem]

theorem Sound.isSome_of_chain (h : Sound s) (ha : a ∈ chainOf s.entries i) :
    (s.table.items a).isSome :=
  h.isSome_iff.mpr (chainOf_sublist.subset ha)

/-- An item is in the chain of its bucket, and in no other. -/
theorem Sound.mem_chain (h : Sound s) (ha : s.table.items a = some item) :
    a ∈ chainOf s.entries i ↔ item.unIndex = i := by
  constructor
  · intro hmem
    obtain ⟨e, he, rfl, hi⟩ := mem_chainOf.mp hmem
    obtain ⟨item', ha', -, -, hindex⟩ := h.holds e he
    have hitem : item' = item := Option.some.inj (ha'.symm.trans ha)
    rw [← hitem, hindex, hi]
  · intro hi
    obtain ⟨e, he, hea, -, hindex⟩ := h.entry ha
    exact mem_chainOf.mpr ⟨e, he, hea, hindex.symm.trans hi⟩

theorem Sound.nodup_chain (h : Sound s) : (chainOf s.entries i).Nodup :=
  h.nodup.sublist chainOf_sublist

/-- The `next` of an item is further down its chain. -/
theorem Sound.next_mem (h : Sound s) (ha : s.table.items a = some item)
    (hb : item.next = some b) : b ∈ (chainOf s.entries item.unIndex).tail :=
  (h.forward item.unIndex).mem_tail ((h.mem_chain ha).mpr rfl)
    ((Table.next_of_some ha).trans hb)

theorem Sound.safe_next (h : Sound s) (ha : s.table.items a = some item) :
    s.table.Safe item.next :=
  fun _ hb => h.isSome_of_chain (List.mem_of_mem_tail (h.next_mem ha hb))

theorem Sound.next_ne (h : Sound s) (ha : s.table.items a = some item) : item.next ≠ some a := by
  rw [← Table.next_of_some ha]
  exact (h.forward item.unIndex).ne h.nodup_chain ((h.mem_chain ha).mpr rfl)

theorem Sound.prev_ne (h : Sound s) (ha : s.table.items a = some item) : item.prev ≠ some a := by
  intro hself
  exact (h.upward a a ((Table.prev_of_some ha).trans hself)).1 rfl

theorem Sound.safe_head (h : Sound s) : s.table.Safe (s.table.ppItems i) := by
  intro b hb
  rw [h.heads i] at hb
  exact h.isSome_of_chain (List.mem_of_mem_head? hb)

theorem Sound.safe_first (h : Sound s) : s.table.Safe s.table.pFirstItem := by
  intro b hb
  rw [h.first] at hb
  exact h.isSome_iff.mpr (List.mem_of_mem_head? hb)

end Items

end CrashInvestigator.HashItems
