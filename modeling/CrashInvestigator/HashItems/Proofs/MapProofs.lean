import CrashInvestigator.HashItems.Proofs.OperationProofs
import Mathlib.Data.List.Find
import Mathlib.Data.List.Pairwise

/-!
# The hash table as a map

A table whose chains are sound is the map of its entries. A removal keeps the chains sound exactly
when it patches its neighbours only; one that does not touches a freed item, loses a key, or links
an item into the chain of another bucket.
-/

namespace CrashInvestigator.HashItems

open Library Library.LinkedList

variable {κ ν : Type*} [BEq κ] {a_key : κ}

/-! ## Searching -/

/-- The test of `FindEntryRaw` on the item at an address. -/
def Table.matches (t : Table κ ν) (a_key : κ) (a : ℕ) : Bool :=
  (t.items a).any fun item => item.first == a_key

/-- The loop goes down the linked list and stops at the first item with the key. -/
theorem walk_forward {t : Table κ ν} {l : List ℕ} {fuel : ℕ} (hf : Forward t.next l)
    (hlive : ∀ c ∈ l, (t.items c).isSome) (hfuel : l.length < fuel) :
    t.walk a_key fuel l.head? = .ok (l.find? (t.matches a_key)) := by
  induction l generalizing fuel with
  | nil =>
    cases fuel with
    | zero => cases hfuel
    | succ fuel => rfl
  | cons a l ih =>
    cases fuel with
    | zero => cases hfuel
    | succ fuel =>
      obtain ⟨item, hitem⟩ := Option.isSome_iff_exists.mp (hlive a (List.mem_cons_self ..))
      have hnext : item.next = l.head? := (Table.next_of_some hitem).symm.trans hf.1
      have hrest := ih hf.2 (fun c hc => hlive c (List.mem_cons_of_mem _ hc))
        (Nat.lt_of_succ_lt_succ hfuel)
      simp only [List.head?_cons, Table.walk, hitem, hnext, hrest, List.find?_cons, Table.matches,
        Option.any_some]
      cases item.first == a_key <;> rfl

theorem Table.matches_removed_of_ne {t : Table κ ν} {a c : ℕ} (item : Item κ ν) (hc : c ≠ a) :
    (t.removed a item).matches a_key c = t.matches a_key c := by
  cases hi : t.items c <;> simp [Table.matches, Table.removed, Table.unchained, hc, hi]

variable [Hashable κ] {s : Session κ ν} {e e' : Entry κ ν} {a : ℕ}

/-- Keys that are equal are in the same bucket. -/
theorem unSize_congr [LawfulHashable κ] {k k' : κ} (h : (k == k') = true) :
    unSize k = unSize k' := by
  unfold unSize
  rw [LawfulHashable.hash_eq k k' h]

theorem Sound.matches_iterator (h : Sound s) (he : e ∈ s.entries) :
    s.table.matches a_key e.iterator = (e.key == a_key) := by
  obtain ⟨item, hitem, hfirst, -⟩ := h.holds e he
  simp [Table.matches, hitem, hfirst]

/-- The search in the chain of a bucket finds what the search among all entries finds. -/
theorem Sound.find_chain [LawfulHashable κ] (h : Sound s) :
    (chainOf s.entries (unSize a_key)).find? (s.table.matches a_key) =
      (s.lookup a_key).map Entry.iterator := by
  rw [chainOf, addresses, List.find?_map, List.find?_filter]
  congr 1
  refine List.find?_congr fun e he => ?_
  rw [Function.comp_apply, h.matches_iterator he]
  cases hk : e.key == a_key with
  | false => simp
  | true => simp [unSize_congr hk]

theorem Sound.refinesMap [LawfulHashable κ] (h : Sound s) : RefinesMap s := by
  refine ⟨h.noFault, fun a_key fuel hfuel => ?_, fun e he => ?_⟩
  · have hlength : (chainOf s.entries (unSize a_key)).length ≤ s.entries.length := by
      have hle : (chainOf s.entries (unSize a_key)).length ≤ (addresses s.entries).length :=
        chainOf_sublist.length_le
      simpa [addresses] using hle
    unfold Table.findEntry Table.findEntryRaw
    rw [h.heads, walk_forward (h.forward _) (fun c => h.isSome_of_chain) (by omega), h.find_chain]
  · obtain ⟨item, hitem, hfirst, hsecond, -⟩ := h.holds e he
    exact ⟨item, hitem, hfirst, hsecond⟩

theorem Sound.withinBuckets (h : Sound s) : WithinBuckets s := by
  intro a item b item' ha hab hb
  exact (h.mem_chain hb).mp (List.mem_of_mem_tail (h.next_mem ha hab))

/-! ## Steps that keep the chains -/

/-- A removal that patches its neighbours only touches no freed item. -/
theorem Sound.removeEntry_ok (h : Sound s) (hvalid : Valid s (.removeEntry (some a)))
    (hC : PatchesNeighbours s (.removeEntry (some a))) :
    ∃ item, s.table.items a = some item ∧
      s.table.removeEntry (some a) = .ok (s.table.removed a item) := by
  obtain ⟨e, he, rfl⟩ := hvalid a rfl
  obtain ⟨item, ha, -⟩ := h.holds e he
  obtain ⟨hlist, hprev⟩ := hC item ha
  have hsafe : s.table.Safe item.prev := by
    intro p hp
    obtain ⟨j, hj, -⟩ := hprev p hp
    exact Option.isSome_iff_exists.mpr ⟨j, hj⟩
  exact ⟨item, ha, Table.removeEntry_eq ha (h.next_ne ha) (h.prev_ne ha) h.noBack (h.safe_next ha)
    hsafe hlist⟩

/-- A removal fails exactly when it comes to a freed item. -/
theorem Sound.removeEntry_ok_iff (h : Sound s) (he : e ∈ s.entries) :
    (∃ t, s.table.removeEntry (some e.iterator) = .ok t) ↔ RemovesAlive s e.iterator := by
  obtain ⟨item, ha, -⟩ := h.holds e he
  have halive : RemovesAlive s e.iterator ↔
      s.table.Safe item.prev ∧ s.table.Safe item.nextInTheList := by
    constructor
    · exact fun h => h item ha
    · intro h item' ha'
      obtain rfl : item = item' := Option.some.inj (ha.symm.trans ha')
      exact h
  rw [halive]
  constructor
  · rintro ⟨t, hok⟩
    by_contra hno
    have herror := Table.removeEntry_error ha (h.next_ne ha) (h.prev_ne ha) fun hsafe => hno hsafe.2
    rw [hok] at herror
    cases herror
  · rintro ⟨hprev, hlist⟩
    exact ⟨_, Table.removeEntry_eq ha (h.next_ne ha) (h.prev_ne ha) h.noBack (h.safe_next ha) hprev
      hlist⟩

/-- The item that was added last can be removed. -/
theorem Sound.removesAlive_linked (h : Sound s) (a i : ℕ)
    (entries : List (Entry κ ν)) (a_data : ν) :
    RemovesAlive { s with
      table := s.table.linked a (s.table.newItem a_key i a_data), entries := entries } a := by
  intro item ha
  have hitem : s.table.newItem a_key i a_data = item := by simpa [Table.linked] using ha
  rw [← hitem]
  refine ⟨fun b hb => (by cases hb), fun b hb => ?_⟩
  have hsome := h.safe_first b hb
  by_cases hba : b = a
  · simp [Table.linked, hba]
  · simpa [Table.linked, hba] using hsome

/-! ### What a step does -/

theorem Sound.step_findEntry [LawfulHashable κ] (h : Sound s) :
    HashItems.step s (.findEntry a_key) = s := by
  have hfind := h.refinesMap.finds a_key (s.entries.length + 1) (Nat.lt_succ_self _)
  unfold HashItems.step
  simp only [hfind]

theorem Sound.step_addEntryWithKnownHash (h : Sound s) {a_data : ν}
    (hfree : s.table.items a = none) :
    HashItems.step s (.addEntryWithKnownHash a_key (unSize a_key) a_data (some a)) = { s with
      table := s.table.linked a (s.table.newItem a_key (unSize a_key) a_data),
      entries := ⟨a, a_key, a_data⟩ :: s.entries } := by
  have hhash : unSize a_key < cpputilsmHashSize := Nat.mod_lt _ (by decide)
  have hadd := Table.addEntryWithKnownHash_eq a_key a_data hhash hfree h.safe_head h.safe_first
  unfold HashItems.step
  simp only [hadd]

theorem step_removeEntry_none : HashItems.step s (.removeEntry none) = s := by
  unfold HashItems.step
  simp only [Table.removeEntry, erase_none]

theorem Sound.step_removeEntry (h : Sound s) (hvalid : Valid s (.removeEntry (some a)))
    (hC : PatchesNeighbours s (.removeEntry (some a))) :
    ∃ item, s.table.items a = some item ∧ HashItems.step s (.removeEntry (some a)) = { s with
      table := s.table.removed a item,
      entries := s.entries.filter fun e => some e.iterator ≠ some a } := by
  obtain ⟨item, ha, hok⟩ := h.removeEntry_ok hvalid hC
  refine ⟨item, ha, ?_⟩
  unfold HashItems.step
  simp only [hok]

theorem Sound.step_setSecond (h : Sound s) {a_data : ν} (hvalid : Valid s (.setSecond a a_data)) :
    HashItems.step s (.setSecond a a_data) = { s with
      table := s.table.assigned (some a) fun i => { i with second := a_data },
      entries := overwrite a a_data s.entries } := by
  obtain ⟨e, he, rfl⟩ := hvalid
  obtain ⟨item, ha, -⟩ := h.holds e he
  have hsafe : s.table.Safe (some e.iterator) := by
    intro c hc
    cases hc
    simp [ha]
  have hok := Table.assign_of_safe hsafe fun i => { i with second := a_data }
  unfold HashItems.step
  simp only [hok]

/-- A step that patches its neighbours only keeps the chains. -/
theorem Sound.step [PartialEquivBEq κ] [LawfulHashable κ] {op : Op κ ν} (h : Sound s) (hvalid : Valid s op)
    (hC : PatchesNeighbours s op) : Sound (HashItems.step s op) := by
  cases op with
  | findEntry a_key =>
    rw [h.step_findEntry]
    exact h
  | addEntryWithKnownHash a_key a_hash a_data pItem =>
    obtain ⟨rfl, habsent, hfree⟩ := hvalid
    cases pItem with
    | none => exact h
    | some a =>
      rw [h.step_addEntryWithKnownHash (hfree a rfl)]
      refine h.linked (e := ⟨a, a_key, a_data⟩) (hfree a rfl) fun e' he' => ?_
      rw [BEq.comm]
      exact habsent e' he'
  | removeEntry a_iter =>
    cases a_iter with
    | none =>
      rw [step_removeEntry_none]
      exact h
    | some a =>
      obtain ⟨item, ha, hstep⟩ := h.step_removeEntry hvalid hC
      obtain ⟨hlist, hprev⟩ := hC item ha
      rw [hstep]
      exact h.removed ha hlist hprev
  | setSecond a a_data =>
    rw [h.step_setSecond hvalid]
    exact h.setSecond

/-! ## Removals that patch something else -/

section Foreign

variable {item i : Item κ ν} {p y : ℕ} {l₁ l₂ rest : List ℕ}

/-- Two entries with different items have different keys. -/
theorem Sound.key_ne [EquivBEq κ] (h : Sound s) (he : e ∈ s.entries) (he' : e' ∈ s.entries)
    (hne : e.iterator ≠ e'.iterator) : (e.key == e'.key) = false := by
  have hsymm : Std.Symm fun e e' : Entry κ ν => (e.key == e'.key) = false :=
    ⟨fun e e' hee' => by rw [BEq.comm]; exact hee'⟩
  exact h.distinct.forall he he' fun hee' => hne (congrArg Entry.iterator hee')

/-- An item whose `prev` does not lead back to it is the first one of its chain. -/
theorem Sound.head_of_foreign (h : Sound s) (ha : s.table.items a = some item)
    (hp : item.prev = some p) (hback : s.table.next p ≠ some a) :
    (chainOf s.entries item.unIndex).head? = some a := by
  have hmem := (h.mem_chain ha).mpr rfl
  cases hl : chainOf s.entries item.unIndex with
  | nil =>
    rw [hl] at hmem
    cases hmem
  | cons x xs =>
    rw [hl] at hmem
    rcases List.mem_cons.mp hmem with rfl | htail
    · rfl
    · have hf := h.forward item.unIndex
      have hb := h.backward item.unIndex
      rw [hl] at hf hb
      obtain ⟨q, -, hqa, haq⟩ := hf.exists_prev hb htail
      have hqp : q = p := Option.some.inj ((haq.symm.trans (Table.prev_of_some ha)).trans hp)
      exact absurd (hqp ▸ hqa) hback

/-- Such a `prev` is in the chain of another bucket. -/
theorem Sound.unIndex_ne_of_foreign (h : Sound s) (ha : s.table.items a = some item)
    (hp : item.prev = some p) (hi : s.table.items p = some i) (hback : i.next ≠ some a) :
    i.unIndex ≠ item.unIndex := by
  intro hsame
  have hback' : s.table.next p ≠ some a := by rwa [Table.next_of_some hi]
  have hhead := h.head_of_foreign ha hp hback'
  have hpmem := (h.mem_chain hi).mpr hsame
  obtain ⟨hap, hnot⟩ := h.upward a p ((Table.prev_of_some ha).trans hp)
  cases hl : chainOf s.entries item.unIndex with
  | nil =>
    rw [hl] at hpmem
    cases hpmem
  | cons x xs =>
    rw [hl] at hhead hpmem
    cases hhead
    have hpxs := (List.mem_cons.mp hpmem).resolve_left (Ne.symm hap)
    have hsub : [a, p].Sublist (chainOf s.entries item.unIndex) := by
      rw [hl]
      exact (List.singleton_sublist.mpr hpxs).cons_cons _
    exact hnot (hsub.trans chainOf_sublist)

/-- The loop over the chain that the foreign `prev` is in goes on in the chain of the removed
item. -/
theorem Sound.detour (h : Sound s) (ha : s.table.items a = some item) (hp : item.prev = some p)
    (hi : s.table.items p = some i) (hbucket : i.unIndex ≠ item.unIndex)
    (hl : chainOf s.entries i.unIndex = l₁ ++ p :: l₂)
    (hrest : chainOf s.entries item.unIndex = a :: rest) :
    Forward (s.table.removed a item).next (l₁ ++ p :: rest) ∧
      (s.table.removed a item).ppItems i.unIndex = (l₁ ++ p :: rest).head? := by
  have hown : ∀ c ∈ chainOf s.entries i.unIndex, c ≠ a := by
    rintro c hc rfl
    exact hbucket ((h.mem_chain ha).mp hc).symm
  have hf := h.forward i.unIndex
  have hnd := h.nodup_chain (i := i.unIndex)
  have hf' := h.forward item.unIndex
  have hnd' := h.nodup_chain (i := item.unIndex)
  rw [hl] at hf hnd hown
  rw [hrest] at hf' hnd'
  constructor
  · refine hf.redirect (fun c hc => ?_) ?_ (hf'.2.congr fun c hc => ?_)
    · have hcmem : c ∈ chainOf s.entries i.unIndex := by simp [hl, hc]
      have hcp : item.prev ≠ some c := by
        rw [hp]
        intro hpc
        obtain rfl : p = c := Option.some.inj hpc
        exact (List.nodup_append.mp hnd).2.2 p hc p (List.mem_cons_self ..) rfl
      rw [Table.next_removed_of_ne (hown c (List.mem_append_left _ hc))
        (h.isSome_of_chain hcmem), if_neg hcp]
    · rw [Table.next_removed_of_ne (hown p (by simp)) (by simp [hi]), if_pos hp,
        ← Table.next_of_some ha, hf'.1]
    · have hcmem : c ∈ chainOf s.entries item.unIndex := by simp [hrest, hc]
      have hca : c ≠ a := fun hca => (List.nodup_cons.mp hnd').1 (hca ▸ hc)
      have hcp : item.prev ≠ some c := by
        rw [hp]
        intro hpc
        obtain rfl : p = c := Option.some.inj hpc
        exact hbucket ((h.mem_chain hi).mp hcmem)
      rw [Table.next_removed_of_ne hca (h.isSome_of_chain hcmem), if_neg hcp]
  · have hhead : s.table.ppItems i.unIndex = (l₁ ++ p :: rest).head? := by
      rw [h.heads, hl]
      cases l₁ <;> rfl
    rw [← hhead]
    by_cases hfirst : s.table.ppItems item.unIndex = some a <;>
      simp [Table.removed, Table.unchained, hfirst, hbucket]

/-- What this loop visits is still there, and the item that was cut off is not visited. -/
theorem Sound.detour_visits (h : Sound s) (ha : s.table.items a = some item)
    (hi : s.table.items p = some i) (hbucket : i.unIndex ≠ item.unIndex)
    (hl : chainOf s.entries i.unIndex = l₁ ++ p :: y :: l₂)
    (hrest : chainOf s.entries item.unIndex = a :: rest) {c : ℕ} (hc : c ∈ l₁ ++ p :: rest) :
    c ∈ addresses s.entries ∧ c ≠ a ∧ c ≠ y := by
  have hapart : ∀ c, c ∈ chainOf s.entries item.unIndex → c ∉ chainOf s.entries i.unIndex := by
    intro c hc hci
    obtain ⟨j, hj⟩ := Option.isSome_iff_exists.mp (h.isSome_of_chain hc)
    exact hbucket (((h.mem_chain hj).mp hci).symm.trans ((h.mem_chain hj).mp hc))
  have hamem := (h.mem_chain ha).mpr rfl
  have hnd := h.nodup_chain (i := i.unIndex)
  rw [hl] at hnd
  have hymem : y ∈ chainOf s.entries i.unIndex := by simp [hl]
  have hown : ∀ c ∈ chainOf s.entries i.unIndex, c ≠ y →
      c ∈ addresses s.entries ∧ c ≠ a ∧ c ≠ y := by
    intro c hc hcy
    refine ⟨chainOf_sublist.subset hc, ?_, hcy⟩
    rintro rfl
    exact hapart c hamem hc
  rcases List.mem_append.mp hc with hc | hc
  · refine hown c (by simp [hl, hc]) ?_
    exact (List.nodup_append.mp hnd).2.2 c hc y (by simp)
  · rcases List.mem_cons.mp hc with rfl | hc
    · refine hown c (by simp [hl]) ?_
      rintro rfl
      exact (List.nodup_cons.mp (List.nodup_append.mp hnd).2.1).1 (List.mem_cons_self ..)
    · have hcmem : c ∈ chainOf s.entries item.unIndex := by simp [hrest, hc]
      refine ⟨chainOf_sublist.subset hcmem, ?_, ?_⟩
      · rintro rfl
        have hnd' := h.nodup_chain (i := item.unIndex)
        rw [hrest] at hnd'
        exact (List.nodup_cons.mp hnd').1 hc
      · rintro rfl
        exact hapart c hcmem hymem

/-- The item behind the one that the foreign `prev` led to is cut off, and its key is lost. -/
theorem Sound.lost [EquivBEq κ] [LawfulHashable κ] (h : Sound s)
    (ha : s.table.items a = some item) (hp : item.prev = some p) (hi : s.table.items p = some i)
    (hback : i.next ≠ some a) (hy : i.next = some y) :
    ∃ e ∈ s.entries, e.iterator ≠ a ∧ ∃ n, ∀ fuel, n < fuel →
      (s.table.removed a item).findEntry fuel e.key = .ok (none, unSize e.key) := by
  have hbucket := h.unIndex_ne_of_foreign ha hp hi hback
  obtain ⟨l₁, l₂, hl⟩ := (h.forward i.unIndex).split ((h.mem_chain hi).mpr rfl)
    ((Table.next_of_some hi).trans hy)
  have hhead := h.head_of_foreign ha hp (by rwa [Table.next_of_some hi])
  obtain ⟨rest, hrest⟩ := List.head?_eq_some_iff.mp hhead
  obtain ⟨hforward, hppItems⟩ := h.detour ha hp hi hbucket hl hrest
  obtain ⟨e, he, rfl, hindex⟩ := mem_chainOf.mp (by simp [hl] : y ∈ chainOf s.entries i.unIndex)
  have hlive : ∀ c ∈ l₁ ++ p :: rest, ((s.table.removed a item).items c).isSome := by
    intro c hc
    obtain ⟨hmem, hca, -⟩ := h.detour_visits ha hi hbucket hl hrest hc
    exact Table.isSome_removed.mpr ⟨hca, h.isSome_iff.mpr hmem⟩
  have hfind : (l₁ ++ p :: rest).find? ((s.table.removed a item).matches e.key) = none := by
    rw [List.find?_eq_none]
    intro c hc
    obtain ⟨hmem, hca, hce⟩ := h.detour_visits ha hi hbucket hl hrest hc
    obtain ⟨e', he', rfl⟩ := mem_addresses.mp hmem
    rw [Table.matches_removed_of_ne item hca, h.matches_iterator he', h.key_ne he' he hce]
    exact Bool.false_ne_true
  refine ⟨e, he, ?_, (l₁ ++ p :: rest).length, fun fuel hfuel => ?_⟩
  · rintro rfl
    exact hbucket ((h.mem_chain ha).mp (by simp [hl])).symm
  · unfold Table.findEntry Table.findEntryRaw
    rw [hindex, hppItems, walk_forward hforward hlive hfuel, hfind]

/-- The chain of the foreign `prev` gets the rest of the chain of the removed item. -/
theorem Sound.crossed (h : Sound s) (ha : s.table.items a = some item) (hp : item.prev = some p)
    (hi : s.table.items p = some i) (hback : i.next ≠ some a) (hy : item.next = some y) :
    ∃ j j', (s.table.removed a item).items p = some j ∧ j.next = some y ∧
      (s.table.removed a item).items y = some j' ∧ j'.unIndex ≠ j.unIndex := by
  have hbucket := h.unIndex_ne_of_foreign ha hp hi hback
  have hpa : p ≠ a := by
    rintro rfl
    exact h.prev_ne ha hp
  have hya : y ≠ a := by
    rintro rfl
    exact h.next_ne ha hy
  obtain ⟨iy, hiy⟩ := Option.isSome_iff_exists.mp (h.safe_next ha y hy)
  obtain ⟨j, hj, -, -, hindex⟩ := Table.items_removed_of_ne item hpa hi
  obtain ⟨j', hj', -, -, hindex'⟩ := Table.items_removed_of_ne item hya hiy
  refine ⟨j, j', hj, ?_, hj', ?_⟩
  · rw [← Table.next_of_some hj, Table.next_removed_of_ne hpa (by simp [hi]), if_pos hp, hy]
  · rw [hindex, hindex', h.withinBuckets a item y iy ha hy hiy]
    exact Ne.symm hbucket

end Foreign

/-- A removal that patches something else fails, loses a key, or links two chains. -/
theorem Sound.foreign [EquivBEq κ] [LawfulHashable κ] {op : Op κ ν} (h : Sound s)
    (hvalid : Valid s op) (hC : ¬ PatchesNeighbours s op) :
    ¬ (RefinesMap (HashItems.step s op) ∧ WithinBuckets (HashItems.step s op)) := by
  rintro ⟨hmap, hown⟩
  cases op with
  | findEntry a_key => exact hC trivial
  | addEntryWithKnownHash a_key a_hash a_data pItem => exact hC trivial
  | setSecond a a_data => exact hC trivial
  | removeEntry a_iter =>
    cases a_iter with
    | none => exact hC trivial
    | some a =>
      obtain ⟨e, he, rfl⟩ := hvalid a rfl
      obtain ⟨item, ha, -⟩ := h.holds e he
      set a := e.iterator
      by_cases hsafe : s.table.Safe item.next ∧ s.table.Safe item.prev ∧
          s.table.Safe item.nextInTheList
      · obtain ⟨hnext, hprev, hlist⟩ := hsafe
        have hok := Table.removeEntry_eq ha (h.next_ne ha) (h.prev_ne ha) h.noBack hnext hprev hlist
        have hforeign : ∃ p i, item.prev = some p ∧ s.table.items p = some i ∧
            i.next ≠ some a ∧ i.next ≠ item.next := by
          by_contra hnone
          refine hC fun item' ha' => ?_
          obtain rfl : item = item' := Option.some.inj (ha.symm.trans ha')
          refine ⟨hlist, fun p hp => ?_⟩
          obtain ⟨i, hi⟩ := Option.isSome_iff_exists.mp (hprev p hp)
          refine ⟨i, hi, ?_⟩
          by_contra hne
          exact hnone ⟨p, i, hp, hi, fun hb => hne (Or.inl hb), fun hs => hne (Or.inr hs)⟩
        obtain ⟨p, i, hp, hi, hback, hsame⟩ := hforeign
        unfold HashItems.step at hmap hown
        simp only [hok] at hmap hown
        cases hy : i.next with
        | some y =>
          obtain ⟨ey, hey, hne, n, hlost⟩ := h.lost ha hp hi hback hy
          set entries := s.entries.filter fun e => some e.iterator ≠ some a with hentries
          have hfind := hmap.finds ey.key (entries.length + n + 1) (by simp only; omega)
          rw [hlost _ (by omega)] at hfind
          have hpair := Except.ok.inj hfind
          have hnone : entries.find? (fun e => e.key == ey.key) = none :=
            Option.map_eq_none_iff.mp (congrArg Prod.fst hpair).symm
          rw [List.find?_eq_none] at hnone
          exact hnone ey (List.mem_filter.mpr ⟨hey, by simpa using hne⟩) BEq.rfl
        | none =>
          cases hz : item.next with
          | none => exact hsame (hy.trans hz.symm)
          | some z =>
            obtain ⟨j, j', hj, hjz, hj', hindex⟩ := h.crossed ha hp hi hback hz
            exact hindex (hown p j z j' hj hjz hj')
      · have herror := Table.removeEntry_error ha (h.next_ne ha) (h.prev_ne ha) hsafe
        have hno := hmap.noFault
        unfold HashItems.step at hno
        simp only [herror] at hno
        cases hno

/-! ## Main result -/

/-- In a run whose removals patch their neighbours only, the table is the map of its entries in
every state. In any other run it is not, or two chains are linked. -/
theorem removal_refines_map [EquivBEq κ] [LawfulHashable κ] {ops : List (Op κ ν)}
    (h : Runs.Along step Valid .init ops) :
    (Runs.Along step PatchesNeighbours .init ops → Runs.Always step RefinesMap .init ops) ∧
      (Runs.Always step RefinesMap .init ops → Runs.Always step WithinBuckets .init ops →
        Runs.Along step PatchesNeighbours .init ops) := by
  have hiff := Runs.always_iff_along (Q := fun s : Session κ ν => RefinesMap s ∧ WithinBuckets s)
    (fun s hs => ⟨hs.refinesMap, hs.withinBuckets⟩) (fun s op hs hv hC => hs.step hv hC)
    (fun s op hs hv hC => hs.foreign hv hC) Sound.init h
  constructor
  · intro hC
    exact (hiff.mpr hC).mono fun s hs => hs.1
  · intro hmap hown
    exact hiff.mp (Runs.always_and.mpr ⟨hmap, hown⟩)

/-- Two keys in one bucket, and one in another; the removals are those of the older key of the
bucket, and of the newest item. The last item gets the address of a removed one. -/
def keptRun : List (Op ℕ ℕ) :=
  [.addEntryWithKnownHash 2 2 20 (some 1), .addEntryWithKnownHash 1 1 10 (some 2),
    .addEntryWithKnownHash 4098 2 40 (some 3), .findEntry 2, .removeEntry (some 1),
    .setSecond 3 41, .removeEntry (some 3), .addEntryWithKnownHash 2 2 21 (some 1)]

theorem removal_refines_map_keptRun : Runs.Always step RefinesMap .init keptRun :=
  (removal_refines_map (by decide)).1 (by decide)

/-- The key 2 is added first, then a key of another bucket, then another key of the bucket of 2.
Removing the key of the other bucket makes the key 2 unfindable. -/
def lostRun : List (Op ℕ ℕ) :=
  [.addEntryWithKnownHash 2 2 20 (some 1), .addEntryWithKnownHash 1 1 10 (some 2),
    .addEntryWithKnownHash 4098 2 40 (some 3), .removeEntry (some 2)]

theorem key_lost_by_removal :
    Runs.Along step Valid .init lostRun ∧
      ((Runs.final step .init lostRun).lookup 2).map Entry.iterator = some 1 ∧
      (Runs.final step .init lostRun).table.findEntry 10 2 = .ok (none, 2) ∧
      ¬ Runs.Always step RefinesMap .init lostRun := by
  have hlookup : ((Runs.final step .init lostRun).lookup 2).map Entry.iterator = some 1 := by
    decide
  have hlost : (Runs.final step .init lostRun).table.findEntry 10 2 = .ok (none, 2) := by rfl
  refine ⟨by decide, hlookup, hlost, fun hmap => ?_⟩
  have hfind := hmap.final.finds 2 10 (by decide)
  rw [hlost, hlookup] at hfind
  cases hfind

end CrashInvestigator.HashItems
