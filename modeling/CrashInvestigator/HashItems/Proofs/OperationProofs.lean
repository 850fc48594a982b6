import CrashInvestigator.HashItems.Proofs.ChainProofs

/-!
# The operations keep the chains

A new item is put in front of its chain and of the list of all items. A removal that patches its
neighbours only takes the item out of both, and leaves every other link as it is.
-/

namespace CrashInvestigator.HashItems

open Library Library.LinkedList

variable {κ ν : Type*} [BEq κ] [Hashable κ] {s : Session κ ν} {a b c i : ℕ}
  {item : Item κ ν} {e : Entry κ ν}

/-! ## Adding an item -/

section Add

variable {a_key : κ} {a_data : ν}

/-- A chain starts with the first item of all, if it contains it. -/
theorem Sound.first_head (h : Sound s) (hc : s.table.pFirstItem = some c)
    (hmem : c ∈ chainOf s.entries i) : (chainOf s.entries i).head? = some c :=
  head?_sublist h.nodup chainOf_sublist (h.first ▸ hc) hmem

/-- The items of which `AddEntryWithKnownHash` writes `prev` are heads of their chains. -/
theorem Sound.head_of_patched (h : Sound s)
    (hc : s.table.ppItems b = some c ∨ s.table.pFirstItem = some c)
    (hmem : c ∈ chainOf s.entries i) : (chainOf s.entries i).head? = some c := by
  rcases hc with hc | hc
  · have hb : c ∈ chainOf s.entries b := List.mem_of_mem_head? (h.heads b ▸ hc)
    obtain ⟨item, hitem⟩ := Option.isSome_iff_exists.mp (h.isSome_of_chain hb)
    have hbi : b = i := ((h.mem_chain hitem).mp hb).symm.trans ((h.mem_chain hitem).mp hmem)
    rw [← hbi, ← h.heads b, hc]
  · exact h.first_head hc hmem

/-- The new item is not one of those that are there. -/
theorem Sound.ne_new (h : Sound s) (hfree : s.table.items a = none)
    (hc : c ∈ addresses s.entries) : c ≠ a := by
  rintro rfl
  have hlive := h.isSome_iff.mpr hc
  rw [hfree] at hlive
  cases hlive

/-- Behind the heads, the chains keep their backward links. -/
theorem Sound.backward_linked (h : Sound s) (hfree : s.table.items a = none) :
    Backward (s.table.linked a (s.table.newItem a_key b a_data)).prev (chainOf s.entries i) := by
  refine (h.backward i).congr fun c hc => ?_
  have hmem := List.mem_of_mem_tail hc
  refine Table.prev_linked_of_not_head (h.ne_new hfree (chainOf_sublist.subset hmem))
    fun hpatched => ?_
  have hhead := h.head_of_patched hpatched hmem
  have hnd := h.nodup_chain (i := i)
  cases hl : chainOf s.entries i with
  | nil =>
    rw [hl] at hc
    cases hc
  | cons x xs =>
    rw [hl] at hc hhead hnd
    cases hhead
    exact (List.nodup_cons.mp hnd).1 hc

/-- A new item is linked in. -/
theorem Sound.linked (h : Sound s) (hfree : s.table.items e.iterator = none)
    (habsent : ∀ e' ∈ s.entries, (e.key == e'.key) = false) :
    Sound { s with
      table := s.table.linked e.iterator (s.table.newItem e.key (unSize e.key) e.value),
      entries := e :: s.entries } := by
  have hne : ∀ c ∈ addresses s.entries, c ≠ e.iterator := fun c hc => h.ne_new hfree hc
  have hchain : ∀ i, ∀ c ∈ chainOf s.entries i, c ≠ e.iterator :=
    fun i c hc => hne c (chainOf_sublist.subset hc)
  have hout : e.iterator ∉ addresses s.entries := fun hmem => hne _ hmem rfl
  refine ⟨h.noFault, ?_, ?_, ?_, ?_, ?_, ?_, ?_, ?_, rfl, ?_, ?_⟩
  · exact List.nodup_cons.mpr ⟨hout, h.nodup⟩
  · exact List.pairwise_cons.mpr ⟨habsent, h.distinct⟩
  · intro e' he'
    rcases List.mem_cons.mp he' with rfl | he'
    · exact ⟨s.table.newItem e'.key (unSize e'.key) e'.value, by simp [Table.linked], rfl, rfl, rfl⟩
    · obtain ⟨item, hitem, hfirst, hsecond, hindex⟩ := h.holds e' he'
      obtain ⟨j, hj, hj₁, hj₂, hj₃⟩ := Table.items_linked_of_ne
        (hne e'.iterator (mem_addresses.mpr ⟨e', he', rfl⟩)) hitem
      exact ⟨j, hj, hj₁.trans hfirst, hj₂.trans hsecond, hj₃.trans hindex⟩
  · intro c hc
    by_cases hce : c = e.iterator
    · exact mem_addresses.mpr ⟨e, List.mem_cons_self .., hce.symm⟩
    · have hlive : (s.table.items c).isSome := by simpa [Table.linked, hce] using hc
      exact List.mem_cons_of_mem _ (h.live c hlive)
  · intro c item hitem
    by_cases hce : c = e.iterator
    · have heq : s.table.newItem e.key (unSize e.key) e.value = item := by
        simpa [Table.linked, hce] using hitem
      rw [← heq]
      rfl
    · simp only [Table.linked, if_neg hce] at hitem
      obtain ⟨j, hj, rfl⟩ := Option.map_eq_some_iff.mp hitem
      exact h.noBack c j hj
  · intro i
    by_cases hi : i = unSize e.key
    · subst hi
      rw [chainOf_cons_self]
      simp [Table.linked, Table.newItem]
    · rw [chainOf_cons_of_ne hi]
      simpa [Table.linked, Table.newItem, hi] using h.heads i
  · intro i
    have hold : Forward (s.table.linked e.iterator
        (s.table.newItem e.key (unSize e.key) e.value)).next (chainOf s.entries i) :=
      (h.forward i).congr fun c hc => Table.next_linked_of_ne (hchain i c hc)
    by_cases hi : i = unSize e.key
    · subst hi
      rw [chainOf_cons_self]
      exact ⟨Table.next_linked_self.trans (h.heads _), hold⟩
    · rw [chainOf_cons_of_ne hi]
      exact hold
  · intro i
    have hold : Backward (s.table.linked e.iterator
        (s.table.newItem e.key (unSize e.key) e.value)).prev (chainOf s.entries i) :=
      h.backward_linked hfree
    by_cases hi : i = unSize e.key
    · subst hi
      rw [chainOf_cons_self]
      refine ⟨fun c hc => ?_, hold⟩
      have hmem := List.mem_of_mem_head? hc
      refine Table.prev_linked_of_head (hchain _ c hmem) (h.isSome_of_chain hmem) (Or.inl ?_)
      exact (h.heads _).trans hc
    · rw [chainOf_cons_of_ne hi]
      exact hold
  · refine ⟨Or.inl (Table.nextInTheList_linked_self.trans h.first), ?_⟩
    exact h.trailing.congr fun c hc => Table.nextInTheList_linked_of_ne (hne c hc)
  · refine h.upward.push hout Table.prev_linked_self fun c hc => ?_
    by_cases hpatched : s.table.ppItems (unSize e.key) = some c ∨ s.table.pFirstItem = some c
    · refine Or.inl (Table.prev_linked_of_head hc ?_ hpatched)
      rcases hpatched with hc | hc
      · exact h.safe_head c hc
      · exact h.safe_first c hc
    · exact Or.inr (Table.prev_linked_of_not_head hc hpatched)

end Add

/-! ## Removing an item -/

section Remove

/-- Under the condition, a removal changes only the `next` that leads to the item. -/
theorem Sound.next_removed (h : Sound s) (ha : s.table.items a = some item)
    (hprev : ∀ p ∈ item.prev, ∃ j ∈ s.table.items p, j.next = some a ∨ j.next = item.next)
    (hc : c ∈ chainOf s.entries i) (hca : c ≠ a) :
    (s.table.removed a item).next c =
      if s.table.next c = some a then s.table.next a else s.table.next c := by
  rw [Table.next_removed_of_ne hca (h.isSome_of_chain hc), Table.next_of_some ha]
  by_cases hto : s.table.next c = some a
  · have hback : s.table.prev a = some c := (h.forward i).prev_eq (h.backward i) hc hto
    rw [if_pos hto, if_pos ((Table.prev_of_some ha).symm.trans hback)]
  · rw [if_neg hto]
    by_cases hp : item.prev = some c
    · obtain ⟨j, hj, hnext⟩ := hprev c hp
      have hj' : s.table.next c = j.next := Table.next_of_some hj
      rw [if_pos hp, hj']
      rw [hj'] at hto
      exact (hnext.resolve_left hto).symm
    · rw [if_neg hp]

/-- The bucket of the item gets its next item as the head, if the item was the head. -/
theorem Sound.heads_removed (h : Sound s) (ha : s.table.items a = some item) :
    (s.table.removed a item).ppItems i = ((chainOf s.entries i).filter (· ≠ a)).head? := by
  rw [(h.forward i).head?_unlink h.nodup_chain, ← h.heads i, Table.next_of_some ha]
  by_cases hi : i = item.unIndex
  · subst hi
    by_cases hhead : s.table.ppItems item.unIndex = some a <;>
      simp [Table.removed, Table.unchained, hhead]
  · have hnot : s.table.ppItems i ≠ some a := by
      intro hhead
      rw [h.heads i] at hhead
      exact hi ((h.mem_chain ha).mp (List.mem_of_mem_head? hhead)).symm
    rw [if_neg hnot]
    by_cases hhead : s.table.ppItems item.unIndex = some a <;>
      simp [Table.removed, Table.unchained, hhead, hi]

/-- The `prev` of the item goes to its next item. -/
theorem Sound.backward_removed (h : Sound s) (ha : s.table.items a = some item) :
    Backward (s.table.removed a item).prev ((chainOf s.entries i).filter (· ≠ a)) := by
  refine (h.backward i).unlink (h.forward i) h.nodup_chain (fun c hc hac => ?_)
    fun c hc hca => ?_
  · have hc' := List.mem_of_mem_tail (h.next_mem ha ((Table.next_of_some ha).symm.trans hac))
    obtain ⟨j, hj⟩ := Option.isSome_iff_exists.mp (h.isSome_of_chain hc)
    exact (h.mem_chain ha).mpr (((h.mem_chain hj).mp hc').symm.trans ((h.mem_chain hj).mp hc))
  · rw [Table.prev_removed_of_ne hca (h.isSome_of_chain hc), Table.next_of_some ha,
      Table.prev_of_some ha]

/-- The first item of all gives way to its successor, which is still there. -/
theorem Sound.first_removed (h : Sound s) (ha : s.table.items a = some item)
    (hlist : s.table.Safe item.nextInTheList) :
    (s.table.removed a item).pFirstItem = ((addresses s.entries).filter (· ≠ a)).head? := by
  have hfirst := h.first
  have htrail := h.trailing
  have hnd := h.nodup
  cases hl : addresses s.entries with
  | nil =>
    rw [hl] at hfirst
    simp [Table.removed, hfirst]
  | cons x xs =>
    rw [hl] at hfirst htrail hnd
    by_cases hxa : x = a
    · subst hxa
      rw [List.filter_cons_of_neg (by simp), filter_ne_of_notMem (List.nodup_cons.mp hnd).1]
      have hnext : item.nextInTheList = xs.head? := by
        rcases htrail.1 with hhead | ⟨y, hy, hout⟩
        · rw [← hhead, Table.nextInTheList_of_some ha]
        · have hlive := h.live y (hlist y ((Table.nextInTheList_of_some ha).symm.trans hy))
          rw [hl] at hlive
          exact absurd hlive hout
      simp [Table.removed, hfirst, hnext]
    · rw [List.filter_cons_of_pos (by simpa using hxa)]
      simp [Table.removed, hfirst, hxa]

/-- No item gets an older one as its `prev`. -/
theorem Sound.upward_removed (h : Sound s) (ha : s.table.items a = some item) :
    Upward (s.table.removed a item).prev (addresses s.entries) := by
  refine h.upward.handOver h.nodup fun c b hcb => ?_
  have hsome : ((s.table.removed a item).items c).isSome := by
    cases hi : (s.table.removed a item).items c with
    | none => simp [Table.prev, hi] at hcb
    | some i => rfl
  obtain ⟨hca, hlive⟩ := Table.isSome_removed.mp hsome
  rw [Table.prev_removed_of_ne hca hlive] at hcb
  by_cases hac : item.next = some c
  · rw [if_pos hac] at hcb
    have hpair := (h.forward item.unIndex).pair_sublist ((h.mem_chain ha).mpr rfl)
      ((Table.next_of_some ha).trans hac)
    exact Or.inr ⟨a, (Table.prev_of_some ha).trans hcb, hpair.trans chainOf_sublist⟩
  · rw [if_neg hac] at hcb
    exact Or.inl hcb

/-- An item is unlinked. -/
theorem Sound.removed (h : Sound s) (ha : s.table.items a = some item)
    (hlist : s.table.Safe item.nextInTheList)
    (hprev : ∀ p ∈ item.prev, ∃ j ∈ s.table.items p, j.next = some a ∨ j.next = item.next) :
    Sound { s with
      table := s.table.removed a item,
      entries := s.entries.filter fun e => some e.iterator ≠ some a } := by
  refine ⟨h.noFault, ?_, ?_, ?_, ?_, ?_, ?_, ?_, ?_, ?_, ?_, ?_⟩
  · rw [addresses_erase]
    exact h.nodup.filter _
  · exact h.distinct.sublist List.filter_sublist
  · intro e he
    obtain ⟨he, hea⟩ := List.mem_filter.mp he
    have hea : e.iterator ≠ a := by simpa using hea
    obtain ⟨i, hi, hfirst, hsecond, hindex⟩ := h.holds e he
    obtain ⟨j, hj, hj₁, hj₂, hj₃⟩ := Table.items_removed_of_ne item hea hi
    exact ⟨j, hj, hj₁.trans hfirst, hj₂.trans hsecond, hj₃.trans hindex⟩
  · intro c hc
    obtain ⟨hca, hlive⟩ := Table.isSome_removed.mp hc
    rw [addresses_erase]
    exact List.mem_filter.mpr ⟨h.live c hlive, by simpa using hca⟩
  · intro c i hi
    by_cases hca : c = a
    · simp [Table.removed, hca] at hi
    · simp only [Table.removed, Function.update_of_ne hca] at hi
      exact Table.prevInTheList_unchained h.noBack hi
  · intro i
    rw [chainOf_erase]
    exact h.heads_removed ha
  · intro i
    rw [chainOf_erase]
    exact (h.forward i).unlink h.nodup_chain fun c hc hca => h.next_removed ha hprev hc hca
  · intro i
    rw [chainOf_erase]
    exact h.backward_removed ha
  · rw [addresses_erase]
    exact h.first_removed ha hlist
  · rw [addresses_erase]
    refine (h.trailing.filter _).congr fun c hc => ?_
    have hca : c ≠ a := by simpa using (List.mem_filter.mp hc).2
    exact Table.nextInTheList_removed_of_ne hca
  · rw [addresses_erase]
    exact (h.upward_removed ha).sublist List.filter_sublist

end Remove

/-! ## Writing a value -/

section SetSecond

variable {a_data : ν}

/-- The value behind an iterator is overwritten. -/
theorem Sound.setSecond (h : Sound s) :
    Sound { s with
      table := s.table.assigned (some a) fun i => { i with second := a_data },
      entries := overwrite a a_data s.entries } := by
  have hlinks := s.table.links_setSecond a a_data
  refine ⟨h.noFault, ?_, ?_, ?_, ?_, ?_, fun i => ?_, fun i => ?_, fun i => ?_, ?_, ?_, ?_⟩
  · rw [addresses_overwrite]
    exact h.nodup
  · refine List.pairwise_map.mpr (h.distinct.imp fun {e e'} hne => ?_)
    split_ifs <;> exact hne
  · intro e he
    obtain ⟨e', he', rfl⟩ := mem_overwrite.mp he
    obtain ⟨i, hi, hfirst, hsecond, hindex⟩ := h.holds e' he'
    by_cases hea : e'.iterator = a
    · rw [if_pos hea]
      exact ⟨{ i with second := a_data }, by simp [Table.assigned, ← hea, hi], hfirst, rfl, hindex⟩
    · rw [if_neg hea]
      exact ⟨i, by simp [Table.assigned, Ne.symm hea, hi], hfirst, hsecond, hindex⟩
  · intro c hc
    rw [addresses_overwrite]
    refine h.live c ?_
    by_cases hac : a = c <;> simpa [Table.assigned, hac] using hc
  · intro c i hi
    by_cases hac : a = c
    · simp only [Table.assigned, hac, if_true] at hi
      obtain ⟨j, hj, rfl⟩ := Option.map_eq_some_iff.mp hi
      exact h.noBack c j hj
    · simp only [Table.assigned, Option.some.injEq, hac, if_false] at hi
      exact h.noBack c i hi
  · rw [chainOf_overwrite]
    exact h.heads i
  · rw [chainOf_overwrite]
    exact (h.forward i).congr fun c _ => (hlinks c).1
  · rw [chainOf_overwrite]
    exact (h.backward i).congr fun c _ => (hlinks c).2.1
  · rw [addresses_overwrite]
    exact h.first
  · rw [addresses_overwrite]
    exact h.trailing.congr fun c _ => (hlinks c).2.2
  · rw [addresses_overwrite]
    intro c b hcb
    exact h.upward c b ((hlinks c).2.1.symm.trans hcb)

end SetSecond

end CrashInvestigator.HashItems
