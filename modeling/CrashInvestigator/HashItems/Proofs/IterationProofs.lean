import CrashInvestigator.HashItems.Proofs.MapProofs

/-!
# Iteration and destruction

The list of all items is linked forwards only, since an insertion writes `prev` where `prevInTheList`
is meant. Taking the first item out keeps that list; taking out any other one leaves a link that
leads to the freed item.
-/

namespace CrashInvestigator.HashItems

open Library Library.LinkedList

variable {κ ν : Type*} {t : Table κ ν} {l l₁ l₂ : List ℕ} {a fuel : ℕ}

/-! ## The two loops -/

theorem increment_of_some {item : Item κ ν} (ha : t.items a = some item) :
    t.increment a = .ok item.nextInTheList := by
  simp [Table.increment, Table.read_of_some ha, Except.map]

/-- The loop of an iteration goes down the linked list. -/
theorem iterate_forward (hf : Forward t.nextInTheList l) (hlive : ∀ c ∈ l, (t.items c).isSome)
    (hfuel : l.length < fuel) : t.iterate fuel l.head? = .ok l := by
  induction l generalizing fuel with
  | nil =>
    cases fuel with
    | zero => cases hfuel
    | succ fuel => rfl
  | cons a l ih =>
    cases fuel with
    | zero => cases hfuel
    | succ fuel =>
      obtain ⟨item, hitem⟩ := Option.isSome_iff_exists.mp (hlive a (List.mem_cons_self ..))
      have hnext : item.nextInTheList = l.head? :=
        (Table.nextInTheList_of_some hitem).symm.trans hf.1
      have hrest := ih hf.2 (fun c hc => hlive c (List.mem_cons_of_mem _ hc))
        (Nat.lt_of_succ_lt_succ hfuel)
      simp only [List.head?_cons, Table.iterate, increment_of_some hitem, bind, Except.bind, hnext,
        hrest]

/-- A step of an iteration at a freed item fails. -/
theorem iterate_of_free (hfree : t.items a = none) (fuel : ℕ) :
    ∃ f, t.iterate fuel (some a) = .error f := by
  cases fuel with
  | zero => exact ⟨_, rfl⟩
  | succ fuel =>
    refine ⟨.useAfterFree, ?_⟩
    simp [Table.iterate, Table.increment, Table.read, hfree, Except.map, bind, Except.bind]

/-- An iteration that is led to a freed item does not end well. -/
theorem iterate_freed {next : ℕ → Option ℕ} (hf : Forward next (l₁ ++ a :: l₂))
    (hsame : ∀ c ∈ l₁, t.nextInTheList c = next c) (hfree : t.items a = none) (fuel : ℕ) :
    ∃ f, t.iterate fuel (l₁ ++ a :: l₂).head? = .error f := by
  induction l₁ generalizing fuel with
  | nil => exact iterate_of_free hfree fuel
  | cons b l₁ ih =>
    cases hb : t.items b with
    | none => exact iterate_of_free hb fuel
    | some item =>
      cases fuel with
      | zero => exact ⟨_, rfl⟩
      | succ fuel =>
        obtain ⟨f, hrest⟩ := ih hf.2 (fun c hc => hsame c (List.mem_cons_of_mem _ hc)) fuel
        have hnext : item.nextInTheList = (l₁ ++ a :: l₂).head? := by
          rw [← Table.nextInTheList_of_some hb, hsame b (List.mem_cons_self ..)]
          exact hf.1
        refine ⟨f, ?_⟩
        simp only [List.cons_append, List.head?_cons, Table.iterate, increment_of_some hb, bind,
          Except.bind, hnext, hrest]

/-- The loop of the destructor frees the linked list. -/
theorem destroy_forward (hf : Forward t.nextInTheList l) (hnd : l.Nodup)
    (hlive : ∀ c ∈ l, (t.items c).isSome) :
    ∃ t' : Table κ ν, ∀ fuel, l.length < fuel → t.destroy fuel l.head? = .ok (t', l) := by
  induction l generalizing t with
  | nil =>
    refine ⟨t, fun fuel hfuel => ?_⟩
    cases fuel with
    | zero => cases hfuel
    | succ fuel => rfl
  | cons a l ih =>
    obtain ⟨hout, hnd⟩ := List.nodup_cons.mp hnd
    obtain ⟨item, hitem⟩ := Option.isSome_iff_exists.mp (hlive a (List.mem_cons_self ..))
    have hnext : item.nextInTheList = l.head? :=
      (Table.nextInTheList_of_some hitem).symm.trans hf.1
    set freed : Table κ ν := { t with items := Function.update t.items a none } with hfreed
    have hother : ∀ c ∈ l, freed.items c = t.items c := by
      rintro c hc
      have hca : c ≠ a := fun hca => hout (hca ▸ hc)
      rw [hfreed]
      simp [hca]
    have hf' : Forward freed.nextInTheList l := by
      refine hf.2.congr fun c hc => ?_
      unfold Table.nextInTheList
      rw [hother c hc]
    obtain ⟨t', hrest⟩ := ih hf' hnd fun c hc => by
      rw [hother c hc]
      exact hlive c (List.mem_cons_of_mem _ hc)
    refine ⟨t', fun fuel hfuel => ?_⟩
    cases fuel with
    | zero => cases hfuel
    | succ fuel =>
      have hloop := hrest fuel (Nat.lt_of_succ_lt_succ hfuel)
      simp only [List.head?_cons, Table.destroy, Table.read_of_some hitem, bind, Except.bind, hnext,
        ← hfreed, hloop]

/-- An iteration that ends went down the linked list. -/
theorem forward_of_iterate {p : Option ℕ} (h : t.iterate fuel p = .ok l) :
    p = l.head? ∧ Forward t.nextInTheList l ∧ (∀ c ∈ l, (t.items c).isSome) ∧ l.length < fuel := by
  induction fuel generalizing p l with
  | zero => cases h
  | succ fuel ih =>
    cases p with
    | none =>
      cases h
      exact ⟨rfl, trivial, by simp, Nat.succ_pos _⟩
    | some a =>
      obtain ⟨next, hnext, h⟩ := Table.ok_of_bind h
      obtain ⟨l', hrest, h⟩ := Table.ok_of_bind h
      cases h
      cases ha : t.items a with
      | none => simp [Table.increment, Table.read, ha, Except.map] at hnext
      | some item =>
        rw [increment_of_some ha] at hnext
        cases hnext
        obtain ⟨hhead, hf, hlive, hlength⟩ := ih hrest
        refine ⟨rfl, ⟨(Table.nextInTheList_of_some ha).trans hhead, hf⟩, fun c hc => ?_, ?_⟩
        · rcases List.mem_cons.mp hc with rfl | hc
          · simp [ha]
          · exact hlive c hc
        · rw [List.length_cons]
          omega

/-- The destructor ends where an iteration does. -/
theorem destroy_of_iterate {p : Option ℕ} (h : t.iterate fuel p = .ok l) :
    ∃ t' : Table κ ν, t.destroy fuel p = .ok (t', l) := by
  obtain ⟨rfl, hf, hlive, hlength⟩ := forward_of_iterate h
  obtain ⟨t', hloop⟩ := destroy_forward hf hf.nodup hlive
  exact ⟨t', hloop fuel hlength⟩

/-- The destructor leaves the heads of the buckets as they were, and no item that it visited. -/
theorem destroy_frame {p : Option ℕ} {t' : Table κ ν} {freed : List ℕ}
    (h : t.destroy fuel p = .ok (t', freed)) : t'.ppItems = t.ppItems ∧
      (∀ c ∈ freed, t'.items c = none) ∧ ∀ c, t.items c = none → t'.items c = none := by
  induction fuel generalizing t p freed with
  | zero => cases h
  | succ fuel ih =>
    cases p with
    | none =>
      cases h
      exact ⟨rfl, by simp, fun _ hc => hc⟩
    | some a =>
      obtain ⟨item, -, h⟩ := Table.ok_of_bind h
      obtain ⟨r, hrest, h⟩ := Table.ok_of_bind h
      cases h
      obtain ⟨hheads, hvisited, hnone⟩ := ih hrest
      refine ⟨hheads, fun c hc => ?_, fun c hc => hnone c ?_⟩
      · rcases List.mem_cons.mp hc with rfl | hc
        · exact hnone c (Function.update_self ..)
        · exact hvisited c hc
      · by_cases hca : c = a
        · simp [hca]
        · simp [hca, hc]

/-! ## Sessions -/

variable [BEq κ] [Hashable κ] {s : Session κ ν} {op : Op κ ν}

/-- The invariant of a session that takes out first items only. -/
structure Linked (s : Session κ ν) : Prop where
  sound : Sound s
  inOrder : Forward s.table.nextInTheList (addresses s.entries)

theorem Linked.init : Linked (.init : Session κ ν) := ⟨Sound.init, trivial⟩

theorem Linked.isSome (h : Linked s) : ∀ c ∈ addresses s.entries, (s.table.items c).isSome :=
  fun _ hc => h.sound.isSome_iff.mpr hc

/-- An iteration visits the items of the entries, the newest one first. -/
theorem Linked.iterate (h : Linked s) (hfuel : s.entries.length < fuel) :
    s.table.iterate fuel s.table.begin = .ok (addresses s.entries) := by
  have hlength : (addresses s.entries).length = s.entries.length := by simp [addresses]
  rw [Table.begin, h.sound.first]
  exact iterate_forward h.inOrder h.isSome (by omega)

theorem Linked.coversEntries (h : Linked s) : CoversEntries s := by
  have hlength : (addresses s.entries).length = s.entries.length := by simp [addresses]
  refine ⟨h.sound.noFault, ⟨addresses s.entries, h.sound.nodup, List.Perm.refl _,
    fun fuel hfuel => h.iterate hfuel⟩, ?_, ?_⟩
  · obtain ⟨t', hloop⟩ := destroy_forward h.inOrder h.sound.nodup h.isSome
    refine ⟨t', addresses s.entries, h.sound.nodup, List.Perm.refl _, fun fuel hfuel => ?_⟩
    rw [h.sound.first]
    exact hloop fuel (by omega)
  · intro e he
    obtain ⟨item, hitem, hfirst, hsecond, -⟩ := h.sound.holds e he
    exact ⟨item, hitem, hfirst, hsecond⟩

/-- The first item without `prev` has no neighbour that must not be patched. -/
theorem Linked.patchesNeighbours (h : Linked s) (hC : RemovesFirst s op) :
    PatchesNeighbours s op := by
  cases op with
  | findEntry a_key => trivial
  | addEntryWithKnownHash a_key a_hash a_data pItem => trivial
  | setSecond a a_data => trivial
  | removeEntry a_iter =>
    cases a_iter with
    | none => trivial
    | some a =>
      intro item ha
      obtain ⟨hfirst, hprev⟩ := hC
      refine ⟨fun b hb => ?_, fun p hp => ?_⟩
      · have hmem : a ∈ addresses s.entries := h.sound.live a (by simp [Option.mem_def.mp ha])
        have hab : s.table.nextInTheList a = some b := (Table.nextInTheList_of_some ha).trans hb
        exact h.sound.isSome_iff.mpr (List.mem_of_mem_tail (h.inOrder.mem_tail hmem hab))
      · rw [hprev item ha] at hp
        cases hp

/-- A first item that points back points back to a freed item. -/
theorem Linked.prev_freed (h : Linked s) (hfirst : s.table.pFirstItem = some a) {item : Item κ ν}
    (ha : s.table.items a = some item) {p : ℕ} (hp : item.prev = some p) :
    s.table.items p = none := by
  obtain ⟨hap, hnot⟩ := h.sound.upward a p ((Table.prev_of_some ha).trans hp)
  by_contra hlive
  have hmem := h.sound.live p (Option.isSome_iff_ne_none.mpr hlive)
  have hhead : (addresses s.entries).head? = some a := h.sound.first.symm.trans hfirst
  cases hl : addresses s.entries with
  | nil =>
    rw [hl] at hmem
    cases hmem
  | cons x xs =>
    rw [hl] at hmem hhead hnot
    obtain rfl : x = a := Option.some.inj hhead
    have hpxs := (List.mem_cons.mp hmem).resolve_left (Ne.symm hap)
    exact hnot ((List.singleton_sublist.mpr hpxs).cons_cons _)

/-- The removal of an item behind the first one leaves a link to the freed item. -/
theorem Linked.iterate_removed (h : Linked s) {item : Item κ ν} (ha : s.table.items a = some item)
    (hfirst : s.table.pFirstItem ≠ some a) (fuel : ℕ) :
    ∃ f, (s.table.removed a item).iterate fuel (s.table.removed a item).begin = .error f := by
  have hmem : a ∈ addresses s.entries := h.sound.live a (by simp [ha])
  obtain ⟨l₁, l₂, hl⟩ := List.append_of_mem hmem
  have hbegin : (s.table.removed a item).begin = (l₁ ++ a :: l₂).head? := by
    rw [← hl, ← h.sound.first]
    simp [Table.begin, Table.removed, hfirst]
  have hf := h.inOrder
  have hnd := h.sound.nodup
  rw [hl] at hf hnd
  rw [hbegin]
  refine iterate_freed hf (fun c hc => ?_) (by simp [Table.removed]) fuel
  refine Table.nextInTheList_removed_of_ne ?_
  exact (List.nodup_append.mp hnd).2.2 c hc a (List.mem_cons_self ..)

/-- Any other removal touches a freed item or leaves a link to one. -/
theorem Linked.uncovered (h : Linked s) (hvalid : Valid s op) (hC : ¬ RemovesFirst s op) :
    ¬ CoversEntries (HashItems.step s op) := by
  intro hcov
  cases op with
  | findEntry a_key => exact hC trivial
  | addEntryWithKnownHash a_key a_hash a_data pItem => exact hC trivial
  | setSecond a a_data => exact hC trivial
  | removeEntry a_iter =>
    cases a_iter with
    | none => exact hC trivial
    | some a =>
      obtain ⟨e, he, rfl⟩ := hvalid a rfl
      obtain ⟨item, ha, -⟩ := h.sound.holds e he
      set a := e.iterator
      by_cases hsafe : s.table.Safe item.next ∧ s.table.Safe item.prev ∧
          s.table.Safe item.nextInTheList
      · obtain ⟨hnext, hprev, hlist⟩ := hsafe
        have hfirst : s.table.pFirstItem ≠ some a := by
          intro hfirst
          refine hC ⟨hfirst, fun item' ha' => ?_⟩
          obtain rfl : item = item' := Option.some.inj (ha.symm.trans ha')
          cases hp : item.prev with
          | none => rfl
          | some p =>
            have hlive := hprev p hp
            rw [h.prev_freed hfirst ha hp] at hlive
            cases hlive
        have hok := Table.removeEntry_eq ha (h.sound.next_ne ha) (h.sound.prev_ne ha)
          h.sound.noBack hnext hprev hlist
        unfold HashItems.step at hcov
        simp only [hok] at hcov
        obtain ⟨visited, -, -, hloop⟩ := hcov.iterates
        have hrun := hloop _ (Nat.lt_succ_self _)
        obtain ⟨f, herror⟩ := h.iterate_removed ha hfirst
          ((s.entries.filter fun e => some e.iterator ≠ some a).length + 1)
        rw [herror] at hrun
        cases hrun
      · have herror := Table.removeEntry_error ha (h.sound.next_ne ha) (h.sound.prev_ne ha) hsafe
        have hno := hcov.noFault
        unfold HashItems.step at hno
        simp only [herror] at hno
        cases hno

theorem Linked.step [PartialEquivBEq κ] [LawfulHashable κ] (h : Linked s) (hvalid : Valid s op) (hC : RemovesFirst s op) :
    Linked (HashItems.step s op) := by
  refine ⟨h.sound.step hvalid (h.patchesNeighbours hC), ?_⟩
  cases op with
  | findEntry a_key =>
    rw [h.sound.step_findEntry]
    exact h.inOrder
  | addEntryWithKnownHash a_key a_hash a_data pItem =>
    obtain ⟨rfl, -, hfree⟩ := hvalid
    cases pItem with
    | none => exact h.inOrder
    | some a =>
      rw [h.sound.step_addEntryWithKnownHash (hfree a rfl)]
      refine ⟨Table.nextInTheList_linked_self.trans h.sound.first, ?_⟩
      exact h.inOrder.congr fun c hc =>
        Table.nextInTheList_linked_of_ne (h.sound.ne_new (hfree a rfl) hc)
  | removeEntry a_iter =>
    cases a_iter with
    | none =>
      rw [step_removeEntry_none]
      exact h.inOrder
    | some a =>
      obtain ⟨item, -, hstep⟩ := h.sound.step_removeEntry hvalid (h.patchesNeighbours hC)
      have hhead : (addresses s.entries).head? = some a := h.sound.first.symm.trans hC.1
      have hnd := h.sound.nodup
      have hf := h.inOrder
      rw [hstep, addresses_erase]
      cases hl : addresses s.entries with
      | nil => trivial
      | cons x xs =>
        rw [hl] at hhead hnd hf
        obtain rfl : x = a := Option.some.inj hhead
        obtain ⟨hout, -⟩ := List.nodup_cons.mp hnd
        rw [List.filter_cons_of_neg (by simp), filter_ne_of_notMem hout]
        exact hf.2.congr fun c hc =>
          Table.nextInTheList_removed_of_ne fun hcx => hout (hcx ▸ hc)
  | setSecond a a_data =>
    rw [h.sound.step_setSecond hvalid]
    rw [addresses_overwrite]
    exact h.inOrder.congr fun c _ => (s.table.links_setSecond a a_data c).2.2

/-! ## Main result -/

variable [EquivBEq κ] [LawfulHashable κ]

/-- Iteration and destruction cover exactly the entries, in every state of a run, if and only if every
removal takes the first item of all, which points back to nothing. -/
theorem covers_entries_iff {ops : List (Op κ ν)} (h : Runs.Along step Valid .init ops) :
    Runs.Always step CoversEntries .init ops ↔ Runs.Along step RemovesFirst .init ops :=
  Runs.always_iff_along (fun _ hs => hs.coversEntries) (fun _ _ hs hv hC => hs.step hv hC)
    (fun _ _ hs hv hC => hs.uncovered hv hC) Linked.init h

/-- Two keys of one bucket; the newer one is removed, and its address is used again. -/
def stackRun : List (Op ℕ ℕ) :=
  [.addEntryWithKnownHash 1 1 10 (some 1), .addEntryWithKnownHash 4097 1 40 (some 2),
    .removeEntry (some 2), .addEntryWithKnownHash 3 3 30 (some 2)]

theorem covers_entries_iff_stackRun : Runs.Always step CoversEntries .init stackRun :=
  (covers_entries_iff (by decide)).mpr (by decide)

/-- The older key is removed, and the next item gets its address: the list of all items is a cycle. -/
def cycleRun : List (Op ℕ ℕ) :=
  [.addEntryWithKnownHash 1 1 10 (some 1), .addEntryWithKnownHash 4097 1 40 (some 2),
    .removeEntry (some 1), .addEntryWithKnownHash 3 3 30 (some 1)]

theorem iteration_in_a_cycle :
    Runs.Along step Valid .init cycleRun ∧
      (Runs.final step .init cycleRun).entries.map Entry.iterator = [1, 2] ∧
      (Runs.final step .init cycleRun).table.iterate 10
        (Runs.final step .init cycleRun).table.begin = .error .walkDoesNotEnd ∧
      ¬ Runs.Always step CoversEntries .init cycleRun := by
  have hcycle : (Runs.final step .init cycleRun).table.iterate 10
      (Runs.final step .init cycleRun).table.begin = .error .walkDoesNotEnd := by rfl
  refine ⟨by decide, by decide, hcycle, fun hcov => ?_⟩
  obtain ⟨visited, -, -, hloop⟩ := hcov.final.iterates
  have hrun := hloop 10 (by decide)
  rw [hcycle] at hrun
  cases hrun

end CrashInvestigator.HashItems
