import CrashInvestigator.HashItems.Proofs.IterationProofs
import CrashInvestigator.Lifetime.Exit
import CrashInvestigator.Lifetime.Proofs.TableProofs

/-!
# What the exits free and print

A loop from the first item visits every record and leaves the iterator at the end, so a second loop
with the same iterator visits nothing.
-/

namespace CrashInvestigator.Lifetime

open HashItems
open Tracker (Addr SMemoryItem TraceHeap)

/-! ## Loops -/

section Loops

variable {κ ν σ : Type} {t : Table κ ν} {body : σ → ν → σ} {fuel : ℕ} {visited : List ℕ}

/-- A loop whose iterator is at the end does nothing. -/
theorem forLoop_end (acc : σ) : forLoop t body (fuel + 1) none acc = .ok (none, acc) := rfl

/-- A loop does its body for each item that an iteration visits, and ends where that ends. -/
theorem forLoop_of_iterate {p : Option ℕ} (h : t.iterate fuel p = .ok visited) (acc : σ) :
    forLoop t body fuel p acc = .ok (none, (Table.values t visited).foldl body acc) := by
  induction fuel generalizing p visited acc with
  | zero => cases h
  | succ fuel ih =>
    cases p with
    | none =>
      obtain rfl := Except.ok.inj h
      rfl
    | some pItem =>
      obtain ⟨next, hnext, h⟩ := Table.ok_of_bind h
      obtain ⟨rest, hrest, h⟩ := Table.ok_of_bind h
      obtain rfl := Except.ok.inj h
      cases hitem : t.items pItem with
      | none => simp [Table.increment, Table.read, hitem, Except.map] at hnext
      | some item =>
        have hvalues : Table.values t (pItem :: rest) = item.second :: Table.values t rest := by
          simp [Table.values, hitem]
        simp only [forLoop, Table.read_of_some hitem, hnext, bind, Except.bind, hvalues,
          List.foldl_cons, ih hrest]

theorem pos_of_iterate {p : Option ℕ} (h : t.iterate fuel p = .ok visited) : 0 < fuel := by
  cases fuel with
  | zero => cases h
  | succ fuel => exact Nat.succ_pos _

end Loops

/-! ## Bodies -/

variable {t : Table Addr SMemoryItem} {h : TraceHeap} {symbols : ℕ → Bool} {fuel : ℕ}
  {visited : List ℕ} {quiet verbose : ExitReport}

theorem foldl_free (records : List SMemoryItem) (r : ExitReport) :
    records.foldl ExitReport.free r =
      { r with freed := r.freed ++ records.flatMap heldTraces } := by
  induction records generalizing r with
  | nil => simp
  | cons item records ih =>
    rw [List.foldl_cons, ih]
    simp [ExitReport.free, heldTraces]

theorem foldl_countAllocated (records : List SMemoryItem) (n : ℕ) :
    records.foldl countAllocated n =
      n + (records.filter fun item => item.status = .allocated).length := by
  induction records generalizing n with
  | nil => rfl
  | cons item records ih =>
    rw [List.foldl_cons, ih, countAllocated]
    by_cases hst : item.status = .allocated
    · rw [if_pos hst, List.filter_cons_of_pos (by simpa using hst), List.length_cons]
      omega
    · rw [if_neg hst, List.filter_cons_of_neg (by simpa using hst)]

/-! ## The exits -/

/-- The quiet exit frees the traces of the records one after another. -/
theorem quietExit_eq (hend : t.iterate fuel t.begin = .ok visited) :
    quietExit t fuel = .ok ⟨(Table.values t visited).flatMap heldTraces, none, []⟩ := by
  simp only [quietExit, forLoop_of_iterate hend, bind, Except.bind, foldl_free, List.nil_append]

/-- The verbose exit announces the allocated records, and its second loop does nothing. -/
theorem verboseExit_eq (hend : t.iterate fuel t.begin = .ok visited) :
    verboseExit t h symbols fuel = .ok ⟨[],
      if ((Table.values t visited).filter fun item => item.status = .allocated).length ≠ 0 then
        some ((Table.values t visited).filter fun item => item.status = .allocated).length
      else none, []⟩ := by
  obtain ⟨k, rfl⟩ := Nat.exists_eq_succ_of_ne_zero (Nat.ne_of_gt (pos_of_iterate hend))
  simp only [verboseExit, forLoop_of_iterate hend, bind, Except.bind, foldl_countAllocated,
    Nat.zero_add, Nat.succ_eq_add_one, forLoop_end]

/-- The two exits do the same exactly when no record holds a trace or is allocated. -/
theorem exits_agree_iff (hend : t.iterate fuel t.begin = .ok visited) (h : TraceHeap)
    (symbols : ℕ → Bool) : ∃ quiet verbose, quietExit t fuel = .ok quiet ∧
      verboseExit t h symbols fuel = .ok verbose ∧
      (SameCleanUp h (Table.values t visited) quiet verbose ↔
        ∀ item ∈ Table.values t visited,
          item.allocTrace = none ∧ item.deallocTrace = none ∧ item.status ≠ .allocated) := by
  refine ⟨_, _, quietExit_eq hend, verboseExit_eq hend, ?_⟩
  set records := Table.values t visited
  constructor
  · intro hsame item hitem
    have hheld : records.flatMap heldTraces = [] := List.nil_perm.mp hsame.verboseFrees
    have hnone : heldTraces item = [] := List.flatMap_eq_nil_iff.mp hheld item hitem
    obtain ⟨hdealloc, halloc⟩ := List.append_eq_nil_iff.mp hnone
    have hprints := List.map_eq_nil_iff.mp (List.nil_perm.mp hsame.prints)
    refine ⟨Option.toList_eq_nil_iff.mp halloc, Option.toList_eq_nil_iff.mp hdealloc, ?_⟩
    simpa using List.filter_eq_nil_iff.mp hprints item hitem
  · intro hrecords
    have hheld : records.flatMap heldTraces = [] := by
      refine List.flatMap_eq_nil_iff.mpr fun item hitem => ?_
      obtain ⟨halloc, hdealloc, -⟩ := hrecords item hitem
      rw [heldTraces, hdealloc, halloc]
      rfl
    have hprints : (records.filter fun item => item.status = .allocated) = [] := by
      refine List.filter_eq_nil_iff.mpr fun item hitem => ?_
      simpa using (hrecords item hitem).2.2
    refine ⟨List.Perm.refl _, ?_, ?_, ?_⟩
    · rw [hheld]
    · rw [hprints]
      exact List.Perm.refl _
    · rw [hprints]
      rfl

/-- A table with one record, allocated with the stack `0`. -/
def tableWithRecord : Table Addr SMemoryItem where
  items := fun a => if a = 1 then
    some ⟨16, ⟨.malloc, .allocated, 16, some 0, none⟩, 16, none, none, none, none⟩ else none
  ppItems := fun i => if i = 16 then some 1 else none
  pFirstItem := some 1

/-- The two exits do not do the same for one block that was never freed. -/
theorem exits_agree_iff_one_record : ∃ quiet verbose,
    quietExit tableWithRecord 2 = .ok quiet ∧
    verboseExit tableWithRecord .empty (fun _ => true) 2 = .ok verbose ∧
    ¬ SameCleanUp .empty (Table.values tableWithRecord [1]) quiet verbose := by
  obtain ⟨quiet, verbose, hquiet, hverbose, hiff⟩ :=
    @exits_agree_iff tableWithRecord 2 [1] rfl .empty (fun _ => true)
  refine ⟨quiet, verbose, hquiet, hverbose, fun hsame => ?_⟩
  exact (hiff.mp hsame _ (List.mem_singleton_self _)).2.2 rfl

/-- The verbose exit announces one block and neither prints its stack nor frees it. -/
theorem verbose_exit_frees_nothing :
    quietExit tableWithRecord 2 = .ok ⟨[0], none, []⟩ ∧
      verboseExit tableWithRecord .empty (fun _ => true) 2 = .ok ⟨[], some 1, []⟩ ∧
      ¬ ∀ (t : Table Addr SMemoryItem) (h : TraceHeap) (symbols : ℕ → Bool) (fuel : ℕ)
        (visited : List ℕ) (quiet verbose : ExitReport), t.iterate fuel t.begin = .ok visited →
          quietExit t fuel = .ok quiet → verboseExit t h symbols fuel = .ok verbose →
            SameCleanUp h (Table.values t visited) quiet verbose := by
  refine ⟨rfl, rfl, fun hall => ?_⟩
  have hsame := hall tableWithRecord .empty (fun _ => true) 2 [1] ⟨[0], none, []⟩ ⟨[], some 1, []⟩
    rfl rfl rfl
  cases hsame.announces

/-! ## The destructor of the lifetime model -/

/-- In the lifetime model the list of all items ends, and so do both exits. -/
theorem Tables.exits_end {s : State} (hs : Tables s) (symbols : ℕ → Bool) :
    (∃ quiet, quietExit s.memoryItems.table (s.memoryItems.entries.length + 1) = .ok quiet) ∧
      ∃ verbose, verboseExit s.memoryItems.table s.traces symbols
        (s.memoryItems.entries.length + 1) = .ok verbose := by
  have hend := hs.memoryItems.iterate (Nat.lt_succ_self _)
  exact ⟨⟨_, quietExit_eq hend⟩, _, verboseExit_eq hend⟩

theorem freeBacktraceData_counts {h h' : TraceHeap} {p : Tracker.BacktracePtr}
    (hok : freeBacktraceData h p = .ok h') (u : ℕ) :
    h'.frees u = h.frees u + p.toList.count u := by
  cases p with
  | none =>
    obtain rfl := Except.ok.inj hok
    rfl
  | some v =>
    rw [freeBacktraceData] at hok
    split_ifs at hok
    obtain rfl := Except.ok.inj hok
    rw [Tracker.freeBacktraceData_frees_some, Option.toList_some, List.count_singleton]
    by_cases huv : u = v
    · rw [if_pos huv, if_pos (by simpa using huv.symm), huv]
    · rw [if_neg huv, if_neg (by simpa using Ne.symm huv), Nat.add_zero]

/-- The loop over the records frees what the quiet exit frees. -/
theorem freeRecordTraces_counts {m : Session Addr SMemoryItem} {iters : List ℕ} {h h' : TraceHeap}
    (hok : freeRecordTraces m iters h = .ok h') (u : ℕ) :
    h'.frees u = h.frees u + ((Table.values m.table iters).flatMap heldTraces).count u := by
  induction iters generalizing h with
  | nil =>
    obtain rfl := Except.ok.inj hok
    rfl
  | cons iter iters ih =>
    obtain ⟨item, hitem, hok⟩ := Table.ok_of_bind hok
    obtain ⟨h₁, hdealloc, hok⟩ := Table.ok_of_bind hok
    obtain ⟨h₂, halloc, hok⟩ := Table.ok_of_bind hok
    have hvalues : Table.values m.table (iter :: iters) = item :: Table.values m.table iters := by
      cases hi : m.table.items iter with
      | none => simp [second, checked, Table.read, hi, Except.map] at hitem
      | some i =>
        have hsecond : i.second = item := by
          simpa [second, checked, Table.read, hi, Except.map] using hitem
        simp [Table.values, hi, hsecond]
    rw [ih hok, freeBacktraceData_counts halloc, freeBacktraceData_counts hdealloc, hvalues,
      List.flatMap_cons, List.count_append, heldTraces, List.count_append]
    omega

theorem ok_of_checked {α : Type*} {x : Except Fault α} {a : α} (hok : checked x = .ok a) :
    x = .ok a := by
  cases x with
  | error f => cases hok
  | ok b => exact congrArg Except.ok (Except.ok.inj hok)

/-- The destructor of the lifetime model is the quiet exit. -/
theorem destruct_quietExit {s s' : State} (hok : s.destruct = .ok s') : ∃ quiet,
    quietExit s.memoryItems.table (s.memoryItems.entries.length + 1) = .ok quiet ∧
      ∀ u, s'.traces.frees u = s.traces.frees u + quiet.freed.count u := by
  obtain ⟨visited, hvisited, hok⟩ := Table.ok_of_bind hok
  obtain ⟨traces, htraces, hok⟩ := Table.ok_of_bind hok
  obtain ⟨stackItems, -, hok⟩ := Table.ok_of_bind hok
  obtain ⟨memoryItems, -, hok⟩ := Table.ok_of_bind hok
  obtain rfl := Except.ok.inj hok
  have hend := ok_of_checked hvisited
  exact ⟨_, quietExit_eq hend, freeRecordTraces_counts htraces⟩

end CrashInvestigator.Lifetime
