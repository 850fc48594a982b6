import CrashInvestigator.Tracker.Monitor
import CrashInvestigator.Tracker.Proofs.LeakReportProofs
import CrashInvestigator.Tracker.Proofs.ReportProofs

/-!
# What the tables say

The records of the tracker as the books of the monitor, and the counters of the stacks as counts of
the books.
-/

namespace CrashInvestigator.Tracker

open Library

/-- The entry of the monitor that a record stands for. -/
def TraceHeap.entry (h : TraceHeap) (item : SMemoryItem) : Entry where
  type := item.type
  stack := ⟨convertBacktraceToNames h item.allocTrace⟩
  released :=
    if item.status = .allocated then none else some (convertBacktraceToNames h item.deallocTrace)

/-- The books that the records stand for. -/
def State.books (st : State) : Books := fun p => (st.findMemoryItem p).map st.traces.entry

/-- The traces of a record were created, and one that is allocated has no trace of a release. -/
structure TraceHeap.HasTraces (h : TraceHeap) (item : SMemoryItem) : Prop where
  alloc : h.Created item.allocTrace
  dealloc : h.Created item.deallocTrace
  unreleased : item.status = .allocated → item.deallocTrace = none

/-- Every address has one record, which has its traces. -/
structure Booked (st : State) : Prop where
  keys : (st.memoryItems.map Prod.fst).Nodup
  traces : ∀ p item, st.findMemoryItem p = some item → st.traces.HasTraces item

section Books

variable {st st' st'' : State} {env : Env} {h h' h'' : TraceHeap} {item : SMemoryItem} {p : Addr}
  {bt : BacktracePtr}

theorem TraceHeap.HasTraces.extend (hitem : h.HasTraces item) (hx : h'.Extends h) :
    h'.HasTraces item :=
  ⟨hx.created hitem.alloc, hx.created hitem.dealloc, hitem.unreleased⟩

theorem entry_extend (hitem : h.HasTraces item) (hx : h'.Extends h) :
    h'.entry item = h.entry item := by
  simp only [TraceHeap.entry, hx.names hitem.alloc, hx.names hitem.dealloc]

/-- The records stay as they are. -/
theorem books_same (hr : Booked st) (hmem : st'.memoryItems = st.memoryItems)
    (hx : st'.traces.Extends st.traces) : st'.books = st.books ∧ Booked st' := by
  have hfind : ∀ q, st'.findMemoryItem q = st.findMemoryItem q := fun q => findMemoryItem_congr hmem q
  refine ⟨?_, by rw [hmem]; exact hr.keys, fun q other hq => ?_⟩
  · funext q
    show (st'.findMemoryItem q).map _ = (st.findMemoryItem q).map _
    rw [hfind]
    cases hq : st.findMemoryItem q with
    | none => rfl
    | some other =>
      show some _ = some _
      rw [entry_extend (hr.traces q other hq) hx]
  · rw [hfind] at hq
    have hother := hr.traces q other hq
    exact hother.extend hx

/-- One record is added or replaced. -/
theorem books_put (hr : Booked st) (hx : st'.traces.Extends st.traces)
    (hfind : ∀ q, st'.findMemoryItem q = if q = p then some item else st.findMemoryItem q)
    (hkeys : (st'.memoryItems.map Prod.fst).Nodup) (hitem : st'.traces.HasTraces item) :
    st'.books = Function.update st.books p (some (st'.traces.entry item)) ∧ Booked st' := by
  refine ⟨?_, hkeys, fun q other hq => ?_⟩
  · funext q
    show (st'.findMemoryItem q).map _ = _
    rw [hfind]
    by_cases hqp : q = p
    · rw [if_pos hqp, hqp, Function.update_self]
      rfl
    · rw [if_neg hqp, Function.update_of_ne hqp]
      show _ = (st.findMemoryItem q).map _
      cases hq : st.findMemoryItem q with
      | none => rfl
      | some other =>
        show some _ = some _
        rw [entry_extend (hr.traces q other hq) hx]
  · rw [hfind] at hq
    split_ifs at hq with hqp
    · cases hq
      exact hitem
    · have hother := hr.traces q other hq
      exact hother.extend hx

theorem keys_setMemoryItem (p : Addr) (item : SMemoryItem) :
    (st.setMemoryItem p item).memoryItems.map Prod.fst = st.memoryItems.map Prod.fst :=
  Entries.map_fst_setFirst

theorem keys_registerMemoryItem (hr : registerMemoryItem st env p item = some st')
    (hkeys : (st.memoryItems.map Prod.fst).Nodup) : (st'.memoryItems.map Prod.fst).Nodup := by
  rcases registerMemoryItem_cases hr with ⟨hf, -, rfl⟩ | ⟨old, -, rfl⟩
  · show (p :: st.memoryItems.map Prod.fst).Nodup
    refine List.nodup_cons.mpr ⟨?_, hkeys⟩
    intro hmem
    obtain ⟨e, he, hep⟩ := List.mem_map.mp hmem
    have habsent := Entries.lookup_none_iff.mp hf e he
    simp [hep] at habsent
  · show ((Entries.setFirst _ item st.memoryItems).map Prod.fst).Nodup
    rw [Entries.map_fst_setFirst]
    exact hkeys

/-- A registration, with or without a report. -/
theorem books_addNew (hr : Booked st) (hgrow : env.memoryItem = true) (ty : MemoryType) (p : Addr)
    (hbt : st.traces.Created bt) :
    (addNewAllocatedMemoryAndCleanOldEntryNoLock st env ty p bt).st.books =
        st.books.register p ty ⟨convertBacktraceToNames st.traces bt⟩ ∧
      Booked (addNewAllocatedMemoryAndCleanOldEntryNoLock st env ty p bt).st := by
  obtain ⟨st₁, hreg⟩ := registerMemoryItem_isSome st p ⟨ty, .allocated, p, bt, none⟩ hgrow
  have hadd : addNewAllocatedMemoryAndCleanOldEntryNoLock st env ty p bt =
      registerStackItem st₁ env ⟨ty, .allocated, p, bt, none⟩ p bt := by
    simp only [addNewAllocatedMemoryAndCleanOldEntryNoLock, hreg]
  obtain ⟨-, -, -, -, -, -, hnext, hdata⟩ := registerMemoryItem_frame hreg
  have hx : st₁.traces.Extends st.traces := extends_of_eq hnext hdata
  have hitem : st₁.traces.HasTraces ⟨ty, .allocated, p, bt, none⟩ :=
    ⟨hx.created hbt, (fun t ht => by cases ht), fun _ => rfl⟩
  obtain ⟨hbooks, hrec⟩ := books_put hr hx (registerMemoryItem_find hreg)
    (keys_registerMemoryItem hreg hr.keys) hitem
  obtain ⟨hmem', hnext', hdata'⟩ := registerStackItem_records st₁ env ⟨ty, .allocated, p, bt, none⟩ p bt
  obtain ⟨hbooks', hrec'⟩ := books_same hrec hmem' (extends_of_eq hnext' hdata')
  rw [hadd]
  refine ⟨?_, hrec'⟩
  rw [hbooks', hbooks]
  have hentry : st₁.traces.entry ⟨ty, .allocated, p, bt, none⟩ =
      ⟨ty, ⟨convertBacktraceToNames st.traces bt⟩, none⟩ := by
    simp only [TraceHeap.entry, hx.names hbt, if_true]
  rw [hentry]
  rfl

/-- The books count the blocks of a stack as the tracker does. -/
theorem count_books {gap : Backtrace → ℕ} (hr : Booked st) (hacc : Accounted st gap)
    (s : Backtrace) : st.books.count s = st.allocatedCount s := by
  have hset : {p | ∃ e, st.books p = some e ∧ e.released = none ∧ e.stack = s} =
      {p | ∃ item, Entries.lookup (fun k => decide (k = p)) st.memoryItems = some item ∧
        (item.status = .allocated ∧ Backtrace.mk (convertBacktraceToNames st.traces item.allocTrace) = s)} := by
    ext p
    show (∃ e, (st.findMemoryItem p).map st.traces.entry = some e ∧ e.released = none ∧ e.stack = s) ↔
      ∃ item, st.findMemoryItem p = some item ∧ _
    cases st.findMemoryItem p with
    | none => simp
    | some item =>
      simp only [Option.map_some, Option.some.injEq, exists_eq_left', TraceHeap.entry]
      by_cases hst : item.status = .allocated
      · simp [hst]
      · simp [hst]
  unfold Books.count
  rw [hset, Entries.ncard_lookup _ hr.keys]
  refine List.countP_congr fun e he => ?_
  obtain ⟨t, ht, -, -⟩ := hacc.records e he
  rw [ht]
  show decide (e.2.status = .allocated ∧ st.traces.data t = s) = true ↔ _
  simp [TraceHeap.holds]

end Books

end CrashInvestigator.Tracker
