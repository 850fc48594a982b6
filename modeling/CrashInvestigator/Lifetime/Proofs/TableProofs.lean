import CrashInvestigator.HashItems.Proofs.EntryListProofs
import CrashInvestigator.HashItems.Proofs.IterationProofs
import CrashInvestigator.Lifetime.Life
import CrashInvestigator.Tracker.Proofs.StepProofs

/-!
# The real tables in use

While the two tables are sound, each use of them succeeds and does what the tracker model does with
its entry lists: a search finds the entry of the list, a write, an insertion and a removal change it
alike.
-/

namespace CrashInvestigator.Lifetime

open Library HashItems
open Tracker (Addr Backtrace BacktracePtr SMemoryItem TraceHeap isTheSameStack isTheSameStack_iff)

/-! ## Keys of the table of stacks -/

theorem StackKey.beq_iff {k k' : StackKey} :
    (k == k') = true ↔ k.stack.ppBuffer ≠ [] ∧ k.stack = k'.stack := isTheSameStack_iff

/-- The test is not reflexive: a stack without frames is not the same as itself. -/
instance : PartialEquivBEq StackKey where
  symm := by
    intro k k' h
    obtain ⟨hne, heq⟩ := StackKey.beq_iff.mp h
    refine StackKey.beq_iff.mpr ⟨?_, heq.symm⟩
    rwa [← heq]
  trans := by
    intro k k' k'' h h'
    obtain ⟨hne, heq⟩ := StackKey.beq_iff.mp h
    obtain ⟨-, heq'⟩ := StackKey.beq_iff.mp h'
    exact StackKey.beq_iff.mpr ⟨hne, heq.trans heq'⟩

instance : LawfulHashable StackKey where
  hash_eq := by
    intro k k' h
    obtain ⟨-, heq⟩ := StackKey.beq_iff.mp h
    show hashOfTheStack k.stack = hashOfTheStack k'.stack
    rw [heq]

/-! ## Checked uses that succeed -/

@[simp] theorem checked_ok {α : Type*} (a : α) : checked (.ok a) = .ok a := rfl

theorem freeBacktraceData_ok {h : TraceHeap} {p : BacktracePtr}
    (halive : ∀ t, p = some t → h.frees t = 0) :
    freeBacktraceData h p = .ok (Tracker.freeBacktraceData h p) := by
  cases p with
  | none => rfl
  | some t => exact if_pos (halive t rfl)

theorem readBacktrace_ok {h : TraceHeap} {t : ℕ} (halive : h.frees t = 0) :
    readBacktrace h t = .ok ⟨t, h.data t⟩ := if_pos halive

theorem convertBacktraces_ok {h : TraceHeap} {ts : List BacktracePtr}
    (halive : ∀ t, some t ∈ ts → h.frees t = 0) : convertBacktraces h ts = .ok () := by
  induction ts with
  | nil => rfl
  | cons p ts ih =>
    have hrest := ih fun t ht => halive t (List.mem_cons_of_mem _ ht)
    cases p with
    | none => exact hrest
    | some t =>
      have hread := readBacktrace_ok (halive t (List.mem_cons_self ..))
      simp only [convertBacktraces, hread, bind, Except.bind, hrest]

/-- With living keys the loop is that of any table. -/
theorem walkStackItems_eq {h : TraceHeap} {t : Table StackKey ℕ} {a_key : StackKey}
    (halive : ∀ a item, t.items a = some item → h.frees item.first.trace = 0) (fuel : ℕ)
    (pItem : Option ℕ) :
    walkStackItems h t a_key fuel pItem = checked (t.walk a_key fuel pItem) := by
  induction fuel generalizing pItem with
  | zero => rfl
  | succ fuel ih =>
    cases pItem with
    | none => rfl
    | some a =>
      cases ha : t.items a with
      | none => simp [walkStackItems, Table.walk, ha, checked]
      | some item =>
        have hread := readBacktrace_ok (halive a item ha)
        simp only [walkStackItems, Table.walk, ha, hread, bind, Except.bind, ih]
        split <;> rfl

section Sessions

variable {κ ν : Type*} [BEq κ] [Hashable κ] {s : Session κ ν} {e : Entry κ ν}

theorem second_ok (h : HashItems.Sound s) (he : e ∈ s.entries) :
    second s e.iterator = .ok e.value := by
  obtain ⟨item, hitem, -, hsecond, -⟩ := h.holds e he
  simp [second, Table.read_of_some hitem, Except.map, hsecond]

variable [PartialEquivBEq κ] [LawfulHashable κ] {op : ListOp κ ν}

/-- A client of the entry list succeeds. -/
theorem perform_ok (h : HashItems.Sound s) (hallowed : op.Allowed s)
    (hC : PatchesNeighbours s (op.call s)) :
    perform s (op.call s) = .ok (ListOp.step s op) := by
  have hno : (HashItems.step s (op.call s)).fault = none := (h.mirror hallowed hC).1.noFault
  unfold perform
  rw [hno]
  rfl

end Sessions

/-! ## The two tables -/

/-- The tables are sound, and the keys of the stacks are what their objects hold. -/
structure Tables (s : State) : Prop where
  memoryItems : Linked s.memoryItems
  stackItems : HashItems.Sound s.stackItems
  keys : ∀ k ∈ (pairs s.stackItems.entries).map Prod.fst,
    k.trace < s.traces.next ∧ k.stack = s.traces.data k.trace

section

variable {s : State} {p : Addr} {t n : ℕ} {e : Entry Addr SMemoryItem} {k : Entry StackKey ℕ}

theorem Tables.findMemoryItem (h : Tables s) : s.findMemoryItem p =
    .ok ((s.memoryItems.lookup p).map Entry.iterator, unSize p) := by
  unfold State.findMemoryItem
  rw [h.memoryItems.sound.refinesMap.finds p _ (Nat.lt_succ_self _)]
  rfl

theorem abs_findMemoryItem :
    s.abs.findMemoryItem p = (s.memoryItems.lookup p).map Entry.value := lookup_pairs.symm

theorem Tables.second_memoryItem (h : Tables s) (hf : s.memoryItems.lookup p = some e) :
    second s.memoryItems e.iterator = .ok e.value :=
  second_ok h.memoryItems.sound (List.mem_of_find?_eq_some hf)

theorem lookup_key (hf : s.memoryItems.lookup p = some e) : e.key = p := by
  obtain ⟨-, -, -, -, hkey⟩ := lookup_split hf
  simpa using hkey

/-- A write through the iterator of a record. -/
theorem Tables.writeMemoryItem (h : Tables s) (hf : s.memoryItems.lookup p = some e)
    (item : SMemoryItem) : ∃ m, perform s.memoryItems (.setSecond e.iterator item) = .ok m ∧
      Linked m ∧ pairs m.entries = (s.abs.setMemoryItem p item).memoryItems := by
  have hcall : (ListOp.assign p item).call s.memoryItems = .setSecond e.iterator item :=
    ListOp.call_assign_some hf
  have hallowed : (ListOp.assign p item).Allowed s.memoryItems := trivial
  have hC : PatchesNeighbours s.memoryItems ((ListOp.assign p item).call s.memoryItems) := by
    rw [hcall]
    trivial
  have hfirst : RemovesFirst s.memoryItems ((ListOp.assign p item).call s.memoryItems) := by
    rw [hcall]
    trivial
  have hok := perform_ok h.memoryItems.sound hallowed hC
  rw [hcall] at hok
  exact ⟨_, hok, h.memoryItems.step hallowed.valid hfirst,
    (h.memoryItems.sound.mirror hallowed hC).2⟩

/-- A new record. -/
theorem Tables.insertMemoryItem (h : Tables s) (hf : s.memoryItems.lookup p = none)
    (item : SMemoryItem) {a : ℕ} (hfree : s.memoryItems.table.items a = none) :
    ∃ m, perform s.memoryItems (.addEntryWithKnownHash p (unSize p) item (some a)) = .ok m ∧
      Linked m ∧ pairs m.entries = (p, item) :: s.abs.memoryItems := by
  have hallowed : (ListOp.insert p item a).Allowed s.memoryItems := by
    refine ⟨fun e he => ?_, hfree⟩
    simpa using List.find?_eq_none.mp hf e he
  have hmirror := h.memoryItems.sound.mirror hallowed trivial
  exact ⟨_, perform_ok h.memoryItems.sound hallowed trivial, h.memoryItems.step hallowed.valid trivial,
    hmirror.2⟩

theorem lookup_mem (hf : s.memoryItems.lookup p = some e) : e ∈ s.memoryItems.entries :=
  List.mem_of_find?_eq_some hf

/-- The key under which `m_stackItems` is searched for the stack of an object. -/
abbrev State.stackKey (s : State) (t : ℕ) : StackKey := ⟨t, s.traces.data t⟩

/-- No key of a stack was freed. -/
def State.KeysAlive (s : State) : Prop := ∀ k ∈ s.stackItems.entries, s.traces.frees k.key.trace = 0

theorem Tables.findStackItem (h : Tables s) (halive : s.KeysAlive) (ht : s.traces.frees t = 0) :
    s.findStackItem t =
      .ok ((s.stackItems.lookup (s.stackKey t)).map Entry.iterator, s.stackKey t) := by
  have hitems : ∀ a item, s.stackItems.table.items a = some item →
      s.traces.frees item.first.trace = 0 := by
    intro a item ha
    obtain ⟨k, hk, -, hfirst, -⟩ := h.stackItems.entry ha
    rw [hfirst]
    exact halive k hk
  have hfind := h.stackItems.refinesMap.finds (s.stackKey t) (s.stackItems.entries.length + 1)
    (Nat.lt_succ_self _)
  have hwalk : s.stackItems.table.walk (s.stackKey t) (s.stackItems.entries.length + 1)
      (s.stackItems.table.ppItems (unSize (s.stackKey t))) =
        .ok ((s.stackItems.lookup (s.stackKey t)).map Entry.iterator) := by
    unfold Table.findEntry Table.findEntryRaw at hfind
    split at hfind
    · cases hfind
    · next hw =>
      cases hfind
      exact hw
  unfold State.findStackItem
  simp only [readBacktrace_ok ht, bind, Except.bind, walkStackItems_eq hitems, hwalk, checked_ok]

/-- The keys as the tracker model has them. -/
theorem abs_stackItems : s.abs.stackItems =
    (pairs s.stackItems.entries).map fun e => (e.1.trace, e.2) := by
  simp [State.abs, pairs]

theorem abs_withStackItems (m : Session StackKey ℕ) : State.abs { s with stackItems := m } =
    { s.abs with stackItems := (pairs m.entries).map fun e => (e.1.trace, e.2) } := by
  simp [State.abs, pairs]

/-- The test of the tracker model on pointers is that of the table on keys. -/
theorem Tables.sameStackAs (h : Tables s) (t : ℕ) : ∀ e ∈ pairs s.stackItems.entries,
    s.traces.sameStackAs t e.1.trace = (e.1 == s.stackKey t) := by
  intro e he
  have hstack := (h.keys e.1 (List.mem_map_of_mem he)).2
  show isTheSameStack (s.traces.data e.1.trace) (s.traces.data t) =
    isTheSameStack e.1.stack (s.traces.data t)
  rw [hstack]

theorem Tables.abs_findStackItem (h : Tables s) (t : ℕ) : s.abs.findStackItem t =
    (s.stackItems.lookup (s.stackKey t)).map fun k => (k.key.trace, k.value) := by
  show Entries.findEntry (s.traces.sameStackAs t) s.abs.stackItems = _
  rw [abs_stackItems, Entries.findEntry_mapKeys (q := (· == s.stackKey t)) (h.sameStackAs t)]
  unfold Entries.findEntry pairs Session.lookup
  rw [List.find?_map, Option.map_map]
  rfl

theorem Tables.second_stackItem (h : Tables s) (hf : s.stackItems.lookup (s.stackKey t) = some k) :
    second s.stackItems k.iterator = .ok k.value :=
  second_ok h.stackItems (List.mem_of_find?_eq_some hf)

/-- A change of the table of stacks. The key of a new counter is that of an object. -/
theorem Tables.changeStackItems (h : Tables s) {op : ListOp StackKey ℕ}
    (hallowed : op.Allowed s.stackItems) (hC : PatchesNeighbours s.stackItems (op.call s.stackItems))
    (hnew : ∀ k n a, op = .insert k n a →
      k.trace < s.traces.next ∧ k.stack = s.traces.data k.trace) :
    ∃ m, perform s.stackItems (op.call s.stackItems) = .ok m ∧
      Tables { s with stackItems := m } ∧
      pairs m.entries = op.onPairs (pairs s.stackItems.entries) := by
  obtain ⟨hsound, hpairs⟩ := h.stackItems.mirror hallowed hC
  refine ⟨_, perform_ok h.stackItems hallowed hC, ⟨h.memoryItems, hsound, ?_⟩, hpairs⟩
  intro k hk
  have hk' : k ∈ (op.onPairs (pairs s.stackItems.entries)).map Prod.fst := by
    rw [← hpairs]
    exact hk
  cases op with
  | insert a_key n a =>
    rcases List.mem_cons.mp hk' with rfl | hk'
    · exact hnew _ n a rfl
    · exact h.keys k hk'
  | assign a_key n =>
    have hsame := Entries.map_fst_setFirst (q := (· == a_key)) (v := n)
      (l := pairs s.stackItems.entries)
    refine h.keys k ?_
    rw [← hsame]
    exact hk'
  | remove a_key =>
    obtain ⟨e, he, rfl⟩ := List.mem_map.mp hk'
    exact h.keys e.1 (List.mem_map_of_mem (Entries.mem_of_mem_removeFirst he))

/-- The counter of a stack is written. -/
theorem Tables.writeStackItem (h : Tables s) (hf : s.stackItems.lookup (s.stackKey t) = some k)
    (n : ℕ) : ∃ m, perform s.stackItems (.setSecond k.iterator n) = .ok m ∧
      Tables { s with stackItems := m } ∧
      State.abs { s with stackItems := m } = s.abs.setStackItem t n := by
  have hcall : (ListOp.assign (s.stackKey t) n).call s.stackItems = .setSecond k.iterator n :=
    ListOp.call_assign_some hf
  have hallowed : (ListOp.assign (s.stackKey t) n).Allowed s.stackItems := trivial
  obtain ⟨m, hok, htables, hpairs⟩ := h.changeStackItems hallowed (by rw [hcall]; trivial) (by simp)
  rw [hcall] at hok
  refine ⟨m, hok, htables, ?_⟩
  rw [abs_withStackItems, hpairs]
  unfold Tracker.State.setStackItem
  show _ = { s.abs with
    stackItems := Entries.setFirst (s.traces.sameStackAs t) n s.abs.stackItems }
  rw [abs_stackItems, Entries.setFirst_mapKeys (q := (· == s.stackKey t)) (h.sameStackAs t)]
  rfl

/-- The counter of a stack is removed. -/
theorem Tables.removeStackItem (h : Tables s)
    (hf : s.stackItems.lookup (s.stackKey t) = some k)
    (hC : PatchesNeighbours s.stackItems (.removeEntry (some k.iterator))) :
    ∃ m, perform s.stackItems (.removeEntry (some k.iterator)) = .ok m ∧
      Tables { s with stackItems := m } ∧
      State.abs { s with stackItems := m } = s.abs.removeStackItem t := by
  have hcall : (ListOp.remove (s.stackKey t)).call s.stackItems =
      .removeEntry (some k.iterator) := by
    simp [ListOp.call, hf]
  have hallowed : (ListOp.remove (s.stackKey t)).Allowed s.stackItems := trivial
  obtain ⟨m, hok, htables, hpairs⟩ := h.changeStackItems hallowed (by rw [hcall]; exact hC)
    (by simp)
  rw [hcall] at hok
  refine ⟨m, hok, htables, ?_⟩
  rw [abs_withStackItems, hpairs]
  unfold Tracker.State.removeStackItem
  show _ = { s.abs with
    stackItems := Entries.removeFirst (s.traces.sameStackAs t) s.abs.stackItems }
  rw [abs_stackItems, Entries.removeFirst_mapKeys (q := (· == s.stackKey t)) (h.sameStackAs t)]
  rfl

/-- A stack is counted for the first time. -/
theorem Tables.insertStackItem (h : Tables s) (ht : t < s.traces.next)
    (hf : s.stackItems.lookup (s.stackKey t) = none) {a : ℕ}
    (hfree : s.stackItems.table.items a = none) :
    ∃ m, perform s.stackItems
        (.addEntryWithKnownHash (s.stackKey t) (unSize (s.stackKey t)) 1 (some a)) = .ok m ∧
      Tables { s with stackItems := m } ∧
      State.abs { s with stackItems := m } =
        { s.abs with stackItems := (t, 1) :: s.abs.stackItems } := by
  have hallowed : (ListOp.insert (s.stackKey t) 1 a).Allowed s.stackItems := by
    refine ⟨fun e he => ?_, hfree⟩
    simpa using List.find?_eq_none.mp hf e he
  obtain ⟨m, hok, htables, hpairs⟩ := h.changeStackItems hallowed trivial (by
    intro k n a' hk
    cases hk
    exact ⟨ht, rfl⟩)
  refine ⟨m, hok, htables, ?_⟩
  rw [abs_withStackItems, hpairs, abs_stackItems]
  rfl

end

end CrashInvestigator.Lifetime
