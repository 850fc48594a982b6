import CrashInvestigator.Lifetime.Proofs.CallProofs

/-!
# Construction and destruction

The constructor leaves empty tables that are in order. The destructor leaves the tables as they were
if nothing was recorded, and otherwise heads that lead to freed items, in the buckets of the recorded
addresses.
-/

namespace CrashInvestigator.Lifetime

open Library HashItems
open Tracker (Addr BacktracePtr MemoryType Owned SMemoryItem TraceHeap)

variable {s : State} {env : Env} {p : Addr} {bt : BacktracePtr} {buried : List Addr}

theorem Tidy.init (ndebug : Bool) : Tidy (.init ndebug) := by
  have hempty : Owned (State.init ndebug).abs := by
    refine Owned.init.congr rfl ?_ (Nat.le_refl _) rfl
    intro t ht
    cases ht
  refine ⟨rfl, ⟨Linked.init, HashItems.Sound.init, ?_⟩, hempty, ?_, ?_⟩
  · intro k hk
    cases hk
  · intro e he
    cases he
  · intro t ht
    cases ht

theorem Tidy.construct (h : Tidy s) : Tidy s.construct := by
  refine ⟨h.flag, ⟨Linked.init, HashItems.Sound.init, ?_⟩, ⟨?_, h.owned.fresh, ?_, List.nodup_nil,
    h.owned.once, ?_⟩, ?_, ?_⟩
  · intro k hk
    cases hk
  · intro t ht
    cases ht
  · intro t ht
    cases ht
  · intro t ht
    cases ht
  · intro e he
    cases he
  · intro t ht
    obtain ⟨hlt, hzero, -⟩ := h.handler t ht
    refine ⟨hlt, hzero, fun hin => ?_⟩
    cases hin

/-! ## The destructor -/

/-- The traces of some records. -/
def entryTraces (l : List (Entry Addr SMemoryItem)) : List ℕ := l.flatMap fun e => e.value.traces

theorem recordTraces_eq : s.abs.recordTraces = entryTraces s.memoryItems.entries := by
  unfold Tracker.State.recordTraces entryTraces State.abs
  rw [List.flatMap_map]

/-- The two traces of a record are freed, and no others. -/
theorem freeBoth_ok {h : TraceHeap} {item : SMemoryItem} (hnd : item.traces.Nodup)
    (halive : ∀ t ∈ item.traces, h.frees t = 0) :
    ∃ h₁ h₂, freeBacktraceData h item.deallocTrace = .ok h₁ ∧
      freeBacktraceData h₁ item.allocTrace = .ok h₂ ∧ h₂.next = h.next ∧
      ∀ t, t ∉ item.traces → h₂.frees t = h.frees t := by
  have hdealloc : ∀ t, item.deallocTrace = some t → h.frees t = 0 :=
    fun t ht => halive t (by simp [SMemoryItem.traces, ht])
  have halloc : ∀ t, item.allocTrace = some t →
      (Tracker.freeBacktraceData h item.deallocTrace).frees t = 0 := by
    intro t ht
    have hne : item.deallocTrace ≠ some t := by
      intro hde
      simp [SMemoryItem.traces, ht, hde] at hnd
    rw [Tracker.freeBacktraceData_frees_of_ne _ _ hne]
    exact halive t (by simp [SMemoryItem.traces, ht])
  refine ⟨_, _, freeBacktraceData_ok hdealloc, freeBacktraceData_ok halloc, by simp, fun t ht => ?_⟩
  have hout : item.allocTrace ≠ some t ∧ item.deallocTrace ≠ some t := by
    simpa [SMemoryItem.traces] using ht
  rw [Tracker.freeBacktraceData_frees_of_ne _ _ hout.1,
    Tracker.freeBacktraceData_frees_of_ne _ _ hout.2]

/-- The loop over the records frees their traces, if each of them belongs to one record. -/
theorem freeRecordTraces_ok {m : Session Addr SMemoryItem} (hs : HashItems.Sound m)
    {l : List (Entry Addr SMemoryItem)} {h : TraceHeap} (hl : ∀ e ∈ l, e ∈ m.entries)
    (hnd : (entryTraces l).Nodup) (halive : ∀ t ∈ entryTraces l, h.frees t = 0) :
    ∃ h', freeRecordTraces m (addresses l) h = .ok h' ∧ h'.next = h.next ∧
      ∀ t, t ∉ entryTraces l → h'.frees t = h.frees t := by
  induction l generalizing h with
  | nil => exact ⟨h, rfl, rfl, fun _ _ => rfl⟩
  | cons e l ih =>
    have hcons : entryTraces (e :: l) = e.value.traces ++ entryTraces l := rfl
    rw [hcons] at hnd halive ⊢
    obtain ⟨hown, hrest, hapart⟩ := List.nodup_append.mp hnd
    have hread := second_ok hs (hl e (List.mem_cons_self ..))
    obtain ⟨h₁, h₂, hok₁, hok₂, hnext₂, hframe₂⟩ :=
      freeBoth_ok hown fun t ht => halive t (List.mem_append_left _ ht)
    obtain ⟨h', hok, hnext, hframe⟩ := ih (fun x hx => hl x (List.mem_cons_of_mem _ hx)) hrest (by
      intro t ht
      have hout : t ∉ e.value.traces := fun hin => hapart t hin t ht rfl
      rw [hframe₂ t hout]
      exact halive t (List.mem_append_right _ ht))
    refine ⟨h', ?_, hnext.trans hnext₂, fun t ht => ?_⟩
    · have haddr : addresses (e :: l) = e.iterator :: addresses l := rfl
      rw [haddr]
      simp only [freeRecordTraces, hread, hok₁, hok₂, bind, Except.bind, hok]
    · rw [List.mem_append, not_or] at ht
      rw [hframe t ht.2, hframe₂ t ht.1]

section Destroy

variable {κ ν : Type*} {m : Session κ ν}

/-- A list of all items that ends can be freed; the heads of the buckets do not notice. -/
theorem destroy_ok {visited : List ℕ}
    (h : m.table.iterate (m.entries.length + 1) m.table.begin = .ok visited) :
    ∃ m', destroy m = .ok m' ∧ m'.entries = [] ∧ m'.table.ppItems = m.table.ppItems ∧
      ∀ a ∈ visited, m'.table.items a = none := by
  obtain ⟨t', hloop⟩ := destroy_of_iterate h
  have hloop' : m.table.destroy (m.entries.length + 1) m.table.pFirstItem = .ok (t', visited) :=
    hloop
  obtain ⟨hheads, hfreed, -⟩ := destroy_frame hloop
  refine ⟨{ m with table := t', entries := [] }, ?_, rfl, hheads, hfreed⟩
  simp only [destroy, hloop', checked_ok, bind, Except.bind]

/-- An empty table is left as it was. -/
theorem destroy_empty (hentries : m.entries = []) (hfirst : m.table.pFirstItem = none) :
    destroy m = .ok m := by
  unfold destroy
  rw [hentries, hfirst]
  simp only [Table.destroy, checked_ok, bind, Except.bind, ← hentries]

end Destroy

/-- What the destruction of a table with records leaves. -/
structure Ruined (buried : List Addr) (s : State) : Prop where
  flag : s.bIsAllocingOrDeallocing = false
  entries : s.memoryItems.entries = []
  heads : ∀ i, (∀ q ∈ buried, unSize q ≠ i) → s.memoryItems.table.ppItems i = none
  dangling : ∀ q ∈ buried, ∃ a, s.memoryItems.table.ppItems (unSize q) = some a ∧
    s.memoryItems.table.items a = none
  handler : ∀ t, s.handlerTrace = some t → t < s.traces.next ∧ s.traces.frees t = 0
  fresh : ∀ t, s.traces.next ≤ t → s.traces.frees t = 0

/-- Without records nothing changes. -/
theorem Tidy.destruct_empty (h : Tidy s) (hentries : s.memoryItems.entries = []) :
    s.destruct = .ok s := by
  have hstacks : s.stackItems.entries = [] := by
    rw [List.eq_nil_iff_forall_not_mem]
    intro k hk
    obtain ⟨e, he, -⟩ := h.owned.keys k.key.trace (mem_stackKeys.mpr ⟨k, hk, rfl⟩)
    simp [State.abs, hentries] at he
  have hfirst : s.memoryItems.table.pFirstItem = none := by
    rw [h.tables.memoryItems.sound.first, hentries]
    rfl
  have hfirst' : s.stackItems.table.pFirstItem = none := by
    rw [h.tables.stackItems.first, hstacks]
    rfl
  have hiterate := h.tables.memoryItems.iterate (Nat.lt_succ_self _)
  have haddr : HashItems.addresses s.memoryItems.entries = [] := by
    rw [hentries]
    rfl
  rw [haddr] at hiterate
  unfold State.destruct
  simp only [hiterate, checked_ok, bind, Except.bind, freeRecordTraces,
    destroy_empty hstacks hfirst', destroy_empty hentries hfirst]

theorem Tidy.destruct (h : Tidy s) (hends : ListEnds s.stackItems) :
    ∃ s', s.destruct = .ok s' ∧ Ruined s.recorded s' := by
  have hsound := h.tables.memoryItems.sound
  have hiterate := h.tables.memoryItems.iterate (Nat.lt_succ_self _)
  have hnd := h.owned.nodup
  have halive : ∀ t ∈ s.abs.recordTraces, s.traces.frees t = 0 := h.owned.alive
  rw [recordTraces_eq] at hnd halive
  obtain ⟨traces, hfree, hnext, hframe⟩ := freeRecordTraces_ok hsound (fun _ he => he) hnd halive
  obtain ⟨visited, hvisited⟩ := hends
  obtain ⟨m', hm', -⟩ := destroy_ok hvisited
  obtain ⟨m, hm, hentries, hheads, hfreed⟩ := destroy_ok hiterate
  rw [← recordTraces_eq] at hframe
  refine ⟨{ s with traces := traces, stackItems := m', memoryItems := m }, ?_, h.flag, hentries,
    fun i hi => ?_, fun q hq => ?_, fun t ht => ?_, fun t ht => ?_⟩
  · unfold State.destruct
    simp only [hiterate, checked_ok, bind, Except.bind, hfree, hm', hm]
  · show m.table.ppItems i = none
    have hchain : chainOf s.memoryItems.entries i = [] := by
      rw [List.eq_nil_iff_forall_not_mem]
      intro a ha
      obtain ⟨e, he, -, hbucket⟩ := mem_chainOf.mp ha
      exact hi e.key (List.mem_map_of_mem he) hbucket
    rw [hheads, hsound.heads, hchain]
    rfl
  · obtain ⟨e, he, rfl⟩ := List.mem_map.mp hq
    have hin : e.iterator ∈ chainOf s.memoryItems.entries (unSize e.key) :=
      mem_chainOf.mpr ⟨e, he, rfl, rfl⟩
    obtain ⟨a, rest, hchain⟩ := List.exists_cons_of_ne_nil (List.ne_nil_of_mem hin)
    have hmem : a ∈ chainOf s.memoryItems.entries (unSize e.key) := by
      rw [hchain]
      exact List.mem_cons_self ..
    refine ⟨a, ?_, hfreed a (chainOf_sublist.subset hmem)⟩
    show m.table.ppItems (unSize e.key) = some a
    rw [hheads, hsound.heads, hchain]
    rfl
  · obtain ⟨hlt, hzero, hout⟩ := h.handler t ht
    exact ⟨Nat.lt_of_lt_of_eq hlt hnext.symm, (hframe t hout).trans hzero⟩
  · have hle : s.traces.next ≤ t := by
      rw [← hnext]
      exact ht
    have hout : t ∉ s.abs.recordTraces := by
      intro hin
      have hlt : t < s.traces.next := h.owned.below t hin
      omega
    exact (hframe t hout).trans (h.owned.fresh t hle)

/-! ## After the destruction -/

/-- A release of an address in a bucket that was empty does not look at what is left. -/
theorem Ruined.delete (h : Ruined buried s) (env : Env) (hp : p ≠ 0) (ty : MemoryType)
    (hbucket : ∀ q ∈ buried, unSize q ≠ unSize p) :
    ∃ r, testOperatorDelete s env p ty = .ok r ∧ Ruined buried r.st ∧
      ReleasesUntracked p r.events := by
  have hfind : (s.capture env).findMemoryItem p = .ok (none, unSize p) := by
    have hhead := h.heads (unSize p) hbucket
    have hentries : (s.capture env).memoryItems = s.memoryItems := rfl
    unfold State.findMemoryItem Table.findEntry Table.findEntryRaw
    rw [hentries, hhead]
    rfl
  have hhandler : ∀ t, (s.capture env).handlerTrace = some t → t < (s.capture env).traces.next ∧
      (s.capture env).traces.frees t = 0 := by
    intro t ht
    obtain ⟨hlt, hzero⟩ := h.handler t ht
    rw [frees_capture]
    exact ⟨Nat.lt_of_lt_of_le hlt next_capture, hzero⟩
  have hfresh : ∀ t, (s.capture env).traces.next ≤ t → (s.capture env).traces.frees t = 0 := by
    intro t ht
    rw [frees_capture]
    exact h.fresh t (Nat.le_trans next_capture ht)
  have hc : Ruined buried (s.capture env) := ⟨h.flag, h.entries, h.heads, h.dangling, hhandler, hfresh⟩
  rw [testOperatorDelete_eq h.flag hp ty]
  simp only [hfind, bind, Except.bind]
  refine ⟨_, deleteUntracked_ok fun t ht => (hhandler t ht).2, ?_⟩
  cases hi : env.initialDealloc with
  | true => exact ⟨hc, Or.inl rfl⟩
  | false =>
    -- the trace that is freed is older than the captured one
    have hother : ∀ t, s.traces.next ≤ t →
        (Tracker.freeBacktraceData (s.capture env).traces
          (if env.handlerMemory then s.handlerTrace else none)).frees t = 0 := by
      intro t ht
      rw [Tracker.freeBacktraceData_frees_of_ne, frees_capture]
      · exact h.fresh t ht
      · intro hfreed
        split_ifs at hfreed
        obtain ⟨hlt, -⟩ := h.handler t hfreed
        omega
    refine ⟨⟨h.flag, h.entries, h.heads, h.dangling, fun t ht => ⟨?_, ?_⟩, fun t ht => ?_⟩,
      Or.inr rfl⟩
    · simpa using captured_lt ht
    · exact hother t (Nat.le_of_eq (captured_new ht).symm)
    · have ht' : (s.capture env).traces.next ≤ t := by simpa using ht
      exact hother t (Nat.le_trans next_capture ht')

/-- After the destruction of a table with records, a release reads a freed item exactly when its
address is in the bucket of one of them. -/
theorem Ruined.delete_error_iff (h : Ruined buried s) (env : Env) (hp : p ≠ 0) (ty : MemoryType) :
    testOperatorDelete s env p ty = .error (.item .useAfterFree) ↔
      ∃ q ∈ buried, unSize q = unSize p := by
  constructor
  · intro herror
    by_contra hnone
    obtain ⟨r, hok, -⟩ := h.delete env hp ty fun q hq hbucket => hnone ⟨q, hq, hbucket⟩
    rw [hok] at herror
    cases herror
  · rintro ⟨q, hq, hbucket⟩
    obtain ⟨a, hhead, hfree⟩ := h.dangling q hq
    rw [hbucket] at hhead
    have hfind : (s.capture env).findMemoryItem p = .error (.item .useAfterFree) := by
      have hsame : (s.capture env).memoryItems = s.memoryItems := rfl
      unfold State.findMemoryItem Table.findEntry Table.findEntryRaw
      rw [hsame, hhead]
      simp [Table.walk, hfree, checked]
    rw [testOperatorDelete_eq h.flag hp ty, hfind]
    rfl

end CrashInvestigator.Lifetime
