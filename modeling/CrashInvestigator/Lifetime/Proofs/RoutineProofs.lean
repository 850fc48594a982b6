import CrashInvestigator.Lifetime.Proofs.TableProofs
import CrashInvestigator.Tracker.Proofs.AlignedProofs
import CrashInvestigator.Tracker.Proofs.OwnershipProofs

/-!
# The routines on sound tables

While the tables are sound and the records own their traces, the parts of the routines use nothing
that was freed, and they do to the tables what the parts of the tracker model do to the entry lists.
-/

namespace CrashInvestigator.Lifetime

open Library HashItems
open Tracker (Addr Backtrace BacktracePtr MemoryType Owned Process SMemoryItem TraceHeap
  initBacktraceDataForCurrentStack isTheSameStack)

variable {s s₁ : State} {env : Env} {p : Addr} {t : ℕ} {bt : BacktracePtr} {item : SMemoryItem}

/-! ## Parts of the tables -/

theorem keysAlive_of_owned (h : Owned s.abs) : s.KeysAlive := by
  intro k hk
  refine h.nothingDangles.1 k.key.trace ?_
  have hmem : (k.key.trace, k.value) ∈ s.abs.stackItems := List.mem_map.mpr ⟨k, hk, rfl⟩
  exact List.mem_map_of_mem hmem

/-- The tables do not depend on the other members, as long as no object is changed. -/
theorem Tables.congr (h : Tables s) (hmem : s₁.memoryItems = s.memoryItems)
    (hstk : s₁.stackItems = s.stackItems) (hnext : s.traces.next ≤ s₁.traces.next)
    (hdata : ∀ u, u < s.traces.next → s₁.traces.data u = s.traces.data u) : Tables s₁ := by
  refine ⟨hmem ▸ h.memoryItems, hstk ▸ h.stackItems, fun k hk => ?_⟩
  rw [hstk] at hk
  obtain ⟨hlt, hstack⟩ := h.keys k hk
  exact ⟨by omega, by rw [hstack, hdata _ hlt]⟩

/-- The state after the capture of a stack. -/
def State.capture (s : State) (env : Env) : State :=
  { s with traces := (initBacktraceDataForCurrentStack s.traces env.stack).1 }

def State.captured (s : State) (env : Env) : BacktracePtr :=
  (initBacktraceDataForCurrentStack s.traces env.stack).2

theorem Tables.capture (h : Tables s) (env : Env) : Tables (s.capture env) :=
  h.congr rfl rfl (Tracker.initBacktrace_next_le _ _)
    fun _ hu => Tracker.initBacktrace_data_of_lt _ _ hu

theorem abs_withMemoryItems (m : Session Addr SMemoryItem) :
    State.abs { s with memoryItems := m } = { s.abs with memoryItems := pairs m.entries } := rfl

/-- The traces of a record are alive, and stay so until they are freed themselves. -/
theorem alive_of_lookup (hown : Owned s.abs) {e : Entry Addr SMemoryItem}
    (hf : s.memoryItems.lookup p = some e) :
    (∀ u, e.value.allocTrace = some u → s.traces.frees u = 0) ∧
      (∀ u, e.value.deallocTrace = some u → s.traces.frees u = 0) ∧
      ∀ u, e.value.allocTrace = some u →
        (Tracker.freeBacktraceData s.traces e.value.deallocTrace).frees u = 0 := by
  have hf' : s.abs.findMemoryItem p = some e.value := by
    rw [abs_findMemoryItem, hf]
    rfl
  have hrec := (hown.ofRecord hf').2
  have halloc : ∀ u, e.value.allocTrace = some u → s.traces.frees u = 0 := by
    intro u hu
    exact hown.alive u (hrec u (by simp [SMemoryItem.traces, hu]))
  refine ⟨halloc, fun u hu => ?_, fun u hu => ?_⟩
  · exact hown.alive u (hrec u (by simp [SMemoryItem.traces, hu]))
  · rw [Tracker.freeBacktraceData_frees_of_ne _ _ (hown.distinct hf' hu)]
    exact halloc u hu

/-- The first half of the registration; the traces of a replaced record are alive. -/
theorem Tables.registerMemoryItem (h : Tables s)
    (hold : ∀ e, s.memoryItems.lookup p = some e →
      (∀ u, e.value.deallocTrace = some u → s.traces.frees u = 0) ∧
        ∀ u, e.value.allocTrace = some u →
          (Tracker.freeBacktraceData s.traces e.value.deallocTrace).frees u = 0)
    (hfree : ∀ a ∈ env.memoryItem, s.memoryItems.table.items a = none) :
    ∃ o, Lifetime.registerMemoryItem s env p item = .ok o ∧
      o.map State.abs = Tracker.registerMemoryItem s.abs (env.abs s.handlerTrace) p item ∧
      ∀ s₁, o = some s₁ → Tables s₁ ∧ s₁.handlerTrace = s.handlerTrace ∧
        s₁.stackItems = s.stackItems := by
  unfold Lifetime.registerMemoryItem Tracker.registerMemoryItem
  rw [h.findMemoryItem, abs_findMemoryItem]
  cases hf : s.memoryItems.lookup p with
  | none =>
    cases hm : env.memoryItem with
    | none => exact ⟨none, by simp [bind, Except.bind], by simp [Env.abs, hm], by simp⟩
    | some a =>
      obtain ⟨m, hok, hlinked, hpairs⟩ := h.insertMemoryItem hf item (hfree a hm)
      refine ⟨some { s with memoryItems := m }, ?_, ?_, ?_⟩
      · simp [bind, Except.bind, hok]
      · simp [Env.abs, hm, abs_withMemoryItems, hpairs]
      · intro s₁ hs
        cases hs
        exact ⟨⟨hlinked, h.stackItems, h.keys⟩, rfl, rfl⟩
  | some e =>
    obtain ⟨hdealloc, hlast⟩ := hold e hf
    obtain ⟨m, hok, hlinked, hpairs⟩ := h.writeMemoryItem hf item
    have hread := h.second_memoryItem hf
    set freed := Tracker.freeBacktraceData s.traces e.value.deallocTrace with hfreed
    refine ⟨some { s with
      memoryItems := m, traces := Tracker.freeBacktraceData freed e.value.allocTrace }, ?_, ?_, ?_⟩
    · simp [bind, Except.bind, hread, freeBacktraceData_ok hdealloc, ← hfreed,
        freeBacktraceData_ok hlast, hok]
    · show some { State.abs { s with memoryItems := m } with
        traces := Tracker.freeBacktraceData freed e.value.allocTrace } = _
      rw [abs_withMemoryItems, hpairs]
      rfl
    · intro s₁ hs
      cases hs
      have htables : Tables { s with memoryItems := m } := ⟨hlinked, h.stackItems, h.keys⟩
      exact ⟨htables.congr rfl rfl (by simp [hfreed]) (by simp [hfreed]), rfl, rfl⟩

/-- The second half, for a block whose stack has not reached its limit. -/
theorem Tables.registerStackItem (h : Tables s) (halive : s.KeysAlive)
    (hbt : ∀ t, bt = some t → t < s.traces.next ∧ s.traces.frees t = 0)
    (hfree : ∀ a ∈ env.stackItem, s.stackItems.table.items a = none)
    (hbelow : ∀ t, bt = some t → ∀ k ∈ s.stackItems.entries,
      isTheSameStack k.key.stack (s.traces.data t) = true →
        0 < s.unMaxNumberOfAllocFromTheSameStack → k.value < s.unMaxNumberOfAllocFromTheSameStack) :
    ∃ r, Lifetime.registerStackItem s env item p bt = .ok r ∧ r.events = [] ∧ Tables r.st ∧
      r.st = { s with stackItems := r.st.stackItems, process := r.st.process } ∧
      r.st.abs = (Tracker.registerStackItem s.abs (env.abs s.handlerTrace) item p bt).st ∧
      (Tracker.registerStackItem s.abs (env.abs s.handlerTrace) item p bt).events = [] := by
  cases bt with
  | none =>
    exact ⟨s.ends .crashed [], rfl, rfl, h.congr rfl rfl (Nat.le_refl _) (fun _ _ => rfl), rfl, rfl,
      rfl⟩
  | some t =>
    obtain ⟨hlt, hzero⟩ := hbt t rfl
    have hfind := h.findStackItem halive hzero
    unfold Lifetime.registerStackItem Tracker.registerStackItem
    simp only [hfind, h.abs_findStackItem, bind, Except.bind]
    cases hf : s.stackItems.lookup (s.stackKey t) with
    | none =>
      cases hm : env.stackItem with
      | none => exact ⟨⟨s, .throwsBadAlloc, []⟩, rfl, rfl, h, rfl, by simp [Env.abs, hm],
          by simp [Env.abs, hm]⟩
      | some a =>
        obtain ⟨m, hok, htables, habs⟩ := h.insertStackItem hlt hf (hfree a hm)
        refine ⟨⟨{ s with stackItems := m }, .returns p, []⟩, ?_, rfl, htables, rfl, ?_, ?_⟩
        · simp only [Option.map_none, hok]
        · simp [Env.abs, hm, habs]
        · simp [Env.abs, hm]
    | some k =>
      obtain ⟨m, hok, htables, habs⟩ := h.writeStackItem hf (k.value + 1)
      have hread := h.second_stackItem hf
      have hmax : s.abs.unMaxNumberOfAllocFromTheSameStack =
        s.unMaxNumberOfAllocFromTheSameStack := rfl
      by_cases hpos : 0 < s.unMaxNumberOfAllocFromTheSameStack
      · obtain ⟨-, -, -, -, hsame⟩ := lookup_split hf
        have hroom := hbelow t rfl k (List.mem_of_find?_eq_some hf) hsame hpos
        have hnot : ¬ s.unMaxNumberOfAllocFromTheSameStack < k.value + 1 := by omega
        refine ⟨⟨{ s with stackItems := m }, .returns p, []⟩, ?_, rfl, htables, rfl, ?_, ?_⟩
        · simp only [Option.map_some, if_pos hpos, hread, hok, if_neg hnot]
        · simp only [Option.map_some, hmax, if_pos hpos, if_neg hnot, habs]
        · simp only [Option.map_some, hmax, if_pos hpos, if_neg hnot]
      · refine ⟨⟨s, .returns p, []⟩, ?_, rfl, h, rfl, ?_, ?_⟩
        · simp only [Option.map_some, if_neg hpos]
        · simp only [Option.map_some, hmax, if_neg hpos]
        · simp only [Option.map_some, hmax, if_neg hpos]

/-- The removal of a record's stack. -/
theorem Tables.removeCorrespondingTrace (h : Tables s) (halive : s.KeysAlive)
    (hbt : ∀ t, bt = some t → s.traces.frees t = 0)
    (hC : ∀ t, bt = some t → ∀ k ∈ s.stackItems.entries,
      isTheSameStack k.key.stack (s.traces.data t) = true → k.value = (if s.ndebug then 0 else 1) →
        PatchesNeighbours s.stackItems (.removeEntry (some k.iterator))) :
    ∃ o, Lifetime.removeCorrespondingTrace s bt = .ok o ∧
      o.map State.abs = Tracker.removeCorrespondingTrace s.abs bt ∧
      ∀ s₁, o = .ok s₁ → Tables s₁ ∧ s₁ = { s with stackItems := s₁.stackItems } := by
  cases bt with
  | none => exact ⟨.error .crashed, rfl, rfl, fun s₁ hs => by cases hs⟩
  | some t =>
    have hfind := h.findStackItem halive (hbt t rfl)
    unfold Lifetime.removeCorrespondingTrace Tracker.removeCorrespondingTrace
    simp only [hfind, h.abs_findStackItem, bind, Except.bind]
    have hndebug : s.abs.ndebug = s.ndebug := rfl
    cases hf : s.stackItems.lookup (s.stackKey t) with
    | none => exact ⟨_, rfl, rfl, fun s₁ hs => by cases hs⟩
    | some k =>
      have hread := h.second_stackItem hf
      obtain ⟨-, -, -, -, hsame⟩ := lookup_split hf
      have hremove := fun hlast =>
        h.removeStackItem hf (hC t rfl k (List.mem_of_find?_eq_some hf) hsame hlast)
      have hreplaced : ∀ m, Tables { s with stackItems := m } → ∀ s₁,
          (.ok { s with stackItems := m } : Except Process State) = .ok s₁ →
          Tables s₁ ∧ s₁ = { s with stackItems := s₁.stackItems } := by
        intro m hm s₁ hs
        cases hs
        exact ⟨hm, rfl⟩
      simp only [Option.map_some, hread, hndebug]
      by_cases hnd : s.ndebug = true
      · by_cases hzero : k.value = 0
        · obtain ⟨m, hok, htables, habs⟩ := hremove (by rw [if_pos hnd, hzero])
          refine ⟨.ok { s with stackItems := m }, ?_, ?_, hreplaced m htables⟩
          · simp [hnd, hzero, hok]
          · rw [← habs]
            simp [hnd, hzero, Except.map]
        · exact ⟨.ok s, by simp [hnd, hzero], by simp [hnd, hzero, Except.map],
            hreplaced s.stackItems h⟩
      · by_cases hzero : k.value = 0
        · exact ⟨.error .aborted, by simp [hnd, hzero], by simp [hnd, hzero, Except.map],
            fun s₁ hs => by cases hs⟩
        · by_cases hone : k.value - 1 = 0
          · obtain ⟨m, hok, htables, habs⟩ := hremove (by rw [if_neg hnd]; omega)
            refine ⟨.ok { s with stackItems := m }, ?_, ?_, hreplaced m htables⟩
            · simp [hnd, hzero, hone, hok]
            · rw [← habs]
              simp [hnd, hzero, hone, Except.map]
          · obtain ⟨m, hok, htables, habs⟩ := h.writeStackItem hf (k.value - 1)
            refine ⟨.ok { s with stackItems := m }, ?_, ?_, hreplaced m htables⟩
            · simp [hnd, hzero, hone, hok]
            · rw [← habs]
              simp [hnd, hzero, hone, Except.map]

end CrashInvestigator.Lifetime
