import CrashInvestigator.LeakOnly.Analyzer
import CrashInvestigator.Library.Ownership
import CrashInvestigator.Library.Tally

/-!
# Counts, ownership and reports of the leak-only analyzer

`s_pStack` tallies the entries of `s_pMem` by the content of their backtraces. The backtrace of an
entry of `s_pMem` belongs to that entry and each key of `s_pStack` is a clone of its own, so both
tables own what they point to. Within one call the invariant `Kept` has a backtrace in the hand of the
call and a block that is recorded but not yet counted.
-/

namespace CrashInvestigator.LeakOnly

open Library
open Tracker (Addr Backtrace BacktracePtr TraceHeap Process freeBacktraceData
  initBacktraceDataForCurrentStack convertBacktraceToNames)

/-! ## Statements -/

/-- The number of entries of `s_pMem` whose backtrace has content `s`. -/
def State.memCount (st : State) (s : Backtrace) : ℕ :=
  st.pMem.countP fun e => decide (st.traces.data e.2 = s)

/-- `s_pStack(s)`: the counter of the key with content `s`. -/
def State.stackCount (st : State) (s : Backtrace) : Option ℕ :=
  Entries.lookup (fun k => decide (st.traces.data k = s)) st.pStack

/-- What the two tables own: the backtraces of the blocks and the keys of the counters. -/
def State.owners (st : State) : List ℕ := st.pMem.map Prod.snd ++ st.pStack.map Prod.fst

/-- The entries of `s_pMem` with content `s` that a block at `ptr` leaves in the table. -/
def State.otherCount (st : State) (ptr : Addr) (s : Backtrace) : ℕ :=
  st.pMem.countP fun e => decide (st.traces.data e.2 = s) && !decide (e.1 = ptr)

/-- The call is an allocation that is recorded with stack `s`. -/
def Records (st : State) (c : Call × Env) (s : Backtrace) : Prop :=
  (∃ size, c.1 = .allocMem size) ∧ st.initOrExitOngoing = false ∧ c.2.isOngoing = 0 ∧
    c.2.ignoreThisStack = false ∧ c.2.raw ≠ 0 ∧ c.2.stack = some s

/-- The recorded allocation makes the count of its stack exceed the maximum. -/
def Exceeds (st : State) (c : Call × Env) (s : Backtrace) : Prop :=
  Records st c s ∧ st.unMaxNumberOfAllocInTheStack < st.otherCount c.2.raw s + 1

/-- A captured backtrace has at least one frame, and the clock has not gone back behind the
initialization. -/
structure Valid (st : State) (c : Call × Env) : Prop where
  frames : ∀ s, c.2.stack = some s → s.ppBuffer ≠ []
  clock : st.initTime ≤ c.2.currentTime

/-- The counts are exact, every backtrace is owned by one entry or was freed once, an address is
recorded at most once, and no count exceeds the maximum while the process runs. -/
structure Consistent (st : State) : Prop where
  counts : ∀ s, st.stackCount s = if st.memCount s = 0 then none else some (st.memCount s)
  owned : Owners st.traces.next st.traces.frees st.owners
  recorded : ∀ p, Entries.AtMostOne (fun k => decide (k = p)) st.pMem
  within : st.process = .running → ∀ s, st.memCount s ≤ st.unMaxNumberOfAllocInTheStack

/-- The call finds every stack it takes out, reports the stack whose count it makes exceed the
maximum and no other, and ends the process exactly then. -/
structure CallExact (st : State) (c : Call × Env) : Prop where
  found : Event.stackNotFound ∉ (call st c.2 c.1).events
  reports : ∀ frames, Event.leakReport frames ∈ (call st c.2 c.1).events ↔ Exceeds st c ⟨frames⟩
  exits : (call st c.2 c.1).st.process = .exited 1 ↔ ∃ s, Exceeds st c s
  runs : (call st c.2 c.1).st.process = .running ↔ ¬ ∃ s, Exceeds st c s

/-! ## The invariant -/

/-- The tables while a call holds the backtraces `held` and the counters stand at `counted`. -/
structure Kept (st : State) (held : List ℕ) (counted : Backtrace → ℕ) : Prop where
  tally : Tally st.traces.data st.pStack counted
  recorded : ∀ p, Entries.AtMostOne (fun k => decide (k = p)) st.pMem
  frames : ∀ e ∈ st.pMem, (st.traces.data e.2).ppBuffer ≠ []
  owned : Owners st.traces.next st.traces.frees (held ++ st.owners)
  idle : st.initOrExitOngoing = false

/-- What the table changes of a call leave as it was. -/
structure SameRun (st st' : State) : Prop where
  data : st'.traces.data = st.traces.data
  next : st'.traces.next = st.traces.next
  limit : st'.unMaxNumberOfAllocInTheStack = st.unMaxNumberOfAllocInTheStack
  initTime : st'.initTime = st.initTime
  process : st'.process = st.process

variable {st : State} {held : List ℕ} {counted : Backtrace → ℕ} {t : ℕ} {p : Addr}

theorem SameRun.refl (st : State) : SameRun st st := ⟨rfl, rfl, rfl, rfl, rfl⟩

theorem SameRun.trans {st₁ st₂ st₃ : State} (h : SameRun st₁ st₂) (h' : SameRun st₂ st₃) :
    SameRun st₁ st₃ :=
  ⟨h'.data.trans h.data, h'.next.trans h.next, h'.limit.trans h.limit,
    h'.initTime.trans h.initTime, h'.process.trans h.process⟩

theorem Kept.init (max : ℕ) (time : ℤ) :
    Kept (.initRaw max time) [] (State.initRaw max time).memCount := by
  refine ⟨Tally.empty, ?_, ?_, Owners.empty, rfl⟩
  · intro p
    simp [Entries.AtMostOne, State.initRaw]
  · intro e he
    cases he

/-- Leaving the handler changes nothing after the initialization. -/
theorem Kept.leaveHandler (h : Kept st held counted) : st.leaveHandler = st := by
  have := h.idle
  cases st
  simp_all [State.leaveHandler]

/-- For a backtrace with frames, the key test is equality of contents. -/
theorem stackTest_eq {h : TraceHeap} (ht : (h.data t).ppBuffer ≠ []) :
    stackTest h t = standsFor h.data (h.data t) := by
  funext k
  rw [Bool.eq_iff_iff, stackTest, backTrcEql_iff, standsFor, decide_eq_true_eq]
  constructor
  · rintro ⟨-, hk⟩
    exact hk
  · intro hk
    exact ⟨by rw [hk]; exact ht, hk⟩

/-- An entry of a stack that is found counts a block at least. -/
theorem State.memCount_pos {e : Addr × ℕ} (he : e ∈ st.pMem) :
    0 < st.memCount (st.traces.data e.2) := by
  apply List.countP_pos_iff.mpr
  exact ⟨e, he, by simp⟩

/-! ## Taking an entry out -/

/-- The key of a last counted block is freed. -/
theorem takeStackOut_last {e : ℕ × ℕ} (hf : st.findStack t = some e) (he : e.2 = 1) :
    takeStackOut st t = ({ st with
      pStack := Entries.removeFirst (stackTest st.traces t) st.pStack
      traces := freeBacktraceData st.traces (some e.1) }, []) := by
  simp [takeStackOut, hf, he]

theorem takeStackOut_more {e : ℕ × ℕ} (hf : st.findStack t = some e) (he : e.2 ≠ 1) :
    takeStackOut st t = (st.setStack t (e.2 - 1), []) := by
  simp [takeStackOut, hf, he]

/-- `TakeStackOut` finds the stack of a counted block and counts one block less. -/
theorem Kept.takeStackOut (h : Kept st held counted) (ht : (st.traces.data t).ppBuffer ≠ [])
    (hpos : 0 < counted (st.traces.data t)) :
    ∃ st₁, takeStackOut st t = (st₁, []) ∧ SameRun st st₁ ∧ st₁.pMem = st.pMem ∧
      Kept st₁ held fun u => if u = st.traces.data t then counted u - 1 else counted u := by
  obtain ⟨e, hf⟩ := Option.isSome_iff_exists.mp (h.tally.find_isSome hpos)
  have hfind : st.findStack t = some e := by
    rw [State.findStack, stackTest_eq ht]
    exact hf
  have hcount := h.tally.count_of_find hf
  by_cases hone : e.2 = 1
  · refine ⟨_, takeStackOut_last hfind hone, ⟨rfl, rfl, rfl, rfl, rfl⟩,
      rfl, ?_, h.recorded, h.frames, ?_, h.idle⟩
    · rw [stackTest_eq ht]
      refine h.tally.remove fun u => ?_
      split_ifs with hu
      · rw [hu, hcount]
        omega
      · rfl
    · have hperm : (held ++ st.owners).Perm
          (e.1 :: (held ++ (st.pMem.map Prod.snd ++
            (Entries.removeFirst (stackTest st.traces t) st.pStack).map Prod.fst))) := by
        have hkeys := (Entries.perm_removeFirst hfind).map Prod.fst
        rw [State.owners, ← List.append_assoc, ← List.append_assoc]
        exact (hkeys.append_left _).trans List.perm_middle
      exact (h.owned.perm hperm).free
  · have hpos' := h.tally.positive e (Entries.findEntry_mem hf)
    refine ⟨_, takeStackOut_more hfind hone, ⟨rfl, rfl, rfl, rfl, rfl⟩,
      rfl, ?_, h.recorded, h.frames, ?_, h.idle⟩
    · simp only [State.setStack]
      rw [stackTest_eq ht]
      refine h.tally.set hf (by omega) fun u => ?_
      split_ifs with hu
      · rw [hu, hcount]
      · rfl
    · simp only [State.owners, State.setStack, Entries.map_fst_setFirst]
      exact h.owned

/-- An entry that leaves `s_pMem` takes its backtrace along. -/
theorem Kept.dropMem {e : Addr × ℕ} (h : Kept st held counted) (hf : st.findMem p = some e) :
    Kept { st with
      pMem := Entries.removeFirst (fun k => decide (k = e.1)) st.pMem
      traces := freeBacktraceData st.traces (some e.2) } held counted := by
  have hkey : e.1 = p := by simpa using Entries.findEntry_test hf
  refine ⟨h.tally, ?_, ?_, ?_, h.idle⟩
  · intro q
    exact (h.recorded q).removeFirst
  · intro x hx
    exact h.frames x (Entries.mem_of_mem_removeFirst hx)
  · rw [hkey]
    have hperm : (held ++ st.owners).Perm (e.2 :: (held ++
        ((Entries.removeFirst (fun k => decide (k = p)) st.pMem).map Prod.snd ++
          st.pStack.map Prod.fst))) := by
      have hmem := (Entries.perm_removeFirst hf).map Prod.snd
      have happ := (hmem.append_right (st.pStack.map Prod.fst)).append_left held
      exact happ.trans List.perm_middle
    exact (h.owned.perm hperm).free

/-- A removed entry takes itself out of the count of its stack. -/
theorem memCount_removeFirst {e : Addr × ℕ} (hf : st.findMem p = some e) (s : Backtrace) :
    (Entries.removeFirst (fun k => decide (k = p)) st.pMem).countP
        (fun x => decide (st.traces.data x.2 = s)) =
      if s = st.traces.data e.2 then st.memCount s - 1 else st.memCount s := by
  have hc := Entries.countP_removeFirst (fun x => decide (st.traces.data x.2 = s)) hf
  rw [State.memCount]
  by_cases hs : s = st.traces.data e.2
  · rw [if_pos hs, ← hc]
    simp [hs]
  · rw [if_neg hs, ← hc]
    simp [Ne.symm hs]

theorem removeMem_eq {e : Addr × ℕ} {st₁ : State} {events : List Event}
    (h : takeStackOut st e.2 = (st₁, events)) :
    removeMem st e = ({ st₁ with
      pMem := Entries.removeFirst (fun k => decide (k = e.1)) st₁.pMem
      traces := freeBacktraceData st₁.traces (some e.2) }, events) := by
  simp only [removeMem, h]

/-- An entry is removed with its count. -/
theorem Kept.removeMem {e : Addr × ℕ} (h : Kept st held st.memCount) (hf : st.findMem p = some e) :
    ∃ st₁, removeMem st e = (st₁, []) ∧ SameRun st st₁ ∧
      st₁.pMem = Entries.removeFirst (fun k => decide (k = p)) st.pMem ∧
      Kept st₁ held st₁.memCount := by
  have hmem : e ∈ st.pMem := Entries.findEntry_mem hf
  have hkey : e.1 = p := by simpa using Entries.findEntry_test hf
  obtain ⟨st₁, htake, hsame, hpMem, hk⟩ :=
    h.takeStackOut (h.frames e hmem) (State.memCount_pos hmem)
  have hf₁ : st₁.findMem p = some e := by
    rw [State.findMem, hpMem]
    exact hf
  have hdrop := hk.dropMem hf₁
  refine ⟨_, removeMem_eq htake, ?_, by simp only [hpMem, hkey], ?_⟩
  · exact hsame.trans ⟨by simp, by simp, rfl, rfl, rfl⟩
  · refine ⟨?_, hdrop.recorded, hdrop.frames, hdrop.owned, hdrop.idle⟩
    refine hdrop.tally.congr (fun _ _ => rfl) fun s => ?_
    rw [← memCount_removeFirst hf s, ← hpMem, ← hkey]
    simp [State.memCount, hsame.data]

/-! ## The calls -/

/-- `FreeMem` keeps the tables and reports nothing. -/
theorem Kept.freeMem (h : Kept st [] st.memCount) (p : Addr) :
    ∃ st₁, freeMem st p = ⟨st₁, 0, [.free p]⟩ ∧ SameRun st st₁ ∧ Kept st₁ [] st₁.memCount ∧
      ∀ s, st₁.memCount s ≤ st.memCount s := by
  cases hf : st.findMem p with
  | none =>
    refine ⟨st, ?_, SameRun.refl st, h, fun _ => Nat.le_refl _⟩
    simp [LeakOnly.freeMem, freeMemAnalyze, h.idle, hf, h.leaveHandler]
  | some e =>
    obtain ⟨st₁, hremove, hsame, hpMem, hk⟩ := h.removeMem hf
    refine ⟨st₁, ?_, hsame, hk, ?_⟩
    · simp [LeakOnly.freeMem, freeMemAnalyze, h.idle, hf, hremove, hk.leaveHandler]
    · intro s
      rw [State.memCount, hpMem, hsame.data, memCount_removeFirst hf s]
      split_ifs
      · omega
      · omega

/-- What the nested calls of a report keep. -/
structure Harmless (r : Res) : Prop where
  kept : Kept r.st [] r.st.memCount
  found : Event.stackNotFound ∉ r.events
  silent : ∀ frames, Event.leakReport frames ∉ r.events

theorem Harmless.nestedCall {r : Res} (h : Harmless r) (c : Call × Addr) :
    Harmless (nestedCall r c) ∧ SameRun r.st (LeakOnly.nestedCall r c).st := by
  obtain ⟨c, raw⟩ := c
  cases c with
  | allocMem size =>
    refine ⟨⟨h.kept, ?_, ?_⟩, SameRun.refl _⟩
    · simp [LeakOnly.nestedCall, allocUntracked, h.found]
    · intro frames
      simp [LeakOnly.nestedCall, allocUntracked, h.silent frames]
  | freeMem ptr =>
    obtain ⟨st₁, hfree, hsame, hk, -⟩ := h.kept.freeMem ptr
    have hcall : LeakOnly.nestedCall r (.freeMem ptr, raw) = ⟨st₁, r.ret, r.events ++ [.free ptr]⟩ := by
      simp [LeakOnly.nestedCall, hfree]
    rw [hcall]
    refine ⟨⟨hk, ?_, ?_⟩, hsame⟩
    · simp [h.found]
    · intro frames
      simp [h.silent frames]

theorem Harmless.nested {r : Res} (h : Harmless r) (cs : List (Call × Addr)) :
    Harmless (cs.foldl LeakOnly.nestedCall r) ∧
      SameRun r.st (cs.foldl LeakOnly.nestedCall r).st := by
  induction cs generalizing r with
  | nil => exact ⟨h, SameRun.refl _⟩
  | cons c cs ih =>
    obtain ⟨hc, hsame⟩ := h.nestedCall c
    obtain ⟨hcs, hsame'⟩ := ih hc
    exact ⟨hcs, hsame.trans hsame'⟩

/-- A report ends the process over tables that are kept. -/
theorem Kept.reportLeak (h : Kept st [] st.memCount) (env : Env) (t : ℕ) :
    Kept (reportLeak st env t).st [] (LeakOnly.reportLeak st env t).st.memCount ∧
      (LeakOnly.reportLeak st env t).st.process = .exited 1 ∧
      (LeakOnly.reportLeak st env t).st.unMaxNumberOfAllocInTheStack =
        st.unMaxNumberOfAllocInTheStack ∧
      Event.stackNotFound ∉ (LeakOnly.reportLeak st env t).events ∧
      ∀ frames, Event.leakReport frames ∈ (LeakOnly.reportLeak st env t).events ↔
        frames = (st.traces.data t).ppBuffer := by
  have hstart : Harmless ⟨st, 0, []⟩ := ⟨h, by simp, by simp⟩
  obtain ⟨hnested, hsame⟩ := hstart.nested env.nested
  have hk := hnested.kept
  refine ⟨⟨hk.tally, hk.recorded, hk.frames, hk.owned, hk.idle⟩, rfl, hsame.limit, ?_, ?_⟩
  · simp [LeakOnly.reportLeak, hnested.found]
  · intro frames
    simp [LeakOnly.reportLeak, hnested.silent frames, convertBacktraceToNames]

/-! ## Recording a block -/

/-- The state with one more backtrace, of frames `b`. -/
def State.create (st : State) (b : Backtrace) : State :=
  { st with traces := (initBacktraceDataForCurrentStack st.traces (some b)).1 }

theorem Kept.below (h : Kept st held counted) {e : Addr × ℕ} (he : e ∈ st.pMem) :
    e.2 < st.traces.next := by
  apply h.owned.below
  simp only [State.owners, List.mem_append, List.mem_map]
  exact Or.inr (Or.inl ⟨e, he, rfl⟩)

theorem Kept.key_below (h : Kept st held counted) {e : ℕ × ℕ} (he : e ∈ st.pStack) :
    e.1 < st.traces.next := by
  apply h.owned.below
  simp only [State.owners, List.mem_append, List.mem_map]
  exact Or.inr (Or.inr ⟨e, he, rfl⟩)

@[simp] theorem create_data_next (st : State) (b : Backtrace) :
    (st.create b).traces.data st.traces.next = b := Function.update_self ..

/-- A new backtrace does not change what a recorded block counts for. -/
theorem Kept.countP_create (h : Kept st held counted) (b : Backtrace) (f : Addr → Backtrace → Bool) :
    (st.pMem.countP fun e => f e.1 ((st.create b).traces.data e.2)) =
      st.pMem.countP fun e => f e.1 (st.traces.data e.2) := by
  refine List.countP_congr fun e he => ?_
  rw [State.create, Tracker.initBacktrace_data_of_lt _ _ (h.below he)]

theorem Kept.memCount_create (h : Kept st held counted) (b s : Backtrace) :
    (st.create b).memCount s = st.memCount s := h.countP_create b fun _ d => decide (d = s)

/-- The call holds the backtrace it has just created. -/
theorem Kept.create (h : Kept st held counted) (b : Backtrace) :
    Kept (st.create b) (st.traces.next :: held) counted := by
  refine ⟨?_, h.recorded, ?_, h.owned.create, h.idle⟩
  · refine h.tally.congr (fun e he => ?_) fun _ => rfl
    exact Tracker.initBacktrace_data_of_lt _ _ (h.key_below he)
  · intro e he
    rw [State.create, Tracker.initBacktrace_data_of_lt _ _ (h.below he)]
    exact h.frames e he

/-- A held backtrace goes into the entry of a block that was not recorded. -/
theorem Kept.record (h : Kept st [t] counted) (hf : st.findMem p = none)
    (ht : (st.traces.data t).ppBuffer ≠ []) :
    Kept { st with pMem := (p, t) :: st.pMem } [] counted := by
  refine ⟨h.tally, ?_, ?_, h.owned, h.idle⟩
  · intro q
    refine (h.recorded q).cons fun hq => ?_
    rw [decide_eq_true_eq] at hq
    rw [← hq, Entries.lookup, Option.map_eq_none_iff]
    exact hf
  · intro e he
    rcases List.mem_cons.mp he with rfl | he
    · exact ht
    · exact h.frames e he

/-- The entry of an address that is still recorded is removed. -/
theorem Kept.recoverMem (h : Kept st held st.memCount) (p : Addr) :
    ∃ st₁, recoverMem st p = (st₁, []) ∧ SameRun st st₁ ∧ st₁.findMem p = none ∧
      Kept st₁ held st₁.memCount ∧ ∀ s, st₁.memCount s = st.otherCount p s := by
  cases hf : st.findMem p with
  | none =>
    refine ⟨st, by simp [LeakOnly.recoverMem, hf], SameRun.refl st, hf, h, ?_⟩
    intro s
    refine List.countP_congr fun e he => ?_
    have hne : e.1 ≠ p := by simpa using Entries.findEntry_none_iff.mp hf e he
    simp [hne]
  | some e =>
    obtain ⟨st₁, hremove, hsame, hpMem, hk⟩ := h.removeMem hf
    have hnone : st₁.findMem p = none := by
      have hself := (h.recorded p).lookup_removeFirst_self
      rwa [Entries.lookup, Option.map_eq_none_iff, ← hpMem] at hself
    refine ⟨st₁, by simp [LeakOnly.recoverMem, hf, hremove], hsame, hnone, hk, ?_⟩
    intro s
    have hkey : e.1 = p := by simpa using Entries.findEntry_test hf
    have hother := Entries.countP_removeFirst
      (fun x => decide (st.traces.data x.2 = s) && !decide (x.1 = p)) hf
    rw [← hpMem] at hother
    simp only [hkey, decide_true, Bool.not_true, Bool.and_false, Bool.false_eq_true, if_false,
      Nat.add_zero] at hother
    rw [State.otherCount, ← hother, State.memCount]
    refine List.countP_congr fun x hx => ?_
    have hne : x.1 ≠ p := by simpa using Entries.findEntry_none_iff.mp hnone x hx
    simp [hsame.data, hne]

/-! ## Counting a block -/

theorem Kept.findStack (h : Kept st held counted) (ht : (st.traces.data t).ppBuffer ≠ []) :
    (st.findStack t = none ∧ counted (st.traces.data t) = 0) ∨
      ∃ e, st.findStack t = some e ∧ counted (st.traces.data t) = e.2 ∧ 0 < e.2 := by
  rw [State.findStack, stackTest_eq ht]
  cases hf : Entries.findEntry (standsFor st.traces.data (st.traces.data t)) st.pStack with
  | none => exact Or.inl ⟨rfl, h.tally.count_of_absent hf⟩
  | some e =>
    exact Or.inr ⟨e, rfl, h.tally.count_of_find hf, h.tally.positive e (Entries.findEntry_mem hf)⟩

/-- The first block of a stack is counted under a clone of its backtrace. -/
theorem Kept.countFirst (h : Kept st [] counted) (env : Env)
    (ht : (st.traces.data t).ppBuffer ≠ []) (hf : st.findStack t = none)
    (hmem : ∀ u, st.memCount u = if u = st.traces.data t then 1 else counted u) :
    ∃ st₁, countStack st env p t = ⟨st₁, p, []⟩ ∧ Kept st₁ [] st₁.memCount ∧
      (∀ s, st₁.memCount s = st.memCount s) ∧ st₁.process = st.process ∧
      st₁.unMaxNumberOfAllocInTheStack = st.unMaxNumberOfAllocInTheStack := by
  set b := st.traces.data t
  have hk := h.create b
  have hkept : Kept { st.create b with pStack := (st.traces.next, 1) :: st.pStack } []
      (st.create b).memCount := by
    refine ⟨?_, hk.recorded, hk.frames, ?_, hk.idle⟩
    · refine hk.tally.cons ?_ fun u => ?_
      · rw [create_data_next]
        rw [State.findStack, stackTest_eq ht] at hf
        have hnone := Entries.findEntry_none_iff.mp hf
        refine Entries.findEntry_none_iff.mpr fun e he => ?_
        rw [← hnone e he, standsFor, standsFor, State.create,
          Tracker.initBacktrace_data_of_lt _ _ (h.key_below he)]
      · rw [create_data_next, h.memCount_create, hmem]
    · refine hk.owned.perm ?_
      show (st.traces.next :: (st.pMem.map Prod.snd ++ st.pStack.map Prod.fst)).Perm
        (st.pMem.map Prod.snd ++ st.traces.next :: st.pStack.map Prod.fst)
      exact List.perm_middle.symm
  refine ⟨_, ?_, hkept, h.memCount_create b, rfl, rfl⟩
  simp only [countStack, hf, cloneBackTrace]
  rw [← hkept.leaveHandler]
  rfl

/-- One more block of a stack. -/
theorem Kept.countMore (h : Kept st [] counted) {e : ℕ × ℕ}
    (ht : (st.traces.data t).ppBuffer ≠ []) (hf : st.findStack t = some e)
    (hmem : ∀ u, st.memCount u = if u = st.traces.data t then e.2 + 1 else counted u) :
    Kept (st.setStack t (e.2 + 1)) [] st.memCount := by
  rw [State.findStack, stackTest_eq ht] at hf
  refine ⟨?_, h.recorded, h.frames, ?_, h.idle⟩
  · rw [State.setStack, stackTest_eq ht]
    exact h.tally.set hf (Nat.succ_pos _) hmem
  · rw [State.owners, State.setStack, Entries.map_fst_setFirst]
    exact h.owned

/-- What counting a recorded block does: the counts are settled, and the process ends with a report
of its stack exactly if the count exceeds the maximum. -/
theorem Kept.countStack (h : Kept st [] counted) {env : Env} {s : Backtrace}
    (hlimit : 1 ≤ st.unMaxNumberOfAllocInTheStack) (hclock : st.initTime ≤ env.currentTime)
    (ht : st.traces.data t = s) (hs : s.ppBuffer ≠ [])
    (hmem : ∀ u, st.memCount u = if u = s then counted u + 1 else counted u) {r : Res}
    (hr : countStack st env p t = r) :
    Kept r.st [] r.st.memCount ∧ Event.stackNotFound ∉ r.events ∧
      r.st.unMaxNumberOfAllocInTheStack = st.unMaxNumberOfAllocInTheStack ∧
      (st.unMaxNumberOfAllocInTheStack < counted s + 1 → r.st.process = .exited 1 ∧
        ∀ frames, Event.leakReport frames ∈ r.events ↔ frames = s.ppBuffer) ∧
      (¬ st.unMaxNumberOfAllocInTheStack < counted s + 1 → r.st.process = st.process ∧
        r.events = [] ∧ ∀ u, r.st.memCount u = st.memCount u) := by
  subst ht
  rcases h.findStack hs with ⟨hf, hzero⟩ | ⟨e, hf, hcount, hpos⟩
  · have hone : ∀ u, st.memCount u = if u = st.traces.data t then 1 else counted u := by
      intro u
      rw [hmem u]
      split_ifs with hu
      · rw [hu, hzero]
      · rfl
    obtain ⟨st₁, hcall, hk, hsame, hprocess, hmax⟩ := h.countFirst env (p := p) hs hf hone
    rw [hcall] at hr
    subst hr
    refine ⟨hk, by simp, hmax, ?_, ?_⟩
    · intro hlt
      omega
    · intro _
      exact ⟨hprocess, rfl, hsame⟩
  · have hkept := h.countMore hs hf fun u => by
      rw [hmem u]
      split_ifs with hu
      · rw [hu, hcount]
      · rfl
    by_cases hlt : st.unMaxNumberOfAllocInTheStack < e.2 + 1
    · have hclock' : crashInvestInitTime ≤ env.currentTime - st.initTime := by
        rw [crashInvestInitTime]
        omega
      have hcall : LeakOnly.countStack st env p t =
          LeakOnly.reportLeak (st.setStack t (e.2 + 1)) env t := by
        simp [LeakOnly.countStack, hf, hlt, hclock']
      rw [hcall] at hr
      subst hr
      obtain ⟨hk, hprocess, hmax, hfound, hreport⟩ := Kept.reportLeak hkept env t
      refine ⟨hk, hfound, hmax, ?_, ?_⟩
      · intro _
        exact ⟨hprocess, hreport⟩
      · rw [hcount]
        intro hn
        exact absurd hlt hn
    · have hcall : LeakOnly.countStack st env p t = ⟨st.setStack t (e.2 + 1), p, []⟩ := by
        simp only [LeakOnly.countStack, hf, hlt, false_and, if_false]
        rw [hkept.leaveHandler]
      rw [hcall] at hr
      subst hr
      refine ⟨hkept, by simp, rfl, ?_, ?_⟩
      · rw [hcount]
        intro hn
        exact absurd hn hlt
      · intro _
        exact ⟨rfl, rfl, fun _ => rfl⟩

/-! ## One call -/

/-- The state of a process that runs has counts up to the maximum, which is positive. -/
structure Settled (st : State) : Prop where
  kept : Kept st [] st.memCount
  limit : 1 ≤ st.unMaxNumberOfAllocInTheStack
  within : st.process = .running → ∀ s, st.memCount s ≤ st.unMaxNumberOfAllocInTheStack

theorem Settled.init {max : ℕ} (hmax : 1 ≤ max) (time : ℤ) : Settled (.initRaw max time) := by
  refine ⟨Kept.init max time, hmax, ?_⟩
  intro _ s
  exact Nat.zero_le _

theorem Settled.consistent (h : Settled st) : Consistent st :=
  ⟨fun s => h.kept.tally.exact s, h.kept.owned, h.kept.recorded, h.within⟩

theorem State.otherCount_le (st : State) (p : Addr) (s : Backtrace) :
    st.otherCount p s ≤ st.memCount s := by
  refine List.countP_mono_left fun e _ he => ?_
  simp only [Bool.and_eq_true] at he
  exact he.1

/-- A call that records nothing keeps the tables, ends nothing and reports nothing. -/
theorem Settled.unrecorded (h : Settled st) {c : Call × Env} (hc : ∀ s, ¬ Records st c s)
    (hrun : st.process = .running) : Settled (call st c.2 c.1).st ∧ CallExact st c := by
  have hnone : ¬ ∃ s, Exceeds st c s := by
    rintro ⟨s, hs, -⟩
    exact hc s hs
  -- the three facts that make a call of this kind exact
  suffices hcall : Settled (call st c.2 c.1).st ∧ (call st c.2 c.1).st.process = .running ∧
      Event.stackNotFound ∉ (call st c.2 c.1).events ∧
      ∀ frames, Event.leakReport frames ∉ (call st c.2 c.1).events by
    obtain ⟨hset, hprocess, hfound, hsilent⟩ := hcall
    refine ⟨hset, hfound, ?_, ?_, ?_⟩
    · intro frames
      exact iff_of_false (hsilent frames) fun he => hnone ⟨_, he⟩
    · rw [hprocess]
      exact iff_of_false nofun hnone
    · exact iff_of_true hprocess hnone
  obtain ⟨c, env⟩ := c
  cases c with
  | freeMem p =>
    obtain ⟨st₁, hfree, hsame, hk, hle⟩ := h.kept.freeMem p
    simp only [call, hfree]
    refine ⟨⟨hk, ?_, ?_⟩, hsame.process.trans hrun, by simp, by simp⟩
    · rw [hsame.limit]
      exact h.limit
    · intro _ s
      rw [hsame.limit]
      exact (hle s).trans (h.within hrun s)
  | allocMem size =>
    have hcall : ∃ ret, allocMem st env size = ⟨st, ret, [.malloc size env.raw]⟩ := by
      by_cases hignored : st.initOrExitOngoing ∨ 0 < env.isOngoing ∨ env.ignoreThisStack
      · exact ⟨_, by rw [allocMem, if_pos hignored]; rfl⟩
      · by_cases hraw : env.raw = 0
        · exact ⟨_, by rw [allocMem, if_neg hignored, if_pos hraw, h.kept.leaveHandler, hraw]⟩
        · cases hstack : env.stack with
          | none =>
            refine ⟨env.raw, ?_⟩
            rw [allocMem, if_neg hignored, if_neg hraw, hstack]
            simp only [initBacktraceDataForCurrentStack, h.kept.leaveHandler]
          | some s =>
            simp only [not_or, Bool.not_eq_true, Nat.not_lt, Nat.le_zero] at hignored
            exact absurd ⟨⟨size, rfl⟩, hignored.1, hignored.2.1, hignored.2.2, hraw, hstack⟩ (hc s)
    obtain ⟨ret, hcall⟩ := hcall
    simp only [call, hcall]
    exact ⟨h, hrun, by simp, by simp⟩

/-- A recorded allocation exceeds the maximum for its own stack only. -/
theorem Records.exceeds_iff {c : Call × Env} {s u : Backtrace} (hr : Records st c s) :
    Exceeds st c u ↔ u = s ∧ st.unMaxNumberOfAllocInTheStack < st.otherCount c.2.raw s + 1 := by
  constructor
  · rintro ⟨⟨-, -, -, -, -, hu⟩, hlt⟩
    have hus : u = s := Option.some.inj (hu.symm.trans hr.2.2.2.2.2)
    rw [hus] at hlt
    exact ⟨hus, hlt⟩
  · rintro ⟨rfl, hlt⟩
    exact ⟨hr, hlt⟩

/-- The tables of a recorded allocation before its block is counted: the block stands beside the
entries of other addresses, whose counts the counters show. -/
theorem Settled.record (h : Settled st) {env : Env} {size : ℕ} {s : Backtrace}
    (hr : Records st (.allocMem size, env) s) (hs : s.ppBuffer ≠ []) :
    ∃ st₂, Kept st₂ [] (st.otherCount env.raw) ∧ st₂.traces.data st.traces.next = s ∧
      (∀ u, st₂.memCount u =
        if u = s then st.otherCount env.raw u + 1 else st.otherCount env.raw u) ∧
      st₂.unMaxNumberOfAllocInTheStack = st.unMaxNumberOfAllocInTheStack ∧
      st₂.initTime = st.initTime ∧ st₂.process = st.process ∧
      ∀ r, countStack st₂ env env.raw st.traces.next = r →
        allocMem st env size = ⟨r.st, r.ret, .malloc size env.raw :: r.events⟩ := by
  obtain ⟨-, hidle, hongoing, hignore, hraw, hstack⟩ := hr
  simp only at hongoing hignore hraw hstack
  have hcreate : Kept (st.create s) [st.traces.next] (st.create s).memCount := by
    have := h.kept.create s
    rwa [← show (st.create s).memCount = st.memCount from funext (h.kept.memCount_create s)] at this
  obtain ⟨st₁, hrecover, hsame, hnone, hk, hother⟩ := hcreate.recoverMem env.raw
  have hother' : st₁.memCount = st.otherCount env.raw := by
    funext u
    rw [hother u]
    exact h.kept.countP_create s fun p d => decide (d = u) && !decide (p = env.raw)
  have hdata : st₁.traces.data st.traces.next = s := by
    rw [hsame.data, create_data_next]
  have hrecord := hk.record hnone (by rw [hdata]; exact hs)
  rw [hother'] at hrecord
  refine ⟨_, hrecord, hdata, ?_, hsame.limit, hsame.initTime, hsame.process, ?_⟩
  · intro u
    rw [← hother', State.memCount, List.countP_cons, hdata]
    by_cases hu : u = s
    · rw [if_pos hu, hu]
      simp [State.memCount]
    · rw [if_neg hu]
      simp [State.memCount, Ne.symm hu]
  · intro r hcount
    have htracked : ¬ (st.initOrExitOngoing ∨ 0 < env.isOngoing ∨ env.ignoreThisStack) := by
      simp [hidle, hongoing, hignore]
    have hcapture : initBacktraceDataForCurrentStack st.traces env.stack =
        ((st.create s).traces, some st.traces.next) := by rw [hstack]; rfl
    have hstate : { st with traces := (st.create s).traces } = st.create s := rfl
    rw [allocMem, if_neg htracked, if_neg hraw, hcapture]
    simp only [hstate, hrecover, hcount]
    rfl

/-- A recorded allocation settles its block, or ends the process over the count of its stack. -/
theorem Settled.recorded (h : Settled st) {c : Call × Env} (hv : Valid st c)
    (hrun : st.process = .running) {s : Backtrace} (hr : Records st c s) :
    Settled (call st c.2 c.1).st ∧ CallExact st c := by
  obtain ⟨c, env⟩ := c
  obtain ⟨size, hsize⟩ := hr.1
  simp only at hsize
  subst hsize
  have hs : s.ppBuffer ≠ [] := hv.frames s hr.2.2.2.2.2
  obtain ⟨st₂, hrecord, hdata, hmem, hlimit, htime, hprocess₂, hcall⟩ := h.record hr hs
  obtain ⟨r, hcount⟩ : ∃ r, countStack st₂ env env.raw st.traces.next = r := ⟨_, rfl⟩
  have hpositive : 1 ≤ st₂.unMaxNumberOfAllocInTheStack := by
    rw [hlimit]
    exact h.limit
  have hclock : st₂.initTime ≤ env.currentTime := by
    rw [htime]
    exact hv.clock
  obtain ⟨hkept, hfound, hmax, hbeyond, hwithin⟩ :=
    hrecord.countStack hpositive hclock hdata hs hmem hcount
  rw [hlimit] at hbeyond hwithin hmax
  rw [hprocess₂] at hwithin
  have hresult := hcall r hcount
  have hfound' : Event.stackNotFound ∉ (call st env (.allocMem size)).events := by
    simpa [call, hresult] using hfound
  by_cases hlt : st.unMaxNumberOfAllocInTheStack < st.otherCount env.raw s + 1
  · obtain ⟨hprocess, hreport⟩ := hbeyond hlt
    have hex : ∃ u, Exceeds st (.allocMem size, env) u := ⟨s, hr.exceeds_iff.mpr ⟨rfl, hlt⟩⟩
    have hended : r.st.process ≠ .running := by
      rw [hprocess]
      exact nofun
    refine ⟨⟨?_, ?_, ?_⟩, hfound', ?_, ?_, ?_⟩
    all_goals simp only [call, hresult]
    · exact hkept
    · rw [hmax]
      exact h.limit
    · intro hrunning
      exact absurd hrunning hended
    · intro frames
      rw [hr.exceeds_iff]
      simp only [List.mem_cons, reduceCtorEq, false_or, hreport, hlt, and_true]
      constructor
      · rintro rfl
        rfl
      · intro heq
        rw [← heq]
    · exact iff_of_true hprocess hex
    · exact iff_of_false hended fun hn => hn hex
  · obtain ⟨hprocess, hevents, hcounts⟩ := hwithin hlt
    have hex : ¬ ∃ u, Exceeds st (.allocMem size, env) u := by
      rintro ⟨u, hu⟩
      exact hlt (hr.exceeds_iff.mp hu).2
    have hrunning : r.st.process = .running := hprocess.trans hrun
    refine ⟨⟨?_, ?_, ?_⟩, hfound', ?_, ?_, ?_⟩
    all_goals simp only [call, hresult]
    · exact hkept
    · rw [hmax]
      exact h.limit
    · intro _ u
      rw [hmax, hcounts, hmem]
      have hle := (st.otherCount_le env.raw u).trans (h.within hrun u)
      split_ifs with hu
      · subst hu
        omega
      · exact hle
    · intro frames
      rw [hevents]
      exact iff_of_false (by simp) fun he => hex ⟨_, he⟩
    · rw [hrunning]
      exact iff_of_false nofun hex
    · exact iff_of_true hrunning hex

/-- One call of a process that runs. -/
theorem Settled.call (h : Settled st) {c : Call × Env} (hv : Valid st c)
    (hrun : st.process = .running) : Settled (call st c.2 c.1).st ∧ CallExact st c := by
  by_cases hr : ∃ s, Records st c s
  · obtain ⟨s, hs⟩ := hr
    exact h.recorded hv hrun hs
  · exact h.unrecorded (fun s hs => hr ⟨s, hs⟩) hrun

theorem Settled.step (h : Settled st) {c : Call × Env} (hv : Valid st c) : Settled (step st c) := by
  rw [LeakOnly.step]
  split_ifs with hrun
  · exact (h.call hv hrun).1
  · exact h

/-- In every run of the analyzer the tables are consistent after every call, and every call of the
process finds the stacks it takes out and ends the process with a report exactly if it is a recorded
allocation that makes the count of its stack exceed the maximum. -/
theorem analyzer_exact {max : ℕ} {time : ℤ} {cs : List (Call × Env)} (hmax : 1 ≤ max)
    (h : Runs.Along step Valid (.initRaw max time) cs) :
    Runs.Always step Consistent (.initRaw max time) cs ∧
      Runs.Along step (fun st c => st.process = .running → CallExact st c) (.initRaw max time) cs := by
  have hinit : Settled (.initRaw max time) := Settled.init hmax time
  refine ⟨?_, ?_⟩
  · have hrun := Runs.always_of_invariant (I := Settled) (fun _ _ hs hv => hs.step hv) hinit h
    exact hrun.mono fun _ hs => hs.consistent
  · exact Runs.along_of_invariant (I := Settled) (fun _ _ hs hv => hs.step hv)
      (fun _ _ hs hv hrun => (hs.call hv hrun).2) hinit h

/-- The answers in an outermost call at the time of the initialization. -/
def Env.answering (raw : Addr) (frames : List ℕ) : Env where
  raw := raw
  stack := some ⟨frames⟩
  currentTime := 0
  isOngoing := 0
  ignoreThisStack := false
  nested := []

theorem valid_answering {c : Call} {raw : Addr} {frames : List ℕ} (hf : frames ≠ [])
    (ht : st.initTime ≤ 0) : Valid st (c, .answering raw frames) := by
  refine ⟨?_, ht⟩
  intro s hs
  cases hs
  exact hf

/-- Block `10` is released behind the tracker's back and issued again, `99` was never recorded, and
the third block of stack `[1]` is one too many. -/
def reissueRun : List (Call × Env) :=
  [(.allocMem 8, .answering 10 [1]), (.allocMem 8, .answering 10 [1]),
    (.allocMem 8, .answering 20 [2]), (.freeMem 99, .answering 0 [3]),
    (.freeMem 20, .answering 0 [3]), (.allocMem 8, .answering 30 [1]),
    (.allocMem 8, .answering 40 [1])]

theorem analyzer_exact_reissueRun :
    Runs.Always step Consistent (.initRaw 2 0) reissueRun ∧
      Runs.Along step (fun st c => st.process = .running → CallExact st c) (.initRaw 2 0) reissueRun ∧
      (Runs.final step (.initRaw 2 0) reissueRun).process = .exited 1 := by
  have h : Runs.Along step Valid (.initRaw 2 0) reissueRun := by
    refine ⟨?_, ?_, ?_, ?_, ?_, ?_, ?_, trivial⟩
    all_goals exact valid_answering (by simp) (by decide)
  obtain ⟨hstates, hcalls⟩ := analyzer_exact (by decide) h
  exact ⟨hstates, hcalls, by decide⟩

end CrashInvestigator.LeakOnly
