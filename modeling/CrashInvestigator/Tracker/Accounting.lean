import CrashInvestigator.Tracker.Proofs.StepProofs

/-!
# Leak accounting: statements

`m_stackItems` is there to say how many blocks that are still allocated came from each stack. Both
sides of that statement, as functions of the state, and the assumptions on the environment under
which a run is accounted for.
-/

namespace CrashInvestigator.Tracker

open Library

/-- Whether a trace pointer holds the stack `s`. -/
def TraceHeap.holds (h : TraceHeap) (s : Backtrace) : BacktracePtr → Bool
  | none => false
  | some t => decide (h.data t = s)

/-- The number of records with status `Allocated` whose `allocTrace` has content `s`. -/
def State.allocatedCount (st : State) (s : Backtrace) : ℕ :=
  st.memoryItems.countP fun e =>
    decide (e.2.status = .allocated) && st.traces.holds s e.2.allocTrace

/-- `m_stackItems(s)`: the counter of the entry whose key has content `s`. -/
def State.stackCount (st : State) (s : Backtrace) : Option ℕ :=
  Entries.lookup (fun k => decide (st.traces.data k = s)) st.stackItems

/-- `m_stackItems` counts the allocated records of every stack and has no other entry. -/
def State.StackItemsExact (st : State) : Prop :=
  ∀ s, st.stackCount s = if st.allocatedCount s = 0 then none else some (st.allocatedCount s)

/-- The raw allocator issues only addresses that are not live; a `reallocn` may also keep the
address. -/
def RawIssuesFresh (st : State) (c : Call × Env) : Prop :=
  c.2.raw = 0 ∨ c.2.raw ∉ st.live ∨ ∃ n, c.1.effect = .move c.2.raw n

/-- Raw `reallocn` does not return null. -/
def RawReallocSucceeds (c : Call × Env) : Prop := ∀ p n, c.1.effect = .move p n → c.2.raw ≠ 0

/-- The captured backtrace is non-null and has at least one frame. -/
def StackCaptured (env : Env) : Prop := ∃ s, env.stack = some s ∧ s.ppBuffer ≠ []

/-- The tables can grow. -/
def TablesGrow (env : Env) : Prop := env.memoryItem = true ∧ env.stackItem = true

/-- Every failure callback answers `DoNotMakeActionToPreventCrash`. -/
def RefusesActions (env : Env) : Prop :=
  ∀ d, env.clbkFnc d = .doNotMakeActionToPreventCrash

/-- The call deallocates an allocated block with a routine of another type. -/
def Mismatching (st : State) (c : Call) : Prop :=
  ∃ p t item, c.effect = .release p t ∧ st.findMemoryItem p = some item ∧
    item.status = .allocated ∧ item.type ≠ t

instance (st : State) (c : Call) : Decidable (Mismatching st c) :=
  match hc : c.effect with
  | .release p t =>
    match hf : st.findMemoryItem p with
    | some item => decidable_of_iff (item.status = .allocated ∧ item.type ≠ t) (by
        constructor
        · rintro ⟨h1, h2⟩
          exact ⟨p, t, item, hc, hf, h1, h2⟩
        · rintro ⟨p', t', item', hc', hf', h1, h2⟩
          rw [hc] at hc'
          cases hc'
          rw [hf] at hf'
          cases hf'
          exact ⟨h1, h2⟩)
    | none => isFalse (by
        rintro ⟨p', t', item', hc', hf', -⟩
        rw [hc] at hc'
        cases hc'
        rw [hf] at hf'
        cases hf')
  | .nothing => isFalse (by rintro ⟨p', t', item', hc', -⟩; rw [hc] at hc'; cases hc')
  | .allocate _ => isFalse (by rintro ⟨p', t', item', hc', -⟩; rw [hc] at hc'; cases hc')
  | .move _ _ => isFalse (by rintro ⟨p', t', item', hc', -⟩; rw [hc] at hc'; cases hc')
  | .setMax _ => isFalse (by rintro ⟨p', t', item', hc', -⟩; rw [hc] at hc'; cases hc')

/-- The threshold is only ever set to positive values. -/
def SetsPositiveMax (c : Call) : Prop := ∀ n, c.effect = .setMax n → 0 < n

/-- The call registers a block: an allocation or a realloc that moves an allocated block. -/
def RegistersBlock (st : State) (c : Call × Env) : Prop :=
  (∃ t, c.1.effect = .allocate t ∧ c.2.raw ≠ 0) ∨
    ∃ p n item, c.1.effect = .move p n ∧ st.findMemoryItem p = some item ∧
      item.type = .malloc ∧ item.status = .allocated ∧ c.2.raw ≠ p

/-- The assumptions on one call under which its blocks are accounted for. -/
structure Tracked (st : State) (c : Call × Env) : Prop where
  fresh : RawIssuesFresh st c
  succeeds : RawReallocSucceeds c
  captured : StackCaptured c.2
  grow : TablesGrow c.2
  refuses : RefusesActions c.2
  matching : ¬ Mismatching st c.1

/-- An environment in which every request of the tool succeeds and every callback gives `answer`. -/
def Env.giving (raw : Addr) (frames : List ℕ) (answer : FailureAction) : Env where
  raw := raw
  stack := some ⟨frames⟩
  memoryItem := true
  stackItem := true
  clbkFnc := fun _ => answer
  userData := 0
  initialDealloc := false
  initialRealloc := none
  handlerMemory := none
  inScopeCleanerRuns := 1

theorem tracked_giving {st : State} {c : Call} {raw : Addr} {frames : List ℕ} (hraw : raw ≠ 0)
    (hlive : raw ∉ st.live) (hframes : frames ≠ []) (hm : ¬ Mismatching st c) :
    Tracked st (c, .giving raw frames .doNotMakeActionToPreventCrash) :=
  ⟨Or.inr (Or.inl hlive), fun _ _ _ => hraw, ⟨⟨frames⟩, rfl, hframes⟩, ⟨rfl, rfl⟩, fun _ => rfl, hm⟩

/-- The state in which a call starts to count the block it registers, with the block's backtrace. -/
def State.countingEntry (st : State) (c : Call × Env) : Option (State × BacktracePtr) :=
  match c.1.effect with
  | .allocate memoryType =>
    if c.2.raw = 0 then none
    else
      (registerMemoryItem ((st.mallocn c.2.raw).capture c.2) c.2 c.2.raw
        ⟨memoryType, .allocated, c.2.raw, st.captured c.2, none⟩).map fun st₁ =>
          (st₁, st.captured c.2)
  | .move ptr _ =>
    match st.findMemoryItem ptr with
    | none => none
    | some item =>
      if item.type = .malloc ∧ item.status = .allocated ∧ c.2.raw ≠ ptr then
        match removeCorrespondingTrace ((st.capture c.2).reallocn item.realAddress c.2.raw)
            item.allocTrace with
        | .error _ => none
        | .ok st₁ =>
          (registerMemoryItem (st₁.setMemoryItem ptr { item with status := .duringReallocChanged })
            c.2 c.2.raw ⟨.malloc, .allocated, c.2.raw, st.captured c.2, none⟩).map fun st₂ =>
              (st₂, st.captured c.2)
      else none
  | _ => none

/-- The call registers a block whose stack already has a counter. -/
def CountsKnownStack (st : State) (c : Call × Env) : Prop :=
  ∃ st₁ t e, st.countingEntry c = some (st₁, some t) ∧ st₁.findStackItem t = some e

/-- The result reports a failure of the given kind. -/
def Res.Reports (r : Res) (failureType : FailureType) : Prop :=
  ∃ d a, Event.clbkFnc d a ∈ r.events ∧ d.failureType = failureType

/-- The accounting invariant, up to `gap s` blocks of stack `s` that are allocated but not counted.
Every record and every key has a captured stack, no two keys have the same content and no counter is
zero. -/
structure Accounted (st : State) (gap : Backtrace → ℕ) : Prop where
  records : ∀ e ∈ st.memoryItems, ∃ t, e.2.allocTrace = some t ∧ t < st.traces.next ∧
    (st.traces.data t).ppBuffer ≠ []
  keys : ∀ e ∈ st.stackItems, e.1 < st.traces.next ∧ (st.traces.data e.1).ppBuffer ≠ [] ∧ 0 < e.2
  unique : ∀ s, Entries.AtMostOne (fun k => decide (st.traces.data k = s)) st.stackItems
  balance : ∀ s, (st.stackCount s).getD 0 + gap s = st.allocatedCount s

/-- Every record holds its own address, and an allocated one a live block. -/
def State.RecordsLive (st : State) : Prop :=
  ∀ p item, st.findMemoryItem p = some item →
    item.realAddress = p ∧ (item.status = .allocated → p ∈ st.live)

/-- One more uncounted block of stack `s`. -/
def bump (gap : Backtrace → ℕ) (s : Backtrace) : Backtrace → ℕ :=
  Function.update gap s (gap s + 1)

end CrashInvestigator.Tracker
