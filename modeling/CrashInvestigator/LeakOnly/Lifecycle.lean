import CrashInvestigator.LeakOnly.Analyzer

/-!
# The life of the leak-only analyzer

The pointers to the tables around the calls: `InitRaw` creates what they point to, from the constructor
of `s_memData` or, when it comes earlier, from the first tracked `AllocMem`; the destructor deletes it.
`crash_investigator_analyze_leak_only_new_delete_std_hash.cpp` has the same constructor, destructor,
`Init` and `InitRaw`.

The calls are those of one thread. The three `new` of `InitRaw` succeed.
-/

namespace CrashInvestigator.LeakOnly

open Tracker (Addr)

/-- The static variables. -/
structure Statics where
  st : State
  /-- `s_pMutex` is not null. -/
  pMutex : Bool
  /-- `s_pStack` is not null. -/
  pStack : Bool
  /-- `s_pMem` is not null. -/
  pMem : Bool
  /-- `s_call_once_flag` was used. -/
  callOnceFlag : Bool
  /-- `s_isOngoing`. -/
  isOngoing : ℕ
  /-- How often `InitRaw` ran. -/
  initRaws : ℕ

/-- Which null pointer is dereferenced. -/
inductive NullDereference where
  | pMutex
  | pMem
  | pStack
  deriving DecidableEq, Repr

/-- The static initializers; `max` is `g_unMaxNumberOfAllocInTheStack`. -/
def Statics.start (max : ℕ) : Statics where
  st := .initRaw max 0
  pMutex := false
  pStack := false
  pMem := false
  callOnceFlag := false
  isOngoing := 0
  initRaws := 0

namespace Statics

/-- `InitRaw`. The allocations that it makes find `g_initOrExitOngoing` set and are not tracked; the
handler clears it in the end. -/
def initRaw (s : Statics) (time : ℤ) : Statics :=
  { s with
    st := { s.st with pMem := [], pStack := [], initTime := time }.leaveHandler,
    pMutex := true, pStack := true, pMem := true, initRaws := s.initRaws + 1 }

/-- `Init`. -/
def init (s : Statics) (time : ℤ) : Statics :=
  if s.pMutex then s
  else if s.callOnceFlag then s
  else { s.initRaw time with callOnceFlag := true }

/-- `MemAnalyzeData`. -/
def construct (s : Statics) (time : ℤ) : Statics := s.initRaw time

/-- `~MemAnalyzeData`. -/
def destruct (s : Statics) : Statics :=
  { s with
    st := { s.st with initOrExitOngoing := true, pMem := [], pStack := [] },
    pMutex := false, pStack := false, pMem := false }

/-- `AllocMem`, with the answer of `time` for `InitRaw`. A call that ends in a leak report does not
leave its handler. -/
def allocMem (s : Statics) (env : Env) (time : ℤ) (size : ℕ) :
    Except NullDereference (Statics × Res) :=
  let env := { env with isOngoing := s.isOngoing }
  if s.st.initOrExitOngoing ∨ 0 < s.isOngoing ∨ env.ignoreThisStack then
    .ok (s, LeakOnly.allocMem s.st env size)
  else
    let s₁ := s.init time
    let r := LeakOnly.allocMem s₁.st env size
    let s₂ := { s₁ with
      st := r.st, isOngoing := if r.st.process = .running then s.isOngoing else s.isOngoing + 1 }
    -- the pointers are not used without a block or a backtrace
    if env.raw = 0 ∨ env.stack = none then .ok (s₂, r)
    else if ¬ s₁.pMutex then .error .pMutex
    else if ¬ s₁.pMem then .error .pMem
    else if ¬ s₁.pStack then .error .pStack
    else .ok (s₂, r)

/-- `FreeMem`, with the pointers that `FreeMemAnalyze` uses. -/
def freeMem (s : Statics) (ptr : Addr) : Except NullDereference (Statics × Res) :=
  let r := LeakOnly.freeMem s.st ptr
  if s.st.initOrExitOngoing then .ok ({ s with st := r.st }, r)
  else if ¬ s.pMutex then .error .pMutex
  else if ¬ s.pMem then .error .pMem
  else if (s.st.findMem ptr).isSome ∧ ¬ s.pStack then .error .pStack
  else .ok ({ s with st := r.st }, r)

/-- One call. -/
def call (s : Statics) (env : Env) (time : ℤ) : Call → Except NullDereference (Statics × Res)
  | .allocMem size => s.allocMem env time size
  | .freeMem ptr => s.freeMem ptr

end Statics

/-! ## Runs -/

/-- The phases of `s_memData`. -/
inductive Phase where
  | before
  | during
  | after
  deriving DecidableEq, Repr

/-- The process: its static variables, the phase of `s_memData`, and the null pointer that ended it. -/
structure Life where
  statics : Statics
  phase : Phase
  fault : Option NullDereference

def Life.start (max : ℕ) : Life := ⟨.start max, .before, none⟩

inductive Label where
  | call (c : Call) (env : Env) (time : ℤ)
  | construct (time : ℤ)
  | destruct

/-- One step of a process that did not fault. -/
def Life.advance (l : Life) : Label → Life
  | .call c env time =>
    match l.statics.call env time c with
    | .error f => { l with fault := some f }
    | .ok r => { l with statics := r.1 }
  | .construct time => { l with statics := l.statics.construct time, phase := .during }
  | .destruct => { l with statics := l.statics.destruct, phase := .after }

def Life.step (l : Life) (lb : Label) : Life := if l.fault.isSome then l else l.advance lb

/-- The object is constructed once in a process that goes on, and destroyed once; the calls of `exit`'s
handlers come after a leak report. -/
def Life.Allows (l : Life) : Label → Prop
  | .call _ _ _ => True
  | .construct _ => l.phase = .before ∧ l.statics.st.process = .running
  | .destruct => l.phase = .during

instance (l : Life) : DecidablePred l.Allows
  | .call _ _ _ => inferInstanceAs (Decidable True)
  | .construct _ =>
    inferInstanceAs (Decidable (l.phase = .before ∧ l.statics.st.process = .running))
  | .destruct => inferInstanceAs (Decidable (l.phase = .during))

/-- No null pointer was dereferenced, and the tables are created once. -/
structure Life.Sound (l : Life) : Prop where
  noFault : l.fault = none
  atMostOnce : l.statics.initRaws ≤ 1
  once : l.phase ≠ .before → l.statics.initRaws = 1

/-- What was recorded before the constructor is recorded after it. -/
def KeepsRecords (l : Life) (lb : Label) : Prop :=
  ∀ time, lb = .construct time → ∀ ptr entry, l.statics.st.findMem ptr = some entry →
    (l.step lb).statics.st.findMem ptr = some entry

/-- No release comes before the tables are created, and the constructor does not come after it. -/
def InOrder (l : Life) : Label → Prop
  | .call (.freeMem _) _ _ => l.statics.st.initOrExitOngoing = true ∨ l.statics.pMem = true
  | .call (.allocMem _) _ _ => True
  | .construct _ => l.statics.pMem = false
  | .destruct => True

instance (l : Life) : DecidablePred (InOrder l)
  | .call (.freeMem _) _ _ =>
    inferInstanceAs (Decidable (l.statics.st.initOrExitOngoing = true ∨ l.statics.pMem = true))
  | .call (.allocMem _) _ _ => inferInstanceAs (Decidable True)
  | .construct _ => inferInstanceAs (Decidable (l.statics.pMem = false))
  | .destruct => inferInstanceAs (Decidable True)

end CrashInvestigator.LeakOnly
