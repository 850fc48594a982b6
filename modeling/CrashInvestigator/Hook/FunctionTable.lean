import CrashInvestigator.Library.Runs

/-!
# The table of allocation functions on Windows

`malloc`, `free`, `calloc` and `realloc` of `crash_investigator_malloc_free_hook_windows1.c` call
through the table that `s_pCrInvAllocFncsPtrs` points to; `crash_investigator_malloc_free_hook_windows2.c`
installs a table with the functions of the C runtime library and takes it back. What the system
answers is part of the call. A journal beside the state remembers whether a table should be installed.
-/

namespace CrashInvestigator.Hook

/-- The values that a pointer of the module takes. Distinct objects have distinct addresses. -/
inductive Address where
  | null
  /-- `&s_fncsPointerCrInvAlloc`. -/
  | fncsPointerCrInvAlloc
  | crInvAllocFree_free_default
  | crInvAllocFree_malloc_default
  | crInvAllocFree_calloc_default
  | crInvAllocFree_realloc_default
  /-- A block of the process heap. -/
  | heap (block : ℕ)
  /-- A function of the loaded library. -/
  | procedure (function : ℕ)
  deriving DecidableEq, Repr

/-- `SCrInvAllFreeFunctions`. -/
structure AllFreeFunctions where
  m_free : Address
  m_malloc : Address
  m_calloc : Address
  m_realloc : Address
  deriving DecidableEq, Repr

/-- The names that are looked up in the library. -/
inductive ProcName where
  | free
  | malloc
  | calloc
  | realloc
  | atexit
  deriving DecidableEq, Repr

/-- What the system answers in one initialization. -/
structure Outcome where
  loadLibraryA : Option ℕ
  heapAlloc : Option ℕ
  getProcAddress : ProcName → Option ℕ

/-- The static variables, the tables on the process heap that are not freed, the references on the
library that are not given back, and how often the cleanup is registered with `atexit`. -/
structure State where
  s_cranLib : Option ℕ
  /-- The static variable of the initialization routine. -/
  cranLib : Option ℕ
  s_fncsPointerCrInvAlloc : AllFreeFunctions
  s_pCrInvAllocFncsPtrs : Address
  s_pCrInvAllocFncsPtrsAllocated : Address
  heapTables : List (ℕ × AllFreeFunctions)
  libraryReferences : ℕ
  atExit : ℕ
  deriving DecidableEq

/-- The static initializers. -/
def State.init : State where
  s_cranLib := none
  cranLib := none
  s_fncsPointerCrInvAlloc :=
    ⟨.crInvAllocFree_free_default, .crInvAllocFree_malloc_default, .crInvAllocFree_calloc_default,
      .crInvAllocFree_realloc_default⟩
  s_pCrInvAllocFncsPtrs := .fncsPointerCrInvAlloc
  s_pCrInvAllocFncsPtrsAllocated := .null
  heapTables := []
  libraryReferences := 0
  atExit := 0

/-! ## The system -/

/-- The table at an address. -/
def State.tableAt (s : State) : Address → Option AllFreeFunctions
  | .fncsPointerCrInvAlloc => some s.s_fncsPointerCrInvAlloc
  | .heap block => s.heapTables.lookup block
  | _ => none

/-- The table at an address is replaced. -/
def State.setTable (s : State) (a : Address) (t : AllFreeFunctions) : State :=
  match a with
  | .fncsPointerCrInvAlloc => { s with s_fncsPointerCrInvAlloc := t }
  | .heap block =>
    { s with heapTables := s.heapTables.map fun e => if e.1 = block then (block, t) else e }
  | _ => s

def State.heapFree (s : State) : Address → State
  | .heap block => { s with heapTables := s.heapTables.filter fun e => e.1 ≠ block }
  | _ => s

def State.freeLibrary (s : State) : State :=
  { s with libraryReferences := s.libraryReferences - 1 }

/-- The word at `destination` is the first one of the table there, which is its `m_free`. The answer is
the old word; `none` is an access to what is no table. -/
def State.interlockedCompareExchangePointer (s : State) (destination exchange comparand : Address) :
    Option (State × Address) :=
  match s.tableAt destination with
  | none => none
  | some t =>
    if t.m_free = comparand then some (s.setTable destination { t with m_free := exchange }, t.m_free)
    else some (s, t.m_free)

/-- A null pointer, or the function that was found. -/
def procAddress : Option ℕ → Address
  | none => .null
  | some function => .procedure function

/-! ## The routines -/

/-- `CrInvAllocFreeCleanupRoutineStatic`. -/
def crInvAllocFreeCleanupRoutineStatic (s : State) : State :=
  if s.s_cranLib.isSome then
    let s := { s with s_pCrInvAllocFncsPtrs := .fncsPointerCrInvAlloc }
    let s := s.heapFree s.s_pCrInvAllocFncsPtrsAllocated
    let s := { s with s_pCrInvAllocFncsPtrsAllocated := .null }
    let s := s.freeLibrary
    { s with s_cranLib := none }
  else s

/-- The table that the initialization fills. -/
def Outcome.functions (o : Outcome) : AllFreeFunctions where
  m_free := procAddress (o.getProcAddress .free)
  m_malloc := procAddress (o.getProcAddress .malloc)
  m_calloc := procAddress (o.getProcAddress .calloc)
  m_realloc := procAddress (o.getProcAddress .realloc)

/-- No entry of the table is null. -/
def AllFreeFunctions.Filled (t : AllFreeFunctions) : Prop :=
  t.m_free ≠ .null ∧ t.m_malloc ≠ .null ∧ t.m_calloc ≠ .null ∧ t.m_realloc ≠ .null

instance (t : AllFreeFunctions) : Decidable t.Filled := by
  unfold AllFreeFunctions.Filled
  infer_instance

/-- `CrInvAllocFreeInitializationRoutineStatic`; `none` is an access to what is no table. -/
def crInvAllocFreeInitializationRoutineStatic (s : State) (o : Outcome) : Option State :=
  if s.s_cranLib.isSome then some s
  else
    let s := { s with cranLib := o.loadLibraryA }
    if o.loadLibraryA.isNone then some s
    else
      let s := { s with libraryReferences := s.libraryReferences + 1 }
      match o.heapAlloc with
      | none => some s
      | some block =>
        let pFncs := Address.heap block
        let s := { s with heapTables := (block, o.functions) :: s.heapTables }
        if ¬ o.functions.Filled then some s.freeLibrary
        else
          -- the destination is the table itself, not the variable that points to it
          match s.interlockedCompareExchangePointer s.s_pCrInvAllocFncsPtrs pFncs
              .fncsPointerCrInvAlloc with
          | none => none
          | some (s, pInitVal) =>
            if pInitVal = .fncsPointerCrInvAlloc then some (s.heapFree pFncs).freeLibrary
            else
              let s := { s with s_pCrInvAllocFncsPtrsAllocated := pFncs }
              if procAddress (o.getProcAddress .atexit) ≠ .null then
                some { s with atExit := s.atExit + 1 }
              else some s

/-- What a function of the hook calls: the entry `m` of the table in use. -/
def State.called (s : State) (m : AllFreeFunctions → Address) : Option Address :=
  (s.tableAt s.s_pCrInvAllocFncsPtrs).map m

/-- `free` of the hook. -/
def State.free (s : State) : Option Address := s.called AllFreeFunctions.m_free

/-- `malloc` of the hook. -/
def State.malloc (s : State) : Option Address := s.called AllFreeFunctions.m_malloc

/-- `calloc` of the hook. -/
def State.calloc (s : State) : Option Address := s.called AllFreeFunctions.m_calloc

/-- `realloc` of the hook. -/
def State.realloc (s : State) : Option Address := s.called AllFreeFunctions.m_realloc

/-! ## Runs -/

/-- `CrInvAllocFreeInitializationRoutine` or `CrInvAllocFreeCleanupRoutine`. -/
inductive Call where
  | initialization (o : Outcome)
  | cleanup

/-- The initialization asks for the library and the table and gets them and the four functions. -/
def AcquiresEverything (s : State) (o : Outcome) : Prop :=
  s.s_cranLib.isNone ∧ o.loadLibraryA.isSome ∧ o.heapAlloc.isSome ∧ o.functions.Filled

instance (s : State) (o : Outcome) : Decidable (AcquiresEverything s o) := by
  unfold AcquiresEverything
  infer_instance

/-- `installed` says that an initialization acquired everything and that no cleanup came since. -/
structure Journal where
  st : State
  installed : Bool
  deriving DecidableEq

def Journal.init : Journal := ⟨.init, false⟩

/-- One call; a process that faulted stays where it was. -/
def Journal.step (j : Journal) : Call → Journal
  | .initialization o =>
    match crInvAllocFreeInitializationRoutineStatic j.st o with
    | none => j
    | some s => ⟨s, j.installed || decide (AcquiresEverything j.st o)⟩
  | .cleanup => ⟨crInvAllocFreeCleanupRoutineStatic j.st, false⟩

/-- The pointer in use leads to the default table or to a table on the heap that is not freed, and the
table has four functions. -/
def State.PointsToTable (s : State) : Prop :=
  (s.s_pCrInvAllocFncsPtrs = .fncsPointerCrInvAlloc ∨ ∃ n, s.s_pCrInvAllocFncsPtrs = .heap n) ∧
    ∃ t, s.tableAt s.s_pCrInvAllocFncsPtrs = some t ∧ t.Filled

/-- What is promised between the calls. -/
structure Journal.Sound (j : Journal) : Prop where
  pointsToTable : j.st.PointsToTable
  heapTable : j.installed = true → ∃ n, j.st.s_pCrInvAllocFncsPtrs = .heap n
  oneTable : j.st.heapTables.length ≤ 1
  oneReference : j.st.libraryReferences ≤ 1

/-- What is promised of a call: an initialization that fails or that finds a table installed leaves
nothing of its own, and after a cleanup everything is released and the default table is in use. -/
def LeavesNothing (j : Journal) : Call → Prop
  | .initialization o =>
    ¬ AcquiresEverything j.st o ∨ j.installed = true →
      (j.step (.initialization o)).st.heapTables = j.st.heapTables ∧
        (j.step (.initialization o)).st.libraryReferences = j.st.libraryReferences
  | .cleanup =>
    (j.step .cleanup).st.heapTables = [] ∧ (j.step .cleanup).st.libraryReferences = 0 ∧
      (j.step .cleanup).st.s_pCrInvAllocFncsPtrs = .fncsPointerCrInvAlloc

/-- The library is not found. -/
def FindsNoLibrary (_ : Journal) : Call → Prop
  | .initialization o => o.loadLibraryA = none
  | .cleanup => True

end CrashInvestigator.Hook
