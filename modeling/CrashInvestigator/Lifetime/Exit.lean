import CrashInvestigator.Lifetime.Routines

/-!
# The two exits

The loops over `m_memoryItems` in `~CrashInvestAnalizerInit`, compiled with and without
`CRASH_INVEST_VERBOSE`, with an account of what they free and print. The verbose variant has two loops
and one iterator.
-/

namespace CrashInvestigator.Lifetime

open HashItems
open Tracker (Addr BacktracePtr SMemoryItem TraceHeap convertBacktraceToNames)

/-- `for(;iter!=s_endIter;++iter)` with a body that changes a `σ`. The iterator is left where the loop
ends. -/
def forLoop {κ ν σ : Type} (t : Table κ ν) (body : σ → ν → σ) :
    ℕ → Option ℕ → σ → Except Fault (Option ℕ × σ)
  | 0, _, _ => .error .walkDoesNotEnd
  | _ + 1, none, acc => .ok (none, acc)
  | fuel + 1, some pItem, acc => do
    let item ← t.read pItem
    let iter ← t.increment pItem
    forLoop t body fuel iter (body acc item.second)

/-- What a destructor did. -/
structure ExitReport where
  /-- The arguments of `FreeBacktraceData` that are not null. -/
  freed : List ℕ
  /-- The number of unallocated memories, if a line about it was printed. -/
  announced : Option ℕ
  /-- The arguments of `PrintStack`. -/
  printed : List (List ℕ)
  deriving DecidableEq, Repr

/-- The destructor frees both traces of a record, the newer one first. -/
def ExitReport.free (r : ExitReport) (item : SMemoryItem) : ExitReport :=
  { r with freed := r.freed ++ item.deallocTrace.toList ++ item.allocTrace.toList }

/-- The destructor without `CRASH_INVEST_VERBOSE`. -/
def quietExit (t : Table Addr SMemoryItem) (fuel : ℕ) : Except Fault ExitReport := do
  let iter := t.begin
  let r ← forLoop t ExitReport.free fuel iter ⟨[], none, []⟩
  .ok r.2

/-- `ConvertBacktraceToNames(a_data,&aStack)`: `aStack` stays as it is for a null pointer, and when
`backtrace_symbols` fails. -/
def fillStack (h : TraceHeap) (symbols : ℕ → Bool) (aStack : List ℕ) : BacktracePtr → List ℕ
  | none => aStack
  | some t => if symbols t then convertBacktraceToNames h (some t) else aStack

/-- The body of the first loop. -/
def countAllocated (nSizeOfUnallocated : ℕ) (item : SMemoryItem) : ℕ :=
  if item.status = .allocated then nSizeOfUnallocated + 1 else nSizeOfUnallocated

/-- The body of the second loop, which changes `aStack` too. -/
def printAndFree (h : TraceHeap) (symbols : ℕ → Bool) (acc : List ℕ × ExitReport)
    (item : SMemoryItem) : List ℕ × ExitReport :=
  if item.status = .allocated then
    let aStack := fillStack h symbols acc.1 item.allocTrace
    (aStack, { acc.2 with printed := acc.2.printed ++ [aStack] }.free item)
  else (acc.1, acc.2.free item)

/-- The destructor with `CRASH_INVEST_VERBOSE`. The second loop goes on with the iterator of the
first. -/
def verboseExit (t : Table Addr SMemoryItem) (h : TraceHeap) (symbols : ℕ → Bool) (fuel : ℕ) :
    Except Fault ExitReport := do
  let iter := t.begin
  let (iter, nSizeOfUnallocated) ← forLoop t countAllocated fuel iter 0
  let announced := if nSizeOfUnallocated ≠ 0 then some nSizeOfUnallocated else none
  let r ← forLoop t (printAndFree h symbols) fuel iter ([], ⟨[], announced, []⟩)
  .ok r.2.2

/-- The values of some items. -/
def Table.values {κ ν : Type*} (t : Table κ ν) (visited : List ℕ) : List ν :=
  visited.filterMap fun pItem => (t.items pItem).map Item.second

/-- The two traces that a record holds. -/
def heldTraces (item : SMemoryItem) : List ℕ := item.deallocTrace.toList ++ item.allocTrace.toList

/-- Both destructors free the traces of every record, each of them once, and the verbose one prints the
allocation stacks of the records that are allocated, as many as it announced. -/
structure SameCleanUp (h : TraceHeap) (records : List SMemoryItem) (quiet verbose : ExitReport) :
    Prop where
  quietFrees : quiet.freed.Perm (records.flatMap heldTraces)
  verboseFrees : verbose.freed.Perm (records.flatMap heldTraces)
  prints : verbose.printed.Perm ((records.filter fun item => item.status = .allocated).map
    fun item => convertBacktraceToNames h item.allocTrace)
  announces : verbose.announced.getD 0 = verbose.printed.length

end CrashInvestigator.Lifetime
