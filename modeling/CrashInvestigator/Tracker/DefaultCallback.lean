import CrashInvestigator.Tracker.Signal
import Mathlib.Data.Nat.Digits.Defs

/-!
# The default failure callback

`DefaultFailureClbk` with what it prints, `PrintStack` included, and the run of a process that never
calls `ReplaceFailureClbk`. The text is the one on `stderr`, where `DefaultErrorReportStatic` writes it.
-/

namespace CrashInvestigator.Tracker

/-! ## Formats -/

/-- `%p`. -/
def percentP (ptr : Addr) : List Char :=
  if ptr = 0 then "(nil)".toList else "0x".toList ++ ((Nat.digits 16 ptr).reverse.map Nat.digitChar)

/-- `%d` for a positive number. -/
def percentD (n : ℕ) : List Char := (Nat.digits 10 n).reverse.map Nat.digitChar

/-- `strrchr` and the `++` after it: what comes after the last `c`. -/
def afterLast (c : Char) (s : List Char) : Option (List Char) :=
  if c ∈ s then some (s.reverse.takeWhile (· ≠ c)).reverse else none

/-! ## Stacks -/

/-- The fields of a `StackItem` beside its address, which depend on the address. -/
structure StackItem where
  dllName : List Char
  funcName : List Char
  sourceFileName : List Char
  line : ℤ

/-- The file name that is printed. -/
def StackItem.flName (item : StackItem) : List Char :=
  match afterLast '\\' item.sourceFileName with
  | some flName => flName
  | none => (afterLast '/' item.sourceFileName).getD item.sourceFileName

/-- What `PrintStackSingleLine` prints after the address. -/
def StackItem.details (item : StackItem) : List Char :=
  (if item.funcName ≠ [] then item.funcName ++ "  ".toList else []) ++
  (if item.sourceFileName ≠ [] then "(".toList ++ item.flName else []) ++
  (if 0 < item.line then
    (if item.sourceFileName ≠ [] then ":".toList else "(line:".toList) ++ percentD item.line.toNat
    else []) ++
  (if item.sourceFileName ≠ [] ∨ 0 < item.line then ")  ".toList else []) ++
  (if item.dllName ≠ [] then "(".toList ++ item.dllName ++ ") ".toList else [])

section Printing

variable (symbols : Addr → StackItem)

/-- `PrintStackSingleLine`. -/
def printStackSingleLine (address : Addr) : List Char :=
  "\t".toList ++ percentP address ++ ":  ".toList ++ (symbols address).details ++ "\n".toList

/-- `PrintStack`. -/
def printStack (stack : List Addr) : List Char := stack.flatMap (printStackSingleLine symbols)

/-- `AllocTypeFromMemoryType`. -/
def allocTypeFromMemoryType : MemoryType → List Char
  | .new => "new".toList
  | .newArr => "new []".toList
  | .malloc => "malloc/realloc/calloc".toList
  | .notProvided => "NotProvided".toList

/-- `DefaultFailureClbk`: what it prints and what it answers. A report of an unknown kind is never
made. -/
def defaultFailureClbk (data : FailureData) : List Char × FailureAction :=
  match data.failureType with
  | .deallocOfNonExistingMemory =>
    ("Address: ".toList ++ percentP data.failureAddress ++
        " invalid deallocation. Address is not a valid allocated address\n".toList ++
      printStack symbols data.analizeStack, .doNotMakeActionToPreventCrash)
  | .doubleFree =>
    ("Address: ".toList ++ percentP data.failureAddress ++
        " invalid free() / delete / delete[]\n".toList ++
      printStack symbols data.analizeStack ++
      "The previous deallocation was done in the following stack\n".toList ++
      printStack symbols data.stackFree ++
      "Memory was created in the following stack\n".toList ++
      printStack symbols data.stackAlloc, .exitApp)
  | .badReallocMemNotExist =>
    ("Address: ".toList ++ percentP data.failureAddress ++
        " provided with realloc. The address is not a valid allocated address\n".toList ++
      printStack symbols data.analizeStack, .exitApp)
  | .badReallocDeletedMem =>
    ("Address: ".toList ++ percentP data.failureAddress ++
        " provided with realloc. The address was already deallocated\n".toList ++
      printStack symbols data.analizeStack ++
      "The deallocation was done in the following stack\n".toList ++
      printStack symbols data.stackFree ++
      "Memory was created in the following stack\n".toList ++
      printStack symbols data.stackAlloc, .exitApp)
  | .badReallocCreatedByWrongAlloc =>
    ("Address: ".toList ++ percentP data.failureAddress ++
        " provided with realloc. The address was created by wrong routine (".toList ++
        allocTypeFromMemoryType data.allocType ++ ")\n".toList ++
      printStack symbols data.analizeStack ++
      "Memory was created in the following stack\n".toList ++
      printStack symbols data.stackAlloc, .exitApp)
  | .freeMissmatch =>
    ("Address: ".toList ++ percentP data.failureAddress ++
        " is being deallocated with non-proper routine. The memory allocated by ".toList ++
        allocTypeFromMemoryType data.allocType ++ " and is being deallocated by ".toList ++
        allocTypeFromMemoryType data.freeType ++ "\n".toList ++
      printStack symbols data.analizeStack ++
      "Deallocation was done in the following stack\n".toList ++
      printStack symbols data.stackFree ++
      "Memory was created in the following stack\n".toList ++
      printStack symbols data.stackAlloc, .exitApp)
  | .possibilityOfMemoryLeak =>
    ("There is a probability for memory leak in the following stack\n".toList ++
      printStack symbols data.stackAlloc, .exitApp)
  | .sigSegvHandler =>
    ("Sig segv handler\n".toList ++ printStack symbols data.analizeStack, .exitApp)
  | .unknown => ([], .exitApp)

/-- A process that leaves `s_clbkData` as it is initialized. -/
def Env.IsDefault (env : Env) : Prop :=
  env.clbkFnc = fun data => (defaultFailureClbk symbols data).2

end Printing

end CrashInvestigator.Tracker
