import CrashInvestigator.Library.Lines
import CrashInvestigator.Tracker.Monitor

/-!
# What a text says

The text of a report as titled stacks, and what a reader learns from it. A leak is told without an
address, and only the failures of a wrong routine show types.
-/

namespace CrashInvestigator.Tracker

open Library

/-- What the title says after the address. -/
def complaint (allocType freeType : MemoryType) : FailureType → List Char
  | .deallocOfNonExistingMemory =>
    " invalid deallocation. Address is not a valid allocated address".toList
  | .doubleFree => " invalid free() / delete / delete[]".toList
  | .badReallocMemNotExist =>
    " provided with realloc. The address is not a valid allocated address".toList
  | .badReallocDeletedMem => " provided with realloc. The address was already deallocated".toList
  | .badReallocCreatedByWrongAlloc =>
    " provided with realloc. The address was created by wrong routine (".toList ++
      allocTypeFromMemoryType allocType ++ ")".toList
  | .freeMissmatch =>
    " is being deallocated with non-proper routine. The memory allocated by ".toList ++
      allocTypeFromMemoryType allocType ++ " and is being deallocated by ".toList ++
      allocTypeFromMemoryType freeType
  | .possibilityOfMemoryLeak | .sigSegvHandler | .unknown => []

/-- What a reader learns. -/
structure Shown where
  failureType : FailureType
  address : Option Addr
  types : List MemoryType
  frames : List (List Addr)

def FailureData.shown (data : FailureData) : Shown where
  failureType := data.failureType
  address :=
    match data.failureType with
    | .possibilityOfMemoryLeak | .sigSegvHandler | .unknown => none
    | _ => some data.failureAddress
  types :=
    match data.failureType with
    | .badReallocCreatedByWrongAlloc => [data.allocType]
    | .freeMissmatch => [data.allocType, data.freeType]
    | _ => []
  frames :=
    match data.failureType with
    | .possibilityOfMemoryLeak => [data.stackAlloc]
    | .doubleFree | .badReallocDeletedMem | .freeMissmatch =>
      [data.analizeStack, data.stackFree, data.stackAlloc]
    | .badReallocCreatedByWrongAlloc => [data.analizeStack, data.stackAlloc]
    | .unknown => []
    | _ => [data.analizeStack]

section Printing

variable (symbols : Addr → StackItem)

/-- The line of a frame, without the tab and the newline. -/
def frameLine (address : Addr) : List Char :=
  percentP address ++ ":  ".toList ++ (symbols address).details

/-- A stack under its title. -/
def stackBlock (title : List Char) (stack : List Addr) : Lines.Block Char :=
  ⟨title, stack.map (frameLine symbols)⟩

/-- The title of a report that shows an address. -/
def addressTitle (data : FailureData) : List Char :=
  "Address: ".toList ++ percentP data.failureAddress ++
    complaint data.allocType data.freeType data.failureType

/-- The stacks of a report with their titles. -/
def FailureData.blocks (data : FailureData) : List (Lines.Block Char) :=
  match data.failureType with
  | .deallocOfNonExistingMemory | .badReallocMemNotExist =>
    [stackBlock symbols (addressTitle data) data.analizeStack]
  | .doubleFree =>
    [stackBlock symbols (addressTitle data) data.analizeStack,
      stackBlock symbols "The previous deallocation was done in the following stack".toList
        data.stackFree,
      stackBlock symbols "Memory was created in the following stack".toList data.stackAlloc]
  | .badReallocDeletedMem =>
    [stackBlock symbols (addressTitle data) data.analizeStack,
      stackBlock symbols "The deallocation was done in the following stack".toList data.stackFree,
      stackBlock symbols "Memory was created in the following stack".toList data.stackAlloc]
  | .badReallocCreatedByWrongAlloc =>
    [stackBlock symbols (addressTitle data) data.analizeStack,
      stackBlock symbols "Memory was created in the following stack".toList data.stackAlloc]
  | .freeMissmatch =>
    [stackBlock symbols (addressTitle data) data.analizeStack,
      stackBlock symbols "Deallocation was done in the following stack".toList data.stackFree,
      stackBlock symbols "Memory was created in the following stack".toList data.stackAlloc]
  | .possibilityOfMemoryLeak =>
    [stackBlock symbols "There is a probability for memory leak in the following stack".toList
      data.stackAlloc]
  | .sigSegvHandler => [stackBlock symbols "Sig segv handler".toList data.analizeStack]
  | .unknown => []

/-- No name of the debug information is broken over lines. -/
def SingleLineNames : Prop :=
  ∀ address, '\n' ∉ (symbols address).dllName ∧ '\n' ∉ (symbols address).funcName ∧
    '\n' ∉ (symbols address).sourceFileName

end Printing

end CrashInvestigator.Tracker
