import CrashInvestigator.HashItems.Table
import CrashInvestigator.Library.Positional

/-!
# Captured stacks in memory

`core/backtrace` down to the pointers and bytes of a `Backtrace`: the capture with its truncation, the
comparison with `memcmp`, and the hash in the arithmetic of `size_t`. They are the key of the table
`m_stackItems`.
-/

namespace CrashInvestigator.Stacks

open Library HashItems

/-- `CRASH_INVEST_SYMBOLS_COUNT_MAX`. -/
def crashInvestSymbolsCountMax : ℕ := 256

/-- `sizeof(void*)`. -/
def sizeofVoidPtr : ℕ := 8

/-- `struct Backtrace`, with the pointers that `ppBuffer` points to. -/
structure Backtrace where
  ppBuffer : List UInt64
  stackDeepness : ℕ
  /-- The buffer holds as many pointers as the stack is deep. -/
  filled : ppBuffer.length = stackDeepness

/-! ## Capture -/

/-- What the system answers during a capture. -/
structure Answers where
  /-- Whether `mallocn(sizeof(Backtrace))` succeeds. -/
  object : Bool
  /-- Whether the request for the frames succeeds. It may do so for a size of zero. -/
  buffer : Bool
  /-- The frames that can be unwound, the innermost first. -/
  unwound : List UInt64

/-- `backtrace`: the frames written to a buffer of `size` pointers. -/
def backtrace (unwound : List UInt64) (size : ℕ) : List UInt64 := unwound.take size

/-- `InitBacktraceDataForCurrentStack`. The frames of the tool itself are left out, unless nothing
would remain. -/
def initBacktraceDataForCurrentStack (answers : Answers) (goBackInTheStackCalc : ℕ) :
    Option Backtrace :=
  if answers.object then
    let cnMaxSymbolCount := crashInvestSymbolsCountMax + goBackInTheStackCalc
    let ppBuffer := backtrace answers.unwound cnMaxSymbolCount
    if goBackInTheStackCalc < ppBuffer.length then
      if answers.buffer then
        some ⟨ppBuffer.drop goBackInTheStackCalc, ppBuffer.length - goBackInTheStackCalc,
          List.length_drop⟩
      else none
    else if answers.buffer then some ⟨ppBuffer, ppBuffer.length, rfl⟩
    else none
  else none

/-- The stacks that a capture can return. -/
def Captured (stack : Backtrace) : Prop :=
  ∃ answers goBackInTheStackCalc,
    initBacktraceDataForCurrentStack answers goBackInTheStackCalc = some stack

/-! ## Comparison and hash -/

/-- The pointers of a buffer, byte by byte. -/
def bytes (ppBuffer : List UInt64) : List UInt8 :=
  ppBuffer.flatMap fun frame => Positional.littleEndian sizeofVoidPtr frame.toNat

/-- `memcmp`: the difference of the first bytes that differ. No call reads behind the buffers. -/
def memcmp : List UInt8 → List UInt8 → ℕ → ℤ
  | x :: xs, y :: ys, n + 1 => if x = y then memcmp xs ys n else x.toNat - y.toNat
  | _, _, _ => 0

/-- `IsTheSameStack`. -/
def isTheSameStack (stack1 stack2 : Backtrace) : Bool :=
  decide (0 < stack1.stackDeepness) && decide (stack1.stackDeepness = stack2.stackDeepness) &&
    decide (memcmp (bytes stack1.ppBuffer) (bytes stack2.ppBuffer)
      (stack1.stackDeepness * sizeofVoidPtr) = 0)

/-- The loop of `HashOfTheStack` from `cunRet` and `unMult`. -/
def hashLoop (cunRet unMult : UInt64) : List UInt64 → UInt64
  | [] => cunRet
  | frame :: frames => hashLoop (cunRet + frame * unMult) (unMult * 1000) frames

/-- `HashOfTheStack`. -/
def hashOfTheStack (stack : Backtrace) : UInt64 := hashLoop 0 1 stack.ppBuffer

/-- `BackTrcHasher`. -/
instance : Hashable Backtrace := ⟨hashOfTheStack⟩

/-- `BackTrcEql`. -/
instance : BEq Backtrace := ⟨isTheSameStack⟩

/-! ## Statements -/

/-- The stack is a key like any other: its equality is that of the frames, equal stacks have equal
hashes, and an item just added for it, whatever else the table holds, is found by its frames. -/
structure LawfulKey (stack : Backtrace) : Prop where
  refl : isTheSameStack stack stack = true
  symm : ∀ s, Captured s → isTheSameStack stack s = true → isTheSameStack s stack = true
  trans : ∀ s s', Captured s → Captured s' → isTheSameStack stack s = true →
    isTheSameStack s s' = true → isTheSameStack stack s' = true
  exact : ∀ s, Captured s → (isTheSameStack stack s = true ↔ stack.ppBuffer = s.ppBuffer)
  hash : ∀ s, Captured s → isTheSameStack stack s = true → hashOfTheStack stack = hashOfTheStack s
  found : ∀ (t t' : Table Backtrace ℕ) (a_data pItem : ℕ),
    t.addEntryWithKnownHash stack (unSize stack) a_data (some pItem) = .ok (t', some pItem) →
      ∀ s, Captured s → s.ppBuffer = stack.ppBuffer →
        ∀ fuel, t'.findEntry (fuel + 1) s = .ok (some pItem, unSize s)

/-- Two stacks of one depth that have the same frames except the one at `i`. -/
structure DifferAt (i : ℕ) (stack stack' : Backtrace) : Prop where
  depth : stack.stackDeepness = stack'.stackDeepness
  agree : ∀ j, j ≠ i → stack.ppBuffer[j]? = stack'.ppBuffer[j]?

/-- The frame at `i` of a stack of depth `d` contributes to its bucket. -/
def Contributes (d i : ℕ) : Prop :=
  ∃ stack stack', stack.stackDeepness = d ∧ DifferAt i stack stack' ∧ unSize stack ≠ unSize stack'

end CrashInvestigator.Stacks
