import CrashInvestigator.Library.Alignment
import CrashInvestigator.Tracker.Operations

/-!
# Aligned allocation

`TestOperatorNewAligned`, and the runs in which it is called beside the other routines. A larger block
is requested, the first address in it that is aligned goes to the program, and the address of the
whole block goes into the table.
-/

namespace CrashInvestigator.Tracker

open Library

/-- `__STDCPP_DEFAULT_NEW_ALIGNMENT__`. -/
def stdcppDefaultNewAlignment : ℕ := 16

/-- `sizeof(void*)`. -/
def sizeofVoidPtr : ℕ := 8

/-- The bits of `ullnAlign` and all bits below them. -/
def smear (ullnAlign : ℕ) : ℕ :=
  let u := ullnAlign ||| (ullnAlign >>> 1)
  let u := u ||| (u >>> 2)
  let u := u ||| (u >>> 4)
  let u := u ||| (u >>> 8)
  let u := u ||| (u >>> 16)
  u ||| (u >>> 32)

/-- The alignment that `TestOperatorNewAligned` works with. -/
def effectiveAlign (align : ℕ) : ℕ :=
  if align < stdcppDefaultNewAlignment then stdcppDefaultNewAlignment
  else
    let ullnAlign := (smear (align - 1) + 1) % sizeModulus
    if ullnAlign ≠ align then ullnAlign else align

/-! ## The rounding in 64-bit words -/

/-- `smear`, as the source computes it. -/
def smearWord (ullnAlign : UInt64) : UInt64 :=
  let u := ullnAlign ||| (ullnAlign >>> 1)
  let u := u ||| (u >>> 2)
  let u := u ||| (u >>> 4)
  let u := u ||| (u >>> 8)
  let u := u ||| (u >>> 16)
  u ||| (u >>> 32)

/-- `effectiveAlign`, as the source computes it. -/
def effectiveAlignWord (align : UInt64) : UInt64 :=
  if align.toNat < stdcppDefaultNewAlignment then UInt64.ofNat stdcppDefaultNewAlignment
  else
    let ullnAlign := smearWord (align - 1) + 1
    if ullnAlign ≠ align then ullnAlign else align

/-- What `ullnAlign` would hold after each statement if a word had no bounds. -/
def ullnAlignValues (align : ℕ) : List ℕ :=
  let u₀ := align - 1
  let u₁ := u₀ ||| (u₀ >>> 1)
  let u₂ := u₁ ||| (u₁ >>> 2)
  let u₃ := u₂ ||| (u₂ >>> 4)
  let u₄ := u₃ ||| (u₃ >>> 8)
  let u₅ := u₄ ||| (u₄ >>> 16)
  let u₆ := u₅ ||| (u₅ >>> 32)
  [u₀, u₁, u₂, u₃, u₄, u₅, u₆, u₆ + 1]

/-! ## The routine -/

/-- `std::align`: the first aligned address of the buffer at `ptr`, if `size` bytes fit behind it. No
address in the buffer is aligned to zero. -/
def stdAlign (alignment size ptr space : ℕ) : Option Addr :=
  let aligned := Alignment.alignUp alignment ptr
  if ptr ≤ aligned ∧ aligned + size ≤ ptr + space then some aligned else none

/-- `TestOperatorNewAligned`. -/
def testOperatorNewAligned (st : State) (env : Env) (count : ℕ) (memoryType : MemoryType)
    (bThrow : Bool) (align : ℕ) : Res :=
  if st.bIsAllocingOrDeallocing then
    ⟨st.mallocn env.raw, .returns env.raw, [.mallocn count env.raw]⟩
  else if count = 0 then nullOrThrow st bThrow []
  else
    let actuallyAllocating := (count + effectiveAlign align + sizeofVoidPtr) % sizeModulus
    if env.raw = 0 then nullOrThrow st bThrow [.mallocn actuallyAllocating 0]
    else
      let st₁ := st.mallocn env.raw
      match stdAlign (effectiveAlign align) count env.raw actuallyAllocating with
      | none => nullOrThrow st₁ bThrow [.mallocn actuallyAllocating env.raw]
      | some p =>
        -- the table gets the address of the raw block, the program the aligned one
        let r := addNewAllocatedMemoryAndCleanOldEntry st₁ env memoryType env.raw
        { r with
          out := match r.out with
            | .returns _ => .returns p
            | out => out
          events := .mallocn actuallyAllocating env.raw :: r.events }

/-! ## Runs -/

/-- The calls of a program that uses aligned allocation too. -/
inductive ExportedCall where
  | plain (c : Call)
  | newAligned (count : ℕ) (memoryType : MemoryType) (bThrow : Bool) (align : ℕ)
  deriving DecidableEq, Repr

/-- One call in a running process. -/
def exportedCall (st : State) (env : Env) : ExportedCall → Res
  | .plain c => call st env c
  | .newAligned count memoryType bThrow align =>
    testOperatorNewAligned st env count memoryType bThrow align

/-- One step of a run; a process that has ended does nothing more. -/
def exportedStep (st : State) (c : ExportedCall × Env) : State :=
  if st.process = .running then (exportedCall st c.2 c.1).st else st

/-- A tracker state that some run of such calls reaches. -/
def ExportedReachable (st : State) : Prop := ∃ cs, st = Runs.final exportedStep .init cs

end CrashInvestigator.Tracker
