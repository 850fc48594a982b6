import CrashInvestigator.Tracker.Aligned

/-!
# The replaced allocation functions

The eight `operator new` of `crash_investigator_new_delete.cpp`. Each hands its memory type and a flag
that says whether to throw to `TestOperatorAlloc` or `TestOperatorNewAligned`. The result is what the
body does: `<new>` declares the four `std::nothrow_t` overloads `noexcept`, so that a `bad_alloc` which
leaves the body of one of them ends the process in `std::terminate`.
-/

namespace CrashInvestigator.Tracker

/-- A replaced `operator new`, called by the program. -/
abbrev OperatorNew := State → Env → ℕ → Res

section Overloads

variable (al : ℕ) (st : State) (env : Env) (count : ℕ)

/-- `operator new(std::size_t)`. -/
def operatorNew : Res := testOperatorAlloc st env count .new true

/-- `operator new[](std::size_t)`. -/
def operatorNewArr : Res := testOperatorAlloc st env count .newArr true

/-- `operator new(std::size_t, const std::nothrow_t&)`. -/
def operatorNewNothrow : Res := testOperatorAlloc st env count .new false

/-- `operator new[](std::size_t, const std::nothrow_t&)`. -/
def operatorNewArrNothrow : Res := testOperatorAlloc st env count .newArr false

/-- `operator new(std::size_t, std::align_val_t)`. -/
def operatorNewAligned : Res := testOperatorNewAligned st env count .new true al

/-- `operator new[](std::size_t, std::align_val_t)`. -/
def operatorNewArrAligned : Res := testOperatorNewAligned st env count .newArr true al

/-- `operator new(std::size_t, std::align_val_t, const std::nothrow_t&)`; the flag says to throw, and
the throw ends in `std::terminate`. -/
def operatorNewAlignedNothrow : Res := testOperatorNewAligned st env count .new true al

/-- `operator new[](std::size_t, std::align_val_t, const std::nothrow_t&)`; the flag says to throw, and
the throw ends in `std::terminate`. -/
def operatorNewArrAlignedNothrow : Res := testOperatorNewAligned st env count .newArr true al

end Overloads

/-- The overloads by what they are declared to do; an aligned one comes with its alignment. -/
structure Overload where
  array : Bool
  nothrow : Bool
  align : Option ℕ
  deriving DecidableEq, Repr

/-- The overload that the compiler selects. -/
def Overload.operator : Overload → OperatorNew
  | ⟨false, false, none⟩ => operatorNew
  | ⟨true, false, none⟩ => operatorNewArr
  | ⟨false, true, none⟩ => operatorNewNothrow
  | ⟨true, true, none⟩ => operatorNewArrNothrow
  | ⟨false, false, some al⟩ => operatorNewAligned al
  | ⟨true, false, some al⟩ => operatorNewArrAligned al
  | ⟨false, true, some al⟩ => operatorNewAlignedNothrow al
  | ⟨true, true, some al⟩ => operatorNewArrAlignedNothrow al

/-- The memory type of the records. -/
def Overload.memoryType (o : Overload) : MemoryType := if o.array then .newArr else .new

/-- A throwing overload returns a block or throws, and one that does not throw returns a block or
null. The callback of a leak report may end the process instead. -/
def KeepsContract (o : Overload) (r : Res) : Prop :=
  (if o.nothrow then ∃ p, r.out = .returns p
    else (∃ p, r.out = .returns p ∧ p ≠ 0) ∨ r.out = .throwsBadAlloc) ∨
    ∃ code, r.out = .processEnds ∧ r.st.process = .exited code

end CrashInvestigator.Tracker
