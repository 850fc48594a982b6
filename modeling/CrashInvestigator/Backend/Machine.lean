import CrashInvestigator.Detection.Machine
import CrashInvestigator.Library.Runs
import CrashInvestigator.Tracker.Proofs.StepProofs

/-!
# The Unix backend

`mallocn`, `callocn`, `reallocn` and `freen` of `crash_investigator_alloc_dealloc_unix.cpp` choose
between the static pool and the functions of libc by the phase of `InitFunction`, which the first raw
request starts and which makes requests itself (`dlsym`). The machine interleaves the routines of any
number of threads, as atomic steps of `Detection`, with the raw requests that do not go through the
table: nested calls, and the tool's own requests for its `Backtrace` objects and table items.
-/

namespace CrashInvestigator.Backend

open Tracker (Addr Call FailureAction FailureType)
open Detection (Answers Output Pending)

/-- The allocators behind `mallocn`. -/
inductive Issuer where
  | pool
  | libc
  deriving DecidableEq, Repr

/-- The progress of `InitFunction`; the thread is the one that runs it. -/
inductive Phase (θ : Type*) where
  | beforeInit
  | duringInit (thread : θ)
  | afterInit
  deriving DecidableEq

/-- `s_isInitFunction`. -/
def Phase.isInitFunction {θ : Type*} : Phase θ → Bool
  | .duringInit _ => true
  | _ => false

/-- The routines, the phase, and the allocator that issued the block at an address, if one is out. -/
structure State (θ : Type*) where
  routines : Detection.State θ
  phase : Phase θ
  issuedBy : Addr → Option Issuer

/-- No request was made yet. -/
def State.init {θ : Type*} : State θ where
  routines := .init
  phase := .beforeInit
  issuedBy := fun _ => none

/-- What reaches an allocator. The null answer issues nothing. -/
inductive RawOp where
  | issue (issuer : Issuer) (answer : Addr)
  | release (issuer : Issuer) (ptr : Addr)
  | move (issuer : Issuer) (ptr answer : Addr)
  /-- The pool finds that `ptr` is not in its buffer. -/
  | refuse (ptr : Addr)
  deriving DecidableEq, Repr

/-- A raw request. -/
inductive Request where
  | mallocn
  | callocn
  | reallocn (ptr : Addr)
  | freen (ptr : Addr)
  deriving DecidableEq, Repr

/-- `m_vBuffer` of `s_memPool`. -/
structure Buffer where
  base : Addr
  size : ℕ
  deriving DecidableEq, Repr

/-- The test of `Dealloc` and `Realloc`: the offset of `ptr`, a `size_t`, is below the size. -/
def Buffer.contains (buffer : Buffer) (ptr : Addr) : Bool :=
  decide (buffer.base ≤ ptr ∧ ptr - buffer.base < buffer.size)

section Requests

variable (buffer : Buffer) (isInitFunction : Bool)

/-- `s_memPool.Dealloc`, `SystemSpecificLibInitialDealloc`. -/
def poolDealloc (ptr : Addr) : RawOp :=
  if buffer.contains ptr then .release .pool ptr else .refuse ptr

/-- `s_memPool.Realloc`, `SystemSpecificLibInitialRealloc`. -/
def poolRealloc (ptr answer : Addr) : RawOp :=
  if ptr = 0 then .issue .pool answer
  else if buffer.contains ptr then .move .pool ptr answer
  else .refuse ptr

/-- `mallocn` once `InitFunction` was started. -/
def mallocn (answer : Addr) : RawOp :=
  if isInitFunction then .issue .pool answer else .issue .libc answer

/-- `callocn`. -/
def callocn (answer : Addr) : RawOp :=
  if isInitFunction then .issue .pool answer else .issue .libc answer

/-- `reallocn`. -/
def reallocn (ptr answer : Addr) : RawOp :=
  if isInitFunction then poolRealloc buffer ptr answer
  else if ptr = 0 then .issue .libc answer
  else .move .libc ptr answer

/-- `freen`. -/
def freen (ptr : Addr) : RawOp :=
  if isInitFunction then poolDealloc buffer ptr else .release .libc ptr

/-- A raw request once `InitFunction` was started. -/
def Request.serve (answer : Addr) : Request → RawOp
  | .mallocn => Backend.mallocn isInitFunction answer
  | .callocn => Backend.callocn isInitFunction answer
  | .reallocn ptr => Backend.reallocn buffer isInitFunction ptr answer
  | .freen ptr => Backend.freen buffer isInitFunction ptr

/-- An address without record: the pool is asked first, then libc. -/
def untracked (c : Call) (ptr answer : Addr) : RawOp :=
  match c.effect with
  | .move _ _ =>
    match poolRealloc buffer ptr answer with
    | .refuse _ => .move .libc ptr answer  -- `SystemSpecificGlibcRealloc`
    | op => op
  | _ =>
    match poolDealloc buffer ptr with
    | .refuse _ => .release .libc ptr  -- `SystemSpecificGlibcDealloc`
    | op => op

/-- What a step of a routine asks of the allocators. A callback that answers a report with
`MakeAction` has the failing address freed or reallocated. -/
def rawOp (c : Call) (answer : Addr) (clbkRet : FailureAction) : Output → Option RawOp
  | .nothing | .registered _ _ | .released _ _ => none
  | .mallocn ptr => some (Backend.mallocn isInitFunction ptr)
  | .freen ptr => some (Backend.freen buffer isInitFunction ptr)
  | .reallocn _ realAddress ptr => some (Backend.reallocn buffer isInitFunction realAddress ptr)
  | .report failureType _ failureAddress _ =>
    if clbkRet = .makeAction then
      if failureType.actionIsRealloc then
        some (Backend.reallocn buffer isInitFunction failureAddress answer)
      else some (Backend.freen buffer isInitFunction failureAddress)
    else none
  | .untracked ptr => some (Backend.untracked buffer c ptr answer)

end Requests

/-- What an operation does to the blocks that are out. -/
def RawOp.perform (issuedBy : Addr → Option Issuer) : RawOp → Addr → Option Issuer
  | .issue issuer answer => if answer = 0 then issuedBy else Function.update issuedBy answer issuer
  | .release _ ptr => Function.update issuedBy ptr none
  | .move issuer ptr answer =>
    if answer = 0 then issuedBy
    else Function.update (Function.update issuedBy ptr none) answer issuer
  | .refuse _ => issuedBy

/-- A step of the system. -/
inductive Action (θ : Type*) where
  /-- A thread enters a routine as its outermost call. -/
  | enter (thread : θ) (c : Call) (answers : Answers) (clbkRet : FailureAction)
  /-- A thread goes on with its outermost call. `leak` says that the count of the stack exceeds the
  threshold and that the callback answers with `MakeAction`. -/
  | resume (thread : θ) (leak : Bool)
  /-- A nested call, which is a raw request, or a request of the tool for itself. -/
  | request (thread : θ) (request : Request) (answer : Addr)
  /-- `InitFunction` returns. -/
  | endInit

section Steps

variable {θ : Type*} [DecidableEq θ] (buffer : Buffer)

/-- Whether the call makes a raw request. -/
def requests (c : Call) : Bool :=
  match c.effect with
  | .nothing | .setMax _ => false
  | _ => true

/-- The effect of an operation of a step, if there is one. -/
def State.apply (st : State θ) : Option RawOp → State θ
  | none => st
  | some op => { st with issuedBy := op.perform st.issuedBy }

/-- A thread enters a routine. -/
def enter (st : State θ) (i : θ) (c : Call) (ans : Answers) (clbkRet : FailureAction) :
    State θ × Option RawOp :=
  let (routines, output) := Detection.enter st.routines i ans c
  let op := rawOp buffer st.phase.isInitFunction c ans.raw clbkRet output
  ({ st with routines := routines }.apply op, op)

/-- A thread goes on with its routine. -/
def resume (st : State θ) (i : θ) (leak : Bool) : State θ × Option RawOp :=
  let (routines, output) := Detection.resume st.routines i
  let op := match output with
    | .freen ptr => some (freen buffer st.phase.isInitFunction ptr)
    | .registered _ ptr => if leak then some (freen buffer st.phase.isInitFunction ptr) else none
    | _ => none
  ({ st with routines := routines }.apply op, op)

/-- One step. The first raw request of all starts `InitFunction` and is made again after its end;
until then its thread makes nested calls only. -/
def act (st : State θ) (a : Action θ) : State θ × Option RawOp :=
  match st.phase, a with
  | .beforeInit, .enter i c _ _ => if requests c then ({ st with phase := .duringInit i }, none)
    else (st, none)
  | .beforeInit, .request i _ _ => ({ st with phase := .duringInit i }, none)
  | .beforeInit, _ => (st, none)
  | .duringInit _, .endInit => ({ st with phase := .afterInit }, none)
  | .afterInit, .endInit => (st, none)
  | phase, .enter i c ans clbkRet =>
    if phase = .duringInit i then (st, none) else enter buffer st i c ans clbkRet
  | phase, .resume i leak => if phase = .duringInit i then (st, none) else resume buffer st i leak
  | phase, .request _ request answer =>
    let op := request.serve buffer phase.isInitFunction answer
    (st.apply (some op), some op)

/-- The state after a step. -/
def step (st : State θ) (a : Action θ) : State θ := (act buffer st a).1

end Steps

end CrashInvestigator.Backend
