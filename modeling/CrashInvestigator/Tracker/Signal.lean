import CrashInvestigator.Tracker.Operations

/-!
# The signal handler

One thread makes its calls, and a call for an untracked address is taken apart: `CMemoryItem::Init`,
the entry into the routine of libc, and its return. At any moment a segmentation fault may call
`SignalSigsegvHandler`, which looks at the item that the thread stored last.
-/

namespace CrashInvestigator.Tracker

open Library

/-- `SignalSigsegvHandler`. -/
def signalSigsegvHandler (st : State) (env : Env) : Res :=
  let c := initBacktraceDataForCurrentStack st.traces env.stack
  let st₀ : State := { st with traces := c.1 }
  let r := match env.handlerMemory with
    | some item => initFailureDataAndCallClbk st₀ env item.toSMemoryItem item.type item.realAddress
        item.count .sigSegvHandler c.2
    | none => initFailureDataAndCallClbk st₀ env ⟨.notProvided, .doesNotExistAtAll, 0, none, none⟩
        .notProvided 0 0 .deallocOfNonExistingMemory c.2
  if r.st.process = .running then r.st.ends (.exited 3) r.events else r

/-- What the callback received. -/
def reported (events : List Event) : List FailureData :=
  events.filterMap fun
    | .clbkFnc data _ => some data
    | _ => none

/-! ## A thread -/

/-- `SystemSpecificGlibcDealloc` and `SystemSpecificGlibcRealloc`, called for an address without a
record. -/
inductive GlibcCall where
  | dealloc (ptr : Addr)
  | realloc (ptr : Addr) (count : ℕ)
  deriving DecidableEq, Repr

def GlibcCall.ptr : GlibcCall → Addr
  | .dealloc ptr | .realloc ptr _ => ptr

/-- The size that goes into the item. -/
def GlibcCall.count : GlibcCall → ℕ
  | .dealloc _ => 0
  | .realloc _ count => count

/-- The failure type that goes into the item. -/
def GlibcCall.failureType : GlibcCall → FailureType
  | .dealloc _ => .deallocOfNonExistingMemory
  | .realloc _ _ => .badReallocMemNotExist

/-- The event of the call, with what libc answers. -/
def GlibcCall.event (answer : Addr) : GlibcCall → Event
  | .dealloc ptr => .systemSpecificGlibcDealloc ptr
  | .realloc ptr count => .systemSpecificGlibcRealloc ptr count answer

/-- The item and the call of libc at the end of a call for an untracked address. -/
def untracked : List Event → Option (CMemoryItem × GlibcCall)
  | [.handlerMemoryInit item, .systemSpecificGlibcDealloc ptr] => some (item, .dealloc ptr)
  | [.handlerMemoryInit item, .systemSpecificGlibcRealloc ptr count _] =>
    some (item, .realloc ptr count)
  | _ => none

/-- The address that an event deallocates. -/
def Event.deallocated : Event → Option Addr
  | .freen ptr | .systemSpecificGlibcDealloc ptr => some ptr
  | _ => none

/-- Where the thread is. A call that was taken apart goes on with its own result. -/
inductive Stage where
  | outside
  | initialized (g : GlibcCall) (r : Res)
  | inside (g : GlibcCall) (r : Res)

/-- The thread, with an account of the items it initialized and of its completed deallocations, the
newest first. -/
structure Thread where
  st : State
  /-- What the thread stored in `m_handlerMemory`. -/
  handlerMemory : Option CMemoryItem
  stage : Stage
  initialized : List GlibcCall
  deallocated : List Addr

def Thread.init : Thread := ⟨.init, none, .outside, [], []⟩

inductive Action where
  | call (c : Call) (env : Env)
  | enter
  | leave

/-- A call up to `CMemoryItem::Init`, or a whole one if it does not get there. Until libc returns, the
live blocks are those of before. -/
def Thread.call (w : Thread) (c : Call) (env : Env) : Thread :=
  let r := Tracker.call w.st env c
  match untracked r.events with
  | some (item, g) =>
    { w with
      st := { r.st with live := w.st.live }, handlerMemory := some item, stage := .initialized g r,
      initialized := g :: w.initialized }
  | none =>
    { w with st := r.st, deallocated := r.events.filterMap Event.deallocated ++ w.deallocated }

/-- One action. An action that does not fit the stage, or comes after the end, does nothing. -/
def Thread.step (w : Thread) (a : Action) : Thread :=
  if w.st.process = .running then
    match a, w.stage with
    | .call c env, .outside => w.call c env
    | .enter, .initialized g r => { w with stage := .inside g r }
    | .leave, .inside _ r =>
      { w with
        st := r.st, stage := .outside,
        deallocated := r.events.filterMap Event.deallocated ++ w.deallocated }
    | _, _ => w
  else w

/-! ## Attribution -/

/-- Inside a routine of libc the callback is told of the call that led there, and at any other time of
a fault that no completed deallocation is named for. -/
def Attributed (w : Thread) (data : FailureData) : Prop :=
  match w.stage with
  | .inside g _ => data.failureType = g.failureType ∧ data.failureAddress = g.ptr ∧
      data.badReallocSecondArg = g.count
  | _ => data.failureType = .sigSegvHandler ∧ data.failureAddress ∉ w.deallocated

/-- The thread is not inside a routine of libc, has initialized an item before, and the address of the
last one is not that of a completed deallocation. -/
def NamesNoDeallocation (w : Thread) : Prop :=
  match w.stage with
  | .inside _ _ => False
  | _ => ∃ g ∈ w.initialized.head?, g.ptr ∉ w.deallocated

end CrashInvestigator.Tracker
