import CrashInvestigator.Lifetime.Routines

/-!
# The life of the process

Calls before the construction of `s_crashInvestAnalizerInit`, during its lifetime and after its
destruction, with an account of the blocks that were issued: in which phase each was allocated, in
which phases its address was passed to a release, and what the calls did with it. The account is kept
from the events of the calls, and the tables are not asked.
-/

namespace CrashInvestigator.Lifetime

open HashItems
open Tracker (Addr isTheSameStack)

inductive Phase where
  | before
  | during
  | after
  deriving DecidableEq, Repr

/-- A block that the raw allocator issued for the program. -/
structure Block where
  address : Addr
  phase : Phase
  /-- The phases of the calls that were passed its address. -/
  requests : List Phase
  /-- How often it was released in the raw allocator. -/
  releases : ℕ
  /-- How often the failure callback was called about it. -/
  reports : ℕ
  deriving DecidableEq, Repr

/-- The newest block at an address is changed. -/
def onBlock (a : Addr) (f : Block → Block) : List Block → List Block
  | [] => []
  | b :: bs => if b.address = a then f b :: bs else b :: onBlock a f bs

def Block.request (ph : Phase) (b : Block) : Block := { b with requests := ph :: b.requests }

def Block.release (b : Block) : Block := { b with releases := b.releases + 1 }

def Block.report (b : Block) : Block := { b with reports := b.reports + 1 }

/-- What an event says about the blocks. -/
def record (ph : Phase) (bs : List Block) : Event → List Block
  | .mallocn _ answer => if answer = 0 then bs else ⟨answer, ph, [], 0, 0⟩ :: bs
  | .freen ptr => onBlock ptr Block.release bs
  | .systemSpecificLibInitialDealloc ptr answer =>
    if answer then onBlock ptr Block.release bs else bs
  | .systemSpecificGlibcDealloc ptr => onBlock ptr Block.release bs
  | .clbkFnc data _ => onBlock data.failureAddress Block.report bs

/-- What a call asks for. -/
def request (ph : Phase) (bs : List Block) : Call → List Block
  | .alloc _ _ _ => bs
  | .delete ptr _ => if ptr = 0 then bs else onBlock ptr (Block.request ph) bs

/-- The process with its account. `buried` holds the addresses that had a record when the destructor
ran. -/
structure Life where
  st : State
  misuse : Option Misuse
  phase : Phase
  blocks : List Block
  buried : List Addr

def Life.init (ndebug : Bool) : Life := ⟨.init ndebug, none, .before, [], []⟩

inductive Label where
  | call (c : Call) (env : Env)
  | construct
  | destruct

/-- Whether the process goes on. -/
def Life.Active (l : Life) : Prop := l.st.process = .running ∧ l.misuse = none

instance (l : Life) : Decidable l.Active :=
  inferInstanceAs (Decidable (l.st.process = .running ∧ l.misuse = none))

/-- One step of a process that goes on. -/
def Life.advance (l : Life) : Label → Life
  | .call c env =>
    match call l.st env c with
    | .error m => { l with misuse := some m }
    | .ok r => { l with
        st := r.st, blocks := r.events.foldl (record l.phase) (request l.phase l.blocks c) }
  | .construct => { l with st := l.st.construct, phase := .during }
  | .destruct =>
    match l.st.destruct with
    | .error m => { l with misuse := some m }
    | .ok st => { l with
        st := st, phase := .after, buried := l.st.memoryItems.entries.map Entry.key }

def Life.step (l : Life) (lb : Label) : Life := if l.Active then l.advance lb else l

/-- The allocator does not return the address of an item that is not freed, and the object is
constructed once and destroyed once. -/
def Valid (l : Life) : Label → Prop
  | .call _ env =>
    (∀ a ∈ env.memoryItem, l.st.memoryItems.table.items a = none) ∧
      ∀ a ∈ env.stackItem, l.st.stackItems.table.items a = none
  | .construct => l.phase = .before
  | .destruct => l.phase = .during

instance (l : Life) (lb : Label) : Decidable (Valid l lb) :=
  match lb with
  | .call _ env =>
    have : Decidable (∀ a ∈ env.memoryItem, l.st.memoryItems.table.items a = none) :=
      decidable_of_iff (∀ a ∈ env.memoryItem, (l.st.memoryItems.table.items a).isNone = true)
        (by simp)
    have : Decidable (∀ a ∈ env.stackItem, l.st.stackItems.table.items a = none) :=
      decidable_of_iff (∀ a ∈ env.stackItem, (l.st.stackItems.table.items a).isNone = true)
        (by simp)
    inferInstanceAs (Decidable ((∀ a ∈ env.memoryItem, l.st.memoryItems.table.items a = none) ∧
      ∀ a ∈ env.stackItem, l.st.stackItems.table.items a = none))
  | .construct => inferInstanceAs (Decidable (l.phase = .before))
  | .destruct => inferInstanceAs (Decidable (l.phase = .during))

/-- Every block that was passed to one release, in a later phase than that of its allocation, was
released once and not reported. -/
def ReleasesOnce (bs : List Block) : Prop :=
  ∀ b ∈ bs, ∀ ph, b.requests = [ph] → b.phase ≠ ph → b.releases = 1 ∧ b.reports = 0

/-- Nothing that was freed was used, and blocks outlive the phases. -/
structure Life.Safe (l : Life) : Prop where
  noMisuse : l.misuse = none
  releasesOnce : ReleasesOnce l.blocks

/-! ## The conditions of safety -/

/-- An allocation that finds no item left over from the destruction, replaces no record whose
`allocTrace` is a key of `m_stackItems`, and does not exceed the limit of its stack. -/
structure AllocatesSafely (l : Life) (env : Env) : Prop where
  unburied : l.buried = []
  spares : ∀ e ∈ l.st.memoryItems.entries, e.key = env.raw → ∀ t ∈ e.value.allocTrace,
    ∀ k ∈ l.st.stackItems.entries, k.key.trace ≠ t
  below : ∀ s ∈ env.stack, ∀ k ∈ l.st.stackItems.entries, isTheSameStack k.key.stack s = true →
    0 < l.st.unMaxNumberOfAllocFromTheSameStack → k.value < l.st.unMaxNumberOfAllocFromTheSameStack

instance (l : Life) (env : Env) : Decidable (AllocatesSafely l env) :=
  decidable_of_iff (_ ∧ _ ∧ _) ⟨fun h => ⟨h.1, h.2.1, h.2.2⟩, fun h => ⟨h.1, h.2, h.3⟩⟩

/-- A release of an address whose bucket was empty when the destructor ran, and whose stack, if it is
counted for the last time, is removed without damage to other items. -/
structure ReleasesSafely (l : Life) (ptr : Addr) : Prop where
  unburied : ∀ q ∈ l.buried, unSize q ≠ unSize ptr
  patches : ∀ e ∈ l.st.memoryItems.entries, e.key = ptr → e.value.status = .allocated →
    ∀ t ∈ e.value.allocTrace, ∀ k ∈ l.st.stackItems.entries,
      isTheSameStack k.key.stack (l.st.traces.data t) = true → k.value ≤ 1 →
        PatchesNeighbours l.st.stackItems (.removeEntry (some k.iterator))

instance (l : Life) (ptr : Addr) : Decidable (ReleasesSafely l ptr) :=
  decidable_of_iff (_ ∧ _) ⟨fun h => ⟨h.1, h.2⟩, fun h => ⟨h.1, h.2⟩⟩

/-- The list of all items of a table ends, and no item in it was freed. -/
def ListEnds {κ ν : Type*} (s : Session κ ν) : Prop :=
  ∃ visited, s.table.iterate (s.entries.length + 1) s.table.begin = .ok visited

instance {κ ν : Type*} (s : Session κ ν) : Decidable (ListEnds s) :=
  match h : s.table.iterate (s.entries.length + 1) s.table.begin with
  | .ok visited => isTrue ⟨visited, h⟩
  | .error f => isFalse fun hv => by
    obtain ⟨visited, hok⟩ := hv
    rw [h] at hok
    cases hok

/-- A step that avoids what the tables do not survive. -/
def StepsSafely (l : Life) : Label → Prop
  | .call (.alloc count _ _) env => l.Active → count ≠ 0 → env.raw ≠ 0 → AllocatesSafely l env
  | .call (.delete ptr _) _ => l.Active → ptr ≠ 0 → ReleasesSafely l ptr
  | .construct => True
  | .destruct => l.Active → ListEnds l.st.stackItems

instance (l : Life) (lb : Label) : Decidable (StepsSafely l lb) :=
  match lb with
  | .call (.alloc count _ _) env =>
    inferInstanceAs (Decidable (l.Active → count ≠ 0 → env.raw ≠ 0 → AllocatesSafely l env))
  | .call (.delete ptr _) _ =>
    inferInstanceAs (Decidable (l.Active → ptr ≠ 0 → ReleasesSafely l ptr))
  | .construct => inferInstanceAs (Decidable True)
  | .destruct => inferInstanceAs (Decidable (l.Active → ListEnds l.st.stackItems))

end CrashInvestigator.Lifetime
