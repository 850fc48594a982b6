import CrashInvestigator.Backend.Machine
import CrashInvestigator.Detection.Proofs.ExactnessProofs
import CrashInvestigator.MemoryPool.Pool

/-!
# Blocks and their allocators

A block of libc is never taken for a block of the pool, because the pool answers for its buffer only.
The other direction depends on the phase: after `InitFunction` the pool is asked only about addresses
without record in an outermost call, so a block of the pool comes back to it as long as no other path
is taken for it.
-/

namespace CrashInvestigator.Backend

open Library
open Tracker (Addr Call FailureAction FailureType MemoryType SMemoryItem BacktracePtr)
open Detection (Answers Output Pending)

/-! ## Statements -/

/-- The allocator that an operation passes a block to, with the block. -/
def RawOp.handed : RawOp → Option (Issuer × Addr)
  | .release issuer ptr | .move issuer ptr _ => some (issuer, ptr)
  | _ => none

/-- The allocator that an operation gets a block from, with the block. -/
def RawOp.received : RawOp → Option (Issuer × Addr)
  | .issue issuer answer | .move issuer _ answer => some (issuer, answer)
  | _ => none

/-- The block that a raw request passes. -/
def Request.address : Request → Option Addr
  | .reallocn ptr | .freen ptr => some ptr
  | _ => none

/-- The block that an outermost call passes. -/
def passedBlock (c : Call) : Option Addr :=
  match c.effect with
  | .release ptr _ | .move ptr _ => some ptr
  | _ => none

section

variable {θ : Type*} [DecidableEq θ] (buffer : Buffer)

/-- The pool answers with blocks of its buffer, libc with blocks outside, or either with null. -/
def Valid (st : State θ) (a : Action θ) : Prop :=
  ∀ op issuer p, (act buffer st a).2 = some op → op.received = some (issuer, p) → p ≠ 0 →
    (buffer.contains p = true ↔ issuer = .pool)

/-- No block that the pool issued is passed to libc. -/
def PoolBlocksReturn (st : State θ) (a : Action θ) : Prop :=
  ∀ op p, (act buffer st a).2 = some op → op.handed = some (.libc, p) → st.issuedBy p ≠ some .pool

/-- No block that libc issued is treated as a block of the pool. -/
def LibcBlocksReturn (st : State θ) (a : Action θ) : Prop :=
  ∀ op p, (act buffer st a).2 = some op → op.handed = some (.pool, p) → st.issuedBy p ≠ some .libc

/-- The outermost call of `c` on a block with this record is reported. -/
def Reported (c : Call) (item : SMemoryItem) : Prop :=
  match c.effect with
  | .release _ t => ¬ (item.status = .allocated ∧ item.type = t)
  | .move _ _ => ¬ (item.type = .malloc ∧ item.status = .allocated)
  | _ => True

/-- After `InitFunction`, no nested call releases or reallocates an address of the buffer, the tool
frees no block of its own that lies there, and an outermost call does so with an address of the
buffer only if it has no record, or is reported and the callback does not answer with `MakeAction`.
No thread is about to free such an address when `InitFunction` ends. -/
def SparesPool (st : State θ) : Action θ → Prop
  | .request _ request _ => st.phase = .afterInit → ∀ p, request.address = some p →
      buffer.contains p = false
  | .enter _ c _ clbkRet => st.phase = .afterInit → ∀ p item, passedBlock c = some p →
      buffer.contains p = true → st.routines.memoryItems.lookup p = some item →
      Reported c item ∧ clbkRet ≠ .makeAction
  | .resume i leak => st.phase = .afterInit → leak = true → ∀ t p bt,
      st.routines.pending i = .addNewAllocatedMemory t p bt → buffer.contains p = false
  | .endInit => ∀ i p, st.routines.pending i = .freen p → buffer.contains p = false

end

/-! ## The pool -/

section Pool

variable {buffer : Buffer} {p p₁ : MemoryPool.Pool} {ptr : Addr} {accepted : Bool}

/-- `poolDealloc` accepts the addresses that `Dealloc` of the pool accepts. -/
theorem poolDealloc_eq (hsize : p.cunBufferSize = buffer.size) (hbase : buffer.base ≤ ptr)
    (h : p.dealloc (ptr - buffer.base) = .ok (p₁, accepted)) :
    poolDealloc buffer ptr = if accepted then .release .pool ptr else .refuse ptr := by
  unfold MemoryPool.Pool.dealloc at h
  rw [hsize] at h
  by_cases hlt : ptr - buffer.base < buffer.size
  · rw [if_pos hlt] at h
    split_ifs at h
    split at h
    · cases h
    · cases h
      simp [poolDealloc, Buffer.contains, hbase, hlt]
  · rw [if_neg hlt] at h
    cases h
    simp [poolDealloc, Buffer.contains, hlt]

/-- `poolRealloc` accepts the addresses that `Realloc` of the pool accepts. -/
theorem poolRealloc_eq {count : ℕ} {ret : Option ℕ} (hsize : p.cunBufferSize = buffer.size)
    (hptr : ptr ≠ 0) (hbase : buffer.base ≤ ptr)
    (h : p.realloc (some (ptr - buffer.base)) count = .ok (p₁, accepted, ret)) (answer : Addr) :
    poolRealloc buffer ptr answer = if accepted then .move .pool ptr answer else .refuse ptr := by
  simp only [MemoryPool.Pool.realloc] at h
  rw [hsize] at h
  by_cases hlt : ptr - buffer.base < buffer.size
  · rw [if_pos hlt] at h
    split_ifs at h
    · split at h
      · cases h
      · cases h
        simp [poolRealloc, Buffer.contains, hptr, hbase, hlt]
    · split at h
      · cases h
      · cases h
        simp [poolRealloc, Buffer.contains, hptr, hbase, hlt]
  · rw [if_neg hlt] at h
    cases h
    simp [poolRealloc, Buffer.contains, hptr, hlt]

end Pool

/-! ## What an operation passes where -/

section Operations

variable {buffer : Buffer} {c : Call} {p answer : Addr} {isInitFunction : Bool} {op : RawOp}

/-- The pool takes only addresses of its buffer. -/
def RawOp.Ranged (buffer : Buffer) (op : RawOp) : Prop :=
  ∀ p, op.handed = some (.pool, p) → buffer.contains p = true

theorem poolDealloc_ranged (p : Addr) : (poolDealloc buffer p).Ranged buffer := by
  intro q hq
  unfold poolDealloc at hq
  split_ifs at hq with hc
  · cases hq
    exact hc
  · cases hq

theorem poolRealloc_ranged (p answer : Addr) : (poolRealloc buffer p answer).Ranged buffer := by
  intro q hq
  unfold poolRealloc at hq
  split_ifs at hq with h0 hc
  · cases hq
  · cases hq
    exact hc
  · cases hq

theorem freen_ranged (p : Addr) : (freen buffer isInitFunction p).Ranged buffer := by
  unfold freen
  split_ifs
  · exact poolDealloc_ranged p
  · intro q hq
    cases hq

theorem reallocn_ranged (p answer : Addr) :
    (reallocn buffer isInitFunction p answer).Ranged buffer := by
  unfold reallocn
  split_ifs
  · exact poolRealloc_ranged p answer
  · intro q hq
    cases hq
  · intro q hq
    cases hq

theorem mallocn_ranged (answer : Addr) : (mallocn isInitFunction answer).Ranged buffer := by
  intro q hq
  unfold mallocn at hq
  split_ifs at hq
  · cases hq
  · cases hq

theorem untracked_ranged (p answer : Addr) : (untracked buffer c p answer).Ranged buffer := by
  unfold untracked
  split
  · have hpool : (poolRealloc buffer p answer).Ranged buffer := poolRealloc_ranged p answer
    split
    · intro q hq
      cases hq
    · exact hpool
  · have hpool : (poolDealloc buffer p).Ranged buffer := poolDealloc_ranged p
    split
    · intro q hq
      cases hq
    · exact hpool

theorem serve_ranged (r : Request) (answer : Addr) :
    (r.serve buffer isInitFunction answer).Ranged buffer := by
  cases r with
  | mallocn => exact mallocn_ranged answer
  | callocn => exact mallocn_ranged answer
  | reallocn ptr => exact reallocn_ranged ptr answer
  | freen ptr => exact freen_ranged ptr

/-- An operation passes to libc at most the block `p`, and none while `InitFunction` runs. -/
def RawOp.PassesOnly (isInitFunction : Bool) (p : Addr) (op : RawOp) : Prop :=
  ∀ q, op.handed = some (.libc, q) → isInitFunction = false ∧ q = p

theorem freen_passes (p : Addr) : (freen buffer isInitFunction p).PassesOnly isInitFunction p := by
  intro q hq
  unfold freen poolDealloc at hq
  split_ifs at hq with hi hc
  · cases hq
  · cases hq
  · cases hq
    exact ⟨by simpa using hi, rfl⟩

theorem reallocn_passes (p answer : Addr) :
    (reallocn buffer isInitFunction p answer).PassesOnly isInitFunction p := by
  intro q hq
  unfold reallocn poolRealloc at hq
  split_ifs at hq with hi h0 hc h0
  all_goals cases hq
  exact ⟨by simpa using hi, rfl⟩

theorem mallocn_passes (answer : Addr) :
    (mallocn isInitFunction answer).handed ≠ some (.libc, p) := by
  unfold mallocn
  split_ifs <;> exact nofun

theorem serve_passes (r : Request) (answer : Addr) {q : Addr}
    (hq : (r.serve buffer isInitFunction answer).handed = some (.libc, q)) :
    isInitFunction = false ∧ r.address = some q := by
  cases r with
  | mallocn => exact absurd hq (mallocn_passes answer)
  | callocn => exact absurd hq (mallocn_passes answer)
  | reallocn ptr =>
    obtain ⟨hi, rfl⟩ := reallocn_passes ptr answer q hq
    exact ⟨hi, rfl⟩
  | freen ptr =>
    obtain ⟨hi, rfl⟩ := freen_passes ptr q hq
    exact ⟨hi, rfl⟩

/-- An address without record goes to libc only if the pool has refused it. -/
theorem untracked_passes (hp : p ≠ 0) {q : Addr}
    (hq : (untracked buffer c p answer).handed = some (.libc, q)) : buffer.contains q = false := by
  unfold untracked poolRealloc poolDealloc at hq
  by_cases hc : buffer.contains p = true
  · rw [if_neg hp, if_pos hc] at hq
    split at hq <;> simp [hc, RawOp.handed] at hq
  · simp only [Bool.not_eq_true] at hc
    split at hq <;> simp [hc, hp, RawOp.handed] at hq
    · exact hq ▸ hc
    · exact hq ▸ hc

end Operations

/-! ## The invariants -/

section Steps

variable {θ : Type*} {buffer : Buffer} {st : State θ} {i : θ} {c : Call} {ans : Answers}
  {clbkRet : FailureAction} {a : Action θ} {op : RawOp} {p : Addr}

/-- The blocks of the pool lie in its buffer, those of libc outside. -/
def Placed (buffer : Buffer) (st : State θ) : Prop :=
  ∀ p issuer, st.issuedBy p = some issuer → (buffer.contains p = true ↔ issuer = .pool)

/-- Every record holds its own address, and after `InitFunction` no thread is about to free an address
of the buffer. -/
structure Separated (buffer : Buffer) (st : State θ) : Prop where
  placed : Placed buffer st
  real : ∀ p item, st.routines.memoryItems.lookup p = some item → item.realAddress = p
  pending : st.phase = .afterInit → ∀ i p, st.routines.pending i = .freen p →
    buffer.contains p = false

theorem Placed.init : Placed buffer (State.init : State θ) := by
  intro p issuer h
  cases h

theorem Separated.init : Separated buffer (State.init : State θ) := by
  refine ⟨Placed.init, ?_, nofun⟩
  intro p item h
  simp [State.init, Detection.State.init] at h

/-- An operation whose answer lies where it should keeps the blocks apart. -/
theorem Placed.perform {issuedBy : Addr → Option Issuer}
    (h : ∀ p issuer, issuedBy p = some issuer → (buffer.contains p = true ↔ issuer = .pool))
    (hop : ∀ issuer p, op.received = some (issuer, p) → p ≠ 0 →
      (buffer.contains p = true ↔ issuer = .pool)) (p : Addr) (issuer : Issuer)
    (hp : op.perform issuedBy p = some issuer) : buffer.contains p = true ↔ issuer = .pool := by
  have hcleared : ∀ q, Function.update issuedBy q none p = some issuer →
      (buffer.contains p = true ↔ issuer = .pool) := by
    intro q hq
    rw [Function.update_apply] at hq
    split_ifs at hq
    exact h p issuer hq
  have hanswered : ∀ (f : Addr → Option Issuer) source answer,
      op.received = some (source, answer) → answer ≠ 0 →
      Function.update f answer (some source) p = some issuer →
      (f p = some issuer → (buffer.contains p = true ↔ issuer = .pool)) →
      (buffer.contains p = true ↔ issuer = .pool) := by
    intro f source answer hreceived h0 hq hf
    rw [Function.update_apply] at hq
    split_ifs at hq with hpa
    · cases hq
      exact hpa ▸ hop _ answer hreceived h0
    · exact hf hq
  cases op with
  | issue source answer =>
    simp only [RawOp.perform] at hp
    split_ifs at hp with h0
    · exact h p issuer hp
    · exact hanswered _ source answer rfl h0 hp (h p issuer)
  | release source ptr => exact hcleared ptr hp
  | move source ptr answer =>
    simp only [RawOp.perform] at hp
    split_ifs at hp with h0
    · exact h p issuer hp
    · exact hanswered _ source answer rfl h0 hp (hcleared ptr)
  | refuse ptr => exact h p issuer hp

@[simp] theorem apply_routines (st : State θ) (o : Option RawOp) :
    (st.apply o).routines = st.routines := by
  cases o <;> rfl

@[simp] theorem apply_phase (st : State θ) (o : Option RawOp) : (st.apply o).phase = st.phase := by
  cases o <;> rfl

variable [DecidableEq θ]

/-- What a step can do: nothing but move the phase, or one of the three kinds of work, with the
operation that it gives. -/
theorem act_cases (buffer : Buffer) (st : State θ) (a : Action θ) :
    ((act buffer st a).2 = none ∧ (act buffer st a).1.routines = st.routines ∧
        (act buffer st a).1.issuedBy = st.issuedBy ∧
        ((act buffer st a).1.phase = .afterInit → st.phase = .afterInit ∨ a = .endInit)) ∨
      (∃ i c ans clbkRet, a = .enter i c ans clbkRet ∧ st.phase ≠ .beforeInit ∧
        act buffer st a = enter buffer st i c ans clbkRet) ∨
      (∃ i leak, a = .resume i leak ∧ st.phase ≠ .beforeInit ∧
        act buffer st a = resume buffer st i leak) ∨
      ∃ i r answer, a = .request i r answer ∧ st.phase ≠ .beforeInit ∧
        act buffer st a = (st.apply (some (r.serve buffer st.phase.isInitFunction answer)),
          some (r.serve buffer st.phase.isInitFunction answer)) := by
  cases hph : st.phase with
  | beforeInit =>
    left
    cases a with
    | enter i c ans clbkRet =>
      by_cases hr : requests c = true
      · simp [act, hph, hr]
      · simp [act, hph, hr]
    | resume i leak => simp [act, hph]
    | request i r answer => simp [act, hph]
    | endInit => simp [act, hph]
  | duringInit j =>
    cases a with
    | enter i c ans clbkRet =>
      by_cases hj : j = i
      · left
        simp [act, hph, hj]
      · exact Or.inr (Or.inl ⟨i, c, ans, clbkRet, rfl, nofun, by simp [act, hph, hj]⟩)
    | resume i leak =>
      by_cases hj : j = i
      · left
        simp [act, hph, hj]
      · exact Or.inr (Or.inr (Or.inl ⟨i, leak, rfl, nofun, by simp [act, hph, hj]⟩))
    | request i r answer =>
      exact Or.inr (Or.inr (Or.inr ⟨i, r, answer, rfl, nofun, by simp [act, hph]⟩))
    | endInit =>
      left
      simp [act, hph]
  | afterInit =>
    cases a with
    | enter i c ans clbkRet =>
      exact Or.inr (Or.inl ⟨i, c, ans, clbkRet, rfl, nofun, by simp [act, hph]⟩)
    | resume i leak => exact Or.inr (Or.inr (Or.inl ⟨i, leak, rfl, nofun, by simp [act, hph]⟩))
    | request i r answer =>
      exact Or.inr (Or.inr (Or.inr ⟨i, r, answer, rfl, nofun, by simp [act, hph]⟩))
    | endInit =>
      left
      simp [act, hph]

/-! ## The routines -/

theorem rawOp_ranged {answer : Addr} {isInitFunction : Bool} {output : Output}
    (h : rawOp buffer isInitFunction c answer clbkRet output = some op) : op.Ranged buffer := by
  cases output with
  | nothing => cases h
  | registered _ _ => cases h
  | released _ _ => cases h
  | mallocn ptr =>
    cases h
    exact mallocn_ranged ptr
  | freen ptr =>
    cases h
    exact freen_ranged ptr
  | reallocn _ realAddress ptr =>
    cases h
    exact reallocn_ranged realAddress ptr
  | report failureType _ failureAddress _ =>
    simp only [rawOp] at h
    split_ifs at h
    · cases h
      exact reallocn_ranged failureAddress answer
    · cases h
      exact freen_ranged failureAddress
  | untracked ptr =>
    cases h
    exact untracked_ranged ptr answer

/-- The addresses of the records are their own after every step of a routine. -/
theorem lookup_insert_real {m : Detection.MemoryItems} {item : SMemoryItem}
    (h : ∀ p item, m.lookup p = some item → item.realAddress = p) (hitem : item.realAddress = p)
    (q : Addr) (item' : SMemoryItem) (hq : (m.insert p item).lookup q = some item') :
    item'.realAddress = q := by
  by_cases hqp : q = p
  · subst hqp
    rw [Finmap.lookup_insert] at hq
    cases hq
    exact hitem
  · rw [Finmap.lookup_insert_of_ne _ hqp] at hq
    exact h q item' hq

/-- What entering a routine does to the table and to the threads: records keep their own addresses,
and the only new address about to be freed is that of an allocated record of the right type. -/
theorem enter_routines {m : Detection.State θ} (i : θ) (c : Call) (ans : Answers)
    (hreal : ∀ p item, m.memoryItems.lookup p = some item → item.realAddress = p) :
    (∀ p item, (Detection.enter m i ans c).1.memoryItems.lookup p = some item →
        item.realAddress = p) ∧
      ∀ j q, (Detection.enter m i ans c).1.pending j = .freen q → m.pending j = .freen q ∨
        ∃ t item, c.effect = .release q t ∧ m.memoryItems.lookup q = some item ∧
          item.status = .allocated ∧ item.type = t := by
  cases heff : c.effect with
  | nothing =>
    rw [Detection.enter_nothing m i ans heff]
    exact ⟨hreal, fun j q hq => Or.inl hq⟩
  | setMax n =>
    rw [Detection.enter_setMax m i ans heff]
    exact ⟨hreal, fun j q hq => Or.inl hq⟩
  | allocate t =>
    rw [Detection.enter_allocate m i ans heff]
    split_ifs with hraw
    · exact ⟨hreal, fun j q hq => Or.inl hq⟩
    · refine ⟨hreal, fun j q hq => Or.inl ?_⟩
      simp only [Detection.State.await, Function.update_apply] at hq
      split_ifs at hq
      exact hq
  | release p t =>
    rw [Detection.enter_release m i ans heff]
    obtain ⟨hp, -⟩ := Tracker.release_ne_zero heff
    cases hf : m.memoryItems.lookup p with
    | none =>
      simp only [Detection.testOperatorDelete, hp, hf, if_false]
      exact ⟨hreal, fun j q hq => Or.inl hq⟩
    | some item =>
      rcases Detection.testOperatorDelete_cases m i ans hp hf (t := t) with
        ⟨-, h⟩ | ⟨-, -, h⟩ | ⟨hst, hty, h⟩
      · rw [h]
        exact ⟨hreal, fun j q hq => Or.inl hq⟩
      · rw [h]
        exact ⟨hreal, fun j q hq => Or.inl hq⟩
      · rw [h]
        have hown := hreal p item hf
        refine ⟨lookup_insert_real hreal hown, fun j q hq => ?_⟩
        simp only [Detection.State.await, Function.update_apply] at hq
        split_ifs at hq
        · cases hq
          rw [hown]
          exact Or.inr ⟨t, item, rfl, hf, hst, hty⟩
        · exact Or.inl hq
  | move p n =>
    rw [Detection.enter_move m i ans heff]
    obtain ⟨-, hp, hn⟩ := Tracker.move_ne_zero heff
    cases hf : m.memoryItems.lookup p with
    | none =>
      simp only [Detection.testOperatorReAlloc, hp, hn, hf, if_false]
      exact ⟨hreal, fun j q hq => Or.inl hq⟩
    | some item =>
      rcases Detection.testOperatorReAlloc_cases m i ans hp hn hf with
        ⟨-, h⟩ | ⟨-, -, h⟩ | ⟨-, -, -, h⟩ | ⟨-, -, -, h⟩
      · rw [h]
        exact ⟨hreal, fun j q hq => Or.inl hq⟩
      · rw [h]
        exact ⟨hreal, fun j q hq => Or.inl hq⟩
      · rw [h]
        exact ⟨hreal, fun j q hq => Or.inl hq⟩
      · rw [h]
        refine ⟨?_, fun j q hq => Or.inl hq⟩
        exact lookup_insert_real (lookup_insert_real hreal (hreal p item hf)) rfl

/-- Going on with a routine makes nobody free an address. -/
theorem resume_routines {m : Detection.State θ} (i : θ)
    (hreal : ∀ p item, m.memoryItems.lookup p = some item → item.realAddress = p) :
    (∀ p item, (Detection.resume m i).1.memoryItems.lookup p = some item → item.realAddress = p) ∧
      ∀ j q, (Detection.resume m i).1.pending j = .freen q → m.pending j = .freen q := by
  have hidle : ∀ j q, Function.update m.pending i .idle j = .freen q → m.pending j = .freen q := by
    intro j q hq
    rw [Function.update_apply] at hq
    split_ifs at hq
    exact hq
  cases hpend : m.pending i with
  | idle =>
    simp only [Detection.resume, hpend]
    exact ⟨hreal, fun _ _ hq => hq⟩
  | addNewAllocatedMemory t p bt =>
    simp only [Detection.resume, hpend]
    exact ⟨lookup_insert_real hreal rfl, hidle⟩
  | freen p =>
    simp only [Detection.resume, hpend]
    exact ⟨hreal, hidle⟩

/-! ## One step -/

theorem report_passes {answer : Addr} {isInitFunction : Bool} {ft : FailureType} {item : SMemoryItem}
    {q : Addr} {n : ℕ}
    (h : rawOp buffer isInitFunction c answer clbkRet (.report ft item q n) = some op)
    (hp : op.handed = some (.libc, p)) :
    isInitFunction = false ∧ p = q ∧ clbkRet = .makeAction := by
  simp only [rawOp] at h
  split_ifs at h with hclbk hact
  · cases h
    obtain ⟨hi, rfl⟩ := reallocn_passes _ _ _ hp
    exact ⟨hi, rfl, hclbk⟩
  · cases h
    obtain ⟨hi, rfl⟩ := freen_passes _ _ hp
    exact ⟨hi, rfl, hclbk⟩

omit [DecidableEq θ] in
theorem phase_eq_afterInit (h : st.phase.isInitFunction = false) (hb : st.phase ≠ .beforeInit) :
    st.phase = .afterInit := by
  cases hph : st.phase with
  | beforeInit => exact absurd hph hb
  | duringInit j =>
    rw [hph] at h
    cases h
  | afterInit => rfl

/-- An outermost call passes no address of the buffer to libc. -/
theorem Separated.enter_libc (h : Separated buffer st) (hb : st.phase ≠ .beforeInit)
    (hs : SparesPool buffer st (.enter i c ans clbkRet))
    (hop : (enter buffer st i c ans clbkRet).2 = some op) (hp : op.handed = some (.libc, p)) :
    buffer.contains p = false := by
  -- an address of the buffer is passed on by a reported call only
  have hrecord : ∀ q item, passedBlock c = some q → st.routines.memoryItems.lookup q = some item →
      st.phase.isInitFunction = false → ¬ (Reported c item ∧ clbkRet ≠ .makeAction) →
      buffer.contains q = false := by
    intro q item hq hf hi hn
    by_contra hcon
    rw [Bool.not_eq_false] at hcon
    exact hn (hs (phase_eq_afterInit hi hb) q item hq hcon hf)
  have hreport : ∀ q item ft n, passedBlock c = some q →
      st.routines.memoryItems.lookup q = some item →
      rawOp buffer st.phase.isInitFunction c ans.raw clbkRet (.report ft item q n) = some op →
      buffer.contains p = false := by
    intro q item ft n hq hf hr
    obtain ⟨hi, rfl, hclbk⟩ := report_passes hr hp
    exact hrecord _ item hq hf hi fun hn => hn.2 hclbk
  have hout : rawOp buffer st.phase.isInitFunction c ans.raw clbkRet
      (Detection.enter st.routines i ans c).2 = some op := hop
  cases heff : c.effect with
  | nothing =>
    rw [Detection.enter_nothing _ i ans heff] at hout
    cases hout
  | setMax n =>
    rw [Detection.enter_setMax _ i ans heff] at hout
    cases hout
  | allocate t =>
    rw [Detection.enter_allocate _ i ans heff] at hout
    split_ifs at hout with hraw
    · cases hout
    · cases hout
      exact absurd hp (mallocn_passes _)
  | release q t =>
    have hpassed : passedBlock c = some q := by simp [passedBlock, heff]
    obtain ⟨hq, -⟩ := Tracker.release_ne_zero heff
    rw [Detection.enter_release _ i ans heff] at hout
    cases hf : st.routines.memoryItems.lookup q with
    | none =>
      simp only [Detection.testOperatorDelete, hq, hf, if_false, rawOp, Option.some.injEq] at hout
      subst hout
      exact untracked_passes hq hp
    | some item =>
      rcases Detection.testOperatorDelete_cases st.routines i ans hq hf (t := t) with
        ⟨-, hd⟩ | ⟨-, -, hd⟩ | ⟨-, -, hd⟩
      · rw [hd] at hout
        exact hreport q item _ _ hpassed hf hout
      · rw [hd] at hout
        exact hreport q item _ _ hpassed hf hout
      · rw [hd] at hout
        cases hout
  | move q n =>
    have hpassed : passedBlock c = some q := by simp [passedBlock, heff]
    obtain ⟨-, hq, hn⟩ := Tracker.move_ne_zero heff
    rw [Detection.enter_move _ i ans heff] at hout
    cases hf : st.routines.memoryItems.lookup q with
    | none =>
      simp only [Detection.testOperatorReAlloc, hq, hn, hf, if_false, rawOp, Option.some.injEq] at hout
      subst hout
      exact untracked_passes hq hp
    | some item =>
      -- the raw `reallocn` of an allocated record
      have hmove : item.type = .malloc → item.status = .allocated →
          some (reallocn buffer st.phase.isInitFunction item.realAddress ans.raw) = some op →
          buffer.contains p = false := by
        intro hty hst hr
        cases hr
        obtain ⟨hi, rfl⟩ := reallocn_passes _ _ _ hp
        have hown := h.real q item hf
        rw [hown]
        refine hrecord _ item hpassed hf hi fun hn => ?_
        simp only [Reported, heff] at hn
        exact hn.1 ⟨hty, hst⟩
      rcases Detection.testOperatorReAlloc_cases st.routines i ans hq hn hf with
        ⟨-, hd⟩ | ⟨-, -, hd⟩ | ⟨hty, hst, -, hd⟩ | ⟨hty, hst, -, hd⟩
      · rw [hd] at hout
        exact hreport q item _ _ hpassed hf hout
      · rw [hd] at hout
        exact hreport q item _ _ hpassed hf hout
      · rw [hd] at hout
        exact hmove hty hst hout
      · rw [hd] at hout
        exact hmove hty hst hout

/-- Going on with a call passes no address of the buffer to libc. -/
theorem Separated.resume_libc (h : Separated buffer st) (hb : st.phase ≠ .beforeInit) {leak : Bool}
    (hs : SparesPool buffer st (.resume i leak))
    (hop : (resume buffer st i leak).2 = some op) (hp : op.handed = some (.libc, p)) :
    buffer.contains p = false := by
  cases hpend : st.routines.pending i with
  | idle => simp [resume, Detection.resume, hpend] at hop
  | addNewAllocatedMemory t q bt =>
    simp only [resume, Detection.resume, hpend] at hop
    split_ifs at hop with hleak
    cases hop
    obtain ⟨hi, rfl⟩ := freen_passes _ _ hp
    exact hs (phase_eq_afterInit hi hb) hleak t _ bt hpend
  | freen q =>
    simp only [resume, Detection.resume, hpend] at hop
    cases hop
    obtain ⟨hi, rfl⟩ := freen_passes _ _ hp
    exact h.pending (phase_eq_afterInit hi hb) i _ hpend

/-- The pool takes what lies in its buffer, in every step. -/
theorem act_ranged (hop : (act buffer st a).2 = some op) : op.Ranged buffer := by
  rcases act_cases buffer st a with
    ⟨hnone, -⟩ | ⟨i, c, ans, clbkRet, -, -, hact⟩ | ⟨i, leak, -, -, hact⟩ | ⟨i, r, answer, -, -, hact⟩
  · rw [hnone] at hop
    cases hop
  · rw [hact] at hop
    exact rawOp_ranged hop
  · rw [hact] at hop
    cases hpend : st.routines.pending i with
    | idle => simp [resume, Detection.resume, hpend] at hop
    | addNewAllocatedMemory t q bt =>
      simp only [resume, Detection.resume, hpend] at hop
      split_ifs at hop
      cases hop
      exact freen_ranged q
    | freen q =>
      simp only [resume, Detection.resume, hpend] at hop
      cases hop
      exact freen_ranged q
  · rw [hact] at hop
    cases hop
    exact serve_ranged r answer

/-- The blocks that are out after a step. -/
theorem act_issuedBy (st : State θ) (a : Action θ) :
    (act buffer st a).1.issuedBy = match (act buffer st a).2 with
      | none => st.issuedBy
      | some op => op.perform st.issuedBy := by
  have happly : ∀ (s : State θ) (o : Option RawOp), (s.apply o).issuedBy = match o with
      | none => s.issuedBy
      | some op => op.perform s.issuedBy := by
    intro s o
    cases o <;> rfl
  rcases act_cases buffer st a with
    ⟨hnone, -, hsame, -⟩ | ⟨i, c, ans, clbkRet, -, -, hact⟩ | ⟨i, leak, -, -, hact⟩ |
      ⟨i, r, answer, -, -, hact⟩
  · rw [hnone, hsame]
  · rw [hact]
    exact happly _ _
  · rw [hact]
    exact happly _ _
  · rw [hact]
    exact happly _ _

theorem Placed.step (h : Placed buffer st) (hv : Valid buffer st a) : Placed buffer (step buffer st a) := by
  intro p issuer hp
  rw [Backend.step, act_issuedBy] at hp
  cases hop : (act buffer st a).2 with
  | none =>
    rw [hop] at hp
    exact h p issuer hp
  | some op =>
    rw [hop] at hp
    exact Placed.perform h (fun issuer q hq h0 => hv op issuer q hop hq h0) p issuer hp

/-- The phase and the routines after a step. -/
theorem Separated.step (h : Separated buffer st) (hv : Valid buffer st a)
    (hs : SparesPool buffer st a) : Separated buffer (step buffer st a) := by
  rcases act_cases buffer st a with
    ⟨-, hroutines, -, hphase⟩ | ⟨i, c, ans, clbkRet, rfl, -, hact⟩ | ⟨i, leak, rfl, -, hact⟩ |
      ⟨i, r, answer, rfl, -, hact⟩
  · refine ⟨h.placed.step hv, ?_, ?_⟩
    · rw [Backend.step, hroutines]
      exact h.real
    · rw [Backend.step, hroutines]
      intro hafter
      rcases hphase hafter with hph | rfl
      · exact h.pending hph
      · exact hs
  · obtain ⟨hreal, hpending⟩ := enter_routines i c ans h.real
    have hroutines : (Backend.step buffer st (.enter i c ans clbkRet)).routines =
        (Detection.enter st.routines i ans c).1 := by
      rw [Backend.step, hact, enter, apply_routines]
    have hphase : (Backend.step buffer st (.enter i c ans clbkRet)).phase = st.phase := by
      rw [Backend.step, hact, enter, apply_phase]
    refine ⟨h.placed.step hv, ?_, ?_⟩
    · rw [hroutines]
      exact hreal
    · rw [hroutines, hphase]
      intro hafter j q hq
      rcases hpending j q hq with hold | ⟨t, item, heff, hf, hst, hty⟩
      · exact h.pending hafter j q hold
      · by_contra hcon
        rw [Bool.not_eq_false] at hcon
        have hpassed : passedBlock c = some q := by simp [passedBlock, heff]
        obtain ⟨hreported, -⟩ := hs hafter q item hpassed hcon hf
        simp only [Reported, heff] at hreported
        exact hreported ⟨hst, hty⟩
  · obtain ⟨hreal, hpending⟩ := resume_routines i h.real
    have hroutines : (Backend.step buffer st (.resume i leak)).routines =
        (Detection.resume st.routines i).1 := by
      rw [Backend.step, hact, resume, apply_routines]
    have hphase : (Backend.step buffer st (.resume i leak)).phase = st.phase := by
      rw [Backend.step, hact, resume, apply_phase]
    refine ⟨h.placed.step hv, ?_, ?_⟩
    · rw [hroutines]
      exact hreal
    · rw [hroutines, hphase]
      exact fun hafter j q hq => h.pending hafter j q (hpending j q hq)
  · refine ⟨h.placed.step hv, ?_, ?_⟩
    · rw [Backend.step, hact, apply_routines]
      exact h.real
    · rw [Backend.step, hact, apply_routines, apply_phase]
      exact h.pending

/-- A block of libc lies outside the buffer, and the pool does not take it. -/
theorem Placed.libcBlocksReturn (h : Placed buffer st) : LibcBlocksReturn buffer st a := by
  intro op p hop hp hissued
  have hcontains := act_ranged hop p hp
  cases (h p .libc hissued).mp hcontains

theorem Separated.poolBlocksReturn (h : Separated buffer st) (hs : SparesPool buffer st a) :
    PoolBlocksReturn buffer st a := by
  intro op p hop hp hissued
  have hcontains : buffer.contains p = true := (h.placed p .pool hissued).mpr rfl
  rw [← Bool.not_eq_false] at hcontains
  apply hcontains
  rcases act_cases buffer st a with
    ⟨hnone, -⟩ | ⟨i, c, ans, clbkRet, rfl, hb, hact⟩ | ⟨i, leak, rfl, hb, hact⟩ |
      ⟨i, r, answer, rfl, hb, hact⟩
  · rw [hnone] at hop
    cases hop
  · rw [hact] at hop
    exact h.enter_libc hb hs hop hp
  · rw [hact] at hop
    exact h.resume_libc hb hs hop hp
  · rw [hact] at hop
    cases hop
    obtain ⟨hi, haddr⟩ := serve_passes r answer hp
    exact hs (phase_eq_afterInit hi hb) p haddr

end Steps

/-! ## Runs -/

section Runs

variable {θ : Type*} [DecidableEq θ] {buffer : Buffer} {as : List (Action θ)}

/-- In every run of any number of threads no block of libc is treated as a block of the pool, and if
the run spares the blocks of the pool, none of them is passed to libc. -/
theorem blocks_return (h : Runs.Along (step buffer) (Valid buffer) .init as) :
    Runs.Along (step buffer) (LibcBlocksReturn buffer) .init as ∧
      (Runs.Along (step buffer) (SparesPool buffer) .init as →
        Runs.Along (step buffer) (PoolBlocksReturn buffer) .init as) := by
  refine ⟨?_, ?_⟩
  · exact Runs.along_of_invariant (I := Placed buffer) (fun _ _ hs hv => hs.step hv)
      (fun _ _ hs _ => hs.libcBlocksReturn) Placed.init h
  · intro hspares
    exact Runs.along_of_invariant (I := Separated buffer)
      (C := fun st a => Valid buffer st a ∧ SparesPool buffer st a)
      (fun _ _ hs hc => hs.step hc.1 hc.2) (fun _ _ hs hc => hs.poolBlocksReturn hc.2)
      Separated.init (Runs.along_and.mpr ⟨h, hspares⟩)

/-- Validity read off the answer of a step. -/
theorem Valid.of_received {st : State θ} {a : Action θ}
    (h : ∀ o ∈ (act buffer st a).2.bind RawOp.received,
      o.2 ≠ 0 → (buffer.contains o.2 = true ↔ o.1 = .pool)) : Valid buffer st a := by
  intro op issuer p hop hr h0
  exact h (issuer, p) (by simp [hop, hr]) h0

end Runs

/-- `dlsym` gets a block while `InitFunction` runs. It is released by an outermost call after the end,
beside a block of libc. -/
def dlsymRun : List (Action ℕ) :=
  [.enter 0 (.alloc 8 .malloc false) ⟨0, none⟩ .makeAction, .request 0 .callocn 1032, .endInit,
    .enter 0 (.alloc 8 .malloc false) ⟨5000, none⟩ .makeAction, .resume 0 false,
    .enter 0 (.delete 1032 .malloc) ⟨0, none⟩ .makeAction,
    .enter 0 (.delete 5000 .malloc) ⟨0, none⟩ .makeAction, .resume 0 false]

theorem blocks_return_dlsymRun :
    Runs.Along (step ⟨1000, 100⟩) (LibcBlocksReturn ⟨1000, 100⟩) .init dlsymRun ∧
      Runs.Along (step ⟨1000, 100⟩) (PoolBlocksReturn ⟨1000, 100⟩) .init dlsymRun := by
  have hvalid : Runs.Along (step ⟨1000, 100⟩) (Valid ⟨1000, 100⟩) .init dlsymRun := by
    refine ⟨?_, ?_, ?_, ?_, ?_, ?_, ?_, ?_, trivial⟩
    all_goals exact Valid.of_received (by decide)
  have hspares : Runs.Along (step ⟨1000, 100⟩) (SparesPool ⟨1000, 100⟩) .init dlsymRun := by
    refine ⟨nofun, nofun, ?_, ?_, nofun, ?_, ?_, nofun, trivial⟩
    · intro i p h
      cases h
    · intro _ p item h
      cases h
    · intro _ p item h _ hf
      cases h
      exact nomatch hf.symm.trans (by decide : _ = none)
    · intro _ p item h hc
      cases h
      exact absurd hc (by decide)
  obtain ⟨hlibc, hpool⟩ := blocks_return hvalid
  exact ⟨hlibc, hpool hspares⟩

/-- A second thread allocates while `InitFunction` runs, and releases its block after the end. -/
def earlyThreadRun : List (Action ℕ) :=
  [.enter 0 (.alloc 8 .malloc false) ⟨0, none⟩ .makeAction,
    .enter 1 (.alloc 8 .malloc false) ⟨1032, none⟩ .makeAction, .resume 1 false, .endInit,
    .enter 1 (.delete 1032 .malloc) ⟨0, none⟩ .makeAction, .resume 1 false]

theorem early_block_to_libc :
    Runs.Along (step ⟨1000, 100⟩) (Valid ⟨1000, 100⟩) .init earlyThreadRun ∧
      ¬ Runs.Along (step ⟨1000, 100⟩) (PoolBlocksReturn ⟨1000, 100⟩) .init earlyThreadRun := by
  refine ⟨⟨?_, ?_, ?_, ?_, ?_, ?_, trivial⟩, ?_⟩
  · exact Valid.of_received (by decide)
  · exact Valid.of_received (by decide)
  · exact Valid.of_received (by decide)
  · exact Valid.of_received (by decide)
  · exact Valid.of_received (by decide)
  · exact Valid.of_received (by decide)
  · rintro ⟨-, -, -, -, -, hlast, -⟩
    exact hlast (.release .libc 1032) 1032 (by decide) rfl (by decide)

end CrashInvestigator.Backend
