import CrashInvestigator.Backend.Calloc
import CrashInvestigator.MemoryPool.Proofs.AlignmentProofs
import CrashInvestigator.MemoryPool.Proofs.RefinementProofs
import CrashInvestigator.Tracker.Proofs.FailureProofs

/-!
# The size of a zeroed block

The product of the two arguments of `calloc` is a `size_t` in the pool, in the Windows backend and in
`TestOperatorCalloc`, which looks at it only to refuse a product of zero.
-/

namespace CrashInvestigator.Backend

open MemoryPool (Pool Item sizeT sizeofItem sizeT_of_lt)
open Tracker (Addr Env Res testOperatorCalloc sizeModulus)

/-! ## The pool -/

/-- `s_memPool.Calloc` hands out a block at the end of the items, or none. -/
theorem poolCalloc_cases (base : Addr) (p : Pool) (nmemb size : ℕ) :
    (poolCalloc base p nmemb size = none ∧
        (¬ p.LastInPlace ∨ ¬ p.HasRoom (sizeT (nmemb * size)))) ∨
      (p.LastInPlace ∧ p.HasRoom (sizeT (nmemb * size)) ∧
        ∃ c, poolCalloc base p nmemb size = some c ∧
          c.address = base + (p.unOffset + sizeofItem) ∧
          c.size = min (sizeT (nmemb * size)) (p.cunBufferSize - (p.unOffset + sizeofItem)) ∧
          ∀ i < sizeT (nmemb * size), c.bytes i = 0) := by
  rcases MemoryPool.alloc_cases p (sizeT (nmemb * size)) with ⟨hfull, hnone⟩ | ⟨-, hlost, herr⟩ |
    ⟨hroom, hlast, p', item, halloc, -, hsize, -, hitem, hcount, -⟩
  · exact Or.inl ⟨by simp only [poolCalloc, Pool.calloc, hnone], Or.inr hfull⟩
  · exact Or.inl ⟨by simp only [poolCalloc, Pool.calloc, herr], Or.inl hlost⟩
  · right
    have hback : p.unOffset + sizeofItem - sizeofItem = p.unOffset := Nat.add_sub_cancel ..
    have hchunk : poolCalloc base p nmemb size = some
        ⟨base + (p.unOffset + sizeofItem),
          min item.count (p'.cunBufferSize - (p.unOffset + sizeofItem)),
          fun i => (p'.memset (p.unOffset + sizeofItem) (sizeT (nmemb * size))).bytes
            (p.unOffset + sizeofItem + i)⟩ := by
      simp only [poolCalloc, Pool.calloc, halloc, poolChunk, Pool.memset, hback, hitem,
        Option.map_some]
    refine ⟨hlast, hroom, _, hchunk, rfl, by rw [hcount, hsize], fun i hi => ?_⟩
    exact if_pos ⟨Nat.le_add_right _ _, Nat.add_lt_add_left hi _⟩

/-! ## Every backend -/

section Backends

variable {b : CallocBackend} {nmemb size : ℕ}

/-- A block has an address. -/
theorem callocn_address {c : Chunk} (hc : c ∈ b.callocn nmemb size) : c.address ≠ 0 := by
  cases b with
  | pool base p isSizeT =>
    have hc' : poolCalloc base p nmemb size = some c := hc
    rcases poolCalloc_cases base p nmemb size with ⟨hnone, -⟩ | ⟨-, -, c', hsome, haddr, -⟩
    · rw [hnone] at hc'
      cases hc'
    · rw [hsome] at hc'
      cases hc'
      rw [haddr]
      have := MemoryPool.sizeofItem_pos
      exact Nat.ne_of_gt (by omega)
  | libc l => exact (l.correct nmemb size c hc).1
  | windows heap => exact (heap.exact _ c hc).1

/-- Whatever the backend hands out is large enough exactly when the product fits it. -/
theorem callocn_large_iff :
    (∀ c ∈ b.callocn nmemb size, nmemb * size ≤ c.size ∧ ∀ i < nmemb * size, c.bytes i = 0) ↔
      b.Fits nmemb size := by
  have hle : sizeT (nmemb * size) ≤ nmemb * size := Nat.mod_le _ _
  cases b with
  | pool base p isSizeT =>
    show (∀ c ∈ poolCalloc base p nmemb size, _) ↔ _
    rcases poolCalloc_cases base p nmemb size with ⟨hnone, hfull⟩ |
      ⟨hlast, hroom, c, hsome, -, hcsize, hzero⟩
    · rw [hnone]
      refine iff_of_true (fun c hc => by cases hc) ?_
      rcases hfull with h | h
      · exact Or.inr (Or.inl h)
      · exact Or.inr (Or.inr (Or.inl h))
    · rw [hsome]
      simp only [Option.mem_some_iff, forall_eq', CallocBackend.Fits, hlast, not_true_eq_false,
        hroom, false_or, hcsize]
      unfold Pool.HasRoom at hroom
      constructor
      · rintro ⟨hsz, -⟩
        omega
      · rintro (h0 | hfit)
        · rw [h0]
          exact ⟨Nat.zero_le _, fun i hi => absurd hi (by omega)⟩
        · have hsame : sizeT (nmemb * size) = nmemb * size := sizeT_of_lt (by omega)
          rw [hsame, sizeT_of_lt (n := nmemb * size + sizeofItem) (by omega),
            sizeT_of_lt (by omega)] at hroom
          rw [hsame] at hzero ⊢
          exact ⟨by omega, hzero⟩
  | libc l =>
    refine iff_of_true (fun c hc => ?_) trivial
    exact (l.correct nmemb size c hc).2
  | windows heap =>
    show (∀ c ∈ heap.heapAlloc _, _) ↔ _
    cases halloc : heap.heapAlloc (sizeT (nmemb * size)) with
    | none => exact iff_of_true (fun c hc => by cases hc) (Or.inl halloc)
    | some c =>
      obtain ⟨-, hcsize, hzero⟩ := heap.exact _ c halloc
      simp only [Option.mem_some_iff, forall_eq', CallocBackend.Fits, halloc, reduceCtorEq,
        false_or, hcsize]
      constructor
      · rintro ⟨hsz, -⟩
        have hlt : sizeT (nmemb * size) < 2 ^ 64 := Nat.mod_lt _ (by decide)
        omega
      · intro hlt
        rw [sizeT_of_lt hlt] at hzero ⊢
        exact ⟨Nat.le_refl _, hzero⟩

/-! ## Through `TestOperatorCalloc` -/

/-- What `TestOperatorCalloc` returns, if it is not null, is the answer of `callocn`. -/
theorem testOperatorCalloc_returns {st : Tracker.State} (hrun : st.process = .running) {env : Env} {q : Addr}
    (h : (testOperatorCalloc st env nmemb size).out = .returns q) (hq : q ≠ 0) :
    q = env.raw ∧ (st.bIsAllocingOrDeallocing = false → nmemb * size % sizeModulus ≠ 0) := by
  unfold testOperatorCalloc at h
  by_cases hnested : st.bIsAllocingOrDeallocing = true
  · rw [if_pos hnested] at h
    cases h
    exact ⟨rfl, fun hout => by rw [hnested] at hout; cases hout⟩
  · rw [if_neg hnested] at h
    by_cases hzero : nmemb * size % sizeModulus = 0
    · rw [if_pos hzero] at h
      cases h
      exact absurd rfl hq
    · rw [if_neg hzero] at h
      by_cases hraw : env.raw = 0
      · rw [if_pos hraw] at h
        cases h
        exact absurd rfl hq
      · rw [if_neg hraw] at h
        have hgo : ((st.mallocn env.raw).capture env).process = .running := by simpa using hrun
        exact ⟨(Tracker.addNew_returns hgo h).1, fun _ => hzero⟩

/-- The first call of a thread returns the answer of `callocn`, if the product is not zero. -/
theorem testOperatorCalloc_first {raw : Addr} (nested : Bool) (hraw : raw ≠ 0)
    (h : nested = true ∨ nmemb * size % sizeModulus ≠ 0) :
    (testOperatorCalloc { Tracker.State.init with bIsAllocingOrDeallocing := nested }
      (.giving raw [] .doNotMakeActionToPreventCrash) nmemb size).out = .returns raw := by
  cases nested with
  | true => rfl
  | false =>
    have hzero := h.resolve_left (by simp)
    simp [testOperatorCalloc, hzero, Env.giving, hraw,
      Tracker.addNewAllocatedMemoryAndCleanOldEntry,
      Tracker.addNewAllocatedMemoryAndCleanOldEntryNoLock, Tracker.registerMemoryItem,
      Tracker.registerStackItem, Tracker.initBacktraceDataForCurrentStack, Tracker.State.findMemoryItem,
      Tracker.State.findStackItem, Tracker.State.init, Library.Entries.lookup, Library.Entries.findEntry,
      Tracker.State.mallocn]

/-- A heap that has room for everything. -/
def roomyHeap : ProcessHeap where
  heapAlloc := fun count => some ⟨1, count, fun _ => 0⟩
  exact := by
    intro count c hc
    cases hc
    exact ⟨Nat.one_ne_zero, rfl, fun _ _ => rfl⟩

/-- Libc refuses the same request. -/
example : (CallocBackend.libc roomyLibc).answer (2 ^ 62) 5 = 0 ∧
    (CallocBackend.libc roomyLibc).answer 3 5 = 1 := by decide

end Backends

end CrashInvestigator.Backend
