import CrashInvestigator.MemoryPool.Pool

/-!
# The operations of the pool

What a call that goes well has done to the items, one lemma for each function.
-/

namespace CrashInvestigator.MemoryPool

variable {p p' : Pool} {items : ℕ → Option Item} {item : Item} {start stop o q count ptr : ℕ}
  {answer : Option ℕ}

theorem overwrite_some (h : overwrite items start stop o = some item) : items o = some item := by
  unfold overwrite at h
  split_ifs at h
  exact h

/-- An item that is still there was not hit. -/
theorem overwrite_isSome (h : (overwrite items start stop o).isSome) :
    (items o).isSome ∧ (stop ≤ o ∨ o + sizeofItem ≤ start) := by
  unfold overwrite at h
  split_ifs at h with hit
  · cases h
  · exact ⟨h, by omega⟩

theorem linkLast_ok (h : p.linkLast q = .ok p') :
    (p.pLast = none ∧ p' = { p with pFirst := some q }) ∨
      ∃ last item, p.pLast = some last ∧ p.items last = some item ∧
        p' = { p with items := Function.update p.items last (some { item with next := some q }) } := by
  unfold Pool.linkLast at h
  split at h
  · cases h
    exact Or.inl ⟨‹_›, rfl⟩
  · split at h
    · cases h
    · cases h
      exact Or.inr ⟨_, _, ‹_›, ‹_›, rfl⟩

/-- `Alloc` refuses, or links a new item and writes it. -/
theorem alloc_ok (h : p.alloc count = .ok (p', answer)) :
    (¬ sizeT (sizeT (count + sizeofItem) + p.unOffset) < p.cunBufferSize ∧ p' = p ∧ answer = none) ∨
      (sizeT (sizeT (count + sizeofItem) + p.unOffset) < p.cunBufferSize ∧
        answer = some (p.unOffset + sizeofItem) ∧
        ∃ p₁, p.linkLast p.unOffset = .ok p₁ ∧ p' = { p₁ with
          items := Function.update
            (overwrite p₁.items p.unOffset (p.unOffset + sizeofItem + count)) p.unOffset
            (some ⟨count, true, p.pLast, none⟩),
          pLast := some p.unOffset,
          unOffset := sizeT (p.unOffset + sizeT (count + sizeofItem)) }) := by
  unfold Pool.alloc at h
  simp only at h
  split_ifs at h with hroom
  · cases hlink : p.linkLast p.unOffset with
    | error f =>
      rw [hlink] at h
      cases h
    | ok p₁ =>
      rw [hlink] at h
      cases h
      exact Or.inr ⟨hroom, rfl, p₁, rfl, rfl⟩
  · cases h
    exact Or.inl ⟨hroom, rfl, rfl⟩

/-- A release below the end of the pool marks an item, and does nothing else. -/
theorem deallocCheckedMemory_marks (hitem : p.items (ptr - sizeofItem) = some item)
    (hbelow : sizeT (ptr + item.count) < p.unOffset) :
    p.deallocCheckedMemory ptr = .ok { p with
      items := Function.update p.items (ptr - sizeofItem) (some { item with isInUse := false }) } := by
  unfold Pool.deallocCheckedMemory
  simp only [hitem]
  rw [if_neg (by omega), if_pos hbelow]

/-- `Realloc` to a positive size leaves the block as it is, resizes it at the end of the pool or fails
to, or marks it and allocates another one. -/
theorem reallocInBuffer_ok (h : p.reallocInBuffer ptr count = .ok (p', answer)) :
    ∃ item, p.items (ptr - sizeofItem) = some item ∧
      ((count = item.count ∧ p' = p ∧ answer = some ptr) ∨
        (count ≠ item.count ∧ sizeT (ptr + item.count) = p.unOffset ∧
          sizeT (p.unOffset + count + (2 ^ 64 - item.count)) < p.cunBufferSize ∧ p' = { p with
            unOffset := sizeT (p.unOffset + count + (2 ^ 64 - item.count)),
            items := Function.update (overwrite p.items ptr (ptr + count)) (ptr - sizeofItem)
              (some { item with count := count }) } ∧ answer = some ptr) ∨
        (count ≠ item.count ∧ sizeT (ptr + item.count) = p.unOffset ∧
          ¬ sizeT (p.unOffset + count + (2 ^ 64 - item.count)) < p.cunBufferSize ∧ p' = p ∧
          answer = none) ∨
        (count ≠ item.count ∧ sizeT (ptr + item.count) < p.unOffset ∧
          Pool.alloc { p with
            items := Function.update p.items (ptr - sizeofItem)
              (some { item with isInUse := false }) } count = .ok (p', answer))) := by
  unfold Pool.reallocInBuffer at h
  simp only at h
  cases hitem : p.items (ptr - sizeofItem) with
  | none =>
    simp only [hitem] at h
    cases h
  | some item =>
    simp only [hitem] at h
    refine ⟨item, rfl, ?_⟩
    split_ifs at h with hsame hend hroom hbelow
    · cases h
      exact Or.inl ⟨hsame, rfl, rfl⟩
    · cases h
      rw [hend] at hroom ⊢
      exact Or.inr (Or.inl ⟨hsame, rfl, hroom, rfl, rfl⟩)
    · cases h
      rw [hend] at hroom
      exact Or.inr (Or.inr (Or.inl ⟨hsame, hend, hroom, rfl, rfl⟩))
    · rw [deallocCheckedMemory_marks hitem hbelow] at h
      exact Or.inr (Or.inr (Or.inr ⟨hsame, hbelow, h⟩))

theorem reallocNull_ok {known : Bool} (h : p.realloc none count = .ok (p', known, answer)) :
    known = true ∧ p.alloc count = .ok (p', answer) := by
  unfold Pool.realloc at h
  cases halloc : p.alloc count with
  | error f =>
    simp only [halloc] at h
    cases h
  | ok res =>
    simp only [halloc] at h
    cases h
    exact ⟨rfl, rfl⟩

/-- `Realloc` does not know the pointer, releases the block when the size is zero, or changes its
size. -/
theorem realloc_ok {known : Bool} (h : p.realloc (some ptr) count = .ok (p', known, answer)) :
    (¬ ptr < p.cunBufferSize ∧ known = false ∧ p' = p ∧ answer = none) ∨
      (ptr < p.cunBufferSize ∧ sizeofItem ≤ ptr ∧ known = true ∧
        ((count = 0 ∧ p.deallocCheckedMemory ptr = .ok p' ∧ answer = none) ∨
          (count ≠ 0 ∧ p.reallocInBuffer ptr count = .ok (p', answer)))) := by
  unfold Pool.realloc at h
  simp only at h
  split_ifs at h with hin hlow hzero
  · cases hdealloc : p.deallocCheckedMemory ptr with
    | error f =>
      rw [hdealloc] at h
      cases h
    | ok p₁ =>
      rw [hdealloc] at h
      cases h
      exact Or.inr ⟨hin, hlow, rfl, Or.inl ⟨hzero, rfl, rfl⟩⟩
  · cases hrealloc : p.reallocInBuffer ptr count with
    | error f =>
      rw [hrealloc] at h
      cases h
    | ok res =>
      rw [hrealloc] at h
      cases h
      exact Or.inr ⟨hin, hlow, rfl, Or.inr ⟨hzero, rfl⟩⟩
  · cases h
    exact Or.inl ⟨hin, rfl, rfl, rfl⟩

theorem dealloc_ok {known : Bool} (h : p.dealloc ptr = .ok (p', known)) :
    (¬ ptr < p.cunBufferSize ∧ known = false ∧ p' = p) ∨
      (ptr < p.cunBufferSize ∧ sizeofItem ≤ ptr ∧ known = true ∧
        p.deallocCheckedMemory ptr = .ok p') := by
  unfold Pool.dealloc at h
  split_ifs at h with hin hlow
  · cases hdealloc : p.deallocCheckedMemory ptr with
    | error f =>
      rw [hdealloc] at h
      cases h
    | ok p₁ =>
      rw [hdealloc] at h
      cases h
      exact Or.inr ⟨hin, hlow, rfl, rfl⟩
  · cases h
    exact Or.inl ⟨hin, rfl, rfl⟩

theorem perform_realloc_ok {ptr : Option ℕ} (h : perform p (.realloc ptr count) = .ok (p', answer)) :
    ∃ known, p.realloc ptr count = .ok (p', known, answer) := by
  simp only [perform] at h
  cases hrealloc : p.realloc ptr count with
  | error f =>
    rw [hrealloc] at h
    cases h
  | ok res =>
    rw [hrealloc] at h
    cases h
    exact ⟨res.2.1, rfl⟩

theorem perform_dealloc_ok (h : perform p (.dealloc ptr) = .ok (p', answer)) :
    answer = none ∧ ∃ known, p.dealloc ptr = .ok (p', known) := by
  simp only [perform] at h
  cases hdealloc : p.dealloc ptr with
  | error f =>
    rw [hdealloc] at h
    cases h
  | ok res =>
    rw [hdealloc] at h
    cases h
    exact ⟨rfl, res.2, rfl⟩

end CrashInvestigator.MemoryPool
