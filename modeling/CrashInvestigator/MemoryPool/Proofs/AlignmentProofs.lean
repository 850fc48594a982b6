import CrashInvestigator.MemoryPool.Alignment
import CrashInvestigator.MemoryPool.Proofs.PoolProofs
import Mathlib.Data.Nat.ModEq

/-!
# Alignment of the items

A block starts where the one before it ends, and the sizes are taken as they are requested. So the
items stay aligned exactly as long as every block is put behind a request of a round size.
-/

namespace CrashInvestigator.MemoryPool

open Library

/-! ## What the operations do to the items -/

section Operations

variable {p p' : Pool} {count ptr : ℕ} {answer : Option ℕ}

/-- The link to a new item leaves an item in every place. -/
theorem linkLast_cases (p : Pool) (pItem : ℕ) :
    (¬ p.LastInPlace ∧ p.linkLast pItem = .error .noItem) ∨
      (p.LastInPlace ∧ ∃ p₁, p.linkLast pItem = .ok p₁ ∧ p₁.cunBufferSize = p.cunBufferSize ∧
        p₁.unOffset = p.unOffset ∧ p₁.bytes = p.bytes ∧
        ∀ o item, p₁.items o = some item → ∃ old, p.items o = some old ∧ old.count = item.count) := by
  unfold Pool.linkLast Pool.LastInPlace
  cases hlast : p.pLast with
  | none =>
    right
    refine ⟨fun last h => (by cases h), _, rfl, rfl, rfl, rfl, fun o item h => ⟨item, h, rfl⟩⟩
  | some last =>
    cases hitem : p.items last with
    | none =>
      left
      refine ⟨fun h => ?_, by simp only [hitem]⟩
      have := h last rfl
      rw [hitem] at this
      cases this
    | some old =>
      right
      have hlink : ∀ o item, Function.update p.items last (some { old with next := some pItem }) o =
          some item → ∃ old, p.items o = some old ∧ old.count = item.count := by
        intro o item h
        by_cases ho : o = last
        · subst ho
          simp only [Function.update_self, Option.some.injEq] at h
          exact ⟨old, hitem, by rw [← h]⟩
        · rw [Function.update_of_ne ho] at h
          exact ⟨item, h, rfl⟩
      refine ⟨fun l hl => ?_, { p with
        items := Function.update p.items last (some { old with next := some pItem }) }, ?_, rfl, rfl,
        rfl, hlink⟩
      · cases hl
        rw [hitem]
        rfl
      · simp only [hitem, ← hlast]

/-- `Alloc` refuses, finds that the last item is lost, or writes one new item at the end. -/
theorem alloc_cases (p : Pool) (count : ℕ) :
    (¬ p.HasRoom count ∧ p.alloc count = .ok (p, none)) ∨
      (p.HasRoom count ∧ ¬ p.LastInPlace ∧ p.alloc count = .error .noItem) ∨
      (p.HasRoom count ∧ p.LastInPlace ∧ ∃ p' item,
        p.alloc count = .ok (p', some (p.unOffset + sizeofItem)) ∧
        p'.unOffset = sizeT (p.unOffset + sizeT (count + sizeofItem)) ∧
        p'.cunBufferSize = p.cunBufferSize ∧ p'.bytes = p.bytes ∧
        p'.items p.unOffset = some item ∧ item.count = count ∧
        ∀ o i, p'.items o = some i → o ≠ p.unOffset →
          ∃ old, p.items o = some old ∧ old.count = i.count) := by
  by_cases hroom : p.HasRoom count
  · rcases linkLast_cases p p.unOffset with ⟨hlost, herr⟩ | ⟨hlast, p₁, hp₁, hsize, -, hbytes, hitems⟩
    · refine Or.inr (Or.inl ⟨hroom, hlost, ?_⟩)
      have hroom' := hroom
      unfold Pool.HasRoom at hroom'
      simp only [Pool.alloc, if_pos hroom', herr]
    · refine Or.inr (Or.inr ⟨hroom, hlast, ?_⟩)
      have halloc : p.alloc count = .ok ({ p₁ with
          items := Function.update
            (overwrite p₁.items p.unOffset (p.unOffset + sizeofItem + count)) p.unOffset
            (some ⟨count, true, p.pLast, none⟩),
          pLast := some p.unOffset,
          unOffset := sizeT (p.unOffset + sizeT (count + sizeofItem)) },
            some (p.unOffset + sizeofItem)) := by
        have hroom' := hroom
        unfold Pool.HasRoom at hroom'
        simp only [Pool.alloc, if_pos hroom', hp₁]
      refine ⟨_, _, halloc, rfl, hsize, hbytes, Function.update_self .., rfl, fun o i h ho => ?_⟩
      simp only [Function.update_of_ne ho] at h
      exact hitems o i (overwrite_some h)
  · refine Or.inl ⟨hroom, ?_⟩
    unfold Pool.HasRoom at hroom
    simp only [Pool.alloc, if_neg hroom]

end Operations

/-! ## The grid -/

/-- The items are at multiples of the alignment, and their counts are values of `size_t`. -/
def Pool.OnGrid (p : Pool) : Prop :=
  ∀ o item, p.items o = some item → alignofItem ∣ o ∧ item.count < 2 ^ 64

/-- The end of the pool is as aligned as the size of the request that set it. -/
structure Trail.Aligned (t : Trail) : Prop where
  items : t.pool.OnGrid
  endSize : t.pool.unOffset % alignofItem = t.endSize % alignofItem

section Grid

variable {p p' : Pool} {count ptr : ℕ} {answer : Option ℕ}

/-- An item may be written to an aligned place. -/
theorem Pool.OnGrid.update (h : p.OnGrid) {o : ℕ} (item : Item)
    (ho : alignofItem ∣ o) (hcount : item.count < 2 ^ 64) {items : ℕ → Option Item}
    (hitems : ∀ x i, items x = some i → ∃ old, p.items x = some old ∧ old.count = i.count) :
    ({ p with items := Function.update items o (some item) } : Pool).OnGrid := by
  intro x i hx
  by_cases hxo : x = o
  · subst hxo
    simp only [Function.update_self, Option.some.injEq] at hx
    rw [← hx]
    exact ⟨ho, hcount⟩
  · simp only [Function.update_of_ne hxo] at hx
    obtain ⟨old, hold, hc⟩ := hitems x i hx
    obtain ⟨hdvd, hlt⟩ := h x old hold
    exact ⟨hdvd, by omega⟩

/-- A new block behind an aligned end is aligned, and its size decides about the next one. -/
theorem Pool.OnGrid.alloc (h : p.OnGrid) (hcount : count < 2 ^ 64)
    (hend : p.LastInPlace → p.HasRoom count → alignofItem ∣ p.unOffset)
    (hok : p.alloc count = .ok (p', answer)) :
    p'.OnGrid ∧ (∀ q ∈ answer, alignofItem ∣ q) ∧
      (p'.unOffset = p.unOffset ∨ p'.unOffset % alignofItem = count % alignofItem) := by
  rcases alloc_cases p count with ⟨-, hnone⟩ | ⟨-, -, herr⟩ |
    ⟨hroom, hlast, p'', item, hsome, hoff, -, -, hitem, hc, hitems⟩
  · rw [hnone] at hok
    cases hok
    exact ⟨h, fun q hq => (by cases hq), Or.inl rfl⟩
  · rw [herr] at hok
    cases hok
  · rw [hsome] at hok
    cases hok
    obtain ⟨k, hk⟩ := hend hlast hroom
    refine ⟨fun o i hi => ?_, fun q hq => ?_, Or.inr ?_⟩
    · by_cases ho : o = p.unOffset
      · subst ho
        rw [hitem] at hi
        cases hi
        exact ⟨⟨k, hk⟩, by omega⟩
      · obtain ⟨old, hold, hcold⟩ := hitems o i hi ho
        obtain ⟨hdvd, hlt⟩ := h o old hold
        exact ⟨hdvd, by omega⟩
    · cases hq
      exact ⟨k + 4, by rw [hk]; simp only [alignofItem, sizeofItem]; omega⟩
    · rw [hoff, hk]
      simp only [alignofItem, sizeofItem, sizeT]
      omega

/-- The scan ends at an item, or empties the pool. -/
theorem Pool.OnGrid.scan (h : p.OnGrid) {fuel : ℕ} {pItem : Option ℕ} {unRealPtrOffset : ℕ}
    (ho : alignofItem ∣ unRealPtrOffset) (hok : p.scan fuel pItem unRealPtrOffset = .ok p') :
    p'.OnGrid ∧ p'.unOffset % alignofItem = 0 := by
  induction fuel generalizing pItem unRealPtrOffset with
  | zero => cases hok
  | succ fuel ih =>
    cases pItem with
    | none =>
      cases hok
      exact ⟨h, Nat.mod_eq_zero_of_dvd ho⟩
    | some pItem =>
      unfold Pool.scan at hok
      cases hitem : p.items pItem with
      | none =>
        rw [hitem] at hok
        cases hok
      | some item =>
        obtain ⟨hdvd, hlt⟩ := h pItem item hitem
        simp only [hitem] at hok
        split_ifs at hok with huse hfirst
        · cases hok
          refine ⟨?_, Nat.mod_eq_zero_of_dvd ho⟩
          exact h.update { item with next := none } hdvd hlt fun x i hx => ⟨i, hx, rfl⟩
        · cases hok
          exact ⟨h, rfl⟩
        · exact ih hdvd hok

/-- A release marks an item, or lowers the end to one. -/
theorem Pool.OnGrid.deallocCheckedMemory (h : p.OnGrid) (hok : p.deallocCheckedMemory ptr = .ok p') :
    p'.OnGrid ∧ (p'.unOffset = p.unOffset ∨ p'.unOffset % alignofItem = 0) := by
  unfold Pool.deallocCheckedMemory at hok
  cases hitem : p.items (ptr - sizeofItem) with
  | none =>
    simp only [hitem] at hok
    cases hok
  | some item =>
    obtain ⟨hdvd, hlt⟩ := h _ item hitem
    simp only [hitem] at hok
    split_ifs at hok with htop hfirst hbelow
    · cases hok
      exact ⟨h, Or.inr rfl⟩
    · obtain ⟨hgrid, hend⟩ := h.scan hdvd hok
      exact ⟨hgrid, Or.inr hend⟩
    · cases hok
      exact ⟨h.update { item with isInUse := false } hdvd hlt fun x i hx => ⟨i, hx, rfl⟩, Or.inl rfl⟩

theorem lastInPlace_update (o : ℕ) (item : Item) (h : p.LastInPlace) :
    ({ p with items := Function.update p.items o (some item) } : Pool).LastInPlace := by
  intro last hlast
  by_cases ho : last = o
  · subst ho
    simp
  · simp only [Function.update_of_ne ho]
    exact h last hlast

/-- A resize in place sets the end behind the aligned payload; a move is a new block. -/
theorem Pool.OnGrid.reallocInBuffer (h : p.OnGrid) (hcount : count < 2 ^ 64)
    (hsize : ptr < p.cunBufferSize) (hptr : sizeofItem ≤ ptr) (hne : count ≠ 0)
    (hend : p.LastInPlace → p.MustMove ptr count → p.HasRoom count → alignofItem ∣ p.unOffset)
    (hok : p.reallocInBuffer ptr count = .ok (p', answer)) :
    p'.OnGrid ∧ (∀ q ∈ answer, alignofItem ∣ q) ∧
      (p'.unOffset = p.unOffset ∨ p'.unOffset % alignofItem = count % alignofItem) := by
  obtain ⟨item, hitem, hcase⟩ := reallocInBuffer_ok hok
  obtain ⟨hdvd, hlt⟩ := h _ item hitem
  have hptr8 : alignofItem ∣ ptr := by
    obtain ⟨k, hk⟩ := hdvd
    simp only [alignofItem, sizeofItem] at hk hptr
    exact ⟨k + 4, by simp only [alignofItem]; omega⟩
  rcases hcase with ⟨-, rfl, rfl⟩ | ⟨-, htop, -, rfl, rfl⟩ | ⟨-, -, -, rfl, rfl⟩ |
    ⟨hsame, hbelow, halloc⟩
  · exact ⟨h, fun q hq => (by cases hq; exact hptr8), Or.inl rfl⟩
  · refine ⟨?_, fun q hq => (by cases hq; exact hptr8), Or.inr ?_⟩
    · exact h.update { item with count := count } hdvd hcount fun x i hx => ⟨i, overwrite_some hx, rfl⟩
    · obtain ⟨k, hk⟩ := hptr8
      simp only [← htop, hk, alignofItem, sizeT]
      omega
  · exact ⟨h, fun q hq => (by cases hq), Or.inl rfl⟩
  · have hmarked := h.update { item with isInUse := false } hdvd hlt fun x i hx => ⟨i, hx, rfl⟩
    refine hmarked.alloc hcount (fun hlast hroom => ?_) halloc
    refine hend (fun last hl => ?_) ⟨hsize, hptr, hne, item, hitem, hsame, hbelow⟩ hroom
    have hlast' := hlast last hl
    by_cases ho : last = ptr - sizeofItem
    · rw [ho, hitem]
      rfl
    · simpa only [Function.update_of_ne ho] using hlast'

/-- An operation that appends behind an aligned end, or does not append, keeps the items aligned,
answers with an aligned pointer, and sets the end by its size if it moves it. -/
theorem Pool.OnGrid.perform (h : p.OnGrid) {op : Op} (hsize : op.IsSizeT)
    (hend : Appends p op → alignofItem ∣ p.unOffset)
    (hok : MemoryPool.perform p op = .ok (p', answer)) :
    p'.OnGrid ∧ (∀ q ∈ answer, alignofItem ∣ q) ∧
      (p'.unOffset = p.unOffset ∨ p'.unOffset % alignofItem = op.size % alignofItem) := by
  cases op with
  | alloc count => exact h.alloc hsize (fun hlast hroom => hend ⟨hlast, hroom⟩) hok
  | calloc nmemb size =>
    have hmod : sizeT (nmemb * size) < 2 ^ 64 := Nat.mod_lt _ (by decide)
    have hdvd : sizeT (nmemb * size) % alignofItem = nmemb * size % alignofItem :=
      Nat.mod_mod_of_dvd _ (by decide)
    simp only [MemoryPool.perform, Pool.calloc] at hok
    cases halloc : p.alloc (sizeT (nmemb * size)) with
    | error f =>
      rw [halloc] at hok
      cases hok
    | ok r =>
      obtain ⟨p₁, ret⟩ := r
      obtain ⟨hgrid, hret, hoff⟩ := h.alloc hmod (fun hlast hroom => hend ⟨hlast, hroom⟩) halloc
      rw [hdvd] at hoff
      rw [halloc] at hok
      cases ret with
      | none =>
        cases hok
        exact ⟨hgrid, hret, hoff⟩
      | some q =>
        cases hok
        exact ⟨hgrid, hret, hoff⟩
  | realloc ptr count =>
    obtain ⟨known, hrealloc⟩ := perform_realloc_ok hok
    cases ptr with
    | none => exact h.alloc hsize (fun hlast hroom => hend ⟨hlast, hroom⟩) (reallocNull_ok hrealloc).2
    | some ptr =>
      rcases realloc_ok hrealloc with ⟨-, -, rfl, rfl⟩ | ⟨hin, hlow, -, hcase⟩
      · exact ⟨h, fun q hq => (by cases hq), Or.inl rfl⟩
      rcases hcase with ⟨rfl, hdealloc, rfl⟩ | ⟨hzero, hresize⟩
      · obtain ⟨hgrid, hoff⟩ := h.deallocCheckedMemory hdealloc
        exact ⟨hgrid, fun q hq => (by cases hq), hoff⟩
      · exact h.reallocInBuffer hsize hin hlow hzero
          (fun hlast hmove hroom => hend ⟨hlast, hmove, hroom⟩) hresize
  | dealloc ptr =>
    obtain ⟨rfl, known, hdealloc⟩ := perform_dealloc_ok hok
    rcases dealloc_ok hdealloc with ⟨-, -, rfl⟩ | ⟨-, -, -, hchecked⟩
    · exact ⟨h, fun q hq => (by cases hq), Or.inl rfl⟩
    · obtain ⟨hgrid, hoff⟩ := h.deallocCheckedMemory hchecked
      exact ⟨hgrid, fun q hq => (by cases hq), hoff⟩
  | store offset value =>
    cases hok
    exact ⟨fun o item hi => h o item (overwrite_some hi), fun q hq => (by cases hq), Or.inl rfl⟩

/-- An operation that appends writes an item at the end of the pool. -/
theorem appends_item {op : Op} (h : Appends p op) :
    ∃ p' answer, perform p op = .ok (p', answer) ∧ (p'.items p.unOffset).isSome := by
  have halloc : ∀ {q : Pool} {count : ℕ}, q.LastInPlace → q.HasRoom count →
      ∃ q', q.alloc count = .ok (q', some (q.unOffset + sizeofItem)) ∧
        (q'.items q.unOffset).isSome := by
    intro q count hlast hroom
    rcases alloc_cases q count with ⟨hno, -⟩ | ⟨-, hno, -⟩ |
      ⟨-, -, q', item, hok, -, -, -, hitem, -⟩
    · exact absurd hroom hno
    · exact absurd hlast hno
    · exact ⟨q', hok, by rw [hitem]; rfl⟩
  obtain ⟨hlast, hroom⟩ := h
  cases op with
  | alloc count =>
    obtain ⟨p', hok, hitem⟩ := halloc hlast hroom
    exact ⟨p', _, hok, hitem⟩
  | calloc nmemb size =>
    obtain ⟨p', hok, hitem⟩ := halloc hlast hroom
    have hcalloc : perform p (.calloc nmemb size) = .ok (p'.memset (p.unOffset + sizeofItem)
        (sizeT (nmemb * size)), some (p.unOffset + sizeofItem)) := by
      simp only [perform, Pool.calloc, hok]
    exact ⟨_, _, hcalloc, hitem⟩
  | realloc ptr count =>
    cases ptr with
    | none =>
      obtain ⟨p', hok, hitem⟩ := halloc hlast hroom
      have hrealloc : perform p (.realloc none count) =
          .ok (p', some (p.unOffset + sizeofItem)) := by
        simp only [perform, Pool.realloc, hok, Except.map]
      exact ⟨_, _, hrealloc, hitem⟩
    | some ptr =>
      obtain ⟨⟨hin, hlow, hne, item, hitem, hcount, hbelow⟩, hroom⟩ := hroom
      have hitem' : p.items (ptr - sizeofItem) = some item := hitem
      have hmarks := deallocCheckedMemory_marks hitem' hbelow
      have hlast' := lastInPlace_update (ptr - sizeofItem) { item with isInUse := false } hlast
      obtain ⟨p', hok, hnew⟩ := halloc hlast' hroom
      have hrealloc : perform p (.realloc (some ptr) count) =
          .ok (p', some (p.unOffset + sizeofItem)) := by
        simp only [perform, Pool.realloc, Pool.reallocInBuffer, if_pos hin, if_pos hlow, if_neg hne,
          hitem', if_neg hcount, if_neg (Nat.ne_of_lt hbelow), if_pos hbelow, hmarks, hok, Except.map]
      exact ⟨_, _, hrealloc, hnew⟩
  | dealloc ptr => exact hroom.elim
  | store offset value => exact hroom.elim

end Grid

/-! ## Runs -/

section Runs

variable {t : Trail} {op : Op} {base : ℕ}

theorem Trail.Aligned.init (size : ℕ) (bytes : ℕ → UInt8) : (Trail.init size bytes).Aligned :=
  ⟨fun o item h => (by cases h), rfl⟩

theorem Trail.Aligned.itemsAligned (h : t.Aligned) (hbase : alignofItem ∣ base) :
    t.ItemsAligned base := by
  intro o ho
  obtain ⟨item, hitem⟩ := Option.isSome_iff_exists.mp ho
  exact Nat.dvd_add hbase (h.items o item hitem).1

/-- The end of the pool is aligned if the request that set it was round. -/
theorem Trail.Aligned.end_dvd (h : t.Aligned) (hsize : alignofItem ∣ t.endSize) :
    alignofItem ∣ t.pool.unOffset :=
  Nat.dvd_of_mod_eq_zero (by rw [h.endSize]; exact Nat.mod_eq_zero_of_dvd hsize)

/-- A step that appends behind a round request, or does not append, keeps the alignment. -/
theorem Trail.Aligned.step (h : t.Aligned) (hsize : op.IsSizeT) (happ : AppendsAligned t op) :
    (t.step op).Aligned := by
  unfold Trail.step
  cases hok : perform t.pool op with
  | error f => exact ⟨h.items, h.endSize⟩
  | ok r =>
    obtain ⟨p', answer⟩ := r
    obtain ⟨hgrid, -, hoff⟩ := h.items.perform hsize (fun ha => h.end_dvd (happ ha)) hok
    refine ⟨hgrid, ?_⟩
    simp only
    split_ifs with hsame
    · rw [hsame, h.endSize]
    · exact hoff.resolve_left hsame

theorem Trail.Aligned.answer (h : t.Aligned) (hbase : alignofItem ∣ base) (hsize : op.IsSizeT)
    (happ : AppendsAligned t op) : AnswerAligned base t op := by
  intro p' ptr hok
  obtain ⟨-, hanswer, -⟩ := h.items.perform hsize (fun ha => h.end_dvd (happ ha)) hok
  exact Nat.dvd_add hbase (hanswer ptr rfl)

/-- A block behind a request that is not round has a header that is not aligned. -/
theorem Trail.Aligned.breaks (h : t.Aligned) (hbase : alignofItem ∣ base)
    (hno : ¬ AppendsAligned t op) : ¬ (t.step op).ItemsAligned base := by
  unfold AppendsAligned at hno
  push Not at hno
  obtain ⟨happ, hsize⟩ := hno
  obtain ⟨p', answer, hok, hitem⟩ := appends_item happ
  intro hall
  have hnew : alignofItem ∣ base + t.pool.unOffset := hall t.pool.unOffset (by
    rw [Trail.step, hok]
    exact hitem)
  have hoff : alignofItem ∣ t.pool.unOffset := (Nat.dvd_add_right hbase).mp hnew
  refine hsize (Nat.dvd_of_mod_eq_zero ?_)
  rw [← h.endSize]
  exact Nat.mod_eq_zero_of_dvd hoff

end Runs

end CrashInvestigator.MemoryPool
