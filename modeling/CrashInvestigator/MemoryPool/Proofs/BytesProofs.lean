import CrashInvestigator.MemoryPool.Bytes
import CrashInvestigator.MemoryPool.Proofs.TilingProofs

/-!
# The bytes refine the items

The items of the abstract pool are the headers in the memory, and every operation does to the bytes what
it does to the items.
-/

namespace CrashInvestigator.MemoryPool

open Library Library.Arena Library.Memory

/-! ## Headers in the memory -/

/-- The address of an item of the buffer, `0` for none. -/
def addressOf (base : ℕ) : Option ℕ → ℕ
  | none => 0
  | some o => base + o

/-- The words at `a` are those of the item. -/
structure HeaderAt (m : Memory) (base a : ℕ) (item : Item) : Prop where
  count : m.load a 8 = item.count
  isInUse : m.load (a + offsetofIsInUse) 8 = item.isInUse.toNat
  prev : m.load (a + offsetofPrev) 8 = addressOf base item.prev
  next : m.load (a + offsetofNext) 8 = addressOf base item.next

/-- Every item is in the memory, and no two of them overlap. -/
structure Headers (m : Memory) (base size : ℕ) (items : ℕ → Option Item) : Prop where
  header : ∀ o item, items o = some item → HeaderAt m base (base + o) item
  apart : ∀ o o', (items o).isSome → (items o').isSome → o < o' → o + sizeofItem ≤ o'
  inside : ∀ o, (items o).isSome → o < size

section Headers

variable {m m' : Memory} {base size a o v : ℕ} {items : ℕ → Option Item} {item : Item}

theorem HeaderAt.congr (h : HeaderAt m base a item)
    (hm : ∀ x, a ≤ x → x < a + sizeofItem → m' x = m x) : HeaderAt m' base a item := by
  have hfield : ∀ member, member + 8 ≤ sizeofItem →
      m'.load (a + member) 8 = m.load (a + member) 8 := by
    intro member hle
    exact load_congr fun y hy hlt => hm y (by omega) (by omega)
  refine ⟨?_, ?_, ?_, ?_⟩
  · exact (hfield 0 (by decide)).trans h.count
  · exact (hfield offsetofIsInUse (by decide)).trans h.isInUse
  · exact (hfield offsetofPrev (by decide)).trans h.prev
  · exact (hfield offsetofNext (by decide)).trans h.next

theorem HeaderAt.setCount (h : HeaderAt m base a item) (hv : v < 2 ^ 64) :
    HeaderAt (m.store (a + 0) 8 v) base a { item with count := v } where
  count := load_store_same hv
  isInUse := (load_store_of_disjoint (by simp [offsetofIsInUse])).trans h.isInUse
  prev := (load_store_of_disjoint (by simp [offsetofPrev])).trans h.prev
  next := (load_store_of_disjoint (by simp [offsetofNext])).trans h.next

theorem HeaderAt.setIsInUse (h : HeaderAt m base a item) (b : Bool) :
    HeaderAt (m.store (a + offsetofIsInUse) 8 b.toNat) base a { item with isInUse := b } where
  count := (load_store_of_disjoint (by simp [offsetofIsInUse])).trans h.count
  isInUse := load_store_same (by cases b <;> decide)
  prev := (load_store_of_disjoint (by simp [offsetofIsInUse, offsetofPrev])).trans h.prev
  next := (load_store_of_disjoint (by simp [offsetofIsInUse, offsetofNext])).trans h.next

theorem HeaderAt.setNext (h : HeaderAt m base a item) {next : Option ℕ}
    (hv : addressOf base next < 2 ^ 64) :
    HeaderAt (m.store (a + offsetofNext) 8 (addressOf base next)) base a
      { item with next := next } where
  count := (load_store_of_disjoint (by simp [offsetofNext])).trans h.count
  isInUse := (load_store_of_disjoint (by simp [offsetofIsInUse, offsetofNext])).trans h.isInUse
  prev := (load_store_of_disjoint (by simp [offsetofPrev, offsetofNext])).trans h.prev
  next := load_store_same hv

/-- The header that `Alloc` writes, word by word. -/
theorem headerAt_new {count : ℕ} (hcount : count < 2 ^ 64) {prev : Option ℕ}
    (hprev : addressOf base prev < 2 ^ 64) :
    HeaderAt ((((m.store (a + offsetofNext) 8 0).store (a + offsetofPrev) 8
      (addressOf base prev)).store (a + 0) 8 count).store (a + offsetofIsInUse) 8 1) base a
      ⟨count, true, prev, none⟩ := by
  refine ⟨?_, load_store_same (by decide), ?_, ?_⟩
  · rw [load_store_of_disjoint (by simp [offsetofIsInUse])]
    exact load_store_same hcount
  · rw [load_store_of_disjoint (by simp [offsetofIsInUse, offsetofPrev]),
      load_store_of_disjoint (by simp [offsetofPrev])]
    exact load_store_same hprev
  · rw [load_store_of_disjoint (by simp [offsetofIsInUse, offsetofNext]),
      load_store_of_disjoint (by simp [offsetofNext]),
      load_store_of_disjoint (by simp [offsetofPrev, offsetofNext])]
    exact load_store_same (by decide)

/-- One header is written and its item changed. -/
theorem Headers.update (h : Headers m base size items) (hlt : o < size)
    (hfree : ∀ o', (items o').isSome → o' ≠ o → o' + sizeofItem ≤ o ∨ o + sizeofItem ≤ o')
    (hm : ∀ x, x < base + o ∨ base + o + sizeofItem ≤ x → m' x = m x)
    (hnew : HeaderAt m' base (base + o) item) :
    Headers m' base size (Function.update items o (some item)) := by
  have hother : ∀ o', o' ≠ o → (Function.update items o (some item) o').isSome →
      (items o').isSome := by
    intro o' hne hs
    rwa [Function.update_of_ne hne] at hs
  refine ⟨?_, ?_, ?_⟩
  · intro o' item' ho'
    by_cases hne : o' = o
    · subst hne
      rw [Function.update_self] at ho'
      cases ho'
      exact hnew
    · rw [Function.update_of_ne hne] at ho'
      have hdisj := hfree o' (by rw [ho']; rfl) hne
      exact (h.header o' item' ho').congr fun x hx hx' => hm x (by omega)
  · intro o₁ o₂ h₁ h₂ hlt'
    by_cases hne₁ : o₁ = o
    · subst hne₁
      have hne₂ : o₂ ≠ o₁ := by omega
      have hdisj := hfree o₂ (hother o₂ hne₂ h₂) hne₂
      omega
    · by_cases hne₂ : o₂ = o
      · subst hne₂
        have hdisj := hfree o₁ (hother o₁ hne₁ h₁) hne₁
        omega
      · exact h.apart o₁ o₂ (hother o₁ hne₁ h₁) (hother o₂ hne₂ h₂) hlt'
  · intro o' ho'
    by_cases hne : o' = o
    · rw [hne]
      exact hlt
    · exact h.inside o' (hother o' hne ho')

/-- The header of an item that is there is rewritten. -/
theorem Headers.rewrite (h : Headers m base size items) (hitem : items o = some item) {item' : Item}
    (hm : ∀ x, x < base + o ∨ base + o + sizeofItem ≤ x → m' x = m x)
    (hnew : HeaderAt m' base (base + o) item') :
    Headers m' base size (Function.update items o (some item')) := by
  have hsome : (items o).isSome := by rw [hitem]; rfl
  refine h.update (h.inside o hsome) (fun o' ho' hne => ?_) hm hnew
  rcases Nat.lt_or_gt_of_ne hne with hlt | hlt
  · exact Or.inl (h.apart o' o ho' hsome hlt)
  · exact Or.inr (h.apart o o' hsome ho' hlt)

/-- Bytes that are written take the items away whose headers they hit. -/
theorem Headers.overwrite (h : Headers m base size items) {start stop : ℕ}
    (hm : ∀ x, x < base + start ∨ base + stop ≤ x → m' x = m x) :
    Headers m' base size (MemoryPool.overwrite items start stop) := by
  refine ⟨?_, ?_, ?_⟩
  · intro o item ho
    have hsome : (MemoryPool.overwrite items start stop o).isSome := by
      rw [ho]
      rfl
    obtain ⟨-, hout⟩ := overwrite_isSome hsome
    exact (h.header o item (overwrite_some ho)).congr fun x hx hx' => hm x (by omega)
  · intro o o' ho ho'
    exact h.apart o o' (overwrite_isSome ho).1 (overwrite_isSome ho').1
  · intro o ho
    exact h.inside o (overwrite_isSome ho).1

/-- A word of a header is written within the header. -/
theorem store_member {member : ℕ} (hle : member + 8 ≤ sizeofItem) {x : ℕ}
    (hx : x < a ∨ a + sizeofItem ≤ x) : m.store (a + member) 8 v x = m x :=
  store_of_outside (by omega)

end Headers

/-! ## The operations -/

/-- The last item is given a successor, or the first item is set. -/
def MemoryPoolBase.link (r : MemoryPoolBase) (pItem : ℕ) : MemoryPoolBase :=
  if r.pLast ≠ 0 then r.setWord r.pLast offsetofNext pItem else { r with pFirst := pItem }

/-- The header of the new item. -/
def MemoryPoolBase.append (r : MemoryPoolBase) (pItem count stop : ℕ) : MemoryPoolBase :=
  { r with
    memory := (((r.memory.store (pItem + offsetofNext) 8 0).store (pItem + offsetofPrev) 8
      r.pLast).store (pItem + 0) 8 count).store (pItem + offsetofIsInUse) 8 1,
    pLast := pItem,
    unOffset := stop }

/-- `Alloc` in two steps. -/
theorem MemoryPoolBase.alloc_eq (r : MemoryPoolBase) (count : ℕ) :
    r.alloc count =
      if sizeT (sizeT (count + sizeofItem) + r.unOffset) < r.cunBufferSize then
        ((r.link (r.pBuffer + r.unOffset)).append (r.pBuffer + r.unOffset) count
          (sizeT (r.unOffset + sizeT (count + sizeofItem))), r.pBuffer + r.unOffset + sizeofItem)
      else (r, 0) := by
  unfold alloc link
  by_cases hlast : r.pLast ≠ 0
  · simp only [if_pos hlast]
    rfl
  · simp only [if_neg hlast]
    rfl

/-- The pool in the memory is the abstract one. -/
structure InMemory (r : MemoryPoolBase) (p : Pool) : Prop where
  buffer_pos : 0 < r.pBuffer
  buffer_fits : r.pBuffer + r.cunBufferSize ≤ 2 ^ 64
  size : r.cunBufferSize = p.cunBufferSize
  offset : r.unOffset = p.unOffset
  first : r.pFirst = addressOf r.pBuffer p.pFirst
  last : r.pLast = addressOf r.pBuffer p.pLast
  headers : Headers r.memory r.pBuffer r.cunBufferSize p.items

section Operations

variable {r : MemoryPoolBase} {p p' : Pool} {o count : ℕ} {item : Item} {answer : Option ℕ}

theorem addressOf_inj {base : ℕ} (hpos : 0 < base) {q : Option ℕ} :
    base + o = addressOf base q ↔ q = some o := by
  cases q with
  | none =>
    simp only [addressOf, reduceCtorEq, iff_false]
    omega
  | some o' =>
    simp only [addressOf, Option.some.injEq]
    omega

/-- The items of the buffer have addresses. -/
theorem InMemory.address_lt (h : InMemory r p) (hitem : p.items o = some item) :
    r.pBuffer + o < 2 ^ 64 := by
  have hsome : (p.items o).isSome := by
    rw [hitem]
    rfl
  have := h.headers.inside o hsome
  have := h.buffer_fits
  omega

/-- The offset of an address of the buffer. -/
theorem InMemory.offsetOf_eq (h : InMemory r p) (ho : o < 2 ^ 64) : r.offsetOf (r.pBuffer + o) = o := by
  have := h.buffer_fits
  unfold MemoryPoolBase.offsetOf sizeT
  have hsum : r.pBuffer + o + (2 ^ 64 - r.pBuffer) = o + 2 ^ 64 := by omega
  rw [hsum, Nat.add_mod_right]
  exact Nat.mod_eq_of_lt ho

theorem InMemory.init {base size : ℕ} (hbase : 0 < base) (hfits : base + size ≤ 2 ^ 64)
    (memory : Memory) (bytes : ℕ → UInt8) :
    InMemory (.init base size memory) (.init size bytes) where
  buffer_pos := hbase
  buffer_fits := hfits
  size := rfl
  offset := rfl
  first := rfl
  last := rfl
  headers := ⟨fun o item h => (by cases h), fun o o' h => (by cases h), fun o h => (by cases h)⟩

/-- One member of an item is set. -/
theorem InMemory.setWord (h : InMemory r p) (hitem : p.items o = some item) {member value : ℕ}
    (hle : member + 8 ≤ sizeofItem) {item' : Item}
    (hnew : HeaderAt (r.memory.store (r.pBuffer + o + member) 8 value) r.pBuffer (r.pBuffer + o)
      item') :
    InMemory (r.setWord (r.pBuffer + o) member value)
      { p with items := Function.update p.items o (some item') } :=
  ⟨h.buffer_pos, h.buffer_fits, h.size, h.offset, h.first, h.last,
    h.headers.rewrite hitem (fun _ hx => store_member hle hx) hnew⟩

theorem InMemory.clear (h : InMemory r p) : InMemory r.clear p.clear :=
  ⟨h.buffer_pos, h.buffer_fits, h.size, rfl, rfl, rfl, h.headers⟩

/-- The last item gets a successor, or the first item is set. -/
theorem InMemory.linkLast (h : InMemory r p) (hoff : p.unOffset < p.cunBufferSize) {p₁ : Pool}
    (hlink : p.linkLast p.unOffset = .ok p₁) :
    InMemory (r.link (r.pBuffer + r.unOffset)) p₁ ∧ p₁.pLast = p.pLast ∧
      p₁.unOffset = p.unOffset ∧ p₁.cunBufferSize = p.cunBufferSize ∧
      (r.link (r.pBuffer + r.unOffset)).pBuffer = r.pBuffer ∧
      addressOf r.pBuffer p.pLast < 2 ^ 64 := by
  have hfits := h.buffer_fits
  have hsize := h.size
  rcases linkLast_ok hlink with ⟨hlast, rfl⟩ | ⟨last, item, hlast, hitem, rfl⟩
  · have hnull : ¬ r.pLast ≠ 0 := by
      rw [h.last, hlast]
      exact not_not_intro rfl
    unfold MemoryPoolBase.link
    rw [if_neg hnull]
    refine ⟨⟨h.buffer_pos, h.buffer_fits, h.size, h.offset, ?_, h.last, h.headers⟩, rfl, rfl, rfl,
      rfl, ?_⟩
    · show r.pBuffer + r.unOffset = r.pBuffer + p.unOffset
      rw [h.offset]
    · rw [hlast]
      exact Nat.two_pow_pos 64
  · have hptr : r.pLast = r.pBuffer + last := by
      rw [h.last, hlast]
      rfl
    have hnull : r.pLast ≠ 0 := by
      have := h.buffer_pos
      omega
    have hnext : addressOf r.pBuffer (some p.unOffset) < 2 ^ 64 := by
      show r.pBuffer + p.unOffset < 2 ^ 64
      omega
    have hlt : addressOf r.pBuffer p.pLast < 2 ^ 64 := by
      rw [hlast]
      exact h.address_lt hitem
    unfold MemoryPoolBase.link
    rw [if_pos hnull, hptr, h.offset]
    have hheader := (h.headers.header last item hitem).setNext hnext
    exact ⟨h.setWord hitem (by decide) hheader, rfl, rfl, rfl, rfl, hlt⟩

/-- The new header is written over whatever was there. -/
theorem InMemory.append (h : InMemory r p) (hoff : p.unOffset < p.cunBufferSize)
    (hcount : count < 2 ^ 64) (hprev : addressOf r.pBuffer p.pLast < 2 ^ 64) (stop : ℕ) :
    InMemory (r.append (r.pBuffer + p.unOffset) count stop)
      { p with
        items := Function.update
          (overwrite p.items p.unOffset (p.unOffset + sizeofItem + count)) p.unOffset
          (some ⟨count, true, p.pLast, none⟩),
        pLast := some p.unOffset,
        unOffset := stop } := by
  refine ⟨h.buffer_pos, h.buffer_fits, h.size, rfl, h.first, rfl, ?_⟩
  have hdrop : Headers r.memory r.pBuffer r.cunBufferSize
      (overwrite p.items p.unOffset (p.unOffset + sizeofItem + count)) :=
    h.headers.overwrite fun _ _ => rfl
  refine hdrop.update (by rw [h.size]; exact hoff) ?_ ?_ ?_
  · intro o' ho' _
    obtain ⟨-, hout⟩ := overwrite_isSome ho'
    omega
  · intro x hx
    unfold MemoryPoolBase.append
    simp only
    rw [store_member (by decide) hx, store_member (by decide) hx, store_member (by decide) hx,
      store_member (by decide) hx]
  · have hnew : HeaderAt ((((r.memory.store (r.pBuffer + p.unOffset + offsetofNext) 8 0).store
        (r.pBuffer + p.unOffset + offsetofPrev) 8 (addressOf r.pBuffer p.pLast)).store
        (r.pBuffer + p.unOffset + 0) 8 count).store (r.pBuffer + p.unOffset + offsetofIsInUse) 8 1)
        r.pBuffer (r.pBuffer + p.unOffset) ⟨count, true, p.pLast, none⟩ :=
      headerAt_new hcount hprev
    rw [← h.last] at hnew
    exact hnew

/-- `Alloc` does to the bytes what it does to the items. -/
theorem InMemory.alloc (h : InMemory r p) (hoff : p.unOffset < p.cunBufferSize)
    (hcount : count < 2 ^ 64) (hok : p.alloc count = .ok (p', answer)) :
    InMemory (r.alloc count).1 p' ∧ (r.alloc count).2 = addressOf r.pBuffer answer ∧
      (r.alloc count).1.pBuffer = r.pBuffer := by
  rw [MemoryPoolBase.alloc_eq, h.offset, h.size]
  rcases alloc_ok hok with ⟨hroom, rfl, rfl⟩ | ⟨hroom, rfl, p₁, hlink, rfl⟩
  · rw [if_neg hroom]
    exact ⟨h, rfl, rfl⟩
  · obtain ⟨hin, hlast₁, hoff₁, hsize₁, hbase₁, hprev⟩ := h.linkLast hoff hlink
    rw [if_pos hroom]
    rw [h.offset] at hin hbase₁
    have happ := hin.append (by rw [hoff₁, hsize₁]; exact hoff) hcount
      (by rw [hbase₁, hlast₁]; exact hprev) (sizeT (p.unOffset + sizeT (count + sizeofItem)))
    rw [hbase₁, hoff₁, hlast₁] at happ
    exact ⟨happ, Nat.add_assoc .., hbase₁⟩

/-- Bytes without headers may be filled. -/
theorem InMemory.fill (h : InMemory r p) {start ptr : ℕ} (hptr : ptr = r.pBuffer + start)
    (hfree : ∀ o, (p.items o).isSome → start + count ≤ o ∨ o + sizeofItem ≤ start) :
    InMemory { r with memory := r.memory.fill ptr count 0 } (p.memset start count) := by
  refine ⟨h.buffer_pos, h.buffer_fits, h.size, h.offset, h.first, h.last, ?_, h.headers.apart,
    h.headers.inside⟩
  intro o item hitem
  have hitem' : p.items o = some item := hitem
  have hout := hfree o (by rw [hitem']; rfl)
  exact (h.headers.header o item hitem').congr fun x hx hx' => fill_of_outside (by omega)

/-- `Calloc` clears the payload, in which there is no header. -/
theorem InMemory.calloc (h : InMemory r p) (hoff : p.unOffset < p.cunBufferSize) {nmemb size : ℕ}
    (hok : p.calloc nmemb size = .ok (p', answer)) :
    InMemory (r.calloc nmemb size).1 p' ∧ (r.calloc nmemb size).2 = addressOf r.pBuffer answer ∧
      (r.calloc nmemb size).1.pBuffer = r.pBuffer := by
  have hcount : sizeT (nmemb * size) < 2 ^ 64 := Nat.mod_lt _ (Nat.two_pow_pos 64)
  unfold Pool.calloc at hok
  unfold MemoryPoolBase.calloc
  simp only at hok ⊢
  cases halloc : p.alloc (sizeT (nmemb * size)) with
  | error f =>
    rw [halloc] at hok
    cases hok
  | ok res =>
    obtain ⟨p₁, ans⟩ := res
    obtain ⟨hin, hret, hbase⟩ := h.alloc hoff hcount halloc
    rw [halloc] at hok
    rcases alloc_ok halloc with ⟨-, rfl, rfl⟩ | ⟨-, rfl, p₂, -, rfl⟩
    · cases hok
      rw [if_neg (by rw [hret]; exact not_not_intro rfl)]
      exact ⟨hin, hret, hbase⟩
    · cases hok
      have hne : (r.alloc (sizeT (nmemb * size))).2 ≠ 0 := by
        have := h.buffer_pos
        rw [hret]
        show r.pBuffer + _ ≠ 0
        omega
      rw [if_pos hne]
      refine ⟨?_, hret, hbase⟩
      refine hin.fill ?_ fun o ho => ?_
      · rw [hret, hbase]
        rfl
      · by_cases hnew : o = p.unOffset
        · exact Or.inr (Nat.le_of_eq (congrArg (· + sizeofItem) hnew))
        · simp only [Function.update_of_ne hnew] at ho
          exact (overwrite_isSome ho).2.imp_right fun hlow => Nat.le_trans hlow (Nat.le_add_right ..)

/-- The scan goes down the same items. -/
theorem InMemory.scan (h : InMemory r p) {fuel : ℕ} {pItem : Option ℕ} {unRealPtrOffset : ℕ}
    (hok : p.scan fuel pItem unRealPtrOffset = .ok p') :
    ∃ r', r.scan fuel (addressOf r.pBuffer pItem) unRealPtrOffset = .ok r' ∧ InMemory r' p' ∧
      r'.pBuffer = r.pBuffer := by
  induction fuel generalizing pItem unRealPtrOffset with
  | zero => cases hok
  | succ fuel ih =>
    cases pItem with
    | none =>
      cases hok
      exact ⟨{ r with unOffset := unRealPtrOffset }, rfl,
        ⟨h.buffer_pos, h.buffer_fits, h.size, rfl, h.first, h.last, h.headers⟩, rfl⟩
    | some o =>
      unfold Pool.scan at hok
      cases hitem : p.items o with
      | none =>
        simp only [hitem] at hok
        cases hok
      | some item =>
        simp only [hitem] at hok
        have hheader := h.headers.header o item hitem
        have hlt := h.address_lt hitem
        have hnull : addressOf r.pBuffer (some o) ≠ 0 := by
          have := h.buffer_pos
          show r.pBuffer + o ≠ 0
          omega
        have hused : r.word (addressOf r.pBuffer (some o)) offsetofIsInUse = item.isInUse.toNat :=
          hheader.isInUse
        have hprev : r.word (addressOf r.pBuffer (some o)) offsetofPrev =
            addressOf r.pBuffer item.prev := hheader.prev
        unfold MemoryPoolBase.scan
        rw [if_neg hnull, hused, hprev]
        by_cases hu : item.isInUse = true
        · rw [if_pos hu] at hok
          cases hok
          rw [if_pos (by rw [hu]; decide)]
          have hzero : addressOf r.pBuffer none < 2 ^ 64 := Nat.two_pow_pos 64
          have hset := h.setWord hitem (by decide) (hheader.setNext hzero)
          exact ⟨_, rfl, ⟨h.buffer_pos, h.buffer_fits, h.size, rfl, h.first, rfl, hset.headers⟩, rfl⟩
        · rw [if_neg hu] at hok
          have hu' : item.isInUse = false := by simpa using hu
          rw [if_neg (by rw [hu']; decide), h.first]
          by_cases hfirst : p.pFirst = some o
          · rw [if_pos hfirst] at hok
            cases hok
            rw [if_pos (by rw [hfirst])]
            exact ⟨r.clear, rfl, h.clear, rfl⟩
          · rw [if_neg hfirst] at hok
            have hne : ¬ addressOf r.pBuffer (some o) = addressOf r.pBuffer p.pFirst := fun he =>
              hfirst ((addressOf_inj h.buffer_pos).mp he)
            have hoffset : r.offsetOf (addressOf r.pBuffer (some o)) = o := h.offsetOf_eq (by omega)
            rw [if_neg hne, hoffset]
            exact ih hok

/-- `DeallocCheckedMemory` does to the bytes what it does to the items. -/
theorem InMemory.deallocCheckedMemory (h : InMemory r p) {ptrOffset : ℕ}
    (hok : p.deallocCheckedMemory ptrOffset = .ok p') :
    ∃ r', r.deallocCheckedMemory ptrOffset = .ok r' ∧ InMemory r' p' ∧ r'.pBuffer = r.pBuffer := by
  unfold Pool.deallocCheckedMemory at hok
  unfold MemoryPoolBase.deallocCheckedMemory
  simp only at hok ⊢
  cases hitem : p.items (ptrOffset - sizeofItem) with
  | none =>
    simp only [hitem] at hok
    cases hok
  | some item =>
    simp only [hitem] at hok
    have hheader := h.headers.header _ item hitem
    have hcount : r.word (r.pBuffer + (ptrOffset - sizeofItem)) 0 = item.count := hheader.count
    have hprev : r.word (r.pBuffer + (ptrOffset - sizeofItem)) offsetofPrev =
        addressOf r.pBuffer item.prev := hheader.prev
    rw [hcount, hprev, h.offset, h.size, h.first]
    split_ifs at hok with htop hfirst hbelow
    · cases hok
      rw [if_pos htop, if_pos (by rw [hfirst]; rfl)]
      exact ⟨r.clear, rfl, h.clear, rfl⟩
    · have hne : ¬ r.pBuffer + (ptrOffset - sizeofItem) = addressOf r.pBuffer p.pFirst := fun he =>
        hfirst ((addressOf_inj h.buffer_pos).mp he)
      rw [if_pos htop, if_neg hne]
      exact h.scan hok
    · cases hok
      rw [if_neg htop, if_pos hbelow]
      have hset := h.setWord hitem (by decide) (hheader.setIsInUse false)
      exact ⟨_, rfl, hset, rfl⟩

/-- The last item is resized in its place, and the header with it. -/
theorem InMemory.resize (h : InMemory r p) (hitem : p.items o = some item) (hcount : count < 2 ^ 64)
    (stop : ℕ) :
    InMemory ({ r with unOffset := stop }.setWord (r.pBuffer + o) 0 count)
      { p with
        unOffset := stop,
        items := Function.update
          (overwrite p.items (o + sizeofItem) (o + sizeofItem + count)) o
          (some { item with count := count }) } := by
  have hdrop : Headers r.memory r.pBuffer r.cunBufferSize
      (overwrite p.items (o + sizeofItem) (o + sizeofItem + count)) :=
    h.headers.overwrite fun _ _ => rfl
  have hkept : overwrite p.items (o + sizeofItem) (o + sizeofItem + count) o = some item := by
    unfold overwrite
    rw [if_neg (by omega)]
    exact hitem
  have hnew := hdrop.rewrite hkept (fun _ hx => store_member (by decide) hx)
    ((h.headers.header o item hitem).setCount hcount)
  exact ⟨h.buffer_pos, h.buffer_fits, h.size, rfl, h.first, h.last, hnew⟩

/-- `Realloc` of a block of the buffer does to the bytes what it does to the items. -/
theorem InMemory.realloc (h : InMemory r p) (hoff : p.unOffset < p.cunBufferSize)
    (hcount : count < 2 ^ 64) (ho : o < p.cunBufferSize) {known : Bool}
    (hok : p.realloc (some o) count = .ok (p', known, answer)) :
    ∃ r', r.realloc (r.pBuffer + o) count = .ok (r', known, addressOf r.pBuffer answer) ∧
      InMemory r' p' ∧ r'.pBuffer = r.pBuffer := by
  have hpos := h.buffer_pos
  have hfits := h.buffer_fits
  have hsize := h.size
  have hne : r.pBuffer + o ≠ 0 := by omega
  have hoffset : r.offsetOf (r.pBuffer + o) = o := h.offsetOf_eq (by omega)
  unfold MemoryPoolBase.realloc
  simp only [hoffset]
  rw [if_pos hne, h.size, if_pos ho]
  obtain ⟨hno, -⟩ | ⟨-, hle, rfl, hcase⟩ := realloc_ok hok
  · exact absurd ho hno
  rcases hcase with ⟨hzero, hdealloc, rfl⟩ | ⟨hzero, hrealloc⟩
  · obtain ⟨r', hr', hin, hbase⟩ := h.deallocCheckedMemory hdealloc
    rw [if_pos hle, if_pos hzero, hr']
    exact ⟨r', rfl, hin, hbase⟩
  · have hraw : r.pBuffer + o - sizeofItem = r.pBuffer + (o - sizeofItem) := by omega
    have hback : o - sizeofItem + sizeofItem = o := by omega
    obtain ⟨item, hitem, hcase⟩ := reallocInBuffer_ok hrealloc
    have hword : r.word (r.pBuffer + (o - sizeofItem)) 0 = item.count :=
      (h.headers.header _ item hitem).count
    rw [if_pos hle, if_neg hzero, hraw, hword, h.offset]
    rcases hcase with ⟨hsame, rfl, rfl⟩ | ⟨hsame, hend, hroom, rfl, rfl⟩ |
      ⟨hsame, hend, hroom, rfl, rfl⟩ | ⟨hsame, hbelow, halloc⟩
    · rw [if_pos hsame]
      exact ⟨r, rfl, h, rfl⟩
    · have hresized := h.resize hitem hcount (sizeT (p.unOffset + count + (2 ^ 64 - item.count)))
      rw [hback, h.size] at hresized
      rw [if_neg hsame, if_pos hend, hend, if_pos hroom]
      exact ⟨_, rfl, hresized, rfl⟩
    · rw [if_neg hsame, if_pos hend, hend, if_neg hroom]
      exact ⟨r, rfl, h, rfl⟩
    · obtain ⟨r₁, hr₁, hin₁, hbase₁⟩ :=
        h.deallocCheckedMemory (deallocCheckedMemory_marks hitem hbelow)
      obtain ⟨hin, hret, hbase⟩ := hin₁.alloc hoff hcount halloc
      rw [hbase₁] at hret
      rw [if_neg hsame, if_neg (Nat.ne_of_lt hbelow), if_pos hbelow, hr₁]
      exact ⟨_, by rw [← hret], hin, hbase.trans hbase₁⟩

theorem InMemory.dealloc (h : InMemory r p) (ho : o < p.cunBufferSize) {known : Bool}
    (hok : p.dealloc o = .ok (p', known)) :
    ∃ r', r.dealloc (r.pBuffer + o) = .ok (r', known) ∧ InMemory r' p' ∧
      r'.pBuffer = r.pBuffer := by
  have hpos := h.buffer_pos
  have hfits := h.buffer_fits
  have hsize := h.size
  have hoffset : r.offsetOf (r.pBuffer + o) = o := h.offsetOf_eq (by omega)
  obtain ⟨hno, -⟩ | ⟨-, hle, rfl, hdealloc⟩ := dealloc_ok hok
  · exact absurd ho hno
  obtain ⟨r', hr', hin, hbase⟩ := h.deallocCheckedMemory hdealloc
  unfold MemoryPoolBase.dealloc
  simp only [hoffset]
  rw [h.size, if_pos ho, if_pos hle, hr']
  exact ⟨r', rfl, hin, hbase⟩

/-- What the program writes takes the items away whose headers it hits. -/
theorem InMemory.store (h : InMemory r p) (o : ℕ) (value : UInt8) :
    InMemory (r.store (r.pBuffer + o) value) (p.store o value) := by
  have hheaders : Headers (Function.update r.memory (r.pBuffer + o) value) r.pBuffer r.cunBufferSize
      (overwrite p.items o (o + 1)) :=
    h.headers.overwrite fun x hx => Function.update_of_ne (by omega) ..
  exact ⟨h.buffer_pos, h.buffer_fits, h.size, h.offset, h.first, h.last, hheaders⟩

end Operations

end CrashInvestigator.MemoryPool
