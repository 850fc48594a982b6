import CrashInvestigator.MemoryPool.Bounds
import CrashInvestigator.MemoryPool.Proofs.PoolProofs
import CrashInvestigator.Library.Arena

/-!
# The pool refines an arena

The items of the pool, from the last one down, are the blocks of an arena whose overhead is the
header. `Alloc` puts a block on top, `Dealloc` releases one, and `Realloc` resizes the top or does
both.
-/

namespace CrashInvestigator.MemoryPool

open Library Library.Arena

/-- The header of the newest block. -/
def topOf : List Cell → Option ℕ
  | [] => none
  | _ :: cs => some (height sizeofItem cs)

/-- The headers of the blocks, from the newest one down, which has `next` behind it. -/
def Linked (items : ℕ → Option Item) : List Cell → Option ℕ → Prop
  | [], _ => True
  | c :: cs, next =>
    items (height sizeofItem cs) = some ⟨c.count, c.used, topOf cs, next⟩ ∧
      Linked items cs (some (height sizeofItem cs))

/-- The pool is that of the arena. -/
structure Represents (p : Pool) (cs : List Cell) : Prop where
  linked : Linked p.items cs none
  offset : p.unOffset = height sizeofItem cs
  last : p.pLast = topOf cs
  first : p.pFirst = if cs = [] then none else some 0
  settled : Settled cs
  below : height sizeofItem cs < p.cunBufferSize
  size : p.cunBufferSize < 2 ^ 64

/-- The client holds the blocks of the arena that are in use. -/
def Account (held : ℕ → Option ℕ) (cs : List Cell) : Prop :=
  ∀ ptr n, held ptr = some n ↔ ∃ b, ptr = b + sizeofItem ∧ Holds sizeofItem cs b n

/-! ## Headers -/

section Headers

variable {items items' : ℕ → Option Item} {cs : List Cell} {c : Cell} {next next' : Option ℕ}
  {b n : ℕ}

theorem sizeofItem_pos : 0 < sizeofItem := by decide

theorem sizeT_of_lt (h : n < 2 ^ 64) : sizeT n = n := Nat.mod_eq_of_lt h

theorem height_eq_zero_iff : height sizeofItem cs = 0 ↔ cs = [] := by
  cases cs with
  | nil => simp
  | cons c cs =>
    have := sizeofItem_pos
    rw [height_cons]
    constructor
    · intro h
      omega
    · intro h
      cases h

/-- Only the headers of the blocks are read. -/
theorem Linked.congr (h : Linked items cs next)
    (heq : ∀ o, Starts sizeofItem cs o → items' o = items o) : Linked items' cs next := by
  induction cs generalizing next with
  | nil => trivial
  | cons c cs ih =>
    obtain ⟨hitem, hrest⟩ := h
    refine ⟨?_, ih hrest fun o ho => heq o (Or.inr ho)⟩
    rw [heq _ (Or.inl rfl)]
    exact hitem

/-- The header of the newest block may be given another successor. -/
theorem Linked.relink (h : Linked items (c :: cs) next) (next' : Option ℕ) :
    Linked (Function.update items (height sizeofItem cs)
      (some ⟨c.count, c.used, topOf cs, next'⟩)) (c :: cs) next' := by
  obtain ⟨-, hrest⟩ := h
  refine ⟨Function.update_self .., hrest.congr fun o ho => ?_⟩
  have := ho.le_height
  have := sizeofItem_pos
  exact Function.update_of_ne (by omega) ..

/-- A block that is in use has its header. -/
theorem Linked.find (h : Linked items cs next) (hb : Holds sizeofItem cs b n) :
    ∃ prev next', items b = some ⟨n, true, prev, next'⟩ := by
  induction cs generalizing next with
  | nil => exact hb.elim
  | cons c cs ih =>
    obtain ⟨hitem, hrest⟩ := h
    rcases hb with ⟨rfl, rfl, hu⟩ | hb
    · rw [hu] at hitem
      exact ⟨_, _, hitem⟩
    · exact ih hrest hb

theorem topOf_mark : topOf (mark sizeofItem b cs) = topOf cs := by
  cases cs with
  | nil => rfl
  | cons c cs =>
    unfold mark
    split_ifs
    · rfl
    · simp [topOf]

theorem mark_eq_nil_iff : mark sizeofItem b cs = [] ↔ cs = [] := by
  cases cs with
  | nil => simp [mark]
  | cons c cs =>
    unfold mark
    split_ifs <;> simp

/-- Clearing `isInUse` of a block marks it. -/
theorem Linked.mark (h : Linked items cs next) (hb : Holds sizeofItem cs b n) {item : Item}
    (hitem : items b = some item) :
    Linked (Function.update items b (some { item with isInUse := false }))
      (Arena.mark sizeofItem b cs) next := by
  induction cs generalizing next with
  | nil => exact hb.elim
  | cons c cs ih =>
    obtain ⟨hhead, hrest⟩ := h
    unfold Arena.mark
    split_ifs with htop
    · subst htop
      rw [hhead] at hitem
      cases hitem
      refine ⟨Function.update_self .., hrest.congr fun o ho => ?_⟩
      have := ho.le_height
      have := sizeofItem_pos
      exact Function.update_of_ne (by omega) ..
    · have hb' : Holds sizeofItem cs b n := by
        rcases hb with ⟨hbe, -, -⟩ | hb
        · exact absurd hbe.symm htop
        · exact hb
      refine ⟨?_, ?_⟩
      · rw [height_mark, topOf_mark, Function.update_of_ne htop]
        exact hhead
      · rw [height_mark]
        exact ih hrest hb'

/-- What is written above the blocks leaves their headers alone. -/
theorem Linked.overwrite_above (h : Linked items cs next) {start : ℕ} (stop : ℕ)
    (hle : height sizeofItem cs ≤ start) : Linked (overwrite items start stop) cs next := by
  refine h.congr fun o ho => ?_
  have := ho.le_height
  unfold overwrite
  rw [if_neg (by omega)]

/-- What is written to the payload of a block that is in use leaves the headers alone. -/
theorem Linked.overwrite_payload (h : Linked items cs next) (hb : Holds sizeofItem cs b n)
    {start stop : ℕ} (hstart : b + sizeofItem ≤ start) (hstop : stop ≤ b + sizeofItem + n) :
    Linked (overwrite items start stop) cs next := by
  refine h.congr fun o ho => ?_
  have := hb.apart ho
  unfold overwrite
  rw [if_neg (by omega)]

end Headers

/-! ## Releases -/

section Releases

variable {p : Pool} {cs : List Cell} {c : Cell} {next : Option ℕ} {b n : ℕ}

theorem represents_clear (hpos : 0 < p.cunBufferSize) (hsize : p.cunBufferSize < 2 ^ 64) :
    Represents p.clear [] := by
  refine ⟨trivial, rfl, rfl, rfl, ?_, hpos, hsize⟩
  simp [Settled]

/-- The scan ends below the marked blocks on top, however many there are. -/
theorem scan_represents (h : Linked p.items cs next) (hne : cs ≠ []) (hfirst : p.pFirst = some 0)
    (hbelow : height sizeofItem cs < p.cunBufferSize) (hsize : p.cunBufferSize < 2 ^ 64)
    {fuel : ℕ} (hfuel : cs.length < fuel) :
    ∃ p', p.scan fuel (topOf cs) (height sizeofItem cs) = .ok p' ∧
      Represents p' (collapse cs) ∧ p'.cunBufferSize = p.cunBufferSize ∧ p'.bytes = p.bytes := by
  induction cs generalizing fuel next with
  | nil => exact absurd rfl hne
  | cons c cs ih =>
    obtain ⟨fuel, rfl⟩ : ∃ k, fuel = k + 1 := ⟨fuel - 1, by omega⟩
    have hitem := h.1
    by_cases hc : c.used = true
    · rw [collapse_cons_used hc]
      refine ⟨{ p with
          items := Function.update p.items (height sizeofItem cs)
            (some ⟨c.count, c.used, topOf cs, none⟩),
          pLast := some (height sizeofItem cs),
          unOffset := height sizeofItem (c :: cs) }, ?_,
        ⟨h.relink none, rfl, rfl, ?_, ?_, hbelow, hsize⟩, rfl, rfl⟩
      · show p.scan (fuel + 1) (some (height sizeofItem cs)) _ = _
        simp only [Pool.scan, hitem, hc, if_true]
      · rw [if_neg (by simp)]
        exact hfirst
      · simpa [Settled] using hc
    · have hc' : c.used = false := by simpa using hc
      rw [collapse_cons_unused hc']
      by_cases hcs : cs = []
      · subst hcs
        refine ⟨p.clear, ?_, represents_clear (by omega) hsize, rfl, rfl⟩
        simp only [height_nil] at hitem
        simp [Pool.scan, topOf, hitem, hc', hfirst]
      · have hzero : height sizeofItem cs ≠ 0 := fun h0 => hcs (height_eq_zero_iff.mp h0)
        have hlt : height sizeofItem cs < p.cunBufferSize := by
          rw [height_cons] at hbelow
          omega
        have hlen : cs.length < fuel := by
          rw [List.length_cons] at hfuel
          omega
        obtain ⟨p', hp', hrest⟩ := ih h.2 hcs hlt hlen
        refine ⟨p', ?_, hrest⟩
        have hnot : ¬ (0 = height sizeofItem cs) := fun h0 => hzero h0.symm
        simp only [Pool.scan, topOf, hitem, hc', hfirst, Option.some.injEq, hnot, if_false]
        exact hp'

/-- A block in use ends in the buffer. -/
theorem Represents.in_buffer (h : Represents p cs) (hb : Holds sizeofItem cs b n) :
    b + sizeofItem + n < p.cunBufferSize :=
  Nat.lt_of_le_of_lt hb.le_height h.below

/-- The last block is the one at whose end the pool ends. -/
theorem Represents.last_iff (h : Represents p cs) (hb : Holds sizeofItem cs b n) :
    b + sizeofItem + n = p.unOffset ↔ topOf cs = some b := by
  cases cs with
  | nil => exact hb.elim
  | cons c cs =>
    rw [h.offset, height_cons]
    constructor
    · intro hend
      rcases hb with ⟨rfl, -, -⟩ | hb
      · rfl
      · have := hb.le_height
        have := sizeofItem_pos
        omega
    · intro htop
      cases htop
      have hcount : n = c.count := hb.unique sizeofItem_pos (Or.inl ⟨rfl, rfl, h.settled c rfl⟩)
      rw [hcount]

/-- The other ones end below. -/
theorem Represents.below_last (h : Represents p cs) (hb : Holds sizeofItem cs b n)
    (htop : topOf cs ≠ some b) : b + sizeofItem + n < p.unOffset := by
  have hle := hb.le_height
  rw [← h.offset] at hle
  exact Nat.lt_of_le_of_ne hle fun hend => htop ((h.last_iff hb).mp hend)

/-- `DeallocCheckedMemory` of a block that is in use releases it. -/
theorem Represents.deallocCheckedMemory (h : Represents p cs) (hb : Holds sizeofItem cs b n) :
    ∃ p', p.deallocCheckedMemory (b + sizeofItem) = .ok p' ∧
      Represents p' (release sizeofItem b cs) ∧ p'.cunBufferSize = p.cunBufferSize ∧
      p'.bytes = p.bytes := by
  obtain ⟨prev, next, hitem⟩ := h.linked.find hb
  have hin := h.in_buffer hb
  have hsize := h.size
  have hsizeT : sizeT (b + sizeofItem + n) = b + sizeofItem + n := sizeT_of_lt (by omega)
  have hback : b + sizeofItem - sizeofItem = b := Nat.add_sub_cancel ..
  cases cs with
  | nil => exact hb.elim
  | cons c cs =>
    have hfirst : p.pFirst = some 0 := by
      rw [h.first, if_neg (by simp)]
    by_cases htop : b = height sizeofItem cs
    · subst htop
      have hoff : height sizeofItem cs + sizeofItem + n = p.unOffset := (h.last_iff hb).mpr rfl
      have hprev : prev = topOf cs := by
        have hhead := h.linked.1
        rw [hhead] at hitem
        simp only [Option.some.injEq, Item.mk.injEq] at hitem
        exact hitem.2.2.1.symm
      rw [release_top]
      by_cases hcs : cs = []
      · subst hcs
        refine ⟨p.clear, ?_, represents_clear (by omega) hsize, rfl, rfl⟩
        have hbase : p.pFirst = some (height sizeofItem []) := hfirst
        simp only [Pool.deallocCheckedMemory, hback, hitem]
        rw [if_pos (hsizeT.trans hoff), if_pos hbase]
      · have hzero : height sizeofItem cs ≠ 0 := fun h0 => hcs (height_eq_zero_iff.mp h0)
        have hlen : cs.length < p.cunBufferSize := by
          have hlen : cs.length * sizeofItem ≤ height sizeofItem cs := length_mul_le
          have := Nat.le_mul_of_pos_right cs.length sizeofItem_pos
          omega
        obtain ⟨p', hp', hrest⟩ := scan_represents h.linked.2 hcs hfirst (by omega) hsize hlen
        refine ⟨p', ?_, hrest⟩
        have hnot : p.pFirst ≠ some (height sizeofItem cs) := by
          rw [hfirst]
          intro h0
          exact hzero (Option.some.inj h0).symm
        simp only [Pool.deallocCheckedMemory, hback, hitem]
        rw [if_pos (hsizeT.trans hoff), if_neg hnot, hprev]
        exact hp'
    · have hlt := h.below_last hb fun he => htop (Option.some.inj he).symm
      have hitem' : p.items (b + sizeofItem - sizeofItem) = some ⟨n, true, prev, next⟩ := by
        rw [hback]
        exact hitem
      rw [release_below h.settled fun he => htop he.symm]
      refine ⟨{ p with items := Function.update p.items b (some ⟨n, false, prev, next⟩) }, ?_, ?_,
        rfl, rfl⟩
      · have hmarks := deallocCheckedMemory_marks hitem' (hsizeT.trans_lt hlt)
        rwa [hback] at hmarks
      · refine ⟨h.linked.mark hb hitem, ?_, ?_, ?_, ?_, ?_, hsize⟩
        · rw [height_mark]
          exact h.offset
        · rw [topOf_mark]
          exact h.last
        · rw [if_neg (by rw [mark_eq_nil_iff]; simp)]
          exact hfirst
        · have hc := h.settled c rfl
          unfold Arena.mark
          rw [if_neg fun he => htop he.symm]
          simpa [Settled] using hc
        · rw [height_mark]
          exact h.below

end Releases

/-! ## Allocations -/

section Allocations

variable {p : Pool} {cs : List Cell} {c : Cell} {n : ℕ}

/-- The end of the last block is linked to the place of the next one. -/
theorem Represents.linkLast (h : Represents p cs) :
    ∃ p', p.linkLast p.unOffset = .ok p' ∧ Linked p'.items cs (some (height sizeofItem cs)) ∧
      p'.pFirst = some 0 ∧ p'.cunBufferSize = p.cunBufferSize ∧ p'.bytes = p.bytes := by
  cases cs with
  | nil =>
    have hlast : p.pLast = none := h.last
    have hoff : p.unOffset = 0 := h.offset
    refine ⟨{ p with pFirst := some p.unOffset }, ?_, trivial, ?_, rfl, rfl⟩
    · simp only [Pool.linkLast, hlast]
    · rw [hoff]
  | cons c cs =>
    have hlast : p.pLast = some (height sizeofItem cs) := h.last
    have hfirst : p.pFirst = some 0 := by
      rw [h.first, if_neg (by simp)]
    have hitem := h.linked.1
    refine ⟨{ p with
      items := Function.update p.items (height sizeofItem cs)
        (some ⟨c.count, c.used, topOf cs, some p.unOffset⟩) }, ?_, ?_, hfirst, rfl, rfl⟩
    · simp only [Pool.linkLast, hlast, hitem]
    · rw [← h.offset]
      exact h.linked.relink (some p.unOffset)

/-- `Alloc` puts a block on top when it fits into the buffer. -/
theorem Represents.alloc (h : Represents p cs) (hfit : p.unOffset + sizeofItem + n < 2 ^ 64)
    (hroom : p.unOffset + sizeofItem + n < p.cunBufferSize) :
    ∃ p', p.alloc n = .ok (p', some (height sizeofItem cs + sizeofItem)) ∧
      Represents p' (⟨n, true⟩ :: cs) ∧ p'.cunBufferSize = p.cunBufferSize ∧
      p'.bytes = p.bytes := by
  obtain ⟨p₁, hp₁, hlinked, hfirst, hsize₁, hbytes₁⟩ := h.linkLast
  have hoverall : sizeT (n + sizeofItem) = n + sizeofItem := sizeT_of_lt (by omega)
  have hsum : sizeT (n + sizeofItem + p.unOffset) = n + sizeofItem + p.unOffset :=
    sizeT_of_lt (by omega)
  have hnew : sizeT (p.unOffset + (n + sizeofItem)) = p.unOffset + sizeofItem + n := by
    rw [sizeT_of_lt (by omega)]
    omega
  have hoff := h.offset
  refine ⟨{ p₁ with
    items := Function.update
      (overwrite p₁.items p.unOffset (p.unOffset + sizeofItem + n)) p.unOffset
      (some ⟨n, true, p.pLast, none⟩),
    pLast := some p.unOffset,
    unOffset := p.unOffset + sizeofItem + n }, ?_, ?_, hsize₁, hbytes₁⟩
  · simp only [Pool.alloc, hoverall, hsum, hp₁, hnew]
    rw [if_pos (by omega), hoff]
  · refine ⟨⟨?_, ?_⟩, ?_, ?_, ?_, ?_, ?_, ?_⟩
    · rw [← hoff, h.last]
      exact Function.update_self ..
    · have habove : Linked (overwrite p₁.items p.unOffset (p.unOffset + sizeofItem + n)) cs
          (some (height sizeofItem cs)) := hlinked.overwrite_above _ (by omega)
      refine habove.congr fun o ho => ?_
      have := ho.le_height
      have := sizeofItem_pos
      exact Function.update_of_ne (by omega) ..
    · show p.unOffset + sizeofItem + n = _
      rw [height_cons, hoff]
    · show some p.unOffset = some _
      rw [hoff]
    · rw [if_neg (by simp)]
      exact hfirst
    · simp [Settled]
    · show _ < p₁.cunBufferSize
      rw [hsize₁, height_cons]
      simp only
      omega
    · show p₁.cunBufferSize < _
      rw [hsize₁]
      exact h.size

/-- What `Alloc` compares with the size of the buffer. -/
theorem sizeT_overall (n offset : ℕ) :
    sizeT (sizeT (n + sizeofItem) + offset) = sizeT (offset + sizeofItem + n) := by
  unfold sizeT
  rw [Nat.mod_add_mod]
  congr 1
  omega

/-- `Alloc` of a block that does not fit into the buffer changes nothing. -/
theorem alloc_null (hroom : p.cunBufferSize ≤ sizeT (p.nextPtr + n)) : p.alloc n = .ok (p, none) := by
  simp only [Pool.alloc, sizeT_overall]
  exact if_neg (Nat.not_lt.mpr hroom)

/-- `Alloc` answers with a block when the sum passes the test, wrapped or not. -/
theorem Represents.alloc_some (h : Represents p cs) (hroom : sizeT (p.nextPtr + n) < p.cunBufferSize) :
    ∃ p', p.alloc n = .ok (p', some p.nextPtr) := by
  obtain ⟨p₁, hp₁, -⟩ := h.linkLast
  simp only [Pool.alloc, sizeT_overall, hp₁]
  exact ⟨_, if_pos hroom⟩

/-- The top may be resized in its place. -/
theorem Represents.resize (h : Represents p (c :: cs))
    (hroom : height sizeofItem cs + sizeofItem + n < p.cunBufferSize) (stop : ℕ) :
    Represents { p with
      unOffset := height sizeofItem cs + sizeofItem + n,
      items := Function.update
        (overwrite p.items (height sizeofItem cs + sizeofItem) stop) (height sizeofItem cs)
        (some ⟨n, c.used, topOf cs, none⟩) } (⟨n, c.used⟩ :: cs) := by
  refine ⟨⟨Function.update_self .., ?_⟩, rfl, h.last, ?_, ?_, hroom, h.size⟩
  · have habove : Linked (overwrite p.items (height sizeofItem cs + sizeofItem) stop) cs
        (some (height sizeofItem cs)) := h.linked.2.overwrite_above _ (by omega)
    refine habove.congr fun o ho => ?_
    have := ho.le_height
    have := sizeofItem_pos
    exact Function.update_of_ne (by omega) ..
  · rw [if_neg (by simp)]
    have hfirst := h.first
    rw [if_neg (by simp)] at hfirst
    exact hfirst
  · have hc := h.settled c rfl
    simpa [Settled] using hc

end Allocations

/-! ## Reallocs -/

section Reallocs

variable {p : Pool} {cs : List Cell} {b n count : ℕ}

/-- `Realloc` of the last block changes its count when the end passes the test, wrapped or not. -/
theorem Represents.reallocInBuffer_top {c : Cell} (h : Represents p (c :: cs))
    (hcount : count ≠ c.count) :
    p.reallocInBuffer (height sizeofItem cs + sizeofItem) count =
      if sizeT (height sizeofItem cs + sizeofItem + count) < p.cunBufferSize then
        .ok ({ p with
            unOffset := sizeT (height sizeofItem cs + sizeofItem + count),
            items := Function.update (overwrite p.items (height sizeofItem cs + sizeofItem)
              (height sizeofItem cs + sizeofItem + count)) (height sizeofItem cs)
              (some ⟨count, c.used, topOf cs, none⟩) }, some (height sizeofItem cs + sizeofItem))
      else .ok (p, none) := by
  have hitem := h.linked.1
  have hbelow := h.below
  have hsize := h.size
  have hback : height sizeofItem cs + sizeofItem - sizeofItem = height sizeofItem cs :=
    Nat.add_sub_cancel ..
  have hend : sizeT (height sizeofItem cs + sizeofItem + c.count) = p.unOffset := by
    rw [h.offset, height_cons]
    rw [height_cons] at hbelow
    exact sizeT_of_lt (by omega)
  have hoff : p.unOffset = height sizeofItem cs + sizeofItem + c.count := by
    rw [h.offset, height_cons]
  have hnew : sizeT (p.unOffset + count + (2 ^ 64 - c.count)) =
      sizeT (height sizeofItem cs + sizeofItem + count) := by
    have hsum : p.unOffset + count + (2 ^ 64 - c.count) =
        height sizeofItem cs + sizeofItem + count + 2 ^ 64 := by
      rw [height_cons] at hbelow
      omega
    unfold sizeT
    rw [hsum, Nat.add_mod_right]
  simp only [Pool.reallocInBuffer, hback, hitem, hend, hnew]
  rw [if_neg hcount, if_pos trivial]

/-- `Realloc` of a block below the last one releases it and allocates another one. -/
theorem Represents.reallocInBuffer_below (h : Represents p cs) (hb : Holds sizeofItem cs b n)
    (hcount : count ≠ n) (hne : topOf cs ≠ some b) :
    ∃ p₁, p.deallocCheckedMemory (b + sizeofItem) = .ok p₁ ∧
      Represents p₁ (release sizeofItem b cs) ∧ p₁.cunBufferSize = p.cunBufferSize ∧
      p₁.unOffset = p.unOffset ∧ p.reallocInBuffer (b + sizeofItem) count = p₁.alloc count := by
  obtain ⟨prev, next, hitem⟩ := h.linked.find hb
  have hin := h.in_buffer hb
  have hsize := h.size
  have hsizeT : sizeT (b + sizeofItem + n) = b + sizeofItem + n := sizeT_of_lt (by omega)
  have hback : b + sizeofItem - sizeofItem = b := Nat.add_sub_cancel ..
  obtain ⟨p₁, hp₁, hrep, hsize₁, -⟩ := h.deallocCheckedMemory hb
  have hlt := h.below_last hb hne
  refine ⟨p₁, hp₁, hrep, hsize₁, ?_, ?_⟩
  · cases cs with
    | nil => exact hb.elim
    | cons c cs =>
      have htop : height sizeofItem cs ≠ b := fun he => hne (congrArg some he)
      rw [hrep.offset, release_below h.settled htop, height_mark, h.offset]
  · simp only [Pool.reallocInBuffer, hback, hitem, hsizeT, hp₁]
    rw [if_neg hcount, if_neg (by omega), if_pos hlt]

/-- What `Realloc` of a block that is in use to a positive size does: it keeps the block, resizes the
top or fails to, or releases the block and allocates another one. -/
theorem Represents.reallocInBuffer (h : Represents p cs) (hb : Holds sizeofItem cs b n)
    (hfit : topOf cs = some b → p.NoWrap (b + sizeofItem) count) :
    (count = n ∧ p.reallocInBuffer (b + sizeofItem) count = .ok (p, some (b + sizeofItem))) ∨
      (∃ c cs' p', cs = c :: cs' ∧ b = height sizeofItem cs' ∧
        p.reallocInBuffer (b + sizeofItem) count = .ok (p', some (b + sizeofItem)) ∧
        Represents p' (⟨count, c.used⟩ :: cs') ∧ p'.cunBufferSize = p.cunBufferSize) ∨
      (topOf cs = some b ∧ p.reallocInBuffer (b + sizeofItem) count = .ok (p, none)) ∨
      (count ≠ n ∧ topOf cs ≠ some b ∧ ∃ p₁, p.deallocCheckedMemory (b + sizeofItem) = .ok p₁ ∧
        Represents p₁ (release sizeofItem b cs) ∧ p₁.cunBufferSize = p.cunBufferSize ∧
        p₁.unOffset = p.unOffset ∧ p.reallocInBuffer (b + sizeofItem) count = p₁.alloc count) := by
  by_cases hcount : count = n
  · left
    obtain ⟨prev, next, hitem⟩ := h.linked.find hb
    refine ⟨hcount, ?_⟩
    simp only [Pool.reallocInBuffer, Nat.add_sub_cancel, hitem]
    rw [if_pos hcount]
  right
  by_cases htop : topOf cs = some b
  · cases cs with
    | nil => cases htop
    | cons c cs =>
      cases htop
      have hn : n = c.count := hb.unique sizeofItem_pos (Or.inl ⟨rfl, rfl, h.settled c rfl⟩)
      have hne : count ≠ c.count := by rwa [← hn]
      have hbody := h.reallocInBuffer_top hne
      by_cases hroom :
          sizeT (height sizeofItem cs + sizeofItem + count) < p.cunBufferSize
      · left
        have hsum : sizeT (height sizeofItem cs + sizeofItem + count) =
            height sizeofItem cs + sizeofItem + count :=
          sizeT_of_lt ((hfit rfl).resolve_right (Nat.not_le.mpr hroom))
        rw [if_pos hroom, hsum] at hbody
        rw [hsum] at hroom
        exact ⟨c, cs, _, rfl, rfl, hbody, h.resize hroom _, rfl⟩
      · right; left
        rw [if_neg hroom] at hbody
        exact ⟨rfl, hbody⟩
  · right; right
    exact ⟨hcount, htop, h.reallocInBuffer_below hb hcount htop⟩

end Reallocs

end CrashInvestigator.MemoryPool
