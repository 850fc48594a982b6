import CrashInvestigator.MemoryPool.Proofs.RefinementProofs

/-!
# The pool stays tiled

Every operation of a correct client keeps the pool that of an arena whose blocks in use are those the
client holds. The layout of the buffer is read off the arena.
-/

namespace CrashInvestigator.MemoryPool

open Library Library.Arena

/-! ## The account -/

section Account

variable {held : ℕ → Option ℕ} {cs : List Cell} {c : Cell} {b n : ℕ}

/-- The newest block gets its account, whatever stood in its place. -/
theorem account_top (h : ∀ ptr, ptr ≠ height sizeofItem cs + sizeofItem → ∀ m,
      held ptr = some m ↔ ∃ b, ptr = b + sizeofItem ∧ Holds sizeofItem cs b m) (hc : c.used = true) :
    Account (Function.update held (height sizeofItem cs + sizeofItem) (some c.count))
      (c :: cs) := by
  intro ptr m
  by_cases hptr : ptr = height sizeofItem cs + sizeofItem
  · subst hptr
    rw [Function.update_self, Option.some.injEq]
    constructor
    · rintro rfl
      exact ⟨_, rfl, Or.inl ⟨rfl, rfl, hc⟩⟩
    · rintro ⟨b, hb, ⟨-, hn, -⟩ | hold⟩
      · exact hn.symm
      · have := hold.le_height
        have := sizeofItem_pos
        omega
  · rw [Function.update_of_ne hptr, h ptr hptr m]
    constructor
    · rintro ⟨b, rfl, hb⟩
      exact ⟨b, rfl, Or.inr hb⟩
    · rintro ⟨b, rfl, ⟨rfl, -, -⟩ | hb⟩
      · exact absurd rfl hptr
      · exact ⟨b, rfl, hb⟩

theorem Account.push (h : Account held cs) (n : ℕ) :
    Account (Function.update held (height sizeofItem cs + sizeofItem) (some n))
      (⟨n, true⟩ :: cs) :=
  account_top (c := ⟨n, true⟩) (fun ptr _ m => h ptr m) rfl

theorem Account.release (h : Account held cs) (b : ℕ) :
    Account (Function.update held (b + sizeofItem) none) (Arena.release sizeofItem b cs) := by
  intro ptr m
  by_cases hptr : ptr = b + sizeofItem
  · subst hptr
    rw [Function.update_self]
    constructor
    · intro hf
      cases hf
    · rintro ⟨b', hb', hold⟩
      have hne := ((holds_release sizeofItem_pos).mp hold).2
      omega
  · rw [Function.update_of_ne hptr, h ptr m]
    constructor
    · rintro ⟨b', rfl, hb'⟩
      refine ⟨b', rfl, (holds_release sizeofItem_pos).mpr ⟨hb', ?_⟩⟩
      rintro rfl
      exact hptr rfl
    · rintro ⟨b', rfl, hb'⟩
      exact ⟨b', rfl, ((holds_release sizeofItem_pos).mp hb').1⟩

theorem Account.resize (h : Account held (c :: cs)) (hc : c.used = true) (n : ℕ) :
    Account (Function.update held (height sizeofItem cs + sizeofItem) (some n))
      (⟨n, c.used⟩ :: cs) := by
  refine account_top (c := ⟨n, c.used⟩) (fun ptr hptr m => ?_) hc
  rw [h ptr m]
  constructor
  · rintro ⟨b, rfl, ⟨rfl, -, -⟩ | hb⟩
    · exact absurd rfl hptr
    · exact ⟨b, rfl, hb⟩
  · rintro ⟨b, rfl, hb⟩
    exact ⟨b, rfl, Or.inr hb⟩

/-- A pointer the client holds is that of a block in use. -/
theorem Account.block (h : Account held cs) {ptr : ℕ} (hptr : (held ptr).isSome) :
    ∃ b n, ptr = b + sizeofItem ∧ held ptr = some n ∧ Holds sizeofItem cs b n := by
  obtain ⟨n, hn⟩ := Option.isSome_iff_exists.mp hptr
  obtain ⟨b, hb, hold⟩ := (h ptr n).mp hn
  exact ⟨b, n, hb, hn, hold⟩

end Account

/-! ## The invariant -/

/-- Nothing went wrong, and the client holds the blocks in use of the arena that the pool is. -/
structure Sound (s : Session) : Prop where
  noFault : s.fault = none
  arena : ∃ cs, Represents s.pool cs ∧ Account s.held cs

section Invariant

variable {s : Session}

theorem Sound.init {size : ℕ} (hpos : 0 < size) (hsize : size < 2 ^ 64) (bytes : ℕ → UInt8) :
    Sound (.init size bytes) := by
  refine ⟨rfl, [], ⟨trivial, rfl, rfl, rfl, ?_, hpos, hsize⟩, ?_⟩
  · simp [Settled]
  · intro ptr n
    constructor
    · intro h
      cases h
    · rintro ⟨b, -, hb⟩
      exact hb.elim

/-- What an operation that goes well leaves. -/
theorem Sound.of_ok (h : Sound s) {op : Op} {p : Pool} {answer : Option ℕ} {cs : List Cell}
    (hok : perform s.pool op = .ok (p, answer)) (hrep : Represents p cs)
    (hacc : Account (heldAfter s op answer) cs) : Sound (step s op) := by
  unfold step
  rw [hok]
  exact ⟨h.noFault, cs, hrep, hacc⟩

/-- An allocation hands out a new block on top, or nothing. -/
theorem alloc_sound {p : Pool} {held : ℕ → Option ℕ} {cs : List Cell} (hrep : Represents p cs)
    (hacc : Account held cs) {count : ℕ} (hfit : p.NoWrap p.nextPtr count) :
    ∃ p' answer cs', p.alloc count = .ok (p', answer) ∧ Represents p' cs' ∧
      Account (receive held answer count) cs' := by
  by_cases hroom : sizeT (p.nextPtr + count) < p.cunBufferSize
  · have hlt := hfit.resolve_right (Nat.not_le.mpr hroom)
    rw [sizeT_of_lt hlt] at hroom
    obtain ⟨p', hp', hrep', -⟩ := hrep.alloc hlt hroom
    exact ⟨p', _, _, hp', hrep', hacc.push count⟩
  · exact ⟨p, none, cs, alloc_null (Nat.not_lt.mp hroom), hrep, hacc⟩

theorem Represents.memset {p : Pool} {cs : List Cell} (h : Represents p cs) (ptr count : ℕ) :
    Represents (p.memset ptr count) cs :=
  ⟨h.linked, h.offset, h.last, h.first, h.settled, h.below, h.size⟩

theorem Sound.alloc (h : Sound s) {count : ℕ} (hfit : s.pool.NoWrap s.pool.nextPtr count) :
    Sound (step s (.alloc count)) := by
  obtain ⟨cs, hrep, hacc⟩ := h.arena
  obtain ⟨p', answer, cs', hp', hrep', hacc'⟩ := alloc_sound hrep hacc hfit
  exact h.of_ok hp' hrep' hacc'

theorem Sound.reallocNull (h : Sound s) {count : ℕ} (hfit : s.pool.NoWrap s.pool.nextPtr count) :
    Sound (step s (.realloc none count)) := by
  obtain ⟨cs, hrep, hacc⟩ := h.arena
  obtain ⟨p', answer, cs', hp', hrep', hacc'⟩ := alloc_sound hrep hacc hfit
  refine h.of_ok ?_ hrep' hacc'
  simp [perform, Pool.realloc, hp', Except.map]

/-- `Calloc` counts the product that it asks `Alloc` for. -/
theorem Sound.calloc (h : Sound s) {nmemb size : ℕ}
    (hfit : s.pool.NoWrap s.pool.nextPtr (sizeT (nmemb * size))) :
    Sound (advance s (.calloc nmemb size)) := by
  obtain ⟨cs, hrep, hacc⟩ := h.arena
  obtain ⟨p', answer, cs', hp', hrep', hacc'⟩ := alloc_sound hrep hacc hfit
  have hok : perform s.pool (.calloc nmemb size) =
      .ok (answer.elim p' fun ptr => p'.memset ptr (sizeT (nmemb * size)), answer) := by
    simp only [perform, Pool.calloc, hp']
    cases answer <;> rfl
  unfold advance
  rw [hok]
  refine ⟨h.noFault, cs', ?_, hacc'⟩
  cases answer with
  | none => exact hrep'
  | some ptr => exact hrep'.memset ptr _

theorem Sound.realloc (h : Sound s) {ptr count : ℕ} (hheld : (s.held ptr).isSome)
    (hfit : SizeFits s (.realloc (some ptr) count)) :
    Sound (step s (.realloc (some ptr) count)) := by
  obtain ⟨cs, hrep, hacc⟩ := h.arena
  obtain ⟨b, n, rfl, hn, hb⟩ := hacc.block hheld
  have hend := hrep.in_buffer hb
  have hin : b + sizeofItem < s.pool.cunBufferSize := by omega
  have hle : sizeofItem ≤ b + sizeofItem := Nat.le_add_left ..
  have hback : b + sizeofItem - sizeofItem = b := Nat.add_sub_cancel ..
  by_cases hcount : count = 0
  · subst hcount
    obtain ⟨p', hp', hrep', -⟩ := hrep.deallocCheckedMemory hb
    have hok : perform s.pool (.realloc (some (b + sizeofItem)) 0) = .ok (p', none) := by
      simp [perform, Pool.realloc, hin, hle, hp', Except.map]
    refine h.of_ok hok hrep' ?_
    simp only [heldAfter, ne_eq, not_true_eq_false, false_and, if_false, receive]
    exact hacc.release b
  · have hbody : ∀ r, s.pool.reallocInBuffer (b + sizeofItem) count = .ok r →
        perform s.pool (.realloc (some (b + sizeofItem)) count) = .ok r := by
      intro r hr
      simp [perform, Pool.realloc, hin, hle, hcount, hr, Except.map]
    have hplace : count ≠ n → s.pool.NoWrap (s.pool.reallocPtr (b + sizeofItem)) count := by
      intro hne
      refine (hfit.resolve_left hcount).resolve_left fun heq => hne ?_
      exact (Option.some.inj (hn.symm.trans heq)).symm
    have htopFit : topOf cs = some b → s.pool.NoWrap (b + sizeofItem) count := by
      intro htop
      by_cases heq : count = n
      · have := hrep.size
        exact Or.inl (by omega)
      · have hfit' := hplace heq
        unfold Pool.reallocPtr at hfit'
        rwa [hback, hrep.last, if_pos htop] at hfit'
    rcases hrep.reallocInBuffer hb htopFit with ⟨rfl, hr⟩ | ⟨c, cs', p', rfl, rfl, hr, hrep', -⟩ |
      ⟨htop, hr⟩ | ⟨hne, hbelow, p₁, -, hrep₁, hsize₁, hoff₁, hr⟩
    · refine h.of_ok (hbody _ hr) hrep ?_
      have hsame : Function.update (Function.update s.held (b + sizeofItem) none) (b + sizeofItem)
          (some count) = s.held := by
        rw [Function.update_idem, ← hn, Function.update_eq_self]
      simp only [heldAfter, reduceCtorEq, false_and, and_false, if_false, receive, hsame]
      exact hacc
    · refine h.of_ok (hbody _ hr) hrep' ?_
      simp only [heldAfter, reduceCtorEq, false_and, and_false, if_false, receive,
        Function.update_idem]
      exact hacc.resize (hrep.settled c rfl) count
    · refine h.of_ok (hbody _ hr) hrep ?_
      have hlast : s.pool.pLast = some (b + sizeofItem - sizeofItem) := by
        rw [hback, hrep.last, htop]
      simp only [heldAfter]
      rw [if_pos ⟨hcount, trivial, hlast⟩]
      exact hacc
    · have hnotLast : s.pool.pLast ≠ some (b + sizeofItem - sizeofItem) := by
        rw [hback, hrep.last]
        exact hbelow
      have hfit₁ : p₁.NoWrap p₁.nextPtr count := by
        have hfit' := hplace hne
        unfold Pool.reallocPtr at hfit'
        rw [if_neg hnotLast] at hfit'
        unfold Pool.NoWrap Pool.nextPtr at hfit' ⊢
        rwa [hoff₁, hsize₁]
      obtain ⟨p', answer, cs', hp', hrep', hacc'⟩ := alloc_sound hrep₁ (hacc.release b) hfit₁
      refine h.of_ok (hbody _ (hr.trans hp')) hrep' ?_
      simp only [heldAfter]
      rw [if_neg fun hlast => hnotLast hlast.2.2]
      exact hacc'

theorem Sound.release (h : Sound s) {ptr : ℕ} (hheld : (s.held ptr).isSome) :
    Sound (step s (.dealloc ptr)) := by
  obtain ⟨cs, hrep, hacc⟩ := h.arena
  obtain ⟨b, n, rfl, -, hb⟩ := hacc.block hheld
  have hend := hrep.in_buffer hb
  have hin : b + sizeofItem < s.pool.cunBufferSize := by omega
  obtain ⟨p', hp', hrep', -⟩ := hrep.deallocCheckedMemory hb
  have hok : perform s.pool (.dealloc (b + sizeofItem)) = .ok (p', none) := by
    simp [perform, Pool.dealloc, hin, hp', Except.map]
  exact h.of_ok hok hrep' (hacc.release b)

theorem Sound.store (h : Sound s) {offset : ℕ} {value : UInt8}
    (hin : ∃ ptr count, s.held ptr = some count ∧ ptr ≤ offset ∧ offset < ptr + count) :
    Sound (step s (.store offset value)) := by
  obtain ⟨cs, hrep, hacc⟩ := h.arena
  obtain ⟨ptr, n, hn, hlo, hhi⟩ := hin
  obtain ⟨b, rfl, hb⟩ := (hacc ptr n).mp hn
  have hlinked : Linked (s.pool.store offset value).items cs none :=
    hrep.linked.overwrite_payload hb hlo (by omega)
  exact h.of_ok rfl ⟨hlinked, hrep.offset, hrep.last, hrep.first, hrep.settled, hrep.below,
    hrep.size⟩ hacc

/-- Every operation of a client that passes blocks in use keeps the invariant, if its size does not
wrap. -/
theorem Sound.advance (h : Sound s) {op : Op} (hv : PassesInUse s op) (hfit : SizeFits s op) :
    Sound (MemoryPool.advance s op) := by
  cases op with
  | alloc count => exact h.alloc hfit
  | calloc nmemb size => exact h.calloc hfit
  | realloc ptr count =>
    cases ptr with
    | none => exact h.reallocNull hfit
    | some ptr => exact h.realloc hv hfit
  | dealloc ptr => exact h.release hv
  | store offset value => exact h.store hv

/-- A block in use lies below the end of the pool. -/
theorem Sound.le_offset (h : Sound s) {ptr n : ℕ} (hheld : s.held ptr = some n) :
    sizeofItem ≤ ptr ∧ ptr + n ≤ s.pool.unOffset := by
  obtain ⟨cs, hrep, hacc⟩ := h.arena
  obtain ⟨b, rfl, hb⟩ := (hacc ptr n).mp hheld
  have := hb.le_height
  rw [hrep.offset]
  exact ⟨Nat.le_add_left .., this⟩

/-- Every operation of a correct client keeps the invariant. -/
theorem Sound.step (h : Sound s) {op : Op} (hv : Valid s op) : Sound (MemoryPool.step s op) := by
  cases op with
  | alloc count => exact h.alloc (Or.inl hv)
  | calloc nmemb size =>
    have hfit : s.pool.unOffset + sizeofItem + nmemb * size < 2 ^ 64 := hv
    have hcount : sizeT (nmemb * size) = nmemb * size := sizeT_of_lt (by omega)
    have hnowrap : s.pool.NoWrap s.pool.nextPtr (sizeT (nmemb * size)) := by
      rw [hcount]
      exact Or.inl hfit
    have hsame : inUseAfter s (.calloc nmemb size) = heldAfter s (.calloc nmemb size) := by
      funext answer
      simp only [inUseAfter, heldAfter, hcount]
    have hcalloc := h.calloc hnowrap
    unfold MemoryPool.advance at hcalloc
    rw [hsame] at hcalloc
    exact hcalloc
  | realloc ptr count =>
    cases ptr with
    | none => exact h.reallocNull (Or.inl hv)
    | some ptr =>
      refine h.realloc hv.2 (Or.inr (Or.inr (Or.inl ?_)))
      obtain ⟨n, hn⟩ := Option.isSome_iff_exists.mp hv.2
      have hle := (h.le_offset hn).2
      have hfit : s.pool.unOffset + sizeofItem + count < 2 ^ 64 := hv.1
      unfold Pool.reallocPtr Pool.nextPtr
      split_ifs
      · omega
      · exact hfit
  | dealloc ptr => exact h.release hv
  | store offset value => exact h.store hv

end Invariant

/-! ## The layout -/

section Layout

variable {items : ℕ → Option Item} {cs : List Cell} {next : Option ℕ}

/-- The headers of an arena, from the newest one down. -/
def blocksOf : List Cell → List Block
  | [] => []
  | c :: cs => ⟨height sizeofItem cs, c.count, c.used⟩ :: blocksOf cs

theorem walk_blocksOf (h : Linked items cs next) {rest : List Block}
    (hrest : Walk items (topOf cs) next rest) :
    Walk items none (if cs = [] then next else some 0) ((blocksOf cs).reverse ++ rest) := by
  induction cs generalizing next rest with
  | nil => exact hrest
  | cons c cs ih =>
    obtain ⟨hitem, hlinked⟩ := h
    have hwalk : Walk items (topOf cs) (some (height sizeofItem cs))
        (⟨height sizeofItem cs, c.count, c.used⟩ :: rest) := ⟨rfl, next, hitem, hrest⟩
    have hih := ih hlinked hwalk
    rw [if_neg (by simp), blocksOf, List.reverse_cons, List.append_assoc]
    by_cases hcs : cs = []
    · subst hcs
      exact hih
    · rw [if_neg hcs] at hih
      exact hih

theorem covers_blocksOf {rest : List Block} {stop : ℕ}
    (hrest : Covers (height sizeofItem cs) rest stop) :
    Covers 0 ((blocksOf cs).reverse ++ rest) stop := by
  induction cs generalizing rest with
  | nil => exact hrest
  | cons c cs ih =>
    rw [blocksOf, List.reverse_cons, List.append_assoc]
    exact ih ⟨rfl, hrest⟩

theorem holds_iff_blocksOf {b n : ℕ} :
    Holds sizeofItem cs b n ↔ (⟨b, n, true⟩ : Block) ∈ blocksOf cs := by
  induction cs with
  | nil => exact ⟨fun h => h.elim, fun h => by cases h⟩
  | cons c cs ih =>
    rw [holds_cons, blocksOf, List.mem_cons, ih, Block.mk.injEq]
    constructor
    · rintro (⟨hb, hn, hu⟩ | h)
      · exact Or.inl ⟨hb, hn, hu.symm⟩
      · exact Or.inr h
    · rintro (⟨hb, hn, hu⟩ | h)
      · exact Or.inl ⟨hb, hn, hu.symm⟩
      · exact Or.inr h

theorem stop_le_height {b : Block} (hb : b ∈ blocksOf cs) : b.stop ≤ height sizeofItem cs := by
  induction cs with
  | nil => cases hb
  | cons c cs ih =>
    rcases List.mem_cons.mp hb with rfl | hb
    · exact Nat.le_refl _
    · have := ih hb
      rw [height_cons]
      omega

/-- Two blocks of an arena do not overlap. -/
theorem blocksOf_apart {b b' : Block} (hb : b ∈ blocksOf cs) (hb' : b' ∈ blocksOf cs) :
    b = b' ∨ b.stop ≤ b'.offset ∨ b'.stop ≤ b.offset := by
  induction cs with
  | nil => cases hb
  | cons c cs ih =>
    rcases List.mem_cons.mp hb with rfl | hb
    · rcases List.mem_cons.mp hb' with rfl | hb'
      · exact Or.inl rfl
      · exact Or.inr (Or.inr (stop_le_height hb'))
    · rcases List.mem_cons.mp hb' with rfl | hb'
      · exact Or.inr (Or.inl (stop_le_height hb))
      · exact ih hb hb'

theorem topOf_eq_head : topOf cs = (blocksOf cs).head?.map Block.offset := by
  cases cs <;> rfl

/-- The layout of a pool whose client is correct. -/
theorem Sound.tiled {s : Session} (h : Sound s) : Tiled s := by
  obtain ⟨cs, hrep, hacc⟩ := h.arena
  have hmem : ∀ b, b ∈ (blocksOf cs).reverse ↔ b ∈ blocksOf cs := fun b => List.mem_reverse
  refine ⟨h.noFault, by rw [hrep.offset]; exact hrep.below,
    ⟨(blocksOf cs).reverse, ⟨?_, ?_, ?_, ?_, ?_, ?_, ?_⟩⟩, ?_, ?_⟩
  · have hend : Walk s.pool.items (topOf cs) none [] := rfl
    have hwalk := walk_blocksOf hrep.linked hend
    rw [List.append_nil] at hwalk
    rw [hrep.first]
    exact hwalk
  · have hend : Covers (height sizeofItem cs) [] (height sizeofItem cs) := rfl
    have hcovers := covers_blocksOf hend
    rw [List.append_nil] at hcovers
    rw [hrep.offset]
    exact hcovers
  · rw [hrep.last, List.getLast?_reverse, topOf_eq_head]
  · intro b hb
    rw [List.getLast?_reverse] at hb
    cases cs with
    | nil => cases hb
    | cons c cs =>
      cases hb
      exact ⟨hrep.settled c rfl, hrep.offset.symm⟩
  · intro ptr count
    rw [hacc ptr count]
    constructor
    · rintro ⟨b, rfl, hb⟩
      exact ⟨⟨b, count, true⟩, (hmem _).mpr (holds_iff_blocksOf.mp hb), rfl, rfl, rfl⟩
    · rintro ⟨⟨o, n, u⟩, hb, hu, rfl, rfl⟩
      cases hu
      exact ⟨o, rfl, holds_iff_blocksOf.mpr ((hmem _).mp hb)⟩
  · intro b hb b' hb' hne
    have hapart := blocksOf_apart ((hmem b).mp hb) ((hmem b').mp hb')
    rw [Finset.disjoint_left]
    intro x hx hx'
    simp only [Block.payloadBytes, Block.stop, Finset.mem_Ico] at hx hx' hapart
    rcases hapart with heq | hlt | hlt
    · exact hne heq
    · omega
    · omega
  · intro b hb b' hb'
    have hapart := blocksOf_apart ((hmem b).mp hb) ((hmem b').mp hb')
    rw [Finset.disjoint_left]
    intro x hx hx'
    simp only [Block.payloadBytes, Block.headerBytes, Block.stop, Finset.mem_Ico] at hx hx' hapart
    rcases hapart with rfl | hlt | hlt
    · omega
    · omega
    · omega
  · rw [hrep.first, hrep.offset, height_eq_zero_iff]
    by_cases hcs : cs = []
    · simp [hcs]
    · simp [hcs]
  · rw [hrep.last, hrep.offset, height_eq_zero_iff]
    cases cs with
    | nil => simp [topOf]
    | cons c cs => simp [topOf]

end Layout

/-! ## Reclamation -/

section Reclamation

variable {s : Session}

/-- A pool whose client holds nothing is empty. -/
theorem Sound.reclaimed (h : Sound s) (hnone : ∀ ptr, s.held ptr = none) : Reclaimed s := by
  obtain ⟨cs, hrep, hacc⟩ := h.arena
  have hcs : cs = [] := by
    refine hrep.settled.eq_nil (h := sizeofItem) fun b n hb => ?_
    have hsome := (hacc (b + sizeofItem) n).mpr ⟨b, rfl, hb⟩
    rw [hnone] at hsome
    cases hsome
  subst hcs
  have hoff : s.pool.unOffset = 0 := hrep.offset
  refine ⟨h.noFault, hoff, hrep.first, hrep.last, fun count hroom => ?_⟩
  have hsize := hrep.size
  obtain ⟨p, hp, -⟩ := hrep.alloc (n := count) (by omega) (by omega)
  refine ⟨p, ?_⟩
  rw [hp, height_nil, Nat.zero_add]

/-- The release of a held block is an operation of a correct client, and gives up that block only. -/
theorem Sound.dealloc (h : Sound s) {ptr : ℕ} (hptr : (s.held ptr).isSome) :
    Sound (MemoryPool.step s (.dealloc ptr)) ∧
      (MemoryPool.step s (.dealloc ptr)).held = Function.update s.held ptr none := by
  have hvalid : Valid s (.dealloc ptr) := hptr
  have hsound : Sound (MemoryPool.step s (.dealloc ptr)) := h.step hvalid
  refine ⟨hsound, ?_⟩
  have hno := hsound.noFault
  unfold MemoryPool.step at hno ⊢
  cases hp : perform s.pool (.dealloc ptr) with
  | error f =>
    rw [hp] at hno
    cases hno
  | ok r => rfl

/-- Releasing the held blocks in any order empties the pool. -/
theorem Sound.releases (h : Sound s) {ptrs : List ℕ} (hnodup : ptrs.Nodup)
    (hheld : ∀ ptr, ptr ∈ ptrs ↔ (s.held ptr).isSome) :
    Reclaimed (Runs.final MemoryPool.step s (ptrs.map .dealloc)) := by
  induction ptrs generalizing s with
  | nil =>
    refine h.reclaimed fun ptr => ?_
    have hnot : ¬ (s.held ptr).isSome := fun hp => by
      have := (hheld ptr).mpr hp
      cases this
    exact Option.not_isSome_iff_eq_none.mp hnot
  | cons ptr ptrs ih =>
    obtain ⟨hout, hnodup⟩ := List.nodup_cons.mp hnodup
    obtain ⟨hsound, hafter⟩ := h.dealloc ((hheld ptr).mp (List.mem_cons_self ..))
    refine ih hsound hnodup fun q => ?_
    rw [hafter]
    by_cases hq : q = ptr
    · subst hq
      simp [hout]
    · rw [Function.update_of_ne hq, ← hheld q, List.mem_cons]
      simp [hq]

end Reclamation

/-! ## Main result -/

/-- The pool of a correct client stays tiled, no assertion fails and no scan runs on, and when the
client has released its blocks, in whatever order, the pool is empty and has its full capacity. -/
theorem pool_tiled {size : ℕ} (hpos : 0 < size) (hsize : size < 2 ^ 64) (bytes : ℕ → UInt8)
    {ops : List Op} (h : Runs.Along step Valid (.init size bytes) ops) :
    Runs.Always step Tiled (.init size bytes) ops ∧
      ∀ ptrs : List ℕ, ptrs.Nodup →
        (∀ ptr, ptr ∈ ptrs ↔ ((Runs.final step (.init size bytes) ops).held ptr).isSome) →
        Reclaimed (Runs.final step (.init size bytes) (ops ++ ptrs.map .dealloc)) := by
  have hsound : Runs.Always step Sound (.init size bytes) ops :=
    Runs.always_of_invariant (fun s op hs hv => hs.step hv) (Sound.init hpos hsize bytes) h
  refine ⟨hsound.mono fun s hs => hs.tiled, fun ptrs hnodup hheld => ?_⟩
  rw [Runs.final_append]
  exact hsound.final.releases hnodup hheld

/-- Three blocks; the first two are released below the top, and go away with it. -/
def outOfOrderRun : List Op :=
  [.alloc 8, .calloc 2 4, .realloc none 16, .dealloc 32, .realloc (some 112) 24, .dealloc 72]

theorem pool_tiled_outOfOrderRun :
    Runs.Always step Tiled (.init 256 fun _ => 0) outOfOrderRun ∧
      ∀ ptrs : List ℕ, ptrs.Nodup →
        (∀ ptr, ptr ∈ ptrs ↔
          ((Runs.final step (.init 256 fun _ => 0) outOfOrderRun).held ptr).isSome) →
        Reclaimed (Runs.final step (.init 256 fun _ => 0)
          (outOfOrderRun ++ ptrs.map .dealloc)) := by
  refine pool_tiled (by decide) (by decide) _ ⟨?_, ?_, ?_, rfl, ⟨?_, rfl⟩, rfl, trivial⟩
  · exact (by decide : (0 + 32 + 8 : ℕ) < 2 ^ 64)
  · exact (by decide : (40 + 32 + 8 : ℕ) < 2 ^ 64)
  · exact (by decide : (80 + 32 + 16 : ℕ) < 2 ^ 64)
  · exact (by decide : (128 + 32 + 24 : ℕ) < 2 ^ 64)

end CrashInvestigator.MemoryPool
