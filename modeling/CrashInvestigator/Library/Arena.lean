import Mathlib.Data.List.Basic
import Mathlib.Tactic.Tauto

/-!
# Arenas with deferred release

An arena hands out blocks from the end of what is in use, each with `h` bytes of overhead in front.
A block that is released below the top is only marked; the top goes away at once, together with the
marked blocks right below it. An arena is the list of its blocks, the newest one first, and a block
is named by the position at which it starts.
-/

namespace CrashInvestigator.Library

/-- A block of an arena. -/
structure Cell where
  count : ℕ
  used : Bool
  deriving DecidableEq, Repr

namespace Arena

variable (h : ℕ)

/-- The end of the newest block. -/
def height : List Cell → ℕ
  | [] => 0
  | c :: cs => height cs + h + c.count

/-- A block of size `n` that is in use starts at `b`. -/
def Holds : List Cell → ℕ → ℕ → Prop
  | [], _, _ => False
  | c :: cs, b, n => (b = height h cs ∧ n = c.count ∧ c.used = true) ∨ Holds cs b n

/-- A block starts at `b`, in use or marked. -/
def Starts : List Cell → ℕ → Prop
  | [], _ => False
  | _ :: cs, b => b = height h cs ∨ Starts cs b

/-- The block at `b` is marked. -/
def mark (b : ℕ) : List Cell → List Cell
  | [] => []
  | c :: cs => if height h cs = b then { c with used := false } :: cs else c :: mark b cs

/-- Marked blocks on top go away. -/
def collapse : List Cell → List Cell
  | [] => []
  | c :: cs => if c.used then c :: cs else collapse cs

/-- The release of the block at `b`. -/
def release (b : ℕ) (cs : List Cell) : List Cell := collapse (mark h b cs)

/-- The top is in use. -/
def Settled (cs : List Cell) : Prop := ∀ c ∈ cs.head?, c.used = true

variable {h : ℕ} {cs : List Cell} {c : Cell} {b b' n n' : ℕ}

@[simp] theorem height_nil : height h [] = 0 := rfl

@[simp] theorem height_cons : height h (c :: cs) = height h cs + h + c.count := rfl

theorem holds_cons : Holds h (c :: cs) b n ↔
    (b = height h cs ∧ n = c.count ∧ c.used = true) ∨ Holds h cs b n := Iff.rfl

@[simp] theorem collapse_cons_used (hc : c.used = true) : collapse (c :: cs) = c :: cs := by
  simp [collapse, hc]

@[simp] theorem collapse_cons_unused (hc : c.used = false) :
    collapse (c :: cs) = collapse cs := by
  simp [collapse, hc]

/-- A block lies below the end of the newest one. -/
theorem Holds.le_height (hb : Holds h cs b n) : b + h + n ≤ height h cs := by
  induction cs with
  | nil => exact hb.elim
  | cons c cs ih =>
    rcases hb with ⟨rfl, rfl, -⟩ | hb
    · exact Nat.le_refl _
    · have := ih hb
      rw [height_cons]
      omega

theorem Holds.starts (hb : Holds h cs b n) : Starts h cs b := by
  induction cs with
  | nil => exact hb.elim
  | cons c cs ih =>
    rcases hb with ⟨rfl, -, -⟩ | hb
    · exact Or.inl rfl
    · exact Or.inr (ih hb)

theorem Starts.le_height (hb : Starts h cs b) : b + h ≤ height h cs := by
  induction cs with
  | nil => exact hb.elim
  | cons c cs ih =>
    rw [height_cons]
    rcases hb with rfl | hb
    · omega
    · have := ih hb
      omega

/-- The payload of a block that is in use contains nothing of an overhead. -/
theorem Holds.apart (hb : Holds h cs b n) (hs : Starts h cs b') : b' ≤ b ∨ b + h + n ≤ b' := by
  induction cs with
  | nil => exact hb.elim
  | cons c cs ih =>
    rcases hb with ⟨rfl, rfl, -⟩ | hb
    · rcases hs with rfl | hs
      · exact Or.inl (Nat.le_refl _)
      · have := hs.le_height
        exact Or.inl (by omega)
    · rcases hs with rfl | hs
      · exact Or.inr hb.le_height
      · exact ih hb hs

/-- A block that starts below another one ends below it, its overhead at least. -/
theorem Starts.apart (hs : Starts h cs b) (hs' : Starts h cs b') (hlt : b < b') : b + h ≤ b' := by
  induction cs with
  | nil => exact hs.elim
  | cons c cs ih =>
    rcases hs with rfl | hs
    · rcases hs' with rfl | hs'
      · omega
      · have := hs'.le_height
        omega
    · rcases hs' with rfl | hs'
      · exact hs.le_height
      · exact ih hs hs'

/-- There is one block at a position, since the overhead is not zero. -/
theorem Holds.unique (hh : 0 < h) (hb : Holds h cs b n) (hb' : Holds h cs b n') : n = n' := by
  induction cs with
  | nil => exact hb.elim
  | cons c cs ih =>
    rcases hb with ⟨rfl, rfl, -⟩ | hb
    · rcases hb' with ⟨-, rfl, -⟩ | hb'
      · rfl
      · have := hb'.le_height
        omega
    · rcases hb' with ⟨rfl, -, -⟩ | hb'
      · have := hb.le_height
        omega
      · exact ih hb hb'

@[simp] theorem height_mark : height h (mark h b cs) = height h cs := by
  induction cs with
  | nil => rfl
  | cons c cs ih =>
    unfold mark
    split_ifs
    · rfl
    · rw [height_cons, height_cons, ih]

/-- Marking gives up one block and no other. -/
theorem holds_mark (hh : 0 < h) : Holds h (mark h b cs) b' n ↔ Holds h cs b' n ∧ b' ≠ b := by
  induction cs with
  | nil => exact ⟨fun hf => hf.elim, fun hf => hf.1.elim⟩
  | cons c cs ih =>
    unfold mark
    split_ifs with htop
    · subst htop
      constructor
      · rintro (⟨-, -, hu⟩ | hb)
        · cases hu
        · have := hb.le_height
          exact ⟨Or.inr hb, by omega⟩
      · rintro ⟨⟨rfl, -, -⟩ | hb, hne⟩
        · exact absurd rfl hne
        · exact Or.inr hb
    · rw [holds_cons, holds_cons, ih, height_mark]
      constructor
      · rintro (⟨rfl, hn, hu⟩ | ⟨hb, hne⟩)
        · exact ⟨Or.inl ⟨rfl, hn, hu⟩, htop⟩
        · exact ⟨Or.inr hb, hne⟩
      · rintro ⟨⟨rfl, hn, hu⟩ | hb, hne⟩
        · exact Or.inl ⟨rfl, hn, hu⟩
        · exact Or.inr ⟨hb, hne⟩

@[simp] theorem holds_collapse : Holds h (collapse cs) b n ↔ Holds h cs b n := by
  induction cs with
  | nil => rfl
  | cons c cs ih =>
    by_cases hc : c.used = true
    · rw [collapse_cons_used hc]
    · have hc' : c.used = false := by simpa using hc
      rw [collapse_cons_unused hc', ih, holds_cons]
      simp [hc']

/-- A release gives up one block and no other. -/
theorem holds_release (hh : 0 < h) :
    Holds h (release h b cs) b' n ↔ Holds h cs b' n ∧ b' ≠ b := by
  unfold release
  rw [holds_collapse, holds_mark hh]

/-- A release below the top only marks. -/
theorem release_below (hs : Settled (c :: cs)) (hne : height h cs ≠ b) :
    release h b (c :: cs) = mark h b (c :: cs) := by
  have hc : c.used = true := hs c rfl
  unfold release mark
  rw [if_neg hne, collapse_cons_used hc]

theorem release_top : release h (height h cs) (c :: cs) = collapse cs := by
  unfold release mark
  rw [if_pos rfl]
  exact collapse_cons_unused rfl

/-- A settled arena in which nothing is held is empty. -/
theorem Settled.eq_nil (hs : Settled cs) (hnone : ∀ b n, ¬ Holds h cs b n) : cs = [] := by
  cases cs with
  | nil => rfl
  | cons c cs => exact absurd (Or.inl ⟨rfl, rfl, hs c rfl⟩) (hnone (height h cs) c.count)

/-- Every block takes its overhead at least. -/
theorem length_mul_le : cs.length * h ≤ height h cs := by
  induction cs with
  | nil => simp
  | cons c cs ih =>
    rw [List.length_cons, Nat.succ_mul, height_cons]
    omega

end Arena

end CrashInvestigator.Library
