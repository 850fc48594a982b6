import Mathlib.Data.List.Basic

/-!
# Texts of titled blocks

A block is a title on a line of its own, followed by lines that begin with a mark. A text of blocks can
be read back when no line holds the end of a line and no title begins with the mark. Characters are those
of any alphabet.
-/

namespace CrashInvestigator.Library.Lines

/-! ## Words -/

/-- A word that is ended by a character it does not hold is determined by what begins with it. -/
theorem word_injective {α : Type*} {stop : α} {w w' r r' : List α} (hw : stop ∉ w) (hw' : stop ∉ w')
    (h : w ++ stop :: r = w' ++ stop :: r') : w = w' ∧ r = r' := by
  induction w generalizing w' with
  | nil =>
    cases w' with
    | nil => exact ⟨rfl, List.tail_eq_of_cons_eq h⟩
    | cons c w' =>
      have hc : stop = c := List.head_eq_of_cons_eq h
      exact absurd (hc ▸ List.mem_cons_self) hw'
  | cons d w ih =>
    cases w' with
    | nil =>
      have hd : d = stop := List.head_eq_of_cons_eq h
      exact absurd (hd ▸ List.mem_cons_self) hw
    | cons c w' =>
      have hcd : d = c := List.head_eq_of_cons_eq h
      obtain ⟨hww, hr⟩ := ih (fun hm => hw (List.mem_cons_of_mem _ hm))
        (fun hm => hw' (List.mem_cons_of_mem _ hm)) (List.tail_eq_of_cons_eq h)
      exact ⟨by rw [hcd, hww], hr⟩

/-! ## Blocks -/

variable {α : Type*} [DecidableEq α]

/-- A title and the lines under it, without their marks. -/
structure Block (α : Type*) where
  title : List α
  body : List (List α)

variable (mark eol : α)

def Block.text (b : Block α) : List α :=
  b.title ++ eol :: b.body.flatMap fun l => mark :: (l ++ [eol])

def text (bs : List (Block α)) : List α := bs.flatMap (Block.text mark eol)

/-- The lines of a text, up to its last end of a line. -/
def lines (s : List α) : List (List α) := (s.splitOn eol).dropLast

/-- Lines with a mark belong to the last title before them. The first part of the result are those that
come before every title. -/
def gather : List (List α) → List (List α) × List (Block α)
  | [] => ([], [])
  | l :: ls =>
    if l.head? = some mark then (l.tail :: (gather ls).1, (gather ls).2)
    else ([], ⟨l, (gather ls).1⟩ :: (gather ls).2)

def read (s : List α) : List (Block α) := (gather mark (lines eol s)).2

/-- The block can be told from its neighbours. -/
structure Block.Readable (b : Block α) : Prop where
  title : eol ∉ b.title
  unmarked : b.title.head? ≠ some mark
  body : ∀ l ∈ b.body, eol ∉ l

variable {mark eol} {s l : List α} {b : Block α} {bs : List (Block α)}

@[simp] theorem lines_nil : lines eol ([] : List α) = [] := rfl

theorem lines_cons (hl : eol ∉ l) (s : List α) : lines eol (l ++ eol :: s) = l :: lines eol s := by
  have hsplit : (l ++ eol :: s).splitOn eol = l :: s.splitOn eol := by
    rw [List.splitOn_append_cons_of_beq l s (beq_self_eq_true eol), List.splitOn_eq_singleton hl]
    rfl
  unfold lines
  rw [hsplit, List.dropLast_cons_of_ne_nil (List.splitOn_ne_nil eol s)]

theorem lines_body (hne : mark ≠ eol) {ls : List (List α)} (hls : ∀ l ∈ ls, eol ∉ l) (s : List α) :
    lines eol ((ls.flatMap fun l => mark :: (l ++ [eol])) ++ s) =
      ls.map (mark :: ·) ++ lines eol s := by
  induction ls with
  | nil => rfl
  | cons l ls ih =>
    have hl : eol ∉ mark :: l := by
      rw [List.mem_cons, not_or]
      exact ⟨hne.symm, hls l List.mem_cons_self⟩
    have hassoc : ((l :: ls).flatMap fun l => mark :: (l ++ [eol])) ++ s =
        (mark :: l) ++ eol :: ((ls.flatMap fun l => mark :: (l ++ [eol])) ++ s) := by
      simp
    rw [hassoc, lines_cons hl, ih fun l' hl' => hls l' (List.mem_cons_of_mem _ hl')]
    rfl

theorem lines_block (hne : mark ≠ eol) (hb : b.Readable mark eol) (s : List α) :
    lines eol (b.text mark eol ++ s) = b.title :: (b.body.map (mark :: ·) ++ lines eol s) := by
  have hassoc : b.text mark eol ++ s =
      b.title ++ eol :: ((b.body.flatMap fun l => mark :: (l ++ [eol])) ++ s) := by
    simp [Block.text]
  rw [hassoc, lines_cons hb.title, lines_body hne hb.body]

theorem gather_body (ls ls' : List (List α)) :
    gather mark (ls.map (mark :: ·) ++ ls') =
      (ls ++ (gather mark ls').1, (gather mark ls').2) := by
  induction ls with
  | nil => rfl
  | cons l ls ih =>
    show gather mark ((mark :: l) :: (ls.map (mark :: ·) ++ ls')) = _
    have hmark : (mark :: l).head? = some mark := rfl
    rw [gather, ih, if_pos hmark]
    rfl

theorem gather_text (hne : mark ≠ eol) (hbs : ∀ b ∈ bs, b.Readable mark eol) :
    gather mark (lines eol (text mark eol bs)) = ([], bs) := by
  induction bs with
  | nil => rfl
  | cons b bs ih =>
    have hb := hbs b List.mem_cons_self
    have hrest := ih fun b' hb' => hbs b' (List.mem_cons_of_mem _ hb')
    show gather mark (lines eol (b.text mark eol ++ text mark eol bs)) = _
    rw [lines_block hne hb, gather, if_neg hb.unmarked, gather_body, hrest, List.append_nil]

/-- Reading a text gives its blocks. -/
theorem read_text (hne : mark ≠ eol) (hbs : ∀ b ∈ bs, b.Readable mark eol) :
    read mark eol (text mark eol bs) = bs := by
  unfold read
  rw [gather_text hne hbs]

/-- The text determines its blocks. -/
theorem text_injective (hne : mark ≠ eol) {bs' : List (Block α)}
    (hbs : ∀ b ∈ bs, b.Readable mark eol) (hbs' : ∀ b ∈ bs', b.Readable mark eol)
    (h : text mark eol bs = text mark eol bs') : bs = bs' := by
  rw [← read_text hne hbs, h, read_text hne hbs']

end CrashInvestigator.Library.Lines
