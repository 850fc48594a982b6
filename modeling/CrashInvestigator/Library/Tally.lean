import CrashInvestigator.Library.Entries

/-!
# Tables of counters

A table of counters tallies a family of objects by their content: its keys stand for contents, no two
for the same one, and the counter of a content is the number of the objects that have it, with no
entry where that number is zero. The four ways a client changes such a table (a first object, one
more, one less, the last one gone) each keep the tally of the changed family.
-/

namespace CrashInvestigator.Library

variable {κ α : Type*} [DecidableEq α]

/-- The test of the keys that stand for `s`. -/
def standsFor (content : κ → α) (s : α) : κ → Bool := fun k => decide (content k = s)

/-- The table `T` counts `count s` objects of each content `s`. -/
structure Tally (content : κ → α) (T : List (κ × ℕ)) (count : α → ℕ) : Prop where
  unique : ∀ s, Entries.AtMostOne (standsFor content s) T
  positive : ∀ e ∈ T, 0 < e.2
  balance : ∀ s, (Entries.lookup (standsFor content s) T).getD 0 = count s

namespace Tally

variable {content content' : κ → α} {T : List (κ × ℕ)} {count count' : α → ℕ} {k : κ} {s : α}

@[simp] theorem standsFor_eq_true : standsFor content s k = true ↔ content k = s := by
  simp [standsFor]

theorem standsFor_disjoint {u : α} (h : u ≠ s) (k : κ) (hk : standsFor content u k = true) :
    standsFor content s k = false := by
  rw [standsFor_eq_true] at hk
  simp [standsFor, hk, h]

theorem empty : Tally content [] (fun _ => 0) := by
  refine ⟨?_, ?_, ?_⟩
  · intro s
    simp [Entries.AtMostOne]
  · intro e he
    cases he
  · intro s
    rfl

theorem count_of_find (h : Tally content T count) {e : κ × ℕ}
    (hf : Entries.findEntry (standsFor content s) T = some e) : count s = e.2 := by
  have hbal := h.balance s
  simp only [Entries.lookup, hf, Option.map_some, Option.getD_some] at hbal
  exact hbal.symm

theorem count_of_absent (h : Tally content T count)
    (hf : Entries.findEntry (standsFor content s) T = none) : count s = 0 := by
  have hbal := h.balance s
  simp only [Entries.lookup, hf, Option.map_none, Option.getD_none] at hbal
  exact hbal.symm

/-- A content with an object has an entry. -/
theorem find_isSome (h : Tally content T count) (hs : 0 < count s) :
    (Entries.findEntry (standsFor content s) T).isSome := by
  cases hf : Entries.findEntry (standsFor content s) T with
  | none =>
    have := h.count_of_absent hf
    omega
  | some e => rfl

/-- The table shows the count of every content and has no entry for a count of zero. -/
theorem exact (h : Tally content T count) (s : α) :
    Entries.lookup (standsFor content s) T = if count s = 0 then none else some (count s) := by
  cases hf : Entries.findEntry (standsFor content s) T with
  | none => simp [Entries.lookup, hf, h.count_of_absent hf]
  | some e =>
    have hpos := h.positive e (Entries.findEntry_mem hf)
    have hne : e.2 ≠ 0 := by omega
    simp [Entries.lookup, hf, h.count_of_find hf, hne]

/-- A tally depends on the content of its keys only. -/
theorem congr (h : Tally content T count) (hkeys : ∀ e ∈ T, content' e.1 = content e.1)
    (hcount : ∀ s, count' s = count s) : Tally content' T count' := by
  have htest : ∀ s, ∀ e ∈ T, standsFor content' s e.1 = standsFor content s e.1 := by
    intro s e he
    simp [standsFor, hkeys e he]
  refine ⟨?_, h.positive, ?_⟩
  · intro s
    exact (h.unique s).congr (htest s)
  · intro s
    have hfind : Entries.findEntry (standsFor content' s) T =
        Entries.findEntry (standsFor content s) T := Entries.findEntry_congr (htest s)
    rw [Entries.lookup, hfind, hcount s]
    exact h.balance s

/-- The first object of a content gets a new entry. -/
theorem cons (h : Tally content T count)
    (hf : Entries.findEntry (standsFor content (content k)) T = none)
    (hcount : ∀ u, count' u = if u = content k then 1 else count u) :
    Tally content ((k, 1) :: T) count' := by
  have hnone : Entries.lookup (standsFor content (content k)) T = none := by
    simp [Entries.lookup, hf]
  refine ⟨?_, ?_, ?_⟩
  · intro u
    refine (h.unique u).cons ?_
    intro hu
    rw [standsFor_eq_true] at hu
    rw [← hu]
    exact hnone
  · intro e he
    rcases List.mem_cons.mp he with rfl | he
    · exact Nat.one_pos
    · exact h.positive e he
  · intro u
    rw [Entries.lookup_cons, hcount u]
    by_cases hu : u = content k
    · simp [hu, standsFor]
    · have hu' : ¬ standsFor content u k = true := by
        rw [standsFor_eq_true]
        exact fun hk => hu hk.symm
      simp only [hu', hu, if_false]
      exact h.balance u

/-- A counter that is overwritten counts `n` objects of its content. -/
theorem set (h : Tally content T count) {e : κ × ℕ} {n : ℕ}
    (hf : Entries.findEntry (standsFor content s) T = some e) (hn : 0 < n)
    (hcount : ∀ u, count' u = if u = s then n else count u) :
    Tally content (Entries.setFirst (standsFor content s) n T) count' := by
  refine ⟨?_, ?_, ?_⟩
  · intro u
    exact (h.unique u).setFirst
  · intro x hx
    rcases Entries.mem_setFirst hx with hx | ⟨hv, -, -⟩
    · exact h.positive x hx
    · omega
  · intro u
    rw [hcount u]
    by_cases hu : u = s
    · have hsome : (Entries.lookup (standsFor content s) T).isSome := by simp [Entries.lookup, hf]
      rw [hu, Entries.lookup_setFirst_self hsome]
      simp
    · rw [Entries.lookup_setFirst_of_disjoint (standsFor_disjoint hu), if_neg hu]
      exact h.balance u

/-- The last object of a content takes the entry with it. -/
theorem remove (h : Tally content T count)
    (hcount : ∀ u, count' u = if u = s then 0 else count u) :
    Tally content (Entries.removeFirst (standsFor content s) T) count' := by
  refine ⟨?_, ?_, ?_⟩
  · intro u
    exact (h.unique u).removeFirst
  · intro x hx
    exact h.positive x (Entries.mem_of_mem_removeFirst hx)
  · intro u
    rw [hcount u]
    by_cases hu : u = s
    · rw [hu, (h.unique s).lookup_removeFirst_self]
      simp
    · rw [Entries.lookup_removeFirst_of_disjoint (standsFor_disjoint hu), if_neg hu]
      exact h.balance u

end Tally

end CrashInvestigator.Library
