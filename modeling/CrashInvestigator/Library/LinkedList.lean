import Mathlib.Data.List.Basic

/-!
# Intrusive linked lists

The nodes of a linked list carry their own links: `next x` and `prev x` are the nodes that the node
`x` points to. Which nodes are meant to form a list is said by a list of nodes; the predicates of
this file say how far the links agree with it. The `prev` of the first node is never constrained.
-/

namespace CrashInvestigator.Library.LinkedList

variable {α : Type*}

/-- Every node points to the one behind it, the last node to none. -/
def Forward (next : α → Option α) : List α → Prop
  | [] => True
  | x :: xs => next x = xs.head? ∧ Forward next xs

/-- Every node but the first points back to the one in front of it. -/
def Backward (prev : α → Option α) : List α → Prop
  | [] => True
  | x :: xs => (∀ y ∈ xs.head?, prev y = some x) ∧ Backward prev xs

/-- Every node points to the one behind it, or to something that is no longer behind it. -/
def Trailing (next : α → Option α) : List α → Prop
  | [] => True
  | x :: xs => (next x = xs.head? ∨ ∃ y ∈ next x, y ∉ x :: xs) ∧ Trailing next xs

/-- No node points back to itself or to a node behind it. -/
def Upward (prev : α → Option α) (l : List α) : Prop :=
  ∀ x y, prev x = some y → x ≠ y ∧ ¬ [x, y].Sublist l

variable {next prev next' prev' : α → Option α} {l l₁ l₂ : List α} {x y : α}

/-! ## Links that change elsewhere -/

theorem Forward.congr (h : Forward next l) (hn : ∀ a ∈ l, next' a = next a) :
    Forward next' l := by
  induction l with
  | nil => trivial
  | cons x xs ih =>
    refine ⟨?_, ih h.2 fun a ha => hn a (List.mem_cons_of_mem _ ha)⟩
    rw [hn x (List.mem_cons_self ..)]
    exact h.1

theorem Backward.congr (h : Backward prev l) (hp : ∀ a ∈ l.tail, prev' a = prev a) :
    Backward prev' l := by
  induction l with
  | nil => trivial
  | cons x xs ih =>
    refine ⟨fun y hy => ?_, ih h.2 fun a ha => hp a (List.mem_of_mem_tail ha)⟩
    rw [hp y (List.mem_of_mem_head? hy)]
    exact h.1 y hy

theorem Trailing.congr (h : Trailing next l) (hn : ∀ a ∈ l, next' a = next a) :
    Trailing next' l := by
  induction l with
  | nil => trivial
  | cons x xs ih =>
    refine ⟨?_, ih h.2 fun a ha => hn a (List.mem_cons_of_mem _ ha)⟩
    rw [hn x (List.mem_cons_self ..)]
    exact h.1

/-! ## Neighbours -/

/-- A link leads further down the list. -/
theorem Forward.mem_tail (h : Forward next l) (hx : x ∈ l) (hxy : next x = some y) :
    y ∈ l.tail := by
  induction l with
  | nil => cases hx
  | cons a l ih =>
    rw [List.tail_cons]
    rcases List.mem_cons.mp hx with rfl | hx
    · rw [h.1] at hxy
      exact List.mem_of_mem_head? hxy
    · exact List.mem_of_mem_tail (ih h.2 hx)

theorem Forward.pair_sublist (h : Forward next l) (hx : x ∈ l) (hxy : next x = some y) :
    [x, y].Sublist l := by
  induction l with
  | nil => cases hx
  | cons a l ih =>
    rcases List.mem_cons.mp hx with rfl | hx
    · rw [h.1] at hxy
      exact (List.singleton_sublist.mpr (List.mem_of_mem_head? hxy)).cons_cons _
    · exact (ih h.2 hx).cons _

/-- The links of two neighbours agree. -/
theorem Forward.prev_eq (h : Forward next l) (hb : Backward prev l) (hx : x ∈ l)
    (hxy : next x = some y) : prev y = some x := by
  induction l with
  | nil => cases hx
  | cons a l ih =>
    rcases List.mem_cons.mp hx with rfl | hx
    · rw [h.1] at hxy
      exact hb.1 y hxy
    · exact ih h.2 hb.2 hx

/-- A node behind the first one is the successor of the node it points back to. -/
theorem Forward.exists_prev (h : Forward next l) (hb : Backward prev l) (hy : y ∈ l.tail) :
    ∃ x ∈ l, next x = some y ∧ prev y = some x := by
  induction l with
  | nil => cases hy
  | cons a l ih =>
    rw [List.tail_cons] at hy
    cases l with
    | nil => cases hy
    | cons b l =>
      rcases List.mem_cons.mp hy with rfl | hy
      · exact ⟨a, List.mem_cons_self .., h.1, hb.1 y rfl⟩
      · obtain ⟨x, hx, hxy⟩ := ih h.2 hb.2 hy
        exact ⟨x, List.mem_cons_of_mem _ hx, hxy⟩

/-- Neighbours split the list. -/
theorem Forward.split (h : Forward next l) (hx : x ∈ l) (hxy : next x = some y) :
    ∃ l₁ l₂, l = l₁ ++ x :: y :: l₂ := by
  induction l with
  | nil => cases hx
  | cons a l ih =>
    rcases List.mem_cons.mp hx with rfl | hx
    · rw [h.1] at hxy
      cases l with
      | nil => cases hxy
      | cons b l =>
        cases hxy
        exact ⟨[], l, rfl⟩
    · obtain ⟨l₁, l₂, rfl⟩ := ih h.2 hx
      exact ⟨a :: l₁, l₂, rfl⟩

/-- A node that is made to point into another list cuts off what was behind it. -/
theorem Forward.redirect {m : List α} (h : Forward next (l₁ ++ x :: l₂))
    (hn : ∀ a ∈ l₁, next' a = next a) (hx : next' x = m.head?) (hm : Forward next' m) :
    Forward next' (l₁ ++ x :: m) := by
  induction l₁ with
  | nil => exact ⟨hx, hm⟩
  | cons a l₁ ih =>
    refine ⟨?_, ih h.2 fun b hb => hn b (List.mem_cons_of_mem _ hb)⟩
    rw [hn a (List.mem_cons_self ..), h.1]
    cases l₁ <;> rfl

/-- No node is its own successor. -/
theorem Forward.ne (h : Forward next l) (hnd : l.Nodup) (hx : x ∈ l) : next x ≠ some x := by
  induction l with
  | nil => cases hx
  | cons a l ih =>
    obtain ⟨hout, hnd⟩ := List.nodup_cons.mp hnd
    rcases List.mem_cons.mp hx with rfl | hx
    · intro hself
      rw [h.1] at hself
      exact hout (List.mem_of_mem_head? hself)
    · exact ih h.2 hnd hx

theorem Forward.suffix (h : Forward next (l₁ ++ l₂)) : Forward next l₂ := by
  induction l₁ with
  | nil => exact h
  | cons a l₁ ih => exact ih h.2

/-- The links decide what is behind the first node. -/
theorem Forward.unique (h : Forward next l₁) (h' : Forward next l₂) (hhead : l₁.head? = l₂.head?) :
    l₁ = l₂ := by
  induction l₁ generalizing l₂ with
  | nil =>
    cases l₂ with
    | nil => rfl
    | cons b l₂ => cases hhead
  | cons a l₁ ih =>
    cases l₂ with
    | nil => cases hhead
    | cons b l₂ =>
      cases hhead
      rw [ih h.2 h'.2 (h.1.symm.trans h'.1)]

/-- A walk that ends meets no node twice. -/
theorem Forward.nodup (h : Forward next l) : l.Nodup := by
  induction l with
  | nil => exact List.nodup_nil
  | cons a l ih =>
    refine List.nodup_cons.mpr ⟨fun hmem => ?_, ih h.2⟩
    obtain ⟨l₁, l₂, hl⟩ := List.append_of_mem hmem
    have hrest := h.2
    rw [hl] at hrest
    have hagain : Forward next (a :: l₂) := hrest.suffix
    have hsame : a :: l = a :: l₂ := h.unique hagain rfl
    have hlength := congrArg List.length hsame
    rw [hl] at hlength
    simp at hlength
    omega

/-! ## Unlinking a node -/

section Unlink

variable [DecidableEq α]

/-- A list without `x` loses nothing. -/
theorem filter_ne_of_notMem (hx : x ∉ l) : l.filter (· ≠ x) = l := by
  refine List.filter_eq_self.mpr fun a ha => ?_
  have hne : a ≠ x := fun hax => hx (hax ▸ ha)
  simpa using hne

/-- The first node once `x` is unlinked. -/
theorem Forward.head?_unlink (h : Forward next l) (hnd : l.Nodup) :
    (l.filter (· ≠ x)).head? = if l.head? = some x then next x else l.head? := by
  cases l with
  | nil => simp
  | cons a l =>
    obtain ⟨hout, -⟩ := List.nodup_cons.mp hnd
    by_cases hax : a = x
    · subst hax
      rw [List.filter_cons_of_neg (by simp), filter_ne_of_notMem hout, List.head?_cons,
        if_pos rfl, h.1]
    · simp [hax]

/-- The nodes that pointed to `x` now point to its successor. -/
theorem Forward.unlink (h : Forward next l) (hnd : l.Nodup)
    (hn : ∀ a ∈ l, a ≠ x → next' a = if next a = some x then next x else next a) :
    Forward next' (l.filter (· ≠ x)) := by
  induction l with
  | nil => trivial
  | cons a l ih =>
    obtain ⟨hout, hnd'⟩ := List.nodup_cons.mp hnd
    have hrest := ih h.2 hnd' fun b hb => hn b (List.mem_cons_of_mem _ hb)
    by_cases hax : a = x
    · simpa [hax] using hrest
    · rw [List.filter_cons_of_pos (by simpa using hax)]
      refine ⟨?_, hrest⟩
      rw [hn a (List.mem_cons_self ..) hax, h.2.head?_unlink hnd', h.1]

/-- The successor of `x` now points back to what `x` pointed back to. -/
theorem Backward.unlink (hb : Backward prev l) (h : Forward next l) (hnd : l.Nodup)
    (hx : ∀ y ∈ l, next x = some y → x ∈ l)
    (hp : ∀ a ∈ l, a ≠ x → prev' a = if next x = some a then prev x else prev a) :
    Backward prev' (l.filter (· ≠ x)) := by
  induction l with
  | nil => trivial
  | cons a l ih =>
    obtain ⟨hout, hnd'⟩ := List.nodup_cons.mp hnd
    by_cases hax : a = x
    · subst hax
      rw [List.filter_cons_of_neg (by simp), filter_ne_of_notMem hout]
      refine hb.2.congr fun b hbt => ?_
      have hbl : b ∈ l := List.mem_of_mem_tail hbt
      have hnot : next a ≠ some b := by
        intro hab
        rw [h.1] at hab
        cases l with
        | nil => cases hab
        | cons c l =>
          cases hab
          exact (List.nodup_cons.mp hnd').1 hbt
      rw [hp b (List.mem_cons_of_mem _ hbl) fun hba => hout (hba ▸ hbl), if_neg hnot]
    · have hxl : ∀ y ∈ l, next x = some y → x ∈ l := fun y hy hxy =>
        (List.mem_cons.mp (hx y (List.mem_cons_of_mem _ hy) hxy)).resolve_left (Ne.symm hax)
      rw [List.filter_cons_of_pos (by simpa using hax)]
      refine ⟨fun y hy => ?_,
        ih hb.2 h.2 hnd' hxl fun b hbl => hp b (List.mem_cons_of_mem _ hbl)⟩
      have hyf := List.mem_filter.mp (List.mem_of_mem_head? hy)
      have hyx : y ≠ x := by simpa using hyf.2
      rw [hp y (List.mem_cons_of_mem _ hyf.1) hyx]
      rw [Option.mem_def, h.2.head?_unlink hnd'] at hy
      by_cases hhead : l.head? = some x
      · -- `x` stood between `a` and `y`
        rw [if_pos hhead] at hy
        rw [if_pos hy]
        exact hb.1 x hhead
      · rw [if_neg hhead] at hy
        have hnot : next x ≠ some y := by
          intro hxy
          have hyt := h.2.mem_tail (hxl y hyf.1 hxy) hxy
          cases l with
          | nil => cases hyt
          | cons c l =>
            cases hy
            exact (List.nodup_cons.mp hnd').1 hyt
        rw [if_neg hnot]
        exact hb.1 y hy

end Unlink

/-! ## Sublists -/

/-- The first node of a list is the first node of each of its sublists that it belongs to. -/
theorem head?_sublist (hnd : l.Nodup) (hl : l₁.Sublist l) (hx : l.head? = some x) (hx₁ : x ∈ l₁) :
    l₁.head? = some x := by
  cases hl with
  | slnil => cases hx
  | cons a hl =>
    cases hx
    exact absurd (hl.subset hx₁) (List.nodup_cons.mp hnd).1
  | cons_cons a hl => exact hx

/-- Links that are not kept up to date stay harmless when nodes go away. -/
theorem Trailing.filter (h : Trailing next l) (p : α → Bool) : Trailing next (l.filter p) := by
  induction l with
  | nil => trivial
  | cons x xs ih =>
    by_cases hpx : p x = true
    · rw [List.filter_cons_of_pos hpx]
      refine ⟨?_, ih h.2⟩
      have hsub : ∀ y, y ∉ x :: xs → y ∉ x :: xs.filter p := by
        intro y hy hmem
        rcases List.mem_cons.mp hmem with rfl | hmem
        · exact hy (List.mem_cons_self ..)
        · exact hy (List.mem_cons_of_mem _ (List.mem_of_mem_filter hmem))
      rcases h.1 with hhead | ⟨y, hy, hout⟩
      · cases xs with
        | nil => exact Or.inl hhead
        | cons z zs =>
          by_cases hpz : p z = true
          · rw [List.filter_cons_of_pos hpz]
            exact Or.inl hhead
          · by_cases hzx : z = x
            · subst hzx
              exact absurd hpx hpz
            · refine Or.inr ⟨z, hhead, fun hmem => ?_⟩
              rcases List.mem_cons.mp hmem with rfl | hmem
              · exact hzx rfl
              · exact hpz (List.of_mem_filter hmem)
      · exact Or.inr ⟨y, hy, hsub y hout⟩
    · rw [List.filter_cons_of_neg hpx]
      exact ih h.2

theorem Upward.sublist (h : Upward prev l) (hl : l₁.Sublist l) : Upward prev l₁ :=
  fun x y hxy => ⟨(h x y hxy).1, fun hsub => (h x y hxy).2 (hsub.trans hl)⟩

/-- What is behind a node is behind every node in front of it. -/
theorem pair_sublist_trans {z : α} (hnd : l.Nodup) (hxy : [x, y].Sublist l)
    (hyz : [y, z].Sublist l) : [x, z].Sublist l := by
  induction l with
  | nil => cases hxy
  | cons a l ih =>
    obtain ⟨hout, hnd⟩ := List.nodup_cons.mp hnd
    cases hyz with
    | cons _ hyz =>
      have hz : z ∈ l := hyz.subset (by simp)
      cases hxy with
      | cons _ hxy => exact (ih hnd hxy hyz).cons a
      | cons_cons _ hxy => exact (List.singleton_sublist.mpr hz).cons_cons _
    | cons_cons _ hyz =>
      -- `y` is the first node, and nothing is in front of it
      have hy : y ∈ l := by
        cases hxy with
        | cons _ hxy => exact hxy.subset (by simp)
        | cons_cons _ hxy => exact hxy.subset (by simp)
      exact absurd hy hout

/-- Backward links of a node that are handed to a node behind it. -/
theorem Upward.handOver (h : Upward prev l) (hnd : l.Nodup)
    (hp : ∀ a b, prev' a = some b → prev a = some b ∨ ∃ x, prev x = some b ∧ [x, a].Sublist l) :
    Upward prev' l := by
  intro a b hab
  rcases hp a b hab with hold | ⟨x, hx, hxa⟩
  · exact h a b hold
  · constructor
    · rintro rfl
      exact (h x a hx).2 hxa
    · intro hsub
      exact (h x b hx).2 (pair_sublist_trans hnd hxa hsub)

/-- A new node in front may be pointed back to by every node. -/
theorem Upward.push (h : Upward prev l) (hx : x ∉ l) (hself : prev' x = none)
    (hp : ∀ a, a ≠ x → prev' a = some x ∨ prev' a = prev a) : Upward prev' (x :: l) := by
  intro a b hab
  have hax : a ≠ x := by
    rintro rfl
    rw [hself] at hab
    cases hab
  have hdrop : [a, b].Sublist (x :: l) → [a, b].Sublist l := by
    intro hsub
    cases hsub with
    | cons _ hsub => exact hsub
    | cons_cons _ _ => exact absurd rfl hax
  rcases hp a hax with hnew | hold
  · rw [hnew] at hab
    cases hab
    exact ⟨hax, fun hsub => hx ((hdrop hsub).subset (by simp))⟩
  · rw [hold] at hab
    exact ⟨(h a b hab).1, fun hsub => (h a b hab).2 (hdrop hsub)⟩

end CrashInvestigator.Library.LinkedList
