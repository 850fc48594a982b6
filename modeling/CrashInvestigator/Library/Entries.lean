import Mathlib.Algebra.BigOperators.Group.List.Basic
import Mathlib.Data.List.Basic
import Mathlib.Data.List.Count
import Mathlib.Data.Set.Card
import Mathlib.Tactic.Abel
import Mathlib.Tactic.Tauto

/-!
# Entry lists searched with a Boolean test

A container of key/value entries that is searched with a test on keys: the first entry whose key
meets the test is found, overwritten or removed. Inserting puts a new entry in front. No law is
assumed of the tests; the lemmas ask for what they need (disjoint tests, a test met at most once).
`countP` over the entries is what the counting arguments of the clients use.
-/

namespace CrashInvestigator.Library.Entries

variable {κ ν : Type*}

/-- The first entry whose key meets `q`. -/
def findEntry (q : κ → Bool) (l : List (κ × ν)) : Option (κ × ν) := l.find? fun e => q e.1

/-- The value of the first entry whose key meets `q`. -/
def lookup (q : κ → Bool) (l : List (κ × ν)) : Option ν := (findEntry q l).map Prod.snd

/-- Overwrite the value of the first entry whose key meets `q`. -/
def setFirst (q : κ → Bool) (v : ν) : List (κ × ν) → List (κ × ν)
  | [] => []
  | e :: l => if q e.1 then (e.1, v) :: l else e :: setFirst q v l

/-- Remove the first entry whose key meets `q`. -/
def removeFirst (q : κ → Bool) : List (κ × ν) → List (κ × ν)
  | [] => []
  | e :: l => if q e.1 then l else e :: removeFirst q l

variable {q q' : κ → Bool} {k : κ} {v : ν} {e : κ × ν} {l : List (κ × ν)}

@[simp] theorem lookup_nil : lookup q ([] : List (κ × ν)) = none := rfl

@[simp] theorem setFirst_nil : setFirst q v ([] : List (κ × ν)) = [] := rfl

@[simp] theorem removeFirst_nil : removeFirst q ([] : List (κ × ν)) = [] := rfl

theorem lookup_cons (q : κ → Bool) (e : κ × ν) (l : List (κ × ν)) :
    lookup q (e :: l) = if q e.1 then some e.2 else lookup q l := by
  by_cases h : q e.1 <;> simp [lookup, findEntry, h]

theorem setFirst_cons_pos (h : q e.1 = true) : setFirst q v (e :: l) = (e.1, v) :: l := by
  simp [setFirst, h]

theorem setFirst_cons_neg (h : q e.1 = false) : setFirst q v (e :: l) = e :: setFirst q v l := by
  simp [setFirst, h]

theorem removeFirst_cons_pos (h : q e.1 = true) : removeFirst q (e :: l) = l := by
  simp [removeFirst, h]

theorem removeFirst_cons_neg (h : q e.1 = false) :
    removeFirst q (e :: l) = e :: removeFirst q l := by
  simp [removeFirst, h]

theorem findEntry_none_iff : findEntry q l = none ↔ ∀ e ∈ l, q e.1 = false := by
  simp [findEntry]

theorem lookup_none_iff : lookup q l = none ↔ ∀ e ∈ l, q e.1 = false := by
  simp [lookup, findEntry_none_iff]

theorem findEntry_mem (h : findEntry q l = some e) : e ∈ l := List.mem_of_find?_eq_some h

theorem findEntry_test (h : findEntry q l = some e) : q e.1 = true := by
  have := List.find?_some h
  simpa using this

/-- Tests that agree on the keys of the list find the same entry. -/
theorem findEntry_congr (h : ∀ e ∈ l, q e.1 = q' e.1) : findEntry q l = findEntry q' l := by
  induction l with
  | nil => rfl
  | cons a l ih =>
    have ha := h a (List.mem_cons_self ..)
    have hl := ih fun e he => h e (List.mem_cons_of_mem _ he)
    simp only [findEntry, List.find?_cons] at hl ⊢
    rw [ha, hl]

theorem lookup_eq_some_iff : lookup q l = some v ↔ ∃ k, findEntry q l = some (k, v) := by
  simp [lookup]

/-- A found value comes from an entry of the list. -/
theorem lookup_mem (h : lookup q l = some v) : ∃ k, (k, v) ∈ l ∧ q k = true := by
  obtain ⟨k, hk⟩ := lookup_eq_some_iff.mp h
  exact ⟨k, findEntry_mem hk, findEntry_test hk⟩

/-- The first entry that meets the test splits the list. -/
theorem findEntry_split (h : findEntry q l = some e) :
    ∃ l₁ l₂, l = l₁ ++ e :: l₂ ∧ (∀ x ∈ l₁, q x.1 = false) ∧ q e.1 = true := by
  induction l with
  | nil => simp [findEntry] at h
  | cons a l ih =>
    by_cases ha : q a.1
    · have hae : a = e := by simpa [findEntry, ha] using h
      subst hae
      exact ⟨[], l, rfl, by simp, ha⟩
    · have hl : findEntry q l = some e := by simpa [findEntry, ha] using h
      obtain ⟨l₁, l₂, rfl, h₁, he⟩ := ih hl
      refine ⟨a :: l₁, l₂, rfl, ?_, he⟩
      intro x hx
      rcases List.mem_cons.mp hx with rfl | hx
      · simpa using ha
      · exact h₁ x hx

theorem setFirst_split {l₁ l₂ : List (κ × ν)} (h₁ : ∀ x ∈ l₁, q x.1 = false) (he : q e.1 = true) :
    setFirst q v (l₁ ++ e :: l₂) = l₁ ++ (e.1, v) :: l₂ := by
  induction l₁ with
  | nil => exact setFirst_cons_pos he
  | cons a l₁ ih =>
    rw [List.cons_append, setFirst_cons_neg (h₁ a (List.mem_cons_self ..)),
      ih fun x hx => h₁ x (List.mem_cons_of_mem _ hx)]
    rfl

theorem removeFirst_split {l₁ l₂ : List (κ × ν)} (h₁ : ∀ x ∈ l₁, q x.1 = false)
    (he : q e.1 = true) : removeFirst q (l₁ ++ e :: l₂) = l₁ ++ l₂ := by
  induction l₁ with
  | nil => exact removeFirst_cons_pos he
  | cons a l₁ ih =>
    rw [List.cons_append, removeFirst_cons_neg (h₁ a (List.mem_cons_self ..)),
      ih fun x hx => h₁ x (List.mem_cons_of_mem _ hx)]
    rfl

/-- Nothing is overwritten or removed if no key meets the test. -/
theorem setFirst_of_none (h : ∀ e ∈ l, q e.1 = false) : setFirst q v l = l := by
  induction l with
  | nil => rfl
  | cons a l ih =>
    rw [setFirst_cons_neg (h a (List.mem_cons_self ..)),
      ih fun x hx => h x (List.mem_cons_of_mem _ hx)]

theorem removeFirst_of_none (h : ∀ e ∈ l, q e.1 = false) : removeFirst q l = l := by
  induction l with
  | nil => rfl
  | cons a l ih =>
    rw [removeFirst_cons_neg (h a (List.mem_cons_self ..)),
      ih fun x hx => h x (List.mem_cons_of_mem _ hx)]

/-! ## Lookups after an update -/

theorem lookup_setFirst_self (h : (lookup q l).isSome) : lookup q (setFirst q v l) = some v := by
  induction l with
  | nil => simp at h
  | cons a l ih =>
    by_cases ha : q a.1
    · rw [setFirst_cons_pos ha, lookup_cons, if_pos ha]
    · have ha' : q a.1 = false := by simpa using ha
      rw [setFirst_cons_neg ha', lookup_cons, if_neg ha]
      rw [lookup_cons, if_neg ha] at h
      exact ih h

theorem lookup_setFirst_of_disjoint (h : ∀ k, q k = true → q' k = false) :
    lookup q (setFirst q' v l) = lookup q l := by
  induction l with
  | nil => rfl
  | cons a l ih =>
    by_cases ha : q' a.1
    · have hq : ¬ q a.1 = true := fun hq => by simp [h _ hq] at ha
      rw [setFirst_cons_pos ha, lookup_cons, lookup_cons, if_neg hq, if_neg hq]
    · rw [setFirst_cons_neg (by simpa using ha), lookup_cons, lookup_cons, ih]

theorem lookup_removeFirst_of_disjoint (h : ∀ k, q k = true → q' k = false) :
    lookup q (removeFirst q' l) = lookup q l := by
  induction l with
  | nil => rfl
  | cons a l ih =>
    by_cases ha : q' a.1
    · have hq : ¬ q a.1 = true := fun hq => by simp [h _ hq] at ha
      rw [removeFirst_cons_pos ha, lookup_cons, if_neg hq]
    · rw [removeFirst_cons_neg (by simpa using ha), lookup_cons, lookup_cons, ih]

/-! ## Members after an update -/

theorem mem_setFirst (h : e ∈ setFirst q v l) :
    e ∈ l ∨ (e.2 = v ∧ q e.1 = true ∧ ∃ w, (e.1, w) ∈ l) := by
  induction l with
  | nil => simp at h
  | cons a l ih =>
    by_cases ha : q a.1
    · rw [setFirst_cons_pos ha] at h
      rcases List.mem_cons.mp h with rfl | h
      · exact Or.inr ⟨rfl, ha, a.2, List.mem_cons_self ..⟩
      · exact Or.inl (List.mem_cons_of_mem _ h)
    · rw [setFirst_cons_neg (by simpa using ha)] at h
      rcases List.mem_cons.mp h with rfl | h
      · exact Or.inl (List.mem_cons_self ..)
      · rcases ih h with h | ⟨h1, h2, w, hw⟩
        · exact Or.inl (List.mem_cons_of_mem _ h)
        · exact Or.inr ⟨h1, h2, w, List.mem_cons_of_mem _ hw⟩

theorem mem_of_mem_removeFirst (h : e ∈ removeFirst q l) : e ∈ l := by
  induction l with
  | nil => simp at h
  | cons a l ih =>
    by_cases ha : q a.1
    · rw [removeFirst_cons_pos ha] at h
      exact List.mem_cons_of_mem _ h
    · rw [removeFirst_cons_neg (by simpa using ha)] at h
      rcases List.mem_cons.mp h with rfl | h
      · exact List.mem_cons_self ..
      · exact List.mem_cons_of_mem _ (ih h)

/-- A found entry is what a removal takes out. -/
theorem perm_removeFirst (h : findEntry q l = some e) : l.Perm (e :: removeFirst q l) := by
  obtain ⟨l₁, l₂, rfl, h₁, he⟩ := findEntry_split h
  rw [removeFirst_split h₁ he]
  exact List.perm_middle

/-- Keys are untouched by an overwrite. -/
theorem map_fst_setFirst : (setFirst q v l).map Prod.fst = l.map Prod.fst := by
  induction l with
  | nil => rfl
  | cons a l ih => by_cases ha : q a.1 <;> simp [setFirst, ha, ih]

/-! ## Counting -/

/-- Overwriting an entry trades its old contribution to a count for the new one. -/
theorem countP_setFirst (P : κ × ν → Bool) (h : findEntry q l = some e) :
    (setFirst q v l).countP P + (if P e then 1 else 0) =
      l.countP P + (if P (e.1, v) then 1 else 0) := by
  obtain ⟨l₁, l₂, rfl, h₁, he⟩ := findEntry_split h
  rw [setFirst_split h₁ he]
  simp only [List.countP_append, List.countP_cons]
  omega

/-- Removing an entry takes its contribution out of a count. -/
theorem countP_removeFirst (P : κ × ν → Bool) (h : findEntry q l = some e) :
    (removeFirst q l).countP P + (if P e then 1 else 0) = l.countP P := by
  obtain ⟨l₁, l₂, rfl, h₁, he⟩ := findEntry_split h
  rw [removeFirst_split h₁ he]
  simp only [List.countP_append, List.countP_cons]
  omega

/-- Overwriting an entry trades its old value for the new one in the sum of the values whose keys meet
`p`. -/
theorem sum_filter_setFirst [AddCommMonoid ν] (p : κ → Bool) (h : findEntry q l = some e) :
    (((setFirst q v l).filter fun x => p x.1).map Prod.snd).sum + (if p e.1 then e.2 else 0) =
      ((l.filter fun x => p x.1).map Prod.snd).sum + if p e.1 then v else 0 := by
  obtain ⟨l₁, l₂, rfl, h₁, he⟩ := findEntry_split h
  rw [setFirst_split h₁ he]
  by_cases hp : p e.1 = true
  · simp only [List.filter_append, List.filter_cons, hp, if_true, List.map_append, List.map_cons,
      List.sum_append, List.sum_cons]
    abel
  · simp [hp]

/-- The same in the sum of all values. -/
theorem sum_setFirst [AddCommMonoid ν] (h : findEntry q l = some e) :
    ((setFirst q v l).map Prod.snd).sum + e.2 = (l.map Prod.snd).sum + v := by
  have hall := sum_filter_setFirst (v := v) (fun _ => true) h
  simpa using hall

/-- Removing an entry takes its value out of the sum. -/
theorem sum_removeFirst [AddCommMonoid ν] (h : findEntry q l = some e) :
    ((removeFirst q l).map Prod.snd).sum + e.2 = (l.map Prod.snd).sum := by
  obtain ⟨l₁, l₂, rfl, h₁, he⟩ := findEntry_split h
  rw [removeFirst_split h₁ he]
  simp only [List.map_append, List.map_cons, List.sum_append, List.sum_cons]
  abel

/-- A test is met by at most one entry. -/
def AtMostOne (q : κ → Bool) (l : List (κ × ν)) : Prop := (l.countP fun e => q e.1) ≤ 1

theorem AtMostOne.congr (h : AtMostOne q l) (hq : ∀ e ∈ l, q' e.1 = q e.1) : AtMostOne q' l := by
  have hc : (l.countP fun e => q' e.1) = l.countP fun e => q e.1 :=
    List.countP_congr fun e he => by rw [hq e he]
  unfold AtMostOne at *
  omega

theorem lookup_none_iff_countP : lookup q l = none ↔ (l.countP fun e => q e.1) = 0 := by
  rw [lookup_none_iff, List.countP_eq_zero]
  simp

theorem AtMostOne.cons (h : AtMostOne q l) (hk : q k = true → lookup q l = none) :
    AtMostOne q ((k, v) :: l) := by
  unfold AtMostOne at *
  rw [List.countP_cons]
  by_cases hq : q k
  · have := lookup_none_iff_countP.mp (hk hq)
    simp only [hq, if_true]
    omega
  · simp only [hq, if_false, Nat.add_zero, Bool.false_eq_true]
    exact h

theorem AtMostOne.setFirst (h : AtMostOne q l) : AtMostOne q (setFirst q' v l) := by
  unfold AtMostOne at *
  have hc : ∀ m : List (κ × ν), (m.countP fun e => q e.1) = (m.map Prod.fst).countP q := by
    intro m
    rw [List.countP_map]
    rfl
  rw [hc, map_fst_setFirst, ← hc]
  exact h

theorem AtMostOne.removeFirst (h : AtMostOne q l) : AtMostOne q (removeFirst q' l) := by
  unfold AtMostOne at *
  cases hf : findEntry q' l with
  | none =>
    rw [removeFirst_of_none (findEntry_none_iff.mp hf)]
    exact h
  | some e =>
    have := countP_removeFirst (fun e => q e.1) hf
    omega

/-- Overwriting a found value with another one changes the list. -/
theorem setFirst_ne (h : findEntry q l = some e) (hv : v ≠ e.2) : setFirst q v l ≠ l := by
  intro heq
  have hself : lookup q (setFirst q v l) = some v := lookup_setFirst_self (by simp [lookup, h])
  have hold : lookup q l = some e.2 := by simp [lookup, h]
  rw [heq, hold] at hself
  exact hv (Option.some.inj hself).symm

/-- Removing a found entry changes the list. -/
theorem removeFirst_ne (h : findEntry q l = some e) : removeFirst q l ≠ l := by
  intro heq
  have hc := countP_removeFirst (fun e => q e.1) h
  rw [heq, if_pos (findEntry_test h)] at hc
  omega

/-- Once the only entry that meets the test is removed, none is found. -/
theorem AtMostOne.lookup_removeFirst_self (h : AtMostOne q l) :
    lookup q (Entries.removeFirst q l) = none := by
  unfold AtMostOne at h
  rw [lookup_none_iff_countP]
  cases hf : findEntry q l with
  | none =>
    have hall := findEntry_none_iff.mp hf
    rw [List.countP_eq_zero]
    intro e he
    simpa using hall e (mem_of_mem_removeFirst he)
  | some e =>
    have hc := countP_removeFirst (fun e => q e.1) hf
    simp only [findEntry_test hf, if_true] at hc
    omega

/-! ## Other keys -/

section MapKeys

variable {κ' : Type*} {f : κ → κ'} {r : κ' → Bool}

/-- A test on new keys that says what the old test says about the old ones finds the same entry. -/
theorem findEntry_mapKeys (h : ∀ e ∈ l, r (f e.1) = q e.1) :
    findEntry r (l.map fun e => (f e.1, e.2)) = (findEntry q l).map fun e => (f e.1, e.2) := by
  induction l with
  | nil => rfl
  | cons a l ih =>
    have ha := h a (List.mem_cons_self ..)
    have hl := ih fun e he => h e (List.mem_cons_of_mem _ he)
    unfold findEntry at hl ⊢
    rw [List.map_cons, List.find?_cons, List.find?_cons, ha, hl]
    cases q a.1 <;> rfl

theorem setFirst_mapKeys (h : ∀ e ∈ l, r (f e.1) = q e.1) :
    setFirst r v (l.map fun e => (f e.1, e.2)) = (setFirst q v l).map fun e => (f e.1, e.2) := by
  induction l with
  | nil => rfl
  | cons a l ih =>
    have ha := h a (List.mem_cons_self ..)
    have hl := ih fun e he => h e (List.mem_cons_of_mem _ he)
    cases hq : q a.1 with
    | true =>
      rw [List.map_cons, setFirst_cons_pos hq, setFirst_cons_pos (ha.trans hq)]
      rfl
    | false =>
      rw [List.map_cons, setFirst_cons_neg hq, setFirst_cons_neg (ha.trans hq), hl]
      rfl

theorem removeFirst_mapKeys (h : ∀ e ∈ l, r (f e.1) = q e.1) :
    removeFirst r (l.map fun e => (f e.1, e.2)) = (removeFirst q l).map fun e => (f e.1, e.2) := by
  induction l with
  | nil => rfl
  | cons a l ih =>
    have ha := h a (List.mem_cons_self ..)
    have hl := ih fun e he => h e (List.mem_cons_of_mem _ he)
    cases hq : q a.1 with
    | true =>
      rw [List.map_cons, removeFirst_cons_pos hq, removeFirst_cons_pos (ha.trans hq)]
    | false =>
      rw [List.map_cons, removeFirst_cons_neg hq, removeFirst_cons_neg (ha.trans hq), hl]
      rfl

end MapKeys

/-! ## One entry a key -/

section Keys

variable [DecidableEq κ]

/-- A found value is the one of an entry, if the list has one entry for every key. -/
theorem lookup_eq_some_iff_mem (h : (l.map Prod.fst).Nodup) :
    lookup (fun k' => decide (k' = k)) l = some v ↔ (k, v) ∈ l := by
  induction l with
  | nil => simp
  | cons a l ih =>
    obtain ⟨hnot, hl⟩ := List.nodup_cons.mp h
    rw [lookup_cons, List.mem_cons]
    by_cases ha : a.1 = k
    · have hother : (k, v) ∉ l := fun hmem => hnot (List.mem_map.mpr ⟨(k, v), hmem, ha.symm⟩)
      rw [if_pos (by simpa using ha)]
      simp only [Option.some.injEq, hother, or_false]
      rw [Prod.eq_iff_fst_eq_snd_eq]
      exact ⟨fun hv => ⟨ha.symm, hv.symm⟩, fun hv => hv.2.symm⟩
    · rw [if_neg (by simpa using ha), ih hl]
      simp only [iff_or_self]
      rintro rfl
      exact absurd rfl ha

/-- The keys whose values meet `P` are as many as the entries. -/
theorem ncard_lookup (P : ν → Prop) [DecidablePred P] (h : (l.map Prod.fst).Nodup) :
    Set.ncard {k | ∃ v, lookup (fun k' => decide (k' = k)) l = some v ∧ P v} =
      l.countP fun e => decide (P e.2) := by
  have hset : {k | ∃ v, lookup (fun k' => decide (k' = k)) l = some v ∧ P v} =
      ((l.filter fun e => decide (P e.2)).map Prod.fst).toFinset := by
    ext k
    simp only [lookup_eq_some_iff_mem h, Set.mem_ofPred_eq, List.coe_toFinset, List.mem_map,
      List.mem_filter, decide_eq_true_eq]
    constructor
    · rintro ⟨v, hmem, hP⟩
      exact ⟨(k, v), ⟨hmem, hP⟩, rfl⟩
    · rintro ⟨e, ⟨hmem, hP⟩, rfl⟩
      exact ⟨e.2, hmem, hP⟩
  have hnodup : ((l.filter fun e => decide (P e.2)).map Prod.fst).Nodup :=
    h.sublist (List.filter_sublist.map Prod.fst)
  rw [hset, Set.ncard_coe_finset, List.toFinset_card_of_nodup hnodup, List.length_map,
    List.countP_eq_length_filter]

end Keys

end CrashInvestigator.Library.Entries
