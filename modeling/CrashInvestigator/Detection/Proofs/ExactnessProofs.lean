import CrashInvestigator.Detection.Ledger

/-!
# Exactness of detection

The table and the ledger agree at every moment, and custody of the live blocks is exclusive: a block
is owned by the program, or one thread is about to register it or to free it.
-/

namespace CrashInvestigator.Detection

open Tracker Library

/-! ## The four kinds of calls -/

section Calls

variable {θ : Type*} [DecidableEq θ] (st : State θ) (i : θ) (ans : Answers) {c : Call}

theorem enter_nothing (h : c.effect = .nothing) : enter st i ans c = (st, .nothing) := by
  rcases nothing_zero h with ⟨t, b, rfl⟩ | ⟨m, n, rfl, hn⟩ | rfl | ⟨t, rfl⟩
  · simp [enter, testOperatorAlloc]
  · simp [enter, testOperatorCalloc, hn]
  · simp [enter, testOperatorReAlloc, testOperatorAlloc]
  · simp [enter, testOperatorDelete]

theorem enter_setMax {n : ℕ} (h : c.effect = .setMax n) : enter st i ans c = (st, .nothing) := by
  rw [setMax_eq h]
  rfl

theorem enter_allocate {t : MemoryType} (h : c.effect = .allocate t) :
    enter st i ans c = if ans.raw = 0 then (st, .nothing) else
      ({ st with live := insert ans.raw st.live }.await i
        (.addNewAllocatedMemory t ans.raw ans.backtrace), .mallocn ans.raw) := by
  rcases allocate_ne_zero h with ⟨n, b, rfl, hn⟩ | ⟨rfl, ⟨m, n, rfl, hn⟩ | ⟨n, rfl, hn⟩⟩
  · simp [enter, testOperatorAlloc, hn]
  · simp [enter, testOperatorCalloc, hn]
  · simp [enter, testOperatorReAlloc, testOperatorAlloc, hn]

theorem enter_release {p : Addr} {t : MemoryType} (h : c.effect = .release p t) :
    enter st i ans c = testOperatorDelete st i p t ans := by
  obtain ⟨hp, rfl | ⟨rfl, rfl⟩⟩ := release_ne_zero h
  · rfl
  · simp [enter, testOperatorReAlloc, hp]

theorem enter_move {p : Addr} {n : ℕ} (h : c.effect = .move p n) :
    enter st i ans c = testOperatorReAlloc st i p n ans := by
  obtain ⟨rfl, -, -⟩ := move_ne_zero h
  rfl

/-- The three ways the locked step of a release of a registered address ends. -/
theorem testOperatorDelete_cases {p : Addr} {t : MemoryType} {item : SMemoryItem} (hp : p ≠ 0)
    (hf : st.memoryItems.lookup p = some item) :
    (item.status ≠ .allocated ∧
        testOperatorDelete st i p t ans = (st, .report .doubleFree item p 0)) ∨
      (item.status = .allocated ∧ item.type ≠ t ∧
        testOperatorDelete st i p t ans = (st, .report .freeMissmatch item p 0)) ∨
      (item.status = .allocated ∧ item.type = t ∧ testOperatorDelete st i p t ans =
        ({ st with memoryItems := st.memoryItems.insert p { item with
            status := .deallocated, deallocTrace := ans.backtrace } }.await i
          (.freen item.realAddress), .released p item.realAddress)) := by
  unfold testOperatorDelete
  rw [if_neg hp, hf]
  by_cases hst : item.status = .allocated
  · by_cases hty : item.type = t
    · right; right
      simp [hst, hty]
    · right; left
      simp [hst, hty]
  · left
    simp [hst]

/-- The four ways a realloc of a registered address ends. -/
theorem testOperatorReAlloc_cases {p : Addr} {n : ℕ} {item : SMemoryItem} (hp : p ≠ 0)
    (hn : n ≠ 0) (hf : st.memoryItems.lookup p = some item) :
    (item.type ≠ .malloc ∧ testOperatorReAlloc st i p n ans =
        (st, .report .badReallocCreatedByWrongAlloc item p n)) ∨
      (item.type = .malloc ∧ item.status ≠ .allocated ∧ testOperatorReAlloc st i p n ans =
        (st, .report .badReallocDeletedMem item p n)) ∨
      (item.type = .malloc ∧ item.status = .allocated ∧ ans.raw = p ∧
        testOperatorReAlloc st i p n ans =
          ({ st with live := if ans.raw = 0 then st.live
              else insert ans.raw (st.live.erase item.realAddress) },
            .reallocn p item.realAddress ans.raw)) ∨
      (item.type = .malloc ∧ item.status = .allocated ∧ ans.raw ≠ p ∧
        testOperatorReAlloc st i p n ans =
          ({ st with
              live := if ans.raw = 0 then st.live
                else insert ans.raw (st.live.erase item.realAddress),
              memoryItems := addNewAllocatedMemoryAndCleanOldEntryNoLock
                (st.memoryItems.insert p { item with status := .duringReallocChanged }) .malloc
                ans.raw ans.backtrace },
            .reallocn p item.realAddress ans.raw)) := by
  unfold testOperatorReAlloc
  rw [if_neg hp, if_neg hn, hf]
  by_cases hty : item.type = .malloc
  · by_cases hst : item.status = .allocated
    · right; right
      by_cases hraw : ans.raw = p
      · left
        simp [hty, hst, hraw]
      · right
        simp [hty, hst, hraw]
    · right; left
      simp [hty, hst]
  · left
    simp [hty]

end Calls

/-! ## The table and the ledger -/

/-- The table shows what the ledger says, and every record holds its own address. -/
structure Recorded (m : MemoryItems) (l : Ledger) : Prop where
  real : ∀ p item, m.lookup p = some item → item.realAddress = p
  lastType : ∀ p, l.lastType p = (m.lookup p).map SMemoryItem.type
  owned : ∀ p t, l.owned p = some t ↔
    ∃ item, m.lookup p = some item ∧ item.status = .allocated ∧ item.type = t

section Table

variable {m : MemoryItems} {l : Ledger} {p : Addr} {item : SMemoryItem}

theorem Recorded.init : Recorded ∅ .empty := by
  refine ⟨?_, ?_, ?_⟩
  · intro p item h
    simp at h
  · intro p
    simp [Ledger.empty]
  · intro p t
    simp [Ledger.empty]

theorem Recorded.unowned_iff (h : Recorded m l) (hf : m.lookup p = some item) :
    l.owned p = none ↔ item.status ≠ .allocated := by
  constructor
  · intro hnone hst
    have hsome := (h.owned p item.type).mpr ⟨item, hf, hst, rfl⟩
    rw [hnone] at hsome
    cases hsome
  · intro hst
    by_contra hne
    obtain ⟨t, ht⟩ := Option.ne_none_iff_exists'.mp hne
    obtain ⟨item', hf', hst', -⟩ := (h.owned p t).mp ht
    rw [hf] at hf'
    cases hf'
    exact hst hst'

theorem Recorded.registered (h : Recorded m l) (hp : (l.lastType p).isSome) :
    ∃ item, m.lookup p = some item := by
  rw [h.lastType, Option.isSome_map] at hp
  exact Option.isSome_iff_exists.mp hp

theorem Recorded.register (h : Recorded m l) (t : MemoryType) (p : Addr) (bt : BacktracePtr) :
    Recorded (addNewAllocatedMemoryAndCleanOldEntryNoLock m t p bt) (l.register t p) := by
  unfold addNewAllocatedMemoryAndCleanOldEntryNoLock
  refine ⟨?_, ?_, ?_⟩
  · intro q item hq
    by_cases hqp : q = p
    · subst hqp
      rw [Finmap.lookup_insert] at hq
      cases hq
      rfl
    · rw [Finmap.lookup_insert_of_ne _ hqp] at hq
      exact h.real q item hq
  · intro q
    by_cases hqp : q = p
    · subst hqp
      rw [Finmap.lookup_insert]
      exact Function.update_self ..
    · rw [Finmap.lookup_insert_of_ne _ hqp, ← h.lastType]
      exact Function.update_of_ne hqp ..
  · intro q t'
    by_cases hqp : q = p
    · subst hqp
      simp [Ledger.register, eq_comm]
    · rw [Finmap.lookup_insert_of_ne _ hqp, ← h.owned]
      simp [Ledger.register, hqp]

/-- The record of a released block stays, with another status. -/
theorem Recorded.release (h : Recorded m l) (hf : m.lookup p = some item) {item' : SMemoryItem}
    (hty : item'.type = item.type) (hreal : item'.realAddress = item.realAddress)
    (hst : item'.status ≠ .allocated) : Recorded (m.insert p item') (l.release p) := by
  refine ⟨?_, ?_, ?_⟩
  · intro q it hq
    by_cases hqp : q = p
    · subst hqp
      rw [Finmap.lookup_insert] at hq
      cases hq
      rw [hreal]
      exact h.real q item hf
    · rw [Finmap.lookup_insert_of_ne _ hqp] at hq
      exact h.real q it hq
  · intro q
    show l.lastType q = _
    rw [h.lastType]
    by_cases hqp : q = p
    · subst hqp
      rw [Finmap.lookup_insert, hf]
      simp [hty]
    · rw [Finmap.lookup_insert_of_ne _ hqp]
  · intro q t
    by_cases hqp : q = p
    · subst hqp
      simp [Ledger.release, hst]
    · rw [Finmap.lookup_insert_of_ne _ hqp, ← h.owned]
      simp [Ledger.release, hqp]

end Table

/-! ## Custody of the blocks -/

section Custody

variable {θ : Type*} [DecidableEq θ]

/-- The blocks of the program, and the one that each thread is about to register or to free. -/
def Observed.custody (s : Observed θ) : Custody θ Addr where
  live := s.machine.live
  owned := {p | (s.ledger.owned p).isSome}
  hand := fun i => (s.machine.pending i).address

/-- The hands after a thread has changed what it has to do. -/
theorem hand_await (st : State θ) (i : θ) (p : Pending) :
    (fun j => ((st.await i p).pending j).address) =
      Function.update (fun j => (st.pending j).address) i p.address := by
  funext j
  by_cases hj : j = i
  · subst hj
    simp [State.await]
  · simp [State.await, hj]

theorem owned_register (l : Ledger) (t : MemoryType) (p : Addr) :
    {q | ((l.register t p).owned q).isSome} = insert p {q | (l.owned q).isSome} := by
  ext q
  by_cases hq : q = p
  · subst hq
    simp [Ledger.register]
  · simp [Ledger.register, hq]

theorem owned_release (l : Ledger) (p : Addr) :
    {q | ((l.release p).owned q).isSome} = {q | (l.owned q).isSome} \ {p} := by
  ext q
  by_cases hq : q = p
  · subst hq
    simp [Ledger.release]
  · simp [Ledger.release, hq]

end Custody

/-! ## The invariant -/

section Invariant

variable {θ : Type*} {s : Observed θ}

/-- Table and ledger agree, and custody is exclusive. -/
structure Inv (s : Observed θ) : Prop where
  recorded : Recorded s.machine.memoryItems s.ledger
  custody : s.custody.Exclusive

theorem Inv.init : Inv (Observed.init : Observed θ) := by
  refine ⟨Recorded.init, ⟨?_, ?_, ?_, ?_⟩⟩
  · intro p hp
    simp [Observed.custody, Observed.init, Ledger.empty] at hp
  · intro i p hp
    simp [Observed.custody, Observed.init, State.init, Pending.address] at hp
  · intro i p hp
    simp [Observed.custody, Observed.init, State.init, Pending.address] at hp
  · intro i j p hp
    simp [Observed.custody, Observed.init, State.init, Pending.address] at hp

theorem Inv.ownedLive (h : Inv s) : OwnedLive s := by
  intro p t hp
  refine ⟨?_, (h.recorded.owned p t).mp hp⟩
  have hown : p ∈ s.custody.owned := by
    show (s.ledger.owned p).isSome
    rw [hp]
    rfl
  exact Finset.mem_coe.mp (h.custody.owned_live p hown)

/-- An allocated record is that of an owned block. -/
theorem Inv.owned_of_allocated (h : Inv s) {p : Addr} {item : SMemoryItem}
    (hf : s.machine.memoryItems.lookup p = some item) (hst : item.status = .allocated) :
    s.ledger.owned p = some item.type ∧ p ∈ s.custody.owned ∧ p ∈ s.machine.live := by
  have hp := (h.recorded.owned p item.type).mpr ⟨item, hf, hst, rfl⟩
  refine ⟨hp, ?_, (h.ownedLive p item.type hp).1⟩
  show (s.ledger.owned p).isSome
  rw [hp]
  rfl

/-- The block in a thread's hand is live, and the program does not own it. -/
theorem Inv.hand (h : Inv s) {i : θ} {p : Addr} (hp : s.custody.hand i = some p) :
    p ∈ s.machine.live ∧ s.ledger.owned p = none := by
  have hun : ¬ (s.ledger.owned p).isSome := h.custody.hand_unowned i p hp
  exact ⟨Finset.mem_coe.mp (h.custody.hand_live i p hp), Option.not_isSome_iff_eq_none.mp hun⟩

theorem hand_of_pending {i : θ} {w : Pending} (hi : s.machine.pending i = w) :
    s.custody.hand i = w.address := by
  show (s.machine.pending i).address = w.address
  rw [hi]

variable [DecidableEq θ] {a : Action θ} {m : State θ} {o : Output} {i : θ} {ans : Answers}
  {c : Call}

theorem step_eq (h : act s.machine a = (m, o)) :
    s.output a = o ∧ step s a = ⟨m, s.ledger.record o⟩ := by
  unfold step Observed.output
  rw [h]
  exact ⟨rfl, rfl⟩

/-- The outputs that show no record and concern no block that is out. -/
def Output.quiet : Output → Bool
  | .nothing | .mallocn _ | .released _ _ | .untracked _ => true
  | _ => false

/-- A quiet step has only its verdict to meet. -/
theorem exact_of_quiet (hd : Detects s a) (hq : (s.output a).quiet = true) : Exact s a := by
  refine ⟨hd, ?_, ?_, ?_, ?_⟩
  · intro ft item p n hrep
    rw [hrep] at hq
    cases hq
  · intro p hp
    cases ho : s.output a with
    | freen q =>
      rw [ho] at hq
      cases hq
    | reallocn q r n =>
      rw [ho] at hq
      cases hq
    | nothing | mallocn _ | registered _ _ | released _ _ | report _ _ _ _ | untracked _ =>
      rw [ho] at hp
      cases hp
  · intro p hp
    rw [hp] at hq
    cases hq
  · intro t p hp
    rw [hp] at hq
    cases hq

/-- A step that does nothing and has nothing to report. -/
theorem Inv.nothing (h : Inv s) (hact : enter s.machine i ans c = (s.machine, .nothing))
    (hverdict : s.ledger.verdict c.effect = none) (hrel : ∀ p t, c.effect ≠ .release p t)
    (hmv : ∀ p n, c.effect ≠ .move p n) :
    Exact s (.enter i c ans) ∧ Inv (step s (.enter i c ans)) := by
  obtain ⟨hout, hstep⟩ := step_eq (a := .enter i c ans) hact
  refine ⟨exact_of_quiet ⟨?_, ?_, ?_⟩ (by rw [hout]; rfl), ?_⟩
  · rw [hout, hverdict]
    rfl
  · intro p t heff
    exact absurd heff (hrel p t)
  · intro p n heff
    exact absurd heff (hmv p n)
  · rw [hstep]
    exact h

/-- A step that only makes the report it has to make. -/
theorem Inv.report (h : Inv s) {ft : FailureType} {item : SMemoryItem} {p : Addr} {n : ℕ}
    (hact : enter s.machine i ans c = (s.machine, .report ft item p n))
    (hf : s.machine.memoryItems.lookup p = some item)
    (hverdict : s.ledger.verdict c.effect = some ft) :
    Exact s (.enter i c ans) ∧ Inv (step s (.enter i c ans)) := by
  obtain ⟨hout, hstep⟩ := step_eq (a := .enter i c ans) hact
  refine ⟨⟨⟨?_, ?_, ?_⟩, ?_, ?_, ?_, ?_⟩, ?_⟩
  · rw [hout, hverdict]
    rfl
  · intro p t _ hnone
    rw [hverdict] at hnone
    cases hnone
  · intro p n _ hnone
    rw [hverdict] at hnone
    cases hnone
  · intro ft' item' p' n' hrep
    rw [hout] at hrep
    cases hrep
    rw [h.recorded.lastType, hf]
    rfl
  · intro p hp
    rw [hout] at hp
    cases hp
  · intro p hp
    rw [hout] at hp
    cases hp
  · intro t p hp
    rw [hout] at hp
    cases hp
  · rw [hstep]
    exact h

/-- The first half of an allocation takes a fresh block in hand. -/
theorem Inv.allocate (h : Inv s) {t : MemoryType} (heff : c.effect = .allocate t)
    (hraw : RawIssues s (s.output (.enter i c ans))) :
    Exact s (.enter i c ans) ∧ Inv (step s (.enter i c ans)) := by
  have henter := enter_allocate s.machine i ans heff
  by_cases hnull : ans.raw = 0
  · rw [if_pos hnull] at henter
    refine h.nothing henter ?_ ?_ ?_
    · rw [heff]
      rfl
    · simp [heff]
    · simp [heff]
  · rw [if_neg hnull] at henter
    obtain ⟨hout, hstep⟩ := step_eq (a := .enter i c ans) henter
    refine ⟨exact_of_quiet ⟨?_, ?_, ?_⟩ (by rw [hout]; rfl), ?_⟩
    · rw [hout, heff]
      rfl
    · intro p t' heff'
      rw [heff] at heff'
      cases heff'
    · intro p n heff'
      rw [heff] at heff'
      cases heff'
    · rw [hout] at hraw
      have hfresh : ans.raw ∉ s.custody.live := fun hin => hraw (Finset.mem_coe.mp hin)
      rw [hstep]
      exact ⟨h.recorded, (h.custody.acquire hfresh).congr (Finset.coe_insert ..) rfl
        (hand_await _ i _)⟩

/-- The locked half of a release takes the block from the program into the thread's hand. -/
theorem Inv.release (h : Inv s) {p : Addr} {t : MemoryType} (heff : c.effect = .release p t)
    (hreg : (s.ledger.lastType p).isSome) :
    Exact s (.enter i c ans) ∧ Inv (step s (.enter i c ans)) := by
  obtain ⟨item, hf⟩ := h.recorded.registered hreg
  have henter := enter_release s.machine i ans heff
  rcases testOperatorDelete_cases s.machine i ans (t := t) (release_ne_zero heff).1 hf with
    ⟨hst, hr⟩ | ⟨hst, hty, hr⟩ | ⟨hst, hty, hr⟩
  · refine h.report (henter.trans hr) hf ?_
    simp [Ledger.verdict, heff, (h.recorded.unowned_iff hf).mpr hst]
  · refine h.report (henter.trans hr) hf ?_
    simp [Ledger.verdict, heff, (h.owned_of_allocated hf hst).1, hty]
  · obtain ⟨hown, hmem, -⟩ := h.owned_of_allocated hf hst
    have hreal := h.recorded.real p item hf
    obtain ⟨hout, hstep⟩ := step_eq (a := .enter i c ans) (henter.trans hr)
    have hverdict : s.ledger.verdict c.effect = none := by
      simp [Ledger.verdict, heff, hown, hty]
    refine ⟨exact_of_quiet ⟨?_, ?_, ?_⟩ (by rw [hout]; rfl), ?_⟩
    · rw [hout, hverdict]
      rfl
    · intro p' t' heff' _
      rw [heff] at heff'
      cases heff'
      rw [hout, hreal]
    · intro p' n heff'
      rw [heff] at heff'
      cases heff'
    · rw [hstep]
      have hrec : Recorded (s.machine.memoryItems.insert p { item with
          status := .deallocated, deallocTrace := ans.backtrace }) (s.ledger.release p) :=
        h.recorded.release hf rfl rfl (by simp)
      refine ⟨hrec, (h.custody.withdraw (i := i) hmem).congr rfl (owned_release s.ledger p) ?_⟩
      rw [hreal]
      exact hand_await _ i (.freen p)

/-- A realloc of a block that the program owns is exact, whether the block moves or not. -/
theorem Inv.exact_of_reallocn (h : Inv s) {p : Addr} {n : ℕ} {item : SMemoryItem}
    (heff : c.effect = .move p n) (hf : s.machine.memoryItems.lookup p = some item)
    (hty : item.type = .malloc) (hst : item.status = .allocated)
    (hout : s.output (.enter i c ans) = .reallocn p item.realAddress ans.raw) :
    Exact s (.enter i c ans) := by
  obtain ⟨hown, -, hlive⟩ := h.owned_of_allocated hf hst
  have hreal := h.recorded.real p item hf
  have hverdict : s.ledger.verdict c.effect = none := by
    simp [Ledger.verdict, heff, hown, h.recorded.lastType, hf, hty]
  refine ⟨⟨?_, ?_, ?_⟩, ?_, ?_, ?_, ?_⟩
  · rw [hout, hverdict]
    rfl
  · intro p' t heff'
    rw [heff] at heff'
    cases heff'
  · intro p' n' heff' _
    rw [heff] at heff'
    cases heff'
    rw [hout, hreal]
  · intro ft item' p' n' hrep
    rw [hout] at hrep
    cases hrep
  · intro q hq
    rw [hout] at hq
    cases hq
    rw [hreal]
    exact hlive
  · intro q hq
    rw [hout] at hq
    cases hq
  · intro t q hq
    rw [hout] at hq
    cases hq

/-- The locked realloc leaves the program one block, the old one or the new one. -/
theorem Inv.move (h : Inv s) {p : Addr} {n : ℕ} (heff : c.effect = .move p n)
    (hreg : (s.ledger.lastType p).isSome) (hraw : RawIssues s (s.output (.enter i c ans))) :
    Exact s (.enter i c ans) ∧ Inv (step s (.enter i c ans)) := by
  obtain ⟨item, hf⟩ := h.recorded.registered hreg
  obtain ⟨-, hp, hn⟩ := move_ne_zero heff
  have hlast : s.ledger.lastType p = some item.type := by
    rw [h.recorded.lastType, hf]
    rfl
  have hreal := h.recorded.real p item hf
  have henter := enter_move s.machine i ans heff
  rcases testOperatorReAlloc_cases s.machine i ans hp hn hf with
    ⟨hty, hr⟩ | ⟨hty, hst, hr⟩ | ⟨hty, hst, hkeep, hr⟩ | ⟨hty, hst, hmv, hr⟩
  · refine h.report (henter.trans hr) hf ?_
    simp [Ledger.verdict, heff, hlast, hty]
  · refine h.report (henter.trans hr) hf ?_
    simp [Ledger.verdict, heff, hlast, hty, (h.recorded.unowned_iff hf).mpr hst]
  · obtain ⟨hout, hstep⟩ := step_eq (a := .enter i c ans) (henter.trans hr)
    refine ⟨h.exact_of_reallocn heff hf hty hst hout, ?_⟩
    obtain ⟨-, -, hlive⟩ := h.owned_of_allocated hf hst
    have hsame : (if ans.raw = 0 then s.machine.live
        else insert ans.raw (s.machine.live.erase item.realAddress)) = s.machine.live := by
      rw [if_neg (by rw [hkeep]; exact hp), hkeep, hreal, Finset.insert_erase hlive]
    rw [hstep, hsame]
    simp only [Ledger.record, if_pos hkeep]
    exact h
  · obtain ⟨hout, hstep⟩ := step_eq (a := .enter i c ans) (henter.trans hr)
    refine ⟨h.exact_of_reallocn heff hf hty hst hout, ?_⟩
    obtain ⟨-, hmem, -⟩ := h.owned_of_allocated hf hst
    rw [hout] at hraw
    obtain ⟨hnonnull, hsame | hfresh⟩ := hraw
    · rw [hreal] at hsame
      exact absurd hsame hmv
    · rw [hstep, if_neg hnonnull]
      simp only [Ledger.record, if_neg hmv]
      have hrec : Recorded (s.machine.memoryItems.insert p { item with
          status := .duringReallocChanged }) (s.ledger.release p) :=
        h.recorded.release hf rfl rfl (by simp [MemoryStatus.duringReallocChanged])
      have hout : ans.raw ∉ s.custody.live := fun hin => hfresh (Finset.mem_coe.mp hin)
      refine ⟨hrec.register .malloc ans.raw ans.backtrace,
        (h.custody.exchange hmem hout).congr ?_ ?_ rfl⟩
      · show (↑(insert ans.raw (s.machine.live.erase item.realAddress)) : Set Addr) = _
        rw [Finset.coe_insert, Finset.coe_erase, hreal]
        rfl
      · show {q | (((s.ledger.release p).register .malloc ans.raw).owned q).isSome} = _
        rw [owned_register, owned_release]
        rfl

/-- The second half of an allocation gives the program the block in hand. -/
theorem Inv.registered (h : Inv s) {t : MemoryType} {p : Addr} {bt : BacktracePtr}
    (hi : s.machine.pending i = .addNewAllocatedMemory t p bt) :
    Exact s (.resume i) ∧ Inv (step s (.resume i)) := by
  have hhand : s.custody.hand i = some p := hand_of_pending hi
  have hresume : Detection.resume s.machine i =
      ({ s.machine with
          memoryItems := addNewAllocatedMemoryAndCleanOldEntryNoLock s.machine.memoryItems t p bt
        }.await i .idle, .registered t p) := by
    simp [Detection.resume, hi]
  obtain ⟨hout, hstep⟩ := step_eq (a := .resume i) hresume
  refine ⟨⟨?_, ?_, ?_, ?_, ?_⟩, ?_⟩
  · show (s.output (.resume i)).failure = none
    rw [hout]
    rfl
  · intro ft item q n hrep
    rw [hout] at hrep
    cases hrep
  · intro q hq
    rw [hout] at hq
    cases hq
  · intro q hq
    rw [hout] at hq
    cases hq
  · intro t' q hq
    rw [hout] at hq
    cases hq
    exact (h.hand hhand).symm
  · rw [hstep]
    exact ⟨h.recorded.register t p bt, (h.custody.deposit hhand).congr rfl
      (owned_register s.ledger t p) (hand_await _ i .idle)⟩

/-- The second half of a release frees the block in hand. -/
theorem Inv.freen (h : Inv s) {p : Addr} (hi : s.machine.pending i = .freen p) :
    Exact s (.resume i) ∧ Inv (step s (.resume i)) := by
  have hhand : s.custody.hand i = some p := hand_of_pending hi
  have hresume : Detection.resume s.machine i =
      ({ s.machine with live := s.machine.live.erase p }.await i .idle, .freen p) := by
    simp [Detection.resume, hi]
  obtain ⟨hout, hstep⟩ := step_eq (a := .resume i) hresume
  refine ⟨⟨?_, ?_, ?_, ?_, ?_⟩, ?_⟩
  · show (s.output (.resume i)).failure = none
    rw [hout]
    rfl
  · intro ft item q n hrep
    rw [hout] at hrep
    cases hrep
  · intro q hq
    rw [hout] at hq
    cases hq
    exact (h.hand hhand).1
  · intro q hq
    rw [hout] at hq
    cases hq
    exact (h.hand hhand).2
  · intro t q hq
    rw [hout] at hq
    cases hq
  · rw [hstep]
    exact ⟨h.recorded, (h.custody.dispose hhand).congr (Finset.coe_erase ..) rfl
      (hand_await _ i .idle)⟩

/-- The second half of a call registers or frees what the thread has in hand. -/
theorem Inv.resume (h : Inv s) (hpend : s.machine.pending i ≠ .idle) :
    Exact s (.resume i) ∧ Inv (step s (.resume i)) := by
  cases hi : s.machine.pending i with
  | idle => exact absurd hi hpend
  | addNewAllocatedMemory t p bt => exact h.registered hi
  | freen p => exact h.freen hi

/-- Every admissible step is exact and keeps the invariant. -/
theorem Inv.step (h : Inv s) (ha : Admissible s a) : Exact s a ∧ Inv (Detection.step s a) := by
  cases a with
  | resume i => exact h.resume ha.enabled
  | enter i c ans =>
    cases heff : c.effect with
    | nothing =>
      refine h.nothing (enter_nothing s.machine i ans heff) ?_ ?_ ?_
      · rw [heff]
        rfl
      · simp [heff]
      · simp [heff]
    | setMax n =>
      refine h.nothing (enter_setMax s.machine i ans heff) ?_ ?_ ?_
      · rw [heff]
        rfl
      · simp [heff]
      · simp [heff]
    | allocate t => exact h.allocate heff ha.raw
    | release p t => exact h.release heff (ha.registered.1 p t heff)
    | move p n => exact h.move heff (ha.registered.2 p n heff) ha.raw

end Invariant

/-! ## Main result -/

section Runs

variable {θ : Type*}

theorem passesRegistered_alloc {s : Observed θ} {i : θ} {n : ℕ} {t : MemoryType} {b : Bool}
    {ans : Answers} (hn : n ≠ 0) : PassesRegistered s (.enter i (.alloc n t b) ans) := by
  refine ⟨fun p t h => ?_, fun p n h => ?_⟩
  · simp [Call.effect, hn] at h
  · simp [Call.effect, hn] at h

theorem passesRegistered_delete {s : Observed θ} {i : θ} {p : Addr} {t : MemoryType}
    {ans : Answers} (h : (s.ledger.lastType p).isSome) :
    PassesRegistered s (.enter i (.delete p t) ans) := by
  refine ⟨fun q t' heff => ?_, fun q n heff => absurd heff delete_ne_move⟩
  rw [release_of_delete heff]
  exact h

variable [DecidableEq θ]

/-- Detection is exact in every interleaving: each call reports what the ledger says, only live
blocks reach raw `freen` and `reallocn`, and owned blocks stay live. -/
theorem detection_exact {as : List (Action θ)} (h : Runs.Along step Admissible .init as) :
    Runs.Along step Exact .init as ∧ Runs.Always step OwnedLive .init as := by
  have hstep : ∀ (s : Observed θ) (a : Action θ), Inv s → Admissible s a → Inv (step s a) :=
    fun s a hI ha => (hI.step ha).2
  refine ⟨Runs.along_of_invariant hstep (fun s a hI ha => (hI.step ha).1) Inv.init h, ?_⟩
  exact (Runs.always_of_invariant hstep Inv.init h).mono fun s hI => hI.ownedLive

/-- One thread releases a block that the other one tries to release too, before and after the address
is issued again and before the new block is registered. -/
def racingRun : List (Action Bool) :=
  [.enter false (.alloc 8 .malloc false) ⟨16, some 0⟩, .resume false,
    .enter true (.delete 16 .malloc) ⟨0, some 1⟩, .enter false (.delete 16 .malloc) ⟨0, some 2⟩,
    .resume true, .enter true (.alloc 8 .new true) ⟨16, some 3⟩,
    .enter false (.delete 16 .malloc) ⟨0, some 4⟩, .resume true,
    .enter false (.delete 16 .malloc) ⟨0, some 5⟩]

theorem detection_exact_racingRun :
    Runs.Along step Exact .init racingRun ∧ Runs.Always step OwnedLive .init racingRun := by
  refine detection_exact ⟨⟨rfl, ?_, passesRegistered_alloc (by decide)⟩, ⟨(by cases ·), ?_, trivial⟩,
    ⟨rfl, ?_, passesRegistered_delete rfl⟩, ⟨rfl, ?_, passesRegistered_delete rfl⟩,
    ⟨(by cases ·), ?_, trivial⟩, ⟨rfl, ?_, passesRegistered_alloc (by decide)⟩,
    ⟨rfl, ?_, passesRegistered_delete rfl⟩, ⟨(by cases ·), ?_, trivial⟩,
    ⟨rfl, ?_, passesRegistered_delete rfl⟩, trivial⟩
  · exact (by decide : (16 : Addr) ∉ (∅ : Finset Addr))
  · exact trivial
  · exact trivial
  · exact trivial
  · exact trivial
  · exact (by decide : (16 : Addr) ∉ ({16} : Finset Addr).erase 16)
  · exact trivial
  · exact trivial
  · exact trivial

end Runs

end CrashInvestigator.Detection
