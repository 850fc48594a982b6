import CrashInvestigator.Tracker.Proofs.RefusalProofs

/-!
# The counters of the stacks

No counter in `m_stackItems` is ever zero: an entry is added with the value `1`, and one that would
fall to zero is removed. This holds of every run, whatever the environment answers.
-/

namespace CrashInvestigator.Tracker

open Library

/-- Every entry of `m_stackItems` counts a block. -/
def State.CountersPositive (st : State) : Prop := ∀ e ∈ st.stackItems, 0 < e.2

/-- The number of blocks that `m_stackItems` counts. -/
def State.counted (st : State) : ℕ := (st.stackItems.map Prod.snd).sum

section Updates

variable {st st' : State} {env : Env} {t : ℕ} {e : ℕ × ℕ}

theorem State.CountersPositive.congr (h : st.CountersPositive)
    (hstk : st'.stackItems = st.stackItems) : st'.CountersPositive := by
  unfold State.CountersPositive
  rw [hstk]
  exact h

theorem counted_congr (hstk : st'.stackItems = st.stackItems) : st'.counted = st.counted := by
  unfold State.counted
  rw [hstk]

theorem State.CountersPositive.setStackItem (h : st.CountersPositive) {n : ℕ} (hn : 0 < n) :
    (st.setStackItem t n).CountersPositive := by
  intro x hx
  rcases Entries.mem_setFirst hx with hx | ⟨hv, -⟩
  · exact h x hx
  · rw [hv]
    exact hn

theorem State.CountersPositive.removeStackItem (h : st.CountersPositive) :
    (st.removeStackItem t).CountersPositive :=
  fun x hx => h x (Entries.mem_of_mem_removeFirst hx)

theorem State.CountersPositive.addStackItem (h : st.CountersPositive) :
    ({ st with stackItems := (t, 1) :: st.stackItems } : State).CountersPositive := by
  intro x hx
  rcases List.mem_cons.mp hx with rfl | hx
  · exact Nat.one_pos
  · exact h x hx

theorem counted_setStackItem (hf : st.findStackItem t = some e) (n : ℕ) :
    (st.setStackItem t n).counted + e.2 = st.counted + n :=
  Entries.sum_setFirst hf

theorem counted_removeStackItem (hf : st.findStackItem t = some e) :
    (st.removeStackItem t).counted + e.2 = st.counted :=
  Entries.sum_removeFirst hf

theorem counted_addStackItem :
    ({ st with stackItems := (t, 1) :: st.stackItems } : State).counted = st.counted + 1 := by
  simp [State.counted, Nat.add_comm]

end Updates

/-! ## Calls -/

section Calls

variable {st st' : State} {env : Env} {p : Addr} {bt : BacktracePtr}

/-- Taking a stack out uncounts one block. -/
theorem removeCorrespondingTrace_counted (hd : st.ndebug = false)
    (h : removeCorrespondingTrace st bt = .ok st') : st'.counted + 1 = st.counted := by
  cases bt with
  | none => cases h
  | some t =>
    rcases removeCorrespondingTrace_cases hd t with ⟨herr, -⟩ | ⟨e, hf, he, hok⟩ | ⟨e, hf, he, hok⟩
    · rw [herr] at h
      cases h
    · rw [hok] at h
      cases h
      have := counted_removeStackItem hf
      omega
    · rw [hok] at h
      cases h
      have := counted_setStackItem hf (e.2 - 1)
      omega

theorem State.CountersPositive.removeCorrespondingTrace (h : st.CountersPositive)
    (hd : st.ndebug = false) (hr : Tracker.removeCorrespondingTrace st bt = .ok st') :
    st'.CountersPositive := by
  cases bt with
  | none => cases hr
  | some t =>
    rcases removeCorrespondingTrace_cases hd t with ⟨herr, -⟩ | ⟨e, -, -, hok⟩ | ⟨e, -, he, hok⟩
    · rw [herr] at hr
      cases hr
    · rw [hok] at hr
      cases hr
      exact h.removeStackItem
    · rw [hok] at hr
      cases hr
      exact h.setStackItem (by omega)

/-- A stack with a counter can be taken out. -/
theorem State.CountersPositive.removal_ok (h : st.CountersPositive) (hd : st.ndebug = false)
    {t : ℕ} {e : ℕ × ℕ} (hf : st.findStackItem t = some e) :
    ∃ st', Tracker.removeCorrespondingTrace st (some t) = .ok st' :=
  (removeCorrespondingTrace_ok_iff hd).mpr ⟨t, e, rfl, hf, h e (Entries.findEntry_mem hf)⟩

/-- The removals of a release and of a moving realloc read the table of the stacks as it was. -/
theorem removal_ok_iff (hs : Sound st) (hpos : st.CountersPositive) {item : SMemoryItem}
    (hf : st.findMemoryItem p = some item) (hstk : st'.stackItems = st.stackItems)
    (hdata : st'.traces.data = (st.capture env).traces.data) (hd : st'.ndebug = false) :
    (∃ st₁, removeCorrespondingTrace st' item.allocTrace = .ok st₁) ↔
      ∃ t e, item.allocTrace = some t ∧ st.findStackItem t = some e := by
  have hfind : ∀ t, item.allocTrace = some t → st'.findStackItem t = st.findStackItem t := by
    intro t ht
    refine findStackItem_eq st' hs hstk (fun u hu => ?_) (hs.record hf t ht)
    rw [hdata]
    exact initBacktrace_data_of_lt st.traces env.stack hu
  rw [removeCorrespondingTrace_ok_iff hd]
  constructor
  · rintro ⟨t, e, ht, hfe, -⟩
    exact ⟨t, e, ht, by rw [← hfind t ht, hfe]⟩
  · rintro ⟨t, e, ht, hfe⟩
    exact ⟨t, e, ht, by rw [hfind t ht, hfe], hpos e (Entries.findEntry_mem hfe)⟩

theorem State.CountersPositive.registerStackItem (h : st.CountersPositive) (item : SMemoryItem) :
    (Tracker.registerStackItem st env item p bt).st.CountersPositive := by
  cases bt with
  | none => exact h
  | some t =>
    rcases registerStackItem_cases st env item p t with ⟨-, -, hr⟩ | ⟨-, -, hr⟩ |
      ⟨e, -, -, hr⟩ | ⟨e, -, -, hr⟩ | ⟨e, -, -, -, r, hrr, hr⟩
    · rw [hr]
      exact h.addStackItem
    · rw [hr]
      exact h
    · rw [hr]
      exact h
    · rw [hr]
      exact h.setStackItem (by omega)
    · obtain ⟨-, hstk, -⟩ := initFailure_frame (by simp) hrr
      have hrs : r.st.CountersPositive := (h.setStackItem (t := t) (by omega)).congr hstk
      rw [hr]
      split_ifs <;> exact hrs

theorem State.CountersPositive.addNew (h : st.CountersPositive) (ty : MemoryType) :
    (addNewAllocatedMemoryAndCleanOldEntryNoLock st env ty p bt).st.CountersPositive := by
  rcases addNew_cases st env ty p bt with ⟨-, hr⟩ | ⟨st₁, hreg, hr⟩
  · rw [hr]
    exact h
  · rw [hr]
    exact State.CountersPositive.registerStackItem (h.congr (registerMemoryItem_frame hreg).1) _

theorem State.CountersPositive.testOperatorDelete (h : st.CountersPositive)
    (hd : st.ndebug = false) (ho : st.Outermost) (hp : p ≠ 0) (t : MemoryType) :
    (Tracker.testOperatorDelete st env p t).st.CountersPositive := by
  have hcap : (st.capture env).CountersPositive := h
  rcases testOperatorDelete_cases env ho hp t with ⟨-, hr⟩ | ⟨item, -, -, hr⟩ |
    ⟨item, pr, -, -, -, hr⟩ | ⟨item, st₁, -, -, hrem, -, hr⟩ | ⟨item, st₁, -, -, hrem, -, hr⟩
  · rw [hr]
    unfold deleteUntracked
    split_ifs <;> exact h
  · exact hcap.congr (initFailure_frame (by simp) hr).2.1
  · rw [hr]
    exact h
  · exact (hcap.removeCorrespondingTrace hd hrem).congr (initFailure_frame (by simp) hr).2.1
  · have hst₁ := hcap.removeCorrespondingTrace hd hrem
    rw [hr]
    exact hst₁

theorem State.CountersPositive.testOperatorReAlloc (h : st.CountersPositive)
    (hd : st.ndebug = false) (ho : st.Outermost) (hp : p ≠ 0) {n : ℕ} (hn : n ≠ 0) :
    (Tracker.testOperatorReAlloc st env p n).st.CountersPositive := by
  have hcap : (st.capture env).CountersPositive := h
  rcases testOperatorReAlloc_cases env ho hp hn with ⟨-, hr⟩ | ⟨item, -, -, hr⟩ |
    ⟨item, -, -, -, hr⟩ | ⟨item, -, -, -, -, hr⟩ | ⟨item, pr, -, -, -, -, -, hr⟩ |
    ⟨item, st₁, r, -, -, -, -, hrem, hrr, hr⟩
  · rw [hr]
    unfold reAllocUntracked
    cases env.initialRealloc with
    | some q => exact h
    | none => exact hcap.congr (by simp)
  · exact hcap.congr (initFailure_frame (by simp) hr).2.1
  · exact hcap.congr (initFailure_frame (by simp) hr).2.1
  · rw [hr]
    exact hcap.congr (by simp)
  · rw [hr]
    exact hcap.congr (by simp [State.ends])
  · have hreq : ((st.capture env).reallocn item.realAddress env.raw).CountersPositive :=
      hcap.congr (by simp)
    have hst₁ : st₁.CountersPositive := hreq.removeCorrespondingTrace (by simpa using hd) hrem
    have hset : (st₁.setMemoryItem p { item with
        status := .duringReallocChanged }).CountersPositive := hst₁
    rw [hr, hrr]
    exact hset.addNew .malloc

/-- A call of an outermost thread leaves no zero counter. -/
theorem State.CountersPositive.call (h : st.CountersPositive) (hd : st.ndebug = false)
    (ho : st.Outermost) (c : Call) : (Tracker.call st env c).st.CountersPositive := by
  have hreq : ((st.mallocn env.raw).capture env).CountersPositive := h.congr (by simp)
  exact call_preserves ho c h (fun t => hreq.addNew t)
    (fun _ _ hp hn => h.testOperatorReAlloc hd ho hp hn)
    (fun _ t hp => h.testOperatorDelete hd ho hp t) (fun _ => h)

theorem State.CountersPositive.step (h : st.CountersPositive) (hs : Sound st) (c : Call × Env) :
    (Tracker.step st c).CountersPositive := by
  unfold Tracker.step
  split_ifs with hrun
  · exact h.call hs.ndebug ⟨hrun, hs.flag⟩ c.1
  · exact h

/-- No counter is zero in a reachable state. -/
theorem Reachable.countersPositive (h : Reachable st) : st.CountersPositive := by
  obtain ⟨cs, rfl⟩ := h
  have hinit : State.init.CountersPositive := by
    intro e he
    simp [State.init] at he
  refine (Runs.always_of_invariant (I := fun s => Sound s ∧ s.CountersPositive) ?_
    ⟨Sound.init, hinit⟩ (Runs.along_of_forall (fun _ _ => trivial) _ cs)).final.2
  rintro s c ⟨hs, hp⟩ -
  exact ⟨hs.step c, hp.step hs c⟩

end Calls

end CrashInvestigator.Tracker
