import CrashInvestigator.Tracker.Aligned
import CrashInvestigator.Tracker.Proofs.CounterProofs
import CrashInvestigator.Tracker.Proofs.FailureProofs

/-!
# Aligned new and delete

What the program gets from `TestOperatorNewAligned` is the key of the record only when the raw block
happens to be aligned. Then a delete releases the raw block; otherwise it never does.
-/

namespace CrashInvestigator.Tracker

open Library

/-! ## Statements -/

/-- The registration of a block of `memoryType` at `p` reports a possible leak, and the callback
answers the report with `MakeAction`. -/
def ActsOnLeak (st : State) (env : Env) (memoryType : MemoryType) (p : Addr) : Prop :=
  ∃ t e, st.captured env = some t ∧ (st.capture env).findStackItem t = some e ∧
    0 < st.unMaxNumberOfAllocFromTheSameStack ∧ st.unMaxNumberOfAllocFromTheSameStack ≤ e.2 ∧
    env.clbkFnc (failureData (st.capture env) env ⟨memoryType, .allocated, p, some t, none⟩
      memoryType p 0 .possibilityOfMemoryLeak (some t)) = .makeAction

/-- Every record holds its own address. -/
def State.RecordsOwnAddress (st : State) : Prop := ∀ e ∈ st.memoryItems, e.2.realAddress = e.1

/-! ## The alignment -/

theorem smear_eq {x : ℕ} (hx : x < 2 ^ 64) : smear x = 2 ^ x.size - 1 :=
  (Alignment.Smeared.one x).double.double.double.double.double.double.eq hx

/-- From the default alignment on, an alignment is rounded up to a power of two, or to zero. -/
theorem effectiveAlign_eq {align : ℕ} (h : align < 2 ^ 64)
    (hle : stdcppDefaultNewAlignment ≤ align) :
    effectiveAlign align = 2 ^ (align - 1).size % sizeModulus := by
  have hpos : 0 < 2 ^ (align - 1).size := Nat.two_pow_pos _
  unfold effectiveAlign
  rw [if_neg (by omega), smear_eq (by omega), Nat.sub_add_cancel hpos]
  simp only
  split_ifs with heq
  · rfl
  · exact (not_not.mp heq).symm

/-- A power of two is kept, or raised to the default alignment. -/
theorem effectiveAlign_two_pow {k : ℕ} (hk : k < 64) :
    effectiveAlign (2 ^ k) = max (2 ^ k) stdcppDefaultNewAlignment := by
  have hpos : 0 < 2 ^ k := Nat.two_pow_pos k
  have hlt : 2 ^ k < sizeModulus := Nat.pow_lt_pow_right (by omega) hk
  by_cases hsmall : 2 ^ k < stdcppDefaultNewAlignment
  · rw [effectiveAlign, if_pos hsmall, Nat.max_eq_right (Nat.le_of_lt hsmall)]
  · have hsize : (2 ^ k - 1).size = k := by
      refine Nat.le_antisymm (Nat.size_le.mpr (by omega)) ?_
      cases k with
      | zero => exact Nat.zero_le _
      | succ k =>
        refine Nat.lt_size.mpr ?_
        have := Nat.two_pow_pos k
        omega
    rw [effectiveAlign_eq hlt (by omega), hsize, Nat.mod_eq_of_lt hlt, Nat.max_eq_left (by omega)]

theorem stdAlign_some {a size ptr space p : ℕ} (h : stdAlign a size ptr space = some p) :
    p = Alignment.alignUp a ptr := by
  unfold stdAlign at h
  simp only at h
  split_ifs at h
  exact (Option.some.inj h).symm

/-! ## Records of every reachable state -/

section Records

variable {st st' : State} {env : Env} {p : Addr} {bt : BacktracePtr}

theorem State.RecordsOwnAddress.congr (h : st.RecordsOwnAddress)
    (hmem : st'.memoryItems = st.memoryItems) : st'.RecordsOwnAddress := by
  unfold State.RecordsOwnAddress
  rw [hmem]
  exact h

theorem State.RecordsOwnAddress.find (h : st.RecordsOwnAddress) {item : SMemoryItem}
    (hf : st.findMemoryItem p = some item) : item.realAddress = p := by
  obtain ⟨-, hmem⟩ := findMemoryItem_some hf
  exact h _ hmem

theorem State.RecordsOwnAddress.setMemoryItem (h : st.RecordsOwnAddress) {item : SMemoryItem}
    (hitem : item.realAddress = p) : (st.setMemoryItem p item).RecordsOwnAddress := by
  intro e he
  obtain ⟨k, v⟩ := e
  rcases Entries.mem_setFirst he with he | ⟨hv, hk, -⟩
  · exact h _ he
  · have hkp : k = p := by simpa using hk
    have hvi : v = item := hv
    show v.realAddress = k
    rw [hvi, hkp, hitem]

theorem State.RecordsOwnAddress.addNew (h : st.RecordsOwnAddress) (ty : MemoryType) :
    (addNewAllocatedMemoryAndCleanOldEntryNoLock st env ty p bt).st.RecordsOwnAddress := by
  rcases addNew_cases st env ty p bt with ⟨-, hr⟩ | ⟨st₁, hreg, hr⟩
  · rw [hr]
    exact h
  · rw [hr]
    refine State.RecordsOwnAddress.congr ?_ (registerStackItem_records st₁ env _ p bt).1
    rcases registerMemoryItem_cases hreg with ⟨-, -, rfl⟩ | ⟨old, -, rfl⟩
    · intro e he
      rcases List.mem_cons.mp he with rfl | he
      · rfl
      · exact h e he
    · have hset : (st.setMemoryItem p ⟨ty, .allocated, p, bt, none⟩).RecordsOwnAddress :=
        h.setMemoryItem rfl
      exact hset

theorem State.RecordsOwnAddress.removal (h : st.RecordsOwnAddress)
    (hr : removeCorrespondingTrace st bt = .ok st') : st'.RecordsOwnAddress := by
  refine h.congr ?_
  rw [removeCorrespondingTrace_frame hr]

theorem State.RecordsOwnAddress.testOperatorDelete (h : st.RecordsOwnAddress) (ho : st.Outermost)
    (hp : p ≠ 0) (t : MemoryType) :
    (Tracker.testOperatorDelete st env p t).st.RecordsOwnAddress := by
  have hcap : (st.capture env).RecordsOwnAddress := h
  rcases testOperatorDelete_cases env ho hp t with ⟨-, hr⟩ | ⟨item, -, -, hr⟩ |
    ⟨item, pr, -, -, -, hr⟩ | ⟨item, st₁, -, -, hrem, -, hr⟩ | ⟨item, st₁, hf, -, hrem, -, hr⟩
  · rw [hr]
    unfold deleteUntracked
    split_ifs <;> exact h
  · exact hcap.congr (initFailure_frame (by simp) hr).1
  · rw [hr]
    exact h
  · exact (hcap.removal hrem).congr (initFailure_frame (by simp) hr).1
  · have hreal := h.find hf
    have hset : (st₁.setMemoryItem p { item with
        status := .deallocated, deallocTrace := st.captured env }).RecordsOwnAddress :=
      (hcap.removal hrem).setMemoryItem hreal
    rw [hr]
    exact hset

theorem State.RecordsOwnAddress.testOperatorReAlloc (h : st.RecordsOwnAddress)
    (ho : st.Outermost) (hp : p ≠ 0) {n : ℕ} (hn : n ≠ 0) :
    (Tracker.testOperatorReAlloc st env p n).st.RecordsOwnAddress := by
  have hcap : (st.capture env).RecordsOwnAddress := h
  rcases testOperatorReAlloc_cases env ho hp hn with ⟨-, hr⟩ | ⟨item, -, -, hr⟩ |
    ⟨item, -, -, -, hr⟩ | ⟨item, -, -, -, -, hr⟩ | ⟨item, pr, -, -, -, -, -, hr⟩ |
    ⟨item, st₁, r, hf, -, -, -, hrem, hrr, hr⟩
  · rw [hr]
    unfold reAllocUntracked
    cases env.initialRealloc with
    | some q => exact h
    | none => exact hcap.congr (by simp)
  · exact hcap.congr (initFailure_frame (by simp) hr).1
  · exact hcap.congr (initFailure_frame (by simp) hr).1
  · rw [hr]
    exact hcap.congr (by simp)
  · rw [hr]
    exact hcap.congr (by simp [State.ends])
  · have hreq : ((st.capture env).reallocn item.realAddress env.raw).RecordsOwnAddress :=
      hcap.congr (by simp)
    have hreal := h.find hf
    have hset : (st₁.setMemoryItem p { item with
        status := .duringReallocChanged }).RecordsOwnAddress :=
      (hreq.removal hrem).setMemoryItem hreal
    rw [hr, hrr]
    exact hset.addNew .malloc

theorem State.RecordsOwnAddress.call (h : st.RecordsOwnAddress) (ho : st.Outermost) (c : Call) :
    (Tracker.call st env c).st.RecordsOwnAddress := by
  have hreq : ((st.mallocn env.raw).capture env).RecordsOwnAddress := h.congr (by simp)
  exact call_preserves ho c h (fun t => hreq.addNew t)
    (fun _ _ hp hn => h.testOperatorReAlloc ho hp hn) (fun _ t hp => h.testOperatorDelete ho hp t)
    (fun _ => h)

end Records

/-! ## A registration that returns -/

section Registered

variable {st st₁ : State} {env : Env} {p q : Addr} {bt : BacktracePtr} {item : SMemoryItem}

/-- A known stack stays known when its counter is written. -/
theorem findStackItem_setStackItem {t n : ℕ} {e : ℕ × ℕ} (hf : st.findStackItem t = some e) :
    ∃ k, (st.setStackItem t n).findStackItem t = some (k, n) := by
  have hlook : Entries.lookup (st.traces.sameStackAs t)
      (Entries.setFirst (st.traces.sameStackAs t) n st.stackItems) = some n :=
    Entries.lookup_setFirst_self (by
      have hf' : Entries.findEntry (st.traces.sameStackAs t) st.stackItems = some e := hf
      simp [Entries.lookup, hf'])
  exact Entries.lookup_eq_some_iff.mp hlook

/-- The counting of a block that returns: the backtrace is not null and its stack has a counter, if it
has a frame at all. -/
theorem registerStackItem_known (hrun : st.process = .running)
    (h : (registerStackItem st env item p bt).out = .returns q) :
    ∃ t, bt = some t ∧ ((st.traces.data t).ppBuffer ≠ [] →
      ∃ e, (registerStackItem st env item p bt).st.findStackItem t = some e) := by
  have hgo := (registerStackItem_returns hrun h).2
  cases bt with
  | none => cases h
  | some t =>
    refine ⟨t, rfl, fun hne => ?_⟩
    rcases registerStackItem_cases st env item p t with ⟨-, -, hr⟩ | ⟨-, -, hr⟩ |
      ⟨e, hf, -, hr⟩ | ⟨e, hf, -, hr⟩ | ⟨e, hf, -, -, r, hrr, hr⟩
    · have hself : isTheSameStack (st.traces.data t) (st.traces.data t) = true :=
        isTheSameStack_iff.mpr ⟨hne, rfl⟩
      refine ⟨(t, 1), ?_⟩
      rw [hr]
      simp [State.findStackItem, Entries.findEntry, TraceHeap.sameStackAs, hself]
    · rw [hr] at h
      cases h
    · rw [hr]
      exact ⟨e, hf⟩
    · rw [hr]
      obtain ⟨k, hk⟩ := findStackItem_setStackItem hf
      exact ⟨_, hk⟩
    · obtain ⟨-, hstk, -, -, -, -, hdata⟩ := initFailure_frame (by simp) hrr
      obtain ⟨e', he'⟩ := findStackItem_setStackItem (n := e.2 + 1) hf
      have hst : (registerStackItem st env item p (some t)).st = r.st := by
        rw [hr]
        split_ifs <;> rfl
      refine ⟨(e', e.2 + 1), ?_⟩
      rw [hst, ← he']
      exact findStackItem_congr hstk hdata t

/-- The block stays live through its counting, unless its leak report is acted on. -/
theorem registerStackItem_live (item : SMemoryItem) (t : ℕ) :
    p ∈ (registerStackItem st env item p (some t)).st.live ↔ p ∈ st.live ∧
      ¬ ∃ e, st.findStackItem t = some e ∧ 0 < st.unMaxNumberOfAllocFromTheSameStack ∧
        st.unMaxNumberOfAllocFromTheSameStack ≤ e.2 ∧
        env.clbkFnc (failureData st env item item.type p 0 .possibilityOfMemoryLeak (some t)) =
          .makeAction := by
  rcases registerStackItem_cases st env item p t with ⟨hf, -, hr⟩ | ⟨hf, -, hr⟩ |
    ⟨e, hf, hz, hr⟩ | ⟨e, hf, hlt, hr⟩ | ⟨e, hf, hpos, hle, r, hrr, hr⟩
  · simp [hr, hf]
  · simp [hr, hf]
  · simp [hr, hz]
  · rw [hr, hf]
    constructor
    · intro hp
      refine ⟨hp, ?_⟩
      rintro ⟨e', he', -, hle, -⟩
      cases he'
      omega
    · exact fun h => h.1
  · have hst : (registerStackItem st env item p (some t)).st = r.st := by
      rw [hr]
      split_ifs <;> rfl
    have hcong : failureData (st.setStackItem t (e.2 + 1)) env item item.type p 0
        .possibilityOfMemoryLeak (some t) =
          failureData st env item item.type p 0 .possibilityOfMemoryLeak (some t) :=
      failureData_congr rfl ..
    obtain ⟨d, hd, hans⟩ := initFailure_cases (st.setStackItem t (e.2 + 1)) env item item.type p 0
      .possibilityOfMemoryLeak (some t) (by simp)
    rw [hcong] at hd
    -- the callback decides between a freed block and an unchanged one
    have hdecide : (∃ e', st.findStackItem t = some e' ∧ 0 < st.unMaxNumberOfAllocFromTheSameStack ∧
        st.unMaxNumberOfAllocFromTheSameStack ≤ e'.2 ∧ env.clbkFnc (failureData st env item item.type
          p 0 .possibilityOfMemoryLeak (some t)) = .makeAction) ↔ env.clbkFnc d = .makeAction := by
      rw [hd]
      exact ⟨fun ⟨_, _, _, _, h⟩ => h, fun h => ⟨e, hf, hpos, hle, h⟩⟩
    rw [hst, hrr, hdecide]
    rcases hans with ⟨hans, hi⟩ | ⟨hans, hi⟩ | ⟨hans, -, hi⟩
    · rw [hi]
      simp [FailureType.actionIsRealloc, State.leaveScope, State.freen, hans]
    · rw [hi]
      simp [State.leaveScope, State.setStackItem, hans]
    · rw [hi]
      simp [State.ends, State.setStackItem, hans]

end Registered

/-! ## Runs with aligned allocations -/

section Runs

variable {st : State} {env : Env} {count align : ℕ} {memoryType : MemoryType} {bThrow : Bool}

/-- The four ways an aligned allocation by an outermost thread ends. -/
theorem testOperatorNewAligned_cases (env : Env) (ho : st.Outermost) (count : ℕ)
    (memoryType : MemoryType) (bThrow : Bool) (align : ℕ) :
    let r := testOperatorNewAligned st env count memoryType bThrow align
    (r.st = st ∧ (r.out = .returns 0 ∨ r.out = .throwsBadAlloc)) ∨
      (env.raw ≠ 0 ∧ r.st = st.mallocn env.raw ∧ (r.out = .returns 0 ∨ r.out = .throwsBadAlloc)) ∨
      (env.raw ≠ 0 ∧ ∃ r', r' = addNewAllocatedMemoryAndCleanOldEntryNoLock
          ((st.mallocn env.raw).capture env) env memoryType env.raw (st.captured env) ∧
        r.st = r'.st ∧
        ∀ p, r.out = .returns p → p = Alignment.alignUp (effectiveAlign align) env.raw ∧
          r'.out = .returns env.raw) := by
  have hnull : ∀ (u : State) (ev : List Event), (nullOrThrow u bThrow ev).out = .returns 0 ∨
      (nullOrThrow u bThrow ev).out = .throwsBadAlloc := by
    intro u ev
    cases bThrow
    · exact Or.inl rfl
    · exact Or.inr rfl
  intro r
  have hr : r = testOperatorNewAligned st env count memoryType bThrow align := rfl
  unfold testOperatorNewAligned at hr
  rw [if_neg (by simp [ho.2])] at hr
  by_cases hn : count = 0
  · rw [if_pos hn] at hr
    rw [hr]
    exact Or.inl ⟨rfl, hnull _ _⟩
  · rw [if_neg hn] at hr
    by_cases hraw : env.raw = 0
    · simp only [if_pos hraw] at hr
      rw [hr]
      exact Or.inl ⟨rfl, hnull _ _⟩
    · simp only [if_neg hraw] at hr
      cases hal : stdAlign (effectiveAlign align) count env.raw
          ((count + effectiveAlign align + sizeofVoidPtr) % sizeModulus) with
      | none =>
        rw [hal] at hr
        simp only at hr
        rw [hr]
        exact Or.inr (Or.inl ⟨hraw, rfl, hnull _ _⟩)
      | some q =>
        rw [hal] at hr
        simp only at hr
        have hrun : ((st.mallocn env.raw).capture env).process = .running := by simpa using ho.1
        refine Or.inr (Or.inr ⟨hraw, _, rfl, ?_, ?_⟩)
        · rw [hr, ← captured_mallocn env.raw]
          rfl
        · intro p hp
          have hreg : addNewAllocatedMemoryAndCleanOldEntry (st.mallocn env.raw) env memoryType
              env.raw = addNewAllocatedMemoryAndCleanOldEntryNoLock
                ((st.mallocn env.raw).capture env) env memoryType env.raw (st.captured env) := by
            rw [← captured_mallocn env.raw]
            rfl
          rw [hr, hreg] at hp
          cases hout : (addNewAllocatedMemoryAndCleanOldEntryNoLock
              ((st.mallocn env.raw).capture env) env memoryType env.raw (st.captured env)).out with
          | returns q' =>
            simp only [hout] at hp
            cases hp
            refine ⟨stdAlign_some hal, ?_⟩
            rw [(addNew_returns hrun hout).1]
          | throwsBadAlloc => simp [hout] at hp
          | processEnds => simp [hout] at hp

/-- What an aligned allocation keeps. -/
theorem testOperatorNewAligned_keeps (hs : Sound st) (hpos : st.CountersPositive)
    (hown : st.RecordsOwnAddress) (ho : st.Outermost) {r : Res}
    (hr : r = testOperatorNewAligned st env count memoryType bThrow align) :
    Sound r.st ∧ r.st.CountersPositive ∧ r.st.RecordsOwnAddress := by
  have hmal : Sound (st.mallocn env.raw) ∧ (st.mallocn env.raw).CountersPositive ∧
      (st.mallocn env.raw).RecordsOwnAddress :=
    ⟨hs.mallocn env.raw, hpos.congr (by simp), hown.congr (by simp)⟩
  rcases testOperatorNewAligned_cases env ho count memoryType bThrow align with ⟨hst, -⟩ |
    ⟨-, hst, -⟩ | ⟨-, r', hr', hst, -⟩
  · rw [hr, hst]
    exact ⟨hs, hpos, hown⟩
  · rw [hr, hst]
    exact hmal
  · obtain ⟨hs', hpos', hown'⟩ := hmal
    have hcapPos : ((st.mallocn env.raw).capture env).CountersPositive := hpos'
    have hcapOwn : ((st.mallocn env.raw).capture env).RecordsOwnAddress := hown'
    rw [hr, hst, hr', ← captured_mallocn env.raw]
    exact ⟨(hs'.capture env).addNew memoryType (captured_created _ env),
      hcapPos.addNew memoryType, hcapOwn.addNew memoryType⟩

/-- The invariants hold in every state that a run with aligned allocations reaches. -/
theorem ExportedReachable.invariants (h : ExportedReachable st) :
    Sound st ∧ st.CountersPositive ∧ st.RecordsOwnAddress := by
  obtain ⟨cs, rfl⟩ := h
  have hinit : Sound .init ∧ State.init.CountersPositive ∧ State.init.RecordsOwnAddress := by
    refine ⟨Sound.init, ?_, ?_⟩
    · intro e he
      simp [State.init] at he
    · intro e he
      simp [State.init] at he
  refine (Runs.always_of_invariant
    (I := fun s => Sound s ∧ s.CountersPositive ∧ s.RecordsOwnAddress) ?_ hinit
    (Runs.along_of_forall (fun _ _ => trivial) _ cs)).final
  rintro s ⟨c, env⟩ ⟨hs, hpos, hown⟩ -
  unfold exportedStep
  split_ifs with hrun
  · have ho : s.Outermost := ⟨hrun, hs.flag⟩
    cases c with
    | plain c => exact ⟨hs.call ho c, hpos.call hs.ndebug ho c, hown.call ho c⟩
    | newAligned count memoryType bThrow align =>
      exact testOperatorNewAligned_keeps hs hpos hown ho rfl
  · exact ⟨hs, hpos, hown⟩

/-- A registration that returns leaves the block live exactly when no leak report of it is acted
on, and its stack known exactly when the captured stack has a frame. -/
theorem registration_returns {p q : Addr} (ho : st.Outermost) (hlive : p ∈ st.live)
    (h : (addNewAllocatedMemoryAndCleanOldEntryNoLock (st.capture env) env memoryType p
      (st.captured env)).out = .returns q) {st' : State}
    (hst' : st' = (addNewAllocatedMemoryAndCleanOldEntryNoLock (st.capture env) env memoryType p
      (st.captured env)).st) :
    st'.process = .running ∧
      (p ∈ st'.live ↔ ¬ ActsOnLeak st env memoryType p) ∧
      ∃ t, st.captured env = some t ∧
        st'.findMemoryItem p = some ⟨memoryType, .allocated, p, some t, none⟩ ∧
        ((∃ e, st'.findStackItem t = some e) ↔ StackCaptured env) := by
  have hrun : (st.capture env).process = .running := ho.1
  obtain ⟨-, hgo, hfind⟩ := addNew_returns hrun h
  rw [← hst'] at hgo hfind
  rcases addNew_cases (st.capture env) env memoryType p (st.captured env) with ⟨-, hr⟩ |
    ⟨st₁, hreg, hr⟩
  · rw [hr] at h
    cases h
  · obtain ⟨hstk, hl, hproc, -, -, hmax, -, hdata⟩ := registerMemoryItem_frame hreg
    rw [hr] at h hst'
    obtain ⟨t, ht, hknown⟩ := registerStackItem_known (hproc.trans hrun) h
    have hfind₁ : st₁.findStackItem t = (st.capture env).findStackItem t :=
      findStackItem_congr hstk hdata t
    have hdata' : st'.traces.data = (st.capture env).traces.data := by
      rw [hst', (registerStackItem_records ..).2.2, hdata]
    refine ⟨hgo, ?_, t, ht, by rw [hfind, if_pos rfl, ht], ?_⟩
    · rw [hst', ht, registerStackItem_live, hfind₁, hmax, hl, failureData_congr hdata]
      simp only [ActsOnLeak, ht, Option.some.injEq, exists_and_left, exists_eq_left', hlive, true_and,
        capture_live, capture_threshold]
    · obtain ⟨s, hs⟩ : ∃ s, env.stack = some s := by
        cases hs : env.stack with
        | none => simp [State.captured, initBacktraceDataForCurrentStack, hs] at ht
        | some s => exact ⟨s, rfl⟩
      obtain ⟨hcap, -, hdat⟩ := captured_spec st hs
      rw [hcap] at ht
      cases ht
      constructor
      · rintro ⟨e, he⟩
        refine ⟨s, hs, ?_⟩
        have htest : isTheSameStack (st'.traces.data e.1) (st'.traces.data st.traces.next) = true :=
          Entries.findEntry_test he
        obtain ⟨hne, hsame⟩ := isTheSameStack_iff.mp htest
        rw [hsame, hdata', hdat] at hne
        exact hne
      · rintro ⟨s', hs', hne⟩
        rw [hs] at hs'
        cases hs'
        rw [hst']
        refine hknown ?_
        rw [hdata, hdat]
        exact hne

/-- The raw request of the block itself does not decide about its leak report. -/
theorem actsOnLeak_mallocn {p q : Addr} :
    ActsOnLeak (st.mallocn q) env memoryType p ↔ ActsOnLeak st env memoryType p := by
  have hdata : ((st.mallocn q).capture env).traces.data = (st.capture env).traces.data := by
    simp [State.capture]
  have hfind : ∀ t, ((st.mallocn q).capture env).findStackItem t =
      (st.capture env).findStackItem t := findStackItem_congr (by simp) hdata
  unfold ActsOnLeak
  simp only [captured_mallocn, hfind, mallocn_threshold, failureData_congr hdata]

/-! ## The round trip -/

/-- An aligned allocation that returns a block has registered the raw one. -/
theorem testOperatorNewAligned_returns (ho : st.Outermost) {p : Addr} (hp : p ≠ 0) {r : Res}
    (hr : r = testOperatorNewAligned st env count memoryType bThrow align)
    (hret : r.out = .returns p) :
    env.raw ≠ 0 ∧ p = Alignment.alignUp (effectiveAlign align) env.raw ∧ r.st.process = .running ∧
      (env.raw ∈ r.st.live ↔ ¬ ActsOnLeak st env memoryType env.raw) ∧
      ∃ t, st.captured env = some t ∧
        r.st.findMemoryItem env.raw = some ⟨memoryType, .allocated, env.raw, some t, none⟩ ∧
        ((∃ e, r.st.findStackItem t = some e) ↔ StackCaptured env) := by
  subst hr
  rcases testOperatorNewAligned_cases env ho count memoryType bThrow align with ⟨-, hno | hno⟩ |
    ⟨-, -, hno | hno⟩ | ⟨hraw, r', hr', hst, hq⟩
  · exact absurd (Outcome.returns.inj (hret.symm.trans hno)) hp
  · exact absurd (hret.symm.trans hno) (by simp)
  · exact absurd (Outcome.returns.inj (hret.symm.trans hno)) hp
  · exact absurd (hret.symm.trans hno) (by simp)
  · obtain ⟨hpal, hout⟩ := hq p hret
    have hom : (st.mallocn env.raw).Outermost := by simpa [State.Outermost] using ho
    have hin : env.raw ∈ (st.mallocn env.raw).live := by
      rw [mallocn_live st env.raw hraw]
      exact Finset.mem_insert_self _ _
    rw [hr', ← captured_mallocn env.raw] at hout
    rw [← captured_mallocn env.raw] at hr'
    obtain ⟨hgo, hlive, t, hcap, hf, hknown⟩ := registration_returns hom hin hout rfl
    rw [← hr'] at hgo hlive hf hknown
    rw [actsOnLeak_mallocn] at hlive
    rw [captured_mallocn] at hcap
    rw [hst]
    exact ⟨hraw, hpal, hgo, hlive, t, hcap, hf, hknown⟩

end Runs

end CrashInvestigator.Tracker
