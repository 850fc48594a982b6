import CrashInvestigator.Tracker.Nesting

/-!
# Nested calls

The records stay truthful over runs whose nested calls spare the recorded blocks. The one invariant is
that of leak accounting together with the agreement of records and ledger; a nested call keeps it
because it moves unrecorded blocks only, an outermost call because it does to the records what its
events do to the blocks.
-/

namespace CrashInvestigator.Tracker

open Library

/-! ## Nested calls -/

section Nested

variable {st : State} {env : Env} {a p q : Addr}

theorem mem_live_mallocn (ha : a ∈ st.live) : a ∈ (st.mallocn q).live := by
  unfold State.mallocn
  split_ifs
  · exact ha
  · exact Finset.mem_insert_of_mem ha

theorem mem_live_reallocn (ha : a ∈ st.live) (h : q = 0 ∨ q = p ∨ a ≠ p) :
    a ∈ (st.reallocn p q).live := by
  unfold State.reallocn
  split_ifs with hq
  · exact ha
  · by_cases hap : a = p
    · subst hap
      rcases h with h | rfl | h
      · exact absurd h hq
      · exact Finset.mem_insert_self _ _
      · exact absurd rfl h
    · exact Finset.mem_insert_of_mem (Finset.mem_erase.mpr ⟨hap, ha⟩)

/-- What a nested call does: live blocks come and go, and the threshold changes when the call sets it. -/
theorem call_inside (st : State) (env : Env) (hflag : st.bIsAllocingOrDeallocing = true) (c : Call) :
    ∃ L n, (call st env c).st = { st with live := L, unMaxNumberOfAllocFromTheSameStack := n } ∧
      (∀ a ∈ st.live, a ∉ (call st env c).freed → a ∈ L) ∧
      (n = st.unMaxNumberOfAllocFromTheSameStack ∨ c = .setMaxAllowedAllocInTheSameStack n) := by
  cases c with
  | alloc count type bThrow =>
    refine ⟨(st.mallocn env.raw).live, st.unMaxNumberOfAllocFromTheSameStack, ?_, ?_, Or.inl rfl⟩
    · rw [call, testOperatorAlloc, if_pos hflag]
      exact mallocn_eq st env.raw
    · exact fun a ha _ => mem_live_mallocn ha
  | calloc nmemb size =>
    refine ⟨(st.mallocn env.raw).live, st.unMaxNumberOfAllocFromTheSameStack, ?_, ?_, Or.inl rfl⟩
    · rw [call, testOperatorCalloc, if_pos hflag]
      exact mallocn_eq st env.raw
    · exact fun a ha _ => mem_live_mallocn ha
  | reAlloc p count =>
    refine ⟨(st.reallocn p env.raw).live, st.unMaxNumberOfAllocFromTheSameStack, ?_, ?_, Or.inl rfl⟩
    · rw [call, testOperatorReAlloc, if_pos hflag]
      exact reallocn_eq st p env.raw
    · intro a ha hfreed
      apply mem_live_reallocn ha
      by_contra hmoved
      push Not at hmoved
      apply hfreed
      rw [call, testOperatorReAlloc, if_pos hflag]
      simp [Res.freed, Event.freed, hmoved]
  | delete p type =>
    by_cases hp : p = 0
    · refine ⟨st.live, st.unMaxNumberOfAllocFromTheSameStack, ?_, fun a ha _ => ha, Or.inl rfl⟩
      rw [call, testOperatorDelete, if_pos hp]
    · refine ⟨(st.freen p).live, st.unMaxNumberOfAllocFromTheSameStack, ?_, ?_, Or.inl rfl⟩
      · rw [call, testOperatorDelete, if_neg hp, if_pos hflag]
        rfl
      · intro a ha hfreed
        refine Finset.mem_erase.mpr ⟨?_, ha⟩
        rintro rfl
        apply hfreed
        rw [call, testOperatorDelete, if_neg hp, if_pos hflag]
        exact List.mem_singleton_self a
  | setMaxAllowedAllocInTheSameStack n => exact ⟨st.live, n, rfl, fun a ha _ => ha, Or.inr rfl⟩

/-- A nested call that spares the recorded blocks frees none of them. -/
theorem SparesRecorded.freed {l : BlockLedger} {c : Call × Env} (h : SparesRecorded l c)
    (hp : p ∈ (call { l.st with bIsAllocingOrDeallocing := true } c.2 c.1).freed) :
    ¬ l.st.RecordedAllocated p := by
  obtain ⟨c, env⟩ := c
  cases c with
  | alloc count type bThrow => simp [call, testOperatorAlloc, Res.freed, Event.freed] at hp
  | calloc nmemb size => simp [call, testOperatorCalloc, Res.freed, Event.freed] at hp
  | reAlloc q count =>
    simp only [call, testOperatorReAlloc, Res.freed, if_true, List.filterMap_cons,
      List.filterMap_nil, Event.freed] at hp
    by_cases hmoved : env.raw = 0 ∨ env.raw = q
    · simp [hmoved] at hp
    · simp only [hmoved, if_false, List.mem_singleton] at hp
      subst hp
      rcases h with h | h | h
      · exact absurd (Or.inl h) hmoved
      · exact absurd (Or.inr h) hmoved
      · exact h
  | delete q type =>
    by_cases hq : q = 0
    · simp [call, testOperatorDelete, hq, Res.freed] at hp
    · simp only [call, testOperatorDelete, hq, Res.freed, if_true, if_false, List.filterMap_cons,
        List.filterMap_nil, Event.freed, List.mem_singleton] at hp
      subst hp
      exact h
  | setMaxAllowedAllocInTheSameStack n => simp [call, Res.freed] at hp

end Nested

/-! ## The invariant -/

/-- Every block is counted, the records are those of the ledger, and what a nested call released is not
among them. -/
structure NestInv (l : BlockLedger) : Prop where
  leak : LeakInv l.st fun _ => 0
  positive : 0 < l.st.unMaxNumberOfAllocFromTheSameStack
  recorded : ∀ a, l.st.RecordedAllocated a ↔ a ∈ l.live
  stale : ∀ a ∈ l.freedInside, ¬ l.st.RecordedAllocated a

theorem NestInv.init : NestInv .init := by
  refine ⟨LeakInv.init, by decide, fun a => ?_, nofun⟩
  constructor
  · rintro ⟨item, hf, -⟩
    cases hf
  · intro ha
    cases ha

theorem NestInv.truthful {l : BlockLedger} (h : NestInv l) : l.Truthful := by
  refine ⟨h.leak.outermost.1, h.recorded, fun a ha => ?_, h.leak.accounted.exact⟩
  obtain ⟨item, hf, hst⟩ := (h.recorded a).mpr ha
  exact (h.leak.live a item hf).2 hst

theorem NestInv.nestedCall {l : BlockLedger} (h : NestInv l) {c : Call × Env}
    (hc : SparesRecorded l c) : NestInv (l.nestedCall c) := by
  obtain ⟨L, n, hst, hlive, hn⟩ := call_inside { l.st with bIsAllocingOrDeallocing := true } c.2 rfl c.1
  set r := call { l.st with bIsAllocingOrDeallocing := true } c.2 c.1 with hr
  have hst' : (l.nestedCall c).st =
      { l.st with live := L, unMaxNumberOfAllocFromTheSameStack := n } := by
    show ({ r.st with bIsAllocingOrDeallocing := _ } : State) = _
    rw [hst]
  have hrec : ∀ a, (l.nestedCall c).st.RecordedAllocated a ↔ l.st.RecordedAllocated a := by
    intro a
    rw [hst']
    rfl
  refine ⟨?_, ?_, fun a => ?_, fun a ha => ?_⟩
  · rw [hst']
    refine ⟨h.leak.outermost, h.leak.ndebug, h.leak.accounted.congr rfl rfl (Nat.le_refl _)
      (fun _ _ => rfl), fun p item hf => ?_⟩
    obtain ⟨hreal, hal⟩ := h.leak.live p item hf
    refine ⟨hreal, fun hstatus => hlive p (hal hstatus) fun hfreed => ?_⟩
    exact hc.freed hfreed ⟨item, hf, hstatus⟩
  · rw [hst']
    rcases hn with hn | hn
    · rw [hn]
      exact h.positive
    · obtain ⟨c, env⟩ := c
      subst hn
      exact hc
  · rw [hrec, h.recorded]
    show _ ↔ a ∈ l.live \ r.freed.toFinset
    rw [Finset.mem_sdiff, List.mem_toFinset]
    constructor
    · intro ha
      exact ⟨ha, fun hfreed => hc.freed hfreed ((h.recorded a).mpr ha)⟩
    · exact fun ha => ha.1
  · rw [hrec]
    have ha' : a ∈ (l.freedInside ∪ r.freed.toFinset) \ r.issued.toFinset := ha
    rcases Finset.mem_union.mp (Finset.mem_sdiff.mp ha').1 with hold | hfreed
    · exact h.stale a hold
    · exact hc.freed (List.mem_toFinset.mp hfreed)

/-! ## Outermost calls -/

/-- What a call does to the records is what its events do to the blocks. -/
structure Res.Follows (r : Res) (st : State) (c : Call × Env) : Prop where
  recorded : ∀ a, r.st.RecordedAllocated a ↔
    st.RecordedAllocated a ∧ a ∉ r.freed ∨ r.out = .returns c.2.raw ∧ a ∈ st.registered c
  issued : ∀ a ∈ st.registered c, a ∈ r.issued

section Outermost

variable {st : State} {env : Env} {c : Call} {p : Addr}

theorem recordedAllocated_congr {st' : State} (hmem : st'.memoryItems = st.memoryItems) (a : Addr) :
    st'.RecordedAllocated a ↔ st.RecordedAllocated a := by
  unfold State.RecordedAllocated
  rw [findMemoryItem_congr hmem]

/-- A record that is closed is no longer one of an allocated block. -/
theorem recordedAllocated_closed {st₁ : State} {item item' : SMemoryItem}
    (hfind : ∀ a, st₁.findMemoryItem a = st.findMemoryItem a) (hf : st.findMemoryItem p = some item)
    (hst : item'.status ≠ .allocated) (a : Addr) :
    (st₁.setMemoryItem p item').RecordedAllocated a ↔ st.RecordedAllocated a ∧ a ≠ p := by
  unfold State.RecordedAllocated
  rw [findMemoryItem_setMemoryItem _ _ _ (by rw [hfind, hf]; rfl), hfind]
  by_cases ha : a = p
  · rw [if_pos ha]
    refine iff_of_false ?_ fun h => h.2 ha
    rintro ⟨x, hx, hal⟩
    cases hx
    exact hst hal
  · rw [if_neg ha]
    simp [ha]

/-- A call that registers nothing and frees no recorded block. -/
theorem Res.Follows.unregistered {r : Res} (hreg : st.registered (c, env) = [])
    (hmem : r.st.memoryItems = st.memoryItems)
    (hfreed : ∀ a ∈ r.freed, ¬ st.RecordedAllocated a) : r.Follows st (c, env) := by
  refine ⟨fun a => ?_, fun a ha => ?_⟩
  · rw [recordedAllocated_congr hmem, hreg]
    constructor
    · exact fun ha => Or.inl ⟨ha, fun hf => hfreed a hf ha⟩
    · rintro (ha | ha)
      · exact ha.1
      · cases ha.2
  · rw [hreg] at ha
    cases ha

/-- The events of a registration are reports. -/
theorem addNew_served (hgrow : TablesGrow env) (href : RefusesActions env)
    (hrun : st.process = .running) (ty : MemoryType) (t : ℕ) :
    (addNewAllocatedMemoryAndCleanOldEntryNoLock st env ty p (some t)).out = .returns p ∧
      ∀ e ∈ (addNewAllocatedMemoryAndCleanOldEntryNoLock st env ty p (some t)).events,
        ∃ d a, e = .clbkFnc d a := by
  rcases addNew_cases st env ty p (some t) with ⟨hnone, -⟩ | ⟨st₁, hreg, hr⟩
  · obtain ⟨st₁, hreg⟩ := registerMemoryItem_isSome st p ⟨ty, .allocated, p, some t, none⟩ hgrow.1
    rw [hreg] at hnone
    cases hnone
  · obtain ⟨-, -, hproc, -⟩ := registerMemoryItem_frame hreg
    rw [hr]
    rcases registerStackItem_cases st₁ env ⟨ty, .allocated, p, some t, none⟩ p t with
      ⟨-, -, hs⟩ | ⟨-, hno, -⟩ | ⟨e, -, -, hs⟩ | ⟨e, -, -, hs⟩ | ⟨e, -, -, -, r, hrr, hs⟩
    · rw [hs]
      exact ⟨rfl, fun e he => absurd he List.not_mem_nil⟩
    · rw [hgrow.2] at hno
      cases hno
    · rw [hs]
      exact ⟨rfl, fun e he => absurd he List.not_mem_nil⟩
    · rw [hs]
      exact ⟨rfl, fun e he => absurd he List.not_mem_nil⟩
    · rw [initFailure_doNot _ _ _ _ _ _ _ _ (by simp) (href _)] at hrr
      have hrun' : r.st.process = .running := by
        rw [hrr]
        exact hproc.trans hrun
      rw [hs, if_pos hrun', hrr]
      exact ⟨rfl, fun e he => ⟨_, _, List.mem_singleton.mp he⟩⟩

theorem filterMap_reports {es : List Event} (h : ∀ e ∈ es, ∃ d a, e = .clbkFnc d a)
    {f : Event → Option Addr} (hf : ∀ d a, f (.clbkFnc d a) = none) : es.filterMap f = [] := by
  rw [List.filterMap_eq_nil_iff]
  intro e he
  obtain ⟨d, a, rfl⟩ := h e he
  exact hf d a

/-- A call that ends with a registration of the block its raw request `e` issued. -/
theorem Res.Follows.registration (st' : State) (ty : MemoryType) (t : ℕ) (e : Event) {r : Res}
    (hgrow : TablesGrow env) (href : RefusesActions env) (hrun : st'.process = .running)
    (hreg : st.registered (c, env) = [env.raw]) (hissued : env.raw ∈ r.issued)
    (hrec : ∀ a, st'.RecordedAllocated a ↔ st.RecordedAllocated a ∧ e.freed ≠ some a)
    (hr : r = { addNewAllocatedMemoryAndCleanOldEntryNoLock st' env ty env.raw (some t) with
      events := e ::
        (addNewAllocatedMemoryAndCleanOldEntryNoLock st' env ty env.raw (some t)).events }) :
    r.Follows st (c, env) := by
  obtain ⟨hout, hev⟩ := addNew_served hgrow href hrun ty t (p := env.raw)
  have hfind : ∀ a, (addNewAllocatedMemoryAndCleanOldEntryNoLock st' env ty env.raw
      (some t)).st.findMemoryItem a =
        if a = env.raw then some ⟨ty, .allocated, env.raw, some t, none⟩ else st'.findMemoryItem a :=
    addNew_find (Or.inl hgrow.1)
  have hfreed : r.freed = e.freed.toList := by
    rw [hr, Res.freed, List.filterMap_cons, filterMap_reports hev fun _ _ => rfl]
    cases e.freed <;> rfl
  refine ⟨fun a => ?_, fun a ha => ?_⟩
  · rw [hfreed, hreg, Option.mem_toList, List.mem_singleton]
    by_cases ha : a = env.raw
    · refine iff_of_true ?_ (Or.inr ⟨?_, ha⟩)
      · refine ⟨⟨ty, .allocated, env.raw, some t, none⟩, ?_, rfl⟩
        rw [hr]
        exact (hfind a).trans (if_pos ha)
      · rw [hr]
        exact hout
    · have hsame : r.st.RecordedAllocated a ↔ st'.RecordedAllocated a := by
        unfold State.RecordedAllocated
        rw [hr]
        show (∃ item, _ = some item ∧ _) ↔ _
        rw [hfind a, if_neg ha]
      rw [hsame, hrec]
      constructor
      · exact fun h => Or.inl h
      · rintro (h | h)
        · exact h
        · exact absurd h.2 ha
  · rw [hreg] at ha
    rw [List.mem_singleton.mp ha]
    exact hissued

/-- The raw request of an allocation issues its answer. -/
theorem call_allocate_issued (ho : st.Outermost) {ty : MemoryType} (heff : c.effect = .allocate ty)
    (hraw : env.raw ≠ 0) : env.raw ∈ (call st env c).issued := by
  obtain ⟨-, hflag⟩ := ho
  apply List.mem_filterMap.mpr
  rcases allocate_ne_zero heff with ⟨n, b, rfl, hn⟩ | ⟨-, ⟨m, s, rfl, hn⟩ | ⟨n, rfl, hn⟩⟩
  · refine ⟨.mallocn n env.raw, ?_, if_neg hraw⟩
    simp [call, testOperatorAlloc, hflag, hn, hraw]
  · refine ⟨.callocn m s env.raw, ?_, if_neg hraw⟩
    simp [call, testOperatorCalloc, hflag, hn, hraw]
  · refine ⟨.mallocn n env.raw, ?_, if_neg hraw⟩
    simp [call, testOperatorReAlloc, testOperatorAlloc, hflag, hn, hraw]

theorem Event.isAllocation.freed_none {e : Event} (h : e.isAllocation = true) : e.freed = none := by
  cases e <;> first | rfl | cases h

theorem follows_allocate (h : LeakInv st fun _ => 0) (hc : Tracked st (c, env)) {ty : MemoryType}
    (heff : c.effect = .allocate ty) : (call st env c).Follows st (c, env) := by
  by_cases hraw : env.raw = 0
  · obtain ⟨hst, hev⟩ := call_allocate_null h.outermost heff hraw
    refine Res.Follows.unregistered (by simp [State.registered, heff, hraw]) (by rw [hst]) ?_
    intro a ha
    obtain ⟨e, he, hea⟩ := List.mem_filterMap.mp ha
    rw [Event.isAllocation.freed_none (hev e he)] at hea
    cases hea
  · obtain ⟨e, halloc, hcall⟩ := call_allocate h.outermost heff hraw
    obtain ⟨s, hs, -⟩ := hc.captured
    obtain ⟨hcap, -⟩ := captured_spec (st.mallocn env.raw) hs
    refine Res.Follows.registration ((st.mallocn env.raw).capture env) ty
      (st.mallocn env.raw).traces.next e hc.grow hc.refuses ?_ (by simp [State.registered, heff, hraw])
      (call_allocate_issued h.outermost heff hraw) ?_ ?_
    · simp [h.outermost.1]
    · intro a
      have hmem : ((st.mallocn env.raw).capture env).memoryItems = st.memoryItems := by simp
      rw [recordedAllocated_congr hmem, Event.isAllocation.freed_none halloc]
      simp
    · rw [hcall, ← hcap]
      rfl

theorem follows_release (h : LeakInv st fun _ => 0) (hc : Tracked st (c, env)) {ty : MemoryType}
    (heff : c.effect = .release p ty) : (call st env c).Follows st (c, env) := by
  have hp := (release_ne_zero heff).1
  have hreg : st.registered (c, env) = [] := by simp [State.registered, heff]
  rw [call_release h.outermost heff]
  rcases testOperatorDelete_cases env h.outermost hp ty with ⟨hf, hr⟩ |
    ⟨item, hf, hst, hr⟩ | ⟨item, pr, hf, hst, hrem, hr⟩ | ⟨item, st₁, hf, hst, -, hty, -⟩ |
    ⟨item, st₁, hf, hst, hrem, -, hr⟩
  · -- no record: the pool or libc gets the address
    rw [hr]
    unfold deleteUntracked
    split_ifs
    · exact .unregistered hreg rfl nofun
    · refine .unregistered hreg rfl ?_
      rintro a ha ⟨item, hfa, -⟩
      obtain rfl : p = a := by simpa [Res.freed, Event.freed] using ha
      rw [hf] at hfa
      cases hfa
  · rw [hr, initFailure_doNot _ _ _ _ _ _ _ _ (by simp) (hc.refuses _)]
    exact .unregistered hreg rfl (by simp [Res.freed, Event.freed])
  · rw [hr]
    exact .unregistered hreg rfl nofun
  · exact absurd ⟨p, ty, item, heff, hf, hst, hty⟩ hc.matching
  · have hfind : ∀ a, st₁.findMemoryItem a = st.findMemoryItem a :=
      fun a => removeCorrespondingTrace_find hrem a
    have hclosed : ∀ a, (st₁.setMemoryItem p { item with
        status := .deallocated, deallocTrace := st.captured env }).RecordedAllocated a ↔
          st.RecordedAllocated a ∧ a ≠ p := recordedAllocated_closed hfind hf (by simp)
    rw [hr]
    refine ⟨fun a => (hclosed a).trans ?_, fun a ha => ?_⟩
    · rw [hreg]
      show _ ↔ st.RecordedAllocated a ∧ a ∉ [item.realAddress] ∨ _
      simp [(h.live p item hf).1]
    · rw [hreg] at ha
      cases ha

theorem follows_move (h : LeakInv st fun _ => 0) (hc : Tracked st (c, env)) {n : ℕ}
    (heff : c.effect = .move p n) (hrun : (call st env c).st.process = .running) :
    (call st env c).Follows st (c, env) := by
  obtain ⟨-, hp, hn⟩ := move_ne_zero heff
  have hraw : env.raw ≠ 0 := hc.succeeds p n heff
  rw [call_move heff] at hrun ⊢
  rcases testOperatorReAlloc_cases env h.outermost hp hn with ⟨hf, hr⟩ |
    ⟨item, hf, hty, hr⟩ | ⟨item, hf, hty, hst, hr⟩ | ⟨item, hf, hty, hst, hkeep, hr⟩ |
    ⟨item, pr, hf, hty, hst, hmv, hrem, hr⟩ | ⟨item, st₁, r, hf, hty, hst, hmv, hrem, hrr, hr⟩
  · -- no record: the pool or libc gets the address
    have hreg : st.registered (c, env) = [] := by simp [State.registered, heff, hf]
    rw [hr]
    unfold reAllocUntracked
    cases env.initialRealloc with
    | some q => exact .unregistered hreg rfl nofun
    | none =>
      refine .unregistered hreg (by simp) ?_
      rintro a ha ⟨item, hfa, -⟩
      have hap : a = p := by
        simp only [Res.freed, List.filterMap_cons, List.filterMap_nil, Event.freed] at ha
        split_ifs at ha <;> simp_all
      rw [hap, hf] at hfa
      cases hfa
  · rw [hr, initFailure_doNot _ _ _ _ _ _ _ _ (by simp) (hc.refuses _)]
    refine .unregistered (by simp [State.registered, heff, hf, hty]) rfl ?_
    simp [Res.freed, Event.freed]
  · rw [hr, initFailure_doNot _ _ _ _ _ _ _ _ (by simp) (hc.refuses _)]
    refine .unregistered (by simp [State.registered, heff, hf, hst]) rfl ?_
    simp [Res.freed, Event.freed]
  · rw [hr]
    refine .unregistered (by simp [State.registered, heff, hf, hkeep]) (by simp) ?_
    simp [Res.freed, Event.freed, (h.live p item hf).1, hkeep]
  · rw [hr] at hrun
    exact absurd hrun (removeCorrespondingTrace_error hrem)
  · obtain ⟨s, hs, -⟩ := hc.captured
    obtain ⟨hcap, -⟩ := captured_spec st hs
    have hreal := (h.live p item hf).1
    have hframe := removeCorrespondingTrace_frame hrem
    have hfind : ∀ a, st₁.findMemoryItem a = st.findMemoryItem a := by
      intro a
      rw [removeCorrespondingTrace_find hrem]
      exact findMemoryItem_congr (by simp) a
    rw [hcap] at hrr
    refine Res.Follows.registration (st₁.setMemoryItem p { item with status := .duringReallocChanged })
      .malloc st.traces.next (.reallocn item.realAddress n env.raw) hc.grow hc.refuses ?_ ?_ ?_ ?_
      (by rw [hr, hrr])
    · show st₁.process = .running
      rw [hframe]
      simp [h.outermost.1]
    · simp [State.registered, heff, hf, hty, hst, hraw, hmv]
    · rw [hr]
      simp [Res.issued, Event.issued, hraw, hreal, hmv]
    · intro a
      have hfreed : Event.freed (.reallocn item.realAddress n env.raw) = some p := by
        simp [Event.freed, hraw, hreal, hmv]
      rw [recordedAllocated_closed hfind hf (by simp [MemoryStatus.duringReallocChanged]), hfreed]
      simp [eq_comm]

theorem follows_setMax {n : ℕ} (heff : c.effect = .setMax n) :
    (call st env c).Follows st (c, env) := by
  obtain ⟨hst, hev⟩ : (call st env c).st = _ ∧ (call st env c).events = [] := call_setMax heff
  refine .unregistered (by simp [State.registered, heff]) (by rw [hst]) ?_
  simp [Res.freed, hev]

/-- Every outermost call that is accounted for does to the records what it does to the blocks. -/
theorem follows_call (h : LeakInv st fun _ => 0) (hc : Tracked st (c, env))
    (hrun : (call st env c).st.process = .running) : (call st env c).Follows st (c, env) := by
  cases heff : c.effect with
  | nothing =>
    obtain ⟨hst, hev⟩ : (call st env c).st = st ∧ (call st env c).events = [] :=
      call_nothing h.outermost heff
    refine .unregistered (by simp [State.registered, heff]) (by rw [hst]) ?_
    simp [Res.freed, hev]
  | allocate ty => exact follows_allocate h hc heff
  | release p ty => exact follows_release h hc heff
  | move p n => exact follows_move h hc heff hrun
  | setMax n => exact follows_setMax heff

end Outermost

theorem NestInv.outermostCall {l : BlockLedger} (h : NestInv l) {c : Call × Env}
    (hc : Tracked l.st c) (hmax : SetsPositiveMax c.1) : NestInv (l.outermostCall c) := by
  obtain ⟨c, env⟩ := c
  have hstep := LeakInv.step_positive ⟨h.leak, h.positive⟩ ⟨hc, hmax⟩
  rw [step_eq h.leak.outermost] at hstep
  have hfollows := follows_call h.leak hc hstep.1.outermost.1
  refine ⟨hstep.1, hstep.2, fun a => ?_, fun a ha => ?_⟩
  · refine (hfollows.recorded a).trans ?_
    rw [h.recorded]
    show _ ↔ a ∈ l.live \ (call l.st env c).freed.toFinset ∪ _
    rw [Finset.mem_union, Finset.mem_sdiff, List.mem_toFinset]
    refine or_congr Iff.rfl ?_
    split_ifs with hout
    · simp [hout]
    · simp [hout]
  · have ha' : a ∈ l.freedInside \ (call l.st env c).issued.toFinset := ha
    obtain ⟨hold, hiss⟩ := Finset.mem_sdiff.mp ha'
    rintro hrec
    rcases (hfollows.recorded a).mp hrec with hrec | ⟨-, hreg⟩
    · exact h.stale a hold hrec.1
    · exact hiss (List.mem_toFinset.mpr (hfollows.issued a hreg))

/-! ## Runs -/

/-- Any number of nested calls. -/
theorem NestInv.nestedCalls {l : BlockLedger} (h : NestInv l) {cs : List (Call × Env)}
    (hcs : Runs.Along BlockLedger.nestedCall SparesRecorded l cs) :
    NestInv (Runs.final BlockLedger.nestedCall l cs) := by
  refine (Runs.always_of_invariant ?_ h hcs).final
  exact fun l c hl hc => hl.nestedCall hc

theorem NestInv.entered {l : BlockLedger} (h : NestInv l) {m : MixedCall} (hm : KeepsTruth l m) :
    NestInv (l.entered m) :=
  h.nestedCalls hm.before

theorem NestInv.step {l : BlockLedger} (h : NestInv l) {m : MixedCall} (hm : KeepsTruth l m) :
    NestInv (l.step m) := by
  have hserved : NestInv (l.served m) := (h.entered hm).outermostCall hm.tracked hm.positive
  unfold BlockLedger.step
  rw [if_neg (not_not.mpr h.leak.outermost.1), if_neg (not_not.mpr hserved.leak.outermost.1)]
  exact hserved.nestedCalls hm.after

/-- A released block with a record is found not to be allocated. -/
theorem NestInv.reportsStaleRelease {l : BlockLedger} (h : NestInv l) {m : MixedCall}
    (hm : KeepsTruth l m) : ReportsStaleRelease l m := by
  intro p t heff hp
  have hin := h.entered hm
  have ho := hin.leak.outermost
  obtain ⟨item, hf⟩ := Option.isSome_iff_exists.mp (hm.stale p t heff hp)
  have hst : item.status ≠ .allocated := fun hst => hin.stale p hp ⟨item, hf, hst⟩
  rw [call_release ho heff]
  rcases testOperatorDelete_cases m.outermost.2 ho (release_ne_zero heff).1 t with ⟨hf', -⟩ |
    ⟨item', hf', -, hr⟩ | ⟨item', pr, hf', hst', -⟩ | ⟨item', st₁, hf', hst', -⟩ |
    ⟨item', st₁, hf', hst', -⟩
  · rw [hf] at hf'
    cases hf'
  · rw [hr]
    refine ⟨(initFailure_reports hm.tracked.refuses (by simp)).mpr rfl, ?_⟩
    rw [initFailure_doNot _ _ _ _ _ _ _ _ (by simp) (hm.tracked.refuses _)]
    exact nofun
  · rw [hf] at hf'
    cases hf'
    exact absurd hst' hst
  · rw [hf] at hf'
    cases hf'
    exact absurd hst' hst
  · rw [hf] at hf'
    cases hf'
    exact absurd hst' hst

end CrashInvestigator.Tracker
