import CrashInvestigator.Detection.Reports

/-!
# Reports in progress

A backtrace lies at one place only: it is the `allocTrace` or the `deallocTrace` of one record, in the
hand of one thread, or in the note of one thread. A report in progress points to backtraces that it
does not hold, and they are freed exactly when the record of its address is replaced. This lasts until
the first leak report ends, whose cleaner frees a backtrace that it does not hold either.
-/

namespace CrashInvestigator.Detection.Reports

open Tracker Library

/-- Where a backtrace can lie. -/
inductive Place (θ : Type*) where
  | alloc (ptr : Addr)
  | dealloc (ptr : Addr)
  | hand (thread : θ)
  | note (thread : θ)
  deriving DecidableEq

variable {θ : Type*}

/-- What lies where. -/
def State.place (st : State θ) : Place θ → BacktracePtr
  | .alloc p => (st.memoryItems.lookup p).bind SMemoryItem.allocTrace
  | .dealloc p => (st.memoryItems.lookup p).bind SMemoryItem.deallocTrace
  | .hand i => (st.pending i).trace
  | .note i => st.note i

/-- The backtraces of a copy are those of the record still, or they were freed with it. -/
def Copied (st : State θ) (p : Addr) (item : SMemoryItem) : Prop :=
  (∃ current, st.memoryItems.lookup p = some current ∧ current.allocTrace = item.allocTrace ∧
    ∀ t, item.deallocTrace = some t → current.deallocTrace = some t) ∨
  ∀ t, Reads item t → st.traces.frees t ≠ 0

/-- A record has the trace of its allocation, and a block that was not released has no trace of a
release. -/
def Traced (item : SMemoryItem) : Prop :=
  item.allocTrace.isSome ∧ (item.status = .allocated → item.deallocTrace = none)

/-- What a report in progress has in its hands. -/
structure Reported (st : State θ) (ft : FailureType) (item : SMemoryItem) (p : Addr)
    (bt : BacktracePtr) : Prop where
  isSome : item.allocTrace.isSome
  copied : Copied st p item
  leak : ft = .possibilityOfMemoryLeak → item.allocTrace = bt

structure Inv (st : State θ) : Prop where
  placed : Placed st.traces.next st.traces.frees st.place
  traced : ∀ p item, st.memoryItems.lookup p = some item → Traced item
  adding : ∀ i ty p bt, st.pending i = .addNewAllocatedMemory ty p bt → bt.isSome
  reported : ∀ i ft item p bt, st.pending i = .report ft item p bt → Reported st ft item p bt

theorem Inv.init : Inv (State.init : State θ) := by
  refine ⟨?_, ?_, ?_, ?_⟩
  · refine Placed.empty.congr fun a => ?_
    cases a with
    | alloc p => simp [State.place, State.init]
    | dealloc p => simp [State.place, State.init]
    | hand i => rfl
    | note i => rfl
  · intro p item h
    simp [State.init] at h
  · intro i ty p bt h
    cases h
  · intro i ft item p bt h
    cases h

/-! ## Freeing through a pointer -/

section Heap

variable {h : TraceHeap} {π : Type*} [DecidableEq π] {place : π → BacktracePtr} {a : π}

theorem placed_free (hp : Placed h.next h.frees place) {p : BacktracePtr} (ha : place a = p) :
    Placed (freeBacktraceData h p).next (freeBacktraceData h p).frees
      (Function.update place a none) := by
  cases p with
  | none => exact hp.forget a
  | some t => exact hp.free ha

theorem le_frees (h : TraceHeap) (p : BacktracePtr) (t : ℕ) :
    h.frees t ≤ (freeBacktraceData h p).frees t := by
  cases p with
  | none => exact Nat.le_refl _
  | some u =>
    rw [freeBacktraceData_frees_some]
    split_ifs with hu
    · rw [hu]
      omega
    · exact Nat.le_refl _

/-- What is freed through a pointer is freed. -/
theorem frees_ne_zero (h : TraceHeap) (t : ℕ) : (freeBacktraceData h (some t)).frees t ≠ 0 := by
  rw [freeBacktraceData_frees_some, if_pos rfl]
  omega

end Heap

/-! ## What a step may do to the records -/

/-- No count of frees goes down, and every record is still there with the same backtraces, is released, or
was replaced and its backtraces were freed. -/
structure Evolves (st st' : State θ) : Prop where
  frees : ∀ t, st.traces.frees t ≤ st'.traces.frees t
  records : ∀ p item, st.memoryItems.lookup p = some item →
    (∃ item', st'.memoryItems.lookup p = some item' ∧ item'.allocTrace = item.allocTrace ∧
      ∀ t, item.deallocTrace = some t → item'.deallocTrace = some t) ∨
    ∀ t, Reads item t → st'.traces.frees t ≠ 0

section Steps

variable {st st' st'' : State θ} {p q : Addr} {item : SMemoryItem} {t : ℕ}

theorem Evolves.of_same (hmem : st'.memoryItems = st.memoryItems)
    (hfrees : ∀ t, st.traces.frees t ≤ st'.traces.frees t) : Evolves st st' := by
  refine ⟨hfrees, fun p item hf => Or.inl ⟨item, ?_, rfl, fun _ h => h⟩⟩
  rw [hmem]
  exact hf

theorem Evolves.trans (h : Evolves st st') (h' : Evolves st' st'') : Evolves st st'' := by
  refine ⟨fun t => Nat.le_trans (h.frees t) (h'.frees t), fun p item hf => ?_⟩
  rcases h.records p item hf with ⟨item', hf', halloc, hdealloc⟩ | hfreed
  · rcases h'.records p item' hf' with ⟨item'', hf'', halloc', hdealloc'⟩ | hfreed
    · exact Or.inl ⟨item'', hf'', halloc'.trans halloc, fun t ht => hdealloc' t (hdealloc t ht)⟩
    · refine Or.inr fun t ht => hfreed t ?_
      rcases ht with ht | ht
      · exact Or.inl (halloc.trans ht)
      · exact Or.inr (hdealloc t ht)
  · refine Or.inr fun t ht => ?_
    have hle := h'.frees t
    have hne := hfreed t ht
    omega

theorem Copied.evolve (h : Copied st p item) (hev : Evolves st st') : Copied st' p item := by
  rcases h with ⟨current, hf, halloc, hdealloc⟩ | hfreed
  · rcases hev.records p current hf with ⟨next, hf', halloc', hdealloc'⟩ | hfreed
    · exact Or.inl ⟨next, hf', halloc'.trans halloc, fun t ht => hdealloc' t (hdealloc t ht)⟩
    · refine Or.inr fun t ht => hfreed t ?_
      rcases ht with ht | ht
      · exact Or.inl (halloc.trans ht)
      · exact Or.inr (hdealloc t ht)
  · refine Or.inr fun t ht => ?_
    have hle := hev.frees t
    have hne := hfreed t ht
    omega

/-- A copy that is taken from the table. -/
theorem Copied.of_lookup (hf : st.memoryItems.lookup p = some item) : Copied st p item :=
  Or.inl ⟨item, hf, rfl, fun _ h => h⟩

/-- The record of one address gets the same backtraces, or one of a release. -/
theorem Evolves.of_insert {item' : SMemoryItem} (hf : st.memoryItems.lookup p = some item)
    (hmem : st'.memoryItems = st.memoryItems.insert p item')
    (hfrees : ∀ t, st.traces.frees t ≤ st'.traces.frees t)
    (halloc : item'.allocTrace = item.allocTrace)
    (hdealloc : ∀ t, item.deallocTrace = some t → item'.deallocTrace = some t) :
    Evolves st st' := by
  refine ⟨hfrees, fun q other hq => Or.inl ?_⟩
  by_cases hqp : q = p
  · subst hqp
    rw [hf] at hq
    cases hq
    refine ⟨item', ?_, halloc, hdealloc⟩
    rw [hmem, Finmap.lookup_insert]
  · refine ⟨other, ?_, rfl, fun _ h => h⟩
    rw [hmem, Finmap.lookup_insert_of_ne _ hqp]
    exact hq

end Steps

/-! ## Registrations -/

section Registration

variable {item : SMemoryItem}

/-- The backtraces of a replaced record are freed. -/
def cleaned (h : TraceHeap) : Option SMemoryItem → TraceHeap
  | none => h
  | some old => freeBacktraceData (freeBacktraceData h old.deallocTrace) old.allocTrace

theorem addNewItem_eq (st : State θ) (p : Addr) (item : SMemoryItem) :
    addNewItem st p item =
      { st with
        traces := cleaned st.traces (st.memoryItems.lookup p)
        memoryItems := st.memoryItems.insert p item } := by
  unfold addNewItem
  cases st.memoryItems.lookup p with
  | none => rfl
  | some old => rfl

theorem le_cleaned (h : TraceHeap) (o : Option SMemoryItem) (t : ℕ) :
    h.frees t ≤ (cleaned h o).frees t := by
  cases o with
  | none => exact Nat.le_refl _
  | some old => exact Nat.le_trans (le_frees h _ t) (le_frees _ _ t)

theorem cleaned_reads (h : TraceHeap) {t : ℕ} (ht : Reads item t) :
    (cleaned h (some item)).frees t ≠ 0 := by
  rcases ht with ht | ht
  · show (freeBacktraceData (freeBacktraceData h item.deallocTrace) item.allocTrace).frees t ≠ 0
    rw [ht]
    exact frees_ne_zero _ t
  · have hfreed : (freeBacktraceData h item.deallocTrace).frees t ≠ 0 := by
      rw [ht]
      exact frees_ne_zero h t
    have hle := le_frees (freeBacktraceData h item.deallocTrace) item.allocTrace t
    show (freeBacktraceData (freeBacktraceData h item.deallocTrace) item.allocTrace).frees t ≠ 0
    omega

/-- A registration replaces the record of its address and leaves the others alone. -/
theorem evolves_addNewItem (st : State θ) (p : Addr) (new : SMemoryItem) :
    Evolves st (addNewItem st p new) := by
  rw [addNewItem_eq]
  refine ⟨fun t => le_cleaned _ _ t, fun q item hq => ?_⟩
  by_cases hqp : q = p
  · subst hqp
    right
    intro t ht
    show (cleaned st.traces (st.memoryItems.lookup q)).frees t ≠ 0
    rw [hq]
    exact cleaned_reads st.traces ht
  · left
    refine ⟨item, ?_, rfl, fun _ h => h⟩
    show (st.memoryItems.insert p _).lookup q = some item
    rw [Finmap.lookup_insert_of_ne _ hqp]
    exact hq

end Registration

/-! ## Places after a step -/

section Places

variable [DecidableEq θ] {i : θ} {p : Addr}

theorem place_await (st : State θ) (i : θ) (pd : Pending) :
    (st.await i pd).place = Function.update st.place (.hand i) pd.trace := by
  funext a
  cases a with
  | alloc p => rfl
  | dealloc p => rfl
  | note j => rfl
  | hand j =>
    by_cases hj : j = i
    · subst hj
      simp [State.place, State.await]
    · simp [State.place, State.await, hj]

theorem place_insert (st : State θ) (p : Addr) (item : SMemoryItem) :
    State.place { st with memoryItems := st.memoryItems.insert p item } =
      Function.update (Function.update st.place (.alloc p) item.allocTrace) (.dealloc p)
        item.deallocTrace := by
  funext a
  cases a with
  | alloc q =>
    by_cases hq : q = p
    · subst hq
      simp [State.place]
    · simp [State.place, hq, Finmap.lookup_insert_of_ne]
  | dealloc q =>
    by_cases hq : q = p
    · subst hq
      simp [State.place]
    · simp [State.place, hq, Finmap.lookup_insert_of_ne]
  | note j => simp [State.place]
  | hand j => simp [State.place]

theorem place_note (st : State θ) (i : θ) (bt : BacktracePtr) :
    State.place { st with note := Function.update st.note i bt } =
      Function.update st.place (.note i) bt := by
  funext a
  cases a with
  | alloc p => rfl
  | dealloc p => rfl
  | hand j => rfl
  | note j =>
    by_cases hj : j = i
    · subst hj
      simp [State.place]
    · simp [State.place, hj]

variable {h : TraceHeap} {pl : Place θ → BacktracePtr} {o : Option SMemoryItem} {t : ℕ}

theorem placed_cleaned (hp : Placed h.next h.frees pl)
    (ha : pl (.alloc p) = o.bind SMemoryItem.allocTrace)
    (hd : pl (.dealloc p) = o.bind SMemoryItem.deallocTrace) :
    Placed (cleaned h o).next (cleaned h o).frees
      (Function.update (Function.update pl (.dealloc p) none) (.alloc p) none) := by
  cases o with
  | none => exact (hp.forget _).forget _
  | some old =>
    refine placed_free (placed_free hp hd) ?_
    rw [Function.update_of_ne (by simp)]
    exact ha

/-- The old backtraces of the record are freed, and the one in hand becomes its `allocTrace`. -/
theorem placed_registered (hp : Placed h.next h.frees pl)
    (ha : pl (.alloc p) = o.bind SMemoryItem.allocTrace)
    (hd : pl (.dealloc p) = o.bind SMemoryItem.deallocTrace) (ht : pl (.hand i) = some t) :
    Placed (cleaned h o).next (cleaned h o).frees
      (Function.update (Function.update (Function.update pl (.dealloc p) none) (.hand i) none)
        (.alloc p) (some t)) := by
  have hclean := placed_cleaned hp ha hd
  have hhand : Function.update (Function.update pl (.dealloc p) none) (.alloc p) none (.hand i) =
      some t := by
    rw [Function.update_of_ne (by simp), Function.update_of_ne (by simp)]
    exact ht
  refine (hclean.move hhand (Function.update_self ..)).congr fun a => ?_
  by_cases hhand : a = .hand i
  · subst hhand
    simp
  · by_cases halloc : a = .alloc p
    · subst halloc
      simp
    · simp [hhand, halloc]

end Places

/-! ## The invariant -/

section Invariant

variable {st st' : State θ} {p : Addr} {item : SMemoryItem}

theorem traced_insert (h : ∀ p item, st.memoryItems.lookup p = some item → Traced item)
    (hitem : Traced item) (q : Addr) (other : SMemoryItem)
    (hq : (st.memoryItems.insert p item).lookup q = some other) : Traced other := by
  by_cases hqp : q = p
  · subst hqp
    rw [Finmap.lookup_insert] at hq
    cases hq
    exact hitem
  · rw [Finmap.lookup_insert_of_ne _ hqp] at hq
    exact h q other hq

/-- The hand of a thread outside all routines is empty. -/
theorem hand_idle {i : θ} (hidle : st.pending i = .idle) : st.place (.hand i) = none := by
  show (st.pending i).trace = none
  rw [hidle]
  rfl

/-- What the invariant says about the backtraces of the records. -/
theorem Inv.unfreed (h : Inv st) (hf : st.memoryItems.lookup p = some item) {t : ℕ}
    (ht : Reads item t) : st.traces.frees t = 0 := by
  rcases ht with ht | ht
  · refine h.placed.unfreed (.alloc p) t ?_
    show (st.memoryItems.lookup p).bind _ = _
    rw [hf]
    exact ht
  · refine h.placed.unfreed (.dealloc p) t ?_
    show (st.memoryItems.lookup p).bind _ = _
    rw [hf]
    exact ht

theorem Inv.reportsReadLive (h : Inv st) : ReportsReadLive st := by
  refine ⟨h.placed.once, fun p item t hf ht => h.unfreed hf ht, fun j ft item p bt hj => ?_⟩
  obtain ⟨hsome, hcopied, -⟩ := h.reported j ft item p bt hj
  obtain ⟨t, ht⟩ := Option.isSome_iff_exists.mp hsome
  constructor
  · intro hlive
    rcases hcopied with ⟨current, hf, halloc, -⟩ | hfreed
    · exact ⟨current, hf, halloc⟩
    · exact absurd (hlive t (Or.inl ht)) (hfreed t (Or.inl ht))
  · rintro ⟨current, hf, halloc⟩
    rcases hcopied with ⟨current', hf', halloc', hdealloc⟩ | hfreed
    · intro u hu
      rcases hu with hu | hu
      · exact h.unfreed hf' (Or.inl (halloc'.trans hu))
      · exact h.unfreed hf' (Or.inr (hdealloc u hu))
    · -- the trace of the allocation was freed, and so no record has it
      have hlive := h.unfreed hf (Or.inl (halloc.trans ht))
      exact absurd hlive (hfreed t (Or.inl ht))

variable [DecidableEq θ] {i : θ}

/-- A step of thread `i` has to account for the places, the records and what the thread does next. -/
theorem Inv.of_step (h : Inv st) (i : θ) (pd : Pending) (hev : Evolves st st')
    (hpend : st'.pending = Function.update st.pending i pd)
    (hplaced : Placed st'.traces.next st'.traces.frees st'.place)
    (htraced : ∀ p item, st'.memoryItems.lookup p = some item → Traced item)
    (hadd : ∀ ty p bt, pd = .addNewAllocatedMemory ty p bt → bt.isSome)
    (hreported : ∀ ft item p bt, pd = .report ft item p bt → Reported st' ft item p bt) :
    Inv st' := by
  refine ⟨hplaced, htraced, fun j ty p bt hj => ?_, fun j ft item p bt hj => ?_⟩
  · rw [hpend] at hj
    by_cases hji : j = i
    · subst hji
      rw [Function.update_self] at hj
      exact hadd ty p bt hj
    · rw [Function.update_of_ne hji] at hj
      exact h.adding j ty p bt hj
  · rw [hpend] at hj
    by_cases hji : j = i
    · subst hji
      rw [Function.update_self] at hj
      exact hreported ft item p bt hj
    · rw [Function.update_of_ne hji] at hj
      obtain ⟨hsome, hcopied, hleak⟩ := h.reported j ft item p bt hj
      exact ⟨hsome, hcopied.evolve hev, hleak⟩

/-- After a registration the thread has nothing in hand. -/
theorem trace_added (leak : Bool) (item : SMemoryItem) (p : Addr) (bt : BacktracePtr) :
    Pending.trace (if leak then .report .possibilityOfMemoryLeak item p bt else .idle) = none := by
  cases leak with
  | false => rfl
  | true => rfl

/-- A new backtrace comes into the hand of the thread. -/
theorem Inv.placed_capture (h : Inv st) (hidle : st.pending i = .idle) :
    Placed (st.traces.next + 1) st.traces.frees
      (Function.update st.place (.hand i) (some st.traces.next)) :=
  h.placed.create (hand_idle hidle)

/-- The capture of a stack before a step that touches no record. -/
theorem Inv.captured (h : Inv st) (hidle : st.pending i = .idle) (stack : Backtrace)
    {pd : Pending} (hpd : pd.trace = some st.traces.next)
    (hcopy : ∀ ft item p bt, pd = .report ft item p bt →
      st.memoryItems.lookup p = some item) : Inv ((st.capture stack).1.await i pd) := by
  refine h.of_step i pd (Evolves.of_same rfl fun _ => Nat.le_refl _) rfl ?_ h.traced
    ?_ ?_
  · refine (h.placed_capture hidle).congr fun a => ?_
    rw [place_await, hpd]
    rfl
  · intro ty p bt heq
    rw [heq] at hpd
    rw [show bt = some st.traces.next from hpd]
    rfl
  · intro ft item p bt heq
    have hf := hcopy ft item p bt heq
    refine ⟨(h.traced p item hf).1, Copied.of_lookup hf, fun hleak => ?_⟩
    rw [heq, hleak] at hpd
    cases hpd

/-- A backtrace that the early pool makes lost. -/
theorem Inv.lost (h : Inv st) (hidle : st.pending i = .idle) (stack : Backtrace) :
    Inv (st.capture stack).1 := by
  refine h.of_step i .idle (Evolves.of_same rfl fun _ => Nat.le_refl _) ?_ ?_
    h.traced ?_ ?_
  · rw [← hidle, Function.update_eq_self]
    rfl
  · refine ((h.placed_capture hidle).forget (.hand i)).congr fun a => ?_
    rw [Function.update_idem, ← hand_idle hidle, Function.update_eq_self]
    rfl
  · intro ty p bt heq
    cases heq
  · intro ft item p bt heq
    cases heq

/-- A backtrace that goes into the note of the thread, in place of the one that was there. -/
theorem Inv.noted (h : Inv st) (hidle : st.pending i = .idle) (stack : Backtrace) :
    Inv { (st.capture stack).1.free (st.note i) with
      note := Function.update st.note i (some st.traces.next) } := by
  refine h.of_step i .idle (Evolves.of_same rfl fun t => ?_) ?_ ?_ h.traced ?_ ?_
  · exact le_frees (st.capture stack).1.traces (st.note i) t
  · rw [← hidle, Function.update_eq_self]
    rfl
  · -- the old backtrace of the note is freed, then the new one moves there from the hand
    have hcap := h.placed_capture hidle
    have hnote : Function.update st.place (.hand i) (some st.traces.next) (.note i) = st.note i := by
      rw [Function.update_of_ne (by simp)]
      rfl
    have hfree := placed_free (h := (st.capture stack).1.traces) hcap hnote
    have hhand : Function.update (Function.update st.place (.hand i) (some st.traces.next)) (.note i)
        none (.hand i) = some st.traces.next := by
      rw [Function.update_of_ne (by simp), Function.update_self]
    refine (hfree.move hhand (Function.update_self ..)).congr fun a => ?_
    show State.place { st with note := Function.update st.note i (some st.traces.next) } a = _
    rw [place_note]
    have hnone := hand_idle hidle
    by_cases ha : a = .note i
    · subst ha
      simp
    · by_cases hb : a = .hand i
      · subst hb
        simp [hnone]
      · simp [ha, hb]
  · intro ty p bt heq
    cases heq
  · intro ft item p bt heq
    cases heq

theorem traced_released (h : Traced item) (bt : BacktracePtr) :
    Traced { item with status := .deallocated, deallocTrace := bt } := by
  refine ⟨h.1, ?_⟩
  intro hcon
  cases hcon

/-- A release: the new backtrace becomes the `deallocTrace` of the record. -/
theorem Inv.released (h : Inv st) (hidle : st.pending i = .idle) (stack : Backtrace)
    (hf : st.memoryItems.lookup p = some item) (hst : item.status = .allocated) (q : Addr) :
    Inv ({ (st.capture stack).1 with
      memoryItems := st.memoryItems.insert p { item with
        status := .deallocated, deallocTrace := some st.traces.next } }.await i (.freen q)) := by
  have hnone : item.deallocTrace = none := (h.traced p item hf).2 hst
  refine h.of_step i (.freen q) ?_ rfl ?_
    (traced_insert h.traced (traced_released (h.traced p item hf) _)) ?_ ?_
  · refine Evolves.of_insert hf rfl (fun _ => Nat.le_refl _) rfl fun t ht => ?_
    rw [hnone] at ht
    cases ht
  · have halloc : st.place (.alloc p) = item.allocTrace := by
      show (st.memoryItems.lookup p).bind _ = _
      rw [hf]
      rfl
    have hdealloc : Function.update st.place (.hand i) (some st.traces.next) (.dealloc p) = none := by
      rw [Function.update_of_ne (by simp)]
      show (st.memoryItems.lookup p).bind _ = _
      rw [hf]
      exact hnone
    have hmoved := (h.placed_capture hidle).move (Function.update_self ..) hdealloc
    refine hmoved.congr fun a => ?_
    rw [place_await]
    show Function.update (State.place { st with memoryItems := st.memoryItems.insert p _ }) (.hand i)
      none a = _
    rw [place_insert]
    by_cases hhand : a = .hand i
    · subst hhand
      simp
    · by_cases ha : a = .dealloc p
      · subst ha
        simp
      · by_cases hb : a = .alloc p
        · subst hb
          simp [halloc]
        · simp [hhand, ha, hb]
  · intro ty p bt heq
    cases heq
  · intro ft item p bt heq
    cases heq

theorem traced_new (ty : MemoryType) (p : Addr) {bt : BacktracePtr} (hbt : bt.isSome) :
    Traced ⟨ty, .allocated, p, bt, none⟩ := ⟨hbt, fun _ => rfl⟩

/-- A registration of the backtrace `t`, which lies in the hand of thread `i` in the places `pl`. -/
theorem placed_addNew {h : TraceHeap} {pl : Place θ → BacktracePtr} {t : ℕ} (st : State θ)
    (hp : Placed h.next h.frees pl) (hpl : ∀ a, a ≠ .hand i → pl a = st.place a)
    (ht : pl (.hand i) = some t) (ty : MemoryType) (p : Addr) :
    Placed (cleaned h (st.memoryItems.lookup p)).next (cleaned h (st.memoryItems.lookup p)).frees
      (Function.update (State.place { st with
        memoryItems := st.memoryItems.insert p ⟨ty, .allocated, p, some t, none⟩ }) (.hand i)
        none) := by
  have hreg := placed_registered hp (o := st.memoryItems.lookup p) (p := p)
    (by rw [hpl _ (by simp)]; rfl) (by rw [hpl _ (by simp)]; rfl) ht
  refine hreg.congr fun a => ?_
  rw [place_insert]
  by_cases hhand : a = .hand i
  · subst hhand
    simp
  · by_cases ha : a = .alloc p
    · subst ha
      simp
    · by_cases hb : a = .dealloc p
      · subst hb
        simp
      · simp [hhand, ha, hb, hpl a hhand]

/-- A record of a captured backtrace, and the leak report that may follow. -/
theorem Inv.added (h : Inv st) (st' : State θ) (i : θ) (hev : Evolves st st')
    (hpend : st'.pending = st.pending)
    (htraced : ∀ p item, st'.memoryItems.lookup p = some item → Traced item) (ty : MemoryType)
    (p : Addr) (t : ℕ) (leak : Bool)
    (hplaced : Placed (cleaned st'.traces (st'.memoryItems.lookup p)).next
      (cleaned st'.traces (st'.memoryItems.lookup p)).frees
      (Function.update (State.place { st' with
        memoryItems := st'.memoryItems.insert p ⟨ty, .allocated, p, some t, none⟩ }) (.hand i)
        none)) :
    Inv (addNewAllocatedMemoryAndCleanOldEntryNoLock st' i ty p (some t) leak) := by
  set item : SMemoryItem := ⟨ty, .allocated, p, some t, none⟩
  let pd : Pending := if leak then .report .possibilityOfMemoryLeak item p (some t) else .idle
  show Inv ((addNewItem st' p item).await i pd)
  refine h.of_step i pd ?_ ?_ ?_ ?_ ?_ ?_
  · exact (hev.trans (evolves_addNewItem st' p _)).trans
      (Evolves.of_same rfl fun _ => Nat.le_refl _)
  · rw [addNewItem_eq, ← hpend]
    rfl
  · rw [place_await, addNewItem_eq, trace_added]
    exact hplaced
  · rw [addNewItem_eq]
    exact traced_insert htraced (traced_new ty p rfl)
  · intro ty p bt heq
    simp only [pd] at heq
    split_ifs at heq
  · intro ft item q bt heq
    simp only [pd] at heq
    split_ifs at heq
    · cases heq
      refine ⟨rfl, Copied.of_lookup ?_, fun _ => rfl⟩
      rw [addNewItem_eq]
      exact Finmap.lookup_insert _

/-- A realloc that moves the block: the old record keeps its backtraces, and the new one is
registered with the new backtrace. -/
theorem Inv.moved (h : Inv st) (hidle : st.pending i = .idle) (stack : Backtrace)
    (hf : st.memoryItems.lookup p = some item) (q : Addr) (leak : Bool) :
    Inv (addNewAllocatedMemoryAndCleanOldEntryNoLock { (st.capture stack).1 with
      memoryItems := st.memoryItems.insert p { item with status := .duringReallocChanged } }
      i .malloc q (some st.traces.next) leak) := by
  have hmoved : Traced { item with status := .duringReallocChanged } := by
    refine ⟨(h.traced p item hf).1, ?_⟩
    intro hcon
    cases hcon
  set m := st.memoryItems.insert p { item with status := .duringReallocChanged } with hm
  have hplace : State.place { st with memoryItems := m } = st.place := by
    rw [hm, place_insert]
    funext a
    by_cases ha : a = .dealloc p
    · subst ha
      simp [State.place, hf]
    · by_cases hb : a = .alloc p
      · subst hb
        simp [State.place, hf]
      · simp [ha, hb]
  refine h.added { (st.capture stack).1 with memoryItems := m } i ?_ rfl
    (traced_insert h.traced hmoved) .malloc q st.traces.next leak ?_
  · exact Evolves.of_insert hf rfl (fun _ => Nat.le_refl _) rfl fun _ ht => ht
  · exact placed_addNew (i := i) (h := (st.capture stack).1.traces) { st with memoryItems := m }
      (h.placed_capture hidle) (fun a ha => by rw [Function.update_of_ne ha, hplace])
      (Function.update_self ..) .malloc q

/-- The second half of an allocation. -/
theorem Inv.registered (h : Inv st) {ty : MemoryType} {bt : BacktracePtr}
    (hpend : st.pending i = .addNewAllocatedMemory ty p bt) (leak : Bool) :
    Inv (addNewAllocatedMemoryAndCleanOldEntryNoLock st i ty p bt leak) := by
  obtain ⟨t, rfl⟩ := Option.isSome_iff_exists.mp (h.adding i ty p bt hpend)
  have hhand : st.place (.hand i) = some t := by
    show (st.pending i).trace = some t
    rw [hpend]
    rfl
  exact h.added st i (Evolves.of_same rfl fun _ => Nat.le_refl _) rfl h.traced ty p t leak
    (placed_addNew st h.placed (fun _ _ => rfl) hhand ty p)

/-- A backtrace in hand is freed at the end of a routine. -/
theorem Inv.freed (h : Inv st) {bt : BacktracePtr} (hbt : (st.pending i).trace = bt) :
    Inv ((st.free bt).await i .idle) := by
  refine h.of_step i .idle (Evolves.of_same rfl fun t => le_frees st.traces bt t) rfl
    ?_ h.traced ?_ ?_
  · rw [place_await]
    exact placed_free h.placed hbt
  · intro ty p bt heq
    cases heq
  · intro ft item p bt heq
    cases heq

/-! ## Steps and runs -/

theorem trace_report {ft : FailureType} (hft : ft ≠ .possibilityOfMemoryLeak) {p : Addr}
    {item : SMemoryItem} {bt : BacktracePtr} : (Pending.report ft item p bt).trace = bt := by
  cases ft with
  | possibilityOfMemoryLeak => exact absurd rfl hft
  | _ => rfl

theorem Inv.untracked (h : Inv st) (hidle : st.pending i = .idle) (ans : Answers) :
    Inv (untracked (st.capture ans.stack).1 i (st.capture ans.stack).2 ans) := by
  unfold Reports.untracked
  split_ifs
  · exact h.lost hidle ans.stack
  · exact h.noted hidle ans.stack

theorem Inv.alloc (h : Inv st) (hidle : st.pending i = .idle) (ty : MemoryType) (ans : Answers) :
    Inv (testOperatorAlloc st i ty ans) := by
  unfold testOperatorAlloc
  split_ifs
  · exact h
  · refine h.captured hidle ans.stack rfl ?_
    intro ft item p bt heq
    cases heq

/-- A report of a failure starts with a copy of a record. -/
theorem Inv.reports (h : Inv st) (hidle : st.pending i = .idle) (stack : Backtrace)
    {ft : FailureType} (hft : ft ≠ .possibilityOfMemoryLeak)
    (hf : st.memoryItems.lookup p = some item) :
    Inv ((st.capture stack).1.await i (.report ft item p (st.capture stack).2)) := by
  refine h.captured hidle stack (trace_report hft) ?_
  intro ft' item' p' bt heq
  cases heq
  exact hf

theorem Inv.delete (h : Inv st) (hidle : st.pending i = .idle) (p : Addr) (ty : MemoryType)
    (ans : Answers) : Inv (testOperatorDelete st i p ty ans) := by
  unfold testOperatorDelete
  cases hf : (st.capture ans.stack).1.memoryItems.lookup p with
  | none =>
    simp only [hf]
    exact h.untracked hidle ans
  | some item =>
    simp only [hf]
    split_ifs with hst hty
    · exact h.reports hidle ans.stack (by decide) hf
    · exact h.reports hidle ans.stack (by decide) hf
    · exact h.released hidle ans.stack hf (not_not.mp hst) item.realAddress

theorem Inv.reAlloc (h : Inv st) (hidle : st.pending i = .idle) (p : Addr) (ans : Answers) :
    Inv (testOperatorReAlloc st i p ans) := by
  unfold testOperatorReAlloc
  cases hf : (st.capture ans.stack).1.memoryItems.lookup p with
  | none =>
    simp only [hf]
    exact h.untracked hidle ans
  | some item =>
    simp only [hf]
    split_ifs
    · exact h.reports hidle ans.stack (by decide) hf
    · exact h.reports hidle ans.stack (by decide) hf
    · refine h.captured hidle ans.stack rfl ?_
      intro ft item p bt heq
      cases heq
    · exact h.moved hidle ans.stack hf ans.raw ans.leak

theorem Inv.enter (h : Inv st) (hidle : st.pending i = .idle) (ans : Answers) (c : Call) :
    Inv (enter st i ans c) := by
  cases c with
  | alloc n ty b =>
    simp only [Reports.enter]
    split_ifs
    · exact h
    · exact h.alloc hidle ty ans
  | calloc m n =>
    simp only [Reports.enter]
    split_ifs
    · exact h
    · exact h.alloc hidle .malloc ans
  | reAlloc p n =>
    simp only [Reports.enter]
    split_ifs
    · exact h
    · exact h.alloc hidle .malloc ans
    · exact h.delete hidle p .malloc ans
    · exact h.reAlloc hidle p ans
  | delete p ty =>
    simp only [Reports.enter]
    split_ifs
    · exact h
    · exact h.delete hidle p ty ans
  | setMaxAllowedAllocInTheSameStack n => exact h

theorem Inv.resume (h : Inv st) (hleak : (st.pending i).leak = false) (leak : Bool) :
    Inv (resume st i leak) := by
  unfold Reports.resume
  cases hpend : st.pending i with
  | idle => exact h
  | addNewAllocatedMemory ty p bt => exact h.registered hpend leak
  | freen p =>
    have hfree : Inv ((st.free none).await i .idle) := h.freed (by rw [hpend]; rfl)
    exact hfree
  | report ft item p bt =>
    have hft : ft ≠ .possibilityOfMemoryLeak := by
      rintro rfl
      rw [hpend] at hleak
      cases hleak
    exact h.freed (by rw [hpend]; exact trace_report hft)
  | freeBacktraceData bt => exact h.freed (by rw [hpend]; rfl)

/-- The cleaner of a leak report frees the backtrace of a record, or one that was freed before. -/
theorem Inv.leak_ends (h : Inv st) (hleak : (st.pending i).leak = true) (leak : Bool) :
    ¬ ReportsReadLive (Reports.resume st i leak) := by
  cases hpend : st.pending i with
  | report ft item p bt =>
    have hft : ft = .possibilityOfMemoryLeak := by
      rw [hpend] at hleak
      cases ft with
      | possibilityOfMemoryLeak => rfl
      | _ => cases hleak
    obtain ⟨hsome, hcopied, hbt⟩ := h.reported i ft item p bt hpend
    obtain ⟨t, ht⟩ := Option.isSome_iff_exists.mp hsome
    have hown : bt = some t := (hbt hft).symm.trans ht
    unfold Reports.resume
    simp only [hpend, hown]
    intro hlive
    rcases hcopied with ⟨current, hf, halloc, -⟩ | hfreed
    · have hzero := hlive.records p current t hf (Or.inl (halloc.trans ht))
      exact frees_ne_zero st.traces t hzero
    · have hone : st.traces.frees t ≠ 0 := hfreed t (Or.inl ht)
      have htwo : st.traces.frees t + 1 ≤ 1 := by
        have honce := hlive.once t
        change (freeBacktraceData st.traces (some t)).frees t ≤ 1 at honce
        rw [freeBacktraceData_frees_some, if_pos rfl] at honce
        exact honce
      omega
  | _ =>
    rw [hpend] at hleak
    cases hleak

theorem Inv.act (h : Inv st) {a : Action θ} (hends : EndsNoLeakReport st a) : Inv (act st a) := by
  cases a with
  | enter i c ans =>
    simp only [Reports.act]
    split_ifs with hidle
    · exact h.enter hidle ans c
    · exact h
  | resume i leak => exact h.resume hends leak

theorem Inv.act_ends (h : Inv st) {a : Action θ} (hends : ¬ EndsNoLeakReport st a) :
    ¬ ReportsReadLive (Reports.act st a) := by
  cases a with
  | enter i c ans => exact absurd trivial hends
  | resume i leak => exact h.leak_ends (Bool.of_not_eq_false hends) leak

/-- Under every schedule of the threads, no backtrace is freed twice, no record points to a freed one,
and a report in progress reads freed backtraces exactly when the address that it is about has got
another record in the meantime, as long as no leak report has ended. -/
theorem reports_read_live_iff (as : List (Action θ)) :
    Runs.Always act ReportsReadLive (State.init : State θ) as ↔
      Runs.Along act EndsNoLeakReport (State.init : State θ) as :=
  Runs.always_iff_along (fun _ => Inv.reportsReadLive) (fun _ _ h _ hends => h.act hends)
    (fun _ _ h _ hends => h.act_ends hends) Inv.init (Runs.along_of_forall (fun _ _ => trivial) _ as)

end Invariant

/-- One thread reports a double free of `16`, and another one gets the address before the report reads
the backtraces. -/
def raceRun : List (Action Bool) :=
  let ans : Answers := ⟨16, ⟨[1]⟩, false, false⟩
  [.enter false (.alloc 8 .malloc false) ans, .resume false false,
    .enter false (.delete 16 .malloc) ans, .resume false false,
    .enter false (.delete 16 .malloc) ans, .enter true (.alloc 8 .malloc false) ans,
    .resume true true]

/-- The run of the race ends in two reports: that of the double free has a copy whose backtraces are
freed, and the leak report of the new record is about a live one. -/
theorem reports_read_live_iff_raceRun :
    Runs.Always act ReportsReadLive (State.init : State Bool) raceRun ∧
      (Runs.final act (State.init : State Bool) raceRun).pending false =
        .report .doubleFree ⟨.malloc, .deallocated, 16, some 0, some 1⟩ 16 (some 2) ∧
      (Runs.final act (State.init : State Bool) raceRun).pending true =
        .report .possibilityOfMemoryLeak ⟨.malloc, .allocated, 16, some 3, none⟩ 16 (some 3) ∧
      (Runs.final act (State.init : State Bool) raceRun).traces.frees 0 = 1 ∧
      ¬ Runs.Always act ReportsReadLive (State.init : State Bool)
        (raceRun ++ [.resume true false]) :=
  ⟨(reports_read_live_iff raceRun).mpr (by decide), by decide, by decide, by decide,
    fun h => absurd ((reports_read_live_iff _).mp h) (by decide)⟩

end CrashInvestigator.Detection.Reports
