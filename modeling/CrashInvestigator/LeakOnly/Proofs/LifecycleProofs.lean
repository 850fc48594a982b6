import CrashInvestigator.LeakOnly.Lifecycle
import CrashInvestigator.LeakOnly.Proofs.AnalyzerProofs

/-!
# Creation and use of the tables

The constructor creates the tables again when a tracked allocation came first, and a release that comes
before both finds null pointers. In every other order the tables are there when they are used.
-/

namespace CrashInvestigator.LeakOnly

open Library Library.Runs
open Tracker (Addr)

/-! ## The flag -/

section Flag

variable {st : State} {ptr : Addr}

theorem takeStackOut_flag (st : State) (t : ℕ) :
    (takeStackOut st t).1.initOrExitOngoing = st.initOrExitOngoing := by
  unfold takeStackOut
  cases st.findStack t with
  | none => rfl
  | some e =>
    obtain ⟨k, n⟩ := e
    simp only
    split_ifs <;> rfl

theorem removeMem_flag (st : State) (entry : Addr × ℕ) :
    (removeMem st entry).1.initOrExitOngoing = st.initOrExitOngoing := takeStackOut_flag st entry.2

/-- A release leaves the flag as it found it. -/
theorem freeMem_flag (st : State) (ptr : Addr) :
    (freeMem st ptr).st.initOrExitOngoing = st.initOrExitOngoing := by
  unfold freeMem freeMemAnalyze
  cases hflag : st.initOrExitOngoing with
  | true => simp [hflag]
  | false =>
    cases hf : st.findMem ptr with
    | none => simp [State.leaveHandler]
    | some entry => simp [State.leaveHandler]

theorem nested_flag (cs : List (Call × Addr)) (r : Res) :
    (cs.foldl nestedCall r).st.initOrExitOngoing = r.st.initOrExitOngoing := by
  induction cs generalizing r with
  | nil => rfl
  | cons c cs ih =>
    rw [List.foldl_cons, ih]
    obtain ⟨call, answer⟩ := c
    cases call with
    | allocMem size => rfl
    | freeMem ptr => exact freeMem_flag r.st ptr

theorem recoverMem_flag (st : State) (ptr : Addr) :
    (recoverMem st ptr).1.initOrExitOngoing = st.initOrExitOngoing := by
  unfold recoverMem
  cases st.findMem ptr with
  | none => rfl
  | some entry => exact removeMem_flag st entry

theorem countStack_flag (h : st.initOrExitOngoing = false) (env : Env) (t : ℕ) :
    (countStack st env ptr t).st.initOrExitOngoing = false := by
  unfold countStack
  cases st.findStack t with
  | none => rfl
  | some e =>
    simp only
    split_ifs
    · unfold reportLeak
      simp only [nested_flag]
      exact h
    · rfl

/-- So does an allocation. -/
theorem allocMem_flag (h : st.initOrExitOngoing = false) (env : Env) (size : ℕ) :
    (allocMem st env size).st.initOrExitOngoing = false := by
  unfold allocMem
  split_ifs
  · exact h
  · rfl
  · cases hstack : env.stack with
    | none => rfl
    | some b =>
      simp only [Tracker.initBacktraceDataForCurrentStack]
      refine countStack_flag ?_ env _
      show (recoverMem _ _).1.initOrExitOngoing = false
      rw [recoverMem_flag]
      exact h

theorem freeMem_idle (h : st.initOrExitOngoing = true) : (freeMem st ptr).st = st := by
  simp [freeMem, freeMemAnalyze, h]

end Flag

/-! ## The phases -/

/-- Where the tables are, phase by phase. -/
structure Life.Tidy (l : Life) : Prop where
  noFault : l.fault = none
  /-- The three pointers go together. -/
  mutex : l.statics.pMutex = l.statics.pMem
  stack : l.statics.pStack = l.statics.pMem
  /-- Before the constructor the tables are there as soon as they were created. -/
  before : l.phase = .before → l.statics.st.initOrExitOngoing = false ∧
    l.statics.callOnceFlag = l.statics.pMem ∧ l.statics.initRaws = l.statics.pMem.toNat
  during : l.phase = .during → l.statics.st.initOrExitOngoing = false ∧
    l.statics.pMem = true ∧ l.statics.initRaws = 1
  after : l.phase = .after → l.statics.st.initOrExitOngoing = true ∧ l.statics.initRaws = 1
  /-- Nothing is recorded before the tables are created. -/
  empty : l.phase = .before → l.statics.pMem = false → l.statics.st.pMem = []

section Phases

variable {l : Life} {lb : Label}

theorem Life.Tidy.start (max : ℕ) : (Life.start max).Tidy where
  noFault := rfl
  mutex := rfl
  stack := rfl
  before := fun _ => ⟨rfl, rfl, rfl⟩
  during := fun h => by cases h
  after := fun h => by cases h
  empty := fun _ _ => rfl

theorem Life.Tidy.sound (h : l.Tidy) : l.Sound := by
  refine ⟨h.noFault, ?_, ?_⟩
  · cases hp : l.phase with
    | before =>
      rw [(h.before hp).2.2]
      exact Bool.toNat_le _
    | during => rw [(h.during hp).2.2]
    | after => rw [(h.after hp).2]
  · intro hne
    cases hp : l.phase with
    | before => exact absurd hp hne
    | during => exact (h.during hp).2.2
    | after => exact (h.after hp).2

/-- The first tracked allocation creates the tables, and the others find them. -/
theorem Life.Tidy.init (h : l.Tidy) (hflag : l.statics.st.initOrExitOngoing = false) (time : ℤ) :
    (l.statics.init time).pMutex = true ∧ (l.statics.init time).pMem = true ∧
      (l.statics.init time).pStack = true ∧
      (l.statics.init time).st.initOrExitOngoing = false ∧
      (l.phase = .before → (l.statics.init time).callOnceFlag = true) ∧
      (l.statics.init time).initRaws = 1 := by
  unfold Statics.init
  cases hmem : l.statics.pMem with
  | true =>
    rw [if_pos (by rw [h.mutex, hmem])]
    refine ⟨by rw [h.mutex, hmem], hmem, by rw [h.stack, hmem], hflag, fun hp => ?_, ?_⟩
    · rw [(h.before hp).2.1, hmem]
    · cases hp : l.phase with
      | before => rw [(h.before hp).2.2, hmem]; rfl
      | during => exact (h.during hp).2.2
      | after => exact (h.after hp).2
  | false =>
    have hp : l.phase = .before := by
      cases hp : l.phase with
      | before => rfl
      | during =>
        rw [(h.during hp).2.1] at hmem
        cases hmem
      | after =>
        rw [(h.after hp).1] at hflag
        cases hflag
    obtain ⟨-, honce, hraws⟩ := h.before hp
    rw [if_neg (by simp [h.mutex, hmem]), if_neg (by simp [honce, hmem])]
    refine ⟨rfl, rfl, rfl, rfl, fun _ => rfl, ?_⟩
    show l.statics.initRaws + 1 = 1
    rw [hraws, hmem]
    rfl

/-- An allocation dereferences no null pointer, in whatever phase it comes. -/
theorem Life.Tidy.allocMem (h : l.Tidy) (env : Env) (time : ℤ) (size : ℕ) :
    ∃ s r, l.statics.allocMem env time size = .ok (s, r) ∧ ({ l with statics := s } : Life).Tidy := by
  unfold Statics.allocMem
  by_cases huntracked :
      l.statics.st.initOrExitOngoing = true ∨ 0 < l.statics.isOngoing ∨ env.ignoreThisStack = true
  · exact ⟨_, _, if_pos huntracked, h⟩
  · have hflag : l.statics.st.initOrExitOngoing = false := by
      rw [← Bool.not_eq_true]
      exact fun hf => huntracked (Or.inl hf)
    obtain ⟨hmutex, hmem, hstack, hflag', honce, hraws⟩ := h.init hflag time
    have hnot : l.phase ≠ .after := by
      intro hp
      rw [(h.after hp).1] at hflag
      cases hflag
    simp only [if_neg huntracked, hmutex, hmem, hstack, not_true_eq_false, if_false, ite_self]
    refine ⟨_, _, rfl, h.noFault, rfl, rfl, fun hp => ?_, fun _ => ?_, fun hp => absurd hp hnot,
      fun _ hp => (by cases hp)⟩
    · exact ⟨allocMem_flag hflag' _ _, honce hp, hraws⟩
    · exact ⟨allocMem_flag hflag' _ _, rfl, hraws⟩

/-- A release after the tables were created, or after they were deleted, dereferences no null
pointer. -/
theorem Life.Tidy.freeMem (h : l.Tidy) (ptr : Addr)
    (hc : l.statics.st.initOrExitOngoing = true ∨ l.statics.pMem = true) :
    ∃ s r, l.statics.freeMem ptr = .ok (s, r) ∧ ({ l with statics := s } : Life).Tidy := by
  have hflag := freeMem_flag l.statics.st ptr
  unfold Statics.freeMem
  by_cases hidle : l.statics.st.initOrExitOngoing = true
  · refine ⟨_, LeakOnly.freeMem l.statics.st ptr, if_pos hidle, ?_⟩
    rw [freeMem_idle hidle]
    exact h
  · have hmem : l.statics.pMem = true := hc.resolve_left hidle
    have hmutex := h.mutex.trans hmem
    have hstack := h.stack.trans hmem
    refine ⟨{ l.statics with st := (LeakOnly.freeMem l.statics.st ptr).st },
      LeakOnly.freeMem l.statics.st ptr, ?_, h.noFault, h.mutex, h.stack, fun hp => ?_,
      fun hp => ?_, fun hp => ?_, fun _ hp => ?_⟩
    · rw [if_neg hidle, if_neg (not_not_intro hmutex), if_neg (not_not_intro hmem),
        if_neg (fun hc => hc.2 hstack)]
    · obtain ⟨hf, hrest⟩ := h.before hp
      exact ⟨hflag.trans hf, hrest⟩
    · obtain ⟨hf, hrest⟩ := h.during hp
      exact ⟨hflag.trans hf, hrest⟩
    · obtain ⟨hf, hrest⟩ := h.after hp
      exact ⟨hflag.trans hf, hrest⟩
    · rw [show _ = true from hmem] at hp
      cases hp

/-- A release before both dereferences the null `s_pMutex`. -/
theorem Life.Tidy.freeMem_null (h : l.Tidy) (ptr : Addr)
    (hc : ¬ (l.statics.st.initOrExitOngoing = true ∨ l.statics.pMem = true)) :
    l.statics.freeMem ptr = .error .pMutex := by
  rw [not_or, Bool.not_eq_true, Bool.not_eq_true] at hc
  simp [Statics.freeMem, hc.1, h.mutex, hc.2]

/-- A step in order keeps the pointers in order. -/
theorem Life.Tidy.step (h : l.Tidy) (hv : l.Allows lb) (hc : InOrder l lb) : (l.step lb).Tidy := by
  have hgo : l.step lb = l.advance lb := by simp [Life.step, h.noFault]
  rw [hgo]
  cases lb with
  | call c env time =>
    cases c with
    | allocMem size =>
      obtain ⟨s, r, hok, htidy⟩ := h.allocMem env time size
      simp only [Life.advance, Statics.call, hok]
      exact htidy
    | freeMem ptr =>
      obtain ⟨s, r, hok, htidy⟩ := h.freeMem ptr hc
      simp only [Life.advance, Statics.call, hok]
      exact htidy
  | construct time =>
    have hmem : l.statics.pMem = false := hc
    refine ⟨h.noFault, rfl, rfl, fun hp => (by cases hp), fun _ => ⟨rfl, rfl, ?_⟩,
      fun hp => (by cases hp), fun hp => (by cases hp)⟩
    show l.statics.initRaws + 1 = 1
    rw [(h.before hv.1).2.2, hmem]
    rfl
  | destruct =>
    have hp : l.phase = .during := hv
    exact ⟨h.noFault, rfl, rfl, fun hp => (by cases hp), fun hp => (by cases hp),
      fun _ => ⟨rfl, (h.during hp).2.2⟩, fun hp => (by cases hp)⟩

/-- A step in order keeps what was recorded: there is nothing when the constructor creates the
tables. -/
theorem Life.Tidy.keepsRecords (h : l.Tidy) (hv : l.Allows lb) (hc : InOrder l lb) :
    KeepsRecords l lb := by
  intro time hlb ptr entry hf
  subst hlb
  rw [State.findMem, h.empty hv.1 hc] at hf
  cases hf

/-- A step out of order dereferences a null pointer or creates the tables again. -/
theorem Life.Tidy.not_sound (h : l.Tidy) (hv : l.Allows lb) (hc : ¬ InOrder l lb) :
    ¬ (l.step lb).Sound := by
  intro hsound
  have hgo : l.step lb = l.advance lb := by simp [Life.step, h.noFault]
  rw [hgo] at hsound
  cases lb with
  | call c env time =>
    cases c with
    | allocMem size => exact hc trivial
    | freeMem ptr =>
      have hfault := hsound.noFault
      simp only [Life.advance, Statics.call, h.freeMem_null ptr hc] at hfault
      cases hfault
  | construct time =>
    have hmem : l.statics.pMem = true := by simpa [InOrder] using hc
    have hraws : l.statics.initRaws + 1 ≤ 1 := hsound.atMostOnce
    rw [(h.before hv.1).2.2, hmem] at hraws
    exact absurd hraws (by decide)
  | destruct => exact hc trivial

/-- In a run from the static initializers no null pointer is dereferenced, the tables are created once
and what was recorded before the constructor stays recorded, exactly when no release comes before the
tables are created and the constructor does not find them created. -/
theorem lifecycle_iff (max : ℕ) (ls : List Label)
    (hV : Along Life.step Life.Allows (Life.start max) ls) :
    Always Life.step Life.Sound (Life.start max) ls ∧
        Along Life.step KeepsRecords (Life.start max) ls ↔
      Along Life.step InOrder (Life.start max) ls :=
  always_and_along_iff (I := Life.Tidy) (V := Life.Allows) (fun _ h => h.sound)
    (fun _ _ h hv hc => h.step hv hc) (fun _ _ h hv hc => h.keepsRecords hv hc)
    (fun _ _ h hv hc => Or.inl (h.not_sound hv hc)) (Life.Tidy.start max) hV

/-- The constructor, a tracked block, its release, the destructor and another release. -/
theorem lifecycle_usual :
    Always Life.step Life.Sound (Life.start 16)
        [.construct 0, .call (.allocMem 8) (.answering 100 [1]) 0,
          .call (.freeMem 100) (.answering 0 [1]) 0, .destruct,
          .call (.freeMem 200) (.answering 0 [1]) 0] ∧
      Along Life.step KeepsRecords (Life.start 16)
        [.construct 0, .call (.allocMem 8) (.answering 100 [1]) 0,
          .call (.freeMem 100) (.answering 0 [1]) 0, .destruct,
          .call (.freeMem 200) (.answering 0 [1]) 0] :=
  (lifecycle_iff 16 _ (by decide)).mpr (by decide)

/-- A release in the constructor of an earlier static object dereferences the null `s_pMutex`, and the
block which such a constructor allocates is no longer recorded when `s_memData` was constructed. -/
theorem lifecycle_early_calls :
    Along Life.step Life.Allows (Life.start 16) [.call (.freeMem 0) (.answering 0 [1]) 0] ∧
      (final Life.step (Life.start 16) [.call (.freeMem 0) (.answering 0 [1]) 0]).fault =
        some .pMutex ∧
      Along Life.step Life.Allows (Life.start 16)
        [.call (.allocMem 8) (.answering 100 [1]) 0, .construct 0] ∧
      (final Life.step (Life.start 16)
        [.call (.allocMem 8) (.answering 100 [1]) 0]).statics.st.findMem 100 = some (100, 0) ∧
      (final Life.step (Life.start 16)
        [.call (.allocMem 8) (.answering 100 [1]) 0, .construct 0]).statics.st.findMem 100 = none ∧
      (final Life.step (Life.start 16)
        [.call (.allocMem 8) (.answering 100 [1]) 0, .construct 0]).statics.initRaws = 2 := by
  refine ⟨by decide, by decide, by decide, by decide, by decide, by decide⟩

end Phases

end CrashInvestigator.LeakOnly
