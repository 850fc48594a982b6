import CrashInvestigator.Lifetime.Proofs.PhaseProofs

/-!
# Safety over the life of the process

A run whose steps avoid what the tables do not survive uses nothing that was freed, and every block
that is released once, in a later phase, is released once in the raw allocator and not reported: no
address of such a block has a record in the later phase, since the constructor and the destructor
both leave the tables without entries.
-/

namespace CrashInvestigator.Lifetime

open Library HashItems
open Tracker (Addr MemoryType)

variable {p q : Addr} {ph : Phase} {b : Block} {bs : List Block} {f g : Block → Block}
  {events : List Event}

/-! ## The account of the blocks -/

/-- The newest block at an address. -/
def newest (p : Addr) (bs : List Block) : Option Block := bs.find? fun b => b.address = p

theorem newest_cons_self (h : b.address = p) : newest p (b :: bs) = some b := by
  simp [newest, h]

theorem newest_cons_of_ne (h : b.address ≠ p) : newest p (b :: bs) = newest p bs := by
  simp [newest, h]

theorem mem_onBlock (h : b ∈ onBlock p f bs) : b ∈ bs ∨ ∃ b₀, newest p bs = some b₀ ∧ b = f b₀ := by
  induction bs with
  | nil => cases h
  | cons a bs ih =>
    by_cases ha : a.address = p
    · rw [onBlock, if_pos ha] at h
      rcases List.mem_cons.mp h with rfl | h
      · exact Or.inr ⟨a, newest_cons_self ha, rfl⟩
      · exact Or.inl (List.mem_cons_of_mem _ h)
    · rw [onBlock, if_neg ha] at h
      rcases List.mem_cons.mp h with rfl | h
      · exact Or.inl (List.mem_cons_self ..)
      · rw [newest_cons_of_ne ha]
        rcases ih h with h | h
        · exact Or.inl (List.mem_cons_of_mem _ h)
        · exact Or.inr h

theorem newest_onBlock_self (hf : ∀ b, (f b).address = b.address) :
    newest p (onBlock p f bs) = (newest p bs).map f := by
  induction bs with
  | nil => rfl
  | cons a bs ih =>
    by_cases ha : a.address = p
    · rw [onBlock, if_pos ha, newest_cons_self ((hf a).trans ha), newest_cons_self ha]
      rfl
    · rw [onBlock, if_neg ha, newest_cons_of_ne ha, newest_cons_of_ne ha, ih]

theorem newest_onBlock_of_ne (hf : ∀ b, (f b).address = b.address) (hq : q ≠ p) :
    newest q (onBlock p f bs) = newest q bs := by
  induction bs with
  | nil => rfl
  | cons a bs ih =>
    by_cases ha : a.address = p
    · have haq : a.address ≠ q := by
        rw [ha]
        exact Ne.symm hq
      rw [onBlock, if_pos ha, newest_cons_of_ne (by rw [hf a]; exact haq), newest_cons_of_ne haq]
    · rw [onBlock, if_neg ha]
      by_cases haq : a.address = q
      · rw [newest_cons_self haq, newest_cons_self haq]
      · rw [newest_cons_of_ne haq, newest_cons_of_ne haq, ih]

theorem onBlock_onBlock (hf : ∀ b, (f b).address = b.address) :
    onBlock p g (onBlock p f bs) = onBlock p (fun b => g (f b)) bs := by
  induction bs with
  | nil => rfl
  | cons a bs ih =>
    by_cases ha : a.address = p
    · simp only [onBlock, if_pos ha, if_pos ((hf a).trans ha)]
    · simp only [onBlock, if_neg ha, ih]

/-- Some releases and some reports. -/
def Block.add (releases reports : ℕ) (b : Block) : Block :=
  { b with releases := b.releases + releases, reports := b.reports + reports }

/-- Events about one block change the account of this block only. -/
theorem foldl_record_about (hf : ∀ b, (f b).address = b.address)
    (h : ∀ e ∈ events, e.About p) :
    ∃ n m, events.foldl (record ph) (onBlock p f bs) = onBlock p (fun b => (f b).add n m) bs := by
  induction events generalizing f with
  | nil => exact ⟨0, 0, rfl⟩
  | cons e events ih =>
    have habout := h e (List.mem_cons_self ..)
    have hrest := fun e he => h e (List.mem_cons_of_mem _ he)
    -- what one event adds to the account
    have hone : ∃ n m, record ph (onBlock p f bs) e = onBlock p (fun b => (f b).add n m) bs := by
      cases e with
      | mallocn count answer => exact absurd habout id
      | freen ptr =>
        obtain rfl : ptr = p := habout
        exact ⟨1, 0, onBlock_onBlock hf⟩
      | systemSpecificLibInitialDealloc ptr answer =>
        obtain rfl : ptr = p := habout
        cases answer with
        | true => exact ⟨1, 0, onBlock_onBlock hf⟩
        | false => exact ⟨0, 0, rfl⟩
      | systemSpecificGlibcDealloc ptr =>
        obtain rfl : ptr = p := habout
        exact ⟨1, 0, onBlock_onBlock hf⟩
      | clbkFnc data answer =>
        obtain rfl : data.failureAddress = p := habout
        exact ⟨0, 1, onBlock_onBlock hf⟩
    obtain ⟨n, m, hstep⟩ := hone
    obtain ⟨n', m', hfold⟩ := ih (f := fun b => (f b).add n m) hf hrest
    refine ⟨n + n', m + m', ?_⟩
    rw [List.foldl_cons, hstep, hfold]
    simp only [Block.add, Nat.add_assoc]

/-- A release of an address without a record is a release in the raw allocator. -/
theorem foldl_record_untracked (hf : ∀ b, (f b).address = b.address)
    (h : ReleasesUntracked p events) :
    events.foldl (record ph) (onBlock p f bs) = onBlock p (fun b => (f b).add 1 0) bs := by
  rcases h with rfl | rfl
  · exact onBlock_onBlock hf
  · exact onBlock_onBlock hf

/-! ## Blocks and records -/

/-- What the account of a block says in every state. -/
structure Block.InOrder (b : Block) : Prop where
  untouched : b.requests = [] → b.releases = 0 ∧ b.reports = 0
  once : ∀ ph, b.requests = [ph] → b.phase ≠ ph → b.releases = 1 ∧ b.reports = 0

/-- No block of an earlier phase that was not released has a record. -/
structure Accounted (ph : Phase) (recorded : List Addr) (bs : List Block) : Prop where
  inOrder : ∀ b ∈ bs, b.InOrder
  unrecorded : ∀ p b, newest p bs = some b → b.requests = [] → b.phase ≠ ph → p ∉ recorded

variable {recorded recorded' : List Addr}

/-- The tables are emptied between the phases. -/
theorem Accounted.enter (h : Accounted ph recorded bs) (ph' : Phase) : Accounted ph' [] bs :=
  ⟨h.inOrder, fun _ _ _ _ _ => List.not_mem_nil⟩

theorem Accounted.issue (h : Accounted ph recorded bs) (a : Addr)
    (hrecorded : ∀ q ∈ recorded', q = a ∨ q ∈ recorded) :
    Accounted ph recorded' (⟨a, ph, [], 0, 0⟩ :: bs) := by
  refine ⟨fun b hb => ?_, fun p b hb hreq hph hp => ?_⟩
  · rcases List.mem_cons.mp hb with rfl | hb
    · refine ⟨fun _ => ⟨rfl, rfl⟩, fun ph hreq => ?_⟩
      cases hreq
    · exact h.inOrder b hb
  · by_cases hpa : a = p
    · rw [newest_cons_self hpa] at hb
      cases hb
      exact hph rfl
    · rw [newest_cons_of_ne hpa] at hb
      rcases hrecorded p hp with hp | hp
      · exact hpa hp.symm
      · exact h.unrecorded p b hb hreq hph hp

/-- A call that is passed an address, and what it does with the block. -/
theorem Accounted.request (h : Accounted ph recorded bs) (habout : ∀ e ∈ events, e.About p)
    (huntracked : p ∉ recorded → ReleasesUntracked p events) :
    Accounted ph recorded (events.foldl (record ph) (onBlock p (Block.request ph) bs)) := by
  have haddress : ∀ b, (Block.request ph b).address = b.address := fun _ => rfl
  obtain ⟨n, m, hfold, honce⟩ : ∃ n m, events.foldl (record ph) (onBlock p (Block.request ph) bs) =
      onBlock p (fun b => (Block.request ph b).add n m) bs ∧ (p ∉ recorded → n = 1 ∧ m = 0) := by
    by_cases hp : p ∈ recorded
    · obtain ⟨n, m, hfold⟩ := foldl_record_about haddress habout
      exact ⟨n, m, hfold, fun hout => absurd hp hout⟩
    · exact ⟨1, 0, foldl_record_untracked haddress (huntracked hp), fun _ => ⟨rfl, rfl⟩⟩
  rw [hfold]
  have hf : ∀ b, ((Block.request ph b).add n m).address = b.address := fun _ => rfl
  refine ⟨fun b hb => ?_, fun q b hb hreq hph => ?_⟩
  · rcases mem_onBlock hb with hb | ⟨b₀, hb₀, rfl⟩
    · exact h.inOrder b hb
    · refine ⟨fun hreq => ?_, fun ph' hreq hne => ?_⟩
      · cases hreq
      · -- the first release of the block, in a later phase
        have hfirst : ph :: b₀.requests = [ph'] := hreq
        obtain ⟨rfl, hnone⟩ := List.cons_eq_cons.mp hfirst
        obtain ⟨rfl, rfl⟩ := honce (h.unrecorded p b₀ hb₀ hnone hne)
        obtain ⟨hreleases, hreports⟩ :=
          (h.inOrder b₀ (List.mem_of_find?_eq_some hb₀)).untouched hnone
        refine ⟨?_, ?_⟩
        · show b₀.releases + 1 = 1
          rw [hreleases]
        · show b₀.reports + 0 = 0
          rw [hreports]
  · by_cases hqp : q = p
    · subst hqp
      rw [newest_onBlock_self hf] at hb
      obtain ⟨b₀, -, rfl⟩ := Option.map_eq_some_iff.mp hb
      cases hreq
    · rw [newest_onBlock_of_ne hf hqp] at hb
      exact h.unrecorded q b hb hreq hph

/-! ## Steps -/

/-- The tables are in order and nothing is buried, or what was buried is known. -/
def Life.Settled (buried : List Addr) (st : State) : Prop :=
  Tidy st ∧ buried = [] ∨ Ruined buried st ∧ buried ≠ []

/-- The invariant. -/
structure Life.Orderly (l : Life) : Prop where
  noMisuse : l.misuse = none
  tables : Life.Settled l.buried l.st
  unburied : l.phase ≠ .after → l.buried = []
  accounts : Accounted l.phase l.st.recorded l.blocks

variable {l : Life} {env : Env}

theorem Life.Orderly.safe (h : l.Orderly) : l.Safe :=
  ⟨h.noMisuse, fun b hb => (h.accounts.inOrder b hb).once⟩

theorem Life.Orderly.flag (h : l.Orderly) : l.st.bIsAllocingOrDeallocing = false := by
  rcases h.tables with ⟨htidy, -⟩ | ⟨hruined, -⟩
  · exact htidy.flag
  · exact hruined.flag

theorem Life.Orderly.init (ndebug : Bool) : (Life.init ndebug).Orderly := by
  refine ⟨rfl, Or.inl ⟨Tidy.init ndebug, rfl⟩, fun _ => rfl, ⟨fun b hb => ?_, fun p b hb => ?_⟩⟩
  · cases hb
  · cases hb

/-- A call whose result is known. -/
theorem Life.Orderly.advance_call (h : l.Orderly) {c : Call} {r : Res}
    (hok : call l.st env c = .ok r)
    (htables : Life.Settled l.buried r.st)
    (haccounts : Accounted l.phase r.st.recorded
      (r.events.foldl (record l.phase) (request l.phase l.blocks c))) :
    (l.advance (.call c env)).Orderly := by
  unfold Life.advance
  simp only [hok]
  exact ⟨h.noMisuse, htables, h.unburied, haccounts⟩

theorem Life.Orderly.alloc (h : l.Orderly) (hact : l.Active) {count : ℕ} {ty : MemoryType}
    {bThrow : Bool} (hvalid : Valid l (.call (.alloc count ty bThrow) env))
    (hsafe : StepsSafely l (.call (.alloc count ty bThrow) env)) :
    (l.advance (.call (.alloc count ty bThrow) env)).Orderly := by
  have hflag : ¬ l.st.bIsAllocingOrDeallocing = true := by simp [h.flag]
  by_cases hcount : count = 0
  · have hok : testOperatorAlloc l.st env count ty bThrow = .ok (nullOrThrow l.st bThrow []) := by
      unfold testOperatorAlloc
      rw [if_neg hflag, if_pos hcount]
    exact h.advance_call hok h.tables h.accounts
  · by_cases hraw : env.raw = 0
    · have hok : testOperatorAlloc l.st env count ty bThrow =
          .ok (nullOrThrow l.st bThrow [.mallocn count 0]) := by
        unfold testOperatorAlloc
        rw [if_neg hflag, if_neg hcount, if_pos hraw]
      exact h.advance_call hok h.tables h.accounts
    · obtain ⟨hunburied, hspares, hbelow⟩ := hsafe hact hcount hraw
      rcases h.tables with ⟨htidy, -⟩ | ⟨-, hburied⟩
      · obtain ⟨r, hok, htidy', hevents, hrecorded⟩ := htidy.alloc hcount hraw
          ⟨hvalid.1, hvalid.2, hspares, hbelow⟩ ty bThrow
        refine h.advance_call hok (Or.inl ⟨htidy', hunburied⟩) ?_
        have hfold : r.events.foldl (record l.phase)
            (request l.phase l.blocks (.alloc count ty bThrow)) =
              ⟨env.raw, l.phase, [], 0, 0⟩ :: l.blocks := by
          rw [hevents]
          exact if_neg hraw
        rw [hfold]
        exact h.accounts.issue env.raw hrecorded
      · exact absurd hunburied hburied

theorem Life.Orderly.delete (h : l.Orderly) (hact : l.Active) {ptr : Addr} {ty : MemoryType}
    (hsafe : StepsSafely l (.call (.delete ptr ty) env)) :
    (l.advance (.call (.delete ptr ty) env)).Orderly := by
  by_cases hptr : ptr = 0
  · have hok : testOperatorDelete l.st env ptr ty = .ok ⟨l.st, .returns 0, []⟩ := by
      unfold testOperatorDelete
      rw [if_pos hptr]
    refine h.advance_call hok h.tables ?_
    have hnone : request l.phase l.blocks (.delete ptr ty) = l.blocks := if_pos hptr
    rw [hnone]
    exact h.accounts
  · obtain ⟨hbucket, hpatches⟩ := hsafe hact hptr
    have hrequest : request l.phase l.blocks (.delete ptr ty) =
      onBlock ptr (Block.request l.phase) l.blocks := if_neg hptr
    rcases h.tables with ⟨htidy, hburied⟩ | ⟨hruined, hburied⟩
    · obtain ⟨r, hok, htidy', habout, hrecorded, huntracked⟩ := htidy.delete env hptr ty
        fun e hf hst => hpatches e (lookup_mem hf) (lookup_key hf) hst
      refine h.advance_call hok (Or.inl ⟨htidy', hburied⟩) ?_
      rw [hrequest, hrecorded]
      exact h.accounts.request habout huntracked
    · obtain ⟨r, hok, hruined', huntracked⟩ := hruined.delete env hptr ty hbucket
      refine h.advance_call hok (Or.inr ⟨hruined', hburied⟩) ?_
      have hrecorded : r.st.recorded = l.st.recorded := by
        unfold State.recorded
        rw [hruined'.entries, hruined.entries]
      rw [hrequest, hrecorded]
      exact h.accounts.request huntracked.about fun _ => huntracked

/-- Before the destruction the tables are in order. -/
theorem Life.Orderly.tidy (h : l.Orderly) (hph : l.phase ≠ .after) : Tidy l.st ∧ l.buried = [] := by
  have hunburied := h.unburied hph
  rcases h.tables with htidy | ⟨-, hburied⟩
  · exact htidy
  · exact absurd hunburied hburied

theorem Life.Orderly.construct (h : l.Orderly) (hvalid : Valid l .construct) :
    (l.advance .construct).Orderly := by
  have hbefore : l.phase = .before := hvalid
  obtain ⟨htidy, hburied⟩ := h.tidy (by simp [hbefore])
  exact ⟨h.noMisuse, Or.inl ⟨htidy.construct, hburied⟩, fun _ => hburied, h.accounts.enter .during⟩

theorem Life.Orderly.destruct (h : l.Orderly) (hact : l.Active) (hvalid : Valid l .destruct)
    (hsafe : StepsSafely l .destruct) : (l.advance .destruct).Orderly := by
  have hduring : l.phase = .during := hvalid
  obtain ⟨htidy, -⟩ := h.tidy (by simp [hduring])
  obtain ⟨st, hok, htables, hentries⟩ : ∃ st, l.st.destruct = .ok st ∧
      Life.Settled l.st.recorded st ∧ st.memoryItems.entries = [] := by
    by_cases hempty : l.st.memoryItems.entries = []
    · have hrecorded : l.st.recorded = [] := by
        unfold State.recorded
        rw [hempty]
        rfl
      exact ⟨l.st, htidy.destruct_empty hempty, Or.inl ⟨htidy, hrecorded⟩, hempty⟩
    · obtain ⟨st, hok, hruined⟩ := htidy.destruct (hsafe hact)
      have hrecorded : l.st.recorded ≠ [] := by
        unfold State.recorded
        simpa using hempty
      exact ⟨st, hok, Or.inr ⟨hruined, hrecorded⟩, hruined.entries⟩
  have hnone : st.recorded = [] := by
    unfold State.recorded
    rw [hentries]
    rfl
  unfold Life.advance
  simp only [hok]
  refine ⟨h.noMisuse, htables, fun hne => absurd rfl hne, ?_⟩
  rw [hnone]
  exact h.accounts.enter .after

theorem Life.Orderly.step (h : l.Orderly) {lb : Label} (hvalid : Valid l lb)
    (hsafe : StepsSafely l lb) : (l.step lb).Orderly := by
  unfold Life.step
  by_cases hact : l.Active
  · rw [if_pos hact]
    cases lb with
    | call c env =>
      cases c with
      | alloc count ty bThrow => exact h.alloc hact hvalid hsafe
      | delete ptr ty => exact h.delete hact hsafe
    | construct => exact h.construct hvalid
    | destruct => exact h.destruct hact hvalid hsafe
  · rw [if_neg hact]
    exact h

/-! ## Runs -/

/-- A run over the whole life of the process, each step of which avoids what the tables do not
survive, is safe in every state. -/
theorem safe_over_life {ndebug : Bool} {ls : List Label}
    (hvalid : Runs.Along Life.step Valid (.init ndebug) ls)
    (hsafe : Runs.Along Life.step StepsSafely (.init ndebug) ls) :
    Runs.Always Life.step Life.Safe (.init ndebug) ls := by
  have halong := Runs.along_and.mpr ⟨hvalid, hsafe⟩
  have horderly : Runs.Always Life.step Life.Orderly (.init ndebug) ls :=
    Runs.always_of_invariant (fun l lb hl hC => hl.step hC.1 hC.2) (Life.Orderly.init ndebug) halong
  exact horderly.mono fun l hl => hl.safe

/-- The answers of an environment that grants everything. -/
def Env.granting (raw : Addr) (frames : List ℕ) (memoryItem stackItem : ℕ) : Env where
  raw := raw
  stack := some ⟨frames⟩
  memoryItem := some memoryItem
  stackItem := some stackItem
  clbkFnc := fun _ => .doNotMakeActionToPreventCrash
  userData := 0
  initialDealloc := false
  handlerMemory := true

/-- Two blocks of the time before the construction, one of them released during the lifetime and one
after the destruction, and a block that is allocated and released during the lifetime. -/
def wholeLife : List Label :=
  [.call (.alloc 8 .malloc false) (.granting 16 [7] 1 1),
    .call (.alloc 8 .malloc false) (.granting 32 [7] 2 2), .construct,
    .call (.delete 16 .malloc) (.granting 0 [8] 3 3),
    .call (.alloc 8 .malloc false) (.granting 48 [9] 1 1),
    .call (.delete 48 .malloc) (.granting 0 [8] 3 3), .destruct,
    .call (.delete 32 .malloc) (.granting 0 [8] 3 3)]

theorem safe_over_life_wholeLife :
    Runs.Always Life.step Life.Safe (.init false) wholeLife :=
  safe_over_life (by decide) (by decide)

/-- A block of the lifetime, released once after the destruction. -/
def lateRelease : List Label :=
  [.construct, .call (.alloc 8 .malloc false) (.granting 16 [7] 1 1), .destruct,
    .call (.delete 16 .malloc) (.granting 0 [8] 2 2)]

theorem late_release_reads_freed_item :
    Runs.Along Life.step Valid (.init false) lateRelease ∧
      (Runs.final Life.step (.init false) lateRelease).misuse = some (.item .useAfterFree) ∧
      ¬ Runs.Always Life.step Life.Safe (.init false) lateRelease := by
  have hmisuse : (Runs.final Life.step (.init false) lateRelease).misuse =
      some (.item .useAfterFree) := by decide
  refine ⟨by decide, hmisuse, fun hsafe => ?_⟩
  have hno := hsafe.final.noMisuse
  rw [hmisuse] at hno
  cases hno

end CrashInvestigator.Lifetime
