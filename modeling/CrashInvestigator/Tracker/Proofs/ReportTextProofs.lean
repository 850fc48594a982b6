import CrashInvestigator.Tracker.Proofs.DefaultRunProofs
import CrashInvestigator.Tracker.ReportText
import Mathlib.Data.Nat.Digits.Lemmas

/-!
# Reading a report

The text of a report determines what is shown of it, and so the text on `stderr` after a run determines
the first error of the program.
-/

namespace CrashInvestigator.Tracker

open Library

/-! ## Numbers -/

/-- The value of a hexadecimal digit. -/
def hexValue (c : Char) : ℕ := if c.toNat < 58 then c.toNat - 48 else c.toNat - 87

theorem hexValue_digitChar : ∀ d, d < 16 → hexValue (Nat.digitChar d) = d := by decide

/-- The characters of a number. -/
theorem mem_hexDigits {c : Char} {n : ℕ} (h : c ∈ (Nat.digits 16 n).reverse.map Nat.digitChar) :
    ∃ d, d < 16 ∧ c = Nat.digitChar d := by
  obtain ⟨d, hd, rfl⟩ := List.mem_map.mp h
  exact ⟨d, Nat.digits_lt_base (by omega) (List.mem_reverse.mp hd), rfl⟩

theorem map_hexValue (n : ℕ) :
    (((Nat.digits 16 n).reverse.map Nat.digitChar).map hexValue).reverse = Nat.digits 16 n := by
  have hid : ∀ d ∈ (Nat.digits 16 n).reverse, (hexValue ∘ Nat.digitChar) d = id d := by
    intro d hd
    exact hexValue_digitChar d (Nat.digits_lt_base (by omega) (List.mem_reverse.mp hd))
  rw [List.map_map, List.map_congr_left hid, List.map_id, List.reverse_reverse]

theorem percentP_injective {p q : Addr} (h : percentP p = percentP q) : p = q := by
  have hnil : ∀ r : List Char, "(nil)".toList ≠ "0x".toList ++ r := by simp
  unfold percentP at h
  split_ifs at h with hp hq hq
  · rw [hp, hq]
  · exact absurd h (hnil _)
  · exact absurd h.symm (hnil _)
  · have hdigits := List.append_cancel_left h
    have hvalues := map_hexValue p
    rw [hdigits, map_hexValue q] at hvalues
    exact Nat.digits.injective 16 hvalues.symm

/-- An address has no other characters than these. -/
theorem not_mem_percentP {c : Char} (hnil : c ∉ "(nil)".toList) (hx : c ∉ "0x".toList)
    (hdigit : ∀ d, d < 16 → c ≠ Nat.digitChar d) (p : Addr) : c ∉ percentP p := by
  unfold percentP
  split_ifs with hp
  · exact hnil
  · intro hmem
    rcases List.mem_append.mp hmem with h | h
    · exact hx h
    · obtain ⟨d, hd, hc⟩ := mem_hexDigits h
      exact hdigit d hd hc

/-! ## Lines -/

section Lines

variable {symbols : Addr → StackItem}

theorem colon_percentP (p : Addr) : ':' ∉ percentP p :=
  not_mem_percentP (by simp) (by simp) (by decide) p

theorem space_percentP (p : Addr) : ' ' ∉ percentP p :=
  not_mem_percentP (by simp) (by simp) (by decide) p

theorem newline_percentP (p : Addr) : '\n' ∉ percentP p :=
  not_mem_percentP (by simp) (by simp) (by decide) p

theorem frameLine_injective {p q : Addr} (h : frameLine symbols p = frameLine symbols q) : p = q := by
  have hsplit : ∀ a, frameLine symbols a = percentP a ++ ':' :: ("  ".toList ++ (symbols a).details) := by
    intro a
    simp [frameLine]
  rw [hsplit, hsplit] at h
  exact percentP_injective (Lines.word_injective (colon_percentP p) (colon_percentP q) h).1

/-- The file name is a part of the path. -/
theorem mem_flName {c : Char} {item : StackItem} (h : c ∈ item.flName) : c ∈ item.sourceFileName := by
  have hlast : ∀ (d : Char) (s t : List Char), afterLast d s = some t → ∀ c ∈ t, c ∈ s := by
    intro d s t hst c hc
    unfold afterLast at hst
    split_ifs at hst
    cases hst
    exact List.mem_reverse.mp ((List.takeWhile_sublist _).mem (List.mem_reverse.mp hc))
  unfold StackItem.flName at h
  cases hbs : afterLast '\\' item.sourceFileName with
  | some t =>
    rw [hbs] at h
    exact hlast _ _ _ hbs _ h
  | none =>
    rw [hbs] at h
    cases hs : afterLast '/' item.sourceFileName with
    | some t =>
      rw [hs] at h
      exact hlast _ _ _ hs _ h
    | none =>
      rw [hs] at h
      exact h

theorem newline_percentD (n : ℕ) : '\n' ∉ percentD n := by
  intro hmem
  obtain ⟨d, hd, hc⟩ := List.mem_map.mp hmem
  have hlt : d < 10 := Nat.digits_lt_base (by omega) (List.mem_reverse.mp hd)
  have hdigit : ∀ d, d < 10 → Nat.digitChar d ≠ '\n' := by decide
  exact hdigit d hlt hc

theorem newline_frameLine (hnames : SingleLineNames symbols) (p : Addr) :
    '\n' ∉ frameLine symbols p := by
  obtain ⟨hdll, hfunc, hsource⟩ := hnames p
  have hfile : '\n' ∉ (symbols p).flName := fun h => hsource (mem_flName h)
  have hline := newline_percentD (symbols p).line.toNat
  simp only [frameLine, StackItem.details, List.mem_append, not_or]
  refine ⟨⟨newline_percentP p, by simp⟩, ⟨⟨⟨?_, ?_⟩, ?_⟩, ?_⟩, ?_⟩
  · split_ifs <;> simp [hfunc]
  · split_ifs <;> simp [hfile]
  · split_ifs <;> simp [hline]
  · split_ifs <;> simp
  · split_ifs <;> simp [hdll]

/-! ## Titles -/

/-- The failures that show an address. -/
def FailureType.isAddressed : FailureType → Bool
  | .possibilityOfMemoryLeak | .sigSegvHandler | .unknown => false
  | _ => true

/-- Where the complaints of different failures differ. -/
def FailureType.letter : FailureType → Option Char
  | .deallocOfNonExistingMemory => 'v'
  | .badReallocMemNotExist => 'o'
  | .badReallocDeletedMem => 'a'
  | .badReallocCreatedByWrongAlloc => 'c'
  | .freeMissmatch => 'u'
  | _ => none

theorem complaint_letter {ft : FailureType} (h : ft.isAddressed = true) (a f : MemoryType) :
    (complaint a f ft)[40]? = ft.letter := by
  unfold complaint
  cases ft with
  | unknown => cases h
  | possibilityOfMemoryLeak => cases h
  | sigSegvHandler => cases h
  | _ => simp [FailureType.letter]

theorem letter_injective {ft ft' : FailureType} (h : ft.isAddressed = true)
    (h' : ft'.isAddressed = true) (heq : ft.letter = ft'.letter) : ft = ft' := by
  cases ft <;> cases ft' <;> simp_all [FailureType.isAddressed, FailureType.letter]

/-- A complaint names its failure. -/
theorem complaint_failureType {a f a' f' : MemoryType} {ft ft' : FailureType}
    (h : ft.isAddressed = true) (h' : ft'.isAddressed = true)
    (heq : complaint a f ft = complaint a' f' ft') : ft = ft' := by
  refine letter_injective h h' ?_
  rw [← complaint_letter h a f, heq, complaint_letter h' a' f']

/-- Where the names of the types differ, when the rest of a complaint follows them. -/
def MemoryType.letter : MemoryType → Char
  | .new => 'a'
  | .newArr => '['
  | .malloc => 'o'
  | .notProvided => 'r'

theorem letter_memoryType_injective {t t' : MemoryType} (h : t.letter = t'.letter) : t = t' := by
  cases t <;> cases t' <;> simp_all [MemoryType.letter]

theorem allocType_followed {t t' : MemoryType} {r r' : List Char}
    (h : allocTypeFromMemoryType t ++ (" and is being deallocated by ".toList ++ r) =
      allocTypeFromMemoryType t' ++ (" and is being deallocated by ".toList ++ r')) :
    t = t' ∧ r = r' := by
  have hletter : ∀ (t : MemoryType) (r : List Char), (allocTypeFromMemoryType t ++
      (" and is being deallocated by ".toList ++ r))[4]? = some t.letter := by
    intro t r
    unfold allocTypeFromMemoryType
    cases t with
    | _ => simp [MemoryType.letter]
  have ht : t = t' := by
    refine letter_memoryType_injective (Option.some.inj ?_)
    rw [← hletter t r, h, hletter t' r']
  subst ht
  exact ⟨rfl, List.append_cancel_left (List.append_cancel_left h)⟩

theorem allocType_injective {t t' : MemoryType}
    (h : allocTypeFromMemoryType t = allocTypeFromMemoryType t') : t = t' := by
  have hfollowed : allocTypeFromMemoryType t ++ (" and is being deallocated by ".toList ++ []) =
      allocTypeFromMemoryType t' ++ (" and is being deallocated by ".toList ++ []) := by rw [h]
  exact (allocType_followed hfollowed).1

theorem complaint_wrongAlloc {a f a' f' : MemoryType}
    (h : complaint a f .badReallocCreatedByWrongAlloc =
      complaint a' f' .badReallocCreatedByWrongAlloc) : a = a' := by
  unfold complaint at h
  exact allocType_injective (List.append_cancel_left (List.append_cancel_right h))

theorem complaint_freeMissmatch {a f a' f' : MemoryType}
    (h : complaint a f .freeMissmatch = complaint a' f' .freeMissmatch) : a = a' ∧ f = f' := by
  unfold complaint at h
  simp only [List.append_assoc] at h
  obtain ⟨ha, hf⟩ := allocType_followed (List.append_cancel_left h)
  exact ⟨ha, allocType_injective hf⟩

theorem complaint_space {ft : FailureType} (h : ft.isAddressed = true) (a f : MemoryType) :
    ∃ r, complaint a f ft = ' ' :: r := by
  unfold complaint
  cases ft with
  | unknown => cases h
  | possibilityOfMemoryLeak => cases h
  | sigSegvHandler => cases h
  | _ => exact ⟨_, rfl⟩

theorem addressTitle_injective {data data' : FailureData}
    (h : data.failureType.isAddressed = true) (h' : data'.failureType.isAddressed = true)
    (heq : addressTitle data = addressTitle data') :
    data.failureAddress = data'.failureAddress ∧
      complaint data.allocType data.freeType data.failureType =
        complaint data'.allocType data'.freeType data'.failureType := by
  obtain ⟨r, hr⟩ := complaint_space h data.allocType data.freeType
  obtain ⟨r', hr'⟩ := complaint_space h' data'.allocType data'.freeType
  unfold addressTitle at heq
  rw [hr, hr', List.append_assoc, List.append_assoc] at heq
  obtain ⟨hp, hrest⟩ := Lines.word_injective (space_percentP _) (space_percentP _)
    (List.append_cancel_left heq)
  exact ⟨percentP_injective hp, by rw [hr, hr', hrest]⟩

/-- The title of the first stack. -/
def FailureData.title (data : FailureData) : Option (List Char) :=
  if data.failureType.isAddressed then some (addressTitle data)
  else
    match data.failureType with
    | .possibilityOfMemoryLeak =>
      some "There is a probability for memory leak in the following stack".toList
    | .sigSegvHandler => some "Sig segv handler".toList
    | _ => none

theorem blocks_head (symbols : Addr → StackItem) (data : FailureData) :
    (data.blocks symbols).head?.map Lines.Block.title = data.title := by
  unfold FailureData.blocks FailureData.title
  cases data.failureType with
  | _ => rfl

/-- How the titles begin. -/
def FailureType.initial : FailureType → Option Char
  | .possibilityOfMemoryLeak => 'T'
  | .sigSegvHandler => 'S'
  | .unknown => none
  | _ => 'A'

theorem addressTitle_initial (data : FailureData) : (addressTitle data)[0]? = some 'A' := by
  unfold addressTitle
  rw [List.append_assoc]
  simp

theorem initial_of_isAddressed {ft : FailureType} (h : ft.isAddressed = true) :
    ft.initial = some 'A' := by
  cases ft <;> simp_all [FailureType.isAddressed, FailureType.initial]

theorem title_initial (data : FailureData) :
    data.title.bind (fun title => title[0]?) = data.failureType.initial := by
  unfold FailureData.title
  by_cases ha : data.failureType.isAddressed = true
  · rw [if_pos ha, initial_of_isAddressed ha]
    exact addressTitle_initial data
  · rw [if_neg ha]
    cases hft : data.failureType with
    | unknown => rfl
    | possibilityOfMemoryLeak =>
      show ("There is a probability for memory leak in the following stack".toList)[0]? = some 'T'
      simp
    | sigSegvHandler =>
      show ("Sig segv handler".toList)[0]? = some 'S'
      simp
    | _ => exact absurd (by rw [hft]; rfl) ha

theorem initial_cases {ft ft' : FailureType} (h : ft.initial = ft'.initial) :
    ft = ft' ∨ (ft.isAddressed = true ∧ ft'.isAddressed = true) := by
  cases ft <;> cases ft' <;> simp_all [FailureType.isAddressed, FailureType.initial]

/-- The first titles tell the failures apart. -/
theorem title_failureType {data data' : FailureData} (h : data.title = data'.title) :
    data.failureType = data'.failureType ∧ (data.failureType.isAddressed = true →
      data.failureAddress = data'.failureAddress ∧
      complaint data.allocType data.freeType data.failureType =
        complaint data'.allocType data'.freeType data'.failureType) := by
  have hinitial : data.failureType.initial = data'.failureType.initial := by
    rw [← title_initial, h, title_initial]
  have haddr : data.failureType.isAddressed = true → data'.failureType.isAddressed = true →
      addressTitle data = addressTitle data' := by
    intro ha ha'
    unfold FailureData.title at h
    rw [if_pos ha, if_pos ha'] at h
    exact Option.some.inj h
  rcases initial_cases hinitial with heq | ⟨ha, ha'⟩
  · refine ⟨heq, fun ha => ?_⟩
    have ha' : data'.failureType.isAddressed = true := by rw [← heq, ha]
    exact addressTitle_injective ha ha' (haddr ha ha')
  · have hshown := addressTitle_injective ha ha' (haddr ha ha')
    exact ⟨complaint_failureType ha ha' hshown.2, fun _ => hshown⟩

/-! ## Texts -/

theorem blocks_bodies (data : FailureData) :
    (data.blocks symbols).map Lines.Block.body =
      data.shown.frames.map (List.map (frameLine symbols)) := by
  unfold FailureData.blocks FailureData.shown
  cases data.failureType with
  | _ => rfl

theorem shown_of_blocks {data data' : FailureData}
    (h : data.blocks symbols = data'.blocks symbols) : data.shown = data'.shown := by
  have htitle : data.title = data'.title := by
    rw [← blocks_head symbols data, h, blocks_head]
  have hframes : data.shown.frames = data'.shown.frames := by
    have hline : Function.Injective (List.map (frameLine symbols)) :=
      List.map_injective_iff.mpr fun p q hpq => frameLine_injective hpq
    refine List.map_injective_iff.mpr hline ?_
    rw [← blocks_bodies, h, blocks_bodies]
  obtain ⟨hft, haddr⟩ := title_failureType htitle
  have haddress : data.shown.address = data'.shown.address := by
    unfold FailureData.shown
    rw [← hft]
    cases hft' : data.failureType with
    | unknown => rfl
    | possibilityOfMemoryLeak => rfl
    | sigSegvHandler => rfl
    | _ => exact congrArg some (haddr (by rw [hft']; rfl)).1
  have htypes : data.shown.types = data'.shown.types := by
    unfold FailureData.shown
    rw [← hft] at haddr ⊢
    cases hft' : data.failureType with
    | badReallocCreatedByWrongAlloc =>
      rw [hft'] at haddr
      rw [complaint_wrongAlloc (haddr rfl).2]
    | freeMissmatch =>
      rw [hft'] at haddr
      obtain ⟨ha, hf⟩ := complaint_freeMissmatch (haddr rfl).2
      rw [ha, hf]
    | _ => rfl
  have hkind : data.shown.failureType = data'.shown.failureType := hft
  calc data.shown = ⟨data.shown.failureType, data.shown.address, data.shown.types,
        data.shown.frames⟩ := rfl
    _ = data'.shown := by rw [hkind, haddress, htypes, hframes]

theorem printStackSingleLine_eq (p : Addr) :
    printStackSingleLine symbols p = '\t' :: (frameLine symbols p ++ ['\n']) := by
  simp [printStackSingleLine, frameLine]

theorem printStack_eq (stack : List Addr) : printStack symbols stack =
    (stack.map (frameLine symbols)).flatMap fun l => '\t' :: (l ++ ['\n']) := by
  have hline : printStackSingleLine symbols = fun p => '\t' :: (frameLine symbols p ++ ['\n']) :=
    funext printStackSingleLine_eq
  rw [List.flatMap_map]
  unfold printStack
  rw [hline]

theorem stackBlock_text (title : List Char) (stack : List Addr) :
    (stackBlock symbols title stack).text '\t' '\n' = title ++ '\n' :: printStack symbols stack := by
  rw [printStack_eq]
  rfl

set_option maxRecDepth 2000 in
theorem defaultFailureClbk_text (data : FailureData) :
    (defaultFailureClbk symbols data).1 = Lines.text '\t' '\n' (data.blocks symbols) := by
  unfold defaultFailureClbk FailureData.blocks addressTitle
  cases data.failureType with
  | unknown => rfl
  | possibilityOfMemoryLeak =>
    simp only [Lines.text, List.flatMap_cons, List.flatMap_nil, stackBlock_text]
    simp
  | sigSegvHandler =>
    simp only [Lines.text, List.flatMap_cons, List.flatMap_nil, stackBlock_text]
    simp
  | _ =>
    simp only [Lines.text, List.flatMap_cons, List.flatMap_nil, stackBlock_text]
    unfold complaint
    simp

theorem newline_complaint (a f : MemoryType) (ft : FailureType) : '\n' ∉ complaint a f ft := by
  have htype : ∀ t, '\n' ∉ allocTypeFromMemoryType t := by
    intro t
    unfold allocTypeFromMemoryType
    cases t with
    | _ => simp
  unfold complaint
  cases ft with
  | _ => simp [htype]

theorem newline_addressTitle (data : FailureData) : '\n' ∉ addressTitle data := by
  unfold addressTitle
  simp only [List.mem_append, not_or]
  exact ⟨⟨by simp, newline_percentP _⟩, newline_complaint _ _ _⟩

theorem stackBlock_readable (hnames : SingleLineNames symbols) {title : List Char}
    (hnewline : '\n' ∉ title) (htab : title[0]? ≠ some '\t') (stack : List Addr) :
    (stackBlock symbols title stack).Readable '\t' '\n' := by
  refine ⟨hnewline, ?_, fun l hl => ?_⟩
  · rw [List.head?_eq_getElem?]
    exact htab
  · obtain ⟨p, -, rfl⟩ := List.mem_map.mp hl
    exact newline_frameLine hnames p

theorem blocks_readable (hnames : SingleLineNames symbols) (data : FailureData) :
    ∀ b ∈ data.blocks symbols, b.Readable '\t' '\n' := by
  have haddr : ∀ stack, (stackBlock symbols (addressTitle data) stack).Readable '\t' '\n' := by
    intro stack
    refine stackBlock_readable hnames (newline_addressTitle data) ?_ stack
    rw [addressTitle_initial]
    simp
  unfold FailureData.blocks
  cases data.failureType with
  | unknown => simp
  | deallocOfNonExistingMemory => simp [haddr]
  | badReallocMemNotExist => simp [haddr]
  | possibilityOfMemoryLeak => simp [stackBlock_readable hnames]
  | sigSegvHandler => simp [stackBlock_readable hnames]
  | _ => simp [haddr, stackBlock_readable hnames]

/-- The text is made of what is shown. -/
theorem text_of_shown {data data' : FailureData} (h : data.shown = data'.shown) :
    (defaultFailureClbk symbols data).1 = (defaultFailureClbk symbols data').1 := by
  obtain ⟨hft, haddress, htypes, hframes⟩ := Shown.mk.inj h
  obtain ⟨ft, at₁, ft₁, r, u, p, n, sa, sf, an⟩ := data
  obtain ⟨ft', at₂, ft₂, r', u', p', n', sa', sf', an'⟩ := data'
  cases hft
  cases ft with
  | unknown => rfl
  | possibilityOfMemoryLeak =>
    cases hframes
    rfl
  | sigSegvHandler =>
    cases hframes
    rfl
  | badReallocCreatedByWrongAlloc =>
    cases hframes
    cases haddress
    cases htypes
    rfl
  | freeMissmatch =>
    cases hframes
    cases haddress
    cases htypes
    rfl
  | _ =>
    cases hframes
    cases haddress
    rfl

/-- Two reports have the same text exactly when the same is shown of them. -/
theorem text_eq_iff (hnames : SingleLineNames symbols) {data data' : FailureData} :
    (defaultFailureClbk symbols data).1 = (defaultFailureClbk symbols data').1 ↔
      data.shown = data'.shown := by
  refine ⟨fun h => ?_, text_of_shown⟩
  rw [defaultFailureClbk_text, defaultFailureClbk_text] at h
  exact shown_of_blocks (Lines.text_injective (by decide) (blocks_readable hnames data)
    (blocks_readable hnames data') h)

/-- A failure of a known kind has a text. -/
theorem text_ne_nil (hnames : SingleLineNames symbols) {data : FailureData}
    (h : data.failureType ≠ .unknown) : (defaultFailureClbk symbols data).1 ≠ [] := by
  intro hnil
  have hblocks : data.blocks symbols = [] := by
    rw [defaultFailureClbk_text] at hnil
    exact Lines.text_injective (by decide) (blocks_readable hnames data) (by simp) hnil
  have hinitial := title_initial data
  rw [← blocks_head symbols, hblocks] at hinitial
  cases hft : data.failureType with
  | unknown => exact h hft
  | _ =>
    rw [hft] at hinitial
    cases hinitial

/-- What a followed process wrote determines what is shown of the first error. -/
theorem Followed.stderr_eq_iff (hnames : SingleLineNames symbols) {w w' : Monitored}
    (h : Followed w) (h' : Followed w') : w.stderr symbols = w'.stderr symbols ↔
      w.monitor.failure.map FailureData.shown = w'.monitor.failure.map FailureData.shown := by
  cases h with
  | running inv =>
    cases h' with
    | running inv' => simp [Monitored.stderr]
    | finished exited known =>
      simp [Monitored.stderr, (text_ne_nil hnames known).symm]
  | finished exited known =>
    cases h' with
    | running inv' => simp [Monitored.stderr, text_ne_nil hnames known]
    | finished exited' known' => simp [Monitored.stderr, text_eq_iff hnames]

end Lines

end CrashInvestigator.Tracker
