import CrashInvestigator.HashItems.Proofs.PatchProofs
import CrashInvestigator.Lifetime.Routines
import CrashInvestigator.Stacks.Backtrace

/-!
# Stacks as keys of a table

`IsTheSameStack` is the equality of the frames, except that a stack without frames is not the same as
itself. An item just added is the head of its bucket, so it is found by every key that equals its own.
-/

namespace CrashInvestigator.Stacks

open Library HashItems

/-! ## Bytes -/

theorem memcmp_self (xs : List UInt8) (n : ℕ) : memcmp xs xs n = 0 := by
  induction xs generalizing n with
  | nil => rfl
  | cons x xs ih =>
    cases n with
    | zero => rfl
    | succ n => rw [memcmp, if_pos rfl, ih]

/-- Buffers that are compared to their ends are equal when `memcmp` finds no difference. -/
theorem eq_of_memcmp {xs ys : List UInt8} {n : ℕ} (hx : xs.length = n) (hy : ys.length = n)
    (h : memcmp xs ys n = 0) : xs = ys := by
  induction n generalizing xs ys with
  | zero => rw [List.length_eq_zero_iff.mp hx, List.length_eq_zero_iff.mp hy]
  | succ n ih =>
    cases xs with
    | nil => cases hx
    | cons x xs =>
      cases ys with
      | nil => cases hy
      | cons y ys =>
        rw [memcmp] at h
        split_ifs at h with hxy
        · rw [hxy, ih (Nat.succ.inj hx) (Nat.succ.inj hy) h]
        · have hne : x.toNat ≠ y.toNat := fun he => hxy (UInt8.toNat_inj.mp he)
          omega

@[simp] theorem bytes_length (frames : List UInt64) :
    (bytes frames).length = frames.length * sizeofVoidPtr := by
  induction frames with
  | nil => rfl
  | cons frame frames ih =>
    have hcons : bytes (frame :: frames) =
        Positional.littleEndian sizeofVoidPtr frame.toNat ++ bytes frames := rfl
    rw [hcons, List.length_append, Positional.littleEndian_length, ih, List.length_cons]
    ring

theorem frame_lt (frame : UInt64) : frame.toNat < 256 ^ sizeofVoidPtr := UInt64.toNat_lt frame

/-- The bytes determine the pointers. -/
theorem bytes_inj {frames frames' : List UInt64} (hlen : frames.length = frames'.length)
    (h : bytes frames = bytes frames') : frames = frames' := by
  induction frames generalizing frames' with
  | nil => exact (List.length_eq_zero_iff.mp hlen.symm).symm
  | cons frame frames ih =>
    cases frames' with
    | nil => cases hlen
    | cons frame' frames' =>
      have hsplit : Positional.littleEndian sizeofVoidPtr frame.toNat ++ bytes frames =
          Positional.littleEndian sizeofVoidPtr frame'.toNat ++ bytes frames' := h
      obtain ⟨hfirst, hrest⟩ := List.append_inj hsplit (by simp)
      have hframe : frame.toNat = frame'.toNat :=
        Positional.littleEndian_inj (frame_lt frame) (frame_lt frame') hfirst
      rw [UInt64.toNat_inj.mp hframe, ih (Nat.succ.inj hlen) hrest]

/-! ## The comparison -/

/-- The test compares the frames, and fails without any. -/
theorem isTheSameStack_iff {stack stack' : Backtrace} : isTheSameStack stack stack' = true ↔
    0 < stack.stackDeepness ∧ stack.ppBuffer = stack'.ppBuffer := by
  unfold isTheSameStack
  rw [Bool.and_eq_true, Bool.and_eq_true, decide_eq_true_eq, decide_eq_true_eq, decide_eq_true_eq]
  constructor
  · rintro ⟨⟨hpos, hdeep⟩, hcmp⟩
    refine ⟨hpos, bytes_inj ?_ (eq_of_memcmp ?_ ?_ hcmp)⟩
    · rw [stack.filled, stack'.filled, hdeep]
    · rw [bytes_length, stack.filled]
    · rw [bytes_length, stack'.filled, hdeep]
  · rintro ⟨hpos, hframes⟩
    refine ⟨⟨hpos, ?_⟩, ?_⟩
    · rw [← stack.filled, ← stack'.filled, hframes]
    · rw [hframes]
      exact memcmp_self _ _

theorem hashOfTheStack_congr {stack stack' : Backtrace} (h : stack.ppBuffer = stack'.ppBuffer) :
    hashOfTheStack stack = hashOfTheStack stack' := by
  unfold hashOfTheStack
  rw [h]

theorem unSize_congr {stack stack' : Backtrace} (h : stack.ppBuffer = stack'.ppBuffer) :
    unSize stack = unSize stack' := by
  have hhash : hash stack = hash stack' := hashOfTheStack_congr h
  unfold unSize
  rw [hhash]

/-! ## The stacks of the tracker model -/

/-- The stack as a list of addresses. -/
def Backtrace.abs (stack : Backtrace) : Tracker.Backtrace := ⟨stack.ppBuffer.map UInt64.toNat⟩

theorem Backtrace.abs_stackDeepness (stack : Backtrace) :
    stack.abs.stackDeepness = stack.stackDeepness := by
  unfold Backtrace.abs Tracker.Backtrace.stackDeepness
  rw [List.length_map, stack.filled]

theorem Backtrace.abs_inj {stack stack' : Backtrace} :
    stack.abs = stack'.abs ↔ stack.ppBuffer = stack'.ppBuffer := by
  have hinj : Function.Injective UInt64.toNat := fun _ _ h => UInt64.toNat_inj.mp h
  unfold Backtrace.abs
  rw [Tracker.Backtrace.mk.injEq, (List.map_injective_iff.mpr hinj).eq_iff]

/-- The byte comparison is the comparison of the tracker model. -/
theorem isTheSameStack_abs (stack stack' : Backtrace) :
    Tracker.isTheSameStack stack.abs stack'.abs = isTheSameStack stack stack' := by
  rw [Bool.eq_iff_iff, isTheSameStack_iff, Tracker.isTheSameStack_iff, Backtrace.abs_inj,
    ← List.length_pos_iff, ← Backtrace.abs_stackDeepness]
  rfl

theorem hashLoop_eq_foldl (frames : List UInt64) (cunRet unMult : UInt64) :
    hashLoop cunRet unMult frames = ((frames.map UInt64.toNat).foldl
      (fun (a : UInt64 × UInt64) frame => (a.1 + UInt64.ofNat frame * a.2, a.2 * 1000))
      (cunRet, unMult)).1 := by
  induction frames generalizing cunRet unMult with
  | nil => rfl
  | cons frame frames ih => rw [hashLoop, ih, List.map_cons, List.foldl_cons, UInt64.ofNat_toNat]

theorem hashOfTheStack_abs (stack : Backtrace) :
    Lifetime.hashOfTheStack stack.abs = hashOfTheStack stack :=
  (hashLoop_eq_foldl stack.ppBuffer 0 1).symm

/-! ## The key -/

theorem lawfulKey_of_pos {stack : Backtrace} (hpos : 0 < stack.stackDeepness) :
    LawfulKey stack := by
  have hexact : ∀ s, isTheSameStack stack s = true ↔ stack.ppBuffer = s.ppBuffer := by
    intro s
    rw [isTheSameStack_iff]
    exact and_iff_right hpos
  refine ⟨?_, ?_, ?_, ?_, ?_, ?_⟩
  · exact (hexact stack).mpr rfl
  · intro s _ h
    have hframes := (hexact s).mp h
    refine isTheSameStack_iff.mpr ⟨?_, hframes.symm⟩
    rwa [← s.filled, ← hframes, stack.filled]
  · intro s s' _ _ h h'
    exact (hexact s').mpr (((hexact s).mp h).trans (isTheSameStack_iff.mp h').2)
  · intro s _
    exact hexact s
  · intro s _ h
    exact hashOfTheStack_congr ((hexact s).mp h)
  · intro t t' a_data pItem hadd s _ hframes fuel
    obtain ⟨hhead, item, hitem, hfirst⟩ := Table.addEntryWithKnownHash_head hadd
    rw [unSize_congr hframes.symm] at hhead
    refine Table.findEntry_of_head hhead hitem ?_ fuel
    rw [hfirst]
    exact (hexact s).mpr hframes.symm

/-- A capture returns a stack with a frame exactly when there is one to unwind. -/
theorem capture_deep {answers : Answers} {goBackInTheStackCalc : ℕ} {stack : Backtrace}
    (h : initBacktraceDataForCurrentStack answers goBackInTheStackCalc = some stack) :
    0 < stack.stackDeepness ↔ answers.unwound ≠ [] := by
  have hlen : (backtrace answers.unwound
      (crashInvestSymbolsCountMax + goBackInTheStackCalc)).length =
      min (crashInvestSymbolsCountMax + goBackInTheStackCalc) answers.unwound.length :=
    List.length_take
  have hmax : crashInvestSymbolsCountMax = 256 := rfl
  rw [← List.length_pos_iff]
  unfold initBacktraceDataForCurrentStack at h
  simp only at h
  split_ifs at h with hobject hdeep hbuffer hbuffer
  · -- more frames than the tool has itself
    obtain rfl := Option.some.inj h
    show 0 < (backtrace _ _).length - goBackInTheStackCalc ↔ _
    omega
  · obtain rfl := Option.some.inj h
    show 0 < (backtrace _ _).length ↔ _
    omega

/-- A captured stack is a lawful key exactly when the system could unwind a frame. -/
theorem captured_stack_key_iff {answers : Answers} {goBackInTheStackCalc : ℕ} {stack : Backtrace}
    (h : initBacktraceDataForCurrentStack answers goBackInTheStackCalc = some stack) :
    LawfulKey stack ↔ answers.unwound ≠ [] := by
  rw [← capture_deep h]
  constructor
  · intro hkey
    exact (isTheSameStack_iff.mp hkey.refl).1
  · exact lawfulKey_of_pos

/-- A stack of three frames, the first of which is that of the tool. -/
theorem captured_stack_key_iff_three_frames :
    LawfulKey ⟨[0x402000, 0x403000], 2, rfl⟩ ↔ [0x401000, 0x402000, 0x403000] ≠ ([] : List UInt64) :=
  @captured_stack_key_iff ⟨true, true, [0x401000, 0x402000, 0x403000]⟩ 1 _ rfl

/-- Where nothing could be unwound, the capture returns a stack that is not a key. -/
theorem empty_stack_not_key : ¬ ∀ stack, Captured stack → LawfulKey stack := by
  intro h
  have hcaptured : Captured ⟨[], 0, rfl⟩ := ⟨⟨true, true, []⟩, 1, rfl⟩
  have hsame : isTheSameStack ⟨[], 0, rfl⟩ ⟨[], 0, rfl⟩ = true := (h _ hcaptured).refl
  cases hsame

end CrashInvestigator.Stacks
