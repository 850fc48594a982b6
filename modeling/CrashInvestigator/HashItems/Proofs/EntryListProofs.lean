import CrashInvestigator.HashItems.Proofs.MapProofs
import CrashInvestigator.Library.Entries
import CrashInvestigator.Tracker.Operations

/-!
# The hash table as an entry list

The tracker and the detection model keep their tables as maps or as entry lists with the newest
entry first. As long as removals patch their neighbours only, the hash table behaves as such a list:
each call pattern of the client (`FindEntry`, then a write, a removal or an insertion) does on the
entries what the operation of the list does. A table from which nothing is ever removed, as that of
the memory items, always does.
-/

namespace CrashInvestigator.HashItems

open Library

variable {κ ν : Type*}

/-- The keys and values of entries. -/
def pairs (entries : List (Entry κ ν)) : List (κ × ν) := entries.map fun e => (e.key, e.value)

section Iterators

variable {l l₁ l₂ : List (Entry κ ν)} {e : Entry κ ν}

theorem overwrite_of_notMem {a : ℕ} (a_data : ν) (h : a ∉ addresses l) :
    overwrite a a_data l = l := by
  refine (List.map_congr_left fun e he => ?_).trans (List.map_id l)
  have hne : e.iterator ≠ a := fun hea => h (mem_addresses.mpr ⟨e, he, hea⟩)
  simp [hne]

theorem erase_of_notMem {a : ℕ} (h : a ∉ addresses l) :
    l.filter (fun e => some e.iterator ≠ some a) = l := by
  refine List.filter_eq_self.mpr fun e he => ?_
  have hne : e.iterator ≠ a := fun hea => h (mem_addresses.mpr ⟨e, he, hea⟩)
  simpa using hne

/-- The iterator of an entry tells it from all others. -/
theorem notMem_of_split (hnd : (addresses (l₁ ++ e :: l₂)).Nodup) :
    e.iterator ∉ addresses l₁ ∧ e.iterator ∉ addresses l₂ := by
  unfold addresses at hnd ⊢
  rw [List.map_append, List.map_cons] at hnd
  obtain ⟨-, hnd₂, hapart⟩ := List.nodup_append.mp hnd
  refine ⟨fun hmem => ?_, (List.nodup_cons.mp hnd₂).1⟩
  exact hapart _ hmem _ (List.mem_cons_self ..) rfl

end Iterators

variable [BEq κ] {s : Session κ ν} {e : Entry κ ν} {a_key : κ}

/-- The entry that a key denotes splits the entries. -/
theorem lookup_split (h : s.lookup a_key = some e) :
    ∃ l₁ l₂, s.entries = l₁ ++ e :: l₂ ∧ (∀ x ∈ pairs l₁, (x.1 == a_key) = false) ∧
      (e.key == a_key) = true := by
  obtain ⟨hkey, l₁, l₂, hsplit, hbefore⟩ := List.find?_eq_some_iff_append.mp h
  refine ⟨l₁, l₂, hsplit, fun x hx => ?_, hkey⟩
  obtain ⟨e', he', rfl⟩ := List.mem_map.mp hx
  simpa using hbefore e' he'

/-- `FindEntry` sees the first pair with the key. -/
theorem lookup_pairs :
    (s.lookup a_key).map Entry.value = Entries.lookup (· == a_key) (pairs s.entries) := by
  unfold Entries.lookup Entries.findEntry pairs Session.lookup
  rw [List.find?_map, Option.map_map]
  rfl

theorem absent_of_lookup (h : s.lookup a_key = none) :
    ∀ x ∈ pairs s.entries, (x.1 == a_key) = false := by
  intro x hx
  obtain ⟨e, he, rfl⟩ := List.mem_map.mp hx
  simpa using List.find?_eq_none.mp h e he

variable [Hashable κ]

/-- A write through the iterator that `FindEntry` returned. -/
theorem Sound.pairs_overwrite (h : Sound s) (hfind : s.lookup a_key = some e) (a_data : ν) :
    pairs (overwrite e.iterator a_data s.entries) =
      Entries.setFirst (· == a_key) a_data (pairs s.entries) := by
  obtain ⟨l₁, l₂, hsplit, hbefore, hkey⟩ := lookup_split hfind
  have hnd := h.nodup
  rw [hsplit] at hnd ⊢
  obtain ⟨h₁, h₂⟩ := notMem_of_split hnd
  have hwrite : overwrite e.iterator a_data (l₁ ++ e :: l₂) =
      l₁ ++ { e with value := a_data } :: l₂ := by
    have hcons : overwrite e.iterator a_data (e :: l₂) =
        { e with value := a_data } :: overwrite e.iterator a_data l₂ := by simp [overwrite]
    rw [overwrite, List.map_append, ← overwrite, ← overwrite, overwrite_of_notMem _ h₁, hcons,
      overwrite_of_notMem _ h₂]
  rw [hwrite]
  have hset : Entries.setFirst (· == a_key) a_data (pairs l₁ ++ (e.key, e.value) :: pairs l₂) =
      pairs l₁ ++ (e.key, a_data) :: pairs l₂ := Entries.setFirst_split hbefore hkey
  simpa [pairs] using hset.symm

/-- The removal of the iterator that `FindEntry` returned. -/
theorem Sound.pairs_erase (h : Sound s) (hfind : s.lookup a_key = some e) :
    pairs (s.entries.filter fun e' => some e'.iterator ≠ some e.iterator) =
      Entries.removeFirst (· == a_key) (pairs s.entries) := by
  obtain ⟨l₁, l₂, hsplit, hbefore, hkey⟩ := lookup_split hfind
  have hnd := h.nodup
  rw [hsplit] at hnd ⊢
  obtain ⟨h₁, h₂⟩ := notMem_of_split hnd
  rw [List.filter_append, List.filter_cons_of_neg (by simp), erase_of_notMem h₁,
    erase_of_notMem h₂]
  have hremove : Entries.removeFirst (· == a_key) (pairs l₁ ++ (e.key, e.value) :: pairs l₂) =
      pairs l₁ ++ pairs l₂ := Entries.removeFirst_split hbefore hkey
  simpa [pairs] using hremove.symm

/-! ## Clients of an entry list -/

/-- What the clients of a table do with it. -/
inductive ListOp (κ ν : Type*) where
  | insert (a_key : κ) (a_data : ν) (pItem : ℕ)
  | assign (a_key : κ) (a_data : ν)
  | remove (a_key : κ)

namespace ListOp

/-- The operation of the hash table, with the iterator that `FindEntry` returns. -/
def call (s : Session κ ν) : ListOp κ ν → Op κ ν
  | .insert a_key a_data pItem => .addEntryWithKnownHash a_key (unSize a_key) a_data (some pItem)
  | .assign a_key a_data =>
    match s.lookup a_key with
    | none => .findEntry a_key
    | some e => .setSecond e.iterator a_data
  | .remove a_key => .removeEntry ((s.lookup a_key).map Entry.iterator)

/-- One client after the other. -/
def step (s : Session κ ν) (op : ListOp κ ν) : Session κ ν := HashItems.step s (op.call s)

/-- The operation of the entry list. -/
def onPairs (l : List (κ × ν)) : ListOp κ ν → List (κ × ν)
  | .insert a_key a_data _ => (a_key, a_data) :: l
  | .assign a_key a_data => Entries.setFirst (· == a_key) a_data l
  | .remove a_key => Entries.removeFirst (· == a_key) l

/-- Only absent keys are inserted, at addresses that are free. -/
def Allowed (s : Session κ ν) : ListOp κ ν → Prop
  | .insert a_key _ pItem =>
    (∀ e ∈ s.entries, (e.key == a_key) = false) ∧ s.table.items pItem = none
  | _ => True

theorem call_assign_none {a_data : ν} (h : s.lookup a_key = none) :
    (assign a_key a_data).call s = .findEntry a_key := by
  simp [call, h]

theorem call_assign_some {a_data : ν} (h : s.lookup a_key = some e) :
    (assign a_key a_data).call s = .setSecond e.iterator a_data := by
  simp [call, h]

theorem Allowed.valid {op : ListOp κ ν} (h : op.Allowed s) : Valid s (op.call s) := by
  cases op with
  | insert a_key a_data pItem =>
    refine ⟨rfl, h.1, fun a ha => ?_⟩
    cases ha
    exact h.2
  | assign a_key a_data =>
    cases hfind : s.lookup a_key with
    | none =>
      rw [call_assign_none hfind]
      trivial
    | some e =>
      rw [call_assign_some hfind]
      exact ⟨e, List.mem_of_find?_eq_some hfind, rfl⟩
  | remove a_key =>
    intro a ha
    obtain ⟨e, hfind, rfl⟩ := Option.map_eq_some_iff.mp ha
    exact ⟨e, List.mem_of_find?_eq_some hfind, rfl⟩

end ListOp

theorem entries_removeEntry {a_iter : Option ℕ} (h : (step s (.removeEntry a_iter)).fault = none) :
    (step s (.removeEntry a_iter)).entries =
      s.entries.filter fun e => some e.iterator ≠ a_iter := by
  unfold step at h ⊢
  cases ht : s.table.removeEntry a_iter with
  | error f =>
    simp only [ht] at h
    cases h
  | ok t => simp only [ht]

theorem entries_setSecond {a_iter : ℕ} {a_data : ν}
    (h : (step s (.setSecond a_iter a_data)).fault = none) :
    (step s (.setSecond a_iter a_data)).entries = overwrite a_iter a_data s.entries := by
  unfold step at h ⊢
  cases ht : s.table.assign (some a_iter) fun i => { i with second := a_data } with
  | error f =>
    simp only [ht] at h
    cases h
  | ok t => simp only [ht]

section

variable [PartialEquivBEq κ] [LawfulHashable κ] {op : ListOp κ ν}

/-- A step of the hash table does on the pairs what the entry list does. -/
theorem Sound.mirror (h : Sound s) (hallowed : op.Allowed s)
    (hC : PatchesNeighbours s (op.call s)) :
    Sound (ListOp.step s op) ∧ pairs (ListOp.step s op).entries = op.onPairs (pairs s.entries) := by
  have hstep : Sound (HashItems.step s (op.call s)) := h.step hallowed.valid hC
  refine ⟨hstep, ?_⟩
  unfold ListOp.step
  cases op with
  | insert a_key a_data pItem =>
    unfold ListOp.call
    rw [h.step_addEntryWithKnownHash hallowed.2]
    rfl
  | assign a_key a_data =>
    cases hfind : s.lookup a_key with
    | none =>
      rw [ListOp.call_assign_none hfind, h.step_findEntry]
      exact (Entries.setFirst_of_none (absent_of_lookup hfind)).symm
    | some e =>
      rw [ListOp.call_assign_some hfind] at hstep ⊢
      rw [entries_setSecond hstep.noFault, h.pairs_overwrite hfind]
      rfl
  | remove a_key =>
    have hno := hstep.noFault
    unfold ListOp.call at hno ⊢
    rw [entries_removeEntry hno]
    cases hfind : s.lookup a_key with
    | none =>
      rw [Option.map_none, erase_none]
      exact (Entries.removeFirst_of_none (absent_of_lookup hfind)).symm
    | some e => exact h.pairs_erase hfind

theorem Sound.mirror_run {ops : List (ListOp κ ν)} (h : Sound s)
    (hal : Runs.Along ListOp.step
      (fun s op => op.Allowed s ∧ PatchesNeighbours s (op.call s)) s ops) :
    Sound (Runs.final ListOp.step s ops) ∧
      pairs (Runs.final ListOp.step s ops).entries =
        ops.foldl ListOp.onPairs (pairs s.entries) := by
  induction ops generalizing s with
  | nil => exact ⟨h, rfl⟩
  | cons op ops ih =>
    obtain ⟨hsound, hpairs⟩ := h.mirror hal.1.1 hal.1.2
    obtain ⟨hfinal, hlist⟩ := ih hsound hal.2
    refine ⟨hfinal, ?_⟩
    rw [List.foldl_cons, ← hpairs]
    exact hlist

end

variable [EquivBEq κ] [LawfulHashable κ]

/-- A run of clients whose removals patch their neighbours only leaves a table that finds the values
of the entry list, under every key. -/
theorem mirrors_entryList {ops : List (ListOp κ ν)}
    (h : Runs.Along ListOp.step
      (fun s op => op.Allowed s ∧ PatchesNeighbours s (op.call s)) .init ops) :
    RefinesMap (Runs.final ListOp.step .init ops) ∧
      ∀ a_key, ((Runs.final ListOp.step .init ops).lookup a_key).map Entry.value =
        Entries.lookup (· == a_key) (ops.foldl ListOp.onPairs []) := by
  obtain ⟨hsound, hpairs⟩ := Sound.init.mirror_run h
  refine ⟨hsound.refinesMap, fun a_key => ?_⟩
  rw [lookup_pairs, hpairs]
  rfl

/-- The table of the memory items, from which nothing is removed, always is its entry list. -/
theorem mirrors_entryList_of_no_removal {ops : List (ListOp κ ν)}
    (h : Runs.Along ListOp.step (fun s op => op.Allowed s ∧ ∀ a_key, op ≠ .remove a_key)
      .init ops) :
    RefinesMap (Runs.final ListOp.step .init ops) ∧
      ∀ a_key, ((Runs.final ListOp.step .init ops).lookup a_key).map Entry.value =
        Entries.lookup (· == a_key) (ops.foldl ListOp.onPairs []) := by
  refine mirrors_entryList (h.mono fun s op hop => ⟨hop.1, ?_⟩)
  cases op with
  | insert a_key a_data pItem => trivial
  | assign a_key a_data =>
    cases hfind : s.lookup a_key with
    | none =>
      rw [ListOp.call_assign_none hfind]
      trivial
    | some e =>
      rw [ListOp.call_assign_some hfind]
      trivial
  | remove a_key => exact absurd rfl (hop.2 a_key)

/-! ## The table of the memory items -/

section MemoryItems

open Tracker

variable {st st' : Tracker.State} {env : Env} {ptr : Addr} {item : SMemoryItem}

theorem setMemoryItem_eq_assign : (st.setMemoryItem ptr item).memoryItems =
    ListOp.onPairs st.memoryItems (.assign ptr item) := rfl

/-- A registration in the tracker is an insertion or a write of a table that nothing is removed
from. -/
theorem registerMemoryItem_eq_onPairs (pItem : ℕ)
    (h : registerMemoryItem st env ptr item = some st') :
    st'.memoryItems = ListOp.onPairs st.memoryItems
      (if st.findMemoryItem ptr = none then .insert ptr item pItem else .assign ptr item) := by
  unfold registerMemoryItem at h
  cases hfind : st.findMemoryItem ptr with
  | none =>
    simp only [hfind] at h
    split_ifs at h with hgrows
    cases h
    simp [ListOp.onPairs]
  | some old =>
    simp only [hfind] at h
    cases h
    rw [if_neg (by simp)]
    exact setMemoryItem_eq_assign

end MemoryItems

end CrashInvestigator.HashItems
