import CrashInvestigator.HashItems.Entries

/-!
# What the operations of the hash table patch

One lemma for each operation says when it touches freed items, and what table it leaves when it
does not. The proofs about chains read these lemmas and not the operations.
-/

namespace CrashInvestigator.HashItems

namespace Table

variable {κ ν : Type*} {t : Table κ ν} {a c : ℕ} {item : Item κ ν} {ptr : Option ℕ}

/-- The pointer is null or points to an item that is not freed. -/
def Safe (t : Table κ ν) (ptr : Option ℕ) : Prop := ∀ b ∈ ptr, (t.items b).isSome

/-! ## A single write -/

/-- The table after the write of a field through `ptr`. -/
def assigned (t : Table κ ν) (ptr : Option ℕ) (field : Item κ ν → Item κ ν) : Table κ ν :=
  { t with items := fun c => if ptr = some c then (t.items c).map field else t.items c }

theorem assign_of_safe (h : t.Safe ptr) (field : Item κ ν → Item κ ν) :
    t.assign ptr field = .ok (t.assigned ptr field) := by
  cases ptr with
  | none => simp [assign, assigned]
  | some b =>
    obtain ⟨i, hi⟩ := Option.isSome_iff_exists.mp (h b rfl)
    simp only [assign, hi, assigned]
    congr 2
    funext c
    by_cases hc : c = b
    · subst hc
      simp [hi]
    · rw [Function.update_of_ne hc, if_neg fun hbc => hc (Option.some.inj hbc).symm]

theorem assign_of_not_safe (h : ¬ t.Safe ptr) (field : Item κ ν → Item κ ν) :
    t.assign ptr field = .error .useAfterFree := by
  cases ptr with
  | none => exact absurd (fun b hb => by cases hb) h
  | some b =>
    have hnone : t.items b = none := by
      cases hb : t.items b with
      | none => rfl
      | some i =>
        refine absurd (fun c hc => ?_) h
        cases hc
        simp [hb]
    simp [assign, hnone]

@[simp] theorem safe_assigned (ptr' : Option ℕ) (field : Item κ ν → Item κ ν) :
    (t.assigned ptr' field).Safe ptr ↔ t.Safe ptr := by
  refine forall_congr' fun b => forall_congr' fun _ => ?_
  by_cases hb : ptr' = some b <;> simp [assigned, hb]

theorem read_of_some (h : t.items a = some item) : t.read a = .ok item := by
  simp [read, h]

/-- A write elsewhere leaves the item. -/
theorem items_assigned_of_ne (h : t.items a = some item) (hne : ptr ≠ some a)
    (field : Item κ ν → Item κ ν) : (t.assigned ptr field).items a = some item := by
  simp [assigned, hne, h]

/-! ## Adding an item -/

/-- The table after `item` was added at `a`: the head of the bucket and the first item of all point
back to it. -/
def linked (t : Table κ ν) (a : ℕ) (item : Item κ ν) : Table κ ν where
  items := fun c =>
    if c = a then some item
    else (t.items c).map fun i =>
      { i with prev := if item.next = some c ∨ item.nextInTheList = some c then some a
                       else i.prev }
  ppItems := Function.update t.ppItems item.unIndex (some a)
  pFirstItem := some a

theorem linkIntoBucket_eq (a : ℕ) {a_hash : ℕ} (h : t.Safe (t.ppItems a_hash)) :
    t.linkIntoBucket a a_hash =
      .ok { t.assigned (t.ppItems a_hash) fun i => { i with prev := some a } with
        ppItems := Function.update t.ppItems a_hash (some a) } := by
  unfold linkIntoBucket
  rw [assign_of_safe h]
  rfl

theorem linkIntoTheList_eq (a : ℕ) (h : t.Safe t.pFirstItem) :
    t.linkIntoTheList a =
      .ok { t.assigned t.pFirstItem fun i => { i with prev := some a } with
        pFirstItem := some a } := by
  unfold linkIntoTheList
  rw [assign_of_safe h]
  rfl

theorem addEntryWithKnownHash_eq (a_key : κ) {a_hash : ℕ} (a_data : ν)
    (hhash : a_hash < cpputilsmHashSize) (hfree : t.items a = none)
    (hhead : t.Safe (t.ppItems a_hash)) (hfirst : t.Safe t.pFirstItem) :
    t.addEntryWithKnownHash a_key a_hash a_data (some a) =
      .ok (t.linked a (t.newItem a_key a_hash a_data), some a) := by
  have hne : ∀ p, t.Safe p → p ≠ some a := by
    rintro p hp rfl
    have := hp a rfl
    rw [hfree] at this
    cases this
  set t₁ : Table κ ν :=
    { t with items := Function.update t.items a (some (t.newItem a_key a_hash a_data)) } with ht₁
  have hsafe : ∀ p, t.Safe p → t₁.Safe p := by
    intro p hp b hb
    have hba : b ≠ a := fun hba => hne p hp (hba ▸ hb)
    rw [ht₁]
    simpa [hba] using hp b hb
  have h₂ := linkIntoBucket_eq a (hsafe _ hhead)
  set t₂ : Table κ ν := { t₁.assigned (t₁.ppItems a_hash) fun i => { i with prev := some a } with
    ppItems := Function.update t₁.ppItems a_hash (some a) } with ht₂
  have hfirst₂ : t₂.Safe t₂.pFirstItem :=
    (safe_assigned (t₁.ppItems a_hash) fun i => { i with prev := some a }).mpr (hsafe _ hfirst)
  have h₃ := linkIntoTheList_eq a hfirst₂
  simp only [addEntryWithKnownHash, if_pos hhash, ← ht₁, h₂, bind, Except.bind, h₃]
  congr 2
  unfold linked
  congr 1
  funext c
  have hhead' := hne _ hhead
  have hfirst' := hne _ hfirst
  by_cases hc : c = a
  · subst hc
    simp [assigned, ht₂, ht₁, hhead', hfirst', newItem]
  · cases hi : t.items c <;> by_cases h₁ : t.ppItems a_hash = some c <;>
      by_cases h₂ : t.pFirstItem = some c <;> simp [assigned, ht₂, ht₁, hc, hi, h₁, h₂, newItem]

/-- A computation that succeeds went through its first part. -/
theorem ok_of_bind {ε α β : Type*} {x : Except ε α} {f : α → Except ε β} {r : β}
    (h : x.bind f = .ok r) : ∃ y, x = .ok y ∧ f y = .ok r := by
  cases x with
  | error e => cases h
  | ok y => exact ⟨y, rfl, h⟩

/-- A patch of a link changes neither keys nor heads. -/
theorem assign_keeps {t' : Table κ ν} {field : Item κ ν → Item κ ν}
    (h : t.assign ptr field = .ok t') (hfield : ∀ i, (field i).first = i.first)
    (ha : t.items a = some item) :
    t'.ppItems = t.ppItems ∧ ∃ item', t'.items a = some item' ∧ item'.first = item.first := by
  by_cases hsafe : t.Safe ptr
  · rw [assign_of_safe hsafe] at h
    obtain rfl := Except.ok.inj h
    refine ⟨rfl, ?_⟩
    by_cases hptr : ptr = some a
    · exact ⟨field item, by simp [assigned, hptr, ha], hfield item⟩
    · exact ⟨item, by simp [assigned, hptr, ha], rfl⟩
  · rw [assign_of_not_safe hsafe] at h
    cases h

/-- The new item is the head of its bucket. -/
theorem addEntryWithKnownHash_head {t' : Table κ ν} {a_key : κ} {a_hash : ℕ} {a_data : ν}
    (h : t.addEntryWithKnownHash a_key a_hash a_data (some a) = .ok (t', some a)) :
    t'.ppItems a_hash = some a ∧ ∃ item, t'.items a = some item ∧ item.first = a_key := by
  unfold addEntryWithKnownHash at h
  split_ifs at h with hhash
  obtain ⟨t₂, hbucket, h⟩ := ok_of_bind h
  obtain ⟨t₃, hlist, h⟩ := ok_of_bind h
  obtain ⟨t₁, h₁, hheads₁⟩ := ok_of_bind hbucket
  obtain ⟨t₄, h₄, hfirst₄⟩ := ok_of_bind hlist
  obtain rfl := Except.ok.inj hheads₁
  obtain rfl := Except.ok.inj hfirst₄
  obtain rfl : _ = t' := (Prod.mk.inj (Except.ok.inj h)).1
  obtain ⟨-, item₁, hitem₁, hfirst₁⟩ := assign_keeps h₁ (fun _ => rfl) (Function.update_self a _ _)
  obtain ⟨hheads, item₄, hitem₄, hfirst₄⟩ := assign_keeps h₄ (fun _ => rfl) hitem₁
  refine ⟨?_, item₄, hitem₄, hfirst₄.trans hfirst₁⟩
  show t₄.ppItems a_hash = some a
  rw [hheads]
  exact Function.update_self ..

/-- The head of a bucket is found at once by a key that equals its own. -/
theorem findEntry_of_head [BEq κ] [Hashable κ] {a_key : κ}
    (hhead : t.ppItems (unSize a_key) = some a) (hitem : t.items a = some item)
    (hkey : (item.first == a_key) = true) (fuel : ℕ) :
    t.findEntry (fuel + 1) a_key = .ok (some a, unSize a_key) := by
  simp only [findEntry, findEntryRaw, hhead, walk, hitem, hkey, if_true]

/-! ## Removing an item -/

/-- The table after the chain of the item `a` was patched around it. -/
def unchained (t : Table κ ν) (a : ℕ) (item : Item κ ν) : Table κ ν :=
  { t with
    items := fun c => (t.items c).map fun i =>
      { i with
        prev := if item.next = some c then item.prev else i.prev,
        next := if item.prev = some c then item.next else i.next },
    ppItems := if t.ppItems item.unIndex = some a then
        Function.update t.ppItems item.unIndex item.next
      else t.ppItems }

/-- The table after the removal of the item `a`. -/
def removed (t : Table κ ν) (a : ℕ) (item : Item κ ν) : Table κ ν where
  items := Function.update (t.unchained a item).items a none
  ppItems := (t.unchained a item).ppItems
  pFirstItem := if t.pFirstItem = some a then item.nextInTheList else t.pFirstItem

theorem unlinkFromBucket_eq (ha : t.items a = some item) (hn : item.next ≠ some a)
    (hp : item.prev ≠ some a) (hnext : t.Safe item.next) (hprev : t.Safe item.prev) :
    t.unlinkFromBucket a = .ok (t.unchained a item) := by
  have h₁ := assign_of_safe hnext fun j => { j with prev := item.prev }
  have ha₁ := items_assigned_of_ne ha hn fun j => { j with prev := item.prev }
  have h₂ := assign_of_safe
    ((safe_assigned item.next fun j => { j with prev := item.prev }).mpr hprev)
    fun j => { j with next := item.next }
  have ha₂ := items_assigned_of_ne ha₁ hp fun j => { j with next := item.next }
  have htable : (t.assigned item.next fun j => { j with prev := item.prev }).assigned item.prev
      (fun j => { j with next := item.next }) = { t with items := (t.unchained a item).items } := by
    unfold assigned unchained
    congr 1
    funext c
    cases hi : t.items c <;> by_cases hc₁ : item.next = some c <;>
      by_cases hc₂ : item.prev = some c <;> simp [hi, hc₁, hc₂]
  rw [htable] at h₂ ha₂
  simp only [unlinkFromBucket, read_of_some ha, bind, Except.bind, h₁, read_of_some ha₁, h₂,
    read_of_some ha₂]
  by_cases hhead : t.ppItems item.unIndex = some a <;> simp [unchained, hhead]

/-- A patch of the chain that goes through a freed item fails. -/
theorem unlinkFromBucket_error (ha : t.items a = some item) (hn : item.next ≠ some a)
    (h : ¬ (t.Safe item.next ∧ t.Safe item.prev)) :
    t.unlinkFromBucket a = .error .useAfterFree := by
  by_cases hnext : t.Safe item.next
  · have hprev : ¬ t.Safe item.prev := fun hprev => h ⟨hnext, hprev⟩
    have h₁ := assign_of_safe hnext fun j => { j with prev := item.prev }
    have ha₁ := items_assigned_of_ne ha hn fun j => { j with prev := item.prev }
    have h₂ := assign_of_not_safe
      (mt (safe_assigned item.next fun j => { j with prev := item.prev }).mp hprev)
      fun j => { j with next := item.next }
    simp only [unlinkFromBucket, read_of_some ha, bind, Except.bind, h₁, read_of_some ha₁, h₂]
  · have h₁ := assign_of_not_safe hnext fun j => { j with prev := item.prev }
    simp only [unlinkFromBucket, read_of_some ha, bind, Except.bind, h₁]

/-- Nothing points back along the list of all items, so that a removal leaves this list. -/
theorem unlinkFromTheList_eq (ha : t.items a = some item)
    (hnull : ∀ c i, t.items c = some i → i.prevInTheList = none)
    (hsafe : t.Safe item.nextInTheList) :
    t.unlinkFromTheList a = .ok { t with
      pFirstItem := if t.pFirstItem = some a then item.nextInTheList else t.pFirstItem } := by
  have hprev : item.prevInTheList = none := hnull a item ha
  have hsame : (t.assigned item.nextInTheList fun j =>
      { j with prevInTheList := item.prevInTheList }) = t := by
    unfold assigned
    congr 1
    funext c
    cases hi : t.items c with
    | none => simp
    | some i => simp [hprev, ← hnull c i hi]
  have h₁ := assign_of_safe hsafe fun j => { j with prevInTheList := item.prevInTheList }
  rw [hsame] at h₁
  have h₂ : t.assign item.prevInTheList (fun j => { j with nextInTheList := item.nextInTheList }) =
      .ok t := by rw [hprev]; rfl
  simp only [unlinkFromTheList, read_of_some ha, bind, Except.bind, h₁, h₂]
  split_ifs <;> rfl

theorem unlinkFromTheList_error (ha : t.items a = some item)
    (h : ¬ t.Safe item.nextInTheList) : t.unlinkFromTheList a = .error .useAfterFree := by
  have h₁ := assign_of_not_safe h fun j => { j with prevInTheList := item.prevInTheList }
  simp only [unlinkFromTheList, read_of_some ha, bind, Except.bind, h₁]

theorem items_unchained_self (ha : t.items a = some item) (hn : item.next ≠ some a)
    (hp : item.prev ≠ some a) : (t.unchained a item).items a = some item := by
  simp [unchained, ha, hn, hp]

@[simp] theorem safe_unchained : (t.unchained a item).Safe ptr ↔ t.Safe ptr := by
  simp [Safe, unchained]

theorem prevInTheList_unchained (hnull : ∀ c i, t.items c = some i → i.prevInTheList = none)
    {i : Item κ ν} (hi : (t.unchained a item).items c = some i) : i.prevInTheList = none := by
  obtain ⟨j, hj, rfl⟩ := Option.map_eq_some_iff.mp hi
  exact hnull c j hj

/-- A removal whose three neighbours are there. -/
theorem removeEntry_eq (ha : t.items a = some item) (hn : item.next ≠ some a)
    (hp : item.prev ≠ some a) (hnull : ∀ c i, t.items c = some i → i.prevInTheList = none)
    (hnext : t.Safe item.next) (hprev : t.Safe item.prev) (hlist : t.Safe item.nextInTheList) :
    t.removeEntry (some a) = .ok (t.removed a item) := by
  have h₁ := unlinkFromBucket_eq ha hn hp hnext hprev
  have h₂ := unlinkFromTheList_eq (items_unchained_self ha hn hp)
    (fun c i => prevInTheList_unchained hnull) (safe_unchained.mpr hlist)
  simp only [removeEntry, h₁, bind, Except.bind, h₂]
  rfl

/-- A removal of which one neighbour is freed. -/
theorem removeEntry_error (ha : t.items a = some item) (hn : item.next ≠ some a)
    (hp : item.prev ≠ some a)
    (h : ¬ (t.Safe item.next ∧ t.Safe item.prev ∧ t.Safe item.nextInTheList)) :
    t.removeEntry (some a) = .error .useAfterFree := by
  by_cases hchain : t.Safe item.next ∧ t.Safe item.prev
  · have h₁ := unlinkFromBucket_eq ha hn hp hchain.1 hchain.2
    have h₂ := unlinkFromTheList_error (items_unchained_self ha hn hp)
      (mt safe_unchained.mp fun hlist => h ⟨hchain.1, hchain.2, hlist⟩)
    simp only [removeEntry, h₁, bind, Except.bind, h₂]
  · have h₁ := unlinkFromBucket_error ha hn hchain
    simp only [removeEntry, h₁, bind, Except.bind]

/-! ## The links -/

/-- The links of the item at an address, none if there is no item. -/
def next (t : Table κ ν) (a : ℕ) : Option ℕ := (t.items a).bind Item.next

def prev (t : Table κ ν) (a : ℕ) : Option ℕ := (t.items a).bind Item.prev

def nextInTheList (t : Table κ ν) (a : ℕ) : Option ℕ := (t.items a).bind Item.nextInTheList

theorem next_of_some (ha : t.items a = some item) : t.next a = item.next := by
  simp [next, ha]

theorem prev_of_some (ha : t.items a = some item) : t.prev a = item.prev := by
  simp [prev, ha]

theorem nextInTheList_of_some (ha : t.items a = some item) :
    t.nextInTheList a = item.nextInTheList := by
  simp [nextInTheList, ha]

section Linked

/-- The other items keep their keys, values and buckets. -/
theorem items_linked_of_ne {i : Item κ ν} (hc : c ≠ a) (hi : t.items c = some i) :
    ∃ j, (t.linked a item).items c = some j ∧ j.first = i.first ∧ j.second = i.second ∧
      j.unIndex = i.unIndex := by
  refine ⟨{ i with prev := ?_ }, ?_, rfl, rfl, rfl⟩
  rotate_left
  · simp only [linked, if_neg hc, hi, Option.map_some]
    rfl

theorem next_linked_self : (t.linked a item).next a = item.next := by
  simp [next, linked]

theorem prev_linked_self : (t.linked a item).prev a = item.prev := by
  simp [prev, linked]

theorem nextInTheList_linked_self : (t.linked a item).nextInTheList a = item.nextInTheList := by
  simp [nextInTheList, linked]

theorem next_linked_of_ne (hc : c ≠ a) : (t.linked a item).next c = t.next c := by
  cases hi : t.items c <;> simp [next, linked, hc, hi]

theorem nextInTheList_linked_of_ne (hc : c ≠ a) :
    (t.linked a item).nextInTheList c = t.nextInTheList c := by
  cases hi : t.items c <;> simp [nextInTheList, linked, hc, hi]

theorem prev_linked_of_head (hc : c ≠ a) (hlive : (t.items c).isSome)
    (h : item.next = some c ∨ item.nextInTheList = some c) :
    (t.linked a item).prev c = some a := by
  obtain ⟨i, hi⟩ := Option.isSome_iff_exists.mp hlive
  simp [prev, linked, hc, hi, h]

theorem prev_linked_of_not_head (hc : c ≠ a)
    (h : ¬ (item.next = some c ∨ item.nextInTheList = some c)) :
    (t.linked a item).prev c = t.prev c := by
  cases hi : t.items c <;> simp [prev, linked, hc, hi, h]

end Linked

section Removed

theorem items_removed_of_ne (item : Item κ ν) {i : Item κ ν} (hc : c ≠ a) (hi : t.items c = some i) :
    ∃ j, (t.removed a item).items c = some j ∧ j.first = i.first ∧ j.second = i.second ∧
      j.unIndex = i.unIndex := by
  refine ⟨{ i with prev := ?_, next := ?_ }, ?_, rfl, rfl, rfl⟩
  rotate_left 2
  · simp only [removed, unchained, Function.update_of_ne hc, hi, Option.map_some]
    rfl

theorem next_removed_of_ne (hc : c ≠ a) (hlive : (t.items c).isSome) :
    (t.removed a item).next c = if item.prev = some c then item.next else t.next c := by
  obtain ⟨i, hi⟩ := Option.isSome_iff_exists.mp hlive
  simp [next, removed, unchained, hc, hi]

/-- The removed item is gone, and no other. -/
theorem isSome_removed : ((t.removed a item).items c).isSome ↔ c ≠ a ∧ (t.items c).isSome := by
  by_cases hc : c = a
  · subst hc
    simp [removed]
  · simp [removed, unchained, hc]

theorem prev_removed_of_ne (hc : c ≠ a) (hlive : (t.items c).isSome) :
    (t.removed a item).prev c = if item.next = some c then item.prev else t.prev c := by
  obtain ⟨i, hi⟩ := Option.isSome_iff_exists.mp hlive
  simp [prev, removed, unchained, hc, hi]

theorem nextInTheList_removed_of_ne (hc : c ≠ a) :
    (t.removed a item).nextInTheList c = t.nextInTheList c := by
  cases hi : t.items c <;> simp [nextInTheList, removed, unchained, hc, hi]

end Removed

/-- A write of a value leaves the links. -/
theorem links_setSecond (t : Table κ ν) (a : ℕ) (a_data : ν) : ∀ c,
    (t.assigned (some a) fun i => { i with second := a_data }).next c = t.next c ∧
    (t.assigned (some a) fun i => { i with second := a_data }).prev c = t.prev c ∧
    (t.assigned (some a) fun i => { i with second := a_data }).nextInTheList c =
      t.nextInTheList c := by
  intro c
  by_cases hc : a = c <;> cases hi : t.items c <;>
    simp [assigned, next, prev, nextInTheList, hc, hi]

end Table

end CrashInvestigator.HashItems
