import Mathlib.Data.List.Basic

/-!
# Re-entrant programs

A component whose routines hand control to code outside, which may call the routines again before it
answers. A routine is a program over the state of the component (`Prog`); a `Tree` is one call
together with all the calls that are made inside it, given as a script with one line for every
question the routine puts to the outside; running a tree to a given depth yields the state, how the
call ended, and the states before and after every call in it that ended.

The rule for such programs is a weakest precondition in which control may be handed out where `ok`
holds and comes back in a state related by `R`. If every routine called where `ok` holds keeps `R`,
then so does every tree of calls (`runTree_sound`).
-/

namespace CrashInvestigator.Library.Reentrant

/-- Programs with state `σ`, questions `κ`, answers `ω`, faults `φ` and result `α`. -/
inductive Prog (σ κ ω φ α : Type) where
  | ret (a : α)
  /-- The program is left by an exception. -/
  | throw
  /-- The process ends. -/
  | exit
  /-- What must not happen. -/
  | fault (f : φ)
  | get (k : σ → Prog σ κ ω φ α)
  | set (s : σ) (k : Prog σ κ ω φ α)
  /-- A question that is answered at once. -/
  | ask (q : κ) (k : ω → Prog σ κ ω φ α)
  /-- A question before whose answer the routines may be called. -/
  | leave (q : κ) (k : ω → Prog σ κ ω φ α)

namespace Prog

variable {σ κ ω φ α β : Type}

def bind : Prog σ κ ω φ α → (α → Prog σ κ ω φ β) → Prog σ κ ω φ β
  | ret a, f => f a
  | throw, _ => throw
  | exit, _ => exit
  | fault e, _ => fault e
  | get k, f => get fun s => (k s).bind f
  | set s k, f => set s (k.bind f)
  | ask q k, f => ask q fun w => (k w).bind f
  | leave q k, f => leave q fun w => (k w).bind f

instance : Monad (Prog σ κ ω φ) where
  pure := ret
  bind := bind

/-- `p`, and then `c` when `p` returns or throws: the destructor of a local object of `p`. -/
def withCleanup (p : Prog σ κ ω φ α) (c : Prog σ κ ω φ Unit) : Prog σ κ ω φ α :=
  match p with
  | ret a => c.bind fun _ => ret a
  | throw => c.bind fun _ => throw
  | exit => exit
  | fault e => fault e
  | get k => get fun s => (k s).withCleanup c
  | set s k => set s (k.withCleanup c)
  | ask q k => ask q fun w => (k w).withCleanup c
  | leave q k => leave q fun w => (k w).withCleanup c

/-- The state. -/
def read : Prog σ κ ω φ σ := get ret

/-- An assignment. -/
def modify (f : σ → σ) : Prog σ κ ω φ Unit := get fun s => set (f s) (ret ())

/-- `p` run `n` times. -/
def replicate (n : ℕ) (p : Prog σ κ ω φ Unit) : Prog σ κ ω φ Unit :=
  match n with
  | 0 => ret ()
  | n + 1 => p.bind fun _ => p.replicate n

end Prog

/-! ## Runs -/

/-- A call of routine `i` with the calls inside it: a line of the script holds the calls that are made
before a question is answered, and the answer. -/
inductive Tree (ι ω : Type) where
  | node (i : ι) (script : List (List (Tree ι ω) × ω))

/-- How a program ends. `cut` means that the script or the depth does not reach its end. -/
inductive Outcome (φ α : Type) where
  | returned (a : α)
  | thrown
  | exited
  | faulted (f : φ)
  | cut
  deriving DecidableEq

/-- The outcome, the state, and the states before and after every call that ended. -/
structure Result (σ φ α : Type) where
  outcome : Outcome φ α
  st : σ
  ended : List (σ × σ)

section Runs

variable {ι σ κ ω φ α ρ : Type}

/-- Calls made one after the other. An exception of a call is caught by whoever made it. -/
def runCalls (call : Tree ι ω → σ → Result σ φ Unit) : List (Tree ι ω) → σ → Result σ φ Unit
  | [], s => ⟨.returned (), s, []⟩
  | t :: ts, s =>
    let r := call t s
    match r.outcome with
    | .returned _ | .thrown =>
      let rest := runCalls call ts r.st
      ⟨rest.outcome, rest.st, r.ended ++ rest.ended⟩
    | .exited => ⟨.exited, r.st, r.ended⟩
    | .faulted f => ⟨.faulted f, r.st, r.ended⟩
    | .cut => ⟨.cut, r.st, r.ended⟩

/-- A program run along a script. -/
def runProg (call : Tree ι ω → σ → Result σ φ Unit) :
    Prog σ κ ω φ α → List (List (Tree ι ω) × ω) → σ → Result σ φ α
  | .ret a, _, s => ⟨.returned a, s, []⟩
  | .throw, _, s => ⟨.thrown, s, []⟩
  | .exit, _, s => ⟨.exited, s, []⟩
  | .fault f, _, s => ⟨.faulted f, s, []⟩
  | .get k, sc, s => runProg call (k s) sc s
  | .set s' k, sc, _ => runProg call k sc s'
  | .ask _ _, [], s => ⟨.cut, s, []⟩
  | .ask _ k, (_, w) :: sc, s => runProg call (k w) sc s
  | .leave _ _, [], s => ⟨.cut, s, []⟩
  | .leave _ k, (ts, w) :: sc, s =>
    let r := runCalls call ts s
    match r.outcome with
    | .returned _ | .thrown =>
      let rest := runProg call (k w) sc r.st
      ⟨rest.outcome, rest.st, r.ended ++ rest.ended⟩
    | .exited => ⟨.exited, r.st, r.ended⟩
    | .faulted f => ⟨.faulted f, r.st, r.ended⟩
    | .cut => ⟨.cut, r.st, r.ended⟩

/-- A call with the calls inside it, down to depth `n`. -/
def runTree (body : ι → Prog σ κ ω φ ρ) : ℕ → Tree ι ω → σ → Result σ φ Unit
  | 0, _, s => ⟨.cut, s, []⟩
  | n + 1, .node i script, s =>
    let r := runProg (runTree body n) (body i) script s
    match r.outcome with
    | .returned _ => ⟨.returned (), r.st, r.ended ++ [(s, r.st)]⟩
    | .thrown => ⟨.thrown, r.st, r.ended ++ [(s, r.st)]⟩
    | .exited => ⟨.exited, r.st, r.ended⟩
    | .faulted f => ⟨.faulted f, r.st, r.ended⟩
    | .cut => ⟨.cut, r.st, r.ended⟩

end Runs

/-! ## Weakest preconditions -/

section Logic

variable {ι σ κ ω φ α β ρ : Type} (ok : σ → Prop) (R : σ → σ → Prop)

/-- What must hold before `p` for it not to fault and to end in `Q`, which is given the returned value
or, after an exception, none. -/
def Prog.wp : Prog σ κ ω φ α → (Option α → σ → Prop) → σ → Prop
  | .ret a, Q, s => Q (some a) s
  | .throw, Q, s => Q none s
  | .exit, _, _ => True
  | .fault _, _, _ => False
  | .get k, Q, s => (k s).wp Q s
  | .set s' k, Q, _ => k.wp Q s'
  | .ask _ k, Q, s => ∀ w, (k w).wp Q s
  | .leave _ k, Q, s => ok s ∧ ∀ s', R s s' → ∀ w, (k w).wp Q s'

variable {ok R}

theorem Prog.wp_mono {p : Prog σ κ ω φ α} {Q Q' : Option α → σ → Prop}
    (h : ∀ o s, Q o s → Q' o s) {s : σ} (hp : p.wp ok R Q s) : p.wp ok R Q' s := by
  induction p generalizing s with
  | ret a => exact h _ _ hp
  | throw => exact h _ _ hp
  | exit => trivial
  | fault f => exact hp
  | get k ih => exact ih s hp
  | set s' k ih => exact ih hp
  | ask q k ih => exact fun w => ih w (hp w)
  | leave q k ih => exact ⟨hp.1, fun s' hs' w => ih w (hp.2 s' hs' w)⟩

/-- What a program has to establish for the one that follows it. -/
def andThen (f : α → Prog σ κ ω φ β) (ok : σ → Prop) (R : σ → σ → Prop)
    (Q : Option β → σ → Prop) : Option α → σ → Prop
  | some a, s => (f a).wp ok R Q s
  | none, s => Q none s

theorem Prog.wp_bind {p : Prog σ κ ω φ α} {f : α → Prog σ κ ω φ β} {Q : Option β → σ → Prop}
    {s : σ} : (p.bind f).wp ok R Q s ↔ p.wp ok R (andThen f ok R Q) s := by
  induction p generalizing s with
  | ret a => rfl
  | throw => rfl
  | exit => rfl
  | fault e => rfl
  | get k ih => exact ih s
  | set s' k ih => exact ih
  | ask q k ih => exact forall_congr' fun w => ih w
  | leave q k ih =>
    refine and_congr_right fun _ => forall_congr' fun s' => ?_
    exact forall_congr' fun _ => forall_congr' fun w => ih w

theorem Prog.wp_read {f : σ → Prog σ κ ω φ β} {Q : Option β → σ → Prop} {s : σ} :
    (Prog.read >>= f).wp ok R Q s ↔ (f s).wp ok R Q s := Iff.rfl

/-- A destructor runs after a return and after an exception. -/
theorem Prog.wp_withCleanup {p : Prog σ κ ω φ α} {c : Prog σ κ ω φ Unit} {Q : Option α → σ → Prop}
    {s : σ} (h : p.wp ok R (fun o s => c.wp ok R (fun o' => Q (o'.bind fun _ => o)) s) s) :
    (p.withCleanup c).wp ok R Q s := by
  induction p generalizing s with
  | ret a =>
    refine Prog.wp_bind.mpr (Prog.wp_mono ?_ h)
    rintro (_ | u) s hs
    · exact hs
    · exact hs
  | throw =>
    refine Prog.wp_bind.mpr (Prog.wp_mono ?_ h)
    rintro (_ | u) s hs
    · exact hs
    · exact hs
  | exit => trivial
  | fault e => exact h
  | get k ih => exact ih s h
  | set s' k ih => exact ih h
  | ask q k ih => exact fun w => ih w (h w)
  | leave q k ih => exact ⟨h.1, fun s' hs' w => ih w (h.2 s' hs' w)⟩

end Logic

/-! ## Soundness -/

section Soundness

variable {ι σ κ ω φ α ρ : Type} {ok : σ → Prop} {R E : σ → σ → Prop}

/-- A call where `ok` holds does not fault, keeps `R`, and so do the calls inside it. -/
def Sound (E : σ → σ → Prop) (I : σ → Prop) (R : σ → σ → Prop) (s : σ) (r : Result σ φ α) : Prop :=
  (∀ f, r.outcome ≠ .faulted f) ∧ (∀ e ∈ r.ended, E e.1 e.2) ∧
    ((∃ a, r.outcome = .returned a) ∨ r.outcome = .thrown → I r.st ∧ R s r.st)

/-- A relation that calls made one after the other keep. -/
structure Keeps (I : σ → Prop) (R : σ → σ → Prop) : Prop where
  refl : ∀ s, I s → R s s
  trans : ∀ s s' s'', R s s' → R s' s'' → R s s''

variable {I : σ → Prop}

theorem runCalls_sound (hR : Keeps I R) {call : Tree ι ω → σ → Result σ φ Unit}
    (hcall : ∀ t s, I s → Sound E I R s (call t s)) (ts : List (Tree ι ω)) {s : σ} (hs : I s) :
    Sound E I R s (runCalls call ts s) := by
  induction ts generalizing s with
  | nil =>
    refine ⟨nofun, ?_, fun _ => ⟨hs, hR.refl s hs⟩⟩
    intro e he
    cases he
  | cons t ts ih =>
    obtain ⟨hfault, hended, hgoes⟩ := hcall t s hs
    have hstop : ∀ o : Outcome φ Unit, (∀ f, o ≠ .faulted f) → (∀ a, o ≠ .returned a) →
        o ≠ .thrown → Sound E I R s ⟨o, (call t s).st, (call t s).ended⟩ := by
      intro o hf hr ht
      refine ⟨hf, hended, ?_⟩
      rintro (⟨a, ha⟩ | ha)
      · exact absurd ha (hr a)
      · exact absurd ha ht
    have hcont : I (call t s).st ∧ R s (call t s).st →
        Sound E I R s ⟨(runCalls call ts (call t s).st).outcome, (runCalls call ts (call t s).st).st,
          (call t s).ended ++ (runCalls call ts (call t s).st).ended⟩ := by
      rintro ⟨hI, hstep⟩
      obtain ⟨hfault', hended', hgoes'⟩ := ih hI
      refine ⟨hfault', ?_, ?_⟩
      · intro e he
        rcases List.mem_append.mp he with he | he
        · exact hended e he
        · exact hended' e he
      · intro hr
        obtain ⟨hI', hrest⟩ := hgoes' hr
        exact ⟨hI', hR.trans _ _ _ hstep hrest⟩
    rw [runCalls]
    cases ho : (call t s).outcome with
    | returned a => exact hcont (hgoes (Or.inl ⟨a, ho⟩))
    | thrown => exact hcont (hgoes (Or.inr ho))
    | exited => exact hstop .exited nofun nofun nofun
    | faulted f => exact absurd ho (hfault f)
    | cut => exact hstop .cut nofun nofun nofun

/-- A program whose weakest precondition holds runs without fault and ends in `Q`. -/
theorem runProg_sound (hR : Keeps ok R) {call : Tree ι ω → σ → Result σ φ Unit}
    (hcall : ∀ t s, ok s → Sound E ok R s (call t s)) {p : Prog σ κ ω φ α}
    {Q : Option α → σ → Prop} (sc : List (List (Tree ι ω) × ω)) {s : σ} (h : p.wp ok R Q s) :
    (∀ f, (runProg call p sc s).outcome ≠ .faulted f) ∧
      (∀ e ∈ (runProg call p sc s).ended, E e.1 e.2) ∧
      (∀ a, (runProg call p sc s).outcome = .returned a → Q (some a) (runProg call p sc s).st) ∧
      ((runProg call p sc s).outcome = .thrown → Q none (runProg call p sc s).st) := by
  induction p generalizing s sc with
  | ret a =>
    refine ⟨nofun, nofun, ?_, nofun⟩
    intro a' ha
    cases ha
    exact h
  | throw => exact ⟨nofun, nofun, nofun, fun _ => h⟩
  | exit => exact ⟨nofun, nofun, nofun, nofun⟩
  | fault f => exact h.elim
  | get k ih => exact ih s sc h
  | set s' k ih => exact ih sc h
  | ask q k ih =>
    cases sc with
    | nil => exact ⟨nofun, nofun, nofun, nofun⟩
    | cons l sc => exact ih l.2 sc (h l.2)
  | leave q k ih =>
    cases sc with
    | nil => exact ⟨nofun, nofun, nofun, nofun⟩
    | cons l sc =>
      obtain ⟨ts, w⟩ := l
      obtain ⟨hok, hk⟩ := h
      obtain ⟨hfault, hended, hgoes⟩ := runCalls_sound hR hcall ts hok
      have hcont := fun hr => ih w sc (hk _ (hgoes hr).2 w)
      rw [runProg]
      cases ho : (runCalls call ts s).outcome with
      | returned a =>
        obtain ⟨hf', he', hr', ht'⟩ := hcont (Or.inl ⟨a, ho⟩)
        refine ⟨hf', ?_, hr', ht'⟩
        intro e he
        rcases List.mem_append.mp he with he | he
        · exact hended e he
        · exact he' e he
      | thrown =>
        obtain ⟨hf', he', hr', ht'⟩ := hcont (Or.inr ho)
        refine ⟨hf', ?_, hr', ht'⟩
        intro e he
        rcases List.mem_append.mp he with he | he
        · exact hended e he
        · exact he' e he
      | exited => exact ⟨nofun, hended, nofun, nofun⟩
      | faulted f => exact absurd ho (hfault f)
      | cut => exact ⟨nofun, hended, nofun, nofun⟩

/-- A run that is cut at once. -/
theorem runTree_zero_sound {body : ι → Prog σ κ ω φ ρ} (t : Tree ι ω) (s : σ) :
    Sound E I R s (runTree body 0 t s) :=
  ⟨nofun, nofun, by rintro (⟨a, ha⟩ | ha) <;> cases ha⟩

/-- A call of a routine whose weakest precondition holds, over calls inside it that are sound. -/
theorem runTree_of_wp (hR : Keeps ok R) {body : ι → Prog σ κ ω φ ρ} {n : ℕ}
    (hcall : ∀ t s, ok s → Sound E ok R s (runTree body n t s)) {i : ι} {s : σ} {T : σ → σ → Prop}
    (h : (body i).wp ok R (fun _ s' => I s' ∧ T s s') s) (hT : ∀ s', T s s' → E s s')
    (script : List (List (Tree ι ω) × ω)) :
    Sound E I T s (runTree body (n + 1) (.node i script) s) := by
  obtain ⟨hfault, hended, hret, hthrow⟩ := runProg_sound hR hcall script h
  have hlast : T s (runProg (runTree body n) (body i) script s).st →
      ∀ e ∈ (runProg (runTree body n) (body i) script s).ended ++
        [(s, (runProg (runTree body n) (body i) script s).st)], E e.1 e.2 := by
    intro ht e he
    rcases List.mem_append.mp he with he | he
    · exact hended e he
    · cases List.mem_singleton.mp he
      exact hT _ ht
  rw [runTree]
  cases ho : (runProg (runTree body n) (body i) script s).outcome with
  | returned a =>
    have hq := hret a ho
    exact ⟨nofun, hlast hq.2, fun _ => hq⟩
  | thrown =>
    have hq := hthrow ho
    exact ⟨nofun, hlast hq.2, fun _ => hq⟩
  | exited => exact ⟨nofun, hended, by rintro (⟨a, ha⟩ | ha) <;> cases ha⟩
  | faulted f => exact absurd ho (hfault f)
  | cut => exact ⟨nofun, hended, by rintro (⟨a, ha⟩ | ha) <;> cases ha⟩

/-- Every tree of calls made where `ok` holds is sound if every single routine is. -/
theorem runTree_sound (hR : Keeps ok R) {body : ι → Prog σ κ ω φ ρ}
    (hbody : ∀ i s, ok s → (body i).wp ok R (fun _ s' => ok s' ∧ R s s') s)
    (hE : ∀ s s', ok s → R s s' → E s s') (n : ℕ) (t : Tree ι ω) (s : σ) (hs : ok s) :
    Sound E ok R s (runTree body n t s) := by
  induction n generalizing t s with
  | zero => exact runTree_zero_sound t s
  | succ n ih =>
    obtain ⟨i, script⟩ := t
    exact runTree_of_wp hR (fun t s hs => ih t s hs) (hbody i s hs) (fun s' hr => hE s s' hs hr) script

end Soundness

end CrashInvestigator.Library.Reentrant
