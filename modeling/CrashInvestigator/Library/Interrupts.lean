import CrashInvestigator.Library.Reentrant

/-!
# Interrupted programs

A signal arrives between two accesses of a routine and its handler calls the routines, on the same
thread and to the end, before the routine goes on. `Prog.interrupted on p` is `p` with a point
before every access, where a state with `on` asks the outside first; the question is `none`, those of
`p` are marked `some`. An assignment and the read that computes its value are one access.

If a call made where `on` holds ends in the state it was made in, then an interrupted run is a run
of the program alone, with some of the answers (`endsAlone`).
-/

namespace CrashInvestigator.Library.Reentrant

variable {ι η σ κ ω φ α β : Type}

/-- A place where a signal may arrive. -/
def Prog.point (on : σ → Bool) (p : Prog σ (Option κ) ω φ α) : Prog σ (Option κ) ω φ α :=
  .get fun s => if on s then .leave none fun _ => p else p

def Prog.interrupted (on : σ → Bool) : Prog σ κ ω φ α → Prog σ (Option κ) ω φ α
  | ret a => ret a
  | throw => throw
  | exit => exit
  | fault f => fault f
  | get k => point on (get fun s => (k s).interrupted on)
  | set s k => set s (k.interrupted on)
  | ask q k => point on (ask (some q) fun w => (k w).interrupted on)
  | leave q k => point on (leave (some q) fun w => (k w).interrupted on)

/-- The assignments of a program that starts with `D` keep `D`. -/
def Prog.StaysIn (D : σ → Prop) : Prog σ κ ω φ α → Prop
  | ret _ | throw | exit | fault _ => True
  | get k => ∀ s, D s → (k s).StaysIn D
  | set s k => D s ∧ k.StaysIn D
  | ask _ k | leave _ k => ∀ w, (k w).StaysIn D

/-- A script with answers and no calls. -/
def bare (ws : List ω) : List (List (Tree ι ω) × ω) := ws.map fun w => ([], w)

/-- A call that changes nothing, if it ends at all. -/
def Absorbed (s : σ) (r : Result σ φ Unit) : Prop :=
  r.outcome = .cut ∨ (r.outcome = .returned () ∨ r.outcome = .thrown) ∧ r.st = s

/-- Two runs that end in the same way and in the same state. -/
def SameEnd (r r' : Result σ φ α) : Prop := r.outcome = r'.outcome ∧ r.st = r'.st

theorem SameEnd.symm {r r' : Result σ φ α} (h : SameEnd r r') : SameEnd r' r := ⟨h.1.symm, h.2.symm⟩

theorem SameEnd.trans {r r' r'' : Result σ φ α} (h : SameEnd r r') (h' : SameEnd r' r'') :
    SameEnd r r'' :=
  ⟨h.1.trans h'.1, h.2.trans h'.2⟩

/-- The run `r` along a script is cut, or `p` ends so when it is given some of the answers and no
call is made inside it. -/
def EndsAlone (p : Prog σ κ ω φ α) (sc : List (List (Tree ι ω) × ω)) (s : σ) (r : Result σ φ α) :
    Prop :=
  r.outcome = .cut ∨ ∃ ws : List ω, ws.Sublist (sc.map Prod.snd) ∧
    ∀ call : Tree η ω → σ → Result σ φ Unit, SameEnd r (runProg call p (bare ws) s)

theorem Prog.bind_assoc {γ : Type} (p : Prog σ κ ω φ α) (f : α → Prog σ κ ω φ β)
    (g : β → Prog σ κ ω φ γ) : (p.bind f).bind g = p.bind fun a => (f a).bind g := by
  induction p with
  | ret a => rfl
  | throw => rfl
  | exit => rfl
  | fault e => rfl
  | get k ih => exact congrArg Prog.get (funext ih)
  | set s k ih => exact congrArg (Prog.set s) ih
  | ask q k ih => exact congrArg (Prog.ask q) (funext ih)
  | leave q k ih => exact congrArg (Prog.leave q) (funext ih)

/-! ## What stays in a predicate -/

section StaysIn

variable {D : σ → Prop}

theorem Prog.StaysIn.bind {p : Prog σ κ ω φ α} {f : α → Prog σ κ ω φ β} (hp : p.StaysIn D)
    (hf : ∀ a, (f a).StaysIn D) : (p.bind f).StaysIn D := by
  induction p with
  | ret a => exact hf a
  | throw => trivial
  | exit => trivial
  | fault e => trivial
  | get k ih => exact fun s hs => ih s (hp s hs)
  | set s k ih => exact ⟨hp.1, ih hp.2⟩
  | ask q k ih => exact fun w => ih w (hp w)
  | leave q k ih => exact fun w => ih w (hp w)

theorem Prog.StaysIn.withCleanup {p : Prog σ κ ω φ α} {c : Prog σ κ ω φ Unit} (hp : p.StaysIn D)
    (hc : c.StaysIn D) : (p.withCleanup c).StaysIn D := by
  induction p with
  | ret a => exact hc.bind fun _ => trivial
  | throw => exact hc.bind fun _ => trivial
  | exit => trivial
  | fault e => trivial
  | get k ih => exact fun s hs => ih s (hp s hs)
  | set s k ih => exact ⟨hp.1, ih hp.2⟩
  | ask q k ih => exact fun w => ih w (hp w)
  | leave q k ih => exact fun w => ih w (hp w)

theorem Prog.StaysIn.modify {f : σ → σ} (hf : ∀ s, D s → D (f s)) :
    (Prog.modify f : Prog σ κ ω φ Unit).StaysIn D :=
  fun s hs => ⟨hf s hs, trivial⟩

theorem Prog.StaysIn.replicate {p : Prog σ κ ω φ Unit} (hp : p.StaysIn D) (n : ℕ) :
    (p.replicate n).StaysIn D := by
  induction n with
  | zero => trivial
  | succ n ih => exact hp.bind fun _ => ih

/-- A run alone ends with `D`. -/
theorem Prog.StaysIn.ends {call : Tree ι ω → σ → Result σ φ Unit} {p : Prog σ κ ω φ α}
    (hp : p.StaysIn D) (ws : List ω) {s : σ} (hs : D s) : D (runProg call p (bare ws) s).st := by
  induction p generalizing s ws with
  | ret a => exact hs
  | throw => exact hs
  | exit => exact hs
  | fault e => exact hs
  | get k ih => exact ih s (hp s hs) ws hs
  | set s' k ih => exact ih hp.2 ws hp.1
  | ask q k ih =>
    cases ws with
    | nil => exact hs
    | cons w ws => exact ih w (hp w) ws hs
  | leave q k ih =>
    cases ws with
    | nil => exact hs
    | cons w ws => exact ih w (hp w) ws hs

end StaysIn

/-! ## Interrupted runs -/

section Interrupted

variable {on : σ → Bool} {call : Tree ι ω → σ → Result σ φ Unit} {s : σ}

theorem runCalls_absorbed (hcall : ∀ t, Absorbed s (call t s)) (ts : List (Tree ι ω)) :
    Absorbed s (runCalls call ts s) := by
  induction ts with
  | nil => exact Or.inr ⟨Or.inl rfl, rfl⟩
  | cons t ts ih =>
    rw [runCalls]
    rcases hcall t with ho | ⟨ho | ho, hst⟩
    · exact Or.inl (by rw [ho])
    · rw [ho, hst]
      exact ih
    · rw [ho, hst]
      exact ih

/-- Calls that change nothing before an answer are not noticed. -/
theorem leave_absorbed (q : κ) (k : ω → Prog σ κ ω φ α) (ts : List (Tree ι ω)) (w : ω)
    (hcall : ∀ t, Absorbed s (call t s)) (sc : List (List (Tree ι ω) × ω)) :
    (runProg call (.leave q k) ((ts, w) :: sc) s).outcome = .cut ∨
      SameEnd (runProg call (.leave q k) ((ts, w) :: sc) s) (runProg call (k w) sc s) := by
  rw [runProg]
  rcases runCalls_absorbed hcall ts with ho | ⟨ho | ho, hst⟩
  · exact Or.inl (by rw [ho])
  · rw [ho, hst]
    exact Or.inr ⟨rfl, rfl⟩
  · rw [ho, hst]
    exact Or.inr ⟨rfl, rfl⟩

/-- A signal takes a line of the script, or none arrives. -/
theorem point_absorbed (hcall : on s = true → ∀ t, Absorbed s (call t s))
    (p : Prog σ (Option κ) ω φ α) (sc : List (List (Tree ι ω) × ω)) :
    (runProg call (p.point on) sc s).outcome = .cut ∨
      ∃ sc', (sc'.map Prod.snd).Sublist (sc.map Prod.snd) ∧
        SameEnd (runProg call (p.point on) sc s) (runProg call p sc' s) := by
  show (runProg call (if on s then _ else _) sc s).outcome = _ ∨ _
  cases hon : on s with
  | false => exact Or.inr ⟨sc, List.Sublist.refl _, by simp [Prog.point, runProg, hon, SameEnd]⟩
  | true =>
    have hpoint : runProg call (p.point on) sc s = runProg call (.leave none fun _ => p) sc s := by
      simp [Prog.point, runProg, hon]
    rw [hpoint]
    cases sc with
    | nil => exact Or.inl rfl
    | cons l sc =>
      rcases leave_absorbed none (fun _ => p) l.1 l.2 (hcall hon) sc with hcut | hsame
      · exact Or.inl hcut
      · exact Or.inr ⟨sc, List.sublist_cons_self _ _, hsame⟩

/-- What is left to show after a point. -/
theorem EndsAlone.of_point {p : Prog σ κ ω φ α} {p' : Prog σ (Option κ) ω φ α}
    {sc : List (List (Tree ι ω) × ω)} (hcall : on s = true → ∀ t, Absorbed s (call t s))
    (h : ∀ sc, EndsAlone (η := η) p sc s (runProg call p' sc s)) :
    EndsAlone (η := η) p sc s (runProg call (p'.point on) sc s) := by
  rcases point_absorbed hcall p' sc with hcut | ⟨sc', hsub, hout, hst⟩
  · exact Or.inl hcut
  · rcases h sc' with hcut | ⟨ws, hws, hsame⟩
    · exact Or.inl (hout.trans hcut)
    · exact Or.inr ⟨ws, hws.trans hsub, fun call' => SameEnd.trans ⟨hout, hst⟩ (hsame call')⟩

/-- An interrupted run is a run of the program alone. The program hands control out where `ok`
holds, and `D` and `on` make what is called then change nothing. -/
theorem endsAlone {D ok : σ → Prop} {R : σ → σ → Prop} (hon : ∀ s, ok s → on s = true)
    (hR : Keeps ok R) (hcall : ∀ s, D s → on s = true → ∀ t, Absorbed s (call t s))
    {p : Prog σ κ ω φ α} (hp : p.StaysIn D) {Q : Option α → σ → Prop} (hs : D s)
    (hwp : p.wp ok R Q s) (sc : List (List (Tree ι ω) × ω)) :
    EndsAlone (η := η) p sc s (runProg call (p.interrupted on) sc s) := by
  induction p generalizing s sc with
  | ret a => exact Or.inr ⟨[], List.nil_sublist _, fun _ => ⟨rfl, rfl⟩⟩
  | throw => exact Or.inr ⟨[], List.nil_sublist _, fun _ => ⟨rfl, rfl⟩⟩
  | exit => exact Or.inr ⟨[], List.nil_sublist _, fun _ => ⟨rfl, rfl⟩⟩
  | fault e => exact hwp.elim
  | get k ih => exact EndsAlone.of_point (hcall s hs) fun sc => ih s (hp s hs) hs hwp sc
  | set s' k ih => exact ih hp.2 hp.1 hwp sc
  | ask q k ih =>
    refine EndsAlone.of_point (hcall s hs) fun sc => ?_
    cases sc with
    | nil => exact Or.inl rfl
    | cons l sc =>
      rcases ih l.2 (hp l.2) hs (hwp l.2) sc with hcut | ⟨ws, hws, hsame⟩
      · exact Or.inl hcut
      · exact Or.inr ⟨l.2 :: ws, hws.cons_cons _, hsame⟩
  | leave q k ih =>
    obtain ⟨hok, hk⟩ := hwp
    refine EndsAlone.of_point (hcall s hs) fun sc => ?_
    cases sc with
    | nil => exact Or.inl rfl
    | cons l sc =>
      obtain ⟨ts, w⟩ := l
      rcases leave_absorbed (some q) (fun w => (k w).interrupted on) ts w
        (hcall s hs (hon s hok)) sc with hcut | ⟨hout, hst⟩
      · exact Or.inl hcut
      · rcases ih w (hp w) hs (hk s (hR.refl s hok) w) sc with hcut | ⟨ws, hws, hsame⟩
        · exact Or.inl (hout.trans hcut)
        · refine Or.inr ⟨w :: ws, hws.cons_cons _, fun call' => ?_⟩
          exact SameEnd.trans ⟨hout, hst⟩ (hsame call')

end Interrupted

/-! ## Calls -/

section Calls

/-- After a call that ended, those after it are made. -/
def Goes (r : Result σ φ Unit) : Prop := (∃ a, r.outcome = .returned a) ∨ r.outcome = .thrown

theorem runCalls_goes {call : Tree ι ω → σ → Result σ φ Unit} {t : Tree ι ω} {s : σ}
    (h : Goes (call t s)) (ts : List (Tree ι ω)) :
    SameEnd (runCalls call (t :: ts) s) (runCalls call ts (call t s).st) := by
  rw [runCalls]
  rcases h with ⟨a, ha⟩ | ha
  · rw [ha]
    exact ⟨rfl, rfl⟩
  · rw [ha]
    exact ⟨rfl, rfl⟩

theorem runCalls_stops {call : Tree ι ω → σ → Result σ φ Unit} {t : Tree ι ω} {s : σ}
    (h : ¬ Goes (call t s)) (ts : List (Tree ι ω)) :
    SameEnd (runCalls call (t :: ts) s) (call t s) := by
  rw [runCalls]
  cases ho : (call t s).outcome with
  | returned a => exact absurd (Or.inl ⟨a, ho⟩) h
  | thrown => exact absurd (Or.inr ho) h
  | exited => exact ⟨ho.symm, rfl⟩
  | faulted f => exact ⟨ho.symm, rfl⟩
  | cut => exact ⟨ho.symm, rfl⟩

variable {κ' ρ : Type} {body : ι → Prog σ κ ω φ ρ} {body' : η → Prog σ κ' ω φ ρ} {n m : ℕ} {i : ι}
  {i' : η} {sc : List (List (Tree ι ω) × ω)} {sc' : List (List (Tree η ω) × ω)} {s : σ}

theorem runTree_st : (runTree body (n + 1) (.node i sc) s).st =
    (runProg (runTree body n) (body i) sc s).st := by
  rw [runTree]
  cases (runProg (runTree body n) (body i) sc s).outcome with
  | returned a => rfl
  | thrown => rfl
  | exited => rfl
  | faulted f => rfl
  | cut => rfl

theorem runTree_cut (h : (runProg (runTree body n) (body i) sc s).outcome = .cut) :
    (runTree body (n + 1) (.node i sc) s).outcome = .cut := by
  rw [runTree, h]

theorem runTree_returned {a : ρ}
    (h : (runProg (runTree body n) (body i) sc s).outcome = .returned a) :
    (runTree body (n + 1) (.node i sc) s).outcome = .returned () := by
  rw [runTree, h]

theorem SameEnd.runTree (h : SameEnd (runProg (runTree body n) (body i) sc s)
    (runProg (runTree body' m) (body' i') sc' s)) :
    SameEnd (runTree body (n + 1) (.node i sc) s) (runTree body' (m + 1) (.node i' sc') s) := by
  refine ⟨?_, runTree_st.trans (h.2.trans runTree_st.symm)⟩
  rw [Reentrant.runTree, Reentrant.runTree, h.1]
  cases (runProg (Reentrant.runTree body' m) (body' i') sc' s).outcome with
  | returned a => rfl
  | thrown => rfl
  | exited => rfl
  | faulted f => rfl
  | cut => rfl

end Calls

end CrashInvestigator.Library.Reentrant
