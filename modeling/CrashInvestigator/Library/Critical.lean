import CrashInvestigator.Library.Simulation
import Mathlib.Data.Fintype.Defs
import Mathlib.Data.Finset.Dedup
import Mathlib.Logic.Function.Basic

/-!
# Critical sections

Threads that share data behind one lock and a world without a lock. The code between `lock` and
`unlock` is a tree of accesses to the data with at most one request to the world; outside it a
thread takes plain steps on the world. In the fine machine every access, every request, and taking
and leaving the lock are steps of their own; in the coarse one a whole critical section is one step.

A section is left with `unlock`, or without it. What a scope guard does for it is `guarded`: the lock
is given back on every way out. If every section gives it back (`Guarded`), the fine machine simulates
the coarse one: a section takes effect at its request, or when it leaves the lock if it makes none.
`P` is the data, `W` the world, `A` what the environment answers during a step, `K` where a thread is
outside all sections and `U` what a step shows.
-/

namespace CrashInvestigator.Library.Critical

/-- What is left of a critical section after its request. -/
inductive Tail (P K : Type*) where
  | unlock (k : K)
  /-- Out of the section with the lock still held. -/
  | leave (k : K)
  | access (write : P → P) (next : P → Tail P K)

/-- The code of a critical section from some point on. An access reads the data and writes them. -/
inductive Section (P W A K U : Type*) where
  | unlock (k : K) (output : U)
  | leave (k : K) (output : U)
  | access (write : P → P) (next : P → Section P W A K U)
  | request (effect : A → W → W) (output : A → U) (next : A → Tail P K)

/-- What a thread does next when it is outside all sections. -/
inductive Code (P W A K U : Type*) where
  | plain (run : A → W → W × K × Option U)
  | locked (code : Section P W A K U)

variable {P W A K U θ : Type*}

/-- The rest of a section run in one go. -/
def Tail.run : Tail P K → P → P × K
  | .unlock k, p => (p, k)
  | .leave k, p => (p, k)
  | .access write next, p => (next p).run (write p)

/-- A section run in one go. -/
def Section.run : Section P W A K U → A → P → W → (P × W × K) × U
  | .unlock k output, _, p, w => ((p, w, k), output)
  | .leave k output, _, p, w => ((p, w, k), output)
  | .access write next, a, p, w => (next p).run a (write p) w
  | .request effect output next, a, p, w =>
    ((((next a).run p).1, effect a w, ((next a).run p).2), output a)

/-! ## Guards -/

/-- The scope of a guard, whose destructor gives the lock back if it is still held. -/
def Tail.guarded : Tail P K → Tail P K
  | .unlock k => .unlock k
  | .leave k => .unlock k
  | .access write next => .access write fun p => (next p).guarded

def Section.guarded : Section P W A K U → Section P W A K U
  | .unlock k output => .unlock k output
  | .leave k output => .unlock k output
  | .access write next => .access write fun p => (next p).guarded
  | .request effect output next => .request effect output fun a => (next a).guarded

/-- The lock is given back on every way out. -/
def Tail.Releases : Tail P K → Prop
  | .unlock _ => True
  | .leave _ => False
  | .access _ next => ∀ p, (next p).Releases

def Section.Releases : Section P W A K U → Prop
  | .unlock _ _ => True
  | .leave _ _ => False
  | .access _ next => ∀ p, (next p).Releases
  | .request _ _ next => ∀ a, (next a).Releases

theorem Tail.releases_guarded (rest : Tail P K) : rest.guarded.Releases := by
  induction rest with
  | unlock k => trivial
  | leave k => trivial
  | access write next ih => exact ih

theorem Section.releases_guarded (rest : Section P W A K U) : rest.guarded.Releases := by
  induction rest with
  | unlock k output => trivial
  | leave k output => trivial
  | access write next ih => exact ih
  | request effect output next => exact fun a => (next a).releases_guarded

@[simp] theorem Tail.run_guarded (rest : Tail P K) (p : P) : rest.guarded.run p = rest.run p := by
  induction rest generalizing p with
  | unlock k => rfl
  | leave k => rfl
  | access write next ih => exact ih p (write p)

/-- A guard does nothing to the data and the world. -/
@[simp] theorem Section.run_guarded (rest : Section P W A K U) (a : A) (p : P) (w : W) :
    rest.guarded.run a p w = rest.run a p w := by
  induction rest generalizing p with
  | unlock k output => rfl
  | leave k output => rfl
  | access write next ih => exact ih p (write p)
  | request effect output next => simp [guarded, run]

/-- Every section of the code gives the lock back. -/
def Guarded (code : K → Code P W A K U) : Prop :=
  ∀ k sec, code k = .locked sec → sec.Releases

/-- Where a thread is. A thread inside a section remembers from where it was entered. -/
inductive Phase (P W A K U : Type*) where
  | outside (k : K)
  | inside (k : K) (code : Section P W A K U)
  | ending (code : Tail P K)

/-- The state of the fine machine. -/
structure Fine (θ P W A K U : Type*) where
  data : P
  world : W
  owner : Option θ
  phase : θ → Phase P W A K U

/-- The state of the coarse machine. -/
structure Coarse (θ P W K : Type*) where
  data : P
  world : W
  control : θ → K

section Machines

variable [DecidableEq θ] (code : K → Code P W A K U)

/-- The thread moves on. -/
def Fine.go (s : Fine θ P W A K U) (i : θ) (ph : Phase P W A K U) : Fine θ P W A K U :=
  { s with phase := Function.update s.phase i ph }

/-- One step of a thread. A thread that wants a lock that is held waits. -/
def Fine.step (s : Fine θ P W A K U) (l : θ × A) : Fine θ P W A K U × Option (θ × U) :=
  match s.phase l.1 with
  | .outside k =>
    match code k with
    | .plain run =>
      let r := run l.2 s.world
      ({ s with world := r.1 }.go l.1 (.outside r.2.1), r.2.2.map (Prod.mk l.1))
    | .locked sec =>
      if s.owner = none then ({ s with owner := some l.1 }.go l.1 (.inside k sec), none)
      else (s, none)
  | .inside _ (.unlock k' output) =>
    ({ s with owner := none }.go l.1 (.outside k'), some (l.1, output))
  | .inside _ (.leave k' output) => (s.go l.1 (.outside k'), some (l.1, output))
  | .inside k (.access write next) =>
    ({ s with data := write s.data }.go l.1 (.inside k (next s.data)), none)
  | .inside _ (.request effect output next) =>
    ({ s with world := effect l.2 s.world }.go l.1 (.ending (next l.2)), some (l.1, output l.2))
  | .ending (.unlock k') => ({ s with owner := none }.go l.1 (.outside k'), none)
  | .ending (.leave k') => (s.go l.1 (.outside k'), none)
  | .ending (.access write next) =>
    ({ s with data := write s.data }.go l.1 (.ending (next s.data)), none)

/-- One step of a thread, a whole section at a time. -/
def Coarse.step (t : Coarse θ P W K) (l : θ × A) : Coarse θ P W K × Option (θ × U) :=
  match code (t.control l.1) with
  | .plain run =>
    let r := run l.2 t.world
    ({ t with world := r.1, control := Function.update t.control l.1 r.2.1 },
      r.2.2.map (Prod.mk l.1))
  | .locked sec =>
    let r := sec.run l.2 t.data t.world
    (⟨r.1.1, r.1.2.1, Function.update t.control l.1 r.1.2.2⟩, some (l.1, r.2))

/-- Before anything happened. -/
def Fine.start (p : P) (w : W) (k : K) : Fine θ P W A K U := ⟨p, w, none, fun _ => .outside k⟩

def Coarse.start (p : P) (w : W) (k : K) : Coarse θ P W K := ⟨p, w, fun _ => k⟩

end Machines

/-! ## The simulation -/

/-- What the place of a thread says about the lock and the coarse machine. The rest of the section
that holds the lock would end as the whole of it would from the coarse data. -/
def Agrees (code : K → Code P W A K U) (data : P) (owner : Option θ) (t : Coarse θ P W K) (i : θ) :
    Phase P W A K U → Prop
  | .outside k => owner ≠ some i ∧ t.control i = k
  | .inside k rest => owner = some i ∧ rest.Releases ∧ t.control i = k ∧
      ∃ sec, code k = .locked sec ∧ ∀ a w, sec.run a t.data w = rest.run a data w
  | .ending rest => owner = some i ∧ rest.Releases ∧ rest.run data = (t.data, t.control i)

/-- Where a thread is when it takes effect: at `k`, or in the section that it entered from `k`. -/
def Placed (code : K → Code P W A K U) (k : K) : Phase P W A K U → Prop
  | .outside k' => k' = k
  | .inside k' _ => k' = k ∧ ∃ sec, code k = .locked sec
  | .ending _ => False

/-- The coarse machine is where the sections that have taken effect have led. -/
structure Sim (code : K → Code P W A K U) (s : Fine θ P W A K U) (t : Coarse θ P W K) : Prop where
  world : s.world = t.world
  free : s.owner = none → s.data = t.data
  threads : ∀ i, Agrees code s.data s.owner t i (s.phase i)

section Step

variable {code : K → Code P W A K U} {s s' : Fine θ P W A K U} {t t' : Coarse θ P W K} {i j : θ}

theorem Sim.start (p : P) (w : W) (k : K) :
    Sim code (Fine.start p w k : Fine θ P W A K U) (Coarse.start p w k) := by
  refine ⟨rfl, fun _ => rfl, fun i => ⟨?_, rfl⟩⟩
  intro h
  cases h

/-- Who is outside all sections does not hold the lock. -/
theorem Sim.released (h : Sim code s t) {k : K} (hphase : s.phase i = .outside k) :
    s.owner ≠ some i := by
  have hi := h.threads i
  rw [hphase] at hi
  exact hi.1

/-- Who does not hold the lock is outside all sections. -/
theorem Sim.outside (h : Sim code s t) (hj : s.owner ≠ some j) :
    s.phase j = .outside (t.control j) := by
  have hthread := h.threads j
  cases hphase : s.phase j with
  | outside k =>
    rw [hphase] at hthread
    rw [hthread.2]
  | inside k rest =>
    rw [hphase] at hthread
    exact absurd hthread.1 hj
  | ending rest =>
    rw [hphase] at hthread
    exact absurd hthread.1 hj

theorem Sim.placed_inside (h : Sim code s t) {k : K} {rest : Section P W A K U}
    (hphase : s.phase i = .inside k rest) : Placed code (t.control i) (s.phase i) := by
  have hi := h.threads i
  rw [hphase] at hi ⊢
  obtain ⟨-, -, hk, sec, hcode, -⟩ := hi
  exact ⟨hk.symm, sec, hk ▸ hcode⟩

/-- Mutual exclusion. -/
theorem Sim.exclusive (h : Sim code s t) (hi : ∀ k, s.phase i ≠ .outside k)
    (hj : ∀ k, s.phase j ≠ .outside k) : i = j := by
  have hiown : s.owner = some i := by
    by_contra hne
    exact hi _ (h.outside hne)
  have hjown : s.owner = some j := by
    by_contra hne
    exact hj _ (h.outside hne)
  exact Option.some.inj (hiown.symm.trans hjown)

/-- A step of a thread that holds the lock, takes it or leaves it concerns only this thread: the
others are outside. -/
theorem Sim.of_holder (h : Sim code s t) (howner : s.owner = none ∨ s.owner = some i)
    (howner' : s'.owner = none ∨ s'.owner = some i) (hphase : ∀ j, j ≠ i → s'.phase j = s.phase j)
    (hcontrol : ∀ j, j ≠ i → t'.control j = t.control j) (hworld : s'.world = t'.world)
    (hfree : s'.owner = none → s'.data = t'.data)
    (hi : Agrees code s'.data s'.owner t' i (s'.phase i)) : Sim code s' t' := by
  refine ⟨hworld, hfree, fun j => ?_⟩
  by_cases hj : j = i
  · rw [hj]
    exact hi
  · have hnot : ∀ {o : Option θ}, o = none ∨ o = some i → o ≠ some j := by
      rintro o (rfl | rfl) hcon
      · cases hcon
      · exact hj (Option.some.inj hcon).symm
    rw [hphase j hj, h.outside (hnot howner)]
    exact ⟨hnot howner', hcontrol j hj⟩

variable [DecidableEq θ]

@[simp] theorem go_phase_self (s : Fine θ P W A K U) (i : θ) (ph : Phase P W A K U) :
    (s.go i ph).phase i = ph := by
  simp [Fine.go]

theorem go_phase_of_ne (s : Fine θ P W A K U) (ph : Phase P W A K U) (hj : j ≠ i) :
    (s.go i ph).phase j = s.phase j := by
  simp [Fine.go, hj]

/-- A plain step is a step of both machines. -/
theorem Sim.plain (h : Sim code s t) {k : K} {run : A → W → W × K × Option U}
    (hphase : s.phase i = .outside k) (hcode : code k = .plain run) (a : A) :
    (t.step code (i, a)).2 = (s.step code (i, a)).2 ∧
      Sim code (s.step code (i, a)).1 (t.step code (i, a)).1 := by
  have hi := h.threads i
  rw [hphase] at hi
  have hfine : s.step code (i, a) = ({ s with world := (run a s.world).1 }.go i
      (.outside (run a s.world).2.1), (run a s.world).2.2.map (Prod.mk i)) := by
    simp only [Fine.step, hphase, hcode]
  have hcoarse : t.step code (i, a) = (⟨t.data, (run a t.world).1,
      Function.update t.control i (run a t.world).2.1⟩,
      (run a t.world).2.2.map (Prod.mk i)) := by
    simp only [Coarse.step, hi.2, hcode]
  rw [hfine, hcoarse, h.world]
  refine ⟨rfl, rfl, h.free, fun j => ?_⟩
  by_cases hj : j = i
  · subst hj
    rw [go_phase_self]
    exact ⟨hi.1, Function.update_self ..⟩
  · rw [go_phase_of_ne _ _ hj]
    have hthread := h.threads j
    have hctl : Function.update t.control i (run a t.world).2.1 j = t.control j :=
      Function.update_of_ne hj ..
    cases hp : s.phase j with
    | outside k' =>
      rw [hp] at hthread
      exact ⟨hthread.1, hctl.trans hthread.2⟩
    | inside k' rest =>
      rw [hp] at hthread
      exact ⟨hthread.1, hthread.2.1, hctl.trans hthread.2.2.1, hthread.2.2.2⟩
    | ending rest =>
      rw [hp] at hthread
      exact ⟨hthread.1, hthread.2.1, hthread.2.2.trans (congrArg (Prod.mk t.data) hctl.symm)⟩

/-- A thread that wants the lock takes it or waits; the coarse machine does nothing. -/
theorem Sim.lock (h : Sim code s t) (hguard : Guarded code) {k : K} {sec : Section P W A K U}
    (hphase : s.phase i = .outside k) (hcode : code k = .locked sec) (a : A) :
    (s.step code (i, a)).2 = none ∧ Sim code (s.step code (i, a)).1 t := by
  by_cases howner : s.owner = none
  · have hi := h.threads i
    rw [hphase] at hi
    have hfine : s.step code (i, a) = ({ s with owner := some i }.go i (.inside k sec), none) := by
      simp only [Fine.step, hphase, hcode, howner, if_true]
    rw [hfine]
    refine ⟨rfl, h.of_holder (Or.inl howner) (Or.inr rfl) (fun j hj => go_phase_of_ne _ _ hj)
      (fun j _ => rfl) h.world ?_ ?_⟩
    · intro hcon
      cases hcon
    · rw [go_phase_self]
      refine ⟨rfl, hguard k sec hcode, hi.2, sec, hcode, fun a w => ?_⟩
      show sec.run a t.data w = sec.run a s.data w
      rw [h.free howner]
  · have hfine : s.step code (i, a) = (s, none) := by
      simp only [Fine.step, hphase, hcode, howner, if_false]
    rw [hfine]
    exact ⟨rfl, h⟩

/-- A section without a request takes effect when it leaves the lock. -/
theorem Sim.unlock (h : Sim code s t) {k k' : K} {output : U}
    (hphase : s.phase i = .inside k (.unlock k' output)) (a : A) :
    (t.step code (i, a)).2 = (s.step code (i, a)).2 ∧
      Sim code (s.step code (i, a)).1 (t.step code (i, a)).1 := by
  have hi := h.threads i
  rw [hphase] at hi
  obtain ⟨howner, hreleases, hk, sec, hcode, hrun⟩ := hi
  have hfine : s.step code (i, a) =
      ({ s with owner := none }.go i (.outside k'), some (i, output)) := by
    simp only [Fine.step, hphase]
  have hcoarse : t.step code (i, a) =
      (⟨s.data, t.world, Function.update t.control i k'⟩, some (i, output)) := by
    simp only [Coarse.step, hk, hcode, hrun, Section.run]
  rw [hfine, hcoarse]
  refine ⟨rfl, h.of_holder (Or.inr howner) (Or.inl rfl) (fun j hj => go_phase_of_ne _ _ hj)
    (fun j hj => Function.update_of_ne hj ..) h.world (fun _ => rfl) ?_⟩
  rw [go_phase_self]
  refine ⟨?_, Function.update_self ..⟩
  intro hcon
  cases hcon

/-- An access before the request changes nothing that others see. -/
theorem Sim.access (h : Sim code s t) {k : K} {write : P → P} {next : P → Section P W A K U}
    (hphase : s.phase i = .inside k (.access write next)) (a : A) :
    (s.step code (i, a)).2 = none ∧ Sim code (s.step code (i, a)).1 t := by
  have hi := h.threads i
  rw [hphase] at hi
  obtain ⟨howner, hreleases, hk, sec, hcode, hrun⟩ := hi
  have hfine : s.step code (i, a) =
      ({ s with data := write s.data }.go i (.inside k (next s.data)), none) := by
    simp only [Fine.step, hphase]
  rw [hfine]
  refine ⟨rfl, h.of_holder (Or.inr howner) (Or.inr howner) (fun j hj => go_phase_of_ne _ _ hj)
    (fun j _ => rfl) h.world ?_ ?_⟩
  · intro hcon
    rw [show s.owner = none from hcon] at howner
    cases howner
  · rw [go_phase_self]
    exact ⟨howner, hreleases s.data, hk, sec, hcode, hrun⟩

/-- A section takes effect at its request. -/
theorem Sim.request (h : Sim code s t) {k : K} {effect : A → W → W} {output : A → U}
    {next : A → Tail P K} (hphase : s.phase i = .inside k (.request effect output next)) (a : A) :
    (t.step code (i, a)).2 = (s.step code (i, a)).2 ∧
      Sim code (s.step code (i, a)).1 (t.step code (i, a)).1 := by
  have hi := h.threads i
  rw [hphase] at hi
  obtain ⟨howner, hreleases, hk, sec, hcode, hrun⟩ := hi
  have hfine : s.step code (i, a) =
      ({ s with world := effect a s.world }.go i (.ending (next a)), some (i, output a)) := by
    simp only [Fine.step, hphase]
  have hcoarse : t.step code (i, a) = (⟨((next a).run s.data).1, effect a t.world,
      Function.update t.control i ((next a).run s.data).2⟩, some (i, output a)) := by
    simp only [Coarse.step, hk, hcode, hrun, Section.run]
  rw [hfine, hcoarse]
  refine ⟨rfl, h.of_holder (Or.inr howner) (Or.inr howner) (fun j hj => go_phase_of_ne _ _ hj)
    (fun j hj => Function.update_of_ne hj ..) (congrArg (effect a) h.world) ?_ ?_⟩
  · intro hcon
    rw [show s.owner = none from hcon] at howner
    cases howner
  · rw [go_phase_self]
    refine ⟨howner, hreleases a, Prod.ext rfl ?_⟩
    exact (Function.update_self i ((next a).run s.data).2 t.control).symm

/-- The end of a section after its request is silent. -/
theorem Sim.tail (h : Sim code s t) {rest : Tail P K} (hphase : s.phase i = .ending rest) (a : A) :
    (s.step code (i, a)).2 = none ∧ Sim code (s.step code (i, a)).1 t := by
  have hi := h.threads i
  rw [hphase] at hi
  obtain ⟨howner, hreleases, hrun⟩ := hi
  cases rest with
  | leave k' => exact hreleases.elim
  | unlock k' =>
    have hfine : s.step code (i, a) = ({ s with owner := none }.go i (.outside k'), none) := by
      simp only [Fine.step, hphase]
    obtain ⟨hdata, hk⟩ := Prod.mk.inj hrun
    rw [hfine]
    refine ⟨rfl, h.of_holder (Or.inr howner) (Or.inl rfl) (fun j hj => go_phase_of_ne _ _ hj)
      (fun j _ => rfl) h.world (fun _ => hdata) ?_⟩
    rw [go_phase_self]
    refine ⟨?_, hk.symm⟩
    intro hcon
    cases hcon
  | access write next =>
    have hfine : s.step code (i, a) =
        ({ s with data := write s.data }.go i (.ending (next s.data)), none) := by
      simp only [Fine.step, hphase]
    rw [hfine]
    refine ⟨rfl, h.of_holder (Or.inr howner) (Or.inr howner) (fun j hj => go_phase_of_ne _ _ hj)
      (fun j _ => rfl) h.world ?_ ?_⟩
    · intro hcon
      rw [show s.owner = none from hcon] at howner
      cases howner
    · rw [go_phase_self]
      exact ⟨howner, hreleases s.data, hrun⟩

/-- Every step of the fine machine is silent and changes nothing above, or it is the same thread's
step of the coarse machine, with its output. -/
theorem Sim.step (h : Sim code s t) (hguard : Guarded code) (l : θ × A) :
    ((s.step code l).2 = none ∧ Sim code (s.step code l).1 t) ∨
      ((t.step code l).2 = (s.step code l).2 ∧ Placed code (t.control l.1) (s.phase l.1) ∧
        Sim code (s.step code l).1 (t.step code l).1) := by
  obtain ⟨i, a⟩ := l
  cases hphase : s.phase i with
  | outside k =>
    cases hcode : code k with
    | plain run =>
      obtain ⟨hout, hsim⟩ := h.plain hphase hcode a
      have hi := h.threads i
      rw [hphase] at hi
      exact Or.inr ⟨hout, hi.2.symm, hsim⟩
    | locked sec => exact Or.inl (h.lock hguard hphase hcode a)
  | inside k rest =>
    have hplaced := h.placed_inside hphase
    rw [hphase] at hplaced
    cases rest with
    | leave k' output =>
      have hi := h.threads i
      rw [hphase] at hi
      exact hi.2.1.elim
    | unlock k' output =>
      obtain ⟨hout, hsim⟩ := h.unlock hphase a
      exact Or.inr ⟨hout, hplaced, hsim⟩
    | access write next => exact Or.inl (h.access hphase a)
    | request effect output next =>
      obtain ⟨hout, hsim⟩ := h.request hphase a
      exact Or.inr ⟨hout, hplaced, hsim⟩
  | ending rest => exact Or.inl (h.tail hphase a)

/-- Whatever the schedule, the simulation covers the fine machine. -/
theorem Sim.run (h : Sim code s t) (hguard : Guarded code) (ls : List (θ × A)) :
    ∃ t', Sim code (Runs.final (Simulation.states (Fine.step code)) s ls) t' := by
  induction ls generalizing s t with
  | nil => exact ⟨t, h⟩
  | cons l ls ih =>
    rw [Runs.final_cons]
    rcases h.step hguard l with ⟨-, hsim⟩ | ⟨-, -, hsim⟩
    · exact ih hsim
    · exact ih hsim

end Step

/-! ## Progress -/

/-- Wherever the rest of a section leads, `Q` holds of it. -/
def Tail.Leads (Q : K → Prop) : Tail P K → Prop
  | .unlock k => Q k
  | .leave k => Q k
  | .access _ next => ∀ p, (next p).Leads Q

def Section.Leads (Q : K → Prop) : Section P W A K U → Prop
  | .unlock k _ => Q k
  | .leave k _ => Q k
  | .access _ next => ∀ p, (next p).Leads Q
  | .request _ _ next => ∀ a, (next a).Leads Q

def Code.Leads (Q : K → Prop) : Code P W A K U → Prop
  | .plain run => ∀ a w, Q (run a w).2.1
  | .locked code => code.Leads Q

theorem Tail.leads_true (rest : Tail P K) : rest.Leads fun _ => True := by
  induction rest with
  | unlock k => trivial
  | leave k => trivial
  | access write next ih => exact ih

theorem Section.leads_true (rest : Section P W A K U) : rest.Leads fun _ => True := by
  induction rest with
  | unlock k output => trivial
  | leave k output => trivial
  | access write next ih => exact ih
  | request effect output next => exact fun a => (next a).leads_true

theorem Tail.Leads.guarded {Q : K → Prop} {rest : Tail P K} (h : rest.Leads Q) :
    rest.guarded.Leads Q := by
  induction rest with
  | unlock k => exact h
  | leave k => exact h
  | access write next ih => exact fun p => ih p (h p)

theorem Section.Leads.guarded {Q : K → Prop} {rest : Section P W A K U} (h : rest.Leads Q) :
    rest.guarded.Leads Q := by
  induction rest with
  | unlock k output => exact h
  | leave k output => exact h
  | access write next ih => exact fun p => ih p (h p)
  | request effect output next => exact fun a => (h a).guarded

theorem Tail.Leads.run {Q : K → Prop} {rest : Tail P K} (h : rest.Leads Q) (p : P) :
    Q (rest.run p).2 := by
  induction rest generalizing p with
  | unlock k => exact h
  | leave k => exact h
  | access write next ih => exact ih p (h p) (write p)

theorem Section.Leads.run {Q : K → Prop} {rest : Section P W A K U} (h : rest.Leads Q) (a : A)
    (p : P) (w : W) : Q (rest.run a p w).1.2.2 := by
  induction rest generalizing p with
  | unlock k output => exact h
  | leave k output => exact h
  | access write next ih => exact ih p (h p) (write p)
  | request effect output next => exact (h a).run p

section Coarse

variable [DecidableEq θ] {code : K → Code P W A K U} {t : Coarse θ P W K} {i j : θ}

/-- A step of the coarse machine leads where the code leads. -/
theorem Code.Leads.step {Q : K → Prop} (h : (code (t.control i)).Leads Q) (a : A) :
    Q ((t.step code (i, a)).1.control i) := by
  unfold Coarse.step
  cases hcode : code (t.control i) with
  | plain run =>
    rw [hcode] at h
    simp only [Function.update_self]
    exact h a t.world
  | locked sec =>
    rw [hcode] at h
    simp only [Function.update_self]
    exact Section.Leads.run h a t.data t.world

theorem step_control_of_ne (t : Coarse θ P W K) (hj : j ≠ i) (a : A) :
    (t.step code (i, a)).1.control j = t.control j := by
  unfold Coarse.step
  cases hcode : code (t.control i) with
  | plain run => exact Function.update_of_ne hj ..
  | locked sec => exact Function.update_of_ne hj ..

end Coarse

section Progress

variable [DecidableEq θ] {code : K → Code P W A K U} {i : θ} {Q : K → Prop}

/-- Thread `i` leaves the lock from `s` by its own steps, to a place that meets `Q`. -/
def Unlocks (code : K → Code P W A K U) (Q : K → Prop) (s : Fine θ P W A K U) (i : θ) (a : A) :
    Prop :=
  ∃ n s', Runs.final (Simulation.states (Fine.step code)) s (List.replicate n (i, a)) = s' ∧
    s'.owner = none ∧ (∃ k, s'.phase i = .outside k ∧ Q k) ∧ ∀ j, j ≠ i → s'.phase j = s.phase j

/-- One more step before. -/
theorem Unlocks.step {s s₁ : Fine θ P W A K U} {a : A} {ph : Phase P W A K U}
    (h : Unlocks code Q (s₁.go i ph) i a) (hs : (s.step code (i, a)).1 = s₁.go i ph)
    (hphase : s₁.phase = s.phase) : Unlocks code Q s i a := by
  obtain ⟨n, s', hrun, howner, hk, hothers⟩ := h
  refine ⟨n + 1, s', ?_, howner, hk, fun j hj => ?_⟩
  · rw [List.replicate_succ, Runs.final_cons]
    show Runs.final _ (s.step code (i, a)).1 _ = s'
    rw [hs]
    exact hrun
  · rw [hothers j hj, go_phase_of_ne _ _ hj, hphase]

/-- The end of a section is at its `unlock` after finitely many steps. -/
theorem Tail.Leads.unlocks {rest : Tail P K} (h : rest.Leads Q) (hreleases : rest.Releases)
    {s : Fine θ P W A K U} (hphase : s.phase i = .ending rest) (a : A) :
    Unlocks code Q s i a := by
  induction rest generalizing s with
  | leave k => exact hreleases.elim
  | unlock k =>
    refine ⟨1, _, rfl, ?_⟩
    simp only [List.replicate, Runs.final_cons, Runs.final_nil, Simulation.states, Fine.step, hphase]
    exact ⟨rfl, ⟨k, go_phase_self .., h⟩, fun j hj => go_phase_of_ne _ _ hj⟩
  | access write next ih =>
    refine (ih s.data (h s.data) (hreleases s.data)
      (go_phase_self { s with data := write s.data } ..)).step ?_ rfl
    simp only [Fine.step, hphase]

/-- Who holds the lock leaves it after finitely many of its own steps, whatever the environment
answers. -/
theorem Section.Leads.unlocks {rest : Section P W A K U} (h : rest.Leads Q)
    (hreleases : rest.Releases) {k₀ : K} {s : Fine θ P W A K U}
    (hphase : s.phase i = .inside k₀ rest) (a : A) : Unlocks code Q s i a := by
  induction rest generalizing s with
  | leave k output => exact hreleases.elim
  | unlock k output =>
    refine ⟨1, _, rfl, ?_⟩
    simp only [List.replicate, Runs.final_cons, Runs.final_nil, Simulation.states, Fine.step, hphase]
    exact ⟨rfl, ⟨k, go_phase_self .., h⟩, fun j hj => go_phase_of_ne _ _ hj⟩
  | access write next ih =>
    refine (ih s.data (h s.data) (hreleases s.data)
      (go_phase_self { s with data := write s.data } ..)).step ?_ rfl
    simp only [Fine.step, hphase]
  | request effect output next =>
    have hrest : Unlocks code Q ({ s with world := effect a s.world }.go i (.ending (next a))) i a :=
      (h a).unlocks (hreleases a) (go_phase_self ..) a
    refine hrest.step ?_ rfl
    simp only [Fine.step, hphase]

/-- With the lock free, a thread takes its next step or goes through its next section. -/
theorem Code.Leads.unlocks (hguard : Guarded code) {k : K} (h : (code k).Leads Q)
    {s : Fine θ P W A K U} (howner : s.owner = none) (hphase : s.phase i = .outside k) (a : A) :
    Unlocks code Q s i a := by
  cases hcode : code k with
  | plain run =>
    rw [hcode] at h
    refine ⟨1, _, rfl, ?_⟩
    simp only [List.replicate, Runs.final_cons, Runs.final_nil, Simulation.states, Fine.step, hphase,
      hcode]
    exact ⟨howner, ⟨_, go_phase_self .., h a s.world⟩, fun j hj => go_phase_of_ne _ _ hj⟩
  | locked sec =>
    rw [hcode] at h
    have hrest : Unlocks code Q ({ s with owner := some i }.go i (.inside k sec)) i a :=
      Section.Leads.unlocks h (hguard k sec hcode) (go_phase_self ..) a
    refine hrest.step ?_ rfl
    simp only [Fine.step, hphase, hcode, howner, if_true]

variable {rank : K → ℕ}

/-- A thread that runs alone, with the lock free, comes to a place of rank zero if every step and
every section lowers the rank. -/
theorem goes_home (hguard : Guarded code)
    (hcode : ∀ k, rank k ≠ 0 → (code k).Leads fun k' => rank k' < rank k)
    {s : Fine θ P W A K U} {k : K} (howner : s.owner = none) (hphase : s.phase i = .outside k)
    (a : A) : Unlocks code (fun k' => rank k' = 0) s i a := by
  induction hr : rank k using Nat.strongRecOn generalizing s k with
  | _ r ih =>
    by_cases hzero : rank k = 0
    · exact ⟨0, s, rfl, howner, ⟨k, hphase, hzero⟩, fun _ _ => rfl⟩
    · obtain ⟨n, s₁, hrun, howner₁, ⟨k₁, hk₁, hlt⟩, hothers⟩ :=
        Code.Leads.unlocks hguard (hcode k hzero) howner hphase a
      rw [hr] at hlt
      obtain ⟨m, s₂, hrun₂, howner₂, hk₂, hothers₂⟩ := ih (rank k₁) hlt howner₁ hk₁ rfl
      refine ⟨n + m, s₂, ?_, howner₂, hk₂, fun j hj => (hothers₂ j hj).trans (hothers j hj)⟩
      rw [List.replicate_add, Runs.final_append, hrun, hrun₂]

/-- The threads of a list come home one after the other. -/
theorem all_go_home (hguard : Guarded code)
    (hcode : ∀ k, rank k ≠ 0 → (code k).Leads fun k' => rank k' < rank k) (a : A) (is : List θ)
    {s : Fine θ P W A K U} (howner : s.owner = none)
    (hout : ∀ i, ∃ k, s.phase i = .outside k) :
    ∃ ls, let s' := Runs.final (Simulation.states (Fine.step code)) s ls
      s'.owner = none ∧ (∀ i, ∃ k, s'.phase i = .outside k ∧ (i ∈ is → rank k = 0)) := by
  induction is generalizing s with
  | nil =>
    refine ⟨[], howner, fun i => ?_⟩
    obtain ⟨k, hk⟩ := hout i
    exact ⟨k, hk, fun hi => by cases hi⟩
  | cons i is ih =>
    -- the others first, then thread `i`, which leaves them where they are
    obtain ⟨ls, howner₁, hhome⟩ := ih howner hout
    obtain ⟨k, hk, -⟩ := hhome i
    obtain ⟨n, s₂, hrun, howner₂, ⟨k₂, hk₂, hzero⟩, hothers⟩ := goes_home hguard hcode howner₁ hk a
    refine ⟨ls ++ List.replicate n (i, a), ?_⟩
    rw [Runs.final_append, hrun]
    refine ⟨howner₂, fun j => ?_⟩
    by_cases hj : j = i
    · rw [hj]
      exact ⟨k₂, hk₂, fun _ => hzero⟩
    · obtain ⟨k', hk', hzero'⟩ := hhome j
      refine ⟨k', (hothers j hj).trans hk', fun hmem => hzero' ?_⟩
      exact (List.mem_cons.mp hmem).resolve_left hj

/-- No deadlock: from every state that the simulation covers some schedule brings all threads home
and leaves the lock free. -/
theorem no_deadlock [Fintype θ] (hguard : Guarded code)
    (hcode : ∀ k, rank k ≠ 0 → (code k).Leads fun k' => rank k' < rank k) (a : A)
    {s : Fine θ P W A K U} {t : Coarse θ P W K} (h : Sim code s t) :
    ∃ ls, let s' := Runs.final (Simulation.states (Fine.step code)) s ls
      s'.owner = none ∧ ∀ i, ∃ k, s'.phase i = .outside k ∧ rank k = 0 := by
  have hrelease : ∃ ms, let s₁ := Runs.final (Simulation.states (Fine.step code)) s ms
      s₁.owner = none ∧ ∀ i, ∃ k, s₁.phase i = .outside k := by
    cases howner : s.owner with
    | none =>
      refine ⟨[], howner, fun i => ⟨t.control i, h.outside ?_⟩⟩
      rw [howner]
      intro hcon
      cases hcon
    | some i =>
      have hothers : ∀ j, j ≠ i → s.phase j = .outside (t.control j) := by
        intro j hj
        refine h.outside ?_
        rw [howner]
        exact fun hcon => hj (Option.some.inj hcon).symm
      have hunlocks : Unlocks code (fun _ => True) s i a := by
        have hi := h.threads i
        cases hphase : s.phase i with
        | outside k =>
          rw [hphase] at hi
          exact absurd howner hi.1
        | inside k rest =>
          rw [hphase] at hi
          exact rest.leads_true.unlocks hi.2.1 hphase a
        | ending rest =>
          rw [hphase] at hi
          exact rest.leads_true.unlocks hi.2.1 hphase a
      obtain ⟨n, s₁, hrun, howner₁, ⟨k, hk, -⟩, hrest⟩ := hunlocks
      refine ⟨List.replicate n (i, a), ?_⟩
      rw [hrun]
      refine ⟨howner₁, fun j => ?_⟩
      by_cases hj : j = i
      · rw [hj]
        exact ⟨k, hk⟩
      · exact ⟨t.control j, (hrest j hj).trans (hothers j hj)⟩
  obtain ⟨ms, howner, hout⟩ := hrelease
  obtain ⟨ls, howner', hhome⟩ := all_go_home hguard hcode a Finset.univ.toList howner hout
  refine ⟨ms ++ ls, ?_⟩
  rw [Runs.final_append]
  refine ⟨howner', fun i => ?_⟩
  obtain ⟨k, hk, hzero⟩ := hhome i
  exact ⟨k, hk, hzero (Finset.mem_toList.mpr (Finset.mem_univ i))⟩

end Progress

end CrashInvestigator.Library.Critical
