/-!
# Producers

The threads that make records are numbered from one, in the order in which each is first asked for
its number, and keep their numbers. Main statements: `number_of_new`, by which a new thread gets the
next number, and `numbers_exact`, by which a thread gets the same number whenever it asks, and no two
threads the same.
-/

namespace KeyValueService

/-- The threads that have a number, in the order of their numbers. -/
structure Producers (τ : Type) where
  known : List τ

namespace Producers

variable {τ : Type} [DecidableEq τ]

/-- No thread has a number yet. -/
def empty : Producers τ := ⟨[]⟩

/-- The number of a thread, which is given one if it has none. -/
def number (p : Producers τ) (thread : τ) : Producers τ × Nat :=
  if thread ∈ p.known then (p, p.known.idxOf thread + 1)
  else (⟨p.known ++ [thread]⟩, p.known.length + 1)

theorem number_of_new (p : Producers τ) (thread : τ) (new : thread ∉ p.known) :
    (p.number thread).2 = p.known.length + 1 := by
  simp [number, new]

/-- The numbers of threads that ask one after the other. -/
def numbers (p : Producers τ) : List τ → Producers τ × List Nat
  | [] => (p, [])
  | thread :: rest =>
    let (p, number) := p.number thread
    let (p, numbers) := p.numbers rest
    (p, number :: numbers)

/-- Asking puts a new thread behind the others, so that they keep their numbers. -/
theorem known_number (p : Producers τ) (thread : τ) :
    p.known <+: (p.number thread).1.known ∧ thread ∈ (p.number thread).1.known ∧
      (p.number thread).2 = (p.number thread).1.known.idxOf thread + 1 := by
  by_cases known : thread ∈ p.known
  · simp [number, known]
  · simp [number, known, List.idxOf_append]

/-- Each number is that of the place of the thread among the threads known in the end. -/
theorem numbers_eq (p : Producers τ) (asking : List τ) :
    p.known <+: (p.numbers asking).1.known ∧
      (∀ thread ∈ asking, thread ∈ (p.numbers asking).1.known) ∧
      (p.numbers asking).2 =
        asking.map fun thread => (p.numbers asking).1.known.idxOf thread + 1 := by
  induction asking generalizing p with
  | nil => simp [numbers]
  | cons thread rest inductionHypothesis =>
    obtain ⟨kept, among, own⟩ := p.known_number thread
    obtain ⟨keptToo, restAmong, others⟩ := inductionHypothesis (p.number thread).1
    refine ⟨kept.trans keptToo, List.forall_mem_cons.2 ⟨keptToo.subset among, restAmong⟩, ?_⟩
    obtain ⟨later, all⟩ := keptToo
    have place : (p.number thread).1.known.idxOf thread =
        ((p.number thread).1.numbers rest).1.known.idxOf thread := by
      rw [← all, List.idxOf_append, if_pos among]
    simp only [numbers, List.map_cons, own, place, others]

/-- Of threads that ask in any order and as often as they like, each gets one number, and no two get
the same. -/
theorem numbers_exact (p : Producers τ) (asking : List τ) :
    ∃ numberOf : τ → Nat, (p.numbers asking).2 = asking.map numberOf ∧
      ∀ thread ∈ asking, ∀ other, numberOf thread = numberOf other → thread = other := by
  obtain ⟨-, among, numbered⟩ := p.numbers_eq asking
  refine ⟨_, numbered, fun thread member other same => ?_⟩
  have place := List.idxOf_lt_length_of_mem (among thread member)
  have both := List.getElem_idxOf place
  simp only [Nat.succ.inj same, List.getElem_idxOf] at both
  exact both.symm

end Producers

end KeyValueService
