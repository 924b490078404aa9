import KeyValueService.Pipeline.Basic

/-!
# Draining

A drain is described at once and not step by step. Main statement: `drain_eq_workSteps`, by which the
worker would come to the same in finitely many of its steps if nothing else happened meanwhile.
-/

namespace KeyValueService.Pipeline

variable {ι κ σ : Type}

theorem workSteps_add (s : Surroundings ι κ σ) (m n : Nat) (p : Pipeline ι κ σ) :
    p.workSteps s (m + n) = (p.workSteps s m).workSteps s n := by
  induction m generalizing p with
  | zero => rw [Nat.zero_add]; rfl
  | succ m inductionHypothesis =>
    rw [Nat.succ_add]
    exact inductionHypothesis (p.work s)

/-- A delivery takes one step for each sink and one to be done with it. -/
theorem workSteps_of_delivering (s : Surroundings ι κ σ) (r : Record) (remaining : List ι)
    (p : Pipeline ι κ σ) (delivering : p.worker = .delivering r remaining) :
    p.workSteps s (remaining.length + 1) =
      { p with worker := .waiting, outside := s.deliver r remaining p.outside } := by
  induction remaining generalizing p with
  | nil => simp [workSteps, work, delivering, Surroundings.deliver]
  | cons sink remaining inductionHypothesis =>
    have step : p.work s =
        { p with
          worker := .delivering r remaining
          outside := s.reportConsume (s.consume sink r p.outside) } := by
      simp only [work, delivering]
    change (p.work s).workSteps s (remaining.length + 1) = _
    rw [inductionHypothesis (p.work s) (by rw [step]), step]
    rfl

/-- From waiting, the worker delivers all records that wait, each to all sinks. -/
theorem workSteps_of_waiting (s : Surroundings ι κ σ) (p : Pipeline ι κ σ)
    (waiting : p.worker = .waiting) : ∃ n, p.workSteps s n = p.drain s := by
  generalize records : p.backlog.toList = items
  induction items generalizing p with
  | nil =>
    refine ⟨0, ?_⟩
    simp only [workSteps, drain, drain.all, waiting, records, List.foldl_nil,
      ← Backlog.eq_clear_of_toList records]
    rw [← waiting]
  | cons r items inductionHypothesis =>
    match taken : p.backlog.pop? with
    | none => simp [Backlog.pop?_eq_none_iff.1 taken] at records
    | some (first, rest) =>
      have split := Backlog.toList_of_pop? taken
      obtain ⟨rfl, restItems⟩ := List.cons.inj (records.symm.trans split)
      have step : p.work s = { p with backlog := rest, worker := .delivering r p.sinks } := by
        simp only [work, waiting, taken]
      have delivered := workSteps_of_delivering s r p.sinks (p.work s) (by rw [step])
      obtain ⟨n, drained⟩ := inductionHypothesis
        { p with backlog := rest, outside := s.deliver r p.sinks p.outside } waiting restItems.symm
      refine ⟨1 + (p.sinks.length + 1) + n, ?_⟩
      rw [workSteps_add, workSteps_add]
      change ((p.work s).workSteps s (p.sinks.length + 1)).workSteps s n = _
      rw [delivered, step]
      simp only [← waiting]
      rw [drained]
      simp [drain, drain.all, waiting, records, restItems, Backlog.clear_of_pop? taken]

/-- The worker comes to what a drain comes to. -/
theorem drain_eq_workSteps (s : Surroundings ι κ σ) (p : Pipeline ι κ σ) :
    ∃ n, p.workSteps s n = p.drain s := by
  match state : p.worker with
  | .stopped => exact ⟨0, by simp [workSteps, drain, state]⟩
  | .waiting => exact workSteps_of_waiting s p state
  | .delivering r remaining =>
    have delivered := workSteps_of_delivering s r remaining p state
    obtain ⟨n, drained⟩ := workSteps_of_waiting s
      { p with worker := .waiting, outside := s.deliver r remaining p.outside } rfl
    refine ⟨remaining.length + 1 + n, ?_⟩
    rw [workSteps_add, delivered, drained]
    simp [drain, drain.all, state]

end KeyValueService.Pipeline
