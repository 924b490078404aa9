/-!
# A shared value

A place from which the whole program takes a value, such as its logger. The value is installed once:
later attempts are refused and change nothing. Main statement: `Shared.installAll_empty`.
-/

namespace KeyValueService

universe u

/-- A place for a value, which may not be there yet. -/
structure Shared (α : Type u) where
  value? : Option α

namespace Shared

variable {α : Type u}

/-- A place without a value. -/
def empty : Shared α := ⟨none⟩

/-- Installs a value unless there is one, and tells whether it did. -/
def install (s : Shared α) (value : α) : Shared α × Bool :=
  match s.value? with
  | none => (⟨some value⟩, true)
  | some _ => (s, false)

/-- Attempts one after the other, with whether each installed its value. -/
def installAll (s : Shared α) : List α → Shared α × List Bool
  | [] => (s, [])
  | value :: rest =>
    let (s, done) := s.install value
    let (s, others) := s.installAll rest
    (s, done :: others)

theorem installAll_of_installed (installed : α) (values : List α) :
    installAll ⟨some installed⟩ values = (⟨some installed⟩, values.map fun _ => false) := by
  induction values with
  | nil => rfl
  | cons value rest inductionHypothesis => simp only [installAll, install, inductionHypothesis, List.map_cons]

/-- The first attempt installs its value, and no later one does. -/
theorem installAll_empty (value : α) (rest : List α) :
    empty.installAll (value :: rest) = (⟨some value⟩, true :: rest.map fun _ => false) := by
  simp only [installAll, install, empty, installAll_of_installed]

end Shared

end KeyValueService
