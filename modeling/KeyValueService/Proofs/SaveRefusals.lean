import KeyValueService.Proofs.UnbrokenTexts
import KeyValueService.Store.Basic

/-!
# Why a table cannot be saved

Whatever the file system, the reason for which it refuses to save a table is one of its own, whose
wording is fixed (`named_save`). So the message is on one line (`worded_save`). One lemma for each
operation that saving uses.
-/

namespace KeyValueService

/-- If there is a reason for failure, it is worded on one line. -/
def Worded {α : Type} (result : Except DiskError α) : Prop :=
  ∀ e, result = .error e → Unbroken e.message

/-- If there is a reason for failure, it is one with a name. -/
def Named {α : Type} (result : Except DiskError α) : Prop :=
  ∀ e, result = .error e → ∀ text, e ≠ .other text

/-- The reasons with a name have a fixed wording, in which nothing breaks the line. -/
theorem DiskError.flat_message {e : DiskError} (named : ∀ text, e ≠ .other text) : Flat e.message := by
  cases e with
  | other text => exact absurd rfl (named text)
  | _ => decide +kernel

theorem named_ok {α : Type} (a : α) : Named (.ok a : Except DiskError α) :=
  fun _ refused => nomatch refused

theorem named_error {α : Type} {e : DiskError} (named : ∀ text, e ≠ .other text) :
    Named (.error e : Except DiskError α) := by
  rintro _ ⟨⟩
  exact named

theorem Named.of_error {α β : Type} {result : Except DiskError α} (named : Named result)
    {e : DiskError} (refused : result = .error e) : Named (.error e : Except DiskError β) :=
  named_error (named e refused)

namespace FileSystem

theorem named_walk (fs : FileSystem) (location : Location) (names : List String) :
    Named (fs.walk location names) := by
  induction names generalizing location with
  | nil => exact named_ok location
  | cons name rest inductionHypothesis =>
    rw [walk]
    split
    · exact named_error nofun
    · exact named_error nofun
    · split
      · exact inductionHypothesis _
      split
      · exact inductionHypothesis _
      split
      · exact named_error nofun
      · exact inductionHypothesis _

theorem named_resolve (fs : FileSystem) (path : Path) : Named (fs.resolve path) := by
  unfold resolve
  dsimp only
  split
  · exact named_error nofun
  split
  · exact named_error nofun
  split
  · exact named_error nofun
  split
  next refused => exact (named_walk fs _ _).of_error refused
  next => exact named_ok _

theorem named_makeDirectory (fs : FileSystem) (path : Path) : Named (fs.makeDirectory path) := by
  unfold makeDirectory
  split
  next refused => exact (named_resolve fs path).of_error refused
  next => exact named_error nofun
  next => exact named_ok _

theorem named_makeChain (fs : FileSystem) (paths : List Path) : Named (fs.makeChain paths).2 := by
  induction paths with
  | nil => exact named_ok ()
  | cons path above inductionHypothesis =>
    rw [makeChain]
    split
    · exact named_ok ()
    split
    next => exact named_ok ()
    next =>
      rcases prepared : fs.makeChain above with ⟨made, e | ⟨⟩⟩
      · rw [prepared] at inductionHypothesis
        exact inductionHypothesis
      · dsimp only
        split
        next => exact named_ok ()
        next e refused =>
          dsimp only
          split
          · exact named_ok ()
          · exact (named_makeDirectory made path).of_error refused
    next e _ refused =>
      dsimp only
      split
      · exact named_ok ()
      · exact (named_makeDirectory fs path).of_error refused

theorem named_makeParents (fs : FileSystem) (path : Path) : Named (fs.makeParents path).2 := by
  unfold makeParents
  split
  · exact named_ok ()
  split
  · exact named_ok ()
  · exact named_makeChain fs _

theorem named_openEmptied (fs : FileSystem) (path : Path) : Named (fs.openEmptied path) := by
  unfold openEmptied
  split
  next refused => exact (named_resolve fs path).of_error refused
  next => exact named_error nofun
  next => exact named_error nofun
  next => exact named_ok _
  next => exact named_ok _

theorem named_write (fs : FileSystem) (handle : Handle) (bytes : ByteArray) :
    Named (fs.write handle bytes) := by
  unfold write
  split
  · exact named_ok _
  split
  · exact named_error nofun
  · exact named_ok _

theorem named_rename (fs : FileSystem) (source target : Path) :
    Named (fs.rename source target) := by
  unfold rename
  split
  next refused => exact (named_resolve fs source).of_error refused
  next refused _ => exact (named_resolve fs target).of_error refused
  next =>
    split
    · exact named_error nofun
    split
    · exact named_error nofun
    · unfold renameDirectory
      split
      · exact named_error nofun
      · split
        · exact named_ok _
        split
        · exact named_error nofun
        · exact named_ok _
      · exact named_ok _
    · split
      · exact named_error nofun
      · unfold renameFile
        split
        · exact named_error nofun
        · split <;> exact named_ok _

end FileSystem

namespace Store

theorem named_step (saving : Saving) (step : SaveStep) : Named (step.run saving).2 := by
  cases step with
  | makeParents path => exact saving.files.named_makeParents path
  | openDraft path =>
    rw [SaveStep.run]
    split
    next refused => exact (saving.files.named_openEmptied path).of_error refused
    next => exact named_ok ()
  | write bytes =>
    rw [SaveStep.run]
    split
    · exact named_ok ()
    split
    next refused => exact (saving.files.named_write _ bytes).of_error refused
    next => exact named_ok ()
  | replace draft path =>
    rw [SaveStep.run]
    split
    next refused => exact (saving.files.named_rename draft path).of_error refused
    next => exact named_ok ()

theorem named_runSteps (saving : Saving) (steps : List SaveStep) :
    Named (runSteps saving steps).2 := by
  induction steps generalizing saving with
  | nil => exact named_ok ()
  | cons step rest inductionHypothesis =>
    have first := named_step saving step
    rw [runSteps]
    rcases outcome : step.run saving with ⟨after, e | ⟨⟩⟩
    · rw [outcome] at first
      exact first
    · exact inductionHypothesis after

/-- A table that cannot be saved is refused for a reason with a name. -/
theorem named_save (fs : FileSystem) (path : Option Path) (table : Table String) :
    Named (save fs path table).2 := by
  cases path with
  | none => exact named_ok ()
  | some path =>
    exact named_runSteps ⟨fs, none⟩ (saveSteps path (image table).toUTF8)

theorem worded_save (fs : FileSystem) (path : Option Path) (table : Table String) :
    Worded (save fs path table).2 :=
  fun e refused => (DiskError.flat_message (named_save fs path table e refused)).unbroken

end Store

end KeyValueService
