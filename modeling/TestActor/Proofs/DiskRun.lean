import TestActor.FileSystem
import TestActor.Proofs.FirstError

/-!
# Programs on file systems

A program that may fail is run on a file system: it gives a result or an error, and it leaves a file
system in either case. What a program of several steps does follows from what its steps do.

## Main statements

* `runOn_bind_eq_ok_iff`: a program that succeeds has steps that succeed.
* `runOn_bind_of_reads`: a program of steps that only read does only read.
-/

namespace TestActor

variable {ε δ α β : Type} {fs fs' : FileSystem}

/-- What a program gives on a file system, and the file system that it leaves. -/
def runOn (program : ExceptT ε (StateM FileSystem) α) (fs : FileSystem) :
    Except ε α × FileSystem :=
  (program.run.run fs).run

/-! ## Steps -/

theorem runOn_pure (a : α) :
    runOn (pure a : ExceptT ε (StateM FileSystem) α) fs = (.ok a, fs) := rfl

theorem runOn_mk (step : StateM FileSystem (Except ε α)) :
    runOn (ExceptT.mk step) fs = step.run fs := rfl

theorem runOn_lift (question : StateM FileSystem α) :
    runOn (liftM question : ExceptT ε (StateM FileSystem) α) fs
      = (.ok (question.run fs).1, (question.run fs).2) := rfl

theorem runOn_liftExcept (calculation : Except ε α) :
    runOn (liftM calculation : ExceptT ε (StateM FileSystem) α) fs = (calculation, fs) := rfl

theorem runOn_adapt (program : ExceptT ε (StateM FileSystem) α) (wrap : ε → δ) :
    runOn (program.adapt wrap) fs = ((runOn program fs).1.mapError wrap, (runOn program fs).2) :=
  rfl

section Bind

variable {first : ExceptT ε (StateM FileSystem) α} {second : α → ExceptT ε (StateM FileSystem) β}

/-- The second step runs on what the first one leaves, unless that fails. -/
theorem runOn_bind :
    runOn (first >>= second) fs = match runOn first fs with
      | (.ok a, left) => runOn (second a) left
      | (.error e, left) => (.error e, left) := by
  unfold runOn
  rw [ExceptT.run_bind, StateT.run_bind, Id.run_bind]
  generalize (first.run.run fs).run = r
  obtain ⟨result, left⟩ := r
  cases result <;> rfl

theorem runOn_bind_of_ok {a : α} {left : FileSystem} (h : runOn first fs = (.ok a, left)) :
    runOn (first >>= second) fs = runOn (second a) left := by
  rw [runOn_bind, h]

theorem runOn_bind_pure (f : α → β) :
    runOn (first >>= fun a => pure (f a)) fs
      = ((runOn first fs).1.map f, (runOn first fs).2) := by
  rw [runOn_bind]
  rcases runOn first fs with ⟨_ | _, _⟩ <;> rfl

/-- **Both steps of a program that succeeds succeed.** -/
theorem runOn_bind_eq_ok_iff {b : β} :
    runOn (first >>= second) fs = (.ok b, fs') ↔
      ∃ a left, runOn first fs = (.ok a, left) ∧ runOn (second a) left = (.ok b, fs') := by
  rw [runOn_bind]
  rcases runOn first fs with ⟨result, left⟩
  constructor
  · intro h
    cases result with
    | error e => cases h
    | ok a => exact ⟨a, left, rfl, h⟩
  · rintro ⟨a, _, he, h⟩
    cases he
    exact h

/-- A program whose steps leave the file system as it is leaves it, too. -/
theorem runOn_bind_of_reads {a? : Except ε α} {b? : α → Except ε β}
    (hfirst : runOn first fs = (a?, fs)) (hsecond : ∀ a, runOn (second a) fs = (b? a, fs)) :
    runOn (first >>= second) fs = (a? >>= b?, fs) := by
  rw [runOn_bind, hfirst]
  cases a? with
  | error e => rfl
  | ok a => exact hsecond a

end Bind

theorem runOn_adapt_of_reads {program : ExceptT ε (StateM FileSystem) α} {wrap : ε → δ}
    {a? : Except ε α} (h : runOn program fs = (a?, fs)) :
    runOn (program.adapt wrap) fs = (a?.mapError wrap, fs) := by
  rw [runOn_adapt, h]

theorem runOn_adapt_eq_ok_iff {program : ExceptT ε (StateM FileSystem) α} {wrap : ε → δ} {a : α} :
    runOn (program.adapt wrap) fs = (.ok a, fs') ↔ runOn program fs = (.ok a, fs') := by
  rw [runOn_adapt, Prod.mk.injEq, mapError_eq_ok_iff, ← Prod.mk.injEq]

/-! ## Texts -/

/-- The content of a file as text. -/
def FileSystem.text (fs : FileSystem) (path : Path) : Except FileError String := do
  match String.fromUTF8? (← fs.read path) with
  | none => .error .notText
  | some text => .ok text

theorem runOn_readText (path : Path) : runOn (Disk.readText path) fs = (fs.text path, fs) := by
  unfold Disk.readText FileSystem.text
  rw [runOn_bind, runOn_mk, FileSystem.run_read]
  cases fs.read path with
  | error failure => rfl
  | ok bytes =>
    show runOn (match String.fromUTF8? bytes with
        | none => throw FileError.notText
        | some text => pure text) fs
      = (match String.fromUTF8? bytes with
        | none => .error FileError.notText
        | some text => .ok text, fs)
    split <;> rfl

end TestActor
