import LicenseSurvey.Proofs.FileTree.Creation
import LicenseSurvey.Proofs.Outcome
import LicenseSurvey.Proofs.Resolver.Ending
import LicenseSurvey.Proofs.Survey.Account
import LicenseSurvey.Proofs.Text.Utf8

/-! # Surveys that fail

A survey has four stages at which it can fail, and the first of them at which it does ends it
before anything is written. A pattern or a file that cannot be used, or a manifest that is absent,
leaves a survey that writes its report.
-/

namespace LicenseSurvey

namespace Resolver

variable {files : FileView} {root : Path} {options : ResolverOptions}

theorem result_load_eq_error_iff {failure : Failure} :
    (load files root options).result = .error failure ↔
      (∃ error, files (Path.join root options.manifestPath) = .unreadable error ∧
        failure = .unreadable (Path.join root options.manifestPath) error) ∨
      ∃ content error, files (Path.join root options.manifestPath) = .file content ∧
        Manifest.parse (Text.decode content) = .error error ∧
        failure = .invalidManifest (Path.join root options.manifestPath) error := by
  rw [result_load_eq, map_eq_error_iff, result_loadManifest]
  cases files (Path.join root options.manifestPath) with
  | directory | unreachable => simp
  | unreadable error => simp [eq_comm]
  | file content =>
      simp only [map_eq_error_iff, mapError_eq_error_iff]
      simp [eq_comm]

end Resolver

namespace Survey

/-! ## The stages -/

inductive Stage where
  | input
  | root
  | manifest
  | report
deriving DecidableEq, Repr

def Stage.rank : Stage → Nat
  | .input => 0
  | .root => 1
  | .manifest => 2
  | .report => 3

/-- What is wrong at a stage, whether or not something is wrong at an earlier one. -/
inductive FailsAt (tree : FileTree) (workingDirectory : List Bytes) (invocation : Invocation)
    (input : Bytes) : Stage → Failure → Prop
  /-- The candidates are to be read from an input that is no text. -/
  | input (fromInput : invocation.files = []) (notText : ¬∃ text, Text.encode text = input) :
      FailsAt tree workingDirectory invocation input .input .candidatesNotText
  | root {error : AccessError}
      (denied : tree.canonical workingDirectory invocation.root = .error error) :
      FailsAt tree workingDirectory invocation input .root
        (.rootNotAccessible invocation.root error)
  /-- A manifest is there and cannot be read. -/
  | manifestUnreadable {root : Path} {error : AccessError}
      (accessible : tree.canonical workingDirectory invocation.root = .ok root)
      (found : tree.view workingDirectory (Path.join root invocation.manifestPath) =
        .unreadable error) :
      FailsAt tree workingDirectory invocation input .manifest
        (.unreadable (Path.join root invocation.manifestPath) error)
  /-- A manifest is there and is read, but not accepted. -/
  | manifestRejected {root : Path} {content : Bytes} {error : ManifestError}
      (accessible : tree.canonical workingDirectory invocation.root = .ok root)
      (found : tree.view workingDirectory (Path.join root invocation.manifestPath) = .file content)
      (rejected : Manifest.parse (Text.decode content) = .error error) :
      FailsAt tree workingDirectory invocation input .manifest
        (.invalidManifest (Path.join root invocation.manifestPath) error)
  | report {error : AccessError}
      (refused : tree.creationPlace workingDirectory invocation.reportPath = .error error) :
      FailsAt tree workingDirectory invocation input .report
        (.notCreated invocation.reportPath error)

variable {tree : FileTree} {workingDirectory : List Bytes} {invocation : Invocation}
  {input : Bytes} {failure : Failure}

theorem failsAt_input_iff : FailsAt tree workingDirectory invocation input .input failure ↔
    Candidates.ofInput invocation.files input = .error failure := by
  rw [Candidates.ofInput]
  constructor
  · rintro ⟨fromInput, notText⟩
    rw [if_pos fromInput, Text.decodeExact?_eq_none_iff.mpr notText]
  · intro ended
    split at ended
    · rename_i fromInput
      split at ended
      · rename_i none
        cases ended
        exact .input fromInput (Text.decodeExact?_eq_none_iff.mp none)
      · cases ended
    · cases ended

theorem failsAt_root_iff : FailsAt tree workingDirectory invocation input .root failure ↔
    (tree.canonical workingDirectory invocation.root).mapError
      (.rootNotAccessible invocation.root) = .error failure := by
  rw [mapError_eq_error_iff]
  constructor
  · intro fails
    cases fails with
    | root denied => exact ⟨_, denied, rfl⟩
  · rintro ⟨error, denied, rfl⟩
    exact .root denied

theorem failsAt_manifest_iff : FailsAt tree workingDirectory invocation input .manifest failure ↔
    ∃ root, tree.canonical workingDirectory invocation.root = .ok root ∧
      (Resolver.load (tree.view workingDirectory) root
        ⟨invocation.lineLimit, invocation.manifestPath⟩).result = .error failure := by
  constructor
  · intro fails
    cases fails with
    | manifestUnreadable accessible found =>
        exact ⟨_, accessible, Resolver.result_load_eq_error_iff.mpr (.inl ⟨_, found, rfl⟩)⟩
    | manifestRejected accessible found rejected =>
        exact ⟨_, accessible,
          Resolver.result_load_eq_error_iff.mpr (.inr ⟨_, _, found, rejected, rfl⟩)⟩
  · rintro ⟨root, accessible, ended⟩
    rcases Resolver.result_load_eq_error_iff.mp ended with
      ⟨error, found, rfl⟩ | ⟨content, error, found, rejected, rfl⟩
    · exact .manifestUnreadable accessible found
    · exact .manifestRejected accessible found rejected

theorem failsAt_report_iff : FailsAt tree workingDirectory invocation input .report failure ↔
    ((tree.surroundings workingDirectory).creatable invocation.reportPath).mapError
      (.notCreated invocation.reportPath) = .error failure := by
  simp only [mapError_eq_error_iff, FileTree.surroundings, map_eq_error_iff]
  constructor
  · intro fails
    cases fails with
    | report refused => exact ⟨_, refused, rfl⟩
  · rintro ⟨error, refused, rfl⟩
    exact .report refused

theorem FailsAt.unique {stage : Stage} {other : Failure}
    (fails : FailsAt tree workingDirectory invocation input stage failure)
    (failsToo : FailsAt tree workingDirectory invocation input stage other) :
    failure = other := by
  cases stage with
  | input =>
      exact Except.error.inj
        ((failsAt_input_iff.mp fails).symm.trans (failsAt_input_iff.mp failsToo))
  | root =>
      exact Except.error.inj
        ((failsAt_root_iff.mp fails).symm.trans (failsAt_root_iff.mp failsToo))
  | manifest =>
      obtain ⟨root, accessible, ended⟩ := failsAt_manifest_iff.mp fails
      obtain ⟨same, accessibleToo, endedToo⟩ := failsAt_manifest_iff.mp failsToo
      obtain rfl := Except.ok.inj (accessible.symm.trans accessibleToo)
      exact Except.error.inj (ended.symm.trans endedToo)
  | report =>
      exact Except.error.inj
        ((failsAt_report_iff.mp fails).symm.trans (failsAt_report_iff.mp failsToo))

/-! ## The course of a survey -/

section

variable (surroundings : Surroundings) (invocation : Invocation) (input : Bytes)
  (environment : Environment) (start stop : Instant)

end

variable {environment : Environment} {start stop : Instant}

end Survey

end LicenseSurvey
