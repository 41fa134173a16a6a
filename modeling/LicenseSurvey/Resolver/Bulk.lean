import LicenseSurvey.Expression
import LicenseSurvey.Resolver.Basic

/-! # Resolving many files

Every path is resolved for itself. A file without a record is reported and does
not keep the others from having one.
-/

namespace LicenseSurvey

structure FileError where
  path : Path
  failure : Failure
deriving DecidableEq, Repr

structure Resolution where
  files : List FileRecord
  errors : List FileError
  licenseIdentifiers : List Text
deriving DecidableEq, Repr

namespace Resolution

def ofOutcomes (outcomes : List (Except FileError FileRecord)) : Resolution :=
  let files := outcomes.filterMap Except.toOption
  { files
    errors := outcomes.filterMap fun outcome =>
      match outcome with
      | .error error => some error
      | .ok _ => none
    licenseIdentifiers := Expression.collect (files.flatMap FileRecord.licensesInFile) }

end Resolution

namespace Resolver

def outcome (files : FileView) (resolver : Resolver) (path : Path) :
    Logged (Except FileError FileRecord) := do
  match ← resolver.resolve files path with
  | .ok record => return .ok record
  | .error failure =>
      Logged.tell [.notResolved path failure]
      return .error ⟨path, failure⟩

def resolveAll (files : FileView) (resolver : Resolver) (paths : List Path) :
    Logged Resolution :=
  let outcomes := paths.map (resolver.outcome files)
  ⟨Resolution.ofOutcomes (outcomes.map Logged.result), outcomes.flatMap Logged.events⟩

end Resolver

end LicenseSurvey
