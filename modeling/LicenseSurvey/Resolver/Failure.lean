import LicenseSurvey.FileTree.Basic
import LicenseSurvey.Language.Lookup
import LicenseSurvey.Manifest.Basic

/-! # Failures

Why a file has no record, why a repository cannot be opened, and why a whole
survey ends early.
-/

namespace LicenseSurvey

inductive Failure where
  | misplaced (reason : Path.Misplaced)
  | unreadable (path : Path) (error : AccessError)
  | unopened (path : Path) (error : AccessError)
  | noLanguage (error : Language.LookupError)
  | invalidManifest (path : Path) (error : ManifestError)
  | candidatesNotText
  | rootNotAccessible (root : Path) (error : AccessError)
  | notCreated (path : Path) (error : AccessError)
deriving DecidableEq, Repr

def Failure.message : Failure → Text
  | .misplaced reason => reason.message
  | .unreadable path error =>
      "Failed to read ".toList ++ path.text ++ ": ".toList ++ error.message
  | .unopened path error =>
      "Failed to open ".toList ++ path.text ++ ": ".toList ++ error.message
  | .noLanguage error => error.message
  | .invalidManifest path error =>
      "Invalid DEP5 manifest ".toList ++ path.text ++ ": ".toList ++ error.message
  | .candidatesNotText =>
      "Failed to read candidate paths from stdin: ".toList ++
        "stream did not contain valid UTF-8".toList
  | .rootNotAccessible root error =>
      "Repository root ".toList ++ root.text ++ " is not accessible: ".toList ++ error.message
  | .notCreated path error =>
      "Failed to create ".toList ++ path.text ++ ": ".toList ++ error.message

end LicenseSurvey
