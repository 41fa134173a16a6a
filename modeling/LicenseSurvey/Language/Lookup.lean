import LicenseSurvey.Language.Registry
import LicenseSurvey.Path

/-! # The language of a file

A file belongs to a language when exactly one language claims it. The extension
is asked first, in lower case; only when no language claims it does the whole
file name decide. An extension or a name that is no text is not claimed.
-/

namespace LicenseSurvey.Language

inductive LookupError where
  | unclaimed (path : Path)
  | ambiguous (path : Path) (candidates : List Text)
deriving DecidableEq, Repr

def LookupError.message : LookupError → Text
  | .unclaimed path => "No language definition found for ".toList ++ path.text
  | .ambiguous path candidates =>
      "Ambiguous language definitions for ".toList ++ path.text ++ ": ".toList ++
        Text.join ", ".toList candidates

def claimingExtension (extension : Text) : List Language :=
  registry.filter fun language => language.extensions.contains (Text.lower extension)

def claimingFileName (name : Text) : List Language :=
  registry.filter fun language => language.fileNames.contains name

def only (path : Path) : List Language → Except LookupError Language
  | [] => .error (.unclaimed path)
  | [language] => .ok language
  | candidates => .error (.ambiguous path (candidates.map Language.name))

def lookup (path : Path) : Except LookupError Language :=
  let extension := path.extension?.bind Text.decodeExact?
  let name := path.fileName?.bind Text.decodeExact?
  let byExtension := (extension.map claimingExtension).getD []
  if byExtension.isEmpty then
    only path ((name.map claimingFileName).getD [])
  else
    only path byExtension

def isSupported (path : Path) : Bool :=
  match lookup path with
  | .ok _ => true
  | .error _ => false

end LicenseSurvey.Language
