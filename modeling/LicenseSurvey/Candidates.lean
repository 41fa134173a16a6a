import LicenseSurvey.Resolver.Event

/-! # Candidates

The candidates of a survey are named by its arguments, or else by the lines of its
input. Those that a usable pattern excludes are left out; a pattern that cannot be
used excludes nothing.
-/

namespace LicenseSurvey.Candidates

def ofInput (arguments : List Path) (input : Bytes) : Except Failure (List Path) :=
  if arguments = [] then
    match Text.decodeExact? input with
    | none => .error .candidatesNotText
    | some text =>
        .ok ((((Text.lines text).map Text.trim).filter (!·.isEmpty)).map Path.ofText)
  else
    .ok arguments

def usable (patterns : List Text) : List Text :=
  patterns.filter fun pattern => (Glob.parse pattern).isOk

def patternEvents (patterns : List Text) : List Event :=
  patterns.filterMap fun pattern =>
    match Glob.parse pattern with
    | .ok _ => none
    | .error error => some (.patternUnusable pattern error)

def isExcluded (patterns : List Text) (candidate : Path) : Bool :=
  Glob.anyExcludes (patterns.filterMap fun pattern => (Glob.parse pattern).toOption)
    candidate

def kept (patterns : List Text) (candidates : List Path) : List Path :=
  candidates.filter fun candidate => !isExcluded patterns candidate

def excludedCount (patterns : List Text) (candidates : List Path) : Nat :=
  candidates.length - (kept patterns candidates).length

end LicenseSurvey.Candidates
