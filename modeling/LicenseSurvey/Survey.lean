import LicenseSurvey.Candidates
import LicenseSurvey.FileTree.Editing
import LicenseSurvey.Invocation
import LicenseSurvey.Report.Basic

/-! # Surveys

A survey takes its candidates, opens the repository, resolves every candidate that
is not excluded, and writes a report. It ends early when the candidates are not
text, when the root or the manifest cannot be used, or when the report cannot be
written; a candidate without a record does not end it.
-/

namespace LicenseSurvey

structure Surroundings where
  files : FileView
  /-- The absolute path of what a path names. -/
  canonical : Path → Except AccessError Path
  creatable : Path → Except AccessError Unit

def FileTree.surroundings (tree : FileTree) (workingDirectory : List Bytes) :
    Surroundings where
  files := tree.view workingDirectory
  canonical := tree.canonical workingDirectory
  creatable path := (tree.creationPlace workingDirectory path).map fun _ => ()

structure Outcome where
  printed : List Text
  /-- Where the report was written and what it says, or why there is none. -/
  written : Except Failure (Path × Text)
  events : List Event

def Outcome.exitCode (outcome : Outcome) : UInt32 :=
  match outcome.written with
  | .ok _ => 0
  | .error _ => 1

namespace Survey

/-! ## Printed lines -/

def patternsLine (patterns : List Text) : Text :=
  "Exclusion patterns: ".toList ++ Text.quotedList patterns

def candidatesLine (keptCount excludedCount : Nat) : Text :=
  "Resolving ".toList ++ Nat.toDigits 10 keptCount ++ " files (".toList ++
    Nat.toDigits 10 excludedCount ++ " excluded)".toList

def reportLine (path : Path) : Text := "JSON output written to ".toList ++ path.text

/-! ## Carrying out a survey -/

def openRepository (surroundings : Surroundings) (invocation : Invocation) :
    Logged (Except Failure Resolver) :=
  match surroundings.canonical invocation.root with
  | .error error => return .error (.rootNotAccessible invocation.root error)
  | .ok root =>
      Resolver.load surroundings.files root ⟨invocation.lineLimit, invocation.manifestPath⟩

def report (surroundings : Surroundings) (invocation : Invocation)
    (environment : Environment) (start stop : Instant) (candidates : List Path)
    (resolver : Resolver) : Logged Report := do
  let paths := Candidates.kept invocation.excludes candidates
  let resolution ← resolver.resolveAll surroundings.files paths
  return {
    start
    stop
    excludedCount := Candidates.excludedCount invocation.excludes candidates
    manifestPath :=
      resolver.manifest.map fun _ =>
        (Path.join resolver.root invocation.manifestPath).text
    environment
    resolution }

def run (surroundings : Surroundings) (invocation : Invocation) (input : Bytes)
    (environment : Environment) (start stop : Instant) : Outcome :=
  let printed := [patternsLine invocation.excludes]
  let events := Candidates.patternEvents invocation.excludes
  match Candidates.ofInput invocation.files input with
  | .error failure => { printed, written := .error failure, events }
  | .ok candidates =>
      let keptCount := (Candidates.kept invocation.excludes candidates).length
      let excludedCount := Candidates.excludedCount invocation.excludes candidates
      let printed := printed ++ [candidatesLine keptCount excludedCount]
      let opened := openRepository surroundings invocation
      let events := events ++ opened.events
      match opened.result with
      | .error failure => { printed, written := .error failure, events }
      | .ok resolver =>
          let made :=
            report surroundings invocation environment start stop candidates resolver
          let events := events ++ made.events
          let path := invocation.reportPath
          match surroundings.creatable path with
          | .error error => { printed, written := .error (.notCreated path error), events }
          | .ok () =>
              { printed := printed ++ [reportLine path]
                written := .ok (path, made.result.text)
                events }

def treeAfter (tree : FileTree) (workingDirectory : List Bytes) (outcome : Outcome) :
    FileTree :=
  match outcome.written with
  | .error _ => tree
  | .ok (path, text) =>
      match tree.creationPlace workingDirectory path with
      | .error _ => tree
      | .ok place => tree.write place (Text.encode text)

/-! ## What a survey looks at -/

def pathsRead (invocation : Invocation) (root : Path) (candidates : List Path) :
    List Path :=
  Path.join root invocation.manifestPath ::
    (Candidates.kept invocation.excludes candidates).flatMap fun candidate =>
      match Path.relativeTo root candidate with
      | .error _ => []
      | .ok relative =>
          let absolute := Path.join root relative
          [absolute, Path.sidecar absolute]

end Survey

end LicenseSurvey
