import LicenseSurvey.Survey
import Std.Time.DateTime.Timestamp

/-! # The program

Reads the command line, the input and the files that a survey asks for, carries the
survey out, and writes its report. Nothing is decided here: which paths are read,
what is printed and what the report says comes from the modules below.
-/

namespace LicenseSurvey.Program

def now : IO Instant := do
  let time ← Std.Time.Timestamp.now
  let nanoseconds := time.toNanosecondsSinceUnixEpoch.val
  return ⟨nanoseconds.fdiv 1000000000, (nanoseconds.fmod 1000000000).toNat⟩

/-- Whether a system error has this number. Some calls report it negated. -/
def hasNumber (code number : UInt32) : Bool := code == number || code == 0 - number

def accessError (error : IO.Error) : AccessError :=
  match error with
  | .noFileOrDirectory .. => .notFound
  | .permissionDenied _ code _ =>
      if hasNumber code 13 then .denied else .other error.toString.toList
  | .inappropriateType _ code _ => if hasNumber code 21 then .isDirectory else .notDirectory
  | .invalidArgument _ code _ =>
      if hasNumber code 36 then .nameTooLong else .other error.toString.toList
  | .hardwareFault code details =>
      .other (details ++ " (os error " ++ toString code ++ ")").toList
  | other => .other other.toString.toList

/-- A path as system calls take it. One that is no text cannot be handed over. -/
def systemPath (path : Path) : IO String :=
  match Text.decodeExact? path with
  | some text => return String.ofList text
  | none => throw (IO.userError "the path is not a text")

def canonical (path : Path) : IO (Except AccessError Path) := do
  if path.isEmpty then
    return .error .notFound
  try
    let real ← IO.FS.realPath (← systemPath path)
    return .ok (Path.ofText real.toString.toList)
  catch _ =>
    -- The error does not tell the reason, but opening the path does.
    try
      let _ ← IO.FS.Handle.mk (← systemPath path) .read
      return .error .notFound
    catch error =>
      return .error (accessError error)

def isFileAt (path : Path) : IO Bool := do
  try
    let real ← IO.FS.realPath (← systemPath path)
    return (← real.metadata).type == .file
  catch _ =>
    return false

def entryAt (path : Path) : IO Entry := do
  try
    return .file (← IO.FS.readBinFile (← systemPath path)).toList
  catch error =>
    match accessError error with
    | .isDirectory => return .directory
    | reason =>
        if ← isFileAt path then return .unreadable reason
        else return .unreachable reason

def systemLine? (path : String) : IO (Option Text) := do
  try
    return ((← IO.FS.lines path)[0]?).map String.toList
  catch _ =>
    return none

def environment : IO Environment := do
  let unknown := "unknown".toList
  let name ← systemLine? "/proc/sys/kernel/ostype"
  let release ← systemLine? "/proc/sys/kernel/osrelease"
  let architecture := (← systemLine? "/proc/sys/kernel/arch").getD unknown
  return {
    operatingSystem := name
    architecture
    platform :=
      name.getD unknown ++ '-' :: release.getD unknown ++ '-' :: architecture
    toolchain := "4.33.0".toList }

def surroundings (invocation : Invocation) (input : Bytes) : IO Surroundings := do
  let root ← canonical invocation.root
  let paths :=
    match Candidates.ofInput invocation.files input, root with
    | .ok candidates, .ok root => Survey.pathsRead invocation root candidates
    | _, _ => []
  let entries ← paths.mapM fun path => do return (path, ← entryAt path)
  return {
    files := fun path =>
      ((entries.find? fun entry => entry.1 = path).map Prod.snd).getD
        (.unreachable .notFound)
    canonical := fun _ => root
    creatable := fun _ => .ok () }

def writeReport (path : Path) (text : Text) : IO (Except AccessError Unit) := do
  try
    IO.FS.writeFile (← systemPath path) (String.ofList text)
    return .ok ()
  catch error =>
    return .error (accessError error)

def survey (invocation : Invocation) (input : Bytes) : IO Outcome := do
  let start ← now
  let surroundings ← surroundings invocation input
  let environment ← environment
  let stop ← now
  let outcome := Survey.run surroundings invocation input environment start stop
  match outcome.written with
  | .error _ => return outcome
  | .ok (path, text) =>
      match ← writeReport path text with
      | .ok () => return outcome
      | .error error =>
          let refusing := { surroundings with creatable := fun _ => .error error }
          return Survey.run refusing invocation input environment start stop

def report (outcome : Outcome) : IO UInt32 := do
  for line in outcome.printed do
    IO.println (String.ofList line)
  for event in outcome.events do
    if event.level = .warn then
      IO.eprintln (String.ofList event.line)
  if let .error failure := outcome.written then
    IO.eprintln (String.ofList ("Error: ".toList ++ failure.message))
  return outcome.exitCode

end LicenseSurvey.Program

open LicenseSurvey in
def main (arguments : List String) : IO UInt32 := do
  match Invocation.ofArguments (arguments.map String.toList) with
  | .error refusal =>
      if refusal = .help ∨ refusal = .version then
        IO.println (String.ofList refusal.message)
        return 0
      else
        IO.eprintln (String.ofList refusal.message)
        return 2
  | .ok invocation =>
      let input ←
        if invocation.files.isEmpty then
          pure (← (← IO.getStdin).readBinToEnd).toList
        else
          pure []
      Program.report (← Program.survey invocation input)
