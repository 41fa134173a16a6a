import LicenseSurvey.Resolver.Basic

/-! # The command line

The first argument that belongs to no option is the root, and the others are the
candidates. An option takes its value from the same argument or from the next one.
The arguments are read from left to right, and the first that cannot be understood
ends the reading; but an option whose value was left to the next argument is only
looked at when reading goes on behind that value.
-/

namespace LicenseSurvey

structure Invocation where
  root : Path
  /-- The candidates; without any, they are read from the input. -/
  files : List Path
  reportPath : Path
  lineLimit : Option Nat
  manifestPath : Path
  excludes : List Text
deriving DecidableEq, Repr

namespace Invocation

inductive Refusal where
  | missingArgument
  /-- An argument looks like an option but is none. -/
  | unknownArgument
  | missingValue
  /-- A value is not of the kind that its option takes. -/
  | invalidValue
  /-- A value is given to an option that takes none. -/
  | needlessValue
  /-- An option stands twice that may stand once. -/
  | repeated
  | help
  | version
deriving DecidableEq, Repr

def Refusal.message : Refusal → Text
  | .missingArgument => "error: the root of the repository is not named".toList
  | .unknownArgument => "error: an argument is not known".toList
  | .missingValue => "error: an option stands without its value".toList
  | .invalidValue => "error: a line limit is not a number".toList
  | .needlessValue => "error: a value is given to an option that takes none".toList
  | .repeated => "error: an option stands twice".toList
  | .help =>
      ("Usage: [-o FILE] [--max-lines COUNT] [--dep5-path FILE] [-e PATTERNS]... " ++
        "ROOT [FILE]...").toList
  | .version => "0.1.0".toList

inductive Choice where
  | reportPath
  | lineLimit
  | manifestPath
  | exclude
deriving DecidableEq, Repr

structure Draft where
  /-- The arguments that belong to no option, the last one first. -/
  positional : List Text
  reportPath : Option Text
  lineLimit : Option Nat
  manifestPath : Option Text
  excludes : List Text
  /-- An option that was named last, with its value once that has been read. -/
  pending : Option (Choice × Option Text)
deriving DecidableEq, Repr

def Draft.empty : Draft := ⟨[], none, none, none, [], none⟩

/-! ## Values -/

def greatestLimit : Nat := 0xFFFFFFFFFFFFFFFF

def numberOfDigits? (digits : Text) : Option Nat :=
  if digits = [] ∨ digits.any (!·.isDigit) then none
  else
    let number := digits.foldl (fun number digit => number * 10 + (digit.toNat - 48)) 0
    if number ≤ greatestLimit then some number else none

def limitOfText? : Text → Option Nat
  | '+' :: digits => numberOfDigits? digits
  | digits => numberOfDigits? digits

def once {Value : Type} (earlier : Option Value) (value : Except Refusal Value) :
    Except Refusal (Option Value) :=
  match earlier with
  | some _ => .error .repeated
  | none => value.map some

namespace Draft

def give (draft : Draft) (choice : Choice) (value : Text) : Except Refusal Draft := do
  match choice with
  | .reportPath => return { draft with reportPath := ← once draft.reportPath (.ok value) }
  | .manifestPath =>
      return { draft with manifestPath := ← once draft.manifestPath (.ok value) }
  | .lineLimit =>
      let limit :=
        match limitOfText? value with
        | some limit => .ok limit
        | none => .error .invalidValue
      return { draft with lineLimit := ← once draft.lineLimit limit }
  | .exclude =>
      return { draft with excludes := draft.excludes ++ Text.splitBy (· == ',') value }

def settle (draft : Draft) : Except Refusal Draft :=
  match draft.pending with
  | none => .ok draft
  | some (_, none) => .error .missingValue
  | some (choice, some value) => give { draft with pending := none } choice value

def addPositional (draft : Draft) (argument : Text) : Except Refusal Draft := do
  let draft ← draft.settle
  return { draft with positional := argument :: draft.positional }

def addChoice (draft : Draft) (choice : Choice) (value : Option Text) :
    Except Refusal Draft := do
  let draft ← draft.settle
  match value with
  | some value => draft.give choice value
  | none => return { draft with pending := some (choice, none) }

def finish (draft : Draft) (request : Refusal) : Except Refusal Draft := do
  let _ ← draft.settle
  throw request

/-! ## Options -/

def choiceOfLetter? : Char → Option Choice
  | 'o' => some .reportPath
  | 'e' => some .exclude
  | _ => none

def choiceOfWord? (word : Text) : Option Choice :=
  if word = "output-file".toList then some .reportPath
  else if word = "max-lines".toList then some .lineLimit
  else if word = "dep5-path".toList then some .manifestPath
  else if word = "exclude".toList then some .exclude
  else none

def requestOfWord? (word : Text) : Option Refusal :=
  if word = "help".toList then some .help
  else if word = "version".toList then some .version
  else none

def attachedValue? : Text → Option Text
  | [] => none
  | '=' :: value => some value
  | value => some value

def readLetters (draft : Draft) : (letters : Text) → Except Refusal Draft
  | [] => .ok draft
  | 'h' :: _ => draft.finish .help
  | 'V' :: _ => draft.finish .version
  | letter :: rest =>
      match choiceOfLetter? letter with
      | some choice => draft.addChoice choice (attachedValue? rest)
      | none => .error .unknownArgument

def readWord (draft : Draft) (argument : Text) : Except Refusal Draft :=
  let word := argument.takeWhile (· != '=')
  let value := (argument.dropWhile (· != '=')).tail?
  match choiceOfWord? word, requestOfWord? word with
  | some choice, _ => draft.addChoice choice value
  | none, some request => if value.isSome then .error .needlessValue else draft.finish request
  | none, none => .error .unknownArgument

def read (draft : Draft) (argument : Text) : Except Refusal Draft :=
  match argument with
  | '-' :: '-' :: word => draft.readWord word
  | '-' :: letter :: letters => draft.readLetters (letter :: letters)
  | _ =>
      match draft.pending with
      | some (choice, none) => .ok { draft with pending := some (choice, some argument) }
      | _ => draft.addPositional argument

def readAll (draft : Draft) : List Text → Except Refusal Draft
  | [] => draft.settle
  | argument :: arguments =>
      if argument = ['-', '-'] then do
        (← arguments.foldlM addPositional draft).settle
      else do
        (← draft.read argument).readAll arguments

end Draft

/-! ## Invocations -/

def defaultReportPath : Path := Path.ofText "reuse.json".toList

def ofArguments (arguments : List Text) : Except Refusal Invocation := do
  let draft ← Draft.empty.readAll arguments
  match draft.positional.reverse with
  | [] => throw .missingArgument
  | root :: files =>
      return {
        root := Path.ofText root
        files := files.map Path.ofText
        reportPath := (draft.reportPath.map Path.ofText).getD defaultReportPath
        lineLimit := draft.lineLimit
        manifestPath := (draft.manifestPath.map Path.ofText).getD defaultManifestPath
        excludes := draft.excludes }

end Invocation

end LicenseSurvey
