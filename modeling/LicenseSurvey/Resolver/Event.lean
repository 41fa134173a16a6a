import LicenseSurvey.Glob
import LicenseSurvey.Manifest.Reading
import LicenseSurvey.Resolver.Failure
import LicenseSurvey.Tag.Licensing

/-! # Events

What is worth telling about the course of a survey. Events come beside results
and never change them.
-/

namespace LicenseSurvey

inductive Level where
  | debug
  | info
  | warn
deriving DecidableEq, Repr

def Level.name : Level → Text
  | .debug => "DEBUG".toList
  | .info => "INFO".toList
  | .warn => "WARN".toList

inductive Event where
  | patternUnusable (pattern : Text) (error : Glob.PatternError)
  | noManifest (path : Path)
  | manifestLoaded (path : Path) (stanzaCount : Nat)
  | manifestNotice (notice : ManifestNotice)
  /-- A file is not searched for tags. -/
  | binaryContent (recordPath : Text)
  /-- A file is read as plain text. -/
  | plainText (error : Language.LookupError)
  | comment (path : Path) (startLine endLine : Nat)
  | tagSkipped (recordPath : Text) (label : LicensingLabel)
  | notResolved (path : Path) (failure : Failure)
deriving DecidableEq, Repr

namespace Event

def level : Event → Level
  | .manifestLoaded .. => .info
  | .patternUnusable .. | .manifestNotice _ | .notResolved .. => .warn
  | _ => .debug

def message : Event → Text
  | .patternUnusable pattern error =>
      "Ignoring invalid exclude pattern ".toList ++ Text.quoted pattern ++ ": ".toList ++
        error.message
  | .noManifest path => "No DEP5 manifest at ".toList ++ path.text
  | .manifestLoaded path stanzaCount =>
      "Loaded DEP5 manifest ".toList ++ path.text ++ " with ".toList ++
        Nat.toDigits 10 stanzaCount ++ " stanzas".toList
  | .manifestNotice notice => notice.message
  | .binaryContent recordPath =>
      recordPath ++ ": binary content, not scanning for tags".toList
  | .plainText error => error.message ++ "; reading it as plain text".toList
  | .comment path startLine endLine =>
      path.text ++ ": comment on lines ".toList ++ Nat.toDigits 10 startLine ++ ['-'] ++
        Nat.toDigits 10 endLine
  | .tagSkipped recordPath label =>
      recordPath ++ ": skipping ignored ".toList ++ label.name ++ " tag".toList
  | .notResolved path failure =>
      "Failed to resolve ".toList ++ path.text ++ ": ".toList ++ failure.message

def line (event : Event) : Text := event.level.name ++ [' '] ++ event.message

end Event

structure Logged (Result : Type) where
  result : Result
  events : List Event
deriving Repr

namespace Logged

instance : Monad Logged where
  pure result := ⟨result, []⟩
  bind first next :=
    let second := next first.result
    ⟨second.result, first.events ++ second.events⟩

def tell (events : List Event) : Logged Unit := ⟨(), events⟩

@[simp] theorem result_pure {Result : Type} (result : Result) :
    (pure result : Logged Result).result = result := rfl

@[simp] theorem result_bind {First Second : Type} (first : Logged First)
    (next : First → Logged Second) :
    (first >>= next).result = (next first.result).result := rfl

@[simp] theorem events_pure {Result : Type} (result : Result) :
    (pure result : Logged Result).events = [] := rfl

@[simp] theorem events_bind {First Second : Type} (first : Logged First)
    (next : First → Logged Second) :
    (first >>= next).events = first.events ++ (next first.result).events := rfl

@[simp] theorem result_tell (events : List Event) : (tell events).result = () := rfl

@[simp] theorem events_tell (events : List Event) : (tell events).events = events := rfl

end Logged

end LicenseSurvey
