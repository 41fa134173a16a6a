import LicenseSurvey.Path

/-! # Exclusion patterns

In a pattern `?` stands for one character and `*` for any run of characters, the
slash included. A bracket class stands for one of its members, or for any other
character when it starts with `!`. Two stars stand for any number of whole path
components and must themselves be a component. A path is excluded when a pattern
matches all of its text or its file name.
-/

namespace LicenseSurvey.Glob

/-! ## Patterns -/

inductive Member where
  | single (character : Char)
  | range (first last : Char)
deriving DecidableEq, Repr

def Member.holds (character : Char) : Member → Bool
  | .single expected => character == expected
  | .range first last => first ≤ character && character ≤ last

inductive Part where
  | literal (character : Char)
  | anyCharacter
  /-- A class of characters, or all others when `negated`. -/
  | oneOf (negated : Bool) (members : List Member)
  | anyRun
  | anyComponents
deriving DecidableEq, Repr

inductive Mistake where
  | starRun
  | partialComponent
  | openClass
deriving DecidableEq, Repr

structure PatternError where
  position : Nat
  mistake : Mistake
deriving DecidableEq, Repr

def Mistake.message : Mistake → Text
  | .starRun => "wildcards are either regular `*` or recursive `**`".toList
  | .partialComponent => "recursive wildcards must form a single path component".toList
  | .openClass => "invalid range pattern".toList

def PatternError.message (error : PatternError) : Text :=
  "Pattern syntax error near position ".toList ++ Nat.toDigits 10 error.position ++
    ": ".toList ++ error.mistake.message

/-! ## Reading a pattern -/

def members : Text → List Member
  | first :: '-' :: last :: rest => .range first last :: members rest
  | character :: rest => .single character :: members rest
  | [] => []

/-- The class after an opening bracket, and the text after it. The first
character behind the bracket, or behind `!`, never closes the class. -/
def class? (text : Text) : Option (Part × Text) :=
  match text with
  | '!' :: first :: rest =>
      match rest.dropWhile (· != ']') with
      | _ :: after =>
          some (.oneOf true (members (first :: rest.takeWhile (· != ']'))), after)
      | [] => none
  | ['!'] => none
  | first :: rest =>
      match rest.dropWhile (· != ']') with
      | _ :: after =>
          some (.oneOf false (members (first :: rest.takeWhile (· != ']'))), after)
      | [] => none
  | [] => none

theorem length_dropWhile_le {α : Type} (holds : α → Bool) (elements : List α) :
    (elements.dropWhile holds).length ≤ elements.length :=
  (List.dropWhile_sublist holds).length_le

theorem length_lt_of_class? {text after : Text} {part : Part}
    (found : class? text = some (part, after)) : after.length < text.length := by
  unfold class? at found
  split at found
  case h_1 first rest =>
    have bound := length_dropWhile_le (· != ']') rest
    split at found
    · rename_i equal
      rw [equal] at bound
      simp only [List.length_cons] at bound
      simp only [Option.some.injEq, Prod.mk.injEq] at found
      simp only [← found.2, List.length_cons]
      omega
    · simp at found
  case h_2 => simp at found
  case h_3 first rest _ _ =>
    have bound := length_dropWhile_le (· != ']') rest
    split at found
    · rename_i equal
      rw [equal] at bound
      simp only [List.length_cons] at bound
      simp only [Option.some.injEq, Prod.mk.injEq] at found
      simp only [← found.2, List.length_cons]
      omega
    · simp at found
  case h_4 => simp at found

/-- The parts of a pattern from `position` on. `startsComponent` says that a slash
or nothing stands before the position. -/
def partsFrom (position : Nat) (startsComponent : Bool) (pattern : Text) :
    Except PatternError (List Part) :=
  match pattern with
  | [] => .ok []
  | '?' :: rest => return .anyCharacter :: (← partsFrom (position + 1) false rest)
  | '[' :: rest =>
      match found : class? rest with
      | none => .error ⟨position, .openClass⟩
      | some (part, after) =>
          have := length_lt_of_class? found
          return part :: (← partsFrom (position + 1 + (rest.length - after.length)) false after)
  | '*' :: '*' :: '*' :: _ => .error ⟨position + 2, .starRun⟩
  | '*' :: '*' :: rest =>
      if startsComponent then
        match rest with
        | [] => .ok [.anyComponents]
        | '/' :: after => return .anyComponents :: (← partsFrom (position + 3) true after)
        | _ :: _ => .error ⟨position + 2, .partialComponent⟩
      else
        .error ⟨position - 1, .partialComponent⟩
  | '*' :: rest => return .anyRun :: (← partsFrom (position + 1) false rest)
  | character :: rest =>
      return .literal character :: (← partsFrom (position + 1) (character == '/') rest)
termination_by pattern.length
decreasing_by all_goals simp_wf <;> omega

def parse (pattern : Text) : Except PatternError (List Part) := partsFrom 0 true pattern

/-! ## Matching

The matcher goes through the parts from the last to the first. For each part it
computes, for every end piece of the text at once, whether the parts from there
on match that end piece; the answers form a list that is one longer than the
text. So the work is the product of the two lengths.
-/

def Part.accepts (character : Char) : Part → Bool
  | .literal expected => character == expected
  | .anyCharacter => true
  | .oneOf negated members => members.any (Member.holds character) != negated
  | .anyRun => false
  | .anyComponents => false

def oneRow (accepts : Char → Bool) : Text → List Bool → List Bool
  | character :: rest, _ :: next :: answers =>
      (accepts character && next) :: oneRow accepts rest (next :: answers)
  | _, _ => [false]

def runRow : List Bool → List Bool
  | [] => []
  | answer :: answers =>
      let row := runRow answers
      (answer || row.head?.getD false) :: row

def laterRow : Text → List Bool → List Bool
  | character :: rest, _ :: next :: answers =>
      let row := laterRow rest (next :: answers)
      ((character == '/' && next) || row.head?.getD false) :: row
  | _, answers => answers.take 1

def Part.row (text : Text) (answers : List Bool) : Part → List Bool
  | .anyRun => runRow answers
  | .anyComponents => List.zipWith (· || ·) answers (laterRow text answers)
  | part => oneRow (part.accepts ·) text answers

def holds (parts : List Part) (text : Text) : Bool :=
  let atEnd := text.map (fun _ => false) ++ [true]
  ((parts.foldr (fun part answers => part.row text answers) atEnd).head?).getD false

def excludes (parts : List Part) (path : Path) : Bool :=
  holds parts path.text || holds parts (Text.decode (path.fileName?.getD []))

def anyExcludes (patterns : List (List Part)) (path : Path) : Bool :=
  patterns.any fun parts => excludes parts path

end LicenseSurvey.Glob
