import LicenseSurvey.Proofs.Report.Document
import LicenseSurvey.Proofs.Resolver.Bulk
import LicenseSurvey.Survey

/-! # Accounting for candidates

No candidate is lost and none is counted twice. Each one is excluded, has a record or has an
error, whatever patterns and failures there are and however often it is named, and the three
numbers of a report are what the candidates come to.
-/

namespace LicenseSurvey

/-! ## Excluded candidates -/

namespace Candidates

variable {patterns : List Text} {candidate : Path} {candidates : List Path}

/-- Some usable pattern matches the candidate or its file name. A candidate without a file name
counts as one whose name is empty. -/
def IsExcluded (patterns : List Text) (candidate : Path) : Prop :=
  ∃ pattern ∈ patterns, ∃ parts, Glob.parse pattern = .ok parts ∧
    (Glob.holds parts candidate.text = true ∨
      Glob.holds parts (Path.text ((Path.fileName? candidate).getD [])) = true)

theorem toOption_parse_eq_some_iff {pattern : Text} {parts : List Glob.Part} :
    (Glob.parse pattern).toOption = some parts ↔ Glob.parse pattern = .ok parts := by
  cases Glob.parse pattern with
  | ok found => simp [Except.toOption]
  | error error => simp [Except.toOption]

theorem isExcluded_iff : isExcluded patterns candidate = true ↔ IsExcluded patterns candidate := by
  simp only [isExcluded, Glob.anyExcludes, Glob.excludes, List.any_eq_true, List.mem_filterMap,
    toOption_parse_eq_some_iff, Bool.or_eq_true, IsExcluded]
  constructor
  · rintro ⟨parts, ⟨pattern, member, parsed⟩, holds⟩
    exact ⟨pattern, member, parts, parsed, holds⟩
  · rintro ⟨pattern, member, parts, parsed, holds⟩
    exact ⟨parts, ⟨pattern, member, parsed⟩, holds⟩

theorem kept_cons_of_excluded (excluded : isExcluded patterns candidate = true) :
    kept patterns (candidate :: candidates) = kept patterns candidates := by
  simp [kept, excluded]

theorem kept_cons_of_not_excluded (notExcluded : ¬ isExcluded patterns candidate = true) :
    kept patterns (candidate :: candidates) = candidate :: kept patterns candidates := by
  simp [kept, notExcluded]

theorem excludedCount_cons_of_excluded (excluded : isExcluded patterns candidate = true) :
    excludedCount patterns (candidate :: candidates) = excludedCount patterns candidates + 1 := by
  have atMost : (kept patterns candidates).length ≤ candidates.length :=
    List.length_filter_le _ candidates
  rw [excludedCount, excludedCount, kept_cons_of_excluded excluded, List.length_cons]
  omega

theorem excludedCount_cons_of_not_excluded
    (notExcluded : ¬ isExcluded patterns candidate = true) :
    excludedCount patterns (candidate :: candidates) = excludedCount patterns candidates := by
  rw [excludedCount, excludedCount, kept_cons_of_not_excluded notExcluded, List.length_cons,
    List.length_cons, Nat.add_sub_add_right]

end Candidates

/-! ## What becomes of each candidate -/

namespace Survey

/-- The candidates, one after the other, with the number of those that are excluded, the
records and the texts of the errors. -/
inductive Accounted (files : FileView) (resolver : Resolver) (patterns : List Text) :
    List Path → Nat → List FileRecord → List Text → Prop
  | none : Accounted files resolver patterns [] 0 [] []
  | excluded {candidate : Path} {candidates : List Path} {count : Nat}
      {records : List FileRecord} {errors : List Text}
      (matched : Candidates.IsExcluded patterns candidate)
      (later : Accounted files resolver patterns candidates count records errors) :
      Accounted files resolver patterns (candidate :: candidates) (count + 1) records errors
  | record {candidate : Path} {candidates : List Path} {count : Nat}
      {records : List FileRecord} {errors : List Text} {record : FileRecord}
      (notMatched : ¬ Candidates.IsExcluded patterns candidate)
      (resolved : (resolver.resolve files candidate).result = .ok record)
      (later : Accounted files resolver patterns candidates count records errors) :
      Accounted files resolver patterns (candidate :: candidates) count (record :: records) errors
  | error {candidate : Path} {candidates : List Path} {count : Nat}
      {records : List FileRecord} {errors : List Text} {failure : Failure}
      (notMatched : ¬ Candidates.IsExcluded patterns candidate)
      (failed : (resolver.resolve files candidate).result = .error failure)
      (later : Accounted files resolver patterns candidates count records errors) :
      Accounted files resolver patterns (candidate :: candidates) count records
        ((candidate.text ++ ": ".toList ++ failure.message) :: errors)

variable {files : FileView} {resolver : Resolver} {patterns : List Text}
  {candidates : List Path} {count : Nat} {records : List FileRecord} {errors : List Text}

theorem Accounted.length_eq
    (accounted : Accounted files resolver patterns candidates count records errors) :
    count + records.length + errors.length = candidates.length := by
  induction accounted with
  | none => rfl
  | excluded _ _ induction
  | record _ _ _ induction
  | error _ _ _ induction =>
      simp only [List.length_cons]
      omega

theorem accounted_resolution (files : FileView) (resolver : Resolver) (patterns : List Text)
    (candidates : List Path) :
    Accounted files resolver patterns candidates (Candidates.excludedCount patterns candidates)
      (resolver.resolution files (Candidates.kept patterns candidates)).files
      ((resolver.resolution files (Candidates.kept patterns candidates)).errors.map
        FileError.message) := by
  rw [Resolver.files_resolution, Resolver.errors_resolution]
  induction candidates with
  | nil => exact .none
  | cons candidate candidates induction =>
      -- A case for each constructor: the filters of the report drop or keep the same candidate.
      by_cases excluded : Candidates.isExcluded patterns candidate = true
      · rw [Candidates.excludedCount_cons_of_excluded excluded,
          Candidates.kept_cons_of_excluded excluded]
        exact .excluded (Candidates.isExcluded_iff.mp excluded) induction
      · rw [Candidates.excludedCount_cons_of_not_excluded excluded,
          Candidates.kept_cons_of_not_excluded excluded]
        have notMatched := excluded ∘ Candidates.isExcluded_iff.mpr
        cases outcome : (resolver.resolve files candidate).result with
        | ok record =>
            rw [List.filterMap_cons_some (Resolver.record?_of_ok outcome),
              List.filterMap_cons_none (Resolver.error?_of_ok outcome)]
            exact .record notMatched outcome induction
        | error failure =>
            rw [List.filterMap_cons_none (Resolver.record?_of_error outcome),
              List.filterMap_cons_some (Resolver.error?_of_error outcome)]
            exact .error notMatched outcome induction

end Survey

/-! ## Reports -/

def Json.member? (name : String) : Json → Option Json
  | .object fields => fields.lookup name.toList
  | _ => none

namespace Survey

/-- The three numbers in a report account for every candidate: what its only header counts as
excluded, the records, which are as many as it says, and its errors. The text of the report is
read back as its document. -/
theorem accounted_report (surroundings : Surroundings) (invocation : Invocation)
    (environment : Environment) (start stop : Instant) (candidates : List Path)
    (resolver : Resolver) :
    let made :=
      (report surroundings invocation environment start stop candidates resolver).result
    ∃ excludedCount records errors header extraData,
      Accounted surroundings.files resolver invocation.excludes candidates excludedCount records
        errors ∧
      excludedCount + records.length + errors.length = candidates.length ∧
      made.excludedCount = excludedCount ∧
      made.resolution.files = records ∧
      made.resolution.errors.map FileError.message = errors ∧
      Json.read? made.text = some made.json ∧
      made.json.member? "headers" = some (.list [header]) ∧
      made.json.member? "files" = some (.list (records.map FileRecord.json)) ∧
      header.member? "errors" = some (.list (errors.map .text)) ∧
      header.member? "extra_data" = some extraData ∧
      extraData.member? "excluded_count" = some (.number (Nat.toDigits 10 excludedCount)) ∧
      extraData.member? "files_count" = some (.number (Nat.toDigits 10 records.length)) := by
  intro made
  have accounted :=
    accounted_resolution surroundings.files resolver invocation.excludes candidates
  exact ⟨_, _, _, _, _, accounted, accounted.length_eq, rfl, rfl, rfl, made.read?_text,
    rfl, rfl, rfl, rfl, rfl, rfl⟩

end Survey

end LicenseSurvey
