import LicenseSurvey.Proofs.Language.Lookup
import LicenseSurvey.Proofs.Text.Utf8
import Mathlib.Data.List.Nodup

/-! # Languages that claim a file

A language claims a file by its extension or by its name. The extension is asked first, and the
name only when no language claims the extension. No claim is lost by this, for no language of
the registry has the extension of a file name that is claimed as a whole. So a file has a
language when one language claims it, in whatever way, and no other one does.
-/

namespace LicenseSurvey.Language

/-! ## Claims -/

def ClaimsName (language : Language) (name : Bytes) : Prop :=
  (∃ extension ∈ (Path.extensionOfName? name).bind Text.decodeExact?,
      Text.lower extension ∈ language.extensions) ∨
    ∃ text ∈ Text.decodeExact? name, text ∈ language.fileNames

def Claims (language : Language) (path : Path) : Prop :=
  ∃ name ∈ Path.fileName? path, language.ClaimsName name

instance (language : Language) (name : Bytes) : Decidable (language.ClaimsName name) :=
  inferInstanceAs (Decidable (_ ∨ _))

instance (language : Language) (path : Path) : Decidable (language.Claims path) :=
  inferInstanceAs (Decidable (∃ name ∈ _, _))

def claimants (path : Path) : List Language :=
  registry.filter fun language => language.Claims path

def IsOnlyClaimant (language : Language) (path : Path) : Prop :=
  language ∈ registry ∧ language.Claims path ∧
    ∀ other ∈ registry, other.Claims path → other = language

/-- Two languages claim the file at a path. -/
def IsDisputed (path : Path) : Prop :=
  ∃ language ∈ registry, ∃ other ∈ registry,
    language ≠ other ∧ language.Claims path ∧ other.Claims path

/-! ## The registry as a whole -/

theorem nodup_names : (registry.map Language.name).Nodup := by decide +kernel

theorem extension_of_fileNames :
    ∀ language ∈ registry, ∀ name ∈ language.fileNames,
      ∀ extension ∈ (Path.extensionOfName? (Text.encode name)).bind Text.decodeExact?,
        claimingExtension extension = [] := by
  decide +kernel

section

variable {path : Path} {name : Bytes} {language : Language}

theorem nodup_claimants (path : Path) : (claimants path).Nodup :=
  (List.Nodup.of_map Language.name nodup_names).filter _

theorem mem_claimants_iff :
    language ∈ claimants path ↔ language ∈ registry ∧ language.Claims path := by
  rw [claimants, List.mem_filter, decide_eq_true_iff]

theorem claims_iff_of_fileName? (named : Path.fileName? path = some name) :
    language.Claims path ↔ language.ClaimsName name := by
  rw [Claims, named]
  simp

theorem claimants_of_fileName?_eq {other : Path}
    (same : Path.fileName? other = Path.fileName? path) : claimants other = claimants path := by
  apply List.filter_congr
  intro language _
  rw [decide_eq_decide, Claims, same, Claims]

theorem filter_fileNames (text : Option Text) :
    (registry.filter fun language => ∃ name ∈ text, name ∈ language.fileNames) =
      (text.map claimingFileName).getD [] := by
  cases text with
  | none => simp
  | some name => simp [claimingFileName, List.contains_eq_mem]

/-- When a claim by extension is found, no claim by name is passed over. -/
theorem claimants_eq (named : Path.fileName? path = some name) :
    claimants path =
      let extension := (Path.extensionOfName? name).bind Text.decodeExact?
      let byExtension := (extension.map claimingExtension).getD []
      if byExtension.isEmpty then ((Text.decodeExact? name).map claimingFileName).getD []
      else byExtension := by
  have claims (language : Language) : language.Claims path ↔ language.ClaimsName name :=
    claims_iff_of_fileName? named
  simp only [claimants, claims]
  cases extended : (Path.extensionOfName? name).bind Text.decodeExact? with
  | none =>
      rw [Option.map_none, Option.getD_none, List.isEmpty_nil, if_pos rfl, ← filter_fileNames]
      simp [ClaimsName, extended]
  | some extension =>
      rw [Option.map_some, Option.getD_some]
      by_cases unclaimed : claimingExtension extension = []
      · rw [unclaimed, List.isEmpty_nil, if_pos rfl, ← filter_fileNames]
        apply List.filter_congr
        intro language known
        have notHere := List.filter_eq_nil_iff.mp unclaimed language known
        rw [List.contains_eq_mem, decide_eq_true_iff] at notHere
        simp [ClaimsName, extended, notHere]
      · simp only [List.isEmpty_iff, unclaimed, if_false]
        apply List.filter_congr
        intro language known
        have notNamed : ¬∃ text ∈ Text.decodeExact? name, text ∈ language.fileNames := by
          rintro ⟨text, exact, member⟩
          rw [← Text.decodeExact?_eq_some_iff.mp exact] at extended
          exact unclaimed (extension_of_fileNames language known text member extension extended)
        simp only [ClaimsName, notNamed, or_false, extended, Option.mem_some_iff,
          exists_eq_left', List.contains_eq_mem]

theorem lookup_eq_only (path : Path) : lookup path = only path (claimants path) := by
  cases named : Path.fileName? path with
  | none =>
      have none : claimants path = [] := by
        simp [claimants, Claims, named]
      rw [none, lookup, Path.extension?, named]
      rfl
  | some name =>
      rw [claimants_eq named, lookup, Path.extension?, named]
      simp only [Option.bind_some]
      split <;> rfl

/-! ## One candidate, none, or several -/

theorem claimants_eq_singleton_iff :
    claimants path = [language] ↔ language.IsOnlyClaimant path := by
  rw [← List.perm_singleton,
    List.perm_ext_iff_of_nodup (nodup_claimants path) (List.nodup_singleton language)]
  simp only [List.mem_singleton, mem_claimants_iff, IsOnlyClaimant]
  constructor
  · intro same
    have here := (same language).mpr rfl
    exact ⟨here.1, here.2, fun other known claims => (same other).mp ⟨known, claims⟩⟩
  · intro alone other
    rcases alone with ⟨known, claims, others⟩
    constructor
    · intro candidate
      exact others other candidate.1 candidate.2
    · intro same
      exact same ▸ ⟨known, claims⟩

theorem claimants_eq_nil_iff :
    claimants path = [] ↔ ∀ language ∈ registry, ¬language.Claims path := by
  simp [claimants]

theorem two_le_length_claimants_iff : 2 ≤ (claimants path).length ↔ IsDisputed path := by
  have distinct := nodup_claimants path
  constructor
  · intro several
    cases found : claimants path with
    | nil => simp [found] at several
    | cons language others =>
        cases others with
        | nil => simp [found] at several
        | cons other more =>
            have first := mem_claimants_iff.mp (found ▸ List.mem_cons_self .. : language ∈ _)
            have second : other ∈ claimants path := by simp [found]
            rw [found, List.nodup_cons] at distinct
            have different : language ≠ other := fun same =>
              distinct.1 (same ▸ List.mem_cons_self ..)
            rcases mem_claimants_iff.mp second with ⟨known, claims⟩
            exact ⟨language, first.1, other, known, different, first.2, claims⟩
  · intro disputed
    rcases disputed with ⟨language, known, other, otherKnown, different, claims, otherClaims⟩
    have first := mem_claimants_iff.mpr ⟨known, claims⟩
    have second := mem_claimants_iff.mpr ⟨otherKnown, otherClaims⟩
    cases found : claimants path with
    | nil => simp [found] at first
    | cons candidate others =>
        cases others with
        | nil =>
            rw [found, List.mem_singleton] at first second
            exact absurd (first.trans second.symm) different
        | cons next more => simp

theorem only_eq_unclaimed_iff {candidates : List Language} :
    only path candidates = .error (.unclaimed path) ↔ candidates = [] := by
  match candidates with
  | [] => simp [only]
  | [_] => simp [only]
  | _ :: _ :: _ => simp [only]

theorem only_eq_ambiguous_iff {candidates : List Language} {names : List Text} :
    only path candidates = .error (.ambiguous path names) ↔
      2 ≤ candidates.length ∧ names = candidates.map Language.name := by
  match candidates with
  | [] => simp [only]
  | [_] => simp [only]
  | _ :: _ :: _ => simp [only, eq_comm]

def LookupError.about (path : Path) : LookupError → LookupError
  | .unclaimed _ => .unclaimed path
  | .ambiguous _ candidates => .ambiguous path candidates

theorem only_about (path other : Path) (candidates : List Language) :
    only other candidates = (only path candidates).mapError (.about other) := by
  match candidates with
  | [] => rfl
  | [_] => rfl
  | _ :: _ :: _ => rfl

theorem lookup_about {other : Path} (same : Path.fileName? other = Path.fileName? path) :
    lookup other = (lookup path).mapError (.about other) := by
  rw [lookup_eq_only, lookup_eq_only, claimants_of_fileName?_eq same]
  exact only_about path other (claimants path)

theorem isSupported_iff : isSupported path = true ↔ ∃ language, lookup path = .ok language := by
  rw [isSupported]
  cases lookup path with
  | ok language => simp
  | error error => simp

end

/-- A file has the language that claims it, when no other language does. It has none when no
language claims it, and when several do they are all candidates, in the order of the registry.
The directories in front of the file name are not asked. -/
theorem lookup_by_claims (path : Path) :
    (∀ language, lookup path = .ok language ↔ language.IsOnlyClaimant path) ∧
      (lookup path = .error (.unclaimed path) ↔
        ∀ language ∈ registry, ¬language.Claims path) ∧
      (∀ candidates, lookup path = .error (.ambiguous path candidates) ↔
        IsDisputed path ∧ candidates = (claimants path).map Language.name) ∧
      (isSupported path = true ↔ ∃ language : Language, language.IsOnlyClaimant path) ∧
      (∀ other, Path.fileName? other = Path.fileName? path →
        lookup other = (lookup path).mapError (.about other)) ∧
      ∀ directory, Path.IsName path →
        lookup (Path.join directory path) =
          (lookup path).mapError (.about (Path.join directory path)) := by
  have found (language : Language) :
      lookup path = .ok language ↔ language.IsOnlyClaimant path := by
    rw [lookup_eq_only, only_eq_ok_iff, claimants_eq_singleton_iff]
  refine ⟨found, ?_, ?_, ?_, fun other => lookup_about, ?_⟩
  · rw [lookup_eq_only, only_eq_unclaimed_iff, claimants_eq_nil_iff]
  · intro candidates
    rw [lookup_eq_only, only_eq_ambiguous_iff, two_le_length_claimants_iff]
  · rw [isSupported_iff]
    exact exists_congr found
  · intro directory isName
    apply lookup_about
    rw [Path.fileName?_join directory isName, eq_comm, Path.fileName?_eq_some_iff]
    exact Path.getLast?_components isName [] (Path.splitBy_of_isName isName)

/-- Two languages share an extension, and directories do not decide between them. -/
theorem lookup_by_claims_of_disputed_script :
    let script := Path.ofText "script.PL".toList
    let inLibrary := Path.ofText "lib/script.PL".toList
    Path.IsName script ∧ IsDisputed script ∧
      lookup inLibrary = .error (.ambiguous inLibrary ["Perl".toList, "Prolog".toList]) := by
  intro script inLibrary
  have isName : Path.IsName script := ⟨by decide, by decide⟩
  have candidates : lookup script =
      .error (.ambiguous script ["Perl".toList, "Prolog".toList]) := by
    decide +kernel
  rcases lookup_by_claims script with ⟨-, -, several, -, -, inDirectory⟩
  have disputed := ((several _).mp candidates).1
  refine ⟨isName, disputed, ?_⟩
  have placed := inDirectory (Path.ofText "lib".toList) isName
  rw [candidates] at placed
  exact placed

end LicenseSurvey.Language
