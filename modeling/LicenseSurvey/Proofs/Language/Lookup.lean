import LicenseSurvey.Language.Lookup
import LicenseSurvey.Proofs.Path.FileName

/-! # Languages that files have

A file has a language only when that language alone claims its extension or its name.
So not every language of the registry is the language of a file: one whose every claim
is disputed never is. And since the name decides, a file has the same language under
its path beneath a root.
-/

namespace LicenseSurvey.Language

/-- The language claims an extension or a file name that no other one claims. -/
def ClaimsAlone (language : Language) : Prop :=
  (∃ extension ∈ language.extensions,
      (registry.filter fun other => other.extensions.contains extension) = [language]) ∨
    ∃ name ∈ language.fileNames, claimingFileName name = [language]

theorem only_eq_ok_iff {path : Path} {candidates : List Language} {language : Language} :
    only path candidates = .ok language ↔ candidates = [language] := by
  match candidates with
  | [] => simp [only]
  | [_] => simp [only]
  | _ :: _ :: _ => simp [only]

theorem claimsAlone_of_claimingExtension {extension : Text} {language : Language}
    (alone : claimingExtension extension = [language]) : language.ClaimsAlone := by
  have member : language ∈ claimingExtension extension := by
    rw [alone]
    exact List.mem_singleton_self language
  have claims := (List.mem_filter.mp member).2
  exact .inl ⟨Text.lower extension, List.contains_iff_mem.mp claims, alone⟩

theorem claimsAlone_of_claimingFileName {name : Text} {language : Language}
    (alone : claimingFileName name = [language]) : language.ClaimsAlone := by
  have member : language ∈ claimingFileName name := by
    rw [alone]
    exact List.mem_singleton_self language
  have claims := (List.mem_filter.mp member).2
  exact .inr ⟨name, List.contains_iff_mem.mp claims, alone⟩

theorem claimsAlone_of_lookup {path : Path} {language : Language}
    (known : lookup path = .ok language) : language.ClaimsAlone := by
  rw [lookup] at known
  split at known
  · have candidates := only_eq_ok_iff.mp known
    cases named : path.fileName?.bind Text.decodeExact? with
    | none => simp [named] at candidates
    | some name =>
        rw [named, Option.map_some, Option.getD_some] at candidates
        exact claimsAlone_of_claimingFileName candidates
  · have candidates := only_eq_ok_iff.mp known
    cases extended : path.extension?.bind Text.decodeExact? with
    | none => simp [extended] at candidates
    | some extension =>
        rw [extended, Option.map_some, Option.getD_some] at candidates
        exact claimsAlone_of_claimingExtension candidates

theorem ClaimsAlone.mem_registry {language : Language} (alone : language.ClaimsAlone) :
    language ∈ registry := by
  rcases alone with ⟨extension, -, only⟩ | ⟨name, -, only⟩
  · have member := List.mem_singleton_self language
    rw [← only] at member
    exact (List.mem_filter.mp member).1
  · have member := List.mem_singleton_self language
    rw [← only] at member
    exact (List.mem_filter.mp member).1

/-- Objective-C claims the only extension of MATLAB too. -/
theorem ClaimsAlone.name_ne_matlab {language : Language} (alone : language.ClaimsAlone) :
    language.name ≠ "MATLAB".toList := by
  have disputed : ∀ language ∈ registry, language.name = "MATLAB".toList →
      language.fileNames = [] ∧ ∀ extension ∈ language.extensions,
        (registry.filter fun other => other.extensions.contains extension) ≠ [language] := by
    decide +kernel
  intro named
  obtain ⟨noNames, extensions⟩ := disputed language alone.mem_registry named
  rcases alone with ⟨extension, member, only⟩ | ⟨name, member, -⟩
  · exact extensions extension member only
  · simp [noNames] at member

/-! ## Names decide -/

theorem exists_fileName?_of_lookup {path : Path} {language : Language}
    (known : lookup path = .ok language) : ∃ name, Path.fileName? path = some name := by
  cases named : Path.fileName? path with
  | none => simp [lookup, Path.extension?, named, only] at known
  | some name => exact ⟨name, rfl⟩

theorem lookup_of_fileName?_eq {path other : Path} {language : Language}
    (same : Path.fileName? other = Path.fileName? path) (known : lookup path = .ok language) :
    lookup other = .ok language := by
  rw [lookup, Path.extension?] at known ⊢
  rw [same]
  split at known
  · rename_i unclaimed
    rw [if_pos unclaimed, only_eq_ok_iff]
    exact only_eq_ok_iff.mp known
  · rename_i claimed
    rw [if_neg claimed, only_eq_ok_iff]
    exact only_eq_ok_iff.mp known

theorem lookup_of_relativeTo {root path relative : Path} {language : Language}
    (placed : Path.relativeTo root path = .ok relative) (known : lookup path = .ok language) :
    lookup relative = .ok language := by
  obtain ⟨name, named⟩ := exists_fileName?_of_lookup known
  have kept := Path.fileName?_of_relativeTo placed named
  exact lookup_of_fileName?_eq (kept.trans named.symm) known

end LicenseSurvey.Language
