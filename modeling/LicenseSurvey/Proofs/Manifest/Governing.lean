import LicenseSurvey.Proofs.Manifest.Prepared
import LicenseSurvey.Proofs.Wildcard.Filling

/-! # The stanza of a path

A stanza lists a path when one of its patterns stands for it, and the first stanza that lists
a path governs it. That is so for every path of one line, and whether the patterns are made
ready beforehand makes no difference.
-/

namespace LicenseSurvey

variable {path : Text}

def Stanza.Lists (stanza : Stanza) (path : Text) : Prop :=
  ∃ pattern ∈ stanza.files,
    Wildcard.patternSize pattern ≤ Wildcard.sizeLimit ∧ Wildcard.Fits pattern path

theorem Stanza.governs_iff_lists {stanza : Stanza} (oneLine : '\n' ∉ path) :
    stanza.governs path = true ↔ stanza.Lists path := by
  rw [governs, List.any_eq_true, Lists]
  constructor
  · rintro ⟨pattern, member, accepted⟩
    by_cases small : Wildcard.patternSize pattern ≤ Wildcard.sizeLimit
    · exact ⟨pattern, member, small, (Wildcard.accepts_ofText_iff_fits small oneLine).mp accepted⟩
    · rw [Wildcard.accepts_ofText_of_lt (Nat.lt_of_not_le small)] at accepted
      cases accepted
  · rintro ⟨pattern, member, small, fits⟩
    exact ⟨pattern, member, (Wildcard.accepts_ofText_iff_fits small oneLine).mpr fits⟩

namespace Manifest

variable {manifest : Manifest} {index : Nat} {stanza : Stanza}

structure ListsFirst (manifest : Manifest) (path : Text) (index : Nat) (stanza : Stanza) :
    Prop where
  here : manifest.stanzas[index]? = some stanza
  lists : stanza.Lists path
  first : ∀ earlier < index, ∀ other, manifest.stanzas[earlier]? = some other →
    ¬other.Lists path

theorem stanzaFor?_eq_some_iff (oneLine : '\n' ∉ path) :
    manifest.stanzaFor? path = some stanza ↔ ∃ index, manifest.ListsFirst path index stanza := by
  rw [stanzaFor?, List.find?_eq_some_iff_getElem, Stanza.governs_iff_lists oneLine]
  constructor
  · rintro ⟨lists, index, inside, here, before⟩
    refine ⟨index, List.getElem?_eq_some_iff.mpr ⟨inside, here⟩, lists, ?_⟩
    intro earlier less other there listed
    rcases List.getElem?_eq_some_iff.mp there with ⟨_, rfl⟩
    have refused := before earlier less
    rw [(Stanza.governs_iff_lists oneLine).mpr listed] at refused
    cases refused
  · rintro ⟨index, here, lists, first⟩
    rcases List.getElem?_eq_some_iff.mp here with ⟨inside, found⟩
    refine ⟨lists, index, inside, found, ?_⟩
    intro earlier less
    have silent := first earlier less _ (List.getElem?_eq_getElem (Nat.lt_trans less inside))
    rwa [← Stanza.governs_iff_lists oneLine, Bool.not_eq_true, ← Bool.not_eq_true'] at silent

theorem stanzaFor?_eq_none_iff (oneLine : '\n' ∉ path) :
    manifest.stanzaFor? path = none ↔ ∀ stanza ∈ manifest.stanzas, ¬stanza.Lists path := by
  rw [stanzaFor?, List.find?_eq_none]
  simp only [Stanza.governs_iff_lists oneLine]

/-- A pattern below the size limit accepts exactly the paths of one line that it stands for.
So in a manifest that was read, the stanza for such a path is the first one that lists it, and
there is none when no stanza lists it. With the patterns made ready beforehand, each stanza
has one for each of its files, and for every path the same stanza is found. -/
theorem stanza_for_path :
    (∀ pattern path, Wildcard.patternSize pattern ≤ Wildcard.sizeLimit → '\n' ∉ path →
      ((Wildcard.ofText pattern).accepts path = true ↔ Wildcard.Fits pattern path)) ∧
    ∀ document manifest, parse document = .ok manifest →
      (∀ path, '\n' ∉ path →
        (∀ stanza, manifest.stanzaFor? path = some stanza ↔
          ∃ index, manifest.ListsFirst path index stanza) ∧
        (manifest.stanzaFor? path = none ↔ ∀ stanza ∈ manifest.stanzas, ¬stanza.Lists path)) ∧
      ∃ prepared, PreparedManifest.parse document = .ok prepared ∧
        prepared.header = manifest.header ∧
        prepared.stanzas.map PreparedStanza.stanza = manifest.stanzas ∧
        (∀ ready ∈ prepared.stanzas,
          ready.patterns = ready.stanza.files.map Wildcard.ofText) ∧
        ∀ path, (prepared.stanzaFor? path).map PreparedStanza.stanza =
          manifest.stanzaFor? path := by
  constructor
  · intro pattern path small oneLine
    exact Wildcard.accepts_ofText_iff_fits small oneLine
  · intro document manifest read
    constructor
    · intro path oneLine
      exact ⟨fun _ => stanzaFor?_eq_some_iff oneLine, stanzaFor?_eq_none_iff oneLine⟩
    · refine ⟨.ofManifest manifest, ?_, rfl, PreparedManifest.stanzas_ofManifest manifest, ?_, ?_⟩
      · rw [PreparedManifest.parse_eq, read]
        rfl
      · intro ready member
        rcases List.mem_map.mp member with ⟨stanza, -, rfl⟩
        rfl
      · intro path
        rw [PreparedManifest.stanzaFor?_ofManifest, Option.map_map]
        exact Option.map_id'

private def overlapping : Text :=
  "Format: f\n\nFiles: src/*.c\nLicense: MIT\n\nFiles: * src/a?*\nLicense: ISC".toList

private def narrow : Stanza := ⟨["src/*.c".toList], none, none, some "MIT".toList, none⟩

private def wide : Stanza :=
  ⟨["*".toList, "src/a?*".toList], none, none, some "ISC".toList, none⟩

/-- The later stanza lists the path by two patterns, but the earlier one governs it. -/
theorem stanza_for_path_of_overlapping :
    Wildcard.Fits "src/a?*".toList "src/a?.c".toList ∧
    ∃ manifest, parse overlapping = .ok manifest ∧
      manifest.stanzaFor? "src/a?.c".toList = some narrow ∧
      (∃ index, manifest.ListsFirst "src/a?.c".toList index narrow) ∧
      ∃ prepared, PreparedManifest.parse overlapping = .ok prepared ∧
        (prepared.stanzaFor? "src/a?.c".toList).map PreparedStanza.stanza = some narrow := by
  have read : parse overlapping =
      .ok ⟨⟨"f".toList, none, [], none, none, none, none, none⟩, [narrow, wide]⟩ := by
    decide
  have accepted : (Wildcard.ofText "src/a?*".toList).accepts "src/a?.c".toList = true := by
    decide
  rcases stanza_for_path with ⟨fits, governed⟩
  rcases governed overlapping _ read with ⟨stanzas, prepared, ready, -, -, -, same⟩
  have found := (stanzas "src/a?.c".toList (by decide)).1 narrow
  refine ⟨(fits _ _ (by decide) (by decide)).mp accepted, _, read, by decide,
    found.mp (by decide), prepared, ready, ?_⟩
  rw [same]
  decide

end Manifest

end LicenseSurvey
