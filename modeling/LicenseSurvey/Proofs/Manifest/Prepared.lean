import LicenseSurvey.Manifest.Reading
import Mathlib.Data.List.Induction

/-! # Manifests made ready for matching

A manifest can also be read tag by tag, with the patterns of each stanza made ready once, at
the end of its paragraph. The stanzas are the same, each has one ready pattern for each of its
files, and the same stanza is found for a path.
-/

namespace LicenseSurvey

open Manifest (plainText licenseName licenseText?)
open ManifestTag (lastText?)

/-! ## Tag by tag -/

theorem ManifestTag.lastText?_concat (field : ManifestField) (tags : List ManifestTag)
    (tag : ManifestTag) :
    lastText? field (tags ++ [tag]) =
      if tag.label = field then some tag.value.asText else lastText? field tags := by
  rw [lastText?, last?, List.filter_append]
  by_cases named : tag.label = field
  · simp [named]
  · simp [named, lastText?, last?]

namespace Stanza

def blank : Stanza := ⟨[], none, none, none, none⟩

def read (stanza : Stanza) (tag : ManifestTag) : Stanza :=
  let text := tag.value.asText
  match tag.label with
  | .files => { stanza with files := stanza.files ++ tag.value.asList }
  | .copyright => { stanza with copyright := some (plainText text) }
  | .comment => { stanza with comment := some (plainText text) }
  | .license =>
      { stanza with license := some (licenseName text), licenseText := licenseText? text }
  | .format | .upstreamName | .upstreamContact | .source | .disclaimer => stanza

theorem ofTags_concat (tags : List ManifestTag) (tag : ManifestTag) :
    ofTags (tags ++ [tag]) = (ofTags tags).read tag := by
  rcases tag with ⟨label, value⟩
  cases label <;> simp [ofTags, read, ManifestTag.lastText?_concat]

/-- Reading the tags one after the other comes to the same as looking for the last of each
kind. -/
theorem foldl_read (tags : List ManifestTag) : tags.foldl read blank = ofTags tags := by
  induction tags using List.reverseRecOn with
  | nil => rfl
  | append_singleton tags tag induction =>
      rw [List.foldl_append, induction, List.foldl_cons, List.foldl_nil, ofTags_concat]

end Stanza

/-! ## Ready patterns -/

structure PreparedStanza where
  stanza : Stanza
  patterns : List Wildcard

namespace PreparedStanza

def ofStanza (stanza : Stanza) : PreparedStanza := ⟨stanza, stanza.files.map Wildcard.ofText⟩

def ofParagraph (paragraph : Text) : PreparedStanza :=
  ofStanza ((ManifestTag.ofParagraph paragraph).foldl Stanza.read .blank)

def governs (prepared : PreparedStanza) (path : Text) : Bool :=
  prepared.patterns.any fun pattern => pattern.accepts path

theorem ofParagraph_eq (paragraph : Text) :
    ofParagraph paragraph = ofStanza (Stanza.ofParagraph paragraph) :=
  congrArg ofStanza (Stanza.foldl_read _)

theorem governs_ofStanza (stanza : Stanza) (path : Text) :
    (ofStanza stanza).governs path = stanza.governs path := by
  rw [governs, ofStanza, List.any_map]
  rfl

end PreparedStanza

structure PreparedManifest where
  header : ManifestHeader
  stanzas : List PreparedStanza

namespace PreparedManifest

def ofManifest (manifest : Manifest) : PreparedManifest :=
  ⟨manifest.header, manifest.stanzas.map PreparedStanza.ofStanza⟩

def parse (document : Text) : Except ManifestError PreparedManifest :=
  match Text.paragraphs document with
  | [] => .error .empty
  | first :: later => do
      let header ← ManifestHeader.ofTags (ManifestTag.ofParagraph first)
      return { header, stanzas := later.map PreparedStanza.ofParagraph }

def stanzaFor? (prepared : PreparedManifest) (path : Text) : Option PreparedStanza :=
  prepared.stanzas.find? fun stanza => stanza.governs path

theorem parse_eq (document : Text) :
    parse document = (Manifest.parse document).map ofManifest := by
  rw [parse, Manifest.parse]
  cases Text.paragraphs document with
  | nil => rfl
  | cons first later =>
      have stanzas : later.map PreparedStanza.ofParagraph =
          (later.map Stanza.ofParagraph).map PreparedStanza.ofStanza := by
        rw [List.map_map]
        exact List.map_congr_left fun paragraph _ => PreparedStanza.ofParagraph_eq paragraph
      dsimp only
      rw [stanzas]
      cases ManifestHeader.ofTags (ManifestTag.ofParagraph first) <;> rfl

theorem stanzaFor?_ofManifest (manifest : Manifest) (path : Text) :
    (ofManifest manifest).stanzaFor? path =
      (manifest.stanzaFor? path).map PreparedStanza.ofStanza := by
  have same : (fun stanza => PreparedStanza.governs stanza path) ∘ PreparedStanza.ofStanza =
      fun stanza => stanza.governs path :=
    funext fun stanza => PreparedStanza.governs_ofStanza stanza path
  rw [stanzaFor?, ofManifest, List.find?_map, same, Manifest.stanzaFor?]

theorem stanzas_ofManifest (manifest : Manifest) :
    (ofManifest manifest).stanzas.map PreparedStanza.stanza = manifest.stanzas := by
  rw [ofManifest, List.map_map]
  exact List.map_id manifest.stanzas

end PreparedManifest

end LicenseSurvey
