import LicenseSurvey.Proofs.Path.Normal
import LicenseSurvey.Proofs.Resolver.Precedence

/-! # One name for each file

A file beneath the root has one form of its path, whichever way the path is spelled. The
manifest is asked for the file under what is shown of this form, and the record of the file is
named after it. Two files whose paths are texts never share either; names that are no texts
may be shown alike.
-/

namespace LicenseSurvey

open LicenseSurvey.Path (Leads StepsFrom IsNormal IsText isAbsolute components relativeTo join
  slashed ofNames ofText)

namespace Resolver

theorem exists_path_eq_of_resolve {files : FileView} {resolver : Resolver} {path : Path}
    {record : FileRecord} (resolved : (resolver.resolve files path).result = .ok record) :
    ∃ form, relativeTo resolver.root path = .ok form ∧
      record.path = "./".toList ++ slashed form := by
  rcases exists_sources_of_resolve resolved with ⟨form, content, beside, placed, -, -, rfl⟩
  rw [applyManifest_eq, FileRecord.withSource_eq_withTags, FileRecord.withSource_eq_withTags]
  exact ⟨form, placed, rfl⟩

/-- The paths beneath a root and their forms. A path has a form exactly when its steps from
the root lead to some names, and these are the form. The form is normal, and joining a
relative path to the root does not change it. Among the forms that are texts, neither what
is shown of one nor the path of a record stands for two. -/
theorem paths_have_normal_forms {root : Path} (absolute : isAbsolute root = true) :
    (∀ path form, relativeTo root path = .ok form ↔
      ∃ steps names, StepsFrom root path steps ∧ Leads [] steps names ∧ names ≠ [] ∧
        form = ofNames names ∧ components form = names.map .name) ∧
    (∀ path form, relativeTo root path = .ok form → IsNormal root form) ∧
    (∀ path form, isAbsolute path = false →
      (relativeTo root (join root path) = .ok form ↔ relativeTo root path = .ok form)) ∧
    (∀ path other form otherForm, relativeTo root path = .ok form →
      relativeTo root other = .ok otherForm → form.IsText → otherForm.IsText →
        slashed form = slashed otherForm → form = otherForm) ∧
    ∀ (files : FileView) (resolver : Resolver) path other form otherForm record otherRecord,
      resolver.root = root → relativeTo root path = .ok form →
        relativeTo root other = .ok otherForm → form.IsText → otherForm.IsText →
          (resolver.resolve files path).result = .ok record →
            (resolver.resolve files other).result = .ok otherRecord →
              record.path = otherRecord.path → form = otherForm := by
  have normal : ∀ path form, relativeTo root path = .ok form → IsNormal root form := by
    intro path form placed
    rcases Path.exists_names_of_relativeTo absolute placed with ⟨names, each, notEmpty, rfl⟩
    exact Path.isNormal_ofNames absolute each notEmpty
  have unique : ∀ path other form otherForm, relativeTo root path = .ok form →
      relativeTo root other = .ok otherForm → form.IsText → otherForm.IsText →
        slashed form = slashed otherForm → form = otherForm := by
    intro path other form otherForm placed otherPlaced isText otherIsText same
    rw [(normal path form placed).slashed_eq, (normal other otherForm otherPlaced).slashed_eq]
      at same
    rw [← isText.ofText_text, same, otherIsText.ofText_text]
  refine ⟨?_, normal, fun path form => Path.relativeTo_join_eq_ok_iff absolute, unique, ?_⟩
  · intro path form
    constructor
    · intro placed
      rcases Path.relativeTo_eq_ok_iff.mp placed with ⟨steps, taken, -⟩
      rcases (Path.relativeTo_eq_ok_iff_of_stepsFrom absolute taken).mp placed with
        ⟨names, leads, notEmpty, rfl⟩
      have each := leads.isName (by simp) fun name member => taken.isName member
      exact ⟨steps, names, taken, leads, notEmpty, rfl, Path.components_ofNames each notEmpty⟩
    · rintro ⟨steps, names, taken, leads, notEmpty, joined, -⟩
      apply (Path.relativeTo_eq_ok_iff_of_stepsFrom absolute taken).mpr
      exact ⟨names, leads, notEmpty, joined⟩
  · rintro files resolver path other form otherForm record otherRecord rfl placed otherPlaced
      isText otherIsText resolved otherResolved same
    rcases exists_path_eq_of_resolve resolved with ⟨shown, shownPlaced, named⟩
    rcases exists_path_eq_of_resolve otherResolved with ⟨otherShown, otherShownPlaced, otherNamed⟩
    rcases Except.ok.inj (placed.symm.trans shownPlaced) with rfl
    rcases Except.ok.inj (otherPlaced.symm.trans otherShownPlaced) with rfl
    rw [named, otherNamed, List.append_cancel_left_eq] at same
    exact unique path other form otherForm placed otherPlaced isText otherIsText same

/-- Slashes that are doubled or at the end, a step `.` and a step `..` leave no trace. -/
theorem paths_have_normal_forms_of_spelled_path :
    let root := ofText "/repo/".toList
    let form := ofText "a/c".toList
    isAbsolute root = true ∧ form.IsText ∧
      relativeTo root (ofText "/repo/./a//b/../c/".toList) = .ok form ∧ IsNormal root form := by
  intro root form
  have absolute : isAbsolute root = true := by decide
  have placed : relativeTo root (ofText "/repo/./a//b/../c/".toList) = .ok form := rfl
  exact ⟨absolute, ⟨_, rfl⟩, placed, (paths_have_normal_forms absolute).2.1 _ _ placed⟩

/-- Two files whose names end in different bytes that are no text. They are normal and differ,
but what is shown of both is the same, and neither is what that spells. -/
theorem slashed_eq_slashed_of_names_without_text :
    let root := ofText "/repo".toList
    let first : Path := [0x61, 0xFF]
    let second : Path := [0x61, 0xFE]
    isAbsolute root = true ∧ relativeTo root first = .ok first ∧
      relativeTo root second = .ok second ∧ first ≠ second ∧
      slashed first = slashed second ∧
      relativeTo root (ofText ("./".toList ++ slashed first)) = .ok [0x61, 0xEF, 0xBF, 0xBD] := by
  intro root first second
  exact ⟨by decide, rfl, rfl, by decide, by decide, rfl⟩

end Resolver

end LicenseSurvey
