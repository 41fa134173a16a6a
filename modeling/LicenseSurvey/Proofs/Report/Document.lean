import LicenseSurvey.Proofs.Report.Json
import LicenseSurvey.Report.Basic
import Mathlib.Data.List.Basic

/-! # What the text of a report says

All numbers of a report are proper, the duration among them, and so the text of a report is
read back as its document. The document in turn has all records with all their fields, and
every error.
-/

namespace LicenseSurvey

open Json (IsNumber isNumberPart)

/-! ## Numbers -/

theorem isNumberPart_of_mem_toDigits {number : Nat} :
    ∀ digit ∈ Nat.toDigits 10 number, isNumberPart digit = true := by
  intro digit member
  rw [isNumberPart, Nat.isDigit_of_mem_toDigits (by decide) (by decide) member, Bool.true_or]

theorem isNumber_toDigits (number : Nat) : IsNumber (Nat.toDigits 10 number) :=
  ⟨Nat.toDigits_ne_nil, isNumberPart_of_mem_toDigits⟩

theorem toDigits_injective {number other : Nat}
    (same : Nat.toDigits 10 number = Nat.toDigits 10 other) : number = other := by
  have value (number : Nat) : Nat.ofDigitChars 10 (Nat.toDigits 10 number) 0 = number :=
    Nat.ofDigitChars_toDigits (by decide) (by decide)
  rw [← value number, same, value other]

theorem isNumberPart_of_mem_sign {negative : Prop} [Decidable negative] :
    ∀ sign ∈ if negative then ['-'] else [], isNumberPart sign = true := by
  split
  · exact List.forall_mem_singleton.mpr rfl
  · exact List.forall_mem_nil _

theorem isNumberPart_of_mem_ofInt (number : Int) :
    ∀ part ∈ Text.ofInt number, isNumberPart part = true :=
  List.forall_mem_append.mpr ⟨isNumberPart_of_mem_sign, isNumberPart_of_mem_toDigits⟩

namespace DecimalStyle

theorem isNumberPart_of_mem_write {style : DecimalStyle} (decimal : Decimal)
    (mark : isNumberPart style.powerMark = true) :
    ∀ part ∈ style.write decimal, isNumberPart part = true := by
  have digit : ∀ part ∈ Nat.toDigits 10 decimal.digits, isNumberPart part = true :=
    isNumberPart_of_mem_toDigits
  have front (count : Nat) : ∀ part ∈ (Nat.toDigits 10 decimal.digits).take count,
      isNumberPart part = true := fun part member => digit part (List.mem_of_mem_take member)
  have back (count : Nat) : ∀ part ∈ (Nat.toDigits 10 decimal.digits).drop count,
      isNumberPart part = true := fun part member => digit part (List.mem_of_mem_drop member)
  have zero (count : Nat) : ∀ part ∈ List.replicate count '0', isNumberPart part = true := by
    intro part member
    rw [List.eq_of_mem_replicate member]
    rfl
  rw [write]
  split
  · simp only [List.forall_mem_append, List.forall_mem_cons]
    refine ⟨⟨front 1, ?_⟩, mark, isNumberPart_of_mem_ofInt _⟩
    split
    · exact List.forall_mem_nil _
    · exact List.forall_mem_cons.mpr ⟨rfl, back 1⟩
  · split
    · simp only [List.forall_mem_append, List.forall_mem_cons]
      exact ⟨⟨⟨rfl, rfl, List.forall_mem_nil _⟩, zero _⟩, digit⟩
    · split
      · simp only [List.forall_mem_append, List.forall_mem_cons]
        exact ⟨⟨digit, zero _⟩, rfl, rfl, List.forall_mem_nil _⟩
      · simp only [List.forall_mem_append, List.forall_mem_cons]
        exact ⟨front _, rfl, back _⟩

theorem write_ne_nil (style : DecimalStyle) (decimal : Decimal) : style.write decimal ≠ [] := by
  rw [write]
  split
  · simp
  · split
    · simp
    · split
      · simp
      · simp

end DecimalStyle

namespace Instant

theorem isNumber_secondsText (nanoseconds : Int) : IsNumber (secondsText nanoseconds) := by
  rw [secondsText]
  split
  · change IsNumber ['0', '.', '0']
    exact ⟨List.cons_ne_nil _ _, by simp [isNumberPart]⟩
  · constructor
    · simp [DecimalStyle.write_ne_nil]
    · exact List.forall_mem_append.mpr
        ⟨isNumberPart_of_mem_sign, DecimalStyle.isNumberPart_of_mem_write _ rfl⟩

theorem isNumber_durationText (start stop : Instant) : IsNumber (start.durationText stop) := by
  rw [durationText]
  split
  · exact isNumber_secondsText 0
  · exact isNumber_secondsText _

end Instant

/-! ## Parts of documents -/

namespace Json

@[simp] theorem isProper_ofNat (number : Nat) : IsProper (.ofNat number) :=
  .number (isNumber_toDigits number)

@[simp] theorem isProper_ofText? (content : Option Text) : IsProper (.ofText? content) := by
  cases content with
  | none => exact .null
  | some content => exact .text content

@[simp] theorem isProper_ofTexts (contents : List Text) : IsProper (.ofTexts contents) := by
  simp [ofTexts]

theorem ofNat_injective : Function.Injective ofNat := by
  intro number other same
  exact toDigits_injective (Json.number.inj same)

theorem ofText?_injective : Function.Injective ofText? := by
  intro content other same
  cases content <;> cases other <;> cases same <;> rfl

theorem ofTexts_injective : Function.Injective ofTexts := by
  intro contents others same
  exact List.map_injective_iff.mpr (fun _ _ => Json.text.inj) (Json.list.inj same)

end Json

/-! ## Reports -/

namespace FileRecord

theorem isProper_json (record : FileRecord) : record.json.IsProper := by
  simp [json, Json.field]

theorem json_injective : Function.Injective json := by
  intro record other same
  cases record
  cases other
  simpa [json, Json.field, Json.ofTexts_injective.eq_iff, Json.ofText?_injective.eq_iff]
    using same

end FileRecord

namespace Report

theorem isProper_headerJson (report : Report) : report.headerJson.IsProper := by
  have duration := report.start.isNumber_durationText report.stop
  simp [headerJson, environmentJson, Json.field, duration]

theorem isProper_json (report : Report) : report.json.IsProper := by
  simp [json, Json.field, isProper_headerJson, FileRecord.isProper_json]

theorem read?_text (report : Report) : Json.read? report.text = some report.json :=
  Json.read?_render report.isProper_json

/-- Reports with the same text are about the same survey: it found the same records and
errors, excluded as many candidates and used the same manifest. -/
theorem eq_of_text_eq {report other : Report} (same : report.text = other.text) :
    report.resolution.files = other.resolution.files ∧
    report.resolution.errors.map FileError.message =
      other.resolution.errors.map FileError.message ∧
    report.resolution.licenseIdentifiers = other.resolution.licenseIdentifiers ∧
    report.excludedCount = other.excludedCount ∧ report.manifestPath = other.manifestPath := by
  have documents := Json.render_injective report.isProper_json other.isProper_json same
  have records := List.map_injective_iff.mpr FileRecord.json_injective
  simp only [json, headerJson, Json.field, Json.object.injEq, Json.list.injEq, List.cons.injEq,
    Prod.mk.injEq, true_and, and_true, Json.ofTexts_injective.eq_iff, Json.ofNat_injective.eq_iff,
    Json.ofText?_injective.eq_iff, records.eq_iff] at documents
  rcases documents with
    ⟨⟨-, -, -, ⟨-, excluded, manifest, -⟩, errors⟩, files, identifiers⟩
  exact ⟨files, errors, identifiers, excluded, manifest⟩

end Report

end LicenseSurvey
