import LicenseSurvey.Record.Basic
import LicenseSurvey.Tag.Licensing

/-! # Reading a source into a record

A source of metadata is a sequence of licensing tags, which are read one after the
other. Tags between an ignore start and an ignore end are skipped. The first license
of a source takes the place of all licenses of earlier sources, and its further
licenses join it. A single value is written over by every tag that states it, and the
other lists grow.
-/

namespace LicenseSurvey

namespace LicensingTag

/-! ## Ignore blocks -/

def isLimit (tag : LicensingTag) : Bool :=
  tag.label == .ignoreStart || tag.label == .ignoreEnd

def ignoringBehind (ignoring : Bool) (tag : LicensingTag) : Bool :=
  match tag.label with
  | .ignoreStart => true
  | .ignoreEnd => false
  | _ => ignoring

def skipped : (ignoring : Bool) → List LicensingTag → List LicensingLabel
  | _, [] => []
  | ignoring, tag :: tags =>
      let later := skipped (ignoringBehind ignoring tag) tags
      if ignoring && !isLimit tag then tag.label :: later else later

def ignoringAfter (ignoring : Bool) (tags : List LicensingTag) : Bool :=
  tags.foldl ignoringBehind ignoring

end LicensingTag

/-! ## One tag after the other -/

def FileRecord.turned (record : FileRecord) : FileRecord :=
  { record with
    licensesInFile := record.licensesInFile.reverse
    contributors := record.contributors.reverse
    attributions := record.attributions.reverse
    fileTypes := record.fileTypes.reverse }

@[simp] theorem FileRecord.turned_turned (record : FileRecord) :
    record.turned.turned = record := by
  simp [FileRecord.turned]

structure Reading where
  /-- The record so far, turned: what was read last stands in front of its lists. -/
  record : FileRecord
  /-- Whether an ignore block is open. -/
  ignoring : Bool
  /-- Whether the source has stated a license. -/
  licensed : Bool
deriving DecidableEq, Repr

namespace Reading

def start (record : FileRecord) : Reading := ⟨record.turned, false, false⟩

def write (reading : Reading) (tag : LicensingTag) : Reading :=
  let record := reading.record
  let text := tag.value.asText
  match tag.label with
  | .license | .licenseInFile =>
      let before := if reading.licensed then record.licensesInFile else []
      { reading with
        record := { record with licensesInFile := text :: before }
        licensed := true }
  | .licenseConcluded => { reading with record := { record with licenseConcluded := text } }
  | .copyright => { reading with record := { record with copyright := some text } }
  | .comment => { reading with record := { record with comment := some text } }
  | .notice => { reading with record := { record with notice := some text } }
  | .contributor =>
      let contributors := tag.value.asList.reverse ++ record.contributors
      { reading with record := { record with contributors } }
  | .attribution =>
      { reading with record := { record with attributions := text :: record.attributions } }
  | .fileType =>
      let fileTypes := tag.value.asList.reverse ++ record.fileTypes
      { reading with record := { record with fileTypes } }
  | .ignoreStart | .ignoreEnd => reading

def read (reading : Reading) (tag : LicensingTag) : Reading :=
  match tag.label with
  | .ignoreStart => { reading with ignoring := true }
  | .ignoreEnd => { reading with ignoring := false }
  | _ => if reading.ignoring then reading else reading.write tag

end Reading

def FileRecord.withSource (record : FileRecord) (tags : List LicensingTag) : FileRecord :=
  (tags.foldl Reading.read (.start record)).record.turned

@[simp] theorem FileRecord.withSource_nil (record : FileRecord) :
    record.withSource [] = record :=
  record.turned_turned

end LicenseSurvey
