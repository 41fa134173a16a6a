import LicenseSurvey.Report.Json
import LicenseSurvey.Report.Time
import LicenseSurvey.Resolver.Bulk

/-! # Reports

A report is the outcome of a survey as a JSON document: a header about the survey,
the records of the files, and the license identifiers they mention.
-/

namespace LicenseSurvey

open Json (field)

structure Environment where
  operatingSystem : Option Text
  architecture : Text
  platform : Text
  toolchain : Text
deriving DecidableEq, Repr

structure Report where
  start : Instant
  stop : Instant
  excludedCount : Nat
  /-- Where the manifest is, if there is one. -/
  manifestPath : Option Text
  environment : Environment
  resolution : Resolution
deriving DecidableEq, Repr

def FileRecord.json (record : FileRecord) : Json :=
  .object
    [ field "path" (.text record.path),
      field "spdx_id" (.text record.identifier),
      field "checksum" (.object
        [ field "algorithm" (.text "SHA1".toList),
          field "value" (.text record.checksum) ]),
      field "license_info_in_file" (.ofTexts record.licensesInFile),
      field "copyright" (.ofText? record.copyright),
      field "license_concluded" (.text record.licenseConcluded),
      field "comment" (.ofText? record.comment),
      field "notice" (.ofText? record.notice),
      field "contributors" (.ofTexts record.contributors),
      field "attributions" (.ofTexts record.attributions),
      field "file_types" (.ofTexts record.fileTypes) ]

def FileError.message (error : FileError) : Text :=
  error.path.text ++ ": ".toList ++ error.failure.message

namespace Report

def toolVersion : Text := "0.1.0".toList

def formatVersion : Text := "1.0.0".toList

def environmentJson (environment : Environment) : Json :=
  .object
    [ field "operating_system" (.ofText? environment.operatingSystem),
      field "cpu_architecture" (.text environment.architecture),
      field "platform" (.text environment.platform),
      field "rust_version" (.text environment.toolchain) ]

def headerJson (report : Report) : Json :=
  .object
    [ field "tool_version" (.text toolVersion),
      field "start_timestamp" (.text report.start.text),
      field "end_timestamp" (.text report.stop.text),
      field "duration" (.number (report.start.durationText report.stop)),
      field "extra_data" (.object
        [ field "files_count" (.ofNat report.resolution.files.length),
          field "excluded_count" (.ofNat report.excludedCount),
          field "dep5_manifest" (.ofText? report.manifestPath),
          field "system_environment" (environmentJson report.environment) ]),
      field "errors" (.ofTexts (report.resolution.errors.map FileError.message)),
      field "output_format_version" (.text formatVersion) ]

def json (report : Report) : Json :=
  .object
    [ field "headers" (.list [report.headerJson]),
      field "files" (.list (report.resolution.files.map FileRecord.json)),
      field "license_identifiers" (.ofTexts report.resolution.licenseIdentifiers) ]

def text (report : Report) : Text := report.json.render

end Report

end LicenseSurvey
