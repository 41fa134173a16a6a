import LicenseSurvey.Tag.Extraction

/-! # Licensing tags

The tags by which a file states its licenses, its copyright and what else belongs
to them.
-/

namespace LicenseSurvey

inductive LicensingLabel where
  | license
  | licenseInFile
  | licenseConcluded
  | copyright
  | comment
  | notice
  | contributor
  | attribution
  | fileType
  | ignoreStart
  | ignoreEnd
deriving DecidableEq, Repr

def LicensingLabel.name : LicensingLabel → Text
  | .license => "license".toList
  | .licenseInFile => "licenseInFile".toList
  | .licenseConcluded => "licenseConcluded".toList
  | .copyright => "copyright".toList
  | .comment => "comment".toList
  | .notice => "notice".toList
  | .contributor => "contributor".toList
  | .attribution => "attribution".toList
  | .fileType => "fileType".toList
  | .ignoreStart => "ignoreStart".toList
  | .ignoreEnd => "ignoreEnd".toList

def licensingKeys : List (Key LicensingLabel) :=
  [ .row "SPDX-License-Identifier" .license .line,
    .row "SPDX-LicenseInfoInFile" .licenseInFile .line,
    .row "SPDX-LicenseConcluded" .licenseConcluded .line,
    .row "SPDX-FileCopyrightText" .copyright .line,
    .row "SPDX-FileComment" .comment .formatted,
    .row "SPDX-FileNotice" .notice .formatted,
    .row "SPDX-FileContributor" .contributor .lines,
    .row "SPDX-FileAttributionText" .attribution .formatted,
    .row "SPDX-FileType" .fileType .words,
    .row "REUSE-IgnoreStart" .ignoreStart .marker,
    .row "REUSE-IgnoreEnd" .ignoreEnd .marker ]

abbrev LicensingTag := Tag LicensingLabel

def LicensingTag.ofLines (lines : List Text) : List LicensingTag :=
  Tag.ofLines licensingKeys lines

example : LicensingTag.ofLines ["* spdx-filetype: a".toList, " b".toList] =
    [⟨.fileType, .list [['a'], ['b']]⟩] := by decide

end LicenseSurvey
