import LicenseSurvey.Proofs.Expression.Identifier
import LicenseSurvey.Resolver.Bulk

/-! # Resolving files in any order

What becomes of a path among many depends on that path alone. So the files may be resolved in
any order, as long as each outcome is put down at the position of its path, and a path that has
no record takes nothing away from the others. The license identifiers depend only on which
paths there are.
-/

namespace LicenseSurvey.Resolver

variable (files : FileView) (resolver : Resolver) {paths : List Path}

abbrev resolution (paths : List Path) : Resolution := (resolver.resolveAll files paths).result

/-! ## One path -/

def record? (path : Path) : Option FileRecord := (resolver.resolve files path).result.toOption

def error? (path : Path) : Option FileError :=
  match (resolver.resolve files path).result with
  | .ok _ => none
  | .error failure => some ⟨path, failure⟩

section

variable {files : FileView} {resolver : Resolver} {path : Path}

theorem record?_of_ok {record : FileRecord}
    (resolved : (resolver.resolve files path).result = .ok record) :
    resolver.record? files path = some record := by
  rw [record?, resolved]
  rfl

theorem record?_of_error {failure : Failure}
    (failed : (resolver.resolve files path).result = .error failure) :
    resolver.record? files path = none := by
  rw [record?, failed]
  rfl

theorem error?_of_ok {record : FileRecord}
    (resolved : (resolver.resolve files path).result = .ok record) :
    resolver.error? files path = none := by
  rw [error?, resolved]

theorem error?_of_error {failure : Failure}
    (failed : (resolver.resolve files path).result = .error failure) :
    resolver.error? files path = some ⟨path, failure⟩ := by
  rw [error?, failed]

theorem outcome_of_ok {record : FileRecord}
    (resolved : (resolver.resolve files path).result = .ok record) :
    (resolver.outcome files path).result = .ok record := by
  rw [outcome, Logged.result_bind, resolved]
  rfl

theorem outcome_of_error {failure : Failure}
    (failed : (resolver.resolve files path).result = .error failure) :
    (resolver.outcome files path).result = .error ⟨path, failure⟩ := by
  rw [outcome, Logged.result_bind, failed]
  rfl

end

/-! ## Many paths -/

theorem files_resolution (paths : List Path) :
    (resolver.resolution files paths).files = paths.filterMap (resolver.record? files) := by
  simp only [resolution, resolveAll, Resolution.ofOutcomes, List.filterMap_map]
  congr 1
  funext path
  rw [Function.comp_apply, Function.comp_apply]
  cases outcome : (resolver.resolve files path).result with
  | ok record =>
      rw [outcome_of_ok outcome, record?_of_ok outcome]
      rfl
  | error failure =>
      rw [outcome_of_error outcome, record?_of_error outcome]
      rfl

theorem errors_resolution (paths : List Path) :
    (resolver.resolution files paths).errors = paths.filterMap (resolver.error? files) := by
  simp only [resolution, resolveAll, Resolution.ofOutcomes, List.filterMap_map]
  congr 1
  funext path
  rw [Function.comp_apply, Function.comp_apply]
  cases outcome : (resolver.resolve files path).result with
  | ok record => rw [outcome_of_ok outcome, error?_of_ok outcome]
  | error failure => rw [outcome_of_error outcome, error?_of_error outcome]

theorem licenseIdentifiers_resolution (paths : List Path) :
    (resolver.resolution files paths).licenseIdentifiers =
      Expression.collect
        ((resolver.resolution files paths).files.flatMap FileRecord.licensesInFile) := rfl

/-! ## Lists with the same paths -/

theorem perm_resolution {left right : List Path} (same : left.Perm right) :
    (resolver.resolution files left).files.Perm (resolver.resolution files right).files ∧
      (resolver.resolution files left).errors.Perm (resolver.resolution files right).errors := by
  rw [files_resolution, files_resolution, errors_resolution, errors_resolution]
  exact ⟨same.filterMap _, same.filterMap _⟩

theorem licenseIdentifiers_congr {left right : List Path}
    (same : ∀ path, path ∈ left ↔ path ∈ right) :
    (resolver.resolution files left).licenseIdentifiers =
      (resolver.resolution files right).licenseIdentifiers := by
  rw [licenseIdentifiers_resolution, licenseIdentifiers_resolution, files_resolution,
    files_resolution]
  apply Expression.collect_eq_of_mem_iff
  intro expression
  simp only [List.mem_flatMap, List.mem_filterMap, same]

section

variable {failing : Path} {failure : Failure}

theorem files_resolution_append_cons (front back : List Path)
    (fails : (resolver.resolve files failing).result = .error failure) :
    (resolver.resolution files (front ++ failing :: back)).files =
      (resolver.resolution files (front ++ back)).files := by
  rw [files_resolution, files_resolution, List.filterMap_append,
    List.filterMap_cons_none (record?_of_error fails), List.filterMap_append]

theorem errors_resolution_append_cons (front back : List Path)
    (fails : (resolver.resolve files failing).result = .error failure) :
    (resolver.resolution files (front ++ failing :: back)).errors =
      (resolver.resolution files front).errors ++
        ⟨failing, failure⟩ :: (resolver.resolution files back).errors := by
  rw [errors_resolution, errors_resolution, errors_resolution, List.filterMap_append,
    List.filterMap_cons_some (error?_of_error fails)]

end

/-! ## Completion in any order -/

abbrev Slots := List (Option (Except FileError FileRecord))

def complete (paths : List Path) (slots : Slots) (position : Nat) : Slots :=
  slots.set position (paths[position]?.map fun path => (resolver.outcome files path).result)

def resolveInOrder (paths : List Path) (order : List Nat) : Option Resolution :=
  ((order.foldl (resolver.complete files paths) (paths.map fun _ => none)).mapM id).map
    Resolution.ofOutcomes

def slotsAfter (paths : List Path) (done : List Nat) : Slots :=
  paths.mapIdx fun position path =>
    if position ∈ done then some (resolver.outcome files path).result else none

theorem slotsAfter_nil (paths : List Path) :
    resolver.slotsAfter files paths [] = paths.map fun _ => none := by
  apply List.ext_getElem?
  intro position
  rw [slotsAfter, List.getElem?_mapIdx, List.getElem?_map]
  rfl

theorem complete_slotsAfter (paths : List Path) (done : List Nat) (position : Nat) :
    resolver.complete files paths (resolver.slotsAfter files paths done) position =
      resolver.slotsAfter files paths (position :: done) := by
  apply List.ext_getElem?
  intro other
  rw [complete, List.getElem?_set, slotsAfter, slotsAfter, List.getElem?_mapIdx,
    List.getElem?_mapIdx, List.length_mapIdx]
  by_cases same : position = other
  · subst same
    rw [if_pos rfl]
    by_cases inside : position < paths.length
    · simp [inside]
    · simp [inside]
  · rw [if_neg same]
    simp [Ne.symm same]

theorem foldl_complete_slotsAfter (paths : List Path) (order done : List Nat) :
    order.foldl (resolver.complete files paths) (resolver.slotsAfter files paths done) =
      resolver.slotsAfter files paths (order.reverse ++ done) := by
  -- On the order, with what was done before it left open.
  induction order generalizing done with
  | nil => rfl
  | cons position order induction =>
      rw [List.foldl_cons, complete_slotsAfter, induction, List.reverse_cons,
        List.append_assoc, List.singleton_append]

/-- With every position done no slot is empty. -/
theorem slotsAfter_of_forall_mem {done : List Nat}
    (all : ∀ position < paths.length, position ∈ done) :
    resolver.slotsAfter files paths done =
      paths.map fun path => some (resolver.outcome files path).result := by
  apply List.ext_getElem?
  intro position
  rw [slotsAfter, List.getElem?_mapIdx, List.getElem?_map]
  apply Option.map_congr
  intro path there
  rw [if_pos (all position (List.getElem?_eq_some_iff.mp there).1)]

theorem resolveInOrder_eq {order : List Nat}
    (all : ∀ position < paths.length, position ∈ order) :
    resolver.resolveInOrder files paths order = some (resolver.resolution files paths) := by
  have filled : resolver.slotsAfter files paths (order.reverse ++ []) =
      paths.map fun path => some (resolver.outcome files path).result := by
    apply slotsAfter_of_forall_mem
    intro position inside
    simpa using all position inside
  have gathered : (paths.map fun path => some (resolver.outcome files path).result).mapM id =
      some (paths.map fun path => (resolver.outcome files path).result) := by
    rw [List.mapM_map]
    exact List.mapM_pure
  rw [resolveInOrder, ← slotsAfter_nil files resolver paths, foldl_complete_slotsAfter, filled,
    gathered, Option.map_some, resolution, resolveAll, List.map_map]
  rfl

/-! ## Permuted paths -/

def atPositions (paths : List Path) (order : List Nat) : List Path := order.filterMap (paths[·]?)

theorem atPositions_range (paths : List Path) :
    atPositions paths (List.range paths.length) = paths := by
  induction paths with
  | nil => rfl
  | cons path paths induction =>
      rw [atPositions, List.length_cons, List.range_succ_eq_map,
        List.filterMap_cons_some List.getElem?_cons_zero, List.filterMap_map]
      exact congrArg (path :: ·) induction

theorem atPositions_perm {order : List Nat} (all : order.Perm (List.range paths.length)) :
    (atPositions paths order).Perm paths := by
  have permuted := all.filterMap (paths[·]?)
  rwa [← atPositions, ← atPositions, atPositions_range] at permuted

/-! ## Any order -/

/-- What the resolution of some paths is: the records and the errors in the order of the paths,
and the license identifiers of the records, each once and in the order of their bytes. -/
structure IsResolution (paths : List Path) (resolution : Resolution) : Prop where
  records : resolution.files = paths.filterMap (resolver.record? files)
  errors : resolution.errors = paths.filterMap (resolver.error? files)
  increasing : resolution.licenseIdentifiers.Pairwise fun left right =>
    Text.encode left < Text.encode right
  mem_licenseIdentifiers_iff : ∀ identifier, identifier ∈ resolution.licenseIdentifiers ↔
    ∃ record ∈ resolution.files, ∃ expression ∈ record.licensesInFile,
      identifier ∈ Expression.identifiers expression
  isIdentifier : ∀ identifier ∈ resolution.licenseIdentifiers,
    Expression.IsIdentifier identifier

theorem isResolution_resolution (paths : List Path) :
    IsResolution files resolver paths (resolver.resolution files paths) where
  records := files_resolution files resolver paths
  errors := errors_resolution files resolver paths
  increasing := (Expression.pairwise_collect _).imp Text.encode_lt_encode
  mem_licenseIdentifiers_iff identifier := by
    rw [licenseIdentifiers_resolution, Expression.mem_collect]
    simp only [List.mem_flatMap]
    constructor
    · rintro ⟨expression, ⟨record, among, member⟩, inside⟩
      exact ⟨record, among, expression, member, inside⟩
    · rintro ⟨record, among, expression, member, inside⟩
      exact ⟨expression, ⟨record, among, member⟩, inside⟩
  isIdentifier identifier member := by
    rw [licenseIdentifiers_resolution, Expression.mem_collect] at member
    obtain ⟨expression, -, inside⟩ := member
    exact Expression.isIdentifier_of_mem_identifiers inside

/-- Many files may be resolved in any order. Permuted paths have permuted records and errors, a
path without a record adds its error and nothing else, and the license identifiers do not even
depend on how often a path is there. -/
theorem resolution_of_any_order (paths : List Path) :
    IsResolution files resolver paths (resolver.resolution files paths) ∧
    (∀ order : List Nat, order.Perm (List.range paths.length) →
      resolver.resolveInOrder files paths order = some (resolver.resolution files paths)) ∧
    (∀ order : List Nat, order.Perm (List.range paths.length) →
      (atPositions paths order).Perm paths ∧
      (resolver.resolution files (atPositions paths order)).files =
        order.filterMap (fun position => paths[position]?.bind (resolver.record? files)) ∧
      (resolver.resolution files (atPositions paths order)).errors =
        order.filterMap (fun position => paths[position]?.bind (resolver.error? files))) ∧
    (∀ others : List Path, others.Perm paths →
      (resolver.resolution files others).files.Perm (resolver.resolution files paths).files ∧
      (resolver.resolution files others).errors.Perm
        (resolver.resolution files paths).errors) ∧
    (∀ others : List Path, (∀ path, path ∈ others ↔ path ∈ paths) →
      (resolver.resolution files others).licenseIdentifiers =
        (resolver.resolution files paths).licenseIdentifiers) ∧
    (∀ front failing back failure, paths = front ++ failing :: back →
      (resolver.resolve files failing).result = .error failure →
      (resolver.resolution files paths).files =
        (resolver.resolution files (front ++ back)).files ∧
      (resolver.resolution files paths).licenseIdentifiers =
        (resolver.resolution files (front ++ back)).licenseIdentifiers ∧
      ∃ before after,
        (resolver.resolution files paths).errors = before ++ ⟨failing, failure⟩ :: after ∧
        (resolver.resolution files (front ++ back)).errors = before ++ after ∧
        (resolver.resolution files front).errors = before ∧
        (resolver.resolution files back).errors = after) := by
  refine ⟨isResolution_resolution files resolver paths, fun order all => ?_,
    fun order all => ⟨atPositions_perm all, ?_, ?_⟩,
    fun others same => perm_resolution files resolver same,
    fun others same => licenseIdentifiers_congr files resolver same, ?_⟩
  · apply resolveInOrder_eq
    intro position inside
    exact all.mem_iff.mpr (List.mem_range.mpr inside)
  · rw [files_resolution, atPositions, List.filterMap_filterMap]
  · rw [errors_resolution, atPositions, List.filterMap_filterMap]
  · rintro front failing back failure rfl fails
    have records := files_resolution_append_cons files resolver front back fails
    have errors := errors_resolution_append_cons files resolver front back fails
    refine ⟨records, ?_, _, _, errors, ?_, rfl, rfl⟩
    · rw [licenseIdentifiers_resolution, licenseIdentifiers_resolution, records]
    · rw [errors_resolution, errors_resolution, errors_resolution, List.filterMap_append]

private def filesOfBulk : FileView := fun path =>
  if path = Path.ofText "/r/a.c".toList then
    .file (Text.encode "//SPDX-License-Identifier: (Zlib or GPL-2.0+)".toList)
  else if path = Path.ofText "/r/b".toList then
    .file (Text.encode "SPDX-License-Identifier: MIT".toList)
  else .unreachable .notFound

private def resolverOfBulk : Resolver :=
  ⟨Path.ofText "/r".toList, ⟨none, defaultManifestPath⟩, none⟩

private def sourcePath : Path := Path.ofText "a.c".toList

private def plainPath : Path := Path.ofText "b".toList

private def absentPath : Path := Path.ofText "c".toList

private def threePaths : List Path := [plainPath, absentPath, sourcePath]

/-- The path in the middle has no record; what is said about the other two does not depend on
it, on their order or on how often they are named. -/
theorem resolution_of_any_order_of_three_paths :
    resolverOfBulk.resolveInOrder filesOfBulk threePaths [2, 0, 1] =
        some (resolverOfBulk.resolution filesOfBulk threePaths) ∧
      (resolverOfBulk.resolution filesOfBulk (atPositions threePaths [2, 0, 1])).files =
        [2, 0, 1].filterMap (fun position =>
          threePaths[position]?.bind (resolverOfBulk.record? filesOfBulk)) ∧
      (resolverOfBulk.resolution filesOfBulk [sourcePath, absentPath, plainPath]).files.Perm
        (resolverOfBulk.resolution filesOfBulk threePaths).files ∧
      (resolverOfBulk.resolution filesOfBulk (threePaths.reverse ++ threePaths)).licenseIdentifiers =
        ["GPL-2.0".toList, "MIT".toList, "Zlib".toList] ∧
      (resolverOfBulk.resolution filesOfBulk threePaths).files =
        (resolverOfBulk.resolution filesOfBulk [plainPath, sourcePath]).files := by
  obtain ⟨-, completion, permuted, perm, identifiers, removed⟩ :=
    resolution_of_any_order filesOfBulk resolverOfBulk threePaths
  have order : [2, 0, 1].Perm (List.range threePaths.length) := by decide
  have identifiersOfThree : (resolverOfBulk.resolution filesOfBulk threePaths).licenseIdentifiers =
      ["GPL-2.0".toList, "MIT".toList, "Zlib".toList] := by
    decide +kernel
  have samePaths : ∀ path, path ∈ threePaths.reverse ++ threePaths ↔ path ∈ threePaths := by
    intro path
    rw [List.mem_append, List.mem_reverse, or_self]
  refine ⟨completion _ order, (permuted _ order).2.1, (perm _ (by decide)).1, ?_, ?_⟩
  · rw [identifiers _ samePaths, identifiersOfThree]
  · exact (removed [plainPath] absentPath [sourcePath]
      (.unreadable (Path.ofText "/r/c".toList) .notFound) rfl rfl).1

end LicenseSurvey.Resolver
