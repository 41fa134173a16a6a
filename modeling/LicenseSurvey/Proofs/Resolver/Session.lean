import LicenseSurvey.Proofs.FileTree.Frame
import LicenseSurvey.Proofs.Resolver.Exits

/-! # What resolving depends on

The record of a file depends on two answers of the file tree, the one for the file and the
one for its sidecar, and on the manifest as it was when the repository was opened. So a
session that edits other places, be it that of the manifest, gets the same record until it
opens the repository again.
-/

namespace LicenseSurvey

/-! ## Two views -/

namespace Resolver

def SeesSame (resolver : Resolver) (path : Path) (left right : FileView) : Prop :=
  ∀ relative, Path.relativeTo resolver.root path = .ok relative →
    left (Path.join resolver.root relative) = right (Path.join resolver.root relative) ∧
      left (Path.sidecar (Path.join resolver.root relative)) =
        right (Path.sidecar (Path.join resolver.root relative))

variable {resolver : Resolver} {path : Path}

theorem resolve_congr {left right : FileView} (same : resolver.SeesSame path left right) :
    resolver.resolve left path = resolver.resolve right path := by
  rw [resolve, resolve]
  cases placed : Path.relativeTo resolver.root path with
  | error reason => rfl
  | ok relative =>
      obtain ⟨file, sidecar⟩ := same relative placed
      simp only [file, sidecar]

theorem resolveStepwise_congr {left right : FileView} (same : resolver.SeesSame path left right) :
    resolver.resolveStepwise left path = resolver.resolveStepwise right path := by
  rw [← result_resolve_eq, ← result_resolve_eq, resolve_congr same]

def passes (resolver : Resolver) (workingDirectory : List Bytes) (path : Path) :
    List (List Bytes) :=
  match Path.relativeTo resolver.root path with
  | .error _ => []
  | .ok relative =>
      FileTree.visitsOf workingDirectory (Path.join resolver.root relative) ++
        FileTree.visitsOf workingDirectory (Path.sidecar (Path.join resolver.root relative))

theorem seesSame_of_passes {left right : FileTree} {workingDirectory : List Bytes}
    (same : ∀ place ∈ resolver.passes workingDirectory path,
      left.entryAt? place = right.entryAt? place) :
    resolver.SeesSame path (left.view workingDirectory) (right.view workingDirectory) := by
  intro relative placed
  rw [passes, placed, List.forall_mem_append] at same
  exact ⟨FileTree.view_congr same.1, FileTree.view_congr same.2⟩

end Resolver

/-! ## Sessions -/

structure Session where
  tree : FileTree
  workingDirectory : List Bytes
  resolver : Option Resolver

namespace Session

inductive Action where
  | edit (change : FileTree.Edit)
  | reopen (root : Path) (options : ResolverOptions)
  | ask (path : Path)

namespace Action

def Reopens : Action → Prop
  | .reopen _ _ => True
  | .edit _ | .ask _ => False

def Spares (tree : FileTree) (place : List Bytes) : Action → Prop
  | .edit change => change.Spares tree place
  | .reopen _ _ | .ask _ => True

instance (action : Action) : Decidable action.Reopens :=
  match action with
  | .reopen _ _ => isTrue trivial
  | .edit _ | .ask _ => isFalse id

instance (tree : FileTree) (place : List Bytes) (action : Action) :
    Decidable (action.Spares tree place) :=
  match action with
  | .edit change => inferInstanceAs (Decidable (change.Spares tree place))
  | .reopen _ _ | .ask _ => isTrue trivial

end Action

def view (session : Session) : FileView := session.tree.view session.workingDirectory

def step (session : Session) : Action → Session
  | .edit change => { session with tree := change.apply session.tree }
  | .reopen root options =>
      { session with resolver := (Resolver.load session.view root options).result.toOption }
  | .ask _ => session

def run (session : Session) (actions : List Action) : Session := actions.foldl step session

def answer? (session : Session) (path : Path) : Option (Except Failure FileRecord) :=
  session.resolver.map fun resolver => (resolver.resolve session.view path).result

def SparesAll (places : List (List Bytes)) : Session → List Action → Prop
  | _, [] => True
  | session, action :: actions =>
      (∀ place ∈ places, action.Spares session.tree place) ∧
        SparesAll places (session.step action) actions

variable {session : Session} {action : Action} {actions : List Action}

/-! ## One action -/

theorem resolver_step (kept : ¬action.Reopens) :
    (session.step action).resolver = session.resolver := by
  cases action with
  | edit | ask => rfl
  | reopen => exact absurd trivial kept

theorem workingDirectory_step (session : Session) (action : Action) :
    (session.step action).workingDirectory = session.workingDirectory := by
  cases action <;> rfl

theorem entryAt?_step {place : List Bytes} (spared : action.Spares session.tree place) :
    (session.step action).tree.entryAt? place = session.tree.entryAt? place := by
  cases action with
  | edit => exact FileTree.entryAt?_apply spared
  | reopen | ask => rfl

/-! ## Many actions -/

theorem resolver_run (kept : ∀ action ∈ actions, ¬action.Reopens) :
    (session.run actions).resolver = session.resolver := by
  induction actions generalizing session with
  | nil => rfl
  | cons action actions induction =>
      obtain ⟨here, later⟩ := List.forall_mem_cons.mp kept
      exact (induction later).trans (resolver_step here)

theorem workingDirectory_run (session : Session) (actions : List Action) :
    (session.run actions).workingDirectory = session.workingDirectory := by
  induction actions generalizing session with
  | nil => rfl
  | cons action actions induction =>
      exact (induction (session.step action)).trans (workingDirectory_step session action)

theorem entryAt?_run {places : List (List Bytes)} (spared : session.SparesAll places actions) :
    ∀ place ∈ places, (session.run actions).tree.entryAt? place = session.tree.entryAt? place := by
  induction actions generalizing session with
  | nil => exact fun place member => rfl
  | cons action actions induction =>
      obtain ⟨here, later⟩ := spared
      intro place member
      exact (induction later place member).trans (entryAt?_step (here place member))

/-- An open repository gives the same answer as long as the file and its sidecar look the
same. -/
theorem answer?_run {path : Path} {resolver : Resolver} (opened : session.resolver = some resolver)
    (kept : ∀ action ∈ actions, ¬action.Reopens)
    (same : resolver.SeesSame path session.view (session.run actions).view) :
    (session.run actions).answer? path = session.answer? path := by
  rw [answer?, answer?, resolver_run kept, opened, Option.map_some, Option.map_some,
    Resolver.resolve_congr same]

theorem seesSame_run {path : Path} {resolver : Resolver}
    (spared : session.SparesAll (resolver.passes session.workingDirectory path) actions) :
    resolver.SeesSame path session.view (session.run actions).view := by
  rw [view, view, workingDirectory_run]
  apply Resolver.seesSame_of_passes
  exact fun place member => (entryAt?_run spared place member).symm

/-- The record of a file depends on the answers for the file and for its sidecar alone, also
when each access to the files is a step of its own. Once a repository is open, the result
for a path stays the same until it is opened again, through any actions that leave these two
answers as they were; and so they do when each of them spares the places that are passed on
the way to the file and its sidecar. -/
theorem answer?_of_open {before : Session} {root : Path} {options : ResolverOptions}
    {resolver : Resolver}
    (loaded : (Resolver.load before.view root options).result = .ok resolver)
    {actions : List Action} (kept : ∀ action ∈ actions, ¬action.Reopens) (path : Path) :
    let opened := before.step (.reopen root options)
    let later := opened.run actions
    (∀ left right : FileView, resolver.SeesSame path left right →
      resolver.resolve left path = resolver.resolve right path ∧
        resolver.resolveStepwise left path = resolver.resolveStepwise right path) ∧
    opened.answer? path = some (resolver.resolve before.view path).result ∧
    (resolver.SeesSame path opened.view later.view → later.answer? path = opened.answer? path) ∧
    (opened.SparesAll (resolver.passes before.workingDirectory path) actions →
      later.answer? path = opened.answer? path) := by
  intro opened later
  have present : opened.resolver = some resolver := congrArg Except.toOption loaded
  refine ⟨?_, ?_, answer?_run present kept, ?_⟩
  · intro left right same
    exact ⟨Resolver.resolve_congr same, Resolver.resolveStepwise_congr same⟩
  · rw [answer?, present]
    rfl
  · intro spared
    exact answer?_run present kept (seesSame_run spared)

private def samplePlace (names : List String) : List Bytes :=
  names.map fun name => Text.encode name.toList

private def sampleFiles : List (List Bytes × Bytes) :=
  [ (samplePlace ["r", ".reuse", "dep5"],
      Text.encode "Format: 1\n\nFiles: *\nLicense: MIT".toList),
    (samplePlace ["r", "a.c"], Text.encode "int a;".toList) ]

private def sampleSession : Session where
  tree := sampleFiles.foldl (fun tree file => tree.write file.1 file.2) FileTree.empty
  workingDirectory := []
  resolver := none

private def sampleRoot : Path := Path.ofText "/r".toList

private def samplePath : Path := Path.ofText "a.c".toList

private def sampleResolver : Resolver where
  root := sampleRoot
  options := ⟨none, defaultManifestPath⟩
  manifest := some
    { header := ⟨"1".toList, none, [], none, none, none, none, none⟩
      stanzas := [⟨["*".toList], none, none, some "MIT".toList, none⟩] }

private def sampleActions : List Action :=
  [ .edit (.remove (samplePlace ["r", ".reuse"])),
    .edit (.write (samplePlace ["r", "b.c"]) []),
    .ask (Path.ofText "b.c".toList),
    .edit (.write (samplePlace ["r", "d", "b.c.license"]) []) ]

theorem answer?_of_open_of_removed_manifest :
    (Resolver.load sampleSession.view sampleRoot ⟨none, defaultManifestPath⟩).result =
        .ok sampleResolver ∧
      let opened := sampleSession.step (.reopen sampleRoot ⟨none, defaultManifestPath⟩)
      let later := opened.run sampleActions
      later.answer? samplePath = opened.answer? samplePath ∧
        later.view (Path.ofText "/r/.reuse/dep5".toList) = .unreachable .notFound := by
  have loaded : (Resolver.load sampleSession.view sampleRoot
      ⟨none, defaultManifestPath⟩).result = .ok sampleResolver := rfl
  have spared : (sampleSession.step (.reopen sampleRoot ⟨none, defaultManifestPath⟩)).SparesAll
      (sampleResolver.passes sampleSession.workingDirectory samplePath) sampleActions :=
    ⟨by decide, by decide, by decide, by decide, trivial⟩
  obtain ⟨-, -, -, stays⟩ := answer?_of_open loaded
    (by decide : ∀ action ∈ sampleActions, ¬action.Reopens) samplePath
  exact ⟨loaded, stays spared, by decide⟩

end Session

end LicenseSurvey
