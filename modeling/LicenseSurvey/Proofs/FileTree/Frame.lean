import LicenseSurvey.FileTree.Editing

/-! # What a lookup depends on

The places that a lookup passes are known from the path alone, and the answer depends on
nothing but what stands at them. An edit changes what stands at its place and beneath it,
and writing also makes the directories above it; everything else stays as it was.
-/

namespace LicenseSurvey.FileTree

/-! ## What stands at a place -/

theorem entryAt?_cons (tree : FileTree) (name : Bytes) (rest : List Bytes) :
    tree.entryAt? (name :: rest) = (tree.child? name).bind fun child => child.entryAt? rest := by
  rw [entryAt?, at?]
  cases tree.child? name <;> rfl

theorem isNone_at? (tree : FileTree) (place : List Bytes) :
    (tree.at? place).isNone = (tree.entryAt? place).isNone := by
  rw [entryAt?, Option.isNone_map]

theorem obstacle?_eq_none_iff {tree : FileTree} {place : List Bytes} :
    tree.obstacle? place = none ↔ tree.isDirectoryAt place = true := by
  rw [obstacle?, isDirectoryAt]
  cases tree.entryAt? place with
  | none => simp
  | some entry => cases entry <;> simp

/-! ## Lookups -/

def next (place : List Bytes) (step : Bytes) : List Bytes :=
  if step = [Path.dot] then place
  else if step = [Path.dot, Path.dot] then place.dropLast
  else place ++ [step]

def visits : (place : List Bytes) → (steps : List Bytes) → List (List Bytes)
  | place, [] => [place]
  | place, step :: rest => place :: visits (next place step) rest

example : visits [[0x72]] [[0x61], [Path.dot, Path.dot], [0x62]] =
    [[[0x72]], [[0x72], [0x61]], [[0x72]], [[0x72], [0x62]]] := by decide

theorem mem_visits (place steps : List Bytes) : place ∈ visits place steps := by
  cases steps <;> exact List.mem_cons_self ..

theorem follow_cons (tree : FileTree) (place : List Bytes) (step : Bytes) (rest : List Bytes) :
    tree.follow place (step :: rest) =
      match tree.obstacle? place with
      | some error => .error error
      | none =>
          if step = [Path.dot] ∨ step = [Path.dot, Path.dot] then tree.follow (next place step) rest
          else if nameLimit < step.length then .error .nameTooLong
          else if (tree.at? (next place step)).isNone then .error .notFound
          else tree.follow (next place step) rest := by
  rw [follow, next]
  cases tree.obstacle? place with
  | some error => rfl
  | none =>
      by_cases here : step = [Path.dot]
      · simp [here]
      · by_cases above : step = [Path.dot, Path.dot]
        · simp [above]
        · simp [here, above]

section

variable {left right : FileTree} {place steps : List Bytes}

theorem follow_congr
    (same : ∀ visited ∈ visits place steps, left.entryAt? visited = right.entryAt? visited) :
    left.follow place steps = right.follow place steps := by
  induction steps generalizing place with
  | nil => rfl
  | cons step rest induction =>
      obtain ⟨here, later⟩ := List.forall_mem_cons.mp same
      have ahead := later (next place step) (mem_visits _ rest)
      rw [follow_cons, follow_cons, obstacle?, obstacle?, here, isNone_at?, isNone_at?, ahead,
        induction later]

theorem follow_cons_eq_ok {tree : FileTree} {step : Bytes} {rest goal : List Bytes}
    (led : tree.follow place (step :: rest) = .ok goal) :
    tree.isDirectoryAt place = true ∧ tree.follow (next place step) rest = .ok goal := by
  rw [follow_cons] at led
  split at led
  · cases led
  · rename_i free
    refine ⟨obstacle?_eq_none_iff.mp free, ?_⟩
    split at led
    · exact led
    · split at led
      · cases led
      · split at led
        · cases led
        · exact led

theorem mem_visits_of_follow {tree : FileTree} {goal : List Bytes}
    (led : tree.follow place steps = .ok goal) : goal ∈ visits place steps := by
  induction steps generalizing place with
  | nil =>
      rw [follow, Except.ok.injEq] at led
      exact led ▸ mem_visits place []
  | cons step rest induction =>
      exact List.mem_cons_of_mem _ (induction (follow_cons_eq_ok led).2)

end

def visitsOf (workingDirectory : List Bytes) (path : Path) : List (List Bytes) :=
  visits (startOf workingDirectory path) (steps path)

/-- Trees in which the same stands at every place that is passed give the same answer. -/
theorem view_congr {left right : FileTree} {workingDirectory : List Bytes} {path : Path}
    (same : ∀ visited ∈ visitsOf workingDirectory path,
      left.entryAt? visited = right.entryAt? visited) :
    left.view workingDirectory path = right.view workingDirectory path := by
  have located : left.locate workingDirectory path = right.locate workingDirectory path := by
    rw [locate, locate, follow_congr same]
  rw [view, view, located]
  cases led : right.locate workingDirectory path with
  | error error => rfl
  | ok place =>
      have passed : place ∈ visitsOf workingDirectory path := by
        rw [locate] at led
        split at led
        · cases led
        · exact mem_visits_of_follow led
      simp only [same place passed]

/-! ## Edits -/

inductive Edit where
  | write (target : List Bytes) (content : Bytes)
  | remove (target : List Bytes)
deriving DecidableEq, Repr

namespace Edit

def apply (tree : FileTree) : Edit → FileTree
  | .write target content => tree.write target content
  | .remove target => tree.remove target

def Spares (tree : FileTree) (place : List Bytes) : Edit → Prop
  | .write target _ => ¬target <+: place ∧ (place <+: target → tree.isDirectoryAt place = true)
  | .remove target => ¬target <+: place

instance (tree : FileTree) (place : List Bytes) (edit : Edit) :
    Decidable (edit.Spares tree place) :=
  match edit with
  | .write target _ => inferInstanceAs (Decidable
      (¬target <+: place ∧ (place <+: target → tree.isDirectoryAt place = true)))
  | .remove target => inferInstanceAs (Decidable ¬target <+: place)

end Edit

theorem child?_entries (tree : FileTree) (name : Bytes) :
    (directory tree.entries).child? name = tree.child? name := by
  cases tree <;> rfl

theorem child?_filter {name other : Bytes} (different : name ≠ other)
    (held : List (Bytes × FileTree)) :
    (directory (held.filter fun entry => entry.1 ≠ name)).child? other =
      (directory held).child? other := by
  have sought : (fun entry : Bytes × FileTree =>
      decide (decide (entry.1 ≠ name) = true ∧ decide (entry.1 = other) = true)) =
        fun entry => decide (entry.1 = other) := by
    funext entry
    by_cases equal : entry.1 = other
    · simp [equal, Ne.symm different]
    · simp [equal]
  rw [child?, child?, List.find?_filter, sought]

theorem entryAt?_graft {leaf : FileTree} {target place : List Bytes} {tree : FileTree}
    (beside : ¬target <+: place) (above : place <+: target → tree.isDirectoryAt place = true) :
    (graft leaf target tree).entryAt? place = tree.entryAt? place := by
  induction target generalizing place tree with
  | nil => exact absurd (List.nil_prefix) beside
  | cons name rest induction =>
      cases place with
      | nil =>
          have directory := above List.nil_prefix
          rw [isDirectoryAt, decide_eq_true_eq] at directory
          rw [directory]
          rfl
      | cons other place =>
          rw [graft, entryAt?_cons, entryAt?_cons, child?_put, child?_entries]
          by_cases same : name = other
          · subst same
            rw [if_pos rfl, Option.bind_some]
            have beneath : ¬rest <+: place := by
              intro inside
              exact beside (List.cons_prefix_cons.mpr ⟨rfl, inside⟩)
            cases held : tree.child? name with
            | some child =>
                rw [Option.getD_some, Option.bind_some]
                apply induction beneath
                intro inside
                have directory := above (List.cons_prefix_cons.mpr ⟨rfl, inside⟩)
                rwa [isDirectoryAt, entryAt?_cons, held, Option.bind_some,
                  ← isDirectoryAt] at directory
            | none =>
                -- Nothing was there, so the place is not above the one that is written.
                have apart : ¬place <+: rest := by
                  intro inside
                  have directory := above (List.cons_prefix_cons.mpr ⟨rfl, inside⟩)
                  rw [isDirectoryAt, entryAt?_cons, held, Option.bind_none] at directory
                  cases directory
                rw [Option.getD_none, Option.bind_none,
                  induction beneath fun inside => absurd inside apart]
                cases place with
                | nil => exact absurd List.nil_prefix apart
                | cons first later => rfl
          · rw [if_neg same]

theorem entryAt?_remove {target place : List Bytes} {tree : FileTree} (beside : ¬target <+: place) :
    (tree.remove target).entryAt? place = tree.entryAt? place := by
  fun_induction remove target tree generalizing place with
  | case1 tree => exact absurd List.nil_prefix beside
  | case2 | case3 | case4 => rfl
  | case5 name entries =>
      cases place with
      | nil => rfl
      | cons other place =>
          have different : name ≠ other := by
            rintro rfl
            exact beside (List.prefix_append [name] place)
          rw [entryAt?_cons, entryAt?_cons, child?_filter different]
  | case6 name next rest entries child held induction =>
      cases place with
      | nil => rfl
      | cons other place =>
          rw [entryAt?_cons, entryAt?_cons, child?_put]
          by_cases same : name = other
          · subst same
            rw [if_pos rfl, held, Option.bind_some, Option.bind_some]
            apply induction
            intro inside
            exact beside (List.cons_prefix_cons.mpr ⟨rfl, inside⟩)
          · rw [if_neg same]
  | case7 => rfl

theorem entryAt?_apply {tree : FileTree} {edit : Edit} {place : List Bytes}
    (spared : edit.Spares tree place) :
    (edit.apply tree).entryAt? place = tree.entryAt? place := by
  cases edit with
  | write target content => exact entryAt?_graft spared.1 spared.2
  | remove target => exact entryAt?_remove spared

end LicenseSurvey.FileTree
