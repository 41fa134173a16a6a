import LicenseSurvey.Proofs.Path.FileName
import LicenseSurvey.Proofs.Text.Decoding
import Mathlib.Data.List.Induction

/-! # Normal paths

The steps of a path are taken from left to right, with the names so far on a stack. A path
has a form beneath the root when no step `..` finds the stack empty and some name is left at
the end, and the form is what is on the stack, with single slashes between the names.
-/

namespace LicenseSurvey.Path

variable {root path relative base : Path} {steps : List Component} {names : List Bytes}

/-! ## Components of joined paths -/

def stepsOf (path : Path) : List Component :=
  (Text.splitBy (· == slash) path).filterMap stepOfPiece?

theorem stepsOf_append (left right : Path) :
    stepsOf (left ++ slash :: right) = stepsOf left ++ stepsOf right := by
  rw [stepsOf, Text.splitBy_append (by rfl), List.filterMap_append]
  rfl

theorem components_of_isAbsolute (absolute : isAbsolute path = true) :
    components path = .root :: stepsOf path := by
  rw [components, if_pos absolute]
  rfl

theorem components_of_not_isAbsolute (notAbsolute : isAbsolute path = false) :
    components path =
      (if (Text.splitBy (· == slash) path).head? = some [dot] then [.here] else []) ++
        stepsOf path := by
  rw [components, notAbsolute, if_neg (by decide)]
  rfl

theorem isAbsolute_append (notEmpty : base ≠ []) (rest : Path) :
    isAbsolute (base ++ rest) = isAbsolute base := by
  rw [isAbsolute, isAbsolute, List.head?_append_of_ne_nil base notEmpty]

theorem components_append_slash (notEmpty : base ≠ []) (rest : Path) :
    components (base ++ slash :: rest) = components base ++ stepsOf rest := by
  have first : (Text.splitBy (· == slash) (base ++ slash :: rest)).head? =
      (Text.splitBy (· == slash) base).head? := by
    rw [Text.splitBy_append (by rfl),
      List.head?_append_of_ne_nil _ (Text.splitBy_ne_nil _ base)]
  cases absolute : isAbsolute base with
  | true =>
      rw [components_of_isAbsolute ((isAbsolute_append notEmpty _).trans absolute),
        components_of_isAbsolute absolute, stepsOf_append]
      rfl
  | false =>
      rw [components_of_not_isAbsolute ((isAbsolute_append notEmpty _).trans absolute),
        components_of_not_isAbsolute absolute, stepsOf_append, first, List.append_assoc]

theorem components_join (notEmpty : base ≠ []) (notAbsolute : isAbsolute path = false) :
    components (join base path) = components base ++ stepsOf path := by
  rw [join, notAbsolute, if_neg (by decide)]
  split
  · rename_i ends
    rcases List.getLast?_eq_some_iff.mp (ends.resolve_left notEmpty) with ⟨front, rfl⟩
    rw [List.append_assoc, List.singleton_append]
    cases front with
    | nil =>
        -- The base is the root alone, and its only slash stands in front of the path.
        rw [components_of_isAbsolute rfl, List.nil_append, components_of_isAbsolute rfl]
        rfl
    | cons byte front =>
        have some : byte :: front ≠ [] := List.cons_ne_nil byte front
        rw [components_append_slash some, components_append_slash some]
        exact (List.append_assoc (components (byte :: front)) [] _).symm
  · exact components_append_slash notEmpty path

theorem ne_nil_of_isAbsolute (absolute : isAbsolute path = true) : path ≠ [] := by
  rintro rfl
  exact Bool.noConfusion absolute

theorem isAbsolute_join (absolute : isAbsolute base = true) (path : Path) :
    isAbsolute (join base path) = true := by
  have begun (rest : Path) : isAbsolute (base ++ rest) = true :=
    (isAbsolute_append (ne_nil_of_isAbsolute absolute) rest).trans absolute
  rw [join]
  split
  · assumption
  · split
    · exact begun path
    · exact begun (slash :: path)

theorem root_notMem_stepsOf (path : Path) : .root ∉ stepsOf path := by
  intro member
  rcases List.mem_filterMap.mp member with ⟨piece, -, means⟩
  rw [stepOfPiece?] at means
  split at means
  · cases means
  · split at means <;> cases means

theorem root_notMem_components (notAbsolute : isAbsolute path = false) :
    .root ∉ components path := by
  rw [components_of_not_isAbsolute notAbsolute, List.mem_append, not_or]
  constructor
  · split <;> simp
  · exact root_notMem_stepsOf path

/-! ## Names with single slashes between them -/

theorem ofNames_singleton (name : Bytes) : ofNames [name] = name := List.intercalate_singleton

theorem ofNames_cons (notEmpty : names ≠ []) (name : Bytes) :
    ofNames (name :: names) = name ++ slash :: ofNames names := by
  rw [ofNames, List.intercalate_cons_of_ne_nil notEmpty, List.append_assoc]
  rfl

theorem ofNames_concat (notEmpty : names ≠ []) (name : Bytes) :
    ofNames (names ++ [name]) = ofNames names ++ slash :: name := by
  induction names with
  | nil => exact absurd rfl notEmpty
  | cons first names induction =>
      cases names with
      | nil =>
          rw [List.singleton_append, ofNames_cons (List.cons_ne_nil name []),
            ofNames_singleton, ofNames_singleton]
      | cons next rest =>
          have some : next :: rest ≠ [] := List.cons_ne_nil next rest
          rw [List.cons_append, ofNames_cons (List.append_ne_nil_of_left_ne_nil some _),
            induction some, ofNames_cons some, List.append_assoc, List.cons_append]

theorem text_ofNames (names : List Bytes) :
    (ofNames names).text = Text.join ['/'] (names.map Text.decode) := by
  induction names with
  | nil => rfl
  | cons name names induction =>
      cases names with
      | nil =>
          rw [ofNames_singleton]
          rfl
      | cons next rest =>
          rw [ofNames_cons (List.cons_ne_nil next rest), text, Text.decode_append (by decide)]
          rw [text] at induction
          rw [induction, List.map_cons, List.map_cons]
          exact (List.append_assoc _ ['/'] _).symm

theorem splitBy_ofNames (each : ∀ name ∈ names, IsName name) (notEmpty : names ≠ []) :
    Text.splitBy (· == slash) (ofNames names) = names := by
  rw [ofNames, Text.splitBy_eq_splitOnP]
  exact List.splitOn_intercalate slash (fun name member => (each name member).2) notEmpty

theorem stepsOf_ofNames (each : ∀ name ∈ names, IsName name) (notEmpty : names ≠ []) :
    stepsOf (ofNames names) = names.map .name := by
  rw [stepsOf, splitBy_ofNames each notEmpty, ← List.filterMap_eq_map]
  exact List.filterMap_congr fun name member => (each name member).1

theorem isAbsolute_ofNames (each : ∀ name ∈ names, IsName name) :
    isAbsolute (ofNames names) = false := by
  cases names with
  | nil => rfl
  | cons name names =>
      have isName := each name (List.mem_cons_self ..)
      cases names with
      | nil => rw [ofNames_singleton, isName.isAbsolute_eq_false]
      | cons next rest =>
          rw [ofNames_cons (List.cons_ne_nil next rest), isAbsolute_append isName.ne_nil,
            isName.isAbsolute_eq_false]

theorem components_ofNames (each : ∀ name ∈ names, IsName name) (notEmpty : names ≠ []) :
    components (ofNames names) = names.map .name := by
  have first : names.head? ≠ some [dot] := by
    intro here
    exact (each _ (List.mem_of_mem_head? here)).ne_dot rfl
  rw [components_of_not_isAbsolute (isAbsolute_ofNames each), splitBy_ofNames each notEmpty,
    if_neg first, List.nil_append, stepsOf_ofNames each notEmpty]

theorem slashed_ofNames (each : ∀ name ∈ names, IsName name) (notEmpty : names ≠ []) :
    slashed (ofNames names) = (ofNames names).text := by
  rw [slashed, components_ofNames each notEmpty, List.map_map, text_ofNames]
  rfl

theorem ofComponents_names (each : ∀ name ∈ names, IsName name) :
    ofComponents (names.map .name) = ofNames names := by
  induction names using List.reverseRecOn with
  | nil => rfl
  | append_singleton front name induction =>
      rw [List.forall_mem_append, List.forall_mem_singleton] at each
      rw [List.map_append, ofComponents, List.foldl_append, ← ofComponents, induction each.1]
      change join _ name = _
      rw [join, each.2.isAbsolute_eq_false, if_neg (by decide)]
      rcases List.eq_nil_or_concat front with rfl | ⟨ahead, last, rfl⟩
      · rw [if_pos (.inl rfl), List.nil_append, ofNames_singleton]
        rfl
      · rw [List.concat_eq_append] at each ⊢
        have isName := each.1 last (List.mem_append_right ahead (List.mem_singleton_self last))
        have ends : last <:+ ofNames (ahead ++ [last]) := by
          rcases eq_or_ne ahead [] with rfl | notEmpty
          · exact (ofNames_singleton last).symm ▸ List.suffix_rfl
          · rw [ofNames_concat notEmpty]
            exact (List.suffix_cons slash last).trans (List.suffix_append _ _)
        have unslashed : ¬(ofNames (ahead ++ [last]) = [] ∨
            (ofNames (ahead ++ [last])).getLast? = some slash) := by
          rcases ends with ⟨rest, whole⟩
          rw [← whole, not_or, List.getLast?_append_of_ne_nil rest isName.ne_nil]
          exact ⟨List.append_ne_nil_of_right_ne_nil rest isName.ne_nil,
            fun final => isName.2 (List.mem_of_getLast? final)⟩
        rw [if_neg unslashed, ofNames_concat (List.append_ne_nil_of_right_ne_nil ahead
          (List.cons_ne_nil last []))]

/-! ## The stack -/

/-- Taking some steps from left to right turns one stack of names into another. No step `..`
is taken with nothing on the stack. -/
inductive Leads : (stack : List Bytes) → (steps : List Component) → (reached : List Bytes) → Prop
  | done (stack : List Bytes) : Leads stack [] stack
  | here {stack steps reached} (later : Leads stack steps reached) :
      Leads stack (.here :: steps) reached
  | above {stack name steps reached} (later : Leads stack steps reached) :
      Leads (stack ++ [name]) (.above :: steps) reached
  | name {stack name steps reached} (later : Leads (stack ++ [name]) steps reached) :
      Leads stack (.name name :: steps) reached

section

variable {stack reached : List Bytes}

theorem leads_here_iff : Leads stack (.here :: steps) reached ↔ Leads stack steps reached := by
  constructor
  · intro leads
    cases leads with
    | here later => exact later
  · exact .here

theorem leads_name_iff {name : Bytes} :
    Leads stack (.name name :: steps) reached ↔ Leads (stack ++ [name]) steps reached := by
  constructor
  · intro leads
    cases leads with
    | name later => exact later
  · exact .name

theorem leads_above_iff :
    Leads stack (.above :: steps) reached ↔
      ∃ front name, stack = front ++ [name] ∧ Leads front steps reached := by
  constructor
  · intro leads
    cases leads with
    | above later => exact ⟨_, _, rfl, later⟩
  · rintro ⟨front, name, rfl, later⟩
    exact .above later

end

/-- Walking along the steps is to take them one by one with a stack. -/
theorem walk_eq_some_iff (notRoot : .root ∉ steps) {stack : List Bytes}
    {visited : List Component} :
    walk (stack.map .name) steps = some visited ↔
      ∃ reached, Leads stack steps reached ∧ visited = reached.map .name := by
  induction steps generalizing stack with
  | nil =>
      rw [walk, Option.some.injEq]
      constructor
      · rintro rfl
        exact ⟨stack, .done stack, rfl⟩
      · rintro ⟨reached, leads, rfl⟩
        cases leads
        rfl
  | cons step steps induction =>
      rw [List.mem_cons, not_or] at notRoot
      cases step with
      | root => exact absurd rfl notRoot.1
      | here =>
          rw [walk, induction notRoot.2]
          simp only [leads_here_iff]
      | name text =>
          have pushed : stack.map Component.name ++ [.name text] =
              (stack ++ [text]).map .name := by simp
          rw [walk, pushed, induction notRoot.2]
          simp only [leads_name_iff]
      | above =>
          simp only [leads_above_iff]
          rcases List.eq_nil_or_concat stack with rfl | ⟨front, last, rfl⟩
          · simp [walk]
          · have popped : (front ++ [last]).map Component.name =
                front.map .name ++ [.name last] := by simp
            rw [List.concat_eq_append, walk, popped, List.getLast?_concat]
            simp only [List.dropLast_concat]
            rw [induction notRoot.2]
            apply exists_congr
            intro reached
            apply and_congr_left'
            constructor
            · exact fun later => ⟨front, last, rfl, later⟩
            · rintro ⟨front, name, equal, later⟩
              rwa [(List.append_inj' equal rfl).1]

theorem Leads.isName {stack reached : List Bytes} (leads : Leads stack steps reached)
    (onStack : ∀ name ∈ stack, IsName name) (inSteps : ∀ name, .name name ∈ steps → IsName name) :
    ∀ name ∈ reached, IsName name := by
  induction leads with
  | done stack => exact onStack
  | here later induction =>
      exact induction onStack fun name member => inSteps name (List.mem_cons_of_mem _ member)
  | above later induction =>
      exact induction (fun name member => onStack name (List.mem_append_left _ member))
        fun name member => inSteps name (List.mem_cons_of_mem _ member)
  | name later induction =>
      apply induction
      · rw [List.forall_mem_append, List.forall_mem_singleton]
        exact ⟨onStack, inSteps _ (List.mem_cons_self ..)⟩
      · exact fun name member => inSteps name (List.mem_cons_of_mem _ member)

theorem leads_names_iff {stack reached : List Bytes} :
    Leads stack (names.map .name) reached ↔ reached = stack ++ names := by
  induction names generalizing stack with
  | nil =>
      rw [List.append_nil]
      constructor
      · intro leads
        cases leads
        rfl
      · rintro rfl
        exact .done _
  | cons name names induction =>
      rw [List.map_cons, List.append_cons, ← induction]
      exact leads_name_iff

/-! ## Steps from a root -/

namespace StepsFrom

theorem isName (taken : StepsFrom root path steps) {name : Bytes} (member : .name name ∈ steps) :
    IsName name := by
  apply @isName_of_mem_components path
  cases taken with
  | relative _ whole => exact whole ▸ member
  | beneath _ split => exact split ▸ List.mem_append_right _ member

theorem root_notMem (absolute : isAbsolute root = true) (taken : StepsFrom root path steps) :
    .root ∉ steps := by
  cases taken with
  | relative notAbsolute whole => exact whole ▸ root_notMem_components notAbsolute
  | beneath also split =>
      rw [components_of_isAbsolute absolute, components_of_isAbsolute also, List.cons_append,
        List.cons.injEq] at split
      intro member
      exact root_notMem_stepsOf path (split.2 ▸ List.mem_append_right _ member)

theorem unique {others : List Component} (taken : StepsFrom root path steps)
    (also : StepsFrom root path others) : steps = others := by
  cases taken with
  | relative notAbsolute whole =>
      cases also with
      | relative _ same => exact whole.symm.trans same
      | beneath absolute _ => exact absurd (notAbsolute.symm.trans absolute) (by decide)
  | beneath absolute split =>
      cases also with
      | relative notAbsolute _ => exact absurd (notAbsolute.symm.trans absolute) (by decide)
      | beneath _ same => exact List.append_cancel_left (split.symm.trans same)

end StepsFrom

theorem relativeTo_eq_ok_iff_of_stepsFrom (absolute : isAbsolute root = true)
    (taken : StepsFrom root path steps) :
    relativeTo root path = .ok relative ↔
      ∃ names, Leads [] steps names ∧ names ≠ [] ∧ relative = ofNames names := by
  have walked {visited : List Component} :=
    @walk_eq_some_iff steps (taken.root_notMem absolute) [] visited
  rw [relativeTo_eq_ok_iff]
  constructor
  · rintro ⟨others, also, placed⟩
    rw [← taken.unique also] at placed
    rcases ofSteps_eq_ok_iff.mp placed with ⟨visited, reached, notEmpty, rfl⟩
    rcases walked.mp reached with ⟨names, leads, rfl⟩
    have each := leads.isName (by simp) fun name member => taken.isName member
    exact ⟨names, leads, fun none => notEmpty (congrArg _ none), ofComponents_names each⟩
  · rintro ⟨names, leads, notEmpty, rfl⟩
    have each := leads.isName (by simp) fun name member => taken.isName member
    refine ⟨steps, taken, ofSteps_eq_ok_iff.mpr ⟨_, walked.mpr ⟨names, leads, rfl⟩, ?_, ?_⟩⟩
    · exact fun none => notEmpty (List.map_eq_nil_iff.mp none)
    · exact (ofComponents_names each).symm

theorem exists_names_of_relativeTo (absolute : isAbsolute root = true)
    (placed : relativeTo root path = .ok relative) :
    ∃ names, (∀ name ∈ names, IsName name) ∧ names ≠ [] ∧ relative = ofNames names := by
  rcases relativeTo_eq_ok_iff.mp placed with ⟨steps, taken, -⟩
  rcases (relativeTo_eq_ok_iff_of_stepsFrom absolute taken).mp placed with
    ⟨names, leads, notEmpty, joined⟩
  exact ⟨names, leads.isName (by simp) fun name member => taken.isName member, notEmpty, joined⟩

theorem leads_components_iff (notAbsolute : isAbsolute path = false) {stack reached : List Bytes} :
    Leads stack (components path) reached ↔ Leads stack (stepsOf path) reached := by
  rw [components_of_not_isAbsolute notAbsolute]
  split
  · exact leads_here_iff
  · rfl

theorem stepsFrom_join (absolute : isAbsolute root = true) (notAbsolute : isAbsolute path = false) :
    StepsFrom root (join root path) (stepsOf path) := by
  apply StepsFrom.beneath (isAbsolute_join absolute path)
  exact components_join (ne_nil_of_isAbsolute absolute) notAbsolute

/-! ## The form beneath a root -/

/-- It makes no difference whether a relative path is joined to the root. -/
theorem relativeTo_join_eq_ok_iff (absolute : isAbsolute root = true)
    (notAbsolute : isAbsolute path = false) :
    relativeTo root (join root path) = .ok relative ↔ relativeTo root path = .ok relative := by
  rw [relativeTo_eq_ok_iff_of_stepsFrom absolute (stepsFrom_join absolute notAbsolute),
    relativeTo_eq_ok_iff_of_stepsFrom absolute (.relative notAbsolute rfl)]
  simp only [leads_components_iff notAbsolute]

def IsText (path : Path) : Prop := ∃ text, ofText text = path

theorem IsText.ofText_text (isText : path.IsText) : ofText path.text = path := by
  rcases isText with ⟨text, rfl⟩
  rw [Path.text, ofText, ofText, Text.decode_encode]

/-- A path is in its form beneath a root: it has names only, so that the root is in front of
it when the two are joined, and it is the form of itself in each of its spellings. What is
shown of it spells it, too, when it is a text. -/
structure IsNormal (root form : Path) : Prop where
  notAbsolute : isAbsolute form = false
  notEmpty : components form ≠ []
  names : ∀ component ∈ components form, ∃ name, component = .name name
  beneath : components (join root form) = components root ++ components form
  slashed_eq : slashed form = form.text
  fixed : relativeTo root form = .ok form
  joined : relativeTo root (join root form) = .ok form
  spelled : form.IsText → relativeTo root (ofText ("./".toList ++ slashed form)) = .ok form

theorem isNormal_ofNames (absolute : isAbsolute root = true) (each : ∀ name ∈ names, IsName name)
    (notEmpty : names ≠ []) : IsNormal root (ofNames names) := by
  have notAbsolute := isAbsolute_ofNames each
  have whole := components_ofNames each notEmpty
  have fixed : relativeTo root (ofNames names) = .ok (ofNames names) := by
    apply (relativeTo_eq_ok_iff_of_stepsFrom absolute (.relative notAbsolute whole)).mpr
    exact ⟨names, leads_names_iff.mpr rfl, notEmpty, rfl⟩
  constructor
  case notAbsolute => exact notAbsolute
  case notEmpty =>
    rw [whole]
    exact fun none => notEmpty (List.map_eq_nil_iff.mp none)
  case names =>
    rw [whole]
    intro component member
    rcases List.mem_map.mp member with ⟨name, -, rfl⟩
    exact ⟨name, rfl⟩
  case beneath =>
    rw [components_join (ne_nil_of_isAbsolute absolute) notAbsolute,
      stepsOf_ofNames each notEmpty, whole]
  case slashed_eq => exact slashed_ofNames each notEmpty
  case fixed => exact fixed
  case joined => exact (relativeTo_join_eq_ok_iff absolute notAbsolute).mpr fixed
  case spelled =>
    intro isText
    have split : components ([dot] ++ slash :: ofNames names) = .here :: names.map .name := by
      rw [components_append_slash (List.cons_ne_nil dot []), stepsOf_ofNames each notEmpty]
      rfl
    have written : ofText ("./".toList ++ (ofNames names).text) =
        [dot] ++ slash :: ofNames names := by
      rw [ofText, Text.encode_append, ← ofText, ← ofText, isText.ofText_text]
      rfl
    rw [slashed_ofNames each notEmpty, written]
    apply (relativeTo_eq_ok_iff_of_stepsFrom absolute (.relative rfl split)).mpr
    exact ⟨names, .here (leads_names_iff.mpr rfl), notEmpty, rfl⟩

end LicenseSurvey.Path
