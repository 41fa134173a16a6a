import LicenseSurvey.Proofs.Comment.ContextualScan
import LicenseSurvey.Proofs.Language.Lookup

/-! # Overlapping markers

A marker can hide another one only when the end of the first is a beginning of the
second, or when one stands inside the other. So for most languages it is known from
their markers alone whether scanning in context finds the same comments in every file.
-/

namespace LicenseSurvey

namespace Text

def canHide : (front marker : Text) → Bool
  | [], _ => false
  | character :: rest, marker =>
      startsWith (character :: rest) marker || startsWith marker (character :: rest) ||
        canHide rest marker

theorem canHide_of_append_eq {front after covered rest marker : Text}
    (equal : front ++ after = covered ++ rest) (shorter : size covered < size front)
    (begins : startsWith rest marker = true) : canHide front marker = true := by
  induction front generalizing covered with
  | nil => simp at shorter
  | cons character front induction =>
      rw [canHide]
      cases covered with
      -- Both begin here, so the shorter one is a front of the longer one.
      | nil =>
          obtain ⟨more, split⟩ := startsWith_iff.mp begins
          rw [List.nil_append, split, List.append_eq_append_iff] at equal
          rcases equal with ⟨common, longer, -⟩ | ⟨common, longer, -⟩
          · rw [startsWith_iff.mpr ⟨common, longer⟩, Bool.or_true, Bool.true_or]
          · rw [startsWith_iff.mpr ⟨common, longer⟩, Bool.true_or, Bool.true_or]
      | cons first covered =>
          simp only [List.cons_append, List.cons.injEq] at equal
          rw [size_cons, size_cons, equal.1] at shorter
          rw [induction equal.2 (Nat.lt_of_add_lt_add_left shorter), Bool.or_true]

end Text

namespace Markers

/-- Whether in some context a marker without an effect can hide one with an effect. -/
def overlapping (markers : Markers) : Bool :=
  [Context.code, .block [] 0 [], .quotation .single].any fun context =>
    markers.table.any fun ignored => !context.counts ignored.1 &&
      (context.counted markers).any fun counted => Text.canHide ignored.2 counted.2

end Markers

namespace Context

variable {markers : Markers} {number : Nat} {context : Context}

theorem exists_counts_eq (context : Context) :
    ∃ other ∈ [Context.code, .block [] 0 [], .quotation .single],
      other.counts = context.counts := by
  cases context with
  | code => exact ⟨.code, by simp, rfl⟩
  | block earlier start ahead =>
      refine ⟨.block [] 0 [], by simp, ?_⟩
      funext mark
      cases mark <;> rfl
  | quotation quote =>
      refine ⟨.quotation .single, by simp, ?_⟩
      funext mark
      cases mark <;> rfl

theorem not_hides_of_not_overlapping (apart : markers.overlapping = false) {mark : Mark}
    {marker after : Text} (member : (mark, marker) ∈ markers.table)
    (ignored : context.counts mark = false) (position : Nat) :
    ¬context.Hides markers ⟨mark, position, Text.size marker, marker ++ after⟩ := by
  rintro ⟨covered, rest, equal, shorter, found⟩
  obtain ⟨other, kind, same⟩ := exists_counts_eq context
  obtain ⟨⟨hidden, text⟩, found⟩ := Option.isSome_iff_exists.mp found
  have counted : (hidden, text) ∈ other.counted markers := by
    rw [counted, same]
    exact List.mem_of_find?_eq_some found
  have begins := List.find?_some found
  have hides := Text.canHide_of_append_eq equal shorter begins
  have overlaps : markers.overlapping = true := by
    refine List.any_eq_true.mpr ⟨other, kind, List.any_eq_true.mpr ⟨_, member, ?_⟩⟩
    rw [same, ignored]
    exact List.any_eq_true.mpr ⟨_, counted, hides⟩
  exact Bool.noConfusion (apart.symm.trans overlaps)

theorem undisturbed_of_not_overlapping (apart : markers.overlapping = false)
    (position : Nat) (text : Text) :
    Undisturbed markers context (Markers.tokensFrom markers.table position text) := by
  induction text using Markers.induction_markAt? markers generalizing position context with
  | nil =>
      rw [Markers.tokensFrom_nil]
      trivial
  | skip character rest stands induction =>
      rw [Markers.tokensFrom_skip stands]
      exact induction _
  | meet mark marker after stands induction =>
      rw [Markers.tokensFrom_meet stands, Undisturbed]
      cases counts : context.counts mark with
      | true => exact fun _ => induction _
      | false =>
          have member := Markers.mem_of_markAt? stands
          exact ⟨not_hides_of_not_overlapping apart member counts position, induction _⟩

theorem undisturbedLines_of_not_overlapping (apart : markers.overlapping = false)
    (lines : List Text) : UndisturbedLines markers number context lines := by
  induction lines generalizing number context with
  | nil => trivial
  | cons line lines induction =>
      exact ⟨undisturbed_of_not_overlapping apart 0 line, induction⟩

end Context

namespace Language

/-- A text in which the markers of a language overlap: a closing marker, and in the next
line an opening marker with another one behind it that runs into a closing marker. -/
def clash (language : Language) : Text :=
  match language.markers.block with
  | none => []
  | some block =>
      block.closing ++ '\n' :: (block.opening ++ (block.opening ++ block.closing.drop 1))

theorem not_overlapping_of_mem_registry : ∀ language ∈ registry,
    language.markers.block = none ∨ language.name = "Lua".toList →
      language.markers.overlapping = false := by
  decide

theorem extract_clash_ne_scan_clash : ∀ language ∈ registry,
    ¬(language.markers.block = none ∨ language.name = "Lua".toList) →
      language.name ≠ "MATLAB".toList →
        Comment.extract language.markers none (Text.encode language.clash) ≠
          Comment.scan language.markers none (Text.encode language.clash) := by
  decide +kernel

/-- The comments of a file are those that the scanner finds, unless a marker without an
effect hides one with an effect. For the languages that files can have this happens in
no file when the language has no block comments, and in no file of Lua, whose line
marker stands in front of its block marker; in every other one it happens in some file. -/
theorem extract_eq_scan_of_lookup {path : Path} {language : Language}
    (known : lookup path = .ok language) :
    (∀ limit content,
      Context.UndisturbedLines language.markers 1 .code (Text.sourceLines limit content) →
        Comment.extract language.markers limit content =
          Comment.scan language.markers limit content) ∧
      ((∀ limit content, Comment.extract language.markers limit content =
          Comment.scan language.markers limit content) ↔
        language.markers.block = none ∨ language.name = "Lua".toList) := by
  have alone := claimsAlone_of_lookup known
  have agree : ∀ limit content,
      Context.UndisturbedLines language.markers 1 .code (Text.sourceLines limit content) →
        Comment.extract language.markers limit content =
          Comment.scan language.markers limit content := by
    intro limit content clear
    rw [Comment.extract, Comment.scan, Context.scanLines_eq_readLines clear]
  refine ⟨agree, ?_, ?_⟩
  · intro always
    by_cases apart : language.markers.block = none ∨ language.name = "Lua".toList
    · exact apart
    · have differ := extract_clash_ne_scan_clash language alone.mem_registry apart
        alone.name_ne_matlab
      exact absurd (always none (Text.encode language.clash)) differ
  · intro apart limit content
    have clear := not_overlapping_of_mem_registry language alone.mem_registry apart
    exact agree limit content (Context.undisturbedLines_of_not_overlapping clear _)

theorem extract_eq_scan_of_lua_file : ∃ language : Language,
    lookup (Path.ofText "init.lua".toList) = .ok language ∧ ∀ limit content,
      Comment.extract language.markers limit content =
        Comment.scan language.markers limit content := by
  have known : lookup (Path.ofText "init.lua".toList) =
      .ok (row "Lua" ["lua"] [] (some "--") (some ("--[[", "]]")) [.single, .double]) := by
    rfl
  exact ⟨_, known, (extract_eq_scan_of_lookup known).2.mpr (.inr rfl)⟩

/-- A line marker stands over the beginning of the closing marker. -/
theorem extract_ne_scan_of_haskell_file : ∃ language : Language,
    lookup (Path.ofText "Main.hs".toList) = .ok language ∧
      Comment.extract language.markers none (Text.encode "\x7b- a --\x7d\n".toList) = [] ∧
      Comment.scan language.markers none (Text.encode "\x7b- a --\x7d\n".toList) =
        [⟨.block, "\x7b-".toList, "-\x7d".toList,
          [⟨1, 0, 8, "\x7b- a --\x7d".toList⟩]⟩] := by
  refine ⟨row "Haskell" ["hs", "lhs"] [] (some "--") (some ("\x7b-", "-\x7d")) [.double],
    ?_, ?_, ?_⟩
  · rfl
  · decide +kernel
  · decide +kernel

end Language

end LicenseSurvey
