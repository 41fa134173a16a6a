import LicenseSurvey.Proofs.Text.Decoding
import LicenseSurvey.Proofs.Text.Paragraph

/-! # Line endings

A file may end its lines with a line feed alone or with a carriage return in front of it. As
long as it has no other carriage returns, none of the ways in which lines are read sees a
difference, also when ill-formed bytes stand in front of a line ending.
-/

namespace LicenseSurvey.Text

/-! ## Carriage returns put in -/

section

variable {α : Type} [DecidableEq α] {feed carriage : α} {elements line : List α}

def withReturns (carriage feed : α) (elements : List α) : List α :=
  elements.flatMap fun element => if element = feed then [carriage, feed] else [element]

theorem withReturns_of_notMem (noFeed : feed ∉ elements) :
    withReturns carriage feed elements = elements := by
  induction elements with
  | nil => rfl
  | cons element rest induction =>
      rw [List.mem_cons, not_or] at noFeed
      rw [withReturns] at induction ⊢
      rw [List.flatMap_cons, if_neg (Ne.symm noFeed.1), induction noFeed.2, List.singleton_append]

theorem withReturns_append (noFeed : feed ∉ line) (rest : List α) :
    withReturns carriage feed (line ++ feed :: rest) =
      (line ++ [carriage]) ++ feed :: withReturns carriage feed rest := by
  have whole := @withReturns_of_notMem _ _ feed carriage _ noFeed
  rw [withReturns] at whole ⊢
  rw [List.flatMap_append, List.flatMap_cons, if_pos rfl, whole, withReturns]
  simp

theorem prefix_withReturns_iff {mark : List α} (noFeed : feed ∉ mark)
    (noReturn : carriage ∉ mark) :
    mark <+: withReturns carriage feed elements ↔ mark <+: elements := by
  induction mark generalizing elements with
  | nil => simp
  | cons first mark induction =>
      rw [List.mem_cons, not_or] at noFeed noReturn
      cases elements with
      | nil => rfl
      | cons element rest =>
          have later := @induction rest noFeed.2 noReturn.2
          rw [withReturns] at later ⊢
          rw [List.flatMap_cons]
          split
          · rename_i equal
            rw [equal, List.cons_append, List.cons_prefix_cons, List.cons_prefix_cons]
            simp [Ne.symm noFeed.1, Ne.symm noReturn.1]
          · rw [List.singleton_append, List.cons_prefix_cons, List.cons_prefix_cons, later]

theorem mem_withReturns_iff {other : α} (different : other ≠ carriage) :
    other ∈ withReturns carriage feed elements ↔ other ∈ elements := by
  induction elements with
  | nil => rfl
  | cons element rest induction =>
      rw [withReturns] at induction ⊢
      rw [List.flatMap_cons, List.mem_append, List.mem_cons, induction]
      split
      · rename_i equal
        simp [equal, different]
      · simp

theorem withoutLast_of_notMem (outside : carriage ∉ elements) :
    withoutLast carriage elements = elements :=
  withoutLast_of_getLast?_ne fun last => outside (List.mem_of_getLast? last)

/-- Carriage returns are not seen by what drops them at the end of each line. -/
theorem ReadsLines.withReturns {read : List α → List (List α)}
    (reads : ReadsLines feed (withoutLast carriage) read) (different : feed ≠ carriage)
    (noReturn : carriage ∉ elements) :
    read (withReturns carriage feed elements) = read elements := by
  induction elements using induction_pieces feed with
  | last elements noFeed => rw [withReturns_of_notMem noFeed]
  | piece line rest noFeed induction =>
      rw [List.mem_append, List.mem_cons, not_or, not_or] at noReturn
      obtain ⟨inLine, -, inRest⟩ := noReturn
      have ended : feed ∉ line ++ [carriage] := by simp [noFeed, different]
      rw [withReturns_append noFeed, reads.line _ _ ended, reads.line _ _ noFeed,
        withoutLast_concat, withoutLast_of_notMem inLine, induction inRest]

end

def dosBytes (content : Bytes) : Bytes := withReturns 13 10 content

def dosEndings (text : Text) : Text := withReturns '\r' '\n' text

example : dosBytes [97, 10, 0xC3, 10] = [97, 13, 10, 0xC3, 13, 10] := by decide

/-! ## Lines that are read -/

theorem byteLines_dosBytes {content : Bytes} (noReturn : 13 ∉ content) :
    byteLines (dosBytes content) = byteLines content :=
  readsLines_byteLines.withReturns (by decide) noReturn

theorem lines_dosEndings {text : Text} (noReturn : '\r' ∉ text) :
    lines (dosEndings text) = lines text :=
  readsLines_lines.withReturns (by decide) noReturn

theorem unixEndings_of_notMem {text : Text} (noReturn : '\r' ∉ text) :
    unixEndings text = text := by
  apply unixEndings_eq_self
  intro row among last
  exact noReturn (mem_of_mem_splitBy among (List.mem_of_getLast? last))

theorem unixEndings_dosEndings {text : Text} (noReturn : '\r' ∉ text) :
    unixEndings (dosEndings text) = unixEndings text := by
  rw [unixEndings_of_notMem noReturn, dosEndings, withReturns]
  induction text with
  | nil => rfl
  | cons character rest induction =>
      rw [List.mem_cons, not_or] at noReturn
      rw [List.flatMap_cons]
      split
      · rename_i feed
        rw [feed, List.cons_append, List.singleton_append, unixEndings, induction noReturn.2]
      · rw [List.singleton_append, unixEndings, induction noReturn.2]
        intro later equal
        exact absurd equal.symm noReturn.1

/-! ## Decoding -/

/-- Carriage returns may be put in before or after decoding. -/
theorem decode_dosBytes (content : Bytes) :
    decode (dosBytes content) = dosEndings (decode content) := by
  induction content using induction_pieces (10 : UInt8) with
  | last content noFeed =>
      rw [dosBytes, dosEndings, withReturns_of_notMem noFeed,
        withReturns_of_notMem (noFeed_decode noFeed)]
  | piece line rest noFeed induction =>
      rw [dosBytes, dosEndings] at induction ⊢
      rw [withReturns_append noFeed, decode_append_feed, decode_append_feed,
        withReturns_append (noFeed_decode noFeed), decode_concat_return, induction]

theorem noReturn_decode {content : Bytes} (noReturn : 13 ∉ content) : '\r' ∉ decode content :=
  fun member => noReturn (mem_of_mem_decode member (by decide) (by decide))

theorem lines_decode_dosBytes {content : Bytes} (noReturn : 13 ∉ content) :
    lines (decode (dosBytes content)) = lines (decode content) := by
  rw [decode_dosBytes, lines_dosEndings (noReturn_decode noReturn)]

end LicenseSurvey.Text
