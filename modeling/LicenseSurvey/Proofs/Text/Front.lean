import LicenseSurvey.Proofs.Text.Decoding

/-! # The first lines of a file

A file can be cut behind its first lines before it is read, or its lines can be counted while
they are read. Both ways lead to the same lines, be they decoded one by one or all at once.
-/

namespace LicenseSurvey.Text

def frontLines : (count : Nat) → Bytes → Bytes
  | 0, _ => []
  | _ + 1, [] => []
  | count + 1, byte :: rest =>
      byte :: frontLines (if byte = 10 then count else count + 1) rest

example : frontLines 2 [97, 10, 98, 13, 10, 99] = [97, 10, 98, 13, 10] := by decide

example : frontLines 2 [97, 10, 98] = [97, 10, 98] := by decide

variable {count : Nat}

@[simp] theorem frontLines_zero (content : Bytes) : frontLines 0 content = [] := by
  cases content <;> rfl

theorem frontLines_append {line : Bytes} (noFeed : 10 ∉ line) (rest : Bytes) :
    frontLines (count + 1) (line ++ 10 :: rest) = line ++ 10 :: frontLines count rest := by
  induction line with
  | nil => rfl
  | cons byte line induction =>
      rw [List.mem_cons, not_or] at noFeed
      obtain ⟨different, noFeed⟩ := noFeed
      rw [List.cons_append, frontLines, if_neg (Ne.symm different), induction noFeed]
      rfl

theorem frontLines_of_notMem {line : Bytes} (noFeed : 10 ∉ line) :
    frontLines (count + 1) line = line := by
  induction line with
  | nil => rfl
  | cons byte line induction =>
      rw [List.mem_cons, not_or] at noFeed
      obtain ⟨different, noFeed⟩ := noFeed
      rw [frontLines, if_neg (Ne.symm different), induction noFeed]

/-- Whatever reads lines one after the other may count them instead of reading a shorter
file. -/
theorem ReadsLines.frontLines {Line : Type} {ofLine : Bytes → Line} {read : Bytes → List Line}
    (reads : ReadsLines 10 ofLine read) (count : Nat) (content : Bytes) :
    read (frontLines count content) = (read content).take count := by
  induction content using induction_pieces (10 : UInt8) generalizing count with
  | last content noFeed =>
      cases count with
      | zero => rw [frontLines_zero, reads.nil, List.take_zero]
      | succ count =>
          have atMostOne : (read content).length ≤ count + 1 :=
            Nat.le_trans (reads.last content noFeed) (Nat.le_add_left 1 count)
          rw [frontLines_of_notMem noFeed, List.take_of_length_le atMostOne]
  | piece line rest noFeed induction =>
      cases count with
      | zero => rw [frontLines_zero, reads.nil, List.take_zero]
      | succ count =>
          rw [frontLines_append noFeed, reads.line _ _ noFeed, reads.line _ _ noFeed, induction,
            List.take_succ_cons]

end LicenseSurvey.Text
