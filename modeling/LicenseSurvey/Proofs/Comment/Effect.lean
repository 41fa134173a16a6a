import LicenseSurvey.Comment.Extraction

/-! # The effect of a marker

In each context some markers have an effect and the others have none. A marker with an
effect may complete a comment, it changes what is open, and a line marker takes the rest
of its line. Reading the tokens of a line comes down to these three, token by token.
-/

namespace LicenseSurvey.Context

def counts : Context → Mark → Bool
  | .code, .blockClosing => false
  | .code, _ => true
  | .block .., .blockClosing => true
  | .block .., _ => false
  | .quotation _, .quotation _ => true
  | .quotation _, _ => false

def takesLine : Context → Mark → Bool
  | .code, .lineComment => true
  | _, _ => false

def behind (context : Context) (token : MarkToken) : Context :=
  match context, token.mark with
  | .code, .blockOpening => .block [] token.position token.ahead
  | .code, .quotation quote => .quotation quote
  | .block .., .blockClosing => .code
  | .quotation openQuote, .quotation quote =>
      if openQuote = quote then .code else .quotation quote
  | context, _ => context

def completed? (markers : Markers) (number : Nat) (context : Context) (token : MarkToken) :
    Option Comment :=
  match context, token.mark with
  | .code, .lineComment => some (.ofLineMarker markers number token)
  | .block earlier start ahead, .blockClosing =>
      some (.ofParts markers (frontOfLine number start token.stop ahead :: earlier))
  | _, _ => none

theorem completed?_eq_some {markers : Markers} {number : Nat} {context : Context}
    {token : MarkToken} {comment : Comment}
    (completed : completed? markers number context token = some comment) :
    (context = .code ∧ token.mark = .lineComment ∧
      comment = .ofLineMarker markers number token) ∨
    ∃ earlier start ahead, context = .block earlier start ahead ∧ token.mark = .blockClosing ∧
      comment = .ofParts markers (frontOfLine number start token.stop ahead :: earlier) := by
  cases context with
  | code =>
      cases mark : token.mark <;> simp [completed?, mark] at completed
      exact .inl ⟨rfl, rfl, completed.symm⟩
  | block earlier start ahead =>
      cases mark : token.mark <;> simp [completed?, mark] at completed
      exact .inr ⟨earlier, start, ahead, rfl, rfl, completed.symm⟩
  | quotation quote => cases mark : token.mark <;> simp [completed?] at completed

@[simp] theorem readTokens_nil (markers : Markers) (number : Nat) (context : Context) :
    readTokens markers number context [] = ([], context) := by
  cases context <;> rfl

/-- A token without an effect might as well be absent. -/
theorem readTokens_of_not_counts (markers : Markers) (number : Nat) {context : Context}
    {token : MarkToken} (ignored : context.counts token.mark = false)
    (tokens : List MarkToken) :
    readTokens markers number context (token :: tokens) =
      readTokens markers number context tokens := by
  cases context <;> cases mark : token.mark <;> simp [counts, mark] at ignored <;>
    simp [readTokens, mark]

theorem readTokens_cons (markers : Markers) (number : Nat) (context : Context)
    (token : MarkToken) (tokens : List MarkToken) :
    readTokens markers number context (token :: tokens) =
      let later :=
        if context.takesLine token.mark then ([], context)
        else readTokens markers number (context.behind token) tokens
      ((completed? markers number context token).toList ++ later.1, later.2) := by
  cases context <;> cases mark : token.mark <;>
    simp [readTokens, takesLine, completed?, behind, mark]

theorem takesLine_eq_true {context : Context} {mark : Mark}
    (takes : context.takesLine mark = true) : context = .code ∧ mark = .lineComment := by
  cases context <;> cases mark <;> simp [takesLine] at takes ⊢

/-- What each line of a file keeps, and what it says about the comments that end there, is
true of all comments of the file. -/
theorem forall_mem_readLines {markers : Markers} {lines : List Text}
    {holds : Nat → Context → Prop} {property : Comment → Prop}
    (step : ∀ number context line, 1 ≤ number ∧ lines[number - 1]? = some line →
      holds number context →
        (∀ comment ∈ (readLine markers number context line).1, property comment) ∧
          holds (number + 1) (readLine markers number context line).2)
    {context : Context} (start : holds 1 context) :
    ∀ comment ∈ (readLines markers 1 context lines).1, property comment := by
  -- The induction is on the lines that are still ahead, with those `before` them given.
  have run (before rest : List Text) (whole : lines = before ++ rest) (context : Context)
      (reached : holds (before.length + 1) context) :
      ∀ comment ∈ (readLines markers (before.length + 1) context rest).1, property comment := by
    induction rest generalizing before context with
    | nil => simp [readLines]
    | cons line rest induction =>
        have source : 1 ≤ before.length + 1 ∧ lines[before.length + 1 - 1]? = some line := by
          simp [whole]
        obtain ⟨comments, next⟩ := step _ context line source reached
        have later := induction (before ++ [line]) (by simp [whole]) _ (by simpa using next)
        rw [List.length_append, List.length_singleton] at later
        exact List.forall_mem_append.mpr ⟨comments, later⟩
  exact run [] lines rfl context start

end LicenseSurvey.Context
