/-! # Results and causes

A computation that can fail ends with a result or with the cause of its failure. When one
computation follows another, the whole has a result when both have, and the cause is that of
the first to fail.
-/

namespace LicenseSurvey

variable {First Second Cause Other : Type} {first : Except Cause First}
  {next : First → Except Cause Second} {cause : Cause}

theorem map_eq_error_iff {change : First → Second} :
    first.map change = .error cause ↔ first = .error cause := by
  cases first <;> simp [Except.map]

theorem map_eq_ok_iff {change : First → Second} {changed : Second} :
    first.map change = .ok changed ↔ ∃ result, first = .ok result ∧ change result = changed := by
  cases first <;> simp [Except.map]

@[simp] theorem mapError_ok (change : Cause → Other) (result : First) :
    (Except.ok result).mapError change = .ok result := rfl

@[simp] theorem mapError_error (change : Cause → Other) (cause : Cause) :
    (Except.error cause : Except Cause First).mapError change = .error (change cause) := rfl

theorem mapError_eq_error_iff {change : Cause → Other} {changed : Other} :
    first.mapError change = .error changed ↔
      ∃ cause, first = .error cause ∧ change cause = changed := by
  cases first <;> simp

theorem mapError_eq_ok_iff {change : Cause → Other} {result : First} :
    first.mapError change = .ok result ↔ first = .ok result := by
  cases first <;> simp

end LicenseSurvey
