import LicenseSurvey.Proofs.Tag.Occurrence
import LicenseSurvey.Proofs.Text.Position

/-! # Byte positions of keys

Whether a key is at a byte position of a line is told by the bytes from there on. However many
bytes the characters of the line have, a key is at boundaries only, and it is at one exactly when
it stands in front of the text behind it.
-/

namespace LicenseSurvey

namespace Key

variable {Label : Type}

theorem size_take_of_standsAt {key : Key Label} {text : Text} (stands : key.standsAt text = true) :
    Text.size (text.take key.length) = key.size := by
  rcases standsAt_iff.mp stands with ⟨-, written, behind, rfl, same, ends⟩
  have long := Text.length_eq_of_lower_eq same
  have wide := Text.size_eq_of_lower_eq same
  rw [length, size]
  split
  · rw [List.take_left' long, wide]
  · rename_i shape
    rcases List.head?_eq_some_iff.mp (ends.resolve_left shape) with ⟨rest, rfl⟩
    rw [← List.singleton_append, ← List.append_assoc, List.take_left' (by simp [long]),
      Text.size_append, wide]
    rfl

/-! ## Keys among bytes -/

/-- Whether a key is at a byte position of a line. From there on are the bytes of its name, the
case of `A` to `Z` ignored, and a colon behind them unless the key is a marker. -/
def OccursAt (key : Key Label) (line : Text) (position : Nat) : Prop :=
  let name := Text.encode key.name
  let rest := (Text.encode line).drop position
  key.name ≠ [] ∧ Text.lowerBytes (rest.take name.length) = Text.lowerBytes name ∧
    (key.shape = .marker ∨ rest[name.length]? = some 58)

instance (key : Key Label) (line : Text) (position : Nat) :
    Decidable (key.OccursAt line position) :=
  inferInstanceAs (Decidable (_ ∧ _ ∧ _))

example : (Key.row "Tag" () .line).OccursAt "é tAG: x".toList 3 := by decide

variable {key : Key Label} {line : Text} {position : Nat}

theorem lt_length_of_occursAt (occurs : key.OccursAt line position) :
    position < (Text.encode line).length := by
  rcases occurs with ⟨named, same, -⟩
  have long := congrArg List.length same
  have positive := Text.size_pos named
  rw [Text.length_lowerBytes, Text.length_lowerBytes, List.length_take, List.length_drop,
    Text.length_encode key.name] at long
  omega

theorem occursAt_append_iff {front written behind : Text}
    (same : Text.lower written = Text.lower key.name) :
    key.OccursAt (front ++ (written ++ behind)) (Text.size front) ↔
      key.name ≠ [] ∧ (key.shape = .marker ∨ behind.head? = some ':') := by
  have wide : (Text.encode written).length = (Text.encode key.name).length := by
    rw [Text.length_encode, Text.length_encode, Text.size_eq_of_lower_eq same]
  have bytes : Text.lowerBytes (Text.encode written) = Text.lowerBytes (Text.encode key.name) := by
    rw [← Text.encode_lower, same, Text.encode_lower]
  have rest : (Text.encode (front ++ (written ++ behind))).drop (Text.size front) =
      Text.encode written ++ Text.encode behind := by
    rw [Text.encode_append, List.drop_left' (Text.length_encode front), Text.encode_append]
  rw [OccursAt, rest, ← wide, List.take_left, bytes, List.getElem?_append_right (Nat.le_refl _),
    Nat.sub_self, ← List.head?_eq_getElem?, Text.head?_encode_eq_colon_iff]
  simp

/-- A key is at a byte position exactly when it stands in front of the text behind a boundary. -/
theorem occursAt_iff :
    key.OccursAt line position ↔
      ∃ front text, line = front ++ text ∧ Text.size front = position ∧
        key.standsAt text = true := by
  constructor
  · intro occurs
    have inside := lt_length_of_occursAt occurs
    rcases occurs with ⟨named, same, ends⟩
    have lowered : Text.lower key.name ≠ [] := by simpa [Text.lower] using named
    have whole : Text.encode (Text.lower line) =
        Text.lowerBytes ((Text.encode line).take position) ++
          (Text.encode (Text.lower key.name) ++ Text.lowerBytes
            (((Text.encode line).drop position).drop (Text.encode key.name).length)) := by
      rw [Text.encode_lower, Text.encode_lower, ← same, ← Text.lowerBytes_append,
        List.take_append_drop, ← Text.lowerBytes_append, List.take_append_drop]
    rcases Text.exists_of_encode_eq lowered whole with ⟨front, back, split, ahead, -⟩
    rcases List.map_eq_append_iff.mp split with ⟨front, text, rfl, rfl, later⟩
    rcases List.map_eq_append_iff.mp later with ⟨written, behind, rfl, wrote, -⟩
    have placed : Text.size front = position := by
      have long := congrArg List.length ahead
      rw [← Text.lower, Text.encode_lower, Text.length_lowerBytes, Text.length_lowerBytes,
        Text.length_encode, List.length_take] at long
      omega
    have there : key.OccursAt (front ++ (written ++ behind)) (Text.size front) :=
      placed ▸ ⟨named, same, ends⟩
    rcases (occursAt_append_iff wrote).mp there with ⟨-, ends⟩
    exact ⟨front, written ++ behind, rfl, placed,
      standsAt_iff.mpr ⟨named, written, behind, rfl, wrote, ends⟩⟩
  · rintro ⟨front, text, rfl, rfl, stands⟩
    rcases standsAt_iff.mp stands with ⟨named, written, behind, rfl, same, ends⟩
    exact (occursAt_append_iff same).mpr ⟨named, ends⟩

theorem occursAt_size_iff {front text : Text} :
    key.OccursAt (front ++ text) (Text.size front) ↔ key.standsAt text = true := by
  rw [occursAt_iff]
  constructor
  · rintro ⟨other, rest, same, sizes, stands⟩
    rwa [(Text.append_inj_of_size_eq same sizes.symm).2]
  · exact fun stands => ⟨front, text, rfl, rfl, stands⟩

end Key

end LicenseSurvey
