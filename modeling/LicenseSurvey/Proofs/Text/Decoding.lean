import LicenseSurvey.Proofs.Text.Line
import Mathlib.Data.List.Basic

/-! # Decoding in pieces

A byte below 0x80 belongs to no longer character. Wherever it stands it ends what was begun
in front of it, gives the character of its own code, and leaves nothing begun. So a byte
string can be cut at such a byte before or after it is decoded, however ill-formed the bytes
beside it are.
-/

namespace LicenseSurvey.Text

/-! ## One byte -/

def Lead.reading : Lead → Text × Option Begun
  | .whole character => ([character], none)
  | .begun start => ([], some start)
  | .invalid => ([replacement], none)

def decodeByte : Option Begun → UInt8 → Text × Option Begun
  | none, byte => (Lead.ofByte byte).reading
  | some begun, byte =>
      let value := byte.toNat
      if begun.low ≤ value ∧ value ≤ begun.high then
        let bits := begun.bits * 64 + (value - 0x80)
        match begun.later with
        | 0 => ([Char.ofNat bits], none)
        | later + 1 => ([], some ⟨bits, later, 0x80, 0xBF⟩)
      else
        let (characters, next) := (Lead.ofByte byte).reading
        (replacement :: characters, next)

theorem decodeFrom_cons (begun : Option Begun) (byte : UInt8) (rest : Bytes) :
    decodeFrom begun (byte :: rest) =
      (decodeByte begun byte).1 ++ decodeFrom (decodeByte begun byte).2 rest := by
  cases begun with
  | none =>
      rw [decodeFrom, decodeByte]
      cases Lead.ofByte byte <;> rfl
  | some begun =>
      by_cases within : begun.low ≤ byte.toNat ∧ byte.toNat ≤ begun.high
      · simp only [decodeFrom, decodeByte, if_pos within]
        cases begun.later <;> rfl
      · simp only [decodeFrom, decodeByte, if_neg within]
        cases Lead.ofByte byte <;> rfl

/-! ## What can be begun -/

/-- Only a character of two bytes or more can be begun: short bytes do not go on with it,
and its code will not be that of a short character. -/
structure Begun.IsLong (begun : Begun) : Prop where
  low : 0x80 ≤ begun.low
  bits : 2 ≤ begun.bits ∨ 0 < begun.later ∧ 0x82 ≤ begun.bits * 64 + begun.low

theorem isLong_of_ofByte {byte : UInt8} {start : Begun}
    (lead : Lead.ofByte byte = .begun start) : start.IsLong := by
  simp only [Lead.ofByte] at lead
  -- One case for each length that a first byte may announce.
  split at lead
  · exact Lead.noConfusion lead
  split at lead
  · exact Lead.noConfusion lead
  split at lead
  · rw [← Lead.begun.inj lead]
    exact ⟨Nat.le_refl _, .inl (by simp only; omega)⟩
  split at lead
  · rw [← Lead.begun.inj lead]
    constructor <;> grind
  split at lead
  · rw [← Lead.begun.inj lead]
    constructor <;> grind
  · exact Lead.noConfusion lead

theorem ofByte_of_short {byte : UInt8} (short : byte.toNat < 0x80) :
    Lead.ofByte byte = .whole (Char.ofNat byte.toNat) := by
  rw [Lead.ofByte, if_pos short]

theorem short_of_ofByte {byte : UInt8} {character : Char}
    (lead : Lead.ofByte byte = .whole character) : byte.toNat < 0x80 := by
  rcases Nat.lt_or_ge byte.toNat 0x80 with short | long
  · exact short
  · simp only [Lead.ofByte, if_neg (Nat.not_lt.mpr long)] at lead
    grind

theorem isLong_of_decodeByte {begun : Option Begun} (long : ∀ start ∈ begun, start.IsLong)
    (byte : UInt8) : ∀ start ∈ (decodeByte begun byte).2, start.IsLong := by
  have ofLead : ∀ start ∈ (Lead.ofByte byte).reading.2, start.IsLong := by
    cases lead : Lead.ofByte byte with
    | whole | invalid => simp [Lead.reading]
    | begun start => simpa [Lead.reading] using isLong_of_ofByte lead
  cases begun with
  | none => exact ofLead
  | some begun =>
      have isLong := long begun rfl
      have low := isLong.low
      have bits := isLong.bits
      simp only [decodeByte]
      split
      · rename_i within
        split
        · simp
        · simp only [Option.mem_some_iff, forall_eq']
          refine ⟨Nat.le_refl _, .inl ?_⟩
          simp only
          omega
      · exact ofLead

theorem decodeByte_of_short {begun : Option Begun} (long : ∀ start ∈ begun, start.IsLong)
    {byte : UInt8} (short : byte.toNat < 0x80) :
    decodeByte begun byte = (decodeFrom begun [] ++ [Char.ofNat byte.toNat], none) := by
  cases begun with
  | none => rw [decodeByte, ofByte_of_short short, decodeFrom, Lead.reading, List.nil_append]
  | some begun =>
      have low := (long begun rfl).low
      rw [decodeByte, if_neg (by omega), ofByte_of_short short]
      rfl

theorem toNat_char (code : Nat) :
    (Char.ofNat code).toNat = code ∨ (Char.ofNat code).toNat = 0 := by
  by_cases valid : code.isValidChar
  · rw [Char.ofNat, dif_pos valid]
    exact .inl rfl
  · rw [Char.ofNat, dif_neg valid]
    exact .inr rfl

theorem toNat_of_mem_decodeByte {begun : Option Begun} (long : ∀ start ∈ begun, start.IsLong)
    {byte : UInt8} {character : Char} (member : character ∈ (decodeByte begun byte).1)
    (notNull : 0 < character.toNat) (short : character.toNat < 0x80) :
    byte.toNat = character.toNat := by
  have notReplacement : character ≠ replacement := by
    rintro rfl
    exact absurd short (by decide)
  have ofLead (inside : character ∈ (Lead.ofByte byte).reading.1) :
      byte.toNat = character.toNat := by
    cases lead : Lead.ofByte byte with
    | whole whole =>
        rw [ofByte_of_short (short_of_ofByte lead), Lead.reading, List.mem_singleton] at inside
        rw [inside] at notNull ⊢
        have code := toNat_char byte.toNat
        omega
    | begun => simp [lead, Lead.reading] at inside
    | invalid =>
        rw [lead, Lead.reading, List.mem_singleton] at inside
        exact absurd inside notReplacement
  cases begun with
  | none => exact ofLead member
  | some begun =>
      have bits := (long begun rfl).bits
      by_cases within : begun.low ≤ byte.toNat ∧ byte.toNat ≤ begun.high
      · simp only [decodeByte, if_pos within] at member
        split at member
        -- The last byte of a longer character: its code is at least 0x80.
        · rw [List.mem_singleton] at member
          have code := toNat_char (begun.bits * 64 + (byte.toNat - 0x80))
          rw [← member] at code
          omega
        · exact absurd member List.not_mem_nil
      · simp only [decodeByte, if_neg within] at member
        rcases List.mem_cons.mp member with equal | inside
        · exact absurd equal notReplacement
        · exact ofLead inside

theorem exists_of_decodeByte_eq_nil {begun : Option Begun} {byte : UInt8}
    (nothing : (decodeByte begun byte).1 = []) :
    ∃ start, (decodeByte begun byte).2 = some start := by
  cases begun with
  | none =>
      rw [decodeByte] at nothing ⊢
      cases lead : Lead.ofByte byte with
      | whole | invalid => simp [lead, Lead.reading] at nothing
      | begun start => exact ⟨start, rfl⟩
  | some begun =>
      by_cases within : begun.low ≤ byte.toNat ∧ byte.toNat ≤ begun.high
      · simp only [decodeByte, if_pos within] at nothing ⊢
        cases later : begun.later with
        | zero => simp [later] at nothing
        | succ later => exact ⟨_, rfl⟩
      · simp only [decodeByte, if_neg within] at nothing
        exact absurd nothing (List.cons_ne_nil _ _)

/-! ## Many bytes -/

theorem decodeFrom_eq_nil_iff {begun : Option Begun} {content : Bytes} :
    decodeFrom begun content = [] ↔ begun = none ∧ content = [] := by
  constructor
  · intro nothing
    induction content generalizing begun with
    | nil =>
        cases begun with
        | none => exact ⟨rfl, rfl⟩
        | some begun => exact absurd nothing (List.cons_ne_nil _ _)
    | cons byte rest induction =>
        rw [decodeFrom_cons, List.append_eq_nil_iff] at nothing
        obtain ⟨start, next⟩ := exists_of_decodeByte_eq_nil nothing.1
        exact absurd ((induction nothing.2).1.symm.trans next) (Option.some_ne_none start).symm
  · rintro ⟨rfl, rfl⟩
    rfl

@[simp] theorem decode_eq_nil_iff {content : Bytes} : decode content = [] ↔ content = [] := by
  rw [decode, decodeFrom_eq_nil_iff, eq_self, true_and]

theorem decodeFrom_append {begun : Option Begun} (long : ∀ start ∈ begun, start.IsLong)
    {byte : UInt8} (short : byte.toNat < 0x80) (left right : Bytes) :
    decodeFrom begun (left ++ byte :: right) =
      decodeFrom begun left ++ Char.ofNat byte.toNat :: decodeFrom none right := by
  induction left generalizing begun with
  | nil => simp [decodeFrom_cons, decodeByte_of_short long short]
  | cons first left induction =>
      rw [List.cons_append, decodeFrom_cons, decodeFrom_cons,
        induction (isLong_of_decodeByte long first), List.append_assoc]

/-- A text can be cut at a short byte before it is decoded. -/
theorem decode_append {byte : UInt8} (short : byte.toNat < 0x80) (left right : Bytes) :
    decode (left ++ byte :: right) =
      decode left ++ Char.ofNat byte.toNat :: decode right :=
  decodeFrom_append (by simp) short left right

theorem toNat_of_mem_decodeFrom {begun : Option Begun} (long : ∀ start ∈ begun, start.IsLong)
    {content : Bytes} {character : Char} (member : character ∈ decodeFrom begun content)
    (notNull : 0 < character.toNat) (short : character.toNat < 0x80) :
    ∃ byte ∈ content, byte.toNat = character.toNat := by
  induction content generalizing begun with
  | nil =>
      cases begun with
      | none => exact absurd member List.not_mem_nil
      | some begun =>
          rw [decodeFrom, List.mem_singleton] at member
          rw [member] at short
          exact absurd short (by decide)
  | cons first rest induction =>
      rw [decodeFrom_cons, List.mem_append] at member
      rcases member with here | later
      · exact ⟨first, List.mem_cons_self .., toNat_of_mem_decodeByte long here notNull short⟩
      · obtain ⟨byte, inside, equal⟩ := induction (isLong_of_decodeByte long first) later
        exact ⟨byte, List.mem_cons_of_mem _ inside, equal⟩

theorem mem_of_mem_decode {content : Bytes} {byte : UInt8}
    (member : Char.ofNat byte.toNat ∈ decode content) (notNull : 0 < byte.toNat)
    (short : byte.toNat < 0x80) : byte ∈ content := by
  have code : (Char.ofNat byte.toNat).toNat = byte.toNat := by
    rw [Char.ofNat, dif_pos (.inl (by omega))]
    rfl
  obtain ⟨other, inside, equal⟩ := toNat_of_mem_decodeFrom (by simp) member
    (by rwa [code]) (by rwa [code])
  rwa [← UInt8.toNat_inj.mp (equal.trans code)]

theorem toNat_of_getLast?_decodeFrom {begun : Option Begun}
    (long : ∀ start ∈ begun, start.IsLong) {content : Bytes} {character : Char}
    (last : (decodeFrom begun content).getLast? = some character) (notNull : 0 < character.toNat)
    (short : character.toNat < 0x80) :
    ∃ byte, content.getLast? = some byte ∧ byte.toNat = character.toNat := by
  have notReplacement : [replacement].getLast? ≠ some character := by
    rintro equal
    rw [← Option.some.inj equal] at short
    exact absurd short (by decide)
  induction content generalizing begun with
  | nil =>
      cases begun with
      | none => simp [decodeFrom] at last
      | some begun => exact absurd last notReplacement
  | cons first rest induction =>
      rw [decodeFrom_cons] at last
      cases rest with
      | cons second rest =>
          rw [List.getLast?_append_of_ne_nil _ (by simp [decodeFrom_eq_nil_iff])] at last
          rw [List.getLast?_cons_cons]
          exact induction (isLong_of_decodeByte long first) last
      | nil =>
          refine ⟨first, rfl, ?_⟩
          cases next : (decodeByte begun first).2 with
          | none =>
              rw [next, decodeFrom, List.append_nil] at last
              exact toNat_of_mem_decodeByte long (List.mem_of_getLast? last) notNull short
          | some start =>
              rw [next, decodeFrom, List.getLast?_append_of_ne_nil _ (List.cons_ne_nil _ _)] at last
              exact absurd last notReplacement

/-! ## Lines -/

theorem decode_append_feed (left right : Bytes) :
    decode (left ++ 10 :: right) = decode left ++ '\n' :: decode right :=
  decode_append (by decide) left right

theorem noFeed_decode {content : Bytes} (noFeed : 10 ∉ content) : '\n' ∉ decode content :=
  fun member => noFeed (mem_of_mem_decode member (by decide) (by decide))

theorem decode_concat_return (content : Bytes) :
    decode (content ++ [13]) = decode content ++ ['\r'] :=
  decode_append (by decide) content []

theorem getLast?_of_getLast?_decode {content : Bytes}
    (last : (decode content).getLast? = some '\r') : content.getLast? = some 13 := by
  obtain ⟨byte, final, equal⟩ := toNat_of_getLast?_decodeFrom (by simp) last (by decide) (by decide)
  rw [final, Option.some.injEq]
  exact UInt8.toNat_inj.mp equal

/-- The carriage return of a line may be dropped before or after decoding. -/
theorem decode_withoutLast (line : Bytes) :
    decode (withoutLast 13 line) = withoutLast '\r' (decode line) := by
  by_cases last : line.getLast? = some 13
  · obtain ⟨front, rfl⟩ := List.getLast?_eq_some_iff.mp last
    rw [withoutLast_concat, decode_concat_return, withoutLast_concat]
  · rw [withoutLast_of_getLast?_ne last, withoutLast_of_getLast?_ne]
    exact fun decoded => last (getLast?_of_getLast?_decode decoded)

/-- The lines of a file may be decoded all at once. -/
theorem ReadsLines.decode {Line : Type} {ofLine : Text → Line} {read : Text → List Line}
    (reads : ReadsLines '\n' ofLine read) :
    ReadsLines 10 (fun line => ofLine (decode line)) fun content => read (decode content) where
  nil := reads.nil
  last rest noFeed := reads.last (Text.decode rest) (noFeed_decode noFeed)
  line line rest noFeed := by
    rw [decode_append_feed]
    exact reads.line (Text.decode line) (Text.decode rest) (noFeed_decode noFeed)

end LicenseSurvey.Text
